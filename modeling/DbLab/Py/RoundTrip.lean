import DbLab.Py.Scan
import DbLab.Py.Utf8
import DbLab.Py.Exec

/-!
# `json.loads(json.dumps(v))`

Values that the writer puts down (`Legible`) are read back as they were, up to the order `sort_keys`
gives to the members of objects, and the text can be encoded.
-/

namespace DbLab.Py

/-! ### Ordering members -/

section Order
variable {V W : Type}

/-- Inserting only reorders. -/
lemma insertByKey_perm (e : Str × V) (ms : List (Str × V)) : (insertByKey e ms).Perm (e :: ms) := by
  induction ms with
  | nil => exact .refl _
  | cons e' ms ih =>
    rw [insertByKey]
    split
    · exact .refl _
    · exact (ih.cons e').trans (.swap e e' ms)

/-- Sorting only reorders. -/
lemma sortByKey_perm (ms : List (Str × V)) : (sortByKey ms).Perm ms := by
  induction ms with
  | nil => exact .refl _
  | cons e ms ih => exact (insertByKey_perm e _).trans (ih.cons e)

/-- The order of the keys only reorders. -/
lemma order_perm (o : Dump) (ms : List (Str × V)) : (o.order ms).Perm ms := by
  rw [Dump.order]
  split
  · exact sortByKey_perm ms
  · exact .refl _

/-- Inserting looks at the key alone. -/
lemma insertByKey_map (f : V → W) (e : Str × V) (ms : List (Str × V)) :
    insertByKey (e.1, f e.2) (ms.map fun e => (e.1, f e.2)) =
      (insertByKey e ms).map fun e => (e.1, f e.2) := by
  induction ms with
  | nil => rfl
  | cons e' ms ih =>
    rw [List.map_cons, insertByKey, insertByKey]
    split
    · rfl
    · rw [List.map_cons, ih]

/-- The order depends on the keys only. -/
lemma order_map (o : Dump) (f : V → W) (ms : List (Str × V)) :
    o.order (ms.map fun e => (e.1, f e.2)) = (o.order ms).map fun e => (e.1, f e.2) := by
  have sorted : sortByKey (ms.map fun e => (e.1, f e.2)) = (sortByKey ms).map fun e =>
    (e.1, f e.2) := by
    induction ms with
    | nil => rfl
    | cons e ms ih => rw [List.map_cons, sortByKey, ih, insertByKey_map, ← sortByKey]
  rw [Dump.order, Dump.order]
  split
  · exact sorted
  · rfl

end Order

/-! ### Characters that can be encoded -/

/-- A code point that UTF-8 can encode. -/
def Scalar (c : Nat) : Prop := c < 0x110000 ∧ surrogate c = false

instance : DecidablePred Scalar := fun c =>
  inferInstanceAs (Decidable (c < 0x110000 ∧ surrogate c = false))

/-- ASCII encodes. -/
lemma ascii_scalar {c : Nat} (h : c < 128) : Scalar c := ⟨by omega, by simp [surrogate]; omega⟩

/-- A scalar value has its bytes. -/
lemma encodeChar_scalar {c : Nat} (h : Scalar c) : ∃ b, encodeChar c = .ok b := by
  obtain ⟨lt, scalar⟩ := h
  rw [encodeChar]
  split_ifs with h1 h2 h3 h4
  · exact ⟨_, rfl⟩
  · exact ⟨_, rfl⟩
  · rw [scalar] at h3
    cases h3
  · exact ⟨_, rfl⟩
  · exact ⟨_, rfl⟩

/-- Text without surrogates can be encoded. -/
lemma encode_scalar {s : Str} (h : ∀ c ∈ s, Scalar c) : ∃ b, encode s = .ok b := by
  induction s with
  | nil => exact ⟨[], rfl⟩
  | cons c s ih =>
    obtain ⟨b, hb⟩ := encodeChar_scalar (h c List.mem_cons_self)
    obtain ⟨bs, hbs⟩ := ih fun u m => h u (List.mem_cons_of_mem _ m)
    exact ⟨b ++ bs, by rw [encode, hb, ok_bind, hbs]; rfl⟩

/-- A hex digit encodes. -/
lemma hexDigit_scalar {n : Nat} (h : n < 16) : Scalar (hexDigit n) :=
  ascii_scalar (by rw [hexDigit]; split <;> omega)

/-- An escape encodes. -/
lemma escapeChar_scalar {c : Nat} (h : Scalar c) : ∀ u ∈ escapeChar c, Scalar u := by
  rw [escapeChar]
  split_ifs with h1 h2 h3 h4 h5 h6 h7 lt
  iterate 7 exact fun u m => ascii_scalar (by revert u; decide)
  · have backslash : ∀ u ∈ str "\\u00", u < 128 := by decide
    intro u m
    rcases List.mem_append.1 m with m | m
    · exact ascii_scalar (backslash u m)
    · simp only [List.mem_cons, List.not_mem_nil, or_false] at m
      rcases m with rfl | rfl
      · exact hexDigit_scalar (by omega)
      · exact hexDigit_scalar (by omega)
  · intro u m
    rw [List.mem_singleton.1 m]
    exact h

/-- A quoted text encodes. -/
lemma quote_scalar {s : Str} (h : ∀ c ∈ s, Scalar c) : ∀ c ∈ quote s, Scalar c := by
  intro c m
  simp only [quote, List.mem_cons, List.mem_append, List.mem_flatMap, List.not_mem_nil,
    or_false] at m
  rcases m with rfl | ⟨u, mu, m⟩ | rfl
  · exact ascii_scalar (by decide)
  · exact escapeChar_scalar (h u mu) c m
  · exact ascii_scalar (by decide)

/-- A digit encodes. -/
lemma digit_scalar {c : Nat} (h : isDigit c = true) : Scalar c := by
  rw [isDigit_iff] at h
  exact ascii_scalar (by omega)

/-- An integer part encodes. -/
lemma intPart_scalar {i : Str} (h : IntPart i) : ∀ c ∈ i, Scalar c := by
  obtain ⟨sign, ds, rfl, hs, hd⟩ := h
  intro c m
  rcases List.mem_append.1 m with m | m
  · rcases hs with rfl | rfl
    · cases m
    · rw [List.mem_singleton.1 m]
      exact ascii_scalar (by decide)
  · rcases hd with rfl | ⟨d, r, rfl, _, digit, digits⟩
    · rw [List.mem_singleton.1 m]
      exact ascii_scalar (by decide)
    · rcases List.mem_cons.1 m with rfl | m
      · exact digit_scalar digit
      · exact digit_scalar (digits c m)

/-- The text of a float encodes. -/
lemma floatText_scalar {t : Str} (h : FloatText t) : ∀ c ∈ t, Scalar c := by
  obtain ⟨i, f, e, rfl, int, frac, exp, _⟩ := h
  intro c m
  rcases List.mem_append.1 m with m | m
  · exact intPart_scalar int c m
  · rcases List.mem_append.1 m with m | m
    · rcases frac with rfl | ⟨ds, rfl, _, digits⟩
      · cases m
      · rcases List.mem_cons.1 m with rfl | m
        · exact ascii_scalar (by decide)
        · exact digit_scalar (digits c m)
    · rcases exp with rfl | ⟨x, sign, ds, rfl, hx, hs, _, digits⟩
      · cases m
      · rcases List.mem_cons.1 m with rfl | m
        · exact ascii_scalar (by omega)
        · rcases List.mem_append.1 m with m | m
          · refine ascii_scalar ?_
            rcases hs with rfl | rfl | rfl
            · cases m
            · rw [List.mem_singleton.1 m]; decide
            · rw [List.mem_singleton.1 m]; decide
          · exact digit_scalar (digits c m)

/-! ### Separators -/

/-- A text that starts a value: no white space, no closing bracket and no byte order mark. -/
def Starts (t : Str) : Prop := ∃ c r, t = c :: r ∧ whitespace c = false ∧ c ≠ 93 ∧ c ≠ 0xFEFF

/-- Nothing to skip. -/
lemma skipWs_cons {c : Nat} (h : whitespace c = false) (r : Str) : skipWs (c :: r) = c :: r := by
  simp [skipWs, h]

/-- Nothing to skip before a value. -/
lemma skipWs_starts {t : Str} (h : Starts t) (r : Str) : skipWs (t ++ r) = t ++ r := by
  obtain ⟨c, t, rfl, ws, _⟩ := h
  exact skipWs_cons ws _

/-- A number starts a value. -/
lemma intPart_starts {i r : Str} (h : IntPart i) : Starts (i ++ r) := by
  obtain ⟨c, t, rfl, first⟩ := intPart_head h
  rcases first with digit | ⟨rfl, _⟩
  · rw [isDigit_iff] at digit
    exact ⟨c, _, rfl, by simp [whitespace]; omega, by omega, by omega⟩
  · exact ⟨45, _, rfl, rfl, by decide⟩

/-- The separators: a comma or a colon, and one space unless compact. -/
lemma itemSep_eq (o : Dump) : ∃ ws, o.itemSep = 44 :: ws ∧ ∀ t, skipWs (ws ++ t) = skipWs t := by
  rw [Dump.itemSep]
  cases o.compact
  · exact ⟨[32], rfl, fun t => rfl⟩
  · exact ⟨[], rfl, fun t => rfl⟩

/-- After a key, a colon and perhaps a space. -/
lemma keySep_eq (o : Dump) : ∃ ws, o.keySep = 58 :: ws ∧ ∀ t, skipWs (ws ++ t) = skipWs t := by
  rw [Dump.keySep]
  cases o.compact
  · exact ⟨[32], rfl, fun t => rfl⟩
  · exact ⟨[], rfl, fun t => rfl⟩

/-- The first part and the others after separators. -/
lemma intercalate_cons (sep t : Str) (ts : List Str) :
    sep.intercalate (t :: ts) = t ++ ts.flatMap fun t => sep ++ t := by
  induction ts generalizing t with
  | nil => simp
  | cons t' ts ih =>
    rw [List.intercalate_cons_cons, ih, List.flatMap_cons, List.append_assoc, List.append_assoc]

/-- There are at least as many characters as separators. -/
lemma length_flatMap_sep {α : Type} (f : α → Str) (sep : Str) (ne : sep ≠ []) (l : List α) :
    l.length ≤ (l.flatMap fun a => sep ++ f a).length := by
  have pos := List.length_pos_of_ne_nil ne
  induction l with
  | nil => exact Nat.zero_le _
  | cons a l ih =>
    rw [List.flatMap_cons, List.length_append, List.length_append, List.length_cons]
    omega

/-- Items are separated. -/
lemma itemSep_ne_nil (o : Dump) : o.itemSep ≠ [] := by
  obtain ⟨ws, sep, _⟩ := itemSep_eq o
  rw [sep]
  exact List.cons_ne_nil _ _

/-- The separator encodes. -/
lemma itemSep_scalar (o : Dump) : ∀ c ∈ o.itemSep, Scalar c := by
  intro c m
  rw [Dump.itemSep] at m
  split at m <;> exact ascii_scalar (by revert c; decide)

/-- The separator after a key encodes. -/
lemma keySep_scalar (o : Dump) : ∀ c ∈ o.keySep, Scalar c := by
  intro c m
  rw [Dump.keySep] at m
  split at m <;> exact ascii_scalar (by revert c; decide)

/-- Parts and separator encode together. -/
lemma intercalate_scalar {sep : Str} {ts : List Str} (hs : ∀ c ∈ sep, Scalar c)
    (h : ∀ t ∈ ts, ∀ c ∈ t, Scalar c) : ∀ c ∈ sep.intercalate ts, Scalar c := by
  cases ts with
  | nil => exact nofun
  | cons t ts =>
    rw [intercalate_cons]
    intro c m
    rcases List.mem_append.1 m with m | m
    · exact h t List.mem_cons_self c m
    · obtain ⟨t', mt, m⟩ := List.mem_flatMap.1 m
      rcases List.mem_append.1 m with m | m
      · exact hs c m
      · exact h t' (List.mem_cons_of_mem _ mt) c m

/-- A member as it is written. -/
def memberText (o : Dump) (m : Str × Str) : Str := quote m.1 ++ o.keySep ++ m.2

/-- A member starts with its quote. -/
lemma memberText_starts (o : Dump) (m : Str × Str) : Starts (memberText o m) :=
  ⟨34, _, rfl, rfl, by decide⟩

variable [Interpreter] {ε : Type}

mutual
/-- The value with the members of its objects in the order they are written in. -/
def Value.reorder (o : Dump) : Value → Value
  | .list xs => .list (reorderList o xs)
  | .dict ms => .dict (o.order (reorderDict o ms))
  | v => v
def Value.reorderList (o : Dump) : List Value → List Value
  | [] => []
  | x :: xs => x.reorder o :: reorderList o xs
def Value.reorderDict (o : Dump) : List (Str × Value) → List (Str × Value)
  | [] => []
  | (k, v) :: ms => (k, v.reorder o) :: reorderDict o ms
end

/-- Reordering the elements. -/
lemma reorderList_eq (o : Dump) (xs : List Value) :
    Value.reorderList o xs = xs.map (Value.reorder o) := by
  induction xs with
  | nil => rfl
  | cons x xs ih => rw [Value.reorderList, ih, List.map_cons]

/-- Reordering the members. -/
lemma reorderDict_eq (o : Dump) (ms : List (Str × Value)) :
    Value.reorderDict o ms = ms.map fun e => (e.1, e.2.reorder o) := by
  induction ms with
  | nil => rfl
  | cons e ms ih => rw [Value.reorderDict, ih, List.map_cons]

/-! ### Legible values -/

/-- Values that can be written and read back, nested at most `d` deep. -/
inductive Legible : Nat → Value → Prop
  | null {d} : Legible d .null
  | bool {d b} : Legible d (.bool b)
  | int {d n} (digits : (digitChars n.natAbs).length ≤ maxStrDigits) : Legible d (.int n)
  | float {d x q} (finite : Interpreter.view x = .finite q) : Legible d (.float x)
  | str {d s} (chars : ∀ c ∈ s, Scalar c) : Legible d (.str s)
  | list {d xs} (elems : ∀ x ∈ xs, Legible d x) : Legible (d + 1) (.list xs)
  | dict {d ms} (keys : (ms.map Prod.fst).Nodup) (chars : ∀ e ∈ ms, ∀ c ∈ e.1, Scalar c)
      (members : ∀ e ∈ ms, Legible d e.2) : Legible (d + 1) (.dict ms)

/-- Distinct literal keys that can be encoded. -/
def literalKeys (ks : List String) : Bool :=
  decide ks.Nodup && ks.all fun k => (str k).all fun c => decide (Scalar c)

/-- A dictionary display with distinct literal keys. -/
lemma Legible.ofFields {d : Nat} {fs : List (String × Value)}
    (keys : literalKeys (fs.map Prod.fst) = true)
    (members : ∀ f ∈ fs, Legible d f.2) : Legible (d + 1) (.ofFields fs) := by
  simp only [literalKeys, Bool.and_eq_true, decide_eq_true_eq, List.all_eq_true] at keys
  obtain ⟨nodup, chars⟩ := keys
  apply Legible.dict
  · have distinct := nodup.map fun a b (e : Py.str a = Py.str b) => str_inj.1 e
    rw [List.map_map] at distinct ⊢
    exact distinct
  · intro e m
    obtain ⟨f, mf, rfl⟩ := List.mem_map.1 m
    exact chars f.1 (List.mem_map_of_mem mf)
  · intro e m
    obtain ⟨f, mf, rfl⟩ := List.mem_map.1 m
    exact members f mf

/-- Hooks that keep members with distinct keys. -/
def Hooks.Keeps (h : Hooks ε) : Prop := ∀ ms, (ms.map Prod.fst).Nodup → h.pairs ms = .ok (.dict ms)

/-- The default hooks keep distinct keys. -/
lemma Hooks.default_keeps : Hooks.default.Keeps := fun _ nd => congrArg Except.ok (dictOf_nodup nd)

/-- `pv` reads `v` off a text that starts with `t`. -/
def Reads (pv : Str → Except ε (Value × Str)) (v : Value) (t : Str) : Prop :=
  Starts t ∧ ∀ r, Delimited r → pv (t ++ r) = .ok (v, r)

/-! ### Arrays and objects -/

/-- The elements of a written array are read back. -/
lemma scanElems_written {h : Hooks ε} {pv : Str → Except ε (Value × Str)} {o : Dump}
    {v : Value} {t : Str}
    {vs : List Value} {ts : List Str} (hv : Reads pv v t)
    (hvs : List.Forall₂ (Reads pv) vs ts) {n : Nat}
    (fuel : vs.length < n) (r : Str) :
    scanElems h pv n (t ++ ((ts.flatMap fun t => o.itemSep ++ t) ++ 93 :: r)) =
      .ok (v :: vs, r) := by
  induction hvs generalizing v t n with
  | nil =>
    obtain _ | n := n
    · cases fuel
    · rw [List.flatMap_nil, List.nil_append, scanElems, hv.2 _ (delimited_cons (by simp)), ok_bind]
      rfl
  | cons hv' hvs ih =>
    obtain _ | n := n
    · cases fuel
    · obtain ⟨ws, sep, skip⟩ := itemSep_eq o
      have rest := ih hv' (Nat.lt_of_succ_lt_succ fuel)
      rw [List.flatMap_cons, List.append_assoc, List.append_assoc, sep,
        List.cons_append, ← sep, scanElems, hv.2 _ (delimited_cons (by simp)), ok_bind]
      simp only [skipWs_cons (show whitespace 44 = false from rfl), skip, skipWs_starts hv'.1,
        rest, ok_bind]
      rfl

/-- The members of a written object are read back. -/
lemma scanMembers_written {h : Hooks ε} {pv : Str → Except ε (Value × Str)} {o : Dump}
    {m : Str × Value × Str} {ms : List (Str × Value × Str)} (hm : Reads pv m.2.1 m.2.2)
    (hms : ∀ m ∈ ms, Reads pv m.2.1 m.2.2) {n : Nat} (fuel : ms.length < n) (r : Str) :
    scanMembers h pv n (memberText o (m.1, m.2.2) ++
        ((ms.flatMap fun m => o.itemSep ++ memberText o (m.1, m.2.2)) ++ 125 :: r)) =
      .ok ((m.1, m.2.1) :: ms.map fun m => (m.1, m.2.1), r) := by
  -- one member: its key, the colon and its value
  have member : ∀ (m : Str × Value × Str) (R : Str), memberText o (m.1, m.2.2) ++ R =
      34 :: (m.1.flatMap escapeChar ++ 34 :: (o.keySep ++ (m.2.2 ++ R))) := by
    intro m R
    simp [memberText, quote]
  obtain ⟨kws, ksep, kskip⟩ := keySep_eq o
  obtain ⟨ws, sep, skip⟩ := itemSep_eq o
  induction ms generalizing m n with
  | nil =>
    obtain _ | n := n
    · cases fuel
    · rw [member, scanMembers, if_neg (by simp), List.tail_cons, scanString_quote, ksep]
      simp only [List.cons_append, skipWs_cons (show whitespace 58 = false from rfl),
        List.tail_cons, kskip, skipWs_starts hm.1, List.flatMap_nil, List.nil_append,
        List.head?_cons, ne_eq, not_true_eq_false, if_false]
      rw [hm.2 _ (delimited_cons (by simp)), ok_bind]
      rfl
  | cons m' ms ih =>
    obtain _ | n := n
    · cases fuel
    · have rest := ih (hms m' List.mem_cons_self) (fun m mem => hms m (List.mem_cons_of_mem _ mem))
        (Nat.lt_of_succ_lt_succ fuel)
      have starts := memberText_starts o (m'.1, m'.2.2)
      rw [member, scanMembers, if_neg (by simp), List.tail_cons, scanString_quote, ksep]
      simp only [List.cons_append, skipWs_cons (show whitespace 58 = false from rfl),
        List.tail_cons, kskip, skipWs_starts hm.1, List.head?_cons, ne_eq,
        not_true_eq_false, if_false]
      rw [List.flatMap_cons, List.append_assoc, List.append_assoc, sep, List.cons_append, ← sep,
        hm.2 _ (delimited_cons (by simp)), ok_bind]
      simp only [skipWs_cons (show whitespace 44 = false from rfl), skip, skipWs_starts starts,
        rest, ok_bind]
      rfl

/-! ### Values -/

/-- What the writer puts down for a value, and that the reader reads it back. -/
structure Written (o : Dump) (d : Nat) (v : Value) (t : Str) : Prop where
  text : dumps o v = .ok t
  starts : Starts t
  scalar : ∀ c ∈ t, Scalar c
  read : ∀ {ε : Type} (h : Hooks ε), h.Keeps → ∀ limit, d ≤ limit → ∀ r, Delimited r →
    scanOnce h limit (t ++ r) = .ok (v.reorder o, r)

/-- None is written. -/
lemma written_null {o : Dump} {d : Nat} : Written o d .null (str "null") where
  text := rfl
  starts := ⟨110, _, rfl, rfl, by decide⟩
  scalar := fun c m => ascii_scalar (by revert c; decide)
  read := fun h _ limit _ r _ => by rw [scanOnce.eq_def]; simp [str]; rfl

/-- A truth value is written. -/
lemma written_bool {o : Dump} {d : Nat} (b : Bool) :
    Written o d (.bool b) (if b then str "true" else str "false") where
  text := rfl
  starts := by cases b <;> exact ⟨_, _, rfl, rfl, by decide⟩
  scalar := fun c m => ascii_scalar (by cases b <;> revert c <;> decide)
  read := fun h _ limit _ r _ => by cases b <;> rw [scanOnce.eq_def] <;> simp [str] <;> rfl

/-- A text that starts with a digit, or with a minus sign and a digit, is a number. -/
lemma scanOnce_number {h : Hooks ε} {limit : Nat} {i r : Str} (part : IntPart i) :
    scanOnce h limit (i ++ r) = (scanNumber (i ++ r)).mapError h.raise := by
  obtain ⟨c, t, rfl, first⟩ := intPart_head part
  rw [List.cons_append, scanOnce.eq_def]
  rcases first with digit | ⟨rfl, d, t, rfl, digit⟩
  · rw [isDigit_iff] at digit
    have : c ≠ 34 ∧ c ≠ 91 ∧ c ≠ 123 ∧ 110 ≠ c ∧ 116 ≠ c ∧ 102 ≠ c ∧ 78 ≠ c ∧ 73 ≠ c ∧ 45 ≠ c := by
      omega
    simp [str, this]
  · rw [isDigit_iff] at digit
    have : 73 ≠ d := by omega
    simp [str, this]

/-- An integer is written. -/
lemma written_int {o : Dump} {d : Nat} {n : Int} {t : Str} (text : intRepr n = .ok t) :
    Written o d (.int n) t where
  text := text
  starts := by
    have starts := intPart_starts (r := []) (intText text).1
    rwa [List.append_nil] at starts
  scalar := intPart_scalar (intText text).1
  read := fun h _ limit _ r hr => by
    rw [scanOnce_number (intText text).1, scanNumber_int text hr]
    rfl

/-- A finite float is written. -/
lemma written_float {o : Dump} {d : Nat} {x : Interpreter.Float} {q : Rat}
    (finite : Interpreter.view x = .finite q) : Written o d (.float x) (Interpreter.repr x) where
  text := by rw [dumps, floatRepr, finite]
  starts := by
    obtain ⟨i, f, e, text, part, _⟩ := Interpreter.repr_text x q finite
    rw [text]
    exact intPart_starts part
  scalar := floatText_scalar (Interpreter.repr_text x q finite)
  read := fun h _ limit _ r hr => by
    have number := scanNumber_float finite hr
    obtain ⟨i, f, e, text, part, _⟩ := Interpreter.repr_text x q finite
    rw [text, List.append_assoc] at number ⊢
    rw [scanOnce_number part, number]
    rfl

/-- A text that encodes is written. -/
lemma written_str {o : Dump} {d : Nat} {s : Str} (chars : ∀ c ∈ s, Scalar c) :
    Written o d (.str s) (quote s) where
  text := by rw [dumps]
  starts := ⟨34, _, rfl, rfl, by decide⟩
  scalar := quote_scalar chars
  read := fun h _ limit _ r _ => by
    rw [quote, List.cons_append, List.append_assoc, List.singleton_append, scanOnce.eq_def]
    simp only [if_true, scanString_quote]
    rfl

/-- The elements are written. -/
lemma dumpsList_written {o : Dump} {d : Nat} {xs : List Value}
    (h : ∀ x ∈ xs, ∃ t, Written o d x t) :
    ∃ ts, dumpsList o xs = .ok ts ∧ List.Forall₂ (Written o d) xs ts := by
  induction xs with
  | nil => exact ⟨[], rfl, .nil⟩
  | cons x xs ih =>
    obtain ⟨t, ht⟩ := h x List.mem_cons_self
    obtain ⟨ts, run, hts⟩ := ih fun y m => h y (List.mem_cons_of_mem _ m)
    exact ⟨t :: ts, by rw [dumpsList, ht.text, ok_bind, run]; rfl, .cons ht hts⟩

/-- The members are written. -/
lemma dumpsDict_written {o : Dump} {d : Nat} {ms : List (Str × Value)}
    (h : ∀ e ∈ ms, ∃ t, Written o d e.2 t) :
    ∃ zs : List (Str × Value × Str), ms = zs.map (fun z => (z.1, z.2.1)) ∧
      dumpsDict o ms = .ok (zs.map fun z => (z.1, z.2.2)) ∧ ∀ z ∈ zs, Written o d z.2.1 z.2.2 := by
  induction ms with
  | nil => exact ⟨[], rfl, rfl, nofun⟩
  | cons e ms ih =>
    obtain ⟨t, ht⟩ := h e List.mem_cons_self
    obtain ⟨zs, rfl, run, hzs⟩ := ih fun e m => h e (List.mem_cons_of_mem _ m)
    refine ⟨(e.1, e.2, t) :: zs, rfl, by rw [dumpsDict, ht.text, ok_bind, run]; rfl, ?_⟩
    intro z m
    cases m with
    | head => exact ht
    | tail _ m => exact hzs z m

/-- A written array is read back, given that its elements are. -/
lemma scanOnce_list {h : Hooks ε} {o : Dump} {limit : Nat} {vs : List Value} {ts : List Str}
    (reads : List.Forall₂ (Reads (scanOnce h limit)) vs ts) (r : Str) :
    scanOnce h (limit + 1) (91 :: (o.itemSep.intercalate ts ++ 93 :: r)) = .ok (.list vs, r) := by
  rw [scanOnce.eq_def]
  cases reads with
  | nil => rfl
  | @cons v t vs ts hv hvs =>
    have fuel : vs.length < (o.itemSep.intercalate (t :: ts) ++ 93 :: r).length + 1 := by
      have := length_flatMap_sep id o.itemSep (itemSep_ne_nil o) ts
      rw [intercalate_cons, List.length_append, List.length_append, List.length_cons, hvs.length_eq]
      simp only [id_eq] at this
      omega
    have run := scanElems_written (h := h) (o := o) hv hvs fuel r
    rw [← List.append_assoc, ← intercalate_cons] at run
    have starts : Starts (o.itemSep.intercalate (t :: ts)) := by
      obtain ⟨c, t, rfl, ws, ne⟩ := hv.1
      exact ⟨c, _, intercalate_cons .., ws, ne⟩
    have skip := skipWs_starts starts (93 :: r)
    have head : (o.itemSep.intercalate (t :: ts) ++ 93 :: r).head? ≠ some 93 := by
      obtain ⟨c, u, text, _, ne, _⟩ := starts
      rw [text]
      simpa using ne
    simp only [show (91 : Nat) ≠ 34 by decide, if_false, if_true, skip, if_neg head, run, ok_bind]
    rfl

/-- A written object is read back, given that its members are. -/
lemma scanOnce_dict {h : Hooks ε} {o : Dump} {limit : Nat} {zs : List (Str × Value × Str)}
    (keeps : h.Keeps)
    (keys : (zs.map Prod.fst).Nodup)
    (reads : ∀ z ∈ zs, Reads (scanOnce h limit) z.2.1 z.2.2) (r : Str) :
    scanOnce h (limit + 1)
        (123 :: (o.itemSep.intercalate (zs.map fun z => memberText o (z.1, z.2.2)) ++ 125 :: r)) =
      .ok (.dict (zs.map fun z => (z.1, z.2.1)), r) := by
  have made : h.pairs (zs.map fun z => (z.1, z.2.1)) =
      .ok (.dict (zs.map fun z => (z.1, z.2.1))) := by
    apply keeps
    rw [List.map_map]
    exact keys
  rw [scanOnce.eq_def]
  cases zs with
  | nil =>
    rw [List.map_nil] at made
    simp only [show (123 : Nat) ≠ 34 by decide, show (123 : Nat) ≠ 91 by decide, if_false, if_true,
      List.map_nil, List.intercalate_nil, List.nil_append,
      skipWs_cons (show whitespace 125 = false from rfl), List.head?_cons, made]
    rfl
  | cons z zs =>
    have fuel : zs.length <
        (o.itemSep.intercalate ((z :: zs).map fun z => memberText o (z.1, z.2.2)) ++ 125 ::
          r).length + 1 := by
      have := length_flatMap_sep (fun z : Str × Value × Str => memberText o (z.1, z.2.2)) o.itemSep
        (itemSep_ne_nil o) zs
      rw [List.map_cons, intercalate_cons, List.flatMap_map, List.length_append, List.length_append,
        List.length_cons]
      omega
    have run := scanMembers_written (h := h) (o := o) (reads z List.mem_cons_self)
      (fun z m => reads z (List.mem_cons_of_mem _ m)) fuel r
    have text : ∀ r', o.itemSep.intercalate ((z :: zs).map fun z => memberText o (z.1, z.2.2)) ++
      r' =
        memberText o (z.1, z.2.2) ++
          ((zs.flatMap fun m => o.itemSep ++ memberText o (m.1, m.2.2)) ++ r') := by
      intro r'
      rw [List.map_cons, intercalate_cons, List.flatMap_map, List.append_assoc]
    have starts := memberText_starts o (z.1, z.2.2)
    have head : ∀ r', (memberText o (z.1, z.2.2) ++ r').head? ≠ some 125 := by
      intro r'
      simp [memberText, quote]
    rw [← text] at run
    have skip : skipWs (o.itemSep.intercalate
      ((z :: zs).map fun z => memberText o (z.1, z.2.2)) ++ 125 :: r) =
        o.itemSep.intercalate ((z :: zs).map fun z => memberText o (z.1, z.2.2)) ++ 125 :: r := by
      rw [text, skipWs_starts starts]
    simp only [show (123 : Nat) ≠ 34 by decide, show (123 : Nat) ≠ 91 by
      decide, if_false, if_true, skip, run, ok_bind]
    rw [if_neg (by rw [text]; exact head _), ← List.map_cons (f := fun m : Str × Value × Str =>
      (m.1, m.2.1)), made]
    rfl

/-- A list is written. -/
lemma written_list {o : Dump} {d : Nat} {xs : List Value} (h : ∀ x ∈ xs, ∃ t, Written o d x t) :
    ∃ t, Written o (d + 1) (.list xs) t := by
  obtain ⟨ts, run, hts⟩ := dumpsList_written h
  refine ⟨91 :: (o.itemSep.intercalate ts ++ [93]), ?_, ⟨91, _, rfl, rfl, by decide⟩, ?_, ?_⟩
  · rw [dumps, run]
    rfl
  · have elems : ∀ t ∈ ts, ∀ c ∈ t, Scalar c := by
      intro t mt
      obtain ⟨i, lt, rfl⟩ := List.mem_iff_getElem.1 mt
      exact (hts.get (hts.length_eq ▸ lt) lt).scalar
    intro c m
    simp only [List.mem_cons, List.mem_append, List.not_mem_nil, or_false] at m
    rcases m with rfl | m | rfl
    · exact ascii_scalar (by decide)
    · exact intercalate_scalar (itemSep_scalar o) elems c m
    · exact ascii_scalar (by decide)
  · intro ε hk keeps limit le r hr
    obtain _ | limit := limit
    · cases le
    · rw [Value.reorder, reorderList_eq, List.cons_append, List.append_assoc, List.singleton_append]
      apply scanOnce_list
      rw [List.forall₂_map_left_iff]
      exact hts.imp fun x t w => ⟨w.starts, w.read hk keeps limit (Nat.le_of_succ_le_succ le)⟩

/-- A dictionary is written. -/
lemma written_dict {o : Dump} {d : Nat} {ms : List (Str × Value)} (keys : (ms.map Prod.fst).Nodup)
    (chars : ∀ e ∈ ms, ∀ c ∈ e.1, Scalar c) (h : ∀ e ∈ ms, ∃ t, Written o d e.2 t) :
    ∃ t, Written o (d + 1) (.dict ms) t := by
  obtain ⟨zs, rfl, run, hzs⟩ := dumpsDict_written h
  have perm := order_perm o zs
  have texts : o.order (zs.map fun z => (z.1, z.2.2)) = (o.order zs).map fun z => (z.1, z.2.2) :=
    order_map o Prod.snd zs
  have values : o.order (Value.reorderDict o (zs.map fun z => (z.1, z.2.1))) =
      (o.order zs).map fun z => (z.1, z.2.1.reorder o) := by
    rw [reorderDict_eq, List.map_map]
    exact order_map o (fun z : Value × Str => z.1.reorder o) zs
  refine ⟨123 :: (o.itemSep.intercalate
    ((o.order zs).map fun z => memberText o (z.1, z.2.2)) ++ [125]), ?_,
      ⟨123, _, rfl, rfl, by decide⟩, ?_, ?_⟩
  · rw [dumps, run, ok_bind, texts]
    simp only [List.map_map]
    rfl
  · have members : ∀ t ∈ (o.order zs).map fun z =>
      memberText o (z.1, z.2.2), ∀ c ∈ t, Scalar c := by
      intro t mt c m
      obtain ⟨z, mz, rfl⟩ := List.mem_map.1 mt
      have mz := perm.mem_iff.1 mz
      rw [memberText] at m
      rcases List.mem_append.1 m with m | m
      · rcases List.mem_append.1 m with m | m
        · exact quote_scalar (chars (z.1, z.2.1) (List.mem_map_of_mem mz)) c m
        · exact keySep_scalar o c m
      · exact (hzs z mz).scalar c m
    intro c m
    simp only [List.mem_cons, List.mem_append, List.not_mem_nil, or_false] at m
    rcases m with rfl | m | rfl
    · exact ascii_scalar (by decide)
    · exact intercalate_scalar (itemSep_scalar o) members c m
    · exact ascii_scalar (by decide)
  · intro ε hk keeps limit le r hr
    obtain _ | limit := limit
    · cases le
    · have reads :=
        @scanOnce_dict _ _ hk o limit
          ((o.order zs).map fun z => (z.1, z.2.1.reorder o, z.2.2)) keeps
        (by
          rw [List.map_map]
          rw [List.map_map] at keys
          exact (perm.map Prod.fst).nodup_iff.2 keys)
        (by
          intro y my
          obtain ⟨z, mz, rfl⟩ := List.mem_map.1 my
          have w := hzs z (perm.mem_iff.1 mz)
          exact ⟨w.starts, w.read hk keeps limit (Nat.le_of_succ_le_succ le)⟩) r
      rw [List.map_map, List.map_map] at reads
      rw [Value.reorder, values, List.cons_append, List.append_assoc, List.singleton_append]
      exact reads

/-- A legible value can be written, and what is written is read back. -/
theorem Legible.written {d : Nat} {v : Value} (h : Legible d v) (o : Dump) :
    ∃ t, Written o d v t := by
  induction h with
  | null => exact ⟨_, written_null⟩
  | bool => exact ⟨_, written_bool _⟩
  | @int d n digits =>
    have text : intRepr n = .ok (if n < 0 then 45 :: digitChars n.natAbs
        else digitChars n.natAbs) := by
      rw [intRepr, if_neg (Nat.not_lt.2 digits)]
    exact ⟨_, written_int text⟩
  | float finite => exact ⟨_, written_float finite⟩
  | str chars => exact ⟨_, written_str chars⟩
  | list _ ih => exact written_list ih
  | dict keys chars _ ih => exact written_dict keys chars ih

/-- The round trip through text. -/
theorem Legible.loads {d : Nat} {v : Value} (v_legible : Legible d v) (o : Dump) {h : Hooks ε}
    (keeps : h.Keeps)
    (depth : d ≤ Interpreter.recursionLimit) :
    ∃ t, dumps o v = .ok t ∧ (∀ c ∈ t, Scalar c) ∧ Py.loads h t = .ok (v.reorder o) := by
  obtain ⟨t, w⟩ := v_legible.written o
  refine ⟨t, w.text, w.scalar, ?_⟩
  have read := w.read h keeps _ depth [] delimited_nil
  have skip := skipWs_starts w.starts []
  rw [List.append_nil] at read skip
  have bom : t.head? ≠ some 0xFEFF := by
    obtain ⟨c, u, text, _, _, ne⟩ := w.starts
    rw [text]
    simpa using ne
  rw [Py.loads, if_neg bom, skip, read, ok_bind]
  rfl

end DbLab.Py
