import DbLab.Py.Literals
import DbLab.Py.Raises

/-!
# Nesting

A text cannot nest deeper than it is long. Where the interpreter allows for as much nesting as the
text has characters, reading it raises `ValueError` and what the hooks raise, and never
`RecursionError`. What is read, from a text of any length, is nested as deep as is allowed at most.
-/

namespace DbLab.Py

/-! ### What decoding leaves is no longer than the bytes -/

/-- A text is no longer than its bytes. -/
lemma decode_length {sp : Bool} {b : Bytes} {s : Str} (h : decode sp b = .ok s) :
    s.length ≤ b.length := by
  fun_induction decode sp b generalizing s with
  | case1 =>
    cases h
    exact le_rfl
  | case2 b r ascii ih =>
    obtain ⟨s', run, h⟩ := bind_ok.1 h
    cases h
    exact Nat.succ_le_succ (ih run)
  | case5 | case8 | case11 =>
    rename_i ih
    obtain ⟨c, _, h⟩ := bind_ok.1 h
    obtain ⟨s', run, h⟩ := bind_ok.1 h
    cases h
    have := ih run
    simp only [List.length_cons]
    omega
  | _ => cases h

/-- Units of UTF-16 are no more than their bytes. -/
lemma units16_length {big : Bool} {b : Bytes} {us : List Nat} (h : units16 big b = .ok us) :
    us.length ≤ b.length := by
  fun_induction units16 big b generalizing us with
  | case1 =>
    cases h
    exact le_rfl
  | case2 b0 b1 r ih =>
    obtain ⟨us', run, h⟩ := bind_ok.1 h
    cases h
    exact Nat.succ_le_succ ((ih run).trans (Nat.le_succ _))
  | case3 => cases h

/-- A text of UTF-32 is no longer than its bytes. -/
lemma decode32_length {big : Bool} {b : Bytes} {s : Str} (h : decode32 big b = .ok s) :
    s.length ≤ b.length := by
  fun_induction decode32 big b generalizing s with
  | case1 =>
    cases h
    exact le_rfl
  | case2 => cases h
  | case3 =>
    rename_i ih
    obtain ⟨s', run, h⟩ := bind_ok.1 h
    cases h
    have := ih run
    simp only [List.length_cons]
    omega
  | case4 => cases h

/-- Joining makes nothing longer. -/
lemma joinUnits_length (us : List (Nat × Bool)) : (joinUnits us).length ≤ us.length := by
  fun_induction joinUnits us with
  | case1 u esc l esc' r pair ih => exact Nat.succ_le_succ (ih.trans (Nat.le_succ _))
  | case2 u esc l esc' r single ih => exact Nat.succ_le_succ ih
  | case3 => exact le_rfl
  | case4 => exact le_rfl

/-- A text of UTF-16 is no longer than its bytes. -/
lemma decode16_length {big : Bool} {b : Bytes} {s : Str} (h : decode16 big b = .ok s) :
    s.length ≤ b.length := by
  obtain ⟨us, run, h⟩ := bind_ok.1 h
  cases h
  refine (joinUnits_length _).trans ?_
  rw [List.length_map]
  exact units16_length run

/-- The text that is read in bytes has no more characters than there are bytes. -/
lemma jsonText_length {b : Bytes} {s : Str} (h : jsonText b = .ok s) : s.length ≤ b.length := by
  have less : ∀ n, (b.drop n).length ≤ b.length := fun n => by
    rw [List.length_drop]
    exact Nat.sub_le _ _
  rw [jsonText] at h
  cases e : detectEncoding b with
  | utf8 => exact decode_length (e ▸ h)
  | utf8Sig => exact (decode_length (e ▸ h)).trans (less 3)
  | utf16 => exact (decode16_length (e ▸ h)).trans (less 2)
  | utf16be => exact decode16_length (e ▸ h)
  | utf16le => exact decode16_length (e ▸ h)
  | utf32 => exact (decode32_length (e ▸ h)).trans (less 4)
  | utf32be => exact decode32_length (e ▸ h)
  | utf32le => exact decode32_length (e ▸ h)

/-! ### Reading short texts -/

section
variable {ε α β : Type} {P : ε → Prop}

/-- Errors are of the kind `P`, and what is left has at most `m` characters. -/
structure Bounded (P : ε → Prop) (m : Nat) (x : Except ε (α × Str)) : Prop where
  only : Only P x
  left : ∀ a r, x = .ok (a, r) → r.length ≤ m

/-- A failure that is allowed. -/
lemma Bounded.error {m : Nat} {e : ε} (h : P e) : Bounded P m (.error e : Except ε (α × Str)) :=
  ⟨.error h, nofun⟩

/-- A result with a short rest. -/
lemma Bounded.ok {m : Nat} {a : α} {r : Str} (h : r.length ≤ m) : Bounded P m (.ok (a, r)) :=
  ⟨.ok _, fun _ _ e => by cases e; exact h⟩

/-- One reader after the other. -/
lemma Bounded.bind {m k : Nat} {x : Except ε (α × Str)} {f : α × Str → Except ε (β × Str)}
    (first : Bounded P k x)
    (rest : ∀ a r, r.length ≤ k → Bounded P m (f (a, r))) : Bounded P m (x >>= f) := by
  cases x with
  | error e => exact .error (first.only e rfl)
  | ok p => exact rest p.1 p.2 (first.left _ _ rfl)

/-- Skipping makes nothing longer. -/
lemma skipWs_length (s : Str) : (skipWs s).length ≤ s.length := (List.dropWhile_suffix _).length_le

variable [Interpreter]

/-- Hooks that raise errors of the kind `P`, to which every `ValueError` belongs. -/
structure Hooks.Values (P : ε → Prop) (h : Hooks ε) : Prop where
  raise : ∀ e : Exn, e.isValueError = true → P (h.raise e)
  pairs : ∀ ms, Py.Only P (h.pairs ms)
  constant : ∀ w, Py.Only P (h.constant w)

/-- The default hooks only raise value errors. -/
lemma Hooks.default_values : Hooks.default.Values fun e => e.isValueError = true :=
  ⟨fun _ h => h, fun _ => .ok _, fun _ => .ok _⟩

variable {h : Hooks ε} {n : Nat}

/-- A decode error is allowed. -/
lemma Hooks.Values.decodeError (values : h.Values P) {m : Nat} :
    Bounded P m (.error (h.raise decodeError) : Except ε (α × Str)) :=
  .error (values.raise _ rfl)

/-- A reader of values that is bounded on texts of at most `n` characters. -/
def Shallow (P : ε → Prop) (n : Nat) (pv : Str → Except ε (Value × Str)) : Prop :=
  ∀ s, s.length ≤ n → Bounded P s.length (pv s)

/-- Reading the elements of a short text. -/
lemma scanElems_bounded (values : h.Values P) {pv : Str → Except ε (Value × Str)}
    (shallow : Shallow P n pv) (k : Nat)
    {s : Str} (short : s.length ≤ n) : Bounded P s.length (scanElems h pv k s) := by
  induction k generalizing s with
  | zero => exact values.decodeError
  | succ k ih =>
    refine (shallow s short).bind fun v r left => ?_
    have less := skipWs_length r
    simp only
    cases e : skipWs r with
    | nil => exact values.decodeError
    | cons c t =>
      rw [e, List.length_cons] at less
      have rest := skipWs_length t
      simp only
      split_ifs
      · exact .ok (by omega)
      · exact (ih (by omega)).bind fun vs r' left' => .ok (show r'.length ≤ _ by omega)
      · exact values.decodeError

/-- Reading the members of a short text. -/
lemma scanMembers_bounded (values : h.Values P) {pv : Str → Except ε (Value × Str)}
    (shallow : Shallow P n pv) (k : Nat)
    {s : Str} (short : s.length ≤ n) : Bounded P s.length (scanMembers h pv k s) := by
  induction k generalizing s with
  | zero => exact values.decodeError
  | succ k ih =>
    rw [scanMembers]
    split
    · exact values.decodeError
    cases key : scanString s.tail with
    | none => exact values.decodeError
    | some p =>
      obtain ⟨name, r⟩ := p
      have behind := (scanString_suffix key).length_le
      rw [List.length_tail] at behind
      have space := skipWs_length r
      have value := skipWs_length (skipWs r).tail
      rw [List.length_tail] at value
      simp only
      split
      · exact values.decodeError
      · refine (shallow _ (by omega)).bind fun v r' left => ?_
        have less := skipWs_length r'
        simp only
        cases e : skipWs r' with
        | nil => exact values.decodeError
        | cons c t =>
          rw [e, List.length_cons] at less
          have rest := skipWs_length t
          simp only
          split_ifs
          · exact .ok (by omega)
          · exact (ih (by omega)).bind fun ms r'' left' => .ok (show r''.length ≤ _ by omega)
          · exact values.decodeError

/-- Reading a number. -/
lemma scanNumber_bounded (s : Str) :
    Bounded (fun e => e.isValueError = true) s.length (scanNumber s) := by
  refine ⟨scanNumber_only s, fun v r read => ?_⟩
  unfold scanNumber at read
  cases int : scanInt s with
  | none =>
    rw [int] at read
    cases read
  | some p =>
    obtain ⟨i, t⟩ := p
    rw [int] at read
    cases s with
    | nil => cases int
    | cons c s =>
      have first := (scanInt_suffix int).length_le
      have frac := (scanFrac_suffix t).length_le
      have exp := (scanExp_suffix (scanFrac t).2).length_le
      have left : (scanExp (scanFrac t).2).2.length ≤ (c :: s).length := by
        rw [List.length_cons]
        omega
      simp only at read
      split_ifs at read
      · obtain ⟨_, _, read⟩ := bind_ok.1 read
        cases read
        exact left
      · cases read
        exact left

/-- One value: the inner readers see at least one character less. -/
lemma scanOnce_bounded_step (values : h.Values P) {limit : Nat}
    (inner : ∀ l, limit = l + 1 → Shallow P l (scanOnce h l)) :
    Shallow P limit (scanOnce h limit) := by
  intro s short
  have drop : ∀ n (s : Str), (s.drop n).length ≤ s.length := fun n s => by
    rw [List.length_drop]
    exact Nat.sub_le _ _
  have constant : ∀ (w : Str) n (s : Str),
      Bounded P s.length (do return (← h.constant w, s.drop n)) := by
    intro w n s
    refine ⟨(values.constant w).bind fun _ _ => .ok _, fun v r read => ?_⟩
    obtain ⟨_, _, read⟩ := bind_ok.1 read
    cases read
    exact drop n s
  rw [scanOnce.eq_def]
  cases s with
  | nil => exact values.decodeError
  | cons c r =>
    have space := skipWs_length r
    have tail : (skipWs r).tail.length ≤ (skipWs r).length := by
      rw [List.length_tail]
      exact Nat.sub_le _ _
    rw [List.length_cons] at short ⊢
    simp only
    split
    · cases text : scanString r with
      | none => exact values.decodeError
      | some p => exact .ok ((scanString_suffix text).length_le.trans (Nat.le_succ _))
    split
    · cases limit with
      | zero => omega
      | succ l =>
        simp only
        split
        · exact .ok (by omega)
        · exact (scanElems_bounded values (inner l rfl) _ (by omega)).bind fun vs t left =>
            .ok (show t.length ≤ _ by omega)
    split
    · cases limit with
      | zero => omega
      | succ l =>
        have pairs : ∀ ms (t : Str), t.length ≤ r.length + 1 →
            Bounded P (r.length + 1) (do return (← h.pairs ms, t)) := by
          intro ms t left
          refine ⟨(values.pairs ms).bind fun _ _ => .ok _, fun v t' read => ?_⟩
          obtain ⟨_, _, read⟩ := bind_ok.1 read
          cases read
          exact left
        simp only
        split
        · exact pairs _ _ (by omega)
        · exact (scanMembers_bounded values (inner l rfl) _ (by omega)).bind fun ms t left =>
            pairs _ _ (show t.length ≤ _ by omega)
    have whole : (c :: r).length = r.length + 1 := List.length_cons
    split
    · exact .ok (whole ▸ drop 4 (c :: r))
    split
    · exact .ok (whole ▸ drop 4 (c :: r))
    split
    · exact .ok (whole ▸ drop 5 (c :: r))
    split
    · exact constant _ 3 (c :: r)
    split
    · exact constant _ 8 (c :: r)
    split
    · exact constant _ 9 (c :: r)
    · have number := scanNumber_bounded (c :: r)
      cases e : scanNumber (c :: r) with
      | error x => exact .error (values.raise _ (number.only x e))
      | ok p => exact .ok (number.left _ _ e)

/-- A text within the limit never meets it. -/
lemma scanOnce_bounded (values : h.Values P) (limit : Nat) :
    Shallow P limit (scanOnce h limit) := by
  induction limit with
  | zero => exact scanOnce_bounded_step values nofun
  | succ limit ih =>
    refine scanOnce_bounded_step values fun l e => ?_
    cases e
    exact ih

/-- A text no longer than the nesting that the interpreter allows is not too deep. -/
theorem loads_shallow (values : h.Values P) {s : Str}
    (short : s.length ≤ Interpreter.recursionLimit) :
    Only P (loads h s) := by
  unfold loads
  split
  · exact .error (values.raise _ rfl)
  · refine (scanOnce_bounded values _ _ ((skipWs_length s).trans short)).only.bind fun (v, r) _ =>
      ?_
    simp only
    split
    · exact .ok _
    · exact .error (values.raise _ rfl)

/-- Bytes within the limit never meet it. -/
theorem loadsBytes_shallow (values : h.Values P) {b : Bytes}
    (short : b.length ≤ Interpreter.recursionLimit) :
    Only P (loadsBytes h b) := by
  refine ((jsonText_only b).mapError values.raise).bind fun s text => ?_
  refine loads_shallow values (le_trans ?_ short)
  cases e : jsonText b with
  | error x =>
    rw [e] at text
    cases text
  | ok t =>
    rw [e] at text
    cases text
    exact jsonText_length e

end

/-! ### Reading deep texts -/

section
variable [Interpreter] {d n : Nat} {pv pv' : Str → Except Exn (Value × Str)}

/-- What `pv` reads, `pv'` reads as well, and it is tidy and nested at most `d` deep. -/
def Nested (d : Nat) (pv pv' : Str → Except Exn (Value × Str)) : Prop :=
  ∀ s v r, pv s = .ok (v, r) → pv' s = .ok (v, r) ∧ Tidy True d v

/-- The elements of an array are nested as deep as its reader allows. -/
lemma scanElems_nested (nested : Nested d pv pv') {s r : Str} {vs : List Value}
    (scan : scanElems Hooks.default pv n s = .ok (vs, r)) :
    scanElems Hooks.default pv' n s = .ok (vs, r) ∧ ∀ v ∈ vs, Tidy True d v := by
  induction n generalizing s vs with
  | zero => cases scan
  | succ n ih =>
    rw [scanElems] at scan ⊢
    obtain ⟨⟨v, r₁⟩, one, scan⟩ := bind_ok.1 scan
    obtain ⟨same, tidy⟩ := nested _ _ _ one
    rw [same, ok_bind]
    simp only at scan ⊢
    split at scan
    · cases scan
    · split_ifs at scan ⊢ with close comma
      · cases scan
        exact ⟨rfl, by simpa using tidy⟩
      · obtain ⟨⟨vs', r₂⟩, more, scan⟩ := bind_ok.1 scan
        cases scan
        obtain ⟨same', tidies⟩ := ih more
        exact ⟨by rw [same']; rfl, List.forall_mem_cons.2 ⟨tidy, tidies⟩⟩

/-- So are the members of an object. -/
lemma scanMembers_nested (nested : Nested d pv pv') {s r : Str} {ms : List (Str × Value)}
    (scan : scanMembers Hooks.default pv n s = .ok (ms, r)) :
    scanMembers Hooks.default pv' n s = .ok (ms, r) ∧ ∀ e ∈ ms, Tidy True d e.2 := by
  induction n generalizing s ms with
  | zero => cases scan
  | succ n ih =>
    rw [scanMembers] at scan ⊢
    split_ifs at scan ⊢ with opens
    split at scan
    · cases scan
    · split_ifs at scan ⊢ with colon
      obtain ⟨⟨v, r₁⟩, one, scan⟩ := bind_ok.1 scan
      obtain ⟨same, tidy⟩ := nested _ _ _ one
      rw [same, ok_bind]
      simp only at scan ⊢
      split at scan
      · cases scan
      · split_ifs at scan ⊢ with close comma
        · cases scan
          exact ⟨rfl, by simpa using tidy⟩
        · obtain ⟨⟨ms', r₂⟩, more, scan⟩ := bind_ok.1 scan
          cases scan
          obtain ⟨same', tidies⟩ := ih more
          exact ⟨by rw [same']; rfl, List.forall_mem_cons.2 ⟨tidy, tidies⟩⟩

/-- The members that an object keeps are among those that were read. -/
lemma dictOf_tidy {ms : List (Str × Value)} (tidies : ∀ e ∈ ms, Tidy True d e.2) :
    Tidy True (d + 1) (dictOf ms) := by
  have kept : ∀ ms acc : List (Str × Value), (acc.map Prod.fst).Nodup →
    (∀ e ∈ ms, Tidy True d e.2) →
      (∀ e ∈ acc, Tidy True d e.2) → ∀ e ∈ ms.foldl (fun ms e => insertKey e.1 e.2 ms) acc,
        Tidy True d e.2 := by
    intro ms
    induction ms with
    | nil => exact fun acc _ _ there => there
    | cons e ms ih =>
      intro acc keys all there
      refine ih _ (insertKey_nodup keys) (fun e m => all e (List.mem_cons_of_mem _ m)) fun e' m =>
        ?_
      rcases mem_insertKey keys m with rfl | ⟨m, _⟩
      · exact all e List.mem_cons_self
      · exact there e' m
  exact .dict (dictOf_keys rfl) (kept ms [] .nil tidies (List.forall_mem_nil _))

/-- One value: it is nested as deep as the limit allows, and read in the same way where more is
allowed. -/
lemma scanOnce_nested_step {limit limit' : Nat} (le : limit ≤ limit')
    (inner : ∀ l l', limit = l + 1 → limit' = l' + 1 →
      Nested l (scanOnce Hooks.default l) (scanOnce Hooks.default l')) :
    Nested limit (scanOnce Hooks.default limit) (scanOnce Hooks.default limit') := by
  intro s v r scan
  rw [scanOnce.eq_def] at scan ⊢
  cases s with
  | nil => cases scan
  | cons c s =>
    simp only at scan ⊢
    by_cases string : c = 34
    · simp only [if_pos string] at scan ⊢
      split at scan
      · cases scan
        exact ⟨rfl, .str⟩
      · cases scan
    simp only [if_neg string] at scan ⊢
    by_cases array : c = 91
    · simp only [if_pos array] at scan ⊢
      obtain _ | limit := limit
      · cases scan
      obtain _ | limit' := limit'
      · cases le
      simp only at scan ⊢
      split_ifs at scan ⊢ with empty
      · cases scan
        exact ⟨rfl, .list (List.forall_mem_nil _)⟩
      · obtain ⟨⟨vs, r'⟩, elems, scan⟩ := bind_ok.1 scan
        cases scan
        obtain ⟨same, tidies⟩ := scanElems_nested (inner limit limit' rfl rfl) elems
        exact ⟨by rw [same]; rfl, .list tidies⟩
    simp only [if_neg array] at scan ⊢
    by_cases object : c = 123
    · simp only [if_pos object] at scan ⊢
      obtain _ | limit := limit
      · cases scan
      obtain _ | limit' := limit'
      · cases le
      simp only at scan ⊢
      split_ifs at scan ⊢ with empty
      · cases scan
        exact ⟨rfl, dictOf_tidy (List.forall_mem_nil _)⟩
      · obtain ⟨⟨ms, r'⟩, members, scan⟩ := bind_ok.1 scan
        cases scan
        obtain ⟨same, tidies⟩ := scanMembers_nested (inner limit limit' rfl rfl) members
        exact ⟨by rw [same]; rfl, dictOf_tidy tidies⟩
    -- what is left does not nest
    simp only [if_neg object] at scan ⊢
    refine ⟨scan, ?_⟩
    split_ifs at scan
    · cases scan
      exact .null
    · cases scan
      exact .bool
    · cases scan
      exact .bool
    · cases scan
      exact .float trivial
    · cases scan
      exact .float trivial
    · cases scan
      exact .float trivial
    · cases number : scanNumber (c :: s) with
      | error e =>
        rw [number] at scan
        cases scan
      | ok p =>
        rw [number] at scan
        cases scan
        exact (Covered.number number).2

/-- A higher limit reads the same. -/
lemma scanOnce_nested {limit limit' : Nat} (le : limit ≤ limit') :
    Nested limit (scanOnce Hooks.default limit) (scanOnce Hooks.default limit') := by
  induction limit generalizing limit' with
  | zero => exact scanOnce_nested_step le fun l l' e => by cases e
  | succ limit ih =>
    refine scanOnce_nested_step le fun l l' e e' => ?_
    cases e
    cases e'
    exact ih (Nat.le_of_succ_le_succ le)

/-- How deep a legible value is nested does not depend on the order of its members. -/
lemma Legible.of_reorder {e : Nat} {v : Value} {o : Dump} (legible : Legible e v)
    (tidy : Tidy True d (v.reorder o)) :
    Legible d v := by
  induction legible generalizing d with
  | null => exact .null
  | bool => exact .bool
  | int digits => exact .int digits
  | float finite => exact .float finite
  | str chars => exact .str chars
  | list elems ih =>
    rw [Value.reorder, reorderList_eq] at tidy
    cases tidy with
    | list all => exact .list fun x m => ih x m (all _ (List.mem_map_of_mem m))
  | dict keys chars members ih =>
    rw [Value.reorder] at tidy
    cases tidy with
    | dict _ all =>
      refine .dict keys chars fun e m => ih e m (all (e.1, e.2.reorder o) ?_)
      rw [(order_perm o _).mem_iff, reorderDict_eq]
      exact List.mem_map_of_mem m

/-- A legible value whose text is read is nested no deeper than the interpreter allows; it is read
as it was. -/
theorem Legible.read_back {e : Nat} {v w : Value} (legible : Legible e v) {o : Dump} {t : Str}
    (text : dumps o v = .ok t)
    (read : Py.loads Hooks.default t = .ok w) :
    w = v.reorder o ∧ Legible Interpreter.recursionLimit v := by
  obtain ⟨t', written⟩ := legible.written o
  cases text.symm.trans written.text
  rw [Py.loads] at read
  split_ifs at read
  obtain ⟨⟨w', r⟩, scan, read⟩ := bind_ok.1 read
  simp only at read
  split_ifs at read
  cases read
  have skip := skipWs_starts written.starts []
  rw [List.append_nil] at skip
  rw [skip] at scan
  -- where more nesting is allowed, the text is that of the value
  obtain ⟨deep, tidy⟩ := scanOnce_nested (le_max_left Interpreter.recursionLimit e) _ _ _ scan
  have whole :=
    written.read Hooks.default Hooks.default_keeps _ (le_max_right Interpreter.recursionLimit e)
      [] delimited_nil
  rw [List.append_nil] at whole
  cases deep.symm.trans whole
  exact ⟨rfl, legible.of_reorder tidy⟩

end

end DbLab.Py
