import DbLab.Py.Equality
import DbLab.Py.RoundTrip

/-!
# What canonical text determines

Text that could be written and encoded shows that the value was legible, so two values with the same
text are the same up to the order of members.
-/

namespace DbLab.Py

/-! ### Encoded text -/

/-- What can be encoded has no surrogates. -/
lemma encode_inv {s : Str} {b : Bytes} (h : encode s = .ok b) : ∀ c ∈ s, Scalar c := by
  induction s generalizing b with
  | nil => exact nofun
  | cons c s ih =>
    obtain ⟨bc, hc, h⟩ := bind_ok.1 h
    obtain ⟨bs, hs, _⟩ := bind_ok.1 h
    intro u m
    rcases List.mem_cons.1 m with rfl | m
    · rw [encodeChar] at hc
      split_ifs at hc with h1 h2 h3 h4 h5
      · exact ascii_scalar h1
      · exact ⟨by omega, by simp only [surrogate, Bool.and_eq_false_iff,
          decide_eq_false_iff_not]; omega⟩
      · exact ⟨by omega, eq_false_of_ne_true h3⟩
      · exact ⟨h5, eq_false_of_ne_true h3⟩
    · exact ih hs u m

/-- The bytes determine the text. -/
lemma encode_injective {s s' : Str} {b : Bytes} (h : encode s = .ok b) (h' : encode s' = .ok b) :
    s = s' := by
  have read : decode false b = .ok s := decode_encode h
  exact Except.ok.inj (read.symm.trans (decode_encode h'))

/-- The characters of a quoted string are those of the string, but for some of ASCII. -/
lemma mem_quote {s : Str} {c : Nat} (h : c ∈ s) : c ∈ quote s ∨ c < 128 := by
  by_cases ascii : c < 128
  · exact .inr ascii
  · have kept : escapeChar c = [c] := by
      rw [escapeChar]
      split_ifs <;> first | omega | rfl
    left
    rw [quote]
    refine List.mem_cons_of_mem _ (List.mem_append_left _ (List.mem_flatMap.2 ⟨c, h, ?_⟩))
    rw [kept]
    exact List.mem_singleton_self c

/-- What is in a part is in the whole. -/
lemma mem_intercalate {sep t : Str} {ts : List Str} {c : Nat} (m : t ∈ ts) (h : c ∈ t) :
    c ∈ sep.intercalate ts := by
  cases ts with
  | nil => cases m
  | cons u ts =>
    rw [intercalate_cons]
    rcases List.mem_cons.1 m with rfl | m
    · exact List.mem_append_left _ h
    · exact List.mem_append_right _ (List.mem_flatMap.2 ⟨t, m, List.mem_append_right _ h⟩)

/-! ### Members -/

/-- Distinct literals are distinct keys. -/
lemma literals_nodup {ks : List String} (h : ks.Nodup) : (ks.map str).Nodup :=
  h.map fun _ _ e => str_inj.1 e

/-- Looking up in distinct keys, in any order. -/
lemma lookup_perm {V : Type} {k : Str} {ms ns : List (Str × V)} (perm : ms.Perm ns)
    (keys : (ms.map Prod.fst).Nodup) :
    lookup k ms = lookup k ns := by
  cases found : lookup k ns with
  | some v => exact lookup_of_mem keys (perm.mem_iff.2 (lookup_mem found))
  | none =>
    rw [lookup_eq_none] at found ⊢
    exact fun m => found ((perm.map Prod.fst).mem_iff.1 m)

/-- Looking up in mapped values. -/
lemma lookup_map {V W : Type} (f : V → W) (k : Str) (ms : List (Str × V)) :
    lookup k (ms.map fun e => (e.1, f e.2)) = (lookup k ms).map f := by
  induction ms with
  | nil => rfl
  | cons e ms ih =>
    rw [List.map_cons, lookup, lookup, ih]
    split <;> rfl

/-! ### Sorted members -/

/-- The order of texts is total. -/
lemma strLe_total (s t : Str) : strLe s t = true ∨ strLe t s = true := by
  induction s generalizing t with
  | nil => exact .inl (by cases t <;> rfl)
  | cons a s ih =>
    cases t with
    | nil => exact .inr rfl
    | cons b t =>
      simp only [strLe, Bool.or_eq_true, Bool.and_eq_true, decide_eq_true_eq]
      rcases Nat.lt_trichotomy a b with lt | rfl | gt
      · exact .inl (.inl lt)
      · exact (ih t).imp (fun le => .inr ⟨rfl, le⟩) fun le => .inr ⟨rfl, le⟩
      · exact .inr (.inl gt)

/-- The order of texts is transitive. -/
lemma strLe_trans {s t u : Str} (h : strLe s t = true) (h' : strLe t u = true) :
    strLe s u = true := by
  induction s generalizing t u with
  | nil => cases u <;> rfl
  | cons a s ih =>
    cases t with
    | nil => cases h
    | cons b t =>
      cases u with
      | nil => cases h'
      | cons c u =>
        simp only [strLe, Bool.or_eq_true, Bool.and_eq_true, decide_eq_true_eq] at h h' ⊢
        rcases h with lt | ⟨rfl, le⟩
        · rcases h' with lt' | ⟨rfl, _⟩
          · exact .inl (by omega)
          · exact .inl lt
        · rcases h' with lt' | ⟨rfl, le'⟩
          · exact .inl lt'
          · exact .inr ⟨rfl, ih le le'⟩

/-- The order of texts is antisymmetric. -/
lemma strLe_antisymm {s t : Str} (h : strLe s t = true) (h' : strLe t s = true) : s = t := by
  induction s generalizing t with
  | nil =>
    cases t with
    | nil => rfl
    | cons b t => cases h'
  | cons a s ih =>
    cases t with
    | nil => cases h
    | cons b t =>
      simp only [strLe, Bool.or_eq_true, Bool.and_eq_true, decide_eq_true_eq] at h h'
      rcases h with lt | ⟨rfl, le⟩
      · omega
      · rcases h' with lt' | ⟨_, le'⟩
        · omega
        · rw [ih le le']

section Sorted
variable {V : Type}

/-- Inserting keeps the keys sorted. -/
lemma insertByKey_sorted {e : Str × V} {ms : List (Str × V)}
    (h : ms.Pairwise fun a b => strLe a.1 b.1 = true) :
    (insertByKey e ms).Pairwise fun a b => strLe a.1 b.1 = true := by
  induction ms with
  | nil => exact List.pairwise_singleton _ _
  | cons a ms ih =>
    obtain ⟨first, rest⟩ := List.pairwise_cons.1 h
    rw [insertByKey]
    split
    · rename_i le
      refine List.pairwise_cons.2 ⟨fun b m => ?_, h⟩
      rcases List.mem_cons.1 m with rfl | m
      · exact le
      · exact strLe_trans le (first b m)
    · rename_i gt
      refine List.pairwise_cons.2 ⟨fun b m => ?_, ih rest⟩
      rcases List.mem_cons.1 ((insertByKey_perm e ms).mem_iff.1 m) with rfl | m
      · exact (strLe_total a.1 b.1).resolve_right gt
      · exact first b m

/-- Sorting sorts. -/
lemma sortByKey_sorted (ms : List (Str × V)) : (sortByKey ms).Pairwise fun a b =>
  strLe a.1 b.1 = true := by
  induction ms with
  | nil => exact .nil
  | cons e ms ih => exact insertByKey_sorted ih

/-- Sorted members stay where they are. -/
lemma sortByKey_of_sorted {ms : List (Str × V)} (h : ms.Pairwise fun a b => strLe a.1 b.1 = true) :
    sortByKey ms = ms := by
  induction ms with
  | nil => rfl
  | cons e ms ih =>
    obtain ⟨first, rest⟩ := List.pairwise_cons.1 h
    rw [sortByKey, ih rest]
    cases ms with
    | nil => rfl
    | cons a ms => rw [insertByKey, if_pos (first a List.mem_cons_self)]

/-- Ordering twice is ordering once. -/
lemma order_order (o : Dump) (ms : List (Str × V)) : o.order (o.order ms) = o.order ms := by
  rw [Dump.order, Dump.order]
  split
  · exact sortByKey_of_sorted (sortByKey_sorted ms)
  · rfl

/-- Members with distinct keys are sorted in one way only. -/
lemma sortByKey_perm_eq {ms ns : List (Str × V)} (perm : ms.Perm ns)
    (keys : (ms.map Prod.fst).Nodup) :
    sortByKey ms = sortByKey ns := by
  have both : (sortByKey ms).Perm (sortByKey ns) :=
    (sortByKey_perm ms).trans (perm.trans (sortByKey_perm ns).symm)
  have distinct : ((sortByKey ms).map Prod.fst).Nodup :=
    ((sortByKey_perm ms).map Prod.fst).nodup_iff.2 keys
  refine both.eq_of_pairwise (fun a b ma mb le le' => ?_) (sortByKey_sorted ms)
    (sortByKey_sorted ns)
  exact List.inj_on_of_nodup_map distinct ma (both.mem_iff.2 mb) (strLe_antisymm le le')

end Sorted

variable [Interpreter]

/-! ### Written values -/

/-- Values without floats, in which no object repeats a member, nested at most `d` deep. -/
inductive Plain : Nat → Value → Prop
  | null {d} : Plain d .null
  | bool {d b} : Plain d (.bool b)
  | int {d n} : Plain d (.int n)
  | str {d s} : Plain d (.str s)
  | list {d xs} (elems : ∀ x ∈ xs, Plain d x) : Plain (d + 1) (.list xs)
  | dict {d ms} (keys : (ms.map Prod.fst).Nodup) (members : ∀ e ∈ ms, Plain d e.2) :
      Plain (d + 1) (.dict ms)

/-- The text of each element. -/
lemma dumpsList_mem {o : Dump} {xs : List Value} {ts : List Str} (h : dumpsList o xs = .ok ts) :
    ∀ x ∈ xs, ∃ t ∈ ts, dumps o x = .ok t := by
  induction xs generalizing ts with
  | nil => exact nofun
  | cons x xs ih =>
    obtain ⟨t, ht, h⟩ := bind_ok.1 h
    obtain ⟨us, hus, h⟩ := bind_ok.1 h
    cases h
    intro y m
    rcases List.mem_cons.1 m with rfl | m
    · exact ⟨t, List.mem_cons_self, ht⟩
    · obtain ⟨u, mu, hu⟩ := ih hus y m
      exact ⟨u, List.mem_cons_of_mem _ mu, hu⟩

/-- The text of each member. -/
lemma dumpsDict_mem {o : Dump} {ms : List (Str × Value)} {ts : List (Str × Str)}
    (h : dumpsDict o ms = .ok ts) :
    ∀ e ∈ ms, ∃ t, (e.1, t) ∈ ts ∧ dumps o e.2 = .ok t := by
  induction ms generalizing ts with
  | nil => exact nofun
  | cons e ms ih =>
    obtain ⟨t, ht, h⟩ := bind_ok.1 h
    obtain ⟨us, hus, h⟩ := bind_ok.1 h
    cases h
    intro e' m
    rcases List.mem_cons.1 m with rfl | m
    · exact ⟨t, List.mem_cons_self, ht⟩
    · obtain ⟨u, mu, hu⟩ := ih hus e' m
      exact ⟨u, List.mem_cons_of_mem _ mu, hu⟩

/-- Values in which no object repeats a member, nested at most `d` deep; with floats, where these
are allowed. -/
inductive Tidy (floats : Prop) : Nat → Value → Prop
  | null {d} : Tidy floats d .null
  | bool {d b} : Tidy floats d (.bool b)
  | int {d n} : Tidy floats d (.int n)
  | float {d x} (allowed : floats) : Tidy floats d (.float x)
  | str {d s} : Tidy floats d (.str s)
  | list {d xs} (elems : ∀ x ∈ xs, Tidy floats d x) : Tidy floats (d + 1) (.list xs)
  | dict {d ms} (keys : (ms.map Prod.fst).Nodup) (members : ∀ e ∈ ms, Tidy floats d e.2) :
      Tidy floats (d + 1) (.dict ms)

/-- A value nested at most `d` deep is nested no deeper than any bound above. -/
lemma Tidy.mono {floats : Prop} {d e : Nat} {v : Value} (tidy : Tidy floats d v) (le : d ≤ e) :
    Tidy floats e v := by
  induction tidy generalizing e with
  | null => exact .null
  | bool => exact .bool
  | int => exact .int
  | float allowed => exact .float allowed
  | str => exact .str
  | list _ ih =>
    obtain ⟨e, rfl⟩ := Nat.exists_eq_add_of_le' (Nat.one_le_of_lt le)
    exact .list fun x m => ih x m (Nat.le_of_succ_le_succ le)
  | dict keys _ ih =>
    obtain ⟨e, rfl⟩ := Nat.exists_eq_add_of_le' (Nat.one_le_of_lt le)
    exact .dict keys fun m mem => ih m mem (Nat.le_of_succ_le_succ le)

/-- A tidy value that could be written, as text that can be encoded, is legible; floats have to be
finite for it. -/
theorem Tidy.legible {floats : Prop} {d : Nat} {v : Value} (tidy : Tidy floats d v) {o : Dump}
    (finite : floats → o.allowNan = false) {t : Str} (text : dumps o v = .ok t)
    (scalar : ∀ c ∈ t, Scalar c) :
    Legible d v := by
  induction tidy generalizing t with
  | null => exact .null
  | bool => exact .bool
  | @int d n =>
    rw [dumps, intRepr] at text
    split at text
    · cases text
    · exact .int (Nat.not_lt.1 ‹_›)
  | @float d x allowed =>
    rw [dumps, floatRepr] at text
    split at text
    · exact .float ‹_›
    · rw [finite allowed] at text
      cases text
  | str =>
    cases text
    refine .str fun c m => ?_
    rcases mem_quote m with quoted | ascii
    · exact scalar c quoted
    · exact ascii_scalar ascii
  | @list d xs elems ih =>
    obtain ⟨ts, hts, text⟩ := bind_ok.1 text
    cases text
    refine .list fun x m => ?_
    obtain ⟨u, mu, hu⟩ := dumpsList_mem hts x m
    refine ih x m hu fun c mc => scalar c ?_
    exact List.mem_cons_of_mem _ (List.mem_append_left _ (mem_intercalate mu mc))
  | @dict d ms keys members ih =>
    obtain ⟨ts, hts, text⟩ := bind_ok.1 text
    cases text
    have inside : ∀ e ∈ ms, ∃ u, dumps o e.2 = .ok u ∧ (∀ c ∈ quote e.1, Scalar c) ∧ ∀ c ∈ u,
        Scalar c := by
      intro e m
      obtain ⟨u, mu, hu⟩ := dumpsDict_mem hts e m
      have written : ∀ c ∈ quote e.1 ++ o.keySep ++ u, Scalar c := fun c mc => scalar c <|
        List.mem_cons_of_mem _ <| List.mem_append_left _ <|
          mem_intercalate (List.mem_map.2 ⟨_, (order_perm o ts).mem_iff.2 mu, rfl⟩) mc
      refine ⟨u, hu, fun c mc => written c ?_, fun c mc => written c (List.mem_append_right _ mc)⟩
      exact List.mem_append_left _ (List.mem_append_left _ mc)
    refine .dict keys (fun e m c mc => ?_) fun e m => ?_
    · obtain ⟨u, _, key, _⟩ := inside e m
      rcases mem_quote mc with quoted | ascii
      · exact key c quoted
      · exact ascii_scalar ascii
    · obtain ⟨u, hu, _, value⟩ := inside e m
      exact ih e m hu value

/-- Distinct names are distinct keys. -/
lemma fields_nodup {fs : List (String × Value)} (h : (fs.map Prod.fst).Nodup) :
    ((fs.map fun f => (str f.1, f.2)).map Prod.fst).Nodup := by
  have distinct := literals_nodup h
  rw [List.map_map] at distinct ⊢
  exact distinct

/-- A dictionary display with distinct literal keys. -/
lemma Tidy.ofFields {floats : Prop} {d : Nat} {fs : List (String × Value)}
    (keys : (fs.map Prod.fst).Nodup)
    (members : ∀ f ∈ fs, Tidy floats d f.2) : Tidy floats (d + 1) (.ofFields fs) := by
  refine .dict (fields_nodup keys) fun e m => ?_
  obtain ⟨f, mf, rfl⟩ := List.mem_map.1 m
  exact members f mf

/-- A plain value is tidy. -/
lemma Plain.tidy {d : Nat} {v : Value} (plain : Plain d v) : Tidy False d v := by
  induction plain with
  | null => exact .null
  | bool => exact .bool
  | int => exact .int
  | str => exact .str
  | list elems ih => exact .list ih
  | dict keys members ih => exact .dict keys ih

/-- A plain value that could be written, as text that can be encoded, is legible. -/
theorem Plain.legible {d : Nat} {v : Value} (plain : Plain d v) {o : Dump} {t : Str}
    (text : dumps o v = .ok t)
    (scalar : ∀ c ∈ t, Scalar c) : Legible d v :=
  plain.tidy.legible False.elim text scalar

/-- Equal text comes from values that differ in the order of members at most. -/
theorem Plain.unique {d : Nat} {v w : Value} (hv : Plain d v) (hw : Plain d w)
    (depth : d ≤ Interpreter.recursionLimit)
    {o : Dump} {t : Str} (textv : dumps o v = .ok t) (textw : dumps o w = .ok t)
    (scalar : ∀ c ∈ t, Scalar c) :
    v.reorder o = w.reorder o := by
  obtain ⟨u, dumped, _, read⟩ := (hv.legible textv scalar).loads o Hooks.default_keeps depth
  obtain ⟨u', dumped', _, read'⟩ := (hw.legible textw scalar).loads o Hooks.default_keeps depth
  cases textv.symm.trans dumped
  cases textw.symm.trans dumped'
  exact Except.ok.inj (read.symm.trans read')

/-- Reordering an object changes no member but by reordering it. -/
lemma lookup_reorder (o : Dump) {ms : List (Str × Value)}
    (keys : (ms.map Prod.fst).Nodup) (k : Str) :
    lookup k (o.order (Value.reorderDict o ms)) = (lookup k ms).map (Value.reorder o) := by
  rw [reorderDict_eq, ← lookup_map]
  refine lookup_perm (order_perm o _) ?_
  rw [((order_perm o _).map Prod.fst).nodup_iff, List.map_map]
  exact keys

/-- Objects that differ in the order of members at most have the same members. -/
lemma lookup_of_reorder {o : Dump} {ms ns : List (Str × Value)} (keys : (ms.map Prod.fst).Nodup)
    (keys' : (ns.map Prod.fst).Nodup)
    (same : (Value.dict ms).reorder o = (Value.dict ns).reorder o) (k : Str) :
    (lookup k ms).map (Value.reorder o) = (lookup k ns).map (Value.reorder o) := by
  have inner : o.order (Value.reorderDict o ms) = o.order (Value.reorderDict o ns) :=
    Value.dict.inj same
  rw [← lookup_reorder o keys, inner, lookup_reorder o keys']

/-- Without sorted keys, members are written as they come. -/
lemma Legible.reorder_unsorted {d : Nat} {v : Value} (h : Legible d v) {o : Dump}
    (unsorted : o.sortKeys = false) :
    v.reorder o = v := by
  have order : ∀ ms : List (Str × Value), o.order ms = ms := by
    intro ms
    rw [Dump.order, unsorted]
    rfl
  induction h with
  | null | bool | int | float | str => rfl
  | @list d xs elems ih =>
    rw [Value.reorder, reorderList_eq]
    exact congrArg Value.list ((List.map_congr_left ih).trans (List.map_id xs))
  | @dict d ms keys chars members ih =>
    have same : ∀ e ∈ ms, (e.1, e.2.reorder o) = e := fun e m => Prod.ext rfl (ih e m)
    rw [Value.reorder, reorderDict_eq, order]
    exact congrArg Value.dict ((List.map_congr_left same).trans (List.map_id ms))

/-- Members that are in order stay in order. -/
lemma Legible.reorder_reorder {d : Nat} {v : Value} (h : Legible d v) (o : Dump) :
    (v.reorder o).reorder o = v.reorder o := by
  induction h with
  | null | bool | int | float | str => rfl
  | list elems ih =>
    rw [Value.reorder, Value.reorder, reorderList_eq, reorderList_eq, List.map_map]
    exact congrArg Value.list (List.map_congr_left ih)
  | @dict d ms keys chars members ih =>
    simp only [Value.reorder, reorderDict_eq]
    rw [← order_map o (Value.reorder o), order_order, List.map_map]
    exact congrArg (fun ms => Value.dict (o.order ms)) (List.map_congr_left fun e m =>
      Prod.ext rfl (ih e m))

/-- A legible value stays legible in any order. -/
lemma Legible.reorder {d : Nat} {v : Value} (h : Legible d v) (o : Dump) :
    Legible d (v.reorder o) := by
  induction h with
  | null => exact .null
  | bool => exact .bool
  | int digits => exact .int digits
  | float finite => exact .float finite
  | str chars => exact .str chars
  | list elems ih =>
    rw [Value.reorder, reorderList_eq]
    refine .list fun x m => ?_
    obtain ⟨y, my, rfl⟩ := List.mem_map.1 m
    exact ih y my
  | @dict d ms keys chars members ih =>
    have perm := order_perm o (Value.reorderDict o ms)
    have back : ∀ e ∈ o.order (Value.reorderDict o ms), ∃ e' ∈ ms, e = (e'.1, e'.2.reorder o) := by
      intro e m
      rw [perm.mem_iff, reorderDict_eq] at m
      obtain ⟨e', m', rfl⟩ := List.mem_map.1 m
      exact ⟨e', m', rfl⟩
    refine .dict ?_ (fun e m => ?_) fun e m => ?_
    · rw [(perm.map Prod.fst).nodup_iff, reorderDict_eq, List.map_map]
      exact keys
    · obtain ⟨e', m', rfl⟩ := back e m
      exact chars e' m'
    · obtain ⟨e', m', rfl⟩ := back e m
      exact ih e' m'

/-- The text of a value, where it has one. -/
def textOf (o : Dump) (v : Value) : Str :=
  match dumps o v with
  | .ok t => t
  | .error _ => []

/-- A legible value has its text. -/
lemma Legible.text {d : Nat} {v : Value} (h : Legible d v) (o : Dump) :
    dumps o v = .ok (textOf o v) := by
  obtain ⟨t, w⟩ := h.written o
  rw [textOf, w.text]

/-- Legible values have one text only if they differ in the order of members at most. -/
theorem Legible.reorder_eq {d e : Nat} {v w : Value} (hv : Legible d v) (hw : Legible e w)
    (dv : d ≤ Interpreter.recursionLimit) (dw : e ≤ Interpreter.recursionLimit) (o : Dump)
    (same : textOf o v = textOf o w) :
    v.reorder o = w.reorder o := by
  obtain ⟨t, text, _, read⟩ := hv.loads o Hooks.default_keeps dv
  obtain ⟨t', text', _, read'⟩ := hw.loads o Hooks.default_keeps dw
  have one : t = t' := by
    rw [hv.text, Except.ok.injEq] at text
    rw [hw.text, Except.ok.injEq] at text'
    rw [← text, ← text', same]
  rw [one, read', Except.ok.injEq] at read
  exact read.symm

/-- The texts of the members. -/
lemma dumpsDict_map {o : Dump} {ms : List (Str × Value)}
    (h : ∀ e ∈ ms, dumps o e.2 = .ok (textOf o e.2)) :
    dumpsDict o ms = .ok (ms.map fun e => (e.1, textOf o e.2)) := by
  induction ms with
  | nil => rfl
  | cons e ms ih =>
    rw [dumpsDict, h e List.mem_cons_self, ok_bind, ih fun e m => h e (List.mem_cons_of_mem _ m)]
    rfl

/-- Elements with the same text give the same text. -/
lemma dumpsList_congr {o : Dump} {xs : List Value} {f : Value → Value}
    (h : ∀ x ∈ xs, dumps o (f x) = dumps o x) :
    dumpsList o (xs.map f) = dumpsList o xs := by
  induction xs with
  | nil => rfl
  | cons x xs ih =>
    rw [List.map_cons, dumpsList, dumpsList, h x List.mem_cons_self,
      ih fun x m => h x (List.mem_cons_of_mem _ m)]

/-- A reordered value is written as the value is. -/
lemma Legible.dumps_reorder {d : Nat} {v : Value} (h : Legible d v) (o : Dump) :
    dumps o (v.reorder o) = dumps o v := by
  induction h with
  | null | bool | int | float | str => rfl
  | list elems ih =>
    rw [Value.reorder, reorderList_eq, dumps, dumps, dumpsList_congr ih]
  | @dict d ms keys chars members ih =>
    have same : ∀ e ∈ ms, textOf o (e.2.reorder o) = textOf o e.2 := by
      intro e m
      rw [textOf, ih e m, textOf]
    have inner : dumpsDict o (o.order (Value.reorderDict o ms)) =
        .ok (o.order (ms.map fun e => (e.1, textOf o e.2))) := by
      have each : ∀ e ∈ o.order (Value.reorderDict o ms), dumps o e.2 = .ok (textOf o e.2) := by
        intro e m
        rw [(order_perm o _).mem_iff, reorderDict_eq] at m
        obtain ⟨e', m', rfl⟩ := List.mem_map.1 m
        exact (ih e' m').trans ((members e' m').text o |>.trans (congrArg _ (same e' m').symm))
      rw [dumpsDict_map each, ← order_map o (textOf o), reorderDict_eq, List.map_map]
      exact congrArg (fun ts => Except.ok (o.order ts)) (List.map_congr_left fun e m =>
        Prod.ext rfl (same e m))
    rw [Value.reorder, dumps, dumps, inner, dumpsDict_map fun e m => (members e m).text o, ok_bind,
      ok_bind, order_order]

/-- With sorted keys, the order of the members of an object does not show in its text. -/
lemma dumps_perm {d : Nat} {ms ns : List (Str × Value)} (h : Legible d (.dict ms))
    (perm : ms.Perm ns) {o : Dump}
    (sorted : o.sortKeys = true) : dumps o (.dict ms) = dumps o (.dict ns) := by
  cases h with
  | dict keys chars members =>
    have each : ∀ e ∈ ms, dumps o e.2 = .ok (textOf o e.2) := fun e m => (members e m).text o
    have same : o.order (ms.map fun e => (e.1, textOf o e.2)) =
        o.order (ns.map fun e => (e.1, textOf o e.2)) := by
      rw [Dump.order, Dump.order, if_pos sorted, if_pos sorted]
      refine sortByKey_perm_eq (perm.map _) ?_
      rw [List.map_map]
      exact keys
    rw [dumps, dumps, dumpsDict_map each, dumpsDict_map fun e m => each e (perm.mem_iff.2 m),
      ok_bind, ok_bind, same]

/-- A legible value equals itself in any order of its members. -/
lemma Legible.eq_reorder {d : Nat} {v : Value} (h : Legible d v) (o : Dump) :
    v.eq (v.reorder o) = true := by
  induction h with
  | null => rfl
  | bool | int => simp [Value.reorder, Value.eq, Value.num?, Num.eq, Num.view, FloatView.eq]
  | float finite =>
    simp [Value.reorder, Value.eq, Value.num?, Num.eq, Num.view, FloatView.eq, finite]
  | str => simp [Value.reorder, Value.eq]
  | @list d xs elems ih =>
    rw [Value.reorder, Value.eq, reorderList_eq]
    clear elems
    induction xs with
    | nil => rfl
    | cons x xs iht =>
      rw [List.map_cons, Value.eqList, ih x List.mem_cons_self,
        iht fun y m => ih y (List.mem_cons_of_mem _ m)]
      rfl
  | @dict d ms keys chars members ih =>
    rw [Value.reorder, eq_dict_iff]
    refine ⟨ms, rfl, ?_, fun e m => ?_⟩
    · rw [(order_perm o _).length_eq, reorderDict_eq, List.length_map]
    · rw [lookup_reorder o keys, lookup_of_mem keys m]
      exact ⟨_, rfl, ih e m⟩

end DbLab.Py
