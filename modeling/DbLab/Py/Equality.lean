import DbLab.Py.Exec

/-!
# Python's `==` on JSON values

Equality looks through the order of dictionary members and the type of numbers. It is no equivalence
on all values (a NaN equals nothing), so each use has its own lemma.
-/

namespace DbLab.Py

variable [Interpreter]

/-- Members are equal key by key. -/
lemma eqDict_iff {ms ns : List (Str × Value)} :
    Value.eqDict ms ns = true ↔ ∀ e ∈ ms, ∃ w, lookup e.1 ns = some w ∧ e.2.eq w = true := by
  induction ms with
  | nil => exact ⟨fun _ => nofun, fun _ => rfl⟩
  | cons e ms ih =>
    rw [Value.eqDict, Bool.and_eq_true, ih, List.forall_mem_cons]
    cases lookup e.1 ns <;> simp

/-- Only a text equals a text. -/
lemma eq_str_iff {v : Value} {s : Str} : v.eq (.str s) = true ↔ v = .str s := by
  cases v with
  | str t => simp
  | null => simp [Value.eq]
  | list xs => simp [Value.eq]
  | dict ms => simp [Value.eq]
  | bool b => simp [Value.eq, Value.num?]
  | int n => simp [Value.eq, Value.num?]
  | float x => simp [Value.eq, Value.num?]

/-- A value equal to an integer is a number with that value. -/
lemma eq_int_iff {v : Value} {n : Int} :
    v.eq (.int n) = true ↔ ∃ a, v.num? = some a ∧ a.view = .finite n := by
  have num : ∀ a : Num, a.eq (.int n) = true ↔ a.view = .finite n := by
    intro a
    rw [Num.eq, show (Num.int n).view = .finite n from rfl]
    cases a.view <;> simp [FloatView.eq]
  cases v with
  | str t => simp [Value.eq, Value.num?]
  | null => simp [Value.eq, Value.num?]
  | list xs => simp [Value.eq, Value.num?]
  | dict ms => simp [Value.eq, Value.num?]
  | bool b => simpa [Value.eq, Value.num?] using num _
  | int m => simpa [Value.eq, Value.num?] using num _
  | float x => simpa [Value.eq, Value.num?] using num _

/-- Numbers are compared as numbers. -/
lemma eq_of_num {v w : Value} {a b : Num} (hv : v.num? = some a) (hw : w.num? = some b) :
    v.eq w = a.eq b := by
  cases v with
  | str t => cases hv
  | null => cases hv
  | list xs => cases hv
  | dict ms => cases hv
  | bool b => rw [Value.eq, hv, hw] <;> simp
  | int n => rw [Value.eq, hv, hw] <;> simp
  | float x => rw [Value.eq, hv, hw] <;> simp

/-- A value through which equality is Euclidean. -/
def Value.pivot (p : Value) : Prop := ∀ v w : Value, v.eq p = true → w.eq p = true → v.eq w = true

/-- A text may stand in the middle. -/
lemma pivot_str (s : Str) : (Value.str s).pivot := by
  intro v w hv hw
  rw [eq_str_iff.1 hv, eq_str_iff.1 hw, eq_str, decide_eq_true_eq]

/-- An integer may stand in the middle. -/
lemma pivot_int (n : Int) : (Value.int n).pivot := by
  intro v w hv hw
  obtain ⟨a, ha, va⟩ := eq_int_iff.1 hv
  obtain ⟨b, hb, vb⟩ := eq_int_iff.1 hw
  rw [eq_of_num ha hb, Num.eq, va, vb]
  simp [FloatView.eq]

/-- What equals a dictionary. -/
lemma eq_dict_iff {v : Value} {ns : List (Str × Value)} :
    v.eq (.dict ns) = true ↔ ∃ ms, v = .dict ms ∧ ms.length = ns.length ∧
      ∀ e ∈ ms, ∃ w, lookup e.1 ns = some w ∧ e.2.eq w = true := by
  cases v with
  | dict ms => simp [Value.eq, eqDict_iff]
  | str t => simp [Value.eq]
  | null => simp [Value.eq]
  | list xs => simp [Value.eq]
  | bool b => simp [Value.eq, Value.num?]
  | int n => simp [Value.eq, Value.num?]
  | float x => simp [Value.eq, Value.num?]

/-- Two dictionaries equal to a third one with pivotal members are equal, when keys are distinct. -/
lemma eq_dict_of_pivot {v w : Value} {ps : List (Str × Value)} (members : ∀ e ∈ ps, e.2.pivot)
    (keys : ∀ ns, w = .dict ns → (ns.map Prod.fst).Nodup) (hv : v.eq (.dict ps) = true)
    (hw : w.eq (.dict ps) = true) : v.eq w = true := by
  obtain ⟨ms, rfl, lenv, eqv⟩ := eq_dict_iff.1 hv
  obtain ⟨ns, rfl, lenw, eqw⟩ := eq_dict_iff.1 hw
  have nd := keys ns rfl
  -- the keys of `w` are among the keys of the third dictionary and as many
  have sub : ns.map Prod.fst ⊆ ps.map Prod.fst := by
    intro k m
    obtain ⟨e, me, rfl⟩ := List.mem_map.1 m
    obtain ⟨u, found, _⟩ := eqw e me
    exact List.mem_map.2 ⟨_, lookup_mem found, rfl⟩
  have perm : (ns.map Prod.fst).Perm (ps.map Prod.fst) := by
    apply (nd.subperm sub).perm_of_length_le
    rw [List.length_map, List.length_map, lenw]
  rw [eq_dict_iff]
  refine ⟨ms, rfl, lenv.trans lenw.symm, ?_⟩
  intro e me
  obtain ⟨u, found, equ⟩ := eqv e me
  have key : e.1 ∈ ps.map Prod.fst := List.mem_map.2 ⟨_, lookup_mem found, rfl⟩
  obtain ⟨e', me', key⟩ := List.mem_map.1 (perm.mem_iff.2 key)
  obtain ⟨u', found', equ'⟩ := eqw e' me'
  rw [key, found, Option.some_inj] at found'
  subst found'
  refine ⟨e'.2, lookup_of_mem nd ?_, members (e.1, u) (lookup_mem found) _ _ equ equ'⟩
  rw [← show e'.1 = e.1 from key]
  exact me'

/-- Dictionaries with the same members are equal, in whatever order. -/
lemma eq_dict_of_perm {ms ns : List (Str × Value)} (perm : ms.Perm ns)
    (keys : (ns.map Prod.fst).Nodup)
    (self : ∀ e ∈ ns, e.2.eq e.2 = true) : (Value.dict ms).eq (.dict ns) = true := by
  rw [eq_dict_iff]
  refine ⟨ms, rfl, perm.length_eq, fun e m => ?_⟩
  have mem := perm.mem_iff.1 m
  exact ⟨e.2, lookup_of_mem keys mem, self e mem⟩

/-! ### What the reader makes of an object -/

/-- A dictionary has distinct keys. -/
lemma dictOf_keys {pairs ms : List (Str × Value)} (h : dictOf pairs = .dict ms) :
    (ms.map Prod.fst).Nodup := by
  have run : ∀ pairs acc : List (Str × Value), (acc.map Prod.fst).Nodup →
      ((pairs.foldl (fun ms e => insertKey e.1 e.2 ms) acc).map Prod.fst).Nodup := by
    intro pairs
    induction pairs with
    | nil => exact fun acc nd => nd
    | cons e pairs ih => exact fun acc nd => ih _ (insertKey_nodup nd)
  cases h
  exact run pairs [] .nil

/-- A dictionary that is read has distinct keys. -/
lemma scanOnce_keys {limit : Nat} {s r : Str} {ms : List (Str × Value)}
    (h : scanOnce Hooks.default limit s = .ok (.dict ms, r)) : (ms.map Prod.fst).Nodup := by
  cases s with
  | nil =>
    rw [scanOnce.eq_def] at h
    cases h
  | cons c s =>
    rw [scanOnce.eq_def] at h
    simp only at h
    by_cases string : c = 34
    · rw [if_pos string] at h
      split at h <;> cases h
    rw [if_neg string] at h
    by_cases array : c = 91
    · rw [if_pos array] at h
      obtain _ | limit := limit
      · cases h
      · simp only at h
        split at h
        · cases h
        · obtain ⟨_, _, h⟩ := bind_ok.1 h
          cases h
    rw [if_neg array] at h
    by_cases object : c = 123
    · rw [if_pos object] at h
      obtain _ | limit := limit
      · cases h
      · simp only at h
        split at h
        · cases h
          exact .nil
        · obtain ⟨⟨ms', _⟩, _, h⟩ := bind_ok.1 h
          exact dictOf_keys (congrArg Prod.fst (Except.ok.inj h))
    rw [if_neg object] at h
    split_ifs at h
    iterate 6 cases h
    cases number : scanNumber (c :: s) with
    | error e =>
      rw [number] at h
      cases h
    | ok p =>
      rw [number] at h
      cases h
      rw [scanNumber] at number
      split at number
      · cases number
      · simp only at number
        split at number
        · obtain ⟨_, _, number⟩ := bind_ok.1 number
          cases number
        · cases number

/-- A dictionary that was read has distinct keys. -/
lemma loads_keys {s : Str} {ms : List (Str × Value)} (h : loads Hooks.default s = .ok (.dict ms)) :
    (ms.map Prod.fst).Nodup := by
  rw [loads] at h
  split at h
  · cases h
  · obtain ⟨⟨v, r⟩, scan, h⟩ := bind_ok.1 h
    simp only at h
    split at h
    · cases h
      exact scanOnce_keys scan
    · cases h

end DbLab.Py
