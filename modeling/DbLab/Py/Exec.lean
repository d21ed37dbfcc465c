import DbLab.Py.Json

/-!
# Running Python code that may raise

Rules for `Except` programs: how a successful run decomposes at a bind, and what the loops over a
list (`mapM`, `filterM`, `allM`, `anyM`) compute when no iteration raises. The last part evaluates
subscripts, `==`, arithmetic on integers and dictionaries with string keys.
-/

namespace DbLab.Py

variable {ε α β : Type}

/-- A run of a bind succeeds exactly when both of its parts do. -/
lemma bind_ok {x : Except ε α} {f : α → Except ε β} {b : β} :
    (x >>= f) = .ok b ↔ ∃ a, x = .ok a ∧ f a = .ok b := by
  cases x with
  | error e => exact ⟨nofun, fun ⟨_, h, _⟩ => nomatch h⟩
  | ok a => exact ⟨fun h => ⟨a, rfl, h⟩, fun ⟨_, h, h'⟩ => by cases h; exact h'⟩

/-- What returned goes on. -/
@[simp] lemma ok_bind (a : α) (f : α → Except ε β) : (Except.ok a >>= f) = f a := rfl

/-- What raised does not. -/
@[simp] lemma error_bind (e : ε) (f : α → Except ε β) :
    ((Except.error e : Except ε α) >>= f) = .error e := rfl

/-- Returning is returning. -/
lemma pure_eq_ok (a : α) : (pure a : Except ε α) = .ok a := rfl

/-- There is a result, and it passes a test. -/
def passes (x : Except ε α) (p : α → Bool) : Bool :=
  match x with
  | .ok a => p a
  | .error _ => false

/-- What passes has the property. -/
lemma passes_of_ok {x : Except ε α} {p : α → Bool} {a : α} (h : passes x p = true)
    (ok : x = .ok a) : p a = true := by
  rw [ok] at h
  exact h

/-- A run whose result passes a test. -/
lemma ok_of_test {x : Except ε α} {p : α → Bool} (h : passes x p = true) :
    ∃ a, x = .ok a ∧ p a = true := by
  cases x with
  | ok a => exact ⟨a, rfl, h⟩
  | error e => cases h

/-- Translating an error keeps what returned. -/
lemma mapError_ok {δ : Type} {x : Except ε α} {f : ε → δ} {a : α} :
    x.mapError f = .ok a ↔ x = .ok a := by
  cases x with
  | ok b => exact ⟨fun h => congrArg _ (Except.ok.inj h), fun h => congrArg _ (Except.ok.inj h)⟩
  | error e => exact ⟨nofun, nofun⟩

/-- Each element returns. -/
lemma mapM_ok {l : List α} {f : α → Except ε β} {g : α → β} (h : ∀ x ∈ l, f x = .ok (g x)) :
    l.mapM f = .ok (l.map g) := by
  induction l with
  | nil => rfl
  | cons x l ih =>
    rw [List.mapM_cons, h x List.mem_cons_self, ih fun y m => h y (List.mem_cons_of_mem _ m)]
    rfl

/-- A loop over loaded rows whose iterations each decide a proposition about their row. -/
lemma mapM_map_ok {ρ : Type} {v : ρ → α} {f : α → Except ε β} {ok : β → Bool} {P : ρ → Prop}
    {rs : List ρ} (h : ∀ r ∈ rs, ∃ b, f (v r) = .ok b ∧ (ok b = true ↔ P r)) :
    ∃ bs, (rs.map v).mapM f = .ok bs ∧ (bs.all ok = true ↔ ∀ r ∈ rs, P r) := by
  induction rs with
  | nil => exact ⟨[], rfl, by simp⟩
  | cons r rs ih =>
    obtain ⟨b, run, hb⟩ := h r List.mem_cons_self
    obtain ⟨bs, run', hbs⟩ := ih fun r' m => h r' (List.mem_cons_of_mem _ m)
    refine ⟨b :: bs, by rw [List.map_cons, List.mapM_cons, run, ok_bind, run']; rfl, ?_⟩
    rw [List.all_cons, Bool.and_eq_true, List.forall_mem_cons, hb, hbs]

/-- A loop that succeeds has succeeded at every element. -/
lemma mapM_eq_ok {l : List α} {f : α → Except ε β} {ys : List β} (h : l.mapM f = .ok ys) :
    List.Forall₂ (fun x y => f x = .ok y) l ys := by
  induction l generalizing ys with
  | nil =>
    cases h
    exact .nil
  | cons x l ih =>
    rw [List.mapM_cons] at h
    obtain ⟨y, hy, h⟩ := bind_ok.1 h
    obtain ⟨ys', hys, h⟩ := bind_ok.1 h
    cases h
    exact .cons hy (ih hys)

/-- Where every result of `f` comes from one of `g`. -/
lemma mapM_factors {γ : Type} {l : List α} {f : α → Except ε β} {g : α → Except ε γ} {k : γ → β}
    {ys : List β}
    (one : ∀ x y, f x = .ok y → ∃ z, g x = .ok z ∧ y = k z) (h : l.mapM f = .ok ys) :
    ∃ zs, l.mapM g = .ok zs ∧ ys = zs.map k := by
  induction l generalizing ys with
  | nil =>
    cases h
    exact ⟨[], rfl, rfl⟩
  | cons x l ih =>
    rw [List.mapM_cons] at h
    obtain ⟨y, hy, h⟩ := bind_ok.1 h
    obtain ⟨ys', hys, h⟩ := bind_ok.1 h
    cases h
    obtain ⟨z, hz, rfl⟩ := one x y hy
    obtain ⟨zs, hzs, rfl⟩ := ih hys
    exact ⟨z :: zs, by rw [List.mapM_cons, hz, hzs]; rfl, rfl⟩

/-- Each element has returned. -/
lemma mapM_mem_ok {l : List α} {f : α → Except ε β} {ys : List β} (h : l.mapM f = .ok ys) :
    ∀ x ∈ l, ∃ y, f x = .ok y := by
  intro x m
  obtain ⟨i, lt, rfl⟩ := List.mem_iff_getElem.1 m
  have each := mapM_eq_ok h
  exact ⟨_, each.get lt (each.length_eq ▸ lt)⟩

/-- Each check passes. -/
lemma forM_ok {l : List α} {f : α → Except ε Unit} (h : ∀ x ∈ l, f x = .ok ()) :
    l.forM f = .ok () := by
  induction l with
  | nil => rfl
  | cons x l ih =>
    exact bind_ok.2 ⟨(), h x List.mem_cons_self, ih fun y m => h y (List.mem_cons_of_mem _ m)⟩

/-- Each check has passed. -/
lemma forM_mem_ok {l : List α} {f : α → Except ε Unit} {u : Unit} (h : l.forM f = .ok u) :
    ∀ x ∈ l, ∃ v, f x = .ok v := by
  induction l with
  | nil => exact nofun
  | cons x l ih =>
    change (f x >>= fun _ => l.forM f) = .ok u at h
    obtain ⟨v, first, h⟩ := bind_ok.1 h
    intro y m
    rcases List.mem_cons.1 m with rfl | m
    · exact ⟨v, first⟩
    · exact ih h y m

/-- Every result comes from an element. -/
lemma mapM_result {l : List α} {f : α → Except ε β} {ys : List β} (h : l.mapM f = .ok ys) :
    ∀ y ∈ ys, ∃ x ∈ l, f x = .ok y := by
  intro y m
  obtain ⟨i, lt, rfl⟩ := List.mem_iff_getElem.1 m
  have each := mapM_eq_ok h
  exact ⟨_, List.getElem_mem (each.length_eq ▸ lt), each.get (each.length_eq ▸ lt) lt⟩

/-- `all(..)` over loaded rows, when each iteration decides a proposition about its row. -/
lemma allM_map_ok {ρ : Type} {v : ρ → α} {f : α → Except ε Bool} {P : ρ → Prop} {rs : List ρ}
    (h : ∀ r ∈ rs, ∃ b, f (v r) = .ok b ∧ (b = true ↔ P r)) :
    ∃ b, (rs.map v).allM f = .ok b ∧ (b = true ↔ ∀ r ∈ rs, P r) := by
  induction rs with
  | nil => exact ⟨true, rfl, by simp⟩
  | cons r rs ih =>
    obtain ⟨b, run, hb⟩ := h r List.mem_cons_self
    obtain ⟨b', run', hb'⟩ := ih fun r' m => h r' (List.mem_cons_of_mem _ m)
    rw [List.map_cons, List.allM, run, ok_bind]
    cases b with
    | true => exact ⟨b', run', by rw [hb', List.forall_mem_cons, ← hb]; simp⟩
    | false => exact ⟨false, rfl, by rw [List.forall_mem_cons, ← hb]; simp⟩

/-- A predicate that returns. -/
lemma anyM_ok {l : List α} {f : α → Except ε Bool} {p : α → Bool} (h : ∀ x ∈ l, f x = .ok (p x)) :
    l.anyM f = .ok (l.any p) := by
  induction l with
  | nil => rfl
  | cons x l ih =>
    rw [List.anyM, h x List.mem_cons_self, ok_bind, List.any_cons]
    cases p x with
    | true => rfl
    | false => exact ih fun y m => h y (List.mem_cons_of_mem _ m)

/-- Filtering by one, from any start. -/
lemma filterAuxM_ok {l : List α} {f : α → Except ε Bool} {p : α → Bool}
    (h : ∀ x ∈ l, f x = .ok (p x)) (acc : List α) :
    l.filterAuxM f acc = .ok ((l.filter p).reverse ++ acc) := by
  induction l generalizing acc with
  | nil => rfl
  | cons x l ih =>
    rw [List.filterAuxM, h x List.mem_cons_self, ok_bind,
      ih fun y m => h y (List.mem_cons_of_mem _ m)]
    cases hp : p x <;> simp [hp]

/-- Filtering by one. -/
lemma filterM_ok {l : List α} {f : α → Except ε Bool} {p : α → Bool}
    (h : ∀ x ∈ l, f x = .ok (p x)) :
    l.filterM f = .ok (l.filter p) := by
  rw [List.filterM, filterAuxM_ok h]
  simp

/-- Nothing is kept where nothing passes. -/
lemma filterAuxM_nil {l acc ys : List α} {f : α → Except ε Bool} (h : l.filterAuxM f acc = .ok ys) :
    ys.length = 0 ↔ acc.length = 0 ∧ ∀ x ∈ l, f x = .ok false := by
  induction l generalizing acc with
  | nil =>
    cases h
    exact ⟨fun none => ⟨none, nofun⟩, And.left⟩
  | cons x l ih =>
    rw [List.filterAuxM] at h
    obtain ⟨b, found, h⟩ := bind_ok.1 h
    rw [ih h, List.forall_mem_cons, found]
    cases b with
    | false => exact ⟨fun none => ⟨none.1, rfl, none.2⟩, fun none => ⟨none.1, none.2.2⟩⟩
    | true => exact ⟨fun none => (nomatch none.1), fun none => (nomatch none.2.1)⟩

/-- A filter that finds nothing refused every element. -/
lemma filterM_nil {l ys : List α} {f : α → Except ε Bool} (h : l.filterM f = .ok ys) :
    ys = [] ↔ ∀ x ∈ l, f x = .ok false := by
  rw [List.filterM] at h
  obtain ⟨found, run, h⟩ := bind_ok.1 h
  cases h
  rw [List.reverse_eq_nil_iff, ← List.length_eq_zero_iff, filterAuxM_nil run]
  exact ⟨And.right, fun none => ⟨rfl, none⟩⟩

/-- What is kept was there. -/
lemma filterAuxM_mem {l acc ys : List α} {f : α → Except ε Bool} (h : l.filterAuxM f acc = .ok ys) :
    ∀ y ∈ ys, y ∈ acc ∨ y ∈ l := by
  induction l generalizing acc with
  | nil =>
    cases h
    exact fun y m => .inl m
  | cons x l ih =>
    rw [List.filterAuxM] at h
    obtain ⟨b, _, h⟩ := bind_ok.1 h
    intro y m
    cases ih h y m with
    | inr later => exact .inr (List.mem_cons_of_mem _ later)
    | inl kept =>
      cases b with
      | false => exact .inl kept
      | true =>
        exact (List.mem_cons.1 kept).elim (fun mine => .inr (mine ▸ List.mem_cons_self)) .inl

/-- What is kept was in the list. -/
lemma filterM_mem {l ys : List α} {f : α → Except ε Bool} (h : l.filterM f = .ok ys) :
    ∀ y ∈ ys, y ∈ l := by
  rw [List.filterM] at h
  obtain ⟨found, run, h⟩ := bind_ok.1 h
  cases h
  intro y m
  exact (filterAuxM_mem run y (List.mem_reverse.1 m)).resolve_left List.not_mem_nil

/-- A search that finds nothing tried every element. -/
lemma anyM_false {l : List α} {f : α → Except ε Bool} :
    l.anyM f = .ok false ↔ ∀ x ∈ l, f x = .ok false := by
  induction l with
  | nil => exact ⟨fun _ => nofun, fun _ => rfl⟩
  | cons x l ih =>
    rw [List.anyM, List.forall_mem_cons, ← ih, bind_ok]
    constructor
    · rintro ⟨b, run, rest⟩
      cases b with
      | false => exact ⟨run, rest⟩
      | true => cases rest
    · exact fun ⟨run, rest⟩ => ⟨false, run, rest⟩

/-! ### Dictionaries with string keys -/

section Dict
variable {V : Type}

/-- A new key goes to the end. -/
lemma insertKey_of_not_mem {k : Str} {v : V} {ms : List (Str × V)} (h : k ∉ ms.map Prod.fst) :
    insertKey k v ms = ms ++ [(k, v)] := by
  induction ms with
  | nil => rfl
  | cons e ms ih =>
    rw [List.map_cons, List.mem_cons, not_or] at h
    rw [insertKey, if_neg (Ne.symm h.1), ih h.2, List.cons_append]

/-- An old key stays in its place. -/
lemma insertKey_keys_of_mem {k : Str} {v : V} {ms : List (Str × V)} (h : k ∈ ms.map Prod.fst) :
    (insertKey k v ms).map Prod.fst = ms.map Prod.fst := by
  induction ms with
  | nil => cases h
  | cons e ms ih =>
    rw [insertKey]
    split
    · next he => rw [List.map_cons, List.map_cons, he]
    · next he =>
      rw [List.map_cons, List.mem_cons] at h
      rw [List.map_cons, List.map_cons, ih (h.resolve_left (Ne.symm he))]

/-- The keys after an insert. -/
lemma mem_insertKey_keys {k k' : Str} {v : V} {ms : List (Str × V)} :
    k' ∈ (insertKey k v ms).map Prod.fst ↔ k' = k ∨ k' ∈ ms.map Prod.fst := by
  by_cases h : k ∈ ms.map Prod.fst
  · rw [insertKey_keys_of_mem h]
    exact ⟨.inr, fun h' => h'.elim (fun e => e ▸ h) fun h => h⟩
  · rw [insertKey_of_not_mem h, List.map_append, List.mem_append, List.map_singleton,
      List.mem_singleton, or_comm]

/-- Inserting keeps the keys distinct. -/
lemma insertKey_nodup {k : Str} {v : V} {ms : List (Str × V)} (nd : (ms.map Prod.fst).Nodup) :
    ((insertKey k v ms).map Prod.fst).Nodup := by
  by_cases h : k ∈ ms.map Prod.fst
  · rwa [insertKey_keys_of_mem h]
  · rw [insertKey_of_not_mem h, List.map_append, List.nodup_append]
    refine ⟨nd, by simp, fun a ha b hb => ?_⟩
    rw [List.map_singleton, List.mem_singleton] at hb
    rintro rfl
    have e : a = k := hb
    exact h (e ▸ ha)

/-- The members after an insert. -/
lemma mem_insertKey {k : Str} {v : V} {ms : List (Str × V)} {e : Str × V}
    (nd : (ms.map Prod.fst).Nodup) (m : e ∈ insertKey k v ms) :
    e = (k, v) ∨ e ∈ ms ∧ e.1 ≠ k := by
  induction ms with
  | nil => exact .inl (List.mem_singleton.1 m)
  | cons e' ms ih =>
    rw [List.map_cons, List.nodup_cons] at nd
    rw [insertKey] at m
    split at m
    · next he =>
      refine (List.mem_cons.1 m).imp id fun m => ⟨List.mem_cons_of_mem _ m, ?_⟩
      intro h
      exact nd.1 (he ▸ h ▸ List.mem_map_of_mem m)
    · next he =>
      cases List.mem_cons.1 m with
      | inl h => exact .inr ⟨h ▸ List.mem_cons_self, h ▸ he⟩
      | inr m => exact (ih nd.2 m).imp id fun h => ⟨List.mem_cons_of_mem _ h.1, h.2⟩

/-- The key inserted is found. -/
lemma lookup_insertKey_self {k : Str} {v : V} {ms : List (Str × V)} :
    lookup k (insertKey k v ms) = some v := by
  induction ms with
  | nil => simp [insertKey, lookup]
  | cons e ms ih =>
    rw [insertKey]
    split
    · simp [lookup]
    · next he => simp [lookup, he, ih]

/-- Any other key is as before. -/
lemma lookup_insertKey_ne {k k' : Str} {v : V} {ms : List (Str × V)} (h : k ≠ k') :
    lookup k' (insertKey k v ms) = lookup k' ms := by
  induction ms with
  | nil => simp [insertKey, lookup, h]
  | cons e ms ih =>
    rw [insertKey]
    split
    · next he => simp [lookup, he, h]
    · simp [lookup, ih]

/-- A key is missing. -/
lemma lookup_eq_none {k : Str} {ms : List (Str × V)} :
    lookup k ms = none ↔ k ∉ ms.map Prod.fst := by
  induction ms with
  | nil => simp [lookup]
  | cons e ms ih =>
    by_cases he : e.1 = k
    · simp [lookup, he]
    · simp [lookup, he, ih, Ne.symm he]

/-- What is found is there. -/
lemma lookup_mem {k : Str} {v : V} {ms : List (Str × V)} (h : lookup k ms = some v) :
    (k, v) ∈ ms := by
  induction ms with
  | nil => cases h
  | cons e ms ih =>
    rw [lookup] at h
    split at h
    · next he =>
      cases h
      rw [← he]
      exact List.mem_cons_self
    · exact List.mem_cons_of_mem _ (ih h)

/-- What is there is found. -/
lemma lookup_of_mem {k : Str} {v : V} {ms : List (Str × V)} (nd : (ms.map Prod.fst).Nodup)
    (h : (k, v) ∈ ms) : lookup k ms = some v := by
  induction ms with
  | nil => cases h
  | cons e ms ih =>
    rw [List.map_cons, List.nodup_cons] at nd
    rw [lookup]
    cases List.mem_cons.1 h with
    | inl he =>
      subst he
      exact if_pos rfl
    | inr hm =>
      have ne : e.1 ≠ k := fun he => nd.1 (he ▸ List.mem_map_of_mem hm)
      rw [if_neg ne, ih nd.2 hm]

/-- `dict(pairs)` keeps pairs with distinct keys as they are. -/
lemma foldl_insertKey_nodup {ms acc : List (Str × V)} (nd : ((acc ++ ms).map Prod.fst).Nodup) :
    ms.foldl (fun d e => insertKey e.1 e.2 d) acc = acc ++ ms := by
  induction ms generalizing acc with
  | nil => rw [List.foldl_nil, List.append_nil]
  | cons e ms ih =>
    have fresh : e.1 ∉ acc.map Prod.fst := by
      rw [List.map_append, List.map_cons, List.nodup_append] at nd
      exact fun m => nd.2.2 _ m _ List.mem_cons_self rfl
    rw [List.foldl_cons, insertKey_of_not_mem fresh, ih (by simpa using nd)]
    simp

/-- Inserting adds at most one key each. -/
lemma foldl_insertKey_length (ms acc : List (Str × V)) :
    (ms.foldl (fun d e => insertKey e.1 e.2 d) acc).length ≤ acc.length + ms.length := by
  induction ms generalizing acc with
  | nil => simp
  | cons e ms ih =>
    rw [List.foldl_cons]
    have rest := ih (insertKey e.1 e.2 acc)
    have step : (insertKey e.1 e.2 acc).length ≤ acc.length + 1 := by
      by_cases h : e.1 ∈ acc.map Prod.fst
      · rw [← List.length_map (f := Prod.fst), insertKey_keys_of_mem h, List.length_map]
        exact Nat.le_succ _
      · rw [insertKey_of_not_mem h, List.length_append]
        exact Nat.le_refl _
    rw [List.length_cons]
    omega

/-- A dictionary is as long as its pairs only when their keys are distinct. -/
lemma nodup_of_length {ms acc : List (Str × V)} (nd : (acc.map Prod.fst).Nodup)
    (h : (ms.foldl (fun d e => insertKey e.1 e.2 d) acc).length = acc.length + ms.length) :
    ((acc ++ ms).map Prod.fst).Nodup := by
  induction ms generalizing acc with
  | nil => simpa using nd
  | cons e ms ih =>
    rw [List.foldl_cons, List.length_cons] at h
    have le := foldl_insertKey_length ms (insertKey e.1 e.2 acc)
    by_cases m : e.1 ∈ acc.map Prod.fst
    · have : (insertKey e.1 e.2 acc).length = acc.length := by
        rw [← List.length_map (f := Prod.fst), insertKey_keys_of_mem m, List.length_map]
      omega
    · rw [insertKey_of_not_mem m] at h
      have nd' := insertKey_nodup (v := e.2) nd (k := e.1)
      rw [insertKey_of_not_mem m] at nd'
      have := ih nd' (by rw [h, List.length_append, List.length_singleton]; omega)
      simpa using this

/-- Distinct keys stay as they are. -/
lemma dictOf_nodup [Interpreter] {ms : List (Str × Value)} (nd : (ms.map Prod.fst).Nodup) :
    dictOf ms = .dict ms := by
  rw [dictOf, foldl_insertKey_nodup (by simpa using nd), List.nil_append]

end Dict

variable [Interpreter]

/-- The first field. -/
@[simp] lemma item_cons_self (k : String) (v : Value) (fs : List (String × Value)) :
    (Value.ofFields ((k, v) :: fs)).item k = .ok v := by
  simp [Value.ofFields, Value.item, lookup]

/-- A later field. -/
@[simp] lemma item_cons_ne {k k' : String} (h : k' ≠ k) (v : Value) (fs : List (String × Value)) :
    (Value.ofFields ((k', v) :: fs)).item k = (Value.ofFields fs).item k := by
  simp [Value.ofFields, Value.item, lookup, h]

/-- The first field. -/
@[simp] lemma get_cons_self (k : String) (v : Value) (fs : List (String × Value)) :
    (Value.ofFields ((k, v) :: fs)).get k = .ok v := by
  simp [Value.ofFields, Value.get, lookup]

/-- A later field. -/
@[simp] lemma get_cons_ne {k k' : String} (h : k' ≠ k) (v : Value) (fs : List (String × Value)) :
    (Value.ofFields ((k', v) :: fs)).get k = (Value.ofFields fs).get k := by
  simp [Value.ofFields, Value.get, lookup, h]

/-- When an item is there. -/
lemma item_ok {v w : Value} {k : String} :
    v.item k = .ok w ↔ ∃ ms, v = .dict ms ∧ lookup (str k) ms = some w := by
  cases v with
  | dict ms =>
    cases found : lookup (str k) ms with
    | some x => simp [Value.item, found]
    | none => simp [Value.item, found]
  | _ => exact ⟨nofun, fun ⟨_, e, _⟩ => nomatch e⟩

/-- Texts are equal as code points. -/
@[simp] lemma eq_str (a b : Str) : (Value.str a).eq (.str b) = decide (a = b) := rfl

/-- Integers are equal as numbers. -/
@[simp] lemma eq_int (a b : Int) : (Value.int a).eq (.int b) = decide (a = b) := by
  simp [Value.eq, Value.num?, Num.eq, Num.view, FloatView.eq]

/-- Two integers in order. -/
@[simp] lemma le_int (a b : Int) : (Value.int a).le (.int b) = .ok (decide (a ≤ b)) := by
  simp [Value.le, Value.num?, Num.le, Num.view, FloatView.le]

/-- The sum of two integers. -/
@[simp] lemma add_int (a b : Int) : (Value.int a).add (.int b) = .ok (.int (a + b)) := rfl
/-- The product of two integers. -/
@[simp] lemma mul_int (a b : Int) : (Value.int a).mul (.int b) = .ok (.int (a * b)) := rfl
/-- The negative of one. -/
@[simp] lemma neg_int (a : Int) : (Value.int a).neg = .ok (.int (-a)) := rfl
/-- An integer is one. -/
@[simp] lemma isInt_int (a : Int) : (Value.int a).isInt = true := rfl
/-- A text may be a key. -/
@[simp] lemma hashable_str (s : Str) : (Value.str s).hashable = true := rfl
/-- An integer may be a key. -/
@[simp] lemma hashable_int (n : Int) : (Value.int n).hashable = true := rfl

/-- Adding integers, from any start. -/
lemma foldlM_add_int (ns : List Int) (a : Int) :
    (ns.map Value.int).foldlM Value.add (.int a) = .ok (.int (a + ns.sum)) := by
  induction ns generalizing a with
  | nil => simp [pure_eq_ok]
  | cons n ns ih =>
    rw [List.map_cons, List.foldlM_cons, add_int, ok_bind, ih, List.sum_cons, Int.add_assoc]

/-- Adding integers. -/
@[simp] lemma sum_int (ns : List Int) : Value.sum (ns.map Value.int) = .ok (.int ns.sum) := by
  rw [Value.sum, foldlM_add_int, Int.zero_add]

/-! ### Dictionaries whose keys are strings -/

/-- A dictionary all of whose keys are strings. -/
def KeyDict.ofStr {α : Type} (d : List (Str × α)) : KeyDict α := d.map fun e => (.str e.1, e.2)

section KeyDict
variable {d : List (Str × α)}
open KeyDict

/-- A dictionary without keys. -/
@[simp] lemma ofStr_nil : (ofStr [] : KeyDict α) = [] := rfl

/-- Looking up a text. -/
lemma ofStr_get? (k : Str) : (ofStr d).get? (.str k) = lookup k d := by
  induction d with
  | nil => rfl
  | cons e d ih =>
    rw [ofStr, List.map_cons, KeyDict.get?, List.find?_cons, eq_str, lookup]
    by_cases h : e.1 = k
    · simp [h]
    · simpa [h, ofStr, KeyDict.get?] using ih

/-- A text is among the keys. -/
lemma ofStr_contains (k : Str) : (ofStr d).contains (.str k) = decide (k ∈ d.map Prod.fst) := by
  rw [Bool.eq_iff_iff]
  simp [ofStr, KeyDict.contains, Function.comp_def]

/-- Setting a text. -/
lemma ofStr_set (k : Str) (a : α) : KeyDict.set (.str k) a (ofStr d) = ofStr (insertKey k a d) := by
  induction d with
  | nil => rfl
  | cons e d ih =>
    rw [ofStr, List.map_cons, KeyDict.set, eq_str, insertKey]
    by_cases h : e.1 = k
    · simp [h, ofStr]
    · simpa [h, ofStr] using ih

/-- A dictionary has as many keys as entries. -/
@[simp] lemma ofStr_length : (ofStr d).length = d.length := List.length_map _
/-- The same values. -/
@[simp] lemma ofStr_values : (ofStr d).map Prod.snd = d.map Prod.snd := by simp [ofStr]

/-- `{r[k]: r for r in rows}` for rows whose `k` is a string. -/
lemma byField_ok {ρ : Type} {k : String} {rows : List ρ} {key : ρ → Str} {v : ρ → Value}
    (h : ∀ r ∈ rows, (v r).item k = .ok (.str (key r))) :
    KeyDict.byField k (rows.map v) =
      .ok (ofStr ((rows.map fun r => (key r, v r)).foldl (fun d e => insertKey e.1 e.2 d) [])) := by
  have gen : ∀ acc : List (Str × Value), (rows.map v).foldlM (KeyDict.setField k) (ofStr acc) =
      .ok (ofStr ((rows.map fun r => (key r, v r)).foldl
        (fun d e => insertKey e.1 e.2 d) acc)) := by
    induction rows with
    | nil => exact fun _ => rfl
    | cons r rows ih =>
      intro acc
      have step : KeyDict.setField k (ofStr acc) (v r) =
          .ok (ofStr (insertKey (key r) (v r) acc)) := by
        rw [KeyDict.setField, h r List.mem_cons_self, ok_bind, hashable_str, ofStr_set]
        rfl
      rw [List.map_cons, List.foldlM_cons, step, ok_bind]
      exact ih (fun r' m => h r' (List.mem_cons_of_mem _ m)) _
  exact gen []

/-- The rows by key, when no two rows share one: only then are there as many keys as rows. -/
lemma byField_nodup {ρ : Type} {k : String} (rows : List ρ) {key : ρ → Str} {v : ρ → Value}
    (h : ∀ r, (v r).item k = .ok (.str (key r))) :
    ∃ d, KeyDict.byField k (rows.map v) = .ok (ofStr d) ∧
      (d.length = rows.length ↔ (rows.map key).Nodup) ∧
      ((rows.map key).Nodup → d = rows.map fun r => (key r, v r)) := by
  have whole : (rows.map key).Nodup →
      (rows.map fun r => (key r, v r)).foldl (fun d e => insertKey e.1 e.2 d) [] =
        rows.map fun r => (key r, v r) := by
    intro nd
    apply foldl_insertKey_nodup
    simpa [Function.comp_def] using nd
  refine ⟨_, byField_ok fun r _ => h r, ?_, whole⟩
  constructor
  · intro len
    have nd := @nodup_of_length _ (rows.map fun r => (key r, v r)) [] .nil (by simpa using len)
    simpa [Function.comp_def] using nd
  · intro nd
    rw [whole nd, List.length_map]

end KeyDict

end DbLab.Py
