import Mathlib

/-!
# Tables

Rows with distinct keys, in the order they were inserted. `insert` refuses a row whose key is taken,
and `update` changes the row under a key but not the key itself.
-/

namespace DbLab.Store

variable {K R : Type} {key : R → K}

structure Table (key : R → K) where
  rows : List R
  nodup : (rows.map key).Nodup

namespace Table

/-- One row for each key. -/
lemma one_row (t : Table key) {r r' : R} (mr : r ∈ t.rows) (mr' : r' ∈ t.rows)
    (same : key r = key r') : r = r' :=
  List.inj_on_of_nodup_map t.nodup mr mr' same

variable [DecidableEq K]

def empty : Table key := ⟨[], .nil⟩

def find? (t : Table key) (k : K) : Option R := t.rows.find? fun r => key r = k

def insert (t : Table key) (r : R) : Table key :=
  if h : key r ∉ t.rows.map key then
    ⟨t.rows ++ [r], by
      rw [List.map_append]
      exact t.nodup.append (List.nodup_singleton _) (List.disjoint_singleton.2 h)⟩
  else t

def update (t : Table key) (k : K) (f : R → R) (keeps : ∀ r, key (f r) = key r) : Table key where
  rows := t.rows.map fun r => if key r = k then f r else r
  nodup := by
    have same : ∀ r, key (if key r = k then f r else r) = key r := by
      intro r
      split
      · exact keeps r
      · rfl
    rw [List.map_map, show key ∘ _ = key from funext same]
    exact t.nodup

variable {t : Table key} {r : R} {k : K} {f : R → R}

/-- No row has the key. -/
lemma find?_eq_none : t.find? k = none ↔ ∀ r ∈ t.rows, key r ≠ k := by
  rw [find?, List.find?_eq_none]
  simp only [decide_eq_true_eq, ne_eq]

/-- The row of the key. -/
lemma find?_eq_some : t.find? k = some r ↔ r ∈ t.rows ∧ key r = k := by
  constructor
  · intro h
    exact ⟨List.mem_of_find?_eq_some h, by simpa using List.find?_some h⟩
  · rintro ⟨m, rfl⟩
    cases e : t.find? (key r) with
    | none => exact absurd rfl (find?_eq_none.1 e r m)
    | some r' =>
      have same : key r' = key r := by simpa using List.find?_some e
      rw [List.inj_on_of_nodup_map t.nodup (List.mem_of_find?_eq_some e) m same]

/-- The key is not taken. -/
lemma notMem_keys (h : t.find? k = none) : k ∉ t.rows.map key := by
  intro m
  obtain ⟨r, mr, e⟩ := List.mem_map.1 m
  exact find?_eq_none.1 h r mr e

/-- A new row goes to the end. -/
lemma insert_rows (fresh : t.find? (key r) = none) : (t.insert r).rows = t.rows ++ [r] := by
  rw [insert, dif_pos (notMem_keys fresh)]

/-- The other rows stay. -/
lemma mem_insert {r' : R} (m : r' ∈ t.rows) : r' ∈ (t.insert r).rows := by
  rw [insert]
  split
  · exact List.mem_append_left _ m
  · exact m

/-- Other keys read as before. -/
lemma find?_insert_of_ne (ne : key r ≠ k) : (t.insert r).find? k = t.find? k := by
  rw [insert]
  split
  · rw [find?, List.find?_append, List.find?_singleton, if_neg (by simpa using ne), Option.or_none]
    rfl
  · rfl

/-- The new row is found. -/
lemma find?_insert_self (fresh : t.find? (key r) = none) : (t.insert r).find? (key r) = some r := by
  rw [find?_eq_some, insert_rows fresh]
  exact ⟨List.mem_append_right _ List.mem_cons_self, rfl⟩

/-- The new row is there. -/
lemma mem_insert_self (fresh : t.find? (key r) = none) : r ∈ (t.insert r).rows :=
  (find?_eq_some.1 (find?_insert_self fresh)).1

/-- The key is taken now. -/
lemma find?_insert_self_ne_none (t : Table key) (r : R) : (t.insert r).find? (key r) ≠ none := by
  cases e : t.find? (key r) with
  | none =>
    rw [find?_insert_self e]
    nofun
  | some r' =>
    intro none
    obtain ⟨m, same⟩ := find?_eq_some.1 e
    exact find?_eq_none.1 none r' (mem_insert m) same

/-- A key that is free after an insert was free before, and is not the key of the new row. -/
lemma find?_insert_eq_none (fresh : t.find? (key r) = none) :
    (t.insert r).find? k = none ↔ t.find? k = none ∧ key r ≠ k := by
  rw [find?_eq_none, insert_rows fresh, find?_eq_none]
  simp [or_imp, forall_and]

/-- The rows after an update. -/
lemma update_rows (keeps : ∀ r, key (f r) = key r) :
    (t.update k f keeps).rows = t.rows.map fun r => if key r = k then f r else r := rfl

/-- The row under the key, if it is there, is the only one that changes. -/
lemma update_rows_of_find? (keeps : ∀ r, key (f r) = key r) (h : t.find? k = some r) :
    ∃ pre post, t.rows = pre ++ r :: post ∧ (t.update k f keeps).rows = pre ++ f r :: post := by
  obtain ⟨m, rfl⟩ := find?_eq_some.1 h
  obtain ⟨pre, post, split⟩ := List.append_of_mem m
  have nd := t.nodup
  rw [split, List.map_append, List.map_cons, List.nodup_append, List.nodup_cons] at nd
  obtain ⟨_, ⟨after, _⟩, before⟩ := nd
  have same : ∀ l : List R, (∀ x ∈ l, key x ≠ key r) →
      l.map (fun x => if key x = key r then f x else x) = l := by
    intro l ne
    exact (List.map_congr_left fun x m => if_neg (ne x m)).trans (List.map_id' l)
  refine ⟨pre, post, split, ?_⟩
  rw [update_rows, split, List.map_append, List.map_cons, if_pos rfl, same pre, same post]
  · exact fun x mx e => after (e ▸ List.mem_map_of_mem mx)
  · exact fun x mx => before _ (List.mem_map_of_mem mx) _ List.mem_cons_self

/-- Another row is as before. -/
lemma find?_update_of_ne (keeps : ∀ r, key (f r) = key r) {k' : K} (ne : k ≠ k') :
    (t.update k f keeps).find? k' = t.find? k' := by
  cases e : t.find? k' with
  | none =>
    rw [find?_eq_none] at e ⊢
    intro r m
    obtain ⟨r, mr, rfl⟩ := List.mem_map.1 m
    split
    · rw [keeps]
      exact e r mr
    · exact e r mr
  | some r =>
    rw [find?_eq_some] at e ⊢
    obtain ⟨m, rfl⟩ := e
    exact ⟨List.mem_map.2 ⟨r, m, if_neg ne.symm⟩, rfl⟩

/-- The row that was updated. -/
lemma find?_update_self (keeps : ∀ r, key (f r) = key r) :
    (t.update k f keeps).find? k = (t.find? k).map f := by
  cases e : t.find? k with
  | none =>
    rw [find?_eq_none] at e
    refine find?_eq_none.2 fun r m => ?_
    obtain ⟨r, mr, rfl⟩ := List.mem_map.1 m
    rw [if_neg (e r mr)]
    exact e r mr
  | some r =>
    obtain ⟨m, rfl⟩ := find?_eq_some.1 e
    exact find?_eq_some.2 ⟨List.mem_map.2 ⟨r, m, if_pos rfl⟩, keeps r⟩

/-- An update neither brings nor removes rows. -/
lemma find?_update_eq_none (keeps : ∀ r, key (f r) = key r) {k' : K} :
    (t.update k f keeps).find? k' = none ↔ t.find? k' = none := by
  have same : ∀ r, key (if key r = k then f r else r) = key r := by
    intro r
    split
    · exact keeps r
    · rfl
  rw [find?_eq_none, find?_eq_none, update_rows]
  simp only [List.forall_mem_map, same]

end Table

end DbLab.Store
