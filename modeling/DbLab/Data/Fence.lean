import Mathlib

/-!
# Version fences

A store that keeps one value per key and takes a write only with a larger version than the one it
has. In which order writes come, and how often, does not matter to what it ends up with.
-/

namespace DbLab.Fence

variable {K V A : Type} [LinearOrder V]

/-- A value with its version, for each key that has one. -/
abbrev Store (K V A : Type) := K → Option (V × A)

/-- A write of a value under a version. -/
structure Write (K V A : Type) where
  key : K
  version : V
  value : A

/-- The version is larger than the one that is there. -/
def fresh (s : Store K V A) (k : K) (v : V) : Bool :=
  match s k with
  | some d => d.1 < v
  | none => true

/-- `d` is what the write with the largest version left for `k`. -/
def Latest (ws : List (Write K V A)) (k : K) (d : V × A) : Prop :=
  (∃ w ∈ ws, w.key = k ∧ (w.version, w.value) = d) ∧ ∀ w ∈ ws, w.key = k → w.version ≤ d.1

/-- A write to a new key is fresh. -/
lemma fresh_none {s : Store K V A} {k : K} (v : V) (h : s k = none) : fresh s k v = true := by
  rw [fresh, h]

/-- A write is fresh just if its version is greater. -/
lemma fresh_some {s : Store K V A} {k : K} {v : V} {d : V × A} (h : s k = some d) :
    fresh s k v = decide (d.1 < v) := by
  rw [fresh, h]

/-- A write that is not fresh meets a version that is not smaller. -/
lemma stale_some {s : Store K V A} {k : K} {v : V} (h : fresh s k v = false) :
    ∃ d, s k = some d ∧ ¬ d.1 < v := by
  cases e : s k with
  | none =>
    rw [fresh_none v e] at h
    cases h
  | some d =>
    rw [fresh_some e] at h
    exact ⟨d, rfl, of_decide_eq_false h⟩

/-- A store whose contents come from writes, the largest version of each key. -/
def Holds (s : Store K V A) (ws : List (Write K V A)) : Prop :=
  ∀ k, match s k with
    | some d => Latest ws k d
    | none => ∀ w ∈ ws, w.key ≠ k

/-- What is stored is the latest write to its key. -/
lemma Holds.some {s : Store K V A} {ws : List (Write K V A)} (h : Holds s ws) {k : K} {d : V × A}
    (e : s k = some d) :
    Latest ws k d := by
  have at_k := h k
  rw [e] at at_k
  exact at_k

/-- To a key without entry nothing was written. -/
lemma Holds.none {s : Store K V A} {ws : List (Write K V A)} (h : Holds s ws) {k : K}
    (e : s k = none) :
    ∀ w ∈ ws, w.key ≠ k := by
  have at_k := h k
  rw [e] at at_k
  exact at_k

/-- At first nothing is stored and nothing was written. -/
lemma holds_empty : Holds (fun _ => none : Store K V A) [] := fun _ => nofun

variable [DecidableEq K]

def write (s : Store K V A) (w : Write K V A) : Store K V A :=
  if fresh s w.key w.version then Function.update s w.key (some (w.version, w.value)) else s

def run (s : Store K V A) (ws : List (Write K V A)) : Store K V A := ws.foldl write s

/-- A fresh write is stored. -/
lemma write_fresh {s : Store K V A} {w : Write K V A} (h : fresh s w.key w.version = true) :
    write s w = Function.update s w.key (some (w.version, w.value)) := if_pos h

/-- A stale write changes nothing. -/
lemma write_stale {s : Store K V A} {w : Write K V A} (h : fresh s w.key w.version = false) :
    write s w = s := by
  rw [write, h]
  rfl

/-- A write leaves every other key alone. -/
lemma write_other {s : Store K V A} {w : Write K V A} {k : K} (h : k ≠ w.key) :
    write s w k = s k := by
  rw [write]
  split
  · exact Function.update_of_ne h _ _
  · rfl

/-- What is stored is only replaced by a larger version. -/
theorem write_mono {s : Store K V A} (w : Write K V A) {k : K} {d : V × A} (h : s k = some d) :
    ∃ d', write s w k = some d' ∧ (d' = d ∨ d.1 < d'.1) := by
  by_cases other : k = w.key
  · subst other
    cases new : fresh s w.key w.version with
    | false => exact ⟨d, by rw [write_stale new, h], .inl rfl⟩
    | true =>
      refine ⟨_, by rw [write_fresh new, Function.update_self], .inr ?_⟩
      rw [fresh_some h] at new
      exact of_decide_eq_true new
  · exact ⟨d, by rw [write_other other, h], .inl rfl⟩

/-- One more write. -/
theorem Holds.write {s : Store K V A} {ws : List (Write K V A)} (h : Holds s ws) (w : Write K V A) :
    Holds (write s w) (ws ++ [w]) := by
  have snoc : ∀ {p : Write K V A → Prop}, (∀ x ∈ ws, p x) → p w → ∀ x ∈ ws ++ [w], p x := by
    intro p old new x m
    rcases List.mem_append.1 m with m | m
    · exact old x m
    · rw [List.mem_singleton.1 m]
      exact new
  intro k
  by_cases other : k = w.key
  · subst other
    cases new : fresh s w.key w.version with
    | true =>
      rw [write_fresh new, Function.update_self]
      refine ⟨⟨w, by simp, rfl, rfl⟩, snoc (fun x m key => ?_) fun _ => le_rfl⟩
      cases old : s w.key with
      | none => exact absurd key (h.none old x m)
      | some d =>
        rw [fresh_some old] at new
        exact ((h.some old).2 x m key).trans (of_decide_eq_true new).le
    | false =>
      rw [write_stale new]
      cases old : s w.key with
      | none =>
        rw [fresh_none _ old] at new
        cases new
      | some d =>
        rw [fresh_some old] at new
        obtain ⟨⟨x, m, key, value⟩, largest⟩ := h.some old
        exact ⟨⟨x, List.mem_append_left _ m, key, value⟩,
          snoc largest fun _ => not_lt.1 (of_decide_eq_false new)⟩
  · rw [write_other other]
    cases old : s k with
    | none => exact snoc (h.none old) fun same => other same.symm
    | some d =>
      obtain ⟨⟨x, m, key, value⟩, largest⟩ := h.some old
      exact ⟨⟨x, List.mem_append_left _ m, key, value⟩,
        snoc largest fun same => absurd same.symm other⟩

/-- More writes, one after the other. -/
theorem Holds.run {s : Store K V A} {ws : List (Write K V A)} (h : Holds s ws)
    (ws' : List (Write K V A)) :
    Holds (run s ws') (ws ++ ws') := by
  induction ws' generalizing s ws with
  | nil => rwa [List.append_nil]
  | cons w ws' ih =>
    have rest := ih (h.write w)
    rwa [List.append_assoc, List.singleton_append] at rest

end DbLab.Fence
