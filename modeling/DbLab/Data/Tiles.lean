import Mathlib

/-!
# Half-open intervals laid end to end

Intervals of a linear order that tile a larger one: a point of the larger interval is in one of them
and only there, however many of them are empty.
-/

namespace DbLab.Data

variable {α ι : Type} [LinearOrder α]

/-- An interval from `lo` up to but without `hi`, with a label. -/
structure Tile (ι α : Type) where
  label : ι
  lo : α
  hi : α

namespace Tile

def has (t : Tile ι α) (x : α) : Bool := t.lo ≤ x && x < t.hi

/-- What a tile has. -/
lemma has_iff {t : Tile ι α} {x : α} : t.has x = true ↔ t.lo ≤ x ∧ x < t.hi := by
  simp [has]

end Tile

/-- Each tile begins where the one before it ends. -/
def Tiles (lo hi : α) : List (Tile ι α) → Prop
  | [] => lo = hi
  | t :: ts => t.lo = lo ∧ t.lo ≤ t.hi ∧ Tiles t.hi hi ts

variable {lo hi x : α} {ts : List (Tile ι α)}

namespace Tiles

/-- The tiles end behind their beginning. -/
lemma le (h : Tiles lo hi ts) : lo ≤ hi := by
  induction ts generalizing lo with
  | nil => exact le_of_eq h
  | cons t ts ih =>
    obtain ⟨rfl, up, rest⟩ := h
    exact up.trans (ih rest)

/-- A tile is inside the whole. -/
lemma within (h : Tiles lo hi ts) {t : Tile ι α} (m : t ∈ ts) : lo ≤ t.lo ∧ t.hi ≤ hi := by
  induction ts generalizing lo with
  | nil => cases m
  | cons t' ts ih =>
    obtain ⟨rfl, up, rest⟩ := h
    rcases List.mem_cons.1 m with rfl | m
    · exact ⟨le_refl _, rest.le⟩
    · exact ⟨up.trans (ih rest m).1, (ih rest m).2⟩

/-- A point of the whole is in a tile. -/
lemma covers (h : Tiles lo hi ts) (low : lo ≤ x) (high : x < hi) : ∃ t ∈ ts, t.has x = true := by
  induction ts generalizing lo with
  | nil =>
    cases h
    exact absurd high (not_lt.2 low)
  | cons t ts ih =>
    obtain ⟨rfl, _, rest⟩ := h
    rcases lt_or_ge x t.hi with inside | beyond
    · exact ⟨t, List.mem_cons_self, Tile.has_iff.2 ⟨low, inside⟩⟩
    · obtain ⟨t', m, has⟩ := ih rest beyond
      exact ⟨t', List.mem_cons_of_mem _ m, has⟩

/-- The first tile that has a point is the only one. -/
lemma find_eq (h : Tiles lo hi ts) {t : Tile ι α} (m : t ∈ ts) (has : t.has x = true) :
    ts.find? (fun t => t.has x) = some t := by
  induction ts generalizing lo with
  | nil => cases m
  | cons t' ts ih =>
    obtain ⟨rfl, _, rest⟩ := h
    rcases List.mem_cons.1 m with rfl | m
    · rw [List.find?_cons, has]
    · have beyond : t'.has x = false := by
        rw [Bool.eq_false_iff]
        intro here
        have inside := (Tile.has_iff.1 here).2
        have after := (rest.within m).1.trans (Tile.has_iff.1 has).1
        exact absurd inside (not_lt.2 after)
      rw [List.find?_cons, beyond]
      exact ih rest m

/-- No tile has a point exactly where it is outside the whole. -/
lemma find_none (h : Tiles lo hi ts) : ts.find? (fun t => t.has x) = none ↔ x < lo ∨ hi ≤ x := by
  rw [List.find?_eq_none]
  constructor
  · intro none
    by_contra inside
    rw [not_or, not_lt, not_le] at inside
    obtain ⟨t, m, has⟩ := h.covers inside.1 inside.2
    exact none t m has
  · intro outside t m has
    obtain ⟨low, high⟩ := Tile.has_iff.1 has
    obtain ⟨from_, upTo⟩ := h.within m
    rcases outside with below | beyond
    · exact absurd below (not_lt.2 (from_.trans low))
    · exact absurd (high.trans_le upTo) (not_lt.2 beyond)

end Tiles

end DbLab.Data
