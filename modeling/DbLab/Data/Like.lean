import Mathlib

/-!
# Patterns of `LIKE`

The patterns of SQL's `LIKE` with an escape character, and how a text is made a pattern that matches
it alone: every character that has a meaning is escaped, the escape character first.
-/

namespace DbLab.Like

variable {α : Type} [DecidableEq α]

/-- The characters that mean something in a pattern. -/
structure Signs (α : Type) where
  escape : α
  any : α
  one : α
  escape_ne_any : escape ≠ any
  escape_ne_one : escape ≠ one
  any_ne_one : any ≠ one

def Signs.means (g : Signs α) (c : α) : Bool := c = g.escape || c = g.any || c = g.one

/-- `text LIKE pattern ESCAPE escape`: `any` tries every rest of the text. An escape character at
the end stands for itself. -/
def like (g : Signs α) : List α → List α → Bool
  | [], t => t.isEmpty
  | c :: p, t =>
    if c = g.escape then match p, t with
      | d :: p, x :: t => x = d && like g p t
      | [], t => t = [c]
      | _ :: _, [] => false
    else if c = g.any then t.tails.any (like g p)
    else match t with
      | [] => false
      | x :: t => (c = g.one || x = c) && like g p t

/-- The pattern that stands for a text. -/
def escaped (g : Signs α) (s : List α) : List α :=
  s.flatMap fun c => if g.means c then [g.escape, c] else [c]

/-- Every occurrence of a character gives way to a text. -/
def replace (c : α) (w : List α) (s : List α) : List α :=
  s.flatMap fun x => if x = c then w else [x]

variable (g : Signs α)

/-- A character with a meaning and the escape character in front of it, or a character without
one. -/
lemma like_char {c x : α} {p t : List α} :
    like g ((if g.means c then [g.escape, c] else [c]) ++ p) (x :: t) = true ↔
      x = c ∧ like g p t = true := by
  cases means : g.means c with
  | true =>
    rw [if_pos rfl, List.cons_append, List.singleton_append, like.eq_def]
    simp
  | false =>
    simp only [Signs.means, Bool.or_eq_false_iff, decide_eq_false_iff_not] at means
    obtain ⟨⟨escape, any⟩, one⟩ := means
    rw [if_neg Bool.false_ne_true, List.singleton_append, like.eq_def]
    simp [escape, any, one]

/-- A pattern with a character in front does not match the empty text. -/
lemma like_char_nil (c : α) (p : List α) :
    like g ((if g.means c then [g.escape, c] else [c]) ++ p) [] = false := by
  cases means : g.means c with
  | true =>
    rw [if_pos rfl, List.cons_append, List.singleton_append, like.eq_def]
    simp
  | false =>
    simp only [Signs.means, Bool.or_eq_false_iff, decide_eq_false_iff_not] at means
    rw [if_neg Bool.false_ne_true, List.singleton_append, like.eq_def]
    simp [means.1.1, means.1.2]

/-- An escaped text matches itself, and nothing else, in front of what follows. -/
theorem like_escaped {s p t : List α} :
    like g (escaped g s ++ p) t = true ↔ ∃ r, t = s ++ r ∧ like g p r = true := by
  induction s generalizing t with
  | nil => exact ⟨fun h => ⟨t, rfl, h⟩, fun ⟨r, e, h⟩ => e ▸ h⟩
  | cons c s ih =>
    have front : escaped g (c :: s) ++ p = (if g.means c then [g.escape, c] else [c]) ++
        (escaped g s ++ p) := by
      rw [escaped, List.flatMap_cons, List.append_assoc]
      rfl
    rw [front]
    cases t with
    | nil =>
      rw [like_char_nil]
      exact ⟨nofun, fun ⟨_, e, _⟩ => by cases e⟩
    | cons x t =>
      rw [like_char, ih]
      constructor
      · rintro ⟨rfl, r, rfl, h⟩
        exact ⟨r, rfl, h⟩
      · rintro ⟨r, e, h⟩
        cases e
        exact ⟨rfl, r, rfl, h⟩

/-- The sign for any text matches what leaves a match. -/
lemma like_any {p t : List α} :
    like g (g.any :: p) t = true ↔ ∃ r, r <:+ t ∧ like g p r = true := by
  rw [like.eq_def]
  simp [g.escape_ne_any.symm, List.any_eq_true]

/-- An escaped text between two signs for any text is found wherever the text occurs. -/
theorem like_infix {s t : List α} : like g (g.any :: (escaped g s ++ [g.any])) t = true ↔
    s <:+: t := by
  have rest : ∀ r : List α, like g [g.any] r = true := fun r =>
    (like_any g).2 ⟨[], List.nil_suffix, rfl⟩
  rw [like_any]
  constructor
  · rintro ⟨r, ⟨front, rfl⟩, h⟩
    obtain ⟨behind, rfl, _⟩ := (like_escaped g).1 h
    exact ⟨front, behind, List.append_assoc ..⟩
  · rintro ⟨front, behind, rfl⟩
    exact ⟨s ++ behind, ⟨front, (List.append_assoc ..).symm⟩,
      (like_escaped g).2 ⟨behind, rfl, rest behind⟩⟩

/-- The escape character is doubled first; what the later replacements put in front of the other
signs is not. -/
theorem replace_escaped (s : List α) :
    replace g.one [g.escape, g.one] (replace g.any [g.escape, g.any]
    (replace g.escape [g.escape, g.escape] s)) = escaped g s := by
  simp only [replace, escaped, List.flatMap_assoc]
  refine List.flatMap_congr fun c _ => ?_
  have ne₁ := g.escape_ne_any
  have ne₂ := g.escape_ne_one
  have ne₃ := g.any_ne_one
  by_cases escape : c = g.escape
  · subst escape
    simp [Signs.means, ne₁, ne₂]
  · by_cases any : c = g.any
    · subst any
      simp [Signs.means, ne₁.symm, ne₂, ne₃]
    · by_cases one : c = g.one
      · subst one
        simp [Signs.means, ne₂.symm, ne₃.symm]
      · simp [Signs.means, escape, any, one]

/-- A map of characters that keeps the signs and reaches them from nowhere else keeps the pattern of
a text. -/
lemma map_escaped {f : α → α} (signs : ∀ c, g.means (f c) = g.means c)
    (escape : f g.escape = g.escape) (s : List α) :
    (escaped g s).map f = escaped g (s.map f) := by
  rw [escaped, escaped, List.map_flatMap, List.flatMap_map]
  refine List.flatMap_congr fun c _ => ?_
  rw [signs]
  cases g.means c with
  | true => rw [if_pos rfl, if_pos rfl, List.map_cons, List.map_singleton, escape]
  | false => rw [if_neg Bool.false_ne_true, if_neg Bool.false_ne_true, List.map_singleton]

end DbLab.Like
