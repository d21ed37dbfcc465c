import DbLab.Py.RoundTrip

/-!
# Strings of JavaScript

A string is a list of UTF-16 units. Its code points are those of its surrogate pairs and of its
other units; it is well formed if it has no surrogates but in pairs, and its code points are then a
text that can be encoded.
-/

namespace DbLab.Js
open DbLab.Py

/-- The units of a string. -/
abbrev Units := List UInt16

/-- The code points of a string; a lone surrogate stays. -/
def codePoints (s : Units) : Str := joinUnits (s.map fun u => (u.toNat, true))

/-- The units of a code point. -/
def unitsOf (c : Nat) : Units :=
  if c < 0x10000 then [.ofNat c]
  else [.ofNat (0xD800 + (c - 0x10000) / 0x400), .ofNat (0xDC00 + (c - 0x10000) % 0x400)]

/-- The string of some code points. -/
def ofCodePoints (t : Str) : Units := t.flatMap unitsOf

/-- `s.isWellFormed()` -/
def isWellFormed (s : Units) : Bool := (codePoints s).all fun c => !surrogate c

/-- White space and line terminators of ECMAScript. -/
def space (u : UInt16) : Bool :=
  (9 ≤ u.toNat && u.toNat ≤ 13) || u.toNat = 32 || u.toNat = 0xA0 || u.toNat = 0x1680 ||
    (0x2000 ≤ u.toNat && u.toNat ≤ 0x200A) || u.toNat = 0x2028 || u.toNat = 0x2029 ||
      u.toNat = 0x202F ||
    u.toNat = 0x205F || u.toNat = 0x3000 || u.toNat = 0xFEFF

/-- `s.trim()` -/
def trim (s : Units) : Units := ((s.dropWhile space).reverse.dropWhile space).reverse

/-! ### Units and code points -/

/-- A code unit in range is kept. -/
lemma toNat_ofNat {n : Nat} (h : n < 0x10000) : (UInt16.ofNat n).toNat = n := by
  rw [UInt16.toNat_ofNat']
  exact Nat.mod_eq_of_lt h

/-- A code unit is given back. -/
lemma ofNat_toNat (u : UInt16) : UInt16.ofNat u.toNat = u :=
  UInt16.toNat_inj.1 (toNat_ofNat u.toNat_lt)

/-- A string is that of its code points. -/
theorem ofCodePoints_codePoints (s : Units) : ofCodePoints (codePoints s) = s := by
  have single (u : UInt16) (t : Str) : ofCodePoints (u.toNat :: t) = u :: ofCodePoints t := by
    have small : u.toNat < 0x10000 := u.toNat_lt
    rw [ofCodePoints, List.flatMap_cons, unitsOf, if_pos small, ofNat_toNat]
    rfl
  -- along the pairs that are joined
  induction s using List.twoStepInduction with
  | nil => rfl
  | singleton u => exact single u []
  | cons_cons u l s ih ih' =>
    show ofCodePoints (joinUnits ((u.toNat, true) :: (l.toNat, true) :: s.map fun u =>
      (u.toNat, true))) = _
    rw [joinUnits]
    split
    · rename_i pair
      simp only [Bool.true_and, Bool.and_eq_true, decide_eq_true_eq] at pair
      obtain ⟨⟨⟨high, high'⟩, low⟩, low'⟩ := pair
      have large : ¬ 0x10000 + (u.toNat - 0xD800) * 0x400 + (l.toNat - 0xDC00) < 0x10000 := by omega
      have first : 0xD800 + (0x10000 + (u.toNat - 0xD800) * 0x400 + (l.toNat - 0xDC00) - 0x10000) /
          0x400 = u.toNat := by
        omega
      have second : 0xDC00 + (0x10000 + (u.toNat - 0xD800) * 0x400 + (l.toNat - 0xDC00) - 0x10000) %
          0x400 = l.toNat := by
        omega
      rw [ofCodePoints, List.flatMap_cons, unitsOf, if_neg large, first, second,
        ofNat_toNat, ofNat_toNat]
      exact congrArg (fun t => u :: l :: t) ih
    · rw [single]
      exact congrArg (u :: ·) (ih' l)

/-- Code points are below the end of Unicode. -/
lemma codePoints_lt (s : Units) : ∀ c ∈ codePoints s, c < 0x110000 := by
  have small (u : UInt16) : u.toNat < 0x110000 := by
    have := u.toNat_lt
    omega
  induction s using List.twoStepInduction with
  | nil => exact fun _ m => nomatch m
  | singleton u =>
    intro c m
    rw [List.mem_singleton.1 m]
    exact small u
  | cons_cons u l s ih ih' =>
    intro c m
    change c ∈ joinUnits ((u.toNat, true) :: (l.toNat, true) :: s.map fun u => (u.toNat, true)) at m
    rw [joinUnits] at m
    split at m
    · rename_i pair
      simp only [Bool.true_and, Bool.and_eq_true, decide_eq_true_eq] at pair
      rcases List.mem_cons.1 m with same | m
      · rw [same]
        omega
      · exact ih c m
    · rcases List.mem_cons.1 m with same | m
      · rw [same]
        exact small u
      · exact ih' l c m

/-- The code points of a well-formed string can be encoded. -/
theorem isWellFormed_iff {s : Units} : isWellFormed s = true ↔ ∀ c ∈ codePoints s, Scalar c := by
  rw [isWellFormed, List.all_eq_true]
  refine forall₂_congr fun c m => ?_
  simp [Scalar, codePoints_lt s c m]

/-- A text without surrogates and beyond is that of its string. -/
lemma codePoints_ofCodePoints {t : Str} (plain : ∀ c ∈ t, c < 0xD800) :
    codePoints (ofCodePoints t) = t := by
  have same : (ofCodePoints t).map (fun u => (u.toNat, true)) = t.map fun c => (c, true) := by
    induction t with
    | nil => rfl
    | cons c t ih =>
      have small : c < 0x10000 := (plain c List.mem_cons_self).trans (by decide)
      have tail := ih fun c m => plain c (List.mem_cons_of_mem _ m)
      rw [ofCodePoints, List.flatMap_cons, unitsOf, if_pos small, List.map_cons, ← tail]
      show (((UInt16.ofNat c).toNat, true) :: _) = _
      rw [toNat_ofNat small]
      rfl
  rw [codePoints, same]
  clear same
  induction t with
  | nil => rfl
  | cons c t ih =>
    have tail := ih fun c m => plain c (List.mem_cons_of_mem _ m)
    cases t with
    | nil => rfl
    | cons d t =>
      have low := plain c List.mem_cons_self
      rw [List.map_cons, List.map_cons, joinUnits, if_neg (by simp; omega)]
      exact congrArg (c :: ·) tail

/-- A string has as many units as code points, or more. -/
lemma codePoints_length (s : Units) : (codePoints s).length ≤ s.length := by
  have each (t : Str) : t.length ≤ (ofCodePoints t).length := by
    induction t with
    | nil => exact le_rfl
    | cons c t ih =>
      have one : 1 ≤ (unitsOf c).length := by
        unfold unitsOf
        split <;> exact Nat.le_add_left 1 _
      rw [ofCodePoints, List.flatMap_cons, List.length_append, List.length_cons]
      change t.length ≤ (t.flatMap unitsOf).length at ih
      omega
  exact (each (codePoints s)).trans_eq (congrArg List.length (ofCodePoints_codePoints s))

/-! ### The ends of a string -/

/-- What begins and ends with none of `p` has nothing of it to lose at its ends. -/
lemma trimmed_iff {α : Type} {p : α → Bool} (s : List α) :
    ((s.dropWhile p).reverse.dropWhile p).reverse = s ↔
      (∀ x ∈ s.head?, p x = false) ∧ ∀ x ∈ s.getLast?, p x = false := by
  have front (t : List α) : t.dropWhile p = t ↔ ∀ x ∈ t.head?, p x = false := by
    cases t with
    | nil => simp
    | cons x t =>
      rw [List.dropWhile_cons]
      by_cases first : p x = true
      · rw [if_pos first]
        refine ⟨fun same => ?_, fun none_ => ?_⟩
        · have shorter := (List.dropWhile_suffix (l := t) p).length_le
          rw [same, List.length_cons] at shorter
          omega
        · have absurd_ : p x = false := none_ x rfl
          rw [first] at absurd_
          cases absurd_
      · simp [first]
  have back : s.reverse.dropWhile p = s.reverse ↔ ∀ x ∈ s.getLast?, p x = false := by
    rw [front, List.head?_reverse]
  constructor
  · intro same
    have length := congrArg List.length same
    have inner := (List.dropWhile_suffix (l := (s.dropWhile p).reverse) p).length_le
    have outer := List.dropWhile_suffix (l := s) p
    simp only [List.length_reverse] at length inner
    have whole : s.dropWhile p = s := outer.eq_of_length_le (by omega)
    rw [whole] at same
    exact ⟨(front s).1 whole, back.1 (List.reverse_eq_iff.1 same)⟩
  · intro ⟨first, last⟩
    rw [(front s).2 first, back.2 last, List.reverse_reverse]

/-- No blank lies behind the ideographic one. -/
lemma large_not_space {c : Nat} (large : 0x3000 < c) : unicodeSpace c = false := by
  simp only [unicodeSpace, Bool.or_eq_false_iff, Bool.and_eq_false_iff, decide_eq_false_iff_not]
  omega

/-- Spaces are single units: a string begins with one if its code points do. -/
lemma head_space {t : Str} (range : ∀ c ∈ t, c < 0x110000) :
    (ofCodePoints t).head?.map (fun u => unicodeSpace u.toNat) = t.head?.map unicodeSpace := by
  cases t with
  | nil => rfl
  | cons c t =>
    have le := range c List.mem_cons_self
    rw [ofCodePoints, List.flatMap_cons, unitsOf]
    split
    · rename_i small
      simp [toNat_ofNat small]
    · have high : 0xD800 + (c - 0x10000) / 0x400 < 0x10000 := by omega
      simp only [List.cons_append, List.head?_cons, Option.map_some, toNat_ofNat high]
      rw [large_not_space (by omega), large_not_space (by omega)]

/-- A text ends in a blank just if its code units do. -/
lemma last_space {t : Str} (range : ∀ c ∈ t, c < 0x110000) :
    (ofCodePoints t).getLast?.map (fun u => unicodeSpace u.toNat) =
      t.getLast?.map unicodeSpace := by
  rcases List.eq_nil_or_concat t with rfl | ⟨t, c, rfl⟩
  · rfl
  · have le := range c (by simp)
    rw [ofCodePoints, List.concat_eq_append, List.flatMap_append, List.flatMap_singleton, unitsOf]
    split
    · rename_i small
      simp [toNat_ofNat small]
    · have low : 0xDC00 + (c - 0x10000) % 0x400 < 0x10000 := by omega
      rw [List.getLast?_append, List.getLast?_concat]
      simp only [List.getLast?_cons_cons, List.getLast?_singleton, Option.some_or, Option.map_some,
        toNat_ofNat low]
      rw [large_not_space (by omega), large_not_space (by omega)]

end DbLab.Js
