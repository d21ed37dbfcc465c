import Mathlib

/-!
# Rounding

`round(q, n)` of an exact number, and the rounding of the interpreter's floats as any monotone
function on the numbers that floats denote.
-/

namespace DbLab.Py

/-- The nearest integer, and the even one of two. -/
def roundEven (q : Rat) : Int :=
  if q - ⌊q⌋ < 1 / 2 then ⌊q⌋
  else if 1 / 2 < q - ⌊q⌋ then ⌊q⌋ + 1
  else if ⌊q⌋ % 2 = 0 then ⌊q⌋
  else ⌊q⌋ + 1

/-- `round(q, n)` -/
def roundTo (n : Nat) (q : Rat) : Rat := roundEven (q * 10 ^ n) / 10 ^ n

example : roundTo 1 (5 / 4) = 6 / 5 := by decide +kernel

/-- How the interpreter's floats round the exact result of an operation. -/
structure Rounding where
  fl : Rat → Rat
  mono : Monotone fl

/-- Rounding never goes below the floor. -/
lemma floor_le_roundEven (q : Rat) : ⌊q⌋ ≤ roundEven q := by
  unfold roundEven
  split_ifs <;> omega

/-- Rounding never goes above the next integer. -/
lemma roundEven_le_floor (q : Rat) : roundEven q ≤ ⌊q⌋ + 1 := by
  unfold roundEven
  split_ifs <;> omega

/-- Rounding is monotone. -/
lemma roundEven_mono : Monotone roundEven := by
  intro p q le
  rcases (Int.floor_mono le).lt_or_eq with below | same
  · exact (roundEven_le_floor p).trans (le_trans below (floor_le_roundEven q))
  · -- in one unit the larger number has the larger fraction
    unfold roundEven
    rw [same]
    split_ifs <;> first | omega | (exfalso; linarith)

/-- An integer stays. -/
lemma roundEven_int (n : Int) : roundEven n = n := by
  unfold roundEven
  rw [Int.floor_intCast, sub_self, if_pos (by norm_num)]

/-- Rounding to digits is monotone. -/
lemma roundTo_mono (n : Nat) : Monotone (roundTo n) := by
  intro p q le
  have scaled : p * 10 ^ n ≤ q * 10 ^ n := mul_le_mul_of_nonneg_right le (by positivity)
  have rounded : (roundEven (p * 10 ^ n) : Rat) ≤ roundEven (q * 10 ^ n) := by
    exact_mod_cast roundEven_mono scaled
  exact div_le_div_of_nonneg_right rounded (by positivity)

/-- An integer stays. -/
lemma roundTo_int (n : Nat) (m : Int) : roundTo n m = m := by
  have whole : (m : Rat) * 10 ^ n = ((m * 10 ^ n : Int) : Rat) := by push_cast; rfl
  rw [roundTo, whole, roundEven_int]
  push_cast
  exact mul_div_cancel_right₀ _ (by positivity)

end DbLab.Py
