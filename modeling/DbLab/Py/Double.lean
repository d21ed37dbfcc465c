import DbLab.Py.Round

/-!
# Doubles

The result of an operation on floats is the float that is nearest to the exact result, and of two
the one with the even significand. Exponents have no bounds here: the numbers that are rounded are
far from both ends of their range.
-/

namespace DbLab.Py

/-- The distance between floats in the binade of a number. -/
def ulp (q : Rat) : Rat := 2 ^ (Int.log 2 |q| - 52)

/-- The float that is nearest to a number that is not negative. -/
def nearest (q : Rat) : Rat := roundEven (q / ulp q) * ulp q

/-- The float that an operation with the exact result `q` gives. -/
def double (q : Rat) : Rat := if q < 0 then -nearest (-q) else nearest q

example : double (1 / 10) ≠ 1 / 10 ∧ double (double (301 / 10) - double (1 / 10)) = 30 := by
  decide +kernel

/-! ### Nearest integers -/

/-- An integer is rounded to is at most a half away. -/
lemma abs_roundEven_sub (q : Rat) : |(roundEven q : Rat) - q| ≤ 1 / 2 := by
  have lower := Int.floor_le q
  have upper := Int.lt_floor_add_one q
  unfold roundEven
  split_ifs <;> rw [abs_le] <;> push_cast <;> constructor <;> linarith

/-! ### One binade -/

section Binade
variable {q : Rat}

/-- A unit in the last place is positive. -/
lemma ulp_pos (q : Rat) : 0 < ulp q := zpow_pos (by norm_num) _

/-- The significand of a positive number has 53 bits. -/
lemma scaled_bounds (pos : 0 < q) : (2 : Rat) ^ 52 ≤ q / ulp q ∧ q / ulp q < 2 ^ 53 := by
  have whole : ∀ n : Nat, (2 : Rat) ^ n * ulp q = 2 ^ (Int.log 2 q + (n - 52)) := by
    intro n
    rw [ulp, abs_of_pos pos, ← zpow_natCast, ← zpow_add₀ (by norm_num)]
    congr 1
    omega
  constructor
  · rw [le_div_iff₀ (ulp_pos q), whole]
    simpa using Int.zpow_log_le_self (b := 2) (by norm_num) pos
  · rw [div_lt_iff₀ (ulp_pos q), whole]
    have above := Int.lt_zpow_succ_log_self (b := 2) (by norm_num) q
    push_cast at above
    norm_num at above ⊢
    exact above

/-- So has its rounding, or it is the power of two above. -/
lemma significand_bounds (pos : 0 < q) :
    (2 : Int) ^ 52 ≤ roundEven (q / ulp q) ∧ roundEven (q / ulp q) ≤ 2 ^ 53 := by
  obtain ⟨lower, upper⟩ := scaled_bounds pos
  have low := roundEven_mono lower
  have high := roundEven_mono upper.le
  have two : ∀ n : Nat, roundEven ((2 : Rat) ^ n) = 2 ^ n := fun n => by
    have int := roundEven_int (2 ^ n)
    push_cast at int
    exact int
  rw [two] at low high
  exact ⟨low, high⟩

/-- The nearest double of a positive number is positive. -/
lemma nearest_pos (pos : 0 < q) : 0 < nearest q := by
  have some : (0 : Int) < roundEven (q / ulp q) :=
    lt_of_lt_of_le (by norm_num) (significand_bounds pos).1
  exact mul_pos (by exact_mod_cast some) (ulp_pos q)

/-- Larger numbers have larger floats. -/
lemma nearest_mono {p : Rat} (pos : 0 < p) (le : p ≤ q) : nearest p ≤ nearest q := by
  have pos' := pos.trans_le le
  have binades : Int.log 2 |p| ≤ Int.log 2 |q| := by
    rw [abs_of_pos pos, abs_of_pos pos']
    exact Int.log_mono_right pos le
  rcases binades.lt_or_eq with below | same
  · -- the next power of two lies between them
    have low : nearest p ≤ 2 ^ 53 * ulp p :=
      mul_le_mul_of_nonneg_right (by exact_mod_cast (significand_bounds pos).2) (ulp_pos p).le
    have high : 2 ^ 52 * ulp q ≤ nearest q :=
      mul_le_mul_of_nonneg_right (by exact_mod_cast (significand_bounds pos').1) (ulp_pos q).le
    have step : 2 * ulp p ≤ ulp q := by
      have power : (2 : Rat) * ulp p = 2 ^ (Int.log 2 |p| - 52 + 1) := by
        rw [ulp, zpow_add_one₀ (by norm_num), mul_comm]
      rw [power, ulp]
      exact zpow_le_zpow_right₀ (by norm_num) (by omega)
    linarith
  · have one : ulp p = ulp q := by rw [ulp, ulp, same]
    unfold nearest
    rw [one]
    refine mul_le_mul_of_nonneg_right ?_ (ulp_pos q).le
    exact_mod_cast roundEven_mono (div_le_div_of_nonneg_right le (ulp_pos q).le)

/-- A half of the distance of floats is `q / 2 ^ 53` at most. -/
lemma abs_nearest_sub (pos : 0 < q) : |nearest q - q| ≤ q / 2 ^ 53 := by
  have scale : nearest q - q = (roundEven (q / ulp q) - q / ulp q) * ulp q := by
    rw [sub_mul, div_mul_cancel₀ _ (ulp_pos q).ne', nearest]
  have half : |nearest q - q| ≤ 1 / 2 * ulp q := by
    rw [scale, abs_mul, abs_of_pos (ulp_pos q)]
    exact mul_le_mul_of_nonneg_right (abs_roundEven_sub _) (ulp_pos q).le
  have small := (le_div_iff₀ (ulp_pos q)).1 (scaled_bounds pos).1
  linarith

/-- What 53 bits suffice for is a float. -/
lemma nearest_dyadic {m : Nat} (e : Int) (some : 0 < m) (bits : m < 2 ^ 53) :
    nearest (m * 2 ^ e) = m * 2 ^ e := by
  have pos : (0 : Rat) < m * 2 ^ e := mul_pos (by exact_mod_cast some) (zpow_pos (by norm_num) _)
  have small : Int.log 2 |(m : Rat) * 2 ^ e| < e + 53 := by
    rw [abs_of_pos pos, ← Int.lt_zpow_iff_log_lt (by norm_num) pos,
      zpow_add₀ (by norm_num), mul_comm]
    refine mul_lt_mul_of_pos_left ?_ (zpow_pos (by norm_num) _)
    have bits : (m : Rat) < 2 ^ 53 := by exact_mod_cast bits
    exact_mod_cast bits
  obtain ⟨k, shift⟩ := Int.le.dest (show Int.log 2 |(m : Rat) * 2 ^ e| - 52 ≤ e by omega)
  have int : (m : Rat) * 2 ^ e / ulp (m * 2 ^ e) = ((m * 2 ^ k : Int) : Rat) := by
    rw [div_eq_iff (ulp_pos _).ne', ulp]
    push_cast
    rw [mul_assoc, ← zpow_natCast, ← zpow_add₀ (by norm_num), add_comm, shift]
  unfold nearest
  rw [int, roundEven_int, ← int, div_mul_cancel₀ _ (ulp_pos _).ne']

end Binade

/-! ### All numbers -/

section All
variable {p q : Rat}

/-- Zero is a double. -/
@[simp] lemma double_zero : double 0 = 0 := by decide +kernel

/-- Rounding a positive number. -/
lemma double_of_pos (pos : 0 < q) : double q = nearest q := if_neg (not_lt.2 pos.le)

/-- Rounding a negative number. -/
lemma double_of_neg (neg : q < 0) : double q = -nearest (-q) := if_pos neg

/-- A negative number stays negative. -/
lemma double_neg_of_neg (neg : q < 0) : double q < 0 := by
  rw [double_of_neg neg]
  exact neg_neg_of_pos (nearest_pos (neg_pos.2 neg))

/-- A positive number stays positive. -/
lemma double_pos (pos : 0 < q) : 0 < double q := by
  rw [double_of_pos pos]
  exact nearest_pos pos

/-- Rounding keeps the sign. -/
lemma double_nonneg_iff : 0 ≤ double q ↔ 0 ≤ q := by
  rcases lt_trichotomy q 0 with neg | rfl | pos
  · exact iff_of_false (not_le.2 (double_neg_of_neg neg)) (not_le.2 neg)
  · rw [double_zero]
  · exact iff_of_true (double_pos pos).le pos.le

/-- Rounding keeps the order. -/
lemma double_mono : Monotone double := by
  intro p q le
  rcases lt_or_ge p 0 with neg | nonneg
  · rcases lt_or_ge q 0 with neg' | nonneg'
    · rw [double_of_neg neg, double_of_neg neg']
      exact neg_le_neg (nearest_mono (neg_pos.2 neg') (neg_le_neg le))
    · exact (double_neg_of_neg neg).le.trans (double_nonneg_iff.2 nonneg')
  · rcases nonneg.lt_or_eq with pos | rfl
    · rw [double_of_pos pos, double_of_pos (pos.trans_le le)]
      exact nearest_mono pos le
    · rw [double_zero]
      exact double_nonneg_iff.2 le

/-- The relative error of rounding. -/
lemma abs_double_sub (q : Rat) : |double q - q| ≤ |q| / 2 ^ 53 := by
  rcases lt_trichotomy q 0 with neg | rfl | pos
  · have error := abs_nearest_sub (neg_pos.2 neg)
    rw [double_of_neg neg, abs_of_neg neg]
    rwa [show -nearest (-q) - q = -(nearest (-q) - -q) by ring, abs_neg]
  · simp
  · rw [double_of_pos pos, abs_of_pos pos]
    exact abs_nearest_sub pos

/-- What 53 bits suffice for is not rounded. -/
lemma double_dyadic {m : Nat} (e : Int) (bits : m < 2 ^ 53) : double (m * 2 ^ e) = m * 2 ^ e := by
  rcases Nat.eq_zero_or_pos m with rfl | some
  · simp
  · rw [double_of_pos (mul_pos (by exact_mod_cast some) (zpow_pos (by norm_num) _)),
      nearest_dyadic e some bits]

/-- Small integers are not rounded. -/
lemma double_nat {m : Nat} (bits : m < 2 ^ 53) : double m = m := by
  have kept := double_dyadic 0 bits
  rwa [zpow_zero, mul_one] at kept

/-- A float is not rounded. -/
lemma double_double (pos : 0 < q) : double (double q) = double q := by
  obtain ⟨lower, upper⟩ := significand_bounds pos
  rw [double_of_pos pos, nearest]
  obtain ⟨m, significand⟩ := Int.eq_ofNat_of_zero_le (le_trans (by norm_num) lower)
  rw [significand, ulp]
  push_cast
  rcases upper.lt_or_eq with below | power
  · exact double_dyadic _ (by omega)
  · -- the power of two above
    have whole : (m : Rat) = 2 ^ (53 : Int) := by
      rw [significand] at power
      exact_mod_cast power
    rw [whole, ← zpow_add₀ (by norm_num)]
    have one := double_dyadic (m := 1) (53 + (Int.log 2 |q| - 52)) (by norm_num)
    rwa [Nat.cast_one, one_mul] at one

/-- What is rounded to less than a float is less. -/
lemma lt_of_double_lt (less : double p < double q) : p < q :=
  lt_of_not_ge fun le => absurd (double_mono le) (not_le.2 less)

end All

end DbLab.Py
