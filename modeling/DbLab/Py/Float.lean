import DbLab.Py.Reference
import DbLab.Py.Int

/-!
# Floats and small integers

What a program that counts in floats relies on: integers below `2 ^ 53` are floats, products among
them are exact, and a positive float is written without a sign. `integral` is an interpreter whose
floats are the integers, with the texts Python writes for them.
-/

namespace DbLab.Py

/-- The laws of IEEE doubles on small integers, and the sign of `repr`. -/
class FloatLaws [Interpreter] : Prop where
  ofInt_exact : ∀ n : Int, n.natAbs ≤ 2 ^ 53 → ∃ x, Interpreter.ofInt n = some x ∧
    Interpreter.view x = .finite n
  mul_exact : ∀ (x y : Interpreter.Float) (m n : Int), Interpreter.view x = .finite m →
    Interpreter.view y = .finite n → (m * n).natAbs ≤ 2 ^ 53 →
    Interpreter.view (Interpreter.mul x y) = .finite (m * n : Int)
  repr_unsigned : ∀ (x : Interpreter.Float) (q : Rat), Interpreter.view x = .finite q → 0 < q →
    (Interpreter.repr x).head? ≠ some 45

namespace Integral

/-- `-12.0` -/
def repr (n : Int) : Str :=
  (if n < 0 then 45 :: digitChars n.natAbs else digitChars n.natAbs) ++ [46, 48]

def value (ds : Str) : Int := ds.foldl (fun a c => a * 10 + ((c - 48 : Nat) : Int)) 0

def ofLit (s : Str) : Int :=
  let (negative, t) := signed s
  let n := value (t.takeWhile isDigit)
  if negative then -n else n

/-- The digits of an integer are an integer part. -/
lemma intPart_repr (n : Int) :
    IntPart (if n < 0 then 45 :: digitChars n.natAbs else digitChars n.natAbs) := by
  have digits : ∀ m, (digitChars m = [48] ∨ ∃ d r, digitChars m = d :: r ∧ d ≠ 48 ∧ isDigit d ∧
      ∀ c ∈ r, isDigit c) := by
    intro m
    rcases digitChars_head m with h | ⟨d, r, h, ne, _⟩
    · exact .inl h
    · have all := digitChars_isDigit m
      rw [h] at all
      exact .inr ⟨d, r, h, ne, all d List.mem_cons_self,
        fun c m => all c (List.mem_cons_of_mem _ m)⟩
  split
  · exact ⟨[45], _, rfl, .inr rfl, digits _⟩
  · exact ⟨[], _, rfl, .inl rfl, digits _⟩

/-- The digits before the point. -/
lemma takeWhile_digitChars (n : Nat) :
    (digitChars n ++ [46, 48]).takeWhile isDigit = digitChars n := by
  rw [List.takeWhile_append_of_pos (digitChars_isDigit n)]
  simp [isDigit]

/-- A literal reads as its integer. -/
lemma ofLit_repr (n : Int) : ofLit (repr n) = n := by
  have value_digits : value (digitChars n.natAbs) = n.natAbs := digitChars_value _
  unfold ofLit repr
  by_cases negative : n < 0
  · rw [if_pos negative, List.cons_append]
    simp only [signed]
    rw [takeWhile_digitChars, value_digits, if_pos trivial]
    omega
  · have plain : signed (digitChars n.natAbs ++ [46, 48]) =
        (false, digitChars n.natAbs ++ [46, 48]) := by
      have digits := digitChars_isDigit n.natAbs
      cases h : digitChars n.natAbs with
      | nil => exact absurd h (digitChars_ne_nil _)
      | cons d r =>
        have digit := digits d (h ▸ List.mem_cons_self)
        rw [isDigit_iff] at digit
        unfold signed
        split
        · rename_i e
          cases e
          omega
        · rename_i e
          cases e
          omega
        · rfl
    rw [if_neg negative, plain]
    dsimp only
    rw [takeWhile_digitChars, value_digits, if_neg Bool.false_ne_true]
    omega

end Integral

@[reducible] def integral : Interpreter where
  Float := Int
  view n := .finite n
  ofInt n := some n
  add := (· + ·)
  mul := (· * ·)
  neg n := -n
  repr := Integral.repr
  ofLit := Integral.ofLit
  repr_text n _ _ :=
    ⟨_, [46, 48], [], rfl, Integral.intPart_repr n, .inr ⟨[48], rfl, by simp, by decide⟩,
    .inl rfl, .inl (by simp)⟩
  ofLit_repr n _ _ := Integral.ofLit_repr n
  sha256 := Sha256.hexdigest
  sha256_hex := Sha256.hexdigest_lower
  recursionLimit := 1000
  recursionLimit_ge := reference.recursionLimit_ge

/-- A positive number has no sign. -/
lemma Integral.repr_unsigned {n : Int} (pos : 0 < n) : (repr n).head? ≠ some 45 := by
  have digits := digitChars_isDigit n.natAbs
  rw [repr, if_neg (by omega)]
  intro head
  cases h : digitChars n.natAbs with
  | nil => exact absurd h (digitChars_ne_nil _)
  | cons d r =>
    rw [h, List.cons_append, List.head?_cons, Option.some_inj] at head
    have digit := digits d (h ▸ List.mem_cons_self)
    rw [isDigit_iff] at digit
    omega

/-- Integers satisfy the laws of the floats. -/
lemma integral_laws : @FloatLaws integral := by
  refine @FloatLaws.mk integral ?_ ?_ ?_
  · exact fun n _ => ⟨n, rfl, rfl⟩
  · intro x y m n hx hy _
    have hx : x = m := by exact_mod_cast FloatView.finite.inj hx
    have hy : y = n := by exact_mod_cast FloatView.finite.inj hy
    rw [hx, hy]
    rfl
  · intro (n : Int) q view pos
    rw [← FloatView.finite.inj view] at pos
    exact Integral.repr_unsigned (by exact_mod_cast pos)

end DbLab.Py
