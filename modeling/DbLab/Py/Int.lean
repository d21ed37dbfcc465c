import DbLab.Py.Scan
import DbLab.Py.Utf8

/-!
# Integers as bytes

`str(n).encode()`, and `int(b)` of bytes: surrounding whitespace, a sign, underscores between digits
and the limit on digits. What is written reads back.
-/

namespace DbLab.Py

/-- `str(n).encode()` of a length. -/
def decimal (n : Nat) : Bytes := (digitChars n).map .ofNat

/-- `int.__repr__` as bytes. -/
def intBytes (n : Int) : Bytes := if n < 0 then 45 :: decimal n.natAbs else decimal n.natAbs

/-- The whitespace that `int` skips in bytes. -/
def isSpace (c : Nat) : Bool := c = 32 || (9 ≤ c && c ≤ 13)

def strip (s : Str) : Str := ((s.dropWhile isSpace).reverse.dropWhile isSpace).reverse

/-- Digits, with single underscores between them. `after` says that a digit came last. -/
def digitRun (after : Bool) : Str → Option Str
  | [] => if after then some [] else none
  | c :: s =>
    if isDigit c then (digitRun true s).map (c :: ·)
    else if c = 95 ∧ after then digitRun false s
    else none

def signed : Str → Bool × Str
  | 45 :: s => (true, s)
  | 43 :: s => (false, s)
  | s => (false, s)

/-- `int(b)` -/
def intOfBytes (b : Bytes) : Except Exn Int :=
  let (negative, s) := signed (strip (b.map UInt8.toNat))
  match digitRun false s with
  | none => .error (.valueError "invalid literal for int() with base 10")
  | some ds =>
    if maxStrDigits < ds.length then
      .error (.valueError "Exceeds the limit for integer string conversion")
    else
      let n : Int := ds.foldl (fun a c => a * 10 + ((c - 48 : Nat) : Int)) 0
      .ok (if negative then -n else n)

example : intOfBytes [32, 43, 49, 95, 50, 10] = .ok 12 := by decide

/-- A digit is its byte. -/
lemma isDigit_byte {c : Nat} (h : isDigit c = true) : (UInt8.ofNat c).toNat = c := by
  rw [isDigit_iff] at h
  exact toNat_ofNat (by omega)

/-- The bytes of a number are its digits. -/
lemma decimal_toNat (n : Nat) : (decimal n).map UInt8.toNat = digitChars n := by
  rw [decimal, List.map_map]
  conv_rhs => rw [← List.map_id (digitChars n)]
  exact List.map_congr_left fun c m => isDigit_byte (digitChars_isDigit n c m)

/-- Below the digits nothing is one. -/
lemma decimal_plain {b : UInt8} (low : b.toNat < 48) (n : Nat) : b ∉ decimal n := by
  intro m
  obtain ⟨c, mc, rfl⟩ := List.mem_map.1 m
  have digit := digitChars_isDigit n c mc
  rw [isDigit_byte digit] at low
  rw [isDigit_iff] at digit
  omega

/-- A number has one text. -/
lemma decimal_injective {n n' : Nat} (h : decimal n = decimal n') : n = n' := by
  have chars : digitChars n = digitChars n' := by
    rw [← decimal_toNat, ← decimal_toNat, h]
  have value := digitChars_value n
  rw [chars, digitChars_value] at value
  exact (Int.ofNat_inj.1 value).symm

/-- A text that neither begins nor ends with whitespace. -/
lemma strip_eq {s : Str} (head : ∀ c, s.head? = some c → isSpace c = false)
    (last : ∀ c, s.getLast? = some c → isSpace c = false) : strip s = s := by
  have keep : ∀ t : Str, (∀ c, t.head? = some c → isSpace c = false) → t.dropWhile isSpace = t := by
    intro t first
    cases t with
    | nil => rfl
    | cons c t => rw [List.dropWhile_cons, if_neg (by rw [first c rfl]; decide)]
  rw [strip, keep s head, keep s.reverse fun c h => last c (by rwa [List.head?_reverse] at h),
    List.reverse_reverse]

/-- Digits are a run of digits. -/
lemma digitRun_digits {after : Bool} {s : Str} (h : ∀ c ∈ s, isDigit c = true)
    (some_ : s ≠ [] ∨ after = true) :
    digitRun after s = some s := by
  induction s generalizing after with
  | nil => rw [digitRun, if_pos (some_.resolve_left fun ne => ne rfl)]
  | cons c s ih =>
    rw [digitRun, if_pos (h c List.mem_cons_self),
      ih (fun c m => h c (List.mem_cons_of_mem _ m)) (.inr rfl)]
    rfl

/-- A number has a digit. -/
lemma digitChars_ne_nil (n : Nat) : digitChars n ≠ [] := by
  rcases digitChars_head n with e | ⟨d, r, e, _⟩
  · rw [e]
    exact nofun
  · rw [e]
    exact nofun

/-- A digit is not a space. -/
lemma isDigit_not_space {c : Nat} (h : isDigit c = true) : isSpace c = false := by
  rw [isDigit_iff] at h
  simp [isSpace]
  omega

/-- The text of an integer reads back. -/
theorem intOfBytes_intBytes {n : Int} (h : (digitChars n.natAbs).length ≤ maxStrDigits) :
    intOfBytes (intBytes n) = .ok n := by
  have digits := digitChars_isDigit n.natAbs
  have value := digitChars_value n.natAbs
  have run := @digitRun_digits false _ digits (.inl (digitChars_ne_nil _))
  have last : ∀ c, (digitChars n.natAbs).getLast? = some c → isSpace c = false := fun c e =>
    isDigit_not_space (digits c (List.mem_of_getLast? e))
  unfold intOfBytes intBytes
  by_cases negative : n < 0
  · have text : strip (45 :: digitChars n.natAbs) = 45 :: digitChars n.natAbs := by
      apply strip_eq
      · rintro c ⟨⟩
        rfl
      · intro c e
        rw [List.getLast?_cons, Option.some.injEq] at e
        cases final : (digitChars n.natAbs).getLast? with
        | none => exact absurd (List.getLast?_eq_none_iff.1 final) (digitChars_ne_nil _)
        | some d =>
          rw [final] at e
          exact e ▸ last d final
    rw [if_pos negative, List.map_cons, decimal_toNat, show (45 : UInt8).toNat = 45 from rfl, text]
    simp only [signed, run]
    rw [if_neg (by omega), value, if_pos trivial]
    congr 1
    omega
  · have text : strip (digitChars n.natAbs) = digitChars n.natAbs :=
      strip_eq (fun c e => isDigit_not_space (digits c (List.mem_of_mem_head? e))) last
    have plain : signed (digitChars n.natAbs) = (false, digitChars n.natAbs) := by
      unfold signed
      split
      · rename_i s e
        exact absurd (digits 45 (e ▸ List.mem_cons_self)) (by decide)
      · rename_i s e
        exact absurd (digits 43 (e ▸ List.mem_cons_self)) (by decide)
      · rfl
    rw [if_neg negative, decimal_toNat, text, plain]
    simp only [run]
    rw [if_neg (by omega), value, if_neg nofun]
    congr 1
    omega

end DbLab.Py
