import DbLab.Py.Json
import DbLab.Py.Scan

/-!
# Dates and times

A naive `datetime`, its text under `strftime('%Y-%m-%d %H:%M:%S.%f')`, and reading that text back.
-/

namespace DbLab.Py

def leapYear (year : Nat) : Bool := year % 4 = 0 && (year % 100 ≠ 0 || year % 400 = 0)

def daysIn (year month : Nat) : Nat :=
  if month = 2 then if leapYear year then 29 else 28
  else if month = 4 ∨ month = 6 ∨ month = 9 ∨ month = 11 then 30
  else 31

/-- The parts of a date and time, largest first. -/
structure Moment where
  year : Nat
  month : Nat
  day : Nat
  hour : Nat
  minute : Nat
  second : Nat
  microsecond : Nat
deriving DecidableEq

structure Moment.Valid (m : Moment) : Prop where
  year : 1 ≤ m.year ∧ m.year ≤ 9999
  month : 1 ≤ m.month ∧ m.month ≤ 12
  day : 1 ≤ m.day ∧ m.day ≤ daysIn m.year m.month
  hour : m.hour < 24
  minute : m.minute < 60
  second : m.second < 60
  microsecond : m.microsecond < 1000000

instance (m : Moment) : Decidable m.Valid :=
  decidable_of_iff ((1 ≤ m.year ∧ m.year ≤ 9999) ∧ (1 ≤ m.month ∧ m.month ≤ 12) ∧
      (1 ≤ m.day ∧ m.day ≤ daysIn m.year m.month) ∧ m.hour < 24 ∧ m.minute < 60 ∧ m.second < 60 ∧
      m.microsecond < 1000000)
    ⟨fun ⟨a, b, c, d, e, f, g⟩ => ⟨a, b, c, d, e, f, g⟩,
      fun ⟨a, b, c, d, e, f, g⟩ => ⟨a, b, c, d, e, f, g⟩⟩

/-- `datetime` -/
structure DateTime extends Moment where
  valid : toMoment.Valid
deriving DecidableEq

/-- `n` in at least `w` digits. -/
def zfill (w n : Nat) : Str := (List.range w).reverse.map fun i => 48 + n / 10 ^ i % 10

/-- `strftime('%Y-%m-%d %H:%M:%S.%f')`; the year is not padded. -/
def Moment.strftime (m : Moment) : Str :=
  digitChars m.year ++ 45 :: (zfill 2 m.month ++ 45 :: (zfill 2 m.day ++ 32 :: (zfill 2 m.hour ++
    58 :: (zfill 2 m.minute ++ 58 :: (zfill 2 m.second ++ 46 :: zfill 6 m.microsecond)))))

/-- The number some digits stand for. -/
def number (ds : Str) : Option Nat :=
  if ds.all isDigit then some (ds.foldl (fun n c => n * 10 + (c - 48)) 0) else none

/-- `YYYY-MM-DD hh:mm:ss.ffffff` as a date and time. -/
def Moment.parse : Str → Option Moment
  | [y₁, y₂, y₃, y₄, 45, m₁, m₂, 45, d₁, d₂, 32, h₁, h₂, 58, n₁, n₂, 58, s₁, s₂, 46, f₁, f₂, f₃, f₄,
      f₅, f₆] => do
    return ⟨← number [y₁, y₂, y₃, y₄], ← number [m₁, m₂], ← number [d₁, d₂], ← number [h₁,
      h₂], ← number [n₁, n₂], ← number [s₁, s₂], ← number [f₁, f₂, f₃, f₄, f₅, f₆]⟩
  | _ => none

/-! ### What is written reads back -/

/-- One more digit. -/
lemma zfill_succ (w n : Nat) : zfill (w + 1) n = zfill w (n / 10) ++ [48 + n % 10] := by
  have shift : ∀ i, 48 + n / 10 ^ (i + 1) % 10 = 48 + n / 10 / 10 ^ i % 10 := by
    intro i
    rw [Nat.div_div_eq_div_mul, pow_succ']
  rw [zfill, List.range_succ_eq_map, List.reverse_cons, List.map_append, List.map_reverse,
    List.map_map]
  simp only [Function.comp_def, Nat.succ_eq_add_one, shift, zfill, List.map_reverse,
    List.map_singleton, pow_zero, Nat.div_one]

/-- Digits in a fixed width read back. -/
lemma number_zfill {w n : Nat} (h : n < 10 ^ w) : number (zfill w n) = some n := by
  have both : (zfill w n).all isDigit = true ∧
      (zfill w n).foldl (fun n c => n * 10 + (c - 48)) 0 = n := by
    induction w generalizing n with
    | zero =>
      obtain rfl : n = 0 := by omega
      exact ⟨rfl, rfl⟩
    | succ w ih =>
      obtain ⟨digits, value⟩ := ih (n := n / 10) (by rw [pow_succ] at h; omega)
      have last : isDigit (48 + n % 10) = true := by
        rw [isDigit_iff]
        omega
      rw [zfill_succ, List.all_append, digits, List.foldl_append, value]
      refine ⟨by simpa using last, ?_⟩
      rw [List.foldl_cons, List.foldl_nil]
      omega
  rw [number, if_pos both.1, both.2]

/-- The last digit. -/
lemma digitChars_snoc {n : Nat} (h : 10 ≤ n) :
    digitChars n = digitChars (n / 10) ++ [48 + n % 10] := by
  rw [digitChars, if_neg (by omega), digitChars, if_neg (by omega),
    Nat.digits_def' (by decide) (by omega), List.reverse_cons, List.map_append, List.map_singleton]

/-- A number that has the width already is not padded. -/
lemma zfill_digitChars {w n : Nat} (lower : 10 ^ w ≤ n) (upper : n < 10 ^ (w + 1)) :
    zfill (w + 1) n = digitChars n := by
  induction w generalizing n with
  | zero =>
    have digit : n % 10 = n := Nat.mod_eq_of_lt (by simpa using upper)
    rw [zfill_succ, digit, digitChars, if_neg (by omega),
      Nat.digits_of_lt 10 n (by omega) (by simpa using upper)]
    rfl
  | succ w ih =>
    have lower' : 10 ^ w ≤ n / 10 := by
      rw [pow_succ] at lower
      omega
    have upper' : n / 10 < 10 ^ (w + 1) := by
      rw [pow_succ] at upper
      omega
    have pos : 0 < 10 ^ w := Nat.pow_pos (by decide)
    rw [zfill_succ, ih lower' upper', ← digitChars_snoc (by omega)]

/-- The text of a date and time is that date and time. -/
theorem Moment.parse_strftime {m : Moment} (valid : m.Valid) (year : 1000 ≤ m.year) :
    Moment.parse m.strftime = some m := by
  have month := number_zfill (w := 2) (n := m.month) (by have := valid.month; omega)
  have day : m.day < 10 ^ 2 := by
    have last := valid.day.2
    rw [daysIn] at last
    split at last
    · split at last <;> omega
    · split at last <;> omega
  have hour := number_zfill (w := 2) (n := m.hour) (by have := valid.hour; omega)
  have minute := number_zfill (w := 2) (n := m.minute) (by have := valid.minute; omega)
  have second := number_zfill (w := 2) (n := m.second) (by have := valid.second; omega)
  have micro := number_zfill (w := 6) (n := m.microsecond) (by have := valid.microsecond; omega)
  have year := number_zfill (w := 4) (n := m.year) (by have := valid.year; omega)
  have text : digitChars m.year = zfill 4 m.year :=
    (zfill_digitChars (by omega) (by have := valid.year; omega)).symm
  rw [strftime, text]
  change ((number (zfill 4 m.year)).bind fun y => (number (zfill 2 m.month)).bind fun mo =>
    (number (zfill 2 m.day)).bind fun d => (number (zfill 2 m.hour)).bind fun h =>
    (number (zfill 2 m.minute)).bind fun mi => (number (zfill 2 m.second)).bind fun s =>
    (number (zfill 6 m.microsecond)).bind fun f => some (Moment.mk y mo d h mi s f)) = some m
  rw [year, month, number_zfill day, hour, minute, second, micro]
  rfl

end DbLab.Py
