import DbLab.Py.Utf8

/-!
# Base64

`base64.b64encode` and `base64.b64decode(..., validate=True)`, and that the latter undoes the
former.
-/

namespace DbLab.Py

/-- The character of six bits. -/
def base64Char (n : Nat) : Nat :=
  if n < 26 then 65 + n
  else if n < 52 then 71 + n
  else if n < 62 then n - 4
  else if n = 62 then 43
  else 47

def base64Value (c : Nat) : Option Nat :=
  if 65 ≤ c ∧ c < 91 then some (c - 65)
  else if 97 ≤ c ∧ c < 123 then some (c - 71)
  else if 48 ≤ c ∧ c < 58 then some (c + 4)
  else if c = 43 then some 62
  else if c = 47 then some 63
  else none

/-- `base64.b64encode(b).decode()` -/
def b64encode : Bytes → Str
  | [] => []
  | [x] => [base64Char (x.toNat / 4), base64Char (x.toNat % 4 * 16), 61, 61]
  | [x, y] =>
    [base64Char (x.toNat / 4), base64Char (x.toNat % 4 * 16 + y.toNat / 16),
      base64Char (y.toNat % 16 * 4), 61]
  | x :: y :: z :: r =>
    base64Char (x.toNat / 4) :: base64Char (x.toNat % 4 * 16 + y.toNat / 16) ::
      base64Char (y.toNat % 16 * 4 + z.toNat / 64) :: base64Char (z.toNat % 64) :: b64encode r

/-- `binascii.Error`, a subclass of `ValueError`. -/
def base64Error : Exn := .valueError "Invalid base64-encoded string"

/-- `base64.b64decode(s, validate=True)`; the bits that padding leaves over may be any. -/
def b64decode : Str → Except Exn Bytes
  | [] => .ok []
  | [a, b, 61, 61] => match base64Value a, base64Value b with
    | some a, some b => .ok [.ofNat (a * 4 + b / 16)]
    | _, _ => .error base64Error
  | [a, b, c, 61] => match base64Value a, base64Value b, base64Value c with
    | some a, some b, some c => .ok [.ofNat (a * 4 + b / 16), .ofNat (b % 16 * 16 + c / 4)]
    | _, _, _ => .error base64Error
  | a :: b :: c :: d :: r => match base64Value a, base64Value b, base64Value c, base64Value d with
    | some a, some b, some c, some d => do
      return .ofNat (a * 4 + b / 16) :: .ofNat (b % 16 * 16 + c / 4) :: .ofNat (c % 4 * 64 + d) ::
        (← b64decode r)
    | _, _, _, _ => .error base64Error
  | _ => .error base64Error

/-- A letter reads as its value. -/
lemma base64Value_char {n : Nat} (h : n < 64) : base64Value (base64Char n) = some n := by
  have all : ∀ n < 64, base64Value (base64Char n) = some n := by decide
  exact all n h

/-- No six bits are written as padding. -/
lemma base64Char_ne {n : Nat} (h : n < 64) : base64Char n ≠ 61 := by
  have all : ∀ n < 64, base64Char n ≠ 61 := by decide
  exact all n h

/-- A letter is ASCII. -/
lemma base64Char_ascii {n : Nat} : base64Char n < 128 := by
  unfold base64Char
  split_ifs <;> omega

/-- A byte from its number. -/
lemma ofNat_eq {x : UInt8} {n : Nat} (h : n = x.toNat) : UInt8.ofNat n = x := by
  rw [h, UInt8.ofNat_toNat]

/-- Encoded bytes decode to themselves. -/
theorem b64decode_encode (b : Bytes) : b64decode (b64encode b) = .ok b := by
  induction b using b64encode.induct with
  | case1 => rfl
  | case2 x =>
    have hx := x.toNat_lt
    rw [b64encode, b64decode, base64Value_char (by omega), base64Value_char (by omega)]
    simp only [Except.ok.injEq, List.cons.injEq, and_true]
    exact ofNat_eq (by omega)
  | case3 x y =>
    have hx := x.toNat_lt
    have hy := y.toNat_lt
    rw [b64encode, b64decode, base64Value_char (by omega), base64Value_char (by omega),
      base64Value_char (by omega)]
    · simp only [Except.ok.injEq, List.cons.injEq, and_true]
      exact ⟨ofNat_eq (by omega), ofNat_eq (by omega)⟩
    · exact base64Char_ne (by omega)
  | case4 x y z r ih =>
    have hx := x.toNat_lt
    have hy := y.toNat_lt
    have hz := z.toNat_lt
    have last : base64Char (z.toNat % 64) ≠ 61 := base64Char_ne (by omega)
    rw [b64encode, b64decode, base64Value_char (by omega), base64Value_char (by omega),
      base64Value_char (by omega), base64Value_char (by omega), ih]
    · simp only [bind, Except.bind, pure, Except.pure, Except.ok.injEq, List.cons.injEq, and_true]
      exact ⟨ofNat_eq (by omega), ofNat_eq (by omega), ofNat_eq (by omega)⟩
    · exact fun _ e _ => last e
    · exact fun e _ => last e

/-- The encoding determines the bytes. -/
lemma b64encode_injective {b b' : Bytes} (h : b64encode b = b64encode b') : b = b' := by
  have back := b64decode_encode b
  rw [h, b64decode_encode, Except.ok.injEq] at back
  exact back.symm

/-- The encoding is ASCII. -/
lemma b64encode_ascii (b : Bytes) : ∀ c ∈ b64encode b, c < 128 := by
  induction b using b64encode.induct with
  | case1 => nofun
  | case2 x => simp [b64encode, base64Char_ascii]
  | case3 x y => simp [b64encode, base64Char_ascii]
  | case4 x y z r ih => simpa [b64encode, base64Char_ascii] using ih

end DbLab.Py
