import DbLab.Py.Str

/-!
# UTF-8

`str.encode("utf-8")` and `bytes.decode("utf-8", errors)`. Encoding refuses lone surrogates;
decoding refuses them too unless `errors` is `surrogatepass`, which `json.loads` uses on bytes.
-/

namespace DbLab.Py

/-- Lone surrogates are code points of a `str` but not of UTF-8 text. -/
def surrogate (c : Nat) : Bool := 0xD800 ≤ c && c < 0xE000

def encodeChar (c : Nat) : Except Exn Bytes :=
  if c < 0x80 then .ok [.ofNat c]
  else if c < 0x800 then .ok [.ofNat (0xC0 + c / 0x40), .ofNat (0x80 + c % 0x40)]
  else if surrogate c then .error .unicodeError
  else if c < 0x10000 then
    .ok [.ofNat (0xE0 + c / 0x1000), .ofNat (0x80 + c / 0x40 % 0x40), .ofNat (0x80 + c % 0x40)]
  else if c < 0x110000 then
    .ok [.ofNat (0xF0 + c / 0x40000), .ofNat (0x80 + c / 0x1000 % 0x40),
      .ofNat (0x80 + c / 0x40 % 0x40), .ofNat (0x80 + c % 0x40)]
  else .error .unicodeError

/-- `s.encode("utf-8")` -/
def encode : Str → Except Exn Bytes
  | [] => .ok []
  | c :: s => do return (← encodeChar c) ++ (← encode s)

/-- The six payload bits of a continuation byte. -/
def continuation (b : UInt8) : Option Nat :=
  if 0x80 ≤ b.toNat ∧ b.toNat < 0xC0 then some (b.toNat - 0x80) else none

/-- A decoded code point is in range, not over-long, and a surrogate only where these pass. -/
def decoded (surrogatepass : Bool) (low c : Nat) : Except Exn Nat :=
  if low ≤ c ∧ c < 0x110000 ∧ (surrogatepass ∨ ¬ surrogate c) then .ok c else .error .unicodeError

/-- `b.decode("utf-8", errors)` -/
def decode (surrogatepass : Bool) : Bytes → Except Exn Str
  | [] => .ok []
  | b :: r =>
    if b.toNat < 0x80 then do return b.toNat :: (← decode surrogatepass r)
    else match r with
      | [] => .error .unicodeError
      | b1 :: r => match continuation b1 with
        | none => .error .unicodeError
        | some x1 =>
          if 0xC0 ≤ b.toNat ∧ b.toNat < 0xE0 then do
            return (← decoded surrogatepass 0x80 ((b.toNat - 0xC0) * 0x40 + x1)) ::
              (← decode surrogatepass r)
          else match r with
            | [] => .error .unicodeError
            | b2 :: r => match continuation b2 with
              | none => .error .unicodeError
              | some x2 =>
                if 0xE0 ≤ b.toNat ∧ b.toNat < 0xF0 then do
                  return (← decoded surrogatepass 0x800
                    ((b.toNat - 0xE0) * 0x1000 + x1 * 0x40 + x2)) :: (← decode surrogatepass r)
                else match r with
                  | [] => .error .unicodeError
                  | b3 :: r => match continuation b3 with
                    | none => .error .unicodeError
                    | some x3 =>
                      if 0xF0 ≤ b.toNat then do
                        return (← decoded surrogatepass 0x10000
                          ((b.toNat - 0xF0) * 0x40000 + x1 * 0x1000 + x2 * 0x40 + x3)) ::
                            (← decode surrogatepass r)
                      else .error .unicodeError

/-- A byte built from a number below 256 has that number as value. -/
lemma toNat_ofNat {x : Nat} (h : x < 0x100) : (UInt8.ofNat x).toNat = x := by
  rw [UInt8.toNat_ofNat']
  exact Nat.mod_eq_of_lt h

/-- A continuation byte holds its six bits. -/
lemma continuation_ofNat {x : Nat} (h : x < 0x40) : continuation (.ofNat (0x80 + x)) = some x := by
  rw [continuation, toNat_ofNat (by omega), if_pos (by omega), Nat.add_sub_cancel_left]

/-- Decoding gives back the code point that was encoded and goes on behind it. -/
lemma decode_encodeChar {sp : Bool} {c : Nat} {b r : Bytes} (h : encodeChar c = .ok b) :
    decode sp (b ++ r) = (decode sp r).map (c :: ·) := by
  unfold encodeChar at h
  by_cases h1 : c < 0x80
  · rw [if_pos h1, Except.ok.injEq] at h
    subst h
    rw [List.cons_append, decode.eq_def]
    simp only [toNat_ofNat (show c < 0x100 by omega), if_pos h1, List.nil_append]
    cases decode sp r <;> rfl
  rw [if_neg h1] at h
  by_cases h2 : c < 0x800
  · rw [if_pos h2, Except.ok.injEq] at h
    subst h
    rw [List.cons_append, List.cons_append, decode.eq_def]
    simp only [toNat_ofNat (show 0xC0 + c / 0x40 < 0x100 by omega),
      continuation_ofNat (show c % 0x40 < 0x40 by omega), List.nil_append]
    rw [if_neg (by omega), if_pos (by omega), decoded,
      show (0xC0 + c / 0x40 - 0xC0) * 0x40 + c % 0x40 = c by omega,
      if_pos ⟨by omega, by omega, .inr (by simp [surrogate]; omega)⟩]
    cases decode sp r <;> rfl
  rw [if_neg h2] at h
  by_cases hs : surrogate c
  · rw [if_pos hs] at h
    cases h
  rw [if_neg hs] at h
  by_cases h3 : c < 0x10000
  · rw [if_pos h3, Except.ok.injEq] at h
    subst h
    rw [List.cons_append, List.cons_append, List.cons_append, decode.eq_def]
    simp only [toNat_ofNat (show 0xE0 + c / 0x1000 < 0x100 by omega),
      continuation_ofNat (show c % 0x40 < 0x40 by omega),
      continuation_ofNat (show c / 0x40 % 0x40 < 0x40 by omega), List.nil_append]
    rw [if_neg (by omega), if_neg (by omega), if_pos (by omega), decoded,
      show (0xE0 + c / 0x1000 - 0xE0) * 0x1000 + c / 0x40 % 0x40 * 0x40 + c % 0x40 = c by omega,
      if_pos ⟨by omega, by omega, .inr hs⟩]
    cases decode sp r <;> rfl
  rw [if_neg h3] at h
  by_cases h4 : c < 0x110000
  · rw [if_pos h4, Except.ok.injEq] at h
    subst h
    rw [List.cons_append, List.cons_append, List.cons_append, List.cons_append, decode.eq_def]
    simp only [toNat_ofNat (show 0xF0 + c / 0x40000 < 0x100 by omega),
      continuation_ofNat (show c % 0x40 < 0x40 by omega),
      continuation_ofNat (show c / 0x40 % 0x40 < 0x40 by omega),
      continuation_ofNat (show c / 0x1000 % 0x40 < 0x40 by omega), List.nil_append]
    rw [if_neg (by omega), if_neg (by omega), if_neg (by omega), if_pos (by omega), decoded,
      show (0xF0 + c / 0x40000 - 0xF0) * 0x40000 + c / 0x1000 % 0x40 * 0x1000
        + c / 0x40 % 0x40 * 0x40 + c % 0x40 = c by omega,
      if_pos ⟨by omega, h4, .inr hs⟩]
    cases decode sp r <;> rfl
  · rw [if_neg h4] at h
    cases h

/-- Encoded text decodes to itself. -/
theorem decode_encode {sp : Bool} {s : Str} {b : Bytes} (h : encode s = .ok b) :
    decode sp b = .ok s := by
  induction s generalizing b with
  | nil =>
    cases h
    rfl
  | cons c s ih =>
    rw [encode] at h
    cases hc : encodeChar c with
    | error e => rw [hc] at h; cases h
    | ok bc =>
      cases hs : encode s with
      | error e => rw [hc, hs] at h; cases h
      | ok bs =>
        rw [hc, hs] at h
        cases h
        rw [decode_encodeChar hc, ih hs]
        rfl

/-! ### Decoding that replaces -/

/-- The length of the sequence that a byte begins, and the range its second byte has to be in. -/
def sequence (b : Nat) : Option (Nat × Nat × Nat) :=
  if 0xC2 ≤ b ∧ b < 0xE0 then some (2, 0x80, 0xC0)
  else if b = 0xE0 then some (3, 0xA0, 0xC0)
  else if b = 0xED then some (3, 0x80, 0xA0)
  else if 0xE0 < b ∧ b < 0xF0 then some (3, 0x80, 0xC0)
  else if b = 0xF0 then some (4, 0x90, 0xC0)
  else if b = 0xF4 then some (4, 0x80, 0x90)
  else if 0xF0 < b ∧ b < 0xF4 then some (4, 0x80, 0xC0)
  else none

/-- The code point that a byte and those behind it begin with, and how many of those behind it
belong to it. U+FFFD stands for the longest beginning of a sequence that breaks off. -/
def front (b : UInt8) (r : Bytes) : Nat × Nat :=
  if b.toNat < 0x80 then (b.toNat, 0)
  else match sequence b.toNat, r with
    | some (width, low, high), b1 :: r =>
      if b1.toNat < low ∨ high ≤ b1.toNat then (0xFFFD, 0)
      else if width = 2 then ((b.toNat - 0xC0) * 0x40 + (b1.toNat - 0x80), 1)
      else match r.head?.bind continuation, r.tail with
        | some x2, r =>
          if width = 3 then ((b.toNat - 0xE0) * 0x1000 + (b1.toNat - 0x80) * 0x40 + x2, 2)
          else match r.head?.bind continuation with
            | some x3 =>
              ((b.toNat - 0xF0) * 0x40000 + (b1.toNat - 0x80) * 0x1000 + x2 * 0x40 + x3, 3)
            | none => (0xFFFD, 2)
        | none, _ => (0xFFFD, 1)
    | _, _ => (0xFFFD, 0)

/-- Decode what is left behind the next `skip` bytes. -/
def decodeFrom : Nat → Bytes → Str
  | _, [] => []
  | skip + 1, _ :: r => decodeFrom skip r
  | 0, b :: r => (front b r).1 :: decodeFrom (front b r).2 r

/-- `b.decode("utf-8", "replace")` -/
def decodeReplace (b : Bytes) : Str := decodeFrom 0 b

example : decodeReplace [0x61, 0xE2, 0x82, 0xFF, 0xC3, 0xA9] = [0x61, 0xFFFD, 0xFFFD, 0xE9] := by
  decide

end DbLab.Py
