import DbLab.Py.Builtins
import DbLab.Py.Int

/-!
# `str` of a value and `int` of a text

`str(v)` for every JSON value, and `int(s)` of a text. What `int` reads of a text that `str` wrote
is the integer that was written; no other value but a text is written so that `int` accepts it.
-/

namespace DbLab.Py

/-- What `str` and `int` look up in the Unicode database. -/
class Unicode where
  decimal : Nat → Option Nat
  decimal_lt : ∀ c d, decimal c = some d → d < 10
  printable : Nat → Bool

/-- The digits and letters of ASCII. -/
@[reducible] def ascii : Unicode where
  decimal c := if isDigit c then some (c - 48) else none
  decimal_lt c d h := by
    split at h
    · rename_i digit
      rw [isDigit_iff] at digit
      cases h
      omega
    · cases h
  printable c := 32 ≤ c && c < 127

/-! ### `int(s)` -/

/-- A run has digits and underscores only. -/
lemma digitRun_plain {after : Bool} {s ds : Str} (h : digitRun after s = some ds) :
    ∀ c ∈ s, isDigit c = true ∨ c = 95 := by
  induction s generalizing after ds with
  | nil => exact nofun
  | cons d s ih =>
    rw [digitRun] at h
    intro c m
    by_cases digit : isDigit d = true
    · rw [if_pos digit] at h
      obtain ⟨r, run, _⟩ := Option.map_eq_some_iff.1 h
      rcases List.mem_cons.1 m with rfl | m
      · exact .inl digit
      · exact ih run c m
    · rw [if_neg digit] at h
      split at h
      · rename_i underscore
        rcases List.mem_cons.1 m with rfl | m
        · exact .inr underscore.1
        · exact ih h c m
      · cases h

/-- What does not pass is not dropped. -/
lemma mem_dropWhile {p : Nat → Bool} {s : Str} {c : Nat} (m : c ∈ s) (h : p c = false) :
    c ∈ s.dropWhile p := by
  induction s with
  | nil => exact m
  | cons d s ih =>
    rw [List.dropWhile_cons]
    split
    · rename_i dropped
      rcases List.mem_cons.1 m with rfl | m
      · rw [dropped] at h
        cases h
      · exact ih m
    · exact m

/-- Stripping keeps what is no space. -/
lemma mem_strip {s : Str} {c : Nat} (m : c ∈ s) (h : isSpace c = false) : c ∈ strip s := by
  have front := mem_dropWhile m h
  exact List.mem_reverse.2 (mem_dropWhile (List.mem_reverse.2 front) h)

/-- Reading the sign keeps what is none. -/
lemma mem_signed {s : Str} {c : Nat} (m : c ∈ s) (minus : c ≠ 45) (plus : c ≠ 43) :
    c ∈ (signed s).2 := by
  unfold signed
  split
  · exact (List.mem_cons.1 m).resolve_left minus
  · exact (List.mem_cons.1 m).resolve_left plus
  · exact m

/-- The characters of a text that `int` accepts. -/
lemma intOfBytes_plain {b : Bytes} {n : Int} (h : intOfBytes b = .ok n) :
    ∀ c ∈ b.map UInt8.toNat, isSpace c = true ∨ c = 45 ∨ c = 43 ∨ isDigit c = true ∨ c = 95 := by
  intro c m
  unfold intOfBytes at h
  simp only at h
  split at h
  · cases h
  · rename_i ds run
    by_cases space : isSpace c = true
    · exact .inl space
    by_cases minus : c = 45
    · exact .inr (.inl minus)
    by_cases plus : c = 43
    · exact .inr (.inr (.inl plus))
    have kept := mem_signed (mem_strip m (Bool.not_eq_true _ ▸ space)) minus plus
    exact .inr (.inr (.inr (digitRun_plain run c kept)))

section
variable [Unicode]

/-- The character that `int` takes for `c`: beyond ASCII a space is a space and a decimal digit is
that digit. -/
def asciiChar (c : Nat) : Nat :=
  if c < 128 then c
  else if unicodeSpace c then 32
  else match Unicode.decimal c with
    | some d => 48 + d
    | none => 63

/-- `int(s)` -/
def intOfStr (s : Str) : Except Exn Int := intOfBytes (s.map fun c => .ofNat (asciiChar c))

/-- ASCII is itself. -/
lemma asciiChar_ascii {c : Nat} (h : c < 128) : asciiChar c = c := if_pos h

/-- A text with a character below 128 that is in no number is refused. -/
lemma intOfStr_refuses {s : Str} {c : Nat} (m : c ∈ s) (ascii : c < 128)
    (h : (isSpace c || c = 45 || c = 43 || isDigit c || c = 95) = false) (n : Int) :
    intOfStr s ≠ .ok n := by
  intro ok
  have byte : c ∈ (s.map fun c => UInt8.ofNat (asciiChar c)).map UInt8.toNat := by
    rw [List.map_map]
    refine List.mem_map.2 ⟨c, m, ?_⟩
    rw [Function.comp_apply, asciiChar_ascii ascii]
    exact toNat_ofNat (by omega)
  have plain := intOfBytes_plain ok c byte
  simp only [Bool.or_eq_false_iff, decide_eq_false_iff_not] at h
  obtain ⟨⟨⟨⟨space, minus⟩, plus⟩, digit⟩, underscore⟩ := h
  rcases plain with p | p | p | p | p
  · rw [space] at p
    cases p
  · exact minus p
  · exact plus p
  · rw [digit] at p
    cases p
  · exact underscore p

/-- `int(str(n)) == n` -/
lemma intOfStr_intRepr {n : Int} {s : Str} (h : intRepr n = .ok s) : intOfStr s = .ok n := by
  unfold intRepr at h
  simp only at h
  split at h
  · cases h
  · rename_i fits
    have digits : (digitChars n.natAbs).map (fun c => UInt8.ofNat (asciiChar c)) =
        decimal n.natAbs := by
      apply List.map_congr_left
      intro c m
      have digit := digitChars_isDigit n.natAbs c m
      rw [isDigit_iff] at digit
      rw [asciiChar_ascii (by omega)]
    have bytes : s.map (fun c => UInt8.ofNat (asciiChar c)) = intBytes n := by
      rw [← Except.ok.inj h, intBytes]
      split
      · rw [List.map_cons, digits]
        rfl
      · exact digits
    rw [intOfStr, bytes]
    exact intOfBytes_intBytes (by omega)

/-! ### `str(v)` -/

/-- The last `width` hexadecimal digits of `n`. -/
def hexText (width n : Nat) : Str :=
  (List.range width).reverse.map fun i => hexDigit (n / 16 ^ i % 16)

/-- A character inside the `repr` of a text. -/
def reprChar (quote c : Nat) : Str :=
  if c = quote ∨ c = 92 then [92, c]
  else if c = 9 then str "\\t"
  else if c = 10 then str "\\n"
  else if c = 13 then str "\\r"
  else if c < 32 ∨ c = 127 then str "\\x" ++ hexText 2 c
  else if c < 127 ∨ Unicode.printable c then [c]
  else if c ≤ 0xFF then str "\\x" ++ hexText 2 c
  else if c ≤ 0xFFFF then str "\\u" ++ hexText 4 c
  else str "\\U" ++ hexText 8 c

/-- `repr(s)`: double quotes only around a text with an apostrophe and no double quote. -/
def strRepr (s : Str) : Str :=
  let quote := if 39 ∈ s ∧ 34 ∉ s then 34 else 39
  quote :: s.flatMap (reprChar quote) ++ [quote]

variable [Interpreter]

/-- `repr(x)` of a float. -/
def floatText (x : Interpreter.Float) : Str :=
  match Interpreter.view x with
  | .finite _ => Interpreter.repr x
  | .inf false => str "inf"
  | .inf true => str "-inf"
  | .nan => str "nan"

namespace Value

-- `repr(v)`; only an integer with too many digits has none.
mutual
def repr : Value → Except Exn Str
  | .null => .ok (Py.str "None")
  | .bool b => .ok (Py.str (if b then "True" else "False"))
  | .int n => intRepr n
  | .float x => .ok (floatText x)
  | .str s => .ok (strRepr s)
  | .list xs => do return 91 :: (List.intercalate [44, 32] (← reprList xs) ++ [93])
  | .dict ms => do return 123 :: (List.intercalate [44, 32] (← reprDict ms) ++ [125])
def reprList : List Value → Except Exn (List Str)
  | [] => .ok []
  | x :: xs => do return (← x.repr) :: (← reprList xs)
def reprDict : List (Str × Value) → Except Exn (List Str)
  | [] => .ok []
  | (k, v) :: ms => do return (strRepr k ++ [58, 32] ++ (← v.repr)) :: (← reprDict ms)
end

/-- `str(v)` -/
def asStr : Value → Except Exn Str
  | .str s => .ok s
  | v => v.repr

end Value

/-- A float's text is no integer. -/
lemma floatText_refuses (x : Interpreter.Float) (n : Int) : intOfStr (floatText x) ≠ .ok n := by
  unfold floatText
  split
  · rename_i q finite
    obtain ⟨i, f, e, text, _, frac, exp, some_⟩ := Interpreter.repr_text x q finite
    rw [text]
    rcases frac with rfl | ⟨ds, rfl, _, _⟩
    · rcases exp with rfl | ⟨c, sign, ds, rfl, letter, _, _, _⟩
      · exact absurd some_ (by simp)
      · have m : c ∈ i ++ ([] ++ c :: (sign ++ ds)) := by simp
        rcases letter with rfl | rfl
        · exact intOfStr_refuses m (by decide) (by decide) n
        · exact intOfStr_refuses m (by decide) (by decide) n
    · have m : 46 ∈ i ++ (46 :: ds ++ e) := by simp
      exact intOfStr_refuses m (by decide) (by decide) n
  · exact intOfStr_refuses (c := 105) (by decide) (by decide) (by decide) n
  · exact intOfStr_refuses (c := 105) (by decide) (by decide) (by decide) n
  · exact intOfStr_refuses (c := 110) (by decide) (by decide) (by decide) n

/-- What `int` reads of `str(v)`: only an integer and a text are written as a number. -/
theorem intOfStr_asStr {v : Value} {s : Str} {n : Int} (text : v.asStr = .ok s)
    (read : intOfStr s = .ok n) :
    v = .int n ∨ v = .str s := by
  cases v with
  | null =>
    cases text
    exact absurd read (intOfStr_refuses (c := 78) (by decide) (by decide) (by decide) n)
  | bool b =>
    cases text
    cases b with
    | true => exact absurd read (intOfStr_refuses (c := 84) (by decide) (by decide) (by decide) n)
    | false => exact absurd read (intOfStr_refuses (c := 70) (by decide) (by decide) (by decide) n)
  | int m =>
    have same := (intOfStr_intRepr text).symm.trans read
    rw [Except.ok.inj same]
    exact .inl rfl
  | float x =>
    cases text
    exact absurd read (floatText_refuses x n)
  | str t =>
    cases text
    exact .inr rfl
  | list xs =>
    obtain ⟨rs, _, text⟩ := bind_ok.1 text
    cases text
    exact absurd read (intOfStr_refuses List.mem_cons_self (by decide) (by decide) n)
  | dict ms =>
    obtain ⟨rs, _, text⟩ := bind_ok.1 text
    cases text
    exact absurd read (intOfStr_refuses List.mem_cons_self (by decide) (by decide) n)

end

end DbLab.Py
