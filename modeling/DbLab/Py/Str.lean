import Mathlib

/-!
# Python strings and bytes

A Python `str` is a sequence of code points in which lone surrogates may stand, so it is not a Lean
`String`; `Str` keeps the code points themselves and `str` reads a literal. `Exn` names the
exception classes the modelled code raises or tells apart in an `except` clause.
-/

namespace DbLab.Py

/-- A Python `str`: its code points, surrogates included. -/
abbrev Str := List Nat

/-- A Python `bytes`. -/
abbrev Bytes := List UInt8

instance : LawfulBEq Str := inferInstance

instance : LawfulBEq Bytes := inferInstance

/-- The Python string a source literal stands for. -/
def str (s : String) : Str := s.toList.map Char.toNat

/-- Texts are equal as strings. -/
@[simp] lemma str_inj {a b : String} : str a = str b ↔ a = b := by
  constructor
  · intro h
    have inj : Function.Injective Char.toNat := fun _ _ e => Char.toNat_inj.1 e
    exact String.toList_inj.1 (List.map_injective_iff.2 inj h)
  · rintro rfl
    rfl

/-- `str.isspace` for one character. -/
def unicodeSpace (c : Nat) : Bool :=
  (9 ≤ c && c ≤ 13) || (28 ≤ c && c ≤ 32) || c = 0x85 || c = 0xA0 || c = 0x1680 ||
    (0x2000 ≤ c && c ≤ 0x200A) ||
    c = 0x2028 || c = 0x2029 || c = 0x202F || c = 0x205F || c = 0x3000

/-- A word, if there is one, before others. -/
def consWord (w : Str) (ws : List Str) : List Str := if w = [] then ws else w :: ws

/-- The word that a text begins with, and the words behind it. -/
def splitFirst : Str → Str × List Str
  | [] => ([], [])
  | c :: s =>
    if unicodeSpace c then ([], consWord (splitFirst s).1 (splitFirst s).2)
    else (c :: (splitFirst s).1, (splitFirst s).2)

/-- `s.split()` -/
def split (s : Str) : List Str := consWord (splitFirst s).1 (splitFirst s).2

example : split (str " ERR  no\n") = [str "ERR", str "no"] := by decide +kernel

/-- No word is left. -/
lemma consWord_eq_nil {w : Str} {ws : List Str} : consWord w ws = [] ↔ w = [] ∧ ws = [] := by
  unfold consWord
  split_ifs with h
  · exact ⟨fun none => ⟨h, none⟩, fun none => none.2⟩
  · exact ⟨nofun, fun none => absurd none.1 h⟩

/-- A text without words is all space. -/
lemma split_eq_nil {s : Str} : split s = [] ↔ ∀ c ∈ s, unicodeSpace c = true := by
  induction s with
  | nil => exact ⟨fun _ => nofun, fun _ => rfl⟩
  | cons c s ih =>
    rw [split, splitFirst, List.forall_mem_cons]
    split_ifs with space
    · rw [consWord, if_pos rfl]
      exact ih.trans ⟨fun rest => ⟨space, rest⟩, And.right⟩
    · rw [consWord_eq_nil]
      exact ⟨fun none => (nomatch none.1), fun all => absurd all.1 space⟩

/-- Exception classes; the message is kept where the source writes one. -/
inductive Exn where
  | valueError (msg : String)
  | unicodeError
  | typeError
  | keyError
  | indexError
  | attributeError
  | overflowError
  | recursionError
deriving DecidableEq, Repr

/-- `except ValueError`: the unicode errors are subclasses of it. -/
def Exn.isValueError : Exn → Bool
  | .valueError _ => true
  | .unicodeError => true
  | _ => false

end DbLab.Py
