import DbLab.Py.Canonical

/-!
# JSON bytes

`json.loads` on bytes: the encoding is told from the first four bytes, and the text is decoded with
`surrogatepass`, so lone surrogates come through from UTF-8, UTF-16 and UTF-32 alike.
-/

namespace DbLab.Py

/-- What `json.detect_encoding` returns. -/
inductive Encoding where
  | utf8
  | utf8Sig
  | utf16
  | utf16be
  | utf16le
  | utf32
  | utf32be
  | utf32le
deriving DecidableEq

def detectEncoding (b : Bytes) : Encoding :=
  if [0x00, 0x00, 0xFE, 0xFF].isPrefixOf b || [0xFF, 0xFE, 0x00, 0x00].isPrefixOf b then .utf32
  else if [0xFE, 0xFF].isPrefixOf b || [0xFF, 0xFE].isPrefixOf b then .utf16
  else if [0xEF, 0xBB, 0xBF].isPrefixOf b then .utf8Sig
  else match b with
    | b0 :: b1 :: b2 :: b3 :: _ =>
      if b0 = 0 then if b1 ≠ 0 then .utf16be else .utf32be
      else if b1 = 0 then if b2 ≠ 0 ∨ b3 ≠ 0 then .utf16le else .utf32le
      else .utf8
    | [b0, b1] =>
      if b0 = 0 then .utf16be
      else if b1 = 0 then .utf16le
      else .utf8
    | _ => .utf8

/-- The number that bytes in either order stand for. -/
def wordOf (big : Bool) (b : Bytes) : Nat :=
  (if big then b else b.reverse).foldl (fun n x => n * 256 + x.toNat) 0

def units16 (big : Bool) : Bytes → Except Exn (List Nat)
  | [] => .ok []
  | b0 :: b1 :: r => do return wordOf big [b0, b1] :: (← units16 big r)
  | [_] => .error .unicodeError

def decode32 (big : Bool) : Bytes → Except Exn Str
  | [] => .ok []
  | b0 :: b1 :: b2 :: b3 :: r => do
    let c := wordOf big [b0, b1, b2, b3]
    if 0x110000 ≤ c then throw .unicodeError
    else return c :: (← decode32 big r)
  | _ => .error .unicodeError

/-- Surrogate pairs are joined as those of a JSON string are. -/
def decode16 (big : Bool) (b : Bytes) : Except Exn Str := do
  return joinUnits ((← units16 big b).map fun u => (u, true))

/-- `b.decode(encoding, "surrogatepass")`, for an encoding that was detected in `b`. -/
def Encoding.decode (b : Bytes) : Encoding → Except Exn Str
  | utf8 => Py.decode true b
  | utf8Sig => Py.decode true (b.drop 3)
  | utf16 => decode16 (b.head? = some 0xFE) (b.drop 2)
  | utf16be => decode16 true b
  | utf16le => decode16 false b
  | utf32 => decode32 (b.head? = some 0x00) (b.drop 4)
  | utf32be => decode32 true b
  | utf32le => decode32 false b

/-- The text `json.loads` reads in bytes. -/
def jsonText (b : Bytes) : Except Exn Str := (detectEncoding b).decode b

/-! ### Text that begins with ASCII -/

/-- ASCII is one byte. -/
lemma encode_ascii {c : Nat} {s : Str} {b : Bytes} (ascii : c < 0x80)
    (h : encode (c :: s) = .ok b) :
    ∃ b', b = .ofNat c :: b' ∧ encode s = .ok b' := by
  obtain ⟨bc, first, h⟩ := bind_ok.1 h
  obtain ⟨bs, rest, h⟩ := bind_ok.1 h
  cases h
  rw [encodeChar, if_pos ascii, Except.ok.injEq] at first
  subst first
  exact ⟨bs, rfl, rest⟩

/-- Text whose first two characters are of ASCII is taken for UTF-8. -/
lemma detectEncoding_ascii {c d : Nat} (first : 0 < c ∧ c < 0x80) (second : 0 < d ∧ d < 0x80)
    (b : Bytes) :
    detectEncoding (.ofNat c :: .ofNat d :: b) = .utf8 := by
  have value : ∀ {n : Nat} (x : UInt8), n < 0x80 → n ≠ x.toNat → UInt8.ofNat n ≠ x := by
    intro n x lt ne e
    rw [← e, toNat_ofNat (by omega)] at ne
    exact ne rfl
  have c00 : UInt8.ofNat c ≠ 0x00 := value _ first.2 (by simp; omega)
  have cFF : UInt8.ofNat c ≠ 0xFF := value _ first.2 (by simp; omega)
  have cFE : UInt8.ofNat c ≠ 0xFE := value _ first.2 (by simp; omega)
  have cEF : UInt8.ofNat c ≠ 0xEF := value _ first.2 (by simp; omega)
  have d00 : UInt8.ofNat d ≠ 0x00 := value _ second.2 (by simp; omega)
  have no : ∀ {x y : UInt8} {xs ys : Bytes}, y ≠ x → (x :: xs).isPrefixOf (y :: ys) = false := by
    intro x y xs ys ne
    simp [List.isPrefixOf, ne.symm]
  unfold detectEncoding
  rw [no c00, no cFF, no cFE, no cFF, no cEF]
  simp only [Bool.or_false, Bool.false_eq_true, if_false]
  match b with
  | [] => simp only [if_neg c00, if_neg d00]
  | [_] => rfl
  | _ :: _ :: _ => simp only [if_neg c00, if_neg d00]

/-- Two ASCII bytes in front say UTF-8. -/
lemma jsonText_ascii {c d : Nat} {s : Str} {b : Bytes} (first : 0 < c ∧ c < 0x80)
    (second : 0 < d ∧ d < 0x80)
    (h : encode (c :: d :: s) = .ok b) : jsonText b = .ok (c :: d :: s) := by
  obtain ⟨b', rfl, rest⟩ := encode_ascii first.2 h
  obtain ⟨b'', rfl, _⟩ := encode_ascii second.2 rest
  rw [jsonText, detectEncoding_ascii first second]
  exact decode_encode h

variable [Interpreter] {ε : Type}

/-- `json.loads(b)` for `bytes` -/
def loadsBytes (h : Hooks ε) (b : Bytes) : Except ε Value := do
  loads h (← (jsonText b).mapError h.raise)

/-- Loading bytes is loading their text. -/
lemma loadsBytes_ok {h : Hooks ε} {b : Bytes} {v : Value} :
    loadsBytes h b = .ok v ↔ ∃ s, jsonText b = .ok s ∧ loads h s = .ok v := by
  rw [loadsBytes]
  cases jsonText b with
  | error e => exact ⟨nofun, fun ⟨_, h, _⟩ => nomatch h⟩
  | ok s => exact ⟨fun h => ⟨s, rfl, h⟩, fun ⟨_, e, h⟩ => by cases e; exact h⟩

/-- The bytes of an object with members are read as its text. -/
lemma jsonText_dict {o : Dump} {e : Str × Value} {ms : List (Str × Value)} {t : Str} {b : Bytes}
    (text : dumps o (.dict (e :: ms)) = .ok t) (bytes : encode t = .ok b) :
    0 < b.length ∧ jsonText b = .ok t := by
  -- an object with members begins with a brace and a quote
  have opening : ∃ r, t = 123 :: 34 :: r := by
    obtain ⟨ts, members, text⟩ := bind_ok.1 text
    cases text
    have length : (o.order ts).length ≠ 0 := by
      rw [(order_perm o ts).length_eq]
      obtain ⟨_, _, members⟩ := bind_ok.1 members
      obtain ⟨_, _, members⟩ := bind_ok.1 members
      cases members
      exact Nat.succ_ne_zero _
    cases all : o.order ts with
    | nil => exact absurd (congrArg List.length all) length
    | cons u us =>
      rw [List.map_cons, intercalate_cons]
      exact ⟨_, rfl⟩
  obtain ⟨r, rfl⟩ := opening
  have some : 0 < b.length := by
    obtain ⟨b', rfl, _⟩ := encode_ascii (by decide) bytes
    exact Nat.succ_pos _
  exact ⟨some, jsonText_ascii (by decide) (by decide) bytes⟩

/-- The bytes of a legible object read back. -/
theorem Legible.loadsBytes {d : Nat} {e : Str × Value} {ms : List (Str × Value)}
    (legible : Legible d (.dict (e :: ms)))
    (o : Dump) {h : Hooks ε} (keeps : h.Keeps) (depth : d ≤ Interpreter.recursionLimit) :
    ∃ t b, dumps o (.dict (e :: ms)) = .ok t ∧ encode t = .ok b ∧ 0 < b.length ∧
      Py.loadsBytes h b = .ok ((Value.dict (e :: ms)).reorder o) := by
  obtain ⟨t, text, scalar, read⟩ := legible.loads o keeps depth
  obtain ⟨b, bytes⟩ := encode_scalar scalar
  obtain ⟨some, decoded⟩ := jsonText_dict text bytes
  exact ⟨t, b, text, bytes, some, loadsBytes_ok.2 ⟨t, decoded, read⟩⟩

end DbLab.Py
