import DbLab.Py.Json

/-!
# A reference interpreter

SHA-256 as the standard defines it, and the smallest interpreter that has it: its only float is
zero, which is enough to run programs that compute with integers and text.
-/

namespace DbLab.Py

namespace Sha256

def initial : List UInt32 :=
  [0x6a09e667, 0xbb67ae85, 0x3c6ef372, 0xa54ff53a, 0x510e527f, 0x9b05688c, 0x1f83d9ab, 0x5be0cd19]

def constants : List UInt32 :=
  [0x428a2f98, 0x71374491, 0xb5c0fbcf, 0xe9b5dba5, 0x3956c25b, 0x59f111f1, 0x923f82a4, 0xab1c5ed5,
   0xd807aa98, 0x12835b01, 0x243185be, 0x550c7dc3, 0x72be5d74, 0x80deb1fe, 0x9bdc06a7, 0xc19bf174,
   0xe49b69c1, 0xefbe4786, 0x0fc19dc6, 0x240ca1cc, 0x2de92c6f, 0x4a7484aa, 0x5cb0a9dc, 0x76f988da,
   0x983e5152, 0xa831c66d, 0xb00327c8, 0xbf597fc7, 0xc6e00bf3, 0xd5a79147, 0x06ca6351, 0x14292967,
   0x27b70a85, 0x2e1b2138, 0x4d2c6dfc, 0x53380d13, 0x650a7354, 0x766a0abb, 0x81c2c92e, 0x92722c85,
   0xa2bfe8a1, 0xa81a664b, 0xc24b8b70, 0xc76c51a3, 0xd192e819, 0xd6990624, 0xf40e3585, 0x106aa070,
   0x19a4c116, 0x1e376c08, 0x2748774c, 0x34b0bcb5, 0x391c0cb3, 0x4ed8aa4a, 0x5b9cca4f, 0x682e6ff3,
   0x748f82ee, 0x78a5636f, 0x84c87814, 0x8cc70208, 0x90befffa, 0xa4506ceb, 0xbef9a3f7, 0xc67178f2]

def rotr (x : UInt32) (n : UInt32) : UInt32 := (x >>> n) ||| (x <<< (32 - n))

/-- `0x80`, zeros up to a whole block and the length in bits. -/
def pad (b : Bytes) : Bytes :=
  let bits := b.length * 8
  b ++ [0x80] ++ List.replicate ((119 - b.length % 64) % 64) 0 ++
    (List.range 8).reverse.map fun i => UInt8.ofNat (bits / 256 ^ i)

def words : Bytes → List UInt32
  | a :: b :: c :: d :: r =>
    UInt32.ofNat (((a.toNat * 256 + b.toNat) * 256 + c.toNat) * 256 + d.toNat) :: words r
  | _ => []

/-- The message schedule, newest word first. -/
def schedule : Nat → List UInt32 → List UInt32
  | 0, w => w
  | n + 1, w =>
    let w15 := w.getD 14 0
    let w2 := w.getD 1 0
    let s0 := rotr w15 7 ^^^ rotr w15 18 ^^^ (w15 >>> 3)
    let s1 := rotr w2 17 ^^^ rotr w2 19 ^^^ (w2 >>> 10)
    schedule n ((w.getD 15 0 + s0 + w.getD 6 0 + s1) :: w)

def round (h : List UInt32) (kw : UInt32 × UInt32) : List UInt32 :=
  match h with
  | [a, b, c, d, e, f, g, h] =>
    let s1 := rotr e 6 ^^^ rotr e 11 ^^^ rotr e 25
    let ch := (e &&& f) ^^^ (~~~e &&& g)
    let t1 := h + s1 + ch + kw.1 + kw.2
    let s0 := rotr a 2 ^^^ rotr a 13 ^^^ rotr a 22
    let maj := (a &&& b) ^^^ (a &&& c) ^^^ (b &&& c)
    [t1 + (s0 + maj), a, b, c, d + t1, e, f, g]
  | _ => h

def compress (h block : List UInt32) : List UInt32 :=
  List.zipWith (· + ·) h ((constants.zip (schedule 48 block.reverse).reverse).foldl round h)

def blocks : Nat → List UInt32 → List UInt32 → List UInt32
  | 0, h, _ => h
  | n + 1, h, ws => blocks n (compress h (ws.take 16)) (ws.drop 16)

/-- `hashlib.sha256(b).hexdigest()` -/
def hexdigest (b : Bytes) : Str :=
  let ws := words (pad b)
  (blocks (ws.length / 16) initial ws).flatMap fun w =>
    (List.range 8).reverse.map fun i => hexDigit (w.toNat / 16 ^ i % 16)

/-- A hex digit is in lower case. -/
lemma hexDigit_lower : ∀ n < 16, isDigit (hexDigit n) ∨ (97 ≤ hexDigit n ∧ hexDigit n < 103) := by
  decide

/-- A digest is in lower case. -/
lemma hexdigest_lower (b : Bytes) : ∀ c ∈ hexdigest b, isDigit c ∨ (97 ≤ c ∧ c < 103) := by
  intro c m
  obtain ⟨w, _, m⟩ := List.mem_flatMap.1 m
  obtain ⟨i, _, rfl⟩ := List.mem_map.1 m
  exact hexDigit_lower _ (Nat.mod_lt _ (by decide))

/-- A round keeps eight words. -/
lemma round_length {h : List UInt32} (eight : h.length = 8) (kw : UInt32 × UInt32) :
    (round h kw).length = 8 := by
  unfold round
  split
  · rfl
  · exact eight

/-- A block keeps eight words. -/
lemma compress_length {h : List UInt32} (eight : h.length = 8) (block : List UInt32) :
    (compress h block).length = 8 := by
  have rounds : ∀ (kws : List (UInt32 × UInt32)) {h : List UInt32}, h.length = 8 →
      (kws.foldl round h).length = 8 := by
    intro kws
    induction kws with
    | nil => exact fun eight => eight
    | cons kw kws ih => exact fun eight => ih (round_length eight kw)
  rw [compress, List.length_zipWith, eight, rounds _ eight]
  rfl

/-- Any number of blocks keep eight words. -/
lemma blocks_length (n : Nat) {h : List UInt32} (eight : h.length = 8) (ws : List UInt32) :
    (blocks n h ws).length = 8 := by
  induction n generalizing h ws with
  | zero => exact eight
  | succ n ih => exact ih (compress_length eight _) _

/-- A digest has 64 letters. -/
lemma hexdigest_length (b : Bytes) : (hexdigest b).length = 64 := by
  rw [hexdigest, List.length_flatMap]
  simp only [List.length_map, List.length_reverse, List.length_range, List.map_const',
    List.sum_replicate_nat]
  rw [blocks_length _ rfl]

end Sha256

/-- Real SHA-256, and zero as the only float. -/
@[reducible] def reference : Interpreter where
  Float := Unit
  view _ := .finite 0
  ofInt _ := some ()
  add _ _ := ()
  mul _ _ := ()
  neg _ := ()
  repr _ := str "0.0"
  ofLit _ := ()
  repr_text _ _ _ := ⟨[48], [46, 48], [], rfl, ⟨[], [48], rfl, .inl rfl, .inl rfl⟩,
    .inr ⟨[48], rfl, by simp, by decide⟩, .inl rfl, .inl (by simp)⟩
  ofLit_repr _ _ _ := rfl
  sha256 := Sha256.hexdigest
  sha256_hex := Sha256.hexdigest_lower
  recursionLimit := 1000
  recursionLimit_ge := by decide

end DbLab.Py
