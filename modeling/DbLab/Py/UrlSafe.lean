import DbLab.Py.Base64
import DbLab.Py.Exec
import DbLab.Py.Raises

/-!
# URL-safe base64

`base64.urlsafe_b64encode` without its padding, and `base64.urlsafe_b64decode` behind padding to a
multiple of four.
-/

namespace DbLab.Py

/-- The characters `+` and `/` give way to `-` and `_`. -/
def urlsafe (c : Nat) : Nat := if c = 43 then 45 else if c = 47 then 95 else c

def standard (c : Nat) : Nat := if c = 45 then 43 else if c = 95 then 47 else c

/-- `[A-Za-z0-9_-]` -/
def urlsafeChar (c : Nat) : Bool :=
  (65 ≤ c && c < 91) || (97 ≤ c && c < 123) || (48 ≤ c && c < 58) || c = 95 || c = 45

/-- `s.rstrip("=")` -/
def rstripPadding (s : Str) : Str := (s.reverse.dropWhile (· = 61)).reverse

/-- `base64.urlsafe_b64encode(b).decode()` -/
def urlsafeB64encode (b : Bytes) : Str := (b64encode b).map urlsafe

/-- `base64.urlsafe_b64decode(s)`, for a text of `[A-Za-z0-9_-]` and padding: the decoder passes
over no character. -/
def urlsafeB64decode (s : Str) : Except Exn Bytes := b64decode (s.map standard)

/-- `s + "=" * (-len(s) % 4)` -/
def padded (s : Str) : Str := s ++ List.replicate ((4 - s.length % 4) % 4) 61

/-- The characters of six bits. -/
def base64Alphabet (c : Nat) : Prop := ∃ n < 64, c = base64Char n

/-- A letter is in the alphabet. -/
lemma base64Char_mem {n : Nat} (h : n < 64) : base64Alphabet (base64Char n) := ⟨n, h, rfl⟩

/-- The safe form of a letter is a safe letter. -/
lemma base64Alphabet.urlsafeChar {c : Nat} (h : base64Alphabet c) :
    Py.urlsafeChar (urlsafe c) = true := by
  obtain ⟨n, small, rfl⟩ := h
  have all : ∀ n < 64, Py.urlsafeChar (urlsafe (base64Char n)) = true := by decide
  exact all n small

/-- The safe form of a letter reads back. -/
lemma base64Alphabet.standard {c : Nat} (h : base64Alphabet c) : Py.standard (urlsafe c) = c := by
  obtain ⟨n, small, rfl⟩ := h
  have all : ∀ n < 64, Py.standard (urlsafe (base64Char n)) = base64Char n := by decide
  exact all n small

/-- A safe letter is no padding. -/
lemma urlsafeChar_ne {c : Nat} (h : urlsafeChar c = true) : c ≠ 61 := by
  intro e
  subst e
  cases h

/-- Encoded bytes are characters of six bits and less than three signs of padding, a multiple of
four together. -/
lemma b64encode_shape (b : Bytes) : ∃ core k, b64encode b = core ++ List.replicate k 61 ∧
    (∀ c ∈ core, base64Alphabet c) ∧ k < 3 ∧ core.length + k = 4 * ((b.length + 2) / 3) := by
  induction b using b64encode.induct with
  | case1 => exact ⟨[], 0, rfl, List.forall_mem_nil _, by decide, rfl⟩
  | case2 x =>
    have hx := x.toNat_lt
    refine ⟨[base64Char (x.toNat / 4), base64Char (x.toNat % 4 * 16)], 2, rfl, ?_,
      by decide, by simp⟩
    intro c m
    simp only [List.mem_cons, List.not_mem_nil, or_false] at m
    rcases m with rfl | rfl
    · exact base64Char_mem (by omega)
    · exact base64Char_mem (by omega)
  | case3 x y =>
    have hx := x.toNat_lt
    have hy := y.toNat_lt
    refine ⟨[base64Char (x.toNat / 4), base64Char (x.toNat % 4 * 16 + y.toNat / 16),
      base64Char (y.toNat % 16 * 4)], 1, rfl, ?_, by decide, by simp⟩
    intro c m
    simp only [List.mem_cons, List.not_mem_nil, or_false] at m
    rcases m with rfl | rfl | rfl
    · exact base64Char_mem (by omega)
    · exact base64Char_mem (by omega)
    · exact base64Char_mem (by omega)
  | case4 x y z r ih =>
    have hx := x.toNat_lt
    have hy := y.toNat_lt
    have hz := z.toNat_lt
    obtain ⟨core, k, e, chars, small, length⟩ := ih
    refine ⟨base64Char (x.toNat / 4) :: base64Char (x.toNat % 4 * 16 + y.toNat / 16) ::
      base64Char (y.toNat % 16 * 4 + z.toNat / 64) :: base64Char (z.toNat % 64) :: core, k, ?_,
      ?_, small, ?_⟩
    · rw [b64encode, e]
      rfl
    · intro c m
      simp only [List.mem_cons] at m
      rcases m with rfl | rfl | rfl | rfl | m
      · exact base64Char_mem (by omega)
      · exact base64Char_mem (by omega)
      · exact base64Char_mem (by omega)
      · exact base64Char_mem (by omega)
      · exact chars c m
    · simp only [List.length_cons]
      omega

/-- Padding is stripped. -/
lemma rstripPadding_append {s : Str} (plain : ∀ c ∈ s, c ≠ 61) (k : Nat) :
    rstripPadding (s ++ List.replicate k 61) = s := by
  have back : ∀ k (t : Str), (List.replicate k 61 ++ t).dropWhile (· = 61) =
      t.dropWhile (· = 61) := by
    intro k t
    induction k with
    | zero => rfl
    | succ k ih =>
      rw [List.replicate_succ, List.cons_append, List.dropWhile_cons_of_pos (by simp), ih]
  rw [rstripPadding, List.reverse_append, List.reverse_replicate, back]
  cases e : s.reverse with
  | nil => exact (List.reverse_eq_nil_iff.1 e).symm
  | cons c r =>
    have ne : c ≠ 61 := plain c (List.mem_reverse.1 (e ▸ List.mem_cons_self))
    rw [List.dropWhile_cons_of_neg (by simpa using ne), ← e, List.reverse_reverse]

/-- What is left of encoded bytes without padding: it is of the URL-safe characters, no longer than
the whole, and decodes to the bytes once it is padded again. -/
theorem urlsafe_round_trip (b : Bytes) :
    (∀ c ∈ rstripPadding (urlsafeB64encode b), urlsafeChar c = true) ∧
    (rstripPadding (urlsafeB64encode b)).length ≤ 4 * ((b.length + 2) / 3) ∧ urlsafeB64decode
    (padded (rstripPadding (urlsafeB64encode b))) = .ok b := by
  obtain ⟨core, k, shape, chars, small, length⟩ := b64encode_shape b
  have safe : ∀ c ∈ core.map urlsafe, urlsafeChar c = true := by
    intro c m
    obtain ⟨c', m', rfl⟩ := List.mem_map.1 m
    exact (chars c' m').urlsafeChar
  have text : urlsafeB64encode b = core.map urlsafe ++ List.replicate k 61 := by
    rw [urlsafeB64encode, shape, List.map_append, List.map_replicate]
    rfl
  have stripped : rstripPadding (urlsafeB64encode b) = core.map urlsafe := by
    rw [text, rstripPadding_append fun c m => urlsafeChar_ne (safe c m)]
  rw [stripped]
  refine ⟨safe, by rw [List.length_map]; omega, ?_⟩
  have missing : (4 - (core.map urlsafe).length % 4) % 4 = k := by
    rw [List.length_map]
    omega
  have back : (core.map urlsafe).map standard = core := by
    rw [List.map_map]
    exact (List.map_congr_left fun c m => (chars c m).standard).trans (List.map_id core)
  rw [urlsafeB64decode, padded, missing, List.map_append, List.map_replicate, back]
  have sign : standard 61 = 61 := rfl
  rw [sign, ← shape]
  exact b64decode_encode b

/-- Four characters make three bytes at most. -/
lemma b64decode_length {s : Str} {b : Bytes} (h : b64decode s = .ok b) :
    4 * b.length ≤ 3 * s.length := by
  fun_induction b64decode s generalizing b with
  | case6 =>
    rename_i ih
    obtain ⟨b', run, h⟩ := bind_ok.1 h
    cases h
    have := ih run
    simp only [List.length_cons]
    omega
  | case1 | case2 | case4 =>
    cases h
    simp
  | _ => cases h

/-- Decoding only raises value errors. -/
lemma b64decode_only (s : Str) : Only (fun e => e.isValueError = true) (b64decode s) := by
  fun_induction b64decode s with
  | case6 =>
    rename_i ih
    exact ih.bind fun _ _ => .ok _
  | case1 | case2 | case4 => exact .ok _
  | _ => exact .error rfl

/-- Three bytes for four letters. -/
lemma urlsafeB64decode_length {s : Str} {b : Bytes} (h : urlsafeB64decode s = .ok b) :
    4 * b.length ≤ 3 * s.length := by
  have length := b64decode_length h
  rwa [List.length_map] at length

/-- Decoding the safe form only raises value errors. -/
lemma urlsafeB64decode_only (s : Str) :
    Only (fun e => e.isValueError = true) (urlsafeB64decode s) := b64decode_only _

/-- Padding goes to the next multiple of four. -/
lemma padded_length (s : Str) : (padded s).length = (s.length + 3) / 4 * 4 := by
  rw [padded, List.length_append, List.length_replicate]
  omega

end DbLab.Py
