import DbLab.Py.Json

/-!
# Reading back strings and numbers

The reader's scanners on what the writer puts down for a string, an integer and a finite float, when
a separator or the end of the text follows.
-/

namespace DbLab.Py

/-- What may follow a value: a comma, a closing bracket or brace, or nothing. -/
def Delimited (r : Str) : Prop := ∀ c, r.head? = some c → c = 44 ∨ c = 93 ∨ c = 125

/-- A comma or a bracket ends a number. -/
lemma delimited_cons {c : Nat} {r : Str} (h : c = 44 ∨ c = 93 ∨ c = 125) : Delimited (c :: r) := by
  rintro _ ⟨⟩
  exact h

/-- The end of the text ends a number. -/
lemma delimited_nil : Delimited [] := nofun

/-! ### Strings -/

/-- Four digits of a control character. -/
lemma hex4_control : ∀ c < 32, hex4 48 48 (hexDigit (c / 16)) (hexDigit (c % 16)) = some c := by
  decide

/-- A short escape. -/
lemma scanUnits_short {e u : Nat} (h : unescape e = some u) (ne : e ≠ 117) (r : Str) :
    scanUnits (92 :: e :: r) = (scanUnits r).map fun p => ((u, false) :: p.1, p.2) := by
  rw [scanUnits.eq_def]
  simp [ne, h]

/-- The reader takes one written character at a time; a `\u` escape stands for a control
character. -/
lemma scanUnits_escapeChar (c : Nat) (r : Str) :
    ∃ esc : Bool, (esc = true → c < 32) ∧
      scanUnits (escapeChar c ++ r) = (scanUnits r).map fun p => ((c, esc) :: p.1, p.2) := by
  by_cases plain : c = 34 ∨ c = 92 ∨ c < 32
  · by_cases named : c = 34 ∨ c = 92 ∨ c = 10 ∨ c = 13 ∨ c = 9 ∨ c = 12 ∨ c = 8
    · refine ⟨false, nofun, ?_⟩
      rcases named with rfl | rfl | rfl | rfl | rfl | rfl | rfl <;>
        exact scanUnits_short rfl (by decide) r
    · have lt : c < 32 := by omega
      refine ⟨true, fun _ => lt, ?_⟩
      have text : escapeChar c = [92, 117, 48, 48, hexDigit (c / 16), hexDigit (c % 16)] := by
        rw [not_or, not_or, not_or, not_or, not_or, not_or] at named
        obtain ⟨h1, h2, h3, h4, h5, h6, h7⟩ := named
        rw [escapeChar, if_neg h1, if_neg h2, if_neg h3, if_neg h4, if_neg h5, if_neg h6,
          if_neg h7, if_pos lt]
        rfl
      rw [text, List.cons_append, scanUnits.eq_def]
      simp [hex4_control c lt]
  · rw [not_or, not_or] at plain
    obtain ⟨quote, backslash, control⟩ := plain
    refine ⟨false, nofun, ?_⟩
    have text : escapeChar c = [c] := by
      rw [escapeChar, if_neg quote, if_neg backslash, if_neg (by omega), if_neg (by omega),
        if_neg (by omega), if_neg (by omega), if_neg (by omega), if_neg control]
    rw [text, List.singleton_append, scanUnits.eq_def]
    simp [quote, backslash, control]

/-- A quoted text reads as its characters. -/
lemma scanUnits_quote (s r : Str) :
    ∃ us : List (Nat × Bool), us.map Prod.fst = s ∧ (∀ u ∈ us, u.2 = true → u.1 < 32) ∧
      scanUnits (s.flatMap escapeChar ++ 34 :: r) = some (us, r) := by
  induction s with
  | nil => exact ⟨[], rfl, nofun, by simp [scanUnits.eq_def]⟩
  | cons c s ih =>
    obtain ⟨us, chars, control, run⟩ := ih
    obtain ⟨esc, lt, step⟩ := scanUnits_escapeChar c (s.flatMap escapeChar ++ 34 :: r)
    refine ⟨(c, esc) :: us, by rw [List.map_cons, chars], ?_, ?_⟩
    · intro u m
      cases m with
      | head => exact lt
      | tail _ m => exact control u m
    · rw [List.flatMap_cons, List.append_assoc, step, run]
      rfl

/-- Control characters are no surrogates, so nothing is joined. -/
lemma joinUnits_control {us : List (Nat × Bool)} (h : ∀ u ∈ us, u.2 = true → u.1 < 32) :
    joinUnits us = us.map Prod.fst := by
  induction us with
  | nil => rfl
  | cons u us ih =>
    have rest := ih fun v m => h v (List.mem_cons_of_mem _ m)
    obtain ⟨c, esc⟩ := u
    cases us with
    | nil => rfl
    | cons v us =>
      obtain ⟨l, esc'⟩ := v
      rw [joinUnits, if_neg, rest]
      · rfl
      · have lt := h (c, esc) List.mem_cons_self
        simp only [Bool.and_eq_true, decide_eq_true_eq]
        intro pair
        have := lt pair.1.1.1.1.1
        omega

/-- A written string is read back. -/
theorem scanString_quote (s r : Str) :
    scanString (s.flatMap escapeChar ++ 34 :: r) = some (s, r) := by
  obtain ⟨us, chars, control, run⟩ := scanUnits_quote s r
  rw [scanString, run, Option.map_some, joinUnits_control control, chars]

/-! ### Digits -/

/-- The digits are 0 to 9. -/
lemma isDigit_iff {c : Nat} : isDigit c = true ↔ 48 ≤ c ∧ c < 58 := by simp [isDigit]

/-- A number is written in digits. -/
lemma digitChars_isDigit (n : Nat) : ∀ c ∈ digitChars n, isDigit c = true := by
  intro c m
  rw [digitChars] at m
  split at m
  · cases m with
    | head => rfl
    | tail _ m => cases m
  · obtain ⟨d, md, rfl⟩ := List.mem_map.1 m
    have lt := Nat.digits_lt_base (by omega : 1 < 10) (List.mem_reverse.1 md)
    rw [isDigit_iff]
    omega

/-- The digits of a number have no leading zero. -/
lemma digitChars_head (n : Nat) :
    digitChars n = [48] ∨ ∃ d r, digitChars n = d :: r ∧ d ≠ 48 ∧ isDigit d = true ∧ ∀ c ∈ r,
      isDigit c = true := by
  have all := digitChars_isDigit n
  by_cases zero : n = 0
  · exact .inl (by rw [digitChars, if_pos zero])
  · right
    have ne : Nat.digits 10 n ≠ [] := Nat.digits_ne_nil_iff_ne_zero.2 zero
    have last := Nat.getLast_digit_ne_zero 10 zero
    have text : digitChars n = (48 + (Nat.digits 10 n).getLast ne) ::
        ((Nat.digits 10 n).dropLast.reverse.map (48 + ·)) := by
      rw [digitChars, if_neg zero]
      conv_lhs => rw [← List.dropLast_append_getLast ne]
      rw [List.reverse_append, List.map_append]
      rfl
    rw [text] at all
    exact ⟨_, _, text,
      by omega, all _ List.mem_cons_self, fun c m => all c (List.mem_cons_of_mem _ m)⟩

/-- The digits of a number give it back. -/
lemma digitChars_value (n : Nat) :
    (digitChars n).foldl (fun a c => a * 10 + ((c - 48 : Nat) : Int)) 0 = n := by
  by_cases zero : n = 0
  · rw [digitChars, if_pos zero, zero]
    rfl
  · have value : ∀ ds : List Nat,
        (ds.reverse.map (48 + ·)).foldl (fun a c => a * 10 + ((c - 48 : Nat) : Int)) 0 =
          (Nat.ofDigits 10 ds : Nat) := by
      intro ds
      induction ds with
      | nil => rfl
      | cons d ds ih =>
        rw [List.reverse_cons, List.map_append, List.foldl_append, ih, Nat.ofDigits_cons]
        simp
        omega
    rw [digitChars, if_neg zero, value, Nat.ofDigits_digits]

/-- A number has no more digits than any power of ten above it. -/
lemma digitChars_length {n k : Nat} (h : n < 10 ^ k) (pos : 0 < k) : (digitChars n).length ≤ k := by
  rw [digitChars]
  split
  · exact pos
  · rw [List.length_map, List.length_reverse]
    exact (Nat.digits_length_le_iff (by decide) n).2 h

/-- A run of digits stops at what is none. -/
lemma takeWhile_digits {ds r : Str} (h : ∀ c ∈ ds, isDigit c = true)
    (hr : ∀ c, r.head? = some c → isDigit c = false) :
    (ds ++ r).takeWhile isDigit = ds ∧ (ds ++ r).dropWhile isDigit = r := by
  rw [List.takeWhile_append_of_pos h, List.dropWhile_append_of_pos h]
  cases r with
  | nil => simp
  | cons c r => simp [hr c rfl]

/-- What ends a number is no digit. -/
lemma Delimited.not_digit {r : Str} (h : Delimited r) :
    ∀ c, r.head? = some c → isDigit c = false := by
  intro c head
  rcases h c head with rfl | rfl | rfl <;> rfl

/-! ### Numbers -/

/-- The integer part is scanned up to what follows. -/
lemma scanInt_part {i r : Str} (h : IntPart i) (hr : ∀ c, r.head? = some c → isDigit c = false) :
    scanInt (i ++ r) = some (i, r) := by
  obtain ⟨sign, ds, rfl, hs, hd⟩ := h
  have signed : (if (sign ++ ds ++ r).head? = some 45 then ([45], (sign ++ ds ++ r).tail)
    else ([], sign ++ ds ++ r)) =
      (sign, ds ++ r) := by
    rcases hs with rfl | rfl
    · have head : (ds ++ r).head? ≠ some 45 := by
        rcases hd with rfl | ⟨d, ds', rfl, nz, digit, digits⟩
        · simp
        · rw [isDigit_iff] at digit
          simp
          omega
      rw [List.nil_append, if_neg head]
    · rfl
  rw [scanInt, signed]
  rcases hd with rfl | ⟨d, ds', rfl, nz, digit, digits⟩
  · rfl
  · obtain ⟨take, drop⟩ := takeWhile_digits digits hr
    simp [nz, digit, take, drop]

/-- The first character of a number. -/
lemma intPart_head {i : Str} (h : IntPart i) :
    ∃ c r, i = c :: r ∧ (isDigit c = true ∨ c = 45 ∧ ∃ d r', r = d :: r' ∧ isDigit d = true) := by
  obtain ⟨sign, ds, rfl, hs, hd⟩ := h
  have first : ∃ d r', ds = d :: r' ∧ isDigit d = true := by
    rcases hd with rfl | ⟨d, ds', rfl, _, digit, _⟩
    · exact ⟨48, [], rfl, rfl⟩
    · exact ⟨d, ds', rfl, digit⟩
  obtain ⟨d, r', rfl, digit⟩ := first
  rcases hs with rfl | rfl
  · exact ⟨d, r', rfl, .inl digit⟩
  · exact ⟨45, d :: r', rfl, .inr ⟨rfl, d, r', rfl, digit⟩⟩

/-- A fraction is read. -/
lemma scanFrac_part {f r : Str} (h : FracPart f)
    (hr : ∀ c, r.head? = some c → isDigit c = false ∧ c ≠ 46) : scanFrac (f ++ r) = (f, r) := by
  rcases h with rfl | ⟨ds, rfl, ne, digits⟩
  · cases r with
    | nil => rfl
    | cons c r => simp [scanFrac, (hr c rfl).2]
  · obtain ⟨take, drop⟩ := takeWhile_digits digits fun c head => (hr c head).1
    simp [scanFrac, take, drop, ne]

/-- An exponent is read. -/
lemma scanExp_part {e r : Str} (h : ExpPart e) (hr : Delimited r) : scanExp (e ++ r) = (e, r) := by
  rcases h with rfl | ⟨c, sign, ds, rfl, hc, hs, ne, digits⟩
  · cases r with
    | nil => rfl
    | cons c r =>
      have : ¬ (c = 101 ∨ c = 69) := by
        have := hr c rfl
        omega
      simp [scanExp, this]
  · obtain ⟨take, drop⟩ := takeWhile_digits digits hr.not_digit
    rcases hs with rfl | rfl | rfl
    · obtain ⟨d, ds', rfl⟩ := List.exists_cons_of_ne_nil ne
      have digit := isDigit_iff.1 (digits d List.mem_cons_self)
      have plus : d ≠ 43 := by omega
      have minus : d ≠ 45 := by omega
      simp only [List.cons_append] at take drop
      simp [scanExp, plus, minus, hc, take, drop]
    · simp [scanExp, hc, take, drop, ne]
    · simp [scanExp, hc, take, drop, ne]

/-- An integer's text is read as it. -/
lemma intText {n : Int} {t : Str} (h : intRepr n = .ok t) :
    IntPart t ∧ intOf t = .ok n := by
  rw [intRepr] at h
  split at h
  · cases h
  · next len =>
    rw [Except.ok.injEq] at h
    have value := digitChars_value n.natAbs
    by_cases neg : n < 0
    · rw [if_pos neg] at h
      subst h
      refine ⟨⟨[45], _, rfl, .inr rfl, digitChars_head _⟩, ?_⟩
      simp only [intOf, List.head?_cons, if_pos, List.tail_cons, if_neg len, value]
      rw [Except.ok.injEq]
      omega
    · rw [if_neg neg] at h
      subst h
      refine ⟨⟨[], _, rfl, .inl rfl, digitChars_head _⟩, ?_⟩
      have head : (digitChars n.natAbs).head? ≠ some 45 := by
        rcases digitChars_head n.natAbs with h | ⟨d, r, h, _, digit, _⟩
        · rw [h]
          simp
        · rw [isDigit_iff] at digit
          rw [h, List.head?_cons, ne_eq, Option.some_inj]
          omega
      simp only [intOf, if_neg head, if_neg len, value]
      rw [Except.ok.injEq]
      omega

variable [Interpreter]

/-- A written integer is read back. -/
theorem scanNumber_int {n : Int} {t r : Str} (h : intRepr n = .ok t) (hr : Delimited r) :
    scanNumber (t ++ r) = .ok (.int n, r) := by
  obtain ⟨part, value⟩ := intText h
  have frac : scanFrac r = ([], r) := scanFrac_part (.inl rfl) fun c head =>
    ⟨hr.not_digit c head, by have := hr c head; omega⟩
  have exp : scanExp r = ([], r) := scanExp_part (.inl rfl) hr
  rw [scanNumber, scanInt_part part hr.not_digit]
  simp only [frac, exp, and_self, if_true, value]
  rfl

/-- A written float is read back. -/
theorem scanNumber_float {x : Interpreter.Float} {q : Rat} {r : Str}
    (h : Interpreter.view x = .finite q)
    (hr : Delimited r) : scanNumber (Interpreter.repr x ++ r) = .ok (.float x, r) := by
  obtain ⟨i, f, e, text, int, frac, exp, some⟩ := Interpreter.repr_text x q h
  have behindFrac : ∀ c, (e ++ r).head? = .some c → isDigit c = false ∧ c ≠ 46 := by
    rcases exp with rfl | ⟨c, sign, ds, rfl, hc, _⟩
    · exact fun c head => ⟨hr.not_digit c head, by have := hr c head; omega⟩
    · rintro _ ⟨⟩
      rcases hc with rfl | rfl <;> decide
  have behindInt : ∀ c, (f ++ (e ++ r)).head? = .some c → isDigit c = false := by
    rcases frac with rfl | ⟨ds, rfl, _⟩
    · exact fun c head => (behindFrac c head).1
    · rintro _ ⟨⟩
      rfl
  have literal := Interpreter.ofLit_repr x q h
  rw [text] at literal ⊢
  rw [List.append_assoc, List.append_assoc, scanNumber, scanInt_part int behindInt]
  simp only [scanFrac_part frac behindFrac, scanExp_part exp hr]
  have not_int : ¬ (f = [] ∧ e = []) := by
    rintro ⟨rfl, rfl⟩
    simp at some
  rw [if_neg not_int, List.append_assoc, literal]

end DbLab.Py
