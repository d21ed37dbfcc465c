import DbLab.Py.Canonical

/-!
# The literals of a JSON text

The strings and the fractional numbers that a text spells, found without parsing it, and that the
values read off a text are legible exactly if these are.
-/

namespace DbLab.Py

/-- A string of a text, or a number with a fraction or an exponent. -/
inductive Literal where
  | text (s : Str)
  | float (s : Str)
deriving DecidableEq

/-- A number as `scanNumber` takes it apart: its integer part, the rest of it, and what stands
behind it. -/
def scanDecimal (s : Str) : Option (Str × Str × Str) :=
  (scanInt s).map fun (int, r) =>
    let (frac, r) := scanFrac r
    let (exp, r) := scanExp r
    (int, frac ++ exp, r)

/-- The literals behind the next `skip` characters. -/
def literals : Nat → Str → List Literal
  | _, [] => []
  | skip + 1, _ :: r => literals skip r
  | 0, c :: r =>
    if c = 34 then match scanString r with
      | some (s, rest) => .text s :: literals (r.length - rest.length) r
      | none => literals 0 r
    else match scanDecimal (c :: r) with
      | some (int, tail, rest) =>
        if tail = [] then literals (r.length - rest.length) r
        else .float (int ++ tail) :: literals (r.length - rest.length) r
      | none => literals 0 r

/-! ### What the scanners leave is the end of the text -/

/-- The scanner stops behind a quote or goes on further down the text. -/
lemma scanUnits_step {c : Nat} {s rest : Str} {us : List (Nat × Bool)}
    (h : scanUnits (c :: s) = some (us, rest)) :
    rest = s ∨ ∃ r us', r <:+ s ∧ scanUnits r = some (us', rest) := by
  have more : ∀ {r : Str} {u : Nat × Bool}, ((scanUnits r).map fun p => (u :: p.1, p.2)) =
    some (us, rest) →
      ∃ us', scanUnits r = some (us', rest) := by
    intro r u h
    obtain ⟨⟨us', rest'⟩, run, e⟩ := Option.map_eq_some_iff.1 h
    cases e
    exact ⟨us', run⟩
  rw [scanUnits.eq_def] at h
  simp only at h
  split_ifs at h
  · cases h
    exact .inl rfl
  · obtain ⟨us', run⟩ := more h
    exact .inr ⟨s, us', List.suffix_rfl, run⟩
  · split at h
    · cases h
    · rename_i e r
      split_ifs at h
      · split at h
        · split at h
          · obtain ⟨us', run⟩ := more h
            refine .inr ⟨_, us', ?_, run⟩
            exact List.suffix_append [_, _, _, _, _] _
          · cases h
        · cases h
      · split at h
        · obtain ⟨us', run⟩ := more h
          exact .inr ⟨_, us', List.suffix_cons _ _, run⟩
        · cases h

/-- What is left after the units of a string is a suffix. -/
lemma scanUnits_suffix {s rest : Str} {us : List (Nat × Bool)} (h : scanUnits s = some (us, rest)) :
    rest <:+ s := by
  induction n : s.length using Nat.strong_induction_on generalizing s us with
  | _ n ih =>
    cases s with
    | nil =>
      rw [scanUnits.eq_def] at h
      cases h
    | cons c s =>
      rcases scanUnits_step h with rfl | ⟨r, us', shorter, run⟩
      · exact List.suffix_cons _ _
      · have := shorter.length_le
        have inner := ih r.length (by rw [← n, List.length_cons]; omega) run rfl
        exact (inner.trans shorter).trans (List.suffix_cons _ _)

/-- What is left after a string is a suffix. -/
lemma scanString_suffix {s t rest : Str} (h : scanString s = some (t, rest)) : rest <:+ s := by
  obtain ⟨⟨us, rest'⟩, run, e⟩ := Option.map_eq_some_iff.1 h
  cases e
  exact scanUnits_suffix run

/-- A number reads at least one character. -/
lemma scanInt_suffix {c : Nat} {s int rest : Str} (h : scanInt (c :: s) = some (int, rest)) :
    rest <:+ s := by
  unfold scanInt at h
  simp only [List.head?_cons, Option.some.injEq, List.tail_cons] at h
  split_ifs at h with minus
  · cases s with
    | nil => cases h
    | cons d s =>
      simp only at h
      split_ifs at h
      · cases h
        exact List.suffix_cons _ _
      · cases h
        exact (List.dropWhile_suffix _).trans (List.suffix_cons _ _)
  · simp only at h
    split_ifs at h
    · obtain ⟨_, rfl⟩ := Prod.ext_iff.1 (Option.some.inj h)
      exact List.suffix_rfl
    · obtain ⟨_, rfl⟩ := Prod.ext_iff.1 (Option.some.inj h)
      exact List.dropWhile_suffix _

/-- What is left after a fraction is a suffix. -/
lemma scanFrac_suffix (s : Str) : (scanFrac s).2 <:+ s := by
  cases s with
  | nil => exact List.suffix_rfl
  | cons c s =>
    rw [scanFrac]
    split
    · exact (List.dropWhile_suffix _).trans (List.suffix_cons _ _)
    · exact List.suffix_rfl

/-- What is left after an exponent is a suffix. -/
lemma scanExp_suffix (s : Str) : (scanExp s).2 <:+ s := by
  cases s with
  | nil => exact List.suffix_rfl
  | cons c s =>
    have tail : s.tail <:+ c :: s := (List.tail_suffix s).trans (List.suffix_cons _ _)
    by_cases signed : s.head? = some 43 ∨ s.head? = some 45
    · simp only [scanExp, if_pos signed]
      split
      · exact (List.dropWhile_suffix _).trans tail
      · exact List.suffix_rfl
    · simp only [scanExp, if_neg signed]
      split
      · exact (List.dropWhile_suffix _).trans (List.suffix_cons _ _)
      · exact List.suffix_rfl

/-- What is left after a number is a suffix. -/
lemma scanDecimal_suffix {c : Nat} {s int tail rest : Str}
    (h : scanDecimal (c :: s) = some (int, tail, rest)) :
    rest <:+ s := by
  obtain ⟨⟨int', r⟩, run, e⟩ := Option.map_eq_some_iff.1 h
  cases e
  exact ((scanExp_suffix _).trans (scanFrac_suffix _)).trans (scanInt_suffix run)

/-- Skipping what lies in front of a suffix. -/
lemma literals_suffix {s rest : Str} (h : rest <:+ s) :
    literals (s.length - rest.length) s = literals 0 rest := by
  obtain ⟨front, rfl⟩ := h
  rw [List.length_append, Nat.add_sub_cancel]
  induction front with
  | nil => rfl
  | cons c front ih =>
    rw [List.length_cons, List.cons_append, literals]
    exact ih

/-! ### Integers -/

/-- What is read as an integer part is one. -/
lemma scanInt_intPart {s int rest : Str} (h : scanInt s = some (int, rest)) : IntPart int := by
  have signed : ∃ sign t : Str, (sign = [] ∨ sign = [45]) ∧
      (if s.head? = some 45 then ([45], s.tail) else ([], s)) = (sign, t) := by
    split_ifs
    · exact ⟨_, _, .inr rfl, rfl⟩
    · exact ⟨_, _, .inl rfl, rfl⟩
  obtain ⟨sign, t, hs, split⟩ := signed
  rw [scanInt, split] at h
  simp only at h
  cases t with
  | nil => cases h
  | cons c r =>
    simp only at h
    split_ifs at h with zero digit
    · obtain ⟨rfl, _⟩ := Prod.ext_iff.1 (Option.some.inj h)
      exact ⟨sign, [48], rfl, hs, .inl rfl⟩
    · obtain ⟨rfl, _⟩ := Prod.ext_iff.1 (Option.some.inj h)
      exact ⟨sign, _, rfl, hs, .inr ⟨c, _, rfl, zero, digit, List.all_eq_true.1 List.all_takeWhile⟩⟩

/-- Digits stand for a number below a power of ten. -/
lemma digits_lt {ds : Str} (h : ∀ c ∈ ds, isDigit c = true) (a : Nat) :
    ∃ n : Nat, ds.foldl (fun a c => a * 10 + ((c - 48 : Nat) : Int)) (a : Int) = n ∧
      n < (a + 1) * 10 ^ ds.length := by
  induction ds generalizing a with
  | nil => exact ⟨a, rfl, by simp⟩
  | cons c ds ih =>
    have digit := isDigit_iff.1 (h c List.mem_cons_self)
    obtain ⟨n, value, lt⟩ := ih (fun c m => h c (List.mem_cons_of_mem _ m)) (a * 10 + (c - 48))
    refine ⟨n, ?_, lt.trans_le ?_⟩
    · rw [List.foldl_cons, ← value]
      push_cast
      rfl
    · rw [List.length_cons, pow_succ', ← Nat.mul_assoc]
      exact Nat.mul_le_mul_right _ (by omega)

/-- An integer that was read can be written. -/
lemma intOf_digits {t : Str} {n : Int} (part : IntPart t) (h : intOf t = .ok n) :
    (digitChars n.natAbs).length ≤ maxStrDigits := by
  obtain ⟨sign, ds, rfl, hs, hd⟩ := part
  have digits : ∀ c ∈ ds, isDigit c = true := by
    rcases hd with rfl | ⟨d, r, rfl, _, digit, rest⟩
    · decide
    · exact List.forall_mem_cons.2 ⟨digit, rest⟩
  have nonempty : 0 < ds.length := by
    rcases hd with rfl | ⟨d, r, rfl, _⟩
    · exact Nat.one_pos
    · exact Nat.succ_pos _
  obtain ⟨m, value, lt⟩ := digits_lt digits 0
  have unsigned : ds.head? ≠ some 45 := by
    intro head
    cases digits 45 (List.mem_of_head? head)
  have body : (if (sign ++ ds).head? = some 45 then (sign ++ ds).tail else sign ++ ds) = ds := by
    rcases hs with rfl | rfl
    · rw [List.nil_append, if_neg unsigned]
    · rfl
  rw [intOf, body] at h
  split at h
  · cases h
  · rename_i short
    have abs : n.natAbs = m := by
      simp only [Nat.cast_zero] at value
      rw [value, Except.ok.injEq] at h
      rw [← h]
      split <;> simp
    rw [abs]
    exact (digitChars_length (by simpa using lt) nonempty).trans (Nat.not_lt.1 short)

/-! ### What a part of a text spells -/

/-- Characters that neither begin a string nor a number. -/
def plainChar (c : Nat) : Bool := c ≠ 34 && c ≠ 45 && !isDigit c

/-- A plain character starts no number. -/
lemma scanDecimal_plain {c : Nat} (h : plainChar c = true) (s : Str) :
    scanDecimal (c :: s) = none := by
  simp only [plainChar, Bool.and_eq_true, decide_eq_true_eq, Bool.not_eq_true'] at h
  obtain ⟨⟨_, minus⟩, digit⟩ := h
  have zero : c ≠ 48 := by
    rintro rfl
    cases digit
  simp [scanDecimal, scanInt, minus, digit, zero]

variable [Interpreter]

/-- A literal that can be written again. -/
def Literal.Fine : Literal → Prop
  | text s => ∀ c ∈ s, Scalar c
  | float s => ∃ q, Interpreter.view (Interpreter.ofLit s) = .finite q

/-- The literals of `s` in front of `rest` are fine exactly if `good`. -/
def Covered (s rest : Str) (good : Prop) : Prop :=
  ∃ ls, literals 0 s = ls ++ literals 0 rest ∧ ((∀ l ∈ ls, l.Fine) ↔ good)

/-- Nothing is read. -/
lemma Covered.refl (s : Str) : Covered s s True := ⟨[], rfl, by simp⟩

/-- One part after the other. -/
lemma Covered.trans {s r t : Str} {p q : Prop} (first : Covered s r p) (second : Covered r t q) :
    Covered s t (p ∧ q) := by
  obtain ⟨ls, e, iff⟩ := first
  obtain ⟨ls', e', iff'⟩ := second
  refine ⟨ls ++ ls', by rw [e, e', List.append_assoc], ?_⟩
  rw [← iff, ← iff']
  simp only [List.mem_append, or_imp, forall_and]

/-- What is read, under an equivalent condition. -/
lemma Covered.congr {s r : Str} {p q : Prop} (h : Covered s r p) (iff : p ↔ q) : Covered s r q := by
  obtain ⟨ls, e, fine⟩ := h
  exact ⟨ls, e, fine.trans iff⟩

/-- What follows a part without literals. -/
lemma Covered.after {s r t : Str} {p : Prop} (first : Covered s r True) (second : Covered r t p) :
    Covered s t p :=
  (first.trans second).congr (by rw [true_and])

/-- What follows asks for nothing. -/
lemma Covered.before {s r t : Str} {p : Prop} (first : Covered s r p) (second : Covered r t True) :
    Covered s t p :=
  (first.trans second).congr (by rw [and_true])

/-- A plain character is read over. -/
lemma Covered.skip {c : Nat} (h : plainChar c = true) (s : Str) : Covered (c :: s) s True := by
  refine ⟨[], ?_, by simp⟩
  have quote : c ≠ 34 := by
    rintro rfl
    cases h
  rw [literals, if_neg quote, scanDecimal_plain h]
  rfl

/-- Plain characters are read over. -/
lemma Covered.skipAll {w : Str} (h : ∀ c ∈ w, plainChar c = true) (s : Str) :
    Covered (w ++ s) s True := by
  induction w with
  | nil => exact .refl s
  | cons c w ih =>
    exact (Covered.skip (h c List.mem_cons_self) _).after
      (ih fun c m => h c (List.mem_cons_of_mem _ m))

/-- White space is read over. -/
lemma Covered.skipWs (s : Str) : Covered s (skipWs s) True := by
  have split : s = s.takeWhile whitespace ++ Py.skipWs s := (List.takeWhile_append_dropWhile).symm
  have plain : ∀ c ∈ s.takeWhile whitespace, plainChar c = true := by
    intro c m
    have space : whitespace c = true := List.all_eq_true.1 (List.all_takeWhile) c m
    simp only [whitespace, Bool.or_eq_true, decide_eq_true_eq] at space
    rcases space with ((rfl | rfl) | rfl) | rfl <;> rfl
  have all := Covered.skipAll plain (Py.skipWs s)
  rwa [← split] at all

/-- A string is read. -/
lemma Covered.string {s t rest : Str} (h : scanString s = some (t, rest)) :
    Covered (34 :: s) rest (∀ c ∈ t, Scalar c) := by
  refine ⟨[.text t], ?_, by simp [Literal.Fine]⟩
  rw [literals, if_pos rfl, h]
  exact congrArg _ (literals_suffix (scanString_suffix h))

/-- A word is read. -/
lemma Covered.word {w : String} {s : Str} (h : str w <+: s) (plain : (str w).all plainChar = true) :
    Covered s (s.drop (str w).length) True := by
  obtain ⟨r, rfl⟩ := h
  rw [List.drop_left]
  exact .skipAll (List.all_eq_true.1 plain) r

/-- A number is read. -/
lemma Covered.number {d : Nat} {s rest : Str} {v : Value} (h : scanNumber s = .ok (v, rest)) :
    Covered s rest (Legible d v) ∧ Tidy True d v := by
  unfold scanNumber at h
  cases int : scanInt s with
  | none =>
    rw [int] at h
    cases h
  | some p =>
    obtain ⟨i, r⟩ := p
    rw [int] at h
    simp only at h
    obtain ⟨c, s, rfl⟩ : ∃ c t, s = c :: t := by
      cases s with
      | nil => cases int
      | cons c t => exact ⟨c, t, rfl⟩
    have decimal : scanDecimal (c :: s) = some (i, (scanFrac r).1 ++ (scanExp (scanFrac r).2).1,
        (scanExp (scanFrac r).2).2) := by
      rw [scanDecimal, int]
      rfl
    have behind : (scanExp (scanFrac r).2).2 <:+ s := scanDecimal_suffix decimal
    have quote : c ≠ 34 := by
      rintro rfl
      cases int
    split_ifs at h with whole
    · obtain ⟨n, read, h⟩ := bind_ok.1 h
      cases h
      have legible : Legible d (.int n) := .int (intOf_digits (scanInt_intPart int) read)
      refine ⟨⟨[], ?_, by simp [legible]⟩, .int⟩
      rw [literals, if_neg quote, decimal]
      simp only [whole.1, whole.2, List.append_nil, if_true]
      exact literals_suffix behind
    · cases h
      refine ⟨⟨[.float (i ++ ((scanFrac r).1 ++ (scanExp (scanFrac r).2).1))], ?_, ?_⟩,
        .float trivial⟩
      · rw [literals, if_neg quote, decimal]
        simp only [List.append_eq_nil_iff, if_neg whole]
        exact congrArg _ (literals_suffix behind)
      · rw [List.forall_mem_singleton, Literal.Fine, ← List.append_assoc]
        exact ⟨fun ⟨q, finite⟩ => .float finite,
          fun l => by cases l with | float finite => exact ⟨_, finite⟩⟩

/-! ### What was read -/

/-- Hooks that refuse repeated keys and the names of special floats. -/
structure Hooks.Strict {ε : Type} (h : Hooks ε) : Prop where
  pairs : ∀ ms v, h.pairs ms = .ok v → v = .dict ms ∧ (ms.map Prod.fst).Nodup
  constant : ∀ w v, h.constant w ≠ .ok v

/-- A reader that takes values of at most depth `d` off a text. -/
def Reader (d : Nat) {ε : Type} (pv : Str → Except ε (Value × Str)) : Prop :=
  ∀ s v r, pv s = .ok (v, r) → Covered s r (Legible d v) ∧ Tidy True d v

variable {ε : Type} {h : Hooks ε} {d : Nat} {pv : Str → Except ε (Value × Str)}

/-- The elements of a list are read. -/
lemma scanElems_covered (reader : Reader d pv) {n : Nat} {s r : Str} {vs : List Value}
    (scan : scanElems h pv n s = .ok (vs, r)) :
    Covered s r (∀ v ∈ vs, Legible d v) ∧ ∀ v ∈ vs, Tidy True d v := by
  induction n generalizing s vs with
  | zero => cases scan
  | succ n ih =>
    obtain ⟨⟨v, r₁⟩, one, scan⟩ := bind_ok.1 scan
    obtain ⟨first, tidy⟩ := reader _ _ _ one
    have spaces := Covered.skipWs r₁
    simp only at scan
    split at scan
    · cases scan
    · rename_i c r₂ next
      rw [next] at spaces
      split_ifs at scan with close comma
      · cases scan
        subst close
        have all := first.before (spaces.before (.skip rfl r))
        exact ⟨all.congr (by simp), by simpa using tidy⟩
      · obtain ⟨⟨vs', r₃⟩, more, scan⟩ := bind_ok.1 scan
        cases scan
        subst comma
        obtain ⟨rest, tidies⟩ := ih more
        have all :=
          (first.before (spaces.before (.skip rfl r₂))).trans ((Covered.skipWs r₂).after rest)
        refine ⟨all.congr ?_, List.forall_mem_cons.2 ⟨tidy, tidies⟩⟩
        rw [List.forall_mem_cons]

/-- A member whose name and value are legible. -/
def LegibleMember (d : Nat) (e : Str × Value) : Prop := (∀ c ∈ e.1, Scalar c) ∧ Legible d e.2

/-- The members of a dictionary are read. -/
lemma scanMembers_covered (reader : Reader d pv) {n : Nat} {s r : Str} {ms : List (Str × Value)}
    (scan : scanMembers h pv n s = .ok (ms, r)) :
    Covered s r (∀ e ∈ ms, LegibleMember d e) ∧ ∀ e ∈ ms, Tidy True d e.2 := by
  induction n generalizing s ms with
  | zero => cases scan
  | succ n ih =>
    rw [scanMembers] at scan
    split_ifs at scan with opens
    obtain ⟨s, rfl⟩ : ∃ t, s = 34 :: t := by
      cases s with
      | nil => exact absurd opens (by simp)
      | cons c t => exact ⟨t, by simpa using opens⟩
    rw [List.tail_cons] at scan
    split at scan
    · cases scan
    · rename_i k r₁ key
      have name := Covered.string key
      have spaces := Covered.skipWs r₁
      split_ifs at scan with colon
      obtain ⟨r₂, next⟩ : ∃ r₂, skipWs r₁ = 58 :: r₂ := by
        cases e : skipWs r₁ with
        | nil => simp [e] at colon
        | cons c t => exact ⟨t, by simpa [e] using colon⟩
      rw [next] at spaces scan
      obtain ⟨⟨v, r₃⟩, one, scan⟩ := bind_ok.1 scan
      rw [List.tail_cons] at one
      obtain ⟨value, tidy⟩ := reader _ _ _ one
      have member :=
        (name.before (spaces.before (.skip rfl r₂))).trans ((Covered.skipWs r₂).after value)
      have spaces' := Covered.skipWs r₃
      simp only at scan
      split at scan
      · cases scan
      · rename_i c r₄ next'
        rw [next'] at spaces'
        split_ifs at scan with close comma
        · cases scan
          subst close
          have all := member.before (spaces'.before (.skip rfl r))
          exact ⟨all.congr (by simp [LegibleMember]), by simpa using tidy⟩
        · obtain ⟨⟨ms', r₅⟩, more, scan⟩ := bind_ok.1 scan
          cases scan
          subst comma
          obtain ⟨rest, tidies⟩ := ih more
          have all :=
            (member.before (spaces'.before (.skip rfl r₄))).trans ((Covered.skipWs r₄).after rest)
          refine ⟨all.congr ?_, List.forall_mem_cons.2 ⟨tidy, tidies⟩⟩
          rw [List.forall_mem_cons]
          rfl

/-- A list is legible by its elements. -/
lemma legible_list {xs : List Value} : Legible (d + 1) (.list xs) ↔ ∀ x ∈ xs, Legible d x :=
  ⟨fun l => by cases l with | list elems => exact elems, .list⟩

/-- A dictionary by its members. -/
lemma legible_dict {ms : List (Str × Value)} (keys : (ms.map Prod.fst).Nodup) :
    Legible (d + 1) (.dict ms) ↔ ∀ e ∈ ms, LegibleMember d e :=
  ⟨fun l e m => by cases l with | dict _ chars members => exact ⟨chars e m, members e m⟩,
    fun all => .dict keys (fun e m => (all e m).1) fun e m => (all e m).2⟩

/-- What begins neither a string, an array nor an object. -/
lemma scanOnce_atom (strict : h.Strict) {limit : Nat} {c : Nat} {s r : Str} {v : Value}
    (string : c ≠ 34) (array : c ≠ 91)
    (object : c ≠ 123) (scan : scanOnce h limit (c :: s) = .ok (v, r)) :
    Covered (c :: s) r (Legible limit v) ∧ Tidy True limit v := by
  rw [scanOnce.eq_def] at scan
  simp only [if_neg string, if_neg array, if_neg object] at scan
  have word : ∀ {w : String} {v : Value}, str w <+: c :: s → (str w).all plainChar = true →
    Legible limit v →
      Covered (c :: s) ((c :: s).drop (str w).length) (Legible limit v) := by
    intro w v starts plain legible
    exact (Covered.word starts plain).congr (by simp [legible])
  split_ifs at scan with null true_ false_ nan inf negInf
  · cases scan
    exact ⟨word null (by decide) .null, .null⟩
  · cases scan
    exact ⟨word true_ (by decide) .bool, .bool⟩
  · cases scan
    exact ⟨word false_ (by decide) .bool, .bool⟩
  · obtain ⟨w, constant, _⟩ := bind_ok.1 scan
    exact absurd constant (strict.constant _ _)
  · obtain ⟨w, constant, _⟩ := bind_ok.1 scan
    exact absurd constant (strict.constant _ _)
  · obtain ⟨w, constant, _⟩ := bind_ok.1 scan
    exact absurd constant (strict.constant _ _)
  · cases number : scanNumber (c :: s) with
    | error e =>
      rw [number] at scan
      cases scan
    | ok p =>
      rw [number] at scan
      cases scan
      exact Covered.number number

/-- A value is read one level further in. -/
lemma scanOnce_step (strict : h.Strict) {limit : Nat}
    (inner : ∀ l, limit = l + 1 → Reader l (scanOnce h l)) : Reader limit (scanOnce h limit) := by
  intro s v r scan
  cases s with
  | nil =>
    rw [scanOnce.eq_def] at scan
    cases scan
  | cons c s =>
    by_cases string : c = 34
    · subst string
      rw [scanOnce.eq_def] at scan
      simp only [if_true] at scan
      split at scan
      · cases scan
        refine ⟨(Covered.string ‹_›).congr ⟨.str,
          fun l => by cases l with | str chars => exact chars⟩, .str⟩
      · cases scan
    by_cases array : c = 91
    · subst array
      rw [scanOnce.eq_def] at scan
      simp only [if_neg string, if_true] at scan
      obtain _ | limit := limit
      · cases scan
      · have opened := (Covered.skip (show plainChar 91 = true from rfl) s).after (.skipWs s)
        simp only at scan
        split_ifs at scan with empty
        · obtain ⟨r', next⟩ : ∃ r', skipWs s = 93 :: r' := by
            cases e : skipWs s with
            | nil => simp [e] at empty
            | cons c t => exact ⟨t, by simpa [e] using empty⟩
          rw [next] at opened scan
          cases scan
          have all := opened.after (.skip rfl r')
          exact ⟨all.congr (by simp [legible_list]), .list (List.forall_mem_nil _)⟩
        · obtain ⟨⟨vs, r'⟩, elems, scan⟩ := bind_ok.1 scan
          cases scan
          obtain ⟨all, tidies⟩ := scanElems_covered (inner limit rfl) elems
          exact ⟨(opened.after all).congr legible_list.symm, .list tidies⟩
    by_cases object : c = 123
    · subst object
      rw [scanOnce.eq_def] at scan
      simp only [if_neg string, if_neg array, if_true] at scan
      obtain _ | limit := limit
      · cases scan
      · have opened := (Covered.skip (show plainChar 123 = true from rfl) s).after (.skipWs s)
        simp only at scan
        split_ifs at scan with empty
        · obtain ⟨r', next⟩ : ∃ r', skipWs s = 125 :: r' := by
            cases e : skipWs s with
            | nil => simp [e] at empty
            | cons c t => exact ⟨t, by simpa [e] using empty⟩
          rw [next] at opened scan
          obtain ⟨v', made, scan⟩ := bind_ok.1 scan
          cases scan
          obtain ⟨rfl, keys⟩ := strict.pairs _ _ made
          have all := opened.after (.skip rfl r')
          exact ⟨all.congr (by simp [legible_dict keys]), .dict keys (List.forall_mem_nil _)⟩
        · obtain ⟨⟨ms, r'⟩, members, scan⟩ := bind_ok.1 scan
          obtain ⟨v', made, scan⟩ := bind_ok.1 scan
          cases scan
          obtain ⟨rfl, keys⟩ := strict.pairs _ _ made
          obtain ⟨all, tidies⟩ := scanMembers_covered (inner limit rfl) members
          exact ⟨(opened.after all).congr (legible_dict keys).symm, .dict keys tidies⟩
    · exact scanOnce_atom strict string array object scan

/-- A value is read at every level of nesting. -/
lemma scanOnce_reader (strict : h.Strict) (limit : Nat) : Reader limit (scanOnce h limit) := by
  induction limit with
  | zero => exact scanOnce_step strict nofun
  | succ limit ih =>
    refine scanOnce_step strict fun l e => ?_
    cases e
    exact ih

/-- A text whose literals can all be written again. -/
def Writable (s : Str) : Prop := ∀ l ∈ literals 0 s, l.Fine

/-- A value that was read is tidy, and legible exactly if the literals of its text can be written
again. -/
theorem loads_legible (strict : h.Strict) {s : Str} {v : Value} (read : loads h s = .ok v) :
    (Legible Interpreter.recursionLimit v ↔ Writable s) ∧
      Tidy True Interpreter.recursionLimit v := by
  rw [loads] at read
  split at read
  · cases read
  · obtain ⟨⟨v', r⟩, scan, read⟩ := bind_ok.1 read
    simp only at read
    split at read
    · rename_i nothing
      cases read
      obtain ⟨covered, tidy⟩ := scanOnce_reader strict _ _ _ _ scan
      have rest := Covered.skipWs r
      rw [nothing] at rest
      obtain ⟨ls, e, fine⟩ := (Covered.skipWs s).after (covered.before rest)
      rw [literals, List.append_nil] at e
      refine ⟨?_, tidy⟩
      rw [Writable, e, fine]
    · cases read

end DbLab.Py
