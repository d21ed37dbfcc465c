import DbLab.Py.Str

/-!
# Patterns

`re.fullmatch` for the patterns the modelled code uses: literals, classes, sequences, optional
parts, counted and unbounded repetition of a class. A pattern lists what a match may leave behind,
in the order in which `re` tries it.
-/

namespace DbLab.Py

abbrev Pattern := Str → List Str

namespace Pattern

def one (p : Nat → Bool) : Pattern
  | [] => []
  | c :: s => if p c then [s] else []

def lit (w : String) : Pattern := fun s =>
  if (str w).isPrefixOf s then [s.drop (str w).length] else []

def seq (p q : Pattern) : Pattern := fun s => (p s).flatMap q

def opt (p : Pattern) : Pattern := fun s => p s ++ [s]

/-- `[..]*` -/
def many (p : Nat → Bool) : Pattern
  | [] => [[]]
  | c :: s => if p c then many p s ++ [c :: s] else [c :: s]

/-- `[..]+` -/
def some (p : Nat → Bool) : Pattern := seq (one p) (many p)

/-- `[..]{n}` -/
def times (p : Nat → Bool) : Nat → Pattern
  | 0 => fun s => [s]
  | n + 1 => seq (one p) (times p n)

/-- `[..]{0,n}` -/
def upTo (p : Nat → Bool) : Nat → Pattern
  | 0 => fun s => [s]
  | n + 1 => opt (seq (one p) (upTo p n))

def fullmatch (p : Pattern) (s : Str) : Bool := (p s).any List.isEmpty

/-- Every match reads at least one character, and the first one is in `C`. -/
def Opens (C : Nat → Prop) (p : Pattern) : Prop := ∀ s, p s ≠ [] → ∃ c r, s = c :: r ∧ C c

/-- A match that reads anything reads a character of `C` first. -/
def Leads (C : Nat → Prop) (p : Pattern) : Prop := ∀ s, ∀ r ∈ p s, r = s ∨ ∃ c t, s = c :: t ∧ C c

variable {C : Nat → Prop}

/-- A literal opens with its first letter. -/
lemma opens_lit {c : Char} {w : List Char} (h : C c.toNat) :
    Opens C (lit (String.ofList (c :: w))) := by
  intro s ne
  rw [lit] at ne
  split at ne
  · rename_i front
    obtain ⟨r, rfl⟩ := List.isPrefixOf_iff_prefix.1 front
    refine ⟨c.toNat, str (String.ofList w) ++ r, ?_, h⟩
    rw [str, str, String.toList_ofList, String.toList_ofList]
    rfl
  · exact absurd rfl ne

/-- What opens with a class leads with it. -/
lemma Opens.leads {p : Pattern} (h : Opens C p) : Leads C p := by
  intro s r m
  exact .inr (h s (List.ne_nil_of_mem m))

/-- A sequence opens with what its first part opens with. -/
lemma Opens.seq {p q : Pattern} (h : Opens C p) : Opens C (seq p q) := by
  intro s ne
  refine h s fun empty => ne ?_
  rw [Pattern.seq, empty]
  rfl

/-- Leaving it out leads to what follows. -/
lemma Leads.opt {p : Pattern} (h : Leads C p) : Leads C (opt p) := by
  intro s r m
  rcases List.mem_append.1 m with m | m
  · exact h s r m
  · exact .inl (List.mem_singleton.1 m)

/-- An optional part in front of a part that reads something. -/
lemma Leads.seq {p q : Pattern} (hp : Leads C p) (hq : Opens C q) : Opens C (seq p q) := by
  intro s ne
  obtain ⟨r, m⟩ := List.exists_mem_of_ne_nil _ ne
  obtain ⟨t, left, rest⟩ := List.mem_flatMap.1 m
  rcases hp s t left with rfl | first
  · exact hq t (List.ne_nil_of_mem rest)
  · exact first

/-- A match starts in the class. -/
lemma Opens.fullmatch {p : Pattern} (h : Opens C p) {s : Str} (m : fullmatch p s = true) :
    ∃ c r, s = c :: r ∧ C c := by
  refine h s fun empty => ?_
  rw [Pattern.fullmatch, empty] at m
  cases m

/-! ### What a match reads -/

/-- A match reads characters of `C` only. -/
def Within (C : Nat → Prop) (p : Pattern) : Prop := ∀ s, ∀ r ∈ p s, ∃ w, s = w ++ r ∧ ∀ c ∈ w, C c

/-- One letter of the class. -/
lemma Within.one {q : Nat → Bool} (h : ∀ c, q c = true → C c) : Within C (one q) := by
  intro s r m
  cases s with
  | nil => cases m
  | cons c s =>
    rw [Pattern.one] at m
    split at m
    · rw [List.mem_singleton.1 m]
      exact ⟨[c], rfl, by simpa using h c ‹_›⟩
    · cases m

/-- A literal in the class. -/
lemma Within.lit {w : String} (h : ∀ c ∈ str w, C c) : Within C (lit w) := by
  intro s r m
  rw [Pattern.lit] at m
  split at m
  · rename_i front
    obtain ⟨t, rfl⟩ := List.isPrefixOf_iff_prefix.1 front
    rw [List.drop_left, List.mem_singleton] at m
    exact ⟨str w, by rw [m], h⟩
  · cases m

/-- One part after the other. -/
lemma Within.seq {p q : Pattern} (hp : Within C p) (hq : Within C q) : Within C (seq p q) := by
  intro s r m
  obtain ⟨t, first, rest⟩ := List.mem_flatMap.1 m
  obtain ⟨w, rfl, hw⟩ := hp s t first
  obtain ⟨w', rfl, hw'⟩ := hq t r rest
  exact ⟨w ++ w', by rw [List.append_assoc], fun c mc => (List.mem_append.1 mc).elim (hw c) (hw' c)⟩

/-- A number of letters. -/
lemma Within.times {q : Nat → Bool} (h : ∀ c, q c = true → C c) (n : Nat) :
    Within C (times q n) := by
  induction n with
  | zero =>
    intro s r m
    rw [List.mem_singleton.1 m]
    exact ⟨[], rfl, nofun⟩
  | succ n ih => exact (Within.one h).seq ih

/-- A match stays in the class. -/
lemma Within.fullmatch {p : Pattern} (h : Within C p) {s : Str} (m : fullmatch p s = true) :
    ∀ c ∈ s, C c := by
  obtain ⟨r, mr, nothing⟩ := List.any_eq_true.1 m
  obtain ⟨w, rfl, all⟩ := h s r mr
  rw [List.isEmpty_iff.1 nothing, List.append_nil]
  exact all

/-- A match reads `n` characters at most. -/
def Short (n : Nat) (p : Pattern) : Prop := ∀ s, ∀ r ∈ p s, s.length ≤ n + r.length

/-- A literal is as long as it is. -/
lemma Short.lit (w : String) : Short (str w).length (lit w) := by
  intro s r m
  rw [Pattern.lit] at m
  split at m
  · rw [List.mem_singleton.1 m, List.length_drop]
    omega
  · cases m

/-- The lengths of two parts add up. -/
lemma Short.seq {n k : Nat} {p q : Pattern} (hp : Short n p) (hq : Short k q) :
    Short (n + k) (seq p q) := by
  intro s r m
  obtain ⟨t, first, rest⟩ := List.mem_flatMap.1 m
  have front := hp s t first
  have back := hq t r rest
  omega

/-- A number of letters. -/
lemma Short.times (q : Nat → Bool) (n : Nat) : Short n (times q n) := by
  induction n with
  | zero =>
    intro s r m
    rw [List.mem_singleton.1 m]
    exact Nat.le_add_left _ _
  | succ n ih =>
    intro s r m
    obtain ⟨t, first, rest⟩ := List.mem_flatMap.1 m
    have back := ih t r rest
    cases s with
    | nil => cases first
    | cons c s =>
      rw [Pattern.one] at first
      split at first
      · rw [List.mem_singleton.1 first] at back
        rw [List.length_cons]
        omega
      · cases first

/-- A match is no longer than the pattern. -/
lemma Short.fullmatch {n : Nat} {p : Pattern} (h : Short n p) {s : Str} (m : fullmatch p s = true) :
    s.length ≤ n := by
  obtain ⟨r, mr, nothing⟩ := List.any_eq_true.1 m
  have bound := h s r mr
  rwa [List.isEmpty_iff.1 nothing] at bound

end Pattern

end DbLab.Py
