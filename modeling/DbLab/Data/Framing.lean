import Mathlib

/-!
# Readers and frames

A reader takes a result off the front of a stream or fails. Some input is a frame of a reader if the
reader takes exactly that much, whatever follows, and fails on every proper prefix of it. Frames
compose: where each reader of a sequence has a frame, the sequence has the frames one after the
other.
-/

namespace DbLab.Data

abbrev Reader (τ ε : Type) := StateT (List τ) (Except ε)

namespace Reader
variable {τ ε α β : Type}

/-- The results of a reader run `n` times. -/
def times (p : Reader τ ε α) : Nat → Reader τ ε (List α)
  | 0 => pure []
  | n + 1 => do
    let a ← p
    let as ← times p n
    pure (a :: as)

/-- The reader takes `b` off any stream and returns `a`; on less than `b` it fails. -/
structure Frames (p : Reader τ ε α) (b : List τ) (a : α) : Prop where
  reads : ∀ r, p (b ++ r) = .ok (a, r)
  stops : ∀ q, q <+: b → q ≠ b → ∃ e, p q = .error e

/-- A value without input. -/
lemma Frames.pure (a : α) : Frames (pure a : Reader τ ε α) [] a where
  reads := fun _ => rfl
  stops := fun _ le ne => absurd (List.prefix_nil.1 le) ne

/-- A prefix of two parts ends within the first or goes on into the second. -/
lemma prefix_append_cases {q b b' : List τ} (le : q <+: b ++ b') :
    (q <+: b ∧ q ≠ b) ∨ ∃ q', q = b ++ q' ∧ q' <+: b' := by
  rcases List.prefix_or_prefix_of_prefix le (List.prefix_append b b') with short | ⟨q', rfl⟩
  · by_cases same : q = b
    · exact .inr ⟨[], by rw [same, List.append_nil], List.nil_prefix⟩
    · exact .inl ⟨short, same⟩
  · exact .inr ⟨q', rfl, (List.prefix_append_right_inj b).1 le⟩

/-- Readers one after the other, unfolded. -/
lemma run_bind (p : Reader τ ε α) (f : α → Reader τ ε β) (q : List τ) :
    (p >>= f) q = (p q >>= fun x => f x.1 x.2) := rfl

/-- Frames one after the other. -/
lemma Frames.bind {p : Reader τ ε α} {f : α → Reader τ ε β} {b b' : List τ} {a : α} {a' : β}
    (h : Frames p b a)
    (h' : Frames (f a) b' a') : Frames (p >>= f) (b ++ b') a' where
  reads := by
    intro r
    rw [run_bind, List.append_assoc, h.reads (b' ++ r)]
    exact h'.reads r
  stops := by
    intro q le ne
    rw [run_bind]
    rcases prefix_append_cases le with ⟨short, proper⟩ | ⟨q', rfl, le'⟩
    · obtain ⟨e, fails⟩ := h.stops q short proper
      exact ⟨e, by rw [fails]; rfl⟩
    · obtain ⟨e, fails⟩ := h'.stops q' le' fun same => ne (congrArg (b ++ ·) same)
      exact ⟨e, by rw [h.reads q']; exact fails⟩

/-- A check that passes takes nothing. -/
lemma Frames.bind_ok {p : Reader τ ε α} {f : α → Reader τ ε β} {b : List τ} {a : α} {a' : β}
    (ok : ∀ q, p q = .ok (a, q)) (h : Frames (f a) b a') : Frames (p >>= f) b a' where
  reads := by
    intro r
    rw [run_bind, ok]
    exact h.reads r
  stops := by
    intro q le ne
    rw [run_bind, ok]
    exact h.stops q le ne

/-- A reader that succeeds on any stream without taking anything. -/
lemma Frames.of_ok {p : Reader τ ε α} {a : α} (ok : ∀ q, p q = .ok (a, q)) : Frames p [] a where
  reads := ok
  stops := fun _ le ne => absurd (List.prefix_nil.1 le) ne

/-- The value of a frame is mapped. -/
lemma Frames.map {p : Reader τ ε α} {b : List τ} {a : α} (f : α → β) (h : Frames p b a) :
    Frames (f <$> p) b (f a) := by
  have framed := h.bind (f := fun a => Pure.pure (f a)) (.pure (f a))
  rw [List.append_nil] at framed
  rw [← bind_pure_comp]
  exact framed

/-- Frames one after the other. -/
theorem Frames.times {p : Reader τ ε α} {bs : List (List τ)} {as : List α}
    (h : List.Forall₂ (Frames p) bs as) :
    Frames (times p as.length) bs.flatten as := by
  induction h with
  | nil => exact .pure []
  | @cons b a bs as first _ ih =>
    have rest := ih.bind (f := fun as => Pure.pure (a :: as)) (.pure (a :: as))
    rw [List.append_nil] at rest
    exact first.bind (f := fun a => Reader.times p as.length >>= fun as => Pure.pure (a :: as)) rest

/-! ### What readers raise -/

/-- Whatever the reader raises is as in `P`. -/
def Raises (p : Reader τ ε α) (P : ε → Prop) : Prop := ∀ q e, p q = .error e → P e

/-- A value raises nothing. -/
lemma Raises.pure {P : ε → Prop} (a : α) : Raises (pure a : Reader τ ε α) P := nofun

/-- What is thrown is raised. -/
lemma Raises.throw {P : ε → Prop} {e : ε} (h : P e) : Raises (throw e : Reader τ ε α) P := by
  rintro q e ⟨⟩
  exact h

/-- Readers one after the other raise what one of them raises. -/
lemma Raises.bind {P : ε → Prop} {p : Reader τ ε α} {f : α → Reader τ ε β} (h : Raises p P)
    (h' : ∀ a, Raises (f a) P) :
    Raises (p >>= f) P := by
  intro q e fails
  rw [run_bind] at fails
  cases run : p q with
  | ok x =>
    rw [run] at fails
    exact h' x.1 x.2 e fails
  | error e' =>
    rw [run] at fails
    cases fails
    exact h q _ run

/-- A mapped reader raises what the reader does. -/
lemma Raises.map {P : ε → Prop} {p : Reader τ ε α} (f : α → β) (h : Raises p P) :
    Raises (f <$> p) P := by
  rw [← bind_pure_comp]
  exact h.bind fun a => .pure (f a)

/-- A reader that is repeated. -/
lemma Raises.times {P : ε → Prop} {p : Reader τ ε α} (h : Raises p P) (n : Nat) :
    Raises (times p n) P := by
  induction n with
  | zero => exact .pure []
  | succ n ih => exact h.bind fun a => ih.bind fun as => .pure (a :: as)

end Reader

/-! ### Codes that tell where they end -/

section Delimited
variable {τ α : Type} {f : α → List τ}

/-- What follows a code never changes how it is read. -/
def Delimited (f : α → List τ) : Prop := ∀ {a a' r r'}, f a ++ r = f a' ++ r' → a = a' ∧ r = r'

/-- Equally many codes one after the other. -/
lemma Delimited.many (h : Delimited f) {as as' : List α} {r r' : List τ}
    (length : as.length = as'.length)
    (same : (as.map f).flatten ++ r = (as'.map f).flatten ++ r') : as = as' ∧ r = r' := by
  induction as generalizing as' with
  | nil =>
    cases as' with
    | nil => exact ⟨rfl, same⟩
    | cons a' as' => cases length
  | cons a as ih =>
    cases as' with
    | nil => cases length
    | cons a' as' =>
      rw [List.map_cons, List.map_cons, List.flatten_cons, List.flatten_cons, List.append_assoc,
        List.append_assoc] at same
      obtain ⟨rfl, rest⟩ := h same
      obtain ⟨rfl, tail⟩ := ih (Nat.succ.inj length) rest
      exact ⟨rfl, tail⟩

/-- Any number of codes one after the other. -/
lemma Delimited.flatten (h : Delimited f) (visible : ∀ a, f a ≠ []) {as as' : List α}
    (same : (as.map f).flatten = (as'.map f).flatten) : as = as' := by
  induction as generalizing as' with
  | nil =>
    cases as' with
    | nil => rfl
    | cons a' as' => exact absurd (List.append_eq_nil_iff.1 same.symm).1 (visible a')
  | cons a as ih =>
    cases as' with
    | nil => exact absurd (List.append_eq_nil_iff.1 same).1 (visible a)
    | cons a' as' =>
      obtain ⟨rfl, rest⟩ := h same
      rw [ih rest]

end Delimited

end DbLab.Data
