import Mathlib

/-!
# Sequential programs and their surroundings

A program makes calls to its surroundings one after the other. A call returns or raises, and a
program handles what is raised as Python does. The surroundings answer a call in any of the ways
they may, change by themselves between calls, and outlive a program that is killed.
-/

namespace DbLab.Proc
open Relation

/-- The calls of a program and what they return. -/
structure Interface where
  Call : Type
  Result : Call → Type

/-- A program that has ended, or its next call and what it does with the answer. -/
inductive Prog (I : Interface) (ε α : Type) where
  | done (r : Except ε α)
  | call (x : I.Call) (next : Except ε (I.Result x) → Prog I ε α)

variable {I : Interface} {ε α β : Type}

namespace Prog

def bind (p : Prog I ε α) (f : α → Prog I ε β) : Prog I ε β :=
  match p with
  | .done (.ok a) => f a
  | .done (.error e) => .done (.error e)
  | .call x next => .call x fun r => (next r).bind f

/-- `try … except …` -/
def handle (p : Prog I ε α) (f : ε → Prog I ε α) : Prog I ε α :=
  match p with
  | .done (.ok a) => .done (.ok a)
  | .done (.error e) => f e
  | .call x next => .call x fun r => (next r).handle f

/-- `try … finally …`: the block runs in any case, and what it raises replaces what came before. -/
def ensure (p : Prog I ε α) (block : Prog I ε Unit) : Prog I ε α :=
  match p with
  | .done r => block.bind fun _ => .done r
  | .call x next => .call x fun r => (next r).ensure block

instance : Monad (Prog I ε) where
  pure a := .done (.ok a)
  bind := bind

instance : MonadExceptOf ε (Prog I ε) where
  throw e := .done (.error e)
  tryCatch := handle

def ofExcept : Except ε α → Prog I ε α := .done

/-- One call. -/
def ask (x : I.Call) : Prog I ε (I.Result x) := .call x .done

end Prog

/-- The surroundings of programs: how a call may be answered, how the state changes by itself, and
what a killed program leaves of it. -/
structure World (I : Interface) (ε : Type) where
  State : Type
  does (x : I.Call) : State → Except ε (I.Result x) → State → Prop
  drifts : State → State → Prop
  killed : State → State → Prop

/-- A program that runs, for a command given in the state `before`. -/
structure Running (W : World I ε) (C α : Type) where
  command : C
  before : W.State
  prog : Prog I ε α

/-- A command that has ended. -/
structure Ended (W : World I ε) (C α : Type) where
  command : C
  before : W.State
  result : Except ε α
  after : W.State

/-- A state of the whole system: the surroundings, the program that runs, and the commands that
ended. -/
structure Config (W : World I ε) (C α : Type) where
  state : W.State
  running : Option (Running W C α)
  log : List (Ended W C α)

variable {W : World I ε} {C : Type}

/-- Commands run one after the other. -/
inductive Step (code : C → Prog I ε α) : Config W C α → Config W C α → Prop where
  | start (s log) (c : C) : Step code ⟨s, none, log⟩ ⟨s, some ⟨c, s, code c⟩, log⟩
  | call {s s' log c b x next r} (does : W.does x s r s') :
    Step code ⟨s, some ⟨c, b, .call x next⟩, log⟩ ⟨s', some ⟨c, b, next r⟩, log⟩
  | finish (s log c b r) : Step code ⟨s, some ⟨c, b, .done r⟩, log⟩ ⟨s, none, log ++ [⟨c, b, r, s⟩]⟩
  | drift {s s' running log} (drifts : W.drifts s s') : Step code ⟨s, running, log⟩ ⟨s',
      running, log⟩
  | kill {s s' R log} (killed : W.killed s s') : Step code ⟨s, some R, log⟩ ⟨s', none, log⟩

/-- The states a system can reach from the surroundings `s₀`. -/
inductive Reachable (code : C → Prog I ε α) (s₀ : W.State) : Config W C α → Prop where
  | init : Reachable code s₀ ⟨s₀, none, []⟩
  | step {s s'} (h : Reachable code s₀ s) (step : Step code s s') : Reachable code s₀ s'

/-! ### Verified programs -/

namespace World
variable (W) (J : W.State → Prop)

/-- The weakest precondition of a program that keeps `J` at every call, returns as in `Q` and raises
as in `E`. The state may have drifted before each call. -/
def wp (Q : α → W.State → Prop) (E : ε → W.State → Prop) : Prog I ε α → W.State → Prop
  | .done (.ok a), s => Q a s
  | .done (.error e), s => E e s
  | .call x next, s =>
    ∀ s₁, ReflTransGen W.drifts s s₁ → ∀ r s', W.does x s₁ r s' → J s' ∧ wp Q E (next r) s'

variable {W J} {Q Q' : α → W.State → Prop} {E E' : ε → W.State → Prop} {s : W.State}

/-- A program that throws. -/
lemma wp_throw (e : ε) : W.wp J Q E (throw e) s ↔ E e s := Iff.rfl

/-- A plain computation. -/
lemma wp_ofExcept {r : Except ε α} (ok : ∀ a, r = .ok a → Q a s)
    (error : ∀ e, r = .error e → E e s) :
    W.wp J Q E (.ofExcept r) s := by
  cases r with
  | ok a => exact ok a rfl
  | error e => exact error e rfl

/-- One program after the other. -/
lemma wp_bind {Q : β → W.State → Prop} (p : Prog I ε α) (f : α → Prog I ε β) :
    W.wp J Q E (p >>= f) s ↔ W.wp J (fun a => W.wp J Q E (f a)) E p s := by
  induction p generalizing s with
  | done r => cases r <;> rfl
  | call x next ih =>
    exact forall₅_congr fun s₁ _ r s' _ => and_congr_right fun _ => ih r

/-- A program with its handler. -/
lemma wp_handle (p : Prog I ε α) (f : ε → Prog I ε α) :
    W.wp J Q E (tryCatch p f) s ↔ W.wp J Q (fun e => W.wp J Q E (f e)) p s := by
  induction p generalizing s with
  | done r => cases r <;> rfl
  | call x next ih =>
    exact forall₅_congr fun s₁ _ r s' _ => and_congr_right fun _ => ih r

/-- A program with its final block. -/
lemma wp_ensure (p : Prog I ε α) (block : Prog I ε Unit) :
    W.wp J Q E (p.ensure block) s ↔
      W.wp J (fun a => W.wp J (fun _ => Q a) E block)
        (fun e => W.wp J (fun _ => E e) E block) p s := by
  induction p generalizing s with
  | done r =>
    cases r with
    | ok a => exact wp_bind block fun _ => .done (.ok a)
    | error e => exact wp_bind block fun _ => .done (.error e)
  | call x next ih =>
    exact forall₅_congr fun s₁ _ r s' _ => and_congr_right fun _ => ih r

/-- A weaker postcondition. -/
lemma wp_mono {p : Prog I ε α} (h : W.wp J Q E p s) (ok : ∀ a s, Q a s → Q' a s)
    (error : ∀ e s, E e s → E' e s) :
    W.wp J Q' E' p s := by
  induction p generalizing s with
  | done r =>
    cases r with
    | ok a => exact ok a s h
    | error e => exact error e s h
  | call x next ih =>
    exact fun s₁ drift r s' does => ⟨(h s₁ drift r s' does).1, ih r (h s₁ drift r s' does).2⟩

/-- One call. -/
lemma wp_ask {x : I.Call} {Q : I.Result x → W.State → Prop}
    (h : ∀ s₁, ReflTransGen W.drifts s s₁ → ∀ r s', W.does x s₁ r s' → J s' ∧
      match r with | .ok a => Q a s' | .error e => E e s') :
    W.wp J Q E (.ask x) s := by
  intro s₁ drift r s' does
  refine ⟨(h s₁ drift r s' does).1, ?_⟩
  cases r with
  | ok a => exact (h s₁ drift _ s' does).2
  | error e => exact (h s₁ drift _ s' does).2

/-- A program runs to its end. -/
inductive Ran (W : World I ε) : Prog I ε α → W.State → Except ε α → W.State → Prop where
  | done (r : Except ε α) (s : W.State) : Ran W (.done r) s r s
  | call {x next r s s₁ s₂ s' result} (drift : ReflTransGen W.drifts s s₁) (does : W.does x s₁ r s₂)
    (rest : Ran W (next r) s₂ result s') : Ran W (.call x next) s result s'

/-- What a program ends in is as its precondition says. -/
lemma Ran.post {p : Prog I ε α} {r : Except ε α} {s' : W.State} (ran : Ran W p s r s')
    (h : W.wp J Q E p s) :
    W.wp J Q E (.done r) s' := by
  induction ran with
  | done r s => exact h
  | call drift does rest ih => exact ih (h _ drift _ _ does).2

/-- A program runs, and may be cut off. -/
inductive Passes (W : World I ε) : Prog I ε α → W.State → W.State → Prop where
  | here (p : Prog I ε α) (s : W.State) : Passes W p s s
  | call {x next r s s₁ s₂ s'} (drift : ReflTransGen W.drifts s s₁) (does : W.does x s₁ r s₂)
    (rest : Passes W (next r) s₂ s') : Passes W (.call x next) s s'

/-- What a verified program keeps holds wherever it is cut off. -/
lemma Passes.keeps {p : Prog I ε α} {s' : W.State} (run : Passes W p s s') (h : W.wp J Q E p s)
    (holds : J s) : J s' := by
  induction run with
  | here p s => exact holds
  | call drift does rest ih =>
    obtain ⟨keeps, rest⟩ := h _ drift _ _ does
    exact ih rest keeps

/-- A program that ran passes through its states. -/
lemma Ran.passes {p : Prog I ε α} {r : Except ε α} {s' : W.State} (ran : Ran W p s r s') :
    Passes W p s s' := by
  induction ran with
  | done r s => exact .here _ s
  | call drift does rest ih => exact .call drift does ih

end World

/-- The programs of a system are verified: between commands the surroundings are as in `Idle`, at
any time as in `J`, and what a command leaves behind is as in `post`. -/
structure Verified (W : World I ε) (code : C → Prog I ε α) (Idle J : W.State → Prop)
    (post : C → W.State → Except ε α → W.State → Prop) : Prop where
  begins : ∀ {s}, Idle s → J s
  code : ∀ c s, Idle s →
    W.wp J (fun a s' => Idle s' ∧ post c s (.ok a) s') (fun e s' => Idle s' ∧
      post c s (.error e) s') (code c) s
  idle : ∀ {s s'}, Idle s → W.drifts s s' → Idle s'
  always : ∀ {s s'}, J s → W.drifts s s' → J s'
  drifts : ∀ {c b r s s'}, post c b r s → W.drifts s s' → post c b r s'
  killed : ∀ {s s'}, J s → W.killed s s' → Idle s'

/-- Where a verified system stands. -/
structure Sound (W : World I ε) (Idle J : W.State → Prop)
    (post : C → W.State → Except ε α → W.State → Prop)
    (s : Config W C α) : Prop where
  always : J s.state
  idle : s.running = none → Idle s.state
  running : ∀ R, s.running = some R → ∃ s₁, ReflTransGen W.drifts s₁ s.state ∧
    W.wp J (fun a s' => Idle s' ∧ post R.command R.before (.ok a) s')
      (fun e s' => Idle s' ∧ post R.command R.before (.error e) s') R.prog s₁
  log : ∀ e ∈ s.log, post e.command e.before e.result e.after

section Sound
variable {code : C → Prog I ε α} {Idle J : W.State → Prop} {post : C → W.State → Except ε α →
  W.State → Prop}

/-- What survives one drift survives any number of them. -/
lemma drifts_many {p : W.State → Prop} (keeps : ∀ {s s'}, p s → W.drifts s s' → p s')
    {s s' : W.State}
    (drift : ReflTransGen W.drifts s s') (h : p s) : p s' := by
  induction drift with
  | refl => exact h
  | tail _ last ih => exact keeps ih last

/-- Every step keeps a sound configuration. -/
lemma Sound.step {s s' : Config W C α} (ver : Verified W code Idle J post)
    (h : Sound W Idle J post s)
    (step : Step code s s') : Sound W Idle J post s' := by
  cases step with
  | start s log c =>
    have idle := h.idle rfl
    refine ⟨ver.begins idle, nofun, ?_, h.log⟩
    rintro R ⟨⟩
    exact ⟨s, .refl, ver.code c s idle⟩
  | @call s s' log c b x next r does =>
    obtain ⟨s₁, drift, wp⟩ := h.running _ rfl
    obtain ⟨always, rest⟩ := wp s drift r s' does
    refine ⟨always, nofun, ?_, h.log⟩
    rintro R ⟨⟩
    exact ⟨s', .refl, rest⟩
  | finish s log c b r =>
    obtain ⟨s₁, drift, wp⟩ := h.running _ rfl
    have ended : Idle s₁ ∧ post c b r s₁ := by
      cases r with
      | ok a => exact wp
      | error e => exact wp
    refine ⟨h.always, fun _ => drifts_many ver.idle drift ended.1, nofun, ?_⟩
    intro e m
    rcases List.mem_append.1 m with old | new
    · exact h.log e old
    · cases List.mem_singleton.1 new
      exact drifts_many ver.drifts drift ended.2
  | drift drifts =>
    refine ⟨ver.always h.always drifts, fun none => ver.idle (h.idle none) drifts, ?_, h.log⟩
    intro R running
    obtain ⟨s₁, drift, wp⟩ := h.running R running
    exact ⟨s₁, .tail drift drifts, wp⟩
  | kill killed =>
    have idle := ver.killed h.always killed
    exact ⟨ver.begins idle, fun _ => idle, nofun, h.log⟩

/-- Every state that a verified system reaches is as it was verified. -/
theorem Verified.sound {s₀ : W.State} {s : Config W C α} (ver : Verified W code Idle J post)
    (idle : Idle s₀)
    (reach : Reachable code s₀ s) : Sound W Idle J post s := by
  induction reach with
  | init => exact ⟨ver.begins idle, fun _ => idle, nofun, nofun⟩
  | step _ step ih => exact ih.step ver step

end Sound

/-! ### Runs by evaluation -/

/-- One answer to each call among those that the surroundings may give, chosen by a script. -/
structure Oracle (W : World I ε) (σ : Type) where
  answer (x : I.Call) : W.State → σ → Except ε (I.Result x) × W.State × σ
  does : ∀ x s r, W.does x s (answer x s r).1 (answer x s r).2.1

namespace Oracle
variable {σ : Type} (O : Oracle W σ)

/-- What a program returns, and the state and the script it leaves. -/
def run : Prog I ε α → W.State → σ → Except ε α × W.State × σ
  | .done r, s, script => (r, s, script)
  | .call x next, s, script =>
    let a := O.answer x s script
    run (next a.1) a.2.1 a.2.2

/-- A program after some of its calls. -/
def runFor : Nat → Prog I ε α → W.State → σ → Prog I ε α × W.State × σ
  | 0, p, s, script => (p, s, script)
  | _ + 1, .done r, s, script => (.done r, s, script)
  | n + 1, .call x next, s, script =>
    let a := O.answer x s script
    runFor n (next a.1) a.2.1 a.2.2

/-- The commands that have ended after some are run one after the other. -/
def runAll (code : C → Prog I ε α) : List C → W.State → σ → List (Ended W C α) × W.State
  | [], s, _ => ([], s)
  | c :: cs, s, script =>
    let a := O.run (code c) s script
    let rest := runAll code cs a.2.1 a.2.2
    (⟨c, s, a.1, a.2.1⟩ :: rest.1, rest.2)

variable {O}

/-- A run of one program reaches its state. -/
lemma run_reachable {code : C → Prog I ε α} {s₀ s b : W.State} {c : C} {log : List (Ended W C α)}
    (p : Prog I ε α)
    (script : σ) (reach : Reachable code s₀ ⟨s, some ⟨c, b, p⟩, log⟩) :
    Reachable code s₀ ⟨(O.run p s script).2.1, some ⟨c, b, .done (O.run p s script).1⟩, log⟩ := by
  induction p generalizing s script with
  | done r => exact reach
  | call x next ih => exact ih _ _ (.step reach (.call (O.does x s script)))

/-- A program runs as the script says. -/
lemma run_ran (p : Prog I ε α) (s : W.State) (script : σ) :
    W.Ran p s (O.run p s script).1 (O.run p s script).2.1 := by
  induction p generalizing s script with
  | done r => exact .done r s
  | call x next ih => exact .call .refl (O.does x s script) (ih _ _ _)

/-- A run of several programs reaches its state. -/
theorem runAll_reachable {code : C → Prog I ε α} {s₀ s : W.State} {log : List (Ended W C α)}
    (cs : List C)
    (script : σ) (reach : Reachable code s₀ ⟨s, none, log⟩) :
    Reachable code s₀ ⟨(O.runAll code cs s script).2, none,
      log ++ (O.runAll code cs s script).1⟩ := by
  induction cs generalizing s log script with
  | nil =>
    rw [runAll, List.append_nil]
    exact reach
  | cons c cs ih =>
    have ended :=
      Reachable.step (run_reachable (O := O) (code c) script (.step reach (.start s log c)))
        (.finish ..)
    have rest := ih (O.run (code c) s script).2.2 ended
    rw [List.append_assoc] at rest
    exact rest

end Oracle

end DbLab.Proc
