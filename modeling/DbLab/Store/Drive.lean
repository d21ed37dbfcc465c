import DbLab.Store.Program

/-!
# Programs against one store

A store that a program has for itself answers each request from its state alone. The run of a
program is then computed, bind by bind, and a program of one interface runs where a larger one is
served.
-/

namespace DbLab.Store

variable {I J : Interface} {σ ε α β : Type}

/-- Answers to all requests, given a state. -/
abbrev Handler (I : Interface) (σ : Type) := (op : Op I) → σ → op.Reply × σ

/-- What a program returns, and the state it leaves. -/
def Prog.drive (h : Handler I σ) : Prog I α → σ → α × σ
  | .ret a, s => (a, s)
  | .ask op next, s => (next (h op s).1).drive h (h op s).2

/-- One program after the other. -/
lemma Prog.drive_bind (h : Handler I σ) (p : Prog I α) (f : α → Prog I β) (s : σ) :
    (p >>= f).drive h s = (f (p.drive h s).1).drive h (p.drive h s).2 := by
  induction p generalizing s with
  | ret a => rfl
  | ask op next ih => exact ih _ _

namespace Client
variable (h : Handler I σ) {p : Client I ε α} {s s' : σ}

/-- What a program that may raise returns or raises, and the state it leaves. -/
def eval (p : Client I ε α) (s : σ) : Except ε α × σ := p.run.drive h s

/-- A result evaluates to itself. -/
@[simp] lemma eval_pure (a : α) (s : σ) : eval h (pure a : Client I ε α) s = (.ok a, s) := rfl

/-- An exception evaluates to itself. -/
@[simp] lemma eval_throw (e : ε) (s : σ) : eval h (throw e : Client I ε α) s = (.error e, s) := rfl

variable {h}

/-- One client after the other. -/
lemma eval_bind {a : α} (run : eval h p s = (.ok a, s')) (f : α → Client I ε β) :
    eval h (p >>= f) s = eval h (f a) s' := by
  have both : eval h (p >>= f) s = _ := Prog.drive_bind h p.run (ExceptT.bindCont f) s
  have value : (p.run.drive h s).1 = .ok a := congrArg Prod.fst run
  have state : (p.run.drive h s).2 = s' := congrArg Prod.snd run
  rw [value, state] at both
  exact both

/-- A client that needs no handler. -/
lemma eval_try {a : α} (run : eval h p s = (.ok a, s')) (f : ε → Client I ε α) :
    eval h (tryCatch p f) s = (.ok a, s') := by
  have both : eval h (tryCatch p f) s = _ := Prog.drive_bind h p.run _ s
  have value : (p.run.drive h s).1 = .ok a := congrArg Prod.fst run
  have state : (p.run.drive h s).2 = s' := congrArg Prod.snd run
  rw [value, state] at both
  exact both

/-- `try … finally …`, where the block does not raise. -/
lemma eval_finally {s₁ s₂ : σ} {b : β} {x : Except ε α} {block : Client I ε β}
    (run : eval h p s = (x, s₁))
    (last : eval h block s₁ = (.ok b, s₂)) : eval h (tryFinally p block) s = (x, s₂) := by
  have value : p.run.drive h s = (x, s₁) := run
  have value' : block.run.drive h s₁ = (.ok b, s₂) := last
  rw [eval, finally_run, Prog.drive_bind, value, Prog.drive_bind, value']
  rfl

end Client

/-- A way to serve the requests of one interface by those of another. -/
structure Interface.Hom (I J : Interface) where
  query : I.Query → J.Query
  rows : ∀ q, J.Rows (query q) → I.Rows q
  action : I.Action → J.Action
  outcome : ∀ x, J.Outcome (action x) → I.Outcome x

variable (φ : Interface.Hom I J)

def Prog.translate : Prog I α → Prog J α
  | .ret a => .ret a
  | .ask .connect next => .ask .connect fun r => (next r).translate
  | .ask (.sql q) next => .ask (.sql (φ.query q)) fun r => (next (r.map (φ.rows q))).translate
  | .ask .commit next => .ask .commit fun r => (next r).translate
  | .ask .rollback next => .ask .rollback fun r => (next r).translate
  | .ask .close next => .ask .close fun r => (next r).translate
  | .ask (.act x) next => .ask (.act (φ.action x)) fun r => (next (φ.outcome x r)).translate

def Client.translate (p : Client I ε α) : Client J ε α := .mk (Prog.translate φ p.run)

end DbLab.Store
