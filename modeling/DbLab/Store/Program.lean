import Mathlib

/-!
# Client programs of a transactional store

A client talks to the store one request at a time: it connects, runs statements, commits or rolls
back and closes. Every request may fail. Between requests it may act on the world outside the store.
A program is the tree of its requests; it is a monad, and with `ExceptT` on top it raises and
handles exceptions.
-/

namespace DbLab.Store

/-- Why a request failed. A duplicate key is the one failure that says something about the data. -/
inductive Failure where
  | duplicate
  | lockTimeout
  | deadlock
  | server (code : Nat)
  | lost
deriving DecidableEq

/-- The statements of a store and the rows they return, and the actions of its clients outside the
store and what they bring back. -/
structure Interface where
  Query : Type
  Rows : Query → Type
  Action : Type
  Outcome : Action → Type

variable {I : Interface}

inductive Op (I : Interface) where
  | connect
  | sql (q : I.Query)
  | commit
  | rollback
  | close
  | act (x : I.Action)

abbrev Op.Reply : Op I → Type
  | .connect | .commit | .rollback => Except Failure Unit
  | .sql q => Except Failure (I.Rows q)
  | .close => Unit
  | .act x => I.Outcome x

/-- A program: a result, or a request and what to do with the reply. -/
inductive Prog (I : Interface) (α : Type) where
  | ret (a : α)
  | ask (op : Op I) (next : op.Reply → Prog I α)

namespace Prog
variable {α β : Type}

def bind (p : Prog I α) (f : α → Prog I β) : Prog I β :=
  match p with
  | .ret a => f a
  | .ask op next => .ask op fun r => (next r).bind f

instance : Monad (Prog I) where
  pure := .ret
  bind := bind

/-- No request of a program ends it, so `finally` runs its block after any result. -/
instance : MonadFinally (Prog I) where
  tryFinally' p f := p >>= fun a => f (some a) >>= fun b => .ret (a, b)

/-- A result is a program. -/
@[simp] lemma pure_eq (a : α) : (pure a : Prog I α) = .ret a := rfl
/-- After a result. -/
@[simp] lemma ret_bind (a : α) (f : α → Prog I β) : (Prog.ret a >>= f) = f a := rfl
/-- After a question. -/
@[simp] lemma ask_bind (op : Op I) (next : op.Reply → Prog I α) (f : α → Prog I β) :
    (Prog.ask op next >>= f) = .ask op fun r => next r >>= f := rfl

instance : LawfulMonad (Prog I) := .mk' _
  (fun p => by
    induction p with
    | ret a => rfl
    | ask op next ih => exact congrArg (Prog.ask op) (funext ih))
  (fun _ _ => rfl)
  (fun p f g => by
    induction p with
    | ret a => rfl
    | ask op next ih => exact congrArg (Prog.ask op) (funext ih))

def request (op : Op I) : Prog I op.Reply := .ask op .ret

end Prog

/-- Programs that may raise. -/
abbrev Client (I : Interface) (ε α : Type) := ExceptT ε (Prog I) α

namespace Client
variable {ε : Type}

/-- A failed request raises. -/
def raising {α : Type} (raise : Failure → ε) : Except Failure α → Except ε α
  | .ok a => .ok a
  | .error e => .error (raise e)

def connect (raise : Failure → ε) : Client I ε Unit :=
  .mk (.ask .connect fun r => .ret (raising raise r))

def execute (raise : Failure → ε) (q : I.Query) : Client I ε (I.Rows q) :=
  .mk (.ask (.sql q) fun r => .ret (raising raise r))

def commit (raise : Failure → ε) : Client I ε Unit :=
  .mk (.ask .commit fun r => .ret (raising raise r))

def rollback (raise : Failure → ε) : Client I ε Unit :=
  .mk (.ask .rollback fun r => .ret (raising raise r))

def close : Client I ε Unit := .mk (.ask .close fun _ => .ret (.ok ()))

def act (x : I.Action) : Client I ε (I.Outcome x) := .mk (.ask (.act x) fun a => .ret (.ok a))

/-- `try … finally …`: the block runs in any case, and what it raises replaces what came before. -/
lemma finally_run {α β : Type} (p : Client I ε α) (block : Client I ε β) :
    (tryFinally p block : Client I ε α).run = p.run >>= fun r => block.run >>= fun b =>
      .ret (b.bind fun _ => r) := by
  simp only [tryFinally, MonadFinally.tryFinally', ExceptT.run_map, ExceptT.run_mk]
  simp only [← bind_pure_comp, bind_assoc]
  refine congrArg (Prog.bind p) (funext fun r => ?_)
  cases r with
  | error e =>
    refine congrArg (Prog.bind block) (funext fun b => ?_)
    cases b <;> rfl
  | ok a =>
    refine congrArg (Prog.bind block) (funext fun b => ?_)
    cases b <;> rfl

end Client

end DbLab.Store
