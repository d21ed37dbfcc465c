import DbLab.Mvp.Plan

/-!
# The scheduler of a workload (`simulation.Runner.schedule`)

The scheduler goes through the operations of a plan one reading or writing at a time. Between any
two of its steps time passes, workflows of the pool start and end, and the run may be cancelled.
-/

namespace DbLab.Mvp.Simulation
open DbLab.Py

/-- Where the workflow of an operation is. -/
inductive Stage where
  | idle
  | queued
  | running
  | done
  | failed
deriving DecidableEq

/-- Submitted and not over. -/
def Stage.active : Stage → Bool
  | queued | running => true
  | _ => false

/-- `future.done()` -/
def Stage.ended : Stage → Bool
  | done | failed => true
  | _ => false

/-- What the scheduler does next. -/
inductive Pc where
  | top (rest : List Operation)
  | waiting (op : Operation) (rest : List Operation) (until_ : Rat)
  | woken (op : Operation) (rest : List Operation)
  | polling (op : Operation) (rest : List Operation) (todo done : List Nat)
  | deciding (op : Operation) (rest : List Operation)
  | submitting (op : Operation) (rest : List Operation)
  | draining (todo : List Nat)
  | keeping (until_ : Rat)
  | returned
  | raised (rest : List Operation)

/-- A call of `schedule` with the operations of a plan. -/
structure Setup where
  R : Rounding
  D : Random
  plan : Plan
  ops : List Operation
  drawn : plan.operations R D = .ok ops
  start : Rat

namespace Setup
variable (S : Setup)

def finish : Rat := S.R.fl (S.start + S.plan.seconds)

/-- `1 / self.plan.rate` -/
def interval : Rat := S.R.fl (1 / S.plan.rate.value)

def due (op : Operation) : Rat := S.R.fl (S.start + op.atSeconds)

/-- `time.monotonic() - due >= 1 / self.plan.rate` -/
def Late (op : Operation) (now : Rat) : Prop := S.interval ≤ S.R.fl (now - S.due op)

instance (op : Operation) (now : Rat) : Decidable (S.Late op now) :=
  inferInstanceAs (Decidable (S.interval ≤ S.R.fl (now - S.due op)))

/-- When `self.cancel.wait(max(0, t - time.monotonic()))` returns unless the run is cancelled. -/
def wake (t now : Rat) : Rat := now + max 0 (S.R.fl (t - now))

end Setup

/-- A state of the run. The last four fields are not the program's: which operations were admitted
and what the clock read when they were, which ones were skipped, which ones the pool was given, and
when their workflows started. -/
structure Run where
  now : Rat
  cancelled : Bool
  stage : Nat → Stage
  pc : Pc
  inflight : List Nat
  admitted : Nat
  skipped : Nat
  admissions : List (Nat × Rat)
  skips : List Nat
  submitted : List Nat
  startedAt : Nat → Option Rat

/-- The run when `schedule` is called. -/
def Setup.init (S : Setup) : Run where
  now := S.start
  cancelled := false
  stage _ := .idle
  pc := .top S.ops
  inflight := []
  admitted := 0
  skipped := 0
  admissions := []
  skips := []
  submitted := []
  startedAt _ := none

/-- How many workflows of the plan are at a stage. -/
def Setup.count (S : Setup) (r : Run) (p : Stage → Bool) : Nat :=
  (S.ops.map Operation.number).countP fun n => p (r.stage n)

/-- All that is left is skipped. -/
def Run.skipRest (r : Run) (S : Setup) (op : Operation) (rest : List Operation) : Run :=
  { r with
    skipped := r.skipped + (S.ops.length - op.number)
    skips := r.skips ++ (op :: rest).map Operation.number
    pc := .draining r.inflight }

inductive Step (S : Setup) (r : Run) : Run → Prop where
  -- what happens around the scheduler
  | tick (t : Rat) (later : r.now ≤ t) : Step S r { r with now := t }
  | cancel : Step S r { r with cancelled := true }
  | begins (n : Nat) (queued : r.stage n = .queued)
      (free : S.count r (· = .running) < S.plan.workers) :
    Step S r { r with
      stage := Function.update r.stage n .running
      startedAt := Function.update r.startedAt n (some r.now) }
  | ends (n : Nat) (running : r.stage n = .running) (ok : Bool) :
    Step S r { r with stage := Function.update r.stage n (if ok then .done else .failed) }
  -- the next operation, unless the run is cancelled or over
  | stop {op rest} (pc : r.pc = .top (op :: rest)) (ended : r.cancelled = true ∨ S.finish ≤ r.now) :
    Step S r (r.skipRest S op rest)
  | next {op rest} (pc : r.pc = .top (op :: rest)) (on : r.cancelled = false)
      (within : r.now < S.finish) :
    Step S r { r with pc := .waiting op rest (S.wake (S.due op) r.now) }
  | last (pc : r.pc = .top []) : Step S r { r with pc := .draining r.inflight }
  | wake {op rest t} (pc : r.pc = .waiting op rest t) (ended : r.cancelled = true ∨ t ≤ r.now) :
    Step S r { r with pc := .woken op rest }
  | cancelled {op rest} (pc : r.pc = .woken op rest) (ended : r.cancelled = true) :
      Step S r (r.skipRest S op rest)
  -- the futures that are done, asked one by one
  | poll {op rest} (pc : r.pc = .woken op rest) (on : r.cancelled = false) :
    Step S r { r with pc := .polling op rest r.inflight [] }
  | ask {op rest f todo done} (pc : r.pc = .polling op rest (f :: todo) done) :
    Step S r
      { r with pc := .polling op rest todo (if (r.stage f).ended then done ++ [f] else done) }
  | result {op rest done f} (pc : r.pc = .polling op rest [] done) (mem : f ∈ done)
      (failed : r.stage f = .failed) :
    Step S r { r with pc := .raised (op :: rest) }
  | reap {op rest done} (pc : r.pc = .polling op rest [] done) (fine : ∀ f ∈ done,
      r.stage f ≠ .failed) :
    Step S r { r with pc := .deciding op rest, inflight := r.inflight.filter (· ∉ done) }
  -- one slot is skipped, or the operation is admitted and then handed to the pool
  | skip {op rest} (pc : r.pc = .deciding op rest) (refuse : S.plan.workers ≤ r.inflight.length ∨
      S.Late op r.now) :
    Step S r { r with pc := .top rest, skipped := r.skipped + 1, skips := r.skips ++ [op.number] }
  | accept {op rest} (pc : r.pc = .deciding op rest) (room : r.inflight.length < S.plan.workers)
      (prompt : ¬ S.Late op r.now) :
    Step S r { r with
      pc := .submitting op rest
      admitted := r.admitted + 1
      admissions := r.admissions ++ [(op.number, r.now)] }
  | submit {op rest} (pc : r.pc = .submitting op rest) :
    Step S r { r with
      pc := .top rest
      stage := Function.update r.stage op.number .queued
      inflight := r.inflight ++ [op.number]
      submitted := r.submitted ++ [op.number] }
  -- the results of what is still in flight, and the rest of the window
  | await {f todo} (pc : r.pc = .draining (f :: todo)) (done : r.stage f = .done) :
    Step S r { r with pc := .draining todo }
  | fails {f todo} (pc : r.pc = .draining (f :: todo)) (failed : r.stage f = .failed) :
    Step S r { r with pc := .raised [] }
  | keep (pc : r.pc = .draining []) : Step S r { r with pc := .keeping (S.wake S.finish r.now) }
  | returns {t} (pc : r.pc = .keeping t) (ended : r.cancelled = true ∨ t ≤ r.now) :
      Step S r { r with pc := .returned }

/-- The states that a call of `schedule` reaches. -/
inductive Reachable (S : Setup) : Run → Prop where
  | init : Reachable S S.init
  | step {r r' : Run} (h : Reachable S r) (step : Step S r r') : Reachable S r'

end DbLab.Mvp.Simulation
