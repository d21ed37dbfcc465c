import DbLab.Py.Round
import DbLab.Py.Value

/-!
# Plans (`simulation.Plan`)

A plan is validated before its operations are drawn. Names and types that `validate` refuses have no
value here. The arithmetic is that of the interpreter's floats: every result that is not an integer
is rounded, and nothing is known of the rounding but that it is monotone.
-/

namespace DbLab.Mvp.Simulation
open DbLab.Py

/-- `SCENARIOS` -/
inductive Scenario where
  | dbNetworkDelay | dbNetworkLoss | baseline | kafkaOutage | esOutage | redisOutage | dbFreeze
  | workerFreeze | redisRecreate | redisSwitch | rowLock | duplicateRetry | versionRace
deriving DecidableEq, Repr

/-- The action of a scenario. -/
def Scenario.action : Scenario → Option String
  | dbNetworkDelay => some "netem-delay"
  | dbNetworkLoss => some "netem-loss"
  | kafkaOutage | esOutage | redisOutage => some "stop"
  | dbFreeze | workerFreeze => some "pause"
  | redisRecreate => some "recreate"
  | redisSwitch => some "switch"
  | rowLock => some "row-lock"
  | baseline | duplicateRetry | versionRace => none

/-- `WORKLOADS` -/
inductive Workload where
  | mixed | readHeavy | writeHeavy | hotKey
deriving DecidableEq, Repr

inductive Kind where
  | create | read | update | retry | race | search | lockUpdate
deriving DecidableEq, Repr

/-- The kinds of a workload, each with its weight. -/
def Workload.kinds : Workload → List (Kind × Nat)
  | mixed => [(.create, 25), (.read, 30), (.update, 15), (.retry, 10), (.race, 10), (.search, 10)]
  | readHeavy => [(.create, 10), (.read, 55), (.update, 5), (.retry, 10), (.race, 5), (.search, 15)]
  | writeHeavy =>
    [(.create, 35), (.read, 10), (.update, 25), (.retry, 10), (.race, 15), (.search, 5)]
  | hotKey => [(.create, 10), (.read, 45), (.update, 20), (.retry, 10), (.race, 10), (.search, 5)]

/-- `rate`, an integer or a float. -/
inductive Rate where
  | int (n : Int)
  | float (v : FloatView)
deriving DecidableEq

/-- The number that a finite rate is. -/
def Rate.value : Rate → Rat
  | .int n => n
  | .float (.finite q) => q
  | .float _ => 0

def Rate.view : Rate → FloatView
  | .int n => .finite n
  | .float v => v

/-- The float `0.2`. -/
def minRate : Rat := 3602879701896397 / 2 ^ 54

structure Plan where
  scenario : Scenario
  seed : Int
  seconds : Int
  rate : Rate
  workers : Int
  faultAt : Int
  faultFor : Int
  recoveryTimeout : Int
  workload : Workload
deriving DecidableEq

/-- `Random(seed)` as the plan uses it: what is drawn for the operation with a given number. -/
structure Random where
  choices : Nat → List (Kind × Nat) → Kind
  randrange : Nat → Nat → Nat
  randint : Nat → Nat → Nat → Nat

/-- An operation; it is due `atSeconds` after the start of the workload. -/
structure Operation where
  number : Nat
  atSeconds : Rat
  kind : Kind
  target : Nat
  quantity : Nat
  unitPrice : Nat
deriving DecidableEq

namespace Plan
variable (R : Rounding) (p : Plan)

/-- `self.seconds * self.rate` -/
def planned : Rat :=
  match p.rate with
  | .int n => p.seconds * n
  | .float _ => R.fl (p.seconds * p.rate.value)

/-- `0.2 <= self.rate <= 10` for a finite rate. -/
def rateFits : Bool :=
  match p.rate.view with
  | .finite q => minRate ≤ q && q ≤ 10
  | _ => false

def bounded : Bool :=
  0 ≤ p.seed && p.seed ≤ 2 ^ 32 - 1 && 15 ≤ p.seconds && p.seconds ≤ 180 && 1 ≤ p.workers &&
    p.workers ≤ 8 &&
    1 ≤ p.faultFor && p.faultFor ≤ 30 && 1 ≤ p.faultAt && p.faultAt < p.seconds &&
      5 ≤ p.recoveryTimeout &&
    p.recoveryTimeout ≤ 300

/-- `validate` -/
def validate : Except Exn Unit :=
  if !p.bounded then
    .error (.valueError "Bounded study limits exceeded; inspect simulate run --help")
  else if !p.rateFits then
    .error (.valueError "rate must be finite and 0.2..10 admitted workflows/second")
  else if p.scenario = .versionRace ∧ p.workers < 2 then
    .error (.valueError "version-race requires at least two concurrent HTTP slots")
  else if 400 < p.planned R then
    .error (.valueError "At most 400 planned workflows per run; this is not a stress platform")
  else if p.scenario.action.isSome ∧ p.seconds < p.faultAt + p.faultFor + 5 then
    .error (.valueError "Leave at least five planned post-fault seconds")
  else .ok ()

/-- What an operation does: some scenarios have one kind of their own. -/
def kindOf (drawn : Kind) (i : Nat) : Kind :=
  match p.scenario with
  | .duplicateRetry => .retry
  | .versionRace => .race
  | .rowLock => if i % 2 = 0 then .lockUpdate else .read
  | _ => drawn

/-- One operation of the plan. -/
def operation (D : Random) (i : Nat) : Operation where
  number := i
  atSeconds := R.fl (roundTo 6 (R.fl (i / p.rate.value)))
  kind := p.kindOf (D.choices i p.workload.kinds) i
  target := if p.workload = .hotKey ∨ p.scenario = .rowLock then 0 else D.randrange i 6
  quantity := D.randint i 1 5
  unitPrice := D.randint i 10 500

/-- `operations` -/
def operations (D : Random) : Except Exn (List Operation) := do
  p.validate R
  return (List.range ⌊p.planned R⌋.toNat).map (p.operation R D)

end Plan

section
variable {R : Rounding} {D : Random} {p : Plan} {ops : List Operation}

/-- Operations are numbered from zero. -/
lemma operations_numbers (h : p.operations R D = .ok ops) :
    ops.map Operation.number = List.range ops.length := by
  unfold Plan.operations at h
  cases valid : p.validate R with
  | error e =>
    rw [valid] at h
    cases h
  | ok u =>
    rw [valid] at h
    cases h
    rw [List.map_map, List.length_map, List.length_range]
    exact List.map_id' _

end

end DbLab.Mvp.Simulation
