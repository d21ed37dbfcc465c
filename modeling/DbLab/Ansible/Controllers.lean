import DbLab.Ansible.Command

/-!
# The controllers behind the policy

How `simulate`, `study` and `drills` read their arguments (`add_parser`, `cli`) and what they
accept: `Plan.validate` of `simulation.py` and `options` of `transaction_model.py`. The numbers on a
command line are read in the spelling of JSON; `int` and `float` of Python accept more.
-/

namespace DbLab.Ansible
open DbLab.Py

/-! ### argparse -/

/-- `type=` and `choices=` of an argument. -/
inductive Kind where
  | int
  | float
  | choice (names : List String)
  | text
deriving DecidableEq

/-- An option: its flag, the attribute it sets and how its text is read. -/
abbrev ArgTable := List (String × String × Kind)

/-- The keys of `WORKLOADS` in `simulation.py`. -/
def workloadNames : List String := ["mixed", "read-heavy", "write-heavy", "hot-key"]

/-- `SCENARIOS` of `simulation.py`: the name and whether a fault is injected. -/
def scenarios : List (String × Bool) :=
  [("db-network-delay", true), ("db-network-loss", true), ("baseline", false),
    ("kafka-outage", true),
   ("es-outage", true), ("redis-outage", true), ("db-freeze", true), ("worker-freeze", true),
   ("redis-recreate", true), ("redis-switch", true), ("row-lock", true), ("duplicate-retry", false),
   ("version-race", false)]

/-- `PAIRED` of `study.py`. -/
def studyScenarios : List String :=
  ["kafka-outage", "es-outage", "redis-outage", "db-freeze", "worker-freeze", "redis-recreate",
   "redis-switch", "db-network-delay", "db-network-loss"]

/-- `SCENARIOS` of `transaction_model.py`. -/
def transactionScenarios : List String :=
  ["stock-race", "duplicate-checkout", "checkout-rollback", "commit-ambiguity",
    "idempotency-conflict",
   "refund-race"]

/-- `DRILLS` of `advanced.py`. -/
def drillKinds : List String :=
  ["backup-restore", "upgrade-restore", "redis-disk-full", "redis-oom", "deadlock"] ++
    transactionScenarios

def simulateOptions : ArgTable :=
  [("--seed", "seed", .int), ("--seconds", "seconds", .int), ("--rate", "rate", .float),
   ("--workers", "workers", .int), ("--fault-at", "fault_at", .int),
   ("--fault-for", "fault_for", .int), ("--recovery-timeout", "recovery_timeout", .int),
   ("--workload", "workload", .choice workloadNames)]

def studyOptions (run : Bool) : ArgTable :=
  simulateOptions ++ if run then [("--step-timeout", "step_timeout", .int)] else []

def drillOptions (run : Bool) : ArgTable :=
  [("--clients", "clients", .int), ("--seed", "seed", .int)] ++
    if run then [("--candidate-image", "candidate_image", .text), ("--snapshot", "snapshot", .text)]
      else []

variable [Interpreter]

def readArg (kind : Kind) (s : Str) : Option Value :=
  match kind with
  | .int => match scanNumber s with
    | .ok (.int n, []) => some (.int n)
    | _ => none
  | .float => match scanNumber s with
    | .ok (.int n, []) => (Interpreter.ofInt n).map .float
    | .ok (.float x, []) => some (.float x)
    | _ => none
  | .choice names => if named names s then some (.str s) else none
  | .text => some (.str s)

/-- The options behind the positional argument: whether `--yes` is there, and the attributes that
are set. The last of two equal options counts. -/
def readOptions (table : ArgTable) : List Str → Option (Bool × Fields)
  | [] => some (false, [])
  | [t] => if t = str "--yes" then some (true, []) else none
  | t :: v :: r =>
    if t = str "--yes" then (readOptions table (v :: r)).map fun e => (true, e.2)
    else if v.head? = some 45 then none
    else match table.find? fun e => t = str e.1 with
      | none => none
      | some (_, dest, kind) => match readArg kind v, readOptions table r with
        | some val, some (yes, fields) =>
          some (yes, if (lookup (str dest) fields).isSome then fields
            else (str dest, val) :: fields)
        | _, _ => none

/-- One positional argument and the options behind it; `run` requires `--yes`, `plan` does not know
it. -/
def parseArgs (choices : List String) (table : ArgTable) (run : Bool) :
    List Str → Option (Str × Fields)
  | name :: rest =>
    if named choices name then
      match readOptions table rest with
      | some (yes, fields) => if yes = run then some (name, fields) else none
      | none => none
    else none
  | [] => none

/-! ### `Plan` -/

structure SimPlan where
  scenario : Str
  seed : Value
  seconds : Value
  rate : Value
  workers : Value
  faultAt : Value
  faultFor : Value
  recoveryTimeout : Value
  workload : Value

/-- `Plan(**...)`, with the defaults of the parser. -/
def SimPlan.of (scenario : Str) (args : Fields) : SimPlan where
  scenario := scenario
  seed := args.getD "seed" (.int 42)
  seconds := args.getD "seconds" (.int 40)
  rate := args.getD "rate" (.int 2)
  workers := args.getD "workers" (.int 4)
  faultAt := args.getD "fault_at" (.int 8)
  faultFor := args.getD "fault_for" (.int 10)
  recoveryTimeout := args.getD "recovery_timeout" (.int 90)
  workload := args.getD "workload" (.str (str "mixed"))

/-- `type(rate) in (float, int) and math.isfinite(rate) and 0.2 <= rate <= 10` -/
def rateAdmitted (v : Value) : Except Exn Bool := do
  if v.isNumber then
    if ← v.isfinite then return v.within (.finite fifth) (.finite 10) else return false
  else return false

def SimPlan.validate (p : SimPlan) : Except Exn Unit := do
  require (named (scenarios.map Prod.fst) p.scenario && p.workload.oneOf workloadNames)
    "Unknown scenario/workload"
  [("seed", p.seed), ("seconds", p.seconds), ("workers", p.workers), ("fault_at", p.faultAt),
    ("fault_for", p.faultFor), ("recovery_timeout", p.recoveryTimeout)].forM fun e =>
      require e.2.isInt (e.1 ++ " must be an integer")
  require (p.seed.between 0 (2 ^ 32 - 1) && p.seconds.between 15 180 &&
      p.workers.between 1 8 && p.faultFor.between 1 30 &&
      (← (Value.int 1).le p.faultAt) && (← p.faultAt.lt p.seconds) &&
      p.recoveryTimeout.between 5 300)
    "Bounded study limits exceeded; inspect simulate run --help"
  require (← rateAdmitted p.rate) "rate must be finite and 0.2..10 admitted workflows/second"
  require (p.scenario ≠ str "version-race" || !(← p.workers.lt (.int 2)))
    "version-race requires at least two concurrent HTTP slots"
  require (!(← (Value.int 400).lt (← p.seconds.mul p.rate)))
    "At most 400 planned workflows per run; this is not a stress platform"
  let late ← p.seconds.lt (← (← p.faultAt.add p.faultFor).add (.int 5))
  require (!(named ((scenarios.filter Prod.snd).map Prod.fst) p.scenario && late))
    "Leave at least five planned post-fault seconds"

/-! ### `options` -/

def txOptions (scenario : Str) (clients seed : Value) : Except Exn Unit := do
  require (named transactionScenarios scenario) "Unknown transaction scenario"
  require (clients.isInt && clients.between 2 8)
    "Transaction clients must be an integer in 2..8"
  require (seed.isInt && seed.between 0 (2 ^ 31 - 1))
    "Transaction seed must be an integer in 0..2147483647"

/-- `candidate(value)`; the pattern is the same text as the policy's. -/
def candidate (value : Value) : Except Exn Unit :=
  match value with
  | .str s => require (imageRe.fullmatch s) "Use an explicitly versioned official MariaDB image"
  | _ => .error (.valueError "Use an explicitly versioned official MariaDB image")

/-! ### What `cli` checks about its arguments -/

def isOk {α : Type} : Except Exn α → Bool
  | .ok _ => true
  | .error _ => false

def simulateCli (run : Bool) (tokens : List Str) : Bool :=
  match parseArgs (scenarios.map Prod.fst) simulateOptions run tokens with
  | some (scenario, args) => isOk (SimPlan.of scenario args).validate
  | none => false

def studyCli (run : Bool) (tokens : List Str) : Bool :=
  match parseArgs studyScenarios (studyOptions run) run tokens with
  | some (scenario, args) =>
    isOk (SimPlan.of scenario args).validate &&
      (!run || (args.getD "step_timeout" (.int 650)).isInt &&
        (args.getD "step_timeout" (.int 650)).between 120 1200)
  | none => false

/-- The transaction lessons check their numbers, the other drills refuse them; an image and a
snapshot belong to the restore trials. -/
def drillsCli (run : Bool) (tokens : List Str) : Bool :=
  match parseArgs drillKinds (drillOptions run) run tokens with
  | some (kind, args) =>
    (if named transactionScenarios kind then
      isOk (txOptions kind (args.getD "clients" (.int 4)) (args.getD "seed" (.int 42)))
    else (lookup (str "clients") args).isNone && (lookup (str "seed") args).isNone) &&
    (!run ||
      (if kind = str "upgrade-restore" then isOk (candidate (args.getD "candidate_image" .null))
      else !(args.getD "candidate_image" .null).truthy) &&
      (!(args.getD "snapshot" .null).truthy || named ["backup-restore", "upgrade-restore"] kind))
  | none => false

/-- `cli` of the controller that `manage.py` dispatches to. -/
def dispatch (action : Str) (run : Bool) (tokens : List Str) : Bool :=
  if action = str "simulate" then simulateCli run tokens
  else if action = str "study" then studyCli run tokens
  else action = str "drills" && drillsCli run tokens

/-- The controller that `all.sh` hands the words to accepts them. -/
def controllerAccepts : List Str → Bool
  | mvp :: action :: verb :: tokens =>
    mvp = str "mvp" && named ["plan", "run"] verb && dispatch action (verb = str "run") tokens
  | _ => false

end DbLab.Ansible
