import DbLab.Proc.Program

/-!
# One fault at a time (`sim_engine.py`, `advanced.py`, `messages.py`, `manage.py`)

Simulations, drills and message runs leave a marker file each while something has to be undone.
Every command checks the markers before it writes its own or changes the shared services, one
command runs at a time, and it may fail or be killed at any call. What it has the engine do to the
shared services is a process of its own, which a killed command leaves running. Of the commands only
what concerns the markers and the engine is spelled out; what else may fail is a guard.
-/

namespace DbLab.Mvp.Faults
open DbLab.Proc Relation Function

/-! ### The files and the engine -/

/-- The markers `simulation-active.json`, `drill-active.json` and `message-active.json`. -/
inductive Kind where
  | simulation
  | drill
  | message
deriving DecidableEq

/-- What a marker holds of the run that it belongs to. -/
abbrev Marker := Nat

/-- The markers that exist. -/
abbrev Markers := Kind → Option Marker

/-- A change of the shared services: the markers when a command asked for it, those when the engine
made it, and whether the command still waited for the engine then. -/
structure Change where
  asked : Markers
  made : Markers
  awaited : Bool

/-- The markers; the process that the running command waits for, and those that no command waits for
any more, each with the markers at its start; and the changes of the shared services. -/
structure State where
  marker : Markers
  waited : Option Markers
  left : List Markers
  lifecycle : List Change

/-- Nothing is waited for any more, and what was is left to itself. -/
def State.leave (s : State) : State := { s with waited := none, left := s.left ++ s.waited.toList }

/-- What the commands raise: their own refusals, or what a call raises. -/
inductive Raised where
  | unfinished (k : Kind)
  | different
  | pending
  | guard
  | interrupt

/-- A call raises no refusal. -/
def Raised.foreign : Raised → Bool
  | .guard | .interrupt => true
  | _ => false

/-- `ALLOWED` -/
inductive Action where
  | stop
  | pause
  | recreate
  | switch
  | rowLock
  | netemDelay
  | netemLoss

inductive Call where
  | lock
  | guard (what : String)
  | chance (what : String)
  | action
  | exists (k : Kind)
  | scope
  | write (k : Kind) (m : Marker)
  | unlink (k : Kind)
  | engine
  | start
  | wait

abbrev Call.Result : Call → Type
  | .chance _ | .exists _ => Bool
  | .action => Action
  | .scope => Marker
  | _ => Unit

def calls : Interface := ⟨Call, Call.Result⟩

abbrev Method (α : Type) := Prog calls Raised α

abbrev ask (x : Call) : Method x.Result := Prog.ask (I := calls) x

/-- A call returns. -/
inductive Answers : (x : Call) → State → x.Result → State → Prop where
  | lock (s) : Answers .lock s () s
  | guard (s what) : Answers (.guard what) s () s
  | chance (s what) (b : Bool) : Answers (.chance what) s b s
  | action (s) (a : Action) : Answers .action s a s
  | exists (s k) : Answers (.exists k) s (s.marker k).isSome s
  | scope {s m} (active : s.marker .message = some m) : Answers .scope s m s
  | write (s k m) : Answers (.write k m) s () { s with marker := update s.marker k (some m) }
  | unlink (s k) : Answers (.unlink k) s () { s with marker := update s.marker k none }
  | engine (s) : Answers .engine s () s
  | start (s) : Answers .start s () { s.leave with waited := some s.marker }
  | wait (s) : Answers .wait s () { s with waited := none }

/-- A call returns or raises, without its effect or after it. Once it has raised, nothing is waited
for. -/
inductive Does (x : Call) : State → Except Raised x.Result → State → Prop where
  | answers {s a s'} (h : Answers x s a s') : Does x s (.ok a) s'
  | fails (s) {e : Raised} (own : e.foreign = true) : Does x s (.error e) s.leave
  | lost {s a s'} {e : Raised} (own : e.foreign = true) (h : Answers x s a s') :
      Does x s (.error e) s'.leave

/-- A process changes the shared services at any time until it ends, whether or not a command waits
for it. -/
inductive Drifts : State → State → Prop where
  | works {s m} (waited : s.waited = some m) :
    Drifts s { s with lifecycle := s.lifecycle ++ [⟨m, s.marker, true⟩] }
  | late {s m} (left : m ∈ s.left) :
      Drifts s { s with lifecycle := s.lifecycle ++ [⟨m, s.marker, false⟩] }
  | ends {s rest} (fewer : rest.Sublist s.left) : Drifts s { s with left := rest }

/-- The surroundings of the commands. The lock goes with the command that held it, a process does
not. -/
def files : World calls Raised where
  State := State
  does := Does
  drifts := Drifts
  killed s s' := s' = s.leave

/-! ### Checks -/

def refuse (k : Kind) : Method Unit := do
  let active ← ask (.exists k)
  if active then throw (.unfinished k) else pure ()

/-- `require_no_active_fault` -/
def requireNoActiveFault : Method Unit := do
  refuse .simulation
  refuse .drill
  refuse .message

/-- `DockerLab.preflight` -/
def preflight : Method Unit := do
  refuse .message
  ask (.guard "binding")
  ask (.guard "identity")
  refuse .drill
  refuse .simulation
  ask (.guard "mode")
  ask (.guard "services")

/-! ### Simulations -/

/-- What an action does to the engine, to the marker and to `experiment.json`, and where it may
stop. -/
inductive Effect where
  | engine
  | maybe
  | save
  | file
  | check

/-- The steps of `apply` for an action. -/
def Action.effects : Action → List Effect
  | .netemDelay | .netemLoss => [.check, .save, .engine, .save, .check, .engine, .check]
  | .stop | .pause | .rowLock => [.engine, .check]
  | .recreate => [.engine, .check, .save, .check]
  | .switch => [.engine, .check, .save, .file, .engine]

/-- The steps of `restore` for an action. -/
def Action.undo : Action → List Effect
  | .netemDelay | .netemLoss => [.check, .maybe, .engine, .check, .maybe]
  | .stop | .pause => [.check, .maybe, .check]
  | .recreate => [.check, .maybe]
  | .switch => [.check, .file, .engine, .maybe]
  | .rowLock => [.engine, .check]

def effect (run : Marker) : Effect → Method Unit
  | .engine => ask .engine
  | .maybe => do
    let there ← ask (.chance "container")
    if there then ask .engine else pure ()
  | .save => ask (.write .simulation run)
  | .file => ask (.guard "experiment.json")
  | .check => ask (.guard "observation")

def effects (run : Marker) : List Effect → Method Unit
  | [] => pure ()
  | e :: es => do
    effect run e
    effects run es

/-- `DockerLab.apply` -/
def apply (run : Marker) (a : Action) : Method Unit := do
  ask (.guard "arguments")
  refuse .simulation
  ask (.guard "target")
  ask (.write .simulation run)
  effects run a.effects
  ask (.write .simulation run)

/-- `DockerLab.restore` -/
def restore (run : Marker) : Method Unit := do
  let active ← ask (.exists .simulation)
  if active then do
    let a ← ask .action
    effects run a.undo
    ask (.unlink .simulation)
  else pure ()

/-- `except Exception` -/
def quietly (p : Method Unit) : Method Unit := tryCatch p fun _ => pure ()

/-- `Runner.fault` -/
def fault (run : Marker) (a : Option Action) : Method Unit := do
  let due ← ask (.chance "due")
  match a with
  | some a =>
    if due then do
      quietly (apply run a)
      quietly (restore run)
    else pure ()
  | none => pure ()

/-- `Runner.run`: once the workload has started, the fault takes its course. -/
def simulate (run : Marker) (a : Option Action) : Method Unit := quietly do
  preflight
  ask (.guard "baseline")
  fault run a
  let settled ← ask (.chance "settled")
  if settled then preflight else pure ()

/-- `simulate run` -/
def simulateRun (run : Marker) (a : Option Action) : Method Unit := do
  ask .lock
  ask (.guard "configuration")
  simulate run a

/-! ### Disposable drills -/

/-- `Disposable.create` -/
def create (run : Marker) : Method Unit := do
  ask (.guard "image")
  ask (.write .drill run)
  ask .engine
  ask (.write .drill run)
  ask (.guard "ownership")

/-- The containers of a drill, and what is done with them. -/
def trial (run : Marker) : Nat → Method Unit
  | 0 => ask (.guard "evidence")
  | n + 1 => do
    create run
    ask .engine
    trial run n

/-- `Disposable.cleanup`, for a record that names some containers -/
def removeAll : Nat → Method Unit
  | 0 => pure ()
  | n + 1 => do
    ask (.guard "ownership")
    ask .engine
    removeAll n

def cleanupDrill (containers : Nat) : Method Unit := do
  let active ← ask (.exists .drill)
  if active then do
    ask (.guard "record")
    removeAll containers
    ask (.unlink .drill)
  else pure ()

/-- The checks of `Disposable.begin` -/
def beginDrill : Method Unit := do
  refuse .drill
  refuse .simulation
  ask (.guard "kind")

/-- A drill from its record on, with its cleanup in any case. -/
def recorded (run : Marker) (containers : Nat) : Method Unit :=
  (quietly do
    ask (.write .drill run)
    trial run containers).ensure (quietly (cleanupDrill containers))

/-- `drills run` -/
def drillsRun (run : Marker) (containers : Nat) : Method Unit := do
  ask .lock
  ask (.guard "configuration")
  quietly do
    preflight
    ask (.guard "api")
    beginDrill
    recorded run containers

/-- `drills prepare` -/
def drillsPrepare : Method Unit := do
  ask .lock
  ask (.guard "configuration")
  requireNoActiveFault
  refuse .drill
  refuse .simulation
  ask .engine

/-- `drills recover` -/
def drillsRecover (containers : Nat) : Method Unit := do
  ask .lock
  ask (.guard "configuration")
  cleanupDrill containers

/-! ### Message runs -/

/-- The record of another run is not touched. -/
def ownRecord (scope : Marker) : Method Unit := do
  let active ← ask (.exists .message)
  if active then do
    let record ← ask .scope
    if record ≠ scope then throw .different else pure ()
  else pure ()

/-- The marker of the run goes, where it is still there. -/
def clearRecord (scope : Marker) : Method Unit := do
  let active ← ask (.exists .message)
  if active then do
    let record ← ask .scope
    if record ≠ scope then throw .different else ask (.unlink .message)
  else pure ()

/-- `Session.cleanup` -/
def cleanupSession (scope : Marker) : Method Unit := do
  ask (.guard "ledger")
  ownRecord scope
  ask .engine
  ask (.guard "evidence")
  clearRecord scope

/-- A topic of `Session.create` -/
def createTopic (scope : Marker) : Method Unit := do
  ask (.write .message scope)
  ask .engine
  ask (.guard "topic")
  ask (.write .message scope)

/-- `Session.create` -/
def createSession (scope : Marker) : Method Unit := do
  ask (.write .message scope)
  createTopic scope
  createTopic scope
  ask (.write .message scope)
  ask .engine
  ask (.guard "index")
  ask (.write .message scope)

/-- The `finally` block of `messages run` -/
def finishSession (scope : Marker) (keep passed : Bool) : Method Unit :=
  if passed then
    if keep then do
      ask (.write .message scope)
      ask (.unlink .message)
    else cleanupSession scope
  else ask (.write .message scope)

/-- Whether a part of a run has passed -/
def passes (p : Method Unit) : Method Bool := tryCatch (do p; pure true) fun _ => pure false

/-- `messages run`, once there is a session -/
def session (scope : Marker) (keep : Bool) : Method Unit := do
  let passed ← passes do
    createSession scope
    ask .engine
    ask (.guard "result")
  quietly (finishSession scope keep passed)

/-- `messages run` -/
def messagesRun (scope : Marker) (keep : Bool) : Method Unit := do
  ask .lock
  ask (.guard "configuration")
  requireNoActiveFault
  ask (.guard "directory")
  let started ← passes do
    ask (.guard "retained runs")
    preflight
    ask (.guard "api")
  if started then session scope keep else pure ()

/-- `Another fault is pending` -/
def refusePending : Method Unit := do
  let simulation ← ask (.exists .simulation)
  if simulation then throw .pending
  else do
    let drill ← ask (.exists .drill)
    if drill then throw .pending else pure ()

/-- `messages recover` and `messages cleanup`, for the record of a run -/
def cleanupRun (scope : Marker) : Method Unit := do
  refusePending
  ask (.guard "record")
  ask (.write .message scope)
  cleanupSession scope

/-- `messages recover` -/
def messagesRecover : Method Unit := do
  ask .lock
  ask (.guard "configuration")
  let active ← ask (.exists .message)
  if active then do
    let scope ← ask .scope
    ask (.guard "location")
    cleanupRun scope
  else pure ()

/-- `messages cleanup` -/
def messagesCleanup (scope : Marker) : Method Unit := do
  ask .lock
  ask (.guard "configuration")
  ask (.guard "ledger")
  ownRecord scope
  cleanupRun scope

/-! ### The shared services -/

/-- The commands that change the shared services. -/
inductive Lifecycle where
  | up
  | down
  | stop
  | resume
  | recreate
  | experiment (spare fresh : Bool)
  | rebuildSearch

/-- How often a command has the engine change the services. -/
def Lifecycle.changes : Lifecycle → Nat
  | .up => 4
  | .down | .stop | .resume | .recreate | .rebuildSearch => 1
  | .experiment spare fresh => 1 + spare.toNat + fresh.toNat

/-- `Compose.run`, once for each change -/
def changeServices : Nat → Method Unit
  | 0 => pure ()
  | n + 1 => do
    ask .start
    ask .wait
    ask (.guard "services")
    changeServices n

/-- The branches of `main` for the commands of the lifecycle -/
def manage (l : Lifecycle) : Method Unit := do
  requireNoActiveFault
  refuse .simulation
  refuse .drill
  ask .lock
  requireNoActiveFault
  ask (.guard "target")
  changeServices l.changes

/-- `smoke` -/
def smoke : Method Unit := do
  ask (.guard "configuration")
  ask .lock
  requireNoActiveFault
  ask (.guard "target")
  ask (.guard "probe")

/-! ### Commands -/

inductive Command where
  | simulateRun (run : Marker) (a : Option Action)
  | drillsRun (run : Marker) (containers : Nat)
  | drillsPrepare
  | messagesRun (scope : Marker) (keep : Bool)
  | messagesCleanup (scope : Marker)
  | recover (k : Kind) (run : Marker) (containers : Nat)
  | manage (l : Lifecycle)
  | smoke

/-- The recover command of a kind, with what the record names. -/
def recover (run : Marker) (containers : Nat) : Kind → Method Unit
  | .simulation => do
    ask .lock
    ask (.guard "configuration")
    restore run
  | .drill => drillsRecover containers
  | .message => messagesRecover

def code : Command → Method Unit
  | .simulateRun run a => simulateRun run a
  | .drillsRun run containers => drillsRun run containers
  | .drillsPrepare => drillsPrepare
  | .messagesRun scope keep => messagesRun scope keep
  | .messagesCleanup scope => messagesCleanup scope
  | .recover k run containers => recover run containers k
  | .manage l => manage l
  | .smoke => smoke

end DbLab.Mvp.Faults
