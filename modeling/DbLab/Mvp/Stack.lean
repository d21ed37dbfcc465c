import DbLab.Mvp.Quarantine

/-!
# The stack and what the commands do to it (`manage.main`, `sim_engine.DockerLab`, `messages.cli`)

What `docker compose` makes of the containers is a parameter, with what is documented of it: it
creates a container where there is none, where the image or the environment of the old one is out of
date, and where it is told to, under an identity of its own. Volumes, and with them topics and
indexes, outlive containers. A command is taken as a whole, as its lock has it, and the calls it
makes succeed.
-/

namespace DbLab.Mvp.Stack
open DbLab.Py Message

inductive Service where
  | mariadb
  | kafka
  | elasticsearch
  | redis
  | api
  | worker
  | redisSpare
deriving DecidableEq

/-- `BASE_SERVICES` -/
def baseServices : List Service := [.mariadb, .kafka, .elasticsearch, .redis, .api, .worker]

/-- `SERVICES` -/
def services : List Service := baseServices ++ [.redisSpare]

/-- `MODES` -/
inductive Mode where
  | normal
  | redisSpare
  | badDbPassword
  | freshSearch
deriving DecidableEq

/-- What `environment` adds for a mode. -/
structure Overlay where
  cacheHost : String
  searchIndex : String
  wrongPassword : Bool
deriving DecidableEq

def Mode.overlay : Mode → Overlay
  | normal => ⟨"redis", "mvp-orders-v1", false⟩
  | redisSpare => ⟨"redis-spare", "mvp-orders-v1", false⟩
  | badDbPassword => ⟨"redis", "mvp-orders-v1", true⟩
  | freshSearch => ⟨"redis", "mvp-orders-v2", false⟩

/-- What a mode changes in the environment of a service. The worker keeps its own password. -/
def Service.environment (m : Mode) : Service → Option Overlay
  | api => some m.overlay
  | worker => some { m.overlay with wrongPassword := false }
  | _ => none

/-- `[a-f0-9]{12,64}` -/
def idPattern : Pattern := .seq (hexRun 12) (.upTo lowerHex 52)

/-- The identity of a container, as Docker gives it. -/
abbrev ContainerId := { s : Str // idPattern.fullmatch s = true }

structure Container where
  id : ContainerId
  image : Str
  env : Option Overlay
  running : Bool

structure Topic where
  topicId : Str
  internal : Bool
  partitions : Nat

/-- An index and its `_meta`. -/
structure Index where
  uuid : Str
  studyOwner : Str
  studyRun : Str

/-- `resources` of a ledger: topics and their ids, the name and the UUID of the index. -/
structure Resources where
  topics : List (Str × Str)
  index : Option (Str × Str)

inductive LedgerStage where
  | ready
  | retained
  | failed
  | cleaned
deriving DecidableEq

/-- The ledger of a message run. -/
structure Ledger where
  scope : Scope
  engine : Str
  apiId : ContainerId
  stage : LedgerStage
  resources : Resources

/-- What the commands read and change: the engine, the files of `.state` and `reports`, the
containers of the project, and what Kafka and Elasticsearch have in their volumes. `issued` is not
the program's: the identities there have been. -/
structure World where
  project : Str
  engine : Str
  mode : Mode
  images : Service → Str
  containers : Service → Option Container
  issued : List ContainerId
  simulating : Bool
  drilling : Bool
  active : Option Ledger
  ledgers : Str → Option Ledger
  logSize : Str → Nat
  topics : Str → Option Topic
  indexes : Str → Option Index

/-! ### Compose -/

namespace World
variable (w : World)

/-- The container of a service is not the one that Compose would create. -/
def outdated (s : Service) : Bool :=
  match w.containers s with
  | none => true
  | some c => c.image ≠ w.images s || c.env ≠ s.environment w.mode

/-- A new container of a service. -/
def create (s : Service) (id : ContainerId) : World :=
  { w with
    containers := Function.update w.containers s (some ⟨id, w.images s, s.environment w.mode, true⟩)
    issued := id :: w.issued }

/-- What `up -d` does, with `--force-recreate` or without, where the next identity is the one
given. -/
def up (s : Service) (force : Bool) (id : ContainerId) : World :=
  if force || w.outdated s then w.create s id
  else
    { w with
      containers :=
        Function.update w.containers s ((w.containers s).map fun c => { c with running := true }) }

/-- What `stop` does. -/
def stop (s : Service) : World :=
  { w with
    containers :=
      Function.update w.containers s ((w.containers s).map fun c => { c with running := false }) }

/-- What `down` does. -/
def down : World := { w with containers := fun _ => none }

/-- `docker inspect`, over all containers of the project. -/
def find (id : ContainerId) : Option (Service × Container) :=
  services.findSome? fun s => (w.containers s).bind fun c => if c.id = id then some (s, c) else none

/-- `require_no_active_fault` -/
def unfaulted : Prop := w.simulating = false ∧ w.drilling = false ∧ w.active = none

/-- `preflight` -/
def preflight : Prop :=
  w.unfaulted ∧ w.mode = .normal ∧ ∀ s ∈ baseServices, ∃ c, w.containers s = some c ∧
    c.running = true

end World

/-- `docker compose`: what its commands may make of the containers, and what is documented of
that. -/
structure Compose where
  up (w : World) (s : Service) (force : Bool) : World → Prop
  stop (w : World) (s : Service) : World → Prop
  down (w : World) : World → Prop
  up_documented : ∀ {w s force w'}, up w s force w' → ∃ id, id ∉ w.issued ∧ w' = w.up s force id
  stop_documented : ∀ {w s w'}, stop w s w' → w' = w.stop s
  down_documented : ∀ {w w'}, down w w' → w' = w.down

section
variable (compose : Compose)

/-- One `up` after another. -/
inductive Ups : World → List (Service × Bool) → World → Prop where
  | nil {w} : Ups w [] w
  | cons {w s force w₁ l w'} (up : compose.up w s force w₁) (rest : Ups w₁ l w') :
      Ups w ((s, force) :: l) w'

end

/-! ### The message session -/

variable [Interpreter]

/-- `Scope.index` -/
def indexName (scope : Scope) : Str := str "mvp-study-" ++ scope.suffix

/-- `describe` -/
def describe (t : Topic) : Except String Str :=
  if t.topicId = [] ∨ t.topicId = str "None" ∨ t.topicId = str "AAAAAAAAAAAAAAAAAAAAAA" ∨
    t.internal = true ∨ t.partitions ≠ 1
  then .error "Invalid topic identity/partition count" else .ok t.topicId

/-- Two scopes as dictionaries. -/
def sameScope (a b : Scope) : Bool :=
  a.project = b.project && a.runId = b.runId && a.token = b.token

/-- `index_identity` -/
def indexIdentity (scope : Scope) (i : Index) : Except String Str :=
  if i.studyOwner ≠ scope.token ∨ i.studyRun ≠ scope.runId ∨ i.uuid = [] then
    .error "Index owner/identity mismatch"
  else .ok i.uuid

/-- `self.describe(name) != topics[name]` -/
def checkTopic (t : Topic) (id : Str) : Except String Bool := do
  if (← describe t) ≠ id then throw "Topic UUID missing or changed; cleanup refused"
  return true

/-- `self.index_identity() != index.get('index_uuid')` -/
def checkIndex (scope : Scope) (i : Index) (uuid : Str) : Except String Bool := do
  if (← indexIdentity scope i) ≠ uuid then throw "Index UUID missing or changed; cleanup refused"
  return true

namespace World
variable (w : World)

/-- What `verify_resources` finds of a topic. -/
def verifyTopic (allowMissing : Bool) (res : Resources) (name : Str) : Except String Bool :=
  match w.topics name with
  | none => if allowMissing then .ok false else .error "Expected study topic missing"
  | some t =>
    match lookup name res.topics with
    | none | some [] => .error "Topic UUID missing or changed; cleanup refused"
    | some id => checkTopic t id

/-- What `verify_resources` finds of the index. -/
def verifyIndex (allowMissing : Bool) (scope : Scope) (res : Resources) : Except String Bool :=
  match w.indexes (indexName scope) with
  | none => if allowMissing then .ok false else .error "Study index missing"
  | some i =>
    match res.index with
    | none => .error "Index UUID missing or changed; cleanup refused"
    | some (_, uuid) => checkIndex scope i uuid

/-- `verify_resources` -/
def verifyResources (allowMissing : Bool) (scope : Scope) (res : Resources) :
    Except String (List Str × Bool) := do
  if res.topics.any fun t =>
    t.1 ≠ scope.topic && t.1 ≠ scope.dlq then throw "Foreign topic in resource ledger"
  if res.index.any fun i => i.1 ≠ indexName scope then throw "Foreign index in resource ledger"
  let live ← [scope.topic, scope.dlq].filterM fun name => w.verifyTopic allowMissing res name
  let indexExists ← w.verifyIndex allowMissing scope res
  return (live, indexExists)

/-- The topics and the index that `cleanup` deletes. -/
def without (scope : Scope) (live : List Str) (indexExists : Bool) : World :=
  { w with
    topics := fun name => if name ∈ live then none else w.topics name
    indexes :=
      fun name => if indexExists = true ∧ name = indexName scope then none else w.indexes name }

/-- `MessageRuntime.cleanup`. The second checks see what the first have seen. -/
def runtimeCleanup (scope : Scope) (res : Resources) : Except String World := do
  let (live, indexExists) ← w.verifyResources true scope res
  return w.without scope live indexExists

/-- `Session.validate`. The ledgers are the program's own, of its schema and its scenarios. -/
def validate (l : Ledger) : Except String Container := do
  if l.scope.project ≠ w.project ∨ l.engine ≠ w.engine then
    throw "Message recovery ledger is foreign or malformed"
  let some (s, c) := w.find l.apiId | throw "CalledProcessError"
  if s ≠ .api then throw "Container ownership labels do not match; refusing fault/recovery"
  return c

/-- `Session.rpc`: the helper runs in the container of the ledger, and looks at its environment
first. -/
def rpc {α : Type} (l : Ledger) (helper : Except String α) : Except String α := do
  let c ← w.validate l
  let refused :=
    "Message helper failed or returned no evidence; inspect events.json (raw stderr redacted)"
  if c.running = false then throw refused
  let some env := c.env | throw refused
  if env.cacheHost ≠ "redis" ∨ env.searchIndex ≠ "mvp-orders-v1" then throw refused
  helper.mapError fun _ => refused

/-- The ledger of a run is written, and what is active. -/
def save (l : Ledger) (active : Option Ledger) : World :=
  { w with ledgers := Function.update w.ledgers l.scope.runId (some l), active }

/-- `events.json` of a run is written. -/
def logged (runId : Str) (size : Nat) : World :=
  { w with logSize := Function.update w.logSize runId size }

/-- `Session(...)` -/
def openSession (l : Ledger) : Except String Unit :=
  if 4 * 1024 * 1024 < w.logSize l.scope.runId then .error "Saved event log exceeds limit"
    else .ok ()

/-- `Session(...)`, `validate`, `save` and `cleanup`, which leave an event log of the given size. -/
def sessionCleanup (l : Ledger) (size : Nat) : Except String World := do
  w.openSession l
  let _ ← w.validate l
  let saved := w.save l (some l)
  let w' ← saved.rpc l (saved.runtimeCleanup l.scope l.resources)
  return (w'.logged l.scope.runId size).save { l with stage := .cleaned } none

/-- The ledger of a run, at its `location`. -/
def readLedger (runId : Str) : Except String Ledger :=
  if runPattern.fullmatch runId then
    match w.ledgers runId with
    | some l => .ok l
    | none => .error "FileNotFoundError"
  else .error "Expected a msg- followed by 24 hexadecimal digits, not a path"

/-- No other run is active. -/
def requireOwn (l : Ledger) : Except String Unit :=
  if w.active.any fun a => !sameScope a.scope l.scope then
    .error "A different message run is unfinished; recover it first"
  else .ok ()

/-- No simulation and no drill is active. -/
def requireNoFault : Except String Unit :=
  if w.simulating || w.drilling then
    .error "Another fault is pending; restore it before touching message resources"
  else .ok ()

/-- `messages cleanup RUN` -/
def cleanup (runId : Str) (size : Nat) : Except String World := do
  let l ← w.readLedger runId
  w.requireOwn l
  w.requireNoFault
  w.sessionCleanup l size

/-- `messages inspect RUN`, which leaves an event log of the given size. -/
def inspect (runId : Str) (size : Nat) : Except String World := do
  let l ← w.readLedger runId
  w.requireOwn l
  w.requireNoFault
  w.openSession l
  let _ ← w.rpc l (w.verifyResources false l.scope l.resources)
  return w.logged l.scope.runId size

/-- `messages recover` -/
def recover (size : Nat) : Except String World :=
  match w.active with
  | none => .ok w
  | some l => do
    w.requireNoFault
    w.sessionCleanup l size

end World

/-! ### Commands -/

/-- The faults of `ALLOWED`. Those on processes and networks are gone when they are restored. -/
inductive Fault where
  | passing
  | recreate
  | switch
deriving DecidableEq

/-- How a message run ends. -/
inductive Outcome where
  | retained
  | cleaned
  | failed
deriving DecidableEq

inductive Command where
  | up (built : Str)
  | down
  | stop (s : Service)
  | resume (s : Service)
  | recreate (s : Service)
  | experiment (m : Mode)
  | simulate (f : Fault)
  | drill
  | messages (scope : Scope) (outcome : Outcome)
  | recover
  | cleanup (runId : Str)
  | inspect (runId : Str)

/-- The databases that `up` starts. -/
def databases (m : Mode) : List Service :=
  [.mariadb, .kafka, .elasticsearch, .redis] ++ if m = .redisSpare then [.redisSpare] else []

/-- All that `up` starts, one after the other. -/
def started (m : Mode) : List (Service × Bool) :=
  ((databases m).map fun s => (s, false)) ++ [(.api, false), (.worker, false)]

/-- The image of the application after a build. -/
def World.build (w : World) (image : Str) : World :=
  { w with images := fun s => if s = .api ∨ s = .worker then image else w.images s }

/-- What a run that was started on an API container writes to its ledger. -/
structure Made (w : World) (scope : Scope) (l : Ledger) (c : Container) : Prop where
  api : w.containers .api = some c
  own : l.scope = scope
  project : scope.project = w.project
  engine : l.engine = w.engine
  apiId : l.apiId = c.id
  selected : ∃ env, c.env = some env ∧ env.cacheHost = "redis" ∧ env.searchIndex = "mvp-orders-v1"

/-- What a run that has passed has created, under names that were free. -/
structure Created (w : World) (scope : Scope) (l : Ledger) (events dlq : Topic) (index : Index) :
    Prop where
  free : w.topics scope.topic = none ∧ w.topics scope.dlq = none ∧
    w.indexes (indexName scope) = none
  eventsId : describe events = .ok events.topicId
  dlqId : describe dlq = .ok dlq.topicId
  indexId : indexIdentity scope index = .ok index.uuid
  resources : l.resources =
    ⟨[(scope.topic, events.topicId), (scope.dlq, dlq.topicId)], some (indexName scope, index.uuid)⟩

/-- The topics and the index of a run that was kept. -/
def World.with (w : World) (scope : Scope) (events dlq : Topic) (index : Index) : World :=
  { w with
    topics :=
      Function.update (Function.update w.topics scope.topic (some events)) scope.dlq (some dlq)
    indexes := Function.update w.indexes (indexName scope) (some index) }

/-- `_apps`, and the last step of an experiment. -/
def apps : List (Service × Bool) := [(.api, true), (.worker, true)]

section
variable (compose : Compose)

/-- What a simulation makes of the stack. The spare cache is stopped again unless it was running. -/
inductive Simulates (w : World) : Fault → World → Prop where
  | passing : Simulates w .passing w
  | recreate {w'} (ups : Ups compose w [(.redis, true)] w') : Simulates w .recreate w'
  | switch {w₁ w₂ w₃ w₄} (spare : Ups compose w [(.redisSpare, false)] w₁)
      (there : Ups compose { w₁ with mode := .redisSpare } apps w₂)
      (back : Ups compose { w₂ with mode := .normal } apps w₃)
      (left : if (w.containers .redisSpare).any Container.running then w₄ = w₃
        else compose.stop w₃ .redisSpare w₄) :
      Simulates w .switch w₄

inductive Step (w : World) : Command → World → Prop where
  | up {built w'} (free : w.unfaulted) (known : w.mode ≠ .badDbPassword)
      (ups : Ups compose (w.build built) (started w.mode) w') :
      Step w (.up built) w'
  | down {w'} (free : w.unfaulted) (down : compose.down w w') : Step w .down w'
  | stop {s w'} (free : w.unfaulted) (stop : compose.stop w s w') : Step w (.stop s) w'
  | resume {s w'} (free : w.unfaulted) (ups : Ups compose w [(s, false)] w') : Step w (.resume s) w'
  | recreate {s w'} (free : w.unfaulted) (ups : Ups compose w [(s, true)] w') :
      Step w (.recreate s) w'
  | experiment {m w₁ w₂} (free : w.unfaulted)
      (spare : Ups compose w (if m = .redisSpare then [(.redisSpare, false)] else []) w₁)
      (ups : Ups compose { w₁ with mode := m } apps w₂) : Step w (.experiment m) w₂
  | simulate {f w'} (ready : w.preflight) (simulates : Simulates compose w f w') :
      Step w (.simulate f) w'
  | drill (ready : w.preflight) : Step w .drill w
  | retained {scope l c events dlq index size} (ready : w.preflight)
      (new : w.ledgers scope.runId = none)
      (made : Made w scope l c) (created : Created w scope l events dlq index)
        (stage : l.stage = .retained) :
      Step w (.messages scope .retained)
        (((w.with scope events dlq index).logged scope.runId size).save l none)
  | cleaned {scope l c size} (ready : w.preflight) (new : w.ledgers scope.runId = none)
      (made : Made w scope l c)
      (stage : l.stage = .cleaned) : Step w (.messages scope .cleaned)
        ((w.logged scope.runId size).save l none)
  | failed {scope l c size topics indexes} (ready : w.preflight)
      (new : w.ledgers scope.runId = none)
      (made : Made w scope l c) (stage : l.stage = .failed)
      (others : ∀ name, name ≠ scope.topic → name ≠ scope.dlq → topics name = w.topics name)
      (otherIndexes : ∀ name, name ≠ indexName scope → indexes name = w.indexes name) :
      Step w (.messages scope .failed)
        (({ w with topics, indexes }.logged scope.runId size).save l (some l))
  | recover {w' size} (ok : w.recover size = .ok w') : Step w .recover w'
  | cleanup {runId w' size} (ok : w.cleanup runId size = .ok w') : Step w (.cleanup runId) w'
  | inspect {runId w' size} (ok : w.inspect runId size = .ok w') : Step w (.inspect runId) w'

/-- The worlds that commands lead to, from one without containers and runs. -/
inductive Reachable : World → Prop where
  | init {w} (containers : ∀ s, w.containers s = none) (ledgers : ∀ runId, w.ledgers runId = none)
      (active : w.active = none) : Reachable w
  | step {w command w'} (h : Reachable w) (step : Step compose w command w') : Reachable w'

end

end DbLab.Mvp.Stack
