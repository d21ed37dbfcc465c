import DbLab.Proc.Program
import DbLab.Py.Builtins
import DbLab.Py.DateTime
import DbLab.Py.Round
import DbLab.Py.Text

/-!
# The write benchmark of the Elasticsearch lab (`benchmark.py`)

A run has `seconds * rate` slots, one a document. The documents are sent in batches, and a batch
begins no sooner than its first slot is due; slots that were missed by then are skipped. The clock
is exact and never goes back, a sleep lasts as long as it is asked to or longer, and a request may
take any time and be answered in any way. The latencies, the state of the host and the times of the
day are left out.
-/

namespace DbLab.Bench.Elastic
open DbLab.Py DbLab.Proc

/-- `INDEX` -/
def index : String := "lab-benchmark-v1"

/-- The arguments that the command line accepts. -/
structure Arguments where
  seconds : Int
  rate : Int
  batch : Int
  seconds_ok : 5 ≤ seconds ∧ seconds < 601
  rate_ok : 1 ≤ rate ∧ rate < 10001
  batch_ok : 1 ≤ batch ∧ batch < 1001

namespace Arguments

/-- `main(argv)`: the `choices` of the arguments. -/
def parse (seconds rate batch : Int) : Option Arguments :=
  if h : (5 ≤ seconds ∧ seconds < 601) ∧ (1 ≤ rate ∧ rate < 10001) ∧ (1 ≤ batch ∧ batch < 1001) then
    some ⟨seconds, rate, batch, h.1, h.2.1, h.2.2⟩
  else none

/-- `seconds * rate` -/
def slots (a : Arguments) : Int := a.seconds * a.rate

end Arguments

/-! ### Documents -/

/-- What is drawn for a document. -/
structure Draw where
  timestamp : Str
  user : Nat
  device : Nat
  institution : Str
  channel : Str
  amount : Rat
  riskScore : Nat

structure Doc where
  id : Str
  timestamp : Str
  transactionId : Str
  userId : Str
  deviceId : Str
  institution : Str
  channel : Str
  amount : Rat
  currency : Str
  country : Str
  riskScore : Nat
  isFraud : Bool

/-- `f'{n:0{w}d}'` -/
def zeroPadded (w n : Nat) : Str := if n < 10 ^ w then zfill w n else digitChars n

/-- `f'BENCH-{run_id}-{n:09d}'` -/
def docId (runId : Str) (n : Nat) : Str := str "BENCH-" ++ runId ++ str "-" ++ zeroPadded 9 n

/-- The two lines of a document. -/
def document (runId : Str) (draw : Draw) (n : Nat) : Doc where
  id := docId runId n
  timestamp := draw.timestamp
  transactionId := docId runId n
  userId := str "user-" ++ zeroPadded 5 draw.user
  deviceId := str "dev-" ++ zeroPadded 5 draw.device
  institution := draw.institution
  channel := draw.channel
  amount := draw.amount
  currency := str "KRW"
  country := str "KR"
  riskScore := draw.riskScore
  isFraud := false

section Run
variable [Interpreter]

/-! ### Requests and clocks -/

/-- An `Exception`. -/
inductive Failure where
  | api (status : Int)
  | runtime (message : Str)
  | py (e : Exn)
  | other (name : Str)

/-- `type(exc).__name__` -/
def Failure.name : Failure → Str
  | .api _ => str "APIError"
  | .runtime _ => str "RuntimeError"
  | .py (.valueError _) => str "ValueError"
  | .py .unicodeError => str "UnicodeError"
  | .py .typeError => str "TypeError"
  | .py .keyError => str "KeyError"
  | .py .indexError => str "IndexError"
  | .py .attributeError => str "AttributeError"
  | .py .overflowError => str "OverflowError"
  | .py .recursionError => str "RecursionError"
  | .other name => name

/-- What ends a program. -/
inductive Raised where
  | failure (f : Failure)
  | interrupt
  | endless

/-- The bodies of requests. -/
inductive Body where
  | none
  | json (v : Value)
  | docs (docs : List Doc)

/-- A batch: its first slot and when that is due, when it begins and is sent, and what it holds. -/
structure Batch where
  slot : Int
  due : Rat
  start : Rat
  sent : Rat
  docs : List Doc

structure Metrics where
  queued : Int
  indexed : Int
  failed : Int
  uncertain : Int
  scheduledSkipped : Int
  indexedPerSecond : Rat
  errors : List (Str × Int)

structure Verification where
  bulkAcknowledgedAllDocuments : Bool
  countMatches : Bool
  indexDeleted : Bool
  datasetStateVerified : Bool

/-- The report of a run; the batches are for the record. -/
structure Report where
  runId : Str
  status : Str
  durationSeconds : Rat
  version : Value
  clusterName : Value
  arguments : Arguments
  metrics : Metrics
  verification : Verification
  started : Rat
  batches : List Batch

inductive Call where
  | monotonic
  | sleep (duration : Rat)
  | request (method path : String) (body : Body)
  | write (r : Report)

abbrev Call.Result : Call → Type
  | .monotonic => Rat
  | .request _ _ _ => Value
  | _ => Unit

def calls : Interface := ⟨Call, Call.Result⟩

/-- A request and how it was answered. -/
structure Exchange where
  method : String
  path : String
  body : Body
  reply : Except Failure Value

/-- When the clock was last read, and all requests so far. -/
structure State where
  clock : Rat
  log : List Exchange

/-- The clock moves on, a request is answered in any way, and an interruption may come at any
time. -/
inductive Does : (x : Call) → State → Except Raised x.Result → State → Prop where
  | monotonic {s t} (later : s.clock ≤ t) : Does .monotonic s (.ok t) { s with clock := t }
  | slept {s d t} (positive : 0 ≤ d) (long : s.clock + d ≤ t) : Does (.sleep d) s (.ok ())
      { s with clock := t }
  | refused {s d} (negative : d < 0) :
    Does (.sleep d) s (.error (.failure (.py (.valueError "sleep length must be non-negative")))) s
  | answered {s method path body t} (v : Value) (later : s.clock ≤ t) :
    Does (.request method path body) s (.ok v) ⟨t, s.log ++ [⟨method, path, body, .ok v⟩]⟩
  | failed {s method path body t} (f : Failure) (later : s.clock ≤ t) :
    Does (.request method path body) s (.error (.failure f)) ⟨t,
      s.log ++ [⟨method, path, body, .error f⟩]⟩
  | wrote (r s) : Does (.write r) s (.ok ()) s
  | notWritten (r s) (f : Failure) : Does (.write r) s (.error (.failure f)) s
  | interrupted {x s t log} (later : s.clock ≤ t) : Does x s (.error .interrupt) ⟨t, log⟩

/-- The clock and the server. -/
def server : World calls Raised where
  State := State
  does := Does
  drifts _ _ := False
  killed _ _ := False

abbrev Method (α : Type) := Prog calls Raised α

def ask (x : Call) : Method x.Result := Prog.ask (I := calls) x

def raise {α : Type} (f : Failure) : Method α := throw (.failure f)

def lift {α : Type} (x : Except Exn α) : Method α :=
  .ofExcept (x.mapError fun e => .failure (.py e))

/-- `try: … except Exception as exc: …` -/
def attempt {α : Type} (p : Method α) : Method (Except Failure α) :=
  tryCatch (do return .ok (← p)) fun e => match e with
    | .failure f => pure (.error f)
    | e => throw e

def request (method path : String) (body : Body) : Method Value := ask (.request method path body)

/-! ### Replies -/

/-- `v.get(key, default)` -/
def getOr (v : Value) (key : String) (default_ : Value) : Except Exn Value :=
  match v with
  | .dict ms => .ok (Fields.getD ms key default_)
  | _ => .error .attributeError

/-- `len(v)` and `for item in v` -/
def elements : Value → Except Exn (List Value)
  | .list xs => .ok xs
  | .str s => .ok (s.map fun c => .str [c])
  | .dict ms => .ok (ms.map fun m => .str m.1)
  | _ => .error .typeError

/-- `200 <= status < 300` -/
def successful (status : Value) : Except Exn Bool := do
  if ← (Value.int 200).le status then status.lt (.int 300) else pure false

/-- A document is acknowledged by its item. -/
def acknowledged (item : Value) : Except Exn Bool := do
  let outcome ← getOr item "index" (.dict [])
  let status ← getOr outcome "status" (.int 0)
  if ← successful status then return !(← outcome.get "error").truthy else pure false

/-- `str(outcome.get('error', {}).get('type', 'unknown'))` -/
def errorKind [Unicode] (item : Value) : Except Exn Str := do
  let outcome ← getOr item "index" (.dict [])
  let error ← getOr outcome "error" (.dict [])
  (← getOr error "type" (.str (str "unknown"))).asStr

/-- `errors[kind] = errors.get(kind, 0) + n` -/
def addError (kind : Str) (n : Int) (errors : List (Str × Int)) : List (Str × Int) :=
  insertKey kind ((lookup kind errors).getD 0 + n) errors

/-- The variables of the loop. -/
structure Tally where
  queued : Int
  indexed : Int
  failed : Int
  uncertain : Int
  sequence : Nat
  scheduled : Int
  scheduledSkipped : Int
  errors : List (Str × Int)
  batches : List Batch

def Tally.init : Tally := ⟨0, 0, 0, 0, 0, 0, 0, [], []⟩

/-- One item of a reply. -/
def settle [Unicode] (t : Tally) (item : Value) : Except Exn Tally := do
  if ← acknowledged item then pure { t with indexed := t.indexed + 1 }
  else
    let kind ← errorKind item
    pure { t with failed := t.failed + 1, errors := addError kind 1 t.errors }

/-- A batch of which nothing is known. -/
def Tally.lost (t : Tally) (count : Int) (kind : Str) : Tally :=
  { t with uncertain := t.uncertain + count, errors := addError kind count t.errors }

/-- `result.get('items', []) if isinstance(result, dict) else []` -/
def itemsOf : Value → Value
  | .dict ms => Fields.getD ms "items" (.list [])
  | _ => .list []

/-- The reply to a batch, and whether the loop goes on. -/
def settleAll [Unicode] (t : Tally) (count : Int) (result : Value) : Except Exn (Tally × Bool) := do
  let items ← elements (itemsOf result)
  if items.length ≠ count then pure (t.lost count (str "invalid_bulk_response"), false)
  else return (← items.foldlM settle t, true)

/-! ### The loop -/

/-- `int(q)` -/
def truncate (q : Rat) : Int := if 0 ≤ q then ⌊q⌋ else ⌈q⌉

/-- A run that has started. -/
structure Plan where
  arguments : Arguments
  runId : Str
  draws : Nat → Draw
  started : Rat

namespace Plan
variable (p : Plan)

/-- `start + seconds` -/
def deadline : Rat := p.started + p.arguments.seconds

/-- `start + scheduled / rate` -/
def due (scheduled : Int) : Rat := p.started + scheduled / p.arguments.rate

/-- `int((now - due) * rate)`, if the slot is over due. -/
def missed (scheduled : Int) (now : Rat) : Int :=
  if p.due scheduled < now then truncate ((now - p.due scheduled) * p.arguments.rate) else 0

/-- `min(batch, max(1, int((deadline - due) * rate)))` -/
def count (due : Rat) : Int :=
  min p.arguments.batch (max 1 (truncate ((p.deadline - due) * p.arguments.rate)))

/-- The documents of a batch. -/
def docs (sequence : Nat) (count : Int) : List Doc :=
  (List.range count.toNat).map fun offset =>
    document p.runId (p.draws (sequence + offset)) (sequence + offset)

/-- A batch from `slot` on is queued. -/
def queue (t : Tally) (slot : Int) (now before : Rat) : Tally :=
  let count := p.count (p.due slot)
  { t with
    queued := t.queued + count
    scheduled := slot + count
    sequence := t.sequence + count.toNat
    scheduledSkipped := t.scheduledSkipped + (slot - t.scheduled)
    batches := t.batches ++ [⟨slot, p.due slot, now, before, p.docs t.sequence count⟩] }

/-- The slot that is due, or the deadline, is waited for. -/
def sleepUntil (due : Rat) : Method Unit := do
  let now ← ask .monotonic
  if 0 < due - now then do
    let now' ← ask .monotonic
    ask (.sleep (min (due - now) (p.deadline - now')))
  else pure ()

/-- The batch that begins at `now`. -/
def send [Unicode] (t : Tally) (now : Rat) : Method (Tally × Bool) := do
  let slot := t.scheduled + p.missed t.scheduled now
  let count := p.count (p.due slot)
  let before ← ask .monotonic
  let queued := p.queue t slot now before
  match ← attempt (request "POST" "/_bulk" (.docs (p.docs t.sequence count))) with
  | .error f => pure (queued.lost count f.name, false)
  | .ok result => do
    let _ ← ask .monotonic
    lift (settleAll queued count result)

/-- One pass of the loop, and whether it goes on. -/
def pass [Unicode] (t : Tally) : Method (Tally × Bool) := do
  let now ← ask .monotonic
  if now < p.deadline then do
    p.sleepUntil (p.due t.scheduled)
    let now ← ask .monotonic
    if p.deadline ≤ now then pure (t, false) else p.send t now
  else pure (t, false)

/-- At most so many passes. -/
def loop [Unicode] : Nat → Tally → Method Tally
  | 0, _ => throw .endless
  | passes + 1, t => do
    let (t, on) ← p.pass t
    if on then loop passes t else pure t

end Plan

/-! ### The run -/

/-- `assert_lab()`: what it raises tells the cluster apart. -/
def assertLab [Unicode] (expected : Str) : Method Value := do
  let info ← request "GET" "/" .none
  let name ← lift (info.get "cluster_name")
  if !name.eq (.str expected) then do
    let shown ← lift name.repr
    raise (.runtime (str "Wrong cluster: " ++ shown ++ str "; expected " ++ strRepr expected ++
      str ". No writes allowed."))
  else do
    let uuid ← lift (info.get "cluster_uuid")
    if uuid.eq .null || uuid.eq (.str (str "_na_")) then
      raise
        (.runtime
        (str "Cluster is not bootstrapped (cluster_uuid is _na_). Inspect discovery/master logs."))
    else pure info

/-- There is no index yet. -/
def absent : Method Unit := do
  match ← attempt (request "GET" s!"/{index}/_settings" .none) with
  | .error (.api 404) => pure ()
  | .error f => raise f
  | .ok _ =>
    raise
      (.runtime
      (str
      s!"{index} already exists; inspect it before retrying. Existing data will not be overwritten."))

def keyword (type : String) : Value := .ofFields [("type", .str (str type))]

/-- The settings and mappings of the index. -/
def indexBody : Value :=
  .ofFields [
    ("settings", .ofFields [("number_of_shards", .int 1), ("number_of_replicas", .int 0)]),
    ("mappings", .ofFields [("properties", .ofFields [
      ("@timestamp", keyword "date"),
      ("transaction_id", keyword "keyword"),
      ("user_id", keyword "keyword"), ("device_id", keyword "keyword"),
      ("institution", keyword "keyword"), ("channel", keyword "keyword"),
      ("amount", .ofFields [("type", .str (str "scaled_float")), ("scaling_factor", .int 100)]),
      ("currency", keyword "keyword"), ("country", keyword "keyword"),
      ("risk_score", keyword "integer"), ("is_fraud", keyword "boolean")])])]

/-- The count of the refreshed index. -/
def observed : Method Value := do
  let _ ← request "POST" s!"/{index}/_refresh" .none
  let answer ← request "GET" s!"/{index}/_count" .none
  lift (answer.get "count")

/-- The first of the two last `try` blocks. -/
def verify (t : Tally) : Method (Tally × Bool) := do
  match ← attempt observed with
  | .error f => pure ({ t with errors := addError f.name 1 t.errors }, false)
  | .ok v =>
    if v.eq (.int t.indexed) then pure (t, true)
    else pure ({ t with errors := insertKey (str "post_write_count_mismatch") 1 t.errors }, false)

/-- The second. -/
def cleanup (t : Tally) : Method (Tally × Bool) := do
  match ← attempt (request "DELETE" s!"/{index}" .none) with
  | .error f => pure ({ t with errors := insertKey (str "cleanup_" ++ f.name) 1 t.errors }, false)
  | .ok _ => pure (t, true)

/-- `cluster.get('version', {}).get('number')` -/
def versionOf (cluster : Value) : Except Exn Value :=
  do (← getOr cluster "version" (.dict [])).get "number"

namespace Plan
variable (p : Plan)

/-- `report` -/
def report (cluster : Value) (t : Tally) (countVerified cleanupOk : Bool) (elapsed : Rat) :
    Except Exn Report := do
  let passed := 0 < t.indexed && t.failed = 0 && t.uncertain = 0 && countVerified && cleanupOk
  let version ← versionOf cluster
  let name ← cluster.get "cluster_name"
  pure {
    runId := p.runId
    status := str (if passed then "PASS" else "FAIL")
    durationSeconds := elapsed
    version := version
    clusterName := name
    arguments := p.arguments
    metrics := {
      queued := t.queued
      indexed := t.indexed
      failed := t.failed
      uncertain := t.uncertain
      scheduledSkipped := t.scheduledSkipped
      indexedPerSecond := if elapsed = 0 then 0 else roundTo 2 (t.indexed / elapsed)
      errors := t.errors }
    verification := {
      bulkAcknowledgedAllDocuments := t.queued = t.indexed && t.failed = 0 && t.uncertain = 0
      countMatches := countVerified
      indexDeleted := cleanupOk
      datasetStateVerified := countVerified && cleanupOk && t.queued = t.indexed }
    started := p.started
    batches := t.batches }

/-- From the loop on. Every pass that goes on takes a slot. -/
def rest [Unicode] (cluster : Value) : Method Report := do
  let t ← p.loop (p.arguments.slots.toNat + 1) .init
  let stop ← ask .monotonic
  let (t, countVerified) ← verify t
  let (t, cleanupOk) ← cleanup t
  let r ← lift (p.report cluster t countVerified cleanupOk (roundTo 3 (stop - p.started)))
  ask (.write r)
  pure r

end Plan

/-- `run(seconds, rate, batch, seed)` for the cluster that is `expected`. -/
def run [Unicode] (expected : Str) (a : Arguments) (runId : Str) (draws : Nat → Draw) :
    Method Report := do
  let cluster ← assertLab expected
  absent
  let _ ← request "PUT" s!"/{index}" (.json indexBody)
  let started ← ask .monotonic
  Plan.rest ⟨a, runId, draws, started⟩ cluster

end Run

end DbLab.Bench.Elastic
