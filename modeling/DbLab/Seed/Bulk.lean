import DbLab.Bench.Elastic

/-!
# The Bulk requests of the seed data (`bulk_send`, `seed_index`)

The documents of an index are sent in batches. What fails of a batch is sent again, at most so many
times. A request that was not answered may have been carried out, in part or as a whole, and may
still be carried out later; the last write of an id is what the index holds.
-/

namespace DbLab.Seed.Bulk
open DbLab.Py DbLab.Proc
open DbLab.Bench.Elastic (getOr elements successful truncate)

/-- The two lines of a document. -/
structure Record where
  action : Bytes
  source : Bytes
deriving DecidableEq

/-- `len(action) + len(source) + 2` -/
def Record.size (r : Record) : Nat := r.action.length + r.source.length + 2

/-- `b''.join(a + b'\n' + b + b'\n' for a, b in pending)` -/
def payload (records : List Record) : Bytes :=
  records.flatMap fun r => r.action ++ [10] ++ r.source ++ [10]

/-- The payload is as long as its records. -/
lemma payload_length (records : List Record) :
    (payload records).length = (records.map Record.size).sum := by
  rw [payload, List.length_flatMap]
  congr 1
  refine List.map_congr_left fun r _ => ?_
  simp only [List.length_append, List.length_singleton, Record.size]
  omega

section Programs
variable [Interpreter]

/-! ### Requests -/

/-- An `Exception`; `transport` is `URLError`, `TimeoutError` or `OSError`. -/
inductive Failure where
  | api (status : Int) (text : Str)
  | transport (text : Str)
  | runtime (message : Str)
  | py (e : Exn)
  | other

/-- What ends a program. -/
inductive Raised where
  | failure (f : Failure)
  | interrupt

inductive Call where
  /-- `POST /_bulk` with the payload of the records -/
  | bulk (records : List Record)
  /-- `GET /{index}/_settings`: the `refresh_interval` in it -/
  | settings
  /-- `PUT /{index}/_settings` with a `refresh_interval` -/
  | setRefresh (interval : Str)
  /-- `POST /{index}/_refresh` -/
  | refresh
  /-- `GET /{index}/_count` -/
  | count
  | sleep (seconds : Rat)
  /-- The lines of a document are written to the output. -/
  | write (r : Record)
  /-- `definition(config, index)`: the signature in it -/
  | signature

abbrev Call.Result : Call → Type
  | .bulk _ => Value
  | .settings => Option Str
  | .refresh => Value
  | .count => Value
  | .signature => Str
  | _ => Unit

def calls : Interface := ⟨Call, Call.Result⟩

abbrev Method (α : Type) := Prog calls Raised α

def ask (x : Call) : Method x.Result := Prog.ask (I := calls) x

def raise {α : Type} (f : Failure) : Method α := throw (.failure f)

def lift {α : Type} (x : Except Failure α) : Method α := .ofExcept (x.mapError .failure)

/-- `try: … except Exception as exc: …` -/
def attempt {α : Type} (p : Method α) : Method (Except Failure α) :=
  tryCatch (do return .ok (← p)) fun e => match e with
    | .failure f => pure (.error f)
    | e => throw e

/-! ### `bulk_send` -/

/-- `RETRYABLE` -/
def retryable : List Int := [429, 502, 503, 504]

/-- `except (APIError, URLError, TimeoutError, OSError)`, and the request is worth another attempt:
the text of the error -/
def Failure.transient : Failure → Option Str
  | .api status text => if status ∈ retryable then some text else none
  | .transport text => some text
  | _ => none

/-- What an item says of its document. -/
inductive Outcome where
  | stored
  | retry
  | fatal (operation : Value)

/-- `item.get('index', {})` and `operation.get('status', 0)` -/
def operation (item : Value) : Except Exn (Value × Value) := do
  let operation ← getOr item "index" (.dict [])
  let status ← getOr operation "status" (.int 0)
  pure (operation, status)

def outcome (item : Value) : Except Exn Outcome := do
  let (operation, status) ← operation item
  let good ← successful status
  let error ← operation.get "error"
  if good && !error.truthy then pure .stored
  else if retryable.any fun n => status.eq (.int n) then pure .retry
  else pure (.fatal operation)

/-- The records whose items are to be sent again. -/
def retries (pending : List Record) (outcomes : List Outcome) : List Record :=
  (pending.zip outcomes).filterMap fun p => match p.2 with
    | .retry => some p.1
    | _ => none

/-- The operations that failed for good. -/
def fatals (outcomes : List Outcome) : List Value :=
  outcomes.filterMap fun o => match o with
    | .fatal operation => some operation
    | _ => none

/-- The loop over the items of a reply: what is to be sent again. -/
def settle (pending : List Record) (reply : Value) : Except Failure (List Record) := do
  let items ← (getOr reply "items" (.list [])).mapError .py
  let items ← (elements items).mapError .py
  if items.length ≠ pending.length then
    .error (.runtime (str "Invalid bulk response: item count does not match the request"))
  else do
    let outcomes ← (items.mapM outcome).mapError .py
    if (fatals outcomes).isEmpty then pure (retries pending outcomes)
    else do
      let shown ← (dumps {} (.list ((fatals outcomes).take 3))).mapError .py
      .error (.runtime (str "Non-retryable bulk errors: " ++ shown))

/-- What one request has come to: what is left, and the error if there is no further attempt. -/
inductive Sent where
  | done
  | again (pending : List Record) (why : Str)

/-- The reply to a request. -/
def received (pending : List Record) (reply : Value) : Method Sent := do
  let retry ← lift (settle pending reply)
  if retry.isEmpty then do
    let errors ← lift ((getOr reply "errors" .null).mapError .py)
    if errors.truthy then
      raise (.runtime (str "Inconsistent bulk response: errors=true with no failed items"))
    else pure .done
  else
    pure (.again retry (str "Bulk item retries exhausted: " ++ digitChars retry.length ++
      str " documents remain"))

/-- A request that was not answered. -/
def unanswered (pending : List Record) (f : Failure) : Method Sent :=
  match f.transient with
  | some text => pure (.again pending (str "Bulk request retries exhausted: " ++ text))
  | none => raise f

/-- One attempt. -/
def sendOnce (pending : List Record) : Method Sent := do
  match ← attempt (ask (.bulk pending)) with
  | .error f => unanswered pending f
  | .ok reply => received pending reply

/-- `min(10, backoff * (2 ** attempt))`: the power has to fit into a float. -/
def pause (backoff : Rat) (attempt : Nat) : Except Failure Rat :=
  if 1024 ≤ attempt then .error (.py .overflowError) else .ok (min 10 (backoff * 2 ^ attempt))

/-- The attempts from number `attempt` on, `left` of them after the first. -/
def attempts (backoff : Rat) (total : Nat) : Nat → Nat → List Record → Method Nat
  | left, attempt, pending => do
    match ← sendOnce pending with
    | .done => pure total
    | .again retry why =>
      match left with
      | 0 => raise (.runtime why)
      | left + 1 => do
        let seconds ← lift (pause backoff attempt)
        ask (.sleep seconds)
        attempts backoff total left (attempt + 1) retry

/-- `bulk_send` -/
def bulkSend (records : List Record) (retries : Int) (backoff : Rat) : Method Nat :=
  if retries < 0 then raise .other else attempts backoff records.length retries.toNat 0 records

/-! ### `seed_index` -/

/-- The arguments, of which `config_from_args` has checked the batch size, and where the documents
go. -/
structure Arguments where
  batchSize : Int
  maxBatchMb : Rat
  retries : Int
  client : Bool
  output : Bool
  batch_ok : 1 ≤ batchSize

/-- `int(args.max_batch_mb * 1024 * 1024)` -/
def Arguments.limit (args : Arguments) : Int := truncate (args.maxBatchMb * 1024 * 1024)

/-- The variables of the loop. -/
structure Progress where
  pending : List Record
  pendingBytes : Nat
  count : Nat
  sourceBytes : Nat
  wireBytes : Nat
  maxSource : Nat

def Progress.init : Progress := ⟨[], 0, 0, 0, 0, 0⟩

/-- What is pending is sent, where one more document would be too much. -/
def flush (args : Arguments) (p : Progress) (size : Nat) : Method Progress := do
  if args.client && !p.pending.isEmpty &&
    (args.batchSize ≤ p.pending.length || args.limit < p.pendingBytes + size) then do
    let _ ← bulkSend p.pending args.retries (1 / 2)
    pure { p with pending := [], pendingBytes := 0 }
  else pure p

/-- `if output: output.write(…)` -/
def emit (args : Arguments) (r : Record) : Method Unit :=
  if args.output then ask (.write r) else pure ()

/-- One document is counted, and is pending. -/
def Progress.add (args : Arguments) (p : Progress) (r : Record) : Progress where
  pending := if args.client then p.pending ++ [r] else p.pending
  pendingBytes := if args.client then p.pendingBytes + r.size else p.pendingBytes
  count := p.count + 1
  sourceBytes := p.sourceBytes + (r.source.length + 1)
  wireBytes := p.wireBytes + r.size
  maxSource := max p.maxSource (r.source.length + 1)

/-- One pass of the loop. -/
def pass (args : Arguments) (p : Progress) (r : Record) : Method Progress := do
  if args.limit < r.size then raise (.py (.valueError "One document is larger than --max-batch-mb"))
  else do
    let p ← flush args p r.size
    emit args r
    pure (p.add args r)

/-- The loop, and what is pending after it. -/
def load (args : Arguments) : Progress → List Record → Method Progress
  | p, [] => do
    if args.client && !p.pending.isEmpty then do
      let _ ← bulkSend p.pending args.retries (1 / 2)
      pure p
    else pure p
  | p, r :: records => do
    let p ← pass args p r
    load args p records

/-- `try: … finally: …`: the interval is set back, and what that raises does not hide an error that
came before. -/
def restoring {α : Type} (previous : Str) (body : Method α) : Method α := do
  match ← (tryCatch (do return .ok (← body)) fun e => pure (.error e) :
    Method (Except Raised α)) with
  | .ok a => do
    ask (.setRefresh previous)
    pure a
  | .error e => do
    let _ ← attempt (ask (.setRefresh previous))
    throw e

structure Loaded where
  totals : Progress
  signature : Str
  actualCount : Option Value

/-- The index is refreshed and counted. -/
def counted (count : Nat) : Method Value := do
  let refresh ← ask .refresh
  let failed ← lift ((do getOr (← getOr refresh "_shards" (.dict [])) "failed" (.int 0)).mapError
    .py)
  if failed.truthy then raise (.runtime (str "Refresh failed"))
  else do
    let reply ← ask .count
    let actual ← lift ((reply.item "count").mapError .py)
    if actual.eq (.int count) then pure actual
      else raise (.runtime (str "expected another count of documents"))

/-- `seed_index`, of the documents that are generated -/
def seedIndex (args : Arguments) (documents : List Record) : Method Loaded := do
  if args.client then do
    let settings ← ask .settings
    let totals ← restoring (settings.getD (str "1s")) do
      ask (.setRefresh (str "-1"))
      load args .init documents
    let signature ← ask .signature
    let actual ← counted totals.count
    pure ⟨totals, signature, some actual⟩
  else do
    let totals ← load args .init documents
    let signature ← ask .signature
    pure ⟨totals, signature, none⟩

/-! ### The server -/

/-- A Bulk request and how it was answered. -/
structure Exchange where
  records : List Record
  reply : Except Raised Value

/-- An item that tells of a status from 200 to 299. -/
def created (item : Value) : Bool := passes (do successful (← operation item).2) id

/-- The records with such an item at their position. -/
def acks (records : List Record) (items : List Value) : List Record :=
  (records.zip items).filterMap fun p => if created p.2 then some p.1 else none

/-- The records of a request that its reply acknowledges, where it has as many items. -/
def Exchange.acked (e : Exchange) : List Record :=
  match e.reply with
  | .ok (.dict ms) =>
    match lookup (str "items") ms with
    | some (.list items) =>
      if items.length = e.records.length then acks e.records items else []
    | _ => []
  | _ => []

/-- The documents of the index, the Bulk requests so far, the refresh intervals it was asked for,
and those it has told. -/
structure State where
  docs : List (Str × Bytes)
  log : List Exchange
  asked : List Str
  told : List (Option Str)

/-- The last write of an id is what the index holds. -/
def store (idOf : Record → Str) (docs : List (Str × Bytes)) (records : List Record) :
    List (Str × Bytes) :=
  records.foldl (fun docs r => insertKey (idOf r) r.source docs) docs

/-- A Bulk request is carried out for some of its records, and for all of those that it is told of;
it may raise before or after that. The other calls are answered in any way, but a count is the count
of the documents. -/
inductive Does (idOf : Record → Str) :
    (x : Call) → State → Except Raised x.Result → State → Prop where
  | bulk {s records} (reply : Except Raised Value) (applied : List Record)
      (sub : ∀ r ∈ applied, r ∈ records)
    (told : ∀ r ∈ Exchange.acked ⟨records, reply⟩, r ∈ applied) :
    Does idOf (.bulk records) s reply
      { s with docs := store idOf s.docs applied, log := s.log ++ [⟨records, reply⟩] }
  | settings {s} (interval : Option Str) : Does idOf .settings s (.ok interval)
      { s with told := s.told ++ [interval] }
  | setRefresh {s interval} (reply : Except Raised Unit) :
    Does idOf (.setRefresh interval) s reply { s with asked := s.asked ++ [interval] }
  | refresh {s} (reply : Value) : Does idOf .refresh s (.ok reply) s
  | count {s} (reply : Value) (honest : ∀ n, reply.item "count" = .ok n →
      n.eq (.int s.docs.length) = true) :
    Does idOf .count s (.ok reply) s
  | sleep {s seconds} (positive : 0 ≤ seconds) : Does idOf (.sleep seconds) s (.ok ()) s
  | write {s r} : Does idOf (.write r) s (.ok ()) s
  | signature {s} (text : Str) : Does idOf .signature s (.ok text) s
  | fails {x s} (e : Raised) (other : ∀ records interval, x ≠ .bulk records ∧
      x ≠ .setRefresh interval) :
    Does idOf x s (.error e) s

/-- What was sent may be carried out later. -/
def Late (idOf : Record → Str) (s s' : State) : Prop :=
  ∃ applied, (∀ r ∈ applied, ∃ e ∈ s.log, r ∈ e.records) ∧
    s' = { s with docs := store idOf s.docs applied }

/-- An index that tells documents apart by the id of their action line. -/
def server (idOf : Record → Str) : World calls Raised where
  State := State
  does := Does idOf
  drifts := Late idOf
  killed _ _ := False

end Programs

end DbLab.Seed.Bulk
