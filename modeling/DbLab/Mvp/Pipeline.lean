import DbLab.Mvp.OrderCalls
import DbLab.Store.Embed

/-!
# The projection pipeline (`core.relay_once`, `core.project_one`, `worker.consume_loop`)

The order store with what is around it: the topic, the index and the committed offset of the
consumer. A message that was not acknowledged may be in the topic, may still get there, or may be
lost; a write to the index that timed out may still take effect, and so may a commit of an offset. A
program that stops is one whose next request never comes.
-/

namespace DbLab.Mvp.Pipeline
open DbLab.Py DbLab.Store DbLab.Mvp.Shop
open Message (Thrown)

/-- A position as `Consumer.commit` returns it; what is not an integer is missing. -/
structure Position where
  error : Bool
  topic : Str
  partition : Option Int
  offset : Option Int

/-- What `poll` returns. -/
inductive Polled where
  | nothing
  | message (value : Bytes)
  | error

section
variable [Interpreter]

/-- The mapping of the index, and the topic. -/
structure Cluster where
  mapping : Mapping
  topic : Str

/-- What the programs do outside the database. -/
inductive Action where
  | uuid4
  | now
  | publish (value : Bytes)
  | subscribe
  | poll (position : Nat)
  | put (id : Str) (version : Int) (order : Value)
  | get (id : Str)
  | commit (position : Nat)

/-- A request that raised brings nothing. -/
abbrev Outcome : Action → Type
  | .uuid4 | .now => Str
  | .publish _ => Bool
  | .subscribe => Option Nat
  | .poll _ => Polled
  | .put _ _ _ => Option Search.Reply
  | .get _ => Option (Option (Int × Value))
  | .commit _ => Option (List Position)

abbrev Job (α : Type) := Client (interface.withActions Action Outcome) Thrown α

def act (x : Action) : Job (Outcome x) := Client.act (I := interface.withActions Action Outcome) x

def among : interface.Among Action Outcome where
  action
    | .uuid4 => .uuid4
    | .now => .now
  outcome
    | .uuid4, id => id
    | .now, time => time

/-- A program of the repository. -/
def repo {α : Type} (p : Repo α) : Job α := (Client.translate among.hom p).wrap .raised

def lift {α : Type} : Except Thrown α → Job α
  | .ok a => pure a
  | .error e => throw e

/-! ### The relay -/

/-- `event["order"]["id"]`, the key of the message. -/
def messageKey (event : Value) : Except Exn Value := do
  let order ← event.item "order"
  order.item "id"

/-- `Broker.publish` -/
def publish (event : Value) : Job Unit := do
  let _ ← lift ((messageKey event).mapError fun e => .raised (.python e))
  let value ← lift ((wire event).mapError fun e => .raised (.python e))
  let acknowledged ← act (.publish value)
  if acknowledged then pure () else throw .other

/-- `relay_once` -/
def relayOnce : Job Bool := do
  let row ← repo SQL.pendingOne
  match row with
  | none => pure false
  | some (seq, event) =>
    publish event
    repo (SQL.markSent seq)
    pure true

/-! ### The consumer -/

/-- `Search.index` for the id and the version of an order, request by request. -/
def indexAs (order : Value) (id : Str) (version : Int) : Job String := do
  let reply ← act (.put id version order)
  match reply with
  | none => throw .other
  | some .written => pure "indexed"
  | some (.failed status errorType) => throw (.http status errorType)
  | some .conflict =>
    let stored ← act (.get id)
    match stored with
    | none => throw .other
    | some none => throw (.http 404 "unclassified_http_error")
    | some (some d) => lift (Search.compareStored order id version d.2 d.1)

/-- `Search.index` -/
def index (order : Value) : Job String :=
  match order.item "id", order.item "version" with
  | .ok (.str id), .ok (.int version) => indexAs order id version
  | .error e, _ | _, .error e => throw (.raised (.python e))
  | _, _ => throw (.raised (.python .typeError))

variable (K : Cluster)

/-- The checks of `acknowledge` on what `commit` has returned. -/
def confirmed (position : Nat) : List Position → Bool
  | [p] => !p.error && p.topic = K.topic && p.partition = some 0 && p.offset = some (position + 1)
  | _ => false

/-- `acknowledge` -/
def acknowledge (position : Nat) : Job Unit := do
  let results ← act (.commit position)
  match results with
  | some results => if confirmed K position results then pure () else throw .other
  | none => throw .other

/-- `project_one`, behind the decoding of the message. The cache is dropped in between, whatever
comes of that. -/
def projectOne (value : Bytes) (position : Nat) : Job Unit := do
  let order ← lift ((messageOrder value).mapError .raised)
  let _ ← index order
  acknowledge K position

/-- The inner loop of `consume_loop`, for so many polls. -/
def consume : (polls position : Nat) → Job Unit
  | 0, _ => pure ()
  | polls + 1, position => do
    let polled ← act (.poll position)
    match polled with
    | .nothing => consume polls position
    | .error => throw .other
    | .message value =>
      projectOne K value position
      consume polls (position + 1)

/-- One consumer of `consume_loop`: it starts where the group has committed. -/
def session (polls : Nat) : Job Unit := do
  let start ← act .subscribe
  match start with
  | none => throw .other
  | some position => consume K polls position

/-! ### What is around the database -/

/-- The topic, the index and the offset, and what may still reach them. -/
structure Outside where
  topic : List Bytes
  publishing : List Bytes
  elastic : Elastic
  writes : List (Str × Int × Value)
  committed : Nat
  commits : List Nat

namespace Outside

def empty : Outside := ⟨[], [], ⟨false, fun _ => none⟩, [], 0, []⟩

variable (e : Outside)

def append (value : Bytes) : Outside := { e with topic := e.topic ++ [value] }

/-- What `PUT` replies, and the index behind it. -/
def reply (w : Str × Int × Value) : Search.Reply × Elastic :=
  Search.put K.mapping w.1 w.2.1 w.2.2 (Search.initializeIndex e.elastic)

def write (w : Str × Int × Value) : Outside := { e with elastic := (e.reply K w).2 }

end Outside

/-- The world outside. -/
def acts : (x : Action) → Outside → Outcome x → Outside → Prop
  | .uuid4, e, id, e' => IsUuid id ∧ e' = e
  | .now, e, time, e' => IsTimestamp time ∧ e' = e
  | .publish value, e, acknowledged, e' => e' = e.append value ∨
      acknowledged = false ∧ (e' = e ∨ e' = { e with publishing := value :: e.publishing })
  | .subscribe, e, start, e' => e' = e ∧ ∀ position, start = some position → position = e.committed
  | .poll position, e, polled, e' =>
    e' = e ∧ ∀ value, polled = .message value → e.topic[position]? = some value
  | .put id version order, e, reply, e' => e' = e.write K (id, version, order) ∧
        (∀ r, reply = some r → r = (e.reply K (id, version, order)).1) ∨
      reply = none ∧ (e' = e ∨ e' = { e with writes := (id, version, order) :: e.writes })
  | .get id, e, stored, e' => e' = e ∧ ∀ d, stored = some d → d = e.elastic.docs id
  | .commit position, e, _, e' =>
      e' = e ∨ e' = { e with committed := position + 1 } ∨
        e' = { e with commits := (position + 1) :: e.commits }

/-- What was on its way takes effect. -/
inductive Drifts : Outside → Outside → Prop where
  | publish {e : Outside} {value : Bytes} (m : value ∈ e.publishing) : Drifts e (e.append value)
  | write {e : Outside} {w : Str × Int × Value} (m : w ∈ e.writes) : Drifts e (e.write K w)
  | commit {e : Outside} {position : Nat} (m : position ∈ e.commits) :
      Drifts e { e with committed := position }

abbrev cluster : Store.Server (interface.withActions Action Outcome) :=
  mariadb.within (acts K) (Drifts K)

inductive Call where
  | create (data : Value) (key : Option Str)
  | update (orderId : Str) (data : Value)
  | relay
  | consume (polls : Nat)

def Call.run : Call → Job Unit
  | .create data key => (fun _ => ()) <$> repo (Storefront.create data key)
  | .update orderId data => (fun _ => ()) <$> repo (Storefront.update orderId data)
  | .relay => (fun _ => ()) <$> relayOnce
  | .consume polls => session K polls

def Call.code (c : Call) : Prog (interface.withActions Action Outcome) (Except Thrown Unit) :=
  (c.run K).run

abbrev System := Config (cluster K) Call (Except Thrown Unit)

/-- The world when everything is initialized. -/
def initial : World (cluster K) := ⟨.empty, .empty⟩

end

end DbLab.Mvp.Pipeline
