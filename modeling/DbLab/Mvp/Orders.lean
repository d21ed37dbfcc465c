import DbLab.Py.Builtins
import DbLab.Store.Program

/-!
# Orders and their repository (`core.py`, `adapters.SQL`)

The rules for orders, the event an order is announced with, and the repository that keeps both in
one transaction. The public fields of an order are its `ORDER_FIELDS`; the idempotency key stays in
the database.
-/

namespace DbLab.Mvp
open DbLab.Py DbLab.Store

/-- The public fields of an order. -/
structure Order where
  id : Str
  item : Str
  quantity : Int
  unitPrice : Int
  total : Int
  status : Str
  version : Int
  createdAt : Str
deriving DecidableEq

/-- A row of `orders`. -/
structure OrderRow extends Order where
  idempotencyKey : Str
deriving DecidableEq

/-- What `create_input` returns. -/
structure Draft where
  item : Str
  quantity : Int
  unitPrice : Int
deriving DecidableEq

/-- What the repository raises. -/
inductive Raised where
  | problem (status : Nat) (code : String)
  | sql (e : Failure)
  | python (e : Exn)
deriving DecidableEq

/-- `STATES` -/
def states : List (String × List String) :=
  [("created", ["paid", "cancelled"]), ("paid", ["shipped", "cancelled"]), ("shipped", []),
    ("cancelled", [])]

/-- `STATES[status]` -/
def nextStates (status : Str) : Option (List String) :=
  (states.find? fun s => str s.1 = status).map Prod.snd

/-- `new_order`, with the id and the time it draws. -/
def newOrder (data : Draft) (id createdAt : Str) : Order where
  id := id
  item := data.item
  quantity := data.quantity
  unitPrice := data.unitPrice
  total := data.quantity * data.unitPrice
  status := str "created"
  version := 1
  createdAt := createdAt

/-- `SQL._existing` -/
def existing (row : OrderRow) (data : Draft) : Except Raised (Order × Bool) :=
  if row.item ≠ data.item ∨ row.quantity ≠ data.quantity ∨ row.unitPrice ≠ data.unitPrice then
    .error (.problem 409 "idempotency_key_reused_with_different_payload")
  else .ok (row.toOrder, false)

variable [Interpreter]

/-- `transition` -/
def transition (order : Order) (data : Value) : Except Raised Order :=
  match data with
  | .dict ms =>
    match Fields.getD ms "expected_version" .null with
    | .int expected =>
      if expected ≠ order.version then .error (.problem 409 "order_version_conflict")
      else match Fields.getD ms "status" .null with
        | .str status =>
          match nextStates order.status with
          | none => .error (.python .keyError)
          | some next =>
            if named next status then
              .ok { order with status := status, version := order.version + 1 }
            else .error (.problem 409 "invalid_status_transition")
        | _ => .error (.problem 409 "invalid_status_transition")
    | _ => .error (.problem 400 "expected_version_required")
  | _ => .error (.problem 400 "expected_version_required")

/-- An order as `SELECT` returns it. -/
def Order.fields (o : Order) : List (String × Value) :=
  [("id", .str o.id), ("item", .str o.item), ("quantity", .int o.quantity),
    ("unit_price", .int o.unitPrice), ("total", .int o.total), ("status", .str o.status),
    ("version", .int o.version), ("created_at", .str o.createdAt)]

/-- An order as `new_order` writes it: the request's fields come first. -/
def Order.newFields (o : Order) : List (String × Value) :=
  [("item", .str o.item), ("quantity", .int o.quantity), ("unit_price", .int o.unitPrice),
    ("id", .str o.id), ("status", .str o.status), ("version", .int o.version),
    ("total", .int o.total), ("created_at", .str o.createdAt)]

/-- `envelope` -/
def envelope (order : List (String × Value)) (eventId : Str) : Value :=
  .ofFields [("schema_version", .int 1), ("event_id", .str eventId), ("order", .ofFields order)]

/-- `json.dumps(event, ensure_ascii=False)` -/
def eventText (order : List (String × Value)) (eventId : Str) : Except Exn Str :=
  dumps ⟨false, false, true⟩ (envelope order eventId)

/-! ### The repository -/

/-- The statements of `adapters.SQL` on single orders and events. -/
inductive Query where
  | byKey (key : Str)
  | insertOrder (order : Order) (key : Str)
  | insertEvent (eventId payload : Str)
  | byId (id : Str) (forUpdate : Bool)
  | updateOrder (status : Str) (version : Int) (id : Str)
  | pending
  | markSent (seq : Int)

abbrev Query.Rows : Query → Type
  | .byKey _ => Option OrderRow
  | .byId _ _ => Option Order
  | .pending => Option (Int × Str)
  | .insertOrder _ _ | .insertEvent _ _ | .updateOrder _ _ _ | .markSent _ => Unit

/-- `str(uuid.uuid4())`, and `datetime.now(timezone.utc).isoformat(timespec="milliseconds")`. -/
inductive Action where
  | uuid4
  | now

abbrev interface : Interface where
  Query := Query
  Rows := Query.Rows
  Action := Action
  Outcome _ := Str

/-- `SQL.transaction`, over any statements. -/
def transaction {I : Interface} {α : Type} (body : Client I Raised α) : Client I Raised α := do
  Client.connect .sql
  try
    let a ← body
    Client.commit .sql
    pure a
  catch e =>
    tryCatch (Client.rollback .sql) fun _ => pure ()
    throw e
  finally
    Client.close

abbrev Repo (α : Type) := Client interface Raised α

namespace SQL

abbrev execute (q : Query) : Repo q.Rows := Client.execute (I := interface) Raised.sql q

def lift {I : Interface} {α : Type} : Except Raised α → Client I Raised α
  | .ok a => pure a
  | .error e => throw e

def liftPython {I : Interface} {α : Type} (x : Except Exn α) : Client I Raised α :=
  lift (x.mapError .python)

def uuid4 : Repo Str := Client.act (I := interface) Action.uuid4
def now : Repo Str := Client.act (I := interface) Action.now

/-- `SQL._enqueue` -/
def enqueue (order : List (String × Value)) : Repo Unit := do
  let eventId ← uuid4
  let payload ← liftPython (eventText order eventId)
  execute (.insertEvent eventId payload)

/-- The transaction of `create`. -/
def insertNew (data : Draft) (key : Str) : Repo (Order × Bool) := do
  let row ← execute (.byKey key)
  match row with
  | some row => lift (existing row data)
  | none =>
    let id ← uuid4
    let createdAt ← now
    let order := newOrder data id createdAt
    execute (.insertOrder order key)
    enqueue order.newFields
    pure (order, true)

/-- The second look of `create`, after a duplicate key. -/
def lookAgain (data : Draft) (key : Str) : Repo (Option (Order × Bool)) := do
  let row ← execute (.byKey key)
  match row with
  | some row => some <$> lift (existing row data)
  | none => pure none

/-- `SQL.create` -/
def create (data : Draft) (key : Str) : Repo (Order × Bool) := do
  try
    transaction (insertNew data key)
  catch
    | .sql .duplicate => do
      let found ← transaction (lookAgain data key)
      match found with
      | some found => pure found
      | none => throw (.sql .duplicate)
    | e => throw e

/-- `SQL.get` -/
def get (id : Str) : Repo (Option Order) := transaction (execute (.byId id false))

/-- `SQL.update` -/
def update (id : Str) (data : Value) : Repo Order :=
  transaction do
    let old ← execute (.byId id true)
    match old with
    | none => throw (.problem 404 "order_not_found")
    | some old =>
      let order ← lift (transition old data)
      execute (.updateOrder order.status order.version id)
      enqueue order.fields
      pure order

/-- `SQL.pending_one`: the number of the event and the event. -/
def pendingOne : Repo (Option (Int × Value)) :=
  transaction do
    let row ← execute .pending
    match row with
    | some (seq, payload) =>
      let event ← liftPython (loads Hooks.default payload)
      pure (some (seq, event))
    | none => pure none

/-- `SQL.mark_sent` -/
def markSent (seq : Int) : Repo Unit := transaction (execute (.markSent seq))

end SQL

end DbLab.Mvp
