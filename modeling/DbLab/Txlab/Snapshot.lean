import DbLab.Txlab.Audit

/-!
# Snapshots of the transaction lab

The rows of the six tables with the types the schema gives them, the value `Repository.snapshot`
makes of them, and `Consistent`: the snapshot that a fixture and a list of orders determine, up to
the order of rows, the row ids of ledger and events and the spelling of a payload.
-/

namespace DbLab.Txlab
open DbLab.Py

structure InventoryRow where
  caseId : Str
  initialQty : Int
  available : Int
  unitPrice : Int
deriving DecidableEq

structure WalletRow where
  caseId : Str
  owner : Str
  initialBalance : Int
  balance : Int
deriving DecidableEq

structure RequestRow where
  caseId : Str
  requestKey : Str
  fingerprint : Str
  orderId : Str
deriving DecidableEq

structure OrderRow where
  id : Str
  caseId : Str
  requestKey : Str
  quantity : Int
  amount : Int
  state : Str
deriving DecidableEq

structure LedgerRow where
  id : Str
  caseId : Str
  orderId : Str
  owner : Str
  phase : Str
  delta : Int
deriving DecidableEq

structure EventRow where
  id : Str
  caseId : Str
  orderId : Str
  kind : Str
  payload : Str
deriving DecidableEq

/-- The rows of one case. -/
structure Snapshot where
  inventory : List InventoryRow
  wallets : List WalletRow
  requests : List RequestRow
  orders : List OrderRow
  ledger : List LedgerRow
  events : List EventRow
deriving DecidableEq

def OrderRow.paid (o : OrderRow) : Bool := o.state = str "paid"
def OrderRow.refunded (o : OrderRow) : Bool := o.state = str "refunded"

/-- The ledger entries of an order: order, owner, phase and delta. -/
def OrderRow.entries (o : OrderRow) : List (Str × Str × Str × Int) :=
  [(o.id, str "buyer", str "paid", -o.amount), (o.id, str "merchant", str "paid", o.amount)] ++
    if o.refunded then
      [(o.id, str "buyer", str "refunded", o.amount),
        (o.id, str "merchant", str "refunded", -o.amount)]
    else []

def LedgerRow.entry (r : LedgerRow) : Str × Str × Str × Int :=
  (r.orderId, r.owner, r.phase, r.delta)

/-- The events of an order: order and kind. -/
def OrderRow.kinds (o : OrderRow) : List (Str × Str) :=
  (o.id, str "paid") :: if o.refunded then [(o.id, str "refunded")] else []

def EventRow.kindOf (e : EventRow) : Str × Str := (e.orderId, e.kind)

/-- The entries of an order bear its id. -/
lemma entries_id (o : OrderRow) : ∀ e ∈ o.entries, e.1 = o.id := by
  rw [OrderRow.entries]
  cases o.refunded <;> simp

/-- The events of an order bear its id. -/
lemma kinds_id (o : OrderRow) : ∀ e ∈ o.kinds, e.1 = o.id := by
  rw [OrderRow.kinds]
  cases o.refunded <;> simp

def soldQty (os : List OrderRow) : Int := ((os.filter OrderRow.paid).map OrderRow.quantity).sum
def soldAmount (os : List OrderRow) : Int := ((os.filter OrderRow.paid).map OrderRow.amount).sum

variable [Interpreter]

def InventoryRow.toValue (r : InventoryRow) : Value :=
  .ofFields [("case_id", .str r.caseId), ("initial_qty", .int r.initialQty),
    ("available", .int r.available), ("unit_price", .int r.unitPrice)]

def WalletRow.toValue (r : WalletRow) : Value :=
  .ofFields [("case_id", .str r.caseId), ("owner", .str r.owner),
    ("initial_balance", .int r.initialBalance), ("balance", .int r.balance)]

def RequestRow.toValue (r : RequestRow) : Value :=
  .ofFields [("case_id", .str r.caseId), ("request_key", .str r.requestKey),
    ("fingerprint", .str r.fingerprint), ("order_id", .str r.orderId)]

def OrderRow.toValue (r : OrderRow) : Value :=
  .ofFields [("id", .str r.id), ("case_id", .str r.caseId), ("request_key", .str r.requestKey),
    ("quantity", .int r.quantity), ("amount", .int r.amount), ("state", .str r.state)]

def LedgerRow.toValue (r : LedgerRow) : Value :=
  .ofFields [("id", .str r.id), ("case_id", .str r.caseId), ("order_id", .str r.orderId),
    ("owner", .str r.owner), ("phase", .str r.phase), ("delta", .int r.delta)]

def EventRow.toValue (r : EventRow) : Value :=
  .ofFields [("id", .str r.id), ("case_id", .str r.caseId), ("order_id", .str r.orderId),
    ("kind", .str r.kind), ("payload", .str r.payload)]

def Snapshot.toValue (s : Snapshot) : Value :=
  .ofFields [("inventory", .list (s.inventory.map InventoryRow.toValue)),
    ("wallets", .list (s.wallets.map WalletRow.toValue)),
    ("requests", .list (s.requests.map RequestRow.toValue)),
    ("orders", .list (s.orders.map OrderRow.toValue)),
    ("ledger", .list (s.ledger.map LedgerRow.toValue)),
    ("events", .list (s.events.map EventRow.toValue))]

/-- The payload an event of kind `kind` carries for an order. -/
def OrderRow.payload (o : OrderRow) (kind : Str) : Value :=
  .ofFields [("order_id", .str o.id), ("quantity", .int o.quantity), ("amount", .int o.amount),
    ("state", .str kind)]

/-- The payload reads back as the one the order determines. -/
def EventRow.matchesOrder (e : EventRow) (o : OrderRow) : Prop :=
  ∃ v, loadsPayload (.str e.payload) = .ok v ∧ v.eq (o.payload e.kind) = true

/-- The fingerprint `audit` expects for an order of the case; none where `Purchase` refuses its
values. -/
def OrderRow.fingerprint? (c : Str) (o : OrderRow) : Option Str :=
  match purchase? (.str c) (.str o.requestKey) (.int o.quantity) with
  | .ok p => p.fingerprint.toOption
  | .error _ => none

/-- The snapshot is the one its fixture and its orders determine. -/
structure Consistent (s : Snapshot) (i : InventoryRow) (b m : WalletRow) : Prop where
  inventory : s.inventory = [i]
  wallets : s.wallets.Perm [b, m]
  buyer : b.owner = str "buyer"
  merchant : m.owner = str "merchant"
  price_pos : 0 < i.unitPrice
  buyer_initial : 0 ≤ b.initialBalance
  merchant_initial : 0 ≤ m.initialBalance
  ids : (s.orders.map OrderRow.id).Nodup
  keys : (s.orders.map OrderRow.requestKey).Nodup
  quantity_pos : ∀ o ∈ s.orders, 0 < o.quantity
  amount : ∀ o ∈ s.orders, o.amount = o.quantity * i.unitPrice
  state : ∀ o ∈ s.orders, o.paid ∨ o.refunded
  stock : i.available = i.initialQty - soldQty s.orders
  stock_nonneg : 0 ≤ i.available
  stock_le : i.available ≤ i.initialQty
  buyer_balance : b.balance = b.initialBalance - soldAmount s.orders
  buyer_nonneg : 0 ≤ b.balance
  merchant_balance : m.balance = m.initialBalance + soldAmount s.orders
  merchant_nonneg : 0 ≤ m.balance
  ledger : (s.ledger.map LedgerRow.entry).Perm (s.orders.flatMap OrderRow.entries)
  events : (s.events.map EventRow.kindOf).Perm (s.orders.flatMap OrderRow.kinds)
  payloads : ∀ e ∈ s.events, ∀ o ∈ s.orders, e.orderId = o.id → e.matchesOrder o
  claims : (s.requests.map fun r => (r.requestKey, some r.fingerprint, r.orderId)).Perm
    (s.orders.map fun o => (o.requestKey, o.fingerprint? i.caseId, o.id))

end DbLab.Txlab
