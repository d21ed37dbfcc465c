import DbLab.Txlab.Model

/-!
# The accounting oracle (`transaction_model.audit`)

`audit` as the code computes it, on an arbitrary value: rows are dictionaries of any shape, every
subscript may raise, and the checks run in the order of the source. A check is kept with its
verdict; `audit` reports the failed ones.
-/

namespace DbLab.Txlab
open DbLab.Py

variable [Interpreter]

/-- `check(name, ok, **details)` -/
structure Check where
  name : String
  ok : Bool
  details : List (String × Value) := []

def Check.violation (c : Check) : Value :=
  .ofFields (("check", .str (str c.name)) :: c.details)

/-- The six tables of a snapshot, each a list of rows. -/
structure Tables where
  inventory : List Value
  wallets : List Value
  requests : List Value
  orders : List Value
  ledger : List Value
  events : List Value

def tableOf (snapshot : Value) (t : String) : Except Exn (List Value) := do
  match ← snapshot.item t with
  | .list rows =>
    if maxRows < rows.length then throw (.valueError "Invalid or oversized transaction snapshot")
    return rows
  | _ => throw (.valueError "Invalid or oversized transaction snapshot")

/-- `isinstance(snapshot, dict) and set(snapshot) == set(TABLES)` -/
def complete : Value → Bool
  | .dict ms => ms.all (fun m => tableNames.any fun t => m.1 = str t)
      && tableNames.all (fun t => ms.any fun m => m.1 = str t)
  | _ => false

/-- The shape checks at the head of `audit`. -/
def tables (snapshot : Value) : Except Exn Tables := do
  if !complete snapshot then throw (.valueError "Incomplete transaction snapshot")
  let t : Tables := {
    inventory := ← tableOf snapshot "inventory"
    wallets := ← tableOf snapshot "wallets"
    requests := ← tableOf snapshot "requests"
    orders := ← tableOf snapshot "orders"
    ledger := ← tableOf snapshot "ledger"
    events := ← tableOf snapshot "events" }
  if t.inventory.length ≠ 1 ∨ t.wallets.length ≠ 2 then
    throw (.valueError "Expected one inventory and two wallet rows")
  return t

def foreignRows (caseId : Value) : Value → Except Exn Bool
  | .list rows => rows.anyM fun row => return !(← row.get "case_id").eq caseId
  | _ => throw .typeError

/-- `any(row.get('case_id') != case_id for rows in snapshot.values() for row in rows)` -/
def crossCase (snapshot caseId : Value) : Except Exn Bool :=
  match snapshot with
  | .dict ms => ms.anyM fun m => foreignRows caseId m.2
  | _ => throw .attributeError

def fixtureValues (inv : Value) : Except Exn Bool := do
  if !(← ["initial_qty", "available", "unit_price"].allM fun k => return (← inv.item k).isInt) then
    return false
  if !(← (Value.int 0).le (← inv.item "initial_qty")) then return false
  return !(← (← inv.item "unit_price").le (.int 0))

/-- `sum(o['quantity'] for o in orders.values() if o['state'] == 'paid')` -/
def stockSold (orders : List Value) : Except Exn Value := do
  let paid ← orders.filterM fun o => return (← o.item "state").eq (.str (str "paid"))
  Value.sum (← paid.mapM fun o => o.item "quantity")

/-- `lo <= v <= hi` -/
def between (lo v hi : Value) : Except Exn Bool := do
  if ← lo.le v then v.le hi else return false

def stockChecks (inv sold : Value) : Except Exn (List Check) := do
  let initial ← inv.item "initial_qty"
  let available ← inv.item "available"
  return [
    { name := "stock_conservation", ok := (← available.add sold).eq initial
      details := [("initial", initial), ("available", available), ("net_sold", sold)] },
    { name := "stock_bounds", ok := ← between (.int 0) available initial
      details := [("available", available)] }]

def countOne (d : KeyDict Nat) (v : Value) : Except Exn (KeyDict Nat) :=
  if v.hashable then .ok (KeyDict.set v ((d.get? v).getD 0 + 1) d) else .error .typeError

/-- `Counter(vs)` -/
def counter (vs : List Value) : Except Exn (KeyDict Nat) := vs.foldlM countOne []

def requestChecks (orders : List Value) : Except Exn (List Check) := do
  let keys ← counter (← orders.mapM fun o => o.item "request_key")
  return [{ name := "one_order_per_request", ok := keys.all fun k => k.2 = 1
            details := [("duplicates", .int ((keys.map fun k => (k.2 : Int) - 1).sum))] }]

/-- `sum(e['delta'] for e in ledger if e['owner'] == owner)` -/
def ledgerDelta (ledger : List Value) (owner : Value) : Except Exn Value := do
  let mine ← ledger.filterM fun e => return (← e.item "owner").eq owner
  Value.sum (← mine.mapM fun e => e.item "delta")

def walletValueTypes (initial balance : Value) : Except Exn Bool := do
  if initial.isInt && balance.isInt then (Value.int 0).le initial else return false

def walletChecks (ledger : List Value) (owner w : Value) : Except Exn (List Check) := do
  let initial ← w.item "initial_balance"
  let balance ← w.item "balance"
  let typed ← walletValueTypes initial balance
  let nonneg ← (Value.int 0).le balance
  let delta ← ledgerDelta ledger owner
  return [
    { name := "wallet_value_types", ok := typed, details := [("owner", owner)] },
    { name := "nonnegative_balance", ok := nonneg,
      details := [("owner", owner), ("balance", balance)] },
    { name := "wallet_ledger_agreement", ok := balance.eq (← initial.add delta),
      details := [("owner", owner)] }]

/-- `v in d`: the lookup hashes `v`. -/
def isKey {α : Type} (d : KeyDict α) (v : Value) : Except Exn Bool :=
  if v.hashable then .ok (d.contains v) else .error .typeError

def ledgerChecks (t : Tables) (wallets orders : KeyDict Value) : Except Exn (List Check) := do
  let owners ← t.ledger.allM fun e => do isKey wallets (← e.item "owner")
  let total ← Value.sum (← t.ledger.mapM fun e => e.item "delta")
  let ledgerLinked ← t.ledger.allM fun e => do isKey orders (← e.item "order_id")
  let eventsLinked ← t.events.allM fun e => do isKey orders (← e.item "order_id")
  return [
    { name := "known_ledger_owners", ok := owners },
    { name := "ledger_zero_sum", ok := total.eq (.int 0) },
    { name := "ledger_no_orphans", ok := ledgerLinked },
    { name := "events_no_orphans", ok := eventsLinked }]

def addOne (d : KeyDict Unit) (v : Value) : Except Exn (KeyDict Unit) :=
  if v.hashable then .ok (KeyDict.set v () d) else .error .typeError

/-- `{v for v in vs}` -/
def setOf (vs : List Value) : Except Exn (KeyDict Unit) := vs.foldlM addOne []

/-- `c['order_id'] in orders and orders[c['order_id']]['request_key'] == c['request_key']` -/
def claimIdentity (orders : KeyDict Value) (c : Value) : Except Exn Bool := do
  let oid ← c.item "order_id"
  if !(← isKey orders oid) then return false
  match orders.get? oid with
  | some o => return (← o.item "request_key").eq (← c.item "request_key")
  | none => throw .keyError

def claimChecks (t : Tables) (claims orders : KeyDict Value) : Except Exn (List Check) := do
  let rows := claims.map Prod.snd
  let linked ← rows.allM fun c => do isKey orders (← c.item "order_id")
  let targets ← setOf (← rows.mapM fun c => c.item "order_id")
  let identity ← rows.allM (claimIdentity orders)
  return [
    { name := "unique_claim", ok := claims.length = t.requests.length },
    { name := "claims_no_orphans", ok := linked },
    { name := "claim_targets_unique", ok := targets.length = claims.length },
    { name := "claim_request_identity", ok := identity }]

/-- The key of a ledger counter: owner, phase and delta. -/
abbrev LedgerKey := Value × Value × Value

def LedgerKey.eq (a b : LedgerKey) : Bool := a.1.eq b.1 && a.2.1.eq b.2.1 && a.2.2.eq b.2.2

/-- The ledger entries an order in `state` must have. -/
def expectedLedger (refunded : Bool) (amount : Value) : Except Exn (List LedgerKey) := do
  let minus ← amount.neg
  let buyer := Value.str (str "buyer")
  let merchant := Value.str (str "merchant")
  let paid := [(buyer, .str (str "paid"), minus), (merchant, .str (str "paid"), amount)]
  if refunded then
    return paid ++ [(buyer, .str (str "refunded"), amount),
      (merchant, .str (str "refunded"), minus)]
  else return paid

def expectedEvents (refunded : Bool) : List Value :=
  .str (str "paid") :: if refunded then [.str (str "refunded")] else []

/-- The rows that belong to an order. -/
def rowsOf (rows : List Value) (oid : Value) : Except Exn (List Value) :=
  rows.filterM fun r => return (← r.item "order_id").eq oid

def ledgerKey (r : Value) : Except Exn LedgerKey := do
  let key := (← r.item "owner", ← r.item "phase", ← r.item "delta")
  if key.1.hashable && key.2.1.hashable && key.2.2.hashable then return key else throw .typeError

def eventKind (r : Value) : Except Exn Value := do
  let kind ← r.item "kind"
  if kind.hashable then return kind else throw .typeError

/-- `json.loads(event['payload'])`, with `None` for a `TypeError` or a `ValueError`. -/
def loadsPayload (payload : Value) : Except Exn Value :=
  match payload with
  | .str s => match loads Hooks.default s with
    | .ok v => .ok v
    | .error e => if e.isValueError then .ok .null else .error e
  | _ => .ok .null

def payloadCheck (oid q amount event : Value) : Except Exn Check := do
  let payload ← loadsPayload (← event.item "payload")
  let expected := Value.ofFields
    [("order_id", oid), ("quantity", q), ("amount", amount), ("state", ← event.item "kind")]
  return { name := "event_payload_matches", ok := payload.eq expected,
           details := [("order_id", oid)] }

/-- `type(q) is int and q > 0 and amount == q * inv['unit_price'] and state in {'paid',
'refunded'}` -/
def orderValues (inv q amount state : Value) : Except Exn Bool := do
  if !q.isInt then return false
  if ← q.le (.int 0) then return false
  if !amount.eq (← q.mul (← inv.item "unit_price")) then return false
  if !state.hashable then throw .typeError
  return state.eq (.str (str "paid")) || state.eq (.str (str "refunded"))

/-- `c is not None and c['order_id'] == oid and c['fingerprint'] == expected` -/
def claimMatches (c : Option Value) (oid : Value) (expected : Str) : Except Exn Bool := do
  match c with
  | none => return false
  | some c =>
    if !(← c.item "order_id").eq oid then return false
    return (← c.item "fingerprint").eq (.str expected)

def claimPayload (caseId : Value) (claims : KeyDict Value) (oid order q : Value) :
    Except Exn Check := do
  let key ← order.item "request_key"
  let expected ← (← purchase? caseId key q).fingerprint
  return { name := "claim_payload_and_order", ok := ← claimMatches (claims.get? key) oid expected
           details := [("order_id", oid)] }

def orderChecks (t : Tables) (inv caseId : Value) (claims : KeyDict Value) (requireClaims : Bool)
    (oid order : Value) : Except Exn (List Check) := do
  let q ← order.item "quantity"
  let amount ← order.item "amount"
  let state ← order.item "state"
  let values ← orderValues inv q amount state
  let claimed ← if requireClaims then do
    pure [← claimPayload caseId claims oid order q] else pure []
  let refunded := state.eq (.str (str "refunded"))
  let expected ← expectedLedger refunded amount
  let actual ← (← rowsOf t.ledger oid).mapM ledgerKey
  let eventRows ← rowsOf t.events oid
  let kinds ← eventRows.mapM eventKind
  let payloads ← eventRows.mapM (payloadCheck oid q amount)
  return { name := "order_values", ok := values, details := [("order_id", oid)] } :: claimed ++
    { name := "order_ledger_exact", ok := counterEq LedgerKey.eq actual expected
      details := [("order_id", oid)] } ::
    { name := "order_events_exact", ok := counterEq Value.eq kinds (expectedEvents refunded)
      details := [("order_id", oid)] } :: payloads

/-- What `audit` has computed when its checks have all run. -/
structure Audited where
  checks : List Check
  tables : Tables
  inv : Value
  sold : Value
  wallets : KeyDict Value

def audited (snapshot : Value) (requireClaims : Bool) : Except Exn Audited := do
  let t ← tables snapshot
  let inv := t.inventory.headD .null
  let caseId ← inv.item "case_id"
  let fixture ← fixtureValues inv
  if ← crossCase snapshot caseId then throw (.valueError "Cross-case rows in snapshot")
  let wallets ← KeyDict.byField "owner" t.wallets
  if ¬ (wallets.length = 2 ∧ wallets.contains (.str (str "buyer"))
      ∧ wallets.contains (.str (str "merchant"))) then
    throw (.valueError "Unexpected wallet identities")
  let orders ← KeyDict.byField "id" t.orders
  let rows := orders.map Prod.snd
  let sold ← stockSold rows
  let stock ← stockChecks inv sold
  let balances ← Value.sum (← wallets.mapM fun w => w.2.item "balance")
  let initials ← Value.sum (← wallets.mapM fun w => w.2.item "initial_balance")
  let requests ← requestChecks rows
  let perWallet ← wallets.mapM fun w => walletChecks t.ledger w.1 w.2
  let ledger ← ledgerChecks t wallets orders
  let claims ← KeyDict.byField "request_key" t.requests
  let perClaim ← claimChecks t claims orders
  let perOrder ← orders.mapM fun o => orderChecks t inv caseId claims requireClaims o.1 o.2
  let checks :=
    { name := "fixture_values", ok := fixture } ::
      { name := "unique_order_id", ok := orders.length = t.orders.length } ::
    stock ++ { name := "money_conservation", ok := balances.eq initials } :: requests ++
    perWallet.flatten ++ ledger ++ perClaim ++ perOrder.flatten
  return { checks, tables := t, inv, sold, wallets }

def Audited.passed (a : Audited) : Bool := a.checks.all Check.ok

/-- One entry of `{k: v['balance'] for k, v in wallets.items()}` -/
def balanceOf (w : Value × Value) : Except Exn (Str × Value) := do
  match w.1 with
  | .str k => return (k, ← w.2.item "balance")
  | _ => throw .typeError

/-- `audit` -/
def audit (snapshot : Value) (requireClaims : Bool) : Except Exn Value := do
  let a ← audited snapshot requireClaims
  let balances ← a.wallets.mapM balanceOf
  let count := fun (rows : List Value) => Value.int rows.length
  return .ofFields [
    ("passed", .bool a.passed),
    ("violations", .list ((a.checks.filter fun c => !c.ok).map Check.violation)),
    ("snapshot_sha256", .str (← digest snapshot)),
    ("counts", .ofFields [("inventory", count a.tables.inventory),
      ("wallets", count a.tables.wallets), ("requests", count a.tables.requests),
      ("orders", count a.tables.orders), ("ledger", count a.tables.ledger),
      ("events", count a.tables.events)]),
    ("stock", .ofFields [("initial", ← a.inv.item "initial_qty"),
      ("remaining", ← a.inv.item "available"), ("net_sold", a.sold)]),
    ("balances_minor_units", .dict balances)]

end DbLab.Txlab
