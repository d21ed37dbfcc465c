import DbLab.Txlab.Database
import DbLab.Txlab.Digest

/-!
# The checkout repository (`transaction_sql.py`)

`Repository`: `connect`, `seed`, `lookup`, `purchase`, `refund` and what they share, statement by
statement. The fields of trace events and the pauses between attempts are left out, and so is the
hook `after_read`, which only schedules threads.
-/

namespace DbLab.Txlab
open DbLab.Py DbLab.Store

/-- `POLICIES` -/
inductive Policy where
  | safe
  | staleStock
  | noClaim
  | splitCommit
  | uncheckedReplay
deriving DecidableEq

/-- `policy in {'protected', 'unchecked-replay'}` -/
def Policy.isProtected (p : Policy) : Bool := p = .safe || p = .uncheckedReplay

/-- What the methods raise. -/
inductive Raised where
  | existingKey
  | injected (stage : Failpoint)
  | commitUnknown (message : String)
  | rejected (reason : String)
  | sql (e : Failure)
  | python (e : Exn)
  | runtimeError (message : String)
  | unreachable
deriving DecidableEq

/-- What the methods return. -/
inductive Reply where
  | seeded
  | created (order : OrderRow)
  | replayed (order : OrderRow)
  | refunded (orderId : Str)
  | refundReplayed (orderId : Str)
  | found (order : Option OrderRow)
deriving DecidableEq

abbrev Repo (α : Type) := Client interface Raised α

namespace Repo
variable {α : Type}

abbrev execute (q : Query) : Repo q.Rows := Client.execute (I := interface) Raised.sql q
abbrev commit : Repo Unit := Client.commit .sql
abbrev rollback : Repo Unit := Client.rollback .sql
abbrev close : Repo Unit := Client.close

def require (c : Prop) [Decidable c] (e : Raised) : Repo Unit := if c then pure () else throw e

def lift : Except Exn α → Repo α
  | .ok a => pure a
  | .error e => throw (.python e)

/-- `uuid.uuid4().hex` -/
def uuid4 : Repo Str := Client.act (I := interface) Action.uuid4

/-- Whether the trace still has room. -/
def note : Repo Bool := Client.act (I := interface) Action.trace

/-- `Trace.add` -/
def trace : Repo Unit := do
  let room ← note
  require room (.runtimeError "Transaction trace budget exceeded")

end Repo

namespace Repository
open Repo

/-- `Repository.connect` -/
def connect : Repo Unit := do
  Client.connect .sql
  try
    execute (.session .readCommitted)
    execute (.session .timeZone)
  catch e =>
    close
    throw e

variable [Interpreter]

/-- `Purchase(case_id, ...)` as a check of the case id. -/
def checkCase (caseId : Str) (label : String) : Repo Unit := do
  let _ ← lift (purchase? (.str caseId) (.str (str label)) (.int 1))

/-- `0 <= v <= 1_000_000` -/
def fixtureNumber (v : Int) : Prop := 0 ≤ v ∧ v ≤ 1000000

instance (v : Int) : Decidable (fixtureNumber v) := inferInstanceAs (Decidable (_ ∧ _))

/-- `Repository.seed` -/
def seed (caseId : Str) (stock balance price : Int) : Repo Reply := do
  checkCase caseId "seed"
  require (fixtureNumber stock ∧ fixtureNumber balance ∧ fixtureNumber price ∧ 1 ≤ price)
    (.python (.valueError "Invalid fixture quantities"))
  connect
  try
    execute (.session .begin)
    execute (.insert (.inventory ⟨caseId, stock, stock, price⟩))
    execute (.insert (.wallet ⟨caseId, str "buyer", balance, balance⟩))
    execute (.insert (.wallet ⟨caseId, str "merchant", 0, 0⟩))
    commit
    pure .seeded
  catch e =>
    rollback
    throw e
  finally
    close

/-- `Repository.lookup` -/
def lookup (request : Purchase) (verifyPayload : Bool) : Repo (Option OrderRow) := do
  connect
  try
    let claim ← execute (.request request.caseId request.key)
    match claim with
    | none => pure none
    | some claim =>
      let fingerprint ← lift request.fingerprint
      require (verifyPayload → claim.fingerprint = fingerprint) (.rejected "idempotency_conflict")
      let order ← execute (.order claim.orderId)
      match order with
      | none => throw (.runtimeError "Committed request claim has no matching order")
      | some order =>
        require (order.caseId = request.caseId ∧ order.requestKey = request.key ∧
            (verifyPayload → order.quantity = request.quantity))
          (.runtimeError "Committed request claim has no matching order")
        pure (some order)
  finally
    try
      rollback
    finally
      close

/-- One of the two rows of `_ledger`. -/
def ledgerEntry (order : OrderRow) (phase owner : Str) (delta : Int) : Repo Unit := do
  let id ← uuid4
  execute (.insert (.ledger ⟨id, order.caseId, order.id, owner, phase, delta⟩))

/-- `Repository._ledger` -/
def ledger (order : OrderRow) (phase : Str) : Repo Unit := do
  let sign := if phase = str "paid" then -1 else 1
  ledgerEntry order phase (str "buyer") (sign * order.amount)
  ledgerEntry order phase (str "merchant") (-sign * order.amount)

/-- `Repository._event` -/
def event (order : OrderRow) (phase : Str) : Repo Unit := do
  let payload ← lift (order.payloadText phase)
  let id ← uuid4
  execute (.insert (.event ⟨id, order.caseId, order.id, phase, payload⟩))

/-- `checkpoint` in `_purchase` -/
def checkpoint (policy : Policy) (failAt : Option Failpoint) (stage : Failpoint) : Repo Unit := do
  if policy = .splitCommit then
    commit
    trace
  else pure ()
  trace
  require (failAt ≠ some stage) (.injected stage)

/-- The claim of a request key. Only here a duplicate key is a replay. -/
def claim (req : Purchase) (oid : Str) : Repo Unit := do
  let fingerprint ← lift req.fingerprint
  try
    execute (.insert (.request ⟨req.caseId, req.key, fingerprint, oid⟩))
  catch
    | .sql .duplicate => throw .existingKey
    | e => throw e

/-- The stock of an order. -/
def takeStock (req : Purchase) (policy : Policy) (item : InventoryRow) : Repo Unit := do
  if policy = .staleStock then
    trace
    require (req.quantity ≤ item.available) (.rejected "sold_out")
    let _ ← execute (.setAvailable req.caseId (item.available - req.quantity))
  else
    let taken ← execute (.addAvailable req.caseId (-req.quantity) (some req.quantity))
    require (taken = 1) (.rejected "sold_out")

/-- The order a purchase makes. -/
def newOrder (req : Purchase) (oid : Str) (item : InventoryRow) : OrderRow where
  id := oid
  caseId := req.caseId
  requestKey := req.key
  quantity := req.quantity
  amount := req.quantity * item.unitPrice
  state := str "paid"

/-- The statements of `_purchase` from the stock to the outbox. -/
def accounts (req : Purchase) (policy : Policy) (failAt : Option Failpoint) (oid : Str)
    (item : InventoryRow) :
    Repo Unit := do
  let order := newOrder req oid item
  takeStock req policy item
  checkpoint policy failAt .inventory
  let debited ← execute (.addBalance req.caseId (str "buyer") (-order.amount) (some order.amount))
  require (debited = 1) (.rejected "insufficient_funds")
  checkpoint policy failAt .debit
  let credited ← execute (.addBalance req.caseId (str "merchant") order.amount none)
  require (credited = 1) (.runtimeError "Merchant fixture missing")
  checkpoint policy failAt .credit
  execute (.insert (.order order))
  checkpoint policy failAt .order
  ledger order (str "paid")
  checkpoint policy failAt .ledger
  event order (str "paid")
  checkpoint policy failAt .outbox

/-- The body of the transaction in `_purchase`. -/
def checkout (req : Purchase) (policy : Policy) (failAt : Option Failpoint) (loseResponse : Bool)
    (oid : Str) :
    Repo Reply := do
  execute (.session .begin)
  if policy.isProtected then claim req oid else pure ()
  let item ← execute (.inventory req.caseId)
  match item with
  | none => throw (.rejected "unknown_case")
  | some item =>
    accounts req policy failAt oid item
    try
      commit
    catch _ =>
      trace
      throw (.commitUnknown "commit result cannot be established; query same key")
    trace
    if loseResponse then
      trace
      throw (.commitUnknown "deliberate response loss AFTER confirmed DB commit")
    else pure (.created (newOrder req oid item))

/-- `Repository._purchase` -/
def purchaseOnce (req : Purchase) (policy : Policy) (failAt : Option Failpoint)
    (loseResponse : Bool) :
    Repo Reply := do
  connect
  let oid ← uuid4
  trace
  try
    checkout req policy failAt loseResponse oid
  catch
    | .commitUnknown m => throw (.commitUnknown m)
    | e =>
      rollback
      trace
      throw e
  finally
    close

/-- What `purchase` does after a failed attempt. `retry` is the rest of the loop, where one is
left. -/
def afterFailure (req : Purchase) (policy : Policy) (retry : Option (Repo Reply)) :
    Raised → Repo Reply
  | .existingKey => do
    let order ← lookup req (policy ≠ .uncheckedReplay)
    match order with
    | none => throw (.runtimeError "Unique request conflict without a committed request")
    | some order =>
      trace
      pure (.replayed order)
  | .sql e =>
    match retry with
    | some retry =>
      if (e = .lockTimeout ∨ e = .deadlock) ∧ policy.isProtected then do
        trace
        retry
      else throw (.sql e)
    | none => throw (.sql e)
  | e => throw e

/-- The loop of `purchase`, with `n` attempts left after the first. -/
def attempts (req : Purchase) (policy : Policy) (failAt : Option Failpoint) (loseResponse : Bool) :
    Nat → Repo Reply
  | 0 => tryCatch (purchaseOnce req policy failAt loseResponse) (afterFailure req policy none)
  | n + 1 => tryCatch (purchaseOnce req policy failAt loseResponse)
      (afterFailure req policy (some (attempts req policy failAt loseResponse n)))

/-- `Repository.purchase` -/
def purchase (req : Purchase) (policy : Policy) (failAt : Option Failpoint) (loseResponse : Bool) :
    Repo Reply :=
  attempts req policy failAt loseResponse 2

/-- The statements of `refund` once the order is known to be paid. -/
def giveBack (caseId oid : Str) (order : OrderRow) : Repo Unit := do
  let _ ← execute (.addAvailable caseId order.quantity none)
  let _ ← execute (.addBalance caseId (str "buyer") order.amount none)
  let _ ← execute (.addBalance caseId (str "merchant") (-order.amount) none)
  let _ ← execute (.setState oid (str "refunded"))
  ledger order (str "refunded")
  event order (str "refunded")

/-- The body of the transaction in `refund`. -/
def refundBody (caseId oid : Str) (isProtected : Bool) : Repo Reply := do
  execute (.session .begin)
  let order ← execute (.orderOf oid caseId isProtected)
  match order with
  | none => throw (.rejected "order_missing")
  | some order =>
    if order.state = str "refunded" then
      rollback
      trace
      pure (.refundReplayed oid)
    else
      require (order.state = str "paid") (.rejected "invalid_refund_state")
      trace
      giveBack caseId oid order
      try
        commit
      catch _ =>
        throw (.commitUnknown "refund commit result unknown; inspect order before retry")
      trace
      pure (.refunded oid)

/-- `Repository.refund` -/
def refund (caseId oid : Str) (isProtected : Bool) : Repo Reply := do
  checkCase caseId "refund"
  require (orderIdOk oid) (.python (.valueError "Invalid synthetic order ID"))
  connect
  try
    refundBody caseId oid isProtected
  catch
    | .commitUnknown m => throw (.commitUnknown m)
    | e =>
      rollback
      throw e
  finally
    close

end Repository

end DbLab.Txlab
