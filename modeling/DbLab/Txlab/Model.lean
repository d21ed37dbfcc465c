import DbLab.Py.Utf8
import DbLab.Py.Json

/-!
# The transaction lab's model (`transaction_model.py`)

Constants, option checks, the synthetic purchase and its fingerprint, and the plan a run publishes.
-/

namespace DbLab.Txlab
open DbLab.Py

variable [Interpreter]

/-- `SCENARIOS` -/
inductive Scenario where
  | stockRace
  | duplicateCheckout
  | checkoutRollback
  | commitAmbiguity
  | idempotencyConflict
  | refundRace
deriving DecidableEq, Repr

def Scenario.name : Scenario → String
  | .stockRace => "stock-race"
  | .duplicateCheckout => "duplicate-checkout"
  | .checkoutRollback => "checkout-rollback"
  | .commitAmbiguity => "commit-ambiguity"
  | .idempotencyConflict => "idempotency-conflict"
  | .refundRace => "refund-race"

/-- `TABLES` -/
def tableNames : List String := ["inventory", "wallets", "requests", "orders", "ledger", "events"]

/-- `FAILPOINTS` -/
inductive Failpoint where
  | inventory
  | debit
  | credit
  | order
  | ledger
  | outbox
deriving DecidableEq, Repr

def Failpoint.name : Failpoint → String
  | .inventory => "inventory"
  | .debit => "debit"
  | .credit => "credit"
  | .order => "order"
  | .ledger => "ledger"
  | .outbox => "outbox"

def maxRows : Nat := 1000

/-- `canonical` -/
def canonical (v : Value) : Except Exn Bytes := do
  encode (← dumps { compact := true, sortKeys := true } v)

/-- `digest` -/
def digest (v : Value) : Except Exn Str := do
  return Interpreter.sha256 (← canonical v)

/-- `re.fullmatch(r'[a-z][a-z0-9-]{0,39}', s)` -/
def caseIdOk : Str → Bool
  | [] => false
  | c :: s => (97 ≤ c && c ≤ 122) && s.length ≤ 39 &&
      s.all fun c => (97 ≤ c && c ≤ 122) || isDigit c || c = 45

/-- `re.fullmatch(r'[A-Za-z0-9_-]{1,64}', s)` -/
def keyOk (s : Str) : Bool :=
  1 ≤ s.length && s.length ≤ 64 &&
    s.all fun c => (65 ≤ c && c ≤ 90) || (97 ≤ c && c ≤ 122) || isDigit c || c = 95 || c = 45

/-- A purchase that `__post_init__` let through. -/
structure Purchase where
  caseId : Str
  key : Str
  quantity : Int
  caseId_ok : caseIdOk caseId
  key_ok : keyOk key
  quantity_pos : 1 ≤ quantity
  quantity_le : quantity ≤ 20
deriving DecidableEq

/-- `Purchase(case_id, key, quantity)` -/
def purchase? (caseId key quantity : Value) : Except Exn Purchase :=
  match caseId, key, quantity with
  | .str c, .str k, .int q =>
    if h : caseIdOk c ∧ keyOk k ∧ 1 ≤ q ∧ q ≤ 20 then .ok ⟨c, k, q, h.1, h.2.1, h.2.2.1, h.2.2.2⟩
    else .error (.valueError "Invalid synthetic purchase")
  | _, _, _ => .error (.valueError "Invalid synthetic purchase")

/-- `Purchase.fingerprint` hashes the request, not the price. -/
def Purchase.fingerprint (p : Purchase) : Except Exn Str :=
  digest (.ofFields [("case_id", .str p.caseId), ("key", .str p.key), ("quantity", .int p.quantity),
    ("sku", .str (str "study-widget")), ("buyer", .str (str "buyer"))])

end DbLab.Txlab
