import DbLab.Galera.Bank

/-!
# The transfer and its retries (`workload.py`)

`transfer` and the part of `load.worker` that serves one request: up to eight attempts under one
request id, each on a connection of its own after a failure. A worker that keeps its connection for
the next request keeps one without a transaction, which is as good as a new one. Counters and pauses
are left out.
-/

namespace DbLab.Galera
open DbLab.Py DbLab.Store

/-- A request of the workload: two different accounts and a positive amount. -/
structure Request where
  requestId : Str
  source : Int
  target : Int
  amount : Int
  distinct : source ≠ target
  positive : 0 < amount

/-- The row that a transfer inserts. -/
def Request.row (r : Request) (host : Str) : Transfer :=
  ⟨r.requestId, r.source, r.target, r.amount, host⟩

/-- A row is that of a transfer with these parameters. -/
def Request.Matches (r : Request) (t : Transfer) : Prop :=
  t.fromId = r.source ∧ t.toId = r.target ∧ t.amount = r.amount

instance (r : Request) (t : Transfer) : Decidable (r.Matches t) :=
  inferInstanceAs (Decidable (_ ∧ _ ∧ _))

/-- What the workload raises. -/
inductive Raised where
  | sql (e : Failure)
  | runtimeError (message : String)
  | keyError
deriving DecidableEq

/-- `exc.args[0]` of a `MySQLError` -/
def code : Failure → Nat
  | .duplicate => 1062
  | .lockTimeout => 1205
  | .deadlock => 1213
  | .server code => code
  | .lost => 2013

/-- `RETRYABLE` -/
def retryable : List Nat := [1047, 1062, 1205, 1213, 2002, 2003, 2006, 2013]

abbrev Work (α : Type) := Client interface Raised α

namespace Work

abbrev connect : Work Unit := Client.connect .sql
abbrev query (q : Query) : Work q.Rows := Client.execute (I := interface) Raised.sql q
abbrev commit : Work Unit := Client.commit .sql
abbrev rollback : Work Unit := Client.rollback .sql
abbrev close : Work Unit := Client.close

end Work

open Work

/-- `SELECT … FOR UPDATE`, and the balance that the source has in its result. -/
def lockBalances (r : Request) : Work Int := do
  let rows ← query (.lock (min r.source r.target) (max r.source r.target))
  match rows.find? fun a => a.id = r.source with
  | some a => pure a.balance
  | none => throw .keyError

/-- The `try` block of `transfer`. -/
def move (r : Request) : Work (Option Str) := do
  let hostname ← query .hostname
  let balance ← lockBalances r
  if balance < r.amount then
    rollback
    pure none
  else
    query (.insert (r.row hostname))
    query (.add r.source (-r.amount))
    query (.add r.target r.amount)
    commit
    pure (some hostname)

/-- `except BaseException`: roll back, ignoring database errors, and raise again. -/
def abandon (e : Raised) : Work (Option Str) := do
  tryCatch rollback fun
    | .sql _ => pure ()
    | e' => throw e'
  throw e

/-- `transfer(conn, request_id, source, target, amount)` -/
def transfer (r : Request) : Work (Option Str) := do
  query (.session (.syncWait 1))
  match ← query (.find r.requestId) with
  | some row =>
    if r.Matches row then pure (some row.handledBy)
    else throw (.runtimeError "Idempotency key was reused with a different request.")
  | none =>
    query (.session (.syncWait 0))
    query (.session .begin)
    tryCatch (move r) abandon

/-- What comes of a request: what `transfer` returned, or nothing after the last attempt. -/
inductive Outcome where
  | answered (host : Option Str)
  | unresolved
deriving DecidableEq

/-- A result or an exception, to be looked at. -/
def attempted {α : Type} (p : Work α) : Work (Except Raised α) :=
  tryCatch (do
    let a ← p
    pure (.ok a)) fun e => pure (.error e)

/-- `except pymysql.MySQLError`: the next attempt, if the error allows one. -/
def retryOr (retry : Work Outcome) : Raised → Work Outcome
  | .sql e => if code e ∈ retryable then retry else throw (.sql e)
  | e => throw e

/-- The attempts of a worker at one request, without a connection at first. -/
def attempts (r : Request) : Nat → Work Outcome
  | 0 => pure .unresolved
  | n + 1 => do
    match ← attempted connect with
    | .error e => retryOr (attempts r n) e
    | .ok () =>
      let result ← attempted (transfer r)
      close
      match result with
      | .ok host => pure (.answered host)
      | .error e => retryOr (attempts r n) e

/-- `for attempt in range(8)` -/
def serve (r : Request) : Work Outcome := attempts r 8

end DbLab.Galera
