import DbLab.Py.Str
import DbLab.Store.Engine
import DbLab.Store.Table

/-!
# Accounts and transfers (`ops-schema.sql`)

The tables `account` and `transfer` with their keys and constraints, and what each statement of
`transfer` does on InnoDB. Copies made with `CREATE TABLE … LIKE` keep the keys and the checks but
not the foreign keys. Request ids are the texts of UUIDs, which no collation confuses.
-/

namespace DbLab.Galera
open DbLab.Py DbLab.Store

structure Account where
  id : Int
  balance : Int
deriving DecidableEq

/-- A row of `transfer`, less the time it was written at. -/
structure Transfer where
  requestId : Str
  fromId : Int
  toId : Int
  amount : Int
  handledBy : Str
deriving DecidableEq

inductive Row where
  | account (r : Account)
  | transfer (r : Transfer)
deriving DecidableEq

inductive Key where
  | account (id : Int)
  | transfer (requestId : Str)
deriving DecidableEq

structure Database where
  accounts : Table Account.id
  transfers : Table Transfer.requestId

inductive Write where
  | insert (r : Transfer)
  | add (id delta : Int)

def Write.key : Write → Key
  | .insert r => .transfer r.requestId
  | .add id _ => .account id

namespace Database

def read (d : Database) : Key → Option Row
  | .account id => (d.accounts.find? id).map .account
  | .transfer r => (d.transfers.find? r).map .transfer

def apply (d : Database) : Write → Database
  | .insert r => { d with transfers := d.transfers.insert r }
  | .add id delta =>
    { d with
      accounts :=
        d.accounts.update id (fun r => { r with balance := r.balance + delta }) fun _ => rfl }

/-- A write leaves all rows but one alone. -/
lemma read_apply {d : Database} {w : Write} {k : Key} (ne : k ≠ w.key) :
    (d.apply w).read k = d.read k := by
  cases w with
  | insert r =>
    cases k with
    | account id => rfl
    | transfer id =>
      exact congrArg (Option.map _) (Table.find?_insert_of_ne fun e =>
        ne (congrArg Key.transfer e.symm))
  | add id delta =>
    cases k with
    | account id' =>
      simp only [apply, read]
      rw [Table.find?_update_of_ne]
      exact fun e => ne (congrArg Key.account e.symm)
    | transfer r => rfl

end Database

/-- Statements that only set up the session or the transaction. -/
inductive Session where
  | syncWait (n : Nat)
  | begin

inductive Query where
  | session (s : Session)
  | find (requestId : Str)
  | hostname
  | lock (a b : Int)
  | insert (r : Transfer)
  | add (id delta : Int)

/-- The columns of `SELECT from_id,to_id,amount,handled_by`, `@@hostname`, and the rows of
`SELECT id,balance`. -/
abbrev Query.Rows : Query → Type
  | .session _ | .insert _ | .add _ _ => Unit
  | .find _ => Option Transfer
  | .hostname => Str
  | .lock _ _ => List Account

/-- A server and its tables: its name, and whether `transfer` has foreign keys. -/
structure Schema where
  host : Str
  foreignKeys : Bool

/-- What a statement replies on the rows its transaction sees, which keys it locks and what it
writes. The errors are those of MariaDB: a check fails with 4025, a foreign key with 1452, a number
out of range with 1264. -/
def Query.eval (S : Schema) (d : Database) :
    (q : Query) → Except Failure q.Rows × List Key × List Write
  | .session _ => (.ok (), [], [])
  | .find r => (.ok (d.transfers.find? r), [], [])
  | .hostname => (.ok S.host, [], [])
  | .lock a b => (.ok ([a, b].dedup.filterMap d.accounts.find?), [.account a, .account b], [])
  | .insert r =>
    if ¬(0 < r.amount ∧ r.fromId ≠ r.toId) then (.error (.server 4025), [], [])
    else if (d.transfers.find? r.requestId).isSome then (.error .duplicate, [], [])
    else if S.foreignKeys ∧ ¬((d.accounts.find? r.fromId).isSome ∧
      (d.accounts.find? r.toId).isSome) then
      (.error (.server 1452), [.transfer r.requestId], [])
    else (.ok (), [.transfer r.requestId], [.insert r])
  | .add id delta =>
    match d.accounts.find? id with
    | none => (.ok (), [], [])
    | some r =>
      if r.balance + delta < 0 then (.error (.server 4025), [.account id], [])
      else if 2 ^ 63 ≤ r.balance + delta then (.error (.server 1264), [.account id], [])
      else (.ok (), [.account id], [.add id delta])

/-- A statement locks what it writes. -/
lemma Query.eval_locks (S : Schema) (q : Query) (d : Database) :
    ∀ w ∈ (q.eval S d).2.2, w.key ∈ (q.eval S d).2.1 := by
  cases q with
  | session s => exact List.forall_mem_nil _
  | find r => exact List.forall_mem_nil _
  | hostname => exact List.forall_mem_nil _
  | lock a b => exact List.forall_mem_nil _
  | insert r =>
    rw [Query.eval]
    split
    · exact List.forall_mem_nil _
    split
    · exact List.forall_mem_nil _
    split
    · exact List.forall_mem_nil _
    · simp [Write.key]
  | add id delta =>
    rw [Query.eval]
    split
    · exact List.forall_mem_nil _
    · split
      · exact List.forall_mem_nil _
      split
      · exact List.forall_mem_nil _
      · simp [Write.key]

abbrev interface : Interface where
  Query := Query
  Rows := Query.Rows
  Action := Empty
  Outcome := fun x => nomatch x

/-- The writer of the cluster. -/
abbrev writer (S : Schema) : Server interface where
  Db := Database
  Env := Unit
  Key := Key
  Val := Option Row
  Write := Write
  read := Database.read
  apply := Database.apply
  touched := fun w => [w.key]
  runs :=
    fun q d ws r d' ks ws' => d' = d ∧ (r, ks, ws') = Query.eval S (ws.foldl Database.apply d) q
  acts := fun x => nomatch x
  drifts := fun _ _ => False
  frame := fun h => Database.read_apply fun e => h (List.mem_singleton.2 e)
  runs_touched := by
    rintro q d ws r d' ks ws' ⟨_, run⟩ w m k touches
    obtain rfl := List.mem_singleton.1 touches
    have locks := q.eval_locks S (ws.foldl Database.apply d)
    rw [← run] at locks
    exact locks w m
  runs_read := by
    rintro q d ws r d' ks ws' ⟨rfl, _⟩ k
    rfl

end DbLab.Galera
