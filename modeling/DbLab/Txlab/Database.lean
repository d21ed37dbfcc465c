import DbLab.Txlab.Snapshot
import DbLab.Store.Engine
import DbLab.Store.Table

/-!
# The lab's schema and statements (`transaction_sql.py`)

The six tables with their primary keys, and what each statement of `Repository` does on InnoDB. A
plain `SELECT` reads the latest committed rows and the writes of its own transaction. An `INSERT`
whose key is taken fails as a duplicate, otherwise it locks the key. An `UPDATE` locks the row it
changes and counts it; one that matches nothing changes and locks nothing. The collation of the text
columns never equates two different ids, owners or keys that the code lets through, and no number
leaves the range of `BIGINT`.
-/

namespace DbLab.Txlab
open DbLab.Py DbLab.Store

/-- A row of one of the tables. -/
inductive Row where
  | inventory (r : InventoryRow)
  | wallet (r : WalletRow)
  | request (r : RequestRow)
  | order (r : OrderRow)
  | ledger (r : LedgerRow)
  | event (r : EventRow)
deriving DecidableEq

/-- A primary key of one of the tables. -/
inductive Key where
  | inventory (caseId : Str)
  | wallet (caseId owner : Str)
  | request (caseId requestKey : Str)
  | order (id : Str)
  | ledger (id : Str)
  | event (id : Str)
deriving DecidableEq

abbrev WalletRow.key (r : WalletRow) : Str × Str := (r.caseId, r.owner)
abbrev RequestRow.key (r : RequestRow) : Str × Str := (r.caseId, r.requestKey)

def Row.key : Row → Key
  | .inventory r => .inventory r.caseId
  | .wallet r => .wallet r.caseId r.owner
  | .request r => .request r.caseId r.requestKey
  | .order r => .order r.id
  | .ledger r => .ledger r.id
  | .event r => .event r.id

structure Database where
  inventory : Table InventoryRow.caseId
  wallets : Table WalletRow.key
  requests : Table RequestRow.key
  orders : Table OrderRow.id
  ledger : Table LedgerRow.id
  events : Table EventRow.id

inductive Write where
  | insert (r : Row)
  | setAvailable (caseId : Str) (available : Int)
  | addAvailable (caseId : Str) (delta : Int)
  | addBalance (caseId owner : Str) (delta : Int)
  | setState (id state : Str)

def Write.key : Write → Key
  | .insert r => r.key
  | .setAvailable c _ | .addAvailable c _ => .inventory c
  | .addBalance c owner _ => .wallet c owner
  | .setState id _ => .order id

namespace Database

/-- The schema `initialize` leaves. -/
def empty : Database := ⟨.empty, .empty, .empty, .empty, .empty, .empty⟩

def read (d : Database) : Key → Option Row
  | .inventory c => (d.inventory.find? c).map .inventory
  | .wallet c owner => (d.wallets.find? (c, owner)).map .wallet
  | .request c k => (d.requests.find? (c, k)).map .request
  | .order id => (d.orders.find? id).map .order
  | .ledger id => (d.ledger.find? id).map .ledger
  | .event id => (d.events.find? id).map .event

def insert (d : Database) : Row → Database
  | .inventory r => { d with inventory := d.inventory.insert r }
  | .wallet r => { d with wallets := d.wallets.insert r }
  | .request r => { d with requests := d.requests.insert r }
  | .order r => { d with orders := d.orders.insert r }
  | .ledger r => { d with ledger := d.ledger.insert r }
  | .event r => { d with events := d.events.insert r }

def apply (d : Database) : Write → Database
  | .insert r => d.insert r
  | .setAvailable c n =>
    { d with inventory := d.inventory.update c (fun r => { r with available := n }) fun _ => rfl }
  | .addAvailable c n =>
    { d with
      inventory :=
        d.inventory.update c (fun r => { r with available := r.available + n }) fun _ => rfl }
  | .addBalance c owner n =>
    { d with
      wallets :=
        d.wallets.update (c, owner) (fun r => { r with balance := r.balance + n }) fun _ => rfl }
  | .setState id state =>
    { d with orders := d.orders.update id (fun r => { r with state := state }) fun _ => rfl }

/-- Another key reads as before. -/
lemma read_insert {d : Database} {r : Row} {k : Key} (ne : k ≠ r.key) :
    (d.insert r).read k = d.read k := by
  cases r <;> cases k <;> try rfl
  all_goals
    refine congrArg (Option.map _) (Table.find?_insert_of_ne fun e => ne ?_)
    cases e
    rfl

/-- A write leaves all rows but one alone. -/
lemma read_apply {d : Database} {w : Write} {k : Key} (ne : k ≠ w.key) :
    (d.apply w).read k = d.read k := by
  cases w with
  | insert r => exact read_insert ne
  | setAvailable c n | addAvailable c n =>
    cases k <;> try rfl
    simp only [apply, read]
    rw [Table.find?_update_of_ne]
    exact fun e => ne (congrArg Key.inventory e.symm)
  | addBalance c owner n =>
    cases k <;> try rfl
    simp only [apply, read]
    rw [Table.find?_update_of_ne]
    intro e
    cases e
    exact ne rfl
  | setState id state =>
    cases k <;> try rfl
    simp only [apply, read]
    rw [Table.find?_update_of_ne]
    exact fun e => ne (congrArg Key.order e.symm)

end Database

/-- Statements that only set up the session or the transaction. -/
inductive Session where
  | readCommitted
  | timeZone
  | begin

/-- `INSERT`; `SELECT` by primary key, from `orders` also by case and `FOR UPDATE`; and `UPDATE` of
the stock (absolute or relative), of a balance or of an order's state. The relative ones may demand
that the number is at least some value. -/
inductive Query where
  | session (s : Session)
  | insert (r : Row)
  | inventory (caseId : Str)
  | request (caseId requestKey : Str)
  | order (id : Str)
  | orderOf (id caseId : Str) (forUpdate : Bool)
  | setAvailable (caseId : Str) (available : Int)
  | addAvailable (caseId : Str) (delta : Int) (atLeast : Option Int)
  | addBalance (caseId owner : Str) (delta : Int) (atLeast : Option Int)
  | setState (id state : Str)

/-- The row a `SELECT` finds, or the `rowcount` of an `UPDATE`, which counts changed rows. -/
abbrev Query.Rows : Query → Type
  | .session _ | .insert _ => Unit
  | .inventory _ => Option InventoryRow
  | .request _ _ => Option RequestRow
  | .order _ | .orderOf _ _ _ => Option OrderRow
  | .setAvailable _ _ | .addAvailable _ _ _ | .addBalance _ _ _ _ | .setState _ _ => Nat

/-- An `UPDATE` of the row found, if it is hit. -/
def updateRow {R : Type} (found : Option R) (hit changes : R → Bool) (w : Write) :
    Except Failure Nat × List Key × List Write :=
  match found with
  | some r => if hit r then (.ok (if changes r then 1 else 0), [w.key], [w]) else (.ok 0, [], [])
  | none => (.ok 0, [], [])

/-- What an update does. -/
lemma updateRow_inv {R : Type} {found : Option R} {hit changes : R → Bool} {w : Write}
    {x : Except Failure Nat}
    {ks : List Key} {ws : List Write} (h : updateRow found hit changes w = (x, ks, ws)) :
    (∃ r, found = some r ∧ hit r = true ∧ x = .ok (if changes r then 1 else 0) ∧
      ks = [w.key] ∧ ws = [w]) ∨ ((∀ r, found = some r → hit r = false) ∧ x = .ok 0 ∧ ks = [] ∧
        ws = []) := by
  cases found with
  | none =>
    cases h
    exact .inr ⟨nofun, rfl, rfl, rfl⟩
  | some r =>
    rw [updateRow] at h
    split at h
    · cases h
      exact .inl ⟨r, rfl, ‹_›, rfl, rfl, rfl⟩
    · cases h
      exact .inr ⟨fun r' e => by cases e; exact eq_false_of_ne_true ‹_›, rfl, rfl, rfl⟩

/-- What a statement replies on the rows its transaction sees, which keys it locks and what it
writes. -/
def Query.eval (d : Database) : (q : Query) → Except Failure q.Rows × List Key × List Write
  | .session _ => (.ok (), [], [])
  | .insert r =>
    if (d.read r.key).isSome then (.error .duplicate, [], []) else (.ok (), [r.key], [.insert r])
  | .inventory c => (.ok (d.inventory.find? c), [], [])
  | .request c k => (.ok (d.requests.find? (c, k)), [], [])
  | .order id => (.ok (d.orders.find? id), [], [])
  | .orderOf id c forUpdate =>
    match (d.orders.find? id).filter fun o => o.caseId = c with
    | some o => (.ok (some o), if forUpdate then [.order id] else [], [])
    | none => (.ok none, [], [])
  | .setAvailable c n =>
    updateRow (d.inventory.find? c) (fun _ => true) (fun i => i.available ≠ n) (.setAvailable c n)
  | .addAvailable c n atLeast =>
    updateRow (d.inventory.find? c) (fun i => atLeast.all (· ≤ i.available)) (fun _ => n ≠ 0)
      (.addAvailable c n)
  | .addBalance c owner n atLeast =>
    updateRow (d.wallets.find? (c, owner)) (fun w => atLeast.all (· ≤ w.balance)) (fun _ => n ≠ 0)
      (.addBalance c owner n)
  | .setState id state =>
    updateRow (d.orders.find? id) (fun _ => true) (fun o => o.state ≠ state) (.setState id state)

/-- A statement locks what it writes. -/
lemma Query.eval_locks (q : Query) (d : Database) :
    ∀ w ∈ (q.eval d).2.2, w.key ∈ (q.eval d).2.1 := by
  have update : ∀ {R : Type} (found : Option R) (hit changes : R → Bool) (w : Write),
      ∀ w' ∈ (updateRow found hit changes w).2.2, w'.key ∈ (updateRow found hit changes w).2.1 := by
    intro R found hit changes w
    cases found with
    | none => exact List.forall_mem_nil _
    | some r =>
      simp only [updateRow]
      split
      · simp
      · exact List.forall_mem_nil _
  cases q with
  | session s | inventory c | request c k | order id => exact List.forall_mem_nil _
  | insert r =>
    simp only [Query.eval]
    split
    · exact List.forall_mem_nil _
    · simp [Write.key]
  | orderOf id c forUpdate =>
    simp only [Query.eval]
    split <;> exact List.forall_mem_nil _
  | setAvailable c n | addAvailable c n atLeast | addBalance c owner n atLeast
  | setState id state =>
    exact update _ _ _ _

/-- What a client does outside the database: draw a random id, and note an event in the trace, which
is refused when its budget is used up. -/
inductive Action where
  | uuid4
  | trace

abbrev Action.Outcome : Action → Type
  | .uuid4 => Str
  | .trace => Bool

/-- `re.fullmatch(r'[a-f0-9]{32}', s)` -/
def orderIdOk (s : Str) : Bool := s.length = 32 && s.all fun c => isDigit c || (97 ≤ c && c ≤ 102)

abbrev interface : Interface where
  Query := Query
  Rows := Query.Rows
  Action := Action
  Outcome := Action.Outcome

/-- The database of the lab. -/
abbrev mariadb : Server interface where
  Db := Database
  Env := Unit
  Key := Key
  Val := Option Row
  Write := Write
  read := Database.read
  apply := Database.apply
  touched := fun w => [w.key]
  runs := fun q d ws r d' ks ws' => d' = d ∧ (r, ks, ws') = Query.eval (ws.foldl Database.apply d) q
  acts
    | .uuid4, _, id, _ => orderIdOk id
    | .trace, _, _, _ => True
  drifts := fun _ _ => False
  frame := fun h => Database.read_apply fun e => h (List.mem_singleton.2 e)
  runs_touched := by
    rintro q d ws r d' ks ws' ⟨_, run⟩ w m k touches
    obtain rfl := List.mem_singleton.1 touches
    have locks := q.eval_locks (ws.foldl Database.apply d)
    rw [← run] at locks
    exact locks w m
  runs_read := by
    rintro q d ws r d' ks ws' ⟨rfl, _⟩ k
    rfl

end DbLab.Txlab
