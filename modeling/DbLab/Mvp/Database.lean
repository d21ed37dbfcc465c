import DbLab.Mvp.Columns
import DbLab.Store.Drive

/-!
# The application database

The two tables with their keys, and what the statements of the snapshot code and of the repository
do on a server that no one else uses. Rows are kept by primary key, `idempotency_key` and `event_id`
are unique, and a statement sees the changes of its own transaction.
-/

namespace DbLab.Mvp
open DbLab.Py DbLab.Store Function

/-- The rows of the two tables. -/
abbrev Content := (t : TableName) → List (Row t)

/-- `SUM(OCTET_LENGTH(payload))` -/
def payloadBytes (rs : List (Row .outbox)) : Nat :=
  (rs.map fun r => match r.cells.getD 2 .null with
    | .text s => octetLength s
    | _ => 0).sum

/-- A row of cells that were changed. -/
def Row.check (t : TableName) (xs : List Cell) : Except Failure (Row t) :=
  if h : List.Forall₂ (fun c x => Column.admits c x = true) t.types xs then .ok ⟨xs, h⟩
    else .error (.server 1264)

/-- The schema `mvp`: its tables with their engines, their rows, and the next number of
`outbox.seq`. -/
structure Database where
  tables : List (String × String)
  rows : Content
  nextSeq : Int

namespace Database

/-- A schema without tables. -/
def empty : Database := ⟨[], fun _ => [], 1⟩

/-- The schema that `initialize` leaves, with these rows in it. -/
def of (c : Content) (nextSeq : Int) : Database :=
  ⟨[("orders", "InnoDB"), ("outbox", "InnoDB")], c, nextSeq⟩

variable (d : Database)

def put (t : TableName) (rs : List (Row t)) : Database := { d with rows := update d.rows t rs }

/-- The next number, where an `AUTO_INCREMENT` column is given 0. Only `outbox` has a number in
front. -/
def number : List Cell → List Cell
  | .int 0 :: xs => .int d.nextSeq :: xs
  | xs => xs

/-- The counter moves past a number that is used. -/
def advance : List Cell → Database
  | .int n :: _ => { d with nextSeq := max d.nextSeq (n + 1) }
  | _ => d

/-- `CREATE TABLE IF NOT EXISTS` -/
def createTable (t : TableName) : Database :=
  if d.tables.any fun e => e.1 = t.name then d
  else { d.put t [] with
    tables := d.tables ++ [(t.name, "InnoDB")]
    nextSeq := if t = .outbox then 1 else d.nextSeq }

/-- The number of events, and the bytes of their payloads. -/
def budget : Nat × Nat := ((d.rows .outbox).length, payloadBytes (d.rows .outbox))

/-- A database with the two tables, by its rows. -/
lemma of_rows {d : Database} (h : d.tables = [("orders", "InnoDB"), ("outbox", "InnoDB")]) :
    d = .of d.rows d.nextSeq := by
  rw [of, ← h]

/-- The database when its tables have been created. -/
lemma created : (empty.createTable .orders).createTable .outbox = .of (fun _ => []) 1 := by
  have rows : ((empty.createTable .orders).createTable .outbox).rows = fun _ => [] := by
    funext t
    cases t <;> rfl
  exact (of_rows rfl).trans (congrArg (fun c => of c 1) rows)

/-- A row with a number of its own keeps it. -/
lemma number_keeps {d : Database} {xs : List Cell} (h : xs.head? ≠ some (.int 0)) :
    d.number xs = xs := by
  unfold number
  split
  · exact absurd rfl h
  · rfl

/-- The next number does not touch the rows. -/
lemma advance_rows (xs : List Cell) :
    (d.advance xs).rows = d.rows ∧ (d.advance xs).tables = d.tables := by
  unfold advance
  split <;> exact ⟨rfl, rfl⟩

end Database

variable [Interpreter] [MariaDb]

/-- What an index compares of a cell. `ascii_bin` compares code points, other text columns the
weights of the collation; trailing blanks do not count. -/
def Column.index : Column → Cell → List Int
  | .ascii _, .text s => (rstrip s).map Int.ofNat
  | _, .text s => MariaDb.weight s
  | _, .int n => [n]
  | _, _ => []

namespace Row
variable {t : TableName}

def index (i : Nat) (r : Row t) : List Int :=
  match t.types[i]?, r.cells[i]? with
  | some c, some x => c.index x
  | _, _ => []

/-- The first column is the primary key. -/
def primary (r : Row t) : List Int := r.index 0

/-- The second column is unique. -/
def second (r : Row t) : List Int := r.index 1

/-- A row as the driver returns it. -/
def fetch (r : Row t) : List (String × Fetched) := t.columns.zip (r.cells.map Cell.fetched)

end Row

/-- What the tables of the server can hold, in the order of their primary keys. -/
structure Content.Held (c : Content) : Prop where
  sorted : ∀ t, (c t).Pairwise fun r r' => r.primary < r'.primary
  unique : ∀ t, (c t).Pairwise fun r r' => r.second ≠ r'.second

/-- The cells that a list of columns stores for a list of values. -/
def storeAll : (cs : List Column) → List Value →
    Except Failure { xs : List Cell // List.Forall₂ (fun c x => c.admits x = true) cs xs }
  | [], [] => .ok ⟨[], .nil⟩
  | c :: cs, v :: vs => do
    let x ← c.store v
    let xs ← storeAll cs vs
    return ⟨x.1 :: xs.1, .cons x.2 xs.2⟩
  | _, _ => .error (.server 1136)

namespace Database
variable (d : Database)

/-- A row at its place in the table, unless one of its keys is taken. -/
def insertRow {t : TableName} (r : Row t) : Except Failure Database :=
  if (d.rows t).any fun r' => r'.primary = r.primary || r'.second = r.second then .error .duplicate
  else .ok (d.put t ((d.rows t).takeWhile (fun r' => r'.primary < r.primary) ++
    r :: (d.rows t).dropWhile (fun r' => r'.primary < r.primary)))

/-- `INSERT INTO table (columns) VALUES (values)` -/
def insert (t : TableName) (vs : List Value) : Except Failure Database := do
  let xs ← storeAll t.types vs
  let r ← Row.check t (d.number xs.1)
  return (← d.insertRow r).advance r.cells

end Database

/-! ### Rows of the repository -/

def Cell.toStr : Cell → Str
  | .text s => s
  | _ => []

def Cell.toInt : Cell → Int
  | .int n => n
  | _ => 0

/-- A row of `orders`, field by field. -/
def orderRow (r : Row .orders) : OrderRow :=
  let x (i : Nat) : Cell := r.cells.getD i .null
  { id := (x 0).toStr, idempotencyKey := (x 1).toStr, item := (x 2).toStr, quantity := (x 3).toInt,
    unitPrice := (x 4).toInt, total := (x 5).toInt, status := (x 6).toStr, version := (x 7).toInt,
    createdAt := (x 8).toStr }

def orderValues (o : Order) (key : Str) : List Value :=
  [.str o.id, .str key, .str o.item, .int o.quantity, .int o.unitPrice, .int o.total, .str o.status,
    .int o.version, .str o.createdAt]

/-- `UPDATE`: the rows with some cells changed. -/
def Database.update (d : Database) (t : TableName) (hit : Row t → Bool)
    (f : List Cell → List Cell) :
    Except Failure Database := do
  return d.put t (← (d.rows t).mapM fun r => if hit r then Row.check t (f r.cells) else return r)

/-- What a statement of the repository replies and leaves. `now` is the server's time. -/
def Query.run (d : Database) (now : DateTime) : (q : Query) → Except Failure (q.Rows × Database)
  | .byKey key =>
    return (((d.rows .orders).find? fun r => r.second = (Column.ascii 80).index
      (.text key)).map orderRow, d)
  | .byId id _ =>
    return (((d.rows .orders).find? fun r => r.primary = MariaDb.weight id).map fun r =>
      (orderRow r).toOrder, d)
  | .insertOrder o key => do return ((), ← d.insert .orders (orderValues o key))
  | .insertEvent eventId payload => do
    return ((), ← d.insert .outbox [.null, .str eventId, .str payload, .str now.strftime, .null])
  | .updateOrder status version id => do
    return ((), ← d.update .orders (fun r => r.primary = MariaDb.weight id) fun xs =>
      (xs.set 6 (.text status)).set 7 (.int version))
  | .pending =>
    return (((d.rows .outbox).find? fun r => r.cells[4]? = some .null).map fun r =>
      ((r.cells.getD 0 .null).toInt, (r.cells.getD 2 .null).toStr), d)
  | .markSent seq => do
    return ((), ← d.update .outbox (fun r => r.primary = [seq] &&
      r.cells[4]? = some .null) fun xs =>
      xs.set 4 (.stamp (.instant now)))

/-! ### The server -/

/-- The statements of `snapshot.py` and of `initialize`, beside those of the repository. -/
inductive Statement where
  | timeZone
  | repeatableRead
  | consistentSnapshot
  | version
  | engines
  | tableNames
  | outboxBudget
  | select (t : TableName) (limit : Nat)
  | createTable (t : TableName)
  | insert (t : TableName) (values : List Value)
  | repository (q : Query)

abbrev Statement.Rows : Statement → Type
  | .version => Str
  | .engines => List (String × String)
  | .tableNames => List String
  | .outboxBudget => Nat × Nat
  | .select _ _ => List (List (String × Fetched))
  | .repository q => q.Rows
  | .timeZone | .repeatableRead | .consistentSnapshot | .createTable _ | .insert _ _ => Unit

abbrev snapshotInterface : Interface where
  Query := Statement
  Rows := Statement.Rows
  Action := Action
  Outcome _ := Str

/-- The repository's statements among those of the snapshot code. -/
def repositoryHom : Interface.Hom interface snapshotInterface where
  query := .repository
  rows _ := id
  action := id
  outcome _ := id

/-- What random ids and clocks will show. -/
structure Clock where
  uuid : Nat → Str
  isoformat : Nat → Str
  timestamp : Nat → DateTime

/-- A server with one client: the committed data, what the client's transaction sees, and how many
readings of the clock were taken. -/
structure Server where
  db : Database
  session : Option Database
  ticks : Nat

/-- What a statement replies and leaves in its transaction. -/
def Statement.run (d : Database) (now : DateTime) :
    (q : Statement) → Except Failure (q.Rows × Database)
  | .timeZone | .repeatableRead | .consistentSnapshot => return ((), d)
  | .version => return (MariaDb.version, d)
  | .engines => return (d.tables, d)
  | .tableNames => return (d.tables.map Prod.fst, d)
  | .outboxBudget => return (d.budget, d)
  | .select t limit => return (((d.rows t).take limit).map Row.fetch, d)
  | .createTable t => return ((), d.createTable t)
  | .insert t vs => do return ((), ← d.insert t vs)
  | .repository q => q.run d now

/-- Creating a table commits. -/
def Statement.commits : Statement → Bool
  | .createTable _ => true
  | _ => false

/-- A server that no one else uses and that does not fail. -/
def serve (c : Clock) : Handler snapshotInterface Server
  | .connect, s => (.ok (), { s with session := some s.db })
  | .sql q, s =>
    match s.session with
    | none => (.error .lost, s)
    | some d => match q.run d (c.timestamp s.ticks) with
      | .ok (a, d') =>
        (.ok a, { db := if q.commits then d' else s.db, session := some d', ticks := s.ticks + 1 })
      | .error e => (.error e, s)
  | .commit, s => (.ok (), { s with db := s.session.getD s.db })
  | .rollback, s =>
    -- The counter keeps the numbers that were drawn.
    let db := { s.db with nextSeq := (s.session.getD s.db).nextSeq }
    (.ok (), { s with db := db, session := some db })
  | .close, s => ((), { s with session := none })
  | .act .uuid4, s => (c.uuid s.ticks, { s with ticks := s.ticks + 1 })
  | .act .now, s => (c.isoformat s.ticks, { s with ticks := s.ticks + 1 })

end DbLab.Mvp
