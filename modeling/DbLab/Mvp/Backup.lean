import DbLab.Mvp.Database

/-!
# Export and restore (`snapshot.py`)

`export_snapshot`, which reads both tables in one consistent view, and `restore_snapshot`, which
fills an empty disposable schema, exports it again and then runs a canary order through the
repository.
-/

namespace DbLab.Mvp
open DbLab.Py DbLab.Store

variable [Interpreter]

abbrev Tool (α : Type) := Client snapshotInterface Raised α

namespace Tool

abbrev execute (q : Statement) : Tool q.Rows := Client.execute (I := snapshotInterface) Raised.sql q

def require (c : Prop) [Decidable c] (message : String) : Tool Unit :=
  if c then pure () else throw (.python (.valueError message))

/-- A call of the repository. -/
def repository {α : Type} (p : Repo α) : Tool α := Client.translate repositoryHom p

end Tool

open Tool SQL

/-- A row with its dates as text. -/
def exportRow (r : List (String × Fetched)) : Value :=
  .ofFields (r.map fun e => (e.1, e.2.exported))

/-- One table of `export_snapshot`. -/
def exportTable (t : TableName) : Tool (String × Value) := do
  let rows ← execute (.select t (maxRows + 1))
  require (rows.length ≤ maxRows) "Snapshot row limit exceeded"
  pure (t.name, .list (rows.map exportRow))

/-- `{r['name']: r['engine'] for r in rows}` -/
def engineDict (rows : List (String × String)) : Value :=
  dictOf (rows.map fun r => (str r.1, .str (str r.2)))

/-- `export_snapshot` up to the sealing. -/
def readTables : Tool (Value × Value) := do
  execute .timeZone
  execute .repeatableRead
  execute .consistentSnapshot
  let version ← execute .version
  let engines ← execute .engines
  require ((engineDict engines).eq
    (.ofFields [("orders", .str (str "InnoDB")), ("outbox", .str (str "InnoDB"))]))
    "Expected exactly orders/outbox InnoDB tables; no partial backup implied"
  let budget ← execute .outboxBudget
  require (¬(maxRows < budget.1 ∨ maxBytes / 4 < budget.2))
    "Snapshot outbox row/text budget exceeded"
  let tables ← TableName.all.mapM exportTable
  pure (.ofFields tables, .str version)

/-- `validate(seal(tables, version))` -/
def sealChecked (tables version : Value) : Except Exn Value := do
  validate (← sealed tables version)

/-- `export_snapshot` -/
def exportSnapshot : Tool Value := do
  Client.connect .sql
  try
    let (tables, version) ← readTables
    liftPython (sealChecked tables version)
  finally
    try
      Client.rollback .sql
    finally
      Client.close

/-- The fields of `Settings` that `disposable` looks at. -/
structure Settings where
  sqlHost : Str
  sqlDatabase : Str
  sqlUser : Str

/-- `re.fullmatch(r'drill-[a-f0-9]{12}', s)` -/
def disposableId (s : Str) : Bool :=
  startsWith "drill-" s && (s.drop 6).length = 12 && (s.drop 6).all fun c =>
    isDigit c || (97 ≤ c && c ≤ 102)

/-- `disposable`, given `os.environ.get('MVP_DISPOSABLE', '')`. -/
def disposable (s : Settings) (id : Str) : Except Exn Unit :=
  if !disposableId id || s.sqlHost ≠ str "127.0.0.1" || s.sqlDatabase ≠ str "mvp" ||
    s.sqlUser ≠ str "mvp" then
    throw (.valueError "Restore is restricted to an isolated disposable loopback database")
  else return ()

/-- `SQL.initialize` -/
def initialize_ : Tool Unit :=
  transaction do
    execute (.createTable .orders)
    execute (.createTable .outbox)

/-- `snapshot['tables'][table]`, as a list to loop over. -/
def snapshotRows (snapshot : Value) (t : TableName) : Except Exn (List Value) := do
  match ← (← snapshot.item "tables").item t.name with
  | .list rows => return rows
  | _ => throw .typeError

/-- `cur.execute(statement, tuple(row[k] for k in columns))` -/
def insertRow (t : TableName) (row : Value) : Tool Unit := do
  let values ← liftPython (t.columns.mapM fun k => row.item k)
  execute (.insert t values)

/-- The rows of one table. -/
def insertTable (snapshot : Value) (t : TableName) : Tool Unit := do
  let rows ← liftPython (snapshotRows snapshot t)
  rows.forM (insertRow t)

/-- `restore_snapshot` from its first statement to the export of what it restored. -/
def restoreRows (snapshot : Value) : Tool Value := do
  transaction do
    let names ← execute .tableNames
    require
      (names = [])
      "Restore requires an EMPTY disposable schema; no overwrite/retry on partial restore"
  initialize_
  transaction do
    execute .timeZone
    TableName.all.forM (insertTable snapshot)
  exportSnapshot

/-- The canary of `restore_snapshot`. -/
def canary (id : Str) : Repo Bool := do
  let key := id ++ str "-restore-canary"
  let payload : Draft := ⟨key, 2, 13⟩
  let (order, created) ← create payload key
  let (repeated, duplicateCreated) ← create payload key
  let changed ← update order.id
    (.ofFields [("status", .str (str "paid")), ("expected_version", .int order.version)])
  if created ∧ ¬duplicateCreated ∧ repeated = order ∧ changed.status = str "paid" ∧
      changed.version = order.version + 1 then do
    let found ← get order.id
    pure (found = some changed)
  else pure false

/-- The number of rows of each table. -/
def rowCounts (restored : Value) : Except Exn Value := do
  match ← restored.item "tables" with
  | .dict ts =>
    let counts ← ts.mapM fun e => match e.2 with
      | .list rows => return (e.1, Value.int rows.length)
      | _ => throw .typeError
    return .dict counts
  | _ => throw .attributeError

/-- What `restore_snapshot` returns. -/
def restoreReport (snapshot restored : Value) (matched canaryOk : Bool) : Except Exn Value := do
  return .ofFields [("matched", .bool matched), ("canary_passed", .bool canaryOk),
    ("canary_scope", .str (str
      "after row audit, disposable-only create/idempotency/update/read; no worker/Kafka or ES restored")),
    ("source_sha256", ← snapshot.item "sha256"), ("restored_sha256", ← restored.item "sha256"),
    ("source_version", ← snapshot.item "server_version"),
    ("restored_version", ← restored.item "server_version"), ("rows", ← rowCounts restored),
    ("scope",
      .str
      (str "application rows only; not users/grants/binlogs/DDL migration or physical downgrade"))]

/-- `restored['sha256'] == snapshot['sha256']` -/
def sameSha256 (snapshot restored : Value) : Except Exn Bool := do
  return (← restored.item "sha256").eq (← snapshot.item "sha256")

/-- `restore_snapshot` after the export of what it restored. -/
def auditRestored (id : Str) (snapshot restored : Value) : Tool Value := do
  let matched ← liftPython (sameSha256 snapshot restored)
  let canaryOk ← if matched then repository (canary id) else pure false
  liftPython (restoreReport snapshot restored matched canaryOk)

/-- `restore_snapshot` -/
def restoreSnapshot (s : Settings) (id : Str) (snapshot : Value) : Tool Value := do
  liftPython (disposable s id)
  let _ ← liftPython (validate snapshot)
  let restored ← restoreRows snapshot
  auditRestored id snapshot restored

end DbLab.Mvp
