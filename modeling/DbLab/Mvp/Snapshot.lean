import DbLab.Py.Builtins
import DbLab.Py.Canonical

/-!
# Application snapshots (`snapshot.py`)

The value a snapshot is: `canonical`, `seal` and `validate`, and what `validate` makes sure of.
-/

namespace DbLab.Mvp
open DbLab.Py

/-- `FORMAT` -/
def snapshotFormat : String := "db-lab-app-snapshot-v1"

/-- `MAX_ROWS` -/
def maxRows : Nat := 5000

/-- `MAX_BYTES` -/
def maxBytes : Nat := 16 * 1024 * 1024

/-- The two application tables. -/
inductive TableName where
  | orders
  | outbox
deriving DecidableEq

namespace TableName

def name : TableName → String
  | orders => "orders"
  | outbox => "outbox"

/-- The tables in the order of `COLUMNS`. -/
def all : List TableName := [orders, outbox]

/-- `COLUMNS[table]` -/
def columns : TableName → List String
  | orders =>
    ["id", "idempotency_key", "item", "quantity", "unit_price", "total", "status", "version",
      "created_at"]
  | outbox => ["seq", "event_id", "payload", "created_at", "sent_at"]

/-- The column rows are told apart by. -/
def key : TableName → String
  | orders => "id"
  | outbox => "seq"

/-- The columns of a table are distinct. -/
lemma columns_nodup (t : TableName) : t.columns.Nodup := by
  cases t <;> decide

/-- Every table is listed. -/
lemma mem_all (t : TableName) : t ∈ all := by
  cases t <;> decide

/-- The names of the tables are distinct. -/
lemma names_nodup : (all.map fun t => str t.name).Nodup := by
  simp [all, name]

end TableName

variable [Interpreter]

/-- `canonical` -/
def canonical (v : Value) : Except Exn Bytes := do
  encode (← dumps ⟨true, true, true⟩ v)

/-- `body` in `seal` -/
def sealBody (tables : Value) : List (String × Value) :=
  [("format", .str (str snapshotFormat)), ("tables", tables)]

/-- `result` in `seal` -/
def sealResult (tables version : Value) (sha256 : Str) : Value :=
  .ofFields (sealBody tables ++ [("sha256", .str sha256), ("server_version", version)])

/-- `seal` -/
def sealed (tables version : Value) : Except Exn Value := do
  let raw ← canonical (.ofFields (sealBody tables))
  if maxBytes < raw.length then throw (.valueError "Snapshot exceeds the 16MiB study limit")
  else
    let result := sealResult tables version (Interpreter.sha256 raw)
    let whole ← canonical result
    if maxBytes < whole.length then
      throw (.valueError "Snapshot exceeds the 16MiB input/output limit")
    else return result

/-- `set(ms) == set(names)`, for distinct names. -/
def hasKeys (names : List String) (ms : Fields) : Bool :=
  ms.length = names.length && names.all fun n => (lookup (str n) ms).isSome

/-- `type(v) in (str, int, type(None))` -/
def isScalar : Value → Bool
  | .str _ | .int _ | .null => true
  | _ => false

/-- The checks of one row, with the keys of the rows before it. -/
def checkRow (t : TableName) (seen : List Value) (row : Value) : Except Exn (List Value) :=
  match row with
  | .dict ms =>
    if !hasKeys t.columns ms then throw (.valueError "Unexpected row columns")
    else if !ms.all fun e =>
      isScalar e.2 then throw (.valueError "Only scalar snapshot values are accepted")
    else do
      let key ← Fields.at ms (str t.key)
      if seen.any fun k => k.eq key then throw (.valueError "Duplicate snapshot primary key")
      else return key :: seen
  | _ => throw (.valueError "Unexpected row columns")

/-- The checks of one table. -/
def checkTable (tables : Fields) (t : TableName) : Except Exn Unit := do
  match ← Fields.at tables (str t.name) with
  | .list rows =>
    if maxRows < rows.length then throw (.valueError "Snapshot row limit exceeded")
    else
      let _ ← rows.foldlM (checkRow t) []
      return ()
  | _ => throw (.valueError "Snapshot row limit exceeded")

/-- The checks of `validate` before the checksum. -/
def checkSchema (format tables : Value) : Except Exn Fields :=
  match tables with
  | .dict ts =>
    if !format.eq (.str (str snapshotFormat)) || !hasKeys (TableName.all.map TableName.name) ts then
      throw (.valueError "Unsupported application snapshot schema")
    else return ts
  | _ => throw (.valueError "Unsupported application snapshot schema")

/-- `validate` -/
def validate (value : Value) : Except Exn Value :=
  match value with
  | .dict ms =>
    if !hasKeys ["format", "tables", "sha256", "server_version"] ms then
      throw (.valueError "Unexpected snapshot structure")
    else do
      let tables ← value.item "tables"
      let ts ← checkSchema (← value.item "format") tables
      TableName.all.forM (checkTable ts)
      let expected ← (← sealed tables (← value.item "server_version")).item "sha256"
      if (← value.item "sha256").eq expected then return value
      else throw (.valueError "Snapshot checksum mismatch; restore refused")
  | _ => throw (.valueError "Unexpected snapshot structure")

/-! ### What is accepted -/

/-- `v["k"]`, where there is one. -/
def member (k : String) : Value → Option Value
  | .dict ms => lookup (str k) ms
  | _ => none

def elements : Value → Option (List Value)
  | .list xs => some xs
  | _ => none

/-- The cells of a table, row by row and in the order of `COLUMNS`. -/
def grid (tables : Value) (t : TableName) : Option (List (List (Option Value))) :=
  ((member t.name tables).bind elements).map fun rows => rows.map fun row =>
    t.columns.map fun c => member c row

/-- The keys of an object are the names, each once. -/
lemma hasKeys_perm {names : List String} {ms : Fields} (distinct : names.Nodup)
    (h : hasKeys names ms = true) :
    (names.map str).Perm (ms.map Prod.fst) := by
  simp only [hasKeys, Bool.and_eq_true, decide_eq_true_eq, List.all_eq_true] at h
  obtain ⟨length, present⟩ := h
  have nodup : (names.map str).Nodup := distinct.map fun a b e => str_inj.1 e
  refine (List.subperm_of_subset nodup fun k m => ?_).perm_of_length_le (by simp [length])
  obtain ⟨n, mn, rfl⟩ := List.mem_map.1 m
  obtain ⟨v, found⟩ := Option.isSome_iff_exists.1 (present n mn)
  exact List.mem_map.2 ⟨_, lookup_mem found, rfl⟩

/-- The names in any order are the keys. -/
lemma hasKeys_ok {names : List String} {ms : Fields} (distinct : names.Nodup)
    (perm : (names.map str).Perm (ms.map Prod.fst)) : hasKeys names ms = true := by
  have nodup : (ms.map Prod.fst).Nodup := perm.nodup_iff.1 (distinct.map fun _ _ e => str_inj.1 e)
  have length := perm.length_eq
  rw [List.length_map, List.length_map] at length
  simp only [hasKeys, Bool.and_eq_true, decide_eq_true_eq, List.all_eq_true]
  refine ⟨length.symm, fun n m => ?_⟩
  obtain ⟨⟨k, v⟩, mv, rfl⟩ := List.mem_map.1 (perm.mem_iff.1 (List.mem_map_of_mem m))
  rw [lookup_of_mem nodup mv]
  rfl

/-- A row as the checks leave it. -/
structure GoodRow (t : TableName) (row : Value) (ms : Fields) : Prop where
  dict : row = .dict ms
  keys : (t.columns.map str).Perm (ms.map Prod.fst)
  scalar : ∀ e ∈ ms, isScalar e.2 = true

/-- A row that is accepted is good. -/
lemma checkRow_inv {t : TableName} {seen seen' : List Value} {row : Value}
    (h : checkRow t seen row = .ok seen') :
    ∃ ms, GoodRow t row ms := by
  unfold checkRow at h
  split at h
  · rename_i ms
    split at h
    · cases h
    · split at h
      · cases h
      · rename_i keys scalar
        rw [Bool.not_eq_true', Bool.not_eq_false] at keys scalar
        exact ⟨ms, rfl, hasKeys_perm t.columns_nodup keys, fun e m => List.all_eq_true.1 scalar e m⟩
  · cases h

/-- Every row of an accepted list is good. -/
lemma checkRows_inv {t : TableName} {rows seen seen' : List Value}
    (h : rows.foldlM (checkRow t) seen = .ok seen') :
    ∀ row ∈ rows, ∃ ms, GoodRow t row ms := by
  induction rows generalizing seen with
  | nil => exact nofun
  | cons row rows ih =>
    rw [List.foldlM_cons] at h
    obtain ⟨seen₁, first, h⟩ := bind_ok.1 h
    intro r m
    rcases List.mem_cons.1 m with rfl | m
    · exact checkRow_inv first
    · exact ih h r m

/-- The tables of an accepted snapshot. -/
structure GoodTables (tables : Value) (ts : Fields) : Prop where
  dict : tables = .dict ts
  keys : (TableName.all.map fun t => str t.name).Perm (ts.map Prod.fst)
  rows : ∀ t, ∃ rows, lookup (str t.name) ts = some (.list rows) ∧ ∀ row ∈ rows, ∃ ms,
    GoodRow t row ms

/-- A snapshot that was accepted. -/
structure Accepted (value tables : Value) (ts : Fields) (raw : Bytes) : Prop where
  holds : member "tables" value = some tables
  good : GoodTables tables ts
  written : canonical (.ofFields (sealBody tables)) = .ok raw
  sha256 : member "sha256" value = some (.str (Interpreter.sha256 raw))

/-- An item that is read is a member. -/
lemma item_inv {v w : Value} {k : String} (h : v.item k = .ok w) : member k v = some w := by
  unfold Value.item at h
  split at h
  · split at h
    · cases h
      assumption
    · cases h
  · cases h

/-- A field that is read is a member. -/
lemma at_inv {ms : Fields} {k : Str} {w : Value} (h : Fields.at ms k = .ok w) :
    lookup k ms = some w := by
  unfold Fields.at at h
  split at h
  · cases h
    assumption
  · cases h

/-- What an accepted table is. -/
lemma checkTable_inv {ts : Fields} {t : TableName} {u : Unit} (h : checkTable ts t = .ok u) :
    ∃ rows, lookup (str t.name) ts = some (.list rows) ∧ rows.length ≤ maxRows ∧ ∀ row ∈ rows, ∃ ms,
      GoodRow t row ms := by
  obtain ⟨v, at_, h⟩ := bind_ok.1 h
  split at h
  · rename_i rows
    split at h
    · cases h
    · obtain ⟨seen, loop, _⟩ := bind_ok.1 h
      exact ⟨rows, at_inv at_, Nat.not_lt.1 ‹_›, checkRows_inv loop⟩
  · cases h

/-- What accepted tables are. -/
lemma checkSchema_inv {format tables : Value} {ts : Fields}
    (h : checkSchema format tables = .ok ts) :
    tables = .dict ts ∧ (TableName.all.map fun t => str t.name).Perm (ts.map Prod.fst) := by
  unfold checkSchema at h
  split at h
  · rename_i ts'
    split at h
    · cases h
    · rename_i wrong
      cases h
      simp only [Bool.or_eq_true, Bool.not_eq_true', not_or, Bool.not_eq_false] at wrong
      have keys := hasKeys_perm (by decide) wrong.2
      rw [List.map_map] at keys
      exact ⟨rfl, keys⟩
  · cases h

/-- What a sealed value is. -/
lemma sealed_inv {tables version result : Value} (h : sealed tables version = .ok result) :
    ∃ raw, canonical (.ofFields (sealBody tables)) = .ok raw ∧
      result = sealResult tables version (Interpreter.sha256 raw) := by
  obtain ⟨raw, written, h⟩ := bind_ok.1 h
  split at h
  · cases h
  · obtain ⟨whole, _, h⟩ := bind_ok.1 h
    split at h
    · cases h
    · cases h
      exact ⟨raw, written, rfl⟩

/-- The digest of a sealed value. -/
lemma sealResult_sha256 (tables version : Value) (sha256 : Str) :
    member "sha256" (sealResult tables version sha256) = some (.str sha256) := by
  simp [sealResult, sealBody, Value.ofFields, member, lookup]

/-- What a valid snapshot is. -/
lemma validate_inv {value v : Value} (h : validate value = .ok v) :
    v = value ∧ ∃ tables ts raw, Accepted value tables ts raw := by
  unfold validate at h
  split at h
  · rename_i ms
    split at h
    · cases h
    · obtain ⟨tables, hTables, h⟩ := bind_ok.1 h
      obtain ⟨format, _, h⟩ := bind_ok.1 h
      obtain ⟨ts, schema, h⟩ := bind_ok.1 h
      obtain ⟨_, rows, h⟩ := bind_ok.1 h
      obtain ⟨version, _, h⟩ := bind_ok.1 h
      obtain ⟨result, hSeal, h⟩ := bind_ok.1 h
      obtain ⟨expected, hExpected, h⟩ := bind_ok.1 h
      obtain ⟨sha256, hSha, h⟩ := bind_ok.1 h
      split at h
      · rename_i same
        cases h
        obtain ⟨dict, keys⟩ := checkSchema_inv schema
        obtain ⟨raw, written, rfl⟩ := sealed_inv hSeal
        cases (item_inv hExpected).symm.trans (sealResult_sha256 ..)
        refine ⟨rfl, tables, ts, raw, item_inv hTables, ⟨dict, keys, fun t => ?_⟩, written, ?_⟩
        · obtain ⟨_, run⟩ := forM_mem_ok rows t t.mem_all
          obtain ⟨rs, found, _, good⟩ := checkTable_inv run
          exact ⟨rs, found, good⟩
        · rw [item_inv hSha, eq_str_iff.1 same]
      · cases h
  · cases h

/-! ### The text of the tables determines their cells -/

/-- A good row is plain. -/
lemma GoodRow.plain {t : TableName} {row : Value} {ms : Fields} (h : GoodRow t row ms) :
    Plain 1 row := by
  rw [h.dict]
  refine .dict ?_ fun e m => ?_
  · rw [← h.keys.nodup_iff]
    exact t.columns_nodup.map fun a b e => str_inj.1 e
  · have scalar := h.scalar e m
    revert scalar
    cases e.2 with
    | str s => exact fun _ => .str
    | int n => exact fun _ => .int
    | null => exact fun _ => .null
    | bool b | float x | list xs | dict ms => exact nofun

/-- The tables have distinct names. -/
lemma GoodTables.keys_nodup {tables : Value} {ts : Fields} (h : GoodTables tables ts) :
    (ts.map Prod.fst).Nodup :=
  h.keys.nodup_iff.1 TableName.names_nodup

/-- Good tables are plain. -/
lemma GoodTables.plain {tables : Value} {ts : Fields} (h : GoodTables tables ts) :
    Plain 3 tables := by
  rw [h.dict]
  refine .dict h.keys_nodup fun e m => ?_
  obtain ⟨t, _, name⟩ := List.mem_map.1 (h.keys.mem_iff.2 (List.mem_map_of_mem m))
  obtain ⟨rows, found, good⟩ := h.rows t
  have value : lookup (str t.name) ts = some e.2 := lookup_of_mem h.keys_nodup (name ▸ m)
  rw [Option.some.inj (value.symm.trans found)]
  refine .list fun row mr => ?_
  obtain ⟨ms, good⟩ := good row mr
  exact good.plain

/-- The body that is hashed is plain. -/
lemma GoodTables.body_plain {tables : Value} {ts : Fields} (h : GoodTables tables ts) :
    Plain 4 (.ofFields (sealBody tables)) := by
  refine .dict (by simp [sealBody]) fun e m => ?_
  simp only [sealBody, List.map_cons, List.map_nil, List.mem_cons, List.not_mem_nil, or_false] at m
  rcases m with rfl | rfl
  · exact .str
  · exact h.plain

/-- A scalar has no order of keys. -/
lemma reorder_scalar {o : Dump} {v : Value} (h : isScalar v = true) : v.reorder o = v := by
  cases v with
  | str s | int n | null => rfl
  | bool b | float x | list xs | dict ms => cases h

/-- Reordering keeps what a key holds. -/
lemma member_reorder {o : Dump} {d : Nat} {v : Value} (plain : Plain d v) (k : String) :
    member k (v.reorder o) = (member k v).map (Value.reorder o) := by
  cases plain with
  | null | bool | int | str | list elems => rfl
  | dict keys members => exact lookup_reorder o keys (str k)

/-- Reordering changes nothing in a good row. -/
lemma GoodRow.reorder {t : TableName} {row : Value} {ms : Fields} (h : GoodRow t row ms) (o : Dump)
    (k : String) :
    member k (row.reorder o) = member k row := by
  rw [member_reorder h.plain, h.dict, member]
  cases found : lookup (str k) ms with
  | none => rfl
  | some v => exact congrArg some (reorder_scalar (h.scalar _ (lookup_mem found)))

/-- Reordering an accepted snapshot's tables leaves their cells in place. -/
lemma GoodTables.grid_reorder {tables : Value} {ts : Fields} (h : GoodTables tables ts) (o : Dump)
    (t : TableName) :
    grid (tables.reorder o) t = grid tables t := by
  obtain ⟨rows, found, good⟩ := h.rows t
  have here : member t.name tables = some (.list rows) := by
    rw [h.dict]
    exact found
  rw [grid, grid, member_reorder h.plain, here]
  simp only [Option.map_some, Value.reorder, reorderList_eq, Option.bind_some, elements,
    List.map_map]
  refine congrArg some (List.map_congr_left fun row m => List.map_congr_left fun c _ => ?_)
  obtain ⟨ms, good⟩ := good row m
  exact good.reorder o c

/-- The canonical bytes of the tables determine every cell. -/
theorem GoodTables.injective {tables tables' : Value} {ts ts' : Fields} {raw : Bytes}
    (h : GoodTables tables ts)
    (h' : GoodTables tables' ts') (written : canonical (.ofFields (sealBody tables)) = .ok raw)
    (written' : canonical (.ofFields (sealBody tables')) = .ok raw) (t : TableName) :
    grid tables t = grid tables' t := by
  obtain ⟨text, dumped, encoded⟩ := bind_ok.1 written
  obtain ⟨text', dumped', encoded'⟩ := bind_ok.1 written'
  cases encode_injective encoded encoded'
  have depth : 4 ≤ Interpreter.recursionLimit :=
    Nat.le_trans (by decide) Interpreter.recursionLimit_ge
  have same := h.body_plain.unique h'.body_plain depth dumped dumped' (encode_inv encoded)
  have inside := congrArg (member "tables") same
  rw [member_reorder h.body_plain, member_reorder h'.body_plain] at inside
  have tables_ : ∀ v : Value, member "tables" (.ofFields (sealBody v)) = some v := by
    intro v
    simp [sealBody, Value.ofFields, member, lookup]
  rw [tables_, tables_] at inside
  rw [← h.grid_reorder ⟨true, true, true⟩, ← h'.grid_reorder ⟨true, true, true⟩,
    Option.some.inj inside]

/-- The bodies of two snapshots do not collide under SHA-256. -/
def NoCollision (v w : Value) : Prop :=
  ∀ tables tables' raw raw', member "tables" v = some tables → member "tables" w = some tables' →
    canonical (.ofFields (sealBody tables)) = .ok raw →
      canonical (.ofFields (sealBody tables')) = .ok raw' →
    Interpreter.sha256 raw = Interpreter.sha256 raw' → raw = raw'

/-- The cells of a snapshot's tables. -/
def cells (v : Value) (t : TableName) : Option (List (List (Option Value))) :=
  (member "tables" v).bind fun ts => grid ts t

/-- Two accepted snapshots with one checksum have the same cells. -/
theorem validate_cells {v w v' w' : Value} (hv : validate v = .ok v') (hw : validate w = .ok w')
    (sha256 : member "sha256" v = member "sha256" w) (safe : NoCollision v w) (t : TableName) :
    cells v t = cells w t := by
  obtain ⟨_, tables, ts, raw, av⟩ := validate_inv hv
  obtain ⟨_, tables', ts', raw', aw⟩ := validate_inv hw
  have digest : Interpreter.sha256 raw = Interpreter.sha256 raw' :=
    Value.str.inj (Option.some.inj (av.sha256.symm.trans (sha256.trans aw.sha256)))
  obtain rfl := safe _ _ _ _ av.holds aw.holds av.written aw.written digest
  rw [cells, cells, av.holds, aw.holds]
  exact av.good.injective aw.good av.written aw.written t

end DbLab.Mvp
