import DbLab.Mvp.Carried

/-!
# Restored snapshots

What a server without other clients and without failures makes of `export_snapshot` and
`restore_snapshot`: the export of a content is accepted, and restored elsewhere it gives the content
back. An edited snapshot with the old checksum is refused, and what is refused meets no database.
-/

namespace DbLab.Mvp
open DbLab.Py DbLab.Store Tool SQL

/-! ### Filled tables -/

/-- A table with one more row. -/
def Database.append {t : TableName} (d : Database) (r : Row t) : Database :=
  (d.put t (d.rows t ++ [r])).advance r.cells

/-- The rows of a table one after the other. -/
def Database.fill {t : TableName} (d : Database) (rs : List (Row t)) : Database :=
  rs.foldl Database.append d

/-- An insert appends to its table alone. -/
lemma append_rows {t : TableName} (d : Database) (r : Row t) :
    (d.append r).rows = Function.update d.rows t (d.rows t ++ [r]) ∧
      (d.append r).tables = d.tables :=
  Database.advance_rows _ _

/-- Any number of inserts append to their table alone. -/
lemma fill_rows {t : TableName} (d : Database) (rs : List (Row t)) :
    (d.fill rs).rows = Function.update d.rows t (d.rows t ++ rs) ∧
      (d.fill rs).tables = d.tables := by
  induction rs generalizing d with
  | nil =>
    rw [List.append_nil, Function.update_eq_self]
    exact ⟨rfl, rfl⟩
  | cons r rs ih =>
    obtain ⟨rows, tables⟩ := append_rows d r
    obtain ⟨rows', tables'⟩ := ih (d.append r)
    refine ⟨?_, tables'.trans tables⟩
    change (Database.fill (d.append r) rs).rows = _
    rw [rows', rows, Function.update_idem, Function.update_self, List.append_assoc,
      List.singleton_append]

/-- No row of `orders` begins with a number. -/
lemma orders_numbered (r : Row .orders) : r.cells.head? ≠ some (.int 0) := by
  obtain ⟨cells, typed⟩ := r
  cases typed with
  | cons admits _ =>
    rintro ⟨⟩
    cases admits

variable [Interpreter]

/-! ### Sealing a content -/

/-- The limits of a snapshot of a server with this version. -/
structure Content.Limited (c : Content) (version : Str) : Prop where
  rows : ∀ t, (c t).length ≤ maxRows
  payloads : payloadBytes (c .outbox) ≤ maxBytes / 4
  body : ∀ raw, canonical (.ofFields (sealBody (tablesValue c))) = .ok raw → raw.length ≤ maxBytes
  whole : ∀ raw whole, canonical (.ofFields (sealBody (tablesValue c))) = .ok raw →
    canonical (sealResult (tablesValue c) (.str version) (Interpreter.sha256 raw)) = .ok whole →
      whole.length ≤ maxBytes

/-- Small content is sealed. -/
lemma sealed_ok {tables version : Value} {raw whole : Bytes}
    (written : canonical (.ofFields (sealBody tables)) = .ok raw)
    (small : raw.length ≤ maxBytes)
    (all : canonical (sealResult tables version (Interpreter.sha256 raw)) = .ok whole)
    (small' : whole.length ≤ maxBytes) :
    sealed tables version = .ok (sealResult tables version (Interpreter.sha256 raw)) := by
  rw [sealed, written, ok_bind, if_neg (Nat.not_lt.2 small)]
  dsimp only
  rw [all, ok_bind, if_neg (Nat.not_lt.2 small')]
  rfl

/-- A snapshot that passes each check is accepted. -/
lemma validate_ok {ms ts : Fields} {version : Value} {sha256 : Str}
    (keys : hasKeys ["format", "tables", "sha256", "server_version"] ms = true)
    (format : lookup (str "format") ms = some (.str (str snapshotFormat)))
    (holds : lookup (str "tables") ms = some (.dict ts))
    (digest : lookup (str "sha256") ms = some (.str sha256))
    (ver : lookup (str "server_version") ms = some version)
    (names : hasKeys (TableName.all.map TableName.name) ts = true)
    (rows : ∀ t, checkTable ts t = .ok ())
    (run : sealed (.dict ts) version = .ok (sealResult (.dict ts) version sha256)) :
    validate (.dict ms) = .ok (.dict ms) := by
  have schema : checkSchema (.str (str snapshotFormat)) (.dict ts) = .ok ts := by
    have same : (Value.str (str snapshotFormat)).eq (.str (str snapshotFormat)) = true :=
      eq_str_iff.2 rfl
    rw [checkSchema, same, names]
    rfl
  have tables : TableName.all.forM (checkTable ts) = .ok () := forM_ok fun t _ => rows t
  have expected : (sealResult (.dict ts) version sha256).item "sha256" = .ok (.str sha256) := by
    simp [sealResult, sealBody, Value.ofFields, Value.item, lookup]
  have same : (Value.str sha256).eq (.str sha256) = true := eq_str_iff.2 rfl
  have item : ∀ {k : String} {v : Value}, lookup (str k) ms = some v →
      (Value.dict ms).item k = .ok v := by
    intro k v found
    rw [Value.item, found]
  rw [validate, keys]
  simp only [Bool.not_true, Bool.false_eq_true, if_false, item format, item holds, item digest,
    item ver, ok_bind, schema, tables, run, expected, same, if_true]
  rfl

/-- `json.loads(canonical(v).decode("utf-8"))` -/
def roundTrip (v : Value) : Except Exn Value := do
  loads Hooks.default (← decode false (← canonical v))

/-- The value of a sealed content. -/
def sealedValue (c : Content) (version : Str) (raw : Bytes) : Value :=
  sealResult (tablesValue c) (.str version) (Interpreter.sha256 raw)

/-- A digest encodes. -/
lemma hex_scalar (b : Bytes) : ∀ c ∈ Interpreter.sha256 b, Scalar c := by
  intro c m
  rcases Interpreter.sha256_hex b c m with digit | lower
  · exact digit_scalar digit
  · exact ascii_scalar (by omega)

/-- The body under a reordering of the tables. -/
lemma sealBody_reorder {d : Nat} {tables : Value} (h : Legible d tables) (o : Dump) :
    (Value.ofFields (sealBody (tables.reorder o))).reorder o =
      (Value.ofFields (sealBody tables)).reorder o := by
  simp only [sealBody, Value.ofFields, List.map_cons, List.map_nil, Value.reorder, reorderDict_eq,
    h.reorder_reorder]

/-- The sealed value under a reordering of the tables. -/
lemma sealResult_reorder {d : Nat} {tables : Value} {version sha256 : Str}
    (h : Legible d tables) (o : Dump) :
    (sealResult (tables.reorder o) (.str version) sha256).reorder o =
      (sealResult tables (.str version) sha256).reorder o := by
  simp only [sealResult, sealBody, Value.ofFields, List.cons_append, List.nil_append, List.map_cons,
    List.map_nil, Value.reorder, reorderDict_eq, h.reorder_reorder]

/-- The options of `canonical`. -/
abbrev compactSorted : Dump := ⟨true, true, true⟩

variable {c : Content} {version : Str} {raw : Bytes}

/-- The seal of reordered tables is that of the tables. -/
lemma sealed_reorder (limited : c.Limited version) (scalar : ∀ u ∈ version, Scalar u)
    (written : canonical (.ofFields (sealBody (tablesValue c))) = .ok raw) :
    sealed ((tablesValue c).reorder compactSorted) (.str version) =
      .ok (sealResult ((tablesValue c).reorder compactSorted) (.str version)
        (Interpreter.sha256 raw)) := by
  have legible := tablesValue_legible c
  have whole := sealResult_legible legible scalar (hex_scalar raw)
  obtain ⟨all, run⟩ := canonical_ok whole
  have written' : canonical (.ofFields (sealBody ((tablesValue c).reorder compactSorted))) =
      .ok raw := by
    rw [← canonical_reorder (sealBody_legible (legible.reorder _)), sealBody_reorder legible,
      canonical_reorder (sealBody_legible legible), written]
  have run' : canonical (sealResult ((tablesValue c).reorder compactSorted) (.str version)
      (Interpreter.sha256 raw)) = .ok all := by
    rw [← canonical_reorder (sealResult_legible (legible.reorder _) scalar (hex_scalar raw)),
      sealResult_reorder legible, canonical_reorder whole, run]
  exact sealed_ok written' (limited.body raw written) run' (limited.whole raw all written run)

/-- What content is sealed as. -/
lemma sealed_content (limited : c.Limited version) (scalar : ∀ u ∈ version, Scalar u)
    (written : canonical (.ofFields (sealBody (tablesValue c))) = .ok raw) :
    sealed (tablesValue c) (.str version) = .ok (sealedValue c version raw) := by
  obtain ⟨all, run⟩ :=
    canonical_ok (sealResult_legible (tablesValue_legible c) scalar (hex_scalar raw))
  exact sealed_ok written (limited.body raw written) run (limited.whole raw all written run)

/-- Shown tables have the table names. -/
lemma names_perm {tables : Value} {ts : Fields} (h : c.Shown tables ts) :
    ((TableName.all.map TableName.name).map str).Perm (ts.map Prod.fst) := by
  rw [List.map_map]
  exact h.keys

/-- The members of a sealed snapshot. -/
def sealedFields (tables version : Value) (sha256 : Str) : Fields :=
  [(str "format", .str (str snapshotFormat)), (str "tables", tables), (str "sha256", .str sha256),
    (str "server_version", version)]

/-- The sealed value by its fields. -/
lemma sealResult_eq (tables version : Value) (sha256 : Str) :
    sealResult tables version sha256 = .dict (sealedFields tables version sha256) := rfl

/-- The names of its fields. -/
lemma sealedFields_keys (tables version : Value) (sha256 : Str) :
    ((["format", "tables", "sha256", "server_version"]).map str).Perm
      ((sealedFields tables version sha256).map Prod.fst) :=
  .refl _

/-- The names of the sealed fields are distinct. -/
lemma sealedFields_nodup (tables version : Value) (sha256 : Str) :
    ((sealedFields tables version sha256).map Prod.fst).Nodup := by
  simp [sealedFields]

/-- What each sealed field holds. -/
lemma sealedFields_lookup (tables version : Value) (sha256 : Str) :
    lookup (str "format") (sealedFields tables version sha256) = some (.str (str snapshotFormat)) ∧
      lookup (str "tables") (sealedFields tables version sha256) = some tables ∧
      lookup (str "sha256") (sealedFields tables version sha256) = some (.str sha256) ∧
      lookup (str "server_version") (sealedFields tables version sha256) = some version := by
  simp [sealedFields, lookup]

/-- What is read back is the export with its members in order. -/
lemma roundTrip_content (scalar : ∀ u ∈ version, Scalar u) :
    roundTrip (sealedValue c version raw) =
      .ok ((sealedValue c version raw).reorder compactSorted) := by
  have legible : Legible 4 (sealedValue c version raw) :=
    sealResult_legible (tablesValue_legible c) scalar (hex_scalar raw)
  obtain ⟨t, dumped, chars, read⟩ := legible.loads compactSorted Hooks.default_keeps
    (Nat.le_trans (by decide) Interpreter.recursionLimit_ge)
  obtain ⟨b, encoded⟩ := encode_scalar chars
  rw [roundTrip, canonical, dumped, ok_bind, encoded, ok_bind, decode_encode encoded, ok_bind, read]

/-- The rows of the snapshot's tables, as the loop reads them. -/
lemma snapshotRows_shown {snapshot tables : Value} {ts : Fields} {c : Content}
    (shown : c.Shown tables ts)
    (holds : snapshot.item "tables" = .ok tables) (t : TableName) :
    ∃ ws, snapshotRows snapshot t = .ok ws ∧
      List.Forall₂ (fun r w => ∃ ms, r.Shows w ms) (c t) ws := by
  obtain ⟨ws, found, shows_⟩ := shown.rows t
  refine ⟨ws, ?_, shows_⟩
  rw [snapshotRows, holds, ok_bind, shown.dict, Value.item, found]
  rfl

section Checks
variable [MariaDb]

/-- The export of a content is accepted. -/
lemma validate_content (held : c.Held) (limited : c.Limited version)
    (scalar : ∀ u ∈ version, Scalar u)
    (written : canonical (.ofFields (sealBody (tablesValue c))) = .ok raw) :
    validate (sealedValue c version raw) = .ok (sealedValue c version raw) := by
  have shown := c.shown_tables
  have run := sealed_content limited scalar written
  rw [sealedValue, shown.dict] at run
  rw [sealedValue, sealResult_eq, shown.dict]
  obtain ⟨format, tables, digest, ver⟩ :=
    sealedFields_lookup (.dict _) (.str version) (Interpreter.sha256 raw)
  exact validate_ok (hasKeys_ok (by decide) (sealedFields_keys ..)) format tables digest ver
    (hasKeys_ok (by decide) (names_perm shown))
      (fun t => shown.checkTable held t (limited.rows t)) run

/-- It is accepted as `json.loads` returns it. -/
lemma validate_reordered (held : c.Held) (limited : c.Limited version)
    (scalar : ∀ u ∈ version, Scalar u)
    (written : canonical (.ofFields (sealBody (tablesValue c))) = .ok raw) :
    validate ((sealedValue c version raw).reorder compactSorted) =
      .ok ((sealedValue c version raw).reorder compactSorted) := by
  have shown := c.shown_tables.reorder compactSorted
  have run := sealed_reorder limited scalar written
  have nodup := sealedFields_nodup (tablesValue c) (.str version) (Interpreter.sha256 raw)
  have perm := order_perm compactSorted (Value.reorderDict compactSorted
    (sealedFields (tablesValue c) (.str version) (Interpreter.sha256 raw)))
  obtain ⟨format, tables, digest, ver⟩ :=
    sealedFields_lookup (tablesValue c) (.str version) (Interpreter.sha256 raw)
  rw [shown.dict] at run
  rw [sealedValue, sealResult_eq, Value.reorder]
  refine validate_ok (hasKeys_ok (by decide) ?_) ?_ ?_ ?_ ?_
    (hasKeys_ok (by decide) (names_perm shown))
    (fun t => shown.checkTable held t (limited.rows t)) run
  · have keys := perm.map Prod.fst
    rw [reorderDict_eq, List.map_map] at keys
    rw [reorderDict_eq]
    exact keys.symm
  · rw [lookup_reorder _ nodup, format]
    rfl
  · rw [lookup_reorder _ nodup, tables, Option.map_some, shown.dict]
  · rw [lookup_reorder _ nodup, digest]
    rfl
  · rw [lookup_reorder _ nodup, ver]
    rfl

end Checks

/-! ### Runs -/

section Runs
variable [MariaDb] {clk : Clock} {α : Type}

/-- A server whose one client has nothing uncommitted. -/
def Server.reading (d : Database) (n : Nat) : Server := ⟨d, some d, n⟩

/-- A statement of an open session. -/
lemma eval_execute {q : Statement} {s : Server} {d d' : Database} {a : q.Rows}
    (session : s.session = some d)
    (run : q.run d (clk.timestamp s.ticks) = .ok (a, d')) :
    Client.eval (serve clk) (execute q) s =
      (.ok a, ⟨if q.commits then d' else s.db, some d', s.ticks + 1⟩) := by
  rw [Client.eval, Tool.execute, Client.execute, ExceptT.run_mk, Prog.drive, Prog.drive,
    serve, session]
  simp only [run]
  rfl

/-- A statement that only reads. -/
lemma eval_read {q : Statement} {d : Database} {a : q.Rows} {n : Nat} (reads : q.commits = false)
    (run : ∀ now, q.run d now = .ok (a, d)) :
    Client.eval (serve clk) (execute q) (.reading d n) = (.ok a, .reading d (n + 1)) := by
  rw [eval_execute rfl (run _), reads]
  rfl

/-- A requirement that holds. -/
lemma eval_require {c : Prop} [Decidable c] {message : String} {s : Server} (h : c) :
    Client.eval (serve clk) (require c message) s = (.ok (), s) := by
  rw [require, if_pos h]
  rfl

/-- A computation that returns. -/
lemma eval_lift {x : Except Exn α} {a : α} {s : Server} (h : x = .ok a) :
    Client.eval (serve clk) (liftPython x) s = (.ok a, s) := by
  rw [h]
  rfl

/-- Exporting a table of few rows. -/
lemma eval_exportTable {d : Database} {n : Nat} {t : TableName}
    (few : (d.rows t).length ≤ maxRows) :
    Client.eval (serve clk) (exportTable t) (.reading d n) =
      (.ok (t.name, .list ((d.rows t).map fun r => exportRow r.fetch)), .reading d (n + 1)) := by
  have all : (d.rows t).take (maxRows + 1) = d.rows t :=
    List.take_of_length_le (Nat.le_succ_of_le few)
  rw [exportTable, Client.eval_bind (eval_read rfl fun now => rfl)]
  rw [all, Client.eval_bind (eval_require (by rw [List.length_map]; exact few)), Client.eval_pure,
    List.map_map]
  rfl

/-- The tables of an initialized schema are read as they are. -/
lemma eval_readTables {c : Content} {nextSeq : Int} {n : Nat}
    (limited : c.Limited MariaDb.version) :
    Client.eval (serve clk) readTables (.reading (.of c nextSeq) n) =
      (.ok (tablesValue c, .str MariaDb.version), .reading (.of c nextSeq) (n + 8)) := by
  have engines : (engineDict (Database.of c nextSeq).tables).eq
      (.ofFields [("orders", .str (str "InnoDB")), ("outbox", .str (str "InnoDB"))]) = true := by
    simp [engineDict, dictOf, Database.of, insertKey, Value.ofFields, Value.eq,
      Value.eqDict, lookup]
  have within : ¬(maxRows < (Database.of c nextSeq).budget.1 ∨
      maxBytes / 4 < (Database.of c nextSeq).budget.2) := by
    rw [not_or, Nat.not_lt, Nat.not_lt]
    exact ⟨limited.rows .outbox, limited.payloads⟩
  have tables : ∀ m, Client.eval (serve clk) (TableName.all.mapM exportTable)
    (.reading (.of c nextSeq) m) =
      (.ok (TableName.all.map fun t => (t.name, .list ((c t).map fun r => exportRow r.fetch))),
        .reading (.of c nextSeq) (m + 2)) := by
    intro m
    rw [TableName.all, List.mapM_cons, Client.eval_bind (eval_exportTable (limited.rows .orders)),
      List.mapM_cons, bind_assoc, Client.eval_bind (eval_exportTable (limited.rows .outbox))]
    rfl
  rw [readTables, Client.eval_bind (eval_read rfl fun now => rfl),
    Client.eval_bind (eval_read rfl fun now => rfl),
    Client.eval_bind (eval_read rfl fun now => rfl),
    Client.eval_bind (eval_read rfl fun now => rfl),
    Client.eval_bind (eval_read rfl fun now => rfl), Client.eval_bind (eval_require engines),
    Client.eval_bind (eval_read rfl fun now => rfl), Client.eval_bind (eval_require within),
    Client.eval_bind (tables _), Client.eval_pure]
  rfl

/-- A new session sees what is committed. -/
lemma eval_connect (s : Server) :
    Client.eval (serve clk) (Client.connect .sql : Tool Unit) s =
      (.ok (), { s with session := some s.db }) := rfl

/-- A transaction whose body reads leaves the server as it was. -/
lemma eval_rollback_close (d : Database) (n : Nat) :
    Client.eval (serve clk) (tryFinally (Client.rollback .sql) Client.close : Tool Unit)
      (.reading d n) = (.ok (), ⟨d, none, n⟩) := by
  have rollback : Client.eval (serve clk) (Client.rollback .sql : Tool Unit) (.reading d n) =
    (.ok (), .reading d n) := rfl
  have close : Client.eval (serve clk) (Client.close : Tool Unit) (.reading d n) =
    (.ok (), ⟨d, none, n⟩) := rfl
  exact Client.eval_finally rollback close

/-- The export of a server. -/
theorem eval_exportSnapshot {c : Content} {nextSeq : Int} {n : Nat} {raw : Bytes} (held : c.Held)
    (limited : c.Limited MariaDb.version)
    (written : canonical (.ofFields (sealBody (tablesValue c))) = .ok raw) :
    Client.eval (serve clk) exportSnapshot ⟨.of c nextSeq, none, n⟩ =
      (.ok (sealedValue c MariaDb.version raw), ⟨.of c nextSeq, none, n + 8⟩) := by
  have scalar : ∀ u ∈ MariaDb.version, Scalar u := MariaDb.version_scalar
  have checked : sealChecked (tablesValue c) (.str MariaDb.version) =
      .ok (sealedValue c MariaDb.version raw) := by
    rw [sealChecked, sealed_content limited scalar written, ok_bind,
      validate_content held limited scalar written]
  rw [exportSnapshot, Client.eval_bind (eval_connect _)]
  refine Client.eval_finally ?_ (eval_rollback_close (.of c nextSeq) (n + 8))
  exact (Client.eval_bind (eval_readTables limited) _).trans (eval_lift checked)

/-- What an export returns has the tables it read. -/
lemma exportSnapshot_tables {s s₁ s' : Server} {tables version v : Value}
    (read : Client.eval (serve clk) readTables { s with session := some s.db } =
      (.ok (tables, version), s₁))
    (run : Client.eval (serve clk) exportSnapshot s = (.ok v, s')) :
    member "tables" v = some tables := by
  let s₂ := (serve clk .close (serve clk .rollback s₁).2).2
  have last : Client.eval (serve clk) (tryFinally (Client.rollback .sql) Client.close : Tool Unit)
      s₁ = (.ok (), s₂) :=
    Client.eval_finally rfl rfl
  have whole : Client.eval (serve clk) exportSnapshot s =
      ((sealChecked tables version).mapError .python, s₂) := by
    rw [exportSnapshot, Client.eval_bind (eval_connect _)]
    refine Client.eval_finally ((Client.eval_bind read _).trans ?_) last
    dsimp only
    cases sealChecked tables version <;> rfl
  have value : (sealChecked tables version).mapError Raised.python = .ok v :=
    congrArg Prod.fst (whole.symm.trans run)
  cases checked : sealChecked tables version with
  | error e =>
    rw [checked] at value
    cases value
  | ok w =>
    rw [checked] at value
    cases value
    obtain ⟨result, sealed_, valid⟩ := bind_ok.1 checked
    obtain ⟨rfl, _⟩ := validate_inv valid
    obtain ⟨raw, _, rfl⟩ := sealed_inv sealed_
    exact (sealedFields_lookup ..).2.1

/-- A transaction that commits. -/
lemma eval_transaction {body : Tool α} {d : Database} {n : Nat} {a : α} {s : Server}
    (run : Client.eval (serve clk) body (.reading d n) = (.ok a, s)) :
    Client.eval (serve clk) (transaction body) ⟨d, none, n⟩ =
      (.ok a, ⟨s.session.getD s.db, none, s.ticks⟩) := by
  have commit : Client.eval (serve clk) (do let a ← body; Client.commit .sql; pure a)
    (.reading d n) =
      (.ok a, { s with db := s.session.getD s.db }) := Client.eval_bind run _
  have close : Client.eval (serve clk) (Client.close : Tool Unit)
    { s with db := s.session.getD s.db } =
      (.ok (), ⟨s.session.getD s.db, none, s.ticks⟩) := rfl
  rw [transaction, Client.eval_bind (eval_connect _)]
  exact Client.eval_finally (Client.eval_try commit _) close

/-! ### Inserting rows -/

/-- Exported cells store as themselves. -/
lemma storeAll_exported {cs : List Column} {xs : List Cell}
    (h : List.Forall₂ (fun c x => c.admits x = true) cs xs) :
    storeAll cs (xs.map fun x => x.fetched.exported) = .ok ⟨xs, h⟩ := by
  induction h with
  | nil => rfl
  | cons first _ ih =>
    rw [List.map_cons, storeAll, Column.store_exported first, ok_bind, ih]
    rfl

/-- A row that comes after all others goes to the end. -/
lemma insert_last {t : TableName} {d : Database} {r : Row t}
    (after : ∀ r' ∈ d.rows t, r'.primary < r.primary ∧ r'.second ≠ r.second)
    (numbered : r.cells.head? ≠ some (.int 0)) :
    d.insert t (r.cells.map fun x => x.fetched.exported) = .ok (d.append r) := by
  have check : Row.check t r.cells = .ok r := dif_pos r.typed
  have free : ((d.rows t).any fun r' => r'.primary = r.primary ||
      r'.second = r.second) = false := by
    refine List.any_eq_false.2 fun r' m => ?_
    simp only [Bool.or_eq_true, decide_eq_true_eq, not_or]
    exact ⟨(after r' m).1.ne, (after r' m).2⟩
  have before : ∀ r' ∈ d.rows t, decide (r'.primary < r.primary) = true :=
    fun r' m => decide_eq_true (after r' m).1
  have front : (d.rows t).takeWhile (fun r' => decide (r'.primary < r.primary)) = d.rows t := by
    rw [List.takeWhile_eq_self_iff]
    exact before
  have back : (d.rows t).dropWhile (fun r' => decide (r'.primary < r.primary)) = [] := by
    rw [List.dropWhile_eq_nil_iff]
    exact before
  rw [Database.insert, storeAll_exported r.typed, ok_bind]
  dsimp only
  rw [Database.number_keeps numbered, check, ok_bind, Database.insertRow, free, front, back]
  rfl

/-- `INSERT` of a row of a snapshot. -/
lemma eval_insertRow {t : TableName} {r : Row t} {w : Value} {ms : Fields}
    {d₀ d : Database} {n : Nat}
    (shows_ : r.Shows w ms) (after : ∀ r' ∈ d.rows t, r'.primary < r.primary ∧ r'.second ≠ r.second)
    (numbered : r.cells.head? ≠ some (.int 0)) :
    Client.eval (serve clk) (insertRow t w) ⟨d₀, some d, n⟩ =
      (.ok (), ⟨d₀, some (d.append r), n + 1⟩) := by
  have run : ∀ now, (Statement.insert t (r.cells.map fun x => x.fetched.exported)).run d now =
      .ok ((), d.append r) := by
    intro now
    rw [Statement.run, insert_last after numbered]
    rfl
  rw [insertRow, Client.eval_bind (eval_lift shows_.items), eval_execute rfl (run _)]
  rfl

/-- The rows of one table, inserted in their order. -/
lemma eval_insertRows {t : TableName} {rs : List (Row t)} {ws : List Value}
    {d₀ d : Database} {n : Nat}
    (shows_ : List.Forall₂ (fun r w => ∃ ms, r.Shows w ms) rs ws)
    (sorted : (d.rows t ++ rs).Pairwise fun r r' => r.primary < r'.primary)
    (unique : (d.rows t ++ rs).Pairwise fun r r' => r.second ≠ r'.second)
    (numbered : ∀ r ∈ rs, r.cells.head? ≠ some (.int 0)) :
    Client.eval (serve clk) (ws.forM (insertRow t)) ⟨d₀, some d, n⟩ =
      (.ok (), ⟨d₀, some (d.fill rs), n + rs.length⟩) := by
  induction shows_ generalizing d n with
  | nil => rfl
  | @cons r w rs ws first _ ih =>
    obtain ⟨ms, first⟩ := first
    have after : ∀ r' ∈ d.rows t, r'.primary < r.primary ∧ r'.second ≠ r.second := fun r' m =>
      ⟨(List.pairwise_append.1 sorted).2.2 r' m r List.mem_cons_self,
        (List.pairwise_append.1 unique).2.2 r' m r List.mem_cons_self⟩
    have rows : (d.append r).rows t = d.rows t ++ [r] := by
      rw [(append_rows d r).1, Function.update_self]
    have all : (d.append r).rows t ++ rs = d.rows t ++ r :: rs := by
      rw [rows, List.append_assoc, List.singleton_append]
    have later := ih (d := d.append r) (n := n + 1) (all ▸ sorted) (all ▸ unique) fun r' m =>
      numbered r' (List.mem_cons_of_mem _ m)
    have run : Client.eval (serve clk) ((w :: ws).forM (insertRow t)) ⟨d₀, some d, n⟩ = _ :=
      (Client.eval_bind (eval_insertRow first after (numbered r List.mem_cons_self)) fun _ =>
        ws.forM (insertRow t)).trans later
    rw [run, List.length_cons, Nat.add_right_comm, Nat.add_assoc]
    rfl

/-- Inserting the rows of a table restores it. -/
lemma eval_insertTable {c : Content} {t : TableName} {snapshot : Value} {ws : List Value}
    {d₀ d : Database} {n : Nat}
    (rows : snapshotRows snapshot t = .ok ws)
    (shows_ : List.Forall₂ (fun r w => ∃ ms, r.Shows w ms) (c t) ws)
    (held : c.Held) (numbered : ∀ r ∈ c t, r.cells.head? ≠ some (.int 0)) (empty : d.rows t = []) :
    Client.eval (serve clk) (insertTable snapshot t) ⟨d₀, some d, n⟩ =
      (.ok (), ⟨d₀, some (d.fill (c t)), n + (c t).length⟩) := by
  have sorted := held.sorted t
  have unique := held.unique t
  rw [insertTable, Client.eval_bind (eval_lift rows)]
  exact eval_insertRows shows_ (by rwa [empty]) (by rwa [empty]) numbered

/-- An empty schema is filled with the rows of a snapshot. -/
theorem eval_fill {snapshot tables : Value} {ts : Fields} {c : Content} {n : Nat}
    (shown : c.Shown tables ts)
    (holds : snapshot.item "tables" = .ok tables) (held : c.Held)
    (numbered : ∀ r ∈ c .outbox, r.cells.head? ≠ some (.int 0)) :
    ∃ nextSeq m, Client.eval (serve clk)
        (transaction do
          execute .timeZone
          TableName.all.forM (insertTable snapshot)) ⟨.of (fun _ => []) 1, none, n⟩ =
      (.ok (), ⟨.of c nextSeq, none, m⟩) := by
  obtain ⟨os, orders, showOrders⟩ := snapshotRows_shown shown holds .orders
  obtain ⟨es, events, showEvents⟩ := snapshotRows_shown shown holds .outbox
  let d : Database := .of (fun _ => []) 1
  let d₁ := d.fill (c .orders)
  have rows₁ : d₁.rows = Function.update d.rows .orders (c .orders) := (fill_rows d (c .orders)).1
  have rows₂ : (d₁.fill (c .outbox)).rows = c := by
    rw [(fill_rows d₁ (c .outbox)).1, rows₁]
    funext t
    cases t <;> rfl
  have tables : (d₁.fill (c .outbox)).tables = d.tables :=
    (fill_rows d₁ (c .outbox)).2.trans (fill_rows d (c .orders)).2
  have filled := Database.of_rows (d := d₁.fill (c .outbox)) tables
  rw [rows₂] at filled
  have empty : d₁.rows .outbox = [] := by
    rw [rows₁]
    rfl
  have first : ∀ m, Client.eval (serve clk) (insertTable snapshot .orders) ⟨d, some d, m⟩ =
      (.ok (), ⟨d, some d₁, m + (c .orders).length⟩) := fun m =>
    eval_insertTable orders showOrders held (fun r _ => orders_numbered r) rfl
  have second : ∀ m, Client.eval (serve clk) (insertTable snapshot .outbox) ⟨d, some d₁, m⟩ =
      (.ok (), ⟨d, some (d₁.fill (c .outbox)), m + (c .outbox).length⟩) := fun m =>
    eval_insertTable events showEvents held numbered empty
  refine ⟨(d₁.fill (c .outbox)).nextSeq, n + 1 + (c .orders).length + (c .outbox).length, ?_⟩
  rw [← filled]
  have body : Client.eval (serve clk)
    (do execute .timeZone; TableName.all.forM (insertTable snapshot) : Tool Unit)
      (.reading d n) = (.ok (),
        ⟨d, some (d₁.fill (c .outbox)), n + 1 + (c .orders).length + (c .outbox).length⟩) := by
    rw [Client.eval_bind (eval_read rfl fun now => rfl)]
    exact (Client.eval_bind (first _) _).trans ((Client.eval_bind (second _) _).trans rfl)
  exact eval_transaction body

/-- A snapshot goes into an empty schema and comes out of it. -/
theorem eval_restoreRows {c : Content} {source : Str} {raw : Bytes} {n : Nat} (held : c.Held)
    (limited : c.Limited MariaDb.version)
    (written : canonical (.ofFields (sealBody (tablesValue c))) = .ok raw)
    (numbered : ∀ r ∈ c .outbox, r.cells.head? ≠ some (.int 0)) :
    ∃ nextSeq m, Client.eval (serve clk)
      (restoreRows ((sealedValue c source raw).reorder compactSorted)) ⟨.empty, none, n⟩ =
        (.ok (sealedValue c MariaDb.version raw), ⟨.of c nextSeq, none, m⟩) := by
  have shown := c.shown_tables.reorder compactSorted
  have nodup := sealedFields_nodup (tablesValue c) (.str source) (Interpreter.sha256 raw)
  have tables := (sealedFields_lookup (tablesValue c) (.str source) (Interpreter.sha256 raw)).2.1
  have holds : ((sealedValue c source raw).reorder compactSorted).item "tables" =
      .ok ((tablesValue c).reorder compactSorted) := by
    rw [sealedValue, sealResult_eq, Value.reorder, Value.item, lookup_reorder _ nodup, tables]
    rfl
  obtain ⟨nextSeq, m, fill⟩ := @eval_fill _ _ clk _ _ _ _ (n + 3) shown holds held numbered
  refine ⟨nextSeq, m + 8, ?_⟩
  have empty : Client.eval (serve clk) (do
      let names ← execute .tableNames
      require
        (names = [])
        "Restore requires an EMPTY disposable schema; no overwrite/retry on partial restore" :
        Tool Unit)
      (.reading .empty n) = (.ok (), .reading .empty (n + 1)) := by
    rw [Client.eval_bind (eval_read rfl fun now => rfl)]
    exact eval_require rfl
  have init : Client.eval (serve clk)
    (do execute (.createTable .orders); execute (.createTable .outbox) : Tool Unit)
      (.reading .empty (n + 1)) = (.ok (), .reading (.of (fun _ => []) 1) (n + 3)) := by
    rw [Client.eval_bind (eval_execute rfl rfl), eval_execute rfl rfl, Database.created]
    rfl
  rw [restoreRows, Client.eval_bind (eval_transaction empty), initialize_]
  refine (Client.eval_bind (eval_transaction init) _).trans ?_
  exact (Client.eval_bind fill _).trans (eval_exportSnapshot held limited written)

end Runs

end DbLab.Mvp
