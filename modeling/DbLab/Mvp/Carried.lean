import DbLab.Mvp.Backup

/-!
# Snapshots that show a content

When a value shows a row or the rows of both tables, that its members may stand in any order, and
that such a value passes every check of `validate`.
-/

namespace DbLab.Mvp
open DbLab.Py DbLab.Store

/-- Every column has a type. -/
lemma TableName.types_length (t : TableName) : t.types.length = t.columns.length := by
  cases t <;> rfl

/-- A row has a cell for each column. -/
lemma Row.length {t : TableName} (r : Row t) : r.cells.length = t.columns.length :=
  r.typed.length_eq.symm.trans t.types_length

/-- Padded numbers have no surrogates. -/
lemma zfill_scalar (w n : Nat) : ∀ c ∈ zfill w n, Scalar c := by
  intro c m
  obtain ⟨i, _, rfl⟩ := List.mem_map.1 m
  exact ascii_scalar (by omega)

/-- Times that are written have no surrogates. -/
lemma strftime_scalar (m : Moment) : ∀ c ∈ m.strftime, Scalar c := by
  have plain : ∀ c ∈ [45, 32, 58, 46], Scalar c := by decide
  intro c h
  simp only [Moment.strftime, List.mem_append, List.mem_cons] at h
  rcases h with h | rfl | h | rfl | h | rfl | h | rfl | h | rfl | h | rfl | h
  · exact digit_scalar (digitChars_isDigit _ c h)
  all_goals first
    | exact zfill_scalar _ _ c h
    | exact plain _ (by decide)

/-- A number that fits a column can be written. -/
lemma fits_digits {bits : Nat} {n : Int} (small : bits ≤ 64) (h : fits bits n = true) :
    (digitChars n.natAbs).length ≤ maxStrDigits := by
  simp only [fits, Bool.and_eq_true, decide_eq_true_eq] at h
  have width : (2 : Int) ^ (bits - 1) ≤ 2 ^ 64 := pow_le_pow_right₀ (by decide) (by omega)
  have bound : n.natAbs < 10 ^ 20 := by omega
  exact (digitChars_length bound (by decide)).trans (by decide)

/-- The names of the columns have no surrogates. -/
lemma names_scalar (t : TableName) : ∀ k ∈ t.columns, ∀ c ∈ str k, Scalar c := by
  cases t <;> decide

variable [Interpreter]

/-- What is exported of a cell is no container. -/
lemma exported_scalar (x : Cell) : isScalar x.fetched.exported = true := by
  cases x with
  | text s | int n | null => rfl
  | stamp t => cases t <;> rfl

/-- A value that shows a row. -/
structure Row.Shows {t : TableName} (r : Row t) (w : Value) (ms : Fields) : Prop where
  dict : w = .dict ms
  keys : (t.columns.map str).Perm (ms.map Prod.fst)
  cells : List.Forall₂ (fun k x => lookup (str k) ms = some x.fetched.exported) t.columns r.cells

namespace Row
variable {t : TableName} {r : Row t} {w : Value} {ms : Fields}

/-- The fields of an exported row. -/
def exported (r : Row t) : Fields :=
  (t.columns.zip r.cells).map fun e => (str e.1, e.2.fetched.exported)

/-- A row that is fetched and exported. -/
lemma exportRow_fetch (r : Row t) : exportRow r.fetch = .dict r.exported := by
  rw [exportRow, Value.ofFields, fetch, exported, List.zip_map_right, List.map_map, List.map_map]
  rfl

/-- The keys of a row are the columns. -/
lemma exported_keys (r : Row t) : r.exported.map Prod.fst = t.columns.map str := by
  have keys : (t.columns.zip r.cells).map Prod.fst = t.columns :=
    List.map_fst_zip (Nat.le_of_eq r.length.symm)
  rw [exported, List.map_map]
  conv_rhs => rw [← keys, List.map_map]
  rfl

/-- What is exported shows the row. -/
lemma shows_exported (r : Row t) : r.Shows (exportRow r.fetch) r.exported where
  dict := r.exportRow_fetch
  keys := by rw [exported_keys]
  cells := by
    refine List.forall₂_iff_zip.2 ⟨r.length.symm, fun {k x} m => ?_⟩
    have nodup : (r.exported.map Prod.fst).Nodup := by
      rw [exported_keys]
      exact t.columns_nodup.map fun _ _ e => str_inj.1 e
    exact lookup_of_mem nodup (List.mem_map.2 ⟨_, m, rfl⟩)

/-- A value that shows a row has keys of their own. -/
lemma Shows.keys_nodup (h : r.Shows w ms) : (ms.map Prod.fst).Nodup :=
  h.keys.nodup_iff.1 (t.columns_nodup.map fun _ _ e => str_inj.1 e)

/-- A value that shows a row passes the checks of a row. -/
lemma Shows.good (h : r.Shows w ms) : GoodRow t w ms where
  dict := h.dict
  keys := h.keys
  scalar := by
    intro e m
    obtain ⟨k, mk, key⟩ := List.mem_map.1 (h.keys.mem_iff.2 (List.mem_map_of_mem m))
    have value : lookup (str k) ms = some e.2 := lookup_of_mem h.keys_nodup (key ▸ m)
    obtain ⟨i, lt, rfl⟩ := List.mem_iff_getElem.1 mk
    have cell := h.cells.get lt (r.length ▸ lt)
    rw [List.get_eq_getElem, value] at cell
    rw [Option.some.inj cell]
    exact exported_scalar _

/-- The members may stand in any order. -/
lemma Shows.reorder (h : r.Shows w ms) (o : Dump) :
    r.Shows (w.reorder o) (o.order (Value.reorderDict o ms)) where
  dict := by rw [h.dict, Value.reorder]
  keys := by
    refine h.keys.trans (List.Perm.symm ?_)
    have keys := (order_perm o (Value.reorderDict o ms)).map Prod.fst
    rw [reorderDict_eq, List.map_map] at keys
    rw [reorderDict_eq]
    exact keys
  cells := by
    refine h.cells.imp fun {k x} found => ?_
    rw [lookup_reorder o h.keys_nodup, found, Option.map_some, reorder_scalar (exported_scalar x)]

/-- The values a row is inserted with. -/
lemma Shows.items (h : r.Shows w ms) :
    t.columns.mapM (fun k => w.item k) = .ok (r.cells.map fun x => x.fetched.exported) := by
  rw [h.dict]
  have all : ∀ {ks : List String} {xs : List Cell},
      List.Forall₂ (fun k x => lookup (str k) ms = some x.fetched.exported) ks xs →
        ks.mapM (fun k => (Value.dict ms).item k) = .ok (xs.map fun x => x.fetched.exported) := by
    intro ks xs each
    induction each with
    | nil => rfl
    | cons found _ ih =>
      rw [List.mapM_cons, Value.item, found]
      simp only [ok_bind, ih]
      rfl
  exact all h.cells

end Row

/-- A value that shows the rows of both tables. -/
structure Content.Shown (c : Content) (tables : Value) (ts : Fields) : Prop where
  dict : tables = .dict ts
  keys : (TableName.all.map fun t => str t.name).Perm (ts.map Prod.fst)
  rows : ∀ t, ∃ ws, lookup (str t.name) ts = some (.list ws) ∧
    List.Forall₂ (fun r w => ∃ ms, r.Shows w ms) (c t) ws

/-- `tables` in `export_snapshot`. -/
def tablesValue (c : Content) : Value :=
  .ofFields (TableName.all.map fun t => (t.name, .list ((c t).map fun r => exportRow r.fetch)))

namespace Content
variable {c : Content} {tables : Value} {ts : Fields}

/-- The tables of a content show it. -/
lemma shown_tables (c : Content) :
    c.Shown (tablesValue c) (TableName.all.map fun t =>
      (str t.name, .list ((c t).map fun r => exportRow r.fetch))) where
  dict := by rw [tablesValue, Value.ofFields, List.map_map]; rfl
  keys := by rw [List.map_map]; rfl
  rows := by
    intro t
    refine ⟨(c t).map fun r => exportRow r.fetch, ?_, ?_⟩
    · refine lookup_of_mem ?_ (List.mem_map.2 ⟨t, t.mem_all, rfl⟩)
      rw [List.map_map]
      exact TableName.names_nodup
    · rw [List.forall₂_map_right_iff]
      exact List.forall₂_same.2 fun r _ => ⟨_, r.shows_exported⟩

/-- Tables that show a content pass the checks of their kind. -/
lemma Shown.good (h : c.Shown tables ts) : GoodTables tables ts where
  dict := h.dict
  keys := h.keys
  rows := by
    intro t
    obtain ⟨ws, found, shows_⟩ := h.rows t
    refine ⟨ws, found, fun w m => ?_⟩
    obtain ⟨i, lt, rfl⟩ := List.mem_iff_getElem.1 m
    obtain ⟨ms, good⟩ := shows_.get (shows_.length_eq ▸ lt) lt
    exact ⟨ms, good.good⟩

/-- Members in another order show the same content. -/
lemma Shown.reorder (h : c.Shown tables ts) (o : Dump) :
    c.Shown (tables.reorder o) (o.order (Value.reorderDict o ts)) where
  dict := by rw [h.dict, Value.reorder]
  keys := by
    refine h.keys.trans (List.Perm.symm ?_)
    have keys := (order_perm o (Value.reorderDict o ts)).map Prod.fst
    rw [reorderDict_eq, List.map_map] at keys
    rw [reorderDict_eq]
    exact keys
  rows := by
    intro t
    obtain ⟨ws, found, shows_⟩ := h.rows t
    refine ⟨ws.map (Value.reorder o), ?_, ?_⟩
    · rw [lookup_reorder o h.good.keys_nodup, found, Option.map_some, Value.reorder, reorderList_eq]
    · rw [List.forall₂_map_right_iff]
      refine shows_.imp fun {r w} shown => ?_
      obtain ⟨ms, good⟩ := shown
      exact ⟨_, good.reorder o⟩

end Content

/-! ### The checks of `validate` -/

/-- The value in the column that tells rows apart. -/
def Row.keyValue {t : TableName} (r : Row t) : Value := (r.cells.getD 0 .null).fetched.exported

/-- The key of a row that is shown. -/
lemma Row.Shows.key {t : TableName} {r : Row t} {w : Value} {ms : Fields} (h : r.Shows w ms) :
    lookup (str t.key) ms = some r.keyValue := by
  obtain ⟨cells, typed⟩ := r
  have each := h.cells
  cases t with
  | orders =>
    cases each with
    | cons first _ => exact first
  | outbox =>
    cases each with
    | cons first _ => exact first

/-- A row whose key is new passes. -/
lemma checkRow_ok {t : TableName} {r : Row t} {w : Value} {ms : Fields} {seen : List Value}
    (h : r.Shows w ms)
    (fresh : ∀ k ∈ seen, k.eq r.keyValue = false) :
    checkRow t seen w = .ok (r.keyValue :: seen) := by
  have scalar : (ms.all fun e => isScalar e.2) = true := List.all_eq_true.2 h.good.scalar
  have unseen : (seen.any fun k => k.eq r.keyValue) = false :=
    List.any_eq_false.2 fun k m => by rw [fresh k m]; decide
  rw [h.dict, checkRow, hasKeys_ok t.columns_nodup h.keys, scalar, Fields.at, h.key]
  simp only [Bool.not_true, Bool.false_eq_true, if_false, ok_bind, unseen]
  rfl

/-- Rows whose keys are new and differ pass. -/
lemma checkRows_ok {t : TableName} {rs : List (Row t)} {ws seen : List Value}
    (shows_ : List.Forall₂ (fun r w => ∃ ms, r.Shows w ms) rs ws)
    (apart : rs.Pairwise fun r r' => r.keyValue.eq r'.keyValue = false)
    (fresh : ∀ k ∈ seen, ∀ r ∈ rs, k.eq r.keyValue = false) :
    ∃ seen', ws.foldlM (checkRow t) seen = .ok seen' := by
  induction shows_ generalizing seen with
  | nil => exact ⟨seen, rfl⟩
  | @cons r w rs ws first _ ih =>
    obtain ⟨ms, first⟩ := first
    obtain ⟨head, rest⟩ := List.pairwise_cons.1 apart
    rw [List.foldlM_cons, checkRow_ok first fun k m => fresh k m r List.mem_cons_self, ok_bind]
    refine ih rest fun k m r' mr => ?_
    rcases List.mem_cons.1 m with rfl | m
    · exact head r' mr
    · exact fresh k m r' (List.mem_cons_of_mem _ mr)

section Keys
variable [MariaDb]

/-- Rows with different primary keys have different values there. -/
lemma Row.keyValue_ne {t : TableName} {r r' : Row t} (h : r.primary < r'.primary) :
    r.keyValue.eq r'.keyValue = false := by
  refine eq_false_of_ne_true fun same => lt_irrefl r'.primary ?_
  suffices e : r.primary = r'.primary by rwa [e] at h
  obtain ⟨cells, typed⟩ := r
  obtain ⟨cells', typed'⟩ := r'
  cases t with
  | orders =>
    cases typed with
    | @cons _ x _ xs admits _ =>
      cases typed' with
      | @cons _ y _ ys admits' _ =>
        cases x with
        | text s =>
          cases y with
          | text s' => cases eq_str_iff.1 same; rfl
          | int n | stamp u | null => cases admits'
        | int n | stamp u | null => cases admits
  | outbox =>
    cases typed with
    | @cons _ x _ xs admits _ =>
      cases typed' with
      | @cons _ y _ ys admits' _ =>
        cases x with
        | int n =>
          cases y with
          | int n' =>
            obtain ⟨a, ha, view⟩ := eq_int_iff.1 same
            cases ha
            obtain rfl : n = n' := by
              injection view with e
              exact_mod_cast e
            rfl
          | text s | stamp u | null => cases admits'
        | text s | stamp u | null => cases admits

/-- The keys of the rows of a table differ. -/
lemma Content.Held.apart {c : Content} (h : c.Held) (t : TableName) :
    (c t).Pairwise fun r r' => r.keyValue.eq r'.keyValue = false :=
  (h.sorted t).imp Row.keyValue_ne

/-- A table that is shown passes if it is not too long. -/
lemma Content.Shown.checkTable {c : Content} {tables : Value} {ts : Fields} (h : c.Shown tables ts)
    (held : c.Held)
    (t : TableName) (few : (c t).length ≤ maxRows) : checkTable ts t = .ok () := by
  obtain ⟨ws, found, shows_⟩ := h.rows t
  obtain ⟨seen, run⟩ := checkRows_ok shows_ (held.apart t) (List.forall_mem_nil _)
  rw [Mvp.checkTable, Fields.at, found, ok_bind]
  simp only [if_neg (Nat.not_lt.2 (shows_.length_eq ▸ few)), run]
  rfl

end Keys

/-! ### Legible rows -/

/-- What a column holds can be written. -/
lemma admits_legible {c : Column} {x : Cell} (h : c.admits x = true) (d : Nat) :
    Legible d x.fetched.exported := by
  cases x with
  | null => exact .null
  | stamp t =>
    cases t with
    | zero => exact .str (by decide)
    | instant t => exact .str (strftime_scalar t.toMoment)
  | int n =>
    cases c with
    | int => exact .int (fits_digits (by decide) h)
    | bigint | serial => exact .int (fits_digits (by decide) h)
    | char size | varchar size | ascii size | longtext | timestamp | nullableTimestamp => cases h
  | text s =>
    have chars : ∀ u ∈ s, Scalar u := by
      cases c with
      | char size | varchar size | ascii size | longtext =>
        simp only [Column.admits, textFits, Bool.and_eq_true, List.all_eq_true,
          decide_eq_true_eq] at h
        intro u m
        first
          | exact h.1.2 u m
          | exact h.2 u m
          | exact ascii_scalar (h.2 u m)
          | exact h.1 u m
      | int | bigint | serial | timestamp | nullableTimestamp => cases h
    exact .str chars

/-- A row that is exported can be written and read. -/
lemma Row.exported_legible {t : TableName} (r : Row t) : Legible 1 (exportRow r.fetch) := by
  rw [r.exportRow_fetch]
  refine .dict r.shows_exported.keys_nodup (fun e m => ?_) fun e m => ?_
  · obtain ⟨⟨k, x⟩, mz, rfl⟩ := List.mem_map.1 m
    exact names_scalar t k (List.of_mem_zip mz).1
  · obtain ⟨⟨k, x⟩, mz, rfl⟩ := List.mem_map.1 m
    obtain ⟨i, lt, rfl⟩ := List.mem_iff_getElem.1 (List.of_mem_zip mz).2
    exact admits_legible (r.typed.get (r.typed.length_eq ▸ lt) lt) 0

/-- The tables can be written and read. -/
lemma tablesValue_legible (c : Content) : Legible 3 (tablesValue c) := by
  refine .ofFields (show literalKeys ["orders", "outbox"] = true by decide) fun f m => ?_
  obtain ⟨t, _, rfl⟩ := List.mem_map.1 m
  refine .list fun w mw => ?_
  obtain ⟨r, _, rfl⟩ := List.mem_map.1 mw
  exact r.exported_legible

/-- What is sealed can be written and read. -/
lemma sealBody_legible {tables : Value} (h : Legible 3 tables) :
    Legible 4 (.ofFields (sealBody tables)) := by
  refine .ofFields (show literalKeys ["format", "tables"] = true by decide) fun f m => ?_
  simp only [sealBody, List.mem_cons, List.not_mem_nil, or_false] at m
  rcases m with rfl | rfl
  · exact .str (by decide)
  · exact h

/-- The seal can be written and read. -/
lemma sealResult_legible {tables : Value} {version sha256 : Str} (h : Legible 3 tables)
    (scalar : ∀ c ∈ version, Scalar c)
    (hex : ∀ c ∈ sha256, Scalar c) : Legible 4 (sealResult tables (.str version) sha256) := by
  refine .ofFields (show literalKeys ["format", "tables", "sha256", "server_version"] = true by
    decide) fun f m => ?_
  simp only [sealBody, List.cons_append, List.nil_append, List.mem_cons, List.not_mem_nil,
    or_false] at m
  rcases m with rfl | rfl | rfl | rfl
  · exact .str (by decide)
  · exact h
  · exact .str hex
  · exact .str scalar

/-- What can be written has a canonical text. -/
lemma canonical_ok {d : Nat} {v : Value} (h : Legible d v) : ∃ b, canonical v = .ok b := by
  obtain ⟨t, w⟩ := h.written ⟨true, true, true⟩
  obtain ⟨b, run⟩ := encode_scalar w.scalar
  exact ⟨b, by rw [canonical, w.text, ok_bind, run]⟩

/-- The order of the members does not matter to the canonical text. -/
lemma canonical_reorder {d : Nat} {v : Value} (h : Legible d v) :
    canonical (v.reorder ⟨true, true, true⟩) = canonical v := by
  rw [canonical, h.dumps_reorder, canonical]

end DbLab.Mvp
