import DbLab.Mvp.OrderBook
import DbLab.Store.Hoare

/-!
# The repository keeps the book (`adapters.SQL`)

Each program of the repository, verified alone: whatever others commit meanwhile, what it commits is
a change of the book.
-/

namespace DbLab.Mvp.Shop
open DbLab.Py DbLab.Store Relation

section Transaction
variable {I : Interface} {S : Store.Server I} {P : Contract S} {M : Marks S} {α : Type}
  {v : World S} {done : List (List S.Write)}
  {l : Local S}

/-- `SQL.transaction`: what its body leaves to commit is committed, or it raises what the body or
the database has raised. -/
lemma transaction_wp {body : Client I Raised α} {R : List S.Write → α → World S → Prop}
    {F : Raised → World S → Prop}
    (lasts : ∀ {ws a w w'}, P.Guar w w' → R ws a w → R ws a w')
    (stable : ∀ {e w w'}, P.Guar w w' → F e w → F e w')
    (fails : ∀ e w, e ≠ .duplicate → F (.sql e) w) (h : P.At .closed v done l)
    (run : ∀ l, P.At (.live [] []) v done l →
      P.wpc M (fun a l => ∃ held ws, P.At (.live held ws) v done l ∧
          ∀ w, P.Sees held l.view w → P.Commits M ws w ∧ R ws a (w.commit ws))
        (fun e l => P.At l.mode v done l ∧ l.mode ≠ .closed ∧ F e l.view) body l) :
    P.wpc M (fun a l => ∃ ws, P.At .closed v (done ++ [ws]) l ∧ R ws a l.view)
      (fun e l => P.At .closed v done l ∧ F e l.view) (transaction body) l := by
  -- rolling back and closing leave what was raised
  have undo : ∀ {e : Raised} {l : Local S} {m : Mode S} {Q : α → Local S → Prop}, P.At m v done l →
    m ≠ .closed →
      F e l.view → P.wpc M (fun a => P.wpc M (fun _ => Q a) (fun e l => P.At .closed v done l ∧
        F e l.view) Client.close)
        (fun e => P.wpc M (fun _ l => P.At .closed v done l ∧ F e l.view)
          (fun e l => P.At .closed v done l ∧ F e l.view) Client.close)
        (do
          tryCatch (Client.rollback .sql) fun _ => pure ()
          throw e) l := by
    intro e l m Q at' opened raised
    have close : ∀ l', P.At .failed l.view done l' →
      P.wpc M (fun _ l => P.At .closed v done l ∧ F e l.view)
        (fun e l => P.At .closed v done l ∧ F e l.view) Client.close l' := by
      intro l' at₂
      refine at₂.close nofun fun l'' at₃ => ?_
      exact ⟨at₃.since at'.guar, stable at₃.guar raised⟩
    rw [P.wpc_bind, P.wpc_tryCatch]
    refine at'.rebase.rollback opened (fun l' at₂ => close l' at₂) fun f l' _ at₂ => ?_
    exact close l' at₂
  unfold transaction
  rw [P.wpc_bind]
  refine h.connect (fun l at' => ?_) fun e l ne at' => ⟨at', fails e _ ne⟩
  rw [P.wpc_finally, P.wpc_tryCatch, P.wpc_bind]
  refine P.wpc_mono (run l at') ?_ ?_
  · rintro a l ⟨held, ws, at₂, commits⟩
    rw [P.wpc_bind]
    refine at₂.rebase.commit (fun w sees => (commits w sees).1) (fun w sees l' view at₃ => ?_)
      fun e l' ne at₃ => ?_
    · refine at₃.rebase.close nofun fun l'' at₄ => ?_
      refine ⟨ws, (at₄.since at₃.guar).since at₂.guar, lasts at₄.guar ?_⟩
      rw [view]
      exact (commits w sees).2
    · exact undo (at₃.since at₂.guar) nofun (fails e _ ne)
  · rintro e l ⟨at₂, opened, raised⟩
    exact undo at₂ opened raised

end Transaction

variable [Interpreter]

/-- Every commit is a change of the book. -/
def shop : Contract mariadb where
  Inv w := Book w.db
  Guar w w' := ReflTransGen Change w.db w'.db
  refl _ := .refl
  trans := ReflTransGen.trans
  runs := by
    rintro q ⟨d, _⟩ ws r d' ks ws' book run
    have leaves := eval_leaves q d (ws.foldl Tables.apply d)
    rw [← run] at leaves
    rcases leaves with rfl | rfl
    · exact ⟨book, .refl⟩
    · exact ⟨book.change .drew, .single .drew⟩
  drifts := nofun

variable {M : Marks mariadb} {v : World mariadb} {done : List (List Write)} {l : Local mariadb}
  {held : List (Key × Reading)}
  {ws : List Write}

/-- The exceptions of the database are allowed for as long as there is a connection to clean up. -/
def Sql (E : Raised → Local mariadb → Prop) (v : World mariadb) (done : List (List Write)) : Prop :=
  ∀ f l, shop.At l.mode v done l → l.mode ≠ .closed → E (.sql f) l

/-! ### Statements -/

section Statements
variable {E : Raised → Local mariadb → Prop} {o : Order} {key : Str}

/-- A failed statement ends the call with the statement's failure. -/
lemma Sql.failed (sql : Sql E v done) (f : Failure) {m : Mode mariadb} (h : shop.At m v done l)
    (opened : m ≠ .closed) :
    E (.sql f) l :=
  sql f l (h.mode ▸ h) (h.mode ▸ opened)

/-- A fresh id leaves the transaction as it is. -/
lemma uuid4_wp {Q : Str → Local mariadb → Prop} {m : Mode mariadb} (h : shop.At m v done l)
    (ok : ∀ id l', IsUuid id → shop.At m v done l' → Q id l') : shop.wpc M Q E SQL.uuid4 l :=
  h.act (fun _ sees _ _ _ => ⟨sees.inv, .refl⟩) fun _ _ id _ acts l' _ at' => ok id l' acts at'

/-- Reading the time leaves the transaction as it is. -/
lemma now_wp {Q : Str → Local mariadb → Prop} {m : Mode mariadb} (h : shop.At m v done l)
    (ok : ∀ time l', IsTimestamp time → shop.At m v done l' → Q time l') :
    shop.wpc M Q E SQL.now l :=
  h.act (fun _ sees _ _ _ => ⟨sees.inv, .refl⟩) fun _ _ time _ acts l' _ at' => ok time l' acts at'

/-- Reading by key returns the holder of the key. -/
lemma byKey_wp {Q : Option OrderRow → Local mariadb → Prop} (h : shop.At (.live [] []) v done l)
    (sql : Sql E v done)
    (ok : ∀ l', shop.At (.live [] []) v done l' → Q (l'.view.db.holder key) l') :
    shop.wpc M Q E (SQL.execute (.byKey key)) l := by
  refine h.execute (fun w sees a d' ks ws' run l' view at' => ?_) (fun w sees e d' ks ws' run => ?_)
    fun e l' _ at' => sql.failed e at' nofun
  · cases run
    have found := ok l' at'
    rw [view] at found
    exact found
  · cases run

/-- The keys of a row are free, and no one else can take them. -/
def Reserved (held : List (Key × Reading)) (o : Order) (key : Str) : Prop :=
  (Key.order o.id, Reading.order none) ∈ held ∧ (Key.idempotency key, Reading.holder none) ∈ held

omit [Interpreter] in
/-- What is reserved stays reserved. -/
lemma Reserved.mono {held' : List (Key × Reading)} (reserved : Reserved held o key)
    (sub : held ⊆ held') : Reserved held' o key :=
  ⟨sub reserved.1, sub reserved.2⟩

/-- A reserved id is still free. -/
lemma Reserved.order (reserved : Reserved held o key) {w : World mariadb}
    (sees : shop.Sees held v w) :
    w.db.orders.find? o.id = none :=
  Reading.order.inj (sees.read _ reserved.1)

/-- A reserved key is still free. -/
lemma Reserved.holder (reserved : Reserved held o key) {w : World mariadb}
    (sees : shop.Sees held v w) :
    w.db.holder key = none :=
  Option.map_eq_none_iff.1 (Reading.holder.inj (sees.read _ reserved.2))

/-- An insert that succeeds has reserved its id and key. -/
lemma insertOrder_wp {Q : Unit → Local mariadb → Prop} (h : shop.At (.live [] []) v done l)
    (sql : Sql E v done)
    (ok : ∀ held l', Reserved held o key →
      shop.At (.live held [.insertOrder ⟨o, key⟩]) v done l' → Q () l') :
    shop.wpc M Q E (SQL.execute (.insertOrder o key)) l := by
  refine h.execute (fun w sees a d' ks ws' run l' view at' => ?_)
    (fun w sees e d' ks ws' run l' view at' => ?_)
    fun e l' _ at' => sql.failed e at' (by simp)
  · rcases eval_insertOrder w.db w.db o key with ⟨id, taken, inserted⟩ | refused
    · cases run.trans inserted
      refine ok _ l' ?_ at'
      have order : w.db.read (.order o.id) = .order none := congrArg Reading.order id
      have holder : w.db.read (.idempotency key) = .holder none := by
        rw [Tables.read, taken]
        rfl
      refine ⟨?_, ?_⟩
      · simp [order]
      · simp [holder]
    · cases run.trans refused
  · exact sql.failed e at' (by simp)

/-- `_enqueue`, behind statements that leave the outbox alone. -/
lemma enqueue_wp {Q : Unit → Local mariadb → Prop} {hist : List Order}
    {fields : List (String × Value)}
    (h : shop.At (.live held ws) v done l)
    (quiet : ∀ d : Tables, (ws.foldl Tables.apply d).outbox = d.outbox)
    (history : History hist) (made : o ∈ hist) (written : Written o fields) (sql : Sql E v done)
    (ok : ∀ e u held' l', shop.Sees held v u → e.seq = u.db.nextSeq → held ⊆ held' →
      shop.At (.live held' (ws ++ [.insertEvent e])) v done l' →
      (∀ w, shop.Sees held' l'.view w → shop.Guar u w ∧ Enqueued w.db e o) → Q () l') :
    shop.wpc M Q E (SQL.enqueue fields) l := by
  unfold SQL.enqueue
  rw [shop.wpc_bind]
  refine uuid4_wp h fun eventId l₁ uuid at₁ => ?_
  obtain ⟨payload, text, _⟩ := written.read history made uuid
  have lifted : SQL.liftPython (I := interface) (eventText fields eventId) = pure payload := by
    rw [SQL.liftPython, text]
    rfl
  rw [shop.wpc_bind, lifted, shop.wpc_pure]
  refine at₁.execute (fun w sees a d' ks ws' run l' view at' => ?_)
    (fun w sees e d' ks ws' run l' view at' => ?_)
    fun e l' _ at' => sql.failed e at' nofun
  · have outbox : (ws.foldl Tables.apply w.db).numbered eventId = w.db.numbered eventId := by
      rw [Tables.numbered, quiet]
      rfl
    rcases eval_insertEvent w.db (ws.foldl Tables.apply w.db) eventId payload with ⟨free,
      inserted⟩ | refused
    · cases run.trans inserted
      rw [outbox] at free
      have number : w.db.outbox.find? w.db.nextSeq = none := by
        refine Table.find?_eq_none.2 fun e m same => ?_
        have drawn := (Book.booked sees.inv).drawn e m
        omega
      refine ok ⟨w.db.nextSeq, eventId, payload, false⟩ w _ l' sees rfl
        (List.subset_append_left _ _) at' fun w' sees' => ?_
      have event : w'.db.read (.event w.db.nextSeq) = w.db.read (.event w.db.nextSeq) :=
        sees'.read (.event w.db.nextSeq, w.db.read (.event w.db.nextSeq))
          (List.mem_append_right _ (List.mem_map.2 ⟨_, List.mem_cons_self, rfl⟩))
      have numbered : w'.db.read (.eventId eventId) = w.db.read (.eventId eventId) :=
        sees'.read (.eventId eventId, w.db.read (.eventId eventId))
          (List.mem_append_right _ (List.mem_map.2 ⟨_,
            List.mem_cons_of_mem _ List.mem_cons_self, rfl⟩))
      have grows := sees'.guar
      rw [view] at grows
      have after : Grows { w.db with nextSeq := w.db.nextSeq + 1 } w'.db := .changes grows
      refine ⟨.head .drew grows, ?_, ?_, ?_, ⟨uuid, fields, written, text⟩, rfl⟩
      · exact (Reading.event.inj event).trans number
      · have counter : w.db.nextSeq + 1 ≤ w'.db.nextSeq := after.counter
        exact counter
      · refine Option.map_eq_none_iff.1 ((Reading.number.inj numbered).trans ?_)
        rw [free]
        rfl
    · cases run.trans refused
  · exact sql.failed e at' nofun

/-- `SELECT … FOR UPDATE`: a row that is found is locked. -/
lemma lock_wp {Q : Option Order → Local mariadb → Prop} {id : Str}
    (h : shop.At (.live [] []) v done l) (sql : Sql E v done)
    (missing : ∀ l', shop.At (.live [] []) v done l' → Q none l')
    (ok : ∀ row held l', l'.view.db.orders.find? id = some row →
      (Key.order id, Reading.order (some row)) ∈ held → shop.At (.live held []) v done l' → Q
      (some row.toOrder) l') :
    shop.wpc M Q E (SQL.execute (.byId id true)) l := by
  refine h.execute (fun w sees a d' ks ws' run l' view at' => ?_)
    (fun w sees e d' ks ws' run l' view at' => ?_)
    fun e l' _ at' => sql.failed e at' (by simp)
  · cases found : w.db.orders.find? id with
    | none =>
      have reply : eval w.db w.db (.byId id true) = (.ok none, w.db, [], []) := by rw [eval, found]
      cases run.trans reply
      exact missing l' at'
    | some row =>
      have reply : eval w.db w.db (.byId id true) = (.ok (some row.toOrder), w.db,
          [.order id], []) := by
        rw [eval, found]
        rfl
      cases run.trans reply
      refine ok row _ l' ?_ (List.mem_append_right _ (List.mem_singleton.2 ?_)) at'
      · rw [view]
        exact found
      · exact congrArg (fun x => (Key.order id, Reading.order x)) found.symm
  · exact sql.failed e at' (by simp)

/-- An `UPDATE` of a row that is locked. -/
lemma updateOrder_wp {Q : Unit → Local mariadb → Prop} {row : OrderRow} {status : Str}
    {version : Int}
    (h : shop.At (.live held []) v done l)
    (locked : (Key.order row.id, Reading.order (some row)) ∈ held) (sql : Sql E v done)
    (ok : ∀ held' l', held ⊆ held' →
      shop.At (.live held' [.updateOrder row.id status version]) v done l' → Q () l') :
    shop.wpc M Q E (SQL.execute (.updateOrder status version row.id)) l := by
  refine h.execute (fun w sees a d' ks ws' run l' view at' => ?_)
    (fun w sees e d' ks ws' run l' view at' => ?_)
    fun e l' _ at' => sql.failed e at' (by simp)
  · have found : w.db.orders.find? row.id = some row := Reading.order.inj (sees.read _ locked)
    have reply : eval w.db w.db (.updateOrder status version row.id) =
        (.ok (), w.db, [.order row.id], [.updateOrder row.id status version]) := by rw [eval, found]
    cases run.trans reply
    exact ok _ l' (List.subset_append_left _ _) at'
  · exact sql.failed e at' (by simp)

omit [Interpreter] in
/-- The event that is pending first is in the outbox. -/
lemma firstPending_mem {d : Tables} {e : EventRow} (h : d.firstPending = some e) :
    e ∈ d.outbox.rows ∧ e.sent = false := by
  have m : e ∈ d.outbox.rows.filter fun e => !e.sent := by
    unfold Tables.firstPending at h
    generalize d.outbox.rows.filter (fun e => !e.sent) = es at h ⊢
    induction es generalizing e with
    | nil => cases h
    | cons x es ih =>
      rw [List.foldr_cons] at h
      split at h
      · rename_i l rest
        split at h
        · exact List.mem_cons_of_mem _ (ih (rest.trans h))
        · cases h
          exact List.mem_cons_self
      · cases h
        exact List.mem_cons_self
  rw [List.mem_filter, Bool.not_eq_true'] at m
  exact m

/-- The oldest pending event is an event of the outbox. -/
lemma pending_wp {Q : Option (Int × Str) → Local mariadb → Prop}
    (h : shop.At (.live [] []) v done l) (sql : Sql E v done)
    (empty : ∀ l', shop.At (.live [] []) v done l' → Q none l')
    (ok : ∀ e l', e ∈ l'.view.db.outbox.rows → shop.At (.live [] []) v done l' →
      Q (some (e.seq, e.payload)) l') :
    shop.wpc M Q E (SQL.execute .pending) l := by
  refine h.execute (fun w sees a d' ks ws' run l' view at' => ?_) (fun w sees e d' ks ws' run => ?_)
    fun e l' _ at' => sql.failed e at' nofun
  · cases first : w.db.firstPending with
    | none =>
      have reply : eval w.db w.db .pending = (.ok none, w.db, [], []) := by
        rw [eval, first, Option.map_none]
      cases run.trans reply
      exact empty l' at'
    | some e =>
      have reply : eval w.db w.db .pending = (.ok (some (e.seq, e.payload)), w.db, [], []) := by
        rw [eval, first, Option.map_some]
      cases run.trans reply
      refine ok e l' ?_ at'
      rw [view]
      exact (firstPending_mem first).1
  · cases run

/-- `UPDATE outbox SET sent_at=…`: the row is locked, or there is nothing to do. -/
lemma markSent_wp {Q : Unit → Local mariadb → Prop} {seq : Int} (h : shop.At (.live [] []) v done l)
    (sql : Sql E v done)
    (done' : ∀ l', shop.At (.live [] []) v done l' → Q () l')
    (ok : ∀ held l', shop.At (.live held [.markSent seq]) v done l' → Q () l') :
    shop.wpc M Q E (SQL.execute (.markSent seq)) l := by
  refine h.execute (fun w sees a d' ks ws' run l' view at' => ?_)
    (fun w sees e d' ks ws' run l' view at' => ?_)
    fun e l' _ at' => sql.failed e at' (by simp)
  · have replies : eval w.db w.db (.markSent seq) = (.ok (), w.db, [], []) ∨
        eval w.db w.db (.markSent seq) = (.ok (), w.db, [.event seq], [.markSent seq]) := by
      rw [eval]
      split
      · split
        · exact .inl rfl
        · exact .inr rfl
      · exact .inl rfl
    rcases replies with reply | reply
    · cases run.trans reply
      exact done' l' at'
    · cases run.trans reply
      exact ok _ l' at'
  · exact sql.failed e at' (by simp)

end Statements

/-! ### Opening an order -/

/-- The writes of `create`. -/
def opening (row : OrderRow) (e : EventRow) : List Write := [.insertOrder row, .insertEvent e]

/-- The row is what was asked for. -/
def Fits (row : OrderRow) (draft : Draft) : Prop :=
  row.item = draft.item ∧ row.quantity = draft.quantity ∧ row.unitPrice = draft.unitPrice

/-- The row is kept. -/
def Tables.Keeps (d : Tables) (row : OrderRow) : Prop := ∃ r ∈ d.orders.rows, Succeeds row r

def reused : Raised := .problem 409 "idempotency_key_reused_with_different_payload"

/-- What `create` commits and returns, from the world `b` on. -/
inductive Placed (draft : Draft) (key : Str) (b : Tables) (d : Tables) :
    List Write → Order × Bool → Prop where
  | created (row : OrderRow) (e : EventRow) (free : b.holder key = none)
      (own : row.idempotencyKey = key)
    (new : row.toOrder = newOrder draft row.id row.createdAt) (kept : d.Keeps row) :
    Placed draft key b d (opening row e) (row.toOrder, true)
  | replayed (row : OrderRow) (own : row.idempotencyKey = key) (fits : Fits row draft)
      (kept : d.Keeps row) :
    Placed draft key b d [] (row.toOrder, false)

/-- What `create` raises. -/
inductive Declined (draft : Draft) (key : Str) (d : Tables) : Raised → Prop where
  | sql (f : Failure) : Declined draft key d (.sql f)
  | reused (row : OrderRow) (own : row.idempotencyKey = key) (other : ¬Fits row draft)
      (kept : d.Keeps row) :
    Declined draft key d Shop.reused

/-- What a commit of `create` must earn. -/
structure Opening (M : Marks mariadb) (draft : Draft) (key : Str) : Prop where
  nothing : ∀ w, M.before [] w ∧ M.after [] w
  opened : ∀ w row e, e.sent = false → w.db.orders.find? row.id = none → w.db.holder key = none →
    row.idempotencyKey = key → row.toOrder = newOrder draft row.id row.createdAt →
      (w.commit (opening row e)).db.Keeps row → M.before (opening row e) w ∧
        M.after (opening row e) (w.commit (opening row e))

section Create
variable {draft : Draft} {key : Str} {b d d' : Tables} {row : OrderRow}
  {x : Order × Bool} {e : Raised}

/-- What is kept stays kept. -/
lemma Tables.Keeps.grows (kept : d.Keeps row) (grows : Grows d d') : d'.Keeps row := by
  obtain ⟨r, m, next⟩ := kept
  obtain ⟨r', m', next'⟩ := grows.rows r m
  exact ⟨r', m', next.trans next'⟩

/-- A placed order stays placed. -/
lemma Placed.grows (placed : Placed draft key b d ws x) (grows : Grows d d') :
    Placed draft key b d' ws x := by
  cases placed with
  | created row e free own new kept => exact .created row e free own new (kept.grows grows)
  | replayed row own fits kept => exact .replayed row own fits (kept.grows grows)

/-- A declined order stays declined. -/
lemma Declined.grows (declined : Declined draft key d e) (grows : Grows d d') :
    Declined draft key d' e := by
  cases declined with
  | sql f => exact .sql f
  | reused row own other kept => exact .reused row own other (kept.grows grows)

omit [Interpreter] in
/-- The holder of a key is an order with the key. -/
lemma holder_some (h : d.holder key = some row) : row ∈ d.orders.rows ∧ row.idempotencyKey = key :=
  ⟨List.mem_of_find?_eq_some h, by simpa using List.find?_some h⟩

/-- A key that is free now was free before. -/
lemma Grows.holder (grows : Grows d d') (free : d'.holder key = none) : d.holder key = none := by
  cases found : d.holder key with
  | none => rfl
  | some row =>
    obtain ⟨m, own⟩ := holder_some found
    obtain ⟨_, m', status, version, rfl, _⟩ := grows.rows row m
    exact absurd (decide_eq_true own) (List.find?_eq_none.1 free (moved status version row) m')

omit [Interpreter] in
/-- `_existing` of a row: the order, if it is what was asked for. -/
lemma existing_cases (row : OrderRow) (draft : Draft) :
    (Fits row draft ∧ existing row draft = .ok (row.toOrder, false)) ∨
      (¬Fits row draft ∧ existing row draft = .error reused) := by
  unfold existing
  split
  · rename_i other
    refine .inr ⟨fun fits => ?_, rfl⟩
    exact other.elim (· fits.1) fun other => other.elim (· fits.2.1) (· fits.2.2)
  · rename_i fits
    push Not at fits
    exact .inl ⟨fits, rfl⟩

/-- An existing order is the answer, where it fits. -/
lemma existing_wp {Q : Order × Bool → Local mariadb → Prop} {E : Raised → Local mariadb → Prop}
    (ok : Fits row draft → Q (row.toOrder, false) l) (error : ¬Fits row draft → E reused l) :
    shop.wpc M Q E (SQL.lift (existing row draft)) l := by
  rcases existing_cases row draft with ⟨fits, same⟩ | ⟨other, same⟩
  · rw [same]
    exact ok fits
  · rw [same]
    exact error other

/-- The transaction of an order that is opened, up to its commit. -/
lemma opens (new : History [row.toOrder]) {e : EventRow} {w : World mariadb} (inv : Book w.db)
    (id : w.db.orders.find? row.id = none)
    (key : w.db.holder row.idempotencyKey = none) (event : Enqueued w.db e row.toOrder) :
    shop.Inv (w.commit (opening row e)) ∧ shop.Guar w (w.commit (opening row e)) ∧
      (w.commit (opening row e)).db.Keeps row :=
  ⟨inv.change (.opened new id key event), .single (.opened new id key event), row,
    Table.mem_insert_self id, .refl row⟩

/-- What inserting a new order ends with. -/
lemma insertNew_wp {data : Value} (input : createInput data = .ok draft)
    (earns : Opening M draft key)
    (h : shop.At (.live [] []) v done l) :
    shop.wpc M (fun a l => ∃ held ws, shop.At (.live held ws) v done l ∧
        ∀ w, shop.Sees held l.view w → shop.Commits M ws w ∧
          Placed draft key v.db (w.commit ws).db ws a)
      (fun e l => shop.At l.mode v done l ∧ l.mode ≠ .closed ∧ Declined draft key l.view.db e)
      (SQL.insertNew draft key) l := by
  have sql : Sql (fun e l => shop.At l.mode v done l ∧ l.mode ≠ .closed ∧
      Declined draft key l.view.db e) v done :=
    fun f l at' opened => ⟨at', opened, .sql f⟩
  unfold SQL.insertNew
  rw [shop.wpc_bind]
  refine byKey_wp h sql fun l₁ at₁ => ?_
  cases found : l₁.view.db.holder key with
  | some row =>
    -- the order is there: nothing is written
    obtain ⟨m, own⟩ := holder_some found
    refine existing_wp (fun fits => ⟨[], [], at₁, fun w sees => ?_⟩) fun other => ?_
    · have kept : w.db.Keeps row := .grows ⟨row, m, .refl row⟩ (.changes sees.guar)
      obtain ⟨before, after⟩ := earns.nothing w
      exact ⟨⟨sees.inv, .refl, before, after⟩, .replayed row own fits kept⟩
    · refine ⟨?_, at₁.mode ▸ nofun, .reused row own other ⟨row, m, .refl row⟩⟩
      rw [at₁.mode]
      exact at₁
  | none =>
    rw [shop.wpc_bind]
    refine uuid4_wp at₁ fun id l₂ uuid at₂ => ?_
    rw [shop.wpc_bind]
    refine now_wp at₂ fun createdAt l₃ time at₃ => ?_
    have new : History [newOrder draft id createdAt] := .created input uuid time
    rw [shop.wpc_bind]
    refine insertOrder_wp at₃ sql fun held l₄ reserved at₄ => ?_
    rw [shop.wpc_bind]
    refine enqueue_wp at₄ (fun d => rfl) new (List.mem_singleton_self _) (.inl rfl) sql ?_
    intro e u held' l₅ _ _ sub at₅ enqueued
    refine ⟨held', opening ⟨newOrder draft id createdAt, key⟩ e, at₅, fun w sees => ?_⟩
    obtain ⟨_, event⟩ := enqueued w sees
    have free := (reserved.mono sub).order sees
    have taken := (reserved.mono sub).holder sees
    obtain ⟨inv, guar, kept⟩ :=
      @opens _ ⟨newOrder draft id createdAt, key⟩ new e w sees.inv free taken event
    obtain ⟨before, after⟩ := earns.opened w _ e event.pending free taken rfl rfl kept
    refine ⟨⟨inv, guar, before, after⟩, .created _ e ?_ rfl rfl kept⟩
    exact Grows.holder (.changes (at₅.guar.trans sees.guar)) taken

/-- What the second look after a conflict ends with. -/
lemma lookAgain_wp (earns : Opening M draft key) (h : shop.At (.live [] []) v done l) :
    shop.wpc M (fun a l => ∃ held ws, shop.At (.live held ws) v done l ∧
        ∀ w, shop.Sees held l.view w → shop.Commits M ws w ∧ ∀ x, a = some x →
          Placed draft key v.db (w.commit ws).db ws x)
      (fun e l => shop.At l.mode v done l ∧ l.mode ≠ .closed ∧ Declined draft key l.view.db e)
      (SQL.lookAgain draft key) l := by
  unfold SQL.lookAgain
  rw [shop.wpc_bind]
  refine byKey_wp h (fun f l at' opened => ⟨at', opened, .sql f⟩) fun l₁ at₁ => ?_
  have reads : ∀ w, shop.Sees [] l₁.view w → shop.Commits M [] w := fun w sees =>
    ⟨sees.inv, .refl, (earns.nothing w).1, (earns.nothing w).2⟩
  cases found : l₁.view.db.holder key with
  | none => exact ⟨[], [], at₁, fun w sees => ⟨reads w sees, nofun⟩⟩
  | some row =>
    obtain ⟨m, own⟩ := holder_some found
    simp only [map_eq_pure_bind]
    rw [shop.wpc_bind]
    refine existing_wp (fun fits => ⟨[], [], at₁, fun w sees => ⟨reads w sees, ?_⟩⟩) fun other => ?_
    · rintro _ ⟨⟩
      exact .replayed row own fits (.grows ⟨row, m, .refl row⟩ (.changes sees.guar))
    · refine ⟨?_, at₁.mode ▸ nofun, .reused row own other ⟨row, m, .refl row⟩⟩
      rw [at₁.mode]
      exact at₁

/-- `SQL.create`: an order that was opened, one that was there, or a refusal. -/
theorem create_wp {data : Value} (input : createInput data = .ok draft)
    (earns : Opening M draft key)
    (h : shop.At .closed v done l) :
    shop.wpc M (fun a l => ∃ ws ∈ l.done, Placed draft key v.db l.view.db ws a)
      (fun e l => Declined draft key l.view.db e)
      (SQL.create draft key) l := by
  have lasts : ∀ {e} {w w' : World mariadb}, shop.Guar w w' → Declined draft key w.db e →
      Declined draft key w'.db e :=
    fun guar declined => declined.grows (.changes guar)
  unfold SQL.create
  rw [shop.wpc_tryCatch]
  have first :=
    transaction_wp (R := fun ws a w => Placed draft key v.db w.db ws a)
      (F := fun e w => Declined draft key w.db e)
    (fun guar placed => placed.grows (.changes guar)) lasts (fun f _ _ => .sql f) h fun l at' =>
      insertNew_wp input earns at'
  refine shop.wpc_mono first ?_ ?_
  · rintro a l ⟨ws, at', placed⟩
    refine ⟨ws, ?_, placed⟩
    rw [at'.done]
    exact List.mem_append_right _ (List.mem_singleton_self _)
  · rintro e l ⟨at', declined⟩
    split
    · -- the key was taken meanwhile
      rw [shop.wpc_bind]
      have second :=
        transaction_wp (R := fun ws a w => ∀ x, a = some x → Placed draft key v.db w.db ws x)
        (F := fun e w => Declined draft key w.db e)
        (fun guar placed x some => (placed x some).grows (.changes guar)) lasts
          (fun f _ _ => .sql f) at'
        fun l at' => lookAgain_wp earns at'
      refine shop.wpc_mono second ?_ fun e l declined => declined.2
      rintro a l ⟨ws, at₂, placed⟩
      split
      · rename_i x
        refine ⟨ws, ?_, placed x rfl⟩
        rw [at₂.done]
        exact List.mem_append_right _ (List.mem_singleton_self _)
      · exact .sql _
    · exact declined

end Create

/-! ### Moving an order on -/

/-- The writes of `update`. -/
def updating (o : Order) (e : EventRow) : List Write :=
  [.updateOrder o.id o.status o.version, .insertEvent e]

/-- The outbox holds an event of the version. -/
def Tables.Tells (d : Tables) (o : Order) : Prop := ∃ e ∈ d.outbox.rows, Announces e o

/-- What is told stays told. -/
lemma Tables.Tells.grows {d d' : Tables} {o : Order} (tells : d.Tells o) (grows : Grows d d') :
    d'.Tells o := by
  obtain ⟨e, m, announces⟩ := tells
  obtain ⟨e', m', stays⟩ := grows.events e m
  exact ⟨e', m', announces.stays stays⟩

/-- What a commit of `update` must earn. -/
def Moving (M : Marks mariadb) (id : Str) (data : Value) : Prop :=
  ∀ w row o e, e.sent = false → w.db.orders.find? id = some row →
    transition row.toOrder data = .ok o →
      (∃ r ∈ (w.commit (updating o e)).db.orders.rows, r.toOrder = o) → M.before (updating o e) w ∧
        M.after (updating o e) (w.commit (updating o e))

/-- An order that is locked is moved on, up to the commit. -/
lemma moving {d u : Tables} {row : OrderRow} {o : Order} {e : EventRow} {data : Value}
    (booked : Booked d)
    (there : d.orders.find? row.id = some row) (step : transition row.toOrder data = .ok o)
    (event : Enqueued d e o)
    (booked' : Booked u) (there' : u.orders.find? row.id = some row) (grows : Grows u d)
    (number : e.seq = u.nextSeq) :
    Change d ((updating o e).foldl Tables.apply d) ∧
      ∃ r ∈ ((updating o e).foldl Tables.apply d).orders.rows, r.toOrder = o := by
  have same : o.id = row.id := by
    obtain ⟨_, _, _, _, rfl⟩ := transition_inv step
    rfl
  have mem := (Table.find?_eq_some.1 there).1
  have mem' := (Table.find?_eq_some.1 there').1
  -- the number was drawn while the row was locked, so the order has no later event
  have later : ∀ x ∈ d.about row.id, x.seq < e.seq := by
    intro x m
    have seq : x.seq ∈ (u.about row.id).map EventRow.seq :=
      (grows.steady booked' booked mem' mem) ▸ List.mem_map_of_mem m
    obtain ⟨x', m', eq⟩ := List.mem_map.1 seq
    rw [← eq, number]
    exact booked'.drawn x' (mem_about.1 m').1
  have writes : (updating o e).foldl Tables.apply d = { d with
      orders := d.orders.update row.id (moved o.status o.version) (moved_id _ _), outbox :=
        d.outbox.insert e } := by
    rw [← same]
    rfl
  rw [writes]
  refine ⟨.moved there step event later, _, List.mem_map_of_mem mem, ?_⟩
  rw [if_pos rfl]
  exact moved_toOrder step

/-- The body of `SQL.update`. -/
lemma moving_wp {id : Str} {data : Value} (earns : Moving M id data)
    (h : shop.At (.live [] []) v done l) :
    shop.wpc M (fun o l => ∃ held ws, shop.At (.live held ws) v done l ∧
        ∀ w, shop.Sees held l.view w → shop.Commits M ws w ∧ (∃ e, ws = updating o e) ∧
          (w.commit ws).db.Tells o)
      (fun _ l => shop.At l.mode v done l ∧ l.mode ≠ .closed ∧ True)
      (do
        let old ← SQL.execute (.byId id true)
        match old with
        | none => throw (.problem 404 "order_not_found")
        | some old =>
          let order ← SQL.lift (transition old data)
          SQL.execute (.updateOrder order.status order.version id)
          SQL.enqueue order.fields
          pure order) l := by
  have sql : Sql (fun _ l => shop.At l.mode v done l ∧ l.mode ≠ .closed ∧ True) v done :=
    fun f l at' opened => ⟨at', opened, trivial⟩
  have raised : ∀ {held ws l}, shop.At (.live held ws) v done l → shop.At l.mode v done l ∧
      l.mode ≠ .closed ∧ True := by
    intro held ws l at'
    rw [at'.mode]
    exact ⟨at', nofun, trivial⟩
  rw [shop.wpc_bind]
  refine lock_wp h sql (fun l₁ at₁ => raised at₁) fun row held l₁ found locked at₁ => ?_
  obtain ⟨mem, own⟩ := Table.find?_eq_some.1 found
  subst own
  obtain ⟨versions, made, last, _⟩ := (Book.booked at₁.inv).versions row mem
  obtain ⟨past, rfl⟩ := List.getLast?_eq_some_iff.1 last
  cases step : transition row.toOrder data with
  | error e =>
    simp only [step]
    rw [shop.wpc_bind]
    exact raised at₁
  | ok o =>
    have history : History (past ++ [row.toOrder, o]) := .updated made step
    simp only [step]
    rw [shop.wpc_bind]
    refine (shop.wpc_pure _ _).2 ?_
    rw [shop.wpc_bind]
    refine updateOrder_wp at₁ locked sql fun held₂ l₂ sub₂ at₂ => ?_
    rw [shop.wpc_bind]
    refine enqueue_wp at₂ (fun d => rfl) history (by simp) (.inr rfl) sql ?_
    intro e u held₃ l₃ seesU number sub₃ at₃ enqueued
    have same : row.id = o.id := by
      obtain ⟨_, _, _, _, rfl⟩ := transition_inv step
      rfl
    have writes : [.updateOrder row.id o.status o.version] ++ [.insertEvent e] = updating o e := by
      rw [same]
      rfl
    refine ⟨held₃, updating o e, writes ▸ at₃, fun w sees => ?_⟩
    obtain ⟨guar, event⟩ := enqueued w sees
    have there : w.db.orders.find? row.id = some row :=
      Reading.order.inj (sees.read _ (sub₃ (sub₂ locked)))
    have there' : u.db.orders.find? row.id = some row :=
      Reading.order.inj (seesU.read _ (sub₂ locked))
    obtain ⟨change, stored⟩ :=
      moving (Book.booked sees.inv) there step event (Book.booked seesU.inv) there'
        (.changes guar) number
    obtain ⟨before, after⟩ := earns w row o e event.pending there step stored
    refine ⟨⟨Book.change sees.inv change, .single change, before, after⟩, ⟨e, rfl⟩, e, ?_,
      event.announces⟩
    exact Table.mem_insert_self event.number

/-- `SQL.update` moves the order on from the version it has locked. -/
theorem update_wp {id : Str} {data : Value} (earns : Moving M id data)
    (h : shop.At .closed v done l) :
    shop.wpc M (fun o l => (∃ e, updating o e ∈ l.done) ∧ l.view.db.Tells o) (fun _ _ => True)
      (SQL.update id data) l := by
  have whole :=
    transaction_wp (M := M) (R := fun ws (o : Order) w => (∃ e, ws = updating o e) ∧ w.db.Tells o)
    (F := fun _ _ => True) (fun guar told => ⟨told.1, told.2.grows (.changes guar)⟩)
      (fun _ _ => trivial)
    (fun _ _ _ => trivial) h fun l at' => moving_wp earns at'
  refine shop.wpc_mono whole ?_ fun _ _ _ => trivial
  rintro o l ⟨ws, at', ⟨e, rfl⟩, tells⟩
  refine ⟨⟨e, ?_⟩, tells⟩
  rw [at'.done]
  exact List.mem_append_right _ (List.mem_singleton_self _)

/-! ### The relay's side -/

/-- The payload of a row can be read. -/
lemma Booked.legible {d : Tables} (booked : Booked d) {e : EventRow} (m : e ∈ d.outbox.rows) :
    ∃ event, rowEvent e.payload = .ok event := by
  obtain ⟨_, _, owner⟩ := booked.owned e m
  unfold announced at owner
  split at owner
  · exact ⟨_, ‹_›⟩
  · cases owner

/-- `SQL.pending_one` reads an event of the outbox, and fails only with the database. -/
theorem pendingOne_wp (earns : ∀ w, M.before [] w ∧ M.after [] w) (h : shop.At .closed v done l) :
    shop.wpc M (fun a l => shop.At .closed v (done ++ [[]]) l ∧
        ∀ seq event, a = some (seq, event) → ∃ e ∈ l.view.db.outbox.rows, e.seq = seq ∧
          rowEvent e.payload = .ok event)
      (fun e l => shop.At .closed v done l ∧ ∃ f, e = .sql f) SQL.pendingOne l := by
  unfold SQL.pendingOne
  refine shop.wpc_mono (transaction_wp (R := fun ws a (w : World mariadb) => ws = [] ∧ ∀ seq event,
    a = some (seq, event) →
      ∃ e ∈ w.db.outbox.rows, e.seq = seq ∧ rowEvent e.payload = .ok event)
    (F := fun e _ => ∃ f, e = .sql f) ?_ (fun _ h => h) (fun f _ _ => ⟨f, rfl⟩) h ?_) ?_
      fun _ _ h => h
  · rintro ws a w w' guar ⟨empty, reads⟩
    refine ⟨empty, fun seq event some => ?_⟩
    obtain ⟨e, m, rfl, read⟩ := reads seq event some
    obtain ⟨e', m', seq, _, payload⟩ := (Grows.changes guar).events e m
    exact ⟨e', m', seq, payload ▸ read⟩
  · intro l at'
    rw [shop.wpc_bind]
    have commits : ∀ {l'}, shop.At (.live [] []) v done l' → ∀ w, shop.Sees [] l'.view w →
        shop.Commits M [] w :=
      fun _ w sees => ⟨sees.inv, .refl, (earns w).1, (earns w).2⟩
    refine pending_wp at' (fun f l at' opened => ⟨at', opened, f, rfl⟩) (fun l₁ at₁ => ?_)
      fun e l₁ m at₁ => ?_
    · exact ⟨[], [], at₁, fun w sees => ⟨commits at₁ w sees, rfl, nofun⟩⟩
    · obtain ⟨event, read⟩ := (Book.booked at₁.inv).legible m
      have loaded : SQL.liftPython (I := interface) (loads Hooks.default e.payload) =
          pure event := by
        rw [SQL.liftPython, show loads Hooks.default e.payload = .ok event from read]
        rfl
      rw [shop.wpc_bind, loaded, shop.wpc_pure]
      refine ⟨[], [], at₁, fun w sees => ⟨commits at₁ w sees, rfl, ?_⟩⟩
      rintro seq _ ⟨⟩
      obtain ⟨e', m', same, _, payload⟩ := (Grows.changes sees.guar).events e m
      exact ⟨e', m', same, payload ▸ read⟩
  · rintro a l ⟨ws, at', rfl, reads⟩
    exact ⟨at', reads⟩

/-- `SQL.mark_sent` -/
theorem sent_wp {seq : Int} (earns : ∀ ws w, (ws = [] ∨ ws = [.markSent seq]) →
    M.before ws w ∧ M.after ws (w.commit ws))
    (h : shop.At .closed v done l) :
    shop.wpc M (fun _ l => ∃ ws, shop.At .closed v (done ++ [ws]) l)
      (fun e l => shop.At .closed v done l ∧ ∃ f, e = .sql f)
      (SQL.markSent seq) l := by
  unfold SQL.markSent
  refine shop.wpc_mono (transaction_wp (R := fun _ _ _ => True) (F := fun e _ => ∃ f, e = .sql f)
    (fun _ h => h)
    (fun _ h => h) (fun f _ _ => ⟨f, rfl⟩) h fun l at' => ?_) ?_ fun _ _ h => h
  · refine markSent_wp at' (fun f l at' opened => ⟨at', opened, f, rfl⟩) (fun l₁ at₁ => ?_)
      fun held l₁ at₁ => ?_
    · refine ⟨[], [], at₁, fun w sees => ⟨?_, trivial⟩⟩
      obtain ⟨before, after⟩ := earns [] w (.inl rfl)
      exact ⟨sees.inv, .refl, before, after⟩
    · refine ⟨held, [.markSent seq], at₁, fun w sees => ⟨?_, trivial⟩⟩
      obtain ⟨before, after⟩ := earns [.markSent seq] w (.inr rfl)
      exact ⟨Book.change sees.inv (.sent seq), .single (.sent seq), before, after⟩
  · rintro _ l ⟨ws, at', _⟩
    exact ⟨ws, at'⟩

end DbLab.Mvp.Shop
