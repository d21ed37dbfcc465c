import DbLab.Mvp.Transport
import DbLab.Store.Engine
import DbLab.Store.Table

/-!
# The order tables on a server (`adapters.SQL`)

What the statements of the repository do on InnoDB while others use it. Ids and idempotency keys are
unique, and so are the ids of events. An `INSERT` locks the keys of its row, and fails where one of
them is taken. The number of an event is drawn when its row is inserted and is not given back; an
`UPDATE` locks the row it changes. A plain `SELECT` is the first statement of its transaction, so
what it reads is what was committed last.
-/

namespace DbLab.Mvp.Shop
open DbLab.Py DbLab.Store

/-- A row of `outbox`. -/
structure EventRow where
  seq : Int
  eventId : Str
  payload : Str
  sent : Bool
deriving DecidableEq

/-- A key of one of the tables. -/
inductive Key where
  | order (id : Str)
  | idempotency (key : Str)
  | event (seq : Int)
  | eventId (id : Str)
deriving DecidableEq

/-- What a key reads: a row, or which row it leads to. -/
inductive Reading where
  | order (r : Option OrderRow)
  | holder (id : Option Str)
  | event (e : Option EventRow)
  | number (seq : Option Int)

structure Tables where
  orders : Table fun r : OrderRow => r.id
  outbox : Table EventRow.seq
  nextSeq : Int

inductive Write where
  | insertOrder (r : OrderRow)
  | updateOrder (id status : Str) (version : Int)
  | insertEvent (e : EventRow)
  | markSent (seq : Int)
deriving DecidableEq

def Write.keys : Write → List Key
  | .insertOrder r => [.order r.id, .idempotency r.idempotencyKey]
  | .updateOrder id _ _ => [.order id]
  | .insertEvent e => [.event e.seq, .eventId e.eventId]
  | .markSent seq => [.event seq]

/-- `UPDATE orders SET status=…, version=…` -/
def moved (status : Str) (version : Int) (r : OrderRow) : OrderRow :=
  { r with status := status, version := version }

def marked (e : EventRow) : EventRow := { e with sent := true }

/-- A move keeps the id. -/
lemma moved_id (status : Str) (version : Int) (r : OrderRow) : (moved status version r).id = r.id :=
  rfl

/-- Marking keeps the sequence number. -/
lemma marked_seq (e : EventRow) : (marked e).seq = e.seq := rfl

namespace Tables

/-- The schema `initialize` leaves. -/
def empty : Tables := ⟨.empty, .empty, 1⟩

variable (d : Tables)

/-- The row that an idempotency key leads to. -/
def holder (key : Str) : Option OrderRow := d.orders.rows.find? fun r => r.idempotencyKey = key

/-- The row of an event. -/
def numbered (eventId : Str) : Option EventRow := d.outbox.rows.find? fun e => e.eventId = eventId

def read : Key → Reading
  | .order id => .order (d.orders.find? id)
  | .idempotency key => .holder ((d.holder key).map fun r => r.id)
  | .event seq => .event (d.outbox.find? seq)
  | .eventId id => .number ((d.numbered id).map EventRow.seq)

def apply : Write → Tables
  | .insertOrder r => { d with orders := d.orders.insert r }
  | .updateOrder id status version =>
    { d with orders := d.orders.update id (moved status version) (moved_id status version) }
  | .insertEvent e => { d with outbox := d.outbox.insert e }
  | .markSent seq => { d with outbox := d.outbox.update seq marked marked_seq }

/-- `WHERE sent_at IS NULL ORDER BY seq LIMIT 1` -/
def firstPending : Option EventRow :=
  (d.outbox.rows.filter fun e => !e.sent).foldr
    (fun e least => match least with
      | some l => if l.seq < e.seq then some l else some e
      | none => some e) none

variable {d}

/-- Finding in mapped rows what the map keeps. -/
lemma find_map {R A : Type} {p : R → Bool} {f : R → R} {g : R → A} (hit : ∀ r, p (f r) = p r)
    (value : ∀ r, g (f r) = g r)
    (rs : List R) : ((rs.map f).find? p).map g = (rs.find? p).map g := by
  induction rs with
  | nil => rfl
  | cons r rs ih =>
    rw [List.map_cons, List.find?_cons, List.find?_cons, hit]
    cases p r with
    | true => exact congrArg some (value r)
    | false => exact ih

/-- A row that misses is not found. -/
lemma find_insert {K R : Type} [DecidableEq K] {key : R → K} {t : Table key} {p : R → Bool} {r : R}
    (miss : p r = false) :
    (t.insert r).rows.find? p = t.rows.find? p := by
  rw [Table.insert]
  split
  · rw [List.find?_append, List.find?_singleton, miss, if_neg Bool.false_ne_true, Option.or_none]
  · rfl

/-- An insert under another key keeps the holder. -/
lemma holder_insert {r : OrderRow} {key : Str} (ne : r.idempotencyKey ≠ key)
    {outbox : Table EventRow.seq} {n : Int} :
    Tables.holder ⟨d.orders.insert r, outbox, n⟩ key = d.holder key :=
  find_insert (decide_eq_false ne)

/-- An insert under another id keeps the numbering. -/
lemma numbered_insert {e : EventRow} {id : Str} (ne : e.eventId ≠ id)
    {orders : Table fun r : OrderRow => r.id} {n : Int} :
    Tables.numbered ⟨orders, d.outbox.insert e, n⟩ id = d.numbered id :=
  find_insert (decide_eq_false ne)

/-- A write leaves all keys but its own alone. -/
lemma read_apply {w : Write} {k : Key} (other : k ∉ w.keys) : (d.apply w).read k = d.read k := by
  cases w with
  | insertOrder r =>
    simp only [Write.keys, List.mem_cons, List.not_mem_nil, or_false, not_or] at other
    cases k with
    | order id =>
      have ne : r.id ≠ id := fun e => other.1 (congrArg Key.order e.symm)
      exact congrArg Reading.order (Table.find?_insert_of_ne ne)
    | idempotency key =>
      have ne : r.idempotencyKey ≠ key := fun e => other.2 (congrArg Key.idempotency e.symm)
      exact congrArg (fun x : Option OrderRow => Reading.holder (x.map fun r => r.id))
        (holder_insert ne)
    | event seq => rfl
    | eventId id => rfl
  | updateOrder id status version =>
    simp only [Write.keys, List.mem_cons, List.not_mem_nil, or_false] at other
    cases k with
    | order id' =>
      simp only [apply, read]
      rw [Table.find?_update_of_ne]
      exact fun e => other (congrArg Key.order e.symm)
    | idempotency key =>
      refine congrArg Reading.holder (find_map (fun r => ?_) (fun r => ?_) _)
      all_goals split <;> rfl
    | event seq => rfl
    | eventId id => rfl
  | insertEvent e =>
    simp only [Write.keys, List.mem_cons, List.not_mem_nil, or_false, not_or] at other
    cases k with
    | order id => rfl
    | idempotency key => rfl
    | event seq =>
      have ne : e.seq ≠ seq := fun same => other.1 (congrArg Key.event same.symm)
      exact congrArg Reading.event (Table.find?_insert_of_ne ne)
    | eventId id =>
      have ne : e.eventId ≠ id := fun same => other.2 (congrArg Key.eventId same.symm)
      exact congrArg (fun x : Option EventRow => Reading.number (x.map EventRow.seq))
        (numbered_insert ne)
  | markSent seq =>
    simp only [Write.keys, List.mem_cons, List.not_mem_nil, or_false] at other
    cases k with
    | order id => rfl
    | idempotency key => rfl
    | event seq' =>
      simp only [apply, read]
      rw [Table.find?_update_of_ne]
      exact fun e => other (congrArg Key.event e.symm)
    | eventId id =>
      refine congrArg Reading.number (find_map (fun e => ?_) (fun e => ?_) _)
      all_goals split <;> rfl

end Tables

/-- What a statement replies, what it leaves of the committed data, which keys it locks and what it
writes. It sees `seen`, the committed data with the writes of its transaction. -/
def eval (d seen : Tables) : (q : Query) → Except Failure q.Rows × Tables × List Key × List Write
  | .byKey key => (.ok (seen.holder key), d, [], [])
  | .byId id forUpdate =>
    match seen.orders.find? id with
    | some r => (.ok (some r.toOrder), d, if forUpdate then [.order id] else [], [])
    | none => (.ok none, d, [], [])
  | .insertOrder o key =>
    if (seen.orders.find? o.id).isSome || (seen.holder key).isSome then
      (.error .duplicate, d, [], [])
    else (.ok (), d, [.order o.id, .idempotency key], [.insertOrder ⟨o, key⟩])
  | .insertEvent eventId payload =>
    let next := { d with nextSeq := d.nextSeq + 1 }
    if (seen.numbered eventId).isSome then (.error .duplicate, next, [], [])
    else (.ok (), next, [.event d.nextSeq, .eventId eventId],
      [.insertEvent ⟨d.nextSeq, eventId, payload, false⟩])
  | .updateOrder status version id =>
    match seen.orders.find? id with
    | some _ => (.ok (), d, [.order id], [.updateOrder id status version])
    | none => (.ok (), d, [], [])
  | .pending => (.ok (seen.firstPending.map fun e => (e.seq, e.payload)), d, [], [])
  | .markSent seq =>
    match seen.outbox.find? seq with
    | some e => if e.sent then (.ok (), d, [], []) else (.ok (), d, [.event seq], [.markSent seq])
    | none => (.ok (), d, [], [])

/-- An `INSERT` of an order succeeds exactly if both of its keys are free. -/
lemma eval_insertOrder (d seen : Tables) (o : Order) (key : Str) :
    (seen.orders.find? o.id = none ∧ seen.holder key = none ∧ eval d seen (.insertOrder o key) =
      (.ok (), d, [.order o.id, .idempotency key], [.insertOrder ⟨o, key⟩])) ∨
    eval d seen (.insertOrder o key) = (.error .duplicate, d, [], []) := by
  simp only [eval]
  split
  · exact .inr rfl
  · rename_i free
    rw [Bool.or_eq_true, not_or, Option.not_isSome_iff_eq_none,
      Option.not_isSome_iff_eq_none] at free
    exact .inl ⟨free.1, free.2, rfl⟩

/-- An `INSERT` of an event draws a number in any case, and succeeds exactly if its id is free. -/
lemma eval_insertEvent (d seen : Tables) (eventId payload : Str) :
    (seen.numbered eventId = none ∧ eval d seen (.insertEvent eventId payload) =
      (.ok (), { d with nextSeq := d.nextSeq + 1 }, [.event d.nextSeq, .eventId eventId],
        [.insertEvent ⟨d.nextSeq, eventId, payload, false⟩])) ∨
    eval d seen (.insertEvent eventId payload) =
      (.error .duplicate, { d with nextSeq := d.nextSeq + 1 }, [], []) := by
  simp only [eval]
  split
  · exact .inr rfl
  · rename_i free
    exact .inl ⟨Option.not_isSome_iff_eq_none.1 free, rfl⟩

/-- A statement locks what it writes. -/
lemma eval_locks (q : Query) (d seen : Tables) :
    ∀ w ∈ (eval d seen q).2.2.2, ∀ k ∈ w.keys, k ∈ (eval d seen q).2.2.1 := by
  cases q with
  | byKey key => exact List.forall_mem_nil _
  | byId id forUpdate =>
    simp only [eval]
    split <;> exact List.forall_mem_nil _
  | insertOrder o key =>
    simp only [eval]
    split
    · exact List.forall_mem_nil _
    · simp [Write.keys]
  | insertEvent eventId payload =>
    simp only [eval]
    split
    · exact List.forall_mem_nil _
    · simp [Write.keys]
  | updateOrder status version id =>
    simp only [eval]
    split
    · simp [Write.keys]
    · exact List.forall_mem_nil _
  | pending => exact List.forall_mem_nil _
  | markSent seq =>
    simp only [eval]
    split
    · split
      · exact List.forall_mem_nil _
      · simp [Write.keys]
    · exact List.forall_mem_nil _

/-- A statement leaves the rows alone and may move the counter. -/
lemma eval_leaves (q : Query) (d seen : Tables) :
    (eval d seen q).2.1 = d ∨ (eval d seen q).2.1 = { d with nextSeq := d.nextSeq + 1 } := by
  cases q with
  | byKey key => exact .inl rfl
  | byId id forUpdate =>
    simp only [eval]
    split <;> exact .inl rfl
  | insertOrder o key =>
    simp only [eval]
    split <;> exact .inl rfl
  | insertEvent eventId payload =>
    simp only [eval]
    split <;> exact .inr rfl
  | updateOrder status version id =>
    simp only [eval]
    split <;> exact .inl rfl
  | pending => exact .inl rfl
  | markSent seq =>
    simp only [eval]
    split
    · split <;> exact .inl rfl
    · exact .inl rfl

/-- The database of the shop. -/
abbrev mariadb : Store.Server interface where
  Db := Tables
  Env := Unit
  Key := Key
  Val := Reading
  Write := Write
  read := Tables.read
  apply := Tables.apply
  touched := Write.keys
  runs := fun q d ws r d' ks ws' => (r, d', ks, ws') = eval d (ws.foldl Tables.apply d) q
  acts
    | .uuid4, _, id, _ => IsUuid id
    | .now, _, time, _ => IsTimestamp time
  drifts := fun _ _ => False
  frame := Tables.read_apply
  runs_touched := by
    rintro q d ws r d' ks ws' run w m k touches
    have locks := eval_locks q d (ws.foldl Tables.apply d)
    rw [← run] at locks
    exact locks w m k touches
  runs_read := by
    rintro q d ws r d' ks ws' run k
    have leaves := eval_leaves q d (ws.foldl Tables.apply d)
    rw [← run] at leaves
    rcases leaves with rfl | rfl
    · rfl
    · cases k <;> rfl

end DbLab.Mvp.Shop
