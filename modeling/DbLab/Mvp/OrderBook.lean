import DbLab.Mvp.Consumers
import DbLab.Mvp.OrderServer

/-!
# The book of orders

What transactions on orders come to, one commit after the other: an order is opened with its first
event, moved with its next one, or an event is marked as sent. Between commits the counter of the
events moves. The outbox then holds one event for each version of each order, numbered in the order
of the versions.
-/

namespace DbLab.Mvp.Shop
open DbLab.Py DbLab.Store Relation

variable [Interpreter]

/-- The id and the version of the order in the payload of an event. -/
def announced (payload : Str) : Option (Str × Int) :=
  match rowEvent payload with
  | .ok event =>
    match event.item "order" with
    | .ok order =>
      match order.item "id", order.item "version" with
      | .ok (.str id), .ok (.int version) => some (id, version)
      | _, _ => none
    | .error _ => none
  | .error _ => none

/-- The payload of an event is a version of an order. -/
structure Announces (e : EventRow) (o : Order) : Prop where
  uuid : IsUuid e.eventId
  text : ∃ fields, Written o fields ∧ eventText fields e.eventId = .ok e.payload

variable {d d' : Tables} {row : OrderRow} {e : EventRow} {o : Order} {h : List Order} {id : Str}

/-- The event of a legal order reads back as that order. -/
lemma Announces.read (announces : Announces e o) (history : History h) (m : o ∈ h) :
    ∃ fields, Written o fields ∧
      rowEvent e.payload = .ok (eventWith e.eventId (.ofFields fields) []) := by
  obtain ⟨fields, written, text⟩ := announces.text
  obtain ⟨payload, text', read⟩ := written.read history m announces.uuid
  cases text.symm.trans text'
  exact ⟨fields, written, read⟩

/-- What an event announces is its order's id and version. -/
lemma Announces.announced (announces : Announces e o) (history : History h) (m : o ∈ h) :
    announced e.payload = some (o.id, o.version) := by
  obtain ⟨fields, written, read⟩ := announces.read history m
  have valid := (history.valid o m).fields written.perm
  have order : (eventWith e.eventId (.ofFields fields) []).item "order" = .ok (.ofFields fields) :=
    item_ok.2 ⟨_, rfl, by simp [lookup]⟩
  have idOf : (Value.ofFields fields).item "id" = .ok (.str o.id) := item_ok.2 ⟨_, rfl, valid.id⟩
  have versionOf : (Value.ofFields fields).item "version" = .ok (.int o.version) :=
    item_ok.2 ⟨_, rfl, valid.version⟩
  simp only [Shop.announced, read, order, idOf, versionOf]

/-- The events of an order. -/
def Tables.about (d : Tables) (id : Str) : List EventRow :=
  d.outbox.rows.filter fun e => (announced e.payload).map Prod.fst = some id

/-- An event that is about to be committed: its number was drawn, and number and id are free. -/
structure Enqueued (d : Tables) (e : EventRow) (o : Order) : Prop where
  number : d.outbox.find? e.seq = none
  drawn : e.seq < d.nextSeq
  eventId : d.numbered e.eventId = none
  announces : Announces e o
  pending : e.sent = false

/-- A commit, or a number that is drawn. -/
inductive Change : Tables → Tables → Prop where
  | opened {d : Tables} {row : OrderRow} {e : EventRow} (new : History [row.toOrder])
    (id : d.orders.find? row.id = none) (key : d.holder row.idempotencyKey = none)
      (event : Enqueued d e row.toOrder) :
    Change d { d with orders := d.orders.insert row, outbox := d.outbox.insert e }
  | moved {d : Tables} {row : OrderRow} {o : Order} {e : EventRow} {data : Value}
      (there : d.orders.find? row.id = some row)
    (step : transition row.toOrder data = .ok o) (event : Enqueued d e o)
      (later : ∀ x ∈ d.about row.id, x.seq < e.seq) :
    Change d { d with
      orders := d.orders.update row.id (Shop.moved o.status o.version) (moved_id _ _)
      outbox := d.outbox.insert e }
  | sent {d : Tables} (seq : Int) :
      Change d { d with outbox := d.outbox.update seq marked marked_seq }
  | drew {d : Tables} : Change d { d with nextSeq := d.nextSeq + 1 }

/-- What the tables hold, commit after commit. -/
structure Booked (d : Tables) : Prop where
  keys : (d.orders.rows.map fun r => r.idempotencyKey).Nodup
  drawn : ∀ e ∈ d.outbox.rows, e.seq < d.nextSeq
  versions : ∀ r ∈ d.orders.rows, ∃ h, History h ∧ h.getLast? = some r.toOrder ∧
    (d.about r.id).Forall₂ Announces h
  ordered : ∀ id, (d.about id).Pairwise fun e e' => e.seq < e'.seq
  owned : ∀ e ∈ d.outbox.rows, ∃ r ∈ d.orders.rows, (announced e.payload).map Prod.fst = some r.id

/-! ### Every change keeps the book -/

/-- Which events are about an order. -/
lemma mem_about : e ∈ d.about id ↔
    e ∈ d.outbox.rows ∧ (announced e.payload).map Prod.fst = some id := by
  rw [Tables.about, List.mem_filter, decide_eq_true_eq]

/-- A new event is about the order that it names. -/
lemma about_insert (orders : Table fun r : OrderRow => r.id) (fresh : d.outbox.find? e.seq = none)
    (names : (announced e.payload).map Prod.fst = some id) (id' : Str) :
    ({ d with orders := orders, outbox := d.outbox.insert e } : Tables).about id' =
      d.about id' ++ if id' = id then [e] else [] := by
  rw [Tables.about, Table.insert_rows fresh, List.filter_append]
  refine congrArg (List.append (d.about id')) ?_
  by_cases same : id' = id
  · rw [if_pos same, List.filter_singleton, names, same]
    simp
  · rw [if_neg same, List.filter_singleton, names]
    simp [Ne.symm same]

/-- The row that is found under the id of another is that row. -/
lemma Booked.one (booked : Booked d) {r r' : OrderRow} (m : r ∈ d.orders.rows)
    (m' : r' ∈ d.orders.rows)
    (same : r.idempotencyKey = r'.idempotencyKey) : r = r' :=
  List.inj_on_of_nodup_map booked.keys m m' same

/-- The empty tables are booked. -/
lemma booked_empty : Booked .empty where
  keys := List.nodup_nil
  drawn := nofun
  versions := nofun
  ordered _ := .nil
  owned := nofun

/-- A new order with its first event stays booked. -/
lemma Booked.opened (booked : Booked d) (new : History [row.toOrder])
    (fresh : d.orders.find? row.id = none)
    (key : d.holder row.idempotencyKey = none) (event : Enqueued d e row.toOrder) :
    Booked { d with orders := d.orders.insert row, outbox := d.outbox.insert e } := by
  have names : (announced e.payload).map Prod.fst = some row.id := by
    rw [event.announces.announced new (List.mem_singleton_self _)]
    rfl
  have about := about_insert (d.orders.insert row) event.number names
  have none : d.about row.id = [] := by
    refine List.eq_nil_iff_forall_not_mem.2 fun x m => ?_
    obtain ⟨mx, namesX⟩ := mem_about.1 m
    obtain ⟨r, mr, owner⟩ := booked.owned x mx
    exact Table.find?_eq_none.1 fresh r mr (Option.some.inj (owner.symm.trans namesX))
  have rows : (d.orders.insert row).rows = d.orders.rows ++ [row] := Table.insert_rows fresh
  have events : (d.outbox.insert e).rows = d.outbox.rows ++ [e] := Table.insert_rows event.number
  refine ⟨?_, ?_, ?_, ?_, ?_⟩
  · rw [rows, List.map_append, List.map_singleton]
    refine List.nodup_append.2 ⟨booked.keys, List.nodup_singleton _, ?_⟩
    intro k mk k' mk' same
    obtain ⟨r, mr, rfl⟩ := List.mem_map.1 mk
    rw [List.mem_singleton.1 mk'] at same
    exact absurd (decide_eq_true same) (List.find?_eq_none.1 key r mr)
  · intro x m
    rw [events] at m
    rcases List.mem_append.1 m with m | m
    · exact booked.drawn x m
    · exact List.mem_singleton.1 m ▸ event.drawn
  · intro r m
    rw [rows] at m
    rcases List.mem_append.1 m with m | m
    · obtain ⟨h, history, last, announce⟩ := booked.versions r m
      refine ⟨h, history, last, ?_⟩
      rw [about, if_neg fun same => Table.find?_eq_none.1 fresh r m same, List.append_nil]
      exact announce
    · rw [List.mem_singleton.1 m]
      refine ⟨[row.toOrder], new, rfl, ?_⟩
      rw [about, if_pos rfl, none]
      exact .cons event.announces .nil
  · intro id'
    rw [about]
    split
    · rename_i same
      rw [same, none]
      exact List.pairwise_singleton _ _
    · rw [List.append_nil]
      exact booked.ordered id'
  · intro x m
    rw [events] at m
    rcases List.mem_append.1 m with m | m
    · obtain ⟨r, mr, owner⟩ := booked.owned x m
      exact ⟨r, Table.mem_insert mr, owner⟩
    · rw [List.mem_singleton.1 m]
      exact ⟨row, Table.mem_insert_self fresh, names⟩

/-- A moved row is the order that the transition gives. -/
lemma moved_toOrder {data : Value} (step : transition row.toOrder data = .ok o) :
    (Shop.moved o.status o.version row).toOrder = o := by
  obtain ⟨_, _, _, _, rfl⟩ := transition_inv step
  rfl

/-- The last version is the one with the number of versions. -/
lemma history_length (history : History h) (last : h.getLast? = some o) :
    (h.length : Int) = o.version := by
  have pos : 0 < h.length := List.length_pos_iff.2 fun nil => by
    rw [nil] at last
    cases last
  rw [List.getLast?_eq_getElem?] at last
  have number := history.version _ o last
  omega

/-- A moved order with the event of its move stays booked. -/
lemma Booked.moved (booked : Booked d) {data : Value} (there : d.orders.find? row.id = some row)
    (step : transition row.toOrder data = .ok o) (event : Enqueued d e o)
    (later : ∀ x ∈ d.about row.id, x.seq < e.seq) :
    Booked { d with
      orders := d.orders.update row.id (Shop.moved o.status o.version) (moved_id _ _)
      outbox := d.outbox.insert e } := by
  obtain ⟨mem, _⟩ := Table.find?_eq_some.1 there
  obtain ⟨h, history, last, announce⟩ := booked.versions row mem
  obtain ⟨past, rfl⟩ := List.getLast?_eq_some_iff.1 last
  have next : History (past ++ [row.toOrder, o]) := .updated history step
  have names : (announced e.payload).map Prod.fst = some row.id := by
    rw [event.announces.announced next (by simp)]
    obtain ⟨_, _, _, _, rfl⟩ := transition_inv step
    rfl
  have about :=
    about_insert (d.orders.update row.id (Shop.moved o.status o.version) (moved_id _ _))
      event.number names
  have events : (d.outbox.insert e).rows = d.outbox.rows ++ [e] := Table.insert_rows event.number
  refine ⟨?_, ?_, ?_, ?_, ?_⟩
  · have same : (d.orders.update row.id (Shop.moved o.status o.version) (moved_id _ _)).rows.map
      (fun r => r.idempotencyKey) =
        d.orders.rows.map fun r => r.idempotencyKey := by
      rw [Table.update_rows, List.map_map]
      refine List.map_congr_left fun r _ => ?_
      simp only [Function.comp]
      split <;> rfl
    rw [same]
    exact booked.keys
  · intro x m
    rw [events] at m
    rcases List.mem_append.1 m with m | m
    · exact booked.drawn x m
    · exact List.mem_singleton.1 m ▸ event.drawn
  · intro r m
    rw [Table.update_rows] at m
    obtain ⟨r₀, m₀, rfl⟩ := List.mem_map.1 m
    split
    · rename_i same
      have here : r₀ = row := d.orders.one_row m₀ mem same
      subst here
      refine ⟨past ++ [r₀.toOrder, o], next, ?_, ?_⟩
      · rw [moved_toOrder step]
        simp
      · have id : (Shop.moved o.status o.version r₀).id = r₀.id := rfl
        rw [id, about, if_pos rfl,
          show past ++ [r₀.toOrder, o] = (past ++ [r₀.toOrder]) ++ [o] by simp]
        exact List.rel_append announce (.cons event.announces .nil)
    · rename_i other
      obtain ⟨h, history, last, announce⟩ := booked.versions r₀ m₀
      refine ⟨h, history, last, ?_⟩
      rw [about, if_neg other, List.append_nil]
      exact announce
  · intro id'
    rw [about]
    split
    · rename_i same
      rw [same]
      refine List.pairwise_append.2 ⟨booked.ordered _, List.pairwise_singleton _ _,
        fun x mx y my => ?_⟩
      rw [List.mem_singleton.1 my]
      exact later x mx
    · rw [List.append_nil]
      exact booked.ordered id'
  · have stays : ∀ r ∈ d.orders.rows,
      ∃ r' ∈ (d.orders.update row.id (Shop.moved o.status o.version) (moved_id _ _)).rows,
        r'.id = r.id := by
      intro r mr
      rw [Table.update_rows]
      refine ⟨_, List.mem_map_of_mem mr, ?_⟩
      split <;> rfl
    intro x m
    rw [events] at m
    rcases List.mem_append.1 m with m | m
    · obtain ⟨r, mr, owner⟩ := booked.owned x m
      obtain ⟨r', mr', same⟩ := stays r mr
      exact ⟨r', mr', same ▸ owner⟩
    · obtain ⟨r', mr', same⟩ := stays row mem
      rw [List.mem_singleton.1 m]
      exact ⟨r', mr', same ▸ names⟩

/-- Marking an event leaves the events about an order in place. -/
lemma about_sent (seq : Int) :
    ({ d with outbox := d.outbox.update seq marked marked_seq } : Tables).about id =
    (d.about id).map fun e => if e.seq = seq then marked e else e := by
  rw [Tables.about, Table.update_rows, List.filter_map]
  refine congrArg _ (List.filter_congr fun e _ => ?_)
  simp only [Function.comp]
  split <;> rfl

/-- A marked event announces what it did. -/
lemma Announces.marked (announces : Announces e o) (seq : Int) :
    Announces (if e.seq = seq then Shop.marked e else e) o := by
  split
  · exact ⟨announces.uuid, announces.text⟩
  · exact announces

omit [Interpreter] in
/-- Marking keeps the sequence number. -/
lemma mark_seq (seq : Int) (e : EventRow) :
    (if e.seq = seq then Shop.marked e else e).seq = e.seq := by
  split <;> rfl

omit [Interpreter] in
/-- Marking keeps the payload. -/
lemma mark_payload (seq : Int) (e : EventRow) :
    (if e.seq = seq then Shop.marked e else e).payload = e.payload := by
  split <;> rfl

/-- Marking an event keeps the books. -/
lemma Booked.sent (booked : Booked d) (seq : Int) :
    Booked { d with outbox := d.outbox.update seq Shop.marked Shop.marked_seq } := by
  refine ⟨booked.keys, ?_, ?_, ?_, ?_⟩
  · intro x m
    obtain ⟨x, mx, rfl⟩ := List.mem_map.1 m
    rw [mark_seq]
    exact booked.drawn x mx
  · intro r m
    obtain ⟨h, history, last, announce⟩ := booked.versions r m
    refine ⟨h, history, last, ?_⟩
    rw [about_sent, List.forall₂_map_left_iff]
    exact announce.imp fun _ _ announces => announces.marked seq
  · intro id
    rw [about_sent, List.pairwise_map]
    simp only [mark_seq]
    exact booked.ordered id
  · intro x m
    obtain ⟨x, mx, rfl⟩ := List.mem_map.1 m
    rw [mark_payload]
    exact booked.owned x mx

/-- Every change keeps the books. -/
theorem Booked.change (booked : Booked d) (change : Change d d') : Booked d' := by
  cases change with
  | opened new id key event => exact booked.opened new id key event
  | moved there step event later => exact booked.moved there step event later
  | sent seq => exact booked.sent seq
  | drew =>
    exact ⟨booked.keys, fun e m => Int.lt_add_one_of_le (booked.drawn e m).le, booked.versions,
      booked.ordered, booked.owned⟩

/-! ### What changes leave behind -/

/-- A row that is kept, and may have moved on. -/
def Succeeds (r r' : OrderRow) : Prop :=
  ∃ status version, r' = Shop.moved status version r ∧ r.version ≤ version

omit [Interpreter] in
/-- A row succeeds itself. -/
lemma Succeeds.refl (r : OrderRow) : Succeeds r r := ⟨r.status, r.version, rfl, le_rfl⟩

omit [Interpreter] in
/-- Succession composes. -/
lemma Succeeds.trans {r r' r'' : OrderRow} (h : Succeeds r r') (h' : Succeeds r' r'') :
    Succeeds r r'' := by
  obtain ⟨status, version, rfl, le⟩ := h
  obtain ⟨status', version', rfl, le'⟩ := h'
  exact ⟨status', version', rfl, le.trans le'⟩

/-- An event that is kept, and may have been sent. -/
def Stays (e e' : EventRow) : Prop :=
  e'.seq = e.seq ∧ e'.eventId = e.eventId ∧ e'.payload = e.payload

omit [Interpreter] in
/-- An event stays as it is. -/
lemma Stays.refl (e : EventRow) : Stays e e := ⟨rfl, rfl, rfl⟩

omit [Interpreter] in
/-- Staying composes. -/
lemma Stays.trans {e e' e'' : EventRow} (h : Stays e e') (h' : Stays e' e'') : Stays e e'' :=
  ⟨h'.1.trans h.1, h'.2.1.trans h.2.1, h'.2.2.trans h.2.2⟩

/-- An event that stays announces what it did. -/
lemma Announces.stays {e' : EventRow} (announces : Announces e o) (stays : Stays e e') :
    Announces e' o := by
  obtain ⟨_, same, text⟩ := stays
  refine ⟨same ▸ announces.uuid, ?_⟩
  rw [same, text]
  exact announces.text

/-- Rows stay under their ids and keys and events under their numbers, the events of an order are
only added to, and the counter does not go back. -/
structure Grows (d d' : Tables) : Prop where
  rows : ∀ r ∈ d.orders.rows, ∃ r' ∈ d'.orders.rows, Succeeds r r'
  events : ∀ e ∈ d.outbox.rows, ∃ e' ∈ d'.outbox.rows, Stays e e'
  about : ∀ id, (d.about id).map EventRow.seq <+: (d'.about id).map EventRow.seq
  counter : d.nextSeq ≤ d'.nextSeq

/-- The tables are no smaller than themselves. -/
lemma Grows.refl (d : Tables) : Grows d d :=
  ⟨fun r m => ⟨r, m, .refl r⟩, fun e m => ⟨e, m, .refl e⟩, fun _ => List.prefix_rfl, le_rfl⟩

/-- Growth composes. -/
lemma Grows.trans {d'' : Tables} (h : Grows d d') (h' : Grows d' d'') : Grows d d'' := by
  refine ⟨fun r m => ?_, fun e m => ?_, fun id => (h.about id).trans (h'.about id),
    h.counter.trans h'.counter⟩
  · obtain ⟨r', m', next⟩ := h.rows r m
    obtain ⟨r'', m'', next'⟩ := h'.rows r' m'
    exact ⟨r'', m'', next.trans next'⟩
  · obtain ⟨e', m', stays⟩ := h.events e m
    obtain ⟨e'', m'', stays'⟩ := h'.events e' m'
    exact ⟨e'', m'', stays.trans stays'⟩

/-- Every change only grows the tables. -/
lemma Grows.change (change : Change d d') : Grows d d' := by
  have added : ∀ {orders : Table fun r : OrderRow => r.id} {e : EventRow} (id : Str),
    d.outbox.find? e.seq = none →
      (d.about id).map EventRow.seq <+:
        (({ d with orders := orders, outbox := d.outbox.insert e } : Tables).about id).map
          EventRow.seq := by
    intro orders e id fresh
    rw [Tables.about, Tables.about, Table.insert_rows fresh, List.filter_append, List.map_append]
    exact List.prefix_append _ _
  have kept : ∀ {e : EventRow}, ∀ x ∈ d.outbox.rows, ∃ x' ∈ (d.outbox.insert e).rows, Stays x x' :=
    fun x m => ⟨x, Table.mem_insert m, .refl x⟩
  cases change with
  | opened new fresh key event =>
    exact ⟨fun r m => ⟨r, Table.mem_insert m, .refl r⟩, kept,
      fun id => added id event.number, le_rfl⟩
  | @moved row o e data there step event later =>
    refine ⟨fun r m => ?_, kept, fun id => added id event.number, le_rfl⟩
    refine ⟨_, List.mem_map_of_mem m, ?_⟩
    split
    · rename_i same
      have here : r = row := d.orders.one_row m (Table.find?_eq_some.1 there).1 same
      subst here
      refine ⟨_, _, rfl, ?_⟩
      obtain ⟨_, _, _, _, rfl⟩ := transition_inv step
      exact (Int.lt_succ r.version).le
    · exact .refl r
  | sent seq =>
    refine ⟨fun r m => ⟨r, m, .refl r⟩, fun e m => ⟨_, List.mem_map_of_mem m, ?_⟩,
      fun id => ?_, le_rfl⟩
    · split
      · exact ⟨rfl, rfl, rfl⟩
      · exact .refl e
    · rw [about_sent, List.map_map]
      refine (congrArg (List.map · (d.about id)) (funext fun e => ?_)).subst List.prefix_rfl
      exact (mark_seq seq e).symm
  | drew =>
    exact ⟨fun r m => ⟨r, m, .refl r⟩, fun e m => ⟨e, m, .refl e⟩, fun _ => List.prefix_rfl,
      (Int.lt_succ _).le⟩

/-- Any number of changes only grow the tables. -/
lemma Grows.changes (changes : ReflTransGen Change d d') : Grows d d' := by
  induction changes with
  | refl => exact .refl d
  | tail _ change ih => exact ih.trans (.change change)

/-- Any number of changes keeps the books. -/
lemma Booked.changes (booked : Booked d) (changes : ReflTransGen Change d d') : Booked d' := by
  induction changes with
  | refl => exact booked
  | tail _ change ih => exact ih.change change

/-- What one change after the other makes of the empty tables. -/
def Book (d : Tables) : Prop := ReflTransGen Change .empty d

/-- Tables that the changes reach are booked. -/
lemma Book.booked (book : Book d) : Booked d := booked_empty.changes book

/-- One more change reaches one more book. -/
lemma Book.change (book : Book d) (change : Change d d') : Book d' := book.tail change

/-- An order that has not moved has no new events. -/
lemma Grows.steady (grows : Grows d d') (booked : Booked d) (booked' : Booked d')
    (there : row ∈ d.orders.rows)
    (still : row ∈ d'.orders.rows) :
    (d.about row.id).map EventRow.seq = (d'.about row.id).map EventRow.seq := by
  refine (grows.about row.id).eq_of_length ?_
  obtain ⟨h, history, last, announce⟩ := booked.versions row there
  obtain ⟨h', history', last', announce'⟩ := booked'.versions row still
  have same := (history_length history last).trans (history_length history' last').symm
  rw [List.length_map, List.length_map, announce.length_eq, announce'.length_eq]
  exact_mod_cast same

end DbLab.Mvp.Shop
