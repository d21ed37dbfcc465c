import DbLab.Mvp.Events
import DbLab.Mvp.Snapshot
import DbLab.Py.Float
import DbLab.Store.Drive

/-!
# Reading one order (`core.Storefront.detail`)

The cache is asked first and believed only where what it holds is a valid order under the requested
id. Whatever it holds, and however it fails, the answer is otherwise the row of the database.
-/

namespace DbLab.Mvp
open DbLab.Py DbLab.Store

/-- `ORDER_FIELDS` -/
def orderFields : List String :=
  ["id", "item", "quantity", "unit_price", "total", "status", "version", "created_at"]

/-- A database that answers the statements that read one order. -/
def serveOrders : Handler interface (List OrderRow)
  | .connect, rows | .commit, rows | .rollback, rows => (.ok (), rows)
  | .sql (.byId id _), rows => (.ok ((rows.find? fun r => r.id = id).map OrderRow.toOrder), rows)
  | .sql (.byKey key), rows => (.ok (rows.find? fun r => r.idempotencyKey = key), rows)
  | .sql (.insertOrder _ _), rows | .sql (.insertEvent _ _), rows | .sql (.updateOrder _ _ _), rows
  | .sql .pending, rows | .sql (.markSent _), rows => (.error .lost, rows)
  | .close, rows => ((), rows)
  | .act _, rows => ([], rows)

/-- `SQL.get` on the rows of `orders`. -/
def getOrder (rows : List OrderRow) (orderId : Str) : Except Raised (Option Order) :=
  (Client.eval serveOrders (SQL.get orderId) rows).1

/-- The order is the row with its id. -/
lemma getOrder_eq (rows : List OrderRow) (orderId : Str) :
    getOrder rows orderId = .ok ((rows.find? fun r => r.id = orderId).map OrderRow.toOrder) := rfl

section
variable [Interpreter]

/-- `Cache.get`, for what the Redis client returns or raises. -/
def cacheGet (reply : Except Raised (Option Str)) : Except Raised Value := do
  let order ← match ← reply with
    | some raw => (loads Hooks.default raw).mapError .python
    | none => pure .null
  let text ← (dumps ⟨false, false, false⟩ order).mapError .python
  let _ ← (encode text).mapError .python
  return order

/-- The event that a cached object is checked in. -/
def cachedEvent (orderId : Str) (cached : Value) : Value :=
  .ofFields [("schema_version", .int 1), ("event_id", .str orderId), ("order", cached)]

/-- The `try` block of `detail` that reads the cache. -/
def readCache (orderId : Str) (reply : Except Raised (Option Str)) : Except Raised (Option Value) :=
  do
  let cached ← cacheGet reply
  match cached with
  | .null => return none
  | _ =>
    let _ ← validateEvent (cachedEvent orderId cached)
    let id ← (cached.item "id").mapError .python
    let whole := match cached with
      | .dict ms => hasKeys orderFields ms
      | _ => false
    if !id.eq (.str orderId) || !whole then throw (.python (.valueError "invalid cache payload"))
    else return some cached

/-- What `detail` returns. -/
structure Detail where
  order : Value
  source : String
  cache : String

/-- `detail`, given what the cache, the repository and the second call of the cache return or
raise. -/
def detail (orderId : Str) (fresh : Bool) (reply : Except Raised (Option Str))
    (row : Except Raised (Option Order))
    (put : Except Raised Unit) : Except Raised Detail := do
  let _ ← identifier (.str orderId)
  let fromRow (state : String) : Except Raised Detail := do
    match ← row with
    | none => throw (.problem 404 "order_not_found")
    | some order =>
      return ⟨.ofFields order.fields, "mariadb",
        match put with | .ok _ => state | .error _ => "unavailable"⟩
  if fresh then fromRow "bypassed"
  else match readCache orderId reply with
    | .ok (some cached) => return ⟨cached, "redis", "hit"⟩
    | .ok none => fromRow "miss"
    | .error _ => fromRow "unavailable_or_invalid"

/-- A cached object that `detail` may return: exactly the fields of an order, the requested id, and
valid. -/
structure ValidCached (orderId : Str) (cached : Value) (ms : Fields) : Prop where
  dict : cached = .dict ms
  keys : (orderFields.map str).Perm (ms.map Prod.fst)
  id : lookup (str "id") ms = some (.str orderId)
  valid : ∃ o, ValidEvent (cachedEvent orderId cached) orderId ms o

/-- The cache holds a valid object for the order. -/
def Cached (orderId : Str) (reply : Except Raised (Option Str)) (cached : Value) : Prop :=
  cacheGet reply = .ok cached ∧ ∃ ms, ValidCached orderId cached ms

/-- A valid event around a cached value holds the order asked for. -/
lemma cachedEvent_order {orderId : Str} {cached : Value} {eventId : Str} {ms : Fields} {o : Order}
    (valid : ValidEvent (cachedEvent orderId cached) eventId ms o) :
    cached = .dict ms ∧ eventId = orderId := by
  obtain ⟨es, e, _, id, order⟩ := valid.members
  cases e
  simp [lookup] at id order
  exact ⟨order, id.symm⟩

/-- When the cache answers. -/
theorem readCache_some {orderId : Str} {reply : Except Raised (Option Str)} {cached : Value} :
    readCache orderId reply = .ok (some cached) ↔ Cached orderId reply cached := by
  constructor
  · intro h
    obtain ⟨v, got, h⟩ := bind_ok.1 h
    split at h
    · cases h
    · obtain ⟨order, accepted, h⟩ := bind_ok.1 h
      obtain ⟨eventId, ms, o, _, valid⟩ := validateEvent_inv accepted
      obtain ⟨rfl, rfl⟩ := cachedEvent_order valid
      obtain ⟨id, hid, h⟩ := bind_ok.1 h
      simp only at h
      split_ifs at h with good
      · cases h
        simp only [Bool.or_eq_true, Bool.not_eq_true', not_or, Bool.not_eq_false] at good
        obtain ⟨same, whole⟩ := good
        rw [eq_str_iff.1 same, Value.item, valid.order.id] at hid
        refine ⟨got, ms, rfl, hasKeys_perm (by decide) whole, ?_, o, valid⟩
        rw [valid.order.id]
        exact congrArg some (Except.ok.inj hid)
  · rintro ⟨got, ms, rfl, keys, id, o, valid⟩
    have whole : hasKeys orderFields ms = true := hasKeys_ok (by decide) keys
    rw [readCache, got, ok_bind]
    simp only [valid.validateEvent, ok_bind, Value.item, id, Except.mapError, whole, eq_str]
    simp
    rfl

/-- With a valid id, `detail` returns what the cache holds if that is valid, and else the row of the
database, or raises what the database raises. -/
theorem detail_eq {orderId : Str} (uuid : IsUuid orderId) (fresh : Bool)
    (reply : Except Raised (Option Str))
    (row : Except Raised (Option Order)) (put : Except Raised Unit) :
    (fresh = false ∧ ∃ cached, Cached orderId reply cached ∧
      detail orderId fresh reply row put = .ok ⟨cached, "redis", "hit"⟩) ∨
        (¬(fresh = false ∧ ∃ cached, Cached orderId reply cached) ∧ ∃ state,
        detail orderId fresh reply row put = (do
        match ← row with
        | none => throw (.problem 404 "order_not_found")
        | some order => return ⟨.ofFields order.fields, "mariadb", state⟩)) := by
  have id : identifier (.str orderId) = .ok orderId := identifier_ok.2 ⟨rfl, uuid⟩
  rw [detail, id, ok_bind]
  cases fresh with
  | true => exact .inr ⟨fun h => Bool.noConfusion h.1, _, rfl⟩
  | false =>
    cases read : readCache orderId reply with
    | error e =>
      refine .inr ⟨?_, _, rfl⟩
      rintro ⟨_, cached, holds⟩
      cases (readCache_some.2 holds).symm.trans read
    | ok hit =>
      cases hit with
      | none =>
        refine .inr ⟨?_, _, rfl⟩
        rintro ⟨_, cached, holds⟩
        cases (readCache_some.2 holds).symm.trans read
      | some cached => exact .inl ⟨rfl, cached, readCache_some.1 read, rfl⟩

/-- `detail` answers with a valid cached object of the order or with its row, and raises only that
there is neither. A text that is no id is refused whatever the cache holds. -/
theorem detail_authoritative (rows : List OrderRow) (orderId : Str) (fresh : Bool)
    (reply : Except Raised (Option Str))
    (put : Except Raised Unit) :
    (IsUuid orderId →
      (∀ d, detail orderId fresh reply (getOrder rows orderId) put = .ok d →
        (d.source = "redis" ∧ fresh = false ∧ Cached orderId reply d.order) ∨
          (d.source = "mariadb" ∧ ∃ r ∈ rows, r.id = orderId ∧ d.order = .ofFields r.fields)) ∧
      ∀ e, detail orderId fresh reply (getOrder rows orderId) put = .error e ↔
        e = .problem 404 "order_not_found" ∧ (∀ r ∈ rows, r.id ≠ orderId) ∧
          ¬(fresh = false ∧ ∃ cached, Cached orderId reply cached)) ∧
    (¬IsUuid orderId →
      detail orderId fresh reply (getOrder rows orderId) put =
        .error (.problem 400 "invalid_order_id")) := by
  refine ⟨fun uuid => ?_, fun not => ?_⟩
  · rcases detail_eq uuid fresh reply (getOrder rows orderId) put with
      ⟨cachedRead, cached, holds, run⟩ | ⟨uncached, state, run⟩
    · rw [run]
      refine ⟨fun d e => ?_, fun e =>
        ⟨nofun, fun ⟨_, _, uncached⟩ => absurd ⟨cachedRead, cached, holds⟩ uncached⟩⟩
      cases e
      exact .inl ⟨rfl, cachedRead, holds⟩
    · rw [run, getOrder_eq]
      cases found : rows.find? fun r => r.id = orderId with
      | none =>
        have absent : ∀ r ∈ rows, r.id ≠ orderId := by simpa using found
        refine ⟨nofun, fun e => ⟨fun h => ?_, fun ⟨h, _, _⟩ => by rw [h]; rfl⟩⟩
        cases h
        exact ⟨rfl, absent, uncached⟩
      | some r =>
        have mem := List.mem_of_find?_eq_some found
        have same : r.id = orderId := by simpa using List.find?_some found
        refine ⟨fun d e => ?_, fun e => ⟨nofun, fun ⟨_, absent, _⟩ => absurd same (absent r mem)⟩⟩
        cases e
        exact .inr ⟨rfl, r, mem, same, rfl⟩
  · have refused : identifier (.str orderId) = .error (.problem 400 "invalid_order_id") :=
      if_neg not
    rw [detail, refused]
    rfl

end

/-- An order as it is cached, and as a row. -/
def cup : OrderRow where
  id := str "00000000-0000-4000-8000-000000000002"
  item := str "cup"
  quantity := 2
  unitPrice := 3
  total := 6
  status := str "created"
  version := 1
  createdAt := str "2024-01-01T00:00:00.000+00:00"
  idempotencyKey := str "k"

section
attribute [local instance] integral

/-- `detail_authoritative` where the cache holds no object, and for a text that is no id. -/
theorem detail_authoritative_cup :
    (∀ d, detail cup.id false (.ok (some (str "[]"))) (getOrder [cup] cup.id) (.ok ()) = .ok d →
      (d.source = "redis" ∧ false = false ∧ Cached cup.id (.ok (some (str "[]"))) d.order) ∨
        (d.source = "mariadb" ∧ ∃ r ∈ [cup], r.id = cup.id ∧ d.order = .ofFields r.fields)) ∧
    detail (str "cup") false (.ok none) (getOrder [cup] (str "cup")) (.ok ()) =
      .error (.problem 400 "invalid_order_id") :=
  ⟨((detail_authoritative [cup] cup.id false _ _).1 (by decide +kernel)).1,
    (detail_authoritative [cup] (str "cup") false _ _).2 (by decide +kernel)⟩

end

end DbLab.Mvp
