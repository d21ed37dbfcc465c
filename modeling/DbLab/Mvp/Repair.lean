import DbLab.Mvp.Quarantine
import DbLab.Mvp.Storefront
import DbLab.Mvp.Transport

/-!
# Repair (`message_safety.repair_event`)

A quarantined message is never sent again. Its key leads to a fixture of the run, and what is sent
is the row that the database holds of it now, under an id made from the quarantine record and the
row.
-/

namespace DbLab.Mvp.Message
open DbLab.Py DbLab.Store

/-- `str(uuid.uuid5(uuid.NAMESPACE_URL, name))` -/
structure Uuid5 where
  ofUrl : Str → Str
  uuid : ∀ name, IsUuid (ofUrl name)

/-- `b.decode("ascii")` -/
def decodeAscii (b : Bytes) : Except Exn Str :=
  if b.all fun c => c < 128 then .ok (b.map UInt8.toNat) else .error .unicodeError

def outsideAllowlist : Raised := .python (.valueError "Repair outside this run's fixture allowlist")
def fixtureMissing : Raised := .python (.valueError "Authoritative fixture missing; repair refused")

/-- `SQL.lookup_key` -/
def lookupKey (key : Str) : Repo (Option Order) :=
  transaction do
    let row ← SQL.execute (.byKey key)
    pure (row.map OrderRow.toOrder)

/-- `SQL.lookup_key` on the rows of `orders`. -/
def lookupRow (rows : List OrderRow) (key : Str) : Except Raised (Option Order) :=
  (Client.eval serveOrders (lookupKey key) rows).1

/-- The lookup finds the row of the key. -/
lemma lookupRow_eq (rows : List OrderRow) (key : Str) :
    lookupRow rows key = .ok ((rows.find? fun r => r.idempotencyKey = key).map OrderRow.toOrder) :=
      rfl

/-- ASCII bytes are their own text. -/
lemma decodeAscii_inv {b : Bytes} {s : Str} (h : decodeAscii b = .ok s) : b = s.map .ofNat := by
  unfold decodeAscii at h
  split at h
  · cases h
    rw [List.map_map]
    exact (List.map_id b).symm.trans (List.map_congr_left fun c _ => (UInt8.ofNat_toNat).symm)
  · cases h

section
variable [Interpreter]

/-- `repair` in the event -/
def repairOf (dlqId : Str) (scope : Scope) : List (String × Value) :=
  [("repair", .ofFields [("dlq_id", .str dlqId), ("basis", .str (str "current_sql")),
    ("run_id", .str scope.runId)])]

/-- `repair_event` -/
def repairEvent (uuid5 : Uuid5) (record : Value) (scope : Scope) (topicId : Str)
    (allowed : List (Str × Str))
    (rows : List OrderRow) : Except Raised Value := do
  let (key, _) ← (checkedQuarantine record scope topicId).mapError .python
  let orderId ← identifier (.str (← (decodeAscii key).mapError .python))
  match lookup orderId allowed with
  | none => throw outsideAllowlist
  | some expectedKey =>
    if !(scope.runId ++ str "-").isPrefixOf expectedKey then throw outsideAllowlist
    else match ← lookupRow rows expectedKey with
      | none => throw fixtureMissing
      | some original =>
        if original.id ≠ orderId then throw fixtureMissing
        else match record.item "dlq_id" with
          | .ok (.str dlqId) => do
            let basis ← (canonical (.ofFields original.fields)).mapError .python
            let event :=
              eventWith (uuid5.ofUrl (dlqId ++ digest basis)) (.ofFields original.fields)
                (repairOf dlqId scope)
            let _ ← validateEvent event
            return event
          | .ok _ => throw (.python .typeError)
          | .error e => throw (.python e)

/-- What is repaired: the row of a fixture of the run, for a record of its quarantine. -/
structure Repaired (uuid5 : Uuid5) (record : Value) (scope : Scope) (topicId : Str)
    (allowed : List (Str × Str))
    (rows : List OrderRow) (event : Value) (dlqId : Str) (row : OrderRow) : Prop where
  checked : ∃ raw, checkedQuarantine record scope topicId = .ok (row.id.map .ofNat, raw)
  allowed : lookup row.id allowed = some row.idempotencyKey
  run : (scope.runId ++ str "-") <+: row.idempotencyKey
  current : rows.find? (fun r => r.idempotencyKey = row.idempotencyKey) = some row
  identity : record.item "dlq_id" = .ok (.str dlqId)
  made : ∃ basis, canonical (.ofFields row.fields) = .ok basis ∧
    event = eventWith (uuid5.ofUrl (dlqId ++ digest basis)) (.ofFields row.fields)
      (repairOf dlqId scope)
  valid : validateEvent event = .ok (.ofFields row.fields)

/-- What `validate_event` returns of an event is its order. -/
lemma validateEvent_order {eventId : Str} {order v : Value} {extra : List (String × Value)}
    (h : validateEvent (eventWith eventId order extra) = .ok v) : v = order := by
  obtain ⟨id, ms, o, rfl, valid⟩ := validateEvent_inv h
  obtain ⟨es, e, _, _, there⟩ := valid.members
  cases e
  simpa [lookup] using there.symm

variable {uuid5 : Uuid5} {record : Value} {scope : Scope} {topicId : Str}
  {allowed : List (Str × Str)}
variable {rows : List OrderRow} {event : Value}

/-- Whatever the record holds, `repair_event` raises or returns a valid event for the current row of
a fixture. -/
theorem repairEvent_inv (h : repairEvent uuid5 record scope topicId allowed rows = .ok event) :
    ∃ dlqId row, Repaired uuid5 record scope topicId allowed rows event dlqId row := by
  obtain ⟨⟨key, raw⟩, checked, h⟩ := bind_ok.1 h
  obtain ⟨text, ascii, h⟩ := bind_ok.1 h
  obtain ⟨orderId, named, h⟩ := bind_ok.1 h
  obtain ⟨same, uuid⟩ := identifier_ok.1 named
  cases same
  rw [mapError_ok] at checked ascii
  split at h
  · cases h
  · rename_i expectedKey listed
    split at h
    · cases h
    rename_i run
    obtain ⟨found, current, h⟩ := bind_ok.1 h
    split at h
    · cases h
    · rename_i original
      split at h
      · cases h
      rename_i own
      split at h
      · rename_i dlqId identity
        obtain ⟨basis, text, h⟩ := bind_ok.1 h
        obtain ⟨order, valid, h⟩ := bind_ok.1 h
        cases h
        rw [lookupRow_eq, Except.ok.injEq, Option.map_eq_some_iff] at current
        obtain ⟨row, found, rfl⟩ := current
        have key : row.idempotencyKey = expectedKey := by simpa using List.find?_some found
        have prefixed : (scope.runId ++ str "-") <+: expectedKey := by
          rw [Bool.not_eq_true, Bool.not_eq_false'] at run
          exact List.isPrefixOf_iff_prefix.1 run
        cases key
        rw [not_not] at own
        cases own
        refine ⟨dlqId, row, ⟨raw, ?_⟩, listed, prefixed, found, identity,
          ⟨basis, mapError_ok.1 text, rfl⟩, ?_⟩
        · rw [checked, decodeAscii_inv ascii]
        · rw [valid, validateEvent_order valid]
      · cases h
      · cases h

/-! ### The ids of repairs -/

/-- The fields of an order are plain. -/
lemma order_plain (o : Order) : Plain 1 (.ofFields o.fields) := by
  refine .dict ?_ fun e m => ?_
  · exact o.members_keys
  · simp only [Order.fields, List.map_cons, List.map_nil, List.mem_cons, List.not_mem_nil,
      or_false] at m
    rcases m with rfl | rfl | rfl | rfl | rfl | rfl | rfl | rfl
    · exact .str
    · exact .str
    · exact .int
    · exact .int
    · exact .int
    · exact .str
    · exact .int
    · exact .str

/-- The members of an order tell which it is. -/
lemma order_of_members {o o' : Order} (perm : o.members.Perm o'.members) : o = o' := by
  have fields : ∀ k, lookup k o.members = lookup k o'.members :=
    fun k => lookup_perm perm o.members_keys
  have id := fields (str "id")
  have item := fields (str "item")
  have quantity := fields (str "quantity")
  have unitPrice := fields (str "unit_price")
  have total := fields (str "total")
  have status := fields (str "status")
  have version := fields (str "version")
  have createdAt := fields (str "created_at")
  simp [Order.members, Order.fields,
    lookup] at id item quantity unitPrice total status version createdAt
  cases o
  cases o'
  rw [Order.mk.injEq]
  exact ⟨id, item, quantity, unitPrice, total, status, version, createdAt⟩

/-- The text of an order tells which it is. -/
theorem canonical_order_injective {o o' : Order} {b : Bytes}
    (h : canonical (.ofFields o.fields) = .ok b)
    (h' : canonical (.ofFields o'.fields) = .ok b) : o = o' := by
  obtain ⟨t, text, bytes⟩ := bind_ok.1 h
  obtain ⟨t', text', bytes'⟩ := bind_ok.1 h'
  cases encode_injective bytes bytes'
  have limit : 1 ≤ Interpreter.recursionLimit := le_trans (by decide) Interpreter.recursionLimit_ge
  have one := (order_plain o).unique (order_plain o') limit text text' (encode_inv bytes)
  have same : Message.canonicalDump.order o.members = Message.canonicalDump.order o'.members := by
    have whole : Value.dict (Message.canonicalDump.order
      (Value.reorderDict Message.canonicalDump o.members)) =
        .dict (Message.canonicalDump.order (Value.reorderDict Message.canonicalDump o'.members)) :=
        one
    rw [reorderDict_members o (List.Perm.refl _),
      reorderDict_members o' (List.Perm.refl _)] at whole
    exact Value.dict.inj whole
  exact order_of_members ((order_perm _ o.members).symm.trans (same ▸ order_perm _ o'.members))

/-- Two repairs have one id exactly if the quarantine records have one and the rows are the same,
unless the names or the texts of the rows collide. -/
theorem Repaired.event_id (width : ∀ b, (Interpreter.sha256 b).length = 64)
    {record record' event event' : Value}
    {allowed allowed' : List (Str × Str)} {rows rows' : List OrderRow} {dlqId dlqId' : Str}
    {row row' : OrderRow}
    (h : Repaired uuid5 record scope topicId allowed rows event dlqId row)
    (h' : Repaired uuid5 record' scope topicId allowed' rows' event' dlqId' row') :
    ∃ basis basis', canonical (.ofFields row.fields) = .ok basis ∧
      canonical (.ofFields row'.fields) = .ok basis' ∧
        ((digest basis = digest basis' → basis = basis') →
          (uuid5.ofUrl (dlqId ++ digest basis) = uuid5.ofUrl (dlqId' ++ digest basis') →
            dlqId ++ digest basis = dlqId' ++ digest basis') →
        (event.item "event_id" = event'.item "event_id" ↔
          dlqId = dlqId' ∧ row.toOrder = row'.toOrder)) := by
  obtain ⟨basis, text, rfl⟩ := h.made
  obtain ⟨basis', text', rfl⟩ := h'.made
  have id : ∀ (eventId : Str) (order : Value) (extra : List (String × Value)),
      (eventWith eventId order extra).item "event_id" = .ok (.str eventId) := by
    intro eventId order extra
    simp [eventWith, Value.ofFields, Value.item, lookup]
  refine ⟨basis, basis', text, text', fun sha uuid => ?_⟩
  rw [id, id, Except.ok.injEq, Value.str.injEq]
  constructor
  · intro same
    have names := uuid same
    obtain ⟨dlq, digests⟩ := List.append_inj' names ((width basis).trans (width basis').symm)
    exact ⟨dlq, canonical_order_injective text (sha digests ▸ text')⟩
  · rintro ⟨rfl, order⟩
    rw [order, text', Except.ok.injEq] at text
    rw [text]

end

end DbLab.Mvp.Message
