import DbLab.Mvp.HttpPolicy
import DbLab.Mvp.Storefront
import DbLab.Mvp.Transport
import DbLab.Mvp.Outbox

/-!
# The consumers of an order

An order that the API takes is read by four programs: the projection, the message drills, the cache
of the storefront and the search. Each has a check of its own, and no version of such an order fails
one.
-/

namespace DbLab.Mvp
open DbLab.Py

section Consumers
variable [Interpreter]

/-! ### `Search.find` -/

namespace Search

def incomplete : Raised := .problem 503 "elasticsearch_search_incomplete"

/-- No shard has failed, and the search was not cut short. -/
def wholeSearch (data : Fields) : Bool :=
  match Fields.getD data "timed_out" .null, Fields.getD data "_shards" (.dict []) with
  | .bool false, .dict shards =>
    match Fields.getD shards "failed" .null with
    | .int failed => failed = 0
    | _ => false
  | _, _ => false

/-- `hits` and the hits in it. -/
def hitsOf (data : Fields) : Except Raised (Fields × List Value) :=
  match Fields.getD data "hits" .null with
  | .dict hits =>
    match Fields.getD hits "hits" .null with
    | .list found => if 50 < found.length then .error incomplete else .ok (hits, found)
    | _ => .error incomplete
  | _ => .error incomplete

/-- `total.get("relation") in (None, "eq", "gte")` -/
def knownRelation : Value → Bool
  | .null => true
  | v => v.oneOf ["eq", "gte"]

/-- The total of a search, as it is returned. -/
def totalOf (hits : Fields) (found : Nat) : Except Raised Value :=
  match Fields.getD hits "total" .null with
  | .dict total =>
    match Fields.getD total "value" .null with
    | .int count =>
      let relation := Fields.getD total "relation" .null
      if count < found || !knownRelation relation then .error incomplete
      else .ok (.ofFields [("value", .int count), ("relation", if relation.truthy then relation
        else .str (str "eq"))])
    | _ => .error incomplete
  | .int count => if count < found then .error incomplete else .ok (.int count)
  | _ => .error incomplete

/-- `except (Problem, ValueError)` -/
def refused : Raised → Raised
  | .problem _ _ => incomplete
  | .python e => if e.isValueError then incomplete else .python e
  | e => e

/-- The checks of one hit. -/
def checkHit (hit : Value) : Except Raised Value :=
  match hit with
  | .dict hs =>
    match Fields.getD hs "_source" .null with
    | .dict ms =>
      if !hasKeys orderFields ms ||
        !(Fields.getD hs "_id" .null).eq (Fields.getD ms "id" .null) then
        .error (.python (.valueError "invalid search projection"))
      else do
        let validated ← validateEvent
          (.ofFields [("schema_version", .int 1), ("event_id", Fields.getD ms "id" .null),
            ("order", .dict ms)])
        match validated.item "created_at" with
        | .ok (.str createdAt) => do
          let _ ← (encode createdAt).mapError .python
          pure validated
        | .ok _ => .error (.python .attributeError)
        | .error e => .error (.python e)
    | _ => .error (.python (.valueError "invalid search projection"))
  | _ => .error (.python (.valueError "invalid search projection"))

/-- What `find` returns. -/
structure Found where
  orders : List Value
  total : Value

/-- `find`, of what the server answers: a parsed body, or none where it is no JSON -/
def find (reply : Option Value) : Except Raised Found :=
  match reply with
  | some (.dict data) => do
    if !wholeSearch data then .error incomplete
    else do
      let (hits, found) ← hitsOf data
      let total ← totalOf hits found.length
      let orders ← (found.mapM checkHit).mapError refused
      pure ⟨orders, total⟩
  | _ => .error incomplete

/-- A reply that is complete, and its hits. -/
def Complete (data : Fields) (found : List Value) : Prop :=
  wholeSearch data = true ∧ ∃ hits total, hitsOf data = .ok (hits, found) ∧
    totalOf hits found.length = .ok total

/-- A hit is the document of a version: its source has the members of the version. -/
def HitOf (o : Order) (hit : Value) : Prop :=
  ∃ hs ms, hit = .dict hs ∧ lookup (str "_id") hs = some (.str o.id) ∧
    lookup (str "_source") hs = some (.dict ms) ∧ ms.Perm o.members

/-- `hit.get("_source")` -/
def source : Value → Value
  | .dict hs => Fields.getD hs "_source" .null
  | _ => .null

end Search

/-! ### The orders of the API -/

/-- A version of an order: a body that was accepted, and transitions. -/
inductive Made : Order → Prop where
  | created {raw : Bytes} {data : Value} {draft : Draft} {id createdAt : Str}
      (body : Http.decodeJson raw = .ok data)
    (allowed : Http.bodyFields data ["item", "quantity", "unit_price"] = .ok ())
      (input : createInput data = .ok draft)
    (uuid : IsUuid id) (time : IsTimestamp createdAt) : Made (newOrder draft id createdAt)
  | updated {o o' : Order} {data : Value} (before : Made o)
      (step : transition o data = .ok o') : Made o'

/-- An order that was made has a history. -/
lemma Made.history {o : Order} (made : Made o) : ∃ past, History (past ++ [o]) := by
  induction made with
  | created _ _ input uuid time => exact ⟨[], .created input uuid time⟩
  | @updated o o' data _ step ih =>
    obtain ⟨past, before⟩ := ih
    have next := History.updated before step
    rw [List.append_cons] at next
    exact ⟨past ++ [o], next⟩

/-- The fields of a new order are its fields in another order. -/
lemma newFields_perm (o : Order) : o.newFields.Perm o.fields := by
  -- the id moves to the front, and the total before the status
  have total :=
    @List.perm_middle _ ("total", Value.int o.total) [("status", .str o.status),
      ("version", .int o.version)]
    [("created_at", .str o.createdAt)]
  have id := @List.perm_middle _ ("id", Value.str o.id)
    [("item", .str o.item), ("quantity", .int o.quantity), ("unit_price", .int o.unitPrice)]
    [("status", .str o.status), ("version", .int o.version), ("total", .int o.total),
      ("created_at", .str o.createdAt)]
  exact id.trans ((total.append_left _).cons _)

/-- The order of an envelope: as `new_order` has written it, or as `SELECT` has returned it. -/
def Written (o : Order) (fields : List (String × Value)) : Prop :=
  fields = o.newFields ∨ fields = o.fields

/-- The fields of an order that was written are its members. -/
lemma Written.perm {o : Order} {fields : List (String × Value)} (written : Written o fields) :
    (fields.map fun f => (str f.1, f.2)).Perm o.members := by
  rcases written with rfl | rfl
  · exact (newFields_perm o).map _
  · exact .refl _

/-- What the consumers make of the envelope of a version. -/
structure Consumed (o : Order) (fields : List (String × Value)) (eventId : Str) : Prop where
  /-- The text of the row is read back, and the event in it is valid. -/
  validated : ∃ payload event, eventText fields eventId = .ok payload ∧
    rowEvent payload = .ok event ∧ validateEvent event = .ok (.ofFields fields)
  /-- The canonical message is short enough and is accepted under its key. -/
  decoded : ∃ payload event b es ms key, eventText fields eventId = .ok payload ∧
    rowEvent payload = .ok event ∧ Message.canonical event = .ok b ∧ b.length ≤ Message.maxMessage ∧
      Message.decode (some b) = .ok (.dict es) ∧
    lookup (str "order") es = some (.dict ms) ∧ ms.Perm o.members ∧
      lookup (str "id") ms = some (.str o.id) ∧
    encode o.id = .ok key
  /-- The order is a hit once it is cached. -/
  cached : ∃ text, dumps plainDump (.ofFields fields) = .ok text ∧ ∀ row put,
    detail o.id false (.ok (some text)) row put = .ok ⟨.ofFields fields, "redis", "hit"⟩
  /-- The document is an order of the search. -/
  found : ∀ hit, Search.HitOf o hit → Search.checkHit hit = .ok (Search.source hit)

section
variable {h : List Order} {o : Order} {fields : List (String × Value)} {eventId : Str}

/-- The event that is read back from the text of a row is the event that was written. -/
lemma Written.read (written : Written o fields) (history : History h) (m : o ∈ h)
    (uuid : IsUuid eventId) :
    ∃ payload, eventText fields eventId = .ok payload ∧
      rowEvent payload = .ok (eventWith eventId (.ofFields fields) []) := by
  obtain ⟨d, limit⟩ : ∃ d, Interpreter.recursionLimit = d + 2 :=
    ⟨Interpreter.recursionLimit - 2, by have := Interpreter.recursionLimit_ge; omega⟩
  have legible : Legible Interpreter.recursionLimit (eventWith eventId (.ofFields fields) []) :=
    limit ▸ eventWith_legible history m written.perm uuid appended_nil d
  obtain ⟨payload, text, _, read⟩ := legible.loads plainDump Hooks.default_keeps le_rfl
  rw [legible.reorder_unsorted rfl] at read
  exact ⟨payload, text, read⟩

/-- The event of an order that was written is valid. -/
lemma Written.validated (written : Written o fields) (history : History h) (m : o ∈ h)
    (uuid : IsUuid eventId) :
    validateEvent (eventWith eventId (.ofFields fields) []) = .ok (.ofFields fields) := by
  have valid : ValidEvent (eventWith eventId (.ofFields fields) []) eventId _ o :=
    eventWith_valid history m written.perm uuid
  exact valid.validateEvent

/-- The members of a version have the names of an order. -/
lemma members_named {ms : Fields} (perm : ms.Perm o.members) :
    (orderFields.map str).Perm (ms.map Prod.fst) := by
  have names : o.members.map Prod.fst = orderFields.map str := by
    simp [Order.members, Order.fields, orderFields]
  exact names ▸ (perm.map Prod.fst).symm

/-- What is cached of a version is a valid object. -/
lemma Written.cached (written : Written o fields) (history : History h) (m : o ∈ h) :
    ∃ text, dumps plainDump (.ofFields fields) = .ok text ∧
      Cached o.id (.ok (some text)) (.ofFields fields) := by
  obtain ⟨d, limit⟩ : ∃ d, Interpreter.recursionLimit = d + 1 :=
    ⟨Interpreter.recursionLimit - 1, by have := Interpreter.recursionLimit_ge; omega⟩
  have valid := history.valid o m
  have legible : Legible Interpreter.recursionLimit (.ofFields fields) :=
    limit ▸ history.legible m written.perm d
  obtain ⟨text, wrote, _, read⟩ := legible.loads plainDump Hooks.default_keeps le_rfl
  obtain ⟨again, rewrote, scalar, _⟩ :=
    legible.loads ⟨false, false, false⟩ Hooks.default_keeps le_rfl
  obtain ⟨bytes, encoded⟩ := encode_scalar scalar
  rw [legible.reorder_unsorted rfl] at read
  refine ⟨text, wrote, ?_, _, rfl, members_named written.perm,
    (valid.fields written.perm).id, o, ?_⟩
  · rw [cacheGet, ok_bind]
    dsimp only
    rw [read]
    dsimp only [Except.mapError]
    rw [ok_bind, rewrote]
    dsimp only
    rw [ok_bind, encoded]
    rfl
  · exact eventWith_valid history m written.perm valid.uuid

/-- The document of a version passes the checks of the search. -/
lemma checkHit_made {hit : Value} (history : History h) (m : o ∈ h)
    (document : Search.HitOf o hit) :
    Search.checkHit hit = .ok (Search.source hit) := by
  obtain ⟨hs, ms, rfl, id, source, perm⟩ := document
  have valid := history.valid o m
  have fields := valid.fields perm
  have whole : hasKeys orderFields ms = true := hasKeys_ok (by decide) (members_named perm)
  have accepted : validateEvent (eventWith o.id (.dict ms) []) = .ok (.dict ms) :=
    (eventWith_valid history m perm valid.uuid).validateEvent
  obtain ⟨bytes, encoded⟩ :=
    encode_scalar fun c mc => ascii_scalar ((history.staged o m).2.ascii c mc)
  have same : (Value.str o.id).eq (.str o.id) = true := eq_str_iff.2 rfl
  rw [Search.source, Search.checkHit, getD_of source]
  dsimp only
  rw [getD_of id, getD_of fields.id, whole, same, if_neg (by decide)]
  change (validateEvent (eventWith o.id (.dict ms) []) >>= _) = _
  rw [accepted, ok_bind, Value.item, fields.createdAt]
  dsimp only
  rw [encoded]
  rfl

end

/-- Every consumer accepts the envelope of every version. -/
theorem Made.consumed {o : Order} {fields : List (String × Value)} {eventId : Str} (made : Made o)
    (written : Written o fields) (uuid : IsUuid eventId) : Consumed o fields eventId := by
  obtain ⟨past, history⟩ := made.history
  have m : o ∈ past ++ [o] := by simp
  have valid := history.valid o m
  obtain ⟨payload, text, read⟩ := written.read history m uuid
  refine ⟨⟨payload, _, text, read, written.validated history m uuid⟩, ?_, ?_,
    fun hit => checkHit_made history m⟩
  · obtain ⟨b, es, ms, canonical, fits, decoded, _, order, perm⟩ :=
      eventWith_decoded history m written.perm uuid appended_nil
    obtain ⟨key, keyed⟩ := encode_scalar valid.uuid.scalar
    exact ⟨payload, _, b, es, ms, key, text, read, canonical, fits, decoded, order, perm,
      (valid.fields perm).id, keyed⟩
  · obtain ⟨text, wrote, cached⟩ := written.cached history m
    refine ⟨text, wrote, fun row put => ?_⟩
    have hit := readCache_some.2 cached
    have id : identifier (.str o.id) = .ok o.id := identifier_ok.2 ⟨rfl, valid.uuid⟩
    rw [detail, id, ok_bind]
    simp only [Bool.false_eq_true, if_false, hit]
    rfl

/-- A complete reply with documents of versions is accepted. -/
lemma find_accepts {data : Fields} {found : List Value} (complete : Search.Complete data found)
    (documents : ∀ hit ∈ found, ∃ o, Made o ∧ Search.HitOf o hit) :
    ∃ total, Search.find (some (.dict data)) = .ok ⟨found.map Search.source, total⟩ := by
  obtain ⟨whole, hits, total, hitsOf, totalOf⟩ := complete
  have each : ∀ hit ∈ found, Search.checkHit hit = .ok (Search.source hit) := by
    intro hit m
    obtain ⟨o, made, document⟩ := documents hit m
    obtain ⟨past, history⟩ := made.history
    exact checkHit_made history (List.mem_append_right past List.mem_cons_self) document
  refine ⟨total, ?_⟩
  rw [Search.find, whole]
  simp only [Bool.not_true, Bool.false_eq_true, if_false, hitsOf, ok_bind, totalOf, mapM_ok each]
  rfl

/-- No order that the API has taken, and no version of it, stops a consumer. -/
theorem no_self_poisoning {o : Order} {fields : List (String × Value)} {eventId : Str}
    (made : Made o)
    (written : Written o fields) (uuid : IsUuid eventId) :
    Consumed o fields eventId ∧ ∀ data found, Search.Complete data found →
      (∀ hit ∈ found, ∃ o, Made o ∧ Search.HitOf o hit) →
      ∃ total, Search.find (some (.dict data)) = .ok ⟨found.map Search.source, total⟩ :=
  ⟨made.consumed written uuid, fun _ _ complete documents => find_accepts complete documents⟩

end Consumers

/-! ### The mug -/

section
attribute [local instance] integral

/-- The body of the request that made the mug. -/
def mugBody : Value :=
  .ofFields [("item", .str (str "mug")), ("quantity", .int 2), ("unit_price", .int 3)]

/-- The body of the demonstration can be written. -/
lemma mugBody_legible : Legible 1 mugBody := by
  refine .ofFields (by decide) fun f m => ?_
  simp only [List.mem_cons, List.not_mem_nil, or_false] at m
  rcases m with rfl | rfl | rfl
  · exact .str (by decide)
  · exact .int (by decide)
  · exact .int (by decide)

/-- The order of the demonstration is made. -/
lemma mug_made : Made mug := by
  obtain ⟨text, raw, _, _, body⟩ :=
    Http.decodeJson_written mugBody_legible (by decide) plainDump (by decide)
  rw [mugBody_legible.reorder_unsorted rfl] at body
  exact .created body rfl rfl (by decide +kernel) ⟨by decide +kernel, by decide +kernel⟩

/-- The hit of the mug, and a reply with it. -/
def mugHit : Value := .ofFields [("_id", .str mug.id), ("_source", .dict mug.members)]

def mugReply : Fields :=
  [(str "timed_out", .bool false), (str "_shards", .ofFields [("failed", .int 0)]),
    (str "hits", .ofFields [("total", .int 1), ("hits", .list [mugHit])])]

/-- `no_self_poisoning` for one order. -/
theorem no_self_poisoning_mug : Consumed mug mug.newFields mug.id ∧
    ∃ total, Search.find (some (.dict mugReply)) = .ok ⟨[.dict mug.members], total⟩ := by
  have uuid : IsUuid mug.id := by decide +kernel
  obtain ⟨consumed, find⟩ := no_self_poisoning mug_made (.inl rfl) uuid
  refine ⟨consumed, find mugReply [mugHit] ⟨by decide, _, _, rfl, rfl⟩ fun hit m => ?_⟩
  rw [List.mem_singleton.1 m]
  exact ⟨mug, mug_made, _, _, rfl, rfl, rfl, .refl _⟩

end

end DbLab.Mvp
