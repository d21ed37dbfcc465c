import DbLab.Mvp.Orders
import DbLab.Py.Iso
import DbLab.Py.Pattern
import DbLab.Py.Raises

/-!
# What makes an event valid (`core.py`)

`identifier`, `create_input` and `validate_event`: the checks that every order passes on its way in
and that every consumer of an event repeats.
-/

namespace DbLab.Mvp
open DbLab.Py

/-- `s.strip()` -/
def stripped (s : Str) : Str := ((s.dropWhile unicodeSpace).reverse.dropWhile unicodeSpace).reverse

def lowerHex (c : Nat) : Bool := isDigit c || (97 ≤ c && c < 103)

/-- The texts that `str` gives for a `uuid.UUID`: `str(uuid.UUID(value)) == value` holds of these
only. -/
def uuidPattern : Pattern :=
  .seq (.times lowerHex 8) <| .seq (.lit "-") <| .seq (.times lowerHex 4) <| .seq (.lit "-") <|
    .seq (.times lowerHex 4) <| .seq (.lit "-") <| .seq (.times lowerHex 4) <|
      .seq (.lit "-") (.times lowerHex 12)

/-- The errors that a request or a message is answered with. -/
def IsInvalid (e : Raised) : Prop :=
  ∃ status code, e = .problem status code ∧ (status = 400 ∨ status = 422)

/-- A problem with the status 400 is a refusal. -/
lemma invalid400 {code : String} : IsInvalid (.problem 400 code) := ⟨400, code, rfl, .inl rfl⟩

/-- A problem with the status 422 is a refusal. -/
lemma invalid422 {code : String} : IsInvalid (.problem 422 code) := ⟨422, code, rfl, .inr rfl⟩

/-- The text of a UUID. -/
def IsUuid (s : Str) : Prop := uuidPattern.fullmatch s = true

instance : DecidablePred IsUuid :=
  fun s => inferInstanceAs (Decidable (uuidPattern.fullmatch s = true))

/-- Hexadecimal digits are ASCII. -/
lemma lowerHex_ascii {c : Nat} (h : lowerHex c = true) : c < 128 := by
  simp only [lowerHex, isDigit, Bool.or_eq_true, Bool.and_eq_true, decide_eq_true_eq] at h
  omega

/-- An id is ASCII. -/
lemma IsUuid.ascii {s : Str} (h : IsUuid s) : ∀ c ∈ s, c < 128 := by
  have dash : Pattern.Within (· < 128) (.lit "-") := .lit (by decide)
  have hex : ∀ n, Pattern.Within (· < 128) (.times lowerHex n) := .times fun _ => lowerHex_ascii
  exact ((hex 8).seq (dash.seq ((hex 4).seq (dash.seq ((hex 4).seq (dash.seq ((hex 4).seq
    (dash.seq (hex 12))))))))).fullmatch h

/-- An id has no surrogates. -/
lemma IsUuid.scalar {s : Str} (h : IsUuid s) : ∀ c ∈ s, Scalar c :=
  fun c m => ascii_scalar (h.ascii c m)

/-- An id has 36 characters at most. -/
lemma IsUuid.length {s : Str} (h : IsUuid s) : s.length ≤ 36 := by
  have dash : Pattern.Short 1 (.lit "-") := .lit "-"
  have hex : ∀ n, Pattern.Short n (.times lowerHex n) := .times lowerHex
  exact ((hex 8).seq (dash.seq ((hex 4).seq (dash.seq ((hex 4).seq (dash.seq ((hex 4).seq
    (dash.seq (hex 12))))))))).fullmatch h

variable [Interpreter]

/-- `identifier` -/
def identifier (value : Value) : Except Raised Str :=
  match value with
  | .str s => if uuidPattern.fullmatch s then .ok s else .error (.problem 400 "invalid_order_id")
  | _ => .error (.problem 400 "invalid_order_id")

/-- `create_input` for a dictionary. -/
def draftOf (ms : Fields) : Except Raised Draft :=
  match Fields.getD ms "item" .null with
  | .str item =>
    if ¬(1 ≤ (stripped item).length ∧ (stripped item).length ≤ 100) then
      .error (.problem 400 "item_must_be_1_to_100_characters")
    else match encode item with
      | .error _ => .error (.problem 400 "item_must_be_valid_unicode")
      | .ok _ =>
        match Fields.getD ms "quantity" .null with
        | .int quantity =>
          if ¬(1 ≤ quantity ∧ quantity ≤ 1000) then
            .error (.problem 400 "quantity_must_be_integer_1_to_1000")
          else match Fields.getD ms "unit_price" .null with
            | .int unitPrice =>
              if ¬(0 ≤ unitPrice ∧ unitPrice ≤ 100000000) then
                .error (.problem 400 "unit_price_must_be_integer_0_to_100000000")
              else .ok ⟨stripped item, quantity, unitPrice⟩
            | _ => .error (.problem 400 "unit_price_must_be_integer_0_to_100000000")
        | _ => .error (.problem 400 "quantity_must_be_integer_1_to_1000")
  | _ => .error (.problem 400 "item_must_be_1_to_100_characters")

/-- `create_input` -/
def createInput (data : Value) : Except Raised Draft :=
  match data with
  | .dict ms => draftOf ms
  | _ => .error (.problem 400 "json_object_required")

/-- The checks of `validate_event` behind `create_input(order)`, which has found quantity and price
to be integers. -/
def checkOrder (ms : Fields) (draft : Draft) : Except Raised Unit :=
  match Fields.getD ms "version" .null with
  | .int version =>
    if version < 1 then .error (.problem 422 "invalid_event_version")
    else match Fields.getD ms "status" .null with
      | .str status =>
        if (nextStates status).isNone then .error (.problem 422 "invalid_event_fields")
        else match Fields.getD ms "total" .null with
          | .int total =>
            if total ≠ draft.quantity * draft.unitPrice then
              .error (.problem 422 "invalid_event_total")
            else match Fields.getD ms "created_at" .null with
              | .str createdAt =>
                if fromisoformat createdAt then .ok ()
                  else .error (.problem 422 "invalid_event_timestamp")
              | _ => .error (.problem 422 "invalid_event_timestamp")
          | _ => .error (.problem 422 "invalid_event_fields")
      | _ => .error (.problem 422 "invalid_event_fields")
  | _ => .error (.problem 422 "invalid_event_version")

/-- `validate_event`: what it returns is the order of the event. -/
def validateEvent (event : Value) : Except Raised Value :=
  match event with
  | .dict es =>
    match Fields.getD es "schema_version" .null with
    | .int schema =>
      if schema ≠ 1 then .error (.problem 422 "unsupported_event_schema")
      else do
        let _ ← identifier (Fields.getD es "event_id" .null)
        match Fields.getD es "order" .null with
        | .dict ms => do
          let _ ← identifier (Fields.getD ms "id" .null)
          let draft ← draftOf ms
          checkOrder ms draft
          return .dict ms
        | _ => throw (.problem 422 "invalid_event_order")
    | _ => .error (.problem 422 "unsupported_event_schema")
  | _ => .error (.problem 422 "unsupported_event_schema")

/-! ### What is accepted -/

/-- Which values are ids. -/
lemma identifier_ok {v : Value} {s : Str} : identifier v = .ok s ↔ v = .str s ∧ IsUuid s := by
  rw [identifier.eq_def]
  cases v with
  | str t =>
    simp only [Value.str.injEq]
    split
    · rename_i uuid
      rw [Except.ok.injEq]
      exact ⟨fun e => ⟨e, e ▸ uuid⟩, fun h => h.1⟩
    · rename_i not
      exact ⟨nofun, fun ⟨e, uuid⟩ => absurd (e ▸ uuid) not⟩
  | _ => exact ⟨nofun, fun h => nomatch h.1⟩

/-- The fields of an order that the checks read, as they leave them. The item need not be
stripped. -/
structure ValidFields (ms : Fields) (o : Order) : Prop where
  id : lookup (str "id") ms = some (.str o.id)
  uuid : IsUuid o.id
  item : lookup (str "item") ms = some (.str o.item)
  itemLength : 1 ≤ (stripped o.item).length ∧ (stripped o.item).length ≤ 100
  itemText : ∃ b, encode o.item = .ok b
  quantity : lookup (str "quantity") ms = some (.int o.quantity)
  quantityRange : 1 ≤ o.quantity ∧ o.quantity ≤ 1000
  unitPrice : lookup (str "unit_price") ms = some (.int o.unitPrice)
  unitPriceRange : 0 ≤ o.unitPrice ∧ o.unitPrice ≤ 100000000
  total : lookup (str "total") ms = some (.int o.total)
  totalValue : o.total = o.quantity * o.unitPrice
  status : lookup (str "status") ms = some (.str o.status)
  statusKnown : (nextStates o.status).isSome
  version : lookup (str "version") ms = some (.int o.version)
  versionRange : 1 ≤ o.version
  createdAt : lookup (str "created_at") ms = some (.str o.createdAt)
  createdAtDate : fromisoformat o.createdAt = true

/-- A member that is not `None` is there. -/
lemma getD_eq {ms : Fields} {k : String} {v : Value} (h : Fields.getD ms k .null = v)
    (some : v ≠ .null) :
    lookup (str k) ms = .some v := by
  rw [Fields.getD] at h
  cases found : lookup (str k) ms with
  | none =>
    rw [found] at h
    exact absurd h.symm some
  | some w =>
    rw [found] at h
    rw [← h]
    rfl

/-- A member that is found. -/
lemma getD_of {ms : Fields} {k : String} {v : Value} (h : lookup (str k) ms = some v) :
    Fields.getD ms k .null = v := by
  rw [Fields.getD, h]
  rfl

/-- The draft of an order, before its item is stripped. -/
structure ValidDraft (ms : Fields) (name : Str) (count price : Int) : Prop where
  item : lookup (str "item") ms = some (.str name)
  itemLength : 1 ≤ (stripped name).length ∧ (stripped name).length ≤ 100
  itemText : ∃ b, encode name = .ok b
  quantity : lookup (str "quantity") ms = some (.int count)
  quantityRange : 1 ≤ count ∧ count ≤ 1000
  unitPrice : lookup (str "unit_price") ms = some (.int price)
  unitPriceRange : 0 ≤ price ∧ price ≤ 100000000

/-- What a draft is made of. -/
lemma draftOf_inv {ms : Fields} {draft : Draft} (h : draftOf ms = .ok draft) :
    ∃ item, ValidDraft ms item draft.quantity draft.unitPrice ∧ draft.item = stripped item := by
  unfold draftOf at h
  split at h
  · rename_i item hi
    split at h
    · cases h
    rename_i length
    split at h
    · cases h
    rename_i b text
    split at h
    · rename_i quantity hq
      split at h
      · cases h
      rename_i quantityRange
      split at h
      · rename_i unitPrice hp
        split at h
        · cases h
        rename_i priceRange
        cases h
        exact ⟨item, ⟨getD_eq hi nofun, not_not.1 length, ⟨b, text⟩, getD_eq hq nofun,
          not_not.1 quantityRange, getD_eq hp nofun, not_not.1 priceRange⟩, rfl⟩
      · cases h
    · cases h
  · cases h

/-- What a request to create an order is. -/
lemma createInput_inv {data : Value} {draft : Draft} (h : createInput data = .ok draft) :
    ∃ ms item, data = .dict ms ∧ ValidDraft ms item draft.quantity draft.unitPrice ∧
      draft.item = stripped item := by
  unfold createInput at h
  split at h
  · obtain ⟨item, valid, strip⟩ := draftOf_inv h
    exact ⟨_, item, rfl, valid, strip⟩
  · cases h

/-- A valid draft is accepted. -/
lemma ValidDraft.draftOf {ms : Fields} {item : Str} {quantity unitPrice : Int}
    (h : ValidDraft ms item quantity unitPrice) :
    Mvp.draftOf ms = .ok ⟨stripped item, quantity, unitPrice⟩ := by
  obtain ⟨b, text⟩ := h.itemText
  rw [Mvp.draftOf, getD_of h.item, getD_of h.quantity, getD_of h.unitPrice]
  simp only [if_neg (not_not.2 h.itemLength), text, if_neg (not_not.2 h.quantityRange),
    if_neg (not_not.2 h.unitPriceRange)]

/-- An event as `validate_event` leaves it: its id, the members of its order, and the order these
describe. -/
structure ValidEvent (event : Value) (eventId : Str) (ms : Fields) (o : Order) : Prop where
  members : ∃ es, event = .dict es ∧ lookup (str "schema_version") es = some (.int 1) ∧
    lookup (str "event_id") es = some (.str eventId) ∧ lookup (str "order") es = some (.dict ms)
  eventUuid : IsUuid eventId
  order : ValidFields ms o

/-- An order that passes is valid. -/
lemma checkOrder_inv {ms : Fields} {draft : Draft} {id item : Str}
    (hid : identifier (Fields.getD ms "id" .null) = .ok id)
    (valid : ValidDraft ms item draft.quantity draft.unitPrice) (h : checkOrder ms draft = .ok ()) :
    ∃ o, ValidFields ms o ∧ o.id = id ∧ o.item = item := by
  obtain ⟨idValue, uuid⟩ := identifier_ok.1 hid
  unfold checkOrder at h
  split at h
  · rename_i version hv
    split at h
    · cases h
    rename_i versionRange
    split at h
    · rename_i status hs
      split at h
      · cases h
      rename_i known
      split at h
      · rename_i total ht
        split at h
        · cases h
        rename_i totalValue
        split at h
        · rename_i createdAt hc
          split at h
          · rename_i date
            refine ⟨⟨id, item, draft.quantity, draft.unitPrice, total, status, version, createdAt⟩,
              ?_, rfl, rfl⟩
            exact ⟨getD_eq idValue nofun, uuid, valid.item, valid.itemLength, valid.itemText,
              valid.quantity, valid.quantityRange, valid.unitPrice, valid.unitPriceRange,
              getD_eq ht nofun, not_not.1 totalValue, getD_eq hs nofun,
              by simpa [Option.isSome_iff_ne_none] using known, getD_eq hv nofun,
              Int.not_lt.1 versionRange, getD_eq hc nofun, date⟩
          · cases h
        · cases h
      · cases h
    · cases h
  · cases h

/-- An event that passes is valid. -/
theorem validateEvent_inv {event order : Value} (h : validateEvent event = .ok order) :
    ∃ eventId ms o, order = .dict ms ∧ ValidEvent event eventId ms o := by
  unfold validateEvent at h
  split at h
  · rename_i es
    split at h
    · rename_i schema hs
      split at h
      · cases h
      rename_i one
      rw [not_not] at one
      subst one
      obtain ⟨eventId, hid, h⟩ := bind_ok.1 h
      obtain ⟨idValue, uuid⟩ := identifier_ok.1 hid
      split at h
      · rename_i ms ho
        obtain ⟨id, hid', h⟩ := bind_ok.1 h
        obtain ⟨draft, hd, h⟩ := bind_ok.1 h
        obtain ⟨_, checked, h⟩ := bind_ok.1 h
        cases h
        obtain ⟨item, valid, _⟩ := draftOf_inv hd
        obtain ⟨o, fields, _⟩ := checkOrder_inv hid' valid checked
        exact ⟨eventId, ms, o, rfl,
          ⟨⟨es, rfl, getD_eq hs nofun, getD_eq idValue nofun, getD_eq ho nofun⟩, uuid, fields⟩⟩
      · cases h
    · cases h
  · cases h

/-- A valid order is a valid draft. -/
lemma ValidFields.validDraft {ms : Fields} {o : Order} (h : ValidFields ms o) :
    ValidDraft ms o.item o.quantity o.unitPrice :=
  ⟨h.item, h.itemLength, h.itemText, h.quantity, h.quantityRange, h.unitPrice, h.unitPriceRange⟩

/-- A valid event passes. -/
theorem ValidEvent.validateEvent {event : Value} {eventId : Str} {ms : Fields} {o : Order}
    (h : ValidEvent event eventId ms o) : Mvp.validateEvent event = .ok (.dict ms) := by
  obtain ⟨es, rfl, schema, id, order⟩ := h.members
  have eventId : identifier (Fields.getD es "event_id" .null) = .ok eventId := by
    rw [getD_of id]
    exact identifier_ok.2 ⟨rfl, h.eventUuid⟩
  have orderId : identifier (Fields.getD ms "id" .null) = .ok o.id := by
    rw [getD_of h.order.id]
    exact identifier_ok.2 ⟨rfl, h.order.uuid⟩
  have checked : checkOrder ms ⟨stripped o.item, o.quantity, o.unitPrice⟩ = .ok () := by
    have f := h.order
    have known : (nextStates o.status).isNone = false := by
      simpa [Option.isSome_iff_ne_none] using f.statusKnown
    rw [checkOrder, getD_of f.version, getD_of f.status, getD_of f.total, getD_of f.createdAt]
    simp only [if_neg (Int.not_lt.2 f.versionRange), known, f.totalValue, f.createdAtDate, ne_eq,
      not_true, if_false, if_true, Bool.false_eq_true]
  rw [Mvp.validateEvent]
  simp only [getD_of schema, eventId, getD_of order, orderId, h.order.validDraft.draftOf,
    checked, ok_bind]
  rfl

/-! ### The order of members -/

section Reorder
variable {D : Dump} {d : Nat}

/-- What can be written and read has keys of its own. -/
lemma Legible.keys {ms : Fields} (h : Legible d (.dict ms)) : (ms.map Prod.fst).Nodup := by
  cases h with
  | dict keys chars members => exact keys

/-- A text is found among reordered members. -/
lemma lookup_reorder_str {ms : Fields} (keys : (ms.map Prod.fst).Nodup) {k s : Str}
    (h : lookup k ms = some (.str s)) :
    lookup k (D.order (Value.reorderDict D ms)) = some (.str s) := by
  rw [lookup_reorder D keys, h]
  rfl

/-- An integer is found among reordered members. -/
lemma lookup_reorder_int {ms : Fields} (keys : (ms.map Prod.fst).Nodup) {k : Str} {n : Int}
    (h : lookup k ms = some (.int n)) :
    lookup k (D.order (Value.reorderDict D ms)) = some (.int n) := by
  rw [lookup_reorder D keys, h]
  rfl

/-- The order of the members does not matter to an order. -/
lemma ValidFields.reorder {ms : Fields} {o : Order} (h : ValidFields ms o)
    (keys : (ms.map Prod.fst).Nodup) :
    ValidFields (D.order (Value.reorderDict D ms)) o where
  id := lookup_reorder_str keys h.id
  uuid := h.uuid
  item := lookup_reorder_str keys h.item
  itemLength := h.itemLength
  itemText := h.itemText
  quantity := lookup_reorder_int keys h.quantity
  quantityRange := h.quantityRange
  unitPrice := lookup_reorder_int keys h.unitPrice
  unitPriceRange := h.unitPriceRange
  total := lookup_reorder_int keys h.total
  totalValue := h.totalValue
  status := lookup_reorder_str keys h.status
  statusKnown := h.statusKnown
  version := lookup_reorder_int keys h.version
  versionRange := h.versionRange
  createdAt := lookup_reorder_str keys h.createdAt
  createdAtDate := h.createdAtDate

/-- An event stays valid in any order of its members. -/
theorem ValidEvent.reorder {event : Value} {eventId : Str} {ms : Fields} {o : Order}
    (h : ValidEvent event eventId ms o)
    (legible : Legible d event) :
    ValidEvent (event.reorder D) eventId (D.order (Value.reorderDict D ms)) o := by
  obtain ⟨es, rfl, schema, id, order⟩ := h.members
  have keys := Legible.keys legible
  refine ⟨⟨_, rfl, lookup_reorder_int keys schema, lookup_reorder_str keys id, ?_⟩, h.eventUuid, ?_⟩
  · rw [lookup_reorder D keys, order]
    rfl
  · refine h.order.reorder ?_
    cases legible with
    | dict _ _ members => exact Legible.keys (members _ (lookup_mem order))

end Reorder

/-! ### What is raised -/

/-- An id that is refused is refused as input. -/
lemma identifier_only (v : Value) : Only IsInvalid (identifier v) := by
  unfold identifier
  split
  · split
    · exact .ok _
    · exact .error invalid400
  · exact .error invalid400

/-- A draft that is refused is refused as input. -/
lemma draftOf_only (ms : Fields) : Only IsInvalid (draftOf ms) := by
  unfold draftOf
  repeat' split
  all_goals first
    | exact .ok _
    | exact .error invalid400

/-- An order that is refused is refused as input. -/
lemma checkOrder_only (ms : Fields) (draft : Draft) : Only IsInvalid (checkOrder ms draft) := by
  unfold checkOrder
  repeat' split
  all_goals first
    | exact .ok _
    | exact .error invalid422

/-- `validate_event` accepts or raises one of the two kinds of `Problem`. -/
theorem validateEvent_only (event : Value) : Only IsInvalid (validateEvent event) := by
  unfold validateEvent
  split
  · split
    · split
      · exact .error invalid422
      · refine (identifier_only _).bind fun eventId _ => ?_
        split
        · refine (identifier_only _).bind fun id _ => (draftOf_only _).bind fun draft _ => ?_
          exact (checkOrder_only _ _).bind fun _ _ => .pure _
        · exact .throw invalid422
    · exact .error invalid422
  · exact .error invalid422

end DbLab.Mvp
