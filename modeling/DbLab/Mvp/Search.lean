import DbLab.Data.Fence
import DbLab.Mvp.History
import DbLab.Mvp.Quarantine
import DbLab.Py.Float

/-!
# The search projection (`adapters.Search.index`)

The index takes a document with an external version only if the version is larger than the one it
has. A refused write is told apart by reading back what is stored: an older version, a duplicate, or
a conflict.
-/

namespace DbLab.Mvp
open DbLab.Py Message

section
variable [Interpreter]

/-- The documents of the index, with their versions. -/
abbrev Documents := Fence.Store Str Int Value

/-- The index. -/
structure Elastic where
  created : Bool
  docs : Documents

/-- How the mapping of the index and its limits refuse a document: a status and an error type. -/
structure Mapping where
  rejects : Value → Option (Nat × String)

namespace Search

/-- `initialize` -/
def initializeIndex (s : Elastic) : Elastic := { s with created := true }

/-- The answer to a write with an external version. -/
inductive Reply where
  | written
  | conflict
  | failed (status : Nat) (errorType : String)

/-- `PUT /_doc/id?version=…&version_type=external` -/
def put (M : Mapping) (id : Str) (version : Int) (source : Value) (s : Elastic) : Reply × Elastic :=
  match M.rejects source with
  | some (status, errorType) => (.failed status errorType, s)
  | none =>
    if Fence.fresh s.docs id version then
      (.written, { s with docs := Fence.write s.docs ⟨id, version, source⟩ })
    else (.conflict, s)

/-- The options of `canonical` in `index`. -/
def canonicalDump : Dump := ⟨false, true, false⟩

def conflict409 (code : String) : Thrown := .raised (.problem 409 code)

/-- `index` behind a version conflict, with the document that is stored. -/
def compareStored (order : Value) (id : Str) (version : Int) (stored : Value)
    (storedVersion : Int) :
    Except Thrown String :=
  match stored with
  | .dict ms =>
    if !(Fields.getD ms "version" .null).eq (.int storedVersion) ||
      !(Fields.getD ms "id" .null).eq (.str id) then
      throw (conflict409 "projection_version_metadata_mismatch")
    else if version < storedVersion then return "older_version_ignored"
    else if storedVersion = version then do
      let there ← (dumps canonicalDump stored).mapError fun e => .raised (.python e)
      let here ← (dumps canonicalDump order).mapError fun e => .raised (.python e)
      if there = here then return "duplicate_ignored"
      else throw (conflict409 "event_version_payload_conflict")
    else throw (conflict409 "projection_version_changed_during_check")
  | _ => throw (conflict409 "projection_version_metadata_mismatch")

/-- `index` for the id and the version of an order. -/
def indexAs (M : Mapping) (order : Value) (id : Str) (version : Int) (s : Elastic) :
    Except Thrown String × Elastic :=
  match put M id version order (initializeIndex s) with
  | (.written, s) => (.ok "indexed", s)
  | (.failed status errorType, s) => (.error (.http status errorType), s)
  | (.conflict, s) => match s.docs id with
    | some d => (compareStored order id version d.2 d.1, s)
    | none => (.error (.http 404 "unclassified_http_error"), s)

/-- `index`. Orders have been validated before: the id is a string and the version an integer. -/
def index (M : Mapping) (order : Value) (s : Elastic) : Except Thrown String × Elastic :=
  match order.item "id", order.item "version" with
  | .ok (.str id), .ok (.int version) => indexAs M order id version s
  | .error e, _ | _, .error e => (.error (.raised (.python e)), s)
  | _, _ => (.error (.raised (.python .typeError)), s)

/-- Values that differ in the order of members at most. -/
def SameContents (v w : Value) : Prop := v.reorder canonicalDump = w.reorder canonicalDump

variable {M : Mapping} {s : Elastic} {ms : Fields} {o : Order}

/-- An order with an id and a version is indexed under them. -/
lemma index_read {id : Str} {version : Int} (hid : lookup (str "id") ms = some (.str id))
    (hversion : lookup (str "version") ms = some (.int version)) :
    index M (.dict ms) s = indexAs M (.dict ms) id version s := by
  simp only [index, Value.item, hid, hversion]

/-- A larger version is written. -/
lemma index_fresh (valid : ValidFields ms o) (accepted : M.rejects (.dict ms) = none)
    (new : Fence.fresh s.docs o.id o.version = true) :
    index M (.dict ms) s = (.ok "indexed",
      ⟨true, Fence.write s.docs ⟨o.id, o.version, .dict ms⟩⟩) := by
  have put_new : Fence.fresh (initializeIndex s).docs o.id o.version = true := new
  rw [index_read valid.id valid.version, indexAs, put, accepted]
  simp only [put_new, if_true]
  rfl

/-- Any other version is compared with what is stored, and nothing is written. -/
lemma index_stale {id : Str} {version : Int} (hid : lookup (str "id") ms = some (.str id))
    (hversion : lookup (str "version") ms = some (.int version))
    (accepted : M.rejects (.dict ms) = none)
    {d : Int × Value} (stored : s.docs id = some d) (old : ¬ d.1 < version) :
    index M (.dict ms) s = (compareStored (.dict ms) id version d.2 d.1, ⟨true, s.docs⟩) := by
  have stale : Fence.fresh s.docs id version = false := by
    rw [Fence.fresh_some stored]
    exact decide_eq_false old
  rw [index_read hid hversion, indexAs, put, accepted]
  simp only [initializeIndex, stale, Bool.false_eq_true, if_false, stored]

/-- An older version is ignored. -/
lemma compareStored_older {ms' : Fields} {o' : Order} (valid' : ValidFields ms' o')
    (same : o'.id = o.id)
    (older : o.version < o'.version) :
    compareStored (.dict ms) o.id o.version (.dict ms') o'.version =
      .ok "older_version_ignored" := by
  rw [compareStored, getD_of valid'.version, getD_of valid'.id, same]
  simp [Value.eq, Value.num?, Num.eq, Num.view, FloatView.eq, older]
  rfl

/-- The same version with the same contents is a duplicate, with other contents a conflict. -/
lemma compareStored_same {ms' : Fields} {o' : Order} (valid' : ValidFields ms' o') {d d' : Nat}
    (legible : Legible d (.dict ms)) (legible' : Legible d' (.dict ms')) :
    compareStored (.dict ms) o'.id o'.version (.dict ms') o'.version =
      if textOf canonicalDump (.dict ms') = textOf canonicalDump (.dict ms) then
        .ok "duplicate_ignored"
      else .error (conflict409 "event_version_payload_conflict") := by
  rw [compareStored, getD_of valid'.version, getD_of valid'.id, legible.text, legible'.text]
  simp [Value.eq, Value.num?, Num.eq, Num.view, FloatView.eq]
  rfl

/-- Equal text is equal contents. -/
lemma textOf_same {v w : Value} (hv : Legible Interpreter.recursionLimit v)
    (hw : Legible Interpreter.recursionLimit w) :
    textOf canonicalDump v = textOf canonicalDump w ↔ SameContents v w := by
  constructor
  · exact hv.reorder_eq hw le_rfl le_rfl canonicalDump
  · intro same
    rw [textOf, textOf, ← hv.dumps_reorder, ← hw.dumps_reorder, same]

/-! ### Runs over the versions of orders -/

/-- The histories of the orders that the database holds, by id. -/
structure Histories where
  of : Str → List Order
  history : ∀ id, of id ≠ [] → History (of id)
  own : ∀ id, ∀ o ∈ of id, o.id = id

/-- A version of an order, as a dictionary with its members in any order. -/
structure Delivery (H : Histories) where
  order : Order
  mem : order ∈ H.of order.id
  ms : Fields
  perm : ms.Perm order.members

namespace Delivery
variable {H : Histories} (c : Delivery H)

def value : Value := .dict c.ms

/-- The write that a delivery asks for. -/
def write : Fence.Write Str Int Value := ⟨c.order.id, c.order.version, c.value⟩

/-- The order of a delivery is valid. -/
lemma valid : c.order.Valid :=
  (H.history c.order.id (List.ne_nil_of_mem c.mem)).valid c.order c.mem

/-- The fields of a delivery are those of its order. -/
lemma fields : ValidFields c.ms c.order := c.valid.fields c.perm

/-- The value of a delivery is legible. -/
lemma legible : Legible Interpreter.recursionLimit c.value := by
  obtain ⟨d, limit⟩ : ∃ d, Interpreter.recursionLimit = d + 1 :=
    ⟨Interpreter.recursionLimit - 1, by have := Interpreter.recursionLimit_ge; omega⟩
  rw [limit]
  exact (H.history c.order.id (List.ne_nil_of_mem c.mem)).legible c.mem c.perm d

/-- Deliveries of one version of one order have the same members. -/
lemma same_members {c d : Delivery H} (id : d.order.id = c.order.id)
    (version : d.order.version = c.order.version) :
    d.ms.Perm c.ms := by
  have there : d.order ∈ H.of c.order.id := id ▸ d.mem
  have one : d.order = c.order :=
    (H.history _ (List.ne_nil_of_mem c.mem)).unique there c.mem version
  exact (one ▸ d.perm).trans c.perm.symm

end Delivery

variable {H : Histories}

/-- What is left after `index` of one order after the other. -/
def after (M : Mapping) (s : Elastic) (ds : List (Delivery H)) : Elastic :=
  ds.foldl (fun s c => (index M c.value s).2) s

/-- `index` is a write behind the fence. -/
lemma index_docs (s : Elastic) (c : Delivery H) (accepted : M.rejects c.value = none) :
    (index M c.value s).2.docs = Fence.write s.docs c.write := by
  cases new : Fence.fresh s.docs c.order.id c.order.version with
  | true => rw [Delivery.value, index_fresh c.fields accepted new]; rfl
  | false =>
    obtain ⟨d, stored, old⟩ := Fence.stale_some new
    rw [Delivery.value, index_stale c.fields.id c.fields.version accepted stored old,
      Fence.write_stale new]

/-- A run of `index` leaves what the fence leaves. -/
theorem after_docs (accepted : ∀ c : Delivery H, M.rejects c.value = none) (s : Elastic)
    (ds : List (Delivery H)) :
    (after M s ds).docs = Fence.run s.docs (ds.map Delivery.write) := by
  induction ds generalizing s with
  | nil => rfl
  | cons c ds ih =>
    have step := index_docs s c (accepted c)
    have rest := ih (index M c.value s).2
    rw [step] at rest
    exact rest

/-- From an index without documents, each id has the largest version that was delivered. -/
theorem after_holds (accepted : ∀ c : Delivery H, M.rejects c.value = none) (created : Bool)
    (ds : List (Delivery H)) :
    Fence.Holds (after M ⟨created, fun _ => none⟩ ds).docs (ds.map Delivery.write) := by
  rw [after_docs accepted]
  exact Fence.holds_empty.run (ds.map Delivery.write)

/-- What a document goes back to. -/
lemma after_stored (accepted : ∀ c : Delivery H, M.rejects c.value = none) {created : Bool}
    {ds : List (Delivery H)}
    {id : Str} {d : Int × Value} (stored : (after M ⟨created, fun _ => none⟩ ds).docs id = some d) :
    (∃ c ∈ ds, c.order.id = id ∧ (c.order.version, c.value) = d) ∧
      ∀ c ∈ ds, c.order.id = id → c.order.version ≤ d.1 := by
  obtain ⟨⟨w, mw, key, value⟩, largest⟩ := (after_holds accepted created ds).some stored
  obtain ⟨c, mc, rfl⟩ := List.mem_map.1 mw
  exact ⟨⟨c, mc, key, value⟩, fun c' m' => largest c'.write (List.mem_map_of_mem m')⟩

/-- An id without a document was never delivered. -/
lemma after_missing (accepted : ∀ c : Delivery H, M.rejects c.value = none) {created : Bool}
    {ds : List (Delivery H)}
    {id : Str} (missing : (after M ⟨created, fun _ => none⟩ ds).docs id = none) :
    ∀ c ∈ ds, c.order.id ≠ id :=
  fun c m => (after_holds accepted created ds).none missing c.write (List.mem_map_of_mem m)

/-- What `index` says of a delivery whose id has a document already. -/
lemma index_classified (accepted : ∀ c : Delivery H, M.rejects c.value = none) (s : Elastic)
    (c d : Delivery H)
    (stored : s.docs c.order.id = some (d.order.version, d.value)) (id : d.order.id = c.order.id) :
    (index M c.value s).1 = .ok (if d.order.version < c.order.version then "indexed"
      else if c.order.version = d.order.version then "duplicate_ignored"
        else "older_version_ignored") := by
  split
  · rename_i new
    rw [Delivery.value, index_fresh c.fields (accepted c)
      (by rw [Fence.fresh_some stored]; exact decide_eq_true new)]
  · rename_i old
    rw [Delivery.value, index_stale c.fields.id c.fields.version (accepted c) stored old]
    split
    · rename_i same
      have text : dumps canonicalDump (.dict d.ms) = dumps canonicalDump (.dict c.ms) :=
        dumps_perm d.legible (Delivery.same_members id same.symm) rfl
      have duplicate := compareStored_same d.fields c.legible d.legible
      rw [textOf, textOf, text, if_pos rfl, id, ← same] at duplicate
      rw [← same]
      exact duplicate
    · rename_i other
      exact compareStored_older d.fields id (by omega)

/-- The versions of orders may be delivered in any order and any number of times. -/
theorem projection_insensitive (H : Histories) (M : Mapping)
    (accepted : ∀ c : Delivery H, M.rejects c.value = none)
    (created : Bool) (ds : List (Delivery H)) :
    -- the document of each id is the largest version delivered
    (∀ id, match (after M ⟨created, fun _ => none⟩ ds).docs id with
      | some d => (∃ c ∈ ds, c.order.id = id ∧ (c.order.version, c.value) = d) ∧
          ∀ c ∈ ds, c.order.id = id → c.order.version ≤ d.1
      | none => ∀ c ∈ ds, c.order.id ≠ id) ∧
    -- what the next call returns
    (∀ c : Delivery H,
      let outcome := (index M c.value (after M ⟨created, fun _ => none⟩ ds)).1
      (outcome = .ok "indexed" ↔ ∀ d ∈ ds, d.order.id = c.order.id →
        d.order.version < c.order.version) ∧
      (outcome = .ok "duplicate_ignored" ↔
        (∃ d ∈ ds, d.order.id = c.order.id ∧ d.order.version = c.order.version) ∧ ∀ d ∈ ds,
        d.order.id = c.order.id → d.order.version ≤ c.order.version) ∧
      (outcome = .ok "older_version_ignored" ↔
        ∃ d ∈ ds, d.order.id = c.order.id ∧ c.order.version < d.order.version)) ∧
    -- the version that is there, with other contents
    (∀ id version stored, (after M ⟨created, fun _ => none⟩ ds).docs id = some (version, stored) →
      ∀ ms, lookup (str "id") ms = some (.str id) →
        lookup (str "version") ms = some (.int version) →
          Legible Interpreter.recursionLimit (.dict ms) → ¬SameContents (.dict ms) stored →
          M.rejects (.dict ms) = none →
        index M (.dict ms) (after M ⟨created, fun _ => none⟩ ds) =
          (.error (conflict409 "event_version_payload_conflict"),
            ⟨true, (after M ⟨created, fun _ => none⟩ ds).docs⟩)) := by
  refine ⟨fun id => ?_, fun c => ?_, ?_⟩
  · cases e : (after M ⟨created, fun _ => none⟩ ds).docs id with
    | none => exact after_missing accepted e
    | some d => exact after_stored accepted e
  · cases e : (after M ⟨created, fun _ => none⟩ ds).docs c.order.id with
    | none =>
      have never := after_missing accepted e
      have indexed : (index M c.value (after M ⟨created, fun _ => none⟩ ds)).1 = .ok "indexed" := by
        rw [Delivery.value, index_fresh c.fields (accepted c) (Fence.fresh_none _ e)]
      simp only [indexed, Except.ok.injEq, String.reduceEq, false_iff, true_iff]
      refine ⟨fun d m id => absurd id (never d m), ?_, ?_⟩
      · rintro ⟨⟨d, m, id, _⟩, _⟩
        exact never d m id
      · rintro ⟨d, m, id, _⟩
        exact never d m id
    | some stored =>
      obtain ⟨⟨d, md, id, rfl⟩, largest⟩ := after_stored accepted e
      have outcome := index_classified accepted (after M ⟨created, fun _ => none⟩ ds) c d e id
      rcases lt_trichotomy d.order.version c.order.version with lt | same | gt
      · rw [if_pos lt] at outcome
        simp only [outcome, Except.ok.injEq, String.reduceEq, false_iff, true_iff]
        refine ⟨fun x mx idx => (largest x mx idx).trans_lt lt, ?_, ?_⟩
        · rintro ⟨⟨x, mx, idx, equal⟩, _⟩
          exact absurd (largest x mx idx) (equal ▸ not_le.2 lt)
        · rintro ⟨x, mx, idx, older⟩
          exact absurd (largest x mx idx) (not_le.2 (lt.trans older))
      · rw [if_neg (by omega), if_pos same.symm] at outcome
        simp only [outcome, Except.ok.injEq, String.reduceEq, false_iff, true_iff]
        refine ⟨fun all => absurd (all d md id) (by omega), ⟨⟨d, md, id, same⟩, same ▸ largest⟩, ?_⟩
        rintro ⟨x, mx, idx, older⟩
        exact absurd (largest x mx idx) (not_le.2 (same ▸ older))
      · rw [if_neg (by omega), if_neg (by omega)] at outcome
        simp only [outcome, Except.ok.injEq, String.reduceEq, false_iff, true_iff]
        refine ⟨fun all => absurd (all d md id) (by omega), ?_, ⟨d, md, id, gt⟩⟩
        rintro ⟨_, all⟩
        exact absurd (all d md id) (not_le.2 gt)
  · intro id version stored e ms hid hversion legible other notRejected
    obtain ⟨⟨d, _, rfl, same⟩, _⟩ := after_stored accepted e
    obtain ⟨rfl, rfl⟩ := Prod.mk.inj same
    rw [index_stale hid hversion notRejected e (lt_irrefl _), Delivery.value,
      compareStored_same d.fields legible d.legible, if_neg]
    intro text
    exact other ((textOf_same d.legible legible).1 text).symm

end Search

end

/-! ### An order of one cup -/

section
attribute [local instance] integral

def mug : Order :=
  newOrder ⟨str "mug", 2, 3⟩ (str "00000000-0000-4000-8000-000000000003")
    (str "2024-01-01T00:00:00.000+00:00")

/-- The example's history. -/
lemma mug_created : History [mug] := by
  have input : createInput (.dict [(str "item", .str (str "mug")), (str "quantity", .int 2),
    (str "unit_price", .int 3)]) =
      .ok ⟨str "mug", 2, 3⟩ := by rfl
  exact .created input (by decide +kernel) ⟨by decide +kernel, by decide +kernel⟩

def mugHistories : Search.Histories where
  of id := if id = mug.id then [mug] else []
  history id h := by
    split at h
    · rw [if_pos ‹_›]
      exact mug_created
    · exact absurd rfl h
  own id o m := by
    split at m
    · rw [List.mem_singleton.1 m]
      exact Eq.symm ‹_›
    · cases m

/-- The mug, paid. -/
def paidMug : Order := { mug with status := str "paid", version := 2 }

/-- The order of the example after its payment. -/
lemma mug_paid : transition mug
    (.dict [(str "expected_version", .int 1), (str "status", .str (str "paid"))]) =
    .ok paidMug := by rfl

/-- Both versions of the mug. -/
def paidHistories : Search.Histories where
  of id := if id = mug.id then [mug, paidMug] else []
  history id h := by
    split at h
    · rw [if_pos ‹_›]
      exact .updated (show History ([] ++ [mug]) from mug_created) mug_paid
    · exact absurd rfl h
  own id o m := by
    split at m
    · rename_i same
      have versions : o = mug ∨ o = paidMug := by simpa using m
      rcases versions with rfl | rfl <;> exact same.symm
    · cases m

def mugDelivery : Search.Delivery paidHistories where
  order := mug
  mem := by simp [paidHistories]
  ms := mug.members
  perm := List.Perm.refl _

/-- The members of the paid mug, the last one first. -/
def paidDelivery : Search.Delivery paidHistories where
  order := paidMug
  mem := List.mem_cons_of_mem _ List.mem_cons_self
  ms := paidMug.members.reverse
  perm := paidMug.members.reverse_perm

/-- The paid mug is delivered first, and stays. -/
theorem Search.projection_insensitive_mug :
    (index ⟨fun _ => none⟩ mugDelivery.value
      (after ⟨fun _ => none⟩ ⟨true, fun _ => none⟩ [paidDelivery])).1 =
        .ok "older_version_ignored" ∧
      ∃ stored, (after ⟨fun _ => none⟩ ⟨true, fun _ => none⟩ [paidDelivery, mugDelivery]).docs
        mug.id = some (2, stored) := by
  have projected := projection_insensitive paidHistories ⟨fun _ => none⟩ (fun _ => rfl) true
  refine ⟨((projected [paidDelivery]).2.1 mugDelivery).2.2.2 ⟨paidDelivery,
    by simp, rfl, by decide⟩, ?_⟩
  have newest := (projected [paidDelivery, mugDelivery]).1 mug.id
  cases stored : (after ⟨fun _ => none⟩ ⟨true, fun _ => none⟩ [paidDelivery,
    mugDelivery]).docs mug.id with
  | none =>
    rw [stored] at newest
    exact absurd rfl (newest mugDelivery (by simp))
  | some d =>
    rw [stored] at newest
    obtain ⟨⟨c, m, _, rfl⟩, largest⟩ := newest
    have second := largest paidDelivery (by simp) rfl
    rcases List.mem_cons.1 m with rfl | m
    · exact ⟨_, rfl⟩
    · rw [List.mem_singleton.1 m] at second
      exact absurd second (by decide)

end

end DbLab.Mvp
