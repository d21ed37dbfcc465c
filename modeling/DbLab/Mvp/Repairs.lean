import DbLab.Mvp.Envelope
import DbLab.Mvp.Ledger
import DbLab.Mvp.Repair

/-!
# Repairs beside updates and late deliveries (`message_drill.Runner`)

Rows change while quarantined records are repaired, again and again, and the events of repairs and
of old versions reach the index in any order and any number of times.
-/

namespace DbLab.Mvp.Message
open DbLab.Py

/-- A run id is short. -/
lemma Scope.runId_length (scope : Scope) : scope.runId.length ≤ 28 :=
  ((Pattern.Short.lit "msg-").seq (.times lowerHex 24)).fullmatch scope.runId_ok

section
variable [Interpreter]

/-- The ledger, the source topic, the index, and the offsets that were projected. -/
structure World where
  histories : Search.Histories
  log : List Sent
  index : Elastic
  delivered : List Nat

/-- Nothing was sent yet. -/
def World.start (H : Search.Histories) (created : Bool) : World :=
  ⟨H, [], ⟨created, fun _ => none⟩, []⟩

/-- One step of the database, of a repair, or of a consumer. -/
inductive Step (uuid5 : Uuid5) (scope : Scope) (topicId : Str) (M : Mapping) : World → World → Prop
  | create {w o} (fresh : w.histories.of o.id = []) (new : History [o]) :
    Step uuid5 scope topicId M w { w with histories := w.histories.create o new }
  | update {w past o o' data} (last : w.histories.of o.id = past ++ [o])
      (step : transition o data = .ok o') :
    Step uuid5 scope topicId M w { w with histories := w.histories.update last step }
  | send {w o eventId key raw} (made : o ∈ w.histories.of o.id) (uuid : IsUuid eventId)
      (keyOf : encode o.id = .ok key)
    (rawOf : canonical (envelope o.fields eventId) = .ok raw) :
    Step uuid5 scope topicId M w { w with log := w.log ++ [⟨o, key, raw⟩] }
  | repair {w record allowed rows event o key raw}
      (tidy : Tidy True Interpreter.recursionLimit record)
    (current : ∀ r ∈ rows, w.histories.Current r.toOrder)
    (repaired : repairEvent uuid5 record scope topicId allowed rows = .ok event)
    (orderOf : event.item "order" = .ok (.ofFields o.fields)) (keyOf : encode o.id = .ok key)
    (rawOf : canonical event = .ok raw) :
    Step uuid5 scope topicId M w { w with log := w.log ++ [⟨o, key, raw⟩] }
  | deliver {w i m event order} (sent : w.log[i]? = some m)
    (read : readRecord (some m.key) (some m.raw) = .ok event)
      (orderOf : event.item "order" = .ok order) :
    Step uuid5 scope topicId M w
      { w with index := (Search.index M order w.index).2, delivered := i :: w.delivered }

/-- A delivery of the message asks the index for this. -/
def Wrote (m : Sent) (x : Fence.Write Str Int Value) : Prop :=
  x.key = m.order.id ∧ x.version = m.order.version ∧ ∃ ms, x.value = .dict ms ∧
    ms.Perm m.order.members

/-- Every message is that of a version, and the index holds what the projected messages have
left. -/
structure World.Inv (w : World) : Prop where
  sent : ∀ m ∈ w.log, ∃ es ms, m.Carries w.histories es ms
  kept : ∃ ws : List (Fence.Write Str Int Value), Fence.Holds w.index.docs ws ∧
    (∀ x ∈ ws, ∃ i ∈ w.delivered, ∃ m, w.log[i]? = some m ∧ Wrote m x) ∧
    ∀ i ∈ w.delivered, ∃ m, ∃ x ∈ ws, w.log[i]? = some m ∧ Wrote m x

/-- The invariant holds at the start. -/
lemma World.Inv.start (H : Search.Histories) (created : Bool) : (World.start H created).Inv where
  sent := nofun
  kept := ⟨[], Fence.holds_empty, nofun, nofun⟩

/-- The ledger grows. -/
lemma World.Inv.grow {w : World} (inv : w.Inv) {H : Search.Histories}
    (within : w.histories.Within H) :
    World.Inv { w with histories := H } where
  sent m mem := by
    obtain ⟨es, ms, carries⟩ := inv.sent m mem
    exact ⟨es, ms, carries.within within⟩
  kept := inv.kept

/-- A message of a version is sent. -/
lemma World.Inv.append {w : World} (inv : w.Inv) {m : Sent} {es ms : Fields}
    (carries : m.Carries w.histories es ms) :
    World.Inv { w with log := w.log ++ [m] } where
  sent m' mem := by
    rcases List.mem_append.1 mem with old | new
    · exact inv.sent m' old
    · rw [List.mem_singleton.1 new]
      exact ⟨es, ms, carries⟩
  kept := by
    obtain ⟨ws, holds, from_log, in_ws⟩ := inv.kept
    have old : ∀ {i : Nat} {m' : Sent}, w.log[i]? = some m' → (w.log ++ [m])[i]? = some m' := by
      intro i m' at_i
      rw [List.getElem?_append_left (List.getElem?_eq_some_iff.1 at_i).1]
      exact at_i
    refine ⟨ws, holds, fun x mx => ?_, fun i mi => ?_⟩
    · obtain ⟨i, mi, m', at_i, wrote⟩ := from_log x mx
      exact ⟨i, mi, m', old at_i, wrote⟩
    · obtain ⟨m', x, mx, at_i, wrote⟩ := in_ws i mi
      exact ⟨m', x, mx, old at_i, wrote⟩

/-- The index accepts the orders of the database. -/
def Accepts (M : Mapping) : Prop :=
  ∀ h o ms, History h → o ∈ h → ms.Perm (Order.members o) → M.rejects (.dict ms) = none

/-- A mapping that accepts orders rejects no delivery. -/
lemma Accepts.delivery {M : Mapping} (accepts : Accepts M) {H : Search.Histories}
    (c : Search.Delivery H) :
    M.rejects c.value = none :=
  accepts _ c.order c.ms (H.history c.order.id (List.ne_nil_of_mem c.mem)) c.mem c.perm

variable {M : Mapping} {w : World} {i : Nat} {m : Sent} {es ms : Fields}

/-- A message is projected. -/
lemma World.Inv.deliver (accepts : Accepts M) (inv : w.Inv) (sent : w.log[i]? = some m)
    (carries : m.Carries w.histories es ms) :
    World.Inv
      { w with index := (Search.index M (.dict ms) w.index).2, delivered := i :: w.delivered } := by
  obtain ⟨ws, holds, from_log, in_ws⟩ := inv.kept
  have docs : (Search.index M (.dict ms) w.index).2.docs =
      Fence.write w.index.docs carries.delivery.write :=
    Search.index_docs w.index carries.delivery (accepts.delivery _)
  have wrote : Wrote m carries.delivery.write := ⟨rfl, rfl, ms, rfl, carries.perm⟩
  refine ⟨inv.sent, ws ++ [carries.delivery.write], ?_, fun x mx => ?_, fun j mj => ?_⟩
  · rw [docs]
    exact holds.write _
  · rcases List.mem_append.1 mx with old | new
    · obtain ⟨j, mj, m', at_j, wrote⟩ := from_log x old
      exact ⟨j, List.mem_cons_of_mem _ mj, m', at_j, wrote⟩
    · rw [List.mem_singleton.1 new]
      exact ⟨i, List.mem_cons_self, m, sent, wrote⟩
  · rcases List.mem_cons.1 mj with rfl | old
    · exact ⟨m, _, List.mem_append_right _ (List.mem_singleton_self _), sent, wrote⟩
    · obtain ⟨m', x, mx, at_j, wrote⟩ := in_ws j old
      exact ⟨m', x, List.mem_append_left _ mx, at_j, wrote⟩

/-! ### Repaired rows -/

/-- The fields of an order determine it. -/
lemma ofFields_order {o o' : Order} (h : Value.ofFields o.fields = .ofFields o'.fields) :
    o = o' := by
  have members : o.members = o'.members := Value.dict.inj h
  exact order_of_members (members ▸ List.Perm.refl _)

/-- What a repair adds is legible. -/
lemma repairOf_appended (scope : Scope) {dlqId : Str} (chars : ∀ c ∈ dlqId, Scalar c)
    (short : dlqId.length ≤ 64) :
    Appended (repairOf dlqId scope) where
  keys := (by decide : literalKeys ["schema_version", "event_id", "order", "repair"] = true)
  legible f m d := by
    obtain rfl := List.mem_singleton.1 m
    refine .ofFields (show literalKeys ["dlq_id", "basis", "run_id"] = true by decide) fun f m => ?_
    simp only [List.mem_cons, List.not_mem_nil, or_false] at m
    rcases m with rfl | rfl | rfl
    · exact .str chars
    · exact .str fun c m => ascii_scalar (by revert c; decide)
    · exact .str fun c m => ascii_scalar (scope.runId_ascii c m)
  small := by
    have dlq := str_size short
    have run := str_size scope.runId_length
    have basis : (Value.str (str "current_sql")).size ≤ 68 := str_size (n := 11) (by decide)
    have keys : ∀ k ∈ ["repair", "dlq_id", "basis", "run_id"], (str k).length ≤ 6 := by decide
    simp only [List.forall_mem_cons] at keys
    simp only [repairOf, List.map_cons, List.map_nil, List.sum_cons, List.sum_nil,
      Value.ofFields_size]
    omega

section Repairs
variable {uuid5 : Uuid5} {scope : Scope} {topicId : Str} {record event : Value}
  {allowed : List (Str × Str)}
variable {rows : List OrderRow} {dlqId : Str} {row : OrderRow}

/-- A repaired event holds the row's order. -/
lemma Repaired.order (h : Repaired uuid5 record scope topicId allowed rows event dlqId row) :
    event.item "order" = .ok (.ofFields row.fields) := by
  obtain ⟨basis, _, rfl⟩ := h.made
  simp [eventWith, Value.ofFields, Value.item, lookup]

/-- The id of a quarantine record is a digest. -/
lemma Repaired.appended (width : ∀ b, (Interpreter.sha256 b).length = 64)
    (h : Repaired uuid5 record scope topicId allowed rows event dlqId row)
    (tidy : Tidy True Interpreter.recursionLimit record) : Appended (repairOf dlqId scope) := by
  obtain ⟨value, checked⟩ := h.checked
  obtain ⟨ms, partition, offset, reason, identity, rfl, accepted⟩ :=
    accepted_of_checked tidy checked
  have dlq : dlqId = digest identity := by
    have there := h.identity
    rw [item_ok.2 ⟨ms, rfl, accepted.dlqId⟩, Except.ok.injEq, Value.str.injEq] at there
    exact there.symm
  exact repairOf_appended scope (dlq ▸ digest_scalar identity) (dlq ▸ (width identity).le)

/-- What a repair makes of a current row can be sent. -/
lemma Repaired.written (width : ∀ b, (Interpreter.sha256 b).length = 64) {H : Search.Histories}
    (h : Repaired uuid5 record scope topicId allowed rows event dlqId row)
    (tidy : Tidy True Interpreter.recursionLimit record) (made : row.toOrder ∈ H.of row.id) :
    ∃ raw, canonical event = .ok raw := by
  obtain ⟨basis, _, rfl⟩ := h.made
  have history := H.history row.id (List.ne_nil_of_mem made)
  obtain ⟨raw, _, _, written, _⟩ := eventWith_decoded history made (List.Perm.refl _)
    (uuid5.uuid (dlqId ++ digest basis)) (h.appended width tidy)
  exact ⟨raw, written⟩

/-- What a repair sends is a message of the row. -/
lemma repaired_carries (width : ∀ b, (Interpreter.sha256 b).length = 64) {o : Order}
    {key raw : Bytes}
    {H : Search.Histories} (tidy : Tidy True Interpreter.recursionLimit record)
    (current : ∀ r ∈ rows, H.Current r.toOrder)
    (repaired : repairEvent uuid5 record scope topicId allowed rows = .ok event)
    (orderOf : event.item "order" = .ok (.ofFields o.fields)) (keyOf : encode o.id = .ok key)
    (rawOf : canonical event = .ok raw) : ∃ es ms, Sent.Carries ⟨o, key, raw⟩ H es ms := by
  obtain ⟨dlqId, row, done⟩ := repairEvent_inv repaired
  have same : o = row.toOrder := by
    rw [done.order, Except.ok.injEq] at orderOf
    exact (ofFields_order orderOf).symm
  subst same
  have made := (current row (List.mem_of_find?_eq_some done.current)).mem
  have appended := done.appended width tidy
  obtain ⟨basis, _, rfl⟩ := done.made
  exact carries_eventWith made (uuid5.uuid _) appended keyOf (List.Perm.refl _) rawOf

end Repairs

/-! ### Runs -/

section Runs
variable {uuid5 : Uuid5} {scope : Scope} {topicId : Str} {M : Mapping} {w w' : World}

/-- Every step keeps the invariant. -/
theorem Step.inv (width : ∀ b, (Interpreter.sha256 b).length = 64) (accepts : Accepts M)
    (inv : w.Inv)
    (step : Step uuid5 scope topicId M w w') : w'.Inv := by
  cases step with
  | create fresh new => exact inv.grow (Search.Histories.within_create fresh new)
  | update last step => exact inv.grow (Search.Histories.within_update last step)
  | send made uuid keyOf rawOf =>
    obtain ⟨es, ms, carries⟩ :=
      carries_eventWith made uuid appended_nil keyOf (List.Perm.refl _) rawOf
    exact inv.append carries
  | repair tidy current repaired orderOf keyOf rawOf =>
    obtain ⟨es, ms, carries⟩ := repaired_carries width tidy current repaired orderOf keyOf rawOf
    exact inv.append carries
  | deliver sent read orderOf =>
    obtain ⟨es, ms, carries⟩ := inv.sent _ (List.mem_of_getElem? sent)
    cases read.symm.trans carries.read
    cases orderOf.symm.trans (item_ok.2 ⟨es, rfl, carries.order⟩)
    exact inv.deliver accepts sent carries

/-- Every reachable world has the invariant. -/
theorem reachable_inv (width : ∀ b, (Interpreter.sha256 b).length = 64) (accepts : Accepts M)
    {H : Search.Histories}
    {created : Bool} (run : Relation.ReflTransGen (Step uuid5 scope topicId M)
      (World.start H created) w) : w.Inv := by
  induction run with
  | refl => exact World.Inv.start H created
  | tail _ step ih => exact step.inv width accepts ih

/-- No step replaces a document but by a newer version. -/
theorem Step.mono (accepts : Accepts M) (inv : w.Inv) (step : Step uuid5 scope topicId M w w')
    {id : Str} {d : Int × Value}
    (stored : w.index.docs id = some d) :
    ∃ d', w'.index.docs id = some d' ∧ (d' = d ∨ d.1 < d'.1) := by
  cases step with
  | deliver sent read orderOf =>
    obtain ⟨es, ms, carries⟩ := inv.sent _ (List.mem_of_getElem? sent)
    cases read.symm.trans carries.read
    cases orderOf.symm.trans (item_ok.2 ⟨es, rfl, carries.order⟩)
    have docs : (Search.index M (.dict ms) w.index).2.docs =
        Fence.write w.index.docs carries.delivery.write :=
      Search.index_docs w.index carries.delivery (accepts.delivery _)
    simp only [docs]
    exact Fence.write_mono _ stored
  | _ => exact ⟨d, stored, .inl rfl⟩

/-- Every message can be projected, and never conflicts with what is there. -/
theorem World.Inv.projects (accepts : Accepts M) (inv : w.Inv) {i : Nat} {m : Sent}
    (sent : w.log[i]? = some m) :
    m.order ∈ w.histories.of m.order.id ∧ ∃ event order outcome,
      readRecord (some m.key) (some m.raw) = .ok event ∧ event.item "order" = .ok order ∧
        (Search.index M order w.index).1 = .ok outcome := by
  obtain ⟨es, ms, carries⟩ := inv.sent m (List.mem_of_getElem? sent)
  refine ⟨carries.made, .dict es, .dict ms, ?_⟩
  cases stored : w.index.docs m.order.id with
  | none =>
    have new :=
      Search.index_fresh (s := w.index) carries.delivery.fields (accepts.delivery _)
        (Fence.fresh_none _ stored)
    exact ⟨_, carries.read, item_ok.2 ⟨es, rfl, carries.order⟩, congrArg Prod.fst new⟩
  | some d =>
    obtain ⟨ws, holds, from_log, _⟩ := inv.kept
    obtain ⟨⟨x, mx, key, value⟩, _⟩ := holds.some stored
    obtain ⟨j, _, m', at_j, own, version, ms', contents, perm⟩ := from_log x mx
    obtain ⟨_, _, before⟩ := inv.sent m' (List.mem_of_getElem? at_j)
    have id : m'.order.id = m.order.id := own.symm.trans key
    have there : w.index.docs m.order.id = some (m'.order.version, .dict ms') := by
      rw [stored, ← value, version, contents]
    have outcome := Search.index_classified (fun c => accepts.delivery c) w.index carries.delivery
      ⟨m'.order, before.made, ms', perm⟩ there id
    exact ⟨_, carries.read, item_ok.2 ⟨es, rfl, carries.order⟩, outcome⟩

end Runs

/-- `repair_event` returns valid events for current rows of the run's fixtures; their ids stand for
the quarantine record and the row; and whatever is updated, repaired and delivered, in any order and
any number of times, each document ends up as the newest version of its order that was delivered. -/
theorem repair_fenced (width : ∀ b, (Interpreter.sha256 b).length = 64) (uuid5 : Uuid5)
    (scope : Scope) (topicId : Str)
    (M : Mapping) (accepts : Accepts M) :
    (∀ (record : Value) (allowed : List (Str × Str)) (rows : List OrderRow) (event : Value),
      repairEvent uuid5 record scope topicId allowed rows = .ok event →
        ∃ dlqId row, Repaired uuid5 record scope topicId allowed rows event dlqId row) ∧
    (∀ record record' allowed allowed' rows rows' event event' dlqId dlqId' row row',
      Repaired uuid5 record scope topicId allowed rows event dlqId row →
      Repaired uuid5 record' scope topicId allowed' rows' event' dlqId' row' →
      ∃ basis basis', canonical (.ofFields row.fields) = .ok basis ∧
        canonical (.ofFields row'.fields) = .ok basis' ∧
          ((digest basis = digest basis' → basis = basis') →
            (uuid5.ofUrl (dlqId ++ digest basis) = uuid5.ofUrl (dlqId' ++ digest basis') →
              dlqId ++ digest basis = dlqId' ++ digest basis') →
          (event.item "event_id" = event'.item "event_id" ↔
            dlqId = dlqId' ∧ row.toOrder = row'.toOrder))) ∧
    ∀ (H : Search.Histories) (created : Bool) (w : World),
      Relation.ReflTransGen (Step uuid5 scope topicId M) (World.start H created) w →
      -- every message is that of a version, and can be projected
      (∀ (i : Nat) (m : Sent), w.log[i]? = some m → m.order ∈ w.histories.of m.order.id ∧
        ∃ event order outcome, readRecord (some m.key) (some m.raw) = .ok event ∧
          event.item "order" = .ok order ∧ (Search.index M order w.index).1 = .ok outcome) ∧
      -- no step replaces a document by an older version
      (∀ w', Step uuid5 scope topicId M w w' → ∀ id d, w.index.docs id = some d →
        ∃ d', w'.index.docs id = some d' ∧ (d' = d ∨ d.1 < d'.1)) ∧
      -- each document is the newest version among the messages that were delivered
      ∀ id, match w.index.docs id with
        | some d =>
          (∃ i ∈ w.delivered, ∃ m, w.log[i]? = some m ∧ m.order.id = id ∧ m.order.version = d.1 ∧
            ∃ ms, d.2 = .dict ms ∧ ms.Perm m.order.members) ∧
            ∀ i ∈ w.delivered, ∀ m, w.log[i]? = some m → m.order.id = id → m.order.version ≤ d.1
        | none => ∀ i ∈ w.delivered, ∀ m, w.log[i]? = some m → m.order.id ≠ id := by
  refine ⟨fun record allowed rows event => repairEvent_inv, ?_, fun H created w run => ?_⟩
  · intro record record' allowed allowed' rows rows' event event' dlqId dlqId' row row' h h'
    exact h.event_id width h'
  · have inv := reachable_inv width accepts run
    refine ⟨fun i m sent => inv.projects accepts sent,
      fun w' step id d stored => step.mono accepts inv stored, fun id => ?_⟩
    obtain ⟨ws, holds, from_log, in_ws⟩ := inv.kept
    cases stored : w.index.docs id with
    | none =>
      intro i mi m at_i same
      obtain ⟨m', x, mx, at_i', key, _⟩ := in_ws i mi
      cases at_i.symm.trans at_i'
      exact holds.none stored x mx (key.trans same)
    | some d =>
      obtain ⟨⟨x, mx, key, value⟩, largest⟩ := holds.some stored
      obtain ⟨i, mi, m, at_i, own, version, ms, contents, perm⟩ := from_log x mx
      cases value
      refine ⟨⟨i, mi, m, at_i, own.symm.trans key, version.symm, ms, contents, perm⟩, ?_⟩
      intro j mj m' at_j same
      obtain ⟨m'', y, my, at_j', own', version', _⟩ := in_ws j mj
      cases at_j.symm.trans at_j'
      rw [← version']
      exact largest y my (own'.trans same)

end

/-! ### One order, paid and repaired -/

section
attribute [local instance] integral

def mugKey : Str := str "msg-0123456789abcdef01234567-1"

/-- The name that the id of the repair is made from. -/
def repairName : Str :=
  str "c34473bad79ca079bfee9eaaa172dd7517c4a9017e045dddbadc7e17e46ba18a" ++
    str "5084e57012e78b65dc681551e9d01903f4adb4102618aa67d3826d9ada304ff2"

/-- The UUID of this name; every other one has that of the empty name. -/
def repairUuid : Uuid5 where
  ofUrl name :=
    if name = repairName then str "c3c8a506-7a00-5828-adca-0f79264d12fe"
      else str "1b4db7eb-4057-5ddf-91e0-36dec72071f5"
  uuid name := by
    split
    · decide +kernel
    · decide +kernel

/-- The record of a message about the mug whose value is a lone brace. -/
def bracedRecord : Except Raised Value :=
  (quarantineRecord drillScope (str "topic") (ownRecord drillScope 0)
    (some (mug.id.map .ofNat)) (some [123])
    (.str (str "invalid_event_json"))).mapError .python

/-- The repair of the record from the row of the paid mug. -/
def bracedRepair : Except Raised (Value × Value) := do
  let record ← bracedRecord
  let event ← repairEvent repairUuid record drillScope (str "topic") [(mug.id, mugKey)]
    [⟨paidMug, mugKey⟩]
  return (record, event)

/-- Whether the event has the id. -/
def identified (event : Value) (id : String) : Bool :=
  match event.item "event_id" with
  | .ok (.str id') => id' = str id
  | _ => false

/-- The repair of the example, under the id that uuid5 gives. -/
lemma mug_repaired : ∃ record event, Tidy True Interpreter.recursionLimit record ∧
    repairEvent repairUuid record drillScope (str "topic") [(mug.id, mugKey)]
      [⟨paidMug, mugKey⟩] = .ok event ∧
    identified event "c3c8a506-7a00-5828-adca-0f79264d12fe" = true := by
  have run : passes bracedRepair (fun r => identified r.2 "c3c8a506-7a00-5828-adca-0f79264d12fe") =
      true := by
    decide +kernel
  obtain ⟨⟨record, event⟩, ok, id⟩ := ok_of_test run
  obtain ⟨recorded, made, ok⟩ := bind_ok.1 ok
  obtain ⟨repaired, done, ok⟩ := bind_ok.1 ok
  cases ok
  obtain ⟨_, _, _, identity, _, rfl⟩ := quarantineRecord_inv (mapError_ok.1 made)
  exact ⟨_, _, envelopeOf_tidy (d := 998) 0 (digest identity)
    (show Tidy True 998 (.int 0) from .int) .str, done, id⟩

/-- The run: the mug is sent and paid, another message about it is repaired, and the repair arrives
first. -/
theorem repair_fenced_mug :
    ∃ w d, Relation.ReflTransGen (Step repairUuid drillScope (str "topic") ⟨fun _ => none⟩)
    (World.start mugHistories true) w ∧ w.log.map Sent.order = [mug, paidMug] ∧
    w.delivered = [0, 1] ∧ w.index.docs mug.id = some d ∧ d.1 = 2 := by
  have accepts : Accepts ⟨fun _ => none⟩ := fun _ _ _ _ _ _ => rfl
  have fenced := repair_fenced Sha256.hexdigest_length repairUuid drillScope (str "topic") _ accepts
  have made : mug ∈ mugHistories.of mug.id := by simp [mugHistories]
  have last : mugHistories.of mug.id = [] ++ [mug] := by simp [mugHistories]
  have uuid : IsUuid (str "00000000-0000-4000-8000-000000000004") := by decide +kernel
  obtain ⟨key, keyOf⟩ :=
    encode_scalar ((mugHistories.history mug.id (by simp [mugHistories])).valid mug
      made).uuid.scalar
  obtain ⟨raw, _, _, rawOf, _⟩ :=
    eventWith_decoded mug_created (by simp) (List.Perm.refl mug.members) uuid appended_nil
  have sent : Step repairUuid drillScope (str "topic") ⟨fun _ => none⟩
    (World.start mugHistories true)
      ⟨mugHistories, [⟨mug, key, raw⟩], ⟨true, fun _ => none⟩, []⟩ := .send made uuid keyOf rawOf
  have paid := (Relation.ReflTransGen.single sent).tail (.update last mug_paid)
  -- the row is the current one
  obtain ⟨record, event, tidy, repaired, _⟩ := mug_repaired
  have current : ∀ r ∈ [OrderRow.mk paidMug mugKey],
      (mugHistories.update last mug_paid).Current r.toOrder := by
    intro r m
    rw [List.mem_singleton.1 m, Search.Histories.Current, Search.Histories.update_of]
    simp [Function.update_self, show paidMug.id = mug.id from rfl]
  obtain ⟨dlqId, row, done⟩ := fenced.1 _ _ _ _ repaired
  cases List.mem_singleton.1 (List.mem_of_find?_eq_some done.current)
  obtain ⟨raw', written⟩ :=
    done.written Sha256.hexdigest_length tidy (current _ (List.mem_singleton_self _)).mem
  have fixed := paid.tail (.repair tidy current repaired done.order keyOf written)
  -- both messages are read, the second one first
  have inv := reachable_inv Sha256.hexdigest_length accepts fixed
  obtain ⟨es, ms, carries⟩ := inv.sent ⟨mug, key, raw⟩ (by simp)
  obtain ⟨es', ms', carries'⟩ := inv.sent ⟨paidMug, key, raw'⟩ (by simp)
  have second :=
    fixed.tail (.deliver (i := 1) rfl carries'.read (item_ok.2 ⟨es', rfl, carries'.order⟩))
  obtain ⟨w, run, log, delivered⟩ : ∃ w,
    Relation.ReflTransGen (Step repairUuid drillScope (str "topic") ⟨fun _ => none⟩)
      (World.start mugHistories true) w ∧ w.log = [⟨mug, key, raw⟩, ⟨paidMug, key, raw'⟩] ∧
        w.delivered = [0, 1] :=
    ⟨_, second.tail (.deliver (i := 0) rfl carries.read (item_ok.2 ⟨es, rfl, carries.order⟩)), rfl,
      rfl⟩
  have newest := (fenced.2.2 mugHistories true w run).2.2 mug.id
  cases stored : w.index.docs mug.id with
  | none =>
    rw [stored] at newest
    exact absurd rfl (newest 0 (by rw [delivered]; decide) ⟨mug, key, raw⟩ (by rw [log]; rfl))
  | some d =>
    rw [stored] at newest
    obtain ⟨⟨i, mi, m, at_i, _, version, _⟩, largest⟩ := newest
    have paid : 2 ≤ d.1 :=
      largest 1 (by rw [delivered]; decide) ⟨paidMug, key, raw'⟩ (by rw [log]; rfl) rfl
    have only : m.order.version ≤ 2 := by
      have there := List.mem_of_getElem? at_i
      rw [log] at there
      rcases List.mem_cons.1 there with rfl | there
      · exact (by decide : mug.version ≤ 2)
      · rw [List.mem_singleton.1 there]
        exact (by decide : paidMug.version ≤ 2)
    exact ⟨w, d, run, by rw [log]; rfl, delivered, stored, by omega⟩

end

end DbLab.Mvp.Message
