import DbLab.Txlab.AuditSpec

/-!
# What `audit` checks of one order

The checks that run for each order: its values, its claim, its ledger entries, its events and their
payloads. They can be evaluated when the order's fingerprint exists and its payloads are read.
-/

namespace DbLab.Txlab
open DbLab.Py

/-- Entries of the rows of one order carry its id. -/
lemma tagged {ρ β : Type} {rs : List ρ} {key : ρ → Str} {f : ρ → Str × β} {id : Str}
    (h : ∀ r, (f r).1 = key r) : ∀ e ∈ (rs.filter fun r => key r = id).map f, e.1 = id := by
  intro e m
  obtain ⟨r, mr, rfl⟩ := List.mem_map.1 m
  rw [h]
  exact of_decide_eq_true (List.mem_filter.1 mr).2

variable [Interpreter] {s : Snapshot} {i : InventoryRow} {o : OrderRow} {c : Str}

/-- The request key of an order. -/
lemma item_orderKey : o.toValue.item "request_key" = .ok (.str o.requestKey) := by
  simp [OrderRow.toValue]
/-- The quantity of an order. -/
lemma item_quantity : o.toValue.item "quantity" = .ok (.int o.quantity) := by
  simp [OrderRow.toValue]
/-- The amount of an order. -/
lemma item_amount : o.toValue.item "amount" = .ok (.int o.amount) := by simp [OrderRow.toValue]
/-- The state of an order. -/
lemma item_state : o.toValue.item "state" = .ok (.str o.state) := by simp [OrderRow.toValue]

/-- The checks of its values. -/
lemma orderValues_ok :
    ∃ b, orderValues i.toValue (.int o.quantity) (.int o.amount) (.str o.state) = .ok b ∧
      (b = true ↔ 0 < o.quantity ∧ o.amount = o.quantity * i.unitPrice ∧
        (o.paid ∨ o.refunded)) := by
  have price : i.toValue.item "unit_price" = .ok (.int i.unitPrice) := by
    simp [InventoryRow.toValue]
  rw [orderValues, isInt_int, le_int, ok_bind, price, ok_bind, mul_int, ok_bind, eq_int]
  by_cases q : 0 < o.quantity
  · by_cases a : o.amount = o.quantity * i.unitPrice
    · refine ⟨_, by rw [if_neg (by simp), if_neg (by simpa using q), if_neg (by simp [a])]; rfl, ?_⟩
      simp [q, a, OrderRow.paid, OrderRow.refunded]
    · refine ⟨false, by rw [if_neg (by simp), if_neg (by simpa using q),
        if_pos (by simp [a])]; rfl, ?_⟩
      simp [a]
  · refine ⟨false, by rw [if_neg (by simp), if_pos (by simpa using q)]; rfl, ?_⟩
    simp [q]

/-! ### The claim -/

/-- When it has a fingerprint. -/
lemma fingerprint?_eq_some {fp : Str} :
    o.fingerprint? c = some fp ↔
      ∃ p, purchase? (.str c) (.str o.requestKey) (.int o.quantity) = .ok p ∧
        p.fingerprint = .ok fp := by
  rw [OrderRow.fingerprint?]
  cases purchase? (.str c) (.str o.requestKey) (.int o.quantity) with
  | error e => simp
  | ok p =>
    have toOption : ∀ x : Except Exn Str, x.toOption = some fp ↔ x = .ok fp := by
      intro x
      cases x <;> simp [Except.toOption]
    simp [toOption]

/-- The claim of an order: under its key, with its id and its fingerprint. -/
def OrderRow.claimed (o : OrderRow) (s : Snapshot) (c : Str) : Prop :=
  ∃ r ∈ s.requests, r.requestKey = o.requestKey ∧ r.orderId = o.id ∧
    o.fingerprint? c = some r.fingerprint

/-- The check of its claim. -/
lemma claimPayload_ok (keys : (s.requests.map RequestRow.requestKey).Nodup)
    (fp : ∃ fp, o.fingerprint? c = some fp) :
    ∃ ch, claimPayload (.str c) (KeyDict.ofStr s.claimDict) (.str o.id) o.toValue
      (.int o.quantity) = .ok ch ∧ (ch.ok = true ↔ o.claimed s c) := by
  obtain ⟨fp, hfp⟩ := fp
  obtain ⟨p, hp, run⟩ := fingerprint?_eq_some.1 hfp
  rw [claimPayload, item_orderKey, ok_bind, hp, ok_bind, run, ok_bind, ofStr_get?]
  cases found : lookup o.requestKey s.claimDict with
  | none =>
    refine ⟨_, rfl, ?_⟩
    rw [lookup_eq_none, claimDict_keys] at found
    constructor
    · exact nofun
    · rintro ⟨r, m, key, _⟩
      exact absurd (List.mem_map.2 ⟨r, m, key⟩) found
  | some v =>
    obtain ⟨r, m, e⟩ := List.mem_map.1 (lookup_mem found)
    obtain ⟨key, rfl⟩ := Prod.mk.inj e
    have target : r.toValue.item "order_id" = .ok (.str r.orderId) := by simp [RequestRow.toValue]
    have print : r.toValue.item "fingerprint" = .ok (.str r.fingerprint) := by
      simp [RequestRow.toValue]
    refine ⟨{ name := "claim_payload_and_order",
              ok := decide (r.orderId = o.id ∧ r.fingerprint = fp)
              details := [("order_id", .str o.id)] }, ?_, ?_⟩
    · by_cases id : r.orderId = o.id <;> simp [claimMatches, target, print, id, pure_eq_ok]
    · rw [decide_eq_true_eq]
      constructor
      · rintro ⟨id, rfl⟩
        exact ⟨r, m, key, id, hfp⟩
      · rintro ⟨r', m', key', id, print'⟩
        obtain rfl := List.inj_on_of_nodup_map keys m' m (key'.trans key.symm)
        rw [hfp, Option.some_inj] at print'
        exact ⟨id, print'.symm⟩

/-! ### Ledger entries and events -/

/-- The counter key of an entry. -/
def entryKey (e : Str × Str × Int) : LedgerKey := (.str e.1, .str e.2.1, .int e.2.2)

/-- Entries are equal as tuples. -/
lemma entryKey_eq (a b : Str × Str × Int) : (entryKey a).eq (entryKey b) = decide (a = b) := by
  obtain ⟨owner, phase, delta⟩ := a
  obtain ⟨owner', phase', delta'⟩ := b
  simp [entryKey, LedgerKey.eq, Bool.decide_and, Bool.and_assoc]

/-- The entries expected of it. -/
lemma expectedLedger_ok :
    expectedLedger o.refunded (.int o.amount) = .ok ((o.entries.map Prod.snd).map entryKey) := by
  rw [expectedLedger, neg_int, ok_bind, OrderRow.entries]
  cases o.refunded <;> rfl

/-- The rows of an order in the ledger. -/
lemma ledgerRows_ok :
    rowsOf s.tables.ledger (.str o.id) =
      .ok ((s.ledger.filter fun e => e.orderId = o.id).map LedgerRow.toValue) :=
  filterItem_ok (v := LedgerRow.toValue) (k := "order_id") (f := LedgerRow.orderId)
    (fun e => by simp [LedgerRow.toValue]) o.id s.ledger

/-- The entries of ledger rows. -/
lemma ledgerKeys_ok (es : List LedgerRow) :
    (es.map LedgerRow.toValue).mapM ledgerKey =
      .ok (((es.map LedgerRow.entry).map Prod.snd).map entryKey) := by
  rw [List.mapM_map, List.map_map, List.map_map]
  apply mapM_ok
  intro e _
  have owner : e.toValue.item "owner" = .ok (.str e.owner) := by simp [LedgerRow.toValue]
  have phase : e.toValue.item "phase" = .ok (.str e.phase) := by simp [LedgerRow.toValue]
  have delta : e.toValue.item "delta" = .ok (.int e.delta) := by simp [LedgerRow.toValue]
  rw [Function.comp_apply, ledgerKey, owner, phase, delta]
  rfl

/-- The events of an order. -/
lemma eventRows_ok :
    rowsOf s.tables.events (.str o.id) =
      .ok ((s.events.filter fun e => e.orderId = o.id).map EventRow.toValue) :=
  filterItem_ok (v := EventRow.toValue) (k := "order_id") (f := EventRow.orderId)
    (fun e => by simp [EventRow.toValue]) o.id s.events

/-- The kinds of events. -/
lemma eventKinds_ok (es : List EventRow) :
    (es.map EventRow.toValue).mapM eventKind =
      .ok (((es.map EventRow.kindOf).map Prod.snd).map Value.str) := by
  rw [List.mapM_map, List.map_map, List.map_map]
  apply mapM_ok
  intro e _
  have kind : e.toValue.item "kind" = .ok (.str e.kind) := by simp [EventRow.toValue]
  rw [Function.comp_apply, eventKind, kind]
  rfl

/-- The kinds expected of an order. -/
lemma expectedEvents_eq : expectedEvents o.refunded = (o.kinds.map Prod.snd).map Value.str := by
  rw [expectedEvents, OrderRow.kinds]
  cases o.refunded <;> rfl

/-- The check of a payload. -/
lemma payloadCheck_ok {e : EventRow} (h : ∃ v, loadsPayload (.str e.payload) = .ok v) :
    ∃ ch, payloadCheck (.str o.id) (.int o.quantity) (.int o.amount) e.toValue = .ok ch ∧
      (ch.ok = true ↔ e.matchesOrder o) := by
  obtain ⟨v, read⟩ := h
  have payload : e.toValue.item "payload" = .ok (.str e.payload) := by simp [EventRow.toValue]
  have kind : e.toValue.item "kind" = .ok (.str e.kind) := by simp [EventRow.toValue]
  refine ⟨_, by rw [payloadCheck, payload, ok_bind, read, ok_bind, kind]; rfl, ?_⟩
  constructor
  · exact fun same => ⟨v, read, same⟩
  · rintro ⟨v', read', same⟩
    rw [read, Except.ok.injEq] at read'
    rw [← read'] at same
    exact same

/-! ### All checks of the order -/

/-- The checks of an order can be evaluated. -/
structure OrderRow.Readable (o : OrderRow) (s : Snapshot) (c : Str) : Prop where
  fingerprint : ∃ fp, o.fingerprint? c = some fp
  payloads : ∀ e ∈ s.events, e.orderId = o.id → ∃ v, loadsPayload (.str e.payload) = .ok v

/-- The rows of the snapshot account for the order. -/
structure OrderRow.Accounted (o : OrderRow) (s : Snapshot) (i : InventoryRow) (c : Str) : Prop where
  quantity_pos : 0 < o.quantity
  amount : o.amount = o.quantity * i.unitPrice
  state : o.paid ∨ o.refunded
  claim : o.claimed s c
  ledger : ((s.ledger.filter fun e => e.orderId = o.id).map LedgerRow.entry).Perm o.entries
  events : ((s.events.filter fun e => e.orderId = o.id).map EventRow.kindOf).Perm o.kinds
  payloads : ∀ e ∈ s.events, e.orderId = o.id → e.matchesOrder o

/-- The checks of an order. -/
lemma orderChecks_ok (keys : (s.requests.map RequestRow.requestKey).Nodup) (h : o.Readable s c) :
    ∃ cs, orderChecks s.tables i.toValue (.str c) (KeyDict.ofStr s.claimDict)
      true (.str o.id) o.toValue =
        .ok cs ∧ (cs.all Check.ok ↔ o.Accounted s i c) := by
  obtain ⟨bv, values, hv⟩ := orderValues_ok (i := i) (o := o)
  obtain ⟨cl, claim, hcl⟩ := claimPayload_ok keys h.fingerprint
  obtain ⟨ps, payloads, hps⟩ :=
    mapM_map_ok fun e (m : e ∈ s.events.filter fun e => e.orderId = o.id) =>
    payloadCheck_ok (o := o)
      (h.payloads e (List.mem_filter.1 m).1 (of_decide_eq_true (List.mem_filter.1 m).2))
  have run : orderChecks s.tables i.toValue (.str c) (KeyDict.ofStr s.claimDict)
    true (.str o.id) o.toValue =
      .ok ({ name := "order_values", ok := bv, details := [("order_id", .str o.id)] } :: [cl] ++
        { name := "order_ledger_exact"
          ok := counterEq LedgerKey.eq
            ((((s.ledger.filter fun e => e.orderId = o.id).map LedgerRow.entry).map
              Prod.snd).map entryKey)
            ((o.entries.map Prod.snd).map entryKey)
          details := [("order_id", .str o.id)] } ::
        { name := "order_events_exact"
          ok := counterEq Value.eq
            ((((s.events.filter fun e => e.orderId = o.id).map EventRow.kindOf).map
              Prod.snd).map Value.str)
            ((o.kinds.map Prod.snd).map Value.str)
          details := [("order_id", .str o.id)] } :: ps) := by
    simp only [orderChecks, item_quantity, item_amount, item_state, ok_bind, values, claim,
      if_true, eq_str, pure_eq_ok]
    rw [← OrderRow.refunded, expectedLedger_ok, ok_bind, ledgerRows_ok, ok_bind,
      ledgerKeys_ok, ok_bind, eventRows_ok, ok_bind, eventKinds_ok, ok_bind, payloads, ok_bind,
      expectedEvents_eq]
  have ledger := (counterEq_map entryKey_eq
    (((s.ledger.filter fun e => e.orderId = o.id).map LedgerRow.entry).map Prod.snd)
    (o.entries.map Prod.snd)).trans
      (Data.perm_map_snd (tagged fun e => rfl) (entries_id o))
  have events := (counterEq_map eq_str
    (((s.events.filter fun e => e.orderId = o.id).map EventRow.kindOf).map Prod.snd)
    (o.kinds.map Prod.snd)).trans
      (Data.perm_map_snd (tagged fun e => rfl) (kinds_id o))
  refine ⟨_, run, ?_⟩
  simp only [List.cons_append, List.nil_append, List.all_cons, Bool.and_eq_true, hv, hcl,
    ledger, events, hps]
  constructor
  · rintro ⟨⟨q, a, st⟩, cl, l, e, ps⟩
    exact ⟨q, a, st, cl, l, e, fun e m id => ps e (List.mem_filter.2 ⟨m, decide_eq_true id⟩)⟩
  · intro h
    exact ⟨⟨h.quantity_pos, h.amount, h.state⟩, h.claim, h.ledger, h.events, fun e m =>
      h.payloads e (List.mem_filter.1 m).1 (of_decide_eq_true (List.mem_filter.1 m).2)⟩

/-- Checks that ran have read the order. -/
lemma orderChecks_readable {cs : List Check}
    (h : orderChecks s.tables i.toValue (.str c) (KeyDict.ofStr s.claimDict)
      true (.str o.id) o.toValue = .ok cs) : o.Readable s c := by
  obtain ⟨bv, values, _⟩ := orderValues_ok (i := i) (o := o)
  simp only [orderChecks, item_quantity, item_amount, item_state, ok_bind, values, if_true, eq_str,
    pure_eq_ok] at h
  obtain ⟨cl, claim, h⟩ := bind_ok.1 h
  rw [← OrderRow.refunded, expectedLedger_ok, ok_bind, ledgerRows_ok, ok_bind,
    ledgerKeys_ok, ok_bind, eventRows_ok, ok_bind, eventKinds_ok, ok_bind] at h
  obtain ⟨ps, payloads, _⟩ := bind_ok.1 h
  constructor
  · rw [claimPayload, item_orderKey, ok_bind] at claim
    obtain ⟨p, hp, claim⟩ := bind_ok.1 claim
    obtain ⟨fp, run, _⟩ := bind_ok.1 claim
    exact ⟨fp, fingerprint?_eq_some.2 ⟨p, hp, run⟩⟩
  · intro e m id
    have mem : e.toValue ∈ (s.events.filter fun e => e.orderId = o.id).map EventRow.toValue :=
      List.mem_map_of_mem (List.mem_filter.2 ⟨m, decide_eq_true id⟩)
    obtain ⟨ch, check⟩ := mapM_mem_ok payloads _ mem
    have payload : e.toValue.item "payload" = .ok (.str e.payload) := by simp [EventRow.toValue]
    rw [payloadCheck, payload, ok_bind] at check
    obtain ⟨v, read, _⟩ := bind_ok.1 check
    exact ⟨v, read⟩

end DbLab.Txlab
