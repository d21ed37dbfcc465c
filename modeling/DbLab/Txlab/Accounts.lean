import DbLab.Txlab.OrderSpec

/-!
# The checks of `audit` pin the snapshot

`Accounts` is what the checks of `audit` say together, part by part. It is equivalent to
`Consistent`: the aggregate checks (sums, counters, sets) and the checks per order leave no freedom
but the order of rows.
-/

namespace DbLab.Txlab
open DbLab.Py

/-! ### Sums over the entries of orders -/

/-- What an entry adds to the balance of `owner`. -/
def entryDelta (owner : Str) (e : Str × Str × Str × Int) : Int :=
  if e.2.1 = owner then e.2.2.2 else 0

/-- What the ledger adds up to for an owner. -/
lemma ownerDelta_eq (ledger : List LedgerRow) (owner : Str) :
    ownerDelta ledger owner = ((ledger.map LedgerRow.entry).map (entryDelta owner)).sum := by
  induction ledger with
  | nil => rfl
  | cons e ledger ih =>
    rw [ownerDelta] at ih ⊢
    by_cases h : e.owner = owner
    · rw [List.filter_cons_of_pos (by simpa using h), List.map_cons, List.sum_cons, ih]
      simp [entryDelta, LedgerRow.entry, h]
    · rw [List.filter_cons_of_neg (by simpa using h), ih]
      simp [entryDelta, LedgerRow.entry, h]

/-- An order is one or the other. -/
lemma paid_or_refunded {o : OrderRow} (h : o.paid ∨ o.refunded) :
    (o.paid = true ∧ o.refunded = false) ∨ (o.paid = false ∧ o.refunded = true) := by
  simp only [OrderRow.paid, OrderRow.refunded, decide_eq_true_eq, decide_eq_false_iff_not] at *
  rcases h with h | h
  · exact .inl ⟨h, by simp [h]⟩
  · exact .inr ⟨by simp [h], h⟩

/-- The amount of one order more. -/
lemma soldAmount_cons (o : OrderRow) (os : List OrderRow) :
    soldAmount (o :: os) = (if o.paid then o.amount else 0) + soldAmount os := by
  rw [soldAmount, soldAmount]
  cases h : o.paid <;> simp [h]

/-- The buyer pays what the paid orders cost. -/
lemma buyer_entries {os : List OrderRow} (h : ∀ o ∈ os, o.paid ∨ o.refunded) :
    ((os.flatMap OrderRow.entries).map (entryDelta (str "buyer"))).sum = - soldAmount os := by
  induction os with
  | nil => rfl
  | cons o os ih =>
    rw [List.flatMap_cons, List.map_append, List.sum_append,
      ih fun o m => h o (List.mem_cons_of_mem _ m), soldAmount_cons]
    rcases paid_or_refunded (h o List.mem_cons_self) with ⟨p, r⟩ | ⟨p, r⟩ <;>
      simp [OrderRow.entries, entryDelta, p, r]
    omega

/-- The merchant receives what the paid orders cost. -/
lemma merchant_entries {os : List OrderRow} (h : ∀ o ∈ os, o.paid ∨ o.refunded) :
    ((os.flatMap OrderRow.entries).map (entryDelta (str "merchant"))).sum = soldAmount os := by
  induction os with
  | nil => rfl
  | cons o os ih =>
    rw [List.flatMap_cons, List.map_append, List.sum_append,
      ih fun o m => h o (List.mem_cons_of_mem _ m), soldAmount_cons]
    rcases paid_or_refunded (h o List.mem_cons_self) with ⟨p, r⟩ | ⟨p, r⟩ <;>
      simp [OrderRow.entries, entryDelta, p, r]

/-- Entries come in pairs that cancel. -/
lemma zero_sum_entries (os : List OrderRow) :
    ((os.flatMap OrderRow.entries).map fun e => e.2.2.2).sum = 0 := by
  induction os with
  | nil => rfl
  | cons o os ih =>
    rw [List.flatMap_cons, List.map_append, List.sum_append, ih, OrderRow.entries]
    cases o.refunded <;> simp

/-- The buyer's entries and the merchant's. -/
lemma entries_owner (o : OrderRow) :
    ∀ e ∈ o.entries, e.2.1 = str "buyer" ∨ e.2.1 = str "merchant" := by
  rw [OrderRow.entries]
  cases o.refunded <;> simp

/-! ### What the checks say together -/

variable [Interpreter] {s : Snapshot} {i : InventoryRow} {b m : WalletRow}

/-- The verdicts of the checks of `audit`. -/
structure Accounts (s : Snapshot) (i : InventoryRow) : Prop where
  fixture : 0 ≤ i.initialQty ∧ 0 < i.unitPrice
  ids : (s.orders.map OrderRow.id).Nodup
  stock : i.available + soldQty s.orders = i.initialQty ∧ 0 ≤ i.available ∧
    i.available ≤ i.initialQty
  money : (s.wallets.map WalletRow.balance).sum = (s.wallets.map WalletRow.initialBalance).sum
  keys : (s.orders.map OrderRow.requestKey).Nodup
  wallets : ∀ w ∈ s.wallets, 0 ≤ w.initialBalance ∧ 0 ≤ w.balance ∧
    w.balance = w.initialBalance + ownerDelta s.ledger w.owner
  ledger : (∀ e ∈ s.ledger, e.owner ∈ s.wallets.map WalletRow.owner) ∧
    (s.ledger.map LedgerRow.delta).sum = 0 ∧
      (∀ e ∈ s.ledger, e.orderId ∈ s.orders.map OrderRow.id) ∧
    ∀ e ∈ s.events, e.orderId ∈ s.orders.map OrderRow.id
  claimKeys : (s.requests.map RequestRow.requestKey).Nodup
  claims : (∀ r ∈ s.requests, r.orderId ∈ s.orders.map OrderRow.id) ∧
    (s.requests.map RequestRow.orderId).Nodup ∧ ∀ r ∈ s.requests, s.claimIdentity r
  orders : ∀ o ∈ s.orders, o.Accounted s i i.caseId

/-- What identifies the rows of a snapshot of a case: one inventory row and the two wallets. -/
structure Fixture (s : Snapshot) (i : InventoryRow) (b m : WalletRow) : Prop where
  inventory : s.inventory = [i]
  wallets : s.wallets.Perm [b, m]
  buyer : b.owner = str "buyer"
  merchant : m.owner = str "merchant"

/-- Claims whose checks hold are in bijection with the orders. -/
lemma Accounts.claims_perm (h : Accounts s i) :
    (s.requests.map fun r => (r.requestKey, some r.fingerprint, r.orderId)).Perm
      (s.orders.map fun o => (o.requestKey, o.fingerprint? i.caseId, o.id)) := by
  obtain ⟨_, targets, identity⟩ := h.claims
  have nd : (s.requests.map fun r => (r.requestKey, some r.fingerprint, r.orderId)).Nodup := by
    apply List.Nodup.of_map fun e => e.2.2
    rw [List.map_map]
    exact targets
  have nd' : (s.orders.map fun o => (o.requestKey, o.fingerprint? i.caseId, o.id)).Nodup := by
    apply List.Nodup.of_map fun e => e.2.2
    rw [List.map_map]
    exact h.ids
  rw [List.perm_ext_iff_of_nodup nd nd']
  intro e
  constructor
  · intro mem
    obtain ⟨r, mr, rfl⟩ := List.mem_map.1 mem
    obtain ⟨o, mo, id, key⟩ := identity r mr
    obtain ⟨r', mr', key', _, print⟩ := (h.orders o mo).claim
    obtain rfl := List.inj_on_of_nodup_map h.claimKeys mr' mr (key'.trans key)
    exact List.mem_map.2 ⟨o, mo, by rw [print, key, id]⟩
  · intro mem
    obtain ⟨o, mo, rfl⟩ := List.mem_map.1 mem
    obtain ⟨r, mr, key, id, print⟩ := (h.orders o mo).claim
    exact List.mem_map.2 ⟨r, mr, by rw [print, key, id]⟩

/-- Checks that all hold pin the snapshot. -/
theorem Accounts.consistent (h : Accounts s i) (f : Fixture s i b m) : Consistent s i b m := by
  have states : ∀ o ∈ s.orders, o.paid ∨ o.refunded := fun o mo => (h.orders o mo).state
  have ledger : (s.ledger.map LedgerRow.entry).Perm (s.orders.flatMap OrderRow.entries) := by
    apply (Data.perm_flatMap_iff (f := Prod.fst) (fun o _ => entries_id o) h.ids).2
    constructor
    · intro e me
      obtain ⟨r, mr, rfl⟩ := List.mem_map.1 me
      exact h.ledger.2.2.1 r mr
    · intro o mo
      rw [List.filter_map]
      exact (h.orders o mo).ledger
  have events : (s.events.map EventRow.kindOf).Perm (s.orders.flatMap OrderRow.kinds) := by
    apply (Data.perm_flatMap_iff (f := Prod.fst) (fun o _ => kinds_id o) h.ids).2
    constructor
    · intro e me
      obtain ⟨r, mr, rfl⟩ := List.mem_map.1 me
      exact h.ledger.2.2.2 r mr
    · intro o mo
      rw [List.filter_map]
      exact (h.orders o mo).events
  have buyer := h.wallets b (f.wallets.mem_iff.2 (by simp))
  have merchant := h.wallets m (f.wallets.mem_iff.2 (by simp))
  rw [ownerDelta_eq, f.buyer, (ledger.map _).sum_eq, buyer_entries states] at buyer
  rw [ownerDelta_eq, f.merchant, (ledger.map _).sum_eq, merchant_entries states] at merchant
  exact {
    inventory := f.inventory
    wallets := f.wallets
    buyer := f.buyer
    merchant := f.merchant
    price_pos := h.fixture.2
    buyer_initial := buyer.1
    merchant_initial := merchant.1
    ids := h.ids
    keys := h.keys
    quantity_pos := fun o mo => (h.orders o mo).quantity_pos
    amount := fun o mo => (h.orders o mo).amount
    state := states
    stock := by have := h.stock.1; omega
    stock_nonneg := h.stock.2.1
    stock_le := h.stock.2.2
    buyer_balance := by rw [buyer.2.2]; omega
    buyer_nonneg := buyer.2.1
    merchant_balance := merchant.2.2
    merchant_nonneg := merchant.2.1
    ledger := ledger
    events := events
    payloads := fun e me o mo id => (h.orders o mo).payloads e me id
    claims := h.claims_perm }

/-- A consistent case has its fixture. -/
lemma Consistent.fixture (h : Consistent s i b m) : Fixture s i b m :=
  ⟨h.inventory, h.wallets, h.buyer, h.merchant⟩

/-- A consistent snapshot passes each check. -/
theorem Consistent.accounts (h : Consistent s i b m) : Accounts s i := by
  have wallets : ∀ w ∈ s.wallets, w = b ∨ w = m := by
    intro w mw
    simpa using h.wallets.mem_iff.1 mw
  have target : ∀ r ∈ s.requests, ∃ o ∈ s.orders, o.requestKey = r.requestKey ∧ o.id = r.orderId ∧
      o.fingerprint? i.caseId = some r.fingerprint := by
    intro r mr
    obtain ⟨o, mo, e⟩ := List.mem_map.1 (h.claims.mem_iff.1 (List.mem_map_of_mem mr))
    simp only [Prod.mk.injEq] at e
    exact ⟨o, mo, e.1, e.2.2, e.2.1⟩
  have ledger := (Data.perm_flatMap_iff (f := Prod.fst) (fun o _ => entries_id o) h.ids).1 h.ledger
  have events := (Data.perm_flatMap_iff (f := Prod.fst) (fun o _ => kinds_id o) h.ids).1 h.events
  exact {
    fixture := ⟨h.stock_nonneg.trans h.stock_le, h.price_pos⟩
    ids := h.ids
    stock := ⟨by rw [h.stock]; omega, h.stock_nonneg, h.stock_le⟩
    money := by
      rw [(h.wallets.map _).sum_eq, (h.wallets.map _).sum_eq]
      simp only [List.map_cons, List.map_nil, List.sum_cons, List.sum_nil, h.buyer_balance,
        h.merchant_balance]
      omega
    keys := h.keys
    wallets := by
      intro w mw
      rw [ownerDelta_eq, (h.ledger.map _).sum_eq]
      rcases wallets w mw with rfl | rfl
      · rw [h.buyer, buyer_entries h.state]
        exact ⟨h.buyer_initial, h.buyer_nonneg, h.buyer_balance⟩
      · rw [h.merchant, merchant_entries h.state]
        exact ⟨h.merchant_initial, h.merchant_nonneg, h.merchant_balance⟩
    ledger := by
      refine ⟨?_, ?_, fun e me => ledger.1 _ (List.mem_map_of_mem me),
        fun e me => events.1 _ (List.mem_map_of_mem me)⟩
      · intro e me
        obtain ⟨o, _, mem⟩ := List.mem_flatMap.1 (h.ledger.mem_iff.1 (List.mem_map_of_mem me))
        have owner : e.owner = str "buyer" ∨ e.owner = str "merchant" := entries_owner o _ mem
        rw [(h.wallets.map _).mem_iff]
        simpa [h.buyer, h.merchant] using owner
      · rw [← zero_sum_entries s.orders, ← (h.ledger.map _).sum_eq, List.map_map]
        rfl
    claimKeys := by
      have keys := (h.claims.map Prod.fst).nodup_iff
      rw [List.map_map, List.map_map] at keys
      exact keys.2 h.keys
    claims := by
      refine ⟨?_, ?_, ?_⟩
      · intro r mr
        obtain ⟨o, mo, _, id, _⟩ := target r mr
        exact List.mem_map.2 ⟨o, mo, id⟩
      · have ids := (h.claims.map fun e => e.2.2).nodup_iff
        rw [List.map_map, List.map_map] at ids
        exact ids.2 h.ids
      · intro r mr
        obtain ⟨o, mo, key, id, _⟩ := target r mr
        exact ⟨o, mo, id, key⟩
    orders := by
      intro o mo
      exact {
        quantity_pos := h.quantity_pos o mo
        amount := h.amount o mo
        state := h.state o mo
        claim := by
          obtain ⟨r, mr, e⟩ := List.mem_map.1 (h.claims.mem_iff.2 (List.mem_map_of_mem mo))
          simp only [Prod.mk.injEq] at e
          exact ⟨r, mr, e.1, e.2.2, e.2.1.symm⟩
        ledger := by
          have mine := ledger.2 o mo
          rw [List.filter_map] at mine
          exact mine
        events := by
          have mine := events.2 o mo
          rw [List.filter_map] at mine
          exact mine
        payloads := fun e me id => h.payloads e me o mo id } }

end DbLab.Txlab
