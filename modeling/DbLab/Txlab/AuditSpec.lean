import DbLab.Txlab.Snapshot
import DbLab.Py.Exec
import DbLab.Data.Perm

/-!
# What the checks of `audit` compute on typed rows

One lemma for each part of `audit`: on rows that have the schema's types the part does not raise (or
raises exactly in the stated case), and its verdict is the stated proposition about the rows.
-/

namespace DbLab.Txlab
open DbLab.Py

/-- `Counter(xs) == Counter(ys)` on values that stand for typed ones is equality up to order. -/
lemma counterEq_map {α β : Type} [DecidableEq α] {eq : β → β → Bool} {f : α → β}
    (h : ∀ a b, eq (f a) (f b) = decide (a = b)) (xs ys : List α) :
    counterEq eq (xs.map f) (ys.map f) ↔ xs.Perm ys := by
  have count : ∀ (x : α) (l : List α), (l.map f).countP (eq (f x)) = l.count x := by
    intro x l
    rw [List.countP_map, List.count]
    apply List.countP_congr
    intro y _
    rw [Function.comp_apply, h, decide_eq_true_eq, beq_iff_eq, eq_comm]
  rw [counterEq, Bool.and_eq_true, decide_eq_true_eq, List.length_map, List.length_map,
    List.all_map, List.all_eq_true]
  simp only [Function.comp_apply, count, Bool.and_eq_true, decide_eq_true_eq, List.count_pos_iff]
  exact ⟨fun ⟨len, all⟩ => Data.perm_of_count len fun x m => (all x m).2,
    fun p => ⟨p.length_eq, fun x m => ⟨m, p.count_eq x⟩⟩⟩

variable [Interpreter]

/-! ### Loops over typed rows -/

section Loops
variable {ρ : Type} {v : ρ → Value} {k : String}

/-- The items of the rows. -/
lemma items_ok {γ : Type} {f : ρ → γ} {w : γ → Value} (h : ∀ r, (v r).item k = .ok (w (f r)))
    (rs : List ρ) : (rs.map v).mapM (fun r => r.item k) = .ok ((rs.map f).map w) := by
  rw [List.mapM_map, List.map_map]
  exact mapM_ok fun r _ => h r

/-- The rows with an item. -/
lemma filterItem_ok {f : ρ → Str} (h : ∀ r, (v r).item k = .ok (.str (f r))) (x : Str)
    (rs : List ρ) :
    (rs.map v).filterM (fun r => return (← r.item k).eq (.str x)) =
      (.ok ((rs.filter fun r => f r = x).map v) : Except Exn (List Value)) := by
  let p : Value → Bool := fun r => (r.item k).toOption.any fun w => w.eq (.str x)
  rw [filterM_ok (p := p), List.filter_map]
  · congr 3
    funext r
    simp [p, h, Except.toOption]
  · intro w m
    obtain ⟨r, _, rfl⟩ := List.mem_map.1 m
    simp [p, h, pure_eq_ok, Except.toOption]

/-- Whether every item is a key. -/
lemma allKeys_ok {α : Type} {f : ρ → Str} (h : ∀ r, (v r).item k = .ok (.str (f r)))
    (d : List (Str × α)) (rs : List ρ) :
    (rs.map v).allM (fun r => do isKey (KeyDict.ofStr d) (← r.item k)) =
      .ok (rs.all fun r => f r ∈ d.map Prod.fst) := by
  induction rs with
  | nil => rfl
  | cons r rs ih =>
    rw [List.map_cons, List.allM, h, ok_bind, isKey, hashable_str, if_pos rfl,
      ofStr_contains, ok_bind, List.all_cons]
    cases decide (f r ∈ d.map Prod.fst) with
    | true => exact ih
    | false => rfl

end Loops

/-! ### The head of `audit` -/

def Snapshot.tables (s : Snapshot) : Tables where
  inventory := s.inventory.map InventoryRow.toValue
  wallets := s.wallets.map WalletRow.toValue
  requests := s.requests.map RequestRow.toValue
  orders := s.orders.map OrderRow.toValue
  ledger := s.ledger.map LedgerRow.toValue
  events := s.events.map EventRow.toValue

/-- The row limit of a snapshot. -/
structure Snapshot.Bounded (s : Snapshot) : Prop where
  inventory : s.inventory.length ≤ maxRows
  wallets : s.wallets.length ≤ maxRows
  requests : s.requests.length ≤ maxRows
  orders : s.orders.length ≤ maxRows
  ledger : s.ledger.length ≤ maxRows
  events : s.events.length ≤ maxRows

/-- All rows are of one case. -/
structure Snapshot.OneCase (s : Snapshot) (c : Str) : Prop where
  inventory : ∀ r ∈ s.inventory, r.caseId = c
  wallets : ∀ r ∈ s.wallets, r.caseId = c
  requests : ∀ r ∈ s.requests, r.caseId = c
  orders : ∀ r ∈ s.orders, r.caseId = c
  ledger : ∀ r ∈ s.ledger, r.caseId = c
  events : ∀ r ∈ s.events, r.caseId = c

/-- A table within its limit. -/
lemma tableOf_ok {v : Value} {t : String} {rows rows' : List Value}
    (h : v.item t = .ok (.list rows)) :
    tableOf v t = .ok rows' ↔ rows.length ≤ maxRows ∧ rows' = rows := by
  rw [tableOf, h, ok_bind]
  by_cases lt : maxRows < rows.length
  · simp only [lt, if_true]
    exact ⟨nofun, fun h => absurd h.1 (Nat.not_le.2 lt)⟩
  · simp only [lt, if_false]
    exact ⟨fun h => ⟨Nat.not_lt.1 lt, by cases h; rfl⟩, fun h => h.2 ▸ rfl⟩

/-- A snapshot has every table. -/
lemma complete_toValue (s : Snapshot) : complete s.toValue = true := by
  simp [complete, Snapshot.toValue, Value.ofFields, tableNames]

/-- When the tables are accepted. -/
lemma tables_ok {s : Snapshot} {t : Tables} :
    tables s.toValue = .ok t ↔
      s.Bounded ∧ s.inventory.length = 1 ∧ s.wallets.length = 2 ∧ t = s.tables := by
  have hi : ∀ {r}, tableOf s.toValue "inventory" = .ok r ↔
      (s.inventory.map InventoryRow.toValue).length ≤ maxRows ∧
        r = s.inventory.map InventoryRow.toValue :=
    tableOf_ok (by simp [Snapshot.toValue])
  have hw : ∀ {r}, tableOf s.toValue "wallets" = .ok r ↔
      (s.wallets.map WalletRow.toValue).length ≤ maxRows ∧ r = s.wallets.map WalletRow.toValue :=
    tableOf_ok (by simp [Snapshot.toValue])
  have hr : ∀ {r}, tableOf s.toValue "requests" = .ok r ↔
      (s.requests.map RequestRow.toValue).length ≤ maxRows ∧
        r = s.requests.map RequestRow.toValue :=
    tableOf_ok (by simp [Snapshot.toValue])
  have ho : ∀ {r}, tableOf s.toValue "orders" = .ok r ↔
      (s.orders.map OrderRow.toValue).length ≤ maxRows ∧ r = s.orders.map OrderRow.toValue :=
    tableOf_ok (by simp [Snapshot.toValue])
  have hl : ∀ {r}, tableOf s.toValue "ledger" = .ok r ↔
      (s.ledger.map LedgerRow.toValue).length ≤ maxRows ∧ r = s.ledger.map LedgerRow.toValue :=
    tableOf_ok (by simp [Snapshot.toValue])
  have he : ∀ {r}, tableOf s.toValue "events" = .ok r ↔
      (s.events.map EventRow.toValue).length ≤ maxRows ∧ r = s.events.map EventRow.toValue :=
    tableOf_ok (by simp [Snapshot.toValue])
  rw [tables, complete_toValue]
  simp only [Bool.not_true, Bool.false_eq_true, if_false, bind_ok, hi, hw, hr, ho, hl, he]
  constructor
  · rintro ⟨_, ⟨bi, rfl⟩, _, ⟨bw, rfl⟩, _, ⟨br, rfl⟩, _, ⟨bo, rfl⟩, _, ⟨bl, rfl⟩, _, ⟨be, rfl⟩, h⟩
    rw [List.length_map] at bi bw br bo bl be
    rw [List.length_map, List.length_map] at h
    split at h
    · cases h
    · next two =>
      rw [not_or, not_not, not_not] at two
      cases h
      exact ⟨⟨bi, bw, br, bo, bl, be⟩, two.1, two.2, rfl⟩
  · rintro ⟨b, one, two, rfl⟩
    refine ⟨_, ⟨?_, rfl⟩, _, ⟨?_, rfl⟩, _, ⟨?_, rfl⟩, _, ⟨?_, rfl⟩, _, ⟨?_, rfl⟩, _,
      ⟨?_, rfl⟩, ?_⟩ <;>
      try rw [List.length_map]
    · exact b.inventory
    · exact b.wallets
    · exact b.requests
    · exact b.orders
    · exact b.ledger
    · exact b.events
    · rw [List.length_map, one, two, if_neg (by simp)]
      rfl

/-- The rows of another case. -/
lemma foreignRows_map {ρ : Type} {v : ρ → Value} {f : ρ → Str} (rs : List ρ) (c : Str)
    (h : ∀ r, (v r).get "case_id" = .ok (.str (f r))) :
    foreignRows (.str c) (.list (rs.map v)) = .ok (rs.any fun r => !decide (f r = c)) := by
  rw [foreignRows]
  induction rs with
  | nil => rfl
  | cons r rs ih =>
    rw [List.map_cons, List.anyM, h, ok_bind, List.any_cons]
    by_cases e : f r = c
    · simpa [e, pure_eq_ok] using ih
    · simp [e, pure_eq_ok]

/-- Whether there are any. -/
lemma crossCase_ok (s : Snapshot) (c : Str) :
    ∃ b, crossCase s.toValue (.str c) = .ok b ∧ (b = false ↔ s.OneCase c) := by
  have hi := foreignRows_map (v := InventoryRow.toValue) (f := InventoryRow.caseId) s.inventory c
    fun r => by simp [InventoryRow.toValue]
  have hw := foreignRows_map (v := WalletRow.toValue) (f := WalletRow.caseId) s.wallets c
    fun r => by simp [WalletRow.toValue]
  have hr := foreignRows_map (v := RequestRow.toValue) (f := RequestRow.caseId) s.requests c
    fun r => by simp [RequestRow.toValue]
  have ho := foreignRows_map (v := OrderRow.toValue) (f := OrderRow.caseId) s.orders c
    fun r => by simp [OrderRow.toValue]
  have hl := foreignRows_map (v := LedgerRow.toValue) (f := LedgerRow.caseId) s.ledger c
    fun r => by simp [LedgerRow.toValue]
  have he := foreignRows_map (v := EventRow.toValue) (f := EventRow.caseId) s.events c
    fun r => by simp [EventRow.toValue]
  let p : Str × Value → Bool := fun m => (foreignRows (.str c) m.2).toOption.getD false
  refine ⟨_, anyM_ok (p := p) ?_, ?_⟩
  · simp [p, hi, hw, hr, ho, hl, he, Except.toOption]
  · simp only [p, List.map_cons, List.map_nil, List.any_cons, List.any_nil, hi, hw, hr, ho, hl, he,
      Except.toOption, Option.getD_some, Bool.or_eq_false_iff, List.any_eq_false, Bool.not_eq_true',
      decide_eq_false_iff_not, not_not]
    exact ⟨fun ⟨i, w, r, o, l, e, _⟩ => ⟨i, w, r, o, l, e⟩,
      fun ⟨i, w, r, o, l, e⟩ => ⟨i, w, r, o, l, e, trivial⟩⟩

/-- The values of the fixture. -/
lemma fixtureValues_ok (i : InventoryRow) :
    ∃ b, fixtureValues i.toValue = .ok b ∧ (b ↔ 0 ≤ i.initialQty ∧ 0 < i.unitPrice) := by
  by_cases h : 0 ≤ i.initialQty
  · exact ⟨!decide (i.unitPrice ≤ 0),
      by simp [fixtureValues, InventoryRow.toValue, List.allM, pure_eq_ok, h], by simp [h]⟩
  · exact ⟨false, by simp [fixtureValues, InventoryRow.toValue, List.allM, pure_eq_ok,
      Int.not_le.1 h], by simp [h]⟩

/-- The quantity sold. -/
lemma stockSold_toValue (os : List OrderRow) :
    stockSold (os.map OrderRow.toValue) = .ok (.int (soldQty os)) := by
  have paid := filterItem_ok (v := OrderRow.toValue) (k := "state") (f := OrderRow.state)
    (fun o => by simp [OrderRow.toValue]) (str "paid") os
  have qty :=
    items_ok (v := OrderRow.toValue) (k := "quantity") (f := OrderRow.quantity) (w := .int)
    (fun o => by simp [OrderRow.toValue]) (os.filter fun o => o.state = str "paid")
  rw [stockSold, paid, ok_bind, qty, ok_bind, sum_int]
  rfl

/-- The checks of the stock. -/
lemma stockChecks_ok (i : InventoryRow) (n : Int) :
    ∃ cs, stockChecks i.toValue (.int n) = .ok cs ∧ (cs.all Check.ok ↔
      i.available + n = i.initialQty ∧ 0 ≤ i.available ∧ i.available ≤ i.initialQty) := by
  by_cases h : 0 ≤ i.available <;>
    simp [stockChecks, between, InventoryRow.toValue, pure_eq_ok, h]

/-- The counts of `Counter(ks)` for strings. -/
lemma counter_ok (ks : List Str) :
    ∃ d : List (Str × Nat), counter (ks.map Value.str) = .ok (KeyDict.ofStr d) ∧
      (∀ k, k ∈ d.map Prod.fst ↔ k ∈ ks) ∧ ∀ e ∈ d, e.2 = ks.count e.1 := by
  have step : ∀ (ks done : List Str) (d : List (Str × Nat)),
      (d.map Prod.fst).Nodup → (∀ k, k ∈ d.map Prod.fst ↔ k ∈ done) →
        (∀ e ∈ d, e.2 = done.count e.1) →
      ∃ d' : List (Str × Nat), (ks.map Value.str).foldlM countOne (KeyDict.ofStr d) =
          .ok (KeyDict.ofStr d') ∧
        (∀ k, k ∈ d'.map Prod.fst ↔ k ∈ done ++ ks) ∧ ∀ e ∈ d', e.2 = (done ++ ks).count e.1 := by
    intro ks
    induction ks with
    | nil => exact fun done d _ keys counts => ⟨d, rfl, by simpa using keys, by simpa using counts⟩
    | cons k ks ih =>
      intro done d nd keys counts
      have seen : (lookup k d).getD 0 = done.count k := by
        cases h : lookup k d with
        | some n => exact counts (k, n) (lookup_mem h)
        | none =>
          have absent : k ∉ done := fun m => lookup_eq_none.1 h ((keys k).2 m)
          exact (List.count_eq_zero_of_not_mem absent).symm
      have one : countOne (KeyDict.ofStr d) (.str k) =
          .ok (KeyDict.ofStr (insertKey k (done.count k + 1) d)) := by
        rw [countOne, hashable_str, if_pos rfl, ofStr_get?, seen, ofStr_set]
      obtain ⟨d', run, keys', counts'⟩ := ih (done ++ [k]) (insertKey k (done.count k + 1) d)
        (insertKey_nodup nd)
        (fun k' => by
          rw [mem_insertKey_keys, keys, List.mem_append, List.mem_singleton, or_comm])
        (fun e m => by
          rw [List.count_append, List.count_singleton]
          rcases mem_insertKey nd m with rfl | ⟨m, ne⟩
          · simp
          · simp [counts e m, Ne.symm ne])
      refine ⟨d', ?_, ?_, ?_⟩
      · rw [List.map_cons, List.foldlM_cons, one, ok_bind, run]
      · simpa using keys'
      · simpa using counts'
  exact step ks [] [] .nil (by simp) (by simp)

/-- The checks of the requests. -/
lemma requestChecks_ok (os : List OrderRow) :
    ∃ cs, requestChecks (os.map OrderRow.toValue) = .ok cs ∧
      (cs.all Check.ok ↔ (os.map OrderRow.requestKey).Nodup) := by
  have keys :=
    items_ok (v := OrderRow.toValue) (k := "request_key") (f := OrderRow.requestKey) (w := .str)
    (fun o => by simp [OrderRow.toValue]) os
  obtain ⟨d, run, mem, counts⟩ := counter_ok (os.map OrderRow.requestKey)
  refine ⟨_, by rw [requestChecks, keys, ok_bind, run, ok_bind]; rfl, ?_⟩
  simp only [List.all_cons, List.all_nil, Bool.and_true, KeyDict.ofStr, List.all_map,
    List.all_eq_true, Function.comp_apply, decide_eq_true_eq]
  rw [List.nodup_iff_count_eq_one]
  constructor
  · intro h k m
    obtain ⟨e, me, rfl⟩ := List.mem_map.1 ((mem k).2 m)
    rw [← counts e me, h e me]
  · intro h e me
    rw [counts e me, h _ ((mem e.1).1 (List.mem_map_of_mem me))]

/-! ### Wallets and ledger -/

def ownerDelta (ledger : List LedgerRow) (owner : Str) : Int :=
  ((ledger.filter fun e => e.owner = owner).map LedgerRow.delta).sum

/-- What the ledger adds up to. -/
lemma ledgerDelta_toValue (ledger : List LedgerRow) (owner : Str) :
    ledgerDelta (ledger.map LedgerRow.toValue) (.str owner) =
      .ok (.int (ownerDelta ledger owner)) := by
  have mine := filterItem_ok (v := LedgerRow.toValue) (k := "owner") (f := LedgerRow.owner)
    (fun e => by simp [LedgerRow.toValue]) owner ledger
  have deltas := items_ok (v := LedgerRow.toValue) (k := "delta") (f := LedgerRow.delta) (w := .int)
    (fun e => by simp [LedgerRow.toValue]) (ledger.filter fun e => e.owner = owner)
  rw [ledgerDelta, mine, ok_bind, deltas, ok_bind, sum_int]
  rfl

/-- The checks of a wallet. -/
lemma walletChecks_ok (ledger : List LedgerRow) (w : WalletRow) :
    ∃ cs, walletChecks (ledger.map LedgerRow.toValue) (.str w.owner) w.toValue = .ok cs ∧
      (cs.all Check.ok ↔ 0 ≤ w.initialBalance ∧ 0 ≤ w.balance ∧
        w.balance = w.initialBalance + ownerDelta ledger w.owner) := by
  have initial : w.toValue.item "initial_balance" = .ok (.int w.initialBalance) := by
    simp [WalletRow.toValue]
  have balance : w.toValue.item "balance" = .ok (.int w.balance) := by simp [WalletRow.toValue]
  rw [walletChecks, initial, balance, ledgerDelta_toValue]
  simp [walletValueTypes, pure_eq_ok]

/-- The checks of the ledger. -/
lemma ledgerChecks_ok (s : Snapshot) (wd od : List (Str × Value)) :
    ∃ cs, ledgerChecks s.tables (KeyDict.ofStr wd) (KeyDict.ofStr od) = .ok cs ∧
      (cs.all Check.ok ↔ (∀ e ∈ s.ledger, e.owner ∈ wd.map Prod.fst) ∧
        (s.ledger.map LedgerRow.delta).sum = 0 ∧
        (∀ e ∈ s.ledger, e.orderId ∈ od.map Prod.fst) ∧
        ∀ e ∈ s.events, e.orderId ∈ od.map Prod.fst) := by
  have owners := allKeys_ok (v := LedgerRow.toValue) (k := "owner") (f := LedgerRow.owner)
    (fun e => by simp [LedgerRow.toValue]) wd s.ledger
  have deltas := items_ok (v := LedgerRow.toValue) (k := "delta") (f := LedgerRow.delta) (w := .int)
    (fun e => by simp [LedgerRow.toValue]) s.ledger
  have linked := allKeys_ok (v := LedgerRow.toValue) (k := "order_id") (f := LedgerRow.orderId)
    (fun e => by simp [LedgerRow.toValue]) od s.ledger
  have events := allKeys_ok (v := EventRow.toValue) (k := "order_id") (f := EventRow.orderId)
    (fun e => by simp [EventRow.toValue]) od s.events
  refine ⟨_, by
    rw [ledgerChecks, Snapshot.tables, owners, ok_bind, deltas, ok_bind, sum_int, ok_bind,
      linked, ok_bind, events, ok_bind]
    rfl, ?_⟩
  simp

/-! ### Claims -/

/-- The order and claim dictionaries of `audit` once their keys are known to be distinct. -/
def Snapshot.orderDict (s : Snapshot) : List (Str × Value) :=
  s.orders.map fun o => (o.id, o.toValue)
def Snapshot.claimDict (s : Snapshot) : List (Str × Value) :=
  s.requests.map fun r => (r.requestKey, r.toValue)

/-- Orders by their id. -/
@[simp] lemma orderDict_keys (s : Snapshot) :
    s.orderDict.map Prod.fst = s.orders.map OrderRow.id := by
  simp [Snapshot.orderDict]

/-- Claims by their key. -/
@[simp] lemma claimDict_keys (s : Snapshot) :
    s.claimDict.map Prod.fst = s.requests.map RequestRow.requestKey := by
  simp [Snapshot.claimDict]

/-- `len({c['order_id'] for c in ...})` counts the distinct order ids. -/
lemma setOf_ok (ks : List Str) :
    ∃ d, setOf (ks.map Value.str) = .ok d ∧ (d.length = ks.length ↔ ks.Nodup) := by
  have run : ∀ (ks : List Str) (acc : List (Str × Unit)),
      (ks.map Value.str).foldlM addOne (KeyDict.ofStr acc) =
        .ok (KeyDict.ofStr ((ks.map fun k => (k, ())).foldl
          (fun d e => insertKey e.1 e.2 d) acc)) := by
    intro ks
    induction ks with
    | nil => exact fun _ => rfl
    | cons k ks ih =>
      intro acc
      have one : addOne (KeyDict.ofStr acc) (.str k) =
          .ok (KeyDict.ofStr (insertKey k () acc)) := by
        rw [addOne, hashable_str, if_pos rfl, ofStr_set]
      rw [List.map_cons, List.foldlM_cons, one, ok_bind, ih]
      rfl
  refine ⟨_, run ks [], ?_⟩
  rw [ofStr_length]
  constructor
  · intro h
    have nd := @nodup_of_length _ (ks.map fun k => (k, ())) [] .nil (by simpa using h)
    simpa [Function.comp_def] using nd
  · intro nd
    rw [foldl_insertKey_nodup (by simpa [Function.comp_def] using nd)]
    simp

/-- The order a claim points to has the claim's key. -/
def Snapshot.claimIdentity (s : Snapshot) (r : RequestRow) : Prop :=
  ∃ o ∈ s.orders, o.id = r.orderId ∧ o.requestKey = r.requestKey

/-- Whether a claim is its order's. -/
lemma claimIdentity_ok {s : Snapshot} (ids : (s.orders.map OrderRow.id).Nodup) (r : RequestRow) :
    ∃ b, claimIdentity (KeyDict.ofStr s.orderDict) r.toValue = .ok b ∧
      (b = true ↔ s.claimIdentity r) := by
  have target : r.toValue.item "order_id" = .ok (.str r.orderId) := by simp [RequestRow.toValue]
  have key : r.toValue.item "request_key" = .ok (.str r.requestKey) := by simp [RequestRow.toValue]
  rw [claimIdentity, target, ok_bind, isKey, hashable_str, if_pos rfl, ofStr_contains, ok_bind,
    orderDict_keys, ofStr_get?]
  by_cases m : r.orderId ∈ s.orders.map OrderRow.id
  · obtain ⟨o, mo, id⟩ := List.mem_map.1 m
    have found : lookup r.orderId s.orderDict = some o.toValue := by
      apply lookup_of_mem
      · simpa using ids
      · exact List.mem_map.2 ⟨o, mo, by rw [id]⟩
    have okey : o.toValue.item "request_key" = .ok (.str o.requestKey) := by simp [OrderRow.toValue]
    refine ⟨decide (o.requestKey = r.requestKey), by simp [m, found, okey, key, pure_eq_ok], ?_⟩
    rw [decide_eq_true_eq]
    constructor
    · exact fun e => ⟨o, mo, id, e⟩
    · rintro ⟨o', mo', id', e⟩
      rwa [← List.inj_on_of_nodup_map ids mo' mo (id'.trans id.symm)]
  · refine ⟨false, by simp [m, pure_eq_ok], ?_⟩
    simp only [Bool.false_eq_true, false_iff]
    rintro ⟨o, mo, id, _⟩
    exact m (List.mem_map.2 ⟨o, mo, id⟩)

/-- The checks of the claims. -/
lemma claimChecks_ok {s : Snapshot} (ids : (s.orders.map OrderRow.id).Nodup) :
    ∃ cs, claimChecks s.tables (KeyDict.ofStr s.claimDict) (KeyDict.ofStr s.orderDict) = .ok cs ∧
      (cs.all Check.ok ↔ (∀ r ∈ s.requests, r.orderId ∈ s.orders.map OrderRow.id) ∧
        (s.requests.map RequestRow.orderId).Nodup ∧ ∀ r ∈ s.requests, s.claimIdentity r) := by
  have rows : (KeyDict.ofStr s.claimDict).map Prod.snd = s.requests.map RequestRow.toValue := by
    simp [Snapshot.claimDict, Function.comp_def]
  have linked := allKeys_ok (v := RequestRow.toValue) (k := "order_id") (f := RequestRow.orderId)
    (fun r => by simp [RequestRow.toValue]) s.orderDict s.requests
  have targets :=
    items_ok (v := RequestRow.toValue) (k := "order_id") (f := RequestRow.orderId) (w := .str)
    (fun r => by simp [RequestRow.toValue]) s.requests
  obtain ⟨d, set, nodup⟩ := setOf_ok (s.requests.map RequestRow.orderId)
  obtain ⟨b, identity, same⟩ := allM_map_ok (v := RequestRow.toValue) fun r (_ : r ∈ s.requests) =>
    claimIdentity_ok ids r
  refine ⟨_, by
    rw [claimChecks, rows, linked, ok_bind, targets, ok_bind, set, ok_bind, identity, ok_bind]
    rfl, ?_⟩
  rw [List.length_map] at nodup
  simp [Snapshot.tables, Snapshot.claimDict, nodup, same]

end DbLab.Txlab
