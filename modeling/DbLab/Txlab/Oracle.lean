import DbLab.Txlab.Accounts
import DbLab.Txlab.Digest

/-!
# `audit` is a sound and complete oracle

`audited` on a snapshot of typed rows: when it can be evaluated, and that its checks all hold
exactly on the consistent snapshots.
-/

namespace DbLab.Txlab
open DbLab.Py

variable {s : Snapshot} {i : InventoryRow} {b m : WalletRow}

/-- The owners are distinct. -/
lemma Fixture.owners (f : Fixture s i b m) : (s.wallets.map WalletRow.owner).Nodup := by
  rw [(f.wallets.map _).nodup_iff]
  simp [f.buyer, f.merchant]

/-- Two wallets under the names of the buyer and the merchant are the two wallets of a fixture. -/
lemma fixture_of_owners (inventory : s.inventory = [i]) (two : s.wallets.length = 2)
    (buyer : str "buyer" ∈ s.wallets.map WalletRow.owner)
    (merchant : str "merchant" ∈ s.wallets.map WalletRow.owner) : ∃ b m, Fixture s i b m := by
  obtain ⟨w, w', wallets⟩ := List.length_eq_two.1 two
  simp only [wallets, List.map_cons, List.map_nil, List.mem_cons, List.not_mem_nil,
    or_false] at buyer merchant
  rcases buyer with b | b
  · rcases merchant with m | m
    · exact absurd (b.trans m.symm) (by simp)
    · exact ⟨w, w', inventory, wallets ▸ .refl _, b.symm, m.symm⟩
  · rcases merchant with m | m
    · exact ⟨w', w, inventory, wallets ▸ .swap _ _ _, b.symm, m.symm⟩
    · exact absurd (b.trans m.symm) (by simp)

variable [Interpreter]

/-- The wallets by owner. -/
def Snapshot.walletDict (s : Snapshot) : List (Str × Value) :=
  s.wallets.map fun w => (w.owner, w.toValue)

/-- Wallets by their owner. -/
@[simp] lemma walletDict_keys (s : Snapshot) :
    s.walletDict.map Prod.fst = s.wallets.map WalletRow.owner := by
  simp [Snapshot.walletDict]

/-- Reading wallets by owner. -/
lemma Snapshot.byOwner_ok (s : Snapshot) :
    ∃ d, KeyDict.byField "owner" s.tables.wallets = .ok (KeyDict.ofStr d) ∧
      (d.length = s.wallets.length ↔ (s.wallets.map WalletRow.owner).Nodup) ∧
      ((s.wallets.map WalletRow.owner).Nodup → d = s.walletDict) :=
  byField_nodup s.wallets fun w => by simp [WalletRow.toValue]

/-- Reading orders by id. -/
lemma Snapshot.byId_ok (s : Snapshot) :
    ∃ d, KeyDict.byField "id" s.tables.orders = .ok (KeyDict.ofStr d) ∧
      (d.length = s.orders.length ↔ (s.orders.map OrderRow.id).Nodup) ∧
      ((s.orders.map OrderRow.id).Nodup → d = s.orderDict) :=
  byField_nodup s.orders fun o => by simp [OrderRow.toValue]

/-- Reading claims by key. -/
lemma Snapshot.byKey_ok (s : Snapshot) :
    ∃ d, KeyDict.byField "request_key" s.tables.requests = .ok (KeyDict.ofStr d) ∧
      (d.length = s.requests.length ↔ (s.requests.map RequestRow.requestKey).Nodup) ∧
      ((s.requests.map RequestRow.requestKey).Nodup → d = s.claimDict) :=
  byField_nodup s.requests fun r => by simp [RequestRow.toValue]

/-- The checks of the wallets, in the order of the rows. -/
lemma perWallet_ok (s : Snapshot) :
    ∃ css : List (List Check),
      (KeyDict.ofStr s.walletDict).mapM (fun w => walletChecks s.tables.ledger w.1 w.2)
        = .ok css ∧
      (css.all (fun cs => cs.all Check.ok) = true ↔ ∀ w ∈ s.wallets, 0 ≤ w.initialBalance ∧
        0 ≤ w.balance ∧ w.balance = w.initialBalance + ownerDelta s.ledger w.owner) := by
  rw [KeyDict.ofStr, Snapshot.walletDict, List.map_map]
  exact mapM_map_ok fun w _ => walletChecks_ok s.ledger w

/-- The checks of every order. -/
lemma perOrder_ok (keys : (s.requests.map RequestRow.requestKey).Nodup)
    (readable : ∀ o ∈ s.orders, o.Readable s i.caseId) :
    ∃ css : List (List Check),
      (KeyDict.ofStr s.orderDict).mapM (fun o => orderChecks s.tables i.toValue
        (.str i.caseId) (KeyDict.ofStr s.claimDict) true o.1 o.2) = .ok css ∧
      (css.all (fun cs => cs.all Check.ok) = true ↔ ∀ o ∈ s.orders, o.Accounted s i i.caseId) := by
  have rows : KeyDict.ofStr s.orderDict = s.orders.map fun o => (.str o.id, o.toValue) := by
    rw [KeyDict.ofStr, Snapshot.orderDict, List.map_map]
    rfl
  rw [rows]
  exact mapM_map_ok fun o mo => orderChecks_ok keys (readable o mo)

/-- An item of every wallet. -/
lemma walletItems_ok (s : Snapshot) {k : String} {f : WalletRow → Int}
    (h : ∀ w : WalletRow, w.toValue.item k = .ok (.int (f w))) :
    (KeyDict.ofStr s.walletDict).mapM (fun w => w.2.item k) =
      .ok ((s.wallets.map f).map Value.int) := by
  rw [KeyDict.ofStr, Snapshot.walletDict, List.map_map, List.mapM_map, List.map_map]
  exact mapM_ok fun w _ => h w

/-- `audited` runs on a snapshot of one case whose keys are distinct and whose orders can be
read. -/
lemma audited_ok (bounded : s.Bounded) (one : s.OneCase i.caseId) (f : Fixture s i b m)
    (ids : (s.orders.map OrderRow.id).Nodup) (keys : (s.requests.map RequestRow.requestKey).Nodup)
    (readable : ∀ o ∈ s.orders, o.Readable s i.caseId) :
    ∃ cs, audited s.toValue true = .ok {
        checks := cs, tables := s.tables, inv := i.toValue, sold := .int (soldQty s.orders)
        wallets := KeyDict.ofStr s.walletDict } ∧
      (cs.all Check.ok = true ↔ Accounts s i) := by
  have two : s.wallets.length = 2 := f.wallets.length_eq
  have tabs : tables s.toValue = .ok s.tables :=
    tables_ok.2 ⟨bounded, by rw [f.inventory]; rfl, two, rfl⟩
  have inv : s.tables.inventory.headD .null = i.toValue := by rw [Snapshot.tables, f.inventory]; rfl
  have case : i.toValue.item "case_id" = .ok (.str i.caseId) := by simp [InventoryRow.toValue]
  obtain ⟨fx, fixture, hfx⟩ := fixtureValues_ok i
  obtain ⟨cross, crossed, hcross⟩ := crossCase_ok s i.caseId
  obtain rfl := hcross.2 one
  obtain ⟨wd, wallets, _, hwd⟩ := s.byOwner_ok
  obtain rfl : wd = s.walletDict := hwd f.owners
  obtain ⟨od, orders, _, hod⟩ := s.byId_ok
  obtain rfl : od = s.orderDict := hod ids
  obtain ⟨cd, claims, _, hcd⟩ := s.byKey_ok
  obtain rfl : cd = s.claimDict := hcd keys
  obtain ⟨stock, stocked, hstock⟩ := stockChecks_ok i (soldQty s.orders)
  obtain ⟨req, requests, hreq⟩ := requestChecks_ok s.orders
  obtain ⟨pw, perWallet, hpw⟩ := perWallet_ok s
  obtain ⟨le, ledger, hle⟩ := ledgerChecks_ok s s.walletDict s.orderDict
  obtain ⟨pc, perClaim, hpc⟩ := claimChecks_ok ids
  obtain ⟨po, perOrder, hpo⟩ := perOrder_ok (i := i) keys readable
  have balances := walletItems_ok s (k := "balance") (f := WalletRow.balance) fun w => by
    simp [WalletRow.toValue]
  have initials :=
    walletItems_ok s (k := "initial_balance") (f := WalletRow.initialBalance) fun w => by
    simp [WalletRow.toValue]
  have values : (KeyDict.ofStr s.orderDict).map Prod.snd = s.orders.map OrderRow.toValue := by
    simp [Snapshot.orderDict, Function.comp_def]
  have run : audited s.toValue true = .ok {
      checks := { name := "fixture_values", ok := fx } ::
        { name := "unique_order_id"
          ok := (KeyDict.ofStr s.orderDict).length = s.tables.orders.length } :: stock ++
        { name := "money_conservation"
          ok := (Value.int (s.wallets.map WalletRow.balance).sum).eq
            (.int (s.wallets.map WalletRow.initialBalance).sum) } ::
        req ++ pw.flatten ++ le ++ pc ++ po.flatten
      tables := s.tables, inv := i.toValue, sold := .int (soldQty s.orders)
      wallets := KeyDict.ofStr s.walletDict } := by
    have named : (KeyDict.ofStr s.walletDict).length = 2 ∧
        (KeyDict.ofStr s.walletDict).contains (.str (str "buyer")) = true ∧
        (KeyDict.ofStr s.walletDict).contains (.str (str "merchant")) = true := by
      rw [ofStr_contains, ofStr_contains, walletDict_keys, decide_eq_true_eq, decide_eq_true_eq,
        (f.wallets.map _).mem_iff, (f.wallets.map _).mem_iff]
      simp [Snapshot.walletDict, two, f.buyer, f.merchant]
    simp only [audited, tabs, inv, case, fixture, crossed, ok_bind, Bool.false_eq_true, if_false]
    rw [wallets, ok_bind, if_neg (not_not.2 named)]
    simp only [orders, claims, values, stockSold_toValue, stocked, balances, initials, sum_int,
      requests, perWallet, ledger, perClaim, perOrder, ok_bind]
    rfl
  refine ⟨_, run, ?_⟩
  simp only [List.cons_append, List.all_cons, List.all_append, List.all_flatten,
    Bool.and_eq_true, hfx, hstock, hreq, hpw, hle, hpc, hpo, eq_int, decide_eq_true_eq,
    ofStr_length, walletDict_keys, orderDict_keys]
  constructor
  · rintro ⟨fx, -, ⟨⟨⟨⟨st, mo, rq⟩, ws⟩, lg⟩, cl⟩, os⟩
    exact ⟨fx, ids, st, mo, rq, ws, lg, keys, cl, os⟩
  · intro h
    exact ⟨h.fixture, by simp [Snapshot.orderDict, Snapshot.tables],
      ⟨⟨⟨⟨h.stock, h.money, h.keys⟩, h.wallets⟩, h.ledger⟩, h.claims⟩, h.orders⟩

/-! ### When the checks ran -/

/-- `unique_claim` compares the number of claims by key with the number of rows. -/
lemma claimChecks_unique {t : Tables} {claims orders : KeyDict Value} {cs : List Check}
    (h : claimChecks t claims orders = .ok cs) (pass : cs.all Check.ok = true) :
    claims.length = t.requests.length := by
  obtain ⟨_, _, h⟩ := bind_ok.1 h
  obtain ⟨_, _, h⟩ := bind_ok.1 h
  obtain ⟨_, _, h⟩ := bind_ok.1 h
  obtain ⟨_, _, h⟩ := bind_ok.1 h
  cases h
  simp only [List.all_cons, Bool.and_eq_true, decide_eq_true_eq] at pass
  exact pass.1

/-- Checks that ran found one case, its fixture and the keys of orders and claims. -/
lemma audited_inv {a : Audited} (h : audited s.toValue true = .ok a) :
    ∃ i b m od cd, s.Bounded ∧ s.OneCase i.caseId ∧ Fixture s i b m ∧
      KeyDict.byField "id" s.tables.orders = .ok od ∧
      KeyDict.byField "request_key" s.tables.requests = .ok cd ∧
      (a.passed = true → od.length = s.orders.length ∧ cd.length = s.requests.length) ∧
      ∃ css, od.mapM (fun o => orderChecks s.tables i.toValue (.str i.caseId) cd true o.1 o.2) =
        .ok css := by
  obtain ⟨t, tabs, h⟩ := bind_ok.1 h
  obtain ⟨bounded, one, two, rfl⟩ := tables_ok.1 tabs
  obtain ⟨i, inventory⟩ := List.length_eq_one_iff.1 one
  have inv : s.tables.inventory.headD .null = i.toValue := by rw [Snapshot.tables, inventory]; rfl
  have case : i.toValue.item "case_id" = .ok (.str i.caseId) := by simp [InventoryRow.toValue]
  obtain ⟨fx, fixture, _⟩ := fixtureValues_ok i
  obtain ⟨cross, crossed, hcross⟩ := crossCase_ok s i.caseId
  obtain ⟨wd, wallets, hlen, hwd⟩ := s.byOwner_ok
  simp only [inv, case, fixture, crossed, ok_bind] at h
  cases cross with
  | true => cases h
  | false =>
    rw [if_neg (by simp), wallets, ok_bind] at h
    split at h
    · cases h
    · next named =>
      obtain ⟨two', buyer, merchant⟩ := not_not.1 named
      rw [ofStr_length] at two'
      obtain rfl := hwd (hlen.1 (two'.trans two.symm))
      rw [ofStr_contains, walletDict_keys, decide_eq_true_eq] at buyer merchant
      obtain ⟨b, m, f⟩ := fixture_of_owners inventory two buyer merchant
      obtain ⟨od, orders, h⟩ := bind_ok.1 h
      obtain ⟨_, _, h⟩ := bind_ok.1 h
      obtain ⟨_, _, h⟩ := bind_ok.1 h
      obtain ⟨_, _, h⟩ := bind_ok.1 h
      obtain ⟨_, _, h⟩ := bind_ok.1 h
      obtain ⟨_, _, h⟩ := bind_ok.1 h
      obtain ⟨_, _, h⟩ := bind_ok.1 h
      obtain ⟨_, _, h⟩ := bind_ok.1 h
      obtain ⟨_, _, h⟩ := bind_ok.1 h
      obtain ⟨_, _, h⟩ := bind_ok.1 h
      obtain ⟨cd, claims, h⟩ := bind_ok.1 h
      obtain ⟨pc, perClaim, h⟩ := bind_ok.1 h
      obtain ⟨css, perOrder, h⟩ := bind_ok.1 h
      cases h
      refine ⟨i, b, m, od, cd, bounded, hcross.1 rfl, f, orders, claims, ?_, css, perOrder⟩
      simp only [Audited.passed, List.cons_append, List.all_cons, List.all_append, Bool.and_eq_true,
        decide_eq_true_eq]
      rintro ⟨_, orders_len, ⟨_, claims_pass⟩, _⟩
      have claims_len := claimChecks_unique perClaim claims_pass
      simp only [Snapshot.tables, List.length_map] at orders_len claims_len
      exact ⟨orders_len, claims_len⟩

/-- A snapshot on which the checks ran passes exactly when it is the one its fixture and its orders
determine. -/
theorem audited_passed_iff {a : Audited} (h : audited s.toValue true = .ok a) :
    a.passed = true ↔ ∃ i b m, Consistent s i b m := by
  obtain ⟨i, b, m, od, cd, bounded, one, f, orders, claims, unique, css, perOrder⟩ := audited_inv h
  obtain ⟨_, orders', hlen, hod⟩ := s.byId_ok
  obtain ⟨_, claims', hlen', hcd⟩ := s.byKey_ok
  rw [orders', Except.ok.injEq] at orders
  rw [claims', Except.ok.injEq] at claims
  subst orders claims
  rw [ofStr_length, ofStr_length, hlen, hlen'] at unique
  -- with distinct keys the checks say `Accounts`
  have decided : (s.orders.map OrderRow.id).Nodup → (s.requests.map RequestRow.requestKey).Nodup →
      (a.passed = true ↔ Accounts s i) := by
    intro ids keys
    rw [hod ids, hcd keys] at perOrder
    have readable : ∀ o ∈ s.orders, o.Readable s i.caseId := by
      intro o mo
      obtain ⟨cs, run⟩ := mapM_mem_ok perOrder (.str o.id, o.toValue)
        (List.mem_map.2 ⟨(o.id, o.toValue), List.mem_map_of_mem mo, rfl⟩)
      exact orderChecks_readable run
    obtain ⟨cs, run, pass⟩ := audited_ok bounded one f ids keys readable
    rw [run, Except.ok.injEq] at h
    rw [← h, ← pass]
    rfl
  constructor
  · intro passed
    obtain ⟨ids, keys⟩ := unique passed
    exact ⟨i, b, m, ((decided ids keys).1 passed).consistent f⟩
  · rintro ⟨i', b', m', c⟩
    have acc := c.accounts
    have same : i' = i := by
      have := c.inventory.symm.trans f.inventory
      exact (List.cons.inj this).1
    exact (decided acc.ids acc.claimKeys).2 (same ▸ acc)

/-! ### The value `audit` returns -/

/-- `audit(snapshot)["passed"]` -/
def reportsPassed (v : Value) : Prop := v.item "passed" = .ok (.bool true)

/-- The verdict in the returned value is that of the checks. -/
lemma audit_inv {snapshot v : Value} {requireClaims : Bool}
    (h : audit snapshot requireClaims = .ok v) :
    ∃ a, audited snapshot requireClaims = .ok a ∧ v.item "passed" = .ok (.bool a.passed) := by
  obtain ⟨a, run, h⟩ := bind_ok.1 h
  obtain ⟨balances, _, h⟩ := bind_ok.1 h
  obtain ⟨sha, _, h⟩ := bind_ok.1 h
  obtain ⟨initial, _, h⟩ := bind_ok.1 h
  obtain ⟨remaining, _, h⟩ := bind_ok.1 h
  cases h
  exact ⟨a, run, item_cons_self ..⟩

/-- On ordinary rows `audit` returns, and reports a consistent snapshot as passed. -/
theorem Consistent.audit_passes (c : Consistent s i b m) (bounded : s.Bounded)
    (one : s.OneCase i.caseId)
    (plain : s.Plain) : ∃ v, audit s.toValue true = .ok v ∧ reportsPassed v := by
  have acc := c.accounts
  have readable : ∀ o ∈ s.orders, o.Readable s i.caseId := by
    intro o mo
    obtain ⟨r, _, _, _, print⟩ := (acc.orders o mo).claim
    refine ⟨⟨_, print⟩, fun e me id => ?_⟩
    obtain ⟨v, read, _⟩ := c.payloads e me o mo id
    exact ⟨v, read⟩
  obtain ⟨cs, run, pass⟩ := audited_ok bounded one c.fixture acc.ids acc.claimKeys readable
  have balances : (KeyDict.ofStr s.walletDict).mapM balanceOf =
      .ok (s.wallets.map fun w => (w.owner, .int w.balance)) := by
    rw [KeyDict.ofStr, Snapshot.walletDict, List.map_map, List.mapM_map]
    apply mapM_ok
    intro w _
    have balance : w.toValue.item "balance" = .ok (.int w.balance) := by simp [WalletRow.toValue]
    simp only [Function.comp_apply, balanceOf, balance, ok_bind]
    rfl
  obtain ⟨sha, digested⟩ := digest_ok plain.legible
  have initial : i.toValue.item "initial_qty" = .ok (.int i.initialQty) := by
    simp [InventoryRow.toValue]
  have available : i.toValue.item "available" = .ok (.int i.available) := by
    simp [InventoryRow.toValue]
  refine ⟨_, by
    simp only [audit, run, ok_bind, balances, digested, initial, available]
    rfl, ?_⟩
  rw [reportsPassed, item_cons_self, Audited.passed, pass.2 acc]

end DbLab.Txlab
