import DbLab.Txlab.Commits

/-!
# Books pass the audit

`snapshot` reads the rows of a case in some order. Whatever the order, a case whose books are kept
has a snapshot that `audit` can evaluate and reports as passed.
-/

namespace DbLab.Txlab
open DbLab.Py DbLab.Store

/-- Two snapshots with the same rows, each table in its own order. -/
structure Snapshot.Same (s s' : Snapshot) : Prop where
  inventory : s.inventory.Perm s'.inventory
  wallets : s.wallets.Perm s'.wallets
  requests : s.requests.Perm s'.requests
  orders : s.orders.Perm s'.orders
  ledger : s.ledger.Perm s'.ledger
  events : s.events.Perm s'.events

/-- The snapshot of a case has one case. -/
lemma Snapshot.ofCase_oneCase (d : Database) (c : Str) : (d.ofCase c).OneCase c where
  inventory := fun _ m => of_decide_eq_true (List.mem_filter.1 m).2
  wallets := fun _ m => of_decide_eq_true (List.mem_filter.1 m).2
  requests := fun _ m => of_decide_eq_true (List.mem_filter.1 m).2
  orders := fun _ m => of_decide_eq_true (List.mem_filter.1 m).2
  ledger := fun _ m => of_decide_eq_true (List.mem_filter.1 m).2
  events := fun _ m => of_decide_eq_true (List.mem_filter.1 m).2

variable {s s' : Snapshot} {i : InventoryRow} {b m : WalletRow} {c : Str}

/-- A snapshot with the same rows has one case. -/
lemma Snapshot.Same.oneCase (h : s.Same s') (one : s'.OneCase c) : s.OneCase c where
  inventory := fun r mr => one.inventory r (h.inventory.mem_iff.1 mr)
  wallets := fun r mr => one.wallets r (h.wallets.mem_iff.1 mr)
  requests := fun r mr => one.requests r (h.requests.mem_iff.1 mr)
  orders := fun r mr => one.orders r (h.orders.mem_iff.1 mr)
  ledger := fun r mr => one.ledger r (h.ledger.mem_iff.1 mr)
  events := fun r mr => one.events r (h.events.mem_iff.1 mr)

/-- A snapshot with the same rows is as plain. -/
lemma Snapshot.Same.plain (h : s.Same s') (plain : s'.Plain) : s.Plain where
  inventory := fun r mr => plain.inventory r (h.inventory.mem_iff.1 mr)
  wallets := fun r mr => plain.wallets r (h.wallets.mem_iff.1 mr)
  requests := fun r mr => plain.requests r (h.requests.mem_iff.1 mr)
  orders := fun r mr => plain.orders r (h.orders.mem_iff.1 mr)
  ledger := fun r mr => plain.ledger r (h.ledger.mem_iff.1 mr)
  events := fun r mr => plain.events r (h.events.mem_iff.1 mr)

/-- The quantity sold, in any order. -/
lemma soldQty_perm {os os' : List OrderRow} (h : os.Perm os') : soldQty os = soldQty os' :=
  ((h.filter _).map _).sum_eq

/-- The amount sold, in any order. -/
lemma soldAmount_perm {os os' : List OrderRow} (h : os.Perm os') : soldAmount os = soldAmount os' :=
  ((h.filter _).map _).sum_eq

/-- The entries of an order are plain. -/
lemma entries_plain (o : OrderRow) :
    ∀ e ∈ o.entries, e.1 = o.id ∧ Text e.2.1 ∧ Text e.2.2.1 ∧ e.2.2.2.natAbs = o.amount.natAbs := by
  have buyer : Text (str "buyer") := by decide
  have merchant : Text (str "merchant") := by decide
  have paid : Text (str "paid") := by decide
  have refunded : Text (str "refunded") := by decide
  intro e me
  rcases List.mem_append.1 me with me | me
  · rcases List.mem_cons.1 me with rfl | me
    · exact ⟨rfl, buyer, paid, Int.natAbs_neg _⟩
    · obtain rfl := List.mem_singleton.1 me
      exact ⟨rfl, merchant, paid, rfl⟩
  · split at me
    · rcases List.mem_cons.1 me with rfl | me
      · exact ⟨rfl, buyer, refunded, rfl⟩
      · obtain rfl := List.mem_singleton.1 me
        exact ⟨rfl, merchant, refunded, Int.natAbs_neg _⟩
    · cases me

/-- The events of an order are plain. -/
lemma kinds_plain (o : OrderRow) : ∀ e ∈ o.kinds, e.1 = o.id ∧ Text e.2 := by
  have paid : Text (str "paid") := by decide
  have refunded : Text (str "refunded") := by decide
  intro e me
  rcases List.mem_cons.1 me with rfl | me
  · exact ⟨rfl, paid⟩
  · split at me
    · obtain rfl := List.mem_singleton.1 me
      exact ⟨rfl, refunded⟩
    · cases me

variable [Interpreter]

/-- The same rows are as consistent. -/
lemma Consistent.of_same (h : Consistent s' i b m) (same : s.Same s') : Consistent s i b m where
  inventory := List.perm_singleton.1 (h.inventory ▸ same.inventory)
  wallets := same.wallets.trans h.wallets
  buyer := h.buyer
  merchant := h.merchant
  price_pos := h.price_pos
  buyer_initial := h.buyer_initial
  merchant_initial := h.merchant_initial
  ids := (same.orders.map _).nodup_iff.2 h.ids
  keys := (same.orders.map _).nodup_iff.2 h.keys
  quantity_pos := fun o mo => h.quantity_pos o (same.orders.mem_iff.1 mo)
  amount := fun o mo => h.amount o (same.orders.mem_iff.1 mo)
  state := fun o mo => h.state o (same.orders.mem_iff.1 mo)
  stock := by rw [soldQty_perm same.orders]; exact h.stock
  stock_nonneg := h.stock_nonneg
  stock_le := h.stock_le
  buyer_balance := by rw [soldAmount_perm same.orders]; exact h.buyer_balance
  buyer_nonneg := h.buyer_nonneg
  merchant_balance := by rw [soldAmount_perm same.orders]; exact h.merchant_balance
  merchant_nonneg := h.merchant_nonneg
  ledger := (same.ledger.map _).trans (h.ledger.trans (same.orders.symm.flatMap_right _))
  events := (same.events.map _).trans (h.events.trans (same.orders.symm.flatMap_right _))
  payloads := fun e me o mo => h.payloads e (same.events.mem_iff.1 me) o (same.orders.mem_iff.1 mo)
  claims := (same.requests.map _).trans (h.claims.trans (same.orders.symm.map _))

/-- Where each text and each number of consistent books comes from. -/
lemma Consistent.plain (h : Consistent s i b m) (t : Tidy s i b m) (one : s.OneCase i.caseId) :
    s.Plain := by
  have case_ := caseIdOk_scalar t.caseId
  have fits : ∀ {n : Int}, 0 ≤ n → n ≤ 1000000 → Bigint n := by
    intro n low high
    show n.natAbs < 10 ^ 20
    omega
  have order : ∀ o ∈ s.orders, Text o.id ∧ Text o.requestKey ∧ Bigint o.quantity ∧
      Bigint o.amount := by
    intro o mo
    obtain ⟨id, key, q2⟩ := t.orders o mo
    have q1 := h.quantity_pos o mo
    refine ⟨orderIdOk_scalar id, keyOk_scalar key, fits q1.le (by omega), ?_⟩
    rw [h.amount o mo]
    exact amount_bigint q1 q2 h.price_pos t.unitPrice
  have sold : 0 ≤ soldAmount s.orders := soldAmount_nonneg fun o mo => (h.amount_pos mo).le
  have buyer := h.buyer_balance
  have merchant := h.merchant_balance
  have initial := h.buyer_initial
  have left := h.buyer_nonneg
  have limit := t.buyer
  have zero := t.merchant
  constructor
  · intro r mr
    rw [h.inventory, List.mem_singleton] at mr
    subst mr
    have low := h.stock_nonneg
    have high := h.stock_le
    have small := t.initialQty
    exact ⟨case_, fits (by omega) small, fits low (by omega), fits h.price_pos.le t.unitPrice⟩
  · intro r mr
    have own := one.wallets r mr
    rw [h.wallets.mem_iff, List.mem_cons, List.mem_singleton] at mr
    rcases mr with rfl | rfl
    · exact ⟨own ▸ case_, by rw [h.buyer]; decide, fits initial limit, fits left (by omega)⟩
    · exact ⟨own ▸ case_, by rw [h.merchant]; decide, fits (by omega) (by omega), fits (by
        omega) (by omega)⟩
  · intro r mr
    obtain ⟨o, mo, e⟩ := List.mem_map.1 (h.claims.mem_iff.1 (List.mem_map_of_mem mr))
    simp only [Prod.mk.injEq] at e
    obtain ⟨p, _, print⟩ := fingerprint?_eq_some.1 e.2.1
    obtain ⟨id, key, _⟩ := order o mo
    exact ⟨one.requests r mr ▸ case_, e.1 ▸ key, digest_text print, e.2.2 ▸ id⟩
  · intro o mo
    obtain ⟨id, key, quantity, amount⟩ := order o mo
    refine ⟨id, one.orders o mo ▸ case_, key, quantity, amount, ?_⟩
    rcases h.state o mo with paid | refunded
    · rw [show o.state = str "paid" from of_decide_eq_true paid]
      decide
    · rw [show o.state = str "refunded" from of_decide_eq_true refunded]
      decide
  · intro r mr
    obtain ⟨o, mo, e⟩ := List.mem_flatMap.1 (h.ledger.mem_iff.1 (List.mem_map_of_mem mr))
    obtain ⟨id, _, _, amount⟩ := order o mo
    obtain ⟨own, owner, phase, delta⟩ := entries_plain o r.entry e
    have named : r.orderId = o.id := own
    have same : r.delta.natAbs = o.amount.natAbs := delta
    refine ⟨orderIdOk_scalar (t.ledger r mr), one.ledger r mr ▸ case_, named ▸ id, owner, phase, ?_⟩
    rw [Bigint, same]
    exact amount
  · intro r mr
    obtain ⟨o, mo, e⟩ := List.mem_flatMap.1 (h.events.mem_iff.1 (List.mem_map_of_mem mr))
    obtain ⟨id, _⟩ := order o mo
    obtain ⟨event, payload⟩ := t.events r mr
    obtain ⟨own, kind⟩ := kinds_plain o r.kindOf e
    have named : r.orderId = o.id := own
    exact ⟨orderIdOk_scalar event, one.events r mr ▸ case_, named ▸ id, kind, payload⟩

/-- A snapshot of a case with a fixture passes the audit. -/
theorem Database.Books.audited {d : Database} (h : d.Books) (fixture : d.inventory.find? c = some i)
    (same : s.Same (d.ofCase c)) (bounded : s.Bounded) :
    ∃ v, audit s.toValue true = .ok v ∧ reportsPassed v := by
  obtain ⟨b, m, held, books, tidy⟩ := h.fixture fixture
  obtain ⟨own, _⟩ := held.caseId
  have one : (d.ofCase c).OneCase i.caseId := own ▸ Snapshot.ofCase_oneCase d c
  exact (books.of_same same).audit_passes bounded (same.oneCase one)
    (same.plain (books.plain tidy one))

end DbLab.Txlab
