import DbLab.Txlab.Accounts

/-!
# Purchases and refunds keep the books

What the rows of a purchase and of a refund do to a consistent snapshot, and the snapshot of a case
that was only seeded.
-/

namespace DbLab.Txlab
open DbLab.Py

/-! ### Sums of sold goods -/

/-- The quantity of more orders. -/
lemma soldQty_append (os os' : List OrderRow) : soldQty (os ++ os') = soldQty os + soldQty os' := by
  simp [soldQty]

/-- The amount of more orders. -/
lemma soldAmount_append (os os' : List OrderRow) :
    soldAmount (os ++ os') = soldAmount os + soldAmount os' := by
  simp [soldAmount]

/-- The quantity of one order more. -/
lemma soldQty_cons (o : OrderRow) (os : List OrderRow) :
    soldQty (o :: os) = (if o.paid then o.quantity else 0) + soldQty os := by
  rw [soldQty, soldQty]
  cases h : o.paid <;> simp [h]

/-- The quantity sold is not negative. -/
lemma soldQty_nonneg {os : List OrderRow} (h : ∀ o ∈ os, 0 < o.quantity) : 0 ≤ soldQty os := by
  apply List.sum_nonneg
  intro q m
  obtain ⟨o, mo, rfl⟩ := List.mem_map.1 m
  exact (h o (List.mem_filter.1 mo).1).le

/-- The amount sold is not negative. -/
lemma soldAmount_nonneg {os : List OrderRow} (h : ∀ o ∈ os, 0 ≤ o.amount) : 0 ≤ soldAmount os := by
  apply List.sum_nonneg
  intro a m
  obtain ⟨o, mo, rfl⟩ := List.mem_map.1 m
  exact h o (List.mem_filter.1 mo).1

variable [Interpreter] {s : Snapshot} {i : InventoryRow} {b m : WalletRow}

/-- An order costs something. -/
lemma Consistent.amount_pos (h : Consistent s i b m) {o : OrderRow} (mem : o ∈ s.orders) :
    0 < o.amount := by
  rw [h.amount o mem]
  exact Int.mul_pos (h.quantity_pos o mem) h.price_pos

/-- No event refers to an order that is not there. -/
lemma Consistent.event_order (h : Consistent s i b m) {e : EventRow} (mem : e ∈ s.events) :
    e.orderId ∈ s.orders.map OrderRow.id := by
  obtain ⟨o, mo, me⟩ := List.mem_flatMap.1 (h.events.mem_iff.1 (List.mem_map_of_mem mem))
  exact List.mem_map.2 ⟨o, mo, (kinds_id o _ me).symm⟩

/-- The claims are under the keys of the orders. -/
lemma Consistent.claim_keys (h : Consistent s i b m) :
    (s.requests.map RequestRow.requestKey).Perm (s.orders.map OrderRow.requestKey) := by
  have keys := h.claims.map Prod.fst
  rw [List.map_map, List.map_map] at keys
  exact keys

/-- A seeded case is consistent. -/
lemma Consistent.seed {c : Str} {stock balance price : Int} (stock_nonneg : 0 ≤ stock)
    (balance_nonneg : 0 ≤ balance) (price_pos : 0 < price) :
    Consistent ⟨[⟨c, stock, stock, price⟩],
      [⟨c, str "buyer", balance, balance⟩, ⟨c, str "merchant", 0, 0⟩],
        [], [], [], []⟩
      ⟨c, stock, stock, price⟩ ⟨c, str "buyer", balance, balance⟩ ⟨c, str "merchant", 0, 0⟩ where
  inventory := rfl
  wallets := .refl _
  buyer := rfl
  merchant := rfl
  price_pos := price_pos
  buyer_initial := balance_nonneg
  merchant_initial := le_rfl
  ids := .nil
  keys := .nil
  quantity_pos := nofun
  amount := nofun
  state := nofun
  stock := (sub_zero _).symm
  stock_nonneg := stock_nonneg
  stock_le := le_rfl
  buyer_balance := (sub_zero _).symm
  buyer_nonneg := balance_nonneg
  merchant_balance := (add_zero _).symm
  merchant_nonneg := le_rfl
  ledger := .refl _
  events := .refl _
  payloads := nofun
  claims := .refl _

/-- The rows of a purchase. -/
structure Bought (s : Snapshot) (i : InventoryRow) (b : WalletRow) (o : OrderRow) (r : RequestRow)
    (ls : List LedgerRow) (e : EventRow) : Prop where
  paid : o.state = str "paid"
  id : o.id ∉ s.orders.map OrderRow.id
  key : r.requestKey ∉ s.requests.map RequestRow.requestKey
  quantity_pos : 0 < o.quantity
  amount : o.amount = o.quantity * i.unitPrice
  stock : o.quantity ≤ i.available
  funds : o.amount ≤ b.balance
  claim : (r.requestKey, some r.fingerprint, r.orderId) =
    (o.requestKey, o.fingerprint? i.caseId, o.id)
  entries : ls.map LedgerRow.entry = o.entries
  kind : e.kindOf = (o.id, str "paid")
  payload : e.matchesOrder o

/-- A purchase keeps the books. -/
theorem Consistent.purchase (h : Consistent s i b m) {o : OrderRow} {r : RequestRow}
    {ls : List LedgerRow}
    {e : EventRow} (new : Bought s i b o r ls e) {ws : List WalletRow}
    (wallets : ws.Perm [{ b with balance := b.balance + -o.amount },
      { m with balance := m.balance + o.amount }]) :
    Consistent ⟨[{ i with available := i.available + -o.quantity }], ws, s.requests ++ [r],
      s.orders ++ [o],
        s.ledger ++ ls, s.events ++ [e]⟩
      { i with available := i.available + -o.quantity } { b with balance := b.balance + -o.amount }
      { m with balance := m.balance + o.amount } := by
  have paid : o.paid = true := by simp [OrderRow.paid, new.paid]
  have open_ : o.refunded = false := by simp only [OrderRow.refunded, new.paid]; decide
  have qty : soldQty (s.orders ++ [o]) = soldQty s.orders + o.quantity := by
    rw [soldQty_append, soldQty_cons, if_pos paid]
    exact congrArg _ (add_zero _)
  have sum : soldAmount (s.orders ++ [o]) = soldAmount s.orders + o.amount := by
    rw [soldAmount_append, soldAmount_cons, if_pos paid]
    exact congrArg _ (add_zero _)
  have each : ∀ {p : OrderRow → Prop}, (∀ x ∈ s.orders, p x) → p o →
      ∀ x ∈ s.orders ++ [o], p x := by
    intro p old new x mx
    rcases List.mem_append.1 mx with mx | mx
    · exact old x mx
    · rw [List.mem_singleton.1 mx]
      exact new
  have key : o.requestKey ∉ s.orders.map OrderRow.requestKey := by
    have same : r.requestKey = o.requestKey := congrArg Prod.fst new.claim
    rw [← same, ← h.claim_keys.mem_iff]
    exact new.key
  have pos : 0 < o.amount := by
    rw [new.amount]
    exact Int.mul_pos new.quantity_pos h.price_pos
  have nonneg := soldAmount_nonneg fun x mx => (h.amount_pos mx).le
  have stock := h.stock
  have le := h.stock_le
  have buyer := h.buyer_balance
  have merchant := h.merchant_balance
  have room := new.stock
  have funds := new.funds
  exact {
    inventory := rfl
    wallets := wallets
    buyer := h.buyer
    merchant := h.merchant
    price_pos := h.price_pos
    buyer_initial := h.buyer_initial
    merchant_initial := h.merchant_initial
    ids := by
      rw [List.map_append]
      exact h.ids.append (List.nodup_singleton _) (List.disjoint_singleton.2 new.id)
    keys := by
      rw [List.map_append]
      exact h.keys.append (List.nodup_singleton _) (List.disjoint_singleton.2 key)
    quantity_pos := each h.quantity_pos new.quantity_pos
    amount := each h.amount new.amount
    state := each h.state (.inl paid)
    stock := by rw [qty]; dsimp only; omega
    stock_nonneg := by dsimp only; omega
    stock_le := by have := new.quantity_pos; dsimp only; omega
    buyer_balance := by rw [sum]; dsimp only; omega
    buyer_nonneg := by dsimp only; omega
    merchant_balance := by rw [sum]; dsimp only; omega
    merchant_nonneg := by have := h.merchant_nonneg; dsimp only; omega
    ledger := by
      rw [List.map_append, List.flatMap_append, new.entries, List.flatMap_singleton]
      exact h.ledger.append_right _
    events := by
      have kinds : o.kinds = [(o.id, str "paid")] := by rw [OrderRow.kinds, open_]; rfl
      rw [List.map_append, List.flatMap_append, List.flatMap_singleton, kinds,
        List.map_singleton, new.kind]
      exact h.events.append_right _
    payloads := by
      intro e' me o' mo id
      have eid : e.orderId = o.id := congrArg Prod.fst new.kind
      rcases List.mem_append.1 me with me | me
      · rcases List.mem_append.1 mo with mo | mo
        · exact h.payloads e' me o' mo id
        · rw [List.mem_singleton.1 mo] at id
          exact absurd (id ▸ h.event_order me) new.id
      · rw [List.mem_singleton.1 me] at id ⊢
        rcases List.mem_append.1 mo with mo | mo
        · exact absurd (eid.symm.trans id ▸ List.mem_map_of_mem mo) new.id
        · rw [List.mem_singleton.1 mo]
          exact new.payload
    claims := by
      rw [List.map_append, List.map_append, List.map_singleton, List.map_singleton, new.claim]
      exact h.claims.append_right _ }

/-- The rows of a refund. -/
structure Returned (o : OrderRow) (ls : List LedgerRow) (e : EventRow) : Prop where
  paid : o.state = str "paid"
  entries : ls.map LedgerRow.entry = [(o.id, str "buyer", str "refunded", o.amount),
    (o.id, str "merchant", str "refunded", -o.amount)]
  kind : e.kindOf = (o.id, str "refunded")
  payload : e.matchesOrder o

/-- A refund keeps the books. -/
theorem Consistent.refund (h : Consistent s i b m) {pre post : List OrderRow} {o : OrderRow}
    {ls : List LedgerRow} {e : EventRow} (split : s.orders = pre ++ o :: post)
    (new : Returned o ls e)
    {ws : List WalletRow}
    (wallets : ws.Perm [{ b with balance := b.balance + o.amount },
      { m with balance := m.balance + -o.amount }]) :
    Consistent ⟨[{ i with available := i.available + o.quantity }], ws, s.requests,
        pre ++ { o with state := str "refunded" } :: post, s.ledger ++ ls, s.events ++ [e]⟩
      { i with available := i.available + o.quantity } { b with balance := b.balance + o.amount }
      { m with balance := m.balance + -o.amount } := by
  have mem : o ∈ s.orders := split ▸ List.mem_append_right _ List.mem_cons_self
  have paid : o.paid = true := by simp [OrderRow.paid, new.paid]
  have back : ({ o with state := str "refunded" } : OrderRow).paid = false :=
    decide_eq_false (show str "refunded" ≠ str "paid" by decide)
  have open_ : o.refunded = false := by simp only [OrderRow.refunded, new.paid]; decide
  have qty : soldQty s.orders = soldQty (pre ++ { o with state := str "refunded" } :: post) +
      o.quantity := by
    rw [split, soldQty_append, soldQty_append, soldQty_cons, soldQty_cons, if_pos paid, back,
      if_neg (by decide)]
    omega
  have sum : soldAmount s.orders =
      soldAmount (pre ++ { o with state := str "refunded" } :: post) + o.amount := by
    rw [split, soldAmount_append, soldAmount_append, soldAmount_cons, soldAmount_cons,
      if_pos paid, back, if_neg (by decide)]
    omega
  -- the other columns of the order stay
  have same : ∀ {β : Type} (f : OrderRow → β), f { o with state := str "refunded" } = f o →
      (pre ++ { o with state := str "refunded" } :: post).map f = s.orders.map f := by
    intro β f e
    rw [split, List.map_append, List.map_append, List.map_cons, List.map_cons, e]
  have each : ∀ {p : OrderRow → Prop}, (∀ x ∈ s.orders, p x) →
    p { o with state := str "refunded" } →
      ∀ x ∈ pre ++ { o with state := str "refunded" } :: post, p x := by
    intro p old new x mx
    rcases List.mem_append.1 mx with mx | mx
    · exact old x (split ▸ List.mem_append_left _ mx)
    · rcases List.mem_cons.1 mx with rfl | mx
      · exact new
      · exact old x (split ▸ List.mem_append_right _ (List.mem_cons_of_mem _ mx))
  have positive := each h.quantity_pos (h.quantity_pos o mem)
  have amount := each h.amount (h.amount o mem)
  have nonneg := soldQty_nonneg positive
  have nonneg' := soldAmount_nonneg fun x mx => by
    rw [amount x mx]
    exact (Int.mul_pos (positive x mx) h.price_pos).le
  have stock := h.stock
  have buyer := h.buyer_balance
  have merchant := h.merchant_balance
  have q := h.quantity_pos o mem
  have a := h.amount_pos mem
  exact {
    inventory := rfl
    wallets := wallets
    buyer := h.buyer
    merchant := h.merchant
    price_pos := h.price_pos
    buyer_initial := h.buyer_initial
    merchant_initial := h.merchant_initial
    ids := by
      rw [same OrderRow.id rfl]
      exact h.ids
    keys := by
      rw [same OrderRow.requestKey rfl]
      exact h.keys
    quantity_pos := positive
    amount := amount
    state := each h.state (.inr (by simp [OrderRow.refunded]))
    stock := by dsimp only; omega
    stock_nonneg := by have := h.stock_nonneg; dsimp only; omega
    stock_le := by dsimp only; omega
    buyer_balance := by dsimp only; omega
    buyer_nonneg := by have := h.buyer_nonneg; dsimp only; omega
    merchant_balance := by dsimp only; omega
    merchant_nonneg := by have := h.merchant_initial; dsimp only; omega
    ledger := by
      have grown : ({ o with state := str "refunded" } : OrderRow).entries = o.entries ++
          ls.map LedgerRow.entry := by
        rw [new.entries, OrderRow.entries, OrderRow.entries, open_]
        rfl
      rw [List.map_append, List.flatMap_append, List.flatMap_cons, grown]
      have old := h.ledger
      rw [split, List.flatMap_append, List.flatMap_cons] at old
      refine (old.append_right _).trans ?_
      simp only [List.append_assoc]
      exact ((List.perm_append_comm).append_left _).append_left _
    events := by
      have grown : ({ o with state := str "refunded" } : OrderRow).kinds = o.kinds ++
          [e.kindOf] := by
        rw [new.kind, OrderRow.kinds, OrderRow.kinds, open_]
        rfl
      rw [List.map_append, List.flatMap_append, List.flatMap_cons, grown]
      have old := h.events
      rw [split, List.flatMap_append, List.flatMap_cons] at old
      refine (old.append_right _).trans ?_
      simp only [List.append_assoc]
      exact ((List.perm_append_comm).append_left _).append_left _
    payloads := by
      have spelled : ∀ e' : EventRow, e'.matchesOrder { o with state := str "refunded" } ↔
          e'.matchesOrder o :=
        fun _ => Iff.rfl
      have others : ∀ e' ∈ s.events ++ [e], ∀ o' ∈ s.orders, e'.orderId = o'.id →
          e'.matchesOrder o' := by
        intro e' me o' mo id
        rcases List.mem_append.1 me with me | me
        · exact h.payloads e' me o' mo id
        · rw [List.mem_singleton.1 me] at id ⊢
          have eid : e.orderId = o.id := congrArg Prod.fst new.kind
          rw [List.inj_on_of_nodup_map h.ids mo mem (id.symm.trans eid)]
          exact new.payload
      intro e' me o' mo
      exact each (others e' me) (fun id => (spelled e').2 (others e' me o mem id)) o' mo
    claims := by
      rw [same (fun o => (o.requestKey, o.fingerprint? i.caseId, o.id)) rfl]
      exact h.claims }

end DbLab.Txlab
