import DbLab.Txlab.Statements

/-!
# What the transactions commit

The writes of a seed, a purchase and a refund, and that each of them keeps the books when it
commits.
-/

namespace DbLab.Txlab
open DbLab.Py DbLab.Store

/-! ### Tables by case -/

section Cases
variable {K R : Type} [DecidableEq K] {key : R → K} {t : Table key} {f : R → Str} {c : Str} {r : R}

/-- A row of the case is added. -/
lemma insert_own (fresh : t.find? (key r) = none) (own : f r = c) :
    ((t.insert r).rows.filter fun r => f r = c) = (t.rows.filter fun r => f r = c) ++ [r] := by
  rw [Table.insert_rows fresh, filter_append_own _ own]

/-- A row of another case does not matter. -/
lemma insert_other (other : f r ≠ c) :
    ((t.insert r).rows.filter fun r => f r = c) = t.rows.filter fun r => f r = c := by
  rw [Table.insert]
  split
  · exact filter_append_other _ other
  · rfl

variable {k : K} {g : R → R} (keeps : ∀ r, key (g r) = key r)

/-- The changed row of a case replaces the old one. -/
lemma update_own (found : t.find? k = some r) (own : f r = c) (own' : f (g r) = c) :
    ∃ pre post, (t.rows.filter fun r => f r = c) = pre ++ r :: post ∧
      ((t.update k g keeps).rows.filter fun r => f r = c) = pre ++ g r :: post := by
  obtain ⟨pre, post, rows, rows'⟩ := Table.update_rows_of_find? keeps found
  exact ⟨_, _, by rw [rows, filter_change_own _ _ own], by rw [rows', filter_change_own _ _ own']⟩

/-- A row of the case changes. -/
lemma update_own_perm {rest : List R} (found : t.find? k = some r) (own : f r = c)
    (own' : f (g r) = c)
    (perm : (t.rows.filter fun r => f r = c).Perm (r :: rest)) :
    ((t.update k g keeps).rows.filter fun r => f r = c).Perm (g r :: rest) := by
  obtain ⟨pre, post, rows, rows'⟩ := update_own keeps found own own'
  rw [rows'] 
  rw [rows] at perm
  exact List.perm_middle.trans ((List.perm_middle.symm.trans perm).cons_inv.cons _)

/-- A row of another case does not matter. -/
lemma update_other (found : t.find? k = some r) (other : f r ≠ c) (other' : f (g r) ≠ c) :
    ((t.update k g keeps).rows.filter fun r => f r = c) = t.rows.filter fun r => f r = c := by
  obtain ⟨pre, post, rows, rows'⟩ := Table.update_rows_of_find? keeps found
  rw [rows, rows', filter_change_other _ _ other' other]

end Cases

/-- Amounts of an order fit a column. -/
lemma amount_bigint {q p : Int} (q1 : 1 ≤ q) (q2 : q ≤ 20) (p1 : 0 < p) (p2 : p ≤ 1000000) :
    Bigint (q * p) := by
  have le : q * p ≤ 20 * 1000000 := Int.mul_le_mul q2 p2 p1.le (by decide)
  have pos : 0 < q * p := Int.mul_pos (by omega) p1
  show (q * p).natAbs < 10 ^ 20
  omega

/-! ### The fixture of a case -/

/-- A row that is found is in its case. -/
lemma mem_case {K R : Type} [DecidableEq K] {key : R → K} {t : Table key} {f : R → Str}
    {k : K} {r : R}
    (found : t.find? k = some r) (own : f r = c) : r ∈ t.rows.filter fun r => f r = c :=
  List.mem_filter.2 ⟨(Table.find?_eq_some.1 found).1, decide_eq_true own⟩

variable {d : Database} {c : Str} {i : InventoryRow} {b m : WalletRow}

/-- The stock and the balances of a case, moved. -/
def Database.moved (d : Database) (c : Str) (stock buyer merchant : Int) : Database :=
  ((d.apply (.addAvailable c stock)).apply (.addBalance c (str "buyer") buyer)).apply
    (.addBalance c (str "merchant") merchant)

/-- The fixture of a case, as `Books.fixture` finds it. -/
structure Held (d : Database) (c : Str) (i : InventoryRow) (b m : WalletRow) : Prop where
  item : d.inventory.find? c = some i
  buyer : d.wallets.find? (c, str "buyer") = some b
  merchant : d.wallets.find? (c, str "merchant") = some m

/-- The rows held are of the case. -/
lemma Held.caseId (h : Held d c i b m) : i.caseId = c ∧ b.caseId = c ∧ m.caseId = c :=
  ⟨(Table.find?_eq_some.1 h.item).2, congrArg Prod.fst (Table.find?_eq_some.1 h.buyer).2,
    congrArg Prod.fst (Table.find?_eq_some.1 h.merchant).2⟩

/-- The merchant's wallet is not the buyer's. -/
lemma Held.merchant_after (h : Held d c i b m) (n : Int) :
    (d.apply (.addBalance c (str "buyer") n)).wallets.find? (c, str "merchant") = some m := by
  have ne : (c, str "buyer") ≠ (c, str "merchant") := fun e => nomatch congrArg Prod.snd e
  rw [Database.apply, Table.find?_update_of_ne _ ne]
  exact h.merchant

/-- Other cases are as before. -/
lemma Held.moved_other (h : Held d c i b m) {c' : Str} (ne : c ≠ c') (q n n' : Int) :
    ((d.moved c q n n').inventory.rows.filter fun r => r.caseId = c') =
        (d.inventory.rows.filter fun r => r.caseId = c') ∧
      ((d.moved c q n n').wallets.rows.filter fun r => r.caseId = c') =
        d.wallets.rows.filter fun r => r.caseId = c' := by
  obtain ⟨icase, bcase, mcase⟩ := h.caseId
  constructor
  · exact update_other (g := fun r : InventoryRow => { r with available := r.available + q })
      (fun _ => rfl) h.item
      (icase ▸ ne) (icase ▸ ne)
  · refine (update_other (g := fun w : WalletRow => { w with balance := w.balance + n' })
      (fun _ => rfl)
      (h.merchant_after n) (mcase ▸ ne) (mcase ▸ ne)).trans ?_
    exact update_other (g := fun w : WalletRow => { w with balance := w.balance + n })
      (fun _ => rfl) h.buyer
      (bcase ▸ ne) (bcase ▸ ne)

variable [Interpreter]

/-- A case with a fixture row has both wallets. -/
lemma Database.Books.fixture (h : d.Books) (found : d.inventory.find? c = some i) :
    ∃ b m, Held d c i b m ∧ Consistent (d.ofCase c) i b m ∧ Tidy (d.ofCase c) i b m := by
  have own : i.caseId = c := (Table.find?_eq_some.1 found).2
  have mem : i ∈ (d.ofCase c).inventory := mem_case found own
  rcases h c with empty | ⟨i', b, m, books, tidy⟩
  · rw [empty] at mem
    cases mem
  · rw [books.inventory, List.mem_singleton] at mem
    subst mem
    have wallet : ∀ w, w ∈ [b, m] → d.wallets.find? (c, w.owner) = some w := by
      intro w mw
      obtain ⟨mem, same⟩ := List.mem_filter.1 (books.wallets.mem_iff.2 mw)
      rw [Table.find?_eq_some]
      exact ⟨mem, congrArg (·, w.owner) (of_decide_eq_true same)⟩
    refine ⟨b, m, ⟨found, ?_, ?_⟩, books, tidy⟩
    · rw [← books.buyer]
      exact wallet b (by simp)
    · rw [← books.merchant]
      exact wallet m (by simp)

/-- The case was consistent. -/
lemma Held.kept (held : Held d c i b m) (h : d.Books) :
    Consistent (d.ofCase c) i b m ∧ Tidy (d.ofCase c) i b m := by
  obtain ⟨b', m', held', books, tidy⟩ := h.fixture held.item
  obtain rfl : b = b' := Option.some.inj (held.buyer.symm.trans held'.buyer)
  obtain rfl : m = m' := Option.some.inj (held.merchant.symm.trans held'.merchant)
  exact ⟨books, tidy⟩

/-! ### Purchases -/

/-- The writes of a purchase, in the order of its statements. -/
def purchaseWrites (o : OrderRow) (r : RequestRow) (l₁ l₂ : LedgerRow) (e : EventRow) :
    List Write :=
  [.insert (.request r), .addAvailable o.caseId (-o.quantity),
    .addBalance o.caseId (str "buyer") (-o.amount), .addBalance o.caseId (str "merchant") o.amount,
    .insert (.order o), .insert (.ledger l₁), .insert (.ledger l₂), .insert (.event e)]

/-- What a transaction knows of its entries and its event when it commits. -/
structure Booked (d : Database) (o : OrderRow) (phase : Str) (l₁ l₂ : LedgerRow) (e : EventRow) :
    Prop where
  first : d.ledger.find? l₁.id = none
  second : d.ledger.find? l₂.id = none
  ne : l₁.id ≠ l₂.id
  event : d.events.find? e.id = none
  ids : orderIdOk l₁.id = true ∧ orderIdOk l₂.id = true ∧ orderIdOk e.id = true
  caseId : l₁.caseId = o.caseId ∧ l₂.caseId = o.caseId ∧ e.caseId = o.caseId
  kind : e.kindOf = (o.id, phase)
  payload : o.payloadText phase = .ok e.payload

/-- What a purchase knows when it commits. -/
structure Charged (d : Database) (i : InventoryRow) (b m : WalletRow) (o : OrderRow)
    (r : RequestRow)
    (l₁ l₂ : LedgerRow) (e : EventRow) : Prop where
  held : Held d o.caseId i b m
  request : d.requests.find? (o.caseId, o.requestKey) = none
  order : d.orders.find? o.id = none
  booked : Booked d o (str "paid") l₁ l₂ e
  paid : o.state = str "paid"
  id : orderIdOk o.id = true
  key : keyOk o.requestKey = true
  quantity : 1 ≤ o.quantity ∧ o.quantity ≤ 20
  amount : o.amount = o.quantity * i.unitPrice
  stock : o.quantity ≤ i.available
  funds : o.amount ≤ b.balance
  claim : r.caseId = o.caseId ∧ (r.requestKey, some r.fingerprint, r.orderId) =
    (o.requestKey, o.fingerprint? o.caseId, o.id)
  entries : [l₁, l₂].map LedgerRow.entry = o.entries

/-- The payload of an event is a text. -/
lemma Booked.payload_text {o : OrderRow} {phase : Str} {l₁ l₂ : LedgerRow} {e : EventRow}
    (h : Booked d o phase l₁ l₂ e) (id : Text o.id) (quantity : Bigint o.quantity)
    (amount : Bigint o.amount)
    (text : Text phase) : Text e.payload ∧ e.matchesOrder o := by
  obtain ⟨t, run, scalar, v, read, same⟩ := o.payloadText_ok phase id quantity amount text
  rw [h.payload, Except.ok.injEq] at run
  subst run
  have kind : e.kind = phase := congrArg Prod.snd h.kind
  exact ⟨scalar, v, read, kind ▸ same⟩

/-- The entries and the event of a transaction go to the books of its case. -/
lemma Booked.rows {o : OrderRow} {phase : Str} {l₁ l₂ : LedgerRow} {e : EventRow}
    (h : Booked d o phase l₁ l₂ e) :
    (((d.ledger.insert l₁).insert l₂).rows.filter fun r => r.caseId = o.caseId) =
        (d.ledger.rows.filter fun r => r.caseId = o.caseId) ++ [l₁, l₂] ∧
      ((d.events.insert e).rows.filter fun r => r.caseId = o.caseId) =
        (d.events.rows.filter fun r => r.caseId = o.caseId) ++ [e] := by
  obtain ⟨own₁, own₂, own⟩ := h.caseId
  constructor
  · rw [insert_own ((Table.find?_insert_eq_none h.first).2 ⟨h.second, h.ne⟩) own₂,
      insert_own h.first own₁, List.append_assoc]
    rfl
  · rw [insert_own h.event own]

/-- Other cases are as before. -/
lemma Booked.others {o : OrderRow} {phase c : Str} {l₁ l₂ : LedgerRow} {e : EventRow}
    (h : Booked d o phase l₁ l₂ e) (ne : o.caseId ≠ c) :
    (((d.ledger.insert l₁).insert l₂).rows.filter fun r => r.caseId = c) =
      (d.ledger.rows.filter fun r => r.caseId = c) ∧
        ((d.events.insert e).rows.filter fun r => r.caseId = c) = d.events.rows.filter fun r =>
        r.caseId = c := by
  obtain ⟨own₁, own₂, own⟩ := h.caseId
  rw [insert_other (own₂ ▸ ne), insert_other (own₁ ▸ ne), insert_other (own ▸ ne)]
  exact ⟨rfl, rfl⟩

/-- The case has moved. -/
lemma Held.moved_own (h : Held d c i b m) (books : Consistent (d.ofCase c) i b m) (q n n' : Int) :
    ((d.moved c q n n').inventory.rows.filter fun r => r.caseId = c) =
      [{ i with available := i.available + q }] ∧
        ((d.moved c q n n').wallets.rows.filter fun r => r.caseId = c).Perm
        [{ b with balance := b.balance + n }, { m with balance := m.balance + n' }] := by
  obtain ⟨icase, bcase, mcase⟩ := h.caseId
  constructor
  · have perm :=
      update_own_perm (g := fun r : InventoryRow => { r with available := r.available + q })
      (fun _ => rfl) h.item icase icase (.of_eq books.inventory)
    exact List.perm_singleton.1 perm
  · have debit :=
      update_own_perm (g := fun w : WalletRow => { w with balance := w.balance + n }) (fun _ => rfl)
      h.buyer bcase bcase books.wallets
    have credit :=
      update_own_perm (g := fun w : WalletRow => { w with balance := w.balance + n' })
        (fun _ => rfl)
      (h.merchant_after n) mcase mcase (debit.trans (.swap _ _ _))
    exact credit.trans (.swap _ _ _)

/-- A purchase that commits keeps the books. -/
theorem Database.Books.purchase (h : d.Books) {o : OrderRow} {r : RequestRow} {l₁ l₂ : LedgerRow}
    {e : EventRow}
    (new : Charged d i b m o r l₁ l₂ e) :
    Database.Books ((purchaseWrites o r l₁ l₂ e).foldl Database.apply d) := by
  obtain ⟨books, tidy⟩ := new.held.kept h
  obtain ⟨icase, _⟩ := new.held.caseId
  obtain ⟨q1, q2⟩ := new.quantity
  have positive : 0 < o.quantity := by omega
  intro c
  by_cases own : o.caseId = c
  · subst own
    have text := new.booked.payload_text (orderIdOk_scalar new.id)
      (by show o.quantity.natAbs < 10 ^ 20; omega)
      (by rw [new.amount]; exact amount_bigint q1 q2 books.price_pos tidy.unitPrice) (by decide)
    have bought : Bought (d.ofCase o.caseId) i b o r [l₁, l₂] e := {
      paid := new.paid
      id := by
        intro mem
        obtain ⟨o', mo, id⟩ := List.mem_map.1 mem
        exact Table.find?_eq_none.1 new.order o' (List.mem_filter.1 mo).1 id
      key := by
        intro mem
        obtain ⟨r', mr, key⟩ := List.mem_map.1 mem
        obtain ⟨mem, own⟩ := List.mem_filter.1 mr
        have key' : r'.requestKey = o.requestKey := key.trans (congrArg Prod.fst new.claim.2)
        exact Table.find?_eq_none.1 new.request r' mem (Prod.ext (of_decide_eq_true own) key')
      quantity_pos := positive
      amount := new.amount
      stock := new.stock
      funds := new.funds
      claim := by rw [icase]; exact new.claim.2
      entries := new.entries
      kind := new.booked.kind
      payload := text.2 }
    obtain ⟨inventory, wallets⟩ := new.held.moved_own books (-o.quantity) (-o.amount) o.amount
    obtain ⟨ledger, events⟩ := new.booked.rows
    have request : d.requests.find? r.key = none := by
      rw [RequestRow.key, new.claim.1,
        show r.requestKey = o.requestKey from congrArg Prod.fst new.claim.2]
      exact new.request
    have case_ : Database.ofCase ((purchaseWrites o r l₁ l₂ e).foldl Database.apply d) o.caseId =
        ⟨_, _, _, _, _, _⟩ :=
      (Snapshot.mk.injEq ..).mpr ⟨inventory, rfl, insert_own request new.claim.1,
        insert_own new.order rfl, ledger, events⟩
    rw [case_]
    refine .inr ⟨_, _, _, books.purchase bought wallets, ?_⟩
    exact {
      caseId := tidy.caseId
      initialQty := tidy.initialQty
      unitPrice := tidy.unitPrice
      buyer := tidy.buyer
      merchant := tidy.merchant
      orders := by
        intro x mx
        rcases List.mem_append.1 mx with mx | mx
        · exact tidy.orders x mx
        · rw [List.mem_singleton.1 mx]
          exact ⟨new.id, new.key, q2⟩
      ledger := by
        intro x mx
        rcases List.mem_append.1 mx with mx | mx
        · exact tidy.ledger x mx
        · simp only [List.mem_cons, List.not_mem_nil, or_false] at mx
          rcases mx with rfl | rfl
          · exact new.booked.ids.1
          · exact new.booked.ids.2.1
      events := by
        intro x mx
        rcases List.mem_append.1 mx with mx | mx
        · exact tidy.events x mx
        · rw [List.mem_singleton.1 mx]
          exact ⟨new.booked.ids.2.2, text.1⟩ }
  · have request : r.caseId ≠ c := new.claim.1 ▸ own
    obtain ⟨inventory, wallets⟩ := new.held.moved_other own (-o.quantity) (-o.amount) o.amount
    obtain ⟨ledger, events⟩ := new.booked.others own
    have same : Database.ofCase ((purchaseWrites o r l₁ l₂ e).foldl Database.apply d) c =
        d.ofCase c :=
      (Snapshot.mk.injEq ..).mpr ⟨inventory, wallets, insert_other request, insert_other own,
        ledger, events⟩
    rw [same]
    exact h c

/-! ### Refunds -/

/-- The writes of a refund, in the order of its statements. -/
def refundWrites (o : OrderRow) (l₁ l₂ : LedgerRow) (e : EventRow) : List Write :=
  [.addAvailable o.caseId o.quantity, .addBalance o.caseId (str "buyer") o.amount,
    .addBalance o.caseId (str "merchant") (-o.amount), .setState o.id (str "refunded"),
    .insert (.ledger l₁), .insert (.ledger l₂), .insert (.event e)]

/-- What a refund knows when it commits. -/
structure Reversed (d : Database) (i : InventoryRow) (b m : WalletRow) (o : OrderRow)
    (l₁ l₂ : LedgerRow)
    (e : EventRow) : Prop where
  held : Held d o.caseId i b m
  order : d.orders.find? o.id = some o
  paid : o.state = str "paid"
  booked : Booked d o (str "refunded") l₁ l₂ e
  entries : [l₁, l₂].map LedgerRow.entry = [(o.id, str "buyer", str "refunded", o.amount),
    (o.id, str "merchant", str "refunded", -o.amount)]

/-- A refund that commits keeps the books. -/
theorem Database.Books.refund (h : d.Books) {o : OrderRow} {l₁ l₂ : LedgerRow} {e : EventRow}
    (new : Reversed d i b m o l₁ l₂ e) :
    Database.Books ((refundWrites o l₁ l₂ e).foldl Database.apply d) := by
  obtain ⟨books, tidy⟩ := new.held.kept h
  intro c
  by_cases own : o.caseId = c
  · subst own
    have mem : o ∈ (d.ofCase o.caseId).orders := mem_case new.order rfl
    obtain ⟨id, _, q2⟩ := tidy.orders o mem
    have q1 := books.quantity_pos o mem
    have text := new.booked.payload_text (orderIdOk_scalar id)
      (by show o.quantity.natAbs < 10 ^ 20; omega)
      (by rw [books.amount o mem]; exact amount_bigint q1 q2 books.price_pos tidy.unitPrice)
        (by decide)
    obtain ⟨inventory, wallets⟩ := new.held.moved_own books o.quantity o.amount (-o.amount)
    obtain ⟨ledger, events⟩ := new.booked.rows
    obtain ⟨pre, post, old, changed⟩ := update_own (f := OrderRow.caseId)
      (g := fun o : OrderRow => { o with state := str "refunded" }) (fun _ => rfl) new.order rfl rfl
    have case_ : Database.ofCase ((refundWrites o l₁ l₂ e).foldl Database.apply d) o.caseId =
        ⟨_, _, _, _, _, _⟩ :=
      (Snapshot.mk.injEq ..).mpr ⟨inventory, rfl, rfl, changed, ledger, events⟩
    rw [case_]
    have returned : Returned o [l₁, l₂] e := ⟨new.paid, new.entries, new.booked.kind, text.2⟩
    refine .inr ⟨_, _, _, books.refund old returned wallets, ?_⟩
    exact {
      caseId := tidy.caseId
      initialQty := tidy.initialQty
      unitPrice := tidy.unitPrice
      buyer := tidy.buyer
      merchant := tidy.merchant
      orders := by
        have known : ∀ x ∈ pre ++ o :: post, orderIdOk x.id = true ∧ keyOk x.requestKey = true ∧
            x.quantity ≤ 20 :=
          fun x mx => tidy.orders x (by rw [show (d.ofCase o.caseId).orders = _ from old]; exact mx)
        intro x mx
        rcases List.mem_append.1 mx with mx | mx
        · exact known x (List.mem_append_left _ mx)
        · rcases List.mem_cons.1 mx with rfl | mx
          · exact tidy.orders o mem
          · exact known x (List.mem_append_right _ (List.mem_cons_of_mem _ mx))
      ledger := by
        intro x mx
        rcases List.mem_append.1 mx with mx | mx
        · exact tidy.ledger x mx
        · simp only [List.mem_cons, List.not_mem_nil, or_false] at mx
          rcases mx with rfl | rfl
          · exact new.booked.ids.1
          · exact new.booked.ids.2.1
      events := by
        intro x mx
        rcases List.mem_append.1 mx with mx | mx
        · exact tidy.events x mx
        · rw [List.mem_singleton.1 mx]
          exact ⟨new.booked.ids.2.2, text.1⟩ }
  · obtain ⟨inventory, wallets⟩ := new.held.moved_other own o.quantity o.amount (-o.amount)
    obtain ⟨ledger, events⟩ := new.booked.others own
    have orders :=
      update_other (f := OrderRow.caseId)
        (g := fun o : OrderRow => { o with state := str "refunded" })
      (fun _ => rfl) new.order own own
    have same : Database.ofCase ((refundWrites o l₁ l₂ e).foldl Database.apply d) c = d.ofCase c :=
      (Snapshot.mk.injEq ..).mpr ⟨inventory, wallets, rfl, orders, ledger, events⟩
    rw [same]
    exact h c

/-! ### Seeds -/

/-- The writes of a seed. -/
def seedWrites (c : Str) (stock balance price : Int) : List Write :=
  [.insert (.inventory ⟨c, stock, stock, price⟩),
    .insert (.wallet ⟨c, str "buyer", balance, balance⟩),
    .insert (.wallet ⟨c, str "merchant", 0, 0⟩)]

/-- A seed that commits opens the books of its case. -/
theorem Database.Books.seed (h : d.Books) {stock balance price : Int} (caseId : caseIdOk c = true)
    (stockOk : Repository.fixtureNumber stock) (balanceOk : Repository.fixtureNumber balance)
    (priceOk : Repository.fixtureNumber price) (pos : 1 ≤ price) (free : d.inventory.find? c = none)
    (buyer : d.wallets.find? (c, str "buyer") = none)
    (merchant : d.wallets.find? (c, str "merchant") = none) :
    Database.Books ((seedWrites c stock balance price).foldl Database.apply d) := by
  intro c'
  by_cases own : c = c'
  · subst own
    have empty : d.ofCase c = ⟨[], [], [], [], [], []⟩ := by
      rcases h c with empty | ⟨i, b, m, books, _⟩
      · exact empty
      · have mem : i ∈ (d.ofCase c).inventory := by
          rw [books.inventory]; exact List.mem_singleton_self i
        obtain ⟨mem, own⟩ := List.mem_filter.1 mem
        exact absurd (of_decide_eq_true own) (Table.find?_eq_none.1 free i mem)
    obtain ⟨inventory, wallets, requests, orders, ledger, events⟩ := (Snapshot.mk.injEq ..).mp empty
    have ne : (c, str "buyer") ≠ (c, str "merchant") := fun e => nomatch congrArg Prod.snd e
    have inventory' : ((d.inventory.insert ⟨c, stock, stock, price⟩).rows.filter fun r =>
      r.caseId = c) =
        [⟨c, stock, stock, price⟩] := by
      rw [insert_own (f := InventoryRow.caseId) (r := ⟨c, stock, stock, price⟩) free rfl, inventory]
      rfl
    have wallets' : (((d.wallets.insert ⟨c, str "buyer", balance, balance⟩).insert
        ⟨c, str "merchant", 0, 0⟩).rows.filter fun r => r.caseId = c) =
          [⟨c, str "buyer", balance, balance⟩, ⟨c, str "merchant", 0, 0⟩] := by
      have room :=
        (Table.find?_insert_eq_none (r := ⟨c, str "buyer", balance, balance⟩) buyer).2
          ⟨merchant, ne⟩
      rw [insert_own (f := WalletRow.caseId) (r := ⟨c, str "merchant", 0, 0⟩) room rfl,
        insert_own (f := WalletRow.caseId) (r := ⟨c, str "buyer", balance, balance⟩) buyer rfl,
        wallets]
      rfl
    have case_ : Database.ofCase ((seedWrites c stock balance price).foldl Database.apply d) c =
        ⟨_, _, [], [], [], []⟩ :=
      (Snapshot.mk.injEq ..).mpr ⟨inventory', wallets', requests, orders, ledger, events⟩
    rw [case_]
    exact .inr ⟨_, _, _, .seed stockOk.1 balanceOk.1 pos,
      ⟨caseId, stockOk.2, priceOk.2, balanceOk.2, rfl, nofun, nofun, nofun⟩⟩
  · have same : Database.ofCase ((seedWrites c stock balance price).foldl Database.apply d) c' =
        d.ofCase c' :=
      (Snapshot.mk.injEq ..).mpr ⟨insert_other own, (insert_other own).trans (insert_other own),
        rfl, rfl, rfl, rfl⟩
    rw [same]
    exact h c'

end DbLab.Txlab
