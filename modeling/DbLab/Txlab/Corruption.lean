import DbLab.Txlab.Oracle
import DbLab.Py.Equality
import DbLab.Py.Reference

/-!
# Single corruptions of a passing snapshot

One row inserted, deleted or changed in one table of a consistent snapshot leaves no consistent
snapshot. What `audit` does not read is left out: the ids of ledger and event rows and the spelling
of a payload that reads back equal.
-/

namespace DbLab.Txlab
open DbLab.Py

/-- One row inserted, one deleted, or one replaced by a row that differs from it. -/
inductive RowEdit {ρ : Type} (differs : ρ → ρ → Prop) : List ρ → List ρ → Prop where
  | insert (pre post : List ρ) (r : ρ) : RowEdit differs (pre ++ post) (pre ++ r :: post)
  | delete (pre post : List ρ) (r : ρ) : RowEdit differs (pre ++ r :: post) (pre ++ post)
  | change (pre post : List ρ) (r r' : ρ) (h : differs r r') :
    RowEdit differs (pre ++ r :: post) (pre ++ r' :: post)

section RowEdit
variable {ρ β : Type} {differs : ρ → ρ → Prop} {l l' : List ρ}

/-- An edit changes the number of rows, or one row. -/
lemma RowEdit.of_length (h : RowEdit differs l l') (len : l.length = l'.length) :
    ∃ pre post r r', differs r r' ∧ l = pre ++ r :: post ∧ l' = pre ++ r' :: post := by
  cases h with
  | insert pre post r => simp at len
  | delete pre post r => simp at len
  | change pre post r r' h => exact ⟨pre, post, r, r', h, rfl, rfl⟩

/-- Two different elements in one place are no rearrangement. -/
lemma eq_of_perm_middle {pre post : List β} {x y : β}
    (h : (pre ++ x :: post).Perm (pre ++ y :: post)) :
    x = y := by
  rw [List.perm_append_left_iff] at h
  have middle : ([x] ++ post).Perm ([y] ++ post) := h
  rw [List.perm_append_right_iff] at middle
  exact List.singleton_perm_singleton.1 middle

/-- An edit that keeps what `f` reads, up to order, replaces a row by one that `f` reads alike. -/
lemma RowEdit.of_perm (h : RowEdit differs l l') {f : ρ → β} (perm : (l.map f).Perm (l'.map f)) :
    ∃ r ∈ l, ∃ r' ∈ l', differs r r' ∧ f r = f r' := by
  have len : l.length = l'.length := by simpa using perm.length_eq
  obtain ⟨pre, post, r, r', diff, rfl, rfl⟩ := h.of_length len
  rw [List.map_append, List.map_cons, List.map_append, List.map_cons] at perm
  exact ⟨r, by simp, r', by simp, diff, eq_of_perm_middle perm⟩

end RowEdit

/-! ### What is changed in a row -/

def InventoryRow.availableDiffers (r r' : InventoryRow) : Prop :=
  r'.available ≠ r.available ∧ r' = { r with available := r'.available }

def WalletRow.balanceDiffers (r r' : WalletRow) : Prop :=
  r'.balance ≠ r.balance ∧ r' = { r with balance := r'.balance }

/-- Some column other than the row id differs. -/
def LedgerRow.differs (r r' : LedgerRow) : Prop := r.caseId ≠ r'.caseId ∨ r.entry ≠ r'.entry

/-- The amount and the state of an order follow from its ledger entries. -/
lemma entries_inj {o o' : OrderRow} (h : o.paid ∨ o.refunded) (h' : o'.paid ∨ o'.refunded)
    (perm : o.entries.Perm o'.entries) : o.amount = o'.amount ∧ o.state = o'.state := by
  have refunded : o.refunded = o'.refunded := by
    have len := perm.length_eq
    rw [OrderRow.entries, OrderRow.entries] at len
    cases hr : o.refunded <;> cases hr' : o'.refunded <;> simp [hr, hr'] at len <;> rfl
  constructor
  · have debit : (o.id, str "buyer", str "paid", -o.amount) ∈ o'.entries :=
      perm.mem_iff.1 (by simp [OrderRow.entries])
    rw [OrderRow.entries] at debit
    cases hr : o'.refunded <;> simp [hr] at debit <;> omega
  · rcases paid_or_refunded h with ⟨p, r⟩ | ⟨p, r⟩
    · rcases paid_or_refunded h' with ⟨p', r'⟩ | ⟨p', r'⟩
      · exact (of_decide_eq_true p).trans (of_decide_eq_true p').symm
      · rw [r, r'] at refunded
        cases refunded
    · rcases paid_or_refunded h' with ⟨p', r'⟩ | ⟨p', r'⟩
      · rw [r, r'] at refunded
        cases refunded
      · exact (of_decide_eq_true r).trans (of_decide_eq_true r').symm

section Oracle
variable [Interpreter]

/-- Two payload texts that `json.loads` reads as equal values. -/
def samePayload (p p' : Str) : Prop :=
  ∃ v v', loadsPayload (.str p) = .ok v ∧ loadsPayload (.str p') = .ok v' ∧ v.eq v' = true

/-- Some column other than the row id differs; a payload differs when it reads back as another
value. -/
def EventRow.differs (r r' : EventRow) : Prop :=
  r.caseId ≠ r'.caseId ∨ r.kindOf ≠ r'.kindOf ∨ ¬ samePayload r.payload r'.payload

/-- A single corruption of a snapshot: one row of one table. -/
inductive Edit : Snapshot → Snapshot → Prop where
  | inventory {s l} (h : RowEdit InventoryRow.availableDiffers s.inventory l) :
      Edit s { s with inventory := l }
  | wallets {s l} (h : RowEdit WalletRow.balanceDiffers s.wallets l) :
      Edit s { s with wallets := l }
  | requests {s l} (h : RowEdit (· ≠ ·) s.requests l) : Edit s { s with requests := l }
  | orders {s l} (h : RowEdit (· ≠ ·) s.orders l) : Edit s { s with orders := l }
  | ledger {s l} (h : RowEdit LedgerRow.differs s.ledger l) : Edit s { s with ledger := l }
  | events {s l} (h : RowEdit EventRow.differs s.events l) : Edit s { s with events := l }

/-! ### Corruptions are noticed -/

variable {s s' : Snapshot} {i i' : InventoryRow} {b b' m m' : WalletRow}

/-- The balance of a wallet follows from its owner. -/
lemma Consistent.balance (h : Consistent s i b m) {w : WalletRow} (mem : w ∈ s.wallets) :
    w.balance = w.initialBalance +
      if w.owner = str "buyer" then - soldAmount s.orders else soldAmount s.orders := by
  have cases : w = b ∨ w = m := by simpa using h.wallets.mem_iff.1 mem
  rcases cases with rfl | rfl
  · rw [if_pos h.buyer, h.buyer_balance]
    omega
  · rw [if_neg (by simp [h.merchant]), h.merchant_balance]

/-- The payload of an order has texts and integers. -/
lemma OrderRow.payload_pivot (o : OrderRow) (kind : Str) :
    ∀ e ∈ (match o.payload kind with | .dict ms => ms | _ => []), e.2.pivot := by
  intro e mem
  simp only [OrderRow.payload, Value.ofFields, List.map_cons, List.map_nil, List.mem_cons,
    List.not_mem_nil, or_false] at mem
  rcases mem with rfl | rfl | rfl | rfl
  · exact pivot_str _
  · exact pivot_int _
  · exact pivot_int _
  · exact pivot_str _

/-- A payload has distinct keys. -/
lemma loadsPayload_keys {p : Str} {ms : List (Str × Value)}
    (h : loadsPayload (.str p) = .ok (.dict ms)) :
    (ms.map Prod.fst).Nodup := by
  simp only [loadsPayload] at h
  cases read : loads Hooks.default p with
  | ok v =>
    rw [read] at h
    cases h
    exact loads_keys read
  | error e =>
    rw [read] at h
    simp only at h
    split at h <;> cases h

/-- Two payloads that match one order read back as equal values. -/
lemma samePayload_of_matches {e e' : EventRow} {o : OrderRow} (kind : e.kind = e'.kind)
    (h : e.matchesOrder o) (h' : e'.matchesOrder o) : samePayload e.payload e'.payload := by
  obtain ⟨v, read, eqv⟩ := h
  obtain ⟨v', read', eqv'⟩ := h'
  rw [kind] at eqv
  refine ⟨v, v', read, read', eq_dict_of_pivot (o.payload_pivot e'.kind) ?_ eqv eqv'⟩
  rintro ns rfl
  exact loadsPayload_keys read'

/-- No single corruption of a consistent snapshot of one case is consistent. -/
theorem Consistent.not_edit (c : Consistent s i b m) (one : s.OneCase i.caseId)
    (c' : Consistent s' i' b' m')
    (one' : s'.OneCase i'.caseId) : ¬ Edit s s' := by
  intro edit
  cases edit with
  | @inventory l h =>
    have inv' : l = [i'] := c'.inventory
    obtain ⟨pre, post, r, r', ⟨ne, same⟩, e, e'⟩ := h.of_length (by rw [c.inventory, inv']; rfl)
    have mem : r ∈ [i] := by rw [← c.inventory, e]; simp
    have mem' : r' ∈ [i'] := by rw [← inv', e']; simp
    obtain rfl := List.mem_singleton.1 mem
    obtain rfl := List.mem_singleton.1 mem'
    have initial : r'.initialQty = r.initialQty := by rw [same]
    have stock' : r'.available = r'.initialQty - soldQty s.orders := c'.stock
    rw [initial, ← c.stock] at stock'
    exact ne stock'
  | @wallets l h =>
    have len : s.wallets.length = l.length := c.wallets.length_eq.trans (c'.wallets.length_eq).symm
    obtain ⟨pre, post, w, w', ⟨ne, same⟩, e, e'⟩ := h.of_length len
    have w_balance := c.balance (w := w) (by rw [e]; simp)
    have w'_balance := c'.balance (w := w') (by simp [e'])
    rw [same] at w'_balance
    exact ne (w'_balance.trans w_balance.symm)
  | @requests l h =>
    have inv : i = i' := (List.cons.inj (c.inventory.symm.trans c'.inventory)).1
    subst inv
    obtain ⟨r, mr, r', mr', ne, same⟩ := h.of_perm (c.claims.trans c'.claims.symm)
    have case : r.caseId = r'.caseId := (one.requests r mr).trans (one'.requests r' mr').symm
    simp only [Prod.mk.injEq, Option.some_inj] at same
    apply ne
    cases r
    cases r'
    simp_all
  | @orders l h =>
    have inv : i = i' := (List.cons.inj (c.inventory.symm.trans c'.inventory)).1
    subst inv
    obtain ⟨o, mo, o', mo', ne, same⟩ := h.of_perm (c.claims.symm.trans c'.claims)
    simp only [Prod.mk.injEq] at same
    have case : o.caseId = o'.caseId := (one.orders o mo).trans (one'.orders o' mo').symm
    -- both orders own the ledger rows of their common id
    have own := c.accounts.orders o mo
    have own' := c'.accounts.orders o' mo'
    have perm : o.entries.Perm o'.entries := by
      have mine' := own'.ledger
      rw [← same.2.2] at mine'
      exact own.ledger.symm.trans mine'
    obtain ⟨amount, state⟩ := entries_inj own.state own'.state perm
    have quantity : o.quantity = o'.quantity := by
      have eq : o.quantity * i.unitPrice = o'.quantity * i.unitPrice := by
        rw [← own.amount, ← own'.amount, amount]
      exact Int.eq_of_mul_eq_mul_right (Int.ne_of_gt c.price_pos) eq
    apply ne
    cases o
    cases o'
    simp_all
  | @ledger l h =>
    obtain ⟨r, mr, r', mr', diff, same⟩ := h.of_perm (c.ledger.trans c'.ledger.symm)
    have inv : i = i' := (List.cons.inj (c.inventory.symm.trans c'.inventory)).1
    subst inv
    rcases diff with case | entry
    · exact case ((one.ledger r mr).trans (one'.ledger r' mr').symm)
    · exact entry same
  | @events l h =>
    obtain ⟨r, mr, r', mr', diff, same⟩ := h.of_perm (c.events.trans c'.events.symm)
    have inv : i = i' := (List.cons.inj (c.inventory.symm.trans c'.inventory)).1
    subst inv
    rcases diff with case | kind | payload
    · exact case ((one.events r mr).trans (one'.events r' mr').symm)
    · exact kind same
    · obtain ⟨o, mo, mem⟩ := List.mem_flatMap.1 (c.events.mem_iff.1 (List.mem_map_of_mem mr))
      have id : r.orderId = o.id := kinds_id o _ mem
      simp only [EventRow.kindOf, Prod.mk.injEq] at same
      exact payload (samePayload_of_matches same.2 (c.payloads r mr o mo id)
        (c'.payloads r' mr' o mo (same.1.symm.trans id)))

/-- `audit` passes exactly the consistent snapshots, and reports every single corruption of one. -/
theorem audit_oracle {v : Value} (h : audit s.toValue true = .ok v) :
    (reportsPassed v ↔ ∃ i b m, Consistent s i b m) ∧
    (reportsPassed v → ∀ s', Edit s s' → ∀ v', audit s'.toValue true = .ok v' →
      v'.item "passed" = .ok (.bool false)) := by
  obtain ⟨a, run, passed⟩ := audit_inv h
  have verdict : reportsPassed v ↔ a.passed = true := by
    rw [reportsPassed, passed]
    simp
  refine ⟨verdict.trans (audited_passed_iff run), ?_⟩
  intro pass s' edit v' h'
  obtain ⟨a', run', passed'⟩ := audit_inv h'
  rw [passed']
  cases hp : a'.passed with
  | false => rfl
  | true =>
    obtain ⟨i, b, m, c⟩ := (audited_passed_iff run).1 (verdict.1 pass)
    obtain ⟨i', b', m', c'⟩ := (audited_passed_iff run').1 hp
    obtain ⟨_, _, _, _, _, _, one, f, _⟩ := audited_inv run
    obtain ⟨_, _, _, _, _, _, one', f', _⟩ := audited_inv run'
    obtain rfl := (List.cons.inj (c.inventory.symm.trans f.inventory)).1
    obtain rfl := (List.cons.inj (c'.inventory.symm.trans f'.inventory)).1
    exact absurd edit (c.not_edit one c' one')

end Oracle

/-! ### A lesson with one order -/

section Lesson
attribute [local instance] reference

def lessonPurchase : Purchase where
  caseId := str "lesson"
  key := str "key-1"
  quantity := 2
  caseId_ok := by decide
  key_ok := by decide
  quantity_pos := by decide
  quantity_le := by decide

def lessonPrint : Str := lessonPurchase.fingerprint.toOption.getD []

def lessonOrder : OrderRow where
  id := str "00000000000000000000000000000001"
  caseId := str "lesson"
  requestKey := str "key-1"
  quantity := 2
  amount := 10
  state := str "paid"

def lessonPayload : Str := (lessonOrder.payloadText (str "paid")).toOption.getD []

/-- One order of two items at five, seen under reference. `entry` is the id of its first ledger
row. -/
def lesson (entry : Str) : Snapshot where
  inventory := [⟨str "lesson", 3, 1, 5⟩]
  wallets := [⟨str "lesson", str "buyer", 100, 90⟩, ⟨str "lesson", str "merchant", 0, 10⟩]
  requests := [⟨str "lesson", str "key-1", lessonPrint, lessonOrder.id⟩]
  orders := [lessonOrder]
  ledger := [⟨entry, str "lesson", lessonOrder.id, str "buyer", str "paid", -10⟩,
    ⟨str "e2", str "lesson", lessonOrder.id, str "merchant", str "paid", 10⟩]
  events := [⟨str "v1", str "lesson", lessonOrder.id, str "paid", lessonPayload⟩]

/-- The fingerprint of the example. -/
lemma lessonPrint_eq : lessonPurchase.fingerprint = .ok lessonPrint := by
  obtain ⟨fp, run⟩ := lessonPurchase.fingerprint_ok
  rw [lessonPrint, run]
  rfl

/-- The event of the example matches its order. -/
lemma lesson_payload (entry : Str) :
    ∀ e ∈ (lesson entry).events, e.matchesOrder lessonOrder := by
  intro e m
  rw [List.mem_singleton.1 m]
  obtain ⟨t, text, _, v, read, same⟩ := lessonOrder.payloadText_ok (str "paid")
    (by decide) (by decide) (by decide) (by decide)
  refine ⟨v, ?_, same⟩
  rw [lessonPayload, text]
  exact read

/-- The rows of the example are consistent. -/
lemma lesson_consistent (entry : Str) : Consistent (lesson entry) ⟨str "lesson", 3, 1, 5⟩
    ⟨str "lesson", str "buyer", 100, 90⟩ ⟨str "lesson", str "merchant", 0, 10⟩ where
  inventory := rfl
  wallets := .refl _
  buyer := rfl
  merchant := rfl
  price_pos := by decide
  buyer_initial := by decide
  merchant_initial := by decide
  ids := by simp [lesson]
  keys := by simp [lesson]
  quantity_pos := by simp [lesson, lessonOrder]
  amount := by simp [lesson, lessonOrder]
  state := by simp [lesson, lessonOrder, OrderRow.paid]
  stock := by simp [lesson, lessonOrder, soldQty, OrderRow.paid]
  stock_nonneg := by decide
  stock_le := by decide
  buyer_balance := by simp [lesson, lessonOrder, soldAmount, OrderRow.paid]
  buyer_nonneg := by decide
  merchant_balance := by simp [lesson, lessonOrder, soldAmount, OrderRow.paid]
  merchant_nonneg := by decide
  ledger := .refl _
  events := .refl _
  payloads := by
    intro e me o mo _
    rw [List.mem_singleton.1 mo]
    exact lesson_payload entry e me
  claims := by
    obtain ⟨fp, print, run⟩ :=
      fingerprint?_ok (o := lessonOrder) (p := lessonPurchase) (c := str "lesson") rfl
    rw [lessonPrint_eq, Except.ok.injEq] at run
    rw [← run] at print
    simp [lesson, lessonOrder] at print ⊢
    exact print.symm

/-- The fingerprint of the example is a text. -/
lemma lessonPrint_text : Text lessonPrint := digest_text lessonPrint_eq

/-- The rows of the example are plain. -/
lemma lesson_plain {entry : Str} (text : Text entry) : (lesson entry).Plain where
  inventory := by simp only [lesson, List.mem_singleton, forall_eq]; decide
  wallets := by
    simp only [lesson, List.mem_cons, List.not_mem_nil, or_false, forall_eq_or_imp,
      forall_eq]; decide
  requests := by
    simp only [lesson, List.mem_singleton, forall_eq]
    exact ⟨by decide, by decide, lessonPrint_text, by decide⟩
  orders := by simp only [lesson, List.mem_singleton, forall_eq]; decide
  ledger := by
    simp only [lesson, List.mem_cons, List.not_mem_nil, or_false, forall_eq_or_imp, forall_eq]
    exact ⟨⟨text, by decide⟩, by decide⟩
  events := by
    obtain ⟨t, eq, chars, _⟩ := lessonOrder.payloadText_ok (str "paid")
      (by decide) (by decide) (by decide) (by decide)
    have payload : Text lessonPayload := by
      rw [lessonPayload, eq]
      exact chars
    simp only [lesson, List.mem_singleton, forall_eq]
    exact ⟨by decide, by decide, by decide, by decide, payload⟩

/-- `audit` passes the lesson whatever the id of its first ledger row is. -/
lemma lesson_passes (entry : Str) (text : Text entry) :
    ∃ v, audit (lesson entry).toValue true = .ok v ∧ reportsPassed v := by
  apply (lesson_consistent entry).audit_passes
  · constructor <;> simp [lesson, maxRows]
  · constructor <;> simp [lesson, lessonOrder]
  · exact lesson_plain text

/-- A changed value in the ledger that `audit` does not report: the id of a row. -/
theorem ledger_id_unreported : ∃ v v',
    audit (lesson (str "e1")).toValue true = .ok v ∧
    audit (lesson (str "e9")).toValue true = .ok v' ∧
    reportsPassed v ∧ reportsPassed v' ∧
    lesson (str "e9") = { lesson (str "e1") with ledger := (lesson (str "e9")).ledger } ∧
    RowEdit (· ≠ ·) (lesson (str "e1")).ledger (lesson (str "e9")).ledger := by
  obtain ⟨v, run, pass⟩ := lesson_passes (str "e1") (by decide)
  obtain ⟨v', run', pass'⟩ := lesson_passes (str "e9") (by decide)
  exact ⟨v, v', run, run', pass, pass', rfl, .change [] _ _ _ (by decide)⟩

/-- `audit_oracle` at the lesson: it passes, and no single corruption of it does. -/
theorem audit_oracle_lesson : ∃ v, audit (lesson (str "e1")).toValue true = .ok v ∧
    ∀ s', Edit (lesson (str "e1")) s' → ∀ v', audit s'.toValue true = .ok v' →
      v'.item "passed" = .ok (.bool false) := by
  obtain ⟨v, run, pass⟩ := lesson_passes (str "e1") (by decide)
  exact ⟨v, run, (audit_oracle run).2 pass⟩

end Lesson

end DbLab.Txlab
