import DbLab.Txlab.Checkout

/-!
# `seed` and `refund` are verified

The other two transactions that commit. A seed opens the books of a case whose rows are all new, and
a refund gives back what its order took, under the lock of the order.
-/

namespace DbLab.Txlab
open DbLab.Py DbLab.Store Repo Repository

variable [Interpreter] {M : Marks mariadb} {E : Raised → Local mariadb → Prop}
  {m : Mode mariadb} {v : World mariadb} {done : List (List Write)} {l : Local mariadb}

/-- What checking a case ends with. -/
lemma checkCase_wp {c : Str} {label : String} {Q : Unit → Local mariadb → Prop}
    (ok : caseIdOk c = true → Q () l)
    (err : ∀ e, E (.python e) l) : lab.wpc M Q E (checkCase c label) l := by
  rw [checkCase]
  cases made : purchase? (.str c) (.str (str label)) (.int 1) with
  | error e => exact err e
  | ok p =>
    obtain ⟨rfl, _, _⟩ := purchase?_inv made
    exact ok p.caseId_ok

/-- What is left of a failed transaction: it is rolled back and its connection closed. -/
lemma giveUp_wp {e : Raised} (h : lab.At m v done l) (opened : m ≠ .closed) :
    lab.wpc M (fun _ : Reply => lab.wpc M (fun _ _ => True) (fun _ _ => True) close)
      (fun _ : Raised => lab.wpc M (fun _ _ => True) (fun _ _ => True) close)
        (do rollback; throw e) l := by
  rw [lab.wpc_bind]
  exact h.rollback opened (fun l at' => at'.close nofun fun _ _ => trivial) fun f l _ at' =>
    at'.close nofun fun _ _ => trivial

/-! ### `seed` -/

/-- What seeding a case ends with. -/
theorem seed_wp {c : Str} {stock balance price : Int} (h : lab.At .closed v done l)
    (earns : ∀ w, M.before (seedWrites c stock balance price) w ∧
      M.after (seedWrites c stock balance price) (w.commit (seedWrites c stock balance price))) :
    lab.wpc M (fun _ _ => True) (fun _ _ => True) (seed c stock balance price) l := by
  rw [seed, lab.wpc_bind]
  refine checkCase_wp (fun caseId => ?_) fun _ => trivial
  rw [lab.wpc_bind]
  refine require_wp (fun numbers => ?_) fun _ => trivial
  rw [lab.wpc_bind]
  refine connect_wp h (fun l at' => ?_) fun _ _ _ => trivial
  rw [lab.wpc_finally, lab.wpc_tryCatch]
  rw [lab.wpc_bind]
  refine session_wp at' (fun l at' => ?_) fun e l _ at' => giveUp_wp at' nofun
  rw [lab.wpc_bind]
  refine insert_wp at' (fun l at' _ _ => ?_) (fun l at' _ => giveUp_wp at' nofun) fun e l _ at' =>
    giveUp_wp at' nofun
  rw [lab.wpc_bind]
  refine insert_wp at' (fun l at' _ _ => ?_) (fun l at' _ => giveUp_wp at' nofun) fun e l _ at' =>
    giveUp_wp at' nofun
  rw [lab.wpc_bind]
  refine insert_wp at' (fun l at' _ _ => ?_) (fun l at' _ => giveUp_wp at' nofun) fun e l _ at' =>
    giveUp_wp at' nofun
  rw [lab.wpc_bind]
  refine at'.commit (fun w sees => ?_) (fun w _ l _ at' => ?_) fun e l _ at' => giveUp_wp at' nofun
  · have reads := sees.read
    simp only [List.nil_append, List.cons_append, List.forall_mem_cons, List.not_mem_nil,
      false_imp_iff, implies_true, and_true, Row.key, Database.read,
      Option.map_eq_none_iff] at reads
    obtain ⟨item, buyer, merchant⟩ := reads
    obtain ⟨stockOk, balanceOk, priceOk, pos⟩ := numbers
    obtain ⟨before, after⟩ := earns w
    exact ⟨Database.Books.seed sees.inv caseId stockOk balanceOk priceOk pos item buyer merchant,
      Database.grows_foldl w.db _, before, after⟩
  · exact at'.close nofun fun _ _ => trivial

/-! ### `refund` -/

/-- An order has a fixture, and its numbers fit. -/
lemma Database.Books.ordered {d : Database} {o : OrderRow} (h : d.Books) (mo : o ∈ d.orders.rows) :
    (∃ i b m, Held d o.caseId i b m) ∧ orderIdOk o.id = true ∧ Bigint o.quantity ∧
      Bigint o.amount := by
  have mem : o ∈ (d.ofCase o.caseId).orders := List.mem_filter.2 ⟨mo, decide_eq_true rfl⟩
  rcases h o.caseId with empty | ⟨i, b, m, books, tidy⟩
  · rw [empty] at mem
    cases mem
  · have mi : i ∈ (d.ofCase o.caseId).inventory := books.inventory ▸ List.mem_singleton_self i
    obtain ⟨mi, own⟩ := List.mem_filter.1 mi
    have found : d.inventory.find? o.caseId = some i :=
      Table.find?_eq_some.2 ⟨mi, of_decide_eq_true own⟩
    obtain ⟨b', m', held, _⟩ := h.fixture found
    obtain ⟨id, _, q2⟩ := tidy.orders o mem
    have q1 := books.quantity_pos o mem
    refine ⟨⟨i, b', m', held⟩, id, ?_, ?_⟩
    · show o.quantity.natAbs < 10 ^ 20
      omega
    · rw [books.amount o mem]
      exact amount_bigint q1 q2 books.price_pos tidy.unitPrice

/-- The marks of a refund's commit. -/
def Refunds (M : Marks mariadb) : Prop :=
  ∀ w i b m o l₁ l₂ e, Reversed w.db i b m o l₁ l₂ e → M.before (refundWrites o l₁ l₂ e) w ∧
    M.after (refundWrites o l₁ l₂ e) (w.commit (refundWrites o l₁ l₂ e))

/-- The statements of a refund between its lock and its commit. -/
lemma giveBack_wp {oid : Str} {o : OrderRow} {Q : Unit → Local mariadb → Prop}
    (h : lab.At (.live [(.order oid, some (.order o))] []) v done l)
    (row : v.db.orders.find? oid = some o)
    (books : v.db.Books) (paid : o.state = str "paid") (lax : lab.Lax (· ≠ .existingKey) E v)
    (ok : ∀ i b m l₁ l₂ e held l, lab.At (.live held (refundWrites o l₁ l₂ e)) v done l →
      (∀ w, lab.Sees held v w → Reversed w.db i b m o l₁ l₂ e) → Q () l) :
    lab.wpc M Q E (giveBack o.caseId oid o) l := by
  obtain ⟨mo, rfl⟩ := Table.find?_eq_some.1 row
  obtain ⟨_, id, quantity, amount⟩ := books.ordered mo
  obtain ⟨payload, text, _⟩ :=
    o.payloadText_ok (str "refunded") (orderIdOk_scalar id) quantity amount (by decide)
  have fixture : ∀ {m l}, lab.At m v done l → ∃ i b m, Held l.view.db o.caseId i b m := by
    intro m l at'
    obtain ⟨o', mo', _, caseId, _⟩ := at'.guar.orders o mo
    exact caseId ▸ (Database.Books.ordered at'.inv mo').1
  rw [giveBack, lab.wpc_bind]
  refine addAvailable_wp h (by simp) (fun i l _ _ at' => ?_) (fun l none at' => ?_) fun e l _ at' =>
    lax.at at' (by simp) (by simp)
  · rw [lab.wpc_bind]
    refine addBalance_wp at' (by simp [Write.key, Row.key]) (fun b l _ _ at' => ?_)
      (fun l none at' => ?_)
      fun e l _ at' => lax.at at' (by simp) (by simp)
    · rw [lab.wpc_bind]
      have apart : str "buyer" ≠ str "merchant" := by decide
      refine addBalance_wp at' (by simp [Write.key, Row.key, apart]) (fun m l _ _ at' => ?_)
        (fun l none at' => ?_)
        fun e l _ at' => lax.at at' (by simp) (by simp)
      · rw [lab.wpc_bind]
        refine setState_wp at' (by simp [Write.key, Row.key]) (fun o' l n _ at' => ?_)
          (fun l none at' => ?_)
          fun e l _ at' => lax.at at' (by simp) (by simp)
        · rw [ledger, lab.wpc_bind, lab.wpc_bind]
          refine ledgerEntry_wp at' lax fun id₁ l hex₁ _ at' => ?_
          refine ledgerEntry_wp at' lax fun id₂ l hex₂ fresh at' => ?_
          refine event_wp at' text lax fun id₃ l hex₃ at' => ?_
          have ne : id₁ ≠ id₂ := by
            intro same
            exact fresh _ (List.mem_append_right _ (List.mem_singleton_self _))
              (congrArg Key.ledger same)
          refine ok i b m _ _ _ _ l at' fun w sees => ?_
          have reads := sees.read
          simp only [List.nil_append, List.cons_append, List.forall_mem_cons, List.not_mem_nil,
            false_imp_iff, implies_true, and_true, Database.read, Option.map_eq_none_iff,
            Option.map_eq_some_iff] at reads
          obtain ⟨⟨_, order, ⟨⟩⟩, ⟨_, item, ⟨⟩⟩, ⟨_, buyer, ⟨⟩⟩, ⟨_, merchant, ⟨⟩⟩, _, first,
            second, event⟩ := reads
          exact {
            held := ⟨item, buyer, merchant⟩
            order := order
            paid := paid
            booked := ⟨first, second, ne, event, ⟨hex₁, hex₂, hex₃⟩, ⟨rfl, rfl, rfl⟩, rfl, text⟩
            entries := by simp [LedgerRow.entry] }
        · obtain ⟨o', mo', id', _⟩ := at'.guar.orders o mo
          exact absurd id' (Table.find?_eq_none.1 none o' mo')
      · obtain ⟨_, _, m, held⟩ := fixture at'
        exact absurd (none m held.merchant) (by simp)
    · obtain ⟨_, b, _, held⟩ := fixture at'
      exact absurd (none b held.buyer) (by simp)
  · obtain ⟨i, _, _, held⟩ := fixture at'
    exact absurd (none i held.item) (by simp)

/-- What refunding an order ends with. -/
theorem refund_wp {c oid : Str} (h : lab.At .closed v done l) (refunds : Refunds M) :
    lab.wpc M (fun _ _ => True) (fun _ _ => True) (refund c oid true) l := by
  rw [refund, lab.wpc_bind]
  refine checkCase_wp (fun _ => ?_) fun _ => trivial
  rw [lab.wpc_bind]
  refine require_wp (fun _ => ?_) fun _ => trivial
  rw [lab.wpc_bind]
  refine connect_wp h (fun l at' => ?_) fun _ _ _ => trivial
  rw [lab.wpc_finally, lab.wpc_tryCatch, refundBody, lab.wpc_bind]
  refine session_wp at' (fun l at' => ?_) fun e l _ at' => giveUp_wp at' nofun
  rw [lab.wpc_bind]
  refine orderOf_wp at' (fun o l row own at' => ?_) (fun l at' => giveUp_wp at' nofun)
    fun e l _ at' => giveUp_wp at' nofun
  subst own
  dsimp only
  split
  · rw [lab.wpc_bind]
    refine at'.rollback nofun (fun l at' => ?_) fun e l _ at' => giveUp_wp at' nofun
    rw [lab.wpc_bind]
    exact trace_wp at' (fun l at' => at'.close nofun fun _ _ => trivial) fun l at' =>
      giveUp_wp at' nofun
  · rw [lab.wpc_bind]
    refine require_wp (fun paid => ?_) fun _ => giveUp_wp at' nofun
    have books := at'.inv
    rw [lab.wpc_bind]
    refine trace_wp at'.rebase (fun l at' => ?_) fun l at' => giveUp_wp at' nofun
    rw [lab.wpc_bind]
    refine giveBack_wp at' row books paid ?_ fun i b m l₁ l₂ e held l at' reversed => ?_
    · intro e l done _ opened at'
      have undo := giveUp_wp (M := M) (e := e) at' opened
      cases e with
      | commitUnknown m => exact at'.close opened fun _ _ => trivial
      | existingKey | injected | rejected | sql | python | runtimeError | unreachable => exact undo
    · rw [lab.wpc_bind, lab.wpc_tryCatch]
      refine at'.commit (fun w sees => ?_) (fun w _ l _ at' => ?_) fun e l _ at' => ?_
      · obtain ⟨before, after⟩ := refunds w i b m o l₁ l₂ e (reversed w sees)
        exact ⟨Database.Books.refund sees.inv (reversed w sees), Database.grows_foldl w.db _,
          before, after⟩
      · rw [lab.wpc_bind]
        exact trace_wp at' (fun l at' => at'.close nofun fun _ _ => trivial) fun l at' =>
          giveUp_wp at' nofun
      · exact at'.close nofun fun _ _ => trivial

end DbLab.Txlab
