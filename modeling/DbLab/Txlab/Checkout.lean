import DbLab.Txlab.Commits

/-!
# `purchase` is verified

`Repository.purchase` under the protected policy, from any world whose books are kept: its commit is
a purchase on the books of its case, and what it returns or raises says whether its key was claimed.
-/

namespace DbLab.Txlab
open DbLab.Py DbLab.Store Repo Repository

variable [Interpreter] {M : Marks mariadb} {E : Raised → Local mariadb → Prop} {A : Raised → Prop}
  {m : Mode mariadb} {v : World mariadb} {done : List (List Write)} {l : Local mariadb}
  {held : List (Key × Option Row)} {ws : List Write}

/-- The budget of the trace is used up. -/
abbrev traceFull : Raised := .runtimeError "Transaction trace budget exceeded"

/-- The exceptions that say nothing about the data: the database failed, or the trace is full. -/
def Interrupted (e : Raised) : Prop := (∃ f, e = .sql f) ∨ e = traceFull

/-- The database has the claim of a request and the order that the claim names. -/
structure Recorded (d : Database) (req : Purchase) (o : OrderRow) : Prop where
  claim : ∃ r ∈ d.requests.rows, r.key = (req.caseId, req.key) ∧ r.orderId = o.id ∧
    req.fingerprint = .ok r.fingerprint
  order : ∃ o' ∈ d.orders.rows, o'.id = o.id ∧ o'.caseId = req.caseId ∧ o'.requestKey = req.key ∧
    o'.quantity = req.quantity
  own : o.caseId = req.caseId ∧ o.requestKey = req.key ∧ o.quantity = req.quantity

/-- What is recorded stays recorded. -/
lemma Recorded.grows {d d' : Database} {req : Purchase} {o : OrderRow} (h : Recorded d req o)
    (g : d.Grows d') :
    Recorded d' req o := by
  obtain ⟨r, mr, claim⟩ := h.claim
  obtain ⟨o', mo, id, caseId, key, quantity⟩ := h.order
  obtain ⟨o'', mo', id', caseId', key', quantity', _⟩ := g.orders o' mo
  exact ⟨⟨r, g.requests r mr, claim⟩,
    ⟨o'', mo', id'.trans id, caseId'.trans caseId, key'.trans key, quantity'.trans quantity⟩, h.own⟩

/-- What connecting ends with. -/
lemma connect_wp {Q : Unit → Local mariadb → Prop} (h : lab.At .closed v done l)
    (ok : ∀ l, lab.At (.live [] []) v done l → Q () l)
    (err : ∀ e l, lab.At .closed v done l → E (.sql e) l) :
    lab.wpc M Q E connect l := by
  rw [connect, lab.wpc_bind]
  refine h.connect (fun l at' => ?_) fun e l _ at' => err e l at'
  have close : ∀ e l, e ≠ Failure.duplicate → lab.At .failed v done l →
      lab.wpc M Q E (close >>= fun _ => throw (.sql e)) l := by
    intro e l _ at'
    rw [lab.wpc_bind]
    exact at'.close nofun fun l at' => err e l at'
  rw [lab.wpc_tryCatch, lab.wpc_bind]
  exact session_wp at' (fun l at' => session_wp at' ok close) close

/-- What passing a checkpoint ends with. -/
lemma checkpoint_wp {Q : Unit → Local mariadb → Prop} {failAt : Option Failpoint}
    {stage : Failpoint}
    (h : lab.At m v done l) (opened : m ≠ .closed) (lax : lab.Lax (· ≠ .existingKey) E v)
    (ok : ∀ l, lab.At m v done l → Q () l) : lab.wpc M Q E (checkpoint .safe failAt stage) l := by
  rw [checkpoint, if_neg nofun]
  beta_reduce
  rw [lab.wpc_bind]
  refine trace_wp h (fun l at' => ?_) fun l at' => lax.at at' opened nofun
  exact require_wp (fun _ => ok l at') fun _ => lax.at at' opened nofun

/-- The stock is taken when there is enough. -/
lemma takeStock_wp {req : Purchase} {item : InventoryRow} {Q : Unit → Local mariadb → Prop}
    (h : lab.At (.live held ws) v done l) (quiet : ∀ w ∈ ws, w.key ≠ .inventory req.caseId)
    (lax : lab.Lax (· ≠ .existingKey) E v)
    (ok : ∀ i l, l.view.db.inventory.find? req.caseId = some i → req.quantity ≤ i.available →
      lab.At (.live (held ++ [(.inventory req.caseId, some (.inventory i))])
        (ws ++ [.addAvailable req.caseId (-req.quantity)])) v done l → Q () l) :
    lab.wpc M Q E (takeStock req .safe item) l := by
  rw [takeStock, if_neg nofun, lab.wpc_bind]
  refine addAvailable_wp h quiet (fun i l found enough at' => ?_) (fun l _ at' => ?_)
    fun e l _ at' => lax.at at' nofun nofun
  · exact require_wp (fun _ => ok i l found (by simpa using enough) at') fun _ =>
      lax.at at' nofun nofun
  · exact require_wp nofun fun _ => lax.at at' nofun nofun

/-- An entry with a new id. -/
lemma ledgerEntry_wp {o : OrderRow} {phase owner : Str} {delta : Int}
    {Q : Unit → Local mariadb → Prop}
    (h : lab.At (.live held ws) v done l) (lax : lab.Lax (· ≠ .existingKey) E v)
    (ok : ∀ id l, orderIdOk id = true → (∀ r, Write.insert r ∈ ws → r.key ≠ .ledger id) →
      lab.At (.live (held ++ [(.ledger id, none)])
        (ws ++ [.insert (.ledger ⟨id, o.caseId, o.id, owner, phase, delta⟩)])) v done l → Q () l) :
    lab.wpc M Q E (ledgerEntry o phase owner delta) l := by
  rw [ledgerEntry, lab.wpc_bind]
  refine uuid4_wp h fun id l hex at' => ?_
  exact insert_wp at' (fun l at' _ fresh => ok id l hex fresh at')
    (fun l at' _ => lax.at at' nofun nofun)
    fun e l _ at' => lax.at at' nofun nofun

/-- What writing an event ends with. -/
lemma event_wp {o : OrderRow} {phase payload : Str} {Q : Unit → Local mariadb → Prop}
    (h : lab.At (.live held ws) v done l) (text : o.payloadText phase = .ok payload)
    (lax : lab.Lax (· ≠ .existingKey) E v)
    (ok : ∀ id l, orderIdOk id = true →
      lab.At (.live (held ++ [(.event id, none)])
        (ws ++ [.insert (.event ⟨id, o.caseId, o.id, phase, payload⟩)])) v done l → Q () l) :
    lab.wpc M Q E (Repository.event o phase) l := by
  rw [Repository.event, lab.wpc_bind]
  refine lift_wp text ?_
  rw [lab.wpc_bind]
  refine uuid4_wp h fun id l hex at' => ?_
  exact insert_wp at' (fun l at' _ _ => ok id l hex at') (fun l at' _ => lax.at at' nofun nofun)
    fun e l _ at' => lax.at at' nofun nofun

/-- What the locks of a purchase and the fixture it read say of the world it commits on. -/
lemma charged_of_sees {req : Purchase} {oid fp payload id₁ id₂ id₃ : Str} {item i : InventoryRow}
    {b m : WalletRow} {w : World mariadb}
    (sees : lab.Sees [(.request req.caseId req.key, none),
      (.inventory req.caseId, some (.inventory i)),
      (.wallet req.caseId (str "buyer"), some (.wallet b)),
      (.wallet req.caseId (str "merchant"), some (.wallet m)), (.order oid, none),
      (.ledger id₁, none), (.ledger id₂, none), (.event id₃, none)] v w)
    (listed : v.db.inventory.find? req.caseId = some item) (print : req.fingerprint = .ok fp)
    (text : (newOrder req oid item).payloadText (str "paid") = .ok payload)
    (hex : orderIdOk oid = true ∧ orderIdOk id₁ = true ∧ orderIdOk id₂ = true ∧
      orderIdOk id₃ = true)
    (ne : id₁ ≠ id₂) (stock : req.quantity ≤ i.available)
    (funds : req.quantity * item.unitPrice ≤ b.balance) :
    Charged w.db i b m (newOrder req oid item) ⟨req.caseId, req.key, fp, oid⟩
      ⟨id₁, req.caseId, oid, str "buyer", str "paid", -1 * (newOrder req oid item).amount⟩
      ⟨id₂, req.caseId, oid, str "merchant", str "paid", - -1 * (newOrder req oid item).amount⟩
      ⟨id₃, req.caseId, oid, str "paid", payload⟩ := by
  have reads := sees.read
  simp only [List.forall_mem_cons, List.not_mem_nil, false_imp_iff, implies_true, and_true,
    Database.read, Option.map_eq_none_iff, Option.map_eq_some_iff] at reads
  obtain ⟨request, ⟨_, stocked, ⟨⟩⟩, ⟨_, buyer, ⟨⟩⟩, ⟨_, merchant, ⟨⟩⟩, order, first, second,
    event⟩ := reads
  have price : item.unitPrice = i.unitPrice := by
    obtain ⟨mem, own⟩ := Table.find?_eq_some.1 listed
    obtain ⟨i', mem', same, _, price⟩ := sees.guar.inventory item mem
    have found : w.db.inventory.find? req.caseId = some i' :=
      Table.find?_eq_some.2 ⟨mem', same.trans own⟩
    rw [← price, Option.some.inj (stocked.symm.trans found)]
  have printed : (newOrder req oid item).fingerprint? req.caseId = some fp :=
    fingerprint?_eq_some.2 ⟨req, req.checked, print⟩
  exact {
    held := ⟨stocked, buyer, merchant⟩
    request := request
    order := order
    booked := ⟨first, second, ne, event, hex.2, ⟨rfl, rfl, rfl⟩, rfl, text⟩
    paid := rfl
    id := hex.1
    key := req.key_ok
    quantity := ⟨req.quantity_pos, req.quantity_le⟩
    amount := congrArg (req.quantity * ·) price
    stock := stock
    funds := funds
    claim := ⟨rfl, by rw [show (newOrder req oid item).caseId = req.caseId from rfl, printed]; rfl⟩
    entries := by
      have unrefunded : (newOrder req oid item).refunded = false :=
        decide_eq_false (show str "paid" ≠ str "refunded" by decide)
      rw [OrderRow.entries, unrefunded]
      simp [LedgerRow.entry, newOrder] }

/-- The statements of a purchase between its claim and its commit. -/
lemma accounts_wp {req : Purchase} {oid fp : Str} {item : InventoryRow} {failAt : Option Failpoint}
    {Q : Unit → Local mariadb → Prop}
    (h : lab.At (.live [(.request req.caseId req.key, none)]
      [.insert (.request ⟨req.caseId, req.key, fp, oid⟩)]) v done l)
    (listed : v.db.inventory.find? req.caseId = some item)
    (price : 0 < item.unitPrice ∧ item.unitPrice ≤ 1000000) (print : req.fingerprint = .ok fp)
    (hex : orderIdOk oid = true) (lax : lab.Lax (· ≠ .existingKey) E v)
    (ok : ∀ i b m l₁ l₂ e held l, lab.At (.live held
        (purchaseWrites (newOrder req oid item) ⟨req.caseId, req.key, fp, oid⟩ l₁ l₂ e)) v done l →
      (∀ w, lab.Sees held v w →
        Charged w.db i b m (newOrder req oid item) ⟨req.caseId, req.key, fp, oid⟩ l₁ l₂ e) →
          Q () l) :
    lab.wpc M Q E (accounts req .safe failAt oid item) l := by
  have q1 := req.quantity_pos
  have q2 := req.quantity_le
  obtain ⟨payload, text, _⟩ :=
    (newOrder req oid item).payloadText_ok (str "paid") (orderIdOk_scalar hex)
    (by show req.quantity.natAbs < 10 ^ 20; omega) (amount_bigint q1 q2 price.1 price.2) (by decide)
  rw [accounts, lab.wpc_bind]
  refine takeStock_wp h (by simp [Write.key, Row.key]) lax fun i l _ stock at' => ?_
  rw [lab.wpc_bind]
  refine checkpoint_wp at' (by simp) lax fun l at' => ?_
  rw [lab.wpc_bind]
  refine addBalance_wp at' (by simp [Write.key, Row.key]) (fun b l _ funds at' => ?_)
    (fun l _ at' => ?_)
    fun e l _ at' => lax.at at' (by simp) (by simp)
  · rw [lab.wpc_bind]
    refine require_wp (fun _ => ?_) fun _ => lax.at at' (by simp) (by simp)
    rw [lab.wpc_bind]
    refine checkpoint_wp at' (by simp) lax fun l at' => ?_
    rw [lab.wpc_bind]
    have apart : str "buyer" ≠ str "merchant" := by decide
    refine addBalance_wp at' (by simp [Write.key, Row.key, apart]) (fun m l _ _ at' => ?_)
      (fun l _ at' => ?_)
      fun e l _ at' => lax.at at' (by simp) (by simp)
    · rw [lab.wpc_bind]
      refine require_wp (fun _ => ?_) fun _ => lax.at at' (by simp) (by simp)
      rw [lab.wpc_bind]
      refine checkpoint_wp at' (by simp) lax fun l at' => ?_
      rw [lab.wpc_bind]
      refine insert_wp at' (fun l at' _ _ => ?_) (fun l at' _ => lax.at at' (by simp) (by simp))
        fun e l _ at' => lax.at at' (by simp) (by simp)
      rw [lab.wpc_bind]
      refine checkpoint_wp at' (by simp) lax fun l at' => ?_
      rw [ledger, lab.wpc_bind, lab.wpc_bind]
      refine ledgerEntry_wp at' lax fun id₁ l hex₁ _ at' => ?_
      refine ledgerEntry_wp at' lax fun id₂ l hex₂ fresh at' => ?_
      rw [lab.wpc_bind]
      refine checkpoint_wp at' (by simp) lax fun l at' => ?_
      rw [lab.wpc_bind]
      refine event_wp at' text lax fun id₃ l hex₃ at' => ?_
      refine checkpoint_wp at' (by simp) lax fun l at' => ?_
      have ne : id₁ ≠ id₂ := by
        intro same
        exact fresh _ (List.mem_append_right _ (List.mem_singleton_self _))
          (congrArg Key.ledger same)
      refine ok i b m _ _ _ _ l at' fun w sees => ?_
      exact charged_of_sees sees listed print text ⟨hex, hex₁, hex₂, hex₃⟩ ne stock
        (of_decide_eq_true funds)
    · rw [lab.wpc_bind]
      exact require_wp (fun e => absurd e (by simp)) fun _ => lax.at at' (by simp) (by simp)
  · rw [lab.wpc_bind]
    exact require_wp (fun e => absurd e (by simp)) fun _ => lax.at at' (by simp) (by simp)

/-- The claim of a key that is free, or that the world now has. -/
lemma claim_wp {req : Purchase} {oid fp : Str} {Q : Unit → Local mariadb → Prop}
    (h : lab.At (.live [] []) v done l) (print : req.fingerprint = .ok fp)
    (ok : ∀ l, lab.At (.live [(.request req.caseId req.key, none)]
        [.insert (.request ⟨req.caseId, req.key, fp, oid⟩)]) v done l →
      l.view.db.requests.find? (req.caseId, req.key) = none → Q () l)
    (taken : ∀ l, lab.At (.live [] []) v done l →
      l.view.db.requests.find? (req.caseId, req.key) ≠ none → E .existingKey l)
    (fails : ∀ e l, e ≠ .duplicate → lab.At .failed v done l → E (.sql e) l) :
    lab.wpc M Q E (claim req oid) l := by
  rw [claim, lab.wpc_bind]
  refine lift_wp print ?_
  rw [lab.wpc_tryCatch]
  refine insert_wp h (fun l at' free _ => ok l at' (Option.map_eq_none_iff.1 free))
    (fun l at' full => ?_)
    fun e l ne at' => ?_
  · exact taken l at' fun free => full (Option.map_eq_none_iff.2 free)
  · cases e with
    | duplicate => exact absurd rfl ne
    | lockTimeout | deadlock | server | lost => exact fails _ l ne at'

/-- A charge claims its request. -/
lemma Charged.claimed {d : Database} {o : OrderRow} {i : InventoryRow} {b m : WalletRow}
    {r : RequestRow}
    {l₁ l₂ : LedgerRow} {e : EventRow} (new : Charged d i b m o r l₁ l₂ e) :
    r ∈ ((purchaseWrites o r l₁ l₂ e).foldl Database.apply d).requests.rows := by
  have key : r.key = (o.caseId, o.requestKey) :=
    Prod.ext new.claim.1 (congrArg Prod.fst new.claim.2)
  exact Table.mem_insert_self (t := d.requests) (key ▸ new.request)

/-- A charge records its order. -/
lemma Charged.recorded {d : Database} {req : Purchase} {oid fp : Str} {item i : InventoryRow}
    {b m : WalletRow}
    {l₁ l₂ : LedgerRow} {e : EventRow} (print : req.fingerprint = .ok fp)
    (new : Charged d i b m (newOrder req oid item) ⟨req.caseId, req.key, fp, oid⟩ l₁ l₂ e) :
    Recorded ((purchaseWrites (newOrder req oid item) ⟨req.caseId, req.key, fp, oid⟩ l₁ l₂ e).foldl
      Database.apply d) req (newOrder req oid item) where
  claim := ⟨⟨req.caseId, req.key, fp, oid⟩, new.claimed, rfl, rfl, print⟩
  order := ⟨newOrder req oid item, Table.mem_insert_self new.order, rfl, rfl, rfl, rfl⟩
  own := ⟨rfl, rfl, rfl⟩

/-- The marks of a purchase's commit. -/
def Earns (M : Marks mariadb) (req : Purchase) : Prop :=
  ∀ w fp oid item i b m l₁ l₂ e, req.fingerprint = .ok fp →
    Charged w.db i b m (newOrder req oid item) ⟨req.caseId, req.key, fp, oid⟩ l₁ l₂ e →
    M.before (purchaseWrites (newOrder req oid item) ⟨req.caseId, req.key, fp, oid⟩ l₁ l₂ e) w ∧
      M.after (purchaseWrites (newOrder req oid item) ⟨req.caseId, req.key, fp, oid⟩ l₁ l₂ e)
        (w.commit (purchaseWrites (newOrder req oid item) ⟨req.caseId, req.key, fp, oid⟩ l₁ l₂ e))

/-- The transaction of a purchase: it commits once and returns, or it raises. Where the key was not
free, it is known to be taken. -/
lemma checkout_wp {req : Purchase} {oid fp : Str} {failAt : Option Failpoint} {lose : Bool}
    {Q : Reply → Local mariadb → Prop} (h : lab.At (.live [] []) v done l)
    (print : req.fingerprint = .ok fp)
    (hex : orderIdOk oid = true) (earns : Earns M req)
    (taken : ∀ l, lab.At (.live [] []) v done l →
      l.view.db.requests.find? (req.caseId, req.key) ≠ none → E .existingKey l)
    (weak : lab.Lax Interrupted E v)
    (lax : v.db.requests.find? (req.caseId, req.key) = none → lab.Lax (· ≠ .existingKey) E v)
    (created : ∀ o ws l, v.db.requests.find? (req.caseId, req.key) = none →
      lab.At (.live [] []) v (done ++ [ws]) l → Recorded l.view.db req o → Q (.created o) l) :
    lab.wpc M Q E (checkout req .safe failAt lose oid) l := by
  rw [checkout, lab.wpc_bind]
  refine session_wp h (fun l at' => ?_) fun e l _ at' => weak.at at' (by simp) (.inl ⟨e, rfl⟩)
  rw [if_pos (show Policy.isProtected .safe = true from rfl), lab.wpc_bind]
  refine claim_wp at' print (fun l at' free => ?_) taken fun e l _ at' =>
    weak.at at' (by simp) (.inl ⟨e, rfl⟩)
  have unclaimed := at'.guar.free free
  have lax := lax unclaimed
  rw [lab.wpc_bind]
  refine inventory_wp at' (by simp [Write.key, Row.key]) (fun l at' => ?_) fun e l _ at' =>
    lax.at at' (by simp) (by simp)
  cases listed : l.view.db.inventory.find? req.caseId with
  | none => exact lax.at at' (by simp) (by simp)
  | some item =>
    obtain ⟨_, _, _, books, tidy⟩ := Database.Books.fixture at'.inv listed
    rw [lab.wpc_bind]
    refine accounts_wp at'.rebase listed ⟨books.price_pos, tidy.unitPrice⟩ print hex
      (lax.rebase at'.guar)
      fun i b m l₁ l₂ e held l' at₂ charged => ?_
    have guar := at'.guar
    rw [lab.wpc_bind, lab.wpc_tryCatch]
    refine at₂.commit (fun w sees => ?_) (fun w sees l₃ view at₃ => ?_) fun e l _ at₃ => ?_
    · obtain ⟨before, after⟩ := earns w fp oid item i b m l₁ l₂ e print (charged w sees)
      exact ⟨Database.Books.purchase sees.inv (charged w sees), Database.grows_foldl w.db _,
        before, after⟩
    · have recorded : Recorded l₃.view.db req (newOrder req oid item) := by
        rw [view]
        exact (charged w sees).recorded print
      have later := lab.trans guar at₃.guar
      rw [lab.wpc_bind]
      refine trace_wp at₃.rebase (fun l at₄ => ?_) fun l at₄ =>
        weak.at (at₄.since later) (by simp) (.inr rfl)
      cases lose with
      | true =>
        rw [if_pos rfl, lab.wpc_bind]
        exact trace_wp at₄ (fun l at₅ => lax.at (at₅.since later) (by simp) (by simp)) fun l at₅ =>
          weak.at (at₅.since later) (by simp) (.inr rfl)
      | false => exact created _ _ l unclaimed (at₄.since later) (recorded.grows at₄.guar)
    · rw [lab.wpc_bind]
      exact trace_wp at₃ (fun l at₄ => lax.at (at₄.since guar) (by simp) (by simp)) fun l at₄ =>
        weak.at (at₄.since guar) (by simp) (.inr rfl)

/-! ### Attempts -/

/-- The claim of a request names an order of another quantity, though the fingerprints are the
same. -/
def Mismatched (d : Database) (req : Purchase) : Prop :=
  ∃ r ∈ d.requests.rows, r.key = (req.caseId, req.key) ∧ req.fingerprint = .ok r.fingerprint ∧
    ∃ o ∈ d.orders.rows, o.id = r.orderId ∧ o.quantity ≠ req.quantity

/-- A mismatch stays one. -/
lemma Mismatched.grows {d d' : Database} {req : Purchase} (h : Mismatched d req) (g : d.Grows d') :
    Mismatched d' req := by
  obtain ⟨r, mr, key, print, o, mo, id, other⟩ := h
  obtain ⟨o', mo', id', _, _, quantity, _⟩ := g.orders o mo
  exact ⟨r, g.requests r mr, key, print, o', mo', id'.trans id, quantity ▸ other⟩

/-- What is left of a failed attempt: its transaction is rolled back and its connection closed. -/
lemma undo_wp {e : Raised} {Q : Reply → Local mariadb → Prop} (h : lab.At m v done l)
    (opened : m ≠ .closed)
    (ok : ∀ l, lab.At .closed v done l → E e l)
    (sql : ∀ f l, lab.At .closed v done l → E (.sql f) l)
    (full : ∀ l, lab.At .closed v done l → E traceFull l) :
    lab.wpc M (fun a => lab.wpc M (fun _ => Q a) E close)
      (fun e => lab.wpc M (fun _ => E e) E close)
      (do rollback; trace; throw e) l := by
  rw [lab.wpc_bind]
  refine h.rollback opened (fun l at' => ?_) fun f l _ at' => at'.close nofun (sql f)
  rw [lab.wpc_bind]
  exact trace_wp at' (fun l at' => at'.close nofun ok) fun l at' => at'.close nofun full

/-- One attempt. Its connection is closed in the end, but not where the trace is full before it
begins. -/
lemma purchaseOnce_wp {req : Purchase} {failAt : Option Failpoint} {lose : Bool}
    {Q : Reply → Local mariadb → Prop}
    (h : lab.At .closed v done l) (earns : Earns M req)
    (taken : ∀ l, lab.At .closed v done l → l.view.db.requests.find? (req.caseId, req.key) ≠ none →
      E .existingKey l)
    (sql : ∀ e l done, lab.At .closed v done l → E (.sql e) l)
    (full : ∀ m l done, lab.At m v done l → E traceFull l)
    (lax : v.db.requests.find? (req.caseId, req.key) = none → ∀ e l done, e ≠ .existingKey →
      lab.At .closed v done l → E e l)
    (created : ∀ o l done, v.db.requests.find? (req.caseId, req.key) = none →
      lab.At .closed v done l → Recorded l.view.db req o → Q (.created o) l) :
    lab.wpc M Q E (purchaseOnce req .safe failAt lose) l := by
  obtain ⟨fp, print⟩ := req.fingerprint_ok
  rw [purchaseOnce, lab.wpc_bind]
  refine connect_wp h (fun l at' => ?_) fun e l at' => sql e l done at'
  rw [lab.wpc_bind]
  refine uuid4_wp at' fun oid l hex at' => ?_
  rw [lab.wpc_bind]
  refine trace_wp at' (fun l at' => ?_) fun l at' => full _ l done at'
  rw [lab.wpc_finally, lab.wpc_tryCatch]
  refine checkout_wp at' print hex earns ?_ ?_ ?_ ?_
  · intro l at' found
    refine undo_wp at'.rebase nofun (fun l at₂ => ?_)
      (fun f l at₂ => sql f l done (at₂.since at'.guar))
      fun l at₂ => full _ l done (at₂.since at'.guar)
    exact taken l (at₂.since at'.guar) fun gone => found (at₂.guar.free gone)
  · rintro e l done (⟨f, rfl⟩ | rfl) opened at'
    · exact undo_wp at' opened (fun l => sql f l done) (fun f l => sql f l done) fun l =>
        full _ l done
    · exact undo_wp at' opened (fun l => full _ l done) (fun f l => sql f l done) fun l =>
        full _ l done
  · intro free e l done ne opened at'
    have undo :=
      undo_wp (M := M) (Q := Q) at' opened (fun l => lax free e l done ne) (fun f l => sql f l done)
      fun l => full _ l done
    cases e with
    | existingKey => exact absurd rfl ne
    | commitUnknown m => exact at'.close opened fun l => lax free _ l done ne
    | injected | rejected | sql | python | runtimeError | unreachable => exact undo
  · intro o ws l free at' recorded
    refine at'.rebase.close nofun fun l at₂ => ?_
    exact created o l _ free (at₂.since at'.guar) (recorded.grows at₂.guar)

/-! ### Lookups -/

/-- A claim names an order with its fingerprint. -/
lemma Database.Books.claimed {d : Database} {r : RequestRow} (h : d.Books)
    (mr : r ∈ d.requests.rows) :
    ∃ o ∈ d.orders.rows, o.id = r.orderId ∧ o.caseId = r.caseId ∧ o.requestKey = r.requestKey ∧
      o.fingerprint? r.caseId = some r.fingerprint := by
  have mem : r ∈ (d.ofCase r.caseId).requests := List.mem_filter.2 ⟨mr, decide_eq_true rfl⟩
  rcases h r.caseId with empty | ⟨i, _, _, books, _⟩
  · rw [empty] at mem
    cases mem
  · have own : i.caseId = r.caseId := by
      have mi : i ∈ (d.ofCase r.caseId).inventory := books.inventory ▸ List.mem_singleton_self i
      exact of_decide_eq_true (List.mem_filter.1 mi).2
    obtain ⟨o, mo, e⟩ := List.mem_map.1 (books.claims.mem_iff.1 (List.mem_map_of_mem mem))
    obtain ⟨mo, case_⟩ := List.mem_filter.1 mo
    simp only [Prod.mk.injEq, own] at e
    exact ⟨o, mo, e.2.2, of_decide_eq_true case_, e.1, e.2.1⟩

/-- The end of a lookup: roll back and close. -/
lemma finish_wp {Q : Unit → Local mariadb → Prop} (h : lab.At m v done l) (opened : m ≠ .closed)
    (ok : ∀ l, lab.At .closed v done l → Q () l)
    (sql : ∀ f l, lab.At .closed v done l → E (.sql f) l) :
    lab.wpc M Q E (tryFinally rollback close) l := by
  rw [lab.wpc_finally]
  exact h.rollback opened (fun l at' => at'.close nofun ok) fun f l _ at' => at'.close nofun (sql f)

/-- What a lookup finds when the key is claimed. -/
lemma lookup_wp {req : Purchase} {Q : Option OrderRow → Local mariadb → Prop}
    (h : lab.At .closed v done l)
    (claimed : v.db.requests.find? (req.caseId, req.key) ≠ none)
    (found : ∀ o l, lab.At .closed v done l → Recorded l.view.db req o → Q (some o) l)
    (conflict : ∀ l, lab.At .closed v done l →
      (∃ r ∈ l.view.db.requests.rows, r.key = (req.caseId, req.key) ∧
        req.fingerprint ≠ .ok r.fingerprint) →
      E (.rejected "idempotency_conflict") l)
    (sql : ∀ f l, lab.At .closed v done l → E (.sql f) l)
    (mismatch : ∀ l, lab.At .closed v done l → Mismatched l.view.db req →
      E (.runtimeError "Committed request claim has no matching order") l) :
    lab.wpc M Q E (Repository.lookup req true) l := by
  obtain ⟨fp, print⟩ := req.fingerprint_ok
  rw [Repository.lookup, lab.wpc_bind]
  refine connect_wp h (fun l at' => ?_) sql
  rw [lab.wpc_finally, lab.wpc_bind]
  have fails : ∀ f l, f ≠ Failure.duplicate → lab.At .failed v done l →
      lab.wpc M (fun _ => E (.sql f)) E (tryFinally rollback close) l :=
    fun f l _ at' => finish_wp at' nofun (sql f) sql
  refine request_wp at' (fun l at' => ?_) fails
  cases row : l.view.db.requests.find? (req.caseId, req.key) with
  | none => exact absurd (at'.guar.free row) claimed
  | some r =>
    obtain ⟨mr, key⟩ := Table.find?_eq_some.1 row
    rw [lab.wpc_bind]
    refine lift_wp print ?_
    rw [lab.wpc_bind]
    refine require_wp (fun same => ?_) fun other => ?_
    · have print' : req.fingerprint = .ok r.fingerprint :=
        print.trans (congrArg Except.ok (same rfl).symm)
      obtain ⟨o, mo, id, caseId, requestKey, _⟩ := Database.Books.claimed at'.inv mr
      obtain ⟨c, k⟩ := Prod.mk.inj key
      have since : ∀ {m l'}, lab.At m l.view done l' → lab.At m v done l' :=
        fun at₂ => at₂.since at'.guar
      rw [lab.wpc_bind]
      refine order_wp at'.rebase (fun l₂ at₂ => ?_) fun f l₂ ne at₂ => fails f l₂ ne (since at₂)
      obtain ⟨o', mo', id', caseId', requestKey', quantity', _⟩ := at₂.guar.orders o mo
      have row' : l₂.view.db.orders.find? r.orderId = some o' :=
        Table.find?_eq_some.2 ⟨mo', id'.trans id⟩
      rw [row', lab.wpc_bind]
      refine require_wp (fun matched => ?_) fun unmatched => ?_
      · have recorded : Recorded l₂.view.db req o' := {
          claim := ⟨r, at₂.guar.requests r mr, key, (id'.trans id).symm, print'⟩
          order := ⟨o', mo', rfl, matched.1, matched.2.1, matched.2.2 rfl⟩
          own := ⟨matched.1, matched.2.1, matched.2.2 rfl⟩ }
        refine finish_wp at₂.rebase nofun (fun l₃ at₃ => ?_) fun f l₃ at₃ =>
          sql f l₃ (since (at₃.since at₂.guar))
        exact found o' l₃ (since (at₃.since at₂.guar)) (recorded.grows at₃.guar)
      · have other : o'.quantity ≠ req.quantity := fun same => unmatched
          ⟨caseId'.trans (caseId.trans c), requestKey'.trans (requestKey.trans k), fun _ => same⟩
        have mismatched : Mismatched l₂.view.db req :=
          ⟨r, at₂.guar.requests r mr, key, print', o', mo', id'.trans id, other⟩
        refine finish_wp at₂.rebase nofun (fun l₃ at₃ => ?_) fun f l₃ at₃ =>
          sql f l₃ (since (at₃.since at₂.guar))
        exact mismatch l₃ (since (at₃.since at₂.guar)) (mismatched.grows at₃.guar)
    · refine finish_wp at'.rebase nofun (fun l at₂ => ?_) fun f l at₂ =>
        sql f l (at₂.since at'.guar)
      refine conflict l (at₂.since at'.guar) ⟨r, at₂.guar.requests r mr, key,
        fun same => other fun _ => ?_⟩
      rw [print] at same
      exact (Except.ok.inj same).symm

/-! ### The whole call -/

/-- What a purchase may return or raise that began in `d` and ended in `d'`. -/
inductive PurchaseEnds (req : Purchase) (d d' : Database) : Except Raised Reply → Prop where
  | created (o : OrderRow) (free : d.requests.find? (req.caseId, req.key) = none)
      (recorded : Recorded d' req o) :
    PurchaseEnds req d d' (.ok (.created o))
  | replayed (o : OrderRow) (recorded : Recorded d' req o) : PurchaseEnds req d d'
      (.ok (.replayed o))
  | conflict (r : RequestRow) (mem : r ∈ d'.requests.rows) (key : r.key = (req.caseId, req.key))
    (other : req.fingerprint ≠ .ok r.fingerprint) :
    PurchaseEnds req d d' (.error (.rejected "idempotency_conflict"))
  | interrupted (e : Raised) (h : Interrupted e) : PurchaseEnds req d d' (.error e)
  | failed (e : Raised) (free : d.requests.find? (req.caseId, req.key) = none) :
      PurchaseEnds req d d' (.error e)
  | mismatch (e : Raised) (h : Mismatched d' req) : PurchaseEnds req d d' (.error e)

/-- The end of a purchase stays one. -/
lemma PurchaseEnds.grows {req : Purchase} {d d' d'' : Database} {x : Except Raised Reply}
    (h : PurchaseEnds req d d' x)
    (g : d'.Grows d'') : PurchaseEnds req d d'' x := by
  cases h with
  | created o free recorded => exact .created o free (recorded.grows g)
  | replayed o recorded => exact .replayed o (recorded.grows g)
  | conflict r mem key other => exact .conflict r (g.requests r mem) key other
  | interrupted e h => exact .interrupted e h
  | failed e free => exact .failed e free
  | mismatch e h => exact .mismatch e (h.grows g)

/-- After the claim was refused, the call replays the order of the claim. -/
lemma replay_wp {req : Purchase} {retry : Option (Repo Reply)} (h : lab.At .closed v done l)
    (claimed : l.view.db.requests.find? (req.caseId, req.key) ≠ none) :
    lab.wpc M (fun a l => PurchaseEnds req v.db l.view.db (.ok a))
      (fun e l => PurchaseEnds req v.db l.view.db (.error e))
        (afterFailure req .safe retry .existingKey) l := by
  rw [afterFailure, lab.wpc_bind]
  refine lookup_wp h.rebase claimed ?_ ?_ ?_ ?_
  · intro o l at' recorded
    rw [lab.wpc_bind]
    refine trace_wp at'.rebase (fun l at₂ => .replayed o (recorded.grows at₂.guar)) fun l _ => ?_
    exact .interrupted _ (.inr rfl)
  · rintro l _ ⟨r, mr, key, other⟩
    exact .conflict r mr key other
  · exact fun f l _ => .interrupted _ (.inl ⟨f, rfl⟩)
  · exact fun l _ h => .mismatch _ h

/-- After a failure of the database, the call tries again or gives up. -/
lemma retry_wp {req : Purchase} {retry : Option (Repo Reply)} {f : Failure}
    (h : lab.At .closed v done l)
    (again : ∀ p, retry = some p → ∀ l done, lab.At .closed v done l →
      lab.wpc M (fun a l => PurchaseEnds req v.db l.view.db (.ok a))
        (fun e l => PurchaseEnds req v.db l.view.db (.error e)) p l) :
    lab.wpc M (fun a l => PurchaseEnds req v.db l.view.db (.ok a))
      (fun e l => PurchaseEnds req v.db l.view.db (.error e))
        (afterFailure req .safe retry (.sql f)) l := by
  cases retry with
  | none => exact .interrupted _ (.inl ⟨f, rfl⟩)
  | some p =>
    rw [afterFailure]
    split
    · rw [lab.wpc_bind]
      exact trace_wp h (fun l at' => again p rfl l done at') fun l _ => .interrupted _ (.inr rfl)
    · exact .interrupted _ (.inl ⟨f, rfl⟩)

/-- An attempt, and whatever follows its failure. -/
lemma attempt_wp {req : Purchase} {failAt : Option Failpoint} {lose : Bool}
    {retry : Option (Repo Reply)}
    (h : lab.At .closed v done l) (earns : Earns M req)
    (again : ∀ p, retry = some p → ∀ l done, lab.At .closed v done l →
      lab.wpc M (fun a l => PurchaseEnds req v.db l.view.db (.ok a))
        (fun e l => PurchaseEnds req v.db l.view.db (.error e)) p l) :
    lab.wpc M (fun a l => PurchaseEnds req v.db l.view.db (.ok a))
      (fun e l => PurchaseEnds req v.db l.view.db (.error e))
      (tryCatch (purchaseOnce req .safe failAt lose) (afterFailure req .safe retry)) l := by
  rw [lab.wpc_tryCatch]
  refine purchaseOnce_wp h earns ?_ ?_ ?_ ?_ ?_
  · exact fun l at' claimed => replay_wp at' claimed
  · exact fun f l done at' => retry_wp at' again
  · exact fun m l done at' => .interrupted _ (.inr rfl)
  · intro free e l done ne at'
    cases e with
    | existingKey => exact absurd rfl ne
    | sql f => exact retry_wp at' again
    | injected | commitUnknown | rejected | python | runtimeError | unreachable =>
      exact .failed _ free
  · exact fun o l done free at' recorded => .created o free recorded

/-- Several attempts end like one. -/
theorem attempts_wp {req : Purchase} {failAt : Option Failpoint} {lose : Bool}
    (earns : Earns M req) (n : Nat)
    (h : lab.At .closed v done l) :
    lab.wpc M (fun a l => PurchaseEnds req v.db l.view.db (.ok a))
      (fun e l => PurchaseEnds req v.db l.view.db (.error e))
        (attempts req .safe failAt lose n) l := by
  induction n generalizing done l with
  | zero => exact attempt_wp h earns nofun
  | succ n ih =>
    refine attempt_wp h earns ?_
    rintro p ⟨⟩ l done at'
    exact ih at'

end DbLab.Txlab
