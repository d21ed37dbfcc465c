import DbLab.Store.Aborts
import DbLab.Store.Thread
import DbLab.Txlab.ExactlyOnce

/-!
# A purchase happens whole or not at all

A protected purchase or refund that raises anything but `CommitUnknown` has not asked for a commit,
as long as the trace has room: all tables are as they were, and what follows could have followed
without the call. A refund whose last entry the trace refuses raises after its commit.
-/

namespace DbLab.Txlab
open DbLab.Py DbLab.Store Repo Repository

/-- The database of the lab, as long as the trace has room. -/
abbrev roomy : Server interface := { mariadb with
  acts
    | .uuid4, _, id, _ => orderIdOk id
    | .trace, _, room, _ => room = true }

/-! ### Statements that do not commit -/

section Plain
variable {α β : Type} {p : Repo α}

/-- A part of a method that does not ask for a commit. -/
def Plain (p : Repo α) : Prop :=
  Tellsc roomy (fun asked _ => asked = false) (fun asked _ => asked = false) false p

/-- A result asks for no commit. -/
lemma Plain.pure (a : α) : Plain (pure a) := (tellsc_pure a).2 rfl

/-- An exception asks for no commit. -/
lemma Plain.throw (e : Raised) : Plain (throw e : Repo α) := (tellsc_throw e).2 rfl

/-- One program after the other asks for no commit. -/
lemma Plain.bind {f : α → Repo β} (first : Plain p) (rest : ∀ a, Plain (f a)) :
    Plain (p >>= f) := by
  refine (tellsc_bind _ _).2 (Tellsc.mono first ?_ fun _ _ no => no)
  intro asked a no
  subst no
  exact rest a

/-- A program with its handler asks for no commit. -/
lemma Plain.tryCatch {f : Raised → Repo α} (body : Plain p) (handler : ∀ e, Plain (f e)) :
    Plain (tryCatch p f) := by
  refine (tellsc_tryCatch _ _).2 (Tellsc.mono body (fun _ _ no => no) ?_)
  intro asked e no
  subst no
  exact handler e

/-- A program with its final block asks for no commit. -/
lemma Plain.finally {block : Repo β} (body : Plain p) (last : Plain block) :
    Plain (tryFinally p block) := by
  refine (tellsc_finally _ _).2 (Tellsc.mono body ?_ ?_)
  · intro asked a no
    subst no
    exact last
  · intro asked e no
    subst no
    exact last

/-- A query asks for no commit. -/
lemma Plain.execute (q : Query) : Plain (execute q) := tellsc_execute (fun _ => rfl) fun _ => rfl

/-- Rolling back asks for no commit. -/
lemma Plain.rollback : Plain rollback := tellsc_rollback rfl fun _ => rfl

/-- Closing asks for no commit. -/
lemma Plain.close : Plain close := tellsc_close rfl

/-- Drawing an id asks for no commit. -/
lemma Plain.uuid4 : Plain uuid4 := tellsc_act fun _ _ _ _ => rfl

/-- A requirement asks for no commit. -/
lemma Plain.require (c : Prop) [Decidable c] (e : Raised) : Plain (require c e) := by
  unfold Repo.require
  split
  · exact .pure _
  · exact .throw _

/-- A plain computation asks for no commit. -/
lemma Plain.lift (x : Except Exn α) : Plain (lift x) := by
  cases x with
  | ok a => exact .pure a
  | error e => exact .throw _

/-- Tracing asks for no commit. -/
lemma Plain.trace : Plain trace := .bind (tellsc_act fun _ _ _ _ => rfl) fun _ => .require _ _

/-- Connecting asks for no commit. -/
lemma Plain.connect : Plain connect := by
  refine .bind (tellsc_connect rfl fun _ => rfl) fun _ => .tryCatch ?_ fun _ =>
    .bind .close fun _ => .throw _
  exact .bind (.execute _) fun _ => .execute _

variable [Interpreter]

/-- Looking up a request asks for no commit. -/
lemma Plain.lookup (req : Purchase) (verify : Bool) : Plain (lookup req verify) := by
  refine .bind .connect fun _ => .finally ?_ (.finally .rollback .close)
  refine .bind (.execute _) fun claim => ?_
  split
  · exact .pure _
  · refine .bind (.lift _) fun _ => .bind (.require _ _) fun _ => .bind (.execute _) fun order => ?_
    split
    · exact .throw _
    · exact .bind (.require _ _) fun _ => .pure _

/-- Claiming a request asks for no commit. -/
lemma Plain.claim (req : Purchase) (oid : Str) : Plain (claim req oid) := by
  refine .bind (.lift _) fun _ => .tryCatch (.execute _) fun e => ?_
  split
  · exact .throw _
  · exact .throw _

omit [Interpreter] in
/-- Writing an entry asks for no commit. -/
lemma Plain.ledgerEntry (o : OrderRow) (phase owner : Str) (delta : Int) :
    Plain (ledgerEntry o phase owner delta) :=
  .bind .uuid4 fun _ => .execute _

omit [Interpreter] in
/-- Writing both entries asks for no commit. -/
lemma Plain.ledger (o : OrderRow) (phase : Str) : Plain (ledger o phase) :=
  .bind (.ledgerEntry _ _ _ _) fun _ => .ledgerEntry _ _ _ _

/-- Writing an event asks for no commit. -/
lemma Plain.event (o : OrderRow) (phase : Str) : Plain (event o phase) :=
  .bind (.lift _) fun _ => .bind .uuid4 fun _ => .execute _

omit [Interpreter] in
/-- Passing a checkpoint asks for no commit. -/
lemma Plain.checkpoint (failAt : Option Failpoint) (stage : Failpoint) :
    Plain (checkpoint .safe failAt stage) :=
  .bind .trace fun _ => .require _ _

omit [Interpreter] in
/-- Taking stock asks for no commit. -/
lemma Plain.takeStock (req : Purchase) (item : InventoryRow) : Plain (takeStock req .safe item) :=
  .bind (.execute _) fun _ => .require _ _

/-- The rest of a purchase asks for no commit. -/
lemma Plain.accounts (req : Purchase) (failAt : Option Failpoint) (oid : Str)
    (item : InventoryRow) :
    Plain (accounts req .safe failAt oid item) := by
  refine .bind (.takeStock req item) fun _ => .bind (.checkpoint failAt _) fun _ => ?_
  refine .bind (.execute _) fun _ => .bind (.require _ _) fun _ =>
    .bind (.checkpoint failAt _) fun _ => ?_
  refine .bind (.execute _) fun _ => .bind (.require _ _) fun _ =>
    .bind (.checkpoint failAt _) fun _ => ?_
  refine .bind (.execute _) fun _ => .bind (.checkpoint failAt _) fun _ => ?_
  refine .bind (.ledger _ _) fun _ => .bind (.checkpoint failAt _) fun _ => ?_
  exact .bind (.event _ _) fun _ => .checkpoint failAt _

/-- Checking a case asks for no commit. -/
lemma Plain.checkCase (c : Str) (label : String) : Plain (checkCase c label) :=
  .bind (.lift _) fun _ => .pure _

/-- Giving back what was bought asks for no commit. -/
lemma Plain.giveBack (c oid : Str) (o : OrderRow) : Plain (giveBack c oid o) := by
  refine .bind (.execute _) fun _ => .bind (.execute _) fun _ => .bind (.execute _) fun _ => ?_
  exact .bind (.execute _) fun _ => .bind (.ledger _ _) fun _ => .event _ _

end Plain

/-! ### What is raised after a commit was asked for -/

section Raises
variable {α β : Type} {p : Repo α}

/-- Once a commit was asked for, only `CommitUnknown` is raised. -/
def Unknown (asked : Bool) (e : Raised) : Prop := asked = true → ∃ m, e = .commitUnknown m

/-- A method of which this is true from a point on. -/
def Honest (asked : Bool) (p : Repo α) : Prop := Tellsc roomy (fun _ _ => True) Unknown asked p

/-- What asks for no commit is honest. -/
lemma Plain.honest (h : Plain p) : Honest false p :=
  Tellsc.mono h (fun _ _ _ => trivial) fun _ _ no yes => by rw [no] at yes; cases yes

/-- What follows a plain program keeps it honest. -/
lemma Plain.then {f : α → Repo β} (first : Plain p) (rest : ∀ a, Honest false (f a)) :
    Honest false (p >>= f) := by
  refine (tellsc_bind _ _).2 (Tellsc.mono first ?_ ?_)
  · intro asked a no
    subst no
    exact rest a
  · intro asked e no yes
    rw [no] at yes
    cases yes

/-- A result is honest. -/
lemma honest_pure {asked : Bool} (a : α) : Honest asked (pure a) := (tellsc_pure a).2 trivial

/-- An outcome that is unknown is honest. -/
lemma honest_unknown {asked : Bool} (m : String) :
    Honest asked (throw (.commitUnknown m) : Repo α) :=
  (tellsc_throw _).2 fun _ => ⟨m, rfl⟩

/-- The trace has room. -/
lemma room_trace {asked : Bool} {Q : Bool → α → Prop} {E : Bool → Raised → Prop} {f : Unit → Repo α}
    (rest : Tellsc roomy Q E asked (f ())) : Tellsc roomy Q E asked (trace >>= f) := by
  refine (tellsc_bind _ _).2 ((tellsc_bind _ _).2 (tellsc_act fun room _ _ acts => ?_))
  have yes : room = true := acts
  subst yes
  exact rest

/-- A commit, after which the method goes on or says that it does not know. -/
lemma honest_commit {unknown : Raised → Repo Unit} {f : Unit → Repo α}
    (fails : ∀ e, Tellsc roomy (fun _ _ => False) Unknown true (unknown e))
    (rest : Honest true (f ())) :
    Honest false (tryCatch commit unknown >>= f) := by
  refine (tellsc_bind _ _).2 ((tellsc_tryCatch _ _).2 (tellsc_commit rest fun e => ?_))
  exact Tellsc.mono (fails _) (fun _ _ never => never.elim) fun _ _ known => known

/-- What is done about an exception. After a commit was asked for, `CommitUnknown` is passed on. -/
lemma honest_catch {handler : Raised → Repo α} (body : Honest false p)
    (passes : ∀ m, handler (.commitUnknown m) = throw (.commitUnknown m))
    (early : ∀ e, Honest false (handler e)) : Honest false (tryCatch p handler) := by
  refine (tellsc_tryCatch _ _).2 (Tellsc.mono body (fun _ _ _ => trivial) ?_)
  intro asked e unknown
  cases asked with
  | false => exact early e
  | true =>
    obtain ⟨m, rfl⟩ := unknown rfl
    rw [passes]
    exact honest_unknown m

/-- Closing keeps a program honest. -/
lemma honest_close (body : Honest false p) : Honest false (tryFinally p close) := by
  refine (tellsc_finally _ _).2 (Tellsc.mono body ?_ ?_)
  · exact fun _ _ _ => tellsc_close trivial
  · exact fun _ _ unknown => tellsc_close unknown

variable [Interpreter]

/-- A checkout is honest. -/
lemma checkout_honest (req : Purchase) (failAt : Option Failpoint) (lose : Bool) (oid : Str) :
    Honest false (checkout req .safe failAt lose oid) := by
  refine Plain.then (.execute _) fun _ => Plain.then (.claim req oid) fun _ =>
    Plain.then (.execute _) fun item => ?_
  split
  · exact (Plain.throw _).honest
  · refine Plain.then (.accounts req failAt oid _) fun _ => honest_commit ?_ (room_trace ?_)
    · exact fun e => room_trace ((tellsc_throw _).2 fun _ => ⟨_, rfl⟩)
    · split
      · exact room_trace (honest_unknown _)
      · exact honest_pure _

/-- One purchase is honest. -/
lemma purchaseOnce_honest (req : Purchase) (failAt : Option Failpoint) (lose : Bool) :
    Honest false (purchaseOnce req .safe failAt lose) := by
  refine Plain.then .connect fun _ => Plain.then .uuid4 fun oid => Plain.then .trace fun _ => ?_
  refine honest_close (honest_catch (checkout_honest req failAt lose oid)
    (fun _ => rfl) fun e => ?_)
  split
  · exact honest_unknown _
  · exact Plain.honest (.bind .rollback fun _ => .bind .trace fun _ => .throw _)

/-- What follows a failure is honest. -/
lemma afterFailure_honest (req : Purchase) {retry : Option (Repo Reply)}
    (again : ∀ p, retry = some p → Honest false p)
    (e : Raised) : Honest false (afterFailure req .safe retry e) := by
  unfold afterFailure
  split
  · refine Plain.honest (.bind (.lookup _ _) fun order => ?_)
    split
    · exact .throw _
    · exact .bind .trace fun _ => .pure _
  · split
    · rename_i p
      split
      · exact Plain.then .trace fun _ => again p rfl
      · exact (Plain.throw _).honest
    · exact (Plain.throw _).honest
  · exact (Plain.throw _).honest

/-- Several attempts are honest. -/
lemma attempts_honest (req : Purchase) (failAt : Option Failpoint) (lose : Bool) (n : Nat) :
    Honest false (attempts req .safe failAt lose n) := by
  induction n with
  | zero =>
    exact honest_catch (purchaseOnce_honest req failAt lose) (fun _ => rfl)
      (afterFailure_honest req nofun)
  | succ n ih =>
    refine honest_catch (purchaseOnce_honest req failAt lose) (fun _ => rfl)
      (afterFailure_honest req fun p same => ?_)
    cases same
    exact ih

/-- The body of a refund is honest. -/
lemma refundBody_honest (c oid : Str) : Honest false (refundBody c oid true) := by
  refine Plain.then (.execute _) fun _ => Plain.then (.execute _) fun order => ?_
  split
  · exact (Plain.throw _).honest
  · split
    · exact Plain.honest (.bind .rollback fun _ => .bind .trace fun _ => .pure _)
    · refine Plain.then (.require _ _) fun _ => Plain.then .trace fun _ =>
        Plain.then (.giveBack c oid _) fun _ => ?_
      refine honest_commit ?_ (room_trace (honest_pure _))
      exact fun e => (tellsc_throw _).2 fun _ => ⟨_, rfl⟩

/-- A refund is honest. -/
lemma refund_honest (c oid : Str) : Honest false (refund c oid true) := by
  refine Plain.then (.checkCase c _) fun _ => Plain.then (.require _ _) fun _ =>
    Plain.then .connect fun _ => ?_
  refine honest_close (honest_catch (refundBody_honest c oid) (fun _ => rfl) fun e => ?_)
  split
  · exact honest_unknown _
  · exact Plain.honest (.bind .rollback fun _ => .throw _)

end Raises

/-! ### A purchase that can be made is made -/

/-- The ids that are drawn in turn, and a trace with room. -/
def drawing : Oracle roomy (List Str) where
  eval := fun q d ws =>
    let e := Query.eval (ws.foldl Database.apply d) q
    (e.1, d, e.2.1, e.2.2)
  act
    | .uuid4, e, ids => (if orderIdOk (ids.headD []) then ids.headD [] else uuidOf 0, e, ids.tail)
    | .trace, e, ids => (true, e, ids)
  runs := fun _ _ _ => ⟨rfl, rfl⟩
  acts
    | .uuid4, _, ids => by
      dsimp only
      split
      · assumption
      · decide
    | .trace, _, _ => rfl

section Made
variable {ids : List Str} {w : World roomy} {l : List (List Write)} {ws ws' : List Write}

open Oracle

/-- A statement that is executed. -/
lemma does_execute {q : Query} {a : q.Rows} {ks : List Key}
    (eval : q.eval (ws.foldl Database.apply w.db) = (.ok a, ks, ws')) :
    drawing.Does (Repo.execute q) ⟨ids, some ws, w, l⟩ a ⟨ids, some (ws ++ ws'), w, l⟩ :=
  have run : ((q.eval (ws.foldl Database.apply w.db)).1, w.db,
    (q.eval (ws.foldl Database.apply w.db)).2.1,
      (q.eval (ws.foldl Database.apply w.db)).2.2) = (.ok a, w.db, ks, ws') := by rw [eval]
  Does.execute run

/-- There is room to trace. -/
lemma does_trace {x : Standing roomy (List Str)} : drawing.Does Repo.trace x () x := rfl

/-- The id drawn is the next one. -/
lemma does_uuid4 {id : Str} {m : Option (List Write)} (hex : orderIdOk id = true) :
    drawing.Does Repo.uuid4 ⟨id :: ids, m, w, l⟩ id ⟨ids, m, w, l⟩ := by
  rw [Does, Repo.uuid4]
  show some (Except.ok (if orderIdOk id then id else uuidOf 0), _) = _
  rw [if_pos hex]
  rfl

/-- A requirement that holds. -/
lemma does_require {c : Prop} [Decidable c] {e : Raised} {x : Standing roomy (List Str)} (h : c) :
    drawing.Does (Repo.require c e) x () x := by
  rw [Repo.require, if_pos h]
  rfl

/-- A computation that returns. -/
lemma does_lift {α : Type} {r : Except Exn α} {a : α} {x : Standing roomy (List Str)}
    (h : r = .ok a) :
    drawing.Does (Repo.lift r) x a x := by
  rw [h]
  rfl

/-- A checkpoint that does not fail. -/
lemma does_checkpoint {stage : Failpoint} {x : Standing roomy (List Str)} :
    drawing.Does (checkpoint .safe none stage) x () x :=
  .bind does_trace (does_require nofun)

/-- What connecting does. -/
lemma does_connect : drawing.Does Repository.connect ⟨ids, none, w, l⟩ () ⟨ids, some [], w, l⟩ :=
  rfl

/-- An insertion under a key that is free. -/
lemma does_insert {r : Row} (free : (ws.foldl Database.apply w.db).read r.key = none) :
    drawing.Does (Repo.execute (.insert r)) ⟨ids, some ws, w, l⟩ () ⟨ids,
      some (ws ++ [.insert r]), w, l⟩ :=
  does_execute (by rw [Query.eval, free]; rfl)

/-- Writing an entry under a free id. -/
lemma does_ledger {o : OrderRow} {phase owner id : Str} {delta : Int} (hex : orderIdOk id = true)
    (free : (ws.foldl Database.apply w.db).ledger.find? id = none) :
    drawing.Does (ledgerEntry o phase owner delta) ⟨id :: ids, some ws, w, l⟩ ()
      ⟨ids, some (ws ++ [.insert (.ledger ⟨id, o.caseId, o.id, owner, phase, delta⟩)]), w, l⟩ := by
  refine .bind (does_uuid4 hex) (does_insert ?_)
  rw [Row.key, Database.read, free]
  rfl

/-- What a purchase needs: its key is free, stock and funds are there, and the ids it draws are
new. -/
structure Affordable (d : Database) (req : Purchase) (i : InventoryRow) (b m : WalletRow)
    (oid id₁ id₂ id₃ : Str) : Prop where
  held : Held d req.caseId i b m
  price : 0 < i.unitPrice ∧ i.unitPrice ≤ 1000000
  free : d.requests.find? (req.caseId, req.key) = none
  stock : req.quantity ≤ i.available
  funds : req.quantity * i.unitPrice ≤ b.balance
  order : d.orders.find? oid = none
  first : d.ledger.find? id₁ = none
  second : d.ledger.find? id₂ = none
  ne : id₁ ≠ id₂
  event : d.events.find? id₃ = none
  ids : ∀ id ∈ [oid, id₁, id₂, id₃], orderIdOk id = true

/-- Moving stock that suffices. -/
lemma eval_addAvailable {d : Database} {c : Str} {n : Int} (atLeast : Option Int) {i : InventoryRow}
    (found : d.inventory.find? c = some i) (enough : ∀ q, atLeast = some q → q ≤ i.available)
    (changes : n ≠ 0) :
    Query.eval d (.addAvailable c n atLeast) = (.ok 1, [.inventory c], [.addAvailable c n]) := by
  have hit : atLeast.all (fun q => decide (q ≤ i.available)) = true := by
    cases atLeast with
    | none => rfl
    | some q => simpa using enough q rfl
  rw [Query.eval, found, updateRow, if_pos hit, if_pos (decide_eq_true changes)]
  rfl

/-- Moving money that suffices. -/
lemma eval_addBalance {d : Database} {c owner : Str} {n : Int} (atLeast : Option Int)
    {r : WalletRow}
    (found : d.wallets.find? (c, owner) = some r) (enough : ∀ q, atLeast = some q → q ≤ r.balance)
    (changes : n ≠ 0) :
    Query.eval d (.addBalance c owner n atLeast) =
      (.ok 1, [.wallet c owner], [.addBalance c owner n]) := by
  have hit : atLeast.all (fun q => decide (q ≤ r.balance)) = true := by
    cases atLeast with
    | none => rfl
    | some q => simpa using enough q rfl
  rw [Query.eval, found, updateRow, if_pos hit, if_pos (decide_eq_true changes)]
  rfl

variable [Interpreter] {req : Purchase} {i : InventoryRow} {b m : WalletRow}
  {oid id₁ id₂ id₃ fp payload : Str}

/-- The statements of a purchase in turn. -/
lemma does_accounts (h : Affordable w.db req i b m oid id₁ id₂ id₃) {r : RequestRow}
    (text : (newOrder req oid i).payloadText (str "paid") = .ok payload) :
    drawing.Does (accounts req .safe none oid i) ⟨id₁ :: id₂ :: id₃ :: ids,
      some [.insert (.request r)], w, l⟩ ()
      ⟨ids, some (purchaseWrites (newOrder req oid i) r
        ⟨id₁, req.caseId, oid, str "buyer", str "paid", -1 * (req.quantity * i.unitPrice)⟩
        ⟨id₂, req.caseId, oid, str "merchant", str "paid", - -1 * (req.quantity * i.unitPrice)⟩
        ⟨id₃, req.caseId, oid, str "paid", payload⟩), w, l⟩ := by
  have amount : 0 < req.quantity * i.unitPrice :=
    mul_pos (by have := req.quantity_pos; omega) h.price.1
  have quantity := req.quantity_pos
  have ids : ∀ id ∈ [oid, id₁, id₂, id₃], orderIdOk id = true := h.ids
  have taken :=
    eval_addAvailable (d := w.db.apply (.insert (.request r))) (n := -req.quantity)
      (some req.quantity) h.held.item
    (fun q same => by cases same; exact h.stock) (by omega)
  have debited :=
    eval_addBalance (d := (w.db.apply (.insert (.request r))).apply
      (.addAvailable req.caseId (-req.quantity)))
    (n := -(req.quantity * i.unitPrice)) (some (req.quantity * i.unitPrice)) h.held.buyer
    (fun q same => by cases same; exact h.funds) (by omega)
  have credited :=
    eval_addBalance (d :=
      ((w.db.apply (.insert (.request r))).apply (.addAvailable req.caseId (-req.quantity))).apply
    (.addBalance req.caseId (str "buyer") (-(req.quantity * i.unitPrice)))) (n :=
      req.quantity * i.unitPrice) none
    (h.held.merchant_after (-(req.quantity * i.unitPrice))) nofun (by omega)
  have second : (w.db.ledger.insert ⟨id₁, req.caseId, oid, str "buyer", str "paid",
    -1 * (req.quantity * i.unitPrice)⟩).find? id₂
      = none := (Table.find?_insert_of_ne h.ne).trans h.second
  refine .bind (.bind (does_execute taken) (does_require rfl)) (.bind does_checkpoint ?_)
  refine .bind (does_execute debited) (.bind (does_require rfl) (.bind does_checkpoint ?_))
  refine .bind (does_execute credited) (.bind (does_require rfl) (.bind does_checkpoint ?_))
  refine .bind (does_insert (congrArg (Option.map Row.order) h.order)) (.bind does_checkpoint ?_)
  refine .bind (.bind (does_ledger (ids id₁ (by simp)) h.first)
    (does_ledger (ids id₂ (by simp)) second)) ?_
  refine .bind does_checkpoint (.bind (a := ()) (.bind (does_lift text) ?_) does_checkpoint)
  exact .bind (does_uuid4 (ids id₃ (by simp)))
    (does_insert (congrArg (Option.map Row.event) h.event))

/-- A purchase that runs alone, with stock and funds, returns the order that it has committed. -/
lemma does_purchase (h : Affordable w.db req i b m oid id₁ id₂ id₃) : ∃ ws,
    drawing.Does (purchase req .safe none false) ⟨oid :: id₁ :: id₂ :: id₃ :: ids, none, w, l⟩
      (.created (newOrder req oid i)) ⟨ids, none, w.commit ws, l ++ [ws]⟩ ∧
    .insert (.order (newOrder req oid i)) ∈ ws := by
  obtain ⟨fp, print⟩ := req.fingerprint_ok
  have hex : ∀ id ∈ [oid, id₁, id₂, id₃], orderIdOk id = true := h.ids
  have amount : Bigint (req.quantity * i.unitPrice) :=
    amount_bigint req.quantity_pos req.quantity_le h.price.1 h.price.2
  obtain ⟨payload, text, _⟩ :=
    (newOrder req oid i).payloadText_ok (str "paid") (orderIdOk_scalar (hex oid (by simp)))
    (by
      have := req.quantity_pos; have :=
        req.quantity_le; show req.quantity.natAbs < 10 ^ 20; omega) amount (by decide)
  have free : w.db.read (Row.request ⟨req.caseId, req.key, fp, oid⟩).key = none :=
    congrArg (Option.map Row.request) h.free
  refine ⟨purchaseWrites (newOrder req oid i) ⟨req.caseId, req.key, fp, oid⟩
    ⟨id₁, req.caseId, oid, str "buyer", str "paid", -1 * (req.quantity * i.unitPrice)⟩
    ⟨id₂, req.caseId, oid, str "merchant", str "paid", - -1 * (req.quantity * i.unitPrice)⟩
    ⟨id₃, req.caseId, oid, str "paid", payload⟩, ?_, by simp [purchaseWrites]⟩
  refine Does.handled (.bind does_connect
    (.bind (does_uuid4 (hex oid (by simp))) (.bind does_trace ?_)))
  refine .finally (y := ⟨ids, some [], _, _⟩) (.handled ?_) .close
  refine .bind (does_execute rfl) (.bind (.bind (does_lift print) (.handled (does_insert free))) ?_)
  refine .bind (does_execute (a := some i)
    (by rw [Query.eval]; exact congrArg (fun x => (Except.ok x, [], [])) h.held.item)) ?_
  refine .bind (does_accounts h text) (.bind (.handled .commit) (.bind does_trace (.pure _)))

end Made

/-! ### Whole calls -/

section Whole
variable [Interpreter]

/-- A purchase or a refund. -/
def Call.Trades : Call → Prop
  | .seed _ _ _ _ => False
  | _ => True

/-- What the result of a call tells about its commit. -/
def Call.Reports (c : Call) (asked : Bool) (x : Except Raised Reply) : Prop :=
  c.Trades → ∀ e, x = .error e → Unknown asked e

/-- What is honest reports its outcome. -/
lemma Honest.reports {c : Call} (h : Honest false c.run) : Tells roomy c.Reports false c.code := by
  refine Tells.mono h fun asked x told _ e same => ?_
  subst same
  exact told

/-- Every call reports its outcome. -/
lemma code_reports (c : Call) : Tells roomy c.Reports false c.code := by
  cases c with
  | seed caseId stock balance price => exact tells_of_all fun _ _ => nofun
  | purchase req failAt lose => exact Honest.reports (attempts_honest req failAt lose 2)
  | refund caseId oid => exact Honest.reports (refund_honest caseId oid)

/-- What atomic calls are: one that has ended without asking for a commit is undone, and so is a
purchase or refund that raises anything but `CommitUnknown` while the trace has room; and a purchase
that can be made, is. -/
structure Atomic : Prop where
  early : ∀ (w : World mariadb) (s s' : System) (t : Nat), Reachable Call.code w s →
    s.tasks t = none → Quietly Call.code t s s' → s'.HasEnded t → Undone Call.code t s s'
  raised : ∀ (w : World roomy) (s s' : Config roomy Call (Except Raised Reply)) (t : Nat) (c : Call)
    (b : World roomy) (e : Raised)
    (n : Option Nat), Reachable Call.code w s → s.tasks t = none → Steps Call.code s s' → c.Trades →
    s'.tasks t = some ⟨c, b, .ret (.error e), n⟩ → (∀ m, e ≠ .commitUnknown m) →
      Undone Call.code t s s'
  created : ∀ (w : World roomy) (s : Config roomy Call (Except Raised Reply)) (t : Nat)
    (req : Purchase) (i : InventoryRow)
    (b m : WalletRow) (oid id₁ id₂ id₃ : Str), Reachable Call.code w s → s.Idle → s.tasks t = none →
    Affordable s.world.db req i b m oid id₁ id₂ id₃ →
    ∃ ws s', drawing.solo (Call.purchase req none false).code [oid, id₁, id₂, id₃] none s.world =
        some (.ok (.created (newOrder req oid i)), s.world.commit ws, [ws]) ∧
      .insert (.order (newOrder req oid i)) ∈ ws ∧ Reachable Call.code w s' ∧ s'.Idle ∧
        s'.world = s.world.commit ws ∧
      s'.tasks t = some ⟨.purchase req none false, s.world,
        .ret (.ok (.created (newOrder req oid i))), none⟩

/-- Checkouts are atomic. -/
theorem checkout_atomic : Atomic where
  early w s s' t reach free quietly ended := by
    have absent : s.Clean t := by
      have tracked :=
        reachable_tracked (P := fun _ _ _ => True) (fun _ => tells_of_all fun _ _ => trivial) reach
      exact tracked.absent t free
    exact undone_of_clean (fun runs => runs.1) reach free (Quietly.steps quietly) ended
      (Quietly.clean reach absent quietly)
  raised w s s' t c b e n reach free steps trades ended known := by
    have tracked := reachable_tracked code_reports (Steps.reachable reach steps)
    obtain ⟨asked, tells, clean⟩ := tracked.present t _ ended
    have unasked : asked = false := by
      cases asked with
      | false => rfl
      | true =>
        obtain ⟨m, same⟩ := tells trades e rfl rfl
        exact absurd same (known m)
    exact undone_of_clean (fun runs => runs.1) reach free steps ⟨c, b, _, n, ended⟩ (clean unasked)
  created w s t req i b m oid id₁ id₂ id₃ reach idle free ready := by
    obtain ⟨ws, run, made⟩ : ∃ ws, drawing.Does (Repository.purchase req .safe none false)
        ⟨[oid, id₁, id₂, id₃], none, s.world, []⟩ (.created (newOrder req oid i)) ⟨[], none,
          s.world.commit ws, [] ++ [ws]⟩ ∧
        .insert (.order (newOrder req oid i)) ∈ ws := does_purchase ready
    obtain ⟨log, same, solo⟩ := Oracle.solo_of_thread drawing run
    obtain rfl : [ws] = log := same
    have alone : drawing.solo (Call.code (.purchase req none false)) [oid, id₁, id₂,
      id₃] none s.world = some (.ok (.created (newOrder req oid i)), s.world.commit ws,
      [ws]) := solo
    obtain ⟨s', reach', idle', world, tasks, _⟩ := drawing.solo_call reach idle free alone
    refine ⟨ws, s', solo, made, reach', idle', world, ?_⟩
    rw [tasks, Function.update_self]

end Whole

section Lesson
attribute [local instance] reference

/-- The lesson's purchase, which fails once its ledger rows are written. -/
def lessonFailing : Call := .purchase lessonPurchase (some .ledger) false

def lessonIds : List Str := [uuidOf 0, uuidOf 1, uuidOf 2, uuidOf 3]

/-- What a call of the lesson does alone, with these ids. -/
def drawn (c : Call) (w : World roomy) :
    Option (Except Raised Reply × World roomy × List (List Write)) :=
  drawing.solo c.code lessonIds none w

def roomySeeded : World roomy :=
  ((drawn lessonSeed ⟨Database.empty, ()⟩).map fun x => x.2.1).getD ⟨Database.empty, ()⟩

/-- The purchase of the example is affordable. -/
lemma roomySeeded_affordable : Affordable roomySeeded.db lessonPurchase ⟨str "lesson", 3, 3, 5⟩
    ⟨str "lesson", str "buyer", 100, 100⟩ ⟨str "lesson", str "merchant", 0, 0⟩ (uuidOf 0)
      (uuidOf 1) (uuidOf 2)
    (uuidOf 3) := by
  refine ⟨⟨?_, ?_, ?_⟩, ?_, ?_, ?_, ?_, ?_, ?_, ?_, ?_, ?_, ?_⟩
  all_goals decide +kernel

/-- The start of the example is reached. -/
lemma roomySeeded_reachable : ∃ s : Config roomy Call (Except Raised Reply),
    Reachable Call.code ⟨Database.empty, ()⟩ s ∧ s.Idle ∧ s.world = roomySeeded ∧ ∀ t, 1 ≤ t →
      s.tasks t = none := by
  have seeds : (drawn lessonSeed ⟨Database.empty, ()⟩).isSome = true := by decide +kernel
  obtain ⟨⟨x, w, log⟩, run⟩ := Option.isSome_iff_exists.1 seeds
  have seeded : roomySeeded = w := by rw [roomySeeded, run]; rfl
  have start : Reachable (S := roomy) Call.code ⟨Database.empty, ()⟩ (.init ⟨Database.empty, ()⟩) :=
    .init
  obtain ⟨s, reach, idle, world, tasks, _⟩ :=
    drawing.solo_call (t := 0) start (Config.init_idle _) rfl run
  refine ⟨s, reach, idle, world.trans seeded.symm, fun t le => ?_⟩
  rw [tasks, Function.update_of_ne (by omega)]
  rfl

/-- `checkout_atomic` for a purchase that fails behind all its updates, and one that follows: the
first is undone, and the second is made from what was there before. -/
theorem checkout_atomic_lesson :
    ∃ (s₁ s₂ s₃ : Config roomy Call (Except Raised Reply)) (i : InventoryRow) (ws : List Write),
      Reachable Call.code ⟨Database.empty, ()⟩ s₁ ∧ Steps Call.code s₁ s₂ ∧
    s₂.tasks 1 = some ⟨lessonFailing, s₁.world, .ret (.error (.injected .ledger)), none⟩ ∧
      Undone Call.code 1 s₁ s₂ ∧
    s₂.world.db = s₁.world.db ∧ Reachable Call.code ⟨Database.empty, ()⟩ s₃ ∧
      s₃.world = s₂.world.commit ws ∧
    .insert (.order (newOrder lessonPurchase (uuidOf 0) i)) ∈ ws ∧ s₃.tasks 2 =
      some ⟨lessonCall, s₂.world,
        .ret (.ok (.created (newOrder lessonPurchase (uuidOf 0) i))), none⟩ := by
  obtain ⟨s₁, reach₁, idle₁, world₁, free₁⟩ := roomySeeded_reachable
  -- the purchase that fails
  have fails : (drawn lessonFailing roomySeeded).map (fun x => (x.1, x.2.2.length)) =
      some (.error (.injected .ledger), 0) := by decide +kernel
  obtain ⟨⟨x, w, log⟩, run, same⟩ := Option.map_eq_some_iff.1 fails
  obtain ⟨rfl, empty⟩ := Prod.mk.inj same
  cases List.length_eq_zero_iff.1 empty
  rw [← world₁] at run
  obtain ⟨s₂, steps, idle₂, _, tasks₂, log₂⟩ := drawing.solo_idle idle₁ (free₁ 1 le_rfl) run
  have task : s₂.tasks 1 = some ⟨lessonFailing, s₁.world,
      .ret (.error (.injected .ledger)), none⟩ := by
    rw [tasks₂, Function.update_self]
  have undone := checkout_atomic.raised _ s₁ s₂ 1 _ _ _ none reach₁ (free₁ 1 le_rfl) steps
    (show lessonFailing.Trades from trivial) task (by simp)
  have db : s₂.world.db = s₁.world.db := undone.same [] log₂ (by simp)
  -- the purchase that is made
  have ready := roomySeeded_affordable
  rw [← world₁, ← db] at ready
  have free₂ : s₂.tasks 2 = none := by
    rw [tasks₂, Function.update_of_ne (by decide)]
    exact free₁ 2 (by decide)
  obtain ⟨ws, s₃, _, made, reach₃, _, world₃, task₃⟩ :=
    checkout_atomic.created _ s₂ 2 _ _ _ _ _ _ _ _
    (Steps.reachable reach₁ steps) idle₂ free₂ ready
  exact ⟨s₁, s₂, s₃, _, ws, reach₁, steps, task, undone, db, reach₃, world₃, made, task₃⟩

/-- A refund of the order of the lesson, with room for one entry in the trace. -/
def lessonRefund : Option (Except Raised Reply × World mariadb × List (List Write)) :=
  steady.solo (Call.refund (str "lesson") (uuidOf 0)).code (4, 1) none bought

/-- The refund that runs alone is committed, and raises that the trace is full. -/
theorem refund_full : ∃ (s : System) (t : Nat) (b : World mariadb) (ws : List Write),
    Reachable Call.code schema s ∧ s.Idle ∧
      s.tasks t = some ⟨.refund (str "lesson") (uuidOf 0), b, .ret (.error traceFull), none⟩ ∧
    lessonRefund.map (fun x => x.2.1) = some s.world ∧ (t, ws) ∈ s.log ∧
    (s.world.db.orders.find? (uuidOf 0)).map OrderRow.state ≠
      (b.db.orders.find? (uuidOf 0)).map OrderRow.state := by
  obtain ⟨s, reach, idle, free, world⟩ := bought_reachable
  have test : (lessonRefund.map fun x => (x.1, x.2.2.length)) = some (.error traceFull, 1) := by
    decide +kernel
  obtain ⟨⟨x, w, log⟩, run, same⟩ := Option.map_eq_some_iff.1 test
  obtain ⟨rfl, one⟩ := Prod.mk.inj same
  obtain ⟨ws, rfl⟩ := List.length_eq_one_iff.1 one
  have solo := run
  rw [lessonRefund, ← world] at solo
  obtain ⟨s', reach', idle', world', tasks, logged⟩ :=
    steady.solo_call reach idle (free 2 le_rfl) solo
  have moved : (lessonRefund.map fun x => (x.2.1.db.orders.find? (uuidOf 0)).map OrderRow.state) =
      some (some (str "refunded")) := by decide +kernel
  rw [run, Option.map_some] at moved
  have before : (bought.db.orders.find? (uuidOf 0)).map OrderRow.state = some (str "paid") := by
    decide +kernel
  refine ⟨s', 2, s.world, ws, reach', idle', ?_, ?_, ?_, ?_⟩
  · rw [tasks, Function.update_self]
  · rw [run, world']
    rfl
  · rw [logged]
    exact List.mem_append_right _ (List.mem_singleton.2 rfl)
  · rw [world', world, before, Option.some.inj moved]
    decide

end Lesson

end DbLab.Txlab
