import DbLab.Txlab.Bookkeeping
import DbLab.Txlab.Oracle
import DbLab.Txlab.Repository
import DbLab.Store.Soundness

/-!
# What every checkout maintains

The invariant of the lab's database: each case has no rows or is consistent with ordinary numbers
and texts. A seed, a purchase and a refund that commit keep it. Whatever commits, fixtures, claims
and orders stay, but for the stock of a fixture and the state of an order.
-/

namespace DbLab.Txlab
open DbLab.Py DbLab.Store

/-! ### The rows of a case -/

/-- The rows of a case, in the order of their insertion. -/
def Database.ofCase (d : Database) (c : Str) : Snapshot where
  inventory := d.inventory.rows.filter fun r => r.caseId = c
  wallets := d.wallets.rows.filter fun r => r.caseId = c
  requests := d.requests.rows.filter fun r => r.caseId = c
  orders := d.orders.rows.filter fun r => r.caseId = c
  ledger := d.ledger.rows.filter fun r => r.caseId = c
  events := d.events.rows.filter fun r => r.caseId = c

section Filter
variable {R : Type} {f : R → Str} {c : Str}

/-- A row of the case is added. -/
lemma filter_append_own {r : R} (rs : List R) (own : f r = c) :
    (rs ++ [r]).filter (fun r => f r = c) = rs.filter (fun r => f r = c) ++ [r] := by
  rw [List.filter_append, List.filter_cons_of_pos (by simpa using own), List.filter_nil]

/-- A row of another case does not matter. -/
lemma filter_append_other {r : R} (rs : List R) (other : f r ≠ c) :
    (rs ++ [r]).filter (fun r => f r = c) = rs.filter (fun r => f r = c) := by
  rw [List.filter_append, List.filter_cons_of_neg (by simpa using other), List.filter_nil,
    List.append_nil]

/-- A row of the case changes. -/
lemma filter_change_own {r : R} (pre post : List R) (own : f r = c) :
    (pre ++ r :: post).filter (fun r => f r = c) =
      pre.filter (fun r => f r = c) ++ r :: post.filter (fun r => f r = c) := by
  rw [List.filter_append, List.filter_cons_of_pos (by simpa using own)]

/-- A row of another case does not matter. -/
lemma filter_change_other {r r' : R} (pre post : List R) (other : f r ≠ c) (other' : f r' ≠ c) :
    (pre ++ r :: post).filter (fun r => f r = c) =
      (pre ++ r' :: post).filter (fun r => f r = c) := by
  rw [List.filter_append, List.filter_append, List.filter_cons_of_neg (by simpa using other),
    List.filter_cons_of_neg (by simpa using other')]

end Filter

/-! ### Fixtures, claims and orders stay -/

/-- What stays of a database. -/
structure Database.Grows (d d' : Database) : Prop where
  inventory : ∀ i ∈ d.inventory.rows, ∃ i' ∈ d'.inventory.rows,
    i'.caseId = i.caseId ∧ i'.initialQty = i.initialQty ∧ i'.unitPrice = i.unitPrice
  requests : ∀ r ∈ d.requests.rows, r ∈ d'.requests.rows
  orders : ∀ o ∈ d.orders.rows, ∃ o' ∈ d'.orders.rows, o'.id = o.id ∧ o'.caseId = o.caseId ∧
    o'.requestKey = o.requestKey ∧ o'.quantity = o.quantity ∧ o'.amount = o.amount

namespace Database
variable {d d' d'' : Database}

/-- The database is no smaller than itself. -/
lemma Grows.refl (d : Database) : d.Grows d :=
  ⟨fun i m => ⟨i, m, rfl, rfl, rfl⟩, fun _ m => m, fun o m => ⟨o, m, rfl, rfl, rfl, rfl, rfl⟩⟩

/-- Growth composes. -/
lemma Grows.trans (h : d.Grows d') (h' : d'.Grows d'') : d.Grows d'' := by
  refine ⟨?_, fun r m => h'.requests r (h.requests r m), ?_⟩
  · intro i m
    obtain ⟨j, mj, c, q, p⟩ := h.inventory i m
    obtain ⟨k, mk, c', q', p'⟩ := h'.inventory j mj
    exact ⟨k, mk, c'.trans c, q'.trans q, p'.trans p⟩
  · intro o m
    obtain ⟨j, mj, id, c, k, q, a⟩ := h.orders o m
    obtain ⟨o', mo, id', c', k', q', a'⟩ := h'.orders j mj
    exact ⟨o', mo, id'.trans id, c'.trans c, k'.trans k, q'.trans q, a'.trans a⟩

/-- A key that is free has always been. -/
lemma Grows.free {k : Str × Str} (g : d.Grows d') (h : d'.requests.find? k = none) :
    d.requests.find? k = none :=
  Table.find?_eq_none.2 fun r mr => Table.find?_eq_none.1 h r (g.requests r mr)

/-- Inserting a row only grows the database. -/
lemma grows_insert (d : Database) (r : Row) : d.Grows (d.insert r) := by
  have same := Grows.refl d
  cases r with
  | inventory r =>
    exact ⟨fun i m => ⟨i, Table.mem_insert m, rfl, rfl, rfl⟩, same.requests, same.orders⟩
  | request r => exact ⟨same.inventory, fun _ m => Table.mem_insert m, same.orders⟩
  | order r =>
    exact ⟨same.inventory, same.requests,
      fun o m => ⟨o, Table.mem_insert m, rfl, rfl, rfl, rfl, rfl⟩⟩
  | wallet r | ledger r | event r => exact ⟨same.inventory, same.requests, same.orders⟩

/-- No write takes back a fixture, a claim or an order. -/
lemma grows_apply (d : Database) (w : Write) : d.Grows (d.apply w) := by
  have same := Grows.refl d
  cases w with
  | insert r => exact grows_insert d r
  | setAvailable c n | addAvailable c n =>
    refine ⟨fun i m => ⟨_, List.mem_map_of_mem m, ?_⟩, same.requests, same.orders⟩
    split
    · exact ⟨rfl, rfl, rfl⟩
    · exact ⟨rfl, rfl, rfl⟩
  | addBalance c owner n => exact ⟨same.inventory, same.requests, same.orders⟩
  | setState id state =>
    refine ⟨same.inventory, same.requests, fun o m => ⟨_, List.mem_map_of_mem m, ?_⟩⟩
    split
    · exact ⟨rfl, rfl, rfl, rfl, rfl⟩
    · exact ⟨rfl, rfl, rfl, rfl, rfl⟩

/-- Any number of writes only grow the database. -/
lemma grows_foldl (d : Database) (ws : List Write) : d.Grows (ws.foldl apply d) := by
  induction ws generalizing d with
  | nil => exact .refl d
  | cons w ws ih => exact (grows_apply d w).trans (ih _)

end Database

/-! ### The invariant -/

/-- An order id is a text. -/
lemma orderIdOk_scalar {id : Str} (h : orderIdOk id = true) : Text id := by
  simp only [orderIdOk, Bool.and_eq_true, List.all_eq_true, Bool.or_eq_true, decide_eq_true_eq] at h
  intro c m
  rcases h.2 c m with digit | lower
  · exact digit_scalar digit
  · exact ascii_scalar (by omega)

/-- Numbers and texts of a case as `seed`, `purchase` and `refund` make them. -/
structure Tidy (s : Snapshot) (i : InventoryRow) (b m : WalletRow) : Prop where
  caseId : caseIdOk i.caseId = true
  initialQty : i.initialQty ≤ 1000000
  unitPrice : i.unitPrice ≤ 1000000
  buyer : b.initialBalance ≤ 1000000
  merchant : m.initialBalance = 0
  orders : ∀ o ∈ s.orders, orderIdOk o.id = true ∧ keyOk o.requestKey = true ∧ o.quantity ≤ 20
  ledger : ∀ l ∈ s.ledger, orderIdOk l.id = true
  events : ∀ e ∈ s.events, orderIdOk e.id = true ∧ Text e.payload

variable [Interpreter]

/-- A case without rows, or one whose books are kept. -/
def Snapshot.Kept (s : Snapshot) : Prop :=
  s = ⟨[], [], [], [], [], []⟩ ∨ ∃ i b m, Consistent s i b m ∧ Tidy s i b m

/-- The books of all cases are kept. -/
def Database.Books (d : Database) : Prop := ∀ c, (d.ofCase c).Kept

/-- The contract of the repository. -/
def lab : Contract mariadb where
  Inv := fun w => Database.Books w.db
  Guar := fun w w' => Database.Grows w.db w'.db
  refl := fun w => .refl w.db
  trans := .trans
  runs := by
    rintro q w ws r d' ks ws' inv ⟨rfl, _⟩
    exact ⟨inv, .refl _⟩
  drifts := nofun

end DbLab.Txlab
