import DbLab.Galera.Workload

/-!
# What transfers do to the accounts

A database that transfers have been at: every new row of `transfer` has moved its amount once, and
nothing else has moved. The effect of one more transfer keeps it so, and with it the sum of all
balances.
-/

namespace DbLab.Galera
open DbLab.Py DbLab.Store

/-- What a transfer adds to an account. -/
def Transfer.delta (k : Int) (t : Transfer) : Int :=
  (if t.toId = k then t.amount else 0) - (if t.fromId = k then t.amount else 0)

/-- What transfers together add to an account. -/
def net (k : Int) (ts : List Transfer) : Int := (ts.map (Transfer.delta k)).sum

namespace Database

def balance (d : Database) (k : Int) : Option Int := (d.accounts.find? k).map Account.balance

def total (d : Database) : Int := (d.accounts.rows.map Account.balance).sum

/-- No account is overdrawn. -/
def Solvent (d : Database) : Prop := ∀ k b, d.balance k = some b → 0 ≤ b

/-- The accounts of `d` are those of `d₀` after the transfers that `d` has and `d₀` has not. -/
structure Moved (d₀ d : Database) : Prop where
  moves : ∃ new, d.transfers.rows = d₀.transfers.rows ++ new ∧
    ∀ k, d.balance k = (d₀.balance k).map (· + net k new)
  total : d.total = d₀.total
  solvent : d.Solvent

variable {d₀ d : Database} {k id delta b : Int} {t : Transfer}

/-- Nothing has moved at first. -/
lemma Moved.start (h : d₀.Solvent) : Moved d₀ d₀ where
  moves := by
    refine ⟨[], (List.append_nil _).symm, fun k => ?_⟩
    cases d₀.balance k with
    | none => rfl
    | some b => exact congrArg some (add_zero b).symm
  total := rfl
  solvent := h

/-- A row of `transfer` changes no balance. -/
@[simp] lemma balance_insert : (d.apply (.insert t)).balance k = d.balance k := rfl

/-- A row of `transfer` changes no total. -/
@[simp] lemma total_insert : (d.apply (.insert t)).total = d.total := rfl

/-- An update of a balance adds no row of `transfer`. -/
@[simp] lemma transfers_add : (d.apply (.add id delta)).transfers = d.transfers := rfl

/-- What an update does to the balances. -/
lemma balance_add : (d.apply (.add id delta)).balance k = if k =
    id then (d.balance k).map (· + delta) else d.balance k := by
  split
  · subst k
    rw [balance, apply, Table.find?_update_self, Option.map_map, balance, Option.map_map]
    rfl
  · rename_i other
    rw [balance, apply, Table.find?_update_of_ne _ (Ne.symm other)]
    rfl

/-- What an update does to the total. -/
lemma total_add (h : d.balance id = some b) :
    (d.apply (.add id delta)).total = d.total + delta := by
  obtain ⟨r, found, rfl⟩ := Option.map_eq_some_iff.1 h
  obtain ⟨pre, post, split, updated⟩ :=
    Table.update_rows_of_find? (f := fun r => { r with balance := r.balance + delta })
      (fun _ => rfl) found
  rw [total, apply, updated, total, split]
  simp only [List.map_append, List.map_cons, List.sum_append, List.sum_cons]
  omega

end Database

/-- The net amount with one more row. -/
lemma net_concat (k : Int) (ts : List Transfer) (t : Transfer) :
    net k (ts ++ [t]) = net k ts + t.delta k := by
  simp [net]

/-- The writes of a transfer. -/
def transferWrites (r : Request) (host : Str) : List Write :=
  [.insert (r.row host), .add r.source (-r.amount), .add r.target r.amount]

section Transfer
variable {d₀ d : Database} {r : Request} {host : Str} {b c k : Int}

/-- The source of a transfer loses the amount. -/
lemma delta_source : (r.row host).delta r.source = -r.amount := by
  simp [Transfer.delta, Request.row, r.distinct.symm]

/-- The target of a transfer gains the amount. -/
lemma delta_target : (r.row host).delta r.target = r.amount := by
  simp [Transfer.delta, Request.row, r.distinct]

/-- A transfer leaves other accounts alone. -/
lemma delta_other (source : k ≠ r.source) (target : k ≠ r.target) : (r.row host).delta k = 0 := by
  simp [Transfer.delta, Request.row, source.symm, target.symm]

/-- What the writes of a transfer do to the balances. -/
lemma transfer_balance (k : Int) : ((transferWrites r host).foldl Database.apply d).balance k =
    (d.balance k).map (· + (r.row host).delta k) := by
  simp only [transferWrites, List.foldl_cons, List.foldl_nil, Database.balance_add,
    Database.balance_insert]
  by_cases source : k = r.source
  · subst source
    rw [if_neg r.distinct, if_pos rfl, delta_source]
  · by_cases target : k = r.target
    · subst target
      rw [if_pos rfl, if_neg source, delta_target]
    · rw [if_neg target, if_neg source, delta_other source target]
      simp

/-- A transfer of what the source has keeps the accounts in order. -/
theorem Database.Moved.transfer (h : Moved d₀ d) (fresh : d.transfers.find? r.requestId = none)
    (source : d.balance r.source = some b) (rich : r.amount ≤ b)
    (target : d.balance r.target = some c) :
    Moved d₀ ((transferWrites r host).foldl Database.apply d) where
  moves := by
    obtain ⟨new, rows, balances⟩ := h.moves
    refine ⟨new ++ [r.row host], ?_, fun k => ?_⟩
    · show (d.transfers.insert (r.row host)).rows = _
      rw [Table.insert_rows fresh, rows, List.append_assoc]
    · rw [transfer_balance, balances, Option.map_map]
      refine congrArg (Option.map · (d₀.balance k)) (funext fun b => ?_)
      simp only [Function.comp_apply, net_concat, add_assoc]
  total := by
    have source' : (d.apply (.insert (r.row host))).balance r.source = some b := source
    have target' : ((d.apply (.insert (r.row host))).apply (.add r.source (-r.amount))).balance
        r.target = some c := by
      rw [Database.balance_add, if_neg (Ne.symm r.distinct), Database.balance_insert, target]
    simp only [transferWrites, List.foldl_cons, List.foldl_nil]
    rw [Database.total_add target', Database.total_add source', Database.total_insert, h.total]
    omega
  solvent := by
    intro k b' has
    rw [transfer_balance] at has
    obtain ⟨b₁, before, rfl⟩ := Option.map_eq_some_iff.1 has
    have old := h.solvent k b₁ before
    have pos := r.positive
    by_cases from_ : k = r.source
    · subst from_
      cases source.symm.trans before
      rw [delta_source]
      omega
    · by_cases to_ : k = r.target
      · subst to_
        rw [delta_target]
        omega
      · rw [delta_other from_ to_]
        omega

end Transfer

end DbLab.Galera
