import DbLab.Py.Value

/-!
# The source budgets of the seed data (`budget_for`)

The seed data of five indices is asked for as one size. Each index gets the part of it that its
weight in `LAYOUT` says, apart from the third one: it gets what two percentages leave over that the
weights do not add up to. What the five parts miss the size by is here exact, for every size.
-/

namespace DbLab.Seed
open DbLab.Py

/-- The names in `INDICES`. -/
inductive Index where
  | transactions
  | webLogs
  | audit
  | commerce
  | observability
deriving DecidableEq, Repr

def indices : List Index := [.transactions, .webLogs, .audit, .commerce, .observability]

/-- A row of `LAYOUT` -/
structure Layout where
  shards : Nat
  replicas : Nat
  weight : Nat

def layout : Index → Layout
  | .transactions => ⟨12, 1, 40⟩
  | .webLogs => ⟨18, 1, 25⟩
  | .audit => ⟨8, 2, 15⟩
  | .commerce => ⟨16, 2, 12⟩
  | .observability => ⟨24, 1, 8⟩

structure Config where
  totalTargetSourceBytes : Nat

/-- `realistic.budget_for` -/
def realisticBudgetFor {α : Type} [DecidableEq α] (config : Config) (index : α) (indices : List α)
    (weights : List Nat) : Option Nat :=
  let total := config.totalTargetSourceBytes
  if indices[2]? = some index then some (total - total * 50 / 100 - total * 32 / 100)
  else do
    let k ← indices.idxOf? index
    let weight ← weights[k]?
    pure (total * weight / 100)

/-- `generate_and_load.budget_for` -/
def budgetFor (config : Config) (index : Index) : Option Nat :=
  realisticBudgetFor config index indices (indices.map fun i => (layout i).weight)

/-- `0.01` as a float -/
def smallest : Rat := 5764607523034235 / 576460752303423488

def sizeError : Exn := .valueError "--size-mb must be finite and >= 0.01 (MiB)"

/-- `config_from_args`, of the arguments that the budgets depend on: `size * 1024 * 1024` only moves
the exponent. -/
def configFromArgs (sizeMb : FloatView) : Except Exn Config :=
  match sizeMb with
  | .finite size => if size < smallest then .error sizeError else .ok ⟨⌊size * 1024 * 1024⌋.toNat⟩
  | _ => .error sizeError

/-- The loop of `documents`: the bytes of each document, one for its newline included. -/
def documents (source : Nat → Nat) (target i produced : Nat) : List Nat :=
  if produced < target then
    (source i + 1) :: documents source target (i + 1) (produced + (source i + 1))
  else []
termination_by target - produced

/-- The budgets add up to the total, and each is within a byte of its weight. -/
structure Partition (config : Config) : Prop where
  total : (indices.map fun i => (budgetFor config i).getD 0).sum = config.totalTargetSourceBytes
  rounded : ∀ index ∈ indices, ∃ budget, budgetFor config index = some budget ∧
    100 * budget ≤ config.totalTargetSourceBytes * (layout index).weight + 100 ∧
    config.totalTargetSourceBytes * (layout index).weight ≤ 100 * budget + 100

section
variable (config : Config)

/-- The audit index gets what the others leave. -/
lemma budgetFor_audit : budgetFor config .audit =
    some (config.totalTargetSourceBytes - config.totalTargetSourceBytes * 50 / 100
      - config.totalTargetSourceBytes * 32 / 100) := rfl

/-- The third index gets eighteen parts of a hundred, and not the fifteen of its weight. -/
lemma audit_share {budget : Nat} (h : budgetFor config .audit = some budget) :
    18 * config.totalTargetSourceBytes ≤ 100 * budget := by
  rw [budgetFor_audit] at h
  cases h
  omega

/-- The budgets are at least three parts of a hundred more than the total, up to the rounding of
four divisions. -/
lemma budgets_excess : 103 * config.totalTargetSourceBytes ≤
    100 * (indices.map fun i => (budgetFor config i).getD 0).sum + 4 * 99 := by
  obtain ⟨total⟩ := config
  have e : (indices.map fun i => (budgetFor ⟨total⟩ i).getD 0).sum = total * 40 / 100 +
    (total * 25 / 100
      + ((total - total * 50 / 100 - total * 32 / 100) +
        (total * 12 / 100 + (total * 8 / 100 + 0)))) := rfl
  rw [e]
  dsimp only
  omega

end

/-- Documents are written until the budget is reached. -/
lemma documents_reach (source : Nat → Nat) (target i produced : Nat) :
    target ≤ produced + (documents source target i produced).sum := by
  induction i, produced using documents.induct source target with
  | case1 i produced below ih =>
    rw [documents, if_pos below, List.sum_cons]
    omega
  | case2 i produced reached =>
    rw [documents, if_neg reached]
    simpa using reached

/-- The documents of all indices hold three parts of a hundred more than the size that was asked
for. -/
theorem documents_excess (config : Config) (source : Index → Nat → Nat) :
    103 * config.totalTargetSourceBytes ≤
    100 * (indices.map fun i => (documents (source i) ((budgetFor config i).getD 0) 0 0).sum).sum +
      4 * 99 := by
  have reach : (indices.map fun i => (budgetFor config i).getD 0).sum ≤
      (indices.map fun i => (documents (source i) ((budgetFor config i).getD 0) 0 0).sum).sum := by
    refine List.sum_le_sum fun i _ => ?_
    have := documents_reach (source i) ((budgetFor config i).getD 0) 0 0
    omega
  have excess := budgets_excess config
  omega

/-- The smallest size has bytes. -/
lemma smallest_bytes {size : Rat} (h : ¬ size < smallest) : 10485 ≤ ⌊size * 1024 * 1024⌋.toNat := by
  have floor : (10485 : Int) ≤ ⌊size * 1024 * 1024⌋ := by
    rw [Int.le_floor]
    have := not_lt.1 h
    unfold smallest at this
    push_cast
    linarith
  omega

/-- An accepted size asks for ten thousand bytes and more. -/
lemma configFromArgs_bytes {sizeMb : FloatView} {config : Config}
    (h : configFromArgs sizeMb = .ok config) :
    10485 ≤ config.totalTargetSourceBytes := by
  cases sizeMb with
  | finite size =>
    simp only [configFromArgs] at h
    split at h
    · cases h
    · rename_i enough
      cases h
      exact smallest_bytes enough
  | nan => cases h
  | inf => cases h

/-- The third budget is within a byte of its weight for small totals only. -/
lemma Partition.small {config : Config} (h : Partition config) :
    config.totalTargetSourceBytes ≤ 33 := by
  obtain ⟨budget, given, upper, _⟩ := h.rounded .audit (by decide)
  have share := audit_share config given
  have weight : (layout .audit).weight = 15 := rfl
  rw [weight] at upper
  omega

instance (config : Config) : Decidable (Partition config) :=
  decidable_of_iff
    ((indices.map fun i => (budgetFor config i).getD 0).sum = config.totalTargetSourceBytes ∧
      ∀ index ∈ indices, (budgetFor config index).any fun budget =>
        100 * budget ≤ config.totalTargetSourceBytes * (layout index).weight + 100 ∧
        config.totalTargetSourceBytes * (layout index).weight ≤ 100 * budget + 100)
    ⟨fun h => ⟨h.1, fun i mem => by simpa [Option.any_eq_true] using h.2 i mem⟩,
      fun h => ⟨h.1, fun i mem => by simpa [Option.any_eq_true] using h.2 i mem⟩⟩

/-- The budgets are a partition of three totals, none of which a size stands for. -/
theorem budgets_partition (total : Nat) :
    (Partition ⟨total⟩ ↔ total = 0 ∨ total = 1 ∨ total = 20) ∧
      ∀ sizeMb, configFromArgs sizeMb = .ok ⟨total⟩ → ¬ Partition ⟨total⟩ := by
  constructor
  · constructor
    · intro h
      have small : total ≤ 33 := h.small
      have checked : ∀ t ≤ 33, Partition ⟨t⟩ → t = 0 ∨ t = 1 ∨ t = 20 := by decide
      exact checked total small h
    · rintro (rfl | rfl | rfl) <;> decide
  · intro sizeMb accepted h
    have large := configFromArgs_bytes accepted
    have small := h.small
    dsimp only at large small
    omega

/-- A size of one hundredth of a mebibyte: 10485 bytes are asked for, and the budgets add up to
10799. -/
theorem budgets_partition_false : ∃ config, configFromArgs (.finite smallest) = .ok config ∧
    config.totalTargetSourceBytes = 10485 ∧
    (indices.map fun i => (budgetFor config i).getD 0).sum = 10799 ∧ ¬ Partition config := by
  have floor : ⌊smallest * 1024 * 1024⌋ = 10485 := by
    rw [Int.floor_eq_iff]
    norm_num [smallest]
  have accepted : configFromArgs (.finite smallest) = .ok ⟨10485⟩ := by
    rw [configFromArgs, if_neg (lt_irrefl smallest), floor]
    rfl
  exact ⟨⟨10485⟩, accepted, rfl, by decide, by decide⟩

end DbLab.Seed
