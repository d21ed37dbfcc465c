import Mathlib

/-!
# Lists up to order

A list of tagged entries is a rearrangement of the entries its owners contribute exactly when no
entry is orphaned and the entries of each owner are the ones it contributes. Also: a list is a
rearrangement of another one when it has the same length and each of its elements occurs as often in
both.
-/

namespace DbLab.Data
open List

variable {α β κ : Type}

/-- Equal lengths and equal multiplicities of the elements of one list make a permutation. -/
lemma perm_of_count [DecidableEq α] {xs ys : List α} (len : xs.length = ys.length)
    (h : ∀ x ∈ xs, xs.count x = ys.count x) : xs ~ ys := by
  have sub : xs <+~ ys := subperm_ext_iff.2 fun x m => Nat.le_of_eq (h x m)
  exact sub.perm_of_length_le (Nat.le_of_eq len.symm)

/-- Under one common tag, entries are the same up to order when their contents are. -/
lemma perm_map_snd {a : α} {l l' : List (α × β)} (h : ∀ x ∈ l, x.1 = a) (h' : ∀ x ∈ l', x.1 = a) :
    l.map Prod.snd ~ l'.map Prod.snd ↔ l ~ l' := by
  have tagged : ∀ {l : List (α × β)}, (∀ x ∈ l, x.1 = a) →
      (l.map Prod.snd).map (Prod.mk a) = l := by
    intro l h
    rw [map_map]
    have same : ∀ x ∈ l, (Prod.mk a ∘ Prod.snd) x = x := fun x m => Prod.ext (h x m).symm rfl
    exact (map_congr_left same).trans (map_id' l)
  constructor
  · intro p
    rw [← tagged h, ← tagged h']
    exact p.map _
  · exact fun p => p.map _

section Tagged
variable [DecidableEq κ] {f : β → κ} {id : α → κ} {g : α → List β}

/-- Nothing is drawn from an owner who is not there. -/
lemma filter_flatMap_of_notMem {os : List α} {k : κ} (hg : ∀ a ∈ os, ∀ b ∈ g a, f b = id a)
    (h : k ∉ os.map id) : (os.flatMap g).filter (fun b => f b = k) = [] := by
  rw [filter_eq_nil_iff]
  intro b m
  obtain ⟨a, ma, mb⟩ := mem_flatMap.1 m
  rw [hg a ma b mb, decide_eq_true_eq]
  rintro rfl
  exact h (mem_map_of_mem ma)

/-- The entries of one owner among those of all. -/
lemma filter_flatMap {os : List α} {a : α} (hg : ∀ a ∈ os, ∀ b ∈ g a, f b = id a)
    (nd : (os.map id).Nodup) (m : a ∈ os) : (os.flatMap g).filter (fun b => f b = id a) = g a := by
  induction os with
  | nil => cases m
  | cons o os ih =>
    have hgo := fun a m => hg a (mem_cons_of_mem o m)
    rw [map_cons, nodup_cons] at nd
    rw [flatMap_cons, filter_append]
    cases mem_cons.1 m with
    | inl e =>
      subst e
      rw [filter_flatMap_of_notMem hgo nd.1, append_nil, filter_eq_self]
      intro b mb
      rw [hg a mem_cons_self b mb, decide_eq_true_eq]
    | inr m =>
      have ne : id o ≠ id a := fun e => nd.1 (e ▸ mem_map_of_mem m)
      have none : (g o).filter (fun b => f b = id a) = [] := by
        rw [filter_eq_nil_iff]
        intro b mb
        rw [hg o mem_cons_self b mb, decide_eq_true_eq]
        exact ne
      rw [none, nil_append, ih hgo nd.2 m]

/-- The entries are those of their owners exactly when none is orphaned and each owner has its
own. -/
theorem perm_flatMap_iff {os : List α} {l : List β} (hg : ∀ a ∈ os, ∀ b ∈ g a, f b = id a)
    (nd : (os.map id).Nodup) :
    l ~ os.flatMap g ↔
      (∀ b ∈ l, f b ∈ os.map id) ∧ ∀ a ∈ os, l.filter (fun b => f b = id a) ~ g a := by
  constructor
  · intro p
    refine ⟨fun b m => ?_, fun a m => ?_⟩
    · obtain ⟨a, ma, mb⟩ := mem_flatMap.1 (p.mem_iff.1 m)
      rw [hg a ma b mb]
      exact mem_map_of_mem ma
    · rw [← filter_flatMap hg nd m]
      exact p.filter _
  · rintro ⟨linked, each⟩
    induction os generalizing l with
    | nil =>
      cases l with
      | nil => exact .nil
      | cons b l => exact absurd (linked b mem_cons_self) not_mem_nil
    | cons o os ih =>
      rw [map_cons, nodup_cons] at nd
      rw [flatMap_cons]
      have split : l.filter (fun b => f b = id o) ++ l.filter (fun b => !decide (f b = id o)) ~ l :=
        filter_append_perm _ l
      have rest : l.filter (fun b => !decide (f b = id o)) ~ os.flatMap g := by
        apply ih (fun a m => hg a (mem_cons_of_mem o m)) nd.2
        · intro b m
          rw [mem_filter] at m
          have mem := linked b m.1
          rw [map_cons, mem_cons] at mem
          exact mem.resolve_left (by simpa using m.2)
        · intro a m
          have ne : id o ≠ id a := fun e => nd.1 (e ▸ mem_map_of_mem m)
          rw [filter_filter]
          have same : (l.filter fun b => decide (f b = id a) && !decide (f b = id o))
              = l.filter fun b => f b = id a := by
            apply filter_congr
            intro b _
            by_cases e : f b = id a
            · simp [e, Ne.symm ne]
            · simp [e]
          rw [same]
          exact each a (mem_cons_of_mem o m)
      exact split.symm.trans ((each o mem_cons_self).append rest)

end Tagged

end DbLab.Data
