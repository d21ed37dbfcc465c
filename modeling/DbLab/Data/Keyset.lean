import Mathlib

/-!
# Keyset pagination

Rows are shown page by page in decreasing order of their keys. A page is the first rows below a
bound, and the next bound is the key of the last row that was shown. The rows may differ from page
to page: whatever changes, the keys that are shown decrease, and a key that is there all along is
not missed.
-/

namespace DbLab.Keyset

variable {α K : Type} [LinearOrder K] (key : α → K)

/-- The key lies below the bound, if there is one. -/
def below : Option K → α → Bool
  | none, _ => true
  | some b, x => key x < b

/-- The rows below the bound, the highest first. -/
def found (bound : Option K) (rows : List α) : List α :=
  (rows.filter (below key bound)).insertionSort fun a b => key b ≤ key a

/-- The pages from a bound on, one for each state of the rows, and the rows that they show. -/
inductive Walk (limit : Nat) : Option K → List (List α) → List (List α) → Prop
  | last {bound rows} (all : (found key bound rows).length ≤ limit) : Walk limit bound [rows]
      [found key bound rows]
  | next {bound rows x states pages} (more : limit < (found key bound rows).length)
      (bottom : ((found key bound rows).take limit).getLast? = some x)
        (rest : Walk limit (some (key x)) states pages) :
      Walk limit bound (rows :: states) ((found key bound rows).take limit :: pages)

variable {key} {limit : Nat} {bound : Option K} {rows : List α} {states pages : List (List α)}

/-- What is found are rows below the bound. -/
lemma mem_found {x : α} : x ∈ found key bound rows ↔ x ∈ rows ∧ below key bound x = true := by
  rw [found, List.mem_insertionSort, List.mem_filter]

/-- Nothing below the bound is lost or doubled. -/
lemma found_perm : (found key bound rows).Perm (rows.filter (below key bound)) :=
  List.perm_insertionSort _ _

/-- Rows with distinct keys are found in strictly decreasing order. -/
lemma found_decreasing (bound : Option K) (distinct : (rows.map key).Nodup) :
    (found key bound rows).Pairwise fun a b => key b < key a := by
  have sorted : (found key bound rows).Pairwise fun a b => key b ≤ key a := by
    have total : Std.Total fun a b : α => key b ≤ key a := ⟨fun a b => le_total _ _⟩
    have trans : IsTrans α fun a b => key b ≤ key a := ⟨fun a b c h h' => le_trans h' h⟩
    exact List.pairwise_insertionSort _ _
  have nodup : ((found key bound rows).map key).Nodup := by
    rw [(found_perm.map key).nodup_iff]
    exact distinct.sublist (List.filter_sublist.map key)
  have apart : (found key bound rows).Pairwise fun a b => key a ≠ key b := List.pairwise_map.1 nodup
  exact (sorted.and apart).imp fun h => lt_of_le_of_ne h.1 h.2.symm

/-- A row that is shown lies above everything behind the page. -/
lemma bottom_below {x y : α} (distinct : (rows.map key).Nodup)
    (bottom : ((found key bound rows).take limit).getLast? = some x)
    (m : y ∈ (found key bound rows).take limit) :
    key x ≤ key y := by
  have order := (found_decreasing bound distinct).sublist (List.take_sublist limit _)
  obtain ⟨front, e⟩ := List.getLast?_eq_some_iff.1 bottom
  rw [e] at order m
  rcases List.mem_append.1 m with m | m
  · exact ((List.pairwise_append.1 order).2.2 _ m _ (List.mem_singleton_self x)).le
  · rw [List.mem_singleton.1 m]

/-- What is shown of a walk lies below its bound. -/
lemma Walk.shown_below (walk : Walk key limit bound states pages) :
    ∀ y ∈ pages.flatten, Keyset.below key bound y = true := by
  induction walk with
  | last all =>
    intro y m
    rw [List.flatten_singleton] at m
    exact (mem_found.1 m).2
  | @next bound rows x states pages more bottom rest ih =>
    intro y m
    rw [List.flatten_cons] at m
    rcases List.mem_append.1 m with m | m
    · exact (mem_found.1 (List.mem_of_mem_take m)).2
    · have under := ih y m
      have above := (mem_found.1 (List.mem_of_mem_take (List.mem_of_getLast? bottom))).2
      simp only [Keyset.below, decide_eq_true_eq] at under
      cases bound with
      | none => rfl
      | some b =>
        simp only [Keyset.below, decide_eq_true_eq] at above ⊢
        exact under.trans above

/-- The keys of all rows that are shown decrease strictly, whatever happens to the rows between the
pages. -/
theorem Walk.decreasing (walk : Walk key limit bound states pages)
    (distinct : ∀ rows ∈ states, (rows.map key).Nodup) :
    pages.flatten.Pairwise fun a b => key b < key a := by
  induction walk with
  | @last bound rows all =>
    rw [List.flatten_singleton]
    exact found_decreasing _ (distinct rows List.mem_cons_self)
  | @next bound rows x states pages more bottom rest ih =>
    have here := distinct rows List.mem_cons_self
    rw [List.flatten_cons, List.pairwise_append]
    refine ⟨(found_decreasing bound here).sublist (List.take_sublist _ _),
      ih fun r m => distinct r (List.mem_cons_of_mem _ m), ?_⟩
    intro a ma b mb
    have under := rest.shown_below b mb
    simp only [Keyset.below, decide_eq_true_eq] at under
    exact under.trans_le (bottom_below here bottom ma)

/-- Every row that is shown is a row of one of the states. -/
lemma Walk.mem (walk : Walk key limit bound states pages) :
    ∀ y ∈ pages.flatten, ∃ rows ∈ states, y ∈ rows := by
  induction walk with
  | @last bound rows all =>
    intro y m
    rw [List.flatten_singleton] at m
    exact ⟨rows, List.mem_cons_self, (mem_found.1 m).1⟩
  | @next bound rows x states pages more bottom rest ih =>
    intro y m
    rw [List.flatten_cons] at m
    rcases List.mem_append.1 m with m | m
    · exact ⟨rows, List.mem_cons_self, (mem_found.1 (List.mem_of_mem_take m)).1⟩
    · obtain ⟨rows', m', here⟩ := ih y m
      exact ⟨rows', List.mem_cons_of_mem _ m', here⟩

/-- A key that every state has is shown: while it is not, it lies below the bound. -/
theorem Walk.steady (walk : Walk key limit bound states pages)
    (distinct : ∀ rows ∈ states, (rows.map key).Nodup) {k : K}
    (kept : ∀ rows ∈ states, ∃ y ∈ rows, key y = k) (under : bound.elim True (k < ·)) :
    ∃ y ∈ pages.flatten, key y = k := by
  have sees : ∀ {bound : Option K} {rows : List α}, (∃ y ∈ rows, key y = k) →
    bound.elim True (k < ·) →
      ∃ y ∈ found key bound rows, key y = k := by
    intro bound rows ⟨y, m, e⟩ under
    refine ⟨y, mem_found.2 ⟨m, ?_⟩, e⟩
    cases bound with
    | none => rfl
    | some b => exact decide_eq_true (e ▸ under)
  induction walk with
  | @last bound rows all =>
    rw [List.flatten_singleton]
    exact sees (kept rows List.mem_cons_self) under
  | @next bound rows x states pages more bottom rest ih =>
    rw [List.flatten_cons]
    obtain ⟨y, m, e⟩ := sees (kept rows List.mem_cons_self) under
    have order := found_decreasing bound (distinct rows List.mem_cons_self)
    rw [← List.take_append_drop limit (found key bound rows)] at m order
    rcases List.mem_append.1 m with shown | behind
    · exact ⟨y, List.mem_append_left _ shown, e⟩
    · -- the rows that are left lie below the last one of the page
      have last := (List.pairwise_append.1 order).2.2 _ (List.mem_of_getLast? bottom) _ behind
      obtain ⟨y, m, e⟩ := ih (fun r m => distinct r (List.mem_cons_of_mem _ m))
        (fun r m => kept r (List.mem_cons_of_mem _ m)) (e ▸ last)
      exact ⟨y, List.mem_append_right _ m, e⟩

/-- What is found below the last row of a page is what the page left. -/
lemma found_behind {x : α} (distinct : (rows.map key).Nodup)
    (bottom : ((found key bound rows).take limit).getLast? = some x) :
    found key (some (key x)) rows = (found key bound rows).drop limit := by
  have order := found_decreasing bound distinct
  have whole := List.take_append_drop limit (found key bound rows)
  have parts := order
  rw [← whole] at parts
  have asymm : ∀ a b : α, key b < key a → ¬ key a < key b := fun _ _ h h' => lt_asymm h h'
  have irrefl : Std.Irrefl fun a b : α => key b < key a := ⟨fun a => lt_irrefl _⟩
  have antisymm : Std.Antisymm fun a b : α => key b < key a :=
    ⟨fun a b h h' => absurd h' (asymm _ _ h)⟩
  refine List.Pairwise.eq_of_mem_iff (found_decreasing _ distinct)
    (order.sublist (List.drop_sublist _ _)) fun y => ?_
  have up := (mem_found.1 (List.mem_of_mem_take (List.mem_of_getLast? bottom))).2
  constructor
  · intro m
    obtain ⟨mem, under⟩ := mem_found.1 m
    simp only [below, decide_eq_true_eq] at under
    have all : y ∈ found key bound rows := by
      refine mem_found.2 ⟨mem, ?_⟩
      cases bound with
      | none => rfl
      | some b =>
        simp only [below, decide_eq_true_eq] at up ⊢
        exact under.trans up
    rw [← whole] at all
    rcases List.mem_append.1 all with shown | behind
    · exact absurd under (not_lt.2 (bottom_below distinct bottom shown))
    · exact behind
  · intro m
    have mem := (mem_found.1 (List.mem_of_mem_drop m)).1
    exact mem_found.2 ⟨mem, decide_eq_true
      ((List.pairwise_append.1 parts).2.2 _ (List.mem_of_getLast? bottom) _ m)⟩

/-- Rows that stay as they are are walked through in at most one page for each of them and one
more. -/
theorem Walk.complete (positive : 0 < limit) (distinct : (rows.map key).Nodup) (bound : Option K) :
    ∃ n pages, n ≤ (found key bound rows).length + 1 ∧
      Walk key limit bound (List.replicate n rows) pages ∧
        pages.flatten = found key bound rows := by
  induction length : (found key bound
    rows).length using Nat.strong_induction_on generalizing bound with
  | _ n ih =>
    rcases Nat.lt_or_ge limit (found key bound rows).length with more | all
    · obtain ⟨x, bottom⟩ : ∃ x, ((found key bound rows).take limit).getLast? = some x := by
        cases e : ((found key bound rows).take limit).getLast? with
        | some x => exact ⟨x, rfl⟩
        | none =>
          have short := congrArg List.length (List.getLast?_eq_none_iff.1 e)
          rw [List.length_take, List.length_nil] at short
          omega
      have behind := found_behind distinct bottom
      have less : (found key (some (key x)) rows).length < n := by
        rw [behind, List.length_drop]
        omega
      obtain ⟨k, pages, few, walk, shown⟩ := ih _ less (some (key x)) rfl
      refine ⟨k + 1, (found key bound rows).take limit :: pages,
        by omega, .next more bottom walk, ?_⟩
      rw [List.flatten_cons, shown, behind, List.take_append_drop]
    · exact ⟨1, [found key bound rows], by omega, .last all, List.flatten_singleton⟩

end DbLab.Keyset
