import DbLab.Mvp.Schedule
import DbLab.Py.Exec

/-!
# What a workload admits

Whatever the pool does and whenever the run is cancelled, every operation is admitted or skipped,
once, and no more workflows are in flight than there are workers. An operation is admitted less than
an interval after it is due; when its workflow starts is up to the pool.
-/

namespace DbLab.Mvp.Simulation
open DbLab.Py

namespace Pc

/-- The operations that are neither admitted nor skipped. -/
def remaining : Pc → List Operation
  | top rest | submitting _ rest | raised rest => rest
  | waiting op rest _ | woken op rest | polling op rest _ _ | deciding op rest => op :: rest
  | draining _ | keeping _ | returned => []

/-- What is admitted and not yet submitted. -/
def pending : Pc → List Nat
  | submitting op _ => [op.number]
  | _ => []

/-- The futures found done. -/
def found : Pc → List Nat
  | polling _ _ _ done => done
  | _ => []

/-- The futures still to be awaited at the end. -/
def awaited : Pc → Option (List Nat)
  | draining todo => some todo
  | keeping _ | returned => some []
  | _ => none

end Pc

/-- What is active has not ended. -/
lemma Stage.not_ended {s : Stage} (h : s.active = true) : s.ended = false := by
  cases s with
  | queued | running => rfl
  | idle | done | failed => cases h

variable {S : Setup} {r r' : Run}

/-- Operations are numbered by their places. -/
lemma Setup.numbers (S : Setup) : S.ops.map Operation.number = List.range S.ops.length :=
  operations_numbers S.drawn

/-- An operation has its place as its number. -/
lemma Setup.number_eq {before rest : List Operation} {op : Operation}
    (h : S.ops = before ++ op :: rest) :
    op.number = before.length := by
  have numbers := S.numbers
  rw [h, List.map_append, List.map_cons] at numbers
  have place := congrArg (·[before.length]?) numbers
  rw [List.getElem?_append_right (by simp), List.length_map, Nat.sub_self, List.getElem?_cons_zero,
    List.getElem?_range (by simp)] at place
  exact Option.some.inj place

/-! ### The books -/

/-- Every operation that is not left is admitted or skipped, and the counters say how many are. -/
structure Books (S : Setup) (r : Run) : Prop where
  split : ∃ before, S.ops = before ++ r.pc.remaining
  parts : (r.admissions.map Prod.fst ++ r.skips ++ r.pc.remaining.map Operation.number).Perm
    (S.ops.map Operation.number)
  admitted : r.admitted = r.admissions.length
  skipped : r.skipped = r.skips.length
  prompt : ∀ a ∈ r.admissions, a.2 ≤ r.now ∧ ∃ op ∈ S.ops, op.number = a.1 ∧ ¬ S.Late op a.2

/-- The books at the beginning. -/
lemma Books.init : Books S S.init := ⟨⟨[], rfl⟩, .rfl, rfl, rfl, nofun⟩

/-- The scheduler moves on, with the same operations left. -/
lemma Books.move (h : Books S r) {pc : Pc} {inflight submitted : List Nat} {stage : Nat → Stage}
    (same : pc.remaining = r.pc.remaining) : Books S { r with pc, inflight, submitted, stage } where
  split := same ▸ h.split
  parts := same ▸ h.parts
  admitted := h.admitted
  skipped := h.skipped
  prompt := h.prompt

/-- What is left is skipped as a whole. -/
lemma Books.skipRest (h : Books S r) {op : Operation} {rest : List Operation}
    (left : r.pc.remaining = op :: rest) :
    Books S (r.skipRest S op rest) where
  split := ⟨S.ops, (List.append_nil _).symm⟩
  parts := by
    have parts := h.parts
    rw [left, List.append_assoc] at parts
    rw [Run.skipRest, Pc.remaining, List.map_nil, List.append_nil]
    exact parts
  admitted := h.admitted
  skipped := by
    obtain ⟨before, split⟩ := h.split
    rw [left] at split
    have number := Setup.number_eq split
    rw [Run.skipRest, List.length_append, List.length_map, ← h.skipped, number, split,
      List.length_append, Nat.add_sub_cancel_left]
  prompt := h.prompt

/-- An operation is skipped. -/
lemma Books.skip (h : Books S r) {op : Operation} {rest : List Operation}
    (left : r.pc.remaining = op :: rest) :
    Books S
      { r with pc := .top rest, skipped := r.skipped + 1, skips := r.skips ++ [op.number] } where
  split := by
    obtain ⟨before, split⟩ := h.split
    rw [left] at split
    exact ⟨before ++ [op], by rw [split, List.append_assoc]; rfl⟩
  parts := by
    have parts := h.parts
    rw [left, List.map_cons] at parts
    simpa only [Pc.remaining, List.append_assoc, List.singleton_append] using parts
  admitted := h.admitted
  skipped := by rw [List.length_append, List.length_singleton, h.skipped]
  prompt := h.prompt

/-- An operation is taken in time. -/
lemma Books.accept (h : Books S r) {op : Operation} {rest : List Operation}
    (left : r.pc.remaining = op :: rest)
    (prompt : ¬ S.Late op r.now) :
    Books S { r with
      pc := .submitting op rest
      admitted := r.admitted + 1
      admissions := r.admissions ++ [(op.number, r.now)] } := by
  obtain ⟨before, split⟩ := h.split
  rw [left] at split
  refine ⟨⟨before ++ [op], by rw [split, List.append_assoc]; rfl⟩, ?_, ?_, h.skipped, ?_⟩
  · have parts := h.parts
    rw [left, List.map_cons, List.append_assoc] at parts
    -- the operation moves from behind the skipped ones before them
    refine List.Perm.trans ?_ parts
    simp only [Pc.remaining, List.map_append, List.map_cons, List.map_nil, List.append_assoc,
      List.singleton_append]
    exact List.Perm.append_left _ List.perm_middle.symm
  · rw [List.length_append, List.length_singleton, h.admitted]
  · intro a m
    rcases List.mem_append.1 m with old | new
    · exact h.prompt a old
    · cases List.mem_singleton.1 new
      refine ⟨le_refl _, op, ?_, rfl, prompt⟩
      rw [split]
      exact List.mem_append_right _ List.mem_cons_self

/-- The books are kept by every step. -/
lemma Books.step (h : Books S r) (step : Step S r r') : Books S r' := by
  cases step with
  | tick t later =>
    refine ⟨h.split, h.parts, h.admitted, h.skipped, ?_⟩
    intro a m
    exact ⟨(h.prompt a m).1.trans later, (h.prompt a m).2⟩
  | cancel => exact ⟨h.split, h.parts, h.admitted, h.skipped, h.prompt⟩
  | begins => exact ⟨h.split, h.parts, h.admitted, h.skipped, h.prompt⟩
  | ends => exact ⟨h.split, h.parts, h.admitted, h.skipped, h.prompt⟩
  | stop pc => exact h.skipRest (by rw [pc]; rfl)
  | next pc => exact h.move (by rw [pc]; rfl)
  | last pc => exact h.move (by rw [pc]; rfl)
  | wake pc => exact h.move (by rw [pc]; rfl)
  | cancelled pc => exact h.skipRest (by rw [pc]; rfl)
  | poll pc => exact h.move (by rw [pc]; rfl)
  | ask pc => exact h.move (by rw [pc]; rfl)
  | result pc => exact h.move (by rw [pc]; rfl)
  | reap pc => exact h.move (by rw [pc]; rfl)
  | skip pc => exact h.skip (by rw [pc]; rfl)
  | accept pc _ prompt => exact h.accept (by rw [pc]; rfl) prompt
  | submit pc => exact h.move (by rw [pc]; rfl)
  | await pc => exact h.move (by rw [pc]; rfl)
  | fails pc => exact h.move (by rw [pc]; rfl)
  | keep pc => exact h.move (by rw [pc]; rfl)
  | returns pc => exact h.move (by rw [pc]; rfl)

/-! ### The pool -/

/-- The pool knows what was submitted, and the scheduler holds the future of everything that is not
done. -/
structure Pool (S : Setup) (r : Run) : Prop where
  order : r.admissions.map Prod.fst = r.submitted ++ r.pc.pending
  idle : ∀ n, r.stage n ≠ .idle ↔ n ∈ r.submitted
  futures : r.inflight.Nodup ∧ ∀ n ∈ r.inflight, n ∈ r.submitted
  reaped : ∀ n ∈ r.submitted, n ∉ r.inflight → r.stage n = .done
  room : r.inflight.length + r.pc.pending.length ≤ S.plan.workers
  found : ∀ n ∈ r.pc.found, (r.stage n).ended = true
  awaited : ∀ todo, r.pc.awaited = some todo → ∀ n ∈ r.inflight, n ∉ todo → r.stage n = .done
  starts : ∀ n t, r.startedAt n = some t → ∃ u ≤ t, (n, u) ∈ r.admissions

/-- A plan that is valid has no negative number of workers. -/
lemma Plan.operations_valid {R : Rounding} {D : Random} {p : Plan} {ops : List Operation}
    (h : p.operations R D = .ok ops) :
    0 ≤ p.workers := by
  unfold Plan.operations at h
  cases valid : p.validate R with
  | error e =>
    rw [valid] at h
    cases h
  | ok u =>
    unfold Plan.validate at valid
    split at valid
    · cases valid
    · rename_i bounded
      simp only [Plan.bounded, Bool.not_eq_true', Bool.not_eq_false, Bool.and_eq_true,
        decide_eq_true_eq] at bounded
      omega

/-- The pool at the beginning. -/
lemma Pool.init : Pool S S.init where
  order := rfl
  idle n := by simp [Setup.init]
  futures := ⟨.nil, nofun⟩
  reaped := nofun
  room := Plan.operations_valid S.drawn
  found := nofun
  awaited := nofun
  starts := nofun

/-- The scheduler moves on without touching the pool. -/
lemma Pool.move (h : Pool S r) {pc : Pc} {admitted skipped : Nat} {skips : List Nat}
    (pending : pc.pending = r.pc.pending)
    (found : ∀ n ∈ pc.found, (r.stage n).ended = true)
    (awaited : ∀ todo, pc.awaited = some todo → ∀ n ∈ r.inflight, n ∉ todo → r.stage n = .done) :
    Pool S { r with pc, admitted, skipped, skips } where
  order := by rw [pending]; exact h.order
  idle := h.idle
  futures := h.futures
  reaped := h.reaped
  room := by rw [pending]; exact h.room
  found := found
  awaited := awaited
  starts := h.starts

/-- A workflow moves to another stage: from one that is not over to one that is not idle. -/
lemma Pool.moves (h : Pool S r) {n : Nat} {stage : Stage} (active : (r.stage n).active = true)
    (on : stage ≠ .idle)
    {startedAt : Nat → Option Rat}
    (starts : ∀ m t, startedAt m = some t → ∃ u ≤ t, (m, u) ∈ r.admissions) :
    Pool S { r with stage := Function.update r.stage n stage, startedAt } where
  order := h.order
  idle m := by
    by_cases same : m = n
    · subst same
      simp only [Function.update_self]
      refine iff_of_true on ((h.idle m).1 ?_)
      intro idle
      rw [idle] at active
      cases active
    · simp only [Function.update_of_ne same]
      exact h.idle m
  futures := h.futures
  reaped m mem out := by
    have done := h.reaped m mem out
    by_cases same : m = n
    · subst same
      rw [done] at active
      cases active
    · simpa only [Function.update_of_ne same] using done
  room := h.room
  found m mem := by
    have ended := h.found m mem
    by_cases same : m = n
    · subst same
      rw [Stage.not_ended active] at ended
      cases ended
    · simpa only [Function.update_of_ne same] using ended
  awaited todo eq m mem out := by
    have done := h.awaited todo eq m mem out
    by_cases same : m = n
    · subst same
      rw [done] at active
      cases active
    · simpa only [Function.update_of_ne same] using done
  starts := starts

/-- What is done leaves the pool. -/
lemma Pool.reap (h : Pool S r) {op : Operation} {rest : List Operation} {done : List Nat}
    (pc : r.pc = .polling op rest [] done) (fine : ∀ f ∈ done, r.stage f ≠ .failed) :
    Pool S { r with pc := .deciding op rest, inflight := r.inflight.filter (· ∉ done) } where
  order := by rw [h.order, pc]; rfl
  idle := h.idle
  futures := ⟨h.futures.1.filter _, fun n m => h.futures.2 n (List.mem_of_mem_filter m)⟩
  reaped n mem out := by
    by_cases held : n ∈ r.inflight
    · have found : n ∈ done := by
        by_contra open_
        exact out (List.mem_filter.2 ⟨held, by simpa using open_⟩)
      have ended := h.found n (by rw [pc]; exact found)
      have ok := fine n found
      cases st : r.stage n with
      | done => rfl
      | failed => exact absurd st ok
      | idle | queued | running =>
        rw [st] at ended
        cases ended
    · exact h.reaped n mem held
  room := by
    have room := h.room
    rw [pc] at room
    have fewer := List.length_filter_le (· ∉ done) r.inflight
    simp only [Pc.pending, List.length_nil] at room ⊢
    omega
  found := nofun
  awaited := nofun
  starts := h.starts

/-- What is taken has room in the pool. -/
lemma Pool.accept (h : Pool S r) {op : Operation} {rest : List Operation}
    (pc : r.pc = .deciding op rest)
    (room : r.inflight.length < S.plan.workers) :
    Pool S { r with
      pc := .submitting op rest
      admitted := r.admitted + 1
      admissions := r.admissions ++ [(op.number, r.now)] } where
  order := by
    have order := h.order
    rw [pc] at order
    change _ = r.submitted ++ [] at order
    rw [List.map_append, order, List.append_nil]
    rfl
  idle := h.idle
  futures := h.futures
  reaped := h.reaped
  room := by
    simp only [Pc.pending, List.length_singleton]
    omega
  found := nofun
  awaited := nofun
  starts n t start := by
    obtain ⟨u, before, m⟩ := h.starts n t start
    exact ⟨u, before, List.mem_append_left _ m⟩

/-- An operation is given to the pool once. -/
lemma Pool.submit (h : Pool S r) (books : Books S r) {op : Operation} {rest : List Operation}
    (pc : r.pc = .submitting op rest) :
    Pool S { r with
      pc := .top rest
      stage := Function.update r.stage op.number .queued
      inflight := r.inflight ++ [op.number]
      submitted := r.submitted ++ [op.number] } := by
  have order := h.order
  rw [pc] at order
  have nodup : (r.submitted ++ [op.number]).Nodup := by
    have all : (S.ops.map Operation.number).Nodup := S.numbers ▸ List.nodup_range
    have parts := books.parts.nodup_iff.2 all
    rw [order] at parts
    exact (List.nodup_append.1 (List.nodup_append.1 parts).1).1
  have fresh : op.number ∉ r.submitted :=
    fun m => (List.nodup_append.1 nodup).2.2 _ m _ List.mem_cons_self rfl
  refine ⟨?_, ?_, ⟨?_, ?_⟩, ?_, ?_, nofun, nofun, h.starts⟩
  · rw [order]
    exact (List.append_nil _).symm
  · intro n
    by_cases same : n = op.number
    · subst same
      simp
    · simp only [Function.update_of_ne same, List.mem_append, List.mem_singleton, same, or_false]
      exact h.idle n
  · refine List.nodup_append.2 ⟨h.futures.1, List.nodup_singleton _, ?_⟩
    intro a held b new same
    cases List.mem_singleton.1 new
    exact fresh (same ▸ h.futures.2 a held)
  · intro n m
    rcases List.mem_append.1 m with held | new
    · exact List.mem_append_left _ (h.futures.2 n held)
    · exact List.mem_append_right _ new
  · intro n m out
    have other : n ≠ op.number := by
      rintro rfl
      exact out (List.mem_append_right _ List.mem_cons_self)
    rcases List.mem_append.1 m with old | new
    · simp only [Function.update_of_ne other]
      exact h.reaped n old fun held => out (List.mem_append_left _ held)
    · exact absurd (List.mem_singleton.1 new) other
  · have room := h.room
    rw [pc] at room
    simp only [Pc.pending, List.length_append, List.length_singleton, List.length_nil] at room ⊢
    omega

/-- The pool is kept by every step. -/
lemma Pool.step (books : Books S r) (h : Pool S r) (step : Step S r r') : Pool S r' := by
  cases step with
  | tick => exact ⟨h.order, h.idle, h.futures, h.reaped, h.room, h.found, h.awaited, h.starts⟩
  | cancel => exact ⟨h.order, h.idle, h.futures, h.reaped, h.room, h.found, h.awaited, h.starts⟩
  | begins n queued free =>
    refine h.moves (by rw [queued]; rfl) (show Stage.running ≠ .idle from nofun) ?_
    intro m t start
    by_cases same : m = n
    · subst same
      rw [Function.update_self, Option.some_inj] at start
      subst start
      have given : m ∈ r.admissions.map Prod.fst := by
        rw [h.order]
        exact List.mem_append_left _ ((h.idle m).1 (by rw [queued]; nofun))
      obtain ⟨a, ma, rfl⟩ := List.mem_map.1 given
      exact ⟨a.2, (books.prompt a ma).1, ma⟩
    · rw [Function.update_of_ne same] at start
      exact h.starts m t start
  | ends n running ok =>
    refine h.moves (by rw [running]; rfl) ?_ h.starts
    cases ok <;> nofun
  | stop pc | cancelled pc =>
    refine h.move (by rw [pc]; rfl) nofun ?_
    rintro todo ⟨⟩ n m out
    exact absurd m out
  | next pc | wake pc | poll pc | skip pc => exact h.move (by rw [pc]; rfl) nofun nofun
  | last pc =>
    refine h.move (by rw [pc]; rfl) nofun ?_
    rintro todo ⟨⟩ n m out
    exact absurd m out
  | @ask op rest f todo done pc =>
    refine h.move (by rw [pc]; rfl) ?_ nofun
    have found := h.found
    rw [pc] at found
    intro n m
    simp only [Pc.found] at m found
    split at m
    · rename_i ended
      rcases List.mem_append.1 m with old | new
      · exact found n old
      · cases List.mem_singleton.1 new
        exact ended
    · exact found n m
  | result pc => exact h.move (by rw [pc]; rfl) nofun nofun
  | reap pc fine => exact h.reap pc fine
  | accept pc room => exact h.accept pc room
  | submit pc => exact h.submit books pc
  | @await f todo pc done =>
    refine h.move (by rw [pc]; rfl) nofun ?_
    rintro _ ⟨⟩ n m out
    by_cases same : n = f
    · rw [same]
      exact done
    · refine h.awaited (f :: todo) (by rw [pc]; rfl) n m ?_
      exact fun mem => (List.mem_cons.1 mem).elim same out
  | fails pc => exact h.move (by rw [pc]; rfl) nofun nofun
  | keep pc =>
    refine h.move (by rw [pc]; rfl) nofun ?_
    rintro _ ⟨⟩
    exact h.awaited [] (by rw [pc]; rfl)
  | returns pc =>
    refine h.move (by rw [pc]; rfl) nofun ?_
    rintro _ ⟨⟩
    exact h.awaited [] (by rw [pc]; rfl)

/-- Whatever happens, the books are right and the pool is known. -/
theorem Reachable.sound (h : Reachable S r) : Books S r ∧ Pool S r := by
  induction h with
  | init => exact ⟨.init, .init⟩
  | step _ step ih => exact ⟨ih.1.step step, ih.2.step ih.1 step⟩

/-- What is active is in flight. -/
lemma Pool.active_held (h : Pool S r) {n : Nat} (active : (r.stage n).active = true) :
    n ∈ r.inflight := by
  by_contra out
  have given : n ∈ r.submitted := by
    apply (h.idle n).1
    intro idle
    rw [idle] at active
    cases active
  rw [h.reaped n given out] at active
  cases active

/-- No more are active than there are workers. -/
lemma Pool.count_le (h : Pool S r) : S.count r Stage.active ≤ S.plan.workers := by
  have nodup : (S.ops.map Operation.number).Nodup := S.numbers ▸ List.nodup_range
  have held : (S.ops.map Operation.number).filter (fun n => (r.stage n).active) ⊆ r.inflight :=
    fun n m => h.active_held (List.mem_filter.1 m).2
  have fewer := ((nodup.filter _).subperm held).length_le
  have room := h.room
  rw [Setup.count, List.countP_eq_length_filter]
  omega

/-- What is not late is less than one slot behind. -/
lemma Setup.prompt {op : Operation} {t : Rat} (h : ¬ S.Late op t) :
    t - S.due op < 1 / S.plan.rate.value := by
  by_contra late
  exact h (S.R.mono (not_lt.1 late))

/-- An operation is admitted or skipped, never both and never twice; when the scheduler returns each
one is; never more workflows are in flight than there are workers; an operation is admitted less
than an interval after it is due, and its workflow starts some time after that. -/
theorem admission (S : Setup) {r : Run} (h : Reachable S r) :
    (r.admissions.map Prod.fst ++ r.skips).Nodup ∧
    (r.pc = .returned → r.admitted + r.skipped = S.ops.length ∧
      (r.admissions.map Prod.fst ++ r.skips).Perm (S.ops.map Operation.number)) ∧
    r.admitted = r.admissions.length ∧ r.skipped = r.skips.length ∧
    S.count r Stage.active ≤ S.plan.workers ∧
    (∀ a ∈ r.admissions, ∃ op ∈ S.ops, op.number = a.1 ∧ a.2 - S.due op < 1 / S.plan.rate.value) ∧
    ∀ n t, r.startedAt n = some t → ∃ u ≤ t, (n, u) ∈ r.admissions := by
  obtain ⟨books, pool⟩ := h.sound
  have nodup : (S.ops.map Operation.number).Nodup := S.numbers ▸ List.nodup_range
  refine ⟨(List.nodup_append.1 (books.parts.nodup_iff.2 nodup)).1, ?_, books.admitted,
    books.skipped, pool.count_le, ?_, pool.starts⟩
  · intro returned
    have parts := books.parts
    rw [returned, Pc.remaining, List.map_nil, List.append_nil] at parts
    refine ⟨?_, parts⟩
    have length := parts.length_eq
    rw [List.length_append, List.length_map, List.length_map] at length
    rw [books.admitted, books.skipped]
    exact length
  · intro a m
    obtain ⟨op, mem, number, prompt⟩ := (books.prompt a m).2
    exact ⟨op, mem, number, Setup.prompt prompt⟩

/-! ### A late start -/

namespace Slow

/-- No rounding. -/
def exact_ : Rounding := ⟨id, monotone_id⟩

def random : Random := ⟨fun _ _ => .read, fun _ _ => 0, fun _ lo _ => lo⟩

def plan : Plan := ⟨.baseline, 42, 15, .int 1, 1, 8, 10, 90, .mixed⟩

def ops : List Operation := (List.range 15).map (plan.operation exact_ random)

/-- The plan of the demonstration is valid. -/
lemma valid : plan.validate exact_ = .ok () := by
  have test : passes (plan.validate exact_) (fun _ => true) = true := by decide +kernel
  exact (ok_of_test test).choose_spec.1

/-- The operations of the demonstration. -/
lemma drawn : plan.operations exact_ random = .ok ops := by
  have count : ⌊plan.planned exact_⌋.toNat = 15 := by decide +kernel
  rw [Plan.operations, valid, count]
  rfl

def setup : Setup := ⟨exact_, random, plan, ops, drawn, 0⟩

def first : Operation := plan.operation exact_ random 0

/-- The first operation is admitted in time, but a thread takes it five seconds later. -/
def started : Run where
  now := 5
  cancelled := false
  stage := Function.update (Function.update (fun _ => .idle) 0 .queued) 0 .running
  pc := .top ops.tail
  inflight := [0]
  admitted := 1
  skipped := 0
  admissions := [(0, 0)]
  skips := []
  submitted := [0]
  startedAt := Function.update (fun _ => none) 0 (some 5)

/-- The demonstration gets as far as its first operation. -/
lemma started_reachable : Reachable setup started := by
  have top : Reachable setup setup.init := .init
  have waiting :=
    top.step (.next (show setup.init.pc = .top (first :: ops.tail) from rfl) rfl
      (by decide +kernel))
  have woken := waiting.step (.wake rfl (.inr (by decide +kernel)))
  have polling := woken.step (.poll rfl rfl)
  have deciding := polling.step (.reap rfl nofun)
  have submitting := deciding.step (.accept rfl (by decide) (by decide +kernel))
  have queued := submitting.step (.submit rfl)
  have later := queued.step (.tick 5 (by decide +kernel))
  exact later.step (.begins 0 rfl (by decide))

/-- The run is cancelled after that: everything else is skipped. -/
def stopped : Run :=
  { started with
    cancelled := true
    stage := Function.update started.stage 0 .done
    pc := .returned
    skipped := 14
    skips := (List.range 15).tail }

/-- The demonstration gets as far as its end. -/
lemma stopped_reachable : Reachable setup stopped := by
  have done := started_reachable.step (.ends 0 rfl true)
  have cancelled := done.step .cancel
  have draining :=
    cancelled.step (.stop (show started.pc =
      .top (ops.tail.head (by decide) :: ops.tail.tail) from rfl) (.inl rfl))
  have empty := draining.step (.await (show _ = Pc.draining [0] from rfl) rfl)
  have keeping := empty.step (.keep rfl)
  exact keeping.step (.returns
    (show _ = Pc.keeping (setup.wake setup.finish 5) from rfl) (.inl rfl))

/-- `admission` for a run that is stopped early. -/
theorem admission_stopped : stopped.admitted + stopped.skipped = 15 ∧
    (stopped.admissions.map Prod.fst ++ stopped.skips).Perm (ops.map Operation.number) :=
  (admission setup stopped_reachable).2.1 rfl

/-- A workflow that starts four intervals and more after it should have. -/
theorem admission_late : Reachable setup started ∧ first ∈ setup.ops ∧
    started.startedAt first.number = some 5 ∧ setup.due first + 1 / setup.plan.rate.value ≤ 5 :=
  ⟨started_reachable, List.mem_cons_self, rfl, by decide +kernel⟩

end Slow

end DbLab.Mvp.Simulation
