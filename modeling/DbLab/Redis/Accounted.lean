import DbLab.Redis.Accounting

/-!
# What a workload reports

The scheduler offers a slot at most once and less than an interval after it is due, and when
`exercise` returns every offered job is in one of the counters. The slot after those that were
skipped is found by a division of floats, and its due time is rounded anew, so that it can be missed
by as much as these roundings.
-/

namespace DbLab.Redis.Load
open DbLab.Py DbLab.Proc

/-! ### The slots -/

/-- The slot is due, and has been for less than an interval. -/
def Setup.Slot (S : Setup) (n : Nat) (now : Rat) : Prop :=
  S.due n ≤ now ∧ now < S.due n + S.interval

/-- What rounding makes of the due time of a slot, and more. -/
def Setup.slack (S : Setup) (n : Nat) : Rat := (|S.start| + (n + 1) * S.interval) / 2 ^ 49

/-- A slot is offered when the clock is in it, up to rounding if slots were skipped for it. -/
structure Offer.Prompt (S : Setup) (o : Offer) : Prop where
  exact_ : o.behind = 0 → S.Slot o.slot o.now
  lower : S.due o.slot - S.slack o.slot ≤ o.now
  upper : o.now < S.due o.slot + S.interval + S.slack o.slot

/-- A value that is accepted is in range. -/
lemma checkRange_ok {name : String} {value : Rat} {lo hi : Nat}
    (h : checkRange name value lo hi = .ok ()) :
    lo ≤ value ∧ value ≤ hi := by
  unfold checkRange at h
  split_ifs at h with range
  exact range

/-- The rate and the workers are positive. -/
lemma Setup.bounds (S : Setup) : 1 ≤ S.rate ∧ 1 ≤ S.workers := by
  have valid := S.valid
  obtain ⟨_, _, valid⟩ := bind_ok.1 valid
  obtain ⟨_, rate, valid⟩ := bind_ok.1 valid
  obtain ⟨_, workers, _⟩ := bind_ok.1 valid
  have rate := (checkRange_ok rate).1
  have workers := (checkRange_ok workers).1
  exact ⟨by exact_mod_cast rate, by exact_mod_cast workers⟩

/-- The interval is positive. -/
lemma Setup.interval_pos (S : Setup) : 0 < S.interval := by
  have rate := S.bounds.1
  exact double_pos (one_div_pos.2 (by linarith))

/-- The interval is a double. -/
lemma Setup.interval_double (S : Setup) : double S.interval = S.interval := by
  have rate := S.bounds.1
  exact double_double (one_div_pos.2 (by linarith))

/-- Two roundings make the due time of a slot. -/
lemma Setup.due_error (S : Setup) (n : Nat) :
    |S.due n - (S.start + n * S.interval)| ≤ 3 * (|S.start| + n * S.interval) / 2 ^ 53 := by
  have nonneg : (0 : Rat) ≤ n * S.interval := mul_nonneg (by positivity) S.interval_pos.le
  have product := abs_double_sub (n * S.interval)
  have sum := abs_double_sub (S.start + double (n * S.interval))
  have parts := abs_add_le S.start (double (n * S.interval))
  rw [abs_of_nonneg nonneg] at product
  rw [abs_of_nonneg (double_nonneg_iff.2 nonneg)] at parts
  rw [abs_le] at product sum ⊢
  rw [due]
  constructor <;> linarith [abs_nonneg S.start]

/-- The clock is in the slot that it is not behind. -/
lemma Setup.slot_inTime (S : Setup) {n : Nat} {now : Rat} (due : S.due n ≤ now)
    (inTime : S.behind now (S.due n) = 0) :
    S.Slot n now := by
  have interval := S.interval_pos
  have less : double (double (now - S.due n) / S.interval) < 1 := by
    rw [behind, Int.toNat_eq_zero] at inTime
    by_contra late
    have whole := Int.floor_mono (not_lt.1 late)
    rw [Int.floor_one] at whole
    omega
  have one : (1 : Rat) = double 1 := by
    have kept := double_nat (m := 1) (by norm_num)
    rw [Nat.cast_one] at kept
    exact kept.symm
  rw [one] at less
  have quotient := lt_of_double_lt less
  rw [div_lt_one interval, ← S.interval_double] at quotient
  have late := lt_of_double_lt quotient
  exact ⟨due, by linarith⟩

/-- The number of slots that the clock is behind, up to rounding. -/
lemma Setup.behind_bounds (S : Setup) {now due : Rat} (past : due ≤ now) :
    S.behind now due * S.interval ≤ (now - due) * (1 + 3 / 2 ^ 53) ∧
      now - due < (S.behind now due + 1) * S.interval * (1 + 4 / 2 ^ 53) := by
  have interval := S.interval_pos
  have late : 0 ≤ now - due := sub_nonneg.2 past
  have late' : 0 ≤ double (now - due) := double_nonneg_iff.2 late
  have difference := abs_double_sub (now - due)
  have quotient := abs_double_sub (double (now - due) / S.interval)
  rw [abs_of_nonneg late, abs_le] at difference
  rw [abs_of_nonneg (div_nonneg late' interval.le), abs_le] at quotient
  have whole : ((S.behind now due : Nat) : Rat) = ⌊double (double (now - due) / S.interval)⌋ := by
    have nonneg : 0 ≤ double (double (now - due) / S.interval) :=
      double_nonneg_iff.2 (div_nonneg late' interval.le)
    rw [behind]
    exact_mod_cast congrArg (Int.cast (R := Rat)) (Int.toNat_of_nonneg (Int.floor_nonneg.2 nonneg))
  have low := Int.floor_le (double (double (now - due) / S.interval))
  have high := Int.lt_floor_add_one (double (double (now - due) / S.interval))
  rw [← whole] at low high
  -- in intervals
  have same : double (now - due) / S.interval * S.interval = double (now - due) :=
    div_mul_cancel₀ _ interval.ne'
  have below : S.behind now due * S.interval ≤ double (now - due) * (1 + 1 / 2 ^ 53) := by
    calc S.behind now due * S.interval
        ≤ double (now - due) / S.interval * (1 + 1 / 2 ^ 53) * S.interval :=
          mul_le_mul_of_nonneg_right (by linarith) interval.le
      _ = double (now - due) * (1 + 1 / 2 ^ 53) := by rw [mul_right_comm, same]
  have above : double (now - due) * (1 - 1 / 2 ^ 53) < (S.behind now due + 1) * S.interval := by
    calc double (now - due) * (1 - 1 / 2 ^ 53)
        = double (now - due) / S.interval * (1 - 1 / 2 ^ 53) * S.interval := by
          rw [mul_right_comm, same]
      _ < (S.behind now due + 1) * S.interval := mul_lt_mul_of_pos_right (by linarith) interval
  constructor <;> linarith

/-- After the slots that are behind comes the one that the clock is in, up to rounding. -/
lemma Setup.slot_behind (S : Setup) {n : Nat} {now : Rat} (due : S.due n ≤ now) :
    Offer.Prompt S ⟨n + S.behind now (S.due n), now, S.behind now (S.due n)⟩ := by
  obtain ⟨low, high⟩ := S.behind_bounds due
  have interval := S.interval_pos
  have here := S.due_error n
  have there := S.due_error (n + S.behind now (S.due n))
  have slots : (0 : Rat) ≤ n * S.interval := mul_nonneg (by positivity) interval.le
  have skipped : (0 : Rat) ≤ S.behind now (S.due n) * S.interval :=
    mul_nonneg (by positivity) interval.le
  have start := abs_nonneg S.start
  rw [abs_le] at here there
  push_cast at there
  rw [add_mul] at there high
  refine ⟨fun none => ?_, ?_, ?_⟩
  · dsimp only at none ⊢
    rw [none]
    exact S.slot_inTime due none
  · dsimp only
    rw [slack]
    push_cast
    rw [add_mul, add_mul]
    linarith
  · dsimp only
    rw [slack]
    push_cast
    rw [add_mul, add_mul]
    linarith

/-- At ten a second, six tenths are five slots behind the second slot, and a little before the
seventh. -/
example (S : Setup) (rate : S.rate = 10) (start : S.start = 0) :
    S.behind (double (3 / 5)) (S.due 1) = 5 ∧ double (3 / 5) < S.due 6 := by
  rw [Setup.behind, Setup.due, Setup.due, Setup.interval, rate, start]
  decide +kernel

/-! ### The scheduler -/

variable {S : Setup} {s s' : Shared} {c c' : Scheduler} {r r' : Run} {e : Event}

namespace Phase

/-- `stop` is set. -/
def halted : Phase → Bool
  | joining | returned | raised => true
  | _ => false

/-- A slot is counted as offered, and not yet as enqueued or dropped. -/
def pending : Phase → Bool
  | putting _ _ | counting _ _ => true
  | _ => false

/-- A job is in the queue or taken, and not yet counted. -/
def uncounted : Phase → Bool
  | counting _ key => key = .enqueued
  | _ => false

/-- Where the scheduler may be. -/
def Sound (S : Setup) (sequence : Nat) : Phase → Prop
  | skipping now behind => Offer.Prompt S ⟨sequence + behind, now, behind⟩
  | offering now behind => Offer.Prompt S ⟨sequence, now, behind⟩
  | counting _ key => key = .enqueued ∨ key = .queueDropped
  | _ => True

end Phase

structure Scheduler.Sound (S : Setup) (s : Shared) (c : Scheduler) : Prop where
  phase : c.phase.Sound S c.sequence
  stopped : s.stopped = c.phase.halted
  slots : c.offers.Pairwise fun a b => a.slot < b.slot
  below : ∀ o ∈ c.offers, o.slot < c.sequence
  prompt : ∀ o ∈ c.offers, o.Prompt S

/-- The scheduler moves on, with the same offers. -/
lemma Scheduler.Sound.move (h : c.Sound S s) {phase : Phase} {sequence : Nat} {nextLog : Rat}
    (sound : phase.Sound S sequence) (stopped : s'.stopped = phase.halted)
    (later : c.sequence ≤ sequence) :
    Scheduler.Sound S s' { c with phase, sequence, nextLog } :=
  ⟨sound, stopped, h.slots, fun o m => (h.below o m).trans_le later, h.prompt⟩

/-- Others let time pass. -/
lemma Scheduler.Sound.later (h : c.Sound S s) (stopped : s'.stopped = s.stopped) : c.Sound S s' :=
  ⟨h.phase, stopped.trans h.stopped, h.slots, h.below, h.prompt⟩

/-- Scheduling keeps a sound clock. -/
lemma Schedules.sound (h : c.Sound S s) (schedules : Schedules S s c s' c') : c'.Sound S s' := by
  have at_ := h.phase
  have stopped := h.stopped
  cases schedules with
  | goOn phase within => exact h.move trivial (by rw [stopped, phase]; rfl) le_rfl
  | stop phase halted => exact h.move trivial (by rw [stopped, phase]; rfl) le_rfl
  | sleep phase early => exact h.move trivial (by rw [stopped, phase]; rfl) le_rfl
  | behind phase due behind => exact h.move (S.slot_behind due) (by rw [stopped, phase]; rfl) le_rfl
  | inTime phase due behind =>
    have slot := S.slot_behind due
    rw [behind] at slot
    exact h.move slot (by rw [stopped, phase]; rfl) le_rfl
  | skip phase =>
    rw [phase] at at_
    exact h.move at_ (by dsimp only; rw [stopped, phase]; rfl) (Nat.le_add_right _ _)
  | offer phase =>
    rw [phase] at at_
    refine ⟨trivial, by dsimp only; rw [stopped, phase]; rfl, ?_, ?_, ?_⟩
    · refine List.pairwise_append.2 ⟨h.slots, List.pairwise_singleton _ _, fun o m o' m' => ?_⟩
      rw [List.mem_singleton.1 m']
      exact h.below o m
    · intro o m
      rcases List.mem_append.1 m with old | new
      · exact (h.below o old).trans (Nat.lt_succ_self _)
      · rw [List.mem_singleton.1 new]
        exact Nat.lt_succ_self _
    · intro o m
      rcases List.mem_append.1 m with old | new
      · exact h.prompt o old
      · rw [List.mem_singleton.1 new]
        exact at_
  | put phase room => exact h.move (.inl rfl) (by dsimp only; rw [stopped, phase]; rfl) le_rfl
  | full phase full => exact h.move (.inr rfl) (by rw [stopped, phase]; rfl) le_rfl
  | count phase => exact h.move trivial (by dsimp only; rw [stopped, phase]; rfl) le_rfl
  | report phase due => exact h.move trivial (by rw [stopped, phase]; rfl) le_rfl
  | reportFails phase due => exact h.move trivial rfl le_rfl
  | unreported phase early => exact h.move trivial (by rw [stopped, phase]; rfl) le_rfl
  | end_ phase => exact h.move trivial rfl le_rfl

/-- What the scheduler does to what a worker relies on. -/
lemma Schedules.later (h : c.Sound S s) (schedules : Schedules S s c s' c') : s.Later s' := by
  cases schedules with
  | put phase room =>
    refine ⟨le_refl _, id, fun stopped _ => ?_⟩
    rw [h.stopped, phase] at stopped
    cases stopped
  | reportFails | end_ => exact ⟨le_refl _, fun _ => rfl, fun _ none => none⟩
  | goOn | stop | sleep | behind | inTime | skip | offer | full | count | report | unreported =>
    exact ⟨le_refl _, id, fun _ none => none⟩

/-- Scheduling keeps the books. -/
lemma Schedules.books [Interpreter] (sound : c.Sound S s) (h : Books S s)
    (schedules : Schedules S s c s' c') :
    Books S s' := by
  cases schedules with
  | skip phase => exact h.addCount _ (by decide) nofun
  | offer phase => exact h.addCount 1 (by decide) nofun
  | count phase =>
    have at_ := sound.phase
    rw [phase] at at_
    rcases at_ with rfl | rfl
    · exact h.addCount 1 (by decide) nofun
    · exact h.addCount 1 (by decide) nofun
  | goOn | stop | sleep | behind | inTime | put | full | report | reportFails | unreported | end_ =>
    exact ⟨h.attempted, h.success, h.error, h.op, h.writes, h.fair⟩

/-- The counters of jobs, `held` of which are with the workers. -/
structure Queued (s : Shared) (c : Scheduler) (held : Nat) : Prop where
  slots : s.stats.count .offered = c.offers.length
  offered : s.stats.count .offered = s.stats.count .enqueued + s.stats.count .queueDropped +
    c.phase.pending.toNat
  flow : s.stats.count .enqueued + c.phase.uncounted.toNat = s.stats.done + s.jobs.length + held

/-- Scheduling keeps what is queued. -/
lemma Schedules.queued {held : Nat} (sound : c.Sound S s) (h : Queued s c held)
    (schedules : Schedules S s c s' c') :
    Queued s' c' held := by
  obtain ⟨slots, offered, flow⟩ := h
  cases schedules with
  | skip phase =>
    rw [phase] at offered flow
    refine ⟨?_, ?_, ?_⟩
    · simpa using slots
    · simpa [Phase.pending] using offered
    · simpa [Phase.uncounted, Stats.done] using flow
  | offer phase =>
    rw [phase] at offered flow
    refine ⟨?_, ?_, ?_⟩
    · simpa using slots
    · simpa [Phase.pending] using offered
    · simpa [Phase.uncounted, Stats.done] using flow
  | put phase room =>
    rw [phase] at offered flow
    refine ⟨slots, offered, ?_⟩
    simp [Phase.uncounted] at flow ⊢
    omega
  | full phase full =>
    rw [phase] at offered flow
    exact ⟨slots, offered, flow⟩
  | @count now key phase =>
    have at_ := sound.phase
    rw [phase] at at_ offered flow
    rcases at_ with rfl | rfl
    · refine ⟨?_, ?_, ?_⟩
      · simpa using slots
      · simp [Phase.pending] at offered ⊢
        omega
      · simpa [Phase.uncounted, Stats.done] using flow
    · refine ⟨?_, ?_, ?_⟩
      · simpa using slots
      · simp [Phase.pending] at offered ⊢
        omega
      · simpa [Phase.uncounted, Stats.done] using flow
  | goOn phase | stop phase | sleep phase | behind phase | inTime phase | report phase
  | reportFails phase | unreported phase | end_ phase =>
    rw [phase] at offered flow
    exact ⟨slots, offered, flow⟩

/-- The end of the threads counts nothing. -/
lemma Queued.join {held : Nat} (h : Queued s c held) {phase : Phase} (joining : c.phase = .joining)
    (pending : phase.pending = false) (uncounted : phase.uncounted = false) :
    Queued s { c with phase } held := by
  have offered := h.offered
  have flow := h.flow
  rw [joining] at offered flow
  exact ⟨h.slots, by rw [pending]; exact offered, by rw [uncounted]; exact flow⟩

/-! ### The whole run -/

section Sound
variable [Interpreter]

structure Run.Sound (S : Setup) (r : Run) : Prop where
  workers : ∀ w ∈ r.workers, w.Sound S r.shared
  scheduler : r.scheduler.Sound S r.shared
  books : Books S r.shared
  queued : Queued r.shared r.scheduler (r.workers.countP (·.pc.holds))
  number : r.workers.length = S.workers
  returned : r.scheduler.phase = .returned → ∀ w ∈ r.workers, ∃ e, w.pc = .ended e

/-- A run starts sound. -/
lemma Run.Sound.init : Run.Sound S S.init where
  workers := by
    intro w m
    obtain ⟨-, rfl⟩ := List.mem_replicate.1 m
    exact ⟨trivial, nofun⟩
  scheduler := ⟨trivial, rfl, .nil, nofun, nofun⟩
  books := ⟨rfl, rfl, rfl, fun _ => rfl, fun _ _ => rfl, nofun⟩
  queued := by
    refine ⟨rfl, rfl, ?_⟩
    have none : S.init.workers.countP (·.pc.holds) = 0 := by
      rw [List.countP_eq_zero]
      intro w m
      obtain ⟨-, rfl⟩ := List.mem_replicate.1 m
      exact nofun
    rw [none]
    rfl
  number := List.length_replicate
  returned := nofun

omit [Interpreter] in
/-- The workers with a job in hand. -/
lemma countP_holds (before after : List Worker) (w : Worker) :
    (before ++ w :: after).countP (·.pc.holds) =
      before.countP (·.pc.holds) + after.countP (·.pc.holds) + w.pc.holds.toNat := by
  rw [List.countP_append, List.countP_cons, ← Nat.add_assoc]
  cases w.pc.holds <;> rfl

/-- Every step keeps a sound run. -/
lemma Run.Sound.step (h : r.Sound S) (step : Step S r e r') (meets : Meets e) : r'.Sound S := by
  cases step with
  | tick t later =>
    have past : r.shared.Later { r.shared with now := t } := ⟨later, id, fun _ none => none⟩
    have books := h.books
    refine ⟨fun w m => (h.workers w m).later past, h.scheduler.later rfl, ?_,
      ⟨h.queued.slots, h.queued.offered, h.queued.flow⟩, h.number, h.returned⟩
    exact ⟨books.attempted, books.success, books.error, books.op, books.writes, books.fair⟩
  | @worker before after w e s w' here move =>
    have sound : w.Sound S r.shared :=
      h.workers w (here ▸ List.mem_append_right _ List.mem_cons_self)
    have alive := move.sound sound meets
    have flows := move.flows sound alive
    refine ⟨?_, ?_, move.books h.books sound, ?_, ?_, ?_⟩
    · intro v m
      have others : ∀ v ∈ before ++ after, v.Sound S s := by
        intro v m
        refine (h.workers v ?_).later move.later
        rw [here]
        exact List.append_subset.2 ⟨List.subset_append_left .., fun _ m =>
          List.mem_append_right _ (List.mem_cons_of_mem _ m)⟩ m
      rcases List.mem_append.1 m with front | back
      · exact others v (List.mem_append_left _ front)
      · rcases List.mem_cons.1 back with rfl | back
        · exact alive
        · exact others v (List.mem_append_right _ back)
    · exact h.scheduler.later move.stopped
    · -- the worker's job is where the others left it
      have queued := h.queued
      rw [here] at queued
      refine ⟨?_, ?_, ?_⟩
      · rw [flows.others _ (by decide)]
        exact queued.slots
      · rw [flows.others _ (by decide), flows.others _ (by decide), flows.others _ (by decide)]
        exact queued.offered
      · have flow := queued.flow
        have done := flows.done
        rw [countP_holds] at flow ⊢
        rw [flows.others _ (by decide), flow]
        dsimp only
        omega
    · have number := h.number
      rw [here, List.length_append] at number
      rw [List.length_append]
      exact number
    · intro returned
      obtain ⟨result, ended⟩ :=
        h.returned returned w (here ▸ List.mem_append_right _ List.mem_cons_self)
      exact (move.not_ended ended).elim
  | scheduler schedules =>
    refine ⟨fun w m => (h.workers w m).later (schedules.later h.scheduler),
      schedules.sound h.scheduler, schedules.books h.scheduler h.books,
      schedules.queued h.scheduler h.queued, h.number, ?_⟩
    intro returned
    cases schedules <;> cases returned
  | returns phase all =>
    refine ⟨h.workers, h.scheduler.move trivial (by rw [h.scheduler.stopped, phase]; rfl) le_rfl,
      h.books, ?_, h.number, fun _ => all⟩
    exact h.queued.join phase rfl rfl
  | raises phase =>
    refine ⟨h.workers, h.scheduler.move trivial (by rw [h.scheduler.stopped, phase]; rfl) le_rfl,
      h.books, ?_, h.number, nofun⟩
    exact h.queued.join phase rfl rfl

/-- Every reachable run is sound. -/
lemma Reachable.sound (reach : Reachable S Meets r) : r.Sound S := by
  induction reach with
  | init => exact .init
  | step _ step meets ih => exact ih.step step meets

/-- What the counters say when `exercise` returns, beside the commands that were sent and the slots
that were offered. -/
structure Accounted (S : Setup) (r : Run) : Prop where
  offered : r.shared.stats.count .offered = r.shared.stats.count .enqueued +
    r.shared.stats.count .queueDropped
  enqueued : r.shared.stats.count .enqueued =
    r.shared.stats.count .success + r.shared.stats.count .error +
      r.shared.stats.count .expiredBeforeSend
  attempted : r.shared.stats.count .attempted = r.shared.attempts.length
  outcomes : r.shared.stats.count .attempted = r.shared.stats.count .success +
    r.shared.stats.count .error
  ops : r.shared.stats.count .attempted = r.shared.stats.count (.op .get) +
    r.shared.stats.count (.op .set)
  writes : ∀ k ∈ [Key.writesNotSent, .writesRejected, .writesUncertain],
    r.shared.stats.count k = r.shared.attempts.countP (·.counted = some k)
  once : ∀ a ∈ r.shared.attempts, a.ok = false → a.job.op = .set →
    ∃! k, k ∈ [Key.writesNotSent, .writesRejected, .writesUncertain] ∧ a.counted = some k
  unsent : ∀ a ∈ r.shared.attempts, a.counted = some .writesNotSent →
    ∀ p, encodeArgs (S.command a.job) = .ok p → p ∉ a.handed
  slots : r.shared.stats.count .offered = r.scheduler.offers.length ∧
    r.scheduler.offers.Pairwise fun a b => a.slot < b.slot
  prompt : ∀ o ∈ r.scheduler.offers, o.Prompt S

/-- When `exercise` returns, no job is left anywhere. -/
lemma Run.Sound.drained (h : r.Sound S) (returned : r.scheduler.phase = .returned) :
    r.shared.jobs = [] ∧ r.workers.countP (·.pc.holds) = 0 := by
  constructor
  · have some_ : r.workers ≠ [] := by
      intro none
      have number := h.number
      rw [none] at number
      have workers := S.bounds.2
      rw [← number] at workers
      exact absurd workers (by decide)
    obtain ⟨w, ws, workers⟩ := List.exists_cons_of_ne_nil some_
    have m : w ∈ r.workers := workers ▸ List.mem_cons_self
    obtain ⟨result, ended⟩ := h.returned returned w m
    have sound := (h.workers w m).pc
    rw [ended] at sound
    cases result with
    | ok a => exact sound.2
    | error e => exact sound.elim
  · rw [List.countP_eq_zero]
    intro w m
    obtain ⟨result, ended⟩ := h.returned returned w m
    rw [ended]
    exact nofun

/-- As long as every exception that reaches a worker has a name, nothing is counted twice or not at
all. -/
theorem accounted (reach : Reachable S Meets r) (returned : r.scheduler.phase = .returned) :
    Accounted S r := by
  have sound := reach.sound
  obtain ⟨jobs, held⟩ := sound.drained returned
  obtain ⟨slots, offered, flow⟩ := sound.queued
  rw [returned] at offered flow
  rw [jobs, held] at flow
  have books := sound.books
  have outcomes : r.shared.stats.count .attempted = r.shared.stats.count .success +
      r.shared.stats.count .error := by
    rw [books.attempted, books.success, books.error]
    rw [List.length_eq_countP_add_countP (·.ok)]
    simp only [Bool.not_eq_true, Bool.decide_eq_false]
  refine ⟨offered, flow, books.attempted, outcomes, ?_, books.writes, ?_, ?_,
    ⟨slots, sound.scheduler.slots⟩, sound.scheduler.prompt⟩
  · rw [books.attempted, books.op, books.op, List.length_eq_countP_add_countP (·.job.op = .get)]
    congr 1
    refine List.countP_congr fun a _ => ?_
    cases a.job.op <;> decide
  · intro a m failed write
    have counted : a.counted = some (Stats.writeKey (a.error.getD []) a.sendAttempted) :=
      if_pos ⟨failed, write⟩
    refine ⟨_, ⟨counted_kind counted, counted⟩, fun k other => ?_⟩
    exact Option.some.inj (other.2.symm.trans counted)
  · intro a m counted p packed
    unfold Attempt.counted at counted
    split_ifs at counted with failed
    refine (books.fair a m).unsent failed.1 failed.2 ?_ p packed
    unfold Stats.writeKey at counted
    split_ifs at counted with unset rejected
    · simpa using unset
    · cases counted
    · cases counted

end Sound

/-! ### One job -/

section One
attribute [local instance] reference

/-- One read, offered at once by one worker. -/
def one : Setup where
  target := .perf
  seconds := 1
  rate := 1
  workers := 1
  keys := 1
  payload := 32
  readPct := 100
  hotPct := 0
  prefix_ := str "k"
  password := []
  start := 0
  valid := by decide +kernel
  ratios := by decide +kernel

/-- The job of the run, for a key of two letters. -/
def job : Job := ⟨one.due 0, .get, str "k" ++ digitChars 0, one.start⟩

/-- The move of a worker that is alone. -/
lemma Step.alone {w w' : Worker} (here : r.workers = [w]) (move : Move S r.shared w e s w') :
    Step S r e { r with shared := s, workers := [w'] } :=
      @Step.worker _ S r [] [] w e s w' here move

/-- The read is about to be sent. -/
def sending : Run where
  shared := ⟨one.start, [], false, (Stats.init.addCount .offered 1).addCount .enqueued 1, 0, []⟩
  scheduler := ⟨.looping, 1, double (one.start + 1), [⟨0, one.start, 0⟩]⟩
  workers := [⟨.executing job, some .init⟩]

/-- The run of the example. -/
lemma sending_reachable {P : Event → Prop} (quiet : P .quiet) : Reachable one P sending := by
  have start : Reachable one P one.init := .init
  have reading := start.step (.scheduler (.goOn rfl (by decide +kernel))) quiet
  have offering :=
    reading.step (.scheduler (.inTime rfl (by decide +kernel) (by decide +kernel))) quiet
  have putting := offering.step (.scheduler (.offer rfl)) quiet
  have counting := putting.step (.scheduler (.put rfl (by decide))) quiet
  have reporting := counting.step (.scheduler (.count rfl)) quiet
  have looping := reporting.step (.scheduler (.unreported rfl (by decide +kernel))) quiet
  have getting := looping.step (.alone rfl (.goOn rfl rfl)) quiet
  have taken := getting.step (.alone rfl (.get rfl rfl)) quiet
  have draws : one.Draws 0 := ⟨0, by decide, by decide⟩
  have picks : one.Picks .get := ⟨0, by decide, rfl⟩
  have connecting := taken.step (.alone rfl (.draw rfl (by decide +kernel) draws picks)) quiet
  exact connecting.step (.alone rfl (.connect rfl rfl .connection)) quiet

/-- The server answers the read. -/
def answering (a : Answer) : List Choice :=
  [.go, .go, .go, .go, .go, .go, .serve [[[71, 69, 84], [107, 48]]] [a]]

/-- The example ends after its start. -/
lemma one_finish : one.start ≤ one.finish := by decide +kernel

/-- A read that is answered is counted. -/
theorem accounted_one : ∃ r, r.scheduler.phase = .returned ∧ Accounted one r := by
  have quiet : Meets .quiet := trivial
  have executing := sending_reachable quiet
  have ran := wired.run_ran (execute one.password (one.command job)) ⟨.init, []⟩
    (answering (.reply (.simple [79, 75]) (.simple (by decide) (by decide))))
  have answered := executing.step (.alone rfl (.execute rfl rfl ran)) quiet
  have tallying := answered.step (.alone rfl (.answer rfl)) quiet
  have timing := tallying.step (.alone rfl (.tally rfl)) quiet
  have past : job.Past one.start := ⟨le_refl _, by decide +kernel⟩
  have recording := timing.step (.alone rfl (.time rfl past.2)) quiet
  have testing :=
    recording.step (.alone rfl (.record rfl (Stats.result_ok _ past).choose_spec)) quiet
  have later := testing.step (.tick one.finish one_finish) quiet
  have stopping := later.step (.scheduler (.stop rfl (le_refl one.finish))) quiet
  have joining := stopping.step (.scheduler (.end_ rfl)) quiet
  have draining := joining.step (.alone rfl (.drain rfl rfl)) quiet
  have ended :=
    draining.step (.alone rfl (.leave rfl rfl (.close (wired.run_ran close _ [])))) quiet
  have returned := ended.step (.returns rfl (by simp)) quiet
  exact ⟨_, rfl, accounted returned rfl⟩

/-- A reply that is an error of nothing but space kills the worker, and its job is counted
nowhere. -/
theorem unaccounted_space : ¬∀ (S : Setup) (r : Run), Reachable S (fun _ => True) r →
    r.scheduler.phase = .returned → Accounted S r := by
  intro claimed
  have executing := @sending_reachable (fun _ => True) trivial
  have ran := wired.run_ran (execute one.password (one.command job)) ⟨.init, []⟩
    (answering (.reply (.error [32]) (.error (by decide) (by decide))))
  have failed := executing.step (.alone rfl (.executeFails rfl rfl ran)) trivial
  have dead := failed.step (.alone rfl (.nameFails rfl rfl)) trivial
  have later := dead.step (.tick one.finish one_finish) trivial
  have stopping := later.step (.scheduler (.stop rfl (le_refl one.finish))) trivial
  have joining := stopping.step (.scheduler (.end_ rfl)) trivial
  have returned := joining.step (.returns rfl (by simp)) trivial
  have counts := (claimed _ _ returned rfl).enqueued
  revert counts
  decide

end One

end DbLab.Redis.Load
