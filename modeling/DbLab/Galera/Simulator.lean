import DbLab.Py.Str

/-!
# The slots of the traffic simulator (`simulator.run`)

A run has `seconds * rate` slots, one an interval. An operation that takes longer than its slot
skips the slots it missed, so that the next one starts no sooner than an interval after it. Time is
exact: it passes in operations and in sleeps only.
-/

namespace DbLab.Galera.Simulator
open DbLab.Py

inductive Mode where
  | api
  | orders
  | mixed
deriving DecidableEq

/-- The arguments of a run, as it accepts them, and when it has started. -/
structure Plan where
  seconds : Int
  rate : Int
  mode : Mode
  started : Rat
  seconds_ok : 1 ≤ seconds ∧ seconds ≤ 86400
  rate_ok : 1 ≤ rate ∧ rate ≤ 2000

namespace Plan
variable (p : Plan)

/-- `started + seconds` -/
def deadline : Rat := p.started + p.seconds

/-- `1.0 / rate` -/
def interval : Rat := 1 / p.rate

/-- `seconds * rate` -/
def slots : Int := p.seconds * p.rate

end Plan

/-- What an operation meets: how long it takes, whether a connection can be made if there is none,
and whether its statement is executed. -/
structure Operation where
  duration : Rat
  takes : 0 ≤ duration
  connects : Bool
  executes : Bool

/-- The counts of a run that do not depend on the kinds of its operations. -/
structure Counts where
  attempted : Int
  reconnectAttempted : Int
  reconnectFailed : Int
  succeeded : Int
  errors : Int
  skippedScheduleSlots : Int

/-- From `started_op` to the end of the operation. -/
structure Attempt where
  start : Rat
  stop : Rat

/-- The variables of the loop. The attempts are for the record. -/
structure Sim where
  now : Rat
  slot : Int
  nextTick : Rat
  connected : Bool
  counts : Counts
  attempts : List Attempt

def Plan.init (p : Plan) : Sim := ⟨p.started, 0, p.started, true, ⟨0, 0, 0, 0, 0, 0⟩, []⟩

/-- An operation does what it is for. -/
def Sim.succeeds (s : Sim) (op : Operation) : Bool := (s.connected || op.connects) && op.executes

/-- The counts after an operation that is followed by `skipped` missed slots. -/
def Sim.counted (s : Sim) (op : Operation) (skipped : Int) : Counts :=
  let c := s.counts
  { attempted := c.attempted + 1
    reconnectAttempted := c.reconnectAttempted + if s.connected then 0 else 1
    reconnectFailed := c.reconnectFailed + if s.connected || op.connects then 0 else 1
    succeeded := c.succeeded + if s.succeeds op then 1 else 0
    errors := c.errors + if s.succeeds op then 0 else 1
    skippedScheduleSlots := c.skippedScheduleSlots + skipped }

/-- `max(slot, math.ceil((now - started) * rate - 1e-9))` -/
def Plan.nextSlot (p : Plan) (slot : Int) (now : Rat) : Int :=
  max slot ⌈(now - p.started) * p.rate - 1 / 10 ^ 9⌉

/-- From `started_op` on. A failed operation leaves no connection. -/
def Plan.attempt (p : Plan) (op : Operation) (s : Sim) : Sim :=
  let stop := s.now + op.duration
  let next := p.nextSlot (s.slot + 1) stop
  { now := stop
    slot := next
    nextTick := max (p.started + next * p.interval) (s.now + p.interval)
    connected := s.succeeds op
    counts := s.counted op (next - (s.slot + 1))
    attempts := s.attempts ++ [⟨s.now, stop⟩] }

/-- The test at the head of the loop. -/
def Plan.over (p : Plan) (s : Sim) : Bool := p.deadline ≤ s.now || p.slots ≤ s.slot

/-- The sleep until the next tick. -/
def Plan.rest (p : Plan) (s : Sim) : Sim :=
  if s.now < s.nextTick then { s with now := min s.nextTick p.deadline } else s

/-- At most so many passes of the loop; the operations come in order. -/
def Plan.loop (p : Plan) (ops : Nat → Operation) : Nat → Sim → Sim
  | 0, s => s
  | passes + 1, s =>
    if p.over s then s
    else if p.deadline ≤ (p.rest s).now then p.rest s
    else p.loop ops passes (p.attempt (ops s.attempts.length) (p.rest s))

/-- What a run ends with, and the state that it leaves the loop in. -/
structure Summary where
  plan : Plan
  sim : Sim
  attempted : Int
  succeeded : Int
  failed : Int
  skippedScheduleSlots : Int
  elapsedSeconds : Rat
  deadlineOverrunSeconds : Rat

/-- The rest of the time is slept through. -/
def Plan.summary (p : Plan) (s : Sim) : Summary :=
  let elapsed := max s.now p.deadline - p.started
  { plan := p
    sim := s
    attempted := s.counts.attempted
    succeeded := s.counts.succeeded
    failed := s.counts.errors
    skippedScheduleSlots := s.counts.skippedScheduleSlots
    elapsedSeconds := elapsed
    deadlineOverrunSeconds := max 0 (elapsed - p.seconds) }

/-- `run(seconds, rate, seed, mode)`, with the orders there are and the operations that its seed
draws. Every pass of the loop uses up a slot. -/
def run (seconds rate : Int) (mode : Mode) (maxOrder : Int) (started : Rat)
    (ops : Nat → Operation) : Except Exn Summary :=
  if h : (1 ≤ seconds ∧ seconds ≤ 86400) ∧ 1 ≤ rate ∧ rate ≤ 2000 then
    if mode ≠ .api ∧ maxOrder = 0 then
      .error (.valueError "orders mode requires a seeded commerce_lab.orders table")
    else
      let p : Plan := ⟨seconds, rate, mode, started, h.1, h.2⟩
      .ok (p.summary (p.loop ops p.slots.toNat p.init))
  else .error (.valueError "seconds: 1..86400, rate: 1..2000")

/-! ### What the accounts should say -/

/-- The accounts of a run: all attempts have succeeded or failed, no slot is counted that the run
does not have, and the attempts start an interval apart and before the deadline. -/
structure Accounted (r : Summary) : Prop where
  ended : r.succeeded + r.failed = r.attempted
  slots : r.attempted + r.skippedScheduleSlots ≤ r.plan.slots
  spaced : r.sim.attempts.Pairwise fun a a' => a.start + r.plan.interval ≤ a'.start
  timely : ∀ a ∈ r.sim.attempts, a.start < r.plan.deadline

/-- An operation does not end after the last slot (by more than the tolerance of the count). -/
def Plan.InTime (p : Plan) (a : Attempt) : Prop :=
  (a.stop - p.started) * p.rate ≤ p.slots + 1 / 10 ^ 9

/-! ### One pass -/

section
variable {p : Plan} {s : Sim} {op : Operation}

/-- The next slot is one of the plan just if the time is not over. -/
lemma Plan.nextSlot_le_iff (slot : Int) (now : Rat) (some_ : slot ≤ p.slots) :
    p.nextSlot slot now ≤ p.slots ↔ (now - p.started) * p.rate ≤ p.slots + 1 / 10 ^ 9 := by
  rw [nextSlot, max_le_iff, Int.ceil_le]
  constructor
  · intro ⟨_, fits⟩
    linarith
  · intro fits
    exact ⟨some_, by linarith⟩

/-- What the loop keeps. Attempts and skipped slots make up the slots that are used, and these
exceed the run's only when an attempt was not in time. -/
structure Inv (p : Plan) (s : Sim) : Prop where
  ended : s.counts.succeeded + s.counts.errors = s.counts.attempted
  used : s.counts.attempted + s.counts.skippedScheduleSlots = s.slot
  fits : s.slot ≤ p.slots ↔ ∀ a ∈ s.attempts, p.InTime a
  spaced : s.attempts.Pairwise fun a a' => a.start + p.interval ≤ a'.start
  before : ∀ a ∈ s.attempts, a.start + p.interval ≤ s.nextTick
  timely : ∀ a ∈ s.attempts, a.start < p.deadline

/-- The accounts at the beginning. -/
lemma Inv.init (p : Plan) : Inv p p.init where
  ended := rfl
  used := rfl
  fits := by
    have positive : 0 ≤ p.slots :=
      mul_nonneg (by linarith [p.seconds_ok.1]) (by linarith [p.rate_ok.1])
    simpa [Plan.init] using positive
  spaced := .nil
  before a m := nomatch m
  timely a m := nomatch m

/-- The slots that are left are skipped. -/
lemma Inv.rest (h : Inv p s) : Inv p (p.rest s) := by
  unfold Plan.rest
  split
  · exact ⟨h.ended, h.used, h.fits, h.spaced, h.before, h.timely⟩
  · exact h

/-- The sleep reaches the next tick, or the deadline. -/
lemma rest_reaches : (p.rest s).nextTick ≤ (p.rest s).now ∨ p.deadline ≤ (p.rest s).now := by
  unfold Plan.rest
  split
  · rcases min_choice s.nextTick p.deadline with tick | deadline
    · exact .inl (ge_of_eq tick)
    · exact .inr (ge_of_eq deadline)
  · exact .inl (not_lt.1 ‹_›)

/-- The slot is not moved at the end. -/
lemma rest_slot : (p.rest s).slot = s.slot := by
  unfold Plan.rest
  split <;> rfl

/-- An attempt that begins at its tick and before the deadline keeps the accounts. -/
lemma Inv.attempt (h : Inv p s) (op : Operation) (tick : s.nextTick ≤ s.now)
    (early : s.now < p.deadline)
    (free : s.slot < p.slots) : Inv p (p.attempt op s) where
  ended := by
    have ended := h.ended
    show s.counts.succeeded + _ + (s.counts.errors + _) = s.counts.attempted + 1
    cases s.succeeds op <;> simp <;> omega
  used := by
    have used := h.used
    show s.counts.attempted + 1 + (s.counts.skippedScheduleSlots + (_ - (s.slot + 1))) = _
    dsimp only [Plan.attempt]
    omega
  fits := by
    have earlier : ∀ a ∈ s.attempts, p.InTime a := h.fits.1 free.le
    refine (Plan.nextSlot_le_iff (s.slot + 1) _ free).trans ⟨fun fits a m => ?_, fun all => ?_⟩
    · rcases List.mem_append.1 m with m | m
      · exact earlier a m
      · rw [List.mem_singleton.1 m]
        exact fits
    · exact all ⟨s.now, s.now + op.duration⟩ (List.mem_append_right _ List.mem_cons_self)
  spaced := by
    refine List.pairwise_append.2 ⟨h.spaced, List.pairwise_singleton .., fun a m a' m' => ?_⟩
    rw [List.mem_singleton.1 m']
    exact (h.before a m).trans tick
  before a m := by
    have next : s.now + p.interval ≤ (p.attempt op s).nextTick := le_max_right ..
    have positive : 0 ≤ p.interval := by
      have rate : (1 : Rat) ≤ p.rate := by exact_mod_cast p.rate_ok.1
      exact div_nonneg zero_le_one (zero_le_one.trans rate)
    rcases List.mem_append.1 m with m | m
    · have := h.before a m
      linarith
    · rw [List.mem_singleton.1 m]
      exact next
  timely a m := by
    rcases List.mem_append.1 m with m | m
    · exact h.timely a m
    · rw [List.mem_singleton.1 m]
      exact early

/-! ### A whole run -/

/-- The loop keeps the accounts. -/
lemma Inv.loop {ops : Nat → Operation} {passes : Nat} (h : Inv p s) :
    Inv p (p.loop ops passes s) := by
  induction passes generalizing s with
  | zero => exact h
  | succ passes ih =>
    unfold Plan.loop
    split
    · exact h
    · rename_i on
      split
      · exact h.rest
      · rename_i early
        apply ih
        apply h.rest.attempt
        · exact rest_reaches.resolve_right early
        · exact not_le.1 early
        · rw [rest_slot]
          have running : s.now < p.deadline ∧ s.slot < p.slots := by simpa [Plan.over] using on
          exact running.2

/-- A run ends because its time or its slots are over. -/
lemma loop_over {ops : Nat → Operation} {passes : Nat} (enough : p.slots ≤ s.slot + passes) :
    p.over (p.loop ops passes s) = true := by
  induction passes generalizing s with
  | zero =>
    have slots : p.slots ≤ s.slot := by simpa using enough
    simp [Plan.loop, Plan.over, slots]
  | succ passes ih =>
    unfold Plan.loop
    split
    · assumption
    · split
      · rename_i late
        simp [Plan.over, late]
      · apply ih
        have used : (p.rest s).slot + 1 ≤ (p.attempt (ops s.attempts.length) (p.rest s)).slot :=
          le_max_left ..
        rw [rest_slot] at used
        push_cast at enough
        omega

end

/-- A run that is accepted is the loop of its plan. -/
lemma run_ok {seconds rate : Int} {mode : Mode} {maxOrder : Int} {started : Rat}
    {ops : Nat → Operation} {r : Summary}
    (ran : run seconds rate mode maxOrder started ops = .ok r) :
    ∃ p : Plan, r = p.summary (p.loop ops p.slots.toNat p.init) := by
  unfold run at ran
  split at ran
  · split at ran
    · cases ran
    · cases ran
      exact ⟨_, rfl⟩
  · cases ran

/-- A run ends, and its accounts are right if and only if none of its operations ends after the last
slot. -/
theorem slots_accounted_iff (seconds rate : Int) (mode : Mode) (maxOrder : Int) (started : Rat)
    (ops : Nat → Operation)
    (r : Summary) (ran : run seconds rate mode maxOrder started ops = .ok r) :
    r.plan.over r.sim = true ∧ (Accounted r ↔ ∀ a ∈ r.sim.attempts, r.plan.InTime a) := by
  obtain ⟨p, rfl⟩ := run_ok ran
  have inv : Inv p (p.loop ops p.slots.toNat p.init) := (Inv.init p).loop
  refine ⟨loop_over ?_, ⟨fun accounts => ?_, fun intime => ?_⟩⟩
  · show p.slots ≤ 0 + (p.slots.toNat : Int)
    omega
  · exact inv.fits.1 (inv.used ▸ accounts.slots)
  · exact ⟨inv.ended, inv.used.le.trans (inv.fits.2 intime), inv.spaced, inv.timely⟩

/-- A second of ten slots, whose first operation takes three tenths of one. -/
def promptly : Nat → Operation := fun _ => ⟨3 / 100, by norm_num, true, true⟩

/-- `slots_accounted_iff` for a run in which every call returns at once. -/
theorem slots_accounted_promptly :
    ∃ r, run 1 10 .api 0 0 promptly = .ok r ∧ r.plan.over r.sim = true ∧
      (Accounted r ↔ ∀ a ∈ r.sim.attempts, r.plan.InTime a) :=
  ⟨_, rfl, slots_accounted_iff 1 10 .api 0 0 promptly _ rfl⟩

/-- A second of ten slots, and operations that take one and a half. -/
def slowly : Nat → Operation := fun _ => ⟨3 / 2, by norm_num, true, true⟩

/-- One attempt that overruns the deadline is counted as one slot used and fourteen skipped, of
ten. -/
theorem slots_overcounted :
    ∃ r, run 1 10 .api 0 0 slowly = .ok r ∧ r.attempted = 1 ∧ r.skippedScheduleSlots = 14 ∧
      ¬ Accounted r := by
  refine ⟨_, rfl, ?_, ?_, fun accounts => ?_⟩
  · decide +kernel
  · decide +kernel
  · have slots := accounts.slots
    revert slots
    decide +kernel

end DbLab.Galera.Simulator
