import DbLab.Mvp.Health
import DbLab.Py.Float

/-!
# Readiness over runs of the worker

The calls of the two loops in any order, each with the readings of the clock it takes. The status of
a loop is the same in the receipt and in memory at every moment, so that a receipt that passes
speaks of the latest marks. The time of the last success is not: a mark within a second of the last
write, whichever loop wrote, stays in memory.
-/

namespace DbLab.Mvp.Health
open DbLab.Py

section
variable [Interpreter]

/-- A call, with the readings of the clock it takes: the last one behind a write, if there is
one. -/
inductive Event where
  | mark (name : Loop) (ok : Bool) (now clock : Reading)
  | close (clock : Reading)

/-- The time when the call returns. -/
def Event.done : Event → Rat
  | .mark _ _ _ clock => clock.time
  | .close clock => clock.time

/-- The readings of the call follow each other and an earlier one. -/
def Event.Follows (time : Rat) : Event → Prop
  | .mark _ _ now clock => time ≤ now.time ∧ now.time ≤ clock.time
  | .close clock => time ≤ clock.time

def Event.apply (h : WorkerHealth) : Event → Except Exn WorkerHealth
  | .mark name ok now clock => h.mark name ok now clock
  | .close clock => h.close clock

def Event.data (d : Data) : Event → Data
  | .mark name ok now _ => d.setLoop name ((d.loops name).marked ok now)
  | .close _ => d.closed

/-- The calls made on the object of a worker, the latest one first, whose steps all meet a
condition, the time of the last reading, and the state they lead to. -/
inductive Runs (worker : Worker) (When : WorkerHealth → Event → Prop) :
    List Event → Rat → WorkerHealth → Prop
  | start {uid path clock h} (started : WorkerHealth.start worker uid path clock = .ok h) :
      Runs worker When [] clock.time h
  | call {events time h h'} (e : Event) (run : Runs worker When events time h) (meets : When h e)
      (follows : e.Follows time)
      (applied : e.apply h = .ok h') : Runs worker When (e :: events) e.done h'

/-- Whether the latest call that concerned the loop was a successful mark. -/
def status (l : Loop) : List Event → Bool
  | [] => false
  | .mark name ok _ _ :: events => if name = l then ok else status l events
  | .close _ :: _ => false

/-- The latest successful mark of the loop. -/
def lastMark (l : Loop) : List Event → Option Reading
  | [] => none
  | .mark name true now _ :: events => if name = l then some now else lastMark l events
  | _ :: events => lastMark l events

/-- The call takes the readiness of the loop away. -/
def Event.Ends (l : Loop) : Event → Prop
  | .mark name ok _ _ => name = l ∧ ok = false
  | .close _ => True

/-- What the receipt and the memory have in common at every moment. -/
structure Inv (worker : Worker) (events : List Event) (time : Rat) (h : WorkerHealth)
    (receipt : Data) : Prop where
  wrote : Wrote h.uid receipt h.path
  author : receipt.worker = worker
  own : h.data.worker = worker
  agree : ∀ l, (receipt.loops l).ok = (h.data.loops l).ok
  latest : ∀ l, (h.data.loops l).ok = status l events
  last : ∀ l, (h.data.loops l).lastSuccess = lastMark l events
  success : ∀ l t, (receipt.loops l).lastSuccess = some t → ∃ clock, .mark l true t clock ∈ events
  past : ∀ l t, (h.data.loops l).lastSuccess = some t → t.time ≤ time
  older : ∀ l t, (receipt.loops l).lastSuccess = some t →
    ∃ u, (h.data.loops l).lastSuccess = some u ∧ t.time ≤ u.time

/-- The last mark is one of the marks. -/
lemma lastMark_mem {l : Loop} {events : List Event} {t : Reading} (h : lastMark l events = some t) :
    ∃ clock, .mark l true t clock ∈ events := by
  induction events with
  | nil => cases h
  | cons e events ih =>
    have later : lastMark l events = some t → ∃ clock, .mark l true t clock ∈ e :: events :=
      fun h =>
      let ⟨clock, m⟩ := ih h
      ⟨clock, List.mem_cons_of_mem _ m⟩
    cases e with
    | close => exact later h
    | mark name ok now clock =>
      cases ok with
      | false => exact later h
      | true =>
        rw [lastMark] at h
        split at h
        · rename_i same
          cases h
          exact ⟨clock, same ▸ List.mem_cons_self⟩
        · exact later h

/-- After a call that took readiness away the loop marks success before it is ready again. -/
lemma status_ends {l : Loop} {e : Event} (ends : e.Ends l) {later earlier : List Event}
    (ready : status l (later ++ e :: earlier) = true) :
    ∃ now clock, .mark l true now clock ∈ later := by
  induction later with
  | nil =>
    cases e with
    | close => cases ready
    | mark name ok now clock =>
      obtain ⟨rfl, rfl⟩ := ends
      rw [List.nil_append, status, if_pos rfl] at ready
      cases ready
  | cons f later ih =>
    have further : status l (later ++ e :: earlier) = true →
        ∃ now clock, .mark l true now clock ∈ f :: later :=
      fun h => let ⟨now, clock, m⟩ := ih h; ⟨now, clock, List.mem_cons_of_mem _ m⟩
    cases f with
    | close => cases ready
    | mark name ok now clock =>
      rw [List.cons_append, status] at ready
      split at ready
      · rename_i same
        subst ready
        exact ⟨now, clock, same ▸ List.mem_cons_self⟩
      · exact further ready

/-- A call changes the data as it says, and the receipt is the data of then or what it was. -/
lemma apply_inv {h h' : WorkerHealth} {e : Event} (applied : e.apply h = .ok h') :
    h'.data = e.data h.data ∧ h'.uid = h.uid ∧
      (h'.lastWrite.map Reading.time = some e.done ∧ Wrote h.uid h'.data h'.path ∨
        ∃ name ok now clock, e = .mark name ok now clock ∧ (h.data.loops name).ok = ok ∧
        h.due now = false ∧ h'.lastWrite = h.lastWrite ∧ h'.path = h.path) := by
  cases e with
  | mark name ok now clock =>
    obtain ⟨data, uid, ⟨last, wrote⟩ | ⟨same, early, last, path⟩⟩ := mark_inv applied
    · exact ⟨data, uid, .inl ⟨by rw [last]; rfl, wrote⟩⟩
    · exact ⟨data, uid, .inr ⟨name, ok, now, clock, rfl, same, early, last, path⟩⟩
  | close clock =>
    obtain ⟨data, uid, last, wrote⟩ := close_inv applied
    exact ⟨data, uid, .inl ⟨by rw [last]; rfl, wrote⟩⟩

/-- The memory follows the calls. -/
lemma data_latest {d : Data} {l : Loop} {events : List Event} (e : Event)
    (latest : (d.loops l).ok = status l events) :
    ((e.data d).loops l).ok = status l (e :: events) := by
  cases e with
  | close => rfl
  | mark name ok now clock =>
    rw [Event.data, Data.setLoop, status]
    simp only [eq_comm (a := l)]
    split
    · rfl
    · exact latest

/-- The file holds the last mark of each loop. -/
lemma data_last {d : Data} {l : Loop} {events : List Event} (e : Event)
    (last : (d.loops l).lastSuccess = lastMark l events) :
    ((e.data d).loops l).lastSuccess = lastMark l (e :: events) := by
  cases e with
  | close => exact last
  | mark name ok now clock =>
    cases ok with
    | true =>
      rw [Event.data, Data.setLoop, lastMark]
      simp only [eq_comm (a := l)]
      split
      · rfl
      · exact last
    | false =>
      rw [Event.data, Data.setLoop, lastMark]
      · simp only
        split
        · rename_i same
          subst same
          exact last
        · exact last
      · exact nofun

/-- An event leaves the worker in place. -/
lemma data_worker (d : Data) (e : Event) : (e.data d).worker = d.worker := by
  cases e <;> rfl

/-- The time of the last success of a loop grows with a call, up to the time of its return. -/
lemma data_past {d : Data} {l : Loop} {time : Rat} {e : Event} (follows : e.Follows time)
    (past : ∀ t, (d.loops l).lastSuccess = some t → t.time ≤ time) :
    (∀ t, ((e.data d).loops l).lastSuccess = some t → t.time ≤ e.done) ∧
      ∀ t, (d.loops l).lastSuccess = some t →
        ∃ u, ((e.data d).loops l).lastSuccess = some u ∧ t.time ≤ u.time := by
  cases e with
  | close => exact ⟨fun t h => (past t h).trans follows, fun t h => ⟨t, h, le_rfl⟩⟩
  | mark name ok now clock =>
    obtain ⟨before, after⟩ := follows
    have kept : (∀ t, (d.loops l).lastSuccess = some t → t.time ≤ clock.time) ∧
        ∀ t, (d.loops l).lastSuccess = some t → ∃ u, (d.loops l).lastSuccess = some u ∧
          t.time ≤ u.time :=
      ⟨fun t h => (past t h).trans (before.trans after), fun t h => ⟨t, h, le_rfl⟩⟩
    rcases eq_or_ne l name with rfl | other
    · simp only [Event.data, Data.setLoop, if_pos, Row.marked]
      cases ok with
      | false => exact kept
      | true =>
        refine ⟨fun t h => ?_, fun t h => ⟨now, rfl, (past t h).trans before⟩⟩
        cases h
        exact after
    · simp only [Event.data, Data.setLoop, if_neg other]
      exact kept

/-- The invariant is kept by a call. -/
lemma Inv.call {worker : Worker} {events : List Event} {time : Rat} {h h' : WorkerHealth}
    {receipt : Data}
    (inv : Inv worker events time h receipt) {e : Event} (follows : e.Follows time)
    (applied : e.apply h = .ok h') :
    ∃ receipt', Inv worker (e :: events) e.done h' receipt' := by
  obtain ⟨data, uid, written⟩ := apply_inv applied
  have latest : ∀ l, (h'.data.loops l).ok = status l (e :: events) :=
    fun l => data ▸ data_latest e (inv.latest l)
  have last : ∀ l, (h'.data.loops l).lastSuccess = lastMark l (e :: events) :=
    fun l => data ▸ data_last e (inv.last l)
  have own : h'.data.worker = worker := by rw [data, data_worker, inv.own]
  have past : ∀ l t, (h'.data.loops l).lastSuccess = some t → t.time ≤ e.done := fun l =>
    data ▸ (data_past follows (inv.past l)).1
  have grows : ∀ l t, (h.data.loops l).lastSuccess = some t →
      ∃ u, (h'.data.loops l).lastSuccess = some u ∧ t.time ≤ u.time := fun l =>
    data ▸ (data_past follows (inv.past l)).2
  rcases written with ⟨_, wrote⟩ | ⟨name, ok, now, clock, rfl, same, _, _, path⟩
  · refine ⟨h'.data, uid ▸ wrote, own, own, fun _ => rfl, latest, last, fun l t m => ?_, past,
      fun l t m => ⟨t, m, le_rfl⟩⟩
    rw [last l] at m
    exact lastMark_mem m
  · refine ⟨receipt, ?_, inv.author, own, fun l => ?_, latest, last, fun l t m => ?_, past,
      fun l t m => ?_⟩
    · rw [path, uid]
      exact inv.wrote
    · -- the status did not change
      rw [inv.agree l, data, Event.data, Data.setLoop]
      simp only
      split
      · rename_i e
        subst e
        exact same
      · rfl
    · obtain ⟨clock, m⟩ := inv.success l t m
      exact ⟨clock, List.mem_cons_of_mem _ m⟩
    · obtain ⟨u, m, le⟩ := inv.older l t m
      obtain ⟨v, m, le'⟩ := grows l u m
      exact ⟨v, m, le.trans le'⟩

/-- The invariant holds of a fresh file. -/
lemma start_inv {worker : Worker} {uid : Nat} {path : Option File} {clock : Reading}
    {h : WorkerHealth}
    (started : WorkerHealth.start worker uid path clock = .ok h) :
    Inv worker [] clock.time h ⟨worker, fun _ => ⟨false, none⟩⟩ := by
  obtain ⟨data, same, _, wrote⟩ := save_inv started
  exact {
    wrote := same ▸ wrote
    author := rfl
    own := by rw [data]
    agree := fun l => by rw [data]
    latest := fun l => by rw [data]; rfl
    last := fun l => by rw [data]; rfl
    success := nofun
    past := fun l t m => by rw [data] at m; cases m
    older := nofun }

/-- The invariant holds after every run. -/
lemma Runs.inv {worker : Worker} {When : WorkerHealth → Event → Prop} {events : List Event}
    {time : Rat} {h : WorkerHealth}
    (run : Runs worker When events time h) : ∃ receipt, Inv worker events time h receipt := by
  induction run with
  | start started => exact ⟨_, start_inv started⟩
  | call e _ _ follows applied ih =>
    obtain ⟨receipt, inv⟩ := ih
    exact inv.call follows applied

/-- When a row is ready, at a finite age as computed. -/
lemma Row.ready_iff {now : Interpreter.Float} {r : Row} : r.ready now = true ↔ r.ok = true ∧
    ∃ t q, r.lastSuccess = some t ∧ Interpreter.view now = .finite q ∧ 0 ≤ q - t.time ∧
      double (q - t.time) ≤ 30 := by
  rw [Row.ready, Bool.and_eq_true]
  cases r.lastSuccess with
  | none => simp
  | some t =>
    cases e : Interpreter.view now with
    | finite q => simp [recent, double_nonneg_iff]
    | nan => simp [recent]
    | inf => simp [recent]

omit [Interpreter] in
/-- What is thirty as a float is less than the next float. -/
lemma age_lt {age : Rat} (le : double age ≤ 30) : age < 30 + 1 / 2 ^ 48 := by
  by_contra old
  have next := double_dyadic (m := 30 * 2 ^ 48 + 1) (-48) (by norm_num)
  have later := double_mono (not_lt.1 old)
  rw [show (30 : Rat) + 1 / 2 ^ 48 = ((30 * 2 ^ 48 + 1 : Nat) : Rat) * 2 ^ (-48 : Int)
    by norm_num, next] at later
  norm_num at later
  linarith

/-- A healthcheck that passes: the latest call that concerned a loop was a successful mark, the
process is the one that wrote the receipt, and both loops succeeded within thirty seconds, which is
to say that their ages as floats are thirty at most. A failed mark or `close` ends it until the loop
marks success again. -/
theorem ready_sound {worker : Worker} {events : List Event} {time : Rat} {h : WorkerHealth}
    (run : Runs worker (fun _ _ => True) events time h) {env : Environment}
    {now : Interpreter.Float}
    (ready : isReady env h.path now = .ok true) :
    env.processStart worker.pid = .ok worker.processStart ∧ ∀ l,
      status l events = true ∧
      (∃ t clock q, .mark l true t clock ∈ events ∧ Interpreter.view now = .finite q ∧
        0 ≤ q - t.time ∧ double (q - t.time) ≤ 30 ∧ q - t.time < 30 + 1 / 2 ^ 48) ∧
      ∀ later e earlier, events = later ++ e :: earlier → e.Ends l →
        ∃ t clock, .mark l true t clock ∈ later := by
  obtain ⟨receipt, inv⟩ := run.inv
  obtain ⟨_, process, rows⟩ := (inv.wrote.isReady env now).1 ready
  rw [inv.author] at process
  refine ⟨process, fun l => ?_⟩
  obtain ⟨ok, t, q, last, view, lower, upper⟩ := Row.ready_iff.1 (rows l)
  have marked : status l events = true := by rw [← inv.latest l, ← inv.agree l, ok]
  obtain ⟨clock, mem⟩ := inv.success l t last
  refine ⟨marked, ⟨t, clock, q, mem, view, lower, upper, age_lt upper⟩,
    fun later e earlier split ends => ?_⟩
  rw [split] at marked
  exact status_ends ends marked

/-- A run under a stronger condition is one under a weaker. -/
lemma Runs.mono {worker : Worker} {P Q : WorkerHealth → Event → Prop}
    (weaker : ∀ h e, P h e → Q h e)
    {events : List Event} {time : Rat} {h : WorkerHealth} (run : Runs worker P events time h) :
    Runs worker Q events time h := by
  induction run with
  | start started => exact .start started
  | call e _ meets follows applied ih => exact .call e ih (weaker _ _ meets) follows applied

/-- Every event applies. -/
lemma apply_total (h : WorkerHealth) (e : Event) : ∃ h', e.apply h = .ok h' := by
  have save : ∀ (h : WorkerHealth) clock, ∃ h', h.save clock = .ok h' := by
    intro h clock
    obtain ⟨t, b, text, bytes⟩ := dumps_encode h.data
    rw [WorkerHealth.save, text, ok_bind, bytes, ok_bind]
    exact ⟨_, rfl⟩
  cases e with
  | close clock => exact save _ clock
  | mark name ok now clock =>
    rw [Event.apply, WorkerHealth.mark]
    split
    · exact save _ clock
    · exact ⟨_, rfl⟩

/-! ### The throttle -/

/-- A successful mark is written, or the success that the receipt has of the loop is at most a
second old. -/
def Timely (h : WorkerHealth) : Event → Prop
  | .mark name true now _ => (h.data.loops name).ok = false ∨ h.due now = true ∨
      ∃ q, recorded h.path name = some q ∧ now.time - q ≤ 1
  | _ => True

/-- The receipt passes whenever both loops succeeded within twenty-nine seconds, and is at most a
second behind them. -/
structure Prompt (worker : Worker) (events : List Event) (h : WorkerHealth) : Prop where
  ready : ∀ (env : Environment) (now : Interpreter.Float) (q : Rat), Interpreter.view now =
    .finite q → h.uid = env.uid → env.processStart worker.pid = .ok worker.processStart →
    (∀ l, status l events = true ∧ ∃ t, lastMark l events = some t ∧ 0 ≤ q - t.time ∧
      q - t.time ≤ 29) →
    isReady env h.path now = .ok true
  close : ∀ l t, lastMark l events = some t → ∃ q, recorded h.path l = some q ∧ t.time - q ≤ 1

section
variable {worker : Worker} {events : List Event} {time : Rat} {h h' : WorkerHealth}

/-- A receipt that is at most a second behind passes. -/
lemma Inv.prompt {receipt : Data} (inv : Inv worker events time h receipt)
    (close : ∀ l t, lastMark l events = some t → ∃ q, recorded h.path l = some q ∧ t.time - q ≤ 1) :
    Prompt worker events h := by
  refine ⟨fun env now q view uid process fresh => ?_, close⟩
  rw [inv.wrote.isReady env now, inv.author]
  refine ⟨uid, process, fun l => ?_⟩
  obtain ⟨marked, t, last, lower, upper⟩ := fresh l
  obtain ⟨r, record, near⟩ := close l t last
  rw [inv.wrote.recorded l] at record
  obtain ⟨u, written, rfl⟩ := Option.map_eq_some_iff.1 record
  -- what the receipt has is no later than what the loop reported
  obtain ⟨v, memory, le⟩ := inv.older l u written
  rw [inv.last l, last] at memory
  cases memory
  refine Row.ready_iff.2 ⟨by rw [inv.agree l, inv.latest l, marked], u, q, written, view, by
    linarith, ?_⟩
  have age : q - u.time ≤ (30 : Nat) := by
    push_cast
    linarith
  exact (double_mono age).trans (double_nat (by norm_num)).le

/-- A mark that changes no status within a second of the last write leaves the receipt alone. -/
lemma mark_quiet {name : Loop} {ok : Bool} {now clock : Reading}
    (same : (h.data.loops name).ok = ok)
    (early : h.due now = false) (marked : h.mark name ok now clock = .ok h') :
    h'.path = h.path := by
  obtain ⟨_, _, ⟨last, wrote⟩ | ⟨_, _, _, path⟩⟩ := mark_inv marked
  · have quiet : ((h.data.loops name).ok != ok || h.due now) = false := by
      rw [same, early, bne_self_eq_false]; rfl
    rw [WorkerHealth.mark] at marked
    have unsaved : ¬ ((h.data.loops name).ok != ok || h.due now) = true := by
      rw [quiet]; exact Bool.false_ne_true
    cases (if_neg unsaved).symm.trans marked
    rfl
  · exact path

/-- The receipt keeps within a second of the loops if the call is timely. -/
lemma Inv.close {receipt : Data} (inv : Inv worker events time h receipt) {e : Event}
    (close : ∀ l t, lastMark l events = some t → ∃ q, recorded h.path l = some q ∧ t.time - q ≤ 1)
    (timely : Timely h e) (applied : e.apply h = .ok h') :
    ∀ l t, lastMark l (e :: events) = some t → ∃ q, recorded h'.path l = some q ∧
      t.time - q ≤ 1 := by
  intro l t last
  obtain ⟨data, _, ⟨_, wrote⟩ | ⟨name, ok, now, clock, rfl, same, early, _, path⟩⟩ :=
    apply_inv applied
  · refine ⟨t.time, ?_, by linarith⟩
    rw [wrote.recorded l, data, data_last e (inv.last l), last]
    rfl
  · rw [path]
    cases ok with
    | false => exact close l t last
    | true =>
      rw [lastMark] at last
      split at last
      · rename_i e
        subst e
        cases last
        rcases timely with changed | due | record
        · cases same.symm.trans changed
        · cases early.symm.trans due
        · exact record
      · exact close l t last

/-- A run of timely calls keeps the receipt within a second of the loops. -/
lemma Runs.close (run : Runs worker Timely events time h) :
    ∀ l t, lastMark l events = some t → ∃ q, recorded h.path l = some q ∧ t.time - q ≤ 1 := by
  induction run with
  | start => exact nofun
  | call e run meets _ applied ih =>
    obtain ⟨receipt, inv⟩ := run.inv
    exact inv.close ih meets applied

/-- In a run of timely calls the healthcheck passes whenever both loops succeeded within twenty-nine
seconds, and the receipt is at most a second behind; and the first call that is not timely ends
this. -/
theorem ready_prompt (run : Runs worker Timely events time h) : Prompt worker events h ∧
    ∀ e h', e.Follows time → e.apply h = .ok h' → (Prompt worker (e :: events) h' ↔
      Timely h e) := by
  obtain ⟨receipt, inv⟩ := run.inv
  refine ⟨inv.prompt run.close, fun e h' follows applied => ⟨fun prompt => ?_, fun timely => ?_⟩⟩
  · cases e with
    | close => trivial
    | mark name ok now clock =>
      cases ok with
      | false => trivial
      | true =>
        rcases Bool.eq_false_or_eq_true (h.data.loops name).ok with up | down
        · rcases Bool.eq_false_or_eq_true (h.due now) with due | early
          · exact .inr (.inl due)
          · obtain ⟨q, record, near⟩ := prompt.close name now (by rw [lastMark, if_pos rfl])
            rw [mark_quiet up early applied] at record
            exact .inr (.inr ⟨q, record, near⟩)
        · exact .inl down
  · obtain ⟨receipt', inv'⟩ := inv.call follows applied
    exact inv'.prompt (inv.close run.close timely applied)

end
end

/-! ### A slow loop beside another one -/

section
attribute [local instance] integral

/-- The clock shows a whole number of seconds below a hundred. -/
def second (n : Fin 100) : Reading where
  value := Int.ofNat n
  time := (Int.ofNat n : Int)
  finite := rfl
  short := by
    revert n
    decide

def demoWorker : Worker where
  pid := 7
  pid_pos := by decide
  pid_small := by decide
  processStart := str "4711"
  digits := by decide
  short := by decide

def demoEnvironment : Environment := ⟨10001, fun _ => .ok (str "4711")⟩

def demoCalls : List Event :=
  [.mark .consumer true (second 20) (second 20), .mark .relay true (second 0) (second 0)]

/-- What the two calls leave. -/
def demoData : Data :=
  ⟨demoWorker, fun l => ⟨true, some (match l with | .relay => second 0 | .consumer => second 20)⟩⟩

/-- The relay succeeds at the start and the consumer twenty seconds later; both marks are
written. -/
lemma demo_run : ∃ h, Runs demoWorker Timely demoCalls (second 20).time h ∧ h.data = demoData ∧
    h.uid = 10001 ∧ h.lastWrite.map Reading.time = some 20 ∧ Wrote 10001 demoData h.path := by
  have started : ∃ h₀, WorkerHealth.start demoWorker 10001 none (second 0) = .ok h₀ := by
    obtain ⟨t, b, text, bytes⟩ := dumps_encode ⟨demoWorker, fun _ => ⟨false, none⟩⟩
    rw [WorkerHealth.start, WorkerHealth.save, text, ok_bind, bytes, ok_bind]
    exact ⟨_, rfl⟩
  obtain ⟨h₀, started⟩ := started
  obtain ⟨h₁, relay⟩ := apply_total h₀ (.mark .relay true (second 0) (second 0))
  obtain ⟨h₂, consumer⟩ := apply_total h₁ (.mark .consumer true (second 20) (second 20))
  obtain ⟨data₀, uid₀, _⟩ := save_inv started
  obtain ⟨data₁, uid₁, _⟩ := apply_inv relay
  obtain ⟨data₂, uid₂, written⟩ := apply_inv consumer
  have down : (h₁.data.loops .consumer).ok = false := by rw [data₁, data₀]; rfl
  have first : Timely h₀ (.mark .relay true (second 0) (second 0)) := Or.inl (by rw [data₀])
  have next : Timely h₁ (.mark .consumer true (second 20) (second 20)) := Or.inl down
  have at₀ : Event.Follows (second 0).time (.mark .relay true (second 0) (second 0)) :=
    And.intro le_rfl le_rfl
  have at₁ : Event.Follows (second 0).time (.mark .consumer true (second 20) (second 20)) :=
    And.intro (by decide) le_rfl
  have data : h₂.data = demoData := by
    rw [data₂, data₁, data₀]
    refine congrArg (Data.mk demoWorker) (funext fun l => ?_)
    cases l <;> rfl
  have uid : h₁.uid = 10001 := by rw [uid₁, uid₀]
  refine ⟨h₂, .call _ (.call _ (.start started) first at₀ relay) next at₁ consumer, data,
    by rw [uid₂, uid], ?_⟩
  rcases written with ⟨last, wrote⟩ | ⟨name, ok, now, clock, e, same, _⟩
  · exact ⟨last, data ▸ uid ▸ wrote⟩
  · -- the status of the consumer has just changed
    cases e
    cases down.symm.trans same

/-- Half a minute after the first mark of the relay both rows are good. -/
lemma demo_ready (l : Loop) : (demoData.loops l).ready (second 30).value = true := by
  cases l with
  | relay =>
    refine Row.ready_iff.2 ⟨rfl, second 0, _, rfl, rfl, ?_, ?_⟩
    · norm_num [second]
    · decide +kernel
  | consumer =>
    refine Row.ready_iff.2 ⟨rfl, second 20, _, rfl, rfl, ?_, ?_⟩
    · norm_num [second]
    · decide +kernel

/-- A second later the row of the relay is not. -/
lemma demo_stale : (demoData.loops .relay).ready (second 31).value ≠ true := by
  intro ready
  obtain ⟨_, t, q, last, view, _, upper⟩ := Row.ready_iff.1 ready
  cases last
  cases view
  exact absurd upper (by decide +kernel)

/-- Both loops marked within the thirty seconds. -/
theorem ready_sound_demo :
    ∃ h : WorkerHealth, isReady demoEnvironment h.path (second 30).value = .ok true ∧
      demoEnvironment.processStart demoWorker.pid = .ok demoWorker.processStart ∧
      ∀ l, status l demoCalls = true := by
  obtain ⟨h, run, _, _, _, wrote⟩ := demo_run
  have ready : isReady demoEnvironment h.path (second 30).value = .ok true :=
    (wrote.isReady _ _).2 ⟨rfl, rfl, demo_ready⟩
  have sound := ready_sound (run.mono fun _ _ _ => trivial) ready
  exact ⟨h, ready, sound.1, fun l => (sound.2 l).1⟩

/-- The calls of the example are prompt. -/
theorem ready_prompt_demo : ∃ h, Prompt demoWorker demoCalls h := by
  obtain ⟨h, run, _⟩ := demo_run
  exact ⟨h, (ready_prompt run).1⟩

/-- The relay succeeds again at the time of the consumer's write. Eleven seconds later both loops
have succeeded within eleven seconds, and the healthcheck fails. -/
theorem ready_prompt_false : ∃ events time h, Runs demoWorker (fun _ _ => True) events time h ∧
    (∀ l, status l events = true ∧ lastMark l events = some (second 20)) ∧
    demoEnvironment.processStart demoWorker.pid = .ok demoWorker.processStart ∧
      h.uid = demoEnvironment.uid ∧
    isReady demoEnvironment h.path (second 31).value ≠ .ok true := by
  obtain ⟨h, run, data, uid, last, wrote⟩ := demo_run
  obtain ⟨h', again⟩ := apply_total h (.mark .relay true (second 20) (second 20))
  have follows : Event.Follows (second 20).time (.mark .relay true (second 20) (second 20)) :=
    And.intro le_rfl le_rfl
  have early : h.due (second 20) = false := by
    obtain ⟨written, some, time⟩ := Option.map_eq_some_iff.1 last
    rw [WorkerHealth.due, some]
    simp only [time]
    decide +kernel
  have path : h'.path = h.path := mark_quiet (by rw [data]; rfl) early again
  refine ⟨_, _, h', .call _ (run.mono fun _ _ _ => trivial) trivial follows again,
    fun l => ?_, rfl, ?_, ?_⟩
  · cases l <;> exact ⟨rfl, rfl⟩
  · exact (apply_inv again).2.1.trans uid
  · rw [path, Ne, wrote.isReady]
    exact fun h => demo_stale (h.2.2 .relay)

end

end DbLab.Mvp.Health
