import DbLab.Redis.Load

/-!
# The counters of a workload

As long as every exception that reaches a worker has a name, every job that was queued is counted
once when it is done, and when `exercise` returns nothing is left of the queue. A `ServerError`
whose message is only space has no name: the worker dies of it, and its job is counted nowhere.
-/

namespace DbLab.Redis.Load
open DbLab.Py DbLab.Proc

variable [Interpreter]

/-! ### What workers keep -/

/-- An error reply has a first word or no text at all, `settings.connection` raises nothing but what
is caught, the log of errors can be written, and no command is done before its job is due. -/
def Meets : Event → Prop
  | .quiet => True
  | .connects e => caught e = true
  | .refuses m => m = [] ∨ ∃ c ∈ m, unicodeSpace c = false
  | .unlogged | .premature => False

/-- What a failed write is counted as. -/
def Attempt.counted (a : Attempt) : Option Key :=
  if a.ok = false ∧ a.job.op = .set then some (Stats.writeKey (a.error.getD []) a.sendAttempted)
    else none

/-- No byte of the command was given to a socket, if it is a write that says so. -/
def Unsent (S : Setup) (j : Job) (sendAttempted : Bool) (handed : List Bytes) : Prop :=
  j.op = .set → sendAttempted = false → ∀ p, encodeArgs (S.command j) = .ok p → p ∉ handed

structure Attempt.Fair (S : Setup) (a : Attempt) : Prop where
  error : a.ok = a.error.isNone
  named : a.error ≠ some []
  unsent : a.ok = false → Unsent S a.job a.sendAttempted a.handed

/-- The command was drawn, and the job is due. -/
def Job.Past (j : Job) (now : Rat) : Prop := j.sent ≤ now ∧ j.due ≤ now

/-- Where a worker may be. -/
def Pc.Sound (S : Setup) (s : Shared) : Pc → Prop
  | .testing | .getting | .expiring | .taken _ => True
  | .draining => s.stopped = true
  | .connecting j | .executing j | .answered j _ _ _ => j.sent ≤ s.now
  | .failed j e sendAttempted handed =>
    j.sent ≤ s.now ∧ (∃ text, errorText e = .ok text) ∧ Unsent S j sendAttempted handed
  | .closing j text sendAttempted handed =>
    j.sent ≤ s.now ∧ text ≠ [] ∧ Unsent S j sendAttempted handed
  | .logging a | .tallying a | .timing a => a.job.sent ≤ s.now ∧ a.Fair S
  | .recording a now => a.job.Past now ∧ a.Fair S
  | .ended (.ok _) => s.stopped = true ∧ s.jobs = []
  | .ended (.error _) => False

structure Worker.Sound (S : Setup) (s : Shared) (w : Worker) : Prop where
  pc : w.pc.Sound S s
  conn : ∀ c, w.conn = some c → c.Whole

/-- What the moves of others do to what a worker relies on. -/
structure Shared.Later (s s' : Shared) : Prop where
  now : s.now ≤ s'.now
  stopped : s.stopped = true → s'.stopped = true
  jobs : s.stopped = true → s.jobs = [] → s'.jobs = []

omit [Interpreter] in
/-- Nothing happened. -/
lemma Shared.Later.refl (s : Shared) : s.Later s := ⟨le_refl _, id, fun _ none => none⟩

variable {S : Setup} {s s' : Shared} {w w' : Worker} {e : Event}

/-- A sound worker stays sound. -/
lemma Worker.Sound.later (h : w.Sound S s) (later : s.Later s') : w.Sound S s' := by
  refine ⟨?_, h.conn⟩
  have pc := h.pc
  cases at_ : w.pc with
  | testing | getting | expiring | taken => trivial
  | draining =>
    rw [at_] at pc
    exact later.stopped pc
  | connecting j | executing j | answered j =>
    rw [at_] at pc
    exact le_trans pc later.now
  | failed j | closing j | logging a | tallying a | timing a =>
    rw [at_] at pc
    exact ⟨pc.1.trans later.now, pc.2⟩
  | recording a now =>
    rw [at_] at pc
    exact pc
  | ended r =>
    rw [at_] at pc
    cases r with
    | ok a => exact ⟨later.stopped pc.1, later.jobs pc.1 pc.2⟩
    | error e => exact pc.elim

/-! ### Names and packets -/

omit [Interpreter] in
/-- An error has a text. -/
lemma errorText_ne_nil {e : Raised} {text : Str} (h : errorText e = .ok text) : text ≠ [] := by
  rintro rfl
  cases e with
  | server m =>
    rw [errorText] at h
    split_ifs at h
    · cases h
    · split at h
      · cases h
      · cases h
  | py | os | eof | protocol | unsupported | transport | interrupt => cases h

omit [Interpreter] in
/-- An exception that is caught has a name, if it is no `ServerError` of nothing but space. -/
lemma errorText_ok {e : Raised} (h : Meets (.ofRaised e)) : ∃ text, errorText e = .ok text := by
  cases e with
  | server m =>
    rw [errorText]
    split_ifs with empty
    · exact ⟨_, rfl⟩
    · cases words : split m with
      | nil =>
        obtain ⟨c, mem, word⟩ := h.resolve_left empty
        cases word.symm.trans (split_eq_nil.1 words c mem)
      | cons word words => exact ⟨_, rfl⟩
  | py | os | eof | protocol | unsupported | transport | interrupt => exact ⟨_, rfl⟩

omit [Interpreter] in
/-- What `settings.connection` raises has a name. -/
lemma Connects.named {e : Raised} (h : Connects S (.error e)) : ∃ text, errorText e = .ok text := by
  cases h with
  | undiscovered cause ha => exact ⟨_, rfl⟩
  | raises e ha other =>
    cases e with
    | server m => cases other
    | py | os | eof | protocol | unsupported | transport | interrupt => exact ⟨_, rfl⟩

omit [Interpreter] in
/-- A Redis error is caught. -/
lemma caught_of_isRedis {e : Raised} (h : e.isRedis = true) : caught e = true := by
  cases e with
  | os => rfl
  | py | eof | protocol | unsupported | server | transport | interrupt => exact h

/-- Two lists of arguments with one packet are equally long. -/
lemma encodeArgs_length {args args' : List Arg} {p : Bytes} (h : encodeArgs args = .ok p)
    (h' : encodeArgs args' = .ok p) :
    args.length = args'.length := by
  obtain ⟨items, itemized, rfl⟩ := encodeArgs_items h
  obtain ⟨items', itemized', same⟩ := encodeArgs_items h'
  have one : items = items' := (command_delimited (congrArg (· ++ []) same)).1
  rw [(mapM_eq_ok itemized).length_eq, (mapM_eq_ok itemized').length_eq, one]

/-- A write is not what `AUTH` gives to the socket. -/
lemma not_handed {j : Job} {handed : List Bytes} (h : AuthOnly S.password handed)
    (write : j.op = .set) {p : Bytes}
    (packed : encodeArgs (S.command j) = .ok p) : p ∉ handed := by
  intro mem
  have lengths := encodeArgs_length packed (h p mem)
  rw [Setup.command, write] at lengths
  cases lengths

/-- The command of a job is plain. -/
lemma Setup.command_plain (S : Setup) (j : Job) :
    S.command j ≠ [] ∧ ∀ a ∈ S.command j, a.Plain := by
  rw [command]
  split
  · exact ⟨nofun, by simp [Arg.Plain]⟩
  · exact ⟨nofun, by simp [Arg.Plain]⟩

/-! ### One move -/

omit [Interpreter] in
/-- A latency is refused only when time goes back. -/
lemma milliseconds_nonneg {since now : Rat} (past : since ≤ now) : ¬milliseconds since now < 0 := by
  have rounded : 0 ≤ double (now - since) := double_nonneg_iff.2 (sub_nonneg.2 past)
  exact not_lt.2 (double_nonneg_iff.2 (mul_nonneg rounded (by norm_num)))

omit [Interpreter] in
/-- A result of the past is recorded. -/
lemma Stats.result_ok (stats : Stats) {a : Attempt} {now : Rat} (past : a.job.Past now) :
    ∃ stats', stats.result a.ok a.job.op (milliseconds a.job.sent now)
      (milliseconds a.job.due now) a.error
      a.sendAttempted = (.ok (), stats') := by
  simp only [Stats.result, Histogram.add, if_neg (milliseconds_nonneg past.1),
    if_neg (milliseconds_nonneg past.2)]
  exact ⟨_, rfl⟩

/-- A worker's connection stays whole when a command ends. -/
lemma execute_whole {j : Job} {c : State} {r : Except Raised Reply} {l : Line} (whole : c.Whole)
    (ran : wire.Ran (execute S.password (S.command j))
      ⟨{ c with sendAttempted := false }, []⟩ r l) :
    match r with | .ok _ => l.conn.Whole | .error e => Failure S.password e l := by
  obtain ⟨some_, plain⟩ := S.command_plain j
  have post :=
    ran.post (execute_wire (l := ⟨{ c with sendAttempted := false }, []⟩) some_ plain whole rfl)
  cases r with
  | ok a => exact post
  | error e => exact post

omit [Interpreter] in
/-- `close` raises nothing. -/
lemma Closes.ok {conn : Option State} {r : Except Raised Unit} (h : Closes conn r) :
    r = .ok () := by
  cases h with
  | none => rfl
  | @close c _ l ran =>
    have post := ran.post (close_wire (l := ⟨c, []⟩) (H := fun _ => True) ⟨rfl, trivial⟩)
    cases r with
    | ok a => rfl
    | error e => exact post.elim

/-- What a worker's move leaves to the others. -/
lemma Move.later (move : Move S s w e s' w') : s.Later s' := by
  cases move with
  | get pc jobs => exact ⟨le_refl _, id, fun _ none => nomatch jobs.symm.trans none⟩
  | goOn | drain | more | leave | timeout | late | expire | draw | connected | connect
  | connectFails | execute | executeFails | answer | name | nameFails | close | closeFails | log
  | logFails | unlogged | tally | time | premature | record =>
    exact ⟨le_refl _, id, fun _ none => none⟩

/-- A move does not stop the run. -/
lemma Move.stopped (move : Move S s w e s' w') : s'.stopped = s.stopped := by
  cases move <;> rfl

/-- A worker that has ended does nothing. -/
lemma Move.not_ended {result : Except Raised Unit} (pc : w.pc = .ended result)
    (move : Move S s w e s' w') : False := by
  cases move <;> simp_all

/-- A move keeps its worker sound. -/
lemma Move.sound (h : w.Sound S s) (move : Move S s w e s' w') (meets : Meets e) :
    w'.Sound S s' := by
  have at_ := h.pc
  cases move with
  | goOn pc on => exact ⟨trivial, h.conn⟩
  | drain pc off => exact ⟨off, h.conn⟩
  | more pc some_ => exact ⟨trivial, h.conn⟩
  | leave pc none closes =>
    rw [pc] at at_
    rw [closes.ok]
    exact ⟨⟨at_, none⟩, h.conn⟩
  | get pc jobs => exact ⟨trivial, h.conn⟩
  | timeout pc none => exact ⟨trivial, h.conn⟩
  | late pc late => exact ⟨trivial, h.conn⟩
  | expire pc => exact ⟨trivial, h.conn⟩
  | draw pc within draws picks => exact ⟨le_refl _, h.conn⟩
  | connected pc conn =>
    rw [pc] at at_
    exact ⟨at_, h.conn⟩
  | connect pc conn connects =>
    rw [pc] at at_
    refine ⟨at_, ?_⟩
    cases connects with
    | connection =>
      rintro c ⟨⟩
      exact nofun
  | @connectFails j e pc conn connects =>
    rw [pc] at at_
    rw [if_pos (show caught e = true from meets)]
    exact ⟨⟨at_, connects.named, fun _ _ _ _ => nofun⟩, h.conn⟩
  | execute pc conn ran =>
    rw [pc] at at_
    refine ⟨at_, ?_⟩
    rintro c ⟨⟩
    exact execute_whole (h.conn _ conn) ran
  | executeFails pc conn ran =>
    rw [pc] at at_
    have failure : Failure S.password _ _ := execute_whole (h.conn _ conn) ran
    rw [if_pos (caught_of_isRedis failure.redis)]
    refine ⟨⟨at_, errorText_ok meets,
      fun write unset p packed => not_handed (failure.unsent unset) write packed⟩, ?_⟩
    rintro c ⟨⟩
    exact failure.whole
  | answer pc =>
    rw [pc] at at_
    exact ⟨⟨at_, rfl, nofun, nofun⟩, h.conn⟩
  | name pc named =>
    rw [pc] at at_
    exact ⟨⟨at_.1, errorText_ne_nil named, at_.2.2⟩, h.conn⟩
  | nameFails pc named =>
    rw [pc] at at_
    obtain ⟨-, ⟨text, ok⟩, -⟩ := at_
    cases ok.symm.trans named
  | close pc closes =>
    rw [pc] at at_
    exact ⟨⟨at_.1, rfl, fun same => at_.2.1 (Option.some.inj same), fun _ => at_.2.2⟩, nofun⟩
  | closeFails pc closes => cases closes.ok
  | log pc room =>
    rw [pc] at at_
    exact ⟨at_, h.conn⟩
  | logFails pc room => exact meets.elim
  | unlogged pc full =>
    rw [pc] at at_
    exact ⟨at_, h.conn⟩
  | tally pc =>
    rw [pc] at at_
    exact ⟨at_, h.conn⟩
  | time pc due =>
    rw [pc] at at_
    exact ⟨⟨⟨at_.1, due⟩, at_.2⟩, h.conn⟩
  | premature pc early => exact meets.elim
  | record pc result =>
    rw [pc] at at_
    obtain ⟨stats', ok⟩ := Stats.result_ok s.stats at_.1
    cases result.symm.trans ok
    exact ⟨trivial, h.conn⟩

/-! ### What is counted -/

namespace Stats
omit [Interpreter]

/-- Counting one key. -/
@[simp] lemma addCount_count (s : Stats) (k k' : Key) (n : Nat) :
    (s.addCount k n).count k' = s.count k' + if k' = k then n else 0 := by
  by_cases same : k' = k
  · subst same
    rw [if_pos rfl]
    exact Function.update_self ..
  · rw [if_neg same]
    exact Function.update_of_ne same ..

/-- Counting a result. -/
lemma addResult_count (s : Stats) (ok : Bool) (op : Op) (k : Key) :
    (s.addResult ok op).count k = s.count k + (if k = .attempted then 1 else 0) +
      (if k = (if ok then .success else .error) then 1 else 0) + if k = .op op then 1 else 0 := by
  simp only [addResult, addCount_count]

/-- The jobs that are done with. -/
def done (s : Stats) : Nat := s.count .success + s.count .error + s.count .expiredBeforeSend

/-- Counting an error. -/
lemma addError_count {s : Stats} {a : Attempt} (fair : a.ok = a.error.isNone)
    (named : a.error ≠ some []) (k : Key) :
    (s.addError a.job.op a.error a.sendAttempted).count k = s.count k + if a.counted =
      some k then 1 else 0 := by
  unfold addError Attempt.counted
  rw [fair]
  cases error : a.error with
  | none => rfl
  | some text =>
    cases text with
    | nil => exact absurd error named
    | cons c text =>
      dsimp only [Option.isNone_some, Option.getD_some]
      by_cases write : a.job.op = .set
      · simp [write, eq_comm]
      · simp [write]

/-- Counting both. -/
lemma result_count {s s' : Stats} {a : Attempt} {rtt total : Rat}
    (h : s.result a.ok a.job.op rtt total a.error a.sendAttempted = (.ok (), s'))
    (fair : a.ok = a.error.isNone)
    (named : a.error ≠ some []) (k : Key) :
    s'.count k = (s.addResult a.ok a.job.op).count k + if a.counted = some k then 1 else 0 := by
  unfold result at h
  dsimp only at h
  split at h
  · cases h
  · split at h
    · cases h
    · cases h
      exact addError_count fair named k

end Stats

omit [Interpreter] in
/-- The kinds of failed writes. -/
lemma counted_kind {a : Attempt} {k : Key} (h : a.counted = some k) :
    k ∈ [Key.writesNotSent, .writesRejected, .writesUncertain] := by
  unfold Attempt.counted Stats.writeKey at h
  split_ifs at h <;> cases h <;> decide

/-- The counters of results count the commands that `result` was called for. -/
structure Books (S : Setup) (s : Shared) : Prop where
  attempted : s.stats.count .attempted = s.attempts.length
  success : s.stats.count .success = s.attempts.countP (·.ok)
  error : s.stats.count .error = s.attempts.countP (!·.ok)
  op : ∀ o, s.stats.count (.op o) = s.attempts.countP (·.job.op = o)
  writes : ∀ k ∈ [Key.writesNotSent, .writesRejected, .writesUncertain],
    s.stats.count k = s.attempts.countP (·.counted = some k)
  fair : ∀ a ∈ s.attempts, a.Fair S

/-- A counter that `result` does not touch. -/
lemma Books.addCount (h : Books S s) {k : Key} (n : Nat)
    (other : k ∉ [Key.attempted, .success, .error, .writesNotSent, .writesRejected,
      .writesUncertain]) (noOp : ∀ o, k ≠ .op o) :
      Books S { s with stats := s.stats.addCount k n } := by
  simp only [List.mem_cons, List.not_mem_nil, or_false, not_or] at other
  obtain ⟨attempted, success, error, notSent, rejected, uncertain⟩ := other
  refine ⟨?_, ?_, ?_, fun o => ?_, fun k' m => ?_, h.fair⟩
  · simpa [Ne.symm attempted] using h.attempted
  · simpa [Ne.symm success] using h.success
  · simpa [Ne.symm error] using h.error
  · simpa [Ne.symm (noOp o)] using h.op o
  · have ne : k' ≠ k := by
      rintro rfl
      simp_all
    simpa [ne] using h.writes k' m

/-- A recorded result keeps the books. -/
lemma Books.record (h : Books S s) {a : Attempt} {rtt total : Rat} {stats : Stats} (fair : a.Fair S)
    (result : s.stats.result a.ok a.job.op rtt total a.error a.sendAttempted = (.ok (), stats)) :
    Books S { s with stats, attempts := s.attempts ++ [a] } := by
  have count := Stats.result_count result fair.error fair.named
  have none : ∀ k, k ∉ [Key.writesNotSent, .writesRejected, .writesUncertain] →
      a.counted ≠ some k :=
    fun k other counted => other (counted_kind counted)
  refine ⟨?_, ?_, ?_, fun o => ?_, fun k m => ?_, ?_⟩
  · rw [count, Stats.addResult_count, if_neg (none _ (by decide)), h.attempted, List.length_append]
    cases a.ok <;> rfl
  · rw [count, Stats.addResult_count, if_neg (none _ (by decide)), h.success, List.countP_append,
      List.countP_singleton]
    cases a.ok <;> rfl
  · rw [count, Stats.addResult_count, if_neg (none _ (by decide)), h.error, List.countP_append,
      List.countP_singleton]
    cases a.ok <;> rfl
  · rw [count, Stats.addResult_count, if_neg (none _ (by simp)), h.op, List.countP_append,
      List.countP_singleton]
    cases a.ok <;> simp [eq_comm]
  · rw [count, Stats.addResult_count, h.writes k m, List.countP_append, List.countP_singleton]
    simp only [List.mem_cons, List.not_mem_nil, or_false] at m
    rcases m with rfl | rfl | rfl <;> cases a.ok <;> simp
  · intro b m
    rcases List.mem_append.1 m with old | new
    · exact h.fair b old
    · rwa [List.mem_singleton.1 new]

/-- A move keeps the books. -/
lemma Move.books (h : Books S s) (sound : w.Sound S s) (move : Move S s w e s' w') :
    Books S s' := by
  cases move with
  | expire pc => exact h.addCount 1 (by decide) nofun
  | @answer j r _ _ pc =>
    unfold Stats.addCache
    split
    · exact h
    · exact h.addCount 1 (by decide) nofun
    · exact h.addCount 1 (by decide) nofun
  | @tally a pc => cases a.sendAttempted <;> exact h.addCount 1 (by decide) nofun
  | record pc result =>
    have at_ := sound.pc
    rw [pc] at at_
    obtain ⟨stats', ok⟩ := Stats.result_ok s.stats at_.1
    cases result.symm.trans ok
    exact h.record at_.2 result
  | goOn | drain | more | leave | get | timeout | late | draw | connected | connect | connectFails
  | execute | executeFails | name | nameFails | close | closeFails | log | logFails | unlogged
  | time | premature =>
    exact ⟨h.attempted, h.success, h.error, h.op, h.writes, h.fair⟩

/-- A worker has a job that is not done with. -/
def Pc.holds : Pc → Bool
  | .testing | .draining | .getting | .ended _ => false
  | _ => true

/-- The jobs that were queued and are not done with are in the queue or with a worker. -/
structure Flows (s : Shared) (w : Worker) (s' : Shared) (w' : Worker) : Prop where
  done : s'.stats.done + s'.jobs.length + w'.pc.holds.toNat = s.stats.done + s.jobs.length +
    w.pc.holds.toNat
  others : ∀ k ∈ [Key.offered, .enqueued, .queueDropped], s'.stats.count k = s.stats.count k

omit [Interpreter] in
/-- A counter that does not count jobs. -/
lemma Flows.addCount {k : Key} (n : Nat) (holds : w'.pc.holds = w.pc.holds)
    (other : k ∉ [Key.success, .error, .expiredBeforeSend, .offered, .enqueued, .queueDropped]) :
    Flows s w { s with stats := s.stats.addCount k n } w' := by
  simp only [List.mem_cons, List.not_mem_nil, or_false, not_or] at other
  obtain ⟨success, error, expired, offered, enqueued, dropped⟩ := other
  refine ⟨?_, fun k' m => ?_⟩
  · simp [Stats.done, holds, Ne.symm success, Ne.symm error, Ne.symm expired]
  · simp only [List.mem_cons, List.not_mem_nil, or_false] at m
    rcases m with rfl | rfl | rfl
    · simp [Ne.symm offered]
    · simp [Ne.symm enqueued]
    · simp [Ne.symm dropped]

omit [Interpreter] in
/-- A recorded result is what leaves a worker. -/
lemma Flows.record {a : Attempt} {rtt total : Rat} {stats : Stats} (named : a.error ≠ some [])
    (fair : a.ok = a.error.isNone) (before : w.pc.holds = true) (after : w'.pc.holds = false)
    (result : s.stats.result a.ok a.job.op rtt total a.error a.sendAttempted = (.ok (), stats)) :
    Flows s w { s with stats, attempts := s.attempts ++ [a] } w' := by
  have none : ∀ k, k ∉ [Key.writesNotSent, .writesRejected, .writesUncertain] →
      a.counted ≠ some k :=
    fun k other counted => other (counted_kind counted)
  have count : ∀ k, k ∉ [Key.writesNotSent, .writesRejected, .writesUncertain] →
      stats.count k = (s.stats.addResult a.ok a.job.op).count k := by
    intro k other
    rw [Stats.result_count result fair named, if_neg (none k other), Nat.add_zero]
  refine ⟨?_, fun k m => ?_⟩
  · rw [before, after, Stats.done, Stats.done, count _ (by decide), count _ (by decide),
      count _ (by decide), Stats.addResult_count, Stats.addResult_count, Stats.addResult_count]
    cases a.ok <;> simp <;> omega
  · simp only [List.mem_cons, List.not_mem_nil, or_false] at m
    rcases m with rfl | rfl | rfl <;>
      rw [count _ (by decide), Stats.addResult_count] <;> cases a.ok <;> rfl

/-- A move passes on what it holds. -/
lemma Move.flows (sound : w.Sound S s) (alive : w'.Sound S s') (move : Move S s w e s' w') :
    Flows s w s' w' := by
  have there := alive.pc
  cases move with
  | get pc jobs =>
    refine ⟨?_, fun _ _ => rfl⟩
    rw [pc, jobs, List.length_cons]
    rfl
  | expire pc =>
    refine ⟨?_, fun k m => ?_⟩
    · rw [pc]
      simp [Stats.done, Pc.holds]
      omega
    · simp only [List.mem_cons, List.not_mem_nil, or_false] at m
      rcases m with rfl | rfl | rfl <;> simp
  | @answer j r _ _ pc =>
    unfold Stats.addCache
    split
    · exact ⟨by rw [pc]; rfl, fun _ _ => rfl⟩
    · exact .addCount 1 (by rw [pc]; rfl) (by decide)
    · exact .addCount 1 (by rw [pc]; rfl) (by decide)
  | @tally a pc =>
    refine .addCount 1 (by rw [pc]; rfl) ?_
    cases a.sendAttempted <;> decide
  | record pc result =>
    have at_ := sound.pc
    rw [pc] at at_
    obtain ⟨stats', ok⟩ := Stats.result_ok s.stats at_.1
    cases result.symm.trans ok
    exact .record at_.2.named at_.2.error (by rw [pc]; rfl) rfl result
  | @connectFails j e pc conn connects =>
    refine ⟨?_, fun _ _ => rfl⟩
    dsimp only at there ⊢
    split_ifs at there with ok
    · rw [pc, if_pos ok]
      rfl
    · exact there.elim
  | @executeFails j _ e _ pc conn ran => 
    refine ⟨?_, fun _ _ => rfl⟩
    dsimp only at there ⊢
    split_ifs at there with ok
    · rw [pc, if_pos ok]
      rfl
    · exact there.elim
  | nameFails pc named => exact there.elim
  | closeFails pc closes => exact there.elim
  | logFails pc room => exact there.elim
  | goOn pc | drain pc | more pc | leave pc | timeout pc | late pc | draw pc | connected pc
  | connect pc | execute pc | name pc | close pc | log pc | unlogged pc | time pc | premature pc =>
    refine ⟨?_, fun _ _ => rfl⟩
    rw [pc]
    rfl

end DbLab.Redis.Load
