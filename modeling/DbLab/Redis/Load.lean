import DbLab.Py.Double
import DbLab.Redis.Handed

/-!
# The rate-scheduled workload (`load.exercise`)

A scheduler offers jobs at a rate to a bounded queue, from which worker threads take them. Threads
take turns at each read and write of what they share; a connection belongs to one worker. Times are
floats: what is computed of them is rounded.
-/

namespace DbLab.Redis.Load
open DbLab.Py DbLab.Proc Relation

inductive Op where
  | get
  | set
deriving DecidableEq

/-- The keys of the counter of `Stats`. -/
inductive Key where
  | offered
  | enqueued
  | queueDropped
  | schedulerSkipped
  | expiredBeforeSend
  | cacheMiss
  | cacheHit
  | commandSendAttempted
  | commandNotSent
  | attempted
  | success
  | error
  | op (o : Op)
  | writesNotSent
  | writesRejected
  | writesUncertain
deriving DecidableEq

/-- `Histogram`, without its buckets. -/
structure Histogram where
  n : Nat
  total : Rat
  maximum : Rat

def Histogram.empty : Histogram := ⟨0, 0, 0⟩

def Histogram.add (h : Histogram) (ms : Rat) : Except Exn Histogram :=
  if ms < 0 then .error (.valueError "Invalid latency")
    else .ok ⟨h.n + 1, double (h.total + ms), max h.maximum ms⟩

structure Stats where
  count : Key → Nat
  errors : Str → Nat
  rtt : Histogram
  endToEnd : Histogram

namespace Stats

def init : Stats := ⟨fun _ => 0, fun _ => 0, .empty, .empty⟩

def addCount (s : Stats) (key : Key) (n : Nat) : Stats :=
  { s with count := Function.update s.count key (s.count key + n) }

/-- What the reply to `GET` is counted as. -/
def addCache (s : Stats) : Op → Reply → Stats
  | .set, _ => s
  | .get, .none => s.addCount .cacheMiss 1
  | .get, _ => s.addCount .cacheHit 1

/-- What a failed write is counted as. -/
def writeKey (error : Str) (sendAttempted : Bool) : Key :=
  if !sendAttempted then .writesNotSent
  else if (str "server:").isPrefixOf error then .writesRejected
  else .writesUncertain

/-- `if error: …` -/
def addError (s : Stats) (op : Op) (error : Option Str) (sendAttempted : Bool) : Stats :=
  match error with
  | none | some [] => s
  | some error =>
    let s := { s with errors := Function.update s.errors error (s.errors error + 1) }
    if op = .set then s.addCount (writeKey error sendAttempted) 1 else s

/-- The first counters of `result`. -/
def addResult (s : Stats) (success : Bool) (op : Op) : Stats :=
  ((s.addCount .attempted 1).addCount (if success then .success else .error) 1).addCount (.op op) 1

/-- `result`; what it has counted stays when a latency is refused. -/
def result (s : Stats) (success : Bool) (op : Op) (rtt total : Rat) (error : Option Str)
    (sendAttempted : Bool) :
    Except Exn Unit × Stats :=
  let s := s.addResult success op
  match s.rtt.add rtt with
  | .error e => (.error e, s)
  | .ok h =>
    let s := { s with rtt := h }
    match s.endToEnd.add total with
    | .error e => (.error e, s)
    | .ok h => (.ok (), { s with endToEnd := h }.addError op error sendAttempted)

end Stats

/-- One of the checks of `validate`. -/
def checkRange (name : String) (value : Rat) (lo hi : Nat) : Except Exn Unit :=
  if lo ≤ value ∧ value ≤ hi then .ok () else .error (.valueError s!"{name} must be {lo}..{hi}")

def validate (seconds rate : Rat) (workers keys payload : Nat) : Except Exn Unit := do
  checkRange "seconds" seconds 1 600
  checkRange "rate" rate 1 10000
  checkRange "workers" workers 1 64
  checkRange "keys" keys 1 50000
  checkRange "payload" payload 32 8192
  if 96 * 1024 * 1024 < keys * payload then
    throw (.valueError "Raw seed data exceeds 96MiB safety limit")

/-- The ratios that `exercise` accepts. -/
def checkRatios (readPct hotPct : Int) : Except Exn Unit :=
  if (0 ≤ readPct ∧ readPct ≤ 100) ∧ 0 ≤ hotPct ∧ hotPct ≤ 100 then .ok ()
  else .error (.valueError "Ratios must be 0..100")

inductive Target where
  | perf
  | proxy
  | ha
deriving DecidableEq

/-- A call of `exercise` that has seeded its keys. -/
structure Setup where
  target : Target
  seconds : Rat
  rate : Rat
  workers : Nat
  keys : Nat
  payload : Nat
  readPct : Int
  hotPct : Int
  prefix_ : Str
  password : Str
  start : Rat
  valid : validate seconds rate workers keys payload = .ok ()
  ratios : checkRatios readPct hotPct = .ok ()

namespace Setup
variable (S : Setup)

/-- `1/rate` -/
def interval : Rat := double (1 / S.rate)

/-- `start + seconds` -/
def finish : Rat := double (S.start + S.seconds)

def maxsize : Nat := max 8 (S.workers * 4)

/-- `start + sequence * interval` -/
def due (sequence : Nat) : Rat := double (S.start + double (sequence * S.interval))

/-- `int((now - due) / interval)` where `now` is not before `due`. -/
def behind (now due : Rat) : Nat := ⌊double (double (now - due) / S.interval)⌋.toNat

/-- The keys that `rng` may draw, hot or not. -/
def Draws (keyIndex : Nat) : Prop :=
  ∃ n : Nat, n < 100 ∧ keyIndex < if n < S.hotPct then max 1 (S.keys / 100) else S.keys

/-- The operations that `rng` may draw. -/
def Picks (op : Op) : Prop := ∃ n : Nat, n < 100 ∧ op = if n < S.readPct then .get else .set

end Setup

/-- A job that a worker has drawn a command for. -/
structure Job where
  due : Rat
  op : Op
  key : Str
  sent : Rat

variable [Interpreter]

/-- The command of a job. -/
def Setup.command (S : Setup) (j : Job) : List Arg :=
  match j.op with
  | .get => [.value (.str (str "GET")), .value (.str j.key)]
  | .set => [.value (.str (str "SET")), .value (.str j.key), .bytes (List.replicate S.payload 118),
      .value (.str (str "EX")), .value (.int 1800)]

/-- How a command ended. The last field is not the program's: what the sockets were given
meanwhile. -/
structure Attempt where
  job : Job
  ok : Bool
  error : Option Str
  sendAttempted : Bool
  handed : List Bytes

/-! ### Exceptions -/

/-- `except (RedisError, OSError)` -/
def caught : Raised → Bool
  | .os => true
  | e => e.isRedis

/-- `type(exc).__name__` of an exception that is caught. -/
def className : Raised → String
  | .server _ => "ServerError"
  | .transport _ => "TransportError"
  | .protocol _ | .unsupported _ => "ProtocolError"
  | .os => "OSError"
  | _ => "Exception"

/-- The text of a caught exception in the results. A `ServerError` goes by the first word of its
message. -/
def errorText : Raised → Except Exn Str
  | .server m =>
    if m = [] then .ok (str "server:" ++ str "ServerError")
    else match split m with
      | [] => .error .indexError
      | word :: _ => .ok (str "server:" ++ word)
  | e => .ok (str "transport:" ++ str (className e))

/-! ### The workers -/

/-- What the threads share. The last field is not the program's: the commands that `result` was
called for. -/
structure Shared where
  now : Rat
  jobs : List Rat
  stopped : Bool
  stats : Stats
  logged : Nat
  attempts : List Attempt

/-- What a worker does next. -/
inductive Pc where
  | testing
  | draining
  | getting
  | taken (due : Rat)
  | expiring
  | connecting (j : Job)
  | executing (j : Job)
  | answered (j : Job) (r : Reply) (sendAttempted : Bool) (handed : List Bytes)
  | failed (j : Job) (e : Raised) (sendAttempted : Bool) (handed : List Bytes)
  | closing (j : Job) (error : Str) (sendAttempted : Bool) (handed : List Bytes)
  | logging (a : Attempt)
  | tallying (a : Attempt)
  | timing (a : Attempt)
  | recording (a : Attempt) (now : Rat)
  | ended (r : Except Raised Unit)

/-- Where a worker goes on after `result`. -/
def Pc.resume : Except Exn Unit → Pc
  | .ok _ => .testing
  | .error e => .ended (.error (.py e))

structure Worker where
  pc : Pc
  conn : Option State

/-- What decides whether the books are kept: an exception of `settings.connection`, an error reply
to a command, a failure to write to `request-errors.jsonl`, or a command that is done before its job
is due. -/
inductive Event where
  | quiet
  | connects (e : Raised)
  | refuses (m : Str)
  | unlogged
  | premature

/-- What the exception of a command tells. -/
def Event.ofRaised : Raised → Event
  | .server m => .refuses m
  | _ => .quiet

/-- What `settings.connection(target, timeout)` may do. For the target `ha` it asks Sentinels first,
and takes a `RedisError` of one for no answer; of other exceptions it may raise any. -/
inductive Connects (S : Setup) : Except Raised State → Prop where
  | connection : Connects S (.ok .init)
  | undiscovered (cause : Raised) (ha : S.target = .ha) : Connects S (.error (.transport cause))
  | raises (e : Raised) (ha : S.target = .ha) (other : e.isRedis = false) : Connects S (.error e)

/-- `if c: c.close()` -/
inductive Closes : Option State → Except Raised Unit → Prop where
  | none : Closes none (.ok ())
  | close {c : State} {r l} (ran : wire.Ran close ⟨c, []⟩ r l) : Closes (some c) r

/-- `(now - since) * 1000` -/
def milliseconds (since now : Rat) : Rat := double (double (now - since) * 1000)

/-- A move of a worker. -/
inductive Move (S : Setup) (s : Shared) (w : Worker) : Event → Shared → Worker → Prop where
  -- `while not stop.is_set() or not jobs.empty()`
  | goOn (pc : w.pc = .testing) (on : s.stopped = false) : Move S s w .quiet s
      { w with pc := .getting }
  | drain (pc : w.pc = .testing) (off : s.stopped = true) : Move S s w .quiet s
      { w with pc := .draining }
  | more (pc : w.pc = .draining) (some_ : s.jobs ≠ []) : Move S s w .quiet s
      { w with pc := .getting }
  | leave {r} (pc : w.pc = .draining) (none : s.jobs = []) (closes : Closes w.conn r) :
    Move S s w .quiet s { w with pc := .ended r }
  -- `jobs.get(timeout=.05)`
  | get {due rest} (pc : w.pc = .getting) (jobs : s.jobs = due :: rest) :
    Move S s w .quiet { s with jobs := rest } { w with pc := .taken due }
  | timeout (pc : w.pc = .getting) (none : s.jobs = []) : Move S s w .quiet s
      { w with pc := .testing }
  -- too late to be sent, or drawn and sent
  | late {due} (pc : w.pc = .taken due) (late : S.finish < s.now) :
    Move S s w .quiet s { w with pc := .expiring }
  | expire (pc : w.pc = .expiring) :
    Move S s w .quiet { s with stats := s.stats.addCount .expiredBeforeSend 1 }
      { w with pc := .testing }
  | draw {due op keyIndex} (pc : w.pc = .taken due) (within : s.now ≤ S.finish)
      (draws : S.Draws keyIndex)
      (picks : S.Picks op) :
    Move S s w .quiet s
      { w with pc := .connecting ⟨due, op, S.prefix_ ++ digitChars keyIndex, s.now⟩ }
  -- `if c is None: c = settings.connection(target, timeout=1)`
  | connected {j c} (pc : w.pc = .connecting j) (conn : w.conn = some c) :
    Move S s w .quiet s { w with pc := .executing j }
  | connect {j c} (pc : w.pc = .connecting j) (conn : w.conn = none)
      (connects : Connects S (.ok c)) :
    Move S s w .quiet s ⟨.executing j, some c⟩
  | connectFails {j e} (pc : w.pc = .connecting j) (conn : w.conn = none)
      (connects : Connects S (.error e)) :
    Move S s w (.connects e) s
      { w with pc := if caught e then .failed j e false [] else .ended (.error e) }
  -- `c.execute(...)`
  | execute {j c r l} (pc : w.pc = .executing j) (conn : w.conn = some c)
      (ran : wire.Ran (execute S.password (S.command j)) ⟨{ c with sendAttempted := false },
        []⟩ (.ok r) l) :
    Move S s w .quiet s ⟨.answered j r l.conn.sendAttempted l.handed, some l.conn⟩
  | executeFails {j c e l} (pc : w.pc = .executing j) (conn : w.conn = some c)
      (ran : wire.Ran (execute S.password (S.command j)) ⟨{ c with sendAttempted := false }, []⟩
        (.error e) l) :
    Move S s w (.ofRaised e) s
      ⟨if caught e then .failed j e l.conn.sendAttempted l.handed
        else .ended (.error e), some l.conn⟩
  | answer {j r sendAttempted handed} (pc : w.pc = .answered j r sendAttempted handed) :
    Move S s w .quiet { s with stats := s.stats.addCache j.op r }
      { w with pc := .tallying ⟨j, true, none, sendAttempted, handed⟩ }
  -- `except (RedisError, OSError) as exc`
  | name {j e sendAttempted handed text} (pc : w.pc = .failed j e sendAttempted handed)
      (named : errorText e = .ok text) :
    Move S s w .quiet s { w with pc := .closing j text sendAttempted handed }
  | nameFails {j e e' sendAttempted handed} (pc : w.pc = .failed j e sendAttempted handed)
      (named : errorText e = .error e') : Move S s w .quiet s
        { w with pc := .ended (.error (.py e')) }
  | close {j text sendAttempted handed} (pc : w.pc = .closing j text sendAttempted handed)
      (closes : Closes w.conn (.ok ())) :
    Move S s w .quiet s ⟨.logging ⟨j, false, some text, sendAttempted, handed⟩, none⟩
  | closeFails {j text sendAttempted handed e} (pc : w.pc = .closing j text sendAttempted handed)
      (closes : Closes w.conn (.error e)) : Move S s w .quiet s { w with pc := .ended (.error e) }
  | log {a} (pc : w.pc = .logging a) (room : s.logged < 200) :
    Move S s w .quiet { s with logged := s.logged + 1 } { w with pc := .tallying a }
  | logFails {a} (pc : w.pc = .logging a) (room : s.logged < 200) :
    Move S s w .unlogged s { w with pc := .ended (.error .os) }
  | unlogged {a} (pc : w.pc = .logging a) (full : 200 ≤ s.logged) : Move S s w .quiet s
      { w with pc := .tallying a }
  -- the results
  | tally {a} (pc : w.pc = .tallying a) :
    Move S s w .quiet
      { s with
        stats :=
          s.stats.addCount (if a.sendAttempted then .commandSendAttempted else .commandNotSent) 1 }
      { w with pc := .timing a }
  | time {a} (pc : w.pc = .timing a) (due : a.job.due ≤ s.now) :
    Move S s w .quiet s { w with pc := .recording a s.now }
  | premature {a} (pc : w.pc = .timing a) (early : s.now < a.job.due) :
    Move S s w .premature s { w with pc := .recording a s.now }
  | record {a now r stats} (pc : w.pc = .recording a now)
      (result : s.stats.result a.ok a.job.op (milliseconds a.job.sent now)
        (milliseconds a.job.due now) a.error
        a.sendAttempted = (r, stats)) :
    Move S s w .quiet { s with stats, attempts := s.attempts ++ [a] }
      { w with pc := .resume r }

/-! ### The scheduler -/

/-- What the scheduler does next. -/
inductive Phase where
  | looping
  | reading
  | skipping (now : Rat) (behind : Nat)
  | offering (now : Rat) (behind : Nat)
  | putting (now due : Rat)
  | counting (now : Rat) (key : Key)
  | reporting (now : Rat)
  | stopping
  | joining
  | returned
  | raised

/-- A slot that was offered: what the clock read, and how many slots were skipped for it. -/
structure Offer where
  slot : Nat
  now : Rat
  behind : Nat

/-- The scheduler. The last field is not the program's. -/
structure Scheduler where
  phase : Phase
  sequence : Nat
  nextLog : Rat
  offers : List Offer

/-- A move of the scheduler. -/
inductive Schedules (S : Setup) (s : Shared) (c : Scheduler) : Shared → Scheduler → Prop where
  | goOn (phase : c.phase = .looping) (within : s.now < S.finish) : Schedules S s c s
      { c with phase := .reading }
  | stop (phase : c.phase = .looping) (overdue : S.finish ≤ s.now) : Schedules S s c s
      { c with phase := .stopping }
  | sleep (phase : c.phase = .reading) (early : s.now < S.due c.sequence) :
    Schedules S s c s { c with phase := .looping }
  | behind (phase : c.phase = .reading) (due : S.due c.sequence ≤ s.now)
      (behind : 0 < S.behind s.now (S.due c.sequence)) :
    Schedules S s c s { c with phase := .skipping s.now (S.behind s.now (S.due c.sequence)) }
  | inTime (phase : c.phase = .reading) (due : S.due c.sequence ≤ s.now)
      (behind : S.behind s.now (S.due c.sequence) = 0) :
    Schedules S s c s { c with phase := .offering s.now 0 }
  | skip {now behind} (phase : c.phase = .skipping now behind) :
    Schedules S s c { s with stats := s.stats.addCount .schedulerSkipped behind }
      { c with phase := .offering now behind, sequence := c.sequence + behind }
  | offer {now behind} (phase : c.phase = .offering now behind) :
    Schedules S s c { s with stats := s.stats.addCount .offered 1 }
      { c with
        phase := .putting now (S.due c.sequence)
        sequence := c.sequence + 1
        offers := c.offers ++ [⟨c.sequence, now, behind⟩] }
  | put {now due} (phase : c.phase = .putting now due) (room : s.jobs.length < S.maxsize) :
    Schedules S s c { s with jobs := s.jobs ++ [due] } { c with phase := .counting now .enqueued }
  | full {now due} (phase : c.phase = .putting now due) (full : S.maxsize ≤ s.jobs.length) :
    Schedules S s c s { c with phase := .counting now .queueDropped }
  | count {now key} (phase : c.phase = .counting now key) :
    Schedules S s c { s with stats := s.stats.addCount key 1 } { c with phase := .reporting now }
  | report {now} (phase : c.phase = .reporting now) (due : c.nextLog ≤ now) :
    Schedules S s c s { c with phase := .looping, nextLog := double (now + 1) }
  | reportFails {now} (phase : c.phase = .reporting now) (due : c.nextLog ≤ now) :
    Schedules S s c { s with stopped := true } { c with phase := .raised }
  | unreported {now} (phase : c.phase = .reporting now) (early : now < c.nextLog) :
    Schedules S s c s { c with phase := .looping }
  | end_ (phase : c.phase = .stopping) : Schedules S s c { s with stopped := true }
      { c with phase := .joining }

/-! ### The whole run -/

structure Run where
  shared : Shared
  scheduler : Scheduler
  workers : List Worker

/-- The run when the threads are started. -/
def Setup.init (S : Setup) : Run where
  shared := ⟨S.start, [], false, .init, 0, []⟩
  scheduler := ⟨.looping, 0, double (S.start + 1), []⟩
  workers := List.replicate S.workers ⟨.testing, none⟩

inductive Step (S : Setup) (r : Run) : Event → Run → Prop where
  | tick (t : Rat) (later : r.shared.now ≤ t) : Step S r .quiet
      { r with shared := { r.shared with now := t } }
  | worker {before after w e s w'} (here : r.workers = before ++ w :: after)
      (move : Move S r.shared w e s w') :
    Step S r e { r with shared := s, workers := before ++ w' :: after }
  | scheduler {s c} (schedules : Schedules S r.shared r.scheduler s c) :
    Step S r .quiet { r with shared := s, scheduler := c }
  -- no thread is alive
  | returns (phase : r.scheduler.phase = .joining) (all : ∀ w ∈ r.workers, ∃ e, w.pc = .ended e) :
    Step S r .quiet { r with scheduler := { r.scheduler with phase := .returned } }
  -- a thread is alive, or the cleanup fails
  | raises (phase : r.scheduler.phase = .joining) :
    Step S r .quiet { r with scheduler := { r.scheduler with phase := .raised } }

/-- The states that a run reaches by steps whose events are as in `P`. -/
inductive Reachable (S : Setup) (P : Event → Prop) : Run → Prop where
  | init : Reachable S P S.init
  | step {r r' e} (h : Reachable S P r) (step : Step S r e r') (meets : P e) : Reachable S P r'

end DbLab.Redis.Load
