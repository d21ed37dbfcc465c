import DbLab.Py.Builtins
import DbLab.Py.Exec
import DbLab.Py.Round

/-!
# The fault proxy (`proxy.Rules` and `Proxy.relay`)

All connections share one rule. Tasks give up the thread only where they await something, and while
a task waits time passes, bytes arrive, connections come and go, and the rule is set anew. Numbers
are exact, so that a time is not rounded.
-/

namespace DbLab.Redis.Proxy
open DbLab.Py

/-- The fields of `Rules` that say what the fault is. -/
structure Rule where
  delayMs : Nat
  kibPerS : Nat
  disconnect : Bool
  delayMs_le : delayMs ≤ 1000
  kibPerS_le : kibPerS ≤ 10240
deriving DecidableEq

namespace Rule

def clear : Rule := ⟨0, 0, false, by decide, by decide⟩

/-- `rule['delay_ms'] / 1000` -/
def delay (r : Rule) : Rat := r.delayMs / 1000

/-- What `rule['kib_per_s']` adds for a chunk of `n` bytes. -/
def bandwidth (r : Rule) (n : Nat) : Rat := if r.kibPerS ≠ 0 then n / (r.kibPerS * 1024) else 0

/-- In Lean a division by zero gives zero. -/
lemma bandwidth_eq (r : Rule) (n : Nat) : r.bandwidth n = n / (r.kibPerS * 1024) := by
  unfold bandwidth
  split
  case isTrue => rfl
  case isFalse none => rw [not_not.1 none, Nat.cast_zero, zero_mul, div_zero]

/-- Bandwidth never speeds up. -/
lemma bandwidth_nonneg (r : Rule) (n : Nat) : 0 ≤ r.bandwidth n := by
  rw [bandwidth_eq]
  positivity

/-- A delay is its milliseconds. -/
lemma delay_inj {r r' : Rule} : r.delay = r'.delay ↔ r.delayMs = r'.delayMs := by
  unfold delay
  rw [div_left_inj' (by norm_num), Nat.cast_inj]

/-- A chunk that is not empty tells the bandwidths apart. -/
lemma bandwidth_inj {r r' : Rule} {n : Nat} (some_ : n ≠ 0) :
    r.bandwidth n = r'.bandwidth n ↔ r.kibPerS = r'.kibPerS := by
  rw [bandwidth_eq, bandwidth_eq, div_eq_mul_inv, div_eq_mul_inv,
    mul_right_inj' (Nat.cast_ne_zero.2 some_), inv_inj, mul_left_inj' (by norm_num), Nat.cast_inj]

end Rule

/-- What `set` accepts. -/
structure Request where
  rule : Rule
  ttlS : Nat
  ttlS_ge : 1 ≤ ttlS
  ttlS_le : ttlS ≤ 120

/-- `Rules` -/
structure Rules where
  rule : Rule
  until_ : Rat

/-- What `get` returns. -/
structure View where
  rule : Rule
  remainingS : Rat

namespace Rules

/-- `reset` -/
def reset : Rules := ⟨.clear, 0⟩

/-- What `set` does with a request that it accepts. -/
def set (req : Request) (now : Rat) : Rules := ⟨req.rule, now + req.ttlS⟩

/-- `self.until and time.monotonic() >= self.until` -/
def expired (s : Rules) (now : Rat) : Bool := s.until_ ≠ 0 && s.until_ ≤ now

/-- What `get` makes of the fields. -/
def refresh (s : Rules) (now : Rat) : Rules := if s.expired now then reset else s

/-- What `get` returns. -/
def get (s : Rules) (now : Rat) : View :=
  ⟨(s.refresh now).rule, roundTo 3 (max 0 ((s.refresh now).until_ - now))⟩

end Rules

section
variable [Interpreter]

/-- One of the checks of `set`. -/
def checkInt (name : String) (v : Value) (lo hi : Nat) :
    Except Exn { n : Nat // lo ≤ n ∧ n ≤ hi } :=
  match v with
  | .int (.ofNat n) =>
    if h : lo ≤ n ∧ n ≤ hi then .ok ⟨n, h⟩ else .error (.valueError s!"{name} must be {lo}..{hi}")
  | _ => .error (.valueError s!"{name} must be {lo}..{hi}")

/-- What `set` checks. -/
def Request.ofValue (obj : Value) : Except Exn Request := do
  let .dict ms := obj | throw (.valueError "Unknown rule fields")
  if ms.any fun m => !named ["delay_ms", "kib_per_s", "disconnect", "ttl_s"] m.1 then
    throw (.valueError "Unknown rule fields")
  let delay ← checkInt "delay_ms" (Fields.getD ms "delay_ms" (.int 0)) 0 1000
  let bw ← checkInt "kib_per_s" (Fields.getD ms "kib_per_s" (.int 0)) 0 10240
  let ttl ← checkInt "ttl_s" (Fields.getD ms "ttl_s" (.int 60)) 1 120
  let .bool drop :=
    Fields.getD ms "disconnect" (.bool false) | throw (.valueError "disconnect must be a boolean")
  return ⟨⟨delay, bw, drop, delay.2.2, bw.2.2⟩, ttl, ttl.2.1, ttl.2.2⟩

end

/-! ### The rule in force -/

/-- A request that was accepted, and when. -/
structure Update where
  time : Rat
  req : Request

/-- The rule in force: the one that was set last (the log begins with it) until its time is over. -/
def inForce (log : List Update) (now : Rat) : Rule :=
  match log with
  | [] => .clear
  | u :: _ => if u.time + u.req.ttlS ≤ now then .clear else u.req.rule

/-- A rule stays in force or expires. -/
lemma inForce_later {log : List Update} {now later : Rat} (le : now ≤ later) :
    inForce log later = inForce log now ∨ inForce log later = .clear := by
  cases log with
  | nil => exact .inl rfl
  | cons u log =>
    by_cases overdue : u.time + u.req.ttlS ≤ later
    · exact .inr (if_pos overdue)
    · have on : ¬ u.time + u.req.ttlS ≤ now := fun past => overdue (past.trans le)
      exact .inl ((if_neg overdue).trans (if_neg on).symm)

/-- The fields give the rule in force whenever they will be asked for it. -/
def Rules.Tracks (s : Rules) (log : List Update) (now : Rat) : Prop :=
  ∀ t, now ≤ t → (s.refresh t).rule = inForce log t

namespace Rules

/-- Refreshing twice is refreshing later. -/
lemma refresh_refresh (s : Rules) {now t : Rat} (le : now ≤ t) :
    (s.refresh now).refresh t = s.refresh t := by
  by_cases overdue : s.expired now = true
  · have later : s.expired t = true := by
      rw [expired, Bool.and_eq_true, decide_eq_true_eq, decide_eq_true_eq] at overdue ⊢
      exact ⟨overdue.1, overdue.2.trans le⟩
    rw [refresh, refresh, if_pos overdue, refresh, if_pos later]
    exact ite_self _
  · rw [show s.refresh now = s from if_neg overdue]

namespace Tracks
variable {s : Rules} {log : List Update} {now : Rat}

/-- No rule at first. -/
lemma reset (now : Rat) : reset.Tracks [] now := by
  intro t _
  rw [refresh, ite_self]
  rfl

/-- Later the same rules. -/
lemma later (h : s.Tracks log now) {t : Rat} (le : now ≤ t) : s.Tracks log t :=
  fun t' le' => h t' (le.trans le')

/-- Refreshing keeps track. -/
lemma refresh (h : s.Tracks log now) : (s.refresh now).Tracks log now := by
  intro t le
  rw [refresh_refresh s le]
  exact h t le

/-- The rule that is read is in force. -/
lemma get (h : s.Tracks log now) : (s.get now).rule = inForce log now := h now (le_refl _)

/-- The rule that is set comes into force. -/
lemma set (req : Request) (start : 0 ≤ now) :
    (Rules.set req now).Tracks (⟨now, req⟩ :: log) now := by
  intro t _
  have some_ : (1 : Rat) ≤ req.ttlS := by exact_mod_cast req.ttlS_ge
  have nonzero : now + req.ttlS ≠ 0 := by linarith
  by_cases overdue : now + req.ttlS ≤ t
  · have expired : (Rules.set req now).expired t = true := by
      rw [Rules.expired, Bool.and_eq_true, decide_eq_true_eq, decide_eq_true_eq]
      exact ⟨nonzero, overdue⟩
    rw [Rules.refresh, if_pos expired]
    exact (if_pos overdue).symm
  · have on : ¬ (Rules.set req now).expired t = true := by
      rw [Rules.expired, Bool.and_eq_true, decide_eq_true_eq, decide_eq_true_eq]
      exact fun past => overdue past.2
    rw [Rules.refresh, if_neg on]
    exact (if_neg overdue).symm

end Tracks
end Rules

/-! ### The relays -/

/-- A chunk that a relay has read and its two delays. The last three fields are not the program's:
the rule in force when the relay asked for data, and the rule in force and the time when it read the
chunk. -/
structure Chunk where
  data : Bytes
  delay : Rat
  bandwidth : Rat
  asked : Rule
  read : Rule
  readAt : Rat

/-- `wait` -/
def Chunk.wait (c : Chunk) : Rat := c.delay + c.bandwidth

/-- `data = await reader.read(16384)` and what follows it, with the rule that the relay has from
before. -/
def Chunk.ofRead (data : Bytes) (rule asked read : Rule) (now : Rat) : Chunk :=
  ⟨data, rule.delay, rule.bandwidth data.length, asked, read, now⟩

/-- A chunk that is written, with the rule in force and the time when it was. -/
structure Forwarded where
  chunk : Chunk
  written : Rule
  writtenAt : Rat

/-- What a relay does next. -/
inductive Pc where
  | top
  | asking (rule : View) (asked : Rule)
  | holding (c : Chunk)
  | sleeping (c : Chunk) (until_ : Rat)
  | checking (c : Chunk)
  | writing (c : Chunk)
  | draining
  | ended

/-- A call of `relay`: what its reader was fed and has left of it, and what was written. -/
structure Relay where
  received : Bytes
  buffer : Bytes
  eof : Bool
  pc : Pc
  forwarded : List Forwarded

def Relay.init : Relay := ⟨[], [], false, .top, []⟩

/-- The bytes that a relay has given to its writer. -/
def Relay.sent (l : Relay) : Bytes := (l.forwarded.map fun f => f.chunk.data).flatten

/-- A move of a relay. The Boolean says whether the relay keeps the thread. -/
inductive Move (now : Rat) (log : List Update) (s : Rules) (l : Relay) :
    Bool → Rules → Relay → Prop where
  -- `rule = self.rules.get()`
  | refuse (pc : l.pc = .top) (drop : (s.get now).rule.disconnect = true) :
    Move now log s l false (s.refresh now) { l with pc := .ended }
  | ask (pc : l.pc = .top) (through : (s.get now).rule.disconnect = false) :
    Move now log s l true (s.refresh now) { l with pc := .asking (s.get now) (inForce log now) }
  -- `data = await reader.read(16384)`
  | wait {rule asked} (pc : l.pc = .asking rule asked) (none : l.buffer = [])
      (more : l.eof = false) :
    Move now log s l false s l
  | read {rule asked} (pc : l.pc = .asking rule asked) (some_ : l.buffer ≠ []) :
    Move now log s l true s { l with
      buffer := l.buffer.drop 16384
      pc := .holding (.ofRead (l.buffer.take 16384) rule.rule asked (inForce log now) now) }
  | readEnd {rule asked} (pc : l.pc = .asking rule asked) (none : l.buffer = [])
      (eof : l.eof = true) :
    Move now log s l false s { l with pc := .ended }
  | readFails {rule asked} (pc : l.pc = .asking rule asked) : Move now log s l false s
      { l with pc := .ended }
  -- `if wait: await asyncio.sleep(wait)`
  | pass {c} (pc : l.pc = .holding c) (none : c.wait = 0) : Move now log s l true s
      { l with pc := .checking c }
  | sleep {c} (pc : l.pc = .holding c) (some_ : c.wait ≠ 0) :
    Move now log s l false s { l with pc := .sleeping c (now + c.wait) }
  | wake {c t} (pc : l.pc = .sleeping c t) (due : t ≤ now) : Move now log s l true s
      { l with pc := .checking c }
  -- `if self.rules.get()['disconnect']: return`
  | drop {c} (pc : l.pc = .checking c) (drop : (s.get now).rule.disconnect = true) :
    Move now log s l false (s.refresh now) { l with pc := .ended }
  | check {c} (pc : l.pc = .checking c) (through : (s.get now).rule.disconnect = false) :
    Move now log s l true (s.refresh now) { l with pc := .writing c }
  -- `writer.write(data); await writer.drain()`
  | write {c} (pc : l.pc = .writing c) :
    Move now log s l true s
      { l with pc := .draining, forwarded := l.forwarded ++ [⟨c, inForce log now, now⟩] }
  | full (pc : l.pc = .draining) : Move now log s l false s l
  | drained (pc : l.pc = .draining) : Move now log s l true s { l with pc := .top }
  | drainFails (pc : l.pc = .draining) : Move now log s l false s { l with pc := .ended }

/-! ### The whole run -/

/-- The state of the proxy. The log is not the program's. A connection has two relays; one of all
relays may have the thread. -/
structure Run where
  now : Rat
  rules : Rules
  log : List Update
  relays : List Relay
  thread : Option Nat

/-- The start of the proxy, on a clock that is not negative. -/
def Run.init (start : Rat) : Run := ⟨start, .reset, [], [], none⟩

def Run.setRelay (r : Run) (i : Nat) (l : Relay) : Run := { r with relays := r.relays.set i l }

variable [Interpreter]

inductive Step (r : Run) : Run → Prop where
  | tick (t : Rat) (later : r.now ≤ t) : Step r { r with now := t }
  -- the control port
  | update {obj req} (free : r.thread = none) (valid : Request.ofValue obj = .ok req) :
    Step r { r with rules := .set req r.now, log := ⟨r.now, req⟩ :: r.log }
  | look (free : r.thread = none) : Step r { r with rules := r.rules.refresh r.now }
  -- connections, and what they bring
  | connect (free : r.thread = none) : Step r { r with relays := r.relays ++ [.init, .init] }
  | arrive {i l} (free : r.thread = none) (here : r.relays[i]? = some l) (more : l.eof = false)
      (data : Bytes) :
    Step r (r.setRelay i { l with received := l.received ++ data, buffer := l.buffer ++ data })
  | eof {i l} (free : r.thread = none) (here : r.relays[i]? = some l) :
      Step r (r.setRelay i { l with eof := true })
  | cancel {i l} (free : r.thread = none) (here : r.relays[i]? = some l) :
    Step r (r.setRelay i { l with pc := .ended })
  -- a relay that has the thread, or takes it
  | relay {i l keeps rules l'} (turn : r.thread = none ∨ r.thread = some i)
      (here : r.relays[i]? = some l)
      (move : Move r.now r.log r.rules l keeps rules l') :
    Step r { r with rules, relays := r.relays.set i l', thread := if keeps then some i else none }

inductive Reachable : Run → Prop where
  | init {start : Rat} (positive : 0 ≤ start) : Reachable (.init start)
  | step {r r' : Run} (h : Reachable r) (step : Step r r') : Reachable r'

end DbLab.Redis.Proxy
