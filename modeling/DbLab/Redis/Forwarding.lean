import DbLab.Py.Reference
import DbLab.Redis.Proxy

/-!
# What the fault proxy forwards

A relay forwards what it has read, in order, and writes nothing while the rule in force disconnects.
The delays of a chunk are those of the rule that was in force when the relay began to wait for it.
-/

namespace DbLab.Redis.Proxy
open DbLab.Py

/-! ### What is said of a relay -/

/-- A forwarded chunk has been delayed by the terms of the rule in force when it was read, not at
all if there was none, and no rule disconnected when it was written. -/
structure Forwarded.Right (f : Forwarded) : Prop where
  delay : f.chunk.delay = f.chunk.read.delay
  bandwidth : f.chunk.bandwidth = f.chunk.read.bandwidth f.chunk.data.length
  unruled : f.chunk.read = .clear → f.chunk.wait = 0
  waited : f.chunk.readAt + f.chunk.wait ≤ f.writtenAt
  through : f.written.disconnect = false

structure Relay.Right (l : Relay) : Prop where
  sent : l.sent <+: l.received
  chunks : ∀ f ∈ l.forwarded, f.Right

/-- The delay and the bandwidth in force have not changed while the relay waited for the chunk. -/
def Chunk.Steady (c : Chunk) : Prop :=
  c.asked.delayMs = c.read.delayMs ∧ c.asked.kibPerS = c.read.kibPerS

/-! ### What a relay keeps -/

/-- A chunk has the delays of the rule that its relay asked with. -/
structure Chunk.Asked (c : Chunk) : Prop where
  some_ : c.data ≠ []
  delay : c.delay = c.asked.delay
  bandwidth : c.bandwidth = c.asked.bandwidth c.data.length

/-- What has been read and not been written yet. -/
def Pc.inHand : Pc → Bytes
  | holding c | sleeping c _ | checking c | writing c => c.data
  | _ => []

def Pc.writes : Pc → Bool
  | writing _ => true
  | _ => false

/-- What a relay knows when it goes on. -/
def Pc.Valid (now : Rat) (log : List Update) : Pc → Prop
  | asking rule asked => rule.rule = asked
  | holding c => c.Asked ∧ c.readAt ≤ now
  | sleeping c t => c.Asked ∧ c.readAt + c.wait ≤ t
  | checking c => c.Asked ∧ c.readAt + c.wait ≤ now
  | writing c => c.Asked ∧ c.readAt + c.wait ≤ now ∧ (inForce log now).disconnect = false
  | _ => True

structure Forwarded.Kept (f : Forwarded) : Prop where
  asked : f.chunk.Asked
  waited : f.chunk.readAt + f.chunk.wait ≤ f.writtenAt
  through : f.written.disconnect = false

structure Relay.Inv (l : Relay) (now : Rat) (log : List Update) (held : Prop) : Prop where
  sent : l.sent <+: l.received
  rest : l.pc ≠ .ended → l.sent ++ l.pc.inHand ++ l.buffer = l.received
  valid : l.pc.Valid now log
  alone : l.pc.writes = true → held
  chunks : ∀ f ∈ l.forwarded, f.Kept

namespace Relay.Inv
variable {l : Relay} {now : Rat} {log : List Update} {held : Prop}

/-- A new relay has the invariant. -/
lemma init : Relay.init.Inv now log held := ⟨List.nil_prefix, fun _ => rfl, trivial, nofun, nofun⟩

/-- Time passes. -/
lemma later (h : l.Inv now log held) {t : Rat} (le : now ≤ t) : l.Inv t log held := by
  refine ⟨h.sent, h.rest, ?_, h.alone, h.chunks⟩
  have valid := h.valid
  cases pc : l.pc with
  | top | draining | ended => trivial
  | asking rule asked =>
    rw [pc] at valid
    exact valid
  | holding c =>
    rw [pc] at valid
    exact ⟨valid.1, valid.2.trans le⟩
  | sleeping c t =>
    rw [pc] at valid
    exact valid
  | checking c =>
    rw [pc] at valid
    exact ⟨valid.1, valid.2.trans le⟩
  | writing c =>
    rw [pc] at valid
    refine ⟨valid.1, valid.2.1.trans le, ?_⟩
    -- a rule can only run out meanwhile
    cases inForce_later le with
    | inl same => rw [same]; exact valid.2.2
    | inr overdue => rw [overdue]; rfl

/-- Another task has had the thread. -/
lemma yielded (h : l.Inv now log held) (waits : ¬ held) (log' : List Update) (held' : Prop) :
    l.Inv now log' held' := by
  refine ⟨h.sent, h.rest, ?_, fun writes => (waits (h.alone writes)).elim, h.chunks⟩
  have valid := h.valid
  have alone := h.alone
  cases pc : l.pc with
  | writing c =>
    rw [pc] at alone
    exact (waits (alone rfl)).elim
  | top | draining | ended => trivial
  | asking rule asked | holding c | sleeping c t | checking c =>
    rw [pc] at valid
    exact valid

/-- A relay goes on with the bytes that it has. -/
lemma go (h : l.Inv now log held) {pc : Pc} {held' : Prop} (on : l.pc ≠ .ended)
    (same : pc.inHand = l.pc.inHand)
    (valid : pc.Valid now log) (alone : pc.writes = true → held') :
    ({ l with pc } : Relay).Inv now log held' := by
  refine ⟨h.sent, fun _ => ?_, valid, alone, h.chunks⟩
  show l.sent ++ pc.inHand ++ l.buffer = l.received
  rw [same]
  exact h.rest on

/-- A relay that ended. -/
lemma end_ (h : l.Inv now log held) {held' : Prop} :
    ({ l with pc := .ended } : Relay).Inv now log held' :=
  ⟨h.sent, fun on => (on rfl).elim, trivial, nofun, h.chunks⟩

/-- A relay that received more. -/
lemma feed (h : l.Inv now log held) (data : Bytes) :
    ({ l with received := l.received ++ data, buffer := l.buffer ++ data } : Relay).Inv now
      log held := by
  refine ⟨h.sent.trans (List.prefix_append _ _), fun on => ?_, h.valid, h.alone, h.chunks⟩
  show l.sent ++ l.pc.inHand ++ (l.buffer ++ data) = l.received ++ data
  rw [← List.append_assoc, h.rest on]

/-- A chunk is taken from the buffer. -/
lemma read (h : l.Inv now log held) {rule : View} {asked : Rule} (pc : l.pc = .asking rule asked)
    (some_ : l.buffer ≠ [])
    {held' : Prop} :
    ({ l with
      buffer := l.buffer.drop 16384
      pc :=
        .holding (.ofRead (l.buffer.take 16384) rule.rule asked (inForce log now) now) } :
          Relay).Inv now log held' := by
  have same : rule.rule = asked := by
    have valid := h.valid
    rw [pc] at valid
    exact valid
  refine ⟨h.sent, fun _ => ?_, ⟨⟨?_, ?_, ?_⟩, le_refl _⟩, nofun, h.chunks⟩
  · have rest : l.sent ++ l.pc.inHand ++ l.buffer = l.received := h.rest (by rw [pc]; nofun)
    rw [pc, show (Pc.asking rule asked).inHand = [] from rfl, List.append_nil] at rest
    show l.sent ++ l.buffer.take 16384 ++ l.buffer.drop 16384 = l.received
    rw [List.append_assoc, List.take_append_drop]
    exact rest
  · intro none
    exact some_ ((List.take_eq_nil_iff.1 none).resolve_left (by decide))
  · exact congrArg Rule.delay same
  · exact congrArg (Rule.bandwidth · _) same

/-- A chunk is given to the writer. -/
lemma write (h : l.Inv now log held) {c : Chunk} (pc : l.pc = .writing c) {held' : Prop} :
    ({ l with pc := .draining, forwarded := l.forwarded ++ [⟨c, inForce log now, now⟩] } :
      Relay).Inv now log held' := by
  have valid := h.valid
  have rest := h.rest (by rw [pc]; nofun)
  rw [pc] at valid rest
  obtain ⟨asked, waited, through⟩ := valid
  have sent : ({ l with pc := .draining, forwarded := l.forwarded ++ [⟨c, inForce log now, now⟩] } :
    Relay).sent =
      l.sent ++ c.data := by
    rw [Relay.sent, List.map_append, List.flatten_append, List.map_cons, List.map_nil,
      List.flatten_cons, List.flatten_nil, List.append_nil]
    rfl
  refine ⟨?_, fun _ => ?_, trivial, nofun, ?_⟩
  · rw [sent]
    exact ⟨l.buffer, rest⟩
  · rw [sent]
    show l.sent ++ c.data ++ [] ++ l.buffer = l.received
    rw [List.append_nil]
    exact rest
  · intro f mem
    cases List.mem_append.1 mem with
    | inl old => exact h.chunks f old
    | inr new =>
      cases List.mem_singleton.1 new
      exact ⟨asked, waited, through⟩

/-- What a move keeps. -/
lemma move {s s' : Rules} {l' : Relay} {keeps : Bool} (h : l.Inv now log held)
    (tracks : s.Tracks log now)
    (move : Move now log s l keeps s' l') : l'.Inv now log (keeps = true) ∧ s'.Tracks log now := by
  have valid := h.valid
  cases move with
  | refuse pc | drop pc => exact ⟨h.end_, tracks.refresh⟩
  | ask pc => exact ⟨h.go (by rw [pc]; nofun) (by rw [pc]; rfl) tracks.get nofun, tracks.refresh⟩
  | wait pc =>
    rw [pc] at valid
    exact ⟨⟨h.sent, h.rest, by rw [pc]; exact valid, by rw [pc]; nofun, h.chunks⟩, tracks⟩
  | read pc some_ => exact ⟨h.read pc some_, tracks⟩
  | readEnd | readFails | drainFails => exact ⟨h.end_, tracks⟩
  | pass pc none =>
    rw [pc] at valid
    refine ⟨h.go (by rw [pc]; nofun) (by rw [pc]; rfl) ⟨valid.1, ?_⟩ nofun, tracks⟩
    rw [none, add_zero]
    exact valid.2
  | sleep pc =>
    rw [pc] at valid
    exact ⟨h.go (by rw [pc]; nofun) (by rw [pc]; rfl) ⟨valid.1, by linarith [valid.2]⟩ nofun,
      tracks⟩
  | wake pc due =>
    rw [pc] at valid
    exact ⟨h.go (by rw [pc]; nofun) (by rw [pc]; rfl) ⟨valid.1, valid.2.trans due⟩ nofun, tracks⟩
  | check pc through =>
    rw [pc] at valid
    rw [tracks.get] at through
    exact ⟨h.go (by rw [pc]; nofun) (by rw [pc]; rfl) ⟨valid.1, valid.2, through⟩ fun _ => rfl,
      tracks.refresh⟩
  | write pc => exact ⟨h.write pc, tracks⟩
  | full pc => exact ⟨⟨h.sent, h.rest, by rw [pc]; trivial, by rw [pc]; nofun, h.chunks⟩, tracks⟩
  | drained pc => exact ⟨h.go (by rw [pc]; nofun) (by rw [pc]; rfl) trivial nofun, tracks⟩

end Relay.Inv

/-! ### What a run keeps -/

structure Run.Inv (r : Run) : Prop where
  start : 0 ≤ r.now
  tracks : r.rules.Tracks r.log r.now
  relays : ∀ (i : Nat) (l : Relay), r.relays[i]? = some l → l.Inv r.now r.log (r.thread = some i)

/-- Changing one relay keeps the others. -/
lemma Relay.Inv.set {r : Run} {i : Nat} {l l' : Relay} {now : Rat} {log : List Update}
    {thread : Option Nat}
    (here : r.relays[i]? = some l) (new : l'.Inv now log (thread = some i))
    (others : ∀ (j : Nat) (k : Relay), j ≠ i → r.relays[j]? = some k →
      k.Inv now log (thread = some j)) :
    ∀ (j : Nat) (k : Relay), (r.relays.set i l')[j]? = some k →
      k.Inv now log (thread = some j) := by
  intro j k there
  by_cases same : i = j
  · rw [← same, List.getElem?_set_self (List.getElem?_eq_some_iff.1 here).1] at there
    cases there
    rw [← same]
    exact new
  · rw [List.getElem?_set_ne same] at there
    exact others j k (Ne.symm same) there

section
variable [Interpreter]

/-- Every step keeps the invariant. -/
lemma Run.Inv.step {r r' : Run} (h : r.Inv) (step : Step r r') : r'.Inv := by
  cases step with
  | tick t later =>
    exact ⟨h.start.trans later, h.tracks.later later,
      fun i l here => (h.relays i l here).later later⟩
  | update free valid =>
    refine ⟨h.start, .set _ h.start, fun i l here => ?_⟩
    exact (h.relays i l here).yielded (by rw [free]; nofun) _ _
  | look => exact ⟨h.start, h.tracks.refresh, h.relays⟩
  | connect =>
    refine ⟨h.start, h.tracks, fun i l here => ?_⟩
    by_cases old : i < r.relays.length
    · rw [List.getElem?_append_left old] at here
      exact h.relays i l here
    · rw [List.getElem?_append_right (Nat.le_of_not_lt old)] at here
      have new : l = .init := by
        cases List.mem_cons.1 (List.mem_of_getElem? here) with
        | inl first => exact first
        | inr second => exact List.mem_singleton.1 second
      rw [new]
      exact .init
  | arrive free here more data =>
    exact ⟨h.start, h.tracks, .set here ((h.relays _ _ here).feed data) fun j k _ there =>
      h.relays j k there⟩
  | eof free here =>
    have inv := h.relays _ _ here
    exact ⟨h.start, h.tracks, .set here ⟨inv.sent, inv.rest, inv.valid, inv.alone, inv.chunks⟩
      fun j k _ there => h.relays j k there⟩
  | cancel free here =>
    exact ⟨h.start, h.tracks, .set here (h.relays _ _ here).end_ fun j k _ there =>
      h.relays j k there⟩
  | @relay i l keeps rules l' turn here move =>
    obtain ⟨inv, tracks⟩ := (h.relays i l here).move h.tracks move
    refine ⟨h.start, tracks, .set here ?_ fun j k apart there => ?_⟩
    · cases keeps with
      | true => exact ⟨inv.sent, inv.rest, inv.valid, fun _ => rfl, inv.chunks⟩
      | false => exact inv.yielded nofun _ _
    · have waits : r.thread ≠ some j := by
        intro its
        cases turn with
        | inl free => rw [free] at its; cases its
        | inr mine => rw [mine] at its; exact apart (Option.some.inj its).symm
      exact (h.relays j k there).yielded waits _ _

/-- Every reachable run has the invariant. -/
lemma Reachable.inv {r : Run} (h : Reachable r) : r.Inv := by
  induction h with
  | init positive => exact ⟨positive, .reset _, fun i l here => nomatch here⟩
  | step _ step ih => exact ih.step step

/-! ### The delays of a chunk -/

omit [Interpreter] in
/-- A chunk has been delayed by the terms of the rule in force just if these are the ones that its
relay asked with. -/
lemma Forwarded.Kept.right_iff {f : Forwarded} (h : f.Kept) : f.Right ↔ f.chunk.Steady := by
  have long : f.chunk.data.length ≠ 0 := fun none => h.asked.some_ (List.length_eq_zero_iff.1 none)
  constructor
  · intro right
    have delay := right.delay
    have bandwidth := right.bandwidth
    rw [h.asked.delay, Rule.delay_inj] at delay
    rw [h.asked.bandwidth, Rule.bandwidth_inj long] at bandwidth
    exact ⟨delay, bandwidth⟩
  · intro steady
    have delay : f.chunk.delay = f.chunk.read.delay :=
      h.asked.delay.trans (Rule.delay_inj.2 steady.1)
    have bandwidth : f.chunk.bandwidth = f.chunk.read.bandwidth f.chunk.data.length :=
      h.asked.bandwidth.trans ((Rule.bandwidth_inj long).2 steady.2)
    refine ⟨delay, bandwidth, ?_, h.waited, h.through⟩
    intro unruled
    rw [unruled] at delay bandwidth
    rw [Chunk.wait, delay, bandwidth, Rule.bandwidth_eq]
    simp [Rule.delay, Rule.clear]

/-! ### One chunk under one rule -/

section
variable {now : Rat} {s s' : Rules} {log : List Update} {l l' : Relay} {thread : Option Nat}
  {keeps : Bool}

/-- A run goes on as time passes. -/
lemma Reachable.tick (h : Reachable ⟨now, s, log, [l, .init], thread⟩) {t : Rat} (le : now ≤ t) :
    Reachable ⟨t, s, log, [l, .init], thread⟩ := h.step (.tick t le)

/-- A run goes on as bytes arrive. -/
lemma Reachable.arrive (h : Reachable ⟨now, s, log, [l, .init], none⟩) (more : l.eof = false)
    (data : Bytes) :
    Reachable ⟨now, s, log, [{ l with received := l.received ++ data, buffer := l.buffer ++ data },
      .init], none⟩ :=
  h.step (.arrive (i := 0) rfl rfl more data)

/-- A relay of the only connection moves. -/
lemma Reachable.move (h : Reachable ⟨now, s, log, [l, .init], thread⟩)
    (turn : thread = none ∨ thread = some 0)
    (move : Move now log s l keeps s' l') :
    Reachable ⟨now, s', log, [l', .init], if keeps then some 0 else none⟩ :=
      h.step (.relay (i := 0) turn rfl move)

end

/-- A rule is set, a relay asks for data under it, and a chunk that arrives later is forwarded. -/
lemma Reachable.one {obj : Value} {req : Request} (valid : Request.ofValue obj = .ok req)
    (through : req.rule.disconnect = false) (slow : req.rule.delayMs ≠ 0) {t : Rat} (le : 1 ≤ t)
    {data : Bytes}
    (some_ : data ≠ []) :
    ∃ r l f, Reachable r ∧ r.log = [⟨1, req⟩] ∧ r.relays = [l, .init] ∧ l.forwarded = [f] ∧
      f.chunk = .ofRead (data.take 16384) req.rule req.rule (inForce [⟨1, req⟩] t) t := by
  have open_ : ∀ now, (inForce [⟨1, req⟩] now).disconnect = false := by
    intro now
    rw [inForce]
    split
    · rfl
    · exact through
  have on : inForce [⟨1, req⟩] 1 = req.rule := by
    have some_ : (1 : Rat) ≤ req.ttlS := by exact_mod_cast req.ttlS_ge
    exact if_neg (by show ¬ (1 : Rat) + req.ttlS ≤ 1; linarith)
  have set : Reachable ⟨1, .set req 1, [⟨1, req⟩], [.init, .init], none⟩ :=
    ((Reachable.init (show (0 : Rat) ≤ 1 by norm_num)).step (.update rfl valid)).step (.connect rfl)
  have asked := set.move (.inl rfl) (.ask rfl (by rw [set.inv.tracks.get]; exact open_ 1))
  have waiting := asked.move (.inr rfl) (.wait rfl rfl rfl)
  have read := ((waiting.tick le).arrive rfl data).move (.inl rfl) (.read rfl some_)
  have same : ((Rules.set req 1).get 1).rule = req.rule := set.inv.tracks.get.trans on
  have delay : 0 < ((Rules.set req 1).get 1).rule.delay := by
    rw [same]
    have positive : (0 : Rat) < req.rule.delayMs := by exact_mod_cast Nat.pos_of_ne_zero slow
    exact div_pos positive (by norm_num)
  have long : 0 < (Chunk.ofRead (([] ++ data).take 16384) ((Rules.set req 1).get 1).rule
    (inForce [⟨1, req⟩] 1)
      (inForce [⟨1, req⟩] t) t).wait := add_pos_of_pos_of_nonneg delay (Rule.bandwidth_nonneg _ _)
  have slept := read.move (.inr rfl) (.sleep rfl (ne_of_gt long))
  have woken :=
    (slept.tick (le_add_of_nonneg_right long.le)).move (.inl rfl) (.wake rfl (le_refl _))
  have checked := woken.move (.inr rfl) (.check rfl (by rw [woken.inv.tracks.get]; exact open_ _))
  have written := checked.move (.inr rfl) (.write rfl)
  refine ⟨_, _, _, written, rfl, rfl, rfl, ?_⟩
  show Chunk.ofRead (data.take 16384) ((Rules.set req 1).get 1).rule (inForce [⟨1, req⟩] 1)
    (inForce [⟨1, req⟩] t) t = _
  rw [same, on]

/-! ### The result -/

/-- Whatever happens to the rule and to the connections, what is forwarded is a prefix of what was
received and nothing is written under a rule that disconnects. The delays are right just if the
delay and the bandwidth in force never change while a relay waits for a chunk that it then
forwards. -/
theorem forwards_right_iff {r : Run} (h : Reachable r) :
    (∀ l ∈ r.relays, l.sent <+: l.received ∧ ∀ f ∈ l.forwarded, f.written.disconnect = false) ∧
      ((∀ l ∈ r.relays, l.Right) ↔ ∀ l ∈ r.relays, ∀ f ∈ l.forwarded, f.chunk.Steady) := by
  have inv : ∀ l ∈ r.relays, l.sent <+: l.received ∧ ∀ f ∈ l.forwarded, f.Kept := by
    intro l mem
    obtain ⟨i, here⟩ := List.getElem?_of_mem mem
    have kept := h.inv.relays i l here
    exact ⟨kept.sent, kept.chunks⟩
  refine ⟨fun l mem => ⟨(inv l mem).1, fun f mem' => ((inv l mem).2 f mem').through⟩, ?_, ?_⟩
  · intro right l mem f mem'
    exact ((inv l mem).2 f mem').right_iff.1 ((right l mem).chunks f mem')
  · intro steady l mem
    exact ⟨(inv l mem).1, fun f mem' => ((inv l mem).2 f mem').right_iff.2 (steady l mem f mem')⟩

end

section
attribute [local instance] reference

/-- `{"delay_ms": 40, "ttl_s": 2}` is set at 1, and a relay asks for data. What comes at 4 is
delayed all the same. -/
theorem forwards_late :
    ∃ r l f, Reachable r ∧ r.relays = [l, .init] ∧ l.forwarded = [f] ∧ f.chunk.readAt = 4 ∧
      inForce r.log 4 = .clear ∧ f.chunk.wait = 1 / 25 ∧ ¬ l.Right := by
  let req : Request := ⟨⟨40, 0, false, by decide, by decide⟩, 2, by decide, by decide⟩
  have valid : Request.ofValue (.ofFields [("delay_ms", .int 40), ("ttl_s", .int 2)]) = .ok req :=
    rfl
  have overdue : inForce [⟨1, req⟩] 4 = .clear :=
    if_pos (by show (1 : Rat) + (2 : Nat) ≤ 4; norm_num)
  obtain ⟨r, l, f, h, log, relays, forwarded, chunk⟩ :=
    Reachable.one valid rfl (by decide) (show (1 : Rat) ≤ 4 by norm_num) (show [80] ≠ [] by decide)
  have wait : f.chunk.wait = 1 / 25 := by
    rw [chunk]
    show (40 : Nat) / 1000 + (0 : Rat) = 1 / 25
    norm_num
  refine ⟨r, l, f, h, relays, forwarded, by rw [chunk]; rfl, by rw [log]; exact overdue, wait, ?_⟩
  intro right
  have none : f.chunk.wait = 0 :=
    (right.chunks f (by rw [forwarded]; exact List.mem_singleton.2 rfl)).unruled (by
    rw [chunk]
    exact overdue)
  rw [wait] at none
  exact absurd none (by norm_num)

/-- A rule of a minute is still in force at 4. -/
theorem forwards_right_iff_minute :
    ∃ r l f, Reachable r ∧ r.relays = [l, .init] ∧ l.forwarded = [f] ∧ f.chunk.wait = 1 / 25 ∧
      ∀ l ∈ r.relays, l.Right := by
  let req : Request := ⟨⟨40, 0, false, by decide, by decide⟩, 60, by decide, by decide⟩
  have valid : Request.ofValue (.ofFields [("delay_ms", .int 40)]) = .ok req := rfl
  have on : inForce [⟨1, req⟩] 4 = req.rule :=
    if_neg (by show ¬ (1 : Rat) + (60 : Nat) ≤ 4; norm_num)
  obtain ⟨r, l, f, h, log, relays, forwarded, chunk⟩ :=
    Reachable.one valid rfl (by decide) (show (1 : Rat) ≤ 4 by norm_num) (show [80] ≠ [] by decide)
  refine ⟨r, l, f, h, relays, forwarded, ?_, (forwards_right_iff h).2.2 ?_⟩
  · rw [chunk]
    show (40 : Nat) / 1000 + (0 : Rat) = 1 / 25
    norm_num
  · intro l' mem f' mem'
    rw [relays] at mem
    cases mem with
    | head =>
      rw [forwarded] at mem'
      rw [List.mem_singleton.1 mem', chunk]
      exact ⟨congrArg Rule.delayMs on.symm, congrArg Rule.kibPerS on.symm⟩
    | tail _ second =>
      rw [List.mem_singleton.1 second] at mem'
      cases mem'

end

end DbLab.Redis.Proxy
