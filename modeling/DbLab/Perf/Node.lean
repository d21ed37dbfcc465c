import DbLab.Proc.Program
import DbLab.Py.Utf8

/-!
# The perf node and the files of a run

The server that scenarios change the configuration of, the connection to it, and the journal and the
lock in the results directory. The server may restart at any time, with its default configuration
and with any data. Every call may fail or be interrupted, before or after its effect.
-/

namespace DbLab.Perf
open DbLab.Py DbLab.Proc

/-- What the code raises: its own exceptions, those of the connection, and interruptions. -/
inductive Raised where
  | py (e : Exn)
  | runtimeError (message : Str)
  | blocked (message : Str)
  | os
  | transport
  | server
  | interrupt

/-- A configuration: the text of each setting that the server supports. -/
abbrev Configuration := Str → Option Str

/-- A dictionary of settings. -/
abbrev Settings := List (Str × Str)

def Settings.names (d : Settings) : List Str := d.map Prod.fst

/-- The fields of `INFO` that are read. The run id of a process is its number. -/
structure Info where
  role : Option Str
  connectedSlaves : Option Int
  usedMemory : Option Int
  runId : Nat

/-- `recovery.json`, less the report that it names. -/
structure Journal where
  serverId : Nat
  keyPrefix : Str
  config : Settings

/-- The attributes of a `Guard` that was entered. -/
structure Guard where
  serverId : Nat
  keyPrefix : Str
  original : Settings

/-- A connection: to which process, and whether a reply to an earlier command is unread. -/
inductive Link where
  | closed
  | opened (process : Nat) (stale : Bool)

/-- A `CONFIG SET` that a server received: what was on disk, and the configuration of the process
before a guard changed it. -/
structure Change where
  journal : Option Journal
  base : Configuration
  names : List Str

/-- The server, the files, and the process that runs a scenario. Of the server: its data, the keys
that the `SCAN` under way has yet to return, and the configuration that it had before a guard
changed it. The lock is held by a guard, or else by what is about to run under it. Of the past:
which process answered `PING` last, and which changes and keys commands were sent for, with the
journal of the time. -/
structure State where
  process : Nat
  config : Configuration
  base : Configuration
  keys : List Bytes
  unseen : List Bytes
  link : Link
  guard : Option Guard
  locked : Bool
  journal : Option Journal
  pinged : Option Nat
  changes : List Change
  unlinked : List (Option Journal × Bytes)

/-- The commands of Redis that the code sends. `write` stands for those of a scenario. -/
inductive Verb where
  | info
  | configGet (names : List Str)
  | configSet (settings : Settings)
  | scan (cursor : Nat) (keyPrefix : Bytes)
  | unlink (keys : List Bytes)
  | ping
  | write (keys : List Bytes)

abbrev Verb.Answer : Verb → Type
  | .info => Info
  | .configGet _ => Settings
  | .scan _ _ => Nat × List Bytes
  | .unlink _ => Nat
  | .ping => Bytes
  | .configSet _ | .write _ => Unit

inductive Call where
  | redis (v : Verb)
  | connection
  | flock
  | unlock
  | journalExists
  | readJournal
  | persist (j : Journal)
  | unlinkJournal
  | self
  | abandon
  | enter (g : Guard)
  | remember (name value : Str)
  | release
  | hang

abbrev Call.Result : Call → Type
  | .redis v => v.Answer
  | .flock | .journalExists => Bool
  | .readJournal => Journal
  | .self => Guard
  | .hang => Empty
  | _ => Unit

def calls : Interface := ⟨Call, Call.Result⟩

/-- `b'PONG'` -/
def pong : Bytes := [80, 79, 78, 71]

/-- A server takes note of a command. -/
def State.receive (s : State) : Verb → State
  | .configSet settings => { s with changes := s.changes ++ [⟨s.journal, s.base, settings.names⟩] }
  | _ => s

/-- The keys that a `SCAN` has still to return once it has returned some. -/
def State.rest (s : State) (cursor : Nat) (keys : List Bytes) : List Bytes :=
  (if cursor = 0 then s.keys else s.unseen).filter (· ∉ keys)

/-- What a server does for a command. What it makes of a value that it sets is left open. Keys that
are there from the beginning of a full iteration to its end are returned by it. -/
inductive Serves : (v : Verb) → State → v.Answer → State → Prop where
  | info (s) (i : Info) (own : i.runId = s.process) : Serves .info s i s
  | configGet (s names) (d : Settings) (values : ∀ k ∈ names, d.lookup k = s.config k) :
    Serves (.configGet names) s d s
  | configSet (s settings) (config : Configuration) (supported : ∀ k,
      (config k).isSome = (s.config k).isSome)
      (others : ∀ k, k ∉ settings.names → config k = s.config k) :
    Serves (.configSet settings) s () { s.receive (.configSet settings) with config }
  | scan (s cursor keyPrefix next keys) (present : ∀ k ∈ keys, k ∈ s.keys ∧ keyPrefix <+: k)
      (full : next = 0 → ∀ k ∈ s.rest cursor keys, ¬keyPrefix <+: k) :
    Serves (.scan cursor keyPrefix) s (next, keys) { s with unseen := s.rest cursor keys }
  | unlink (s keys) : Serves (.unlink keys) s (s.keys.filter (· ∈ keys)).length
      { s with
        keys := s.keys.filter (· ∉ keys)
        unseen := s.unseen.filter (· ∉ keys)
        unlinked := s.unlinked ++ keys.map fun k => (s.journal, k) }
  | ping (s) : Serves .ping s pong { s with pinged := some s.process }
  | write (s keys) : Serves (.write keys) s () { s with keys := s.keys ++ keys }

section Surroundings
variable (hazards : Prop)

/-- A command reaches the server that runs: on a new connection, or on one to its process. A change
of the configuration that reaches another process than the one that the journal names is a
hazard. -/
structure Reaches (v : Verb) (s : State) : Prop where
  live : s.link = .closed ∨ s.link = .opened s.process false
  home : hazards ∨ ∀ settings, v = .configSet settings → ∀ j, s.journal = some j →
    j.serverId = s.process

/-- A call returns. On a connection with an unread reply, a command returns that one. -/
inductive Answers : (x : Call) → State → x.Result → State → Prop where
  | redis {v s a s'} (reaches : Reaches hazards v s) (serves : Serves v s a s') :
    Answers (.redis v) s a { s' with link := .opened s.process false }
  | stray {v s p} (link : s.link = .opened p true) (a : v.Answer) : Answers (.redis v) s a s
  | strayServed {v s b s'} (link : s.link = .opened s.process true) (a : v.Answer)
      (serves : Serves v s b s') :
    Answers (.redis v) s a s'
  | connection (s) : Answers .connection s () { s with link := .closed }
  | flock {s} (free : s.locked = false) (guard : s.guard = none) :
      Answers .flock s true { s with locked := true }
  | busy {s} (held : s.locked = true ∨ s.guard ≠ none) : Answers .flock s false s
  | unlock (s) : Answers .unlock s () { s with locked := false }
  | journalExists (s) : Answers .journalExists s s.journal.isSome s
  | readJournal {s j} (journal : s.journal = some j) : Answers .readJournal s j s
  | persist (s j) : Answers (.persist j) s () { s with journal := some j }
  | unlinkJournal (s) : Answers .unlinkJournal s () { s with journal := none }
  | self {s g} (guard : s.guard = some g) : Answers .self s g s
  | abandon (s) : Answers .abandon s () { s with locked := false }
  | enter (s g) : Answers (.enter g) s () { s with guard := some g, locked := false }
  | remember {s g} (k v) (guard : s.guard = some g) :
    Answers (.remember k v) s ()
      { s with guard := some { g with original := g.original ++ [(k, v)] } }
  | release (s) : Answers .release s () { s with guard := none }

/-- The calls that give up a lock raise nothing of their own. -/
def Call.ends : Call → Bool
  | .unlock | .release | .abandon => true
  | _ => false

/-- The calls of a recovery at the end of which the journal may be gone. -/
def Call.closing : Call → Bool
  | .unlinkJournal | .unlock | .release => true
  | _ => false

/-- A call returns or raises. Hazards are an interruption between a command and its reply, and one
of a recovery that has removed the journal and has not returned. -/
inductive Does (x : Call) : State → Except Raised x.Result → State → Prop where
  | answers {s a s'} (h : Answers hazards x s a s') : Does x s (.ok a) s'
  | raises (s) (e : Raised) (open_ : x.ends = false) : Does x s (.error e) s
  | closes (s) (e : Raised) {v} (command : x = .redis v) : Does x s (.error e)
      { s with link := .closed }
  | refused {s v} (command : x = .redis v) (reaches : Reaches hazards v s) :
    Does x s (.error .server) { s.receive v with link := .opened s.process false }
  | lost {s v a s'} (command : x = .redis v) (h : Answers hazards x s a s') :
    Does x s (.error .transport) { s' with link := .closed }
  | struck {s a s'} (calm : hazards ∨ x.closing = false ∨ s'.journal.isSome = true)
      (h : Answers hazards x s a s') :
    Does x s (.error .interrupt) s'
  | cutOff {s v a s'} (hazard : hazards) (command : x = .redis v) (h : Answers hazards x s a s') :
    Does x s (.error .interrupt) { s' with link := .opened s.process true }

/-- `ops:`, with which the keys of scenarios begin. -/
def scenarioKeys : Bytes := [111, 112, 115, 58]

/-- What happens to the server by itself: it restarts, other clients change keys that are none of a
scenario, or someone changes the configuration while no scenario has. -/
inductive Drifts : State → State → Prop where
  | restarted (s) (config : Configuration) (keys unseen : List Bytes) :
    Drifts s { s with process := s.process + 1, config, base := config, keys, unseen }
  | others (s) (keys : List Bytes) (foreign : ∀ k ∈ keys, scenarioKeys <+: k → k ∈ s.keys) :
    Drifts s { s with keys, unseen := s.unseen.filter (· ∈ keys) }
  | administered (s) (config : Configuration) (journal : s.journal = none)
      (guard : s.guard = none) :
    Drifts s { s with config, base := config }

/-- The surroundings of scenarios, with or without the hazards. A killed process leaves its
files. -/
def perf : World calls Raised where
  State := State
  does := Does hazards
  drifts := Drifts
  killed := fun s s' => s' = { s with link := .closed, guard := none, locked := false }

end Surroundings

end DbLab.Perf
