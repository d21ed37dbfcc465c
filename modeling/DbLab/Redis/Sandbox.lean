import DbLab.Proc.Program
import DbLab.Py.Builtins
import DbLab.Py.RoundTrip

/-!
# Faults of the sandbox (`client.sandbox_oom`, `client.sandbox_recover`,
`Lab.sandbox_persistence_fault`, `Lab.sandbox_recover`)

One scenario lowers the memory limit of the sandbox and saves the settings from before in the
sandbox itself, the other puts a directory where the RDB file belongs and leaves a marker file. A
recovery undoes both. A command may fail or be interrupted at any call, before or after its effect.
-/

namespace DbLab.Redis.Sandbox
open DbLab.Py DbLab.Proc Relation

/-! ### The sandbox -/

/-- What the programs raise. -/
inductive Raised where
  | py (e : Exn)
  | valueError (message : String)
  | runtimeError (message : String)
  | response (outOfMemory : Bool)
  | exit
  | transport
  | interrupt

/-- `maxmemory` and `maxmemory-policy` -/
structure Settings where
  maxmemory : Str
  policy : Str

inductive Setting where
  | maxmemory
  | policy

def Setting.name : Setting → String
  | .maxmemory => "maxmemory"
  | .policy => "maxmemory-policy"

/-- The setting that a recovery sets last. -/
def Setting.last : Setting → Bool
  | .maxmemory => false
  | .policy => true

def Settings.set (s : Settings) : Setting → Str → Settings
  | .maxmemory, v => { s with maxmemory := v }
  | .policy, v => { s with policy := v }

/-- What stands at `/data/db/dump.rdb`: nothing, a file, or a directory with what was moved into
it. -/
inductive Target where
  | absent
  | file (dump : Nat)
  | directory (inner : Option Nat)

/-- The server and its volume: the settings, the key `lab:sandbox:oom:original`, the numbers of the
filler keys, the RDB target, `pre-fault.rdb` and `persistence-fault-active`. Of the past: the dumps
that were moved away and not back, and whether the key was deleted by a recovery that has not set
the policy since. -/
structure State where
  settings : Settings
  original : Option Str
  fillers : List Nat
  target : Target
  saved : Option Nat
  active : Bool
  away : List Nat
  restoring : Bool

inductive Call where
  | checkEnv
  | inspect
  | composeUp
  | time
  | ping
  | usedMemory
  | configGet
  | exists
  | get
  | set (text : Str)
  | configSet (k : Setting) (value : Str)
  | fill (i : Nat)
  | scan (cursor : Nat)
  | unlink (i : Nat)
  | delete
  | hang
  | bgsave
  | infoPersistence
  | cliSet (key value : String)
  | testActive
  | touchActive
  | removeActive
  | testFile
  | testDirectory
  | testSaved
  | moveAway
  | moveBack
  | makeDirectory
  | removeDirectory

abbrev Call.Result : Call → Type
  | .time | .ping | .exists | .testActive | .testFile | .testDirectory | .testSaved => Bool
  | .usedMemory => Nat
  | .configGet => List (Str × Str)
  | .get => Option Str
  | .scan _ => Nat × List Nat
  | .infoPersistence | .cliSet _ _ => Str
  | .hang => Empty
  | _ => Unit

def calls : Interface := ⟨Call, Call.Result⟩

abbrev Method (α : Type) := Prog calls Raised α

abbrev ask (x : Call) : Method x.Result := Prog.ask (I := calls) x

def Target.isFile : Target → Bool
  | .file _ => true
  | _ => false

def Target.isDirectory : Target → Bool
  | .directory _ => true
  | _ => false

/-- The settings, as `CONFIG GET` names them. -/
def Settings.entries (s : Settings) : List (Str × Str) :=
  [(str "maxmemory", s.maxmemory), (str "maxmemory-policy", s.policy)]

/-- A call returns. -/
inductive Answers : (x : Call) → State → x.Result → State → Prop where
  | checkEnv (s) : Answers .checkEnv s () s
  | inspect (s) : Answers .inspect s () s
  | composeUp (s) : Answers .composeUp s () s
  | time (s) (b : Bool) : Answers .time s b s
  | ping (s) (b : Bool) : Answers .ping s b s
  | usedMemory (s) (n : Nat) : Answers .usedMemory s n s
  | configGet {s d} (entries : d.Perm s.settings.entries) : Answers .configGet s d s
  | exists (s) : Answers .exists s s.original.isSome s
  | get (s) : Answers .get s s.original s
  | set (s text) : Answers (.set text) s () { s with original := some text }
  | configSet (s k value) : Answers (.configSet k value) s ()
      { s with
        settings := s.settings.set k value
        restoring := s.restoring && !k.last }
  | fill (s i) : Answers (.fill i) s () { s with fillers := s.fillers ++ [i] }
  | scan (s cursor next keys) (present : ∀ i ∈ keys, i ∈ s.fillers) : Answers (.scan cursor) s
      (next, keys) s
  | unlink (s i) : Answers (.unlink i) s () { s with fillers := s.fillers.filter (· ≠ i) }
  | delete (s) : Answers .delete s () { s with original := none, restoring := s.original.isSome }
  | bgsave (s) : Answers .bgsave s () s
  | infoPersistence (s text) : Answers .infoPersistence s text s
  | cliSet (s key value text) : Answers (.cliSet key value) s text s
  | testActive (s) : Answers .testActive s s.active s
  | touchActive (s) : Answers .touchActive s () { s with active := true }
  | removeActive (s) : Answers .removeActive s () { s with active := false }
  | testFile (s) : Answers .testFile s s.target.isFile s
  | testDirectory (s) : Answers .testDirectory s s.target.isDirectory s
  | testSaved (s) : Answers .testSaved s s.saved.isSome s
  | moveAway {s d} (file : s.target = .file d) :
    Answers .moveAway s () { s with target := .absent, saved := some d, away := s.away ++ [d] }
  | moveBack {s d} (saved : s.saved = some d) (free : s.target.isDirectory = false) :
    Answers .moveBack s () { s with target := .file d, saved := none, away := s.away.erase d }
  | moveInto {s d inner} (saved : s.saved = some d) (directory : s.target = .directory inner) :
    Answers .moveBack s () { s with target := .directory (some d), saved := none }
  | makeDirectory {s} (free : s.target = .absent) : Answers .makeDirectory s ()
      { s with target := .directory none }
  | madeDirectory {s} (directory : s.target.isDirectory = true) : Answers .makeDirectory s () s
  | removeDirectory {s} (empty : s.target = .directory none) : Answers .removeDirectory s ()
      { s with target := .absent }

section Surroundings
variable (hazards : Prop)

/-- `CONFIG SET` -/
def Call.sets : Call → Bool
  | .configSet _ _ => true
  | _ => false

/-- A call returns or raises, without its effect or after it. From the deletion of the key to the
last of the settings no call fails, unless there are hazards. -/
inductive Does (x : Call) : State → Except Raised x.Result → State → Prop where
  | answers {s a s'} (h : Answers x s a s') : Does x s (.ok a) s'
  | fails (s) (e : Raised) (calm : hazards ∨ s.restoring = false ∨ x.sets = false) :
      Does x s (.error e) s
  | lost {s a s'} (e : Raised) (h : Answers x s a s') (calm : hazards ∨ s'.restoring = false) :
      Does x s (.error e) s'

/-- The server saves by itself, where no directory is in the way. -/
inductive Drifts : State → State → Prop where
  | saved {s} (dump : Nat) (free : s.target.isDirectory = false) :
      Drifts s { s with target := .file dump }

/-- The surroundings of the commands. -/
def sandbox : World calls Raised where
  State := State
  does := Does hazards
  drifts := Drifts
  killed s s' := s' = s ∧ (hazards ∨ s.restoring = false)

end Surroundings

/-! ### The commands -/

/-- `word in text` -/
def isIn (word : String) (text : Str) : Bool := text.tails.any fun t => startsWith word t

/-- A condition is awaited, as long as there is time: whether it was met. -/
def poll (check : Method Bool) : Nat → Method Bool
  | 0 => pure false
  | n + 1 => do
    let left ← ask .time
    if left then
      let met ← check
      if met then pure true else poll check n
    else pure false

/-- `Lab.sandbox_up` -/
def sandboxUp : Method Unit := do
  ask .checkEnv
  ask .inspect
  ask .composeUp
  let ready ← poll (ask .ping) 31
  if ready then pure () else
    throw (.runtimeError "Sandbox startup failed; inspect ./lab.sh logs redis-sandbox")

section
variable [Interpreter]

/-- `json.dumps(old)` -/
def originalText (old : List (Str × Str)) : Except Exn Str :=
  dumps ⟨true, false, true⟩ (.dict (old.map fun e => (e.1, .str e.2)))

/-- One write of the fill: whether it was rejected for lack of memory. -/
def fillOne (i : Nat) : Method Bool :=
  tryCatch (do ask (.fill i); pure false) fun e =>
    match e with
    | .response true => pure true
    | e => throw e

/-- `for i in range(1024)`, from `i` on -/
def fill (i : Nat) : Nat → Method Bool
  | 0 => pure false
  | n + 1 => do
    let rejected ← fillOne i
    if rejected then pure true else fill (i + 1) n

/-- `sandbox_oom` behind its checks -/
def lowerMemory (old : List (Str × Str)) (limit : Nat) : Method Unit := do
  let text ← .ofExcept ((originalText old).mapError .py)
  ask (.set text)
  ask (.configSet .policy (str "noeviction"))
  ask (.configSet .maxmemory (digitChars limit))
  let gotOom ← fill 0 1024
  if gotOom then do
    let _ ← ask .ping
    let _ ← ask .usedMemory
    pure ()
  else throw (.runtimeError
    "OOM was not observed within the bounded 16 MiB fill; recover and inspect.")

/-- The limit that leaves room for two MiB more than is used. -/
@[irreducible] def limitFor (used : Nat) : Nat := used + 2 * 1024 * 1024

/-- More than this is too much for the sandbox. -/
def largest : Nat := 80 * 1024 * 1024

/-- `client.sandbox_oom` -/
def sandboxOom : Method Unit := do
  let used ← ask .usedMemory
  if largest < limitFor used then
    throw (.valueError "Sandbox data too large. Restore/clean the sandbox before this scenario.")
  else do
    let old ← ask .configGet
    let there ← ask .exists
    if there then throw (.valueError "OOM scenario is already active; run sandbox-recover first.")
    else lowerMemory old (limitFor used)

/-- `for entry in c.scan_iter(..)`: a page after the other. -/
def unlinkAll : List Nat → Method Unit
  | [] => pure ()
  | i :: is => do
    ask (.unlink i)
    unlinkAll is

def unlinkFillers : Nat → Nat → Method Unit
  | 0, _ => do
    let never ← ask .hang
    nomatch never
  | pages + 1, cursor => do
    let (next, keys) ← ask (.scan cursor)
    unlinkAll keys
    if next = 0 then pure () else unlinkFillers pages next

/-- `c.config_set(name, original[name])` -/
def restore (original : Value) (k : Setting) : Method Unit := do
  let v ← .ofExcept ((original.item k.name).mapError .py)
  match v with
  | .str value => ask (.configSet k value)
  | _ => throw (.py .typeError)

/-- `client.sandbox_recover` behind the text of the key -/
def restoreMemory (pages : Nat) (saved : Str) : Method Unit := do
  let original ← .ofExcept ((loads Hooks.default saved).mapError .py)
  unlinkFillers pages 0
  ask .delete
  restore original .maxmemory
  restore original .policy

/-- `client.sandbox_recover` -/
def clientRecover (pages : Nat) : Method Unit := do
  let saved ← ask .get
  match saved with
  | none | some [] => pure ()
  | some text => restoreMemory pages text

/-- `if [ -f dump.rdb ]; then mv …; fi` -/
def moveDump : Method Unit := do
  let file ← ask .testFile
  if file then ask .moveAway else pure ()

/-- The script of `sandbox_persistence_fault`. -/
def faultScript : Method Unit := do
  let active ← ask .testActive
  if active then throw .exit
  else do
    ask .touchActive
    moveDump
    ask .makeDirectory
    ask .bgsave

/-- The save failed. -/
def saveFailed : Method Bool := do
  let info ← ask .infoPersistence
  pure (isIn "rdb_bgsave_in_progress:0" info && isIn "rdb_last_bgsave_status:err" info)

/-- `Lab.sandbox_persistence_fault` -/
def persistenceFault : Method Unit := do
  sandboxUp
  faultScript
  let failed ← poll saveFailed 31
  if failed then do
    let text ← ask (.cliSet "lab:sandbox:write-test" "blocked")
    if isIn "MISCONF" text then pure ()
    else throw (.runtimeError
      "RDB failed but MISCONF was not observed; inspect save/stop-writes settings.")
  else throw (.runtimeError
    "Expected RDB failure not observed; run sandbox-recover and inspect logs.")

def clearTarget : Method Unit := do
  let directory ← ask .testDirectory
  if directory then ask .removeDirectory else pure ()

def bringBack : Method Unit := do
  let saved ← ask .testSaved
  if saved then ask .moveBack else pure ()

/-- The script of `Lab.sandbox_recover`. -/
def recoverScript : Method Unit := do
  let active ← ask .testActive
  if active then do
    clearTarget
    bringBack
    ask .bgsave
  else pure ()

/-- The last save succeeded. -/
def saveSucceeded : Method Bool := do
  let info ← ask .infoPersistence
  pure (isIn "rdb_bgsave_in_progress:0" info && isIn "rdb_last_bgsave_status:ok" info)

/-- `Lab.sandbox_recover` -/
def sandboxRecover (pages : Nat) : Method Unit := do
  ask .inspect
  recoverScript
  let recovered ← poll saveSucceeded 41
  if recovered then do
    clientRecover pages
    let _ ← ask (.cliSet "lab:sandbox:recovered" "yes")
    ask .removeActive
  else throw (.runtimeError "Sandbox persistence did not recover; inspect logs.")

inductive Command where
  | oom
  | persistence
  | recover

/-- The commands, with a bound on the pages of a scan. -/
def code (pages : Nat) : Command → Method Unit
  | .oom => do
    sandboxUp
    sandboxOom
  | .persistence => persistenceFault
  | .recover => sandboxRecover pages

end

end DbLab.Redis.Sandbox
