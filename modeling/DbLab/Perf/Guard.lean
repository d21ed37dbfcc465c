import DbLab.Perf.Node

/-!
# `cleanup`, `Guard` and `recover_journal` (`common.py`)

A `while True` has a bound on its rounds, beyond which the program hangs, so that every run of it is
one under a bound that is large enough.
-/

namespace DbLab.Perf
open DbLab.Py DbLab.Proc

abbrev Method (α : Type) := Prog calls Raised α

def ask (x : Call) : Method x.Result := Prog.ask (I := calls) x

abbrev redis (v : Verb) : Method v.Answer := ask (.redis v)

def forever {α : Type} : Method α := do
  let never ← ask .hang
  nomatch never

/-- `[A-Za-z0-9_-]` -/
def word (c : Nat) : Bool :=
  65 ≤ c && c ≤ 90 || 97 ≤ c && c ≤ 122 || 48 ≤ c && c ≤ 57 || c == 95 || c == 45

/-- `re.fullmatch(r'ops:[A-Za-z0-9_-]{8,150}:', value)` -/
def matchesPrefix (value : Str) : Bool :=
  let name := (value.drop 4).dropLast
  value == str "ops:" ++ name ++ str ":" && 8 ≤ name.length && name.length ≤ 150 && name.all word

/-- `owned_prefix(value)` -/
def ownedPrefix (value : Str) : Method Str :=
  if matchesPrefix value then pure value else throw (.py (.valueError "Invalid owned key prefix"))

/-! ### Keys -/

/-- `keys[start:start+100]`, for each start in `range(0,len(keys),100)` -/
def batches (keys : List Bytes) : List (List Bytes) :=
  (List.range ((keys.length + 99) / 100)).map fun i => (keys.drop (100 * i)).take 100

/-- The batches of the keys that one `SCAN` returned, with the counts of keys found and removed. -/
def unlinkBatches (keyPrefix : Bytes) : List (List Bytes) → Nat × Nat → Method (Nat × Nat)
  | [], n => pure n
  | batch :: rest, (found, removed) =>
    if batch.any fun k =>
      !keyPrefix.isPrefixOf k then throw (.runtimeError (str "Foreign key in cleanup"))
    else do
      let n ← redis (.unlink batch)
      unlinkBatches keyPrefix rest (found + batch.length, removed + n)

/-- `while True`: one complete scan. -/
def scanAll (keyPrefix : Bytes) : Nat → Nat → Nat × Nat → Method (Nat × Nat)
  | 0, _, _ => forever
  | rounds + 1, cursor, n => do
    let (next, keys) ← redis (.scan cursor keyPrefix)
    let n ← unlinkBatches keyPrefix (batches keys) n
    if next = 0 then pure n else scanAll keyPrefix rounds next n

/-- `for _ in range(4)` -/
def scans (keyPrefix : Bytes) (rounds : Nat) : Nat → Nat → Method Nat
  | 0, _ =>
    throw (.runtimeError (str
      "Owned keys still being created; stop concurrent workload before cleanup"))
  | n + 1, removed => do
    let (found, removed) ← scanAll keyPrefix rounds 0 (0, removed)
    if found = 0 then pure removed else scans keyPrefix rounds n removed

/-- `cleanup(c, prefix)` -/
def cleanup (rounds : Nat) (keyPrefix : Str) : Method Nat := do
  let value ← ownedPrefix keyPrefix
  let bytes ← .ofExcept ((encode value).mapError .py)
  scans bytes rounds 4 0

/-! ### Recovery -/

def configAllow : List Str :=
  ["maxmemory", "maxmemory-policy", "activedefrag", "active-defrag-ignore-bytes",
    "active-defrag-threshold-lower", "active-defrag-threshold-upper", "active-defrag-cycle-min",
    "active-defrag-cycle-max", "slowlog-log-slower-than", "slowlog-max-len", "maxclients",
    "client-output-buffer-limit", "save", "appendonly", "latency-monitor-threshold", "hz"].map str

/-- What `recover_journal` returns. -/
inductive Recovery where
  | nothing
  | done (configRestored : Bool) (keysRemoved : Nat)

/-- A setting that is not read back as it was set. -/
def differs (observed : Settings) (x : Str × Str) : Bool :=
  (observed.lookup x.1).getD (str "None") != x.2

/-- `if same and cfg` -/
def restore (cfg : Settings) : Method Unit := do
  redis (.configSet cfg)
  let observed ← redis (.configGet cfg.names)
  if cfg.any (differs observed) then
    throw (.runtimeError (str "Configuration restoration read-back mismatch"))

/-- The part of `recover_journal` after the configuration. -/
def finish (rounds : Nat) (keyPrefix : Str) (same : Bool) : Method Recovery := do
  let n ← cleanup rounds keyPrefix
  if (← redis .ping) ≠ pong then throw (.runtimeError (str "PING after recovery failed"))
  ask .unlinkJournal
  pure (.done same n)

/-- `recover_journal(c, journal, already_locked=True)` -/
def recoverJournal (rounds : Nat) : Method Recovery := do
  if ← ask .journalExists then
    let data ← ask .readJournal
    let keyPrefix ← ownedPrefix data.keyPrefix
    if ¬data.config.names ⊆ configAllow then
      throw (.py (.valueError "Journal contains forbidden config keys"))
    let info ← redis .info
    let same := info.runId == data.serverId
    if same && !data.config.isEmpty then restore data.config
    finish rounds keyPrefix same
  else pure .nothing

/-- `recover_journal(c)` on a new connection, which is first used under the lock. -/
def recover (rounds : Nat) : Method Recovery := do
  if ← ask .flock then
    Prog.ensure (do
      ask .connection
      recoverJournal rounds) (ask .unlock)
  else throw (.blocked (str "An experiment is still active; stop it before recovery"))

/-! ### The guard -/

/-- The `try` block of `__enter__`. -/
def claim (keyPrefix : Str) : Method Unit := do
  if ← ask .journalExists then
    throw (.blocked (str "Unfinished recovery journal; run ./ops.sh recover --yes first"))
  ask .connection
  let info ← redis .info
  if info.role ≠ some (str "master") ∨ info.connectedSlaves.getD 0 ≠ 0 then
    throw (.blocked (str "Experiments require the standalone perf master without replicas"))
  if 110 * 1024 * 1024 < info.usedMemory.getD 0 then
    throw (.blocked
      (str "Perf memory already exceeds 110MiB; remove old perf data before experimenting"))
  ask (.persist ⟨info.runId, keyPrefix, []⟩)
  ask (.enter ⟨info.runId, keyPrefix, []⟩)

/-- `Guard(c, report)` and `__enter__` -/
def enter (reportId : Str) : Method Unit := do
  let keyPrefix ← ownedPrefix (str "ops:" ++ reportId ++ str ":")
  if ← ask .flock then
    tryCatch (claim keyPrefix) fun e => do
      ask .abandon
      throw e
  else throw (.blocked (str "Another perf scenario is active. Do not run scenarios concurrently."))

/-- `if k not in self.original` -/
def remember (k : Str) : Method Unit := do
  let g ← ask .self
  if k ∈ g.original.names then pure ()
  else do
    let current ← redis (.configGet [k])
    match current.lookup k with
    | none => throw (.blocked (str "CONFIG not supported: " ++ k))
    | some value => ask (.remember k value)

/-- `for k in settings` -/
def rememberAll : List Str → Method Unit
  | [] => pure ()
  | k :: ks => do
    remember k
    rememberAll ks

/-- `persist()` -/
def persist : Method Unit := do
  let g ← ask .self
  ask (.persist ⟨g.serverId, g.keyPrefix, g.original⟩)

/-- `configure(**settings)` -/
def configure (settings : Settings) : Method Unit :=
  if ¬settings.names ⊆ configAllow then
    throw (.py (.valueError "Unsafe configuration change refused"))
  else do
    rememberAll settings.names
    persist
    redis (.configSet settings)

/-- `report.data['recovery']` -/
inductive Report where
  | restored (r : Recovery)
  | retained

/-- `__exit__`, after an exception or not. -/
def exit (rounds : Nat) (raised : Bool) : Method Report :=
  Prog.ensure (tryCatch (do
    let r ← recoverJournal rounds
    pure (.restored r)) fun e => if raised then pure .retained else throw e) (ask .release)

/-- What is done with guards, one after the other. -/
inductive Action where
  | enter (reportId : Str)
  | configure (settings : Settings)
  | work (keys : List Bytes)
  | exit (rounds : Nat) (raised : Bool)
  | recover (rounds : Nat)

inductive Outcome where
  | finished
  | exited (r : Report)
  | recovered (r : Recovery)

/-- An action. Only a guard that is entered can be used or left. -/
def Action.code : Action → Method Outcome
  | .enter reportId => do
    Perf.enter reportId
    pure .finished
  | .configure settings => do
    Perf.configure settings
    pure .finished
  | .work keys => do
    redis (.write keys)
    pure .finished
  | .exit rounds raised => do
    let _ ← ask .self
    let r ← Perf.exit rounds raised
    pure (.exited r)
  | .recover rounds => do
    let r ← Perf.recover rounds
    pure (.recovered r)

end DbLab.Perf
