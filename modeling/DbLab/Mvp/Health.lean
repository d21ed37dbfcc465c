import DbLab.Py.Literals
import DbLab.Py.Size
import DbLab.Py.Encodings
import DbLab.Py.Int
import DbLab.Py.Double

/-!
# The receipt of the worker (`worker_health`)

The worker keeps what its two loops report in memory and writes it to a file, the receipt: at once
when a status changes, else not within a second of the last write. The healthcheck reads the receipt
and nothing else. The difference of two clock readings is rounded to a float. A call holds the lock
of the object from its first line to its last, and the file is replaced as a whole, so that a call
is one step to another loop and to a reader.
-/

namespace DbLab.Mvp.Health
open DbLab.Py

/-- The names in `LOOPS`. -/
inductive Loop where
  | relay
  | consumer
deriving DecidableEq, Repr

def Loop.name : Loop → String
  | .relay => "relay"
  | .consumer => "consumer"

/-- What ends `is_ready` before its `return`. -/
inductive Failure where
  | os
  | python (e : Exn)
deriving DecidableEq, Repr

/-- `except (OSError, ValueError, TypeError, KeyError, IndexError)` -/
def Failure.closed : Failure → Bool
  | .os => true
  | .python e => e.isValueError || e = .typeError || e = .keyError || e = .indexError

/-- The process that writes the receipt: its start time is a number in `/proc`. -/
structure Worker where
  pid : Nat
  pid_pos : 0 < pid
  pid_small : pid < 10 ^ 10
  processStart : Str
  digits : ∀ c ∈ processStart, isDigit c
  short : processStart.length ≤ 20

/-- A file as `is_ready` finds it: whether it is a regular one, its owner and its content. -/
structure File where
  regular : Bool
  owner : Nat
  bytes : Bytes

/-- The first member is found. -/
lemma lookup_head {V : Type} (k : String) (v : V) (ms : List (Str × V)) :
    lookup (str k) ((str k, v) :: ms) = some v :=
  if_pos rfl

/-- A member with another key is passed over. -/
lemma lookup_tail {V : Type} {k k' : String} (ne : k' ≠ k) (v : V) (ms : List (Str × V)) :
    lookup (str k) ((str k', v) :: ms) = lookup (str k) ms :=
  if_neg fun e => ne (str_inj.1 e)

variable [Interpreter]

/-- A reading of `time.monotonic`: a finite float, with the text that Python writes for it. -/
structure Reading where
  value : Interpreter.Float
  time : Rat
  finite : Interpreter.view value = .finite time
  short : (Interpreter.repr value).length ≤ 24

structure Row where
  ok : Bool
  lastSuccess : Option Reading

/-- `WorkerHealth.data` -/
structure Data where
  worker : Worker
  loops : Loop → Row

structure WorkerHealth where
  data : Data
  lastWrite : Option Reading  -- `float('-inf')` before the first write
  uid : Nat
  path : Option File

def Row.toValue (r : Row) : Value :=
  .ofFields [("ok", .bool r.ok),
    ("last_success", match r.lastSuccess with | none => .null | some t => .float t.value)]

def Data.toValue (d : Data) : Value :=
  .ofFields [("schema", .int 1), ("pid", .int d.worker.pid),
    ("process_start", .str d.worker.processStart),
    ("loops", .ofFields [("relay", (d.loops .relay).toValue),
    ("consumer", (d.loops .consumer).toValue)])]

/-- `json.dump(self.data, stream, allow_nan=False)` -/
def receiptDump : Dump := ⟨false, false, false⟩

/-- `_save`, of a path that is no symbolic link and a write that succeeds. -/
def WorkerHealth.save (h : WorkerHealth) (clock : Reading) : Except Exn WorkerHealth := do
  let bytes ← encode (← dumps receiptDump h.data.toValue)
  pure { h with path := some ⟨true, h.uid, bytes⟩, lastWrite := some clock }

/-- `WorkerHealth.__init__` -/
def WorkerHealth.start (worker : Worker) (uid : Nat) (path : Option File) (clock : Reading) :
    Except Exn WorkerHealth :=
  WorkerHealth.save ⟨⟨worker, fun _ => ⟨false, none⟩⟩, none, uid, path⟩ clock

/-- `now - self.last_write >= 1` -/
def WorkerHealth.due (h : WorkerHealth) (now : Reading) : Bool :=
  match h.lastWrite with
  | none => true
  | some written => 1 ≤ double (now.time - written.time)

def Data.setLoop (d : Data) (name : Loop) (row : Row) : Data :=
  { d with loops := fun l => if l = name then row else d.loops l }

/-- The row that `mark` leaves. -/
def Row.marked (r : Row) (ok : Bool) (now : Reading) : Row :=
  ⟨ok, if ok then some now else r.lastSuccess⟩

/-- `mark`: the clock is read once for the row and once more after a write. -/
def WorkerHealth.mark (h : WorkerHealth) (name : Loop) (ok : Bool) (now clock : Reading) :
    Except Exn WorkerHealth :=
  let row := h.data.loops name
  let changed := row.ok != ok
  let marked := { h with data := h.data.setLoop name (row.marked ok now) }
  if changed || marked.due now then marked.save clock else .ok marked

def Data.closed (d : Data) : Data :=
  { d with loops := fun l => { d.loops l with ok := false } }

/-- `close` -/
def WorkerHealth.close (h : WorkerHealth) (clock : Reading) : Except Exn WorkerHealth :=
  WorkerHealth.save { h with data := h.data.closed } clock

/-- What the healthcheck asks of the system it runs on. -/
structure Environment where
  uid : Nat
  processStart : Int → Except Failure Str

/-- `0 <= now - last <= MAX_AGE` -/
def recent (now last : FloatView) : Bool :=
  match now, last with
  | .finite n, .finite l => 0 ≤ double (n - l) && double (n - l) ≤ 30
  | _, _ => false

example : recent (.finite (double (301 / 10))) (.finite (double (1 / 10))) = true := by
  decide +kernel

/-- One turn of the loop over `loops.values()`. -/
def readyRow (now : Interpreter.Float) (row : Value) : Except Exn Bool :=
  match row with
  | .dict ms =>
    match lookup (str "ok") ms, lookup (str "last_success") ms with
    | some (.bool true), some (.float x) => .ok (recent (Interpreter.view now) (Interpreter.view x))
    | some (.bool true), some (.int n) => do
      let x ← (Num.int n).toFloat
      pure (recent (Interpreter.view now) (Interpreter.view x))
    | _, _ => .ok false
  | _ => .ok false

/-- `set(loops) != set(LOOPS)` turned round -/
def namesLoops (ms : List (Str × Value)) : Bool :=
  ms.all (fun e => e.1 = str "relay" || e.1 = str "consumer") &&
    ms.any (fun e => e.1 = str "relay") && ms.any (fun e => e.1 = str "consumer")

/-- `is_ready` from the parsed receipt on. -/
def readyData (env : Environment) (now : Interpreter.Float) (data : Value) : Except Failure Bool :=
  match data with
  | .dict ms =>
    match lookup (str "schema") ms, lookup (str "pid") ms with
    | some (.int schema), some (.int pid) =>
      if schema ≠ 1 || pid < 1 then .ok false
      else do
        let start ← env.processStart pid
        if !((lookup (str "process_start") ms).getD .null).eq (.str start) then pure false
        else match lookup (str "loops") ms with
          | some (.dict loops) =>
            if !namesLoops loops then pure false
            else (loops.allM fun e => readyRow now e.2).mapError .python
          | _ => pure false
    | _, _ => .ok false
  | _ => .ok false

/-- The body of the `try` in `is_ready`. -/
def readyFile (env : Environment) (now : Interpreter.Float) : Option File → Except Failure Bool
  | none => .error .os
  | some file =>
    if !file.regular || 4096 < file.bytes.length || file.owner ≠ env.uid then .ok false
    else do
      let data ← (loadsBytes Hooks.default (file.bytes.take 4097)).mapError .python
      readyData env now data

/-- `is_ready` -/
def isReady (env : Environment) (path : Option File) (now : Interpreter.Float) :
    Except Failure Bool :=
  match readyFile env now path with
  | .ok b => .ok b
  | .error e => if e.closed then .ok false else .error e

/-- The `last_success` of a loop in the receipt. -/
def recorded (path : Option File) (name : Loop) : Option Rat := do
  let file ← path
  let data ← (loadsBytes Hooks.default file.bytes).toOption
  let loops ← (data.item "loops").toOption
  let row ← (loops.item name.name).toOption
  match (row.item "last_success").toOption with
  | some (.float x) => match Interpreter.view x with
    | .finite q => some q
    | _ => none
  | _ => none

/-! ### The receipt that is written -/

/-- The file holds the text of the data. -/
def Wrote (owner : Nat) (d : Data) (path : Option File) : Prop :=
  ∃ t b, dumps receiptDump d.toValue = .ok t ∧ encode t = .ok b ∧ path = some ⟨true, owner, b⟩

/-- A row can be written and read. -/
lemma Row.legible (r : Row) (k : Nat) : Legible (k + 1) r.toValue := by
  refine Legible.ofFields (show literalKeys ["ok", "last_success"] = true by decide) ?_
  intro f m
  obtain rfl | rfl : f = ("ok", .bool r.ok) ∨ f = ("last_success", _) := by simpa using m
  · exact .bool
  · cases e : r.lastSuccess with
    | none => exact .null
    | some t => exact .float t.finite

/-- The data can be written and read. -/
lemma Data.legible (d : Data) (k : Nat) : Legible (k + 3) d.toValue := by
  have pid : Legible (k + 2) (.int d.worker.pid) := by
    have short := digitChars_length (n := d.worker.pid) (k := 10) d.worker.pid_small (by decide)
    refine .int (le_trans ?_ (by decide : 10 ≤ maxStrDigits))
    rwa [Int.natAbs_natCast]
  have loops : Legible (k + 2) (.ofFields [("relay", (d.loops .relay).toValue),
      ("consumer", (d.loops .consumer).toValue)]) := by
    refine Legible.ofFields (show literalKeys ["relay", "consumer"] = true by decide) ?_
    intro f m
    obtain rfl | rfl : f = ("relay", _) ∨ f = ("consumer", _) := by simpa using m
    · exact (d.loops .relay).legible k
    · exact (d.loops .consumer).legible k
  refine Legible.ofFields (show literalKeys ["schema", "pid", "process_start", "loops"] =
    true by decide) ?_
  intro f m
  simp only [List.mem_cons, List.not_mem_nil, or_false] at m
  rcases m with rfl | rfl | rfl | rfl
  · exact .int (by decide)
  · exact pid
  · exact .str fun c mc => digit_scalar (d.worker.digits c mc)
  · exact loops

/-- The size of a row. -/
lemma Row.size (r : Row) : r.toValue.size ≤ 127 := by
  obtain ⟨ok, last⟩ := r
  have keys : (str "ok").length = 2 ∧ (str "last_success").length = 12 := by decide
  cases last with
  | none =>
    simp only [Row.toValue, Value.ofFields, Value.size, Value.sizeDict, List.map]
    omega
  | some t =>
    have short := t.short
    simp only [Row.toValue, Value.ofFields, Value.size, Value.sizeDict, List.map]
    omega

/-- The size of the data. -/
lemma Data.size (d : Data) : d.toValue.size ≤ 700 := by
  have relay := (d.loops .relay).size
  have consumer := (d.loops .consumer).size
  have start := d.worker.short
  have pid := digitChars_length (n := d.worker.pid) (k := 10) d.worker.pid_small (by decide)
  have keys : (str "schema").length = 6 ∧ (str "pid").length = 3 ∧
    (str "process_start").length = 13 ∧ (str "loops").length = 5 ∧ (str "relay").length = 5 ∧
      (str "consumer").length = 8 := by decide
  have one : (digitChars (Int.natAbs 1)).length = 1 := by decide
  simp only [Data.toValue, Value.ofFields, Value.size, Value.sizeDict, List.map, Int.natAbs_natCast]
  omega

/-- What `_save` writes is short enough for the reader and reads back as the data. -/
lemma Wrote.read {owner : Nat} {d : Data} {path : Option File} (h : Wrote owner d path) :
    ∃ b, path = some ⟨true, owner, b⟩ ∧ b.length ≤ 4096 ∧
      loadsBytes Hooks.default b = .ok d.toValue := by
  obtain ⟨t, b, text, bytes, rfl⟩ := h
  have depth : ∃ k, Interpreter.recursionLimit = k + 3 :=
    ⟨Interpreter.recursionLimit - 3, by have := Interpreter.recursionLimit_ge; omega⟩
  obtain ⟨k, limit⟩ := depth
  have legible : Legible Interpreter.recursionLimit d.toValue := limit ▸ d.legible k
  obtain ⟨t', b', text', bytes', _, read⟩ :=
    legible.loadsBytes receiptDump Hooks.default_keeps le_rfl
  cases text.symm.trans text'
  cases bytes.symm.trans bytes'
  have whole : d.toValue.reorder receiptDump = d.toValue := legible.reorder_unsorted rfl
  refine ⟨b, rfl, ?_, by rw [← whole]; exact read⟩
  have length := legible.textOf_length receiptDump
  rw [textOf, text] at length
  have size := d.size
  have encoded := encode_length bytes
  dsimp only at length
  omega

/-- `_save` does not fail. -/
lemma dumps_encode (d : Data) : ∃ t b, dumps receiptDump d.toValue = .ok t ∧ encode t = .ok b := by
  have depth : ∃ k, Interpreter.recursionLimit = k + 3 :=
    ⟨Interpreter.recursionLimit - 3, by have := Interpreter.recursionLimit_ge; omega⟩
  obtain ⟨k, limit⟩ := depth
  have legible : Legible Interpreter.recursionLimit d.toValue := limit ▸ d.legible k
  obtain ⟨t, b, text, bytes, _⟩ := legible.loadsBytes receiptDump Hooks.default_keeps le_rfl
  exact ⟨t, b, text, bytes⟩

/-! ### What the healthcheck makes of it -/

/-- The row lets the healthcheck go on. -/
def Row.ready (now : Interpreter.Float) (r : Row) : Bool :=
  r.ok && match r.lastSuccess with
    | none => false
    | some t => recent (Interpreter.view now) (.finite t.time)

/-- A row as a value. -/
lemma Row.toValue_eq (r : Row) : r.toValue = .dict [(str "ok", .bool r.ok), (str "last_success",
    match r.lastSuccess with | none => .null | some t => .float t.value)] := rfl

/-- Whether a row is ready. -/
lemma readyRow_toValue (now : Interpreter.Float) (r : Row) :
    readyRow now r.toValue = .ok (r.ready now) := by
  rw [Row.toValue_eq, readyRow, lookup_head, lookup_tail (by decide), lookup_head, Row.ready]
  cases r.ok with
  | false => rfl
  | true =>
    cases r.lastSuccess with
    | none => rfl
    | some t => simp only [t.finite, Bool.true_and]

/-- The data name both loops. -/
lemma namesLoops_loops (v w : Value) :
    namesLoops [(str "relay", v), (str "consumer", w)] = true := by
  have names : str "relay" ≠ str "consumer" := by decide
  simp [namesLoops, names, names.symm]

/-- Both rows are tested. -/
lemma rows_ready (now : Interpreter.Float) (relay consumer : Row) :
    List.allM (fun e => readyRow now e.2) [(str "relay", relay.toValue),
      (str "consumer", consumer.toValue)] = .ok (relay.ready now && consumer.ready now) := by
  simp only [List.allM, readyRow_toValue, ok_bind]
  cases relay.ready now <;> cases consumer.ready now <;> rfl

/-- The healthcheck on the data of a worker. -/
lemma readyData_toValue (env : Environment) (now : Interpreter.Float) (d : Data) :
    readyData env now d.toValue = (do
    let start ← env.processStart d.worker.pid
    pure (decide (d.worker.processStart = start) &&
      ((d.loops .relay).ready now && (d.loops .consumer).ready now))) := by
  have positive : (decide ((1 : Int) ≠ 1) || decide ((d.worker.pid : Int) < 1)) = false := by
    have := d.worker.pid_pos
    simp only [ne_eq, not_true_eq_false, decide_false, Bool.false_or, decide_eq_false_iff_not]
    omega
  simp only [readyData, Data.toValue, Value.ofFields, List.map]
  rw [lookup_head, lookup_tail (by decide), lookup_head]
  simp only
  rw [positive, if_neg Bool.false_ne_true]
  cases env.processStart d.worker.pid with
  | error e => rfl
  | ok start =>
    rw [ok_bind, ok_bind, lookup_tail (by decide), lookup_tail (by decide), lookup_head,
      lookup_tail (by decide), lookup_tail (by decide), lookup_tail (by decide), lookup_head,
      Option.getD_some]
    simp only [namesLoops_loops, Value.eq]
    rw [rows_ready]
    cases decide (d.worker.processStart = start) <;> rfl

/-- The healthcheck on a receipt that was written: the user, the process and both rows. -/
lemma Wrote.isReady {owner : Nat} {d : Data} {path : Option File} (h : Wrote owner d path)
    (env : Environment)
    (now : Interpreter.Float) : isReady env path now = .ok true ↔ owner = env.uid ∧
      env.processStart d.worker.pid = .ok d.worker.processStart ∧
        ∀ l, (d.loops l).ready now = true := by
  obtain ⟨b, rfl, length, read⟩ := h.read
  have whole : b.take 4097 = b := List.take_of_length_le (by omega)
  have rows : (∀ l, (d.loops l).ready now = true) ↔
      ((d.loops .relay).ready now && (d.loops .consumer).ready now) = true := by
    rw [Bool.and_eq_true]
    exact ⟨fun h => ⟨h .relay, h .consumer⟩,
      fun h l => by cases l with | relay => exact h.1 | consumer => exact h.2⟩
  rw [Health.isReady, readyFile, rows, whole]
  have fits : decide (4096 < b.length) = false := decide_eq_false (by omega)
  simp only [Bool.not_true, fits, Bool.or_false, Bool.false_or, ne_eq, decide_not,
    Bool.not_eq_true', decide_eq_false_iff_not]
  rcases ne_or_eq owner env.uid with other | same
  · rw [if_pos other]
    exact ⟨fun h => absurd (Except.ok.inj h) (by decide), fun h => absurd h.1 other⟩
  · rw [if_neg (not_not.2 same), read]
    simp only [Except.mapError, ok_bind, readyData_toValue]
    cases env.processStart d.worker.pid with
    | error e =>
      cases closed : e.closed with
      | true => simp [closed]
      | false => simp [closed]
    | ok start =>
      simp only [ok_bind, pure_eq_ok, Except.ok.injEq, Bool.and_eq_true, decide_eq_true_eq]
      exact ⟨fun h => ⟨same, h.1.symm, h.2⟩, fun h => ⟨h.2.1.symm, h.2.2⟩⟩

/-- The receipt says what the data said when it was written. -/
lemma Wrote.recorded {owner : Nat} {d : Data} {path : Option File}
    (h : Wrote owner d path) (l : Loop) :
    recorded path l = (d.loops l).lastSuccess.map Reading.time := by
  obtain ⟨b, rfl, _, read⟩ := h.read
  have loops : d.toValue.item "loops" = .ok (.dict [(str "relay", (d.loops .relay).toValue),
      (str "consumer", (d.loops .consumer).toValue)]) := by
    simp only [Data.toValue, Value.ofFields, List.map, Value.item]
    rw [lookup_tail (by decide), lookup_tail (by decide), lookup_tail (by decide), lookup_head]
  have row : Value.item (.dict [(str "relay", (d.loops .relay).toValue),
    (str "consumer", (d.loops .consumer).toValue)])
      l.name = .ok (d.loops l).toValue := by
    cases l with
    | relay => rw [Loop.name, Value.item, lookup_head]
    | consumer => rw [Loop.name, Value.item, lookup_tail (by decide), lookup_head]
  have last : (d.loops l).toValue.item "last_success" =
      .ok (match (d.loops l).lastSuccess with | none => .null | some t => .float t.value) := by
    rw [Row.toValue_eq, Value.item, lookup_tail (by decide), lookup_head]
  rw [Health.recorded]
  simp only [read, Except.toOption, Option.bind_eq_bind, Option.bind_some, loops, row, last]
  cases (d.loops l).lastSuccess with
  | none => rfl
  | some t => simp only [t.finite, Option.map_some]

/-! ### What a call does -/

/-- After a write the receipt holds the data of the memory. -/
lemma save_inv {h h' : WorkerHealth} {clock : Reading} (saved : h.save clock = .ok h') :
    h'.data = h.data ∧ h'.uid = h.uid ∧ h'.lastWrite = some clock ∧ Wrote h.uid h.data h'.path := by
  obtain ⟨t, text, saved⟩ := bind_ok.1 saved
  obtain ⟨b, bytes, saved⟩ := bind_ok.1 saved
  cases saved
  exact ⟨rfl, rfl, rfl, t, b, text, bytes, rfl⟩

/-- A call of `mark` writes the receipt, or leaves the receipt alone and found the status
unchanged. -/
lemma mark_inv {h h' : WorkerHealth} {name : Loop} {ok : Bool} {now clock : Reading}
    (marked : h.mark name ok now clock = .ok h') :
    h'.data = h.data.setLoop name ((h.data.loops name).marked ok now) ∧ h'.uid = h.uid ∧
      (h'.lastWrite = some clock ∧ Wrote h.uid h'.data h'.path ∨
        (h.data.loops name).ok = ok ∧ h.due now = false ∧ h'.lastWrite = h.lastWrite ∧
          h'.path = h.path) := by
  rw [WorkerHealth.mark] at marked
  split at marked
  · obtain ⟨data, uid, last, wrote⟩ := save_inv marked
    exact ⟨data, uid, .inl ⟨last, data ▸ wrote⟩⟩
  · rename_i quiet
    rw [Bool.or_eq_true, not_or, bne_iff_ne, not_not, Bool.not_eq_true] at quiet
    cases marked
    exact ⟨rfl, rfl, .inr ⟨quiet.1, quiet.2, rfl, rfl⟩⟩

/-- What closing the health file leaves. -/
lemma close_inv {h h' : WorkerHealth} {clock : Reading} (closed : h.close clock = .ok h') :
    h'.data = h.data.closed ∧ h'.uid = h.uid ∧ h'.lastWrite = some clock ∧
      Wrote h.uid h'.data h'.path := by
  obtain ⟨data, uid, last, wrote⟩ := save_inv closed
  exact ⟨data, uid, last, data ▸ wrote⟩

end DbLab.Mvp.Health
