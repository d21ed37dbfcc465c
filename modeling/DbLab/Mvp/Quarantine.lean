import DbLab.Mvp.Messages
import DbLab.Proc.Program
import DbLab.Py.Base64

/-!
# Quarantine (`message_safety.py`)

The scope of a run, the envelope in which a message is set aside, the check of such an envelope, and
`process_record`, which writes to Elasticsearch or to the quarantine topic before it commits.
-/

namespace DbLab.Mvp.Message
open DbLab.Py DbLab.Proc

/-- `[a-f0-9]{n}` -/
def hexRun (n : Nat) : Pattern := .times lowerHex n

/-- `RUN_RE` -/
def runPattern : Pattern := .seq (.lit "msg-") (hexRun 24)

def projectChar (c : Nat) : Bool := (97 ≤ c && c < 123) || isDigit c || c = 45

def projectPattern : Pattern :=
  .seq (.lit "db-lab-mvp") (.opt (.seq (.lit "-") (.seq (.one projectChar) (.upTo projectChar 23))))

/-- `Scope`, as `__post_init__` lets it through. -/
structure Scope where
  project : Str
  runId : Str
  token : Str
  project_ok : projectPattern.fullmatch project = true
  runId_ok : runPattern.fullmatch runId = true
  token_ok : (hexRun 32).fullmatch token = true

/-- The exceptions of `process_record`. Of an HTTP error stands what `safe_error` reads in its
response. -/
inductive Thrown where
  | raised (e : Raised)
  | http (status : Nat) (errorType : String)
  | other
  | blocked (reason : String)
deriving DecidableEq

/-- Where `process_record` was when something was raised. -/
inductive Stage where
  | decode
  | project
deriving DecidableEq

/-- `MAPPING_ERRORS` -/
def mappingErrors : List String := ["mapper_parsing_exception", "strict_dynamic_mapping_exception"]

/-- `permanent_reason` -/
def permanentReason (e : Thrown) : Stage → Option String
  | .decode => match e with
    | .raised (.problem status code) => if status = 400 ∨ status = 422 then some code else none
    | _ => none
  | .project => match e with
    | .raised (.problem _ code) =>
      if code = "event_version_payload_conflict" then some code else none
    | .http status errorType =>
      if status = 400 ∧ errorType ∈ mappingErrors then some errorType else none
    | _ => none

/-- An invalid value is a permanent reason. -/
lemma permanentReason_invalid {e : Raised} (h : IsInvalid e) :
    ∃ reason, permanentReason (.raised e) .decode = some reason := by
  obtain ⟨status, code, rfl, kind⟩ := h
  exact ⟨code, if_pos kind⟩

/-- A run id is ASCII. -/
lemma Scope.runId_ascii (scope : Scope) : ∀ c ∈ scope.runId, c < 128 :=
  ((Pattern.Within.lit (by decide)).seq (.times (fun _ => lowerHex_ascii) 24)).fullmatch
    scope.runId_ok

/-- The token of a scope is ASCII. -/
lemma Scope.token_ascii (scope : Scope) : ∀ c ∈ scope.token, c < 128 :=
  (Pattern.Within.times (fun _ => lowerHex_ascii) 32).fullmatch scope.token_ok

section
variable [Interpreter]

/-- `digest` -/
def digest (raw : Bytes) : Str := Interpreter.sha256 raw

namespace Scope
variable (scope : Scope)

/-- `suffix`; the project is of ASCII. -/
def suffix : Str := (digest (scope.project.map .ofNat)).take 10 ++ str "-" ++ scope.runId.drop 4

def topic : Str := str "mvp.study." ++ scope.suffix ++ str ".events"

def dlq : Str := str "mvp.study." ++ scope.suffix ++ str ".dlq"

end Scope

/-- The first check of `quarantine_record`. -/
def ownPosition (scope : Scope) (topicId : Str) (position : Fields) : Bool :=
  !topicId.isEmpty && (Fields.getD position "topic" .null).eq (.str scope.topic) &&
    (Fields.getD position "partition" .null).eq (.int 0) &&
    match Fields.getD position "offset" .null with
    | .int offset => 0 ≤ offset
    | _ => false

/-- `source` in `quarantine_record` -/
def sourceOf (topicId : Str) (position : Fields) : Value :=
  .dict (insertKey (str "topic_id") (.str topicId) position)

/-- `identity` in `quarantine_record` -/
def identityOf (scope : Scope) (source : Value) (key raw : Bytes) : Value :=
  .ofFields [("scope", .str scope.suffix), ("source", source), ("raw_sha256", .str (digest raw)),
    ("key_sha256", .str (digest key))]

/-- What `quarantine_record` returns. -/
def envelopeOf (scope : Scope) (dlqId : Str) (source : Value) (key raw : Bytes) (reason : Value) :
    Value :=
  .ofFields [("schema", .int 1), ("run_id", .str scope.runId), ("owner", .str scope.token),
    ("dlq_id", .str dlqId), ("source", source), ("reason", reason),
    ("raw_sha256", .str (digest raw)), ("raw_b64", .str (b64encode raw)),
    ("key_b64", .str (b64encode key))]

def foreignPosition : Exn := .valueError "Foreign or invalid source position"
def oversized : Exn :=
  .valueError "Cannot preserve oversized message; leave source offset uncommitted"
def unusableKey : Exn := .valueError "Missing or oversized key; no automatic repair"

/-- `quarantine_record` -/
def quarantineRecord (scope : Scope) (topicId : Str) (position : Fields) (key raw : Option Bytes)
    (reason : Value) :
    Except Exn Value :=
  if !ownPosition scope topicId position then .error foreignPosition
  else match raw with
    | none => .error oversized
    | some raw =>
      if maxMessage < raw.length then .error oversized
      else match key with
        | none => .error unusableKey
        | some key =>
          if 128 < key.length then .error unusableKey
          else do
            let source := sourceOf topicId position
            let identity ← canonical (identityOf scope source key raw)
            return envelopeOf scope (digest identity) source key raw reason

/-- `base64.b64decode(v, validate=True)` for any value. -/
def b64decodeValue : Value → Except Exn Bytes
  | .str s =>
    if s.all fun c => c < 128 then b64decode s
    else .error (.valueError "string argument should contain only ASCII characters")
  | _ => .error .typeError

/-- The `try` block of `checked_quarantine`. -/
def rebuild (scope : Scope) (topicId : Str) (record : Value) : Except Exn (Bytes × Bytes × Value) :=
  do
  let raw ← b64decodeValue (← record.item "raw_b64")
  let key ← b64decodeValue (← record.item "key_b64")
  let source ← record.item "source"
  let position : Fields :=
    [(str "topic", ← source.item "topic"), (str "partition", ← source.item "partition"),
      (str "offset", ← source.item "offset")]
  let expected ← quarantineRecord scope topicId position (some key) (some raw)
    (← record.item "reason")
  return (key, raw, expected)

/-- `except (ValueError, TypeError, KeyError)` -/
def malformed (e : Exn) : Exn :=
  if e.isValueError || e = .typeError ||
    e = .keyError then .valueError "Malformed quarantine envelope" else e

/-- `checked_quarantine` -/
def checkedQuarantine (record : Value) (scope : Scope) (topicId : Str) :
    Except Exn (Bytes × Bytes) :=
  match record with
  | .dict ms =>
    if !(Fields.getD ms "schema" .null).eq (.int 1) ||
      !(Fields.getD ms "owner" .null).eq (.str scope.token) ||
        !(Fields.getD ms "run_id" .null).eq (.str scope.runId) then
      .error (.valueError "Foreign quarantine envelope")
    else do
      let (key, raw, expected) ← (rebuild scope topicId record).mapError malformed
      if (← canonical expected) ≠ (← canonical record) then
        throw (.valueError "Quarantine identity/hash mismatch")
      else return (key, raw)
  | _ => .error (.valueError "Foreign quarantine envelope")

/-! ### Processing -/

/-- What `process_record` asks of its surroundings: the index, the quarantine topic, the cache, the
source topic. -/
inductive Call where
  | index (order : Value)
  | quarantine (record : Value)
  | checkpoint (name : String)
  | deleteCached (id : Value)
  | commit

/-- What `process_record` returns. -/
inductive Processed where
  | quarantined (reason : String) (dlqId receipt : Value)
  | projected (outcome eventId orderId version : Value) (cacheFailed : Bool)

abbrev Call.Result : Call → Type
  | .index _ | .quarantine _ => Value
  | .checkpoint _ | .deleteCached _ | .commit => Unit

abbrev processing : Interface where
  Call := Call
  Result := Call.Result

abbrev Processor (α : Type) := Prog processing Thrown α

def ask (x : Call) : Processor (Call.Result x) := Prog.ask (I := processing) x

def lift {α : Type} (x : Except Raised α) : Processor α := .ofExcept (x.mapError .raised)

/-- A program whose exceptions are results. -/
def attempt {α : Type} (p : Processor α) : Processor (Except Thrown α) :=
  tryCatch (Except.ok <$> p) fun e => pure (.error e)

/-- The `decode` stage: the event of a message that carries its key. -/
def readRecord (key raw : Option Bytes) : Except Raised Value := do
  let event ← decode raw
  let id ← ((event.item "order").bind fun order => order.item "id").mapError .python
  match id with
  | .str s =>
    let expected ← (encode s).mapError .python
    if key ≠ some expected then throw (.problem 422 "event_key_mismatch")
    else return event
  | _ => throw (.python .attributeError)

/-- The `except` clause of `process_record`. -/
def setAside (scope : Scope) (topicId : Str) (position : Fields) (key raw : Option Bytes)
    (policy : Str) (stage : Stage)
    (e : Thrown) : Processor Processed :=
  match permanentReason e stage with
  | none => throw e
  | some reason =>
    if policy = str "strict" then throw (.blocked reason)
    else do
      let record ← lift ((quarantineRecord scope topicId position key raw
        (.str (str reason))).mapError .python)
      let receipt ← ask (.quarantine record)
      ask (.checkpoint "after_dlq_ack")
      ask .commit
      let dlqId ← lift ((record.item "dlq_id").mapError .python)
      return .quarantined reason dlqId receipt

/-- `process_record` behind the `try` statement. -/
def finishProjection (event order outcome : Value) : Processor Processed := do
  ask (.checkpoint "after_projection")
  let id ← lift ((order.item "id").mapError .python)
  let cache ← attempt (ask (.deleteCached id))
  ask .commit
  let eventId ← lift ((event.item "event_id").mapError .python)
  let version ← lift ((order.item "version").mapError .python)
  return .projected outcome eventId id version
    (match cache with | .ok _ => false | .error _ => true)

/-- `process_record` -/
def processRecord (scope : Scope) (topicId : Str) (position : Fields) (key raw : Option Bytes)
    (policy : Str) :
    Processor Processed :=
  if ¬ named ["strict", "quarantine"] policy then
    throw (.raised (.python (.valueError "Unknown message error policy")))
  else match readRecord key raw with
    | .error e => setAside scope topicId position key raw policy .decode (.raised e)
    | .ok event => do
      let order ← lift ((event.item "order").mapError .python)
      match ← attempt (ask (.index order)) with
      | .error e => setAside scope topicId position key raw policy .project e
      | .ok outcome => finishProjection event order outcome

/-! ### Records that fail at the `decode` stage -/

/-- Reading a record only refuses. -/
lemma readRecord_only (key raw : Option Bytes) : Only IsInvalid (readRecord key raw) := by
  refine (decode_only raw).bind fun event accepted => ?_
  obtain ⟨b, order, _, _, _, _, valid⟩ := decode_inv accepted
  obtain ⟨eventId, ms, o, _, good⟩ := validateEvent_inv valid
  obtain ⟨es, rfl, _, _, orderOf⟩ := good.members
  obtain ⟨bytes, encoded⟩ := encode_scalar good.order.uuid.scalar
  have item : ((Value.dict es).item "order").bind (fun order => order.item "id") =
      .ok (.str o.id) := by
    simp only [Value.item, orderOf, good.order.id, Except.bind]
  rw [item]
  refine (Only.ok _).bind fun id e => ?_
  cases e
  simp only [encoded]
  refine (Only.ok _).bind fun expected _ => ?_
  split
  · exact .throw invalid422
  · exact .pure _

/-- A legible value has a canonical text. -/
lemma canonical_ok {d : Nat} {v : Value} (h : Legible d v) : ∃ b, canonical v = .ok b := by
  obtain ⟨t, written⟩ := h.written canonicalDump
  obtain ⟨b, bytes⟩ := encode_scalar written.scalar
  exact ⟨b, bind_ok.2 ⟨t, written.text, bytes⟩⟩

/-- A digest encodes. -/
lemma digest_scalar (raw : Bytes) : ∀ c ∈ digest raw, Scalar c := by
  intro c m
  rcases Interpreter.sha256_hex raw c m with digit | letter
  · exact digit_scalar digit
  · exact ascii_scalar (by omega)

/-- A suffix encodes. -/
lemma Scope.suffix_scalar (scope : Scope) : ∀ c ∈ scope.suffix, Scalar c := by
  intro c m
  rw [suffix, List.mem_append, List.mem_append] at m
  rcases m with (m | m) | m
  · exact digest_scalar _ c (List.mem_of_mem_take m)
  · exact ascii_scalar (by revert c; decide)
  · exact ascii_scalar (scope.runId_ascii c (List.mem_of_mem_drop m))

/-- A topic encodes. -/
lemma Scope.topic_scalar (scope : Scope) : ∀ c ∈ scope.topic, Scalar c := by
  intro c m
  rw [topic, List.mem_append, List.mem_append] at m
  rcases m with (m | m) | m
  · exact ascii_scalar (by revert c; decide)
  · exact scope.suffix_scalar c m
  · exact ascii_scalar (by revert c; decide)

/-- The position of a record of the scope's topic. -/
def ownRecord (scope : Scope) (offset : Int) : Fields :=
  [(str "topic", .str scope.topic), (str "partition", .int 0), (str "offset", .int offset)]

/-- A topic id as Kafka gives it, and an offset of 64 bits. -/
structure Located (topicId : Str) (offset : Int) : Prop where
  some : topicId ≠ []
  scalar : ∀ c ∈ topicId, Scalar c
  lower : 0 ≤ offset
  upper : offset < 2 ^ 63

/-- A topic id and an offset that `quarantine_record` can write down. -/
structure Recordable (topicId : Str) (offset : Int) : Prop where
  some : topicId ≠ []
  scalar : ∀ c ∈ topicId, Scalar c
  lower : 0 ≤ offset
  digits : (digitChars offset.natAbs).length ≤ maxStrDigits

omit [Interpreter] in
/-- Those of Kafka are among them. -/
lemma Located.recordable {topicId : Str} {offset : Int} (located : Located topicId offset) :
    Recordable topicId offset := by
  refine ⟨located.some, located.scalar, located.lower, ?_⟩
  have lower := located.lower
  have upper := located.upper
  refine (digitChars_length (k := 19) ?_ (by decide)).trans (by decide)
  omega

/-- The first check of `quarantine_record` asks for a topic id and for an offset. -/
lemma ownPosition_record (scope : Scope) {topicId : Str} {offset : Int} (some : topicId ≠ [])
    (lower : 0 ≤ offset) :
    ownPosition scope topicId (ownRecord scope offset) = true := by
  have lookups : ∀ ms : Fields, ms = ownRecord scope offset →
    Fields.getD ms "topic" .null = .str scope.topic ∧
      Fields.getD ms "partition" .null = .int 0 ∧ Fields.getD ms "offset" .null = .int offset := by
    rintro _ rfl
    exact ⟨rfl, rfl, rfl⟩
  obtain ⟨topic, partition, off⟩ := lookups _ rfl
  have some : topicId.isEmpty = false := by simpa using some
  rw [ownPosition, topic, partition, off]
  simp [some, Value.eq, Value.num?, Num.eq, Num.view, FloatView.eq, lower]

/-- The source of a record is legible. -/
lemma source_legible (scope : Scope) {topicId : Str} {offset : Int}
    (recordable : Recordable topicId offset) (d : Nat) :
    Legible (d + 1) (sourceOf topicId (ownRecord scope offset)) := by
  have fields : sourceOf topicId (ownRecord scope offset) = .ofFields [("topic", .str scope.topic),
    ("partition", .int 0),
      ("offset", .int offset), ("topic_id", .str topicId)] := rfl
  rw [fields]
  refine Legible.ofFields (show literalKeys ["topic", "partition", "offset", "topic_id"] = true by
    decide) fun f m => ?_
  simp only [List.mem_cons, List.not_mem_nil, or_false] at m
  rcases m with rfl | rfl | rfl | rfl
  · exact .str scope.topic_scalar
  · exact .int (by decide)
  · exact .int recordable.digits
  · exact .str recordable.scalar

/-- The identity of a record is legible. -/
lemma identity_legible (scope : Scope) {topicId : Str} {offset : Int}
    (recordable : Recordable topicId offset)
    (key raw : Bytes) : Legible 2
    (identityOf scope (sourceOf topicId (ownRecord scope offset)) key raw) := by
  refine Legible.ofFields (show literalKeys ["scope", "source", "raw_sha256", "key_sha256"] =
    true by decide) fun f m => ?_
  simp only [List.mem_cons, List.not_mem_nil, or_false] at m
  rcases m with rfl | rfl | rfl | rfl
  · exact .str scope.suffix_scalar
  · exact source_legible scope recordable 0
  · exact .str (digest_scalar _)
  · exact .str (digest_scalar _)

/-- A record without a value to preserve, or without a key to repair it by. -/
def Unpreservable (key raw : Option Bytes) : Prop :=
  raw = none ∨ (∃ b, raw = some b ∧ maxMessage < b.length) ∨ key = none ∨ ∃ k, key = some k ∧
    128 < k.length

/-- A record of the scope's topic is quarantined, unless it cannot be preserved. -/
lemma quarantineRecord_own (scope : Scope) {topicId : Str} {offset : Int}
    (located : Located topicId offset)
    (key raw : Option Bytes) (reason : Value) :
    (Unpreservable key raw ∧ ∃ msg,
      quarantineRecord scope topicId (ownRecord scope offset) key raw reason =
      .error (.valueError msg)) ∨ ∃ k b dlqId, key = some k ∧ raw = some b ∧
        quarantineRecord scope topicId (ownRecord scope offset) key raw reason =
          .ok (envelopeOf scope dlqId (sourceOf topicId (ownRecord scope offset)) k b reason) := by
  unfold quarantineRecord
  rw [ownPosition_record scope located.some located.lower]
  simp only [Bool.not_true, Bool.false_eq_true, if_false]
  cases raw with
  | none => exact .inl ⟨.inl rfl, _, rfl⟩
  | some b =>
    by_cases large : maxMessage < b.length
    · exact .inl ⟨.inr (.inl ⟨b, rfl, large⟩), _, by simp only [if_pos large]; rfl⟩
    · cases key with
      | none => exact .inl ⟨.inr (.inr (.inl rfl)), _, by simp only [if_neg large]; rfl⟩
      | some k =>
        by_cases long : 128 < k.length
        · exact .inl ⟨.inr (.inr (.inr ⟨k, rfl, long⟩)), _,
            by simp only [if_neg large, if_pos long]; rfl⟩
        · obtain ⟨identity, ok⟩ := canonical_ok (identity_legible scope located.recordable k b)
          refine .inr ⟨k, b, digest identity, rfl, rfl, ?_⟩
          simp only [if_neg large, if_neg long, ok]
          rfl

/-- An envelope bears its id. -/
lemma envelopeOf_dlqId (scope : Scope) (dlqId : Str) (source : Value) (key raw : Bytes)
    (reason : Value) :
    (envelopeOf scope dlqId source key raw reason).item "dlq_id" = .ok (.str dlqId) := by
  simp [envelopeOf, Value.ofFields, Value.item, lookup]

/-- Publish, then commit. -/
def publish (record : Value) (reason : String) (dlqId : Value) : Processor Processed := do
  let receipt ← ask (.quarantine record)
  ask (.checkpoint "after_dlq_ack")
  ask .commit
  return .quarantined reason dlqId receipt

/-- A record that fails at the `decode` stage has a permanent reason, and is quarantined for it
where it can be. -/
theorem decode_failure_quarantined {key raw : Option Bytes} {e : Raised}
    (fails : readRecord key raw = .error e) :
    ∃ reason, permanentReason (.raised e) .decode = some reason ∧
      ∀ (scope : Scope) {topicId : Str} {offset : Int}, Located topicId offset →
        (Unpreservable key raw ∧ ∃ msg, processRecord scope topicId (ownRecord scope offset) key raw
          (str "quarantine") =
            throw (.raised (.python (.valueError msg)))) ∨
          ∃ k b dlqId, key = some k ∧ raw = some b ∧
            processRecord scope topicId (ownRecord scope offset) key raw (str "quarantine") =
              publish (envelopeOf scope dlqId (sourceOf topicId (ownRecord scope offset)) k b
                (.str (str reason))) reason
                (.str dlqId) := by
  obtain ⟨reason, permanent⟩ := permanentReason_invalid (readRecord_only key raw e fails)
  refine ⟨reason, permanent, fun scope topicId offset located => ?_⟩
  have policy : named ["strict", "quarantine"] (str "quarantine") = true := by decide
  have aside : processRecord scope topicId (ownRecord scope offset) key raw (str "quarantine") =
      setAside scope topicId (ownRecord scope offset) key raw (str "quarantine") .decode
        (.raised e) := by
    rw [processRecord, if_neg (not_not.2 policy), fails]
  rw [aside, setAside, permanent]
  simp only [if_neg (show str "quarantine" ≠ str "strict" by decide)]
  rcases quarantineRecord_own scope located key raw (.str (str reason)) with ⟨cannot, msg,
    refused⟩ | ⟨k, b, dlqId, rfl, rfl, made⟩
  · rw [refused]
    exact .inl ⟨cannot, msg, rfl⟩
  · refine .inr ⟨k, b, dlqId, rfl, rfl, ?_⟩
    rw [made]
    change (do
      let receipt ← ask (.quarantine
        (envelopeOf scope dlqId (sourceOf topicId (ownRecord scope offset)) k b
        (.str (str reason))))
      ask (.checkpoint "after_dlq_ack")
      ask .commit
      let dlqId ← lift (((envelopeOf scope dlqId (sourceOf topicId (ownRecord scope offset)) k b
        (.str (str reason))).item
        "dlq_id").mapError .python)
      return .quarantined reason dlqId receipt : Processor Processed) = _
    simp only [envelopeOf_dlqId]
    rfl

/-- A record without a value is refused. -/
lemma processRecord_none (scope : Scope) {topicId : Str} {offset : Int}
    (located : Located topicId offset)
    (key : Option Bytes) : processRecord scope topicId (ownRecord scope offset) key none
    (str "quarantine") =
      throw (.raised (.python oversized)) := by
  have fails : readRecord key none = .error (.problem 422 "invalid_event_size") := rfl
  have policy : named ["strict", "quarantine"] (str "quarantine") = true := by decide
  have reason : permanentReason (.raised (.problem 422 "invalid_event_size")) .decode =
    some "invalid_event_size" := rfl
  have refused : quarantineRecord scope topicId (ownRecord scope offset) key none
    (.str (str "invalid_event_size")) =
      .error oversized := by
    unfold quarantineRecord
    rw [ownPosition_record scope located.some located.lower]
    rfl
  rw [processRecord, if_neg (not_not.2 policy), fails]
  unfold setAside
  simp only [reason, if_neg (show str "quarantine" ≠ str "strict" by decide), refused]
  rfl

/-- A message decodes to a valid event or is refused with status 400 or 422; and what is refused at
the `decode` stage is quarantined unless its value is missing or too large, or its key is. -/
theorem undecodable_classified :
    (∀ raw, (∃ event order, decode raw = .ok event ∧ validateEvent event = .ok order) ∨
      ∃ e, decode raw = .error e ∧ IsInvalid e) ∧
    ∀ key raw e, readRecord key raw = .error e →
      ∃ reason, permanentReason (.raised e) .decode = some reason ∧
        ∀ (scope : Scope) {topicId : Str} {offset : Int}, Located topicId offset →
          (Unpreservable key raw ∧ ∃ msg,
          processRecord scope topicId (ownRecord scope offset) key raw (str "quarantine") =
            throw (.raised (.python (.valueError msg)))) ∨
          ∃ k b dlqId, key = some k ∧ raw = some b ∧
            processRecord scope topicId (ownRecord scope offset) key raw (str "quarantine") =
              publish (envelopeOf scope dlqId (sourceOf topicId (ownRecord scope offset)) k b
                (.str (str reason))) reason
                (.str dlqId) := by
  refine ⟨fun raw => ?_, fun key raw e fails => decode_failure_quarantined fails⟩
  cases result : decode raw with
  | error e => exact .inr ⟨e, rfl, decode_only raw e result⟩
  | ok event =>
    obtain ⟨b, order, _, _, _, _, valid⟩ := decode_inv result
    exact .inl ⟨event, order, rfl, valid⟩

end

/-- The scope of a run. -/
def drillScope : Scope where
  project := str "db-lab-mvp"
  runId := str "msg-0123456789abcdef01234567"
  token := str "0123456789abcdef0123456789abcdef"
  project_ok := by decide +kernel
  runId_ok := by decide +kernel
  token_ok := by decide +kernel

/-- The record of the example is located. -/
lemma drill_located : Located (str "topic") 0 :=
  ⟨by decide, fun c m => ascii_scalar (by revert c; decide), by decide, by decide⟩

/-- A record without a value is refused, though it is not too large and its key is usable. -/
theorem tombstone_refused :
    @processRecord integral drillScope (str "topic") (@ownRecord integral drillScope 0)
      (some [107]) none (str "quarantine") =
        throw (.raised (.python oversized)) ∧
      (¬∃ b : Bytes, none = some b ∧ maxMessage < b.length) ∧ ([107] : Bytes).length ≤ 128 :=
  ⟨@processRecord_none integral drillScope _ _ drill_located (some [107]), nofun, by decide⟩

/-- Messages whose key is `k`, and what is found wrong with them. -/
def badMessages : List (String × String) :=
  [("", "invalid_event_size"),
    ("\x7b\"schema_version\":2\x7d", "unsupported_event_schema"),
    ("\x7b\"schema_version\":1,\"event_id\":\"00000000-0000-4000-8000-000000000004\",\"order\":\x7b" ++
      "\"id\":\"00000000-0000-4000-8000-000000000003\",\"item\":\"mug\",\"quantity\":2,\"unit_price\":3," ++
      "\"total\":6,\"status\":\"created\",\"version\":1,\"created_at\":\"2024-01-01T00:00:00.000+00:00\"\x7d\x7d",
      "event_key_mismatch")]

section
attribute [local instance] integral

/-- Whether a message is refused for this. -/
def refusedFor (code : String) (x : Except Raised Value) : Bool :=
  match x with
  | .error e => e = .problem 422 code
  | .ok _ => false

/-- A refusal is the error with its code. -/
lemma refusedFor_error {code : String} {x : Except Raised Value} (h : refusedFor code x = true) :
    x = .error (.problem 422 code) := by
  cases x with
  | ok v => cases h
  | error e => rw [of_decide_eq_true h]

/-- An empty message, one of another schema and one with the key of none are quarantined. -/
theorem undecodable_classified_empty : ∀ c ∈ badMessages,
    permanentReason (.raised (.problem 422 c.2)) .decode = some c.2 ∧ ∃ dlqId,
      processRecord drillScope (str "topic") (ownRecord drillScope 0) (some [107])
        (some ((str c.1).map .ofNat))
          (str "quarantine") =
        publish (envelopeOf drillScope dlqId (sourceOf (str "topic") (ownRecord drillScope 0)) [107]
          ((str c.1).map .ofNat) (.str (str c.2))) c.2 (.str dlqId) := by
  have all : ∀ c ∈ badMessages, ((str c.1).map UInt8.ofNat).length ≤ maxMessage ∧
      refusedFor c.2 (readRecord (some [107]) (some ((str c.1).map .ofNat))) = true := by
        decide +kernel
  intro c m
  obtain ⟨small, refused⟩ := all c m
  obtain ⟨reason, permanent, aside⟩ :=
    undecodable_classified.2 (some [107]) (some ((str c.1).map .ofNat)) _
    (refusedFor_error refused)
  have known : permanentReason (.raised (.problem 422 c.2)) .decode = some c.2 := by
    simp [permanentReason]
  cases permanent.symm.trans known
  refine ⟨known, ?_⟩
  rcases aside drillScope drill_located with ⟨cannot, _⟩ | ⟨k, b, dlqId, hk, hb, set⟩
  · rcases cannot with none | ⟨b, e, large⟩ | none | ⟨k, e, long⟩
    · cases none
    · cases e
      exact absurd small (Nat.not_le.2 large)
    · cases none
    · cases e
      exact absurd long (by decide)
  · cases hk
    cases hb
    exact ⟨dlqId, set⟩

end

end DbLab.Mvp.Message
