import DbLab.Py.Builtins
import DbLab.Py.Float

/-!
# Comparing repeated benchmark runs (`benchmarks.compare`)

The reports of runs are compared only if they are of one database and workload. Whether their
numbers may be compared is told twice, as a truth value and as a list of reasons. The statistics of
the metrics are left out.
-/

namespace DbLab.Bench
open DbLab.Py

section Compare
variable [Interpreter]

/-- `run.get(key)` -/
def field (run : Fields) (key : String) : Value := run.getD key .null

/-! ### The reports -/

-- `_verification_checks(value)`
mutual
def verificationChecks : Value → List Bool
  | .bool b => [b]
  | .list xs => listChecks xs
  | .dict ms => dictChecks ms
  | _ => []
def listChecks : List Value → List Bool
  | [] => []
  | x :: xs => verificationChecks x ++ listChecks xs
def dictChecks : List (Str × Value) → List Bool
  | [] => []
  | m :: ms => verificationChecks m.2 ++ dictChecks ms
end

def isDict : Value → Bool
  | .dict _ => true
  | _ => false

/-- `isinstance(v, (int, float))`, which a boolean is. -/
def isIntOrFloat (v : Value) : Bool := v.num?.isSome

/-- `v >= w` -/
def ge (v w : Value) : Except Exn Bool := w.le v

/-- A report that is compared. -/
def accept (path : String) (report : Value) : Except Exn Fields := do
  match report with
  | .dict run =>
    if !(field run "schema_version").eq (.int 1) ||
      !(field run "evidence_kind").eq (.str (str "live_database")) then
      .error (.valueError s!"{path}: expected a live_database benchmark schema_version 1 report")
    else if !(field run "status").eq (.str (str "PASS")) then
      .error (.valueError s!"{path}: only PASS reports can be compared")
    else if !isDict (field run "database") || !isDict (field run "workload") then
      .error (.valueError s!"{path}: missing database/workload metadata")
    else if !isDict (field run "metrics") then
      .error (.valueError s!"{path}: missing metrics")
    else
      let checks := verificationChecks (field run "verification")
      if checks.isEmpty || !checks.all id then
        .error (.valueError
          s!"{path}: PASS report must contain successful boolean verification checks")
      else
        let version ← (field run "database").get "version"
        let tag ← (field run "database").get "configured_image_tag"
        if !version.truthy && !tag.truthy then
          .error (.valueError s!"{path}: missing observed database version or configured image tag")
        else .ok run
  | _ => .error .attributeError

/-- `run.get('environment', {}).get(key)` -/
def environment (run : Fields) (key : String) : Except Exn Value :=
  (run.getD "environment" (.dict [])).get key

/-- `isinstance(run_id, str) and run_id` -/
def isRunId : Value → Bool
  | .str s => s ≠ []
  | _ => false

/-- `len(set(run_ids)) == len(run_ids)` for texts. -/
def distinctIds : List Value → Bool
  | [] => true
  | v :: vs => vs.all (fun w => !v.eq w) && distinctIds vs

/-- A report that is compared with the first. -/
def comparable (reference : Fields) (path : String) (run : Fields) : Except Exn Unit := do
  for section_ in ["database", "workload"] do
    if !(field run section_).eq (field reference section_) then
      throw (.valueError
        s!"{path}: {section_} differs; only identical database and workload settings are comparable")
  for key in ["container_engine", "container_engine_version"] do
    if !(← environment run key).eq (← environment reference key) then
      throw (.valueError s!"{path}: environment.{key} differs")

/-! ### What is known of a run -/

def requiredEnvironment : List String :=
  ["container_engine", "container_engine_version", "host_fingerprint", "host_cpu_count",
    "host_memory_bytes", "host_swap_total_bytes", "container_limits", "container_images"]

def pressureFields : List String :=
  ["host_load_1m", "host_available_memory_bytes", "host_swap_free_bytes"]

/-- `isinstance(item.get('image_id'), str) and item['image_id']` for a dictionary. -/
def hasImageId : Value → Bool
  | .dict item => isRunId (field item "image_id")
  | _ => false

/-- `metadata_present(run, key)` -/
def metadataPresent (run : Fields) (key : String) : Except Exn Bool := do
  let value ← environment run key
  match value with
  | .null => pure false
  | value =>
    if key ∈ "host_memory_bytes" :: "host_swap_total_bytes" :: "host_cpu_count" ::
      pressureFields then
      if value.isNumber then ge value (.int 0) else pure false
    else if key = "container_limits" then
      match value with
      | .dict limits => pure (!limits.isEmpty && limits.all fun item => isDict item.2)
      | _ => pure false
    else if key = "container_images" then
      match value with
      | .dict images => pure (!images.isEmpty && images.all fun item => hasImageId item.2)
      | _ => pure false
    else pure value.truthy

/-- `a and b` -/
def andThen (a b : Except Exn Bool) : Except Exn Bool := do if ← a then b else pure false

/-- `complete_runtime_observation(run)` -/
def completeRuntimeObservation (run : Fields) : Except Exn Bool := do
  let observation ← environment run "runtime_observation"
  let duration := field run "duration_seconds"
  match observation with
  | .dict observation =>
    if !(field observation "scope").eq (.str (str "host")) || !isIntOrFloat duration then pure false
    else
      andThen (Value.lt (.int 0) duration) <|
      andThen (ge (Fields.getD observation "sample_count" (.int 0)) (.int 2)) <|
      andThen (ge (Fields.getD observation "cpu_intervals_observed" (.int 0)) (.int 1)) <|
      andThen (pure (match field observation
        "host_cpu_busy_pct_mean" with | .null => false | _ => true)) do
        ge (Fields.getD observation "coverage_seconds" (.int 0))
          (← duration.mul (.float (Interpreter.ofLit (str "0.8"))))
  | _ => pure false

/-- `not isinstance(duration, (int, float)) or duration < 30` -/
def isShort (run : Fields) : Except Exn Bool :=
  let duration := field run "duration_seconds"
  if isIntOrFloat duration then duration.lt (.int 30) else pure true

/-- `run.get('verification', {}).get('dataset_state_verified') is not True` -/
def isUnverified (run : Fields) : Except Exn Bool := do
  match ← (run.getD "verification" (.dict [])).get "dataset_state_verified" with
  | .bool true => pure false
  | _ => pure true

/-! ### The comparison -/

/-- What `compare` returns, without statistics. -/
structure Comparison where
  database : Value
  workload : Value
  runIds : List Value
  repeatCount : Nat
  dispersionInterpretable : Bool
  environmentConfirmed : Bool
  performanceComparisonReady : Bool
  runtimeContentionUnverified : Bool
  readinessBlockers : List Str
  missingPressureObservations : List String
  incompleteRuntimeObservations : List Str
  runsBelowMinimumDuration : List Str
  datasetStateUnverified : List Str
  missingEnvironmentMetadata : List String
  differingEnvironmentMetadata : List String

/-- `run['run_id']`, which is a text. -/
def runId (run : Fields) : Str :=
  match field run "run_id" with
  | .str s => s
  | _ => []

/-- `[run['run_id'] for run in runs if …]` -/
def idsOf (runs : List Fields) (test : Fields → Except Exn Bool) : Except Exn (List Str) :=
  (fun found => found.map runId) <$> runs.filterM test

/-- `[text] if found else []` -/
def blocker {α : Type} (found : List α) (text : Str) : List Str :=
  if found.isEmpty then [] else [text]

/-- `', '.join(ids)` -/
def joined (ids : List Str) : Str := List.intercalate (str ", ") ids

/-- The keys that are missing from a run. -/
def missingMetadata (runs : List Fields) (keys : List String) : Except Exn (List String) :=
  keys.filterM fun key => runs.anyM fun run => do return !(← metadataPresent run key)

/-- The keys that a run has otherwise than the first. -/
def differingMetadata (reference : Fields) (runs : List Fields) : Except Exn (List String) :=
  requiredEnvironment.filterM fun key => runs.anyM fun run => do
    return !(← environment run key).eq (← environment reference key)

/-- What is compared of runs that are comparable. -/
def assess (runs : List Fields) : Except Exn Comparison := do
  let reference := runs.headD []
  let missing ← missingMetadata runs requiredEnvironment
  let differing ← differingMetadata reference runs.tail
  let missingPressure ← missingMetadata runs pressureFields
  let incomplete ← idsOf runs fun run => do return !(← completeRuntimeObservation run)
  let short ← idsOf runs isShort
  let unverified ← idsOf runs isUnverified
  let confirmed := missing.isEmpty && differing.isEmpty
  pure {
    database := field reference "database"
    workload := field reference "workload"
    runIds := runs.map (field · "run_id")
    repeatCount := runs.length
    dispersionInterpretable := 3 ≤ runs.length
    environmentConfirmed := confirmed
    performanceComparisonReady :=
      3 ≤ runs.length && confirmed && incomplete.isEmpty && short.isEmpty && unverified.isEmpty
    runtimeContentionUnverified := !incomplete.isEmpty
    readinessBlockers :=
      blocker missing (str "required host/container/image metadata is missing") ++
        blocker differing (str "required runtime/resource/image metadata differs") ++
      blocker missingPressure (str "host pressure observations are missing") ++
      blocker incomplete (str "runtime pressure samples do not cover the full run: " ++
        joined incomplete) ++
      blocker short (str "each run must measure at least 30 seconds: " ++ joined short) ++
      blocker unverified (str "dataset state is not verified for every run: " ++
        joined unverified) ++
      if runs.length < 3 then [str "at least three comparable repeats are required"] else []
    missingPressureObservations := missingPressure
    incompleteRuntimeObservations := incomplete
    runsBelowMinimumDuration := short
    datasetStateUnverified := unverified
    missingEnvironmentMetadata := missing
    differingEnvironmentMetadata := differing }

/-- What is compared of reports that are accepted. -/
def compareRuns (paths : List String) (runs : List Fields) : Except Exn Comparison :=
  let runIds := runs.map (field · "run_id")
  if runIds.any (fun id => !isRunId id) || !distinctIds runIds then
    .error (.valueError "each report must have a distinct non-empty run_id")
  else do
    ((paths.zip runs).tail).forM fun r => comparable (runs.headD []) r.1 r.2
    assess runs

/-- `compare(paths)`, where the files at the resolved paths hold the reports. -/
def compare (reports : List (String × Value)) : Except Exn Comparison :=
  if reports.length < 2 then .error (.valueError "provide at least two report files")
  else if (reports.map Prod.fst).dedup.length ≠ reports.length then
    .error (.valueError "the same report file was provided more than once")
  else do
    let runs ← reports.mapM fun r => accept r.1 r.2
    compareRuns (reports.map Prod.fst) runs

/-! ### Ready, and no reason against it -/

/-- What a comparison is ready for, beside the pressure on the hosts. -/
structure Gates (runs : List Fields) : Prop where
  repeats : 3 ≤ runs.length
  metadata : ∀ key ∈ requiredEnvironment, ∀ run ∈ runs, metadataPresent run key = .ok true
  same : ∀ key ∈ requiredEnvironment, ∀ run ∈ runs.tail, ∃ v w, environment run key = .ok v ∧
    environment (runs.headD []) key = .ok w ∧ v.eq w = true
  observed : ∀ run ∈ runs, completeRuntimeObservation run = .ok true
  long : ∀ run ∈ runs, isShort run = .ok false
  verified : ∀ run ∈ runs, isUnverified run = .ok false

/-- The pressure on the host of every run was observed. -/
def Pressured (runs : List Fields) : Prop :=
  ∀ key ∈ pressureFields, ∀ run ∈ runs, metadataPresent run key = .ok true

variable {runs : List Fields} {c : Comparison}

omit [Interpreter] in
/-- `not x` is false. -/
lemma not_ok {x : Except Exn Bool} : (do return !(← x)) = .ok false ↔ x = .ok true := by
  cases x with
  | error e => exact ⟨nofun, nofun⟩
  | ok b => cases b <;> simp [pure_eq_ok]

/-- No run is named just if the test fails on all. -/
lemma idsOf_nil {test : Fields → Except Exn Bool} {ids : List Str} (h : idsOf runs test = .ok ids) :
    ids = [] ↔ ∀ run ∈ runs, test run = .ok false := by
  unfold idsOf at h
  obtain ⟨found, run, h⟩ := bind_ok.1 h
  cases h
  rw [List.map_eq_nil_iff, filterM_nil run]

/-- No metadata are missing just if all runs have all keys. -/
lemma missingMetadata_nil {keys missing : List String}
    (h : missingMetadata runs keys = .ok missing) :
    missing = [] ↔ ∀ key ∈ keys, ∀ run ∈ runs, metadataPresent run key = .ok true := by
  rw [filterM_nil h]
  exact forall₂_congr fun key _ => anyM_false.trans (forall₂_congr fun run _ => not_ok)

/-- No metadata differ just if all runs have the values of the first. -/
lemma differingMetadata_nil {reference : Fields} {differing : List String}
    (h : differingMetadata reference runs = .ok differing) :
    differing = [] ↔ ∀ key ∈ requiredEnvironment, ∀ run ∈ runs, ∃ v w, environment run key = .ok v ∧
      environment reference key = .ok w ∧ v.eq w = true := by
  rw [filterM_nil h]
  refine forall₂_congr fun key _ => anyM_false.trans (forall₂_congr fun run _ => ?_)
  cases environment run key with
  | error e => exact ⟨nofun, fun ⟨_, _, h, _⟩ => nomatch h⟩
  | ok v =>
    cases environment reference key with
    | error e => exact ⟨nofun, fun ⟨_, _, _, h, _⟩ => nomatch h⟩
    | ok w => simp [pure_eq_ok]

omit [Interpreter] in
/-- A blocker is listed just if something was found. -/
lemma blocker_nil {α : Type} {found : List α} {text : Str} :
    blocker found text = [] ↔ found = [] := by
  cases found with
  | nil => exact ⟨fun _ => rfl, fun _ => rfl⟩
  | cons a found => exact ⟨nofun, nofun⟩

/-- What an assessment says, in terms of the gates on the reports. -/
lemma assess_ready (h : assess runs = .ok c) :
    (c.performanceComparisonReady = true ↔ Gates runs) ∧ (c.readinessBlockers = [] ↔
      Gates runs ∧ Pressured runs) := by
  unfold assess at h
  obtain ⟨missing, missed, h⟩ := bind_ok.1 h
  obtain ⟨differing, differed, h⟩ := bind_ok.1 h
  obtain ⟨missingPressure, missedPressure, h⟩ := bind_ok.1 h
  obtain ⟨incomplete, observed, h⟩ := bind_ok.1 h
  obtain ⟨short, long, h⟩ := bind_ok.1 h
  obtain ⟨unverified, verified, h⟩ := bind_ok.1 h
  cases h
  have gates : Gates runs ↔ 3 ≤ runs.length ∧ missing = [] ∧ differing = [] ∧
    incomplete = [] ∧ short = [] ∧
      unverified = [] := by
    rw [missingMetadata_nil missed, differingMetadata_nil differed, idsOf_nil observed,
      idsOf_nil long, idsOf_nil verified]
    constructor
    · exact fun g =>
        ⟨g.repeats, g.metadata, g.same, fun run m => not_ok.2 (g.observed run m),
          g.long, g.verified⟩
    · exact fun ⟨a, b, c, d, e, f⟩ => ⟨a, b, c, fun run m => not_ok.1 (d run m), e, f⟩
  rw [gates, Pressured, ← missingMetadata_nil missedPressure]
  constructor
  · simp only [Bool.and_eq_true, decide_eq_true_iff, List.isEmpty_iff]
    tauto
  · simp only [List.append_eq_nil_iff, blocker_nil]
    split_ifs with few
    · simp
      omega
    · have enough : 3 ≤ runs.length := by omega
      tauto

/-- What is compared are the accepted reports. -/
lemma compare_assess {reports : List (String × Value)} (h : compare reports = .ok c) :
    ∃ runs, reports.mapM (fun r => accept r.1 r.2) = .ok runs ∧ assess runs = .ok c := by
  unfold compare at h
  split_ifs at h
  obtain ⟨runs, accepted, h⟩ := bind_ok.1 h
  unfold compareRuns at h
  extract_lets runIds at h
  split_ifs at h
  obtain ⟨_, _, assessed⟩ := bind_ok.1 h
  exact ⟨runs, accepted, assessed⟩

/-- A comparison is ready exactly when no reason is given against it, if and only if the pressure on
the hosts is observed or something else is in the way. -/
theorem compare_ready {reports : List (String × Value)}
    (accepted : reports.mapM (fun r => accept r.1 r.2) = .ok runs)
    (h : compare reports = .ok c) :
    (c.performanceComparisonReady = true ↔ c.readinessBlockers = []) ↔
      (Gates runs → Pressured runs) := by
  obtain ⟨runs', accepted', assessed⟩ := compare_assess h
  cases accepted.symm.trans accepted'
  obtain ⟨ready, blockers⟩ := assess_ready assessed
  rw [ready, blockers]
  tauto

end Compare

/-! ### Three runs -/

section Three
attribute [local instance] integral

def environmentOf (pressure : List (String × Value)) : Value :=
  .ofFields ([("container_engine", .str (str "podman")),
    ("container_engine_version", .str (str "5.8.7")), ("host_fingerprint", .str (str "host-a")),
    ("host_cpu_count", .int 8),
  ("host_memory_bytes", .int 1000), ("host_swap_total_bytes", .int 200),
  ("container_limits", .ofFields [("kafka", .ofFields [("memory_bytes", .int 512)])]),
  ("container_images", .ofFields
    [("kafka-1", .ofFields [("image_id", .str (str "sha256:image-a"))])]),
  ("runtime_observation", .ofFields [("scope", .str (str "host")), ("sample_count", .int 31),
    ("cpu_intervals_observed", .int 30), ("coverage_seconds", .int 30),
    ("host_cpu_busy_pct_mean", .int 25)])] ++ pressure)

/-- The report of a run of half a minute. -/
def reportOf (id : String) (pressure : List (String × Value)) : Value :=
  .ofFields [("schema_version", .int 1), ("evidence_kind", .str (str "live_database")),
    ("status", .str (str "PASS")), ("run_id", .str (str id)),
  ("database", .ofFields [("version", .str (str "4.1"))]),
  ("workload", .ofFields [("rate", .int 100)]), ("metrics", .ofFields [("delivered", .int 100)]),
  ("duration_seconds", .int 30),
  ("verification", .ofFields [("dataset_state_verified", .bool true)]),
  ("environment", environmentOf pressure)]

def reportsOf (pressure : List (String × Value)) : List (String × Value) :=
  [("/run-0.json", reportOf "run-0" pressure), ("/run-1.json", reportOf "run-1" pressure),
    ("/run-2.json", reportOf "run-2" pressure)]

/-- A comparison that is ready, with the reasons against it. -/
def readyWith (blockers : List Str) (c : Comparison) : Bool :=
  c.performanceComparisonReady && c.readinessBlockers = blockers

def idle : List (String × Value) :=
  [("host_load_1m", .int 1), ("host_available_memory_bytes", .int 800),
    ("host_swap_free_bytes", .int 100)]

/-- `compare_ready` for reports that say nothing about the pressure on the host. -/
theorem compare_ready_idle :
    ∃ (runs : List Fields) (c : Comparison),
    (reportsOf idle).mapM (fun r => accept r.1 r.2) = .ok runs ∧
    ((c.performanceComparisonReady = true ↔ c.readinessBlockers = []) ↔
    (Gates runs → Pressured runs)) := by
  have compares : passes (compare (reportsOf idle)) (readyWith []) = true := by decide +kernel
  obtain ⟨c, compared, _⟩ := ok_of_test compares
  obtain ⟨runs, accepted, _⟩ := compare_assess compared
  exact ⟨runs, c, accepted, compare_ready accepted compared⟩

/-- Three runs without a word on the pressure are ready, and there is a reason against it. -/
theorem ready_unpressured :
    ¬∀ (reports : List (String × Value)) (c : Comparison), compare reports = .ok c →
      (c.performanceComparisonReady = true ↔ c.readinessBlockers = []) := by
  intro claimed
  have compares : passes (compare (reportsOf []))
      (readyWith [str "host pressure observations are missing"]) = true := by
    decide +kernel
  obtain ⟨c, compared, found⟩ := ok_of_test compares
  obtain ⟨ready, blockers⟩ := Bool.and_eq_true_iff.1 found
  have none := (claimed _ c compared).1 ready
  rw [none] at blockers
  cases of_decide_eq_true blockers

end Three

end DbLab.Bench
