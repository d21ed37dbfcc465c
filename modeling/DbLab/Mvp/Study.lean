import DbLab.Mvp.Windows

/-!
# Comparing two runs (`study_analysis.py`)

A run is validated against its own log before it is counted. Its requests are counted by window,
operation and outcome, and a baseline and a fault run are compared group by group. The checks of
digests and of the final audit refuse further runs and are left out, as are the counts over error
texts and diagnostics.
-/

namespace DbLab.Mvp.Study
open DbLab.Py DbLab.Data Simulation

/-! ### Validation -/

def scopes : List String := ["setup", "workload", "observer", "audit"]

/-- `OPERATIONS` -/
def operationNames : List String :=
  ["identity", "create", "prime_cache", "source_lookup", "read_only_comparison", "diagnostics",
    "update", "detail", "search", "terminal_read"]

/-- The outcome that a status stands for. -/
def expectedOutcome (status : Int) : String :=
  if 200 ≤ status ∧ status < 300 then "success"
  else if status = 409 then "conflict"
  else if status = 0 then "client_unknown"
  else "error"

/-- What a request is and how it ended. -/
def validateKind (row : Request) : Except String Unit := do
  require (row.scope ∈ scopes.map str) "invalid_request_scope"
  require (row.operation ∈ operationNames.map str) "invalid_request_operation"
  require (0 ≤ row.status ∧ row.status ≤ 599 ∧ (row.status = 0 ∨ 100 ≤ row.status))
    "invalid_http_status"
  require (row.outcome = str (expectedOutcome row.status)) "outcome_disagrees_with_status"

def validateClocks (row : Request) : Except String Unit := do
  let start ← number row.startedSeconds "request_clock_missing_or_invalid" 100000
  let finish ← number row.finishedSeconds "request_clock_missing_or_invalid" 100000
  require (start ≤ finish) "request_clock_inverted"
  let elapsed ← number row.elapsedSeconds "invalid_request_record_clock" 100000
  require (finish ≤ elapsed + 1 / 100) "request_record_before_finish"
  let latency ← number row.latencyMs "invalid_request_latency" 100000000
  require (latency ≤ (finish - start) * 1000 + 25) "latency_exceeds_observed_call"

def validateQueue (row : Request) : Except String Unit :=
  match row.clientQueueMs with
  | none => .ok ()
  | some queue => do
    let queue ← number queue "invalid_client_queue_ms" 100000000
    require (queue ≤ row.latencyMs + 1 / 100) "client_queue_exceeds_total"

def validateTransport (row : Request) : Except String Unit :=
  match row.transportMs with
  | none => .ok ()
  | some transport => do
    let transport ← number transport "invalid_transport_ms" 100000000
    match row.clientQueueMs with
    | none => .error "latency_components_disagree"
    | some queue =>
      require (row.transportAttempted = some true ∧ |queue + transport - row.latencyMs| ≤ 1 / 50)
        "latency_components_disagree"

/-- A workload request belongs to a planned workflow. -/
def validateWorkflow (planned : Nat) (row : Request) : Except String Unit :=
  if row.scope = str "workload" then
    match row.workflowNumber with
    | none => .error "workflow_correlation_missing"
    | some n => require (0 ≤ n ∧ n < planned) "workflow_correlation_missing"
  else .ok ()

def validateRequest (planned : Nat) (row : Request) : Except String Unit := do
  validateKind row
  validateClocks row
  validateQueue row
  validateTransport row
  require (row.transportAttempted = some false → row.status = 0 ∧ row.transportMs = none)
    "unsent_request_reported_as_http_success"
  validateWorkflow planned row

def workload (r : Run) : List Request := r.requests.filter (·.scope = str "workload")

/-- The rows of a stage. -/
def staged (r : Run) (stage : String) : List Row := r.timeline.filter (·.stage = str stage)

/-- The numbers of the admitted operations against the plan and the summary. -/
def validateAdmission (r : Run) : Except String Unit := do
  let admitted := (staged r "workflow_admitted").map Row.operationNumber
  require (admitted.all (fun n => n.any fun n : Int => 0 ≤ n && n < r.operations.length) ∧
    admitted.Nodup)
    "invalid_workflow_admission"
  require (r.summary.admittedWorkflows = admitted.length) "admission_count_disagrees_with_log"
  require (0 ≤ r.summary.skippedWorkflows ∧ r.summary.skippedWorkflows ≤ 400) "invalid_skip_count"
  require (admitted.length + r.summary.skippedWorkflows ≤ r.operations.length)
    "workflow_budget_exceeded"
  require (∀ row ∈ workload r, row.workflowNumber ∈ admitted) "request_without_workflow_admission"
  let finished := staged r "workflow_finished"
  require (∀ row ∈ finished, row.operationNumber ∈ admitted ∧
    row.outcome.any (fun o => o ∈ ["completed", "failed", "cancelled"].map str))
      "invalid_workflow_completion"
  require (finished.map Row.operationNumber).Nodup "duplicate_workflow_completion"

/-- `validate_run(run)` -/
def validateRun (r : Run) : Except String Unit := do
  require (r.summary.status ∈ ["passed", "failed", "aborted", "inconclusive"].map str)
    "invalid_run_status"
  r.timeline.forM fun row =>
    (fun _ => ()) <$> number row.elapsedSeconds "invalid_timeline_clock" 100000
  r.requests.forM (validateRequest r.operations.length)
  require (r.summary.workloadHttpRequests = (workload r).length) "request_count_disagrees_with_log"
  validateAdmission r

/-! ### Groups -/

/-- `percentiles(values)` -/
structure Stats where
  count : Nat
  p50 : Option Rat
  p95 : Option Rat
  p99 : Option Rat

/-- The nearest rank. -/
def percentile (p : Nat) (values : List Rat) : Option Rat :=
  (values.insertionSort (· ≤ ·))[⌈(p / 100 * values.length : Rat)⌉.toNat - 1]?.map (roundTo 3)

def percentiles (values : List Rat) : Stats :=
  ⟨values.length, percentile 50 values, percentile 95 values, percentile 99 values⟩

/-- Window, operation and outcome. -/
abbrev Key := Str × Str × Str

/-- The order of tuples of strings. -/
def keyLe (a b : Key) : Bool :=
  a.1 < b.1 || (a.1 = b.1 && (a.2.1 < b.2.1 || (a.2.1 = b.2.1 && a.2.2 ≤ b.2.2)))

structure Group where
  key : Key
  total : Stats
  queue : Stats
  transport : Stats
  transportNotAttempted : Nat
  smallSample : Bool

def group (k : Key) (records : List Request) : Group where
  key := k
  total := percentiles (records.map Request.latencyMs)
  queue := percentiles (records.filterMap Request.clientQueueMs)
  transport := percentiles (records.filterMap Request.transportMs)
  transportNotAttempted := records.countP (·.transportAttempted = some false)
  smallSample := records.length < 20

/-- The key of a request. -/
def keyOf (zero : Rat) (windows : List Window) (row : Request) : Key :=
  (classify row zero windows, row.operation, row.outcome)

/-- The requests under a key. -/
def under (key : Request → Key) (rows : List Request) (k : Key) : List Request :=
  rows.filter (key · = k)

/-- `sorted(grouped.items())`, made groups. -/
def groups (key : Request → Key) (rows : List Request) : List Group :=
  ((rows.map key).dedup.insertionSort fun a b => keyLe a b).map fun k => group k (under key rows k)

def outcomeNames : List String := ["success", "conflict", "error", "client_unknown"]

/-- `':boundary' in c or c == 'outside_window'` -/
def impure (c : Str) : Bool := str ":boundary" <:+: c || c = str "outside_window"

structure Metrics where
  plannedWorkflows : Nat
  admittedWorkflows : Int
  skippedWorkflows : Int
  completedWorkflows : Nat
  unfinishedWorkflows : Int
  admissionPercent : Rat
  httpRequests : Nat
  outcomes : List (Str × Nat)
  errorOrUnknownPercent : Option Rat
  boundaryRequests : Nat
  nonworkloadRequests : Nat
  groups : List Group

/-- `counts[outcome]` -/
def outcomeCount (rows : List Request) (outcome : String) : Nat :=
  rows.countP (·.outcome = str outcome)

/-- `workload_metrics(run, windows)` -/
def workloadMetrics (r : Run) (windows : List Window) : Except String Metrics := do
  let zero ← origin r
  let rows := workload r
  let finished := staged r "workflow_finished"
  require (finished.map Row.operationNumber).Nodup "duplicate_workflow_completion"
  let failed := outcomeCount rows "error" + outcomeCount rows "client_unknown"
  return {
    plannedWorkflows := r.operations.length
    admittedWorkflows := r.summary.admittedWorkflows
    skippedWorkflows := r.summary.skippedWorkflows
    completedWorkflows := finished.countP (·.outcome = some (str "completed"))
    unfinishedWorkflows := max 0 (r.summary.admittedWorkflows - finished.length)
    admissionPercent := roundTo 3 (r.summary.admittedWorkflows / r.operations.length * 100)
    httpRequests := rows.length
    outcomes := outcomeNames.map fun o => (str o, outcomeCount rows o)
    errorOrUnknownPercent :=
      if rows = [] then none else some (roundTo 3 (failed / rows.length * 100))
    boundaryRequests := rows.countP fun row => impure (classify row zero windows)
    nonworkloadRequests := r.requests.length - rows.length
    groups := groups (keyOf zero windows) rows }

/-! ### Comparison -/

structure Delta where
  window : Str
  operation : Str
  outcome : Str
  baselineN : Nat
  faultN : Nat
  p50 : Option Rat
  p95 : Option Rat
  p99 : Option Rat

/-- The groups whose window is left out of the deltas. -/
def excluded (w : Str) : Bool :=
  58 ∈ w || w ∈ ["outside_window", "apply_transition", "restore_transition"].map str

/-- `round(second[field] - first[field], 3)`, where both samples are large enough. -/
def difference (blocked : Bool) (first second : Option Group) (field : Stats → Option Rat)
    (minimum : Nat) : Option Rat :=
  match blocked, first, second with
  | false, some f, some s =>
    if minimum ≤ min f.total.count s.total.count then
      match field f.total, field s.total with
      | some x, some y => some (roundTo 3 (y - x))
      | _, _ => none
    else none
  | _, _, _ => none

def delta (blocked : Bool) (a b : List Group) (k : Key) : Delta :=
  let first := a.find? (·.key = k)
  let second := b.find? (·.key = k)
  { window := k.1
    operation := k.2.1
    outcome := k.2.2
    baselineN := (first.map (·.total.count)).getD 0
    faultN := (second.map (·.total.count)).getD 0
    p50 := difference blocked first second Stats.p50 5
    p95 := difference blocked first second Stats.p95 20
    p99 := difference blocked first second Stats.p99 100 }

def deltas (blocked : Bool) (a b : List Group) : List Delta :=
  (((a.map Group.key ++ b.map Group.key).dedup.insertionSort fun a b => keyLe a b).filter fun k =>
    !excluded k.1).map (delta blocked a b)

structure Comparison where
  status : String
  blockers : List String
  warnings : List String
  windows : List Window
  baseline : Metrics
  fault : Metrics
  deltas : List Delta

/-- `PAIRED` -/
def paired (s : Scenario) : Bool := s.action.isSome && s ≠ .rowLock

/-- `CONTEXT_KEYS` -/
def contextKeys : List String :=
  ["engine_sha256", "source_sha256", "config_sha256", "topology_sha256", "client_python",
    "client_platform"]

/-- What makes two plans incomparable. -/
def planBlockers (left right : Run) : List String :=
  let l := left.plan
  let r := right.plan
  let differing : List (String × Bool) :=
    [("seed", l.seed ≠ r.seed), ("seconds", l.seconds ≠ r.seconds), ("rate", l.rate ≠ r.rate),
      ("workers", l.workers ≠ r.workers), ("workload", l.workload ≠ r.workload),
      ("fault_at", l.faultAt ≠ r.faultAt), ("fault_for", l.faultFor ≠ r.faultFor),
      ("recovery_timeout", l.recoveryTimeout ≠ r.recoveryTimeout)]
  (if left.operations ≠ right.operations then ["planned_operations_differ"] else []) ++
    (differing.filter Prod.snd).map fun k => "plan_" ++ k.1 ++ "_differs"

/-- What makes two contexts incomparable. -/
def contextBlockers (left right : Run) : List String :=
  (if left.context.available && left.context.stable then []
    else ["baseline_context_missing_or_changed"]) ++
  (if right.context.available && right.context.stable then []
    else ["fault_context_missing_or_changed"]) ++
  (if left.context.available && right.context.available then
    (contextKeys.filter fun k => left.context.before k ≠ right.context.before k).map
      (· ++ "_differs")
  else [])

/-- The windows of the fault run, if both runs have an origin. -/
def commonWindows (left right : Run) : Except String (List Window) := do
  let ws ← alignedWindows right
  let _ ← origin left
  return ws

/-- The one window that is used where the fault run has none. -/
def wholeWorkload (left right : Run) : List Window :=
  [⟨str "whole_workload", 0, (min left.plan.seconds right.plan.seconds : Int)⟩]

/-- `compare(left, right)` -/
def compare (left right : Run) : Except String Comparison := do
  validateRun left
  validateRun right
  require (left.runId ≠ right.runId) "two_distinct_runs_required"
  require (left.plan.scenario = .baseline ∧ paired right.plan.scenario)
    "baseline_and_supported_fault_required"
  let live := left.summary.live && right.summary.live
  let known := planBlockers left right ++ contextBlockers left right ++
    if left.summary.status = str "passed" then [] else ["baseline_not_passed"]
  let common := commonWindows left right
  let blockers := match common with
    | .ok _ => known
    | .error code => known ++ [code]
  let windows := match common with
    | .ok ws => ws
    | .error _ => wholeWorkload left right
  let baseline ← workloadMetrics left windows
  let fault ← workloadMetrics right windows
  return {
    status := if blockers ≠ [] then "not_comparable" else if !live then "test_only"
      else if right.summary.status = str "passed" then "complete" else "fault_not_recovered"
    blockers
    warnings := (if live then [] else ["TEST_ONLY_NOT_LIVE_DATABASE_EVIDENCE"]) ++
      (if baseline.skippedWorkflows ≠ 0 ∨ fault.skippedWorkflows ≠ 0 then
        ["admission_slots_skipped_do_not_compare_success_latency_alone"] else []) ++
      (if baseline.httpRequests ≠ fault.httpRequests then
        ["actual_request_counts_differ_even_with_same_plan"] else []) ++
      (if baseline.boundaryRequests ≠ 0 ∨ fault.boundaryRequests ≠ 0 then
        ["boundary_requests_excluded_from_pure_window_deltas_but_retained_in_totals"] else [])
    windows
    baseline
    fault
    deltas := deltas (blockers ≠ []) baseline.groups fault.groups }

/-! ### Counting -/

section
variable {key : Request → Key} {rows : List Request}

/-- How many records are under a key. -/
lemma under_length (k : Key) : (under key rows k).length = rows.countP fun row => key row = k := by
  rw [under, ← List.countP_eq_length_filter]

/-- The count of a group. -/
lemma group_count (k : Key) (records : List Request) :
    (group k records).total.count = records.length := List.length_map ..

/-- The keys of the groups, in order. -/
lemma groups_key : (groups key rows).map Group.key = (rows.map key).dedup.insertionSort fun a b =>
  keyLe a b := by
  rw [groups, List.map_map]
  exact List.map_id' _

/-- A group holds the records under its key. -/
lemma mem_groups {g : Group} (m : g ∈ groups key rows) :
    g = group g.key (under key rows g.key) := by
  obtain ⟨k, _, rfl⟩ := List.mem_map.1 m
  rfl

/-- The groups that satisfy a test on their keys count the requests that do. -/
theorem groups_sum (p : Key → Bool) :
    (((groups key rows).filter fun g => p g.key).map fun g => g.total.count).sum =
      rows.countP fun row => p (key row) := by
  have sorted : (((rows.map key).dedup.insertionSort fun a b => keyLe a b).filter p).Perm
      ((rows.map key).dedup.filter p) :=
    (List.perm_insertionSort _ _).filter p
  have counts := List.sum_map_count_dedup_filter_eq_countP p (rows.map key)
  rw [List.countP_map] at counts
  rw [groups, List.filter_map, List.map_map]
  refine Eq.trans ?_ counts
  refine Eq.trans ?_ (sorted.map _).sum_eq
  congr 1
  refine List.map_congr_left fun k _ => ?_
  rw [Function.comp_apply, group_count, under_length]
  unfold List.count
  rw [List.countP_map]
  rfl

/-- The group of a key, found or not, counts the requests under it. -/
lemma find_count (k : Key) :
    (((groups key rows).find? (·.key = k)).map (·.total.count)).getD 0 =
    (under key rows k).length := by
  cases found : (groups key rows).find? (·.key = k) with
  | some g =>
    have own : g.key = k := by simpa using List.find?_some found
    have made := mem_groups (List.mem_of_find?_eq_some found)
    rw [Option.map_some, Option.getD_some, made, group_count, own]
  | none =>
    rw [Option.map_none, Option.getD_none, eq_comm, List.length_eq_zero_iff, under,
      List.filter_eq_nil_iff]
    intro row mr own
    have m : k ∈ rows.map key := List.mem_map.2 ⟨row, mr, by simpa using own⟩
    have listed : k ∈ (groups key rows).map Group.key := by
      rw [groups_key]
      exact (List.perm_insertionSort _ _).mem_iff.2 (List.mem_dedup.2 m)
    obtain ⟨g, mg, own⟩ := List.mem_map.1 listed
    exact absurd own (by simpa using List.find?_eq_none.1 found g mg)

end

end DbLab.Mvp.Study
