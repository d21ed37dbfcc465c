import DbLab.Mvp.Events
import DbLab.Py.Equality
import DbLab.Py.Reference

/-!
# The exported acceptance report (`evidence_export.py`)

`project_acceptance` reads the files of a run and keeps a few fields of them. The files are what a
child wrote: anything. What is shown of the projection is that it is a function of the fields that
are kept (and of one digest), that its texts are texts of this module, and that it says `passed`
only where every step did.
-/

namespace DbLab.Mvp.Evidence
open DbLab.Py DbLab.Mvp

/-! ### Vocabularies -/

/-- `STATUSES` -/
def statuses : List String :=
  ["passed", "failed", "blocked", "inconclusive", "aborted", "not_run", "running"]

/-- `CHECKS` -/
def checkNames : List String :=
  ["image_source", "driver_imports_and_pins", "effective_target", "mariadb", "redis",
    "elasticsearch", "kafka"]

/-- `ERROR_CODES` -/
def errorCodes : List String :=
  ["runtime_contract_source_missing", "source_not_a_bounded_regular_file", "source_outside_project",
   "image_build_manifest_missing_rebuild_required", "image_files_differ_from_build_manifest",
   "served_assets_missing_rebuild_required", "invalid_served_asset_layout",
   "served_assets_differ_from_build_manifest",
   "running_image_differs_from_host_source", "unsupported_dependency_pin",
   "dependency_contract_changed", "installed_dependency_differs_from_pin",
   "kafka_topic_identity_api_missing", "unexpected_image_python_version",
   "unexpected_database_or_engine", "unexpected_mariadb_data_directory", "unexpected_sql_lock_wait",
   "unexpected_application_tables_or_engine", "application_column_contract_mismatch",
   "application_unique_key_contract_mismatch", "redis_ping_failed",
   "redis_role_or_persistence_mismatch", "search_mapping_contract_mismatch",
   "search_topology_contract_mismatch", "kafka_topic_identity_or_partition_mismatch",
   "kafka_checkpoint_outside_retention", "kafka_checkpoint_missing_with_retained_prefix_gap",
   "effective_container_configuration_mismatch", "invalid_probe_request", "probe_request_too_large",
   "kafka_checkpoint_unconfirmed"]

/-- `HINTS` -/
def hints : List (String × String) :=
  [("image_source", "호스트 소스와 실행 이미지가 다릅니다. 보존 중인 실습 자원을 먼저 정리하고 앱을 다시 빌드하세요."),
   ("driver_imports_and_pins", "컨테이너 Python과 직접 의존성 설치 버전을 확인하세요. 호스트 설치만으로 해결되지 않습니다."),
   ("effective_target", "실험 모드와 실행 컨테이너의 연결 설정을 확인하세요. 비밀번호를 새로 생성하거나 pin을 삭제하지 마세요."),
   ("mariadb", "MariaDB 연결·스키마·영속 경로를 조사하세요. 기존 테이블이나 볼륨을 삭제하지 마세요."),
   ("redis", "Redis 연결·역할·AOF 설정을 확인하세요. 연결 성공은 캐시 내용 일치를 보장하지 않습니다."),
   ("elasticsearch", "ES 연결·매핑·샤드 설정을 확인하세요. 재색인 전에 원본과 현재 인덱스의 증거를 보존하세요."),
   ("kafka", "토픽과 checkpoint/보존 범위를 확인하세요. offset reset만으로 데이터 복구를 완료 처리하지 마세요.")]

/-- `SUITES` (`acceptance.py`) -/
inductive Suite where
  | core | simulations | transactions | messages | network | resources | recovery | all | candidate
deriving DecidableEq

namespace Suite

def name : Suite → String
  | core => "core"
  | simulations => "simulations"
  | transactions => "transactions"
  | messages => "messages"
  | network => "network"
  | resources => "resources"
  | recovery => "recovery"
  | all => "all"
  | candidate => "candidate"

def list : List Suite :=
  [core, simulations, transactions, messages, network, resources, recovery, all, candidate]

/-- The list names every suite. -/
lemma mem_list (s : Suite) : s ∈ list := by
  cases s <;> decide

end Suite

/-- The names of `SCENARIOS` in `simulation.py`. -/
def simulations : List String :=
  ["db-network-delay", "db-network-loss", "baseline", "kafka-outage", "es-outage",
    "redis-outage", "db-freeze",
   "worker-freeze", "redis-recreate", "redis-switch", "row-lock", "duplicate-retry", "version-race"]

/-- The names of `SCENARIOS` in `transaction_model.py`. -/
def transactions : List String :=
  ["stock-race", "duplicate-checkout", "checkout-rollback", "commit-ambiguity",
    "idempotency-conflict", "refund-race"]

/-- The names of `SCENARIOS` in `message_safety.py`. -/
def messages : List String :=
  ["poison-schema", "mapping-reject", "projection-commit-gap", "dlq-commit-gap", "replay-ordering",
    "version-collision"]

/-- A step of the plan, without the command that runs it. -/
structure Step where
  name : String
  scenario : Option String
deriving DecidableEq

/-- `steps_for`, without an image. -/
def stepsFor (suite : Suite) : List Step :=
  let sims := if suite ∈ [.all, .simulations] then simulations
    else if suite = .network then ["db-network-delay", "db-network-loss"] else ["baseline"]
  let names := (if suite ∈ [.all, .transactions] then transactions else []) ++
    (if suite ∈ [.all, .resources] then ["redis-disk-full", "redis-oom"] else []) ++
    (if suite ∈ [.all, .recovery] then ["backup-restore", "deadlock"] else []) ++
    (if suite = .candidate then ["upgrade-restore"] else [])
  [⟨"smoke", none⟩] ++ sims.map (fun n => ⟨"simulate-" ++ n, some n⟩) ++
    names.map (fun n => ⟨"drills-" ++ n, some n⟩) ++
    (if suite ∈ [.all, .messages] then messages.map fun n => ⟨"messages-" ++ n, some n⟩ else [])

/-- The steps that run inside a container and leave a report of their own. -/
def contracts : List String := ["api-runtime-contract", "worker-runtime-contract"]

/-- The names of the steps a summary has to have. -/
def expected (suite : Suite) : List String :=
  ["container-targets", "api-runtime-contract", "worker-runtime-contract"] ++
    (stepsFor suite).map Step.name

/-- `'omitted'` -/
def omitted : List String :=
  ["raw logs", "free text errors", "orders/payloads", "environment", "credentials",
   "recovery markers", "connection targets", "candidate image references"]

def evidenceKind : String := "ALLOWLISTED-ACCEPTANCE-RESULT-NOT-INDEPENDENT-DB-PROOF"

/-- The keys of a projection. -/
def keys : List String :=
  ["schema", "run_id", "suite", "status", "evidence_kind", "source_summary_sha256",
    "planned_scenarios",
   "passed_scenarios", "steps", "omitted", "name", "returncode", "checks", "code", "http_status",
   "investigate"]

/-- The texts of this module that a projection is made of. -/
def vocabulary : List (List String) :=
  [keys, statuses, checkNames, errorCodes, hints.map Prod.snd, Suite.list.map Suite.name,
    Suite.list.flatMap expected,
   [evidenceKind], omitted]

/-- A text of this module. -/
def Known (s : Str) : Prop := ∃ words ∈ vocabulary, ∃ n ∈ words, s = str n

/-! ### What a check projects to -/

section Export
variable [Interpreter]

/-- `ms.get(k)` -/
def field (ms : Fields) (k : String) : Value := ms.getD k .null

/-- `status` -/
def status : Value → Str
  | .str s => if named statuses s then s else str "failed"
  | _ => str "failed"

/-- `number` -/
def number (maximum : Int) : Value → Value
  | .int n => if -255 ≤ n ∧ n ≤ maximum then .int n else .null
  | _ => .null

/-- `code if isinstance(code, str) and code in ERROR_CODES else number(code, maximum=9999)` -/
def errorCode : Value → Value
  | .str s => if named errorCodes s then .str s else number 9999 (.str s)
  | v => number 9999 v

/-- `HINTS[name]`, for a check that has not passed. -/
def hint (status name : Str) : Except Exn (Option Str) :=
  if named ["passed", "not_run"] status then .ok none
  else match hints.find? fun h => str h.1 = name with
    | some h => .ok (some (str h.2))
    | none => .error .keyError

/-- A row of `project_checks`. -/
structure Check where
  name : Str
  status : Str
  code : Value
  httpStatus : Value
  investigate : Option Str

def Check.toValue (c : Check) : Value :=
  .ofFields ([("name", .str c.name), ("status", .str c.status), ("code", c.code),
    ("http_status", c.httpStatus)] ++ c.investigate.toList.map fun text =>
      ("investigate", .str text))

/-- The row of an item whose name is in `CHECKS`. -/
def projectCheck (item : Fields) (name : Str) : Except Exn Check := do
  let status := status (field item "status")
  let investigate ← hint status name
  pure ⟨name, status, errorCode (field item "code"),
    number 599 (field item "http_status"), investigate⟩

/-- One turn of the loop of `project_checks`; a name that cannot be hashed is in no set. -/
def projectItem : Value → Except Exn (Option Check)
  | .dict item =>
    match field item "name" with
    | .str name =>
      if named checkNames name then do
        let row ← projectCheck item name
        pure (some row)
      else .ok none
    | v => if v.hashable then .ok none else .error .typeError
  | _ => .ok none

/-- The items `project_checks` goes through. -/
def checkItems : Value → List Value
  | .dict ms =>
    match lookup (str "checks") ms with
    | some (.list items) => items
    | _ => []
  | _ => []

/-- `project_checks` -/
def projectChecks (v : Value) : Except Exn (List Check) := do
  let rows ← ((checkItems v).take 20).mapM projectItem
  pure (rows.filterMap id)

/-! ### The files of a run -/

/-- What the file system says of a path below the root. -/
structure Path where
  /-- `is_symlink` of the path itself -/
  link : Bool
  /-- `is_symlink` of one of its parents, the root apart -/
  linked : Bool
  /-- `resolve().is_relative_to(root)` -/
  inside : Bool
  /-- `exists()` -/
  found : Bool
  /-- The bytes of a regular file. -/
  content : Option Bytes

inductive Failure where
  | python (e : Exn)
  | runtime (message : String)
deriving DecidableEq

/-- Text mode: every line break is a newline. -/
def newlines : Str → Str
  | 13 :: 10 :: s => 10 :: newlines s
  | 13 :: s => 10 :: newlines s
  | c :: s => c :: newlines s
  | [] => []

/-- `read_json` -/
def readJson (path : Path) : Except Failure Fields :=
  match path.content with
  | none => .error (.runtime "Missing, symlinked or oversized structured evidence")
  | some bytes =>
    if path.link || 16 * 1024 ^ 2 < bytes.length then
      .error (.runtime "Missing, symlinked or oversized structured evidence")
    else do
      let text ← (decode false bytes).mapError .python
      match ← (loads Hooks.default (newlines text)).mapError .python with
      | .dict ms => pure ms
      | _ => .error (.runtime "Evidence must be a JSON object")

/-- `safe_read` -/
def safeRead (path : Path) : Except Failure Fields :=
  if path.content.isNone || path.link || path.linked then
    .error (.runtime "Symlinked/missing evidence is not exportable")
  else if !path.inside then .error (.runtime "Evidence lies outside selected report")
  else readJson path

/-- The directory of a run: what is at each file name. -/
abbrev Directory := Str → Path

/-! ### The projection -/

/-- `RUN_RE` -/
def runPattern : Pattern := .seq (.lit "accept-") (.times lowerHex 12)

/-- A row of the projection. -/
structure Row where
  name : Str
  status : Str
  returncode : Value
  checks : Option (List Check)

def Row.toValue (r : Row) : Value :=
  .ofFields ([("name", .str r.name), ("status", .str r.status), ("returncode", r.returncode)] ++
    r.checks.toList.map fun checks => ("checks", .list (checks.map Check.toValue)))

/-- What `project_acceptance` returns. -/
structure Projection where
  runId : Str
  suite : Suite
  status : Str
  sourceSummarySha256 : Str
  plannedScenarios : Nat
  passedScenarios : Nat
  steps : List Row

def Projection.toValue (p : Projection) : Value :=
  .ofFields
    [("schema", .int 1), ("run_id", .str p.runId), ("suite", .str (str p.suite.name)),
      ("status", .str p.status),
     ("evidence_kind", .str (str evidenceKind)),
     ("source_summary_sha256", .str p.sourceSummarySha256),
     ("planned_scenarios", .int p.plannedScenarios), ("passed_scenarios", .int p.passedScenarios),
     ("steps", .list (p.steps.map Row.toValue)),
     ("omitted", .list (omitted.map fun s => .str (str s)))]

/-- The checks of a step that runs inside a container, where its report is there. -/
def rowChecks (directory : Directory) (name : Str) : Except Failure (Option (List Check)) :=
  if !named contracts name then .ok none
  else
    let path := directory (name ++ str ".json")
    if !path.found then .ok none
    else do
      let raw ← safeRead path
      let checks ← (projectChecks (field raw "result")).mapError .python
      pure (some checks)

/-- One turn of the loop of `project_acceptance`. The names are those of the plan, so they are
texts. -/
def projectRow (directory : Directory) (item : Value) : Except Failure Row :=
  match item with
  | .dict ms =>
    match lookup (str "name") ms with
    | some (.str name) => do
      let checks ← rowChecks directory name
      pure ⟨name, status (field ms "status"), number 255 (field ms "returncode"), checks⟩
    | some _ => .error (.python .typeError)
    | none => .error (.python .keyError)
  | _ => .error (.python .typeError)

/-- `suite not in SUITES or suite == 'candidate'` -/
def publicSuite (v : Value) : Except Failure Suite :=
  match Suite.list.find? fun s => v.eq (.str (str s.name)) with
  | some .candidate | none => .error (.python (.valueError "Unsupported public export suite"))
  | some s => .ok s

/-- The rows of the summary, which are those of the plan. -/
def sourceRows (summary : Fields) (suite : Suite) : Except Failure (List Value) :=
  match field summary "steps" with
  | .list rows => do
    let names ← (rows.mapM fun s : Value => s.get "name").mapError .python
    if Value.eqList names ((expected suite).map fun n => .str (str n)) then pure rows
    else .error (.python (.valueError "Evidence step plan is incomplete or changed"))
  | _ => .error (.python (.valueError "Evidence step plan is incomplete or changed"))

/-- The status of the run: `passed` needs every row to have passed. -/
def finalStatus (said : Str) (rows : List Row) : Str :=
  if said = str "passed" ∧ rows.any (fun r => r.status ≠ str "passed") then str "failed" else said

/-- The scenarios of a suite. -/
def scenarios (suite : Suite) : List String :=
  (((stepsFor suite).filter fun s => s.scenario.isSome).map Step.name).dedup

/-- The projection of a summary that has been read. -/
def projectSummary (directory : Directory) (runId : Str) (summary : Fields) :
    Except Failure Projection := do
  let suite ← publicSuite (field summary "suite")
  if !(field summary "run_id").eq (.str runId) then
    .error (.python (.valueError "Evidence run identity mismatch"))
  else do
    let source ← sourceRows summary suite
    let rows ← source.mapM (projectRow directory)
    pure ⟨runId, suite, finalStatus (status (field summary "status")) rows,
      Interpreter.sha256 ((directory (str "summary.json")).content.getD []),
      (scenarios suite).length, (rows.filter fun r => r.status = str "passed" ∧
        named (scenarios suite) r.name).length, rows⟩

/-- `project_acceptance`, given the directory of the run. -/
def projectAcceptance (directory : Directory) (runId : Value) : Except Failure Projection :=
  match runId with
  | .str runId =>
    if !runPattern.fullmatch runId then .error (.python (.valueError "Invalid acceptance run ID"))
    else do
      let summary ← safeRead (directory (str "summary.json"))
      projectSummary directory runId summary
  | _ => .error (.python (.valueError "Invalid acceptance run ID"))

/-! ### Fields that are kept -/

/-- Both values have the same at each field. -/
def Same (fields : List String) (v w : Value) : Prop := ∀ f ∈ fields, v.get f = w.get f

/-- Two runs agree, position by position, on the fields that are kept. -/
structure Agree (a b : Directory) : Prop where
  summary : ∀ v w, safeRead (a (str "summary.json")) = .ok v →
    safeRead (b (str "summary.json")) = .ok w →
      Same ["run_id", "suite", "status"] (.dict v) (.dict w) ∧
    ∀ xs ys, field v "steps" = .list xs → field w "steps" = .list ys →
      List.Forall₂ (Same ["name", "status", "returncode"]) xs ys
  found : ∀ n ∈ contracts, (a (str n ++ str ".json")).found = (b (str n ++ str ".json")).found
  probes : ∀ n ∈ contracts, ∀ v w, safeRead (a (str n ++ str ".json")) = .ok v →
    safeRead (b (str n ++ str ".json")) = .ok w →
      List.Forall₂ (Same ["name", "status", "code", "http_status"]) (checkItems (field v "result"))
      (checkItems (field w "result"))

variable {a b : Directory}

/-- The same fields have the same values. -/
lemma Same.field {fields : List String} {v w : Fields} (h : Same fields (.dict v) (.dict w))
    {f : String} (m : f ∈ fields) :
    field v f = field w f := Except.ok.inj (h f m)

/-- Agreeing with a dictionary is being one. -/
lemma Same.dict {fields : List String} {v : Fields} {w : Value} (h : Same fields (.dict v) w)
    {f : String} (m : f ∈ fields) :
    ∃ ms, w = .dict ms := by
  have same := h f m
  cases w with
  | dict ms => exact ⟨ms, rfl⟩
  | _ => cases same

/-- Checks with the same fields have the same row. -/
lemma projectItem_same {v w : Value} (h : Same ["name", "status", "code", "http_status"] v w) :
    projectItem v = projectItem w := by
  cases v with
  | dict ms =>
    obtain ⟨ns, rfl⟩ := h.dict (f := "name") (by decide)
    have name := h.field (f := "name") (by decide)
    have check (n : Str) : projectCheck ms n = projectCheck ns n := by
      rw [projectCheck, projectCheck, h.field (f := "status") (by decide),
        h.field (f := "code") (by decide), h.field (f := "http_status") (by decide)]
    rw [projectItem, projectItem, name]
    simp only [check]
  | _ =>
    cases w with
    | dict ns => cases h "name" (by decide)
    | _ => rfl

omit [Interpreter] in
/-- Two loops over related items have the same rows where each item has. -/
lemma mapM_same {α β γ ε : Type} {R : α → β → Prop} {f : α → Except ε γ} {g : β → Except ε γ}
    {xs : List α} {ys : List β}
    {us vs : List γ} (items : List.Forall₂ R xs ys) (first : xs.mapM f = .ok us)
    (second : ys.mapM g = .ok vs)
    (each : ∀ x y u v, R x y → f x = .ok u → g y = .ok v → u = v) : us = vs := by
  induction items generalizing us vs with
  | nil =>
    cases first
    cases second
    rfl
  | cons head _ ih =>
    rw [List.mapM_cons] at first second
    obtain ⟨u, fx, first⟩ := bind_ok.1 first
    obtain ⟨us', rest, first⟩ := bind_ok.1 first
    obtain ⟨v, gy, second⟩ := bind_ok.1 second
    obtain ⟨vs', rest', second⟩ := bind_ok.1 second
    cases first
    cases second
    rw [each _ _ _ _ head fx gy, ih rest rest']

/-- The projected checks depend on four fields. -/
lemma projectChecks_same {v w : Value} {cs ds : List Check}
    (h : List.Forall₂ (Same ["name", "status", "code", "http_status"]) (checkItems v)
      (checkItems w))
    (first : projectChecks v = .ok cs) (second : projectChecks w = .ok ds) : cs = ds := by
  obtain ⟨us, first, same⟩ := bind_ok.1 first
  obtain ⟨vs, second, same'⟩ := bind_ok.1 second
  rw [← Except.ok.inj same, ← Except.ok.inj same', mapM_same (List.forall₂_take 20 h) first second]
  intro x y c d same fx gy
  rw [projectItem_same same, gy] at fx
  exact (Except.ok.inj fx).symm

/-- The checks of a row depend on what two directories agree in. -/
lemma rowChecks_same (h : Agree a b) {name : Str} {cs ds : Option (List Check)}
    (first : rowChecks a name = .ok cs)
    (second : rowChecks b name = .ok ds) : cs = ds := by
  rw [rowChecks] at first second
  by_cases listed : named contracts name = true
  · obtain ⟨n, m, rfl⟩ := named_iff.1 listed
    rw [listed, Bool.not_true, if_neg Bool.false_ne_true] at first second
    dsimp only at first second
    rw [← h.found n m] at second
    cases found : (a (str n ++ str ".json")).found with
    | false =>
      rw [found] at first second
      cases first
      cases second
      rfl
    | true =>
      rw [found] at first second
      obtain ⟨v, read, first⟩ := bind_ok.1 first
      obtain ⟨w, read', second⟩ := bind_ok.1 second
      obtain ⟨cs, first, same⟩ := bind_ok.1 first
      obtain ⟨ds, second, same'⟩ := bind_ok.1 second
      rw [← Except.ok.inj same, ← Except.ok.inj same',
        projectChecks_same (h.probes n m v w read read') (mapError_ok.1 first)
          (mapError_ok.1 second)]
  · rw [Bool.not_eq_true] at listed
    rw [listed] at first second
    cases first
    cases second
    rfl

/-- What a row of the summary has to be. -/
lemma projectRow_ok {item : Value} {r : Row} (h : projectRow a item = .ok r) :
    ∃ ms name checks, item = .dict ms ∧ lookup (str "name") ms = some (.str name) ∧
      rowChecks a name = .ok checks ∧
    r = ⟨name, status (field ms "status"), number 255 (field ms "returncode"), checks⟩ := by
  cases item with
  | dict ms =>
    rw [projectRow] at h
    split at h
    · rename_i name found
      obtain ⟨checks, run, same⟩ := bind_ok.1 h
      exact ⟨ms, name, checks, rfl, found, run, (Except.ok.inj same).symm⟩
    · cases h
    · cases h
  | _ => cases h

/-- A projected row depends on what two directories agree in. -/
lemma projectRow_same (h : Agree a b) {v w : Value} {r s : Row}
    (same : Same ["name", "status", "returncode"] v w)
    (first : projectRow a v = .ok r) (second : projectRow b w = .ok s) : r = s := by
  obtain ⟨ms, n, cs, rfl, name, checks, rfl⟩ := projectRow_ok first
  obtain ⟨ns, n', ds, rfl, name', checks', rfl⟩ := projectRow_ok second
  have names := same.field (f := "name") (by decide)
  rw [field, Fields.getD, name, field, Fields.getD, name'] at names
  cases names
  rw [rowChecks_same h checks checks', same.field (f := "status") (by decide),
    same.field (f := "returncode") (by decide)]

/-- What a summary has to be to be projected. -/
lemma projectSummary_ok {i : Str} {summary : Fields} {p : Projection}
    (h : projectSummary a i summary = .ok p) :
    ∃ source, publicSuite (field summary "suite") = .ok p.suite ∧ field summary "run_id" = .str i ∧
      sourceRows summary p.suite = .ok source ∧ source.mapM (projectRow a) = .ok p.steps ∧
      p = ⟨i, p.suite, finalStatus (status (field summary "status")) p.steps,
        Interpreter.sha256 ((a (str "summary.json")).content.getD []), (scenarios p.suite).length,
        (p.steps.filter fun r => r.status = str "passed" ∧ named (scenarios p.suite) r.name).length,
        p.steps⟩ := by
  obtain ⟨suite, known, h⟩ := bind_ok.1 h
  split at h
  · cases h
  · rename_i same
    obtain ⟨source, plan, h⟩ := bind_ok.1 h
    obtain ⟨rows, run, h⟩ := bind_ok.1 h
    rw [Bool.not_eq_true', Bool.not_eq_false, eq_str_iff] at same
    cases h
    exact ⟨source, known, same, plan, run, rfl⟩

/-- The steps of a summary are those that its suite expects. -/
lemma sourceRows_ok {summary : Fields} {suite : Suite} {source : List Value}
    (h : sourceRows summary suite = .ok source) :
    field summary "steps" = .list source ∧
      ∃ names, (source.mapM fun s : Value => s.get "name") = .ok names ∧
        Value.eqList names ((expected suite).map fun n => .str (str n)) = true := by
  rw [sourceRows] at h
  split at h
  · rename_i rows steps
    obtain ⟨names, read, h⟩ := bind_ok.1 h
    split at h
    · rename_i same
      cases h
      exact ⟨steps, names, mapError_ok.1 read, same⟩
    · cases h
  · cases h

/-- Two runs that agree on the fields that are kept have one projection, the digest apart. -/
lemma projectSummary_same (h : Agree a b) {i j : Str} {v w : Fields} {p q : Projection}
    (read : safeRead (a (str "summary.json")) = .ok v)
    (read' : safeRead (b (str "summary.json")) = .ok w)
    (first : projectSummary a i v = .ok p) (second : projectSummary b j w = .ok q) :
    { p with sourceSummarySha256 := q.sourceSummarySha256 } = q := by
  obtain ⟨same, steps⟩ := h.summary v w read read'
  obtain ⟨xs, suite, id, plan, rows, eq⟩ := projectSummary_ok first
  obtain ⟨ys, suite', id', plan', rows', eq'⟩ := projectSummary_ok second
  have one : i = j := by
    rw [same.field (f := "run_id") (by decide), id'] at id
    cases id
    rfl
  have suites : p.suite = q.suite := by
    rw [same.field (f := "suite") (by decide), suite'] at suite
    exact (Except.ok.inj suite).symm
  have items := steps xs ys (sourceRows_ok plan).1 (sourceRows_ok plan').1
  have each : p.steps = q.steps :=
    mapM_same items rows rows' fun _ _ _ _ same => projectRow_same h same
  rw [eq, eq', one, suites, each, same.field (f := "status") (by decide)]

/-- Which directories are projected. -/
lemma projectAcceptance_ok {i : Value} {p : Projection} (h : projectAcceptance a i = .ok p) :
    ∃ summary, i = .str p.runId ∧ runPattern.fullmatch p.runId = true ∧
      safeRead (a (str "summary.json")) = .ok summary ∧
        projectSummary a p.runId summary = .ok p := by
  cases i with
  | str id =>
    rw [projectAcceptance] at h
    split at h
    · cases h
    · rename_i valid
      obtain ⟨summary, read, h⟩ := bind_ok.1 h
      obtain ⟨source, _, _, _, _, eq⟩ := projectSummary_ok h
      obtain rfl : p.runId = id := by rw [eq]
      rw [Bool.not_eq_true', Bool.not_eq_false] at valid
      exact ⟨summary, rfl, valid, read, h⟩
  | _ => cases h

/-! ### The texts of a projection -/

mutual
/-- The texts of a value, keys and values at every depth. -/
def strings : Value → List Str
  | .str s => [s]
  | .list xs => stringsList xs
  | .dict ms => stringsDict ms
  | .null | .bool _ | .int _ | .float _ => []

def stringsList : List Value → List Str
  | [] => []
  | x :: xs => strings x ++ stringsList xs

def stringsDict : List (Str × Value) → List Str
  | [] => []
  | (k, v) :: ms => k :: (strings v ++ stringsDict ms)
end

variable {P : Str → Prop}

/-- The texts of a list. -/
lemma strings_list {xs : List Value} (h : ∀ x ∈ xs, ∀ s ∈ strings x, P s) :
    ∀ s ∈ strings (.list xs), P s := by
  rw [strings]
  induction xs with
  | nil => exact nofun
  | cons x xs ih =>
    intro s m
    rw [stringsList, List.mem_append] at m
    cases m with
    | inl m => exact h x List.mem_cons_self s m
    | inr m => exact ih (fun y my => h y (List.mem_cons_of_mem _ my)) s m

/-- The texts of a dictionary. -/
lemma strings_ofFields {fields : List (String × Value)}
    (h : ∀ f ∈ fields, P (str f.1) ∧ ∀ s ∈ strings f.2, P s) :
    ∀ s ∈ strings (.ofFields fields), P s := by
  rw [Value.ofFields, strings]
  induction fields with
  | nil => exact List.forall_mem_nil _
  | cons f fields ih =>
    obtain ⟨key, value⟩ := h f List.mem_cons_self
    intro s m
    rw [List.map_cons, stringsDict, List.mem_cons, List.mem_append] at m
    rcases m with rfl | m | m
    · exact key
    · exact value s m
    · exact ih (fun g mg => h g (List.mem_cons_of_mem _ mg)) s m

/-- The text of a text. -/
lemma strings_str {s : Str} (h : P s) : ∀ t ∈ strings (.str s), P t := by
  intro t m
  rw [strings, List.mem_singleton] at m
  exact m ▸ h

/-- A value without texts. -/
lemma strings_none {v : Value} (h : strings v = []) : ∀ t ∈ strings v, P t := by
  rw [h]
  exact nofun

/-- A projected status is a known one. -/
lemma status_mem (v : Value) : ∃ n ∈ statuses, status v = str n := by
  cases v with
  | str s =>
    rw [status]
    split
    · rename_i listed
      exact named_iff.1 listed
    · exact ⟨"failed", by decide, rfl⟩
  | _ => exact ⟨"failed", by decide, rfl⟩

/-- Only a passed step is projected as passed. -/
lemma status_passed {v : Value} (h : status v = str "passed") : v = .str (str "passed") := by
  have other : str "failed" ≠ str "passed" := by decide
  cases v with
  | str s =>
    rw [status] at h
    split at h
    · rw [h]
    · exact absurd h other
  | _ => exact absurd h other

/-- A projected number has no texts. -/
lemma strings_number (maximum : Int) (v : Value) : strings (number maximum v) = [] := by
  cases v with
  | int n =>
    rw [number]
    split <;> rfl
  | _ => rfl

/-- A projected code is a known one. -/
lemma strings_errorCode (v : Value) : ∀ s ∈ strings (errorCode v), ∃ n ∈ errorCodes, s = str n := by
  cases v with
  | str t =>
    rw [errorCode]
    split
    · rename_i listed
      intro s m
      rw [strings, List.mem_singleton] at m
      exact m ▸ named_iff.1 listed
    · rw [strings_number]
      exact nofun
  | _ =>
    rw [errorCode, strings_number]
    · exact nofun
    · exact nofun

/-- A field of a projection that is made of texts of this module. -/
lemma known_field {k : String} {v : Value} (key : k ∈ keys) (value : ∀ s ∈ strings v, Known s) :
    Known (str k) ∧ ∀ s ∈ strings v, Known s :=
  ⟨⟨keys, by simp [vocabulary], k, key, rfl⟩, value⟩

/-- A projected status is part of the vocabulary. -/
lemma status_known (v : Value) : ∀ t ∈ strings (.str (status v)), Known t :=
  strings_str ⟨statuses, by simp [vocabulary], status_mem v⟩

/-- A projected code is part of the vocabulary. -/
lemma errorCode_known (v : Value) : ∀ s ∈ strings (errorCode v), Known s :=
  fun s m => ⟨errorCodes, by simp [vocabulary], strings_errorCode v s m⟩

omit [Interpreter] in
/-- A hint is part of the vocabulary. -/
lemma hint_known {st name : Str} {text : Option Str} (h : hint st name = .ok text) :
    ∀ t ∈ text, Known t := by
  rw [hint] at h
  split at h
  · cases h
    exact nofun
  · split at h
    · rename_i advice found
      cases h
      intro t m
      obtain rfl : str advice.2 = t := Option.some.inj m
      exact ⟨hints.map Prod.snd,
        by simp [vocabulary], advice.2, List.mem_map_of_mem (List.mem_of_find?_eq_some found), rfl⟩
    · cases h

/-- What is written of a check is text of this module. -/
lemma projectItem_known {v : Value} {c : Check} (h : projectItem v = .ok (some c)) :
    ∀ s ∈ strings c.toValue, Known s := by
  cases v with
  | dict ms =>
    rw [projectItem] at h
    split at h
    · split at h
      · rename_i listed
        obtain ⟨row, run, same⟩ := bind_ok.1 h
        obtain rfl : row = c := Option.some.inj (Except.ok.inj same)
        obtain ⟨text, hinted, made⟩ := bind_ok.1 run
        obtain rfl := Except.ok.inj made
        refine strings_ofFields (List.forall_mem_append.2 ⟨?_, ?_⟩)
        · simp only [List.forall_mem_cons]
          exact ⟨known_field (by decide)
            (strings_str ⟨checkNames, by simp [vocabulary], named_iff.1 listed⟩),
            known_field (by decide) (status_known _), known_field (by decide) (errorCode_known _),
            known_field (by decide) (strings_none (strings_number _ _)), nofun⟩
        · intro f m
          obtain ⟨t, mt, rfl⟩ := List.mem_map.1 m
          exact known_field (k := "investigate") (by decide)
            (strings_str (hint_known hinted t (Option.mem_toList.1 mt)))
      · cases h
    · split at h <;> cases h
  | _ => cases h

/-- Projected checks are of the vocabulary. -/
lemma projectChecks_known {v : Value} {cs : List Check} (h : projectChecks v = .ok cs) :
    ∀ c ∈ cs, ∀ s ∈ strings c.toValue, Known s := by
  obtain ⟨rows, run, same⟩ := bind_ok.1 h
  intro c m
  rw [← Except.ok.inj same] at m
  obtain ⟨row, mr, eq⟩ := List.mem_filterMap.1 m
  obtain rfl : row = some c := eq
  obtain ⟨v, _, run⟩ := mapM_result run _ mr
  exact projectItem_known run

/-- The checks of a row are of the vocabulary. -/
lemma rowChecks_known {name : Str} {cs : Option (List Check)} (h : rowChecks a name = .ok cs) :
    ∀ l ∈ cs, ∀ c ∈ l, ∀ s ∈ strings c.toValue, Known s := by
  rw [rowChecks] at h
  split at h
  · cases h
    exact nofun
  · dsimp only at h
    split at h
    · cases h
      exact nofun
    · obtain ⟨raw, _, h⟩ := bind_ok.1 h
      obtain ⟨checks, run, same⟩ := bind_ok.1 h
      intro l m
      rw [← Except.ok.inj same] at m
      obtain rfl : checks = l := Option.some.inj m
      exact projectChecks_known (mapError_ok.1 run)

/-- A row whose name is known is made of texts of this module. -/
lemma Row.known {item : Value} {r : Row} (h : projectRow a item = .ok r) (named : Known r.name) :
    ∀ s ∈ strings r.toValue, Known s := by
  obtain ⟨ms, name, checks, _, _, run, rfl⟩ := projectRow_ok h
  refine strings_ofFields (List.forall_mem_append.2 ⟨?_, ?_⟩)
  · simp only [List.forall_mem_cons]
    exact ⟨known_field (by decide) (strings_str named), known_field (by decide) (status_known _),
      known_field (by decide) (strings_none (strings_number _ _)), nofun⟩
  · intro f m
    obtain ⟨l, ml, rfl⟩ := List.mem_map.1 m
    refine known_field (k := "checks") (by decide) (strings_list ?_)
    intro v mv
    obtain ⟨c, mc, rfl⟩ := List.mem_map.1 mv
    exact rowChecks_known run l (Option.mem_toList.1 ml) c mc

/-- Values that are compared with texts are texts. -/
lemma eqList_str {vs : List Value} {ns : List String}
    (h : Value.eqList vs (ns.map fun n => .str (str n)) = true) :
    ∀ v ∈ vs, ∃ n ∈ ns, v = .str (str n) := by
  induction vs generalizing ns with
  | nil => exact nofun
  | cons v vs ih =>
    cases ns with
    | nil => cases h
    | cons n ns =>
      rw [List.map_cons, Value.eqList, Bool.and_eq_true, eq_str_iff] at h
      refine List.forall_mem_cons.2 ⟨⟨n, List.mem_cons_self, h.1⟩, fun w m => ?_⟩
      obtain ⟨k, mk, eq⟩ := ih h.2 w m
      exact ⟨k, List.mem_cons_of_mem _ mk, eq⟩

/-- The names of the rows are those of the plan. -/
lemma sourceRows_names {summary : Fields} {suite : Suite} {source : List Value}
    (h : sourceRows summary suite = .ok source) :
    ∀ item ∈ source, ∃ n ∈ expected suite, item.get "name" = .ok (.str (str n)) := by
  obtain ⟨_, names, read, same⟩ := sourceRows_ok h
  intro item m
  obtain ⟨i, lt, rfl⟩ := List.mem_iff_getElem.1 m
  have each := mapM_eq_ok read
  have lt' : i < names.length := each.length_eq ▸ lt
  obtain ⟨n, mn, eq⟩ := eqList_str same (names.get ⟨i, lt'⟩) (List.get_mem _ _)
  exact ⟨n, mn, (each.get lt lt').trans (congrArg _ eq)⟩

/-- The name of a projected row. -/
lemma row_named {item : Value} {r : Row} {n : String} (h : projectRow a item = .ok r)
    (name : item.get "name" = .ok (.str (str n))) :
    r.name = str n := by
  obtain ⟨ms, name', checks, rfl, found, _, rfl⟩ := projectRow_ok h
  have same : Except.ok ((lookup (str "name") ms).getD .null) =
    (.ok (.str (str n)) : Except Exn Value) := name
  rw [found] at same
  cases same
  rfl

/-- The digest of a projection is that of the summary. -/
lemma projectSummary_digest {i : Str} {summary : Fields} {p : Projection}
    (h : projectSummary a i summary = .ok p) :
    p.sourceSummarySha256 = Interpreter.sha256 ((a (str "summary.json")).content.getD []) := by
  obtain ⟨_, _, _, _, _, eq⟩ := projectSummary_ok h
  rw [eq]

/-- Every text of a projection is a text of this module, the identity of the run, or the digest. -/
lemma projectSummary_known {i : Str} {summary : Fields} {p : Projection}
    (h : projectSummary a i summary = .ok p) :
    ∀ s ∈ strings p.toValue, s = p.sourceSummarySha256 ∨ s = p.runId ∨ Known s := by
  obtain ⟨source, _, _, plan, run, eq⟩ := projectSummary_ok h
  have known {k : String} {v : Value} (key : k ∈ keys) (value : ∀ s ∈ strings v, Known s) :
      (str k = p.sourceSummarySha256 ∨ str k = p.runId ∨ Known (str k)) ∧
        ∀ s ∈ strings v, s = p.sourceSummarySha256 ∨ s = p.runId ∨ Known s := by
    obtain ⟨first, rest⟩ := known_field key value
    exact ⟨.inr (.inr first), fun s m => .inr (.inr (rest s m))⟩
  have status : ∀ t ∈ strings (.str p.status), Known t := by
    rw [eq]
    refine strings_str ?_
    dsimp only [finalStatus]
    split
    · exact ⟨statuses, by simp [vocabulary], "failed", by decide, rfl⟩
    · exact ⟨statuses, by simp [vocabulary], status_mem _⟩
  have rows : ∀ v ∈ p.steps.map Row.toValue, ∀ s ∈ strings v, Known s := by
    intro v m
    obtain ⟨r, mr, rfl⟩ := List.mem_map.1 m
    obtain ⟨item, mi, row⟩ := mapM_result run r mr
    obtain ⟨n, mn, name⟩ := sourceRows_names plan item mi
    refine Row.known row ⟨Suite.list.flatMap expected,
      by simp [vocabulary], n, ?_, row_named row name⟩
    exact List.mem_flatMap.2 ⟨p.suite, p.suite.mem_list, mn⟩
  refine strings_ofFields ?_
  simp only [List.forall_mem_cons]
  refine ⟨known (by decide) (strings_none rfl),
    ⟨(known (by decide) (strings_none rfl (v := .null))).1, ?_⟩, known (by decide) (strings_str ?_),
    known (by decide) status,
    known (by decide) (strings_str ⟨_, ?_, evidenceKind, List.mem_singleton_self _, rfl⟩),
    ⟨(known (by decide) (strings_none rfl (v := .null))).1, ?_⟩,
    known (by decide) (strings_none rfl), known (by decide) (strings_none rfl),
    known (by decide) (strings_list rows), known (by decide) (strings_list ?_), nofun⟩
  · exact strings_str (.inr (.inl rfl))
  · exact ⟨Suite.list.map Suite.name,
      by simp [vocabulary], _, List.mem_map_of_mem p.suite.mem_list, rfl⟩
  · simp [vocabulary]
  · exact strings_str (.inl rfl)
  · intro v m
    obtain ⟨n, mn, rfl⟩ := List.mem_map.1 m
    exact strings_str ⟨omitted, by simp [vocabulary], n, mn, rfl⟩

/-- A projection that says `passed` is of a summary whose steps all say so. -/
lemma projectSummary_passed {i : Str} {summary : Fields} {p : Projection}
    (h : projectSummary a i summary = .ok p)
    (passed : p.status = str "passed") : ∃ source, field summary "steps" = .list source ∧
      ∀ item ∈ source, item.get "status" = .ok (.str (str "passed")) := by
  obtain ⟨source, _, _, plan, run, eq⟩ := projectSummary_ok h
  refine ⟨source, (sourceRows_ok plan).1, fun item m => ?_⟩
  have each := mapM_eq_ok run
  obtain ⟨k, lt, rfl⟩ := List.mem_iff_getElem.1 m
  have lt' : k < p.steps.length := each.length_eq ▸ lt
  obtain ⟨ms, name, checks, same, _, _, row⟩ := projectRow_ok (each.get lt lt')
  rw [eq] at passed
  dsimp only [finalStatus] at passed
  split at passed
  · exact absurd passed (by decide)
  · rename_i open_
    have row_passed : status (field ms "status") = str "passed" := by
      by_contra other
      refine open_ ⟨passed, List.any_eq_true.2 ⟨p.steps.get ⟨k, lt'⟩, List.get_mem _ _,
        decide_eq_true ?_⟩⟩
      rw [row]
      exact other
    have item : source[k] = .dict ms := same
    rw [item]
    exact congrArg Except.ok (status_passed row_passed)

/-- What an export reveals. -/
structure Allowlisted : Prop where
  same : ∀ (a b : Directory) (i j : Value) (p q : Projection), Agree a b →
    projectAcceptance a i = .ok p → projectAcceptance b j = .ok q →
      { p with sourceSummarySha256 := q.sourceSummarySha256 } = q
  known : ∀ (a : Directory) (i : Value) (p : Projection), projectAcceptance a i = .ok p →
    runPattern.fullmatch p.runId = true ∧ i = .str p.runId ∧
      ∀ s ∈ strings p.toValue, s = p.sourceSummarySha256 ∨ s = p.runId ∨ Known s
  digest : ∀ (a : Directory) (i : Value) (p : Projection), projectAcceptance a i = .ok p →
    p.sourceSummarySha256 = Interpreter.sha256 ((a (str "summary.json")).content.getD [])
  passed : ∀ (a : Directory) (i : Value) (p : Projection), projectAcceptance a i = .ok p →
    p.status = str "passed" → ∃ summary source, safeRead (a (str "summary.json")) = .ok summary ∧
      field summary "steps" = .list source ∧ ∀ item ∈ source,
        item.get "status" = .ok (.str (str "passed"))

/-- What is exported is of the vocabulary and depends on allowed fields only. -/
theorem export_allowlisted : Allowlisted where
  same a b i j p q agree first second := by
    obtain ⟨v, _, _, read, first⟩ := projectAcceptance_ok first
    obtain ⟨w, _, _, read', second⟩ := projectAcceptance_ok second
    exact projectSummary_same agree read read' first second
  known a i p h := by
    obtain ⟨summary, id, valid, _, h⟩ := projectAcceptance_ok h
    exact ⟨valid, id, projectSummary_known h⟩
  digest a i p h := by
    obtain ⟨summary, _, _, _, h⟩ := projectAcceptance_ok h
    exact projectSummary_digest h
  passed a i p h said := by
    obtain ⟨summary, _, _, read, h⟩ := projectAcceptance_ok h
    obtain ⟨source, steps, all⟩ := projectSummary_passed h said
    exact ⟨summary, source, read, steps, all⟩

end Export

section Sample
attribute [local instance] reference

/-- A summary of the suite `core` with a text of a child in it. -/
def sampleSummary : Value :=
  .ofFields [("suite", .str (str "core")), ("run_id", .str (str "accept-a123456789ab")),
    ("steps", .list ((expected .core).map fun n => .ofFields [("name", .str (str n)),
      ("status", .str (str "secret"))]))]

/-- A run that has left nothing but this summary. -/
def summaryOnly (summary : Value) : Directory := fun name =>
  match dumps {} summary with
  | .ok text =>
    if name = str "summary.json" then ⟨false, false, true, true, some (text.map UInt8.ofNat)⟩
    else ⟨false, false, true, false, none⟩
  | .error _ => ⟨false, false, true, false, none⟩

def sampleRun : Directory := summaryOnly sampleSummary

/-- A text in ASCII has as many bytes as characters. -/
lemma ascii_length {n : String} (ascii : ∀ c ∈ str n, c < 128) :
    n.utf8ByteSize = (str n).length := by
  rw [← String.utf8Len_toList, str, List.length_map]
  rw [str] at ascii
  generalize n.toList = cs at ascii
  induction cs with
  | nil => rfl
  | cons c cs ih =>
    have one : c.utf8Size = 1 := by
      rw [Char.utf8Size_eq_one_iff, UInt32.le_iff_toNat_le]
      exact Nat.le_of_lt_succ (ascii c.toNat List.mem_cons_self)
    rw [String.utf8Len_cons, one, ih fun d m => ascii d (List.mem_cons_of_mem _ m),
      List.length_cons]

/-- The digest in an exported projection is no text of this module, and not the identity of the
run. -/
theorem digest_unlisted :
    ∃ p, projectAcceptance sampleRun (.str (str "accept-a123456789ab")) = .ok p ∧
      p.sourceSummarySha256 ∈ strings p.toValue ∧ p.sourceSummarySha256 ≠ p.runId ∧
      ¬ Known p.sourceSummarySha256 := by
  have runs : passes (projectAcceptance sampleRun (.str (str "accept-a123456789ab")))
      (fun p => p.runId.length = 19) = true := by decide +kernel
  have sizes : ∀ words ∈ vocabulary, ∀ n ∈ words, n.utf8ByteSize ≠ 64 := by decide +kernel
  obtain ⟨p, run, id⟩ := ok_of_test runs
  have digest : p.sourceSummarySha256 =
      Sha256.hexdigest ((sampleRun (str "summary.json")).content.getD []) := by
    obtain ⟨_, _, _, _, h⟩ := projectAcceptance_ok run
    exact projectSummary_digest h
  have length : p.sourceSummarySha256.length = 64 := by
    rw [digest]
    exact Sha256.hexdigest_length _
  refine ⟨p, run, ?_, ?_, ?_⟩
  · simp [Projection.toValue, Value.ofFields, strings, stringsDict]
  · intro same
    rw [same, of_decide_eq_true id] at length
    exact absurd length (by decide)
  · rintro ⟨words, m, n, mn, same⟩
    refine sizes words m n mn ?_
    rw [ascii_length, ← same, length]
    intro c mc
    rw [← same, digest] at mc
    rcases Sha256.hexdigest_lower _ c mc with d | l
    · rw [isDigit, Bool.and_eq_true, decide_eq_true_eq, decide_eq_true_eq] at d
      omega
    · omega

/-! ### Runs that differ in what their children say -/

/-- A summary of steps that have passed, with the text of a child in each. -/
def passedSummary (tail : String) : Value :=
  .ofFields [("suite", .str (str "core")), ("run_id", .str (str "accept-a123456789ab")),
    ("status", .str (str "passed")), ("steps", .list ((expected .core).map fun n =>
      .ofFields [("name", .str (str n)), ("status", .str (str "passed")),
        ("stdout", .str (str tail))]))]

/-- Whether there is this text at a key, or nothing. -/
def shows (v : Value) (k : String) (text : Option String) : Bool :=
  match v.get k with
  | .ok (.str s) => text.map str = some s
  | .ok .null => text = none
  | _ => false

/-- A field that shows a text. -/
lemma shows_get {v : Value} {k : String} {text : Option String} (h : shows v k text = true) :
    v.get k = .ok (text.elim .null fun t => .str (str t)) := by
  unfold shows at h
  split at h
  · rename_i s there
    obtain ⟨t, rfl, rfl⟩ := Option.map_eq_some_iff.1 (of_decide_eq_true h)
    exact there
  · rename_i there
    rw [there, of_decide_eq_true h]
    rfl
  · cases h

/-- Whether a summary shows what `passedSummary` does, but for what the children say. -/
def showsPassed (v : Fields) : Bool :=
  shows (.dict v) "run_id" (some "accept-a123456789ab") && shows (.dict v) "suite" (some "core") &&
    shows (.dict v) "status" (some "passed") && match field v "steps" with
    | .list xs => xs.length = (expected .core).length && (xs.zip (expected .core)).all fun x =>
      shows x.1 "name" (some x.2) && shows x.1 "status" (some "passed") &&
        shows x.1 "returncode" none
    | _ => false

/-- What a step shows that has passed. -/
structure ShowsStep (v : Value) (name : String) : Prop where
  name : v.get "name" = .ok (.str (str name))
  status : v.get "status" = .ok (.str (str "passed"))
  returncode : v.get "returncode" = .ok .null

/-- What a summary that shows a pass has. -/
lemma showsPassed_inv {v : Fields} (h : showsPassed v = true) :
    (∀ f ∈ ["run_id", "suite", "status"], (Value.dict v).get f = (passedSummary "").get f) ∧
      ∃ xs, field v "steps" = .list xs ∧ List.Forall₂ ShowsStep xs (expected .core) := by
  unfold showsPassed at h
  split at h
  · rename_i xs steps
    simp only [Bool.and_eq_true, decide_eq_true_eq, List.all_eq_true] at h
    obtain ⟨⟨⟨runId, suite⟩, status⟩, length, all⟩ := h
    refine ⟨?_, xs, steps, List.forall₂_iff_zip.2 ⟨length, fun {x n} m => ?_⟩⟩
    · simp only [List.forall_mem_cons]
      exact ⟨shows_get runId, shows_get suite, shows_get status,
        fun _ m => (List.not_mem_nil m).elim⟩
    · obtain ⟨⟨name, status⟩, returncode⟩ := all _ m
      exact ⟨shows_get name, shows_get status, shows_get returncode⟩
  · simp at h

/-- Steps that show the same names show the same. -/
lemma showsStep_same {xs ys : List Value} {names : List String}
    (h : List.Forall₂ ShowsStep xs names)
    (h' : List.Forall₂ ShowsStep ys names) :
    List.Forall₂ (Same ["name", "status", "returncode"]) xs ys := by
  induction h generalizing ys with
  | nil =>
    cases h'
    exact .nil
  | cons first rest ih =>
    cases h' with
    | cons first' rest' =>
      refine .cons ?_ (ih rest')
      simp only [Same, List.forall_mem_cons]
      exact ⟨first.name.trans first'.name.symm, first.status.trans first'.status.symm,
        first.returncode.trans first'.returncode.symm, fun _ m => (List.not_mem_nil m).elim⟩

/-- Both summaries of the demonstration are read. -/
lemma tails_read (tail : String) (m : tail ∈ ["password=hunter2", "done"]) :
    passes (safeRead (summaryOnly (passedSummary tail) (str "summary.json")))
      showsPassed = true := by
  revert tail
  decide +kernel

/-- The runs agree on what is kept. -/
lemma tails_agree {tail tail' : String} (m : tail ∈ ["password=hunter2", "done"])
    (m' : tail' ∈ ["password=hunter2", "done"]) :
    Agree (summaryOnly (passedSummary tail)) (summaryOnly (passedSummary tail')) := by
  have missing : ∀ t, ∀ n ∈ contracts, summaryOnly (passedSummary t) (str n ++ str ".json") =
      ⟨false, false, true, false, none⟩ := by
    intro t n m
    have other : str n ++ str ".json" ≠ str "summary.json" := by
      revert n
      decide
    unfold summaryOnly
    split
    · rw [if_neg other]
    · rfl
  refine ⟨fun v w first second => ?_,
    fun n m => by rw [missing _ n m, missing _ n m], fun n m v w first => ?_⟩
  · have left := tails_read tail m
    have right := tails_read tail' m'
    rw [first] at left
    rw [second] at right
    obtain ⟨fields, xs, steps, shown⟩ := showsPassed_inv left
    obtain ⟨fields', ys, steps', shown'⟩ := showsPassed_inv right
    refine ⟨fun f m => (fields f m).trans (fields' f m).symm, fun xs' ys' list list' => ?_⟩
    cases steps.symm.trans list
    cases steps'.symm.trans list'
    exact showsStep_same shown shown'
  · rw [missing _ n m] at first
    cases first

/-- Two runs whose children say different things: their projections differ in the digest and in
nothing else. -/
theorem export_allowlisted_tails : ∃ p q,
    projectAcceptance (summaryOnly (passedSummary "password=hunter2"))
      (.str (str "accept-a123456789ab")) = .ok p ∧
        projectAcceptance (summaryOnly (passedSummary "done"))
        (.str (str "accept-a123456789ab")) = .ok q ∧
      p.status = str "passed" ∧ p.sourceSummarySha256 ≠ q.sourceSummarySha256 ∧
      { p with sourceSummarySha256 := q.sourceSummarySha256 } = q := by
  have runs : ∀ tail ∈ ["password=hunter2", "done"],
    passes (projectAcceptance (summaryOnly (passedSummary tail))
      (.str (str "accept-a123456789ab"))) (fun p =>
        p.status = str "passed") = true := by decide +kernel
  obtain ⟨p, first, passed⟩ := ok_of_test (runs "password=hunter2" (by simp))
  obtain ⟨q, second, _⟩ := ok_of_test (runs "done" (by simp))
  refine ⟨p, q, first, second, of_decide_eq_true passed, ?_, ?_⟩
  · rw [export_allowlisted.digest _ _ _ first, export_allowlisted.digest _ _ _ second]
    decide +kernel
  · exact export_allowlisted.same _ _ _ _ _ _ (tails_agree (by simp) (by simp)) first second

end Sample

end DbLab.Mvp.Evidence
