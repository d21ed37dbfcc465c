import DbLab.Py.Pattern
import DbLab.Py.Builtins

/-!
# The automation policy (`db_lab_policy.py`)

`build_plan` turns the parameters of the Ansible module into argument lists for `all.sh`, or refuses
with an error code. A `PolicyError` is a `ValueError` whose message is the code.
-/

namespace DbLab.Ansible
open DbLab.Py

def targets : List String :=
  ["mvp", "all", "elasticsearch", "elasticsearch9", "kafka", "mariadb", "redis", "k8s"]
def simulations : List String :=
  ["baseline", "kafka-outage", "es-outage", "redis-outage", "db-freeze", "worker-freeze",
    "redis-recreate",
   "redis-switch", "row-lock", "duplicate-retry", "version-race", "db-network-delay",
   "db-network-loss"]
def transactions : List String :=
  ["stock-race", "duplicate-checkout", "checkout-rollback", "commit-ambiguity",
    "idempotency-conflict",
   "refund-race"]
def drills : List String :=
  ["backup-restore", "upgrade-restore", "redis-disk-full", "redis-oom", "deadlock"] ++ transactions
def messages : List String :=
  ["poison-schema", "mapping-reject", "projection-commit-gap", "dlq-commit-gap", "replay-ordering",
   "version-collision"]
def paired : List String :=
  simulations.filter fun s => s ∉ ["baseline", "row-lock", "duplicate-retry", "version-race"]
def suites : List String :=
  ["core", "simulations", "transactions", "messages", "network", "resources", "recovery",
    "all", "candidate"]
def services : List String :=
  ["mariadb", "kafka", "elasticsearch", "redis", "api", "worker", "redis-spare"]
def workloads : List String := ["mixed", "read-heavy", "write-heavy", "hot-key"]
def requestKeys : List String := ["action", "verb", "name", "options"]
def numeric : List (String × Int × Int) :=
  [("seed", 0, 2 ^ 32 - 1), ("seconds", 15, 180), ("workers", 1, 8), ("fault_at", 1, 179),
   ("fault_for", 1, 30), ("recovery_timeout", 5, 300), ("clients", 2, 8),
   ("step_timeout", 120, 1200)]
def simKeys : List String :=
  ["seed", "seconds", "rate", "workers", "fault_at", "fault_for", "recovery_timeout", "workload"]

/-! ### Patterns -/

def digit (c : Nat) : Bool := 48 ≤ c && c ≤ 57
def lower (c : Nat) : Bool := 97 ≤ c && c ≤ 122
/-- `[a-f0-9]` -/
def hex (c : Nat) : Bool := digit c || 97 ≤ c && c ≤ 102

open Pattern in
/-- `IMAGE_RE` -/
def imageRe : Pattern :=
  seq (opt (seq (opt (lit "docker.io/")) (lit "library/"))) <| seq (lit "mariadb:") <|
    seq (seq (some digit) (seq (lit ".") (seq (some digit) (opt (seq (lit ".") (some digit)))))) <|
      seq (opt (seq (lit "-") (some fun c => lower c || digit c || c == 46 || c == 45)))
        (opt (seq (lit "@sha256:") (times hex 64)))

inductive RunKind where
  | accept | msg | sim

open Pattern in
/-- `RUN_IDS` -/
def RunKind.re : RunKind → Pattern
  | accept => seq (lit "accept-") (times hex 12)
  | msg => seq (lit "msg-") (times hex 24)
  | sim => seq (lit "sim-") (times hex 12)

open Pattern in
/-- `[a-z0-9]([-a-z0-9]*[a-z0-9])?` -/
def nameRe : Pattern :=
  let alnum := fun c => lower c || digit c
  seq (one alnum) (opt (seq (many fun c => c == 45 || alnum c) (one alnum)))

/-! ### Checks -/

def require (condition : Bool) (code : String) : Except Exn Unit :=
  if condition then .ok () else .error (.valueError code)

variable [Interpreter]

def text (value : Value) (limit : Nat) : Bool :=
  match value with
  | .str s => 0 < s.length && s.length ≤ limit && !s.any fun c => c < 32 || c == 127
  | _ => false

def absolute (value : Value) : Except Exn Str := do
  match value with
  | .str s =>
    require (text value 2048 && startsWith "/" s && !startsWith "//" s)
      "absolute_posix_path_required"
    require (!(segments s).contains (str "..") && s ≠ str "/") "unsafe_path"
    return s
  | _ => .error (.valueError "absolute_posix_path_required")

def runId (value : Value) (kind : RunKind) : Except Exn Str := do
  match value with
  | .str s =>
    require (kind.re.fullmatch s) "invalid_run_id"
    return s
  | _ => .error (.valueError "invalid_run_id")

/-- `.2`, the double next to one fifth. -/
def fifth : Rat := 3602879701896397 / 18014398509481984

/-- `type(v) in (int, float) and math.isfinite(v) and .2 <= v <= 10` -/
def rateInRange (v : Value) : Except Exn Bool := do
  if v.isNumber then
    if ← v.isfinite then return v.within (.finite fifth) (.finite 10) else return false
  else return false

/-- `"--" + key.replace("_", "-")` -/
def flagOf (key : Str) : Str := str "--" ++ key.map fun c => if c = 95 then 45 else c

/-- The arguments one option gives. -/
def encodeOption (key : Str) (val : Value) : Except Exn (List Str) := do
  match numeric.find? fun e => key = str e.1 with
  | some (name, lo, hi) =>
    require (val.isInt && val.within (.finite lo) (.finite hi)) ("option_out_of_range_" ++ name)
    return [flagOf key, ← val.text]
  | none =>
    if key = str "rate" then
      require (← rateInRange val) "option_out_of_range_rate"
      return [flagOf key, ← val.text]
    else if key = str "workload" then
      require (val.oneOf workloads) "invalid_workload"
      return [flagOf key, ← val.text]
    else if key = str "keep" then
      match val with
      | .bool b => return if b then [str "--keep"] else []
      | _ => .error (.valueError "keep_requires_boolean")
    else if key = str "candidate_image" then
      match val with
      | .str s =>
        require (imageRe.fullmatch s) "explicit_mariadb_image_required"
        return [flagOf key, s]
      | _ => .error (.valueError "explicit_mariadb_image_required")
    else if key = str "snapshot" then
      return [flagOf key, ← absolute val]
    else .error (.valueError "unsupported_options")

def encodeOptions (options : Fields) (allowed : List String) : Except Exn (List Str) := do
  require (options.all fun e => named allowed e.1) "unsupported_options"
  let args ← options.sorted.mapM fun key => do encodeOption key (← options.at key)
  return args.flatten

def boundedPlan (name : Str) (options : Fields) : Except Exn Unit := do
  let seconds := options.getD "seconds" (.int 40)
  let workers := options.getD "workers" (.int 4)
  let rate := options.getD "rate" (.int 2)
  require (← (← seconds.mul rate).le (.int 400)) "workflow_budget_exceeded"
  let faultAt := options.getD "fault_at" (.int 8)
  let faultFor := options.getD "fault_for" (.int 10)
  require (← faultAt.lt seconds) "fault_at_outside_run"
  let observed ← (← (← faultAt.add faultFor).add (.int 5)).le seconds
  require (named ["baseline", "duplicate-retry", "version-race"] name || observed)
    "post_fault_observation_required"
  require (name ≠ str "version-race" || (← (Value.int 2).le workers))
    "version_race_requires_two_workers"

/-! ### Kubernetes and benchmarks -/

structure KubePlan where
  env : List (String × Str)
  args : List Str
  name : Str

/-- One of `namespace` and `release`. -/
def kubeName (value : Value) (limit : Nat) : Except Exn Str := do
  match value with
  | .str s =>
    require (s.length ≤ limit && nameRe.fullmatch s) "invalid_k8s_name"
    return s
  | _ => .error (.valueError "invalid_k8s_name")

/-- `ctx` and `",".join(allowed_ctx)` -/
def kubeContext (config : Fields) : Except Exn (Str × Str) := do
  match config.getD "context" .null with
  | .str ctx =>
    require (text (.str ctx) 200 && !startsWith "-" ctx) "explicit_k8s_context_required"
    match config.getD "allowed_contexts" .null with
    | .list cs =>
      let names ← cs.mapM fun
        | .str c => do
          require (text (.str c) 200 && !c.contains 44) "k8s_context_not_allowed"
          return c
        | _ => .error (.valueError "k8s_context_not_allowed")
      require (0 < cs.length && cs.length ≤ 20 && names.contains ctx) "k8s_context_not_allowed"
      return (ctx, List.intercalate [44] names)
    | _ => .error (.valueError "k8s_context_not_allowed")
  | _ => .error (.valueError "explicit_k8s_context_required")

def kubeconfigEnv (config : Fields) : Except Exn (List (String × Str)) := do
  let path := config.getD "kubeconfig" .null
  if path.truthy then return [("DB_LAB_KUBECONFIG", ← absolute path)] else return []

/-- `args += ["-f", absolute(path)]` -/
def valuesFile (path : Value) : Except Exn (List Str) := do return [str "-f", ← absolute path]

def kubePlan (action : Str) (config : Value) : Except Exn KubePlan := do
  match config with
  | .dict config =>
    require (config.all fun e =>
      named ["context", "allowed_contexts", "namespace", "release", "kubeconfig",
        "values_files"] e.1)
      "unsupported_k8s_option"
    let (ctx, contexts) ← kubeContext config
    let «namespace» ← kubeName (Fields.getD config "namespace" .null) 63
    let release ← kubeName (Fields.getD config "release" (.str (str "db-lab"))) 53
    require (!named ["default", "kube-system", "kube-public", "kube-node-lease"] «namespace»)
      "protected_namespace"
    let kubeconfig ← kubeconfigEnv config
    match Fields.getD config "values_files" (.list []) with
    | .list values =>
      require (values.length ≤ 8) "invalid_values_files"
      require (values.isEmpty || named ["up", "preflight", "lint", "template"] action)
        "values_not_used_by_action"
      let args ← values.mapM valuesFile
      return { env := [("DB_LAB_CONTEXT", ctx), ("DB_LAB_ALLOWED_CONTEXTS", contexts),
                       ("DB_LAB_NAMESPACE", «namespace»),
                       ("DB_LAB_RELEASE", release)] ++ kubeconfig,
               args := args.flatten, name := «namespace» ++ str "/" ++ release }
    | _ => .error (.valueError "invalid_values_files")
  | _ => .error (.valueError "k8s_configuration_required")

def databases : List (String × String × List String) :=
  [("elasticsearch", "es7", ["rate", "batch"]), ("elasticsearch9", "es9", ["rate", "batch"]),
   ("kafka", "kafka", ["rate", "payload"]), ("mariadb", "mariadb", ["workers"]),
   ("redis", "redis", ["rate", "workers", "keys", "payload"])]

def ranges : List (String × Int × Int) :=
  [("seconds", 5, 600), ("rate", 1, 10000), ("workers", 1, 64), ("batch", 1, 1000),
    ("keys", 1, 50000),
   ("payload", 32, 8192)]

def benchmarkOption (key : Str) (value : Value) : Except Exn (List Str) := do
  match ranges.find? fun e => key = str e.1 with
  | some (name, low, high) =>
    require (value.isInt && value.within (.finite low) (.finite high))
      ("benchmark_option_out_of_range_" ++ name)
    return [str "--" ++ key, ← value.text]
  | none => .error .keyError

def benchmarkPlan (target : Str) (options : Fields) (base : List Str) :
    Except Exn (List (List Str)) := do
  match databases.find? fun e => target = str e.1 with
  | some (_, database, accepted) =>
    require (options.all fun e => named (accepted ++ ["seconds"]) e.1)
      "unsupported_benchmark_option"
    let args ← options.sorted.mapM fun key => do benchmarkOption key (← options.at key)
    return [base ++ ([str "benchmark", str database] ++ args.flatten)]
  | none => .error (.valueError "benchmark_requires_one_supported_database")

/-! ### `build_plan` -/

inductive Category where
  | observe | change | fault | destroy
deriving DecidableEq

/-- What the checks of `params["request"]` leave. -/
structure Request where
  action : Str
  verb : Option Str
  name : Option Str
  opts : Fields

/-- `value is None or text(value, limit)` -/
def optionalText (value : Value) (limit : Nat) : Except Exn (Option Str) := do
  match value with
  | .null => return none
  | .str s =>
    require (text value limit) "invalid_command_tokens"
    return some s
  | _ => .error (.valueError "invalid_command_tokens")

def request (params : Fields) : Except Exn Request := do
  match params.getD "request" (.ofFields [("action", .str (str "status"))]) with
  | .dict req =>
    require (req.all fun e => named requestKeys e.1) "invalid_request"
    match Fields.getD req "action" (.str (str "status")) with
    | .str action =>
      require (text (.str action) 40) "invalid_command_tokens"
      let verb ← optionalText (Fields.getD req "verb" .null) 40
      let name ← optionalText (Fields.getD req "name" .null) 512
      match Fields.getD req "options" (.dict []) with
      | .dict opts => return { action, verb, name, opts }
      | _ => .error (.valueError "options_must_be_mapping")
    | _ => .error (.valueError "invalid_command_tokens")
  | _ => .error (.valueError "invalid_request")

/-- The local variables that the branches of `build_plan` assign. -/
structure Draft where
  args : List Str
  commands : List (List Str)
  category : Category
  phrase : Option Str
  env : List (String × Str)
  name : Option Str
  opts : Fields
  allowed : List String

def Draft.of (args : List Str) (category : Category) (req : Request) : Draft :=
  { args, commands := [], category, phrase := none, env := [], name := req.name, opts := req.opts,
    allowed := [] }

/-- `args.append(word)` under a condition. -/
def whenever (c : Bool) (word : String) : List Str := if c then [str word] else []

def labDraft (base : List Str) (target : Str) (req : Request) : Except Exn Draft := do
  require (req.verb.isNone && req.name.isNone) "unused_verb_or_name"
  require (named ["help", "list", "init", "doctor", "preflight", "health", "status", "up",
    "down", "restart", "test", "reset", "benchmark"] req.action) "unsupported_lab_action"
  if req.action = str "benchmark" then
    let commands ← benchmarkPlan target req.opts base
    return { Draft.of [] .change req with commands }
  else
    let args :=
      (if named ["help", "list"] req.action then [req.action] else [req.action, target]) ++
        whenever (named ["health", "preflight"] req.action) "--json" ++
      whenever (req.action = str "reset") "--yes"
    let category :=
      if req.action = str "reset" then .destroy
      else if named ["init", "up", "down", "restart"] req.action then .change else .observe
    return { Draft.of args category req with
      commands := [base ++ args]
      phrase := if req.action = str "reset" then some (str "DELETE:" ++ target) else none }

def kubeDraft (base : List Str) (params : Fields) (req : Request) : Except Exn Draft := do
  require (req.verb.isNone && req.name.isNone) "unused_verb_or_name"
  require (named ["init", "preflight", "lint", "template", "up", "status", "history",
    "values", "down"]
    req.action) "unsupported_k8s_action"
  let kube ← kubePlan req.action (params.getD "k8s" (.dict []))
  let args := [str "k8s", req.action] ++ kube.args ++ whenever (req.action = str "down") "--yes"
  let category :=
    if req.action = str "down" then .destroy
    else if named ["init", "up"] req.action then .change else .observe
  return { Draft.of args category req with
    commands := [base ++ args]
    phrase := if req.action = str "down" then some (str "UNINSTALL:" ++ kube.name) else none
    env := kube.env }

def plainActions : List String :=
  ["init", "up", "down", "status", "doctor", "diagnose", "smoke", "test", "inspect-runtime", "help",
   "bind-target", "rebuild-search", "restart"]

/-- The plain actions of category `change`. -/
def plainChanges : List String :=
  ["init", "up", "down", "smoke", "restart", "rebuild-search", "bind-target"]

def plainDraft (base : List Str) (req : Request) : Except Exn Draft := do
  require (req.verb.isNone && req.name.isNone) "unused_verb_or_name"
  let category := if named plainChanges req.action then .change else .observe
  let args :=
    [str "mvp", req.action] ++ whenever (named ["bind-target", "rebuild-search"] req.action) "--yes"
  return { Draft.of args category req with
    phrase := if req.action = str "bind-target" then some (str "BIND:mvp") else none
    commands := if req.action = str "restart" then
        [base ++ [str "mvp", str "down"], base ++ [str "mvp", str "up"]]
      else [] }

def serviceActions : List String := ["stop", "resume", "recreate", "logs", "experiment", "sql"]

def serviceChoices (action : Str) : List String :=
  if action = str "experiment" then ["normal", "redis-spare", "bad-db-password", "fresh-search"]
  else if action = str "sql" then ["orders", "outbox", "counts", "ping"]
  else services

def serviceDraft (req : Request) : Except Exn Draft := do
  require req.verb.isNone "unused_verb"
  require (req.name.any (named (serviceChoices req.action)) || req.action = str "logs" &&
    req.name.isNone)
    "invalid_service_mode_or_query"
  let changing := named ["stop", "recreate", "experiment"] req.action
  let args := [str "mvp", req.action] ++ req.name.toList ++ whenever changing "--yes"
  let category :=
    if changing then
      if req.action = str "experiment" ∧ req.name = some (str "normal") then .change else .fault
    else if req.action = str "resume" then .change else .observe
  return .of args category req

def drillActions : List String := ["simulate", "drills", "messages", "verify", "study"]

def drillChoices (action : Str) : List String :=
  if action = str "simulate" then simulations
  else if action = str "drills" then drills
  else if action = str "messages" then messages
  else if action = str "verify" then suites
  else paired

def drillVerbs (action : Str) : List String :=
  ["list", "plan", "run"] ++
    (if named ["simulate", "drills", "messages"] action then ["recover"] else []) ++
    (if action = str "drills" then ["prepare"] else []) ++
    (if action = str "messages" then ["inspect", "cleanup"] else []) ++
    (if action = str "verify" then ["report", "export"] else []) ++
    (if action = str "study" then ["compare"] else [])

/-- `allowed_options` of `plan` and `run`. -/
def allowedOptions (action verb name : Str) : List String :=
  let run := verb = str "run"
  if action = str "simulate" then simKeys
  else if action = str "study" then simKeys ++ if run then ["step_timeout"] else []
  else if action = str "drills" then
    if named transactions name then ["clients", "seed"]
    else if name = str "backup-restore" ∧ run then ["snapshot"]
    else if name = str "upgrade-restore" ∧ run then ["snapshot", "candidate_image"]
    else []
  else if action = str "messages" then if run then ["keep"] else []
  else
    (if run then ["step_timeout"] else []) ++ if name =
      str "candidate" then ["candidate_image"] else []

/-- The plans that cannot do without `candidate_image`. -/
def needsImage (action verb name : Str) : Bool :=
  action = str "drills" && name = str "upgrade-restore" && verb = str "run" ||
    action = str "verify" && name = str "candidate"

/-- `list`, `recover` and `prepare`. -/
def bareDraft (verb : Str) (req : Request) : Except Exn Draft := do
  require req.name.isNone "unused_name"
  let changing : Bool := verb ≠ str "list"
  return .of ([str "mvp", req.action, verb] ++ whenever changing "--yes")
    (if changing then .change else .observe) req

/-- `report`, `export`, `inspect` and `cleanup`. -/
def runDraft (verb : Str) (req : Request) : Except Exn Draft := do
  let id ← runId (req.name.elim .null .str) (if req.action = str "verify" then .accept else .msg)
  let cleanup : Bool := verb = str "cleanup"
  return .of ([str "mvp", req.action, verb, id] ++ whenever cleanup "--yes")
    (if cleanup then .change else .observe) req

def compareDraft (verb : Str) (req : Request) : Except Exn Draft := do
  require (req.name.isNone && (req.opts.all fun e => named ["baseline_id", "fault_id"] e.1) &&
    (lookup (str "baseline_id") req.opts).isSome && (lookup (str "fault_id") req.opts).isSome)
    "compare_requires_two_run_ids"
  let baseline ← runId (req.opts.getD "baseline_id" .null) .sim
  let fault ← runId (req.opts.getD "fault_id" .null) .sim
  require (baseline ≠ fault) "compare_requires_distinct_runs"
  return { Draft.of [str "mvp", req.action, verb, baseline, fault] .observe req with opts := [] }

/-- `plan` and `run`. -/
def scenarioDraft (verb : Str) (req : Request) : Except Exn Draft := do
  match if req.action = str "verify" then some (req.name.getD (str "core")) else req.name with
  | none => .error (.valueError "unknown_scenario_or_suite")
  | some name =>
    require (named (drillChoices req.action) name) "unknown_scenario_or_suite"
    require (!needsImage req.action verb name || (lookup (str "candidate_image") req.opts).isSome)
      "candidate_image_required"
    let run : Bool := verb = str "run"
    let harmless : Bool :=
      req.action = str "simulate" && named ["baseline", "duplicate-retry", "version-race"] name ||
        req.action = str "verify" && name = str "core"
    let category := if run then if harmless then .change else .fault else .observe
    return { Draft.of ([str "mvp", req.action, verb, name] ++ whenever run "--yes")
      category req with
      name := some name
      allowed := allowedOptions req.action verb name }

def drillDraft (req : Request) : Except Exn Draft :=
  match req.verb with
  | none => .error (.valueError "unsupported_subcommand")
  | some verb =>
    if !named (drillVerbs req.action) verb then .error (.valueError "unsupported_subcommand")
    else if named ["list", "recover", "prepare"] verb then bareDraft verb req
    else if named ["report", "export", "inspect", "cleanup"] verb then runDraft verb req
    else if verb = str "compare" then compareDraft verb req
    else scenarioDraft verb req

/-- `action in ("simulate", "study") and verb in ("plan", "run")` -/
def bounded (req : Request) : Bool :=
  named ["simulate", "study"] req.action && req.verb.any (named ["plan", "run"])

def boundedCheck (req : Request) (draft : Draft) : Except Exn Unit :=
  if bounded req then boundedPlan (draft.name.getD []) draft.opts else .ok ()

def mvpBranch (base : List Str) (req : Request) : Except Exn Draft :=
  if named plainActions req.action then plainDraft base req
  else if named serviceActions req.action then serviceDraft req
  else if named drillActions req.action then drillDraft req
  else .error (.valueError "unsupported_mvp_action")

def mvpDraft (base : List Str) (req : Request) : Except Exn Draft := do
  let draft ← mvpBranch base req
  let options ← encodeOptions draft.opts draft.allowed
  boundedCheck req draft
  return { draft with
    commands :=
      if draft.commands.isEmpty then [base ++ (draft.args ++ options)] else draft.commands }

structure Plan where
  target : Str
  action : Str
  verb : Option Str
  name : Option Str
  commands : List (List Str)
  environment : List (String × Str)
  category : Category
  requiredConsent : List String
  requiredConfirmation : Option Str
  projectRoot : Str
  checkMode : Bool

def Category.consent : Category → List String
  | observe => []
  | change => ["allow_changes"]
  | fault => ["allow_changes", "allow_faults"]
  | destroy => ["allow_changes", "allow_destroy"]

/-- `params.get(flag, False)` is a boolean. -/
def consentFlag (params : Fields) (flag : String) : Except Exn Unit :=
  match params.getD flag (.bool false) with
  | .bool _ => .ok ()
  | _ => .error (.valueError "consent_must_be_boolean")

/-- `params.get(flag) is True` -/
def granted (params : Fields) (flag : String) : Bool :=
  match params.getD flag .null with
  | .bool true => true
  | _ => false

def confirmation (params : Fields) : Except Exn Str :=
  match params.getD "confirmation" (.str []) with
  | .str s => .ok s
  | _ => .error (.valueError "confirmation_must_be_string")

/-- The consent that is asked for outside check mode. -/
def consented (params : Fields) (confirmed : Str) (draft : Draft) : Except Exn Unit := do
  draft.category.consent.forM fun flag =>
    require (granted params flag) ("explicit_" ++ flag ++ "_required")
  match draft.phrase with
  | some phrase => require (confirmed = phrase) "explicit_confirmation_required"
  | none => return ()

def consentCheck (checkMode : Bool) (params : Fields) (confirmed : Str) (draft : Draft) :
    Except Exn Unit :=
  if checkMode then .ok () else consented params confirmed draft

/-- `prefix` -/
def base (root : Str) : List Str :=
  [str "bash", pathText (segments root ++ [str "all.sh"]), str "--fail-fast"]

def draftOf (root target : Str) (params : Fields) (req : Request) : Except Exn Draft :=
  if target = str "mvp" then mvpDraft (base root) req
  else if target = str "k8s" then kubeDraft (base root) params req
  else labDraft (base root) target req

def buildPlan (params : Fields) (checkMode : Bool) : Except Exn Plan := do
  let root ← absolute (params.getD "project_root" .null)
  match params.getD "target" (.str (str "mvp")) with
  | .str target =>
    require (named targets target) "unknown_target"
    let req ← request params
    ["allow_changes", "allow_faults", "allow_destroy"].forM (consentFlag params)
    let confirmed ← confirmation params
    let draft ← draftOf root target params req
    require (target = str "mvp" || req.action = str "benchmark" || draft.opts.isEmpty)
      "unused_options"
    require (target = str "k8s" || !(params.getD "k8s" .null).truthy)
      "k8s_options_for_non_k8s_target"
    consentCheck checkMode params confirmed draft
    return { target, action := req.action, verb := req.verb, name := draft.name,
             commands := draft.commands, environment := draft.env, category := draft.category,
             requiredConsent := draft.category.consent, requiredConfirmation := draft.phrase,
             projectRoot := root, checkMode }
  | _ => .error (.valueError "unknown_target")

end DbLab.Ansible
