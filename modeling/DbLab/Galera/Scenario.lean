import DbLab.Proc.Program
import DbLab.Py.Text

/-!
# What an interrupted scenario leaves behind (`scenarios.Runner.recover_pending`)

A scenario writes down what it is about to disturb before it does. The repair goes through the nodes
and the settings of that journal, and removes it when everything is as before.
-/

namespace DbLab.Galera.Scenario
open DbLab.Py DbLab.Proc Relation

/-- `lab.state(node)` -/
inductive Container where
  | running
  | paused
  | stopped
  | absent
deriving DecidableEq

/-- The fields of `health.py --json` that are read. -/
structure Probe where
  ready : Bool
  clusterSize : Option Str
  stateUuid : Option Str
  mode : Option Str

/-- `{'ready': False}` -/
def Probe.notReady : Probe := ⟨false, none, none, none⟩

/-- What `lab.health` gives. -/
structure Health extends Probe where
  node : Str
  container : Container

structure Worker where
  node : Str
  token : Str
  action : Str

/-- `scenario-pending.json`. The settings that a node had are of type `σ`. -/
structure Journal (σ : Type) where
  version : Int
  project : Str
  engine : Str
  token : Str
  nodes : List Str
  logging : List (Str × σ)
  activeWorker : Option Worker

/-- The settings of `Lab`, as `load_env` accepts them. -/
structure Lab where
  project : Str
  engine : Str
  nodeCount : Nat
  supported : 3 ≤ nodeCount ∧ nodeCount ≤ 5
  waitSeconds : Nat
  patient : 10 ≤ waitSeconds

/-- `NODES` -/
def Lab.nodes (lab : Lab) : List Str :=
  (List.range lab.nodeCount).map fun i => str "galera" ++ digitChars (i + 1)

/-- `errors` is `ScenarioError('\n'.join(str(e) for e in …))`. -/
inductive Raised where
  | scenario (text : Str)
  | lab (text : Str)
  | py (e : Exn)
  | errors (all : List Raised)

/-- What the code asks of the engine, of Compose, of a worker, and of its files. -/
inductive Call (σ : Type) where
  | journal
  | save (j : Journal σ)
  | unlink
  | inspect (node : Str)
  | unpause (node : Str)
  | up (node : Str)
  | probe (node : Str)
  | worker (node action token : Str) (state : Option σ)
  | logs (node : Str)
  | monotonic
  | sleep (seconds : Nat)

/-- A probe that gives nothing has failed, was no JSON, or timed out. -/
abbrev Call.Result {σ : Type} : Call σ → Type
  | .journal => Option (Journal σ)
  | .inspect _ => Container
  | .probe _ => Option Probe
  | .monotonic => Int
  | _ => Unit

variable {σ : Type}

def calls (σ : Type) : Interface := ⟨Call σ, Call.Result⟩

abbrev Program (σ α : Type) := Prog (calls σ) Raised α

def ask (x : Call σ) : Program σ x.Result := Prog.ask (I := calls σ) x

/-! ### `lab.py` -/

/-- `Lab.health` -/
def health (node : Str) : Program σ Health := do
  let status ← ask (.inspect node)
  if status ≠ .running then pure ⟨.notReady, node, status⟩
  else
    let data ← ask (.probe node)
    pure ⟨data.getD .notReady, node, status⟩

/-- `Lab.healthy_node` over `nodes` -/
def healthyNode : List Str → Program σ Str
  | [] =>
    throw (.lab (str "No Synced Primary node is ready. Check status/logs; do not force bootstrap."))
  | node :: nodes => do
    if (← health node).ready then pure node else healthyNode nodes

section
variable [Unicode]

/-- `size is None or int(data.get('wsrep_cluster_size', 0)) == size` -/
def Health.sized (data : Health) : Option Int → Except Exn Bool
  | none => .ok true
  | some size => do
    let n ← match data.clusterSize with
      | some text => intOfStr text
      | none => pure 0
    pure (n = size)

/-- `data.get('ready') and …` -/
def Health.joined (data : Health) (size : Option Int) : Except Exn Bool :=
  if data.ready then data.sized size else .ok false

/-- The loop of `Lab.wait`. A pass that goes on sleeps two seconds, so that the passes come to an
end with the deadline. -/
def waiting (node : Str) (size : Option Int) (deadline : Int) : Nat → Program σ Unit
  | 0 => throw (.lab (str "Timeout waiting for " ++ node ++ str ". Run ./lab.sh logs " ++ node ++
      str ". No forced recovery was attempted."))
  | passes + 1 => do
    if (← ask .monotonic) < deadline then
      let data ← health node
      match data.joined size with
      | .error e => throw (.py e)
      | .ok true => pure ()
      | .ok false =>
        if data.container = .absent ∨ data.container = .stopped then
          ask (.logs node)
          throw (.lab (node ++ str " stopped during startup. Read the logs above."))
        else
          ask (.sleep 2)
          waiting node size deadline passes
    else
      throw (.lab (str "Timeout waiting for " ++ node ++ str ". Run ./lab.sh logs " ++ node ++
        str ". No forced recovery was attempted."))

/-- `Lab.wait` -/
def Lab.wait (lab : Lab) (node : Str) (size : Option Int) : Program σ Unit := do
  let start ← ask .monotonic
  waiting node size (start + lab.waitSeconds) (lab.waitSeconds + 1)

end

/-! ### `scenarios.py` -/

/-- The texts of `check_health`. -/
def missingText (count : Nat) : Str := digitChars count ++ str "개 노드 모두의 상태가 필요합니다"

def unhealthyText (node : Str) (count : Nat) : Str :=
  node ++ str "가 Primary/Synced/size=" ++ digitChars count ++ str "가 아닙니다. ./lab.sh status로 확인하세요"

def uuidText (count : Nat) : Str := digitChars count ++ str "개 노드의 클러스터 UUID가 같지 않습니다"

/-- The test of one entry in `check_health`. -/
def Health.unfit (s : Health) (count : Nat) (node : Str) : Bool :=
  !s.ready || s.clusterSize ≠ some (digitChars count) || s.node ≠ node

/-- `check_health(status)`, with `NODES` -/
def checkHealth (nodes : List Str) (status : List (Str × Health)) : Except Raised Unit :=
  if ¬ ((∀ e ∈ status, e.1 ∈ nodes) ∧ ∀ n ∈ nodes, n ∈ status.map Prod.fst) then
    .error (.scenario (missingText nodes.length))
  else
    match status.find? fun e => e.2.unfit nodes.length e.1 with
    | some e => .error (.scenario (unhealthyText e.1 nodes.length))
    | none =>
      let ids := (status.map fun e => e.2.stateUuid).dedup
      if ids.length ≠ 1 ∨ none ∈ ids ∨
        some [] ∈ ids then .error (.scenario (uuidText nodes.length)) else .ok ()

/-- `{n:self.lab.health(n) for n in NODES}` -/
def healths : List Str → Program σ (List (Str × Health))
  | [] => pure []
  | node :: nodes => do
    let data ← health node
    let rest ← healths nodes
    pure ((node, data) :: rest)

/-- `preflight` -/
def Lab.preflight (lab : Lab) : Program σ Unit := do
  let status ← healths lab.nodes
  match checkHealth lab.nodes status with
  | .error e => throw e
  | .ok () =>
    match status.find? fun e => e.2.mode ≠ some (str "galera") with
    | some e => throw (.scenario (str "Expected this lab Galera image: " ++ e.1))
    | none => pure ()

/-- `try: … except Exception as exc: errors.append(str(exc))`: what is appended. -/
def collecting (p : Program σ Unit) : Program σ (List Raised) :=
  tryCatch (do p; pure []) fun e => pure [e]

/-- The errors of a loop over `nodes`. -/
def gather (body : Str → Program σ (List Raised)) : List Str → Program σ (List Raised)
  | [] => pure []
  | node :: nodes => do
    let errors ← body node
    let rest ← gather body nodes
    pure (errors ++ rest)

/-- The first loop: an affected node that is paused goes on. -/
def Lab.unpauses (lab : Lab) (node : Str) : Program σ (List Raised) :=
  if node ∉ lab.nodes then throw (.scenario (str "Unknown node in recovery journal"))
  else
    collecting do
      if (← ask (.inspect node)) = .paused then ask (.unpause node) else pure ()

/-- The second loop: an affected node that has stopped is started next to one that is ready. -/
def Lab.restarts (lab : Lab) (node : Str) : Program σ (List Raised) :=
  collecting do
    match ← ask (.inspect node) with
    | .stopped => do
      let _ ← healthyNode lab.nodes
      ask (.up node)
    | .absent => throw (.scenario (str "Container removed externally: " ++ node))
    | .running | .paused => pure ()

/-- A request to a worker and, once it is done, the journal without it. -/
def settle (node action token : Str) (state : Option σ) (j j' : Journal σ) :
    Program σ (List Raised × Journal σ) :=
  tryCatch
    (do
      ask (.worker node action token state)
      let errors ← collecting (ask (.save j'))
      pure (errors, j'))
    fun e => pure ([e], j)

/-- The worker that was active is cancelled. -/
def cancel (j : Journal σ) : Program σ (List Raised × Journal σ) :=
  match j.activeWorker with
  | none => pure ([], j)
  | some active =>
    settle active.node (str "cancel") active.token none j { j with activeWorker := none }

/-- The third loop: the nodes of `logging` get their settings back. -/
def restoreLogging : List (Str × σ) → Journal σ → Program σ (List Raised × Journal σ)
  | [], j => pure ([], j)
  | (node, saved) :: rest, j => do
    let (errors, j) ← settle node (str "restore-logging") j.token (some saved) j
      { j with logging := j.logging.filter fun e => e.1 ≠ node }
    let (errors', j) ← restoreLogging rest j
    pure (errors ++ errors', j)

section
variable [Unicode]

/-- All nodes are waited for, and looked at. -/
def Lab.rejoin (lab : Lab) (j : Journal σ) : Program σ (List Raised) :=
  if j.nodes = [] then pure []
  else
    collecting do
      lab.nodes.forM fun node => lab.wait node (some 3)
      lab.preflight
      ask (.save { j with nodes := [] })

/-- `recover_pending` once the journal is read -/
def Lab.recover (lab : Lab) (j : Journal σ) : Program σ Unit := do
  let unpaused ← gather lab.unpauses j.nodes
  let restarted ← gather lab.restarts j.nodes
  let (cancelled, j) ← cancel j
  let (restored, j) ← restoreLogging (if j.activeWorker.isSome then [] else j.logging) j
  let rejoined ← lab.rejoin j
  let errors := unpaused ++ restarted ++ cancelled ++ restored ++ rejoined
  if errors ≠ [] then throw (.errors errors) else ask .unlink

/-- `recover_pending` -/
def Lab.recoverPending (lab : Lab) : Program σ Unit := do
  match ← ask .journal with
  | none => pure ()
  | some j =>
    if j.version ≠ 1 ∨ j.project ≠ lab.project ∨ j.engine ≠ lab.engine then
      throw (.scenario (str "복구 기록의 프로젝트/런타임이 다릅니다. 원래 .env를 사용하세요"))
    else lab.recover j

end

/-! ### Surroundings in which every command succeeds -/

/-- The containers of the lab, the journal on disk, and the time. -/
structure State (σ : Type) where
  containers : Str → Container
  file : Option (Journal σ)
  clock : Int

/-- All nodes of the lab run. -/
def Lab.Up (lab : Lab) (s : State σ) : Prop := ∀ node ∈ lab.nodes, s.containers node = .running

/-- A node is ready in a Primary cluster of the configured size. -/
structure Lab.Joined (lab : Lab) (uuid : Str) (p : Probe) : Prop where
  ready : p.ready = true
  size : p.clusterSize = some (digitChars lab.nodeCount)
  uuid : p.stateUuid = some uuid
  mode : p.mode = some (str "galera")

def State.start (s : State σ) (node : Str) (clock : Int) : State σ :=
  { s with containers := Function.update s.containers node .running, clock := clock }

/-- Every command does what it is for and takes its time. Once all nodes run, each of them reports
that it has joined; before, a probe may say anything. -/
inductive Does (lab : Lab) (uuid : Str) :
    (x : Call σ) → State σ → Except Raised x.Result → State σ → Prop where
  | journal (s) : Does lab uuid .journal s (.ok s.file) s
  | save (j s) : Does lab uuid (.save j) s (.ok ()) { s with file := some j }
  | unlink (s) : Does lab uuid .unlink s (.ok ()) { s with file := none }
  | inspect {s clock} (node) (later : s.clock ≤ clock) :
    Does lab uuid (.inspect node) s (.ok (s.containers node)) { s with clock := clock }
  | unpause {s clock} (node) (later : s.clock ≤ clock) : Does lab uuid (.unpause node) s (.ok ())
      (s.start node clock)
  | up {s clock} (node) (later : s.clock ≤ clock) : Does lab uuid (.up node) s (.ok ())
      (s.start node clock)
  | probe {s clock p} (node) (later : s.clock ≤ clock)
    (joined : lab.Up s → node ∈ lab.nodes → ∃ q, p = some q ∧ lab.Joined uuid q) :
    Does lab uuid (.probe node) s (.ok p) { s with clock := clock }
  | worker {s clock} (node action token state) (later : s.clock ≤ clock) :
    Does lab uuid (.worker node action token state) s (.ok ()) { s with clock := clock }
  | logs {s clock} (node) (later : s.clock ≤ clock) : Does lab uuid (.logs node) s (.ok ())
      { s with clock := clock }
  | monotonic (s) : Does lab uuid .monotonic s (.ok s.clock) s
  | sleep {s} {clock : Int} (seconds : Nat) (later : s.clock + seconds ≤ clock) :
    Does lab uuid (.sleep seconds) s (.ok ()) { s with clock := clock }

def surroundings (lab : Lab) (uuid : Str) : World (calls σ) Raised where
  State := State σ
  does := Does lab uuid
  drifts _ _ := False
  killed _ _ := False

section
variable {lab : Lab} {uuid : Str} {s s' : State σ} {α : Type} {Q : α → State σ → Prop} {E : Raised →
  State σ → Prop}

abbrev wp (lab : Lab) (uuid : Str) (Q : α → State σ → Prop) (E : Raised → State σ → Prop)
    (p : Program σ α)
    (s : State σ) : Prop := (surroundings lab uuid).wp (fun _ => True) Q E p s

/-- What one call to the surroundings keeps. -/
lemma ask_wp {x : Call σ} {Q : x.Result → State σ → Prop}
    (h : ∀ r s', Does lab uuid x s r s' → match r with | .ok a => Q a s' | .error e => E e s') :
    wp lab uuid Q E (ask x) s := by
  refine World.wp_ask fun s₁ drift r s' does => ⟨trivial, ?_⟩
  have same : s₁ = s := by
    induction drift with
    | refl => rfl
    | tail _ last => exact last.elim
  have answered := h r s' (same ▸ does)
  cases r with
  | ok a => exact answered
  | error e => exact answered

/-! ### Looking at the nodes -/

/-- Only time has passed. -/
structure State.Same (s s' : State σ) : Prop where
  containers : s'.containers = s.containers
  file : s'.file = s.file

/-- Nothing has changed. -/
lemma State.Same.refl (s : State σ) : s.Same s := ⟨rfl, rfl⟩

/-- Nothing has changed, twice. -/
lemma State.Same.trans {s s' s'' : State σ} (h : s.Same s') (h' : s'.Same s'') : s.Same s'' :=
  ⟨h'.containers.trans h.containers, h'.file.trans h.file⟩

/-- Where nothing has changed, the same surroundings succeed. -/
lemma State.Same.up (h : s.Same s') : lab.Up s' ↔ lab.Up s := by rw [Lab.Up, Lab.Up, h.containers]

/-- An inspection tells how the container stands. -/
lemma inspect_wp {node : Str} {Q : Container → State σ → Prop}
    (h : ∀ s', s.Same s' → Q (s.containers node) s') :
    wp lab uuid Q E (ask (.inspect node)) s := by
  refine ask_wp fun r s' does => ?_
  cases does with
  | inspect node later => exact h _ ⟨rfl, rfl⟩

/-- A node that is up and asked has joined. -/
structure Health.Sees (data : Health) (lab : Lab) (uuid node : Str) : Prop where
  joined : lab.Joined uuid data.toProbe
  node : data.node = node
  container : data.container = .running

/-- The health of a node, if it can be seen. -/
lemma health_wp {node : Str} (mem : node ∈ lab.nodes) {Q : Health → State σ → Prop}
    (h : ∀ data s', s.Same s' → (lab.Up s → data.Sees lab uuid node) → Q data s') :
    wp lab uuid Q E (health node) s := by
  refine (World.wp_bind _ _).2 (inspect_wp fun s₁ same => ?_)
  by_cases runs : s.containers node = .running
  · simp only [runs, ne_eq, not_true_eq_false, if_false]
    refine (World.wp_bind _ _).2 (ask_wp fun r s₂ does => ?_)
    cases does with
    | probe node later joined =>
      refine h _ _ (same.trans ⟨rfl, rfl⟩) fun up => ?_
      obtain ⟨q, rfl, sees⟩ := joined (same.up.2 up) mem
      exact ⟨sees, rfl, rfl⟩
  · simp only [ne_eq, runs, not_false_eq_true, if_true]
    exact h _ _ same fun up => absurd (up node mem) runs

/-- A healthy node is looked for and nothing is changed. -/
lemma healthyNode_wp {nodes : List Str} (mem : nodes ⊆ lab.nodes) {Q : Str → State σ → Prop}
    (ok : ∀ node s', s.Same s' → Q node s') (error : ∀ e s', s.Same s' → E e s') :
    wp lab uuid Q E (healthyNode nodes) s := by
  induction nodes generalizing s with
  | nil => exact error _ _ (.refl s)
  | cons node nodes ih =>
    refine (World.wp_bind _ _).2 (health_wp (mem List.mem_cons_self) fun data s₁ same _ => ?_)
    split
    · exact ok _ _ same
    · exact ih (fun n m => mem (List.mem_cons_of_mem _ m))
        (fun n s₂ same' => ok n s₂ (same.trans same'))
        fun e s₂ same' => error e s₂ (same.trans same')

section
variable [Unicode]

/-- The size of a cluster is read back. -/
lemma size_of_count {n : Nat} (small : n ≤ 5) : intOfStr (digitChars n) = .ok n := by
  refine intOfStr_intRepr (n := n) ?_
  have cases_ : n = 0 ∨ n = 1 ∨ n = 2 ∨ n = 3 ∨ n = 4 ∨ n = 5 := by omega
  rcases cases_ with rfl | rfl | rfl | rfl | rfl | rfl <;> rfl

/-- A node has joined just if the cluster has the expected size. -/
lemma Health.Sees.joined_eq {data : Health} {node : Str} (sees : data.Sees lab uuid node)
    (size : Int) :
    data.joined (some size) = .ok (decide ((lab.nodeCount : Int) = size)) := by
  show (if data.ready = true then data.sized (some size) else .ok false) = _
  rw [if_pos sees.joined.ready, Health.sized, sees.joined.size]
  simp only [size_of_count lab.supported.2]
  rfl

/-- Waiting for a size ends well for the size that the nodes report, and only for that. -/
lemma waiting_wp {node : Str} (mem : node ∈ lab.nodes) (size deadline : Int) (passes : Nat) :
    wp lab uuid (fun _ s' => s.Same s' ∧ (lab.Up s → (lab.nodeCount : Int) = size))
      (fun _ s' => s.Same s' ∧ (lab.Up s → 0 < passes → s.clock < deadline →
        (lab.nodeCount : Int) ≠ size))
      (waiting node (some size) deadline passes) s := by
  induction passes generalizing s with
  | zero => exact ⟨.refl s, fun _ some_ => absurd some_ (by decide)⟩
  | succ passes ih =>
    refine (World.wp_bind _ _).2 (ask_wp fun r s₁ does => ?_)
    cases does with
    | monotonic =>
      dsimp only
      by_cases early : s.clock < deadline
      · rw [if_pos early]
        refine (World.wp_bind _ _).2 (health_wp mem fun data s₁ same sees => ?_)
        cases known : data.joined (some size) with
        | error e =>
          refine ⟨same, fun up => ?_⟩
          rw [(sees up).joined_eq] at known
          cases known
        | ok joined =>
          cases joined with
          | true =>
            refine ⟨same, fun up => ?_⟩
            rw [(sees up).joined_eq] at known
            simpa using Except.ok.inj known
          | false =>
            have other : lab.Up s → (lab.nodeCount : Int) ≠ size := fun up => by
              rw [(sees up).joined_eq] at known
              simpa using Except.ok.inj known
            dsimp only
            split
            · refine (World.wp_bind _ _).2 (ask_wp fun r s₂ does => ?_)
              cases does with
              | logs => exact ⟨same.trans ⟨rfl, rfl⟩, fun up _ _ => other up⟩
            · refine (World.wp_bind _ _).2 (ask_wp fun r s₂ does => ?_)
              cases does with
              | sleep seconds later =>
                have same' : ∀ clock, s.Same { s₁ with clock := clock } :=
                  fun _ => ⟨same.containers, same.file⟩
                exact World.wp_mono ih
                  (fun _ s₃ h => ⟨(same' _).trans h.1, fun up => h.2 ((same' _).up.2 up)⟩)
                  fun _ s₃ h => ⟨(same' _).trans h.1, fun up _ _ => other up⟩
      · rw [if_neg early]
        exact ⟨.refl s, fun _ _ late => absurd late early⟩

/-- A node is awaited until the cluster has the size. -/
lemma wait_wp {node : Str} (mem : node ∈ lab.nodes) (size : Int) :
    wp lab uuid (fun _ s' => s.Same s' ∧ (lab.Up s → (lab.nodeCount : Int) = size))
      (fun _ s' => s.Same s' ∧ (lab.Up s → (lab.nodeCount : Int) ≠ size))
        (lab.wait node (some size)) s := by
  refine (World.wp_bind _ _).2 (ask_wp fun r s₁ does => ?_)
  cases does with
  | monotonic =>
    have patient := lab.patient
    exact World.wp_mono (waiting_wp mem size _ _) (fun _ _ h => h)
      fun _ _ h => ⟨h.1, fun up => h.2 up (by omega) (by omega)⟩

end

/-- What is raised is collected. -/
lemma collecting_wp {p : Program σ Unit} {Q : List Raised → State σ → Prop}
    (h : wp lab uuid (fun _ s' => Q [] s') (fun e s' => Q [e] s') p s) :
    wp lab uuid Q E (collecting p) s :=
  (World.wp_handle _ _).2 ((World.wp_bind _ _).2 h)

/-- The health of all nodes. -/
lemma healths_wp {nodes : List Str} (mem : nodes ⊆ lab.nodes) :
    wp lab uuid
      (fun status s' => s.Same s' ∧ status.map Prod.fst = nodes ∧
        (lab.Up s → ∀ e ∈ status, e.2.Sees lab uuid e.1))
      (fun _ _ => False) (healths nodes) s := by
  induction nodes generalizing s with
  | nil => exact ⟨.refl s, rfl, fun _ e m => nomatch m⟩
  | cons node nodes ih =>
    refine (World.wp_bind _ _).2 (health_wp (mem List.mem_cons_self) fun data s₁ same sees => ?_)
    refine (World.wp_bind _ _).2 (World.wp_mono (ih fun n m => mem (List.mem_cons_of_mem _ m)) ?_
      fun _ _ h => h)
    rintro rest s₂ ⟨same', names, all⟩
    refine ⟨same.trans same', by simp [names], fun up e m => ?_⟩
    rcases List.mem_cons.1 m with rfl | m
    · exact sees up
    · exact all (same.up.2 up) e m

/-- Nodes that have joined one cluster pass the check. -/
lemma checkHealth_ok {nodes : List Str} {status : List (Str × Health)} (some_ : nodes ≠ [])
    (known : uuid ≠ [])
    (count : nodes.length = lab.nodeCount) (names : status.map Prod.fst = nodes)
    (all : ∀ e ∈ status, e.2.Sees lab uuid e.1) : checkHealth nodes status = .ok () := by
  have listed : (∀ e ∈ status, e.1 ∈ nodes) ∧ ∀ n ∈ nodes, n ∈ status.map Prod.fst :=
    ⟨fun e m => names ▸ List.mem_map_of_mem m, fun n m => names ▸ m⟩
  have fit : status.find? (fun e => e.2.unfit nodes.length e.1) = none := by
    refine List.find?_eq_none.2 fun e m => ?_
    have sees := all e m
    simp [Health.unfit, sees.joined.ready, sees.joined.size, sees.node, count]
  have one : (status.map fun e => e.2.stateUuid).dedup = [some uuid] := by
    have same : status.map (fun e => e.2.stateUuid) = List.replicate status.length (some uuid) := by
      refine List.eq_replicate_iff.2 ⟨List.length_map .., fun id m => ?_⟩
      obtain ⟨e, here, rfl⟩ := List.mem_map.1 m
      exact (all e here).joined.uuid
    have long : status.length ≠ 0 :=
      fun zero => some_ (by rw [← names, List.length_eq_zero_iff.1 zero]; rfl)
    rw [same, List.replicate_dedup long]
  unfold checkHealth
  rw [if_neg (not_not.2 listed), fit]
  simp only [one]
  rw [if_neg]
  simp [Ne.symm known]

/-- There are as many nodes as configured. -/
lemma Lab.nodes_length (lab : Lab) : lab.nodes.length = lab.nodeCount := by simp [nodes]

/-- There is a node. -/
lemma Lab.nodes_ne_nil (lab : Lab) : lab.nodes ≠ [] := by
  intro none_
  have count := lab.nodes_length
  have supported := lab.supported
  rw [none_] at count
  simp only [List.length_nil] at count
  omega

/-- The checks at the beginning change nothing, and succeed where all is well. -/
lemma preflight_wp (known : uuid ≠ []) :
    wp lab uuid (fun _ s' => s.Same s') (fun _ s' => s.Same s' ∧ ¬ lab.Up s) lab.preflight s := by
  refine (World.wp_bind _ _).2 (World.wp_mono (healths_wp fun _ m => m) ?_ fun _ _ h => h.elim)
  rintro status s₁ ⟨same, names, all⟩
  split
  · rename_i e fails
    refine ⟨same, fun up => ?_⟩
    rw [checkHealth_ok lab.nodes_ne_nil known lab.nodes_length names (all up)] at fails
    cases fails
  · split
    · rename_i e found
      refine ⟨same, fun up => ?_⟩
      have other := List.find?_some found
      simp [(all up e (List.mem_of_find?_eq_some found)).joined.mode] at other
    · exact same

section
variable [Unicode]

/-- Nodes are awaited one after the other. -/
lemma waits_wp {nodes : List Str} (mem : nodes ⊆ lab.nodes) (size : Int) :
    wp lab uuid (fun _ s' => s.Same s' ∧ (lab.Up s → nodes ≠ [] → (lab.nodeCount : Int) = size))
      (fun _ s' => s.Same s' ∧ (lab.Up s → (lab.nodeCount : Int) ≠ size))
      (nodes.forM fun node => lab.wait node (some size)) s := by
  induction nodes generalizing s with
  | nil => exact ⟨.refl s, fun _ some_ => absurd rfl some_⟩
  | cons node nodes ih =>
    refine (World.wp_bind _ _).2 (World.wp_mono (wait_wp (mem List.mem_cons_self) size) ?_
      fun _ _ h => h)
    rintro - s₁ ⟨same, fits⟩
    refine World.wp_mono (ih fun n m => mem (List.mem_cons_of_mem _ m)) ?_ ?_
    · exact fun _ s₂ h => ⟨same.trans h.1, fun up _ => fits up⟩
    · exact fun _ s₂ h => ⟨same.trans h.1, fun up => h.2 (same.up.2 up)⟩

/-- Where the nodes are all up, the last part of a recovery goes well if and only if the cluster has
three nodes. -/
lemma rejoin_wp (known : uuid ≠ []) (j : Journal σ) :
    wp lab uuid
      (fun errors s' => s'.containers = s.containers ∧
        (lab.Up s → (errors = [] ↔ j.nodes = [] ∨ lab.nodeCount = 3)))
      (fun _ _ => False) (lab.rejoin j) s := by
  unfold Lab.rejoin
  split
  case isTrue none_ => exact ⟨rfl, fun _ => ⟨fun _ => .inl none_, fun _ => rfl⟩⟩
  case isFalse some_ =>
    refine collecting_wp ((World.wp_bind _ _).2 (World.wp_mono (waits_wp (fun _ m => m) 3) ?_ ?_))
    · rintro - s₁ ⟨same, three⟩
      refine (World.wp_bind _ _).2
        (World.wp_mono (preflight_wp known) (fun _ s₂ same' => ask_wp fun r s₃ does => ?_) ?_)
      · cases does with
        | save =>
          refine ⟨(same.trans same').containers, fun up => ⟨fun _ => .inr ?_, fun _ => rfl⟩⟩
          have := three up lab.nodes_ne_nil
          omega
      · exact fun e s₂ h => ⟨(same.trans h.1).containers, fun up => absurd (same.up.2 up) h.2⟩
    · rintro e s₁ ⟨same, other⟩
      refine ⟨same.containers, fun up => ⟨nofun, fun either => ?_⟩⟩
      rcases either with none_ | three
      · exact absurd none_ some_
      · exact absurd (by omega) (other up)

end

/-! ### Bringing the nodes back -/

/-- Containers stay as they are or are started. -/
def Improves (s s' : State σ) : Prop :=
  ∀ node, s'.containers node = s.containers node ∨ s'.containers node = .running

/-- Nothing has become worse. -/
lemma Improves.refl (s : State σ) : Improves s s := fun _ => .inl rfl

/-- Where nothing has changed, nothing has become worse. -/
lemma Improves.of_same (h : s.Same s') : Improves s s' := fun node => .inl (by rw [h.containers])

/-- A container that is started runs. -/
lemma State.start_self (s : State σ) (node : Str) (clock : Int) :
    (s.start node clock).containers node = .running :=
  Function.update_self ..

/-- Starting one container leaves the others alone. -/
lemma State.start_other (s : State σ) {node other : Str} (away : other ≠ node) (clock : Int) :
    (s.start node clock).containers other = s.containers other := Function.update_of_ne away ..

/-- Starting a container makes nothing worse. -/
lemma Improves.start (s : State σ) (node : Str) (clock : Int) : Improves s (s.start node clock) :=
  fun other => by
  by_cases same : other = node
  · exact .inr (by rw [same, s.start_self])
  · exact .inl (s.start_other same clock)

/-- Nothing has become worse, twice. -/
lemma Improves.trans {s s' s'' : State σ} (h : Improves s s') (h' : Improves s' s'') :
    Improves s s'' := fun node => by
  rcases h' node with same | runs
  · rw [same]
    exact h node
  · exact .inr runs

/-- What is not started is not lost either. -/
lemma Improves.keeps (h : Improves s s') {node : Str} {c : Container} (other : c ≠ .running)
    (away : s.containers node ≠ c) : s'.containers node ≠ c := by
  rcases h node with same | runs
  · rwa [same]
  · rw [runs]
    exact other.symm

/-- A node that is paused goes on. -/
lemma unpauses_wp {node : Str} :
    wp lab uuid
      (fun errors s' => node ∈ lab.nodes ∧ errors = [] ∧ Improves s s' ∧
        s'.containers node ≠ .paused)
      (fun _ _ => node ∉ lab.nodes) (lab.unpauses node) s := by
  unfold Lab.unpauses
  split
  case isTrue unknown => exact unknown
  case isFalse known =>
    have known := not_not.1 known
    refine collecting_wp ((World.wp_bind _ _).2 (inspect_wp fun s₁ same => ?_))
    split
    case isTrue paused =>
      refine ask_wp fun r s₂ does => ?_
      cases does with
      | unpause node later =>
        refine ⟨known, rfl, (Improves.of_same same).trans (.start s₁ node _), ?_⟩
        rw [s₁.start_self]
        nofun
    case isFalse other => exact ⟨known, rfl, .of_same same, by rwa [same.containers]⟩

/-- All nodes that are paused go on. -/
lemma gather_unpauses_wp {nodes : List Str} :
    wp lab uuid
      (fun errors s' => nodes ⊆ lab.nodes ∧ errors = [] ∧ Improves s s' ∧ ∀ node ∈ nodes,
        s'.containers node ≠ .paused)
      (fun _ _ => ¬ nodes ⊆ lab.nodes) (gather lab.unpauses nodes) s := by
  induction nodes generalizing s with
  | nil => exact ⟨List.nil_subset _, rfl, .refl s, fun _ m => nomatch m⟩
  | cons node nodes ih =>
    refine (World.wp_bind _ _).2 (World.wp_mono unpauses_wp ?_ fun _ _ unknown sub =>
      unknown (sub List.mem_cons_self))
    rintro errors s₁ ⟨known, rfl, better, awake⟩
    refine (World.wp_bind _ _).2 (World.wp_mono ih ?_ fun _ _ unknown sub => unknown fun n m =>
      sub (.tail _ m))
    rintro errors s₂ ⟨sub, rfl, better', rest⟩
    refine ⟨List.cons_subset.2 ⟨known, sub⟩, rfl, better.trans better', fun n m => ?_⟩
    rcases List.mem_cons.1 m with rfl | m
    · exact better'.keeps nofun awake
    · exact rest n m

/-- A node that is there and not paused is started again. -/
lemma restarts_wp {node : Str} (there : s.containers node ≠ .absent)
    (awake : s.containers node ≠ .paused) :
    wp lab uuid
      (fun errors s' => (∀ other, other ≠ node → s'.containers other = s.containers other) ∧
        (errors ≠ [] → s'.containers node = .stopped))
      (fun _ _ => False) (lab.restarts node) s := by
  refine collecting_wp ((World.wp_bind _ _).2 (inspect_wp fun s₁ same => ?_))
  cases found : s.containers node with
  | absent => exact absurd found there
  | paused => exact absurd found awake
  | running => exact ⟨fun other _ => by rw [same.containers], fun h => absurd rfl h⟩
  | stopped =>
    refine (World.wp_bind _ _).2 (healthyNode_wp (fun _ m => m) (fun ready s₂ same' => ?_)
      fun e s₂ same' => ?_)
    · refine ask_wp fun r s₃ does => ?_
      cases does with
      | up node later =>
        refine ⟨fun other away => ?_, fun h => absurd rfl h⟩
        rw [s₂.start_other away, (same.trans same').containers]
    · exact ⟨fun other _ => by rw [(same.trans same').containers], fun _ => by
        rw [(same.trans same').containers, found]⟩

/-- A node that is not started again stays as it was: if all nodes are up afterwards, nothing went
wrong. -/
lemma gather_restarts_wp {nodes : List Str} (distinct : nodes.Nodup)
    (there : ∀ node ∈ nodes, s.containers node ≠ .absent)
    (awake : ∀ node ∈ nodes, s.containers node ≠ .paused) :
    wp lab uuid
      (fun errors s' => (∀ other, other ∉ nodes → s'.containers other = s.containers other) ∧
        (errors ≠ [] → ∃ node ∈ nodes, s'.containers node = .stopped))
      (fun _ _ => False) (gather lab.restarts nodes) s := by
  induction nodes generalizing s with
  | nil => exact ⟨fun _ _ => rfl, fun h => absurd rfl h⟩
  | cons node nodes ih =>
    obtain ⟨fresh, distinct⟩ := List.nodup_cons.1 distinct
    have mine :=
      @restarts_wp σ lab uuid s node (there node List.mem_cons_self) (awake node List.mem_cons_self)
    refine (World.wp_bind _ _).2 (World.wp_mono mine ?_ fun _ _ h => h)
    rintro errors s₁ ⟨others, kept⟩
    have apart : ∀ n ∈ nodes, s₁.containers n = s.containers n :=
      fun n m => others n fun same => fresh (same ▸ m)
    refine (World.wp_bind _ _).2 (World.wp_mono (ih distinct (fun n m => ?_) fun n m => ?_) ?_
      fun _ _ h => h)
    · rw [apart n m]
      exact there n (List.mem_cons_of_mem _ m)
    · rw [apart n m]
      exact awake n (List.mem_cons_of_mem _ m)
    · rintro errors' s₂ ⟨others', kept'⟩
      refine ⟨fun other away => ?_, fun some_ => ?_⟩
      · obtain ⟨away, away'⟩ := not_or.1 (mt List.mem_cons.2 away)
        rw [others' other away', others other away]
      · by_cases first : errors = []
        · obtain ⟨n, m, stopped⟩ := kept' (by simpa [first] using some_)
          exact ⟨n, List.mem_cons_of_mem _ m, stopped⟩
        · exact ⟨node, List.mem_cons_self, (others' node fresh).trans (kept first)⟩

/-! ### Workers and settings -/

/-- A fault is settled without touching a container. -/
lemma settle_wp {node action token : Str} {state : Option σ} {j j' : Journal σ} :
    wp lab uuid (fun r s' => s'.containers = s.containers ∧ r = ([], j')) (fun _ _ => False)
      (settle node action token state j j') s := by
  refine (World.wp_handle _ _).2 ((World.wp_bind _ _).2 (ask_wp fun r s₁ does => ?_))
  cases does with
  | worker =>
    refine (World.wp_bind _ _).2 (collecting_wp (ask_wp fun r s₂ does => ?_))
    cases does with
    | save => exact ⟨rfl, rfl⟩

/-- A fault is cancelled without touching a container. -/
lemma cancel_wp {j : Journal σ} :
    wp lab uuid (fun r s' => s'.containers = s.containers ∧ r.1 = [] ∧ r.2.nodes = j.nodes)
      (fun _ _ => False)
      (cancel j) s := by
  unfold cancel
  cases j.activeWorker with
  | none => exact ⟨rfl, rfl, rfl⟩
  | some active =>
    refine World.wp_mono settle_wp ?_ fun _ _ h => h
    rintro r s' ⟨same, rfl⟩
    exact ⟨same, rfl, rfl⟩

/-- The logging is restored without touching a container. -/
lemma restoreLogging_wp {logging : List (Str × σ)} {j : Journal σ} :
    wp lab uuid (fun r s' => s'.containers = s.containers ∧ r.1 = [] ∧ r.2.nodes = j.nodes)
      (fun _ _ => False)
      (restoreLogging logging j) s := by
  induction logging generalizing s j with
  | nil => exact ⟨rfl, rfl, rfl⟩
  | cons e logging ih =>
    refine (World.wp_bind _ _).2 (World.wp_mono settle_wp ?_ fun _ _ h => h)
    rintro r s₁ ⟨same, rfl⟩
    refine (World.wp_bind _ _).2 (World.wp_mono ih ?_ fun _ _ h => h)
    rintro r s₂ ⟨same', none_, nodes⟩
    exact ⟨same'.trans same, none_, nodes⟩

/-! ### The whole recovery -/

/-- The journal of a scenario of this lab that was interrupted. -/
structure Interrupted (lab : Lab) (j : Journal σ) : Prop where
  version : j.version = 1
  project : j.project = lab.project
  engine : j.engine = lab.engine
  distinct : j.nodes.Nodup

/-- No nodes were disturbed, or nodes of a cluster of three. -/
def Recoverable (lab : Lab) (j : Journal σ) : Prop :=
  j.nodes = [] ∨ lab.nodeCount = 3 ∧ j.nodes ⊆ lab.nodes

section
variable [Unicode]

/-- A recovery succeeds just if what was interrupted can be recovered. -/
lemma recover_wp (known : uuid ≠ []) {j : Journal σ} (left : Interrupted lab j)
    (there : ∀ node ∈ j.nodes, s.containers node ≠ .absent) :
    wp lab uuid (fun _ s' => s'.file = none ∧ (lab.Up s' → Recoverable lab j))
      (fun _ s' => lab.Up s' → ¬ Recoverable lab j) (lab.recover j) s := by
  refine (World.wp_bind _ _).2 (World.wp_mono gather_unpauses_wp ?_ ?_)
  · rintro unpaused s₁ ⟨sub, rfl, better, awake⟩
    have there₁ : ∀ node ∈ j.nodes, s₁.containers node ≠ .absent :=
      fun node m => better.keeps nofun (there node m)
    refine (World.wp_bind _ _).2 (World.wp_mono (gather_restarts_wp left.distinct there₁ awake) ?_
      fun _ _ h => h.elim)
    rintro restarted s₂ ⟨-, kept⟩
    refine (World.wp_bind _ _).2 (World.wp_mono cancel_wp ?_ fun _ _ h => h.elim)
    rintro ⟨cancelled, j₁⟩ s₃ ⟨same₃, none₃, nodes₃⟩
    refine (World.wp_bind _ _).2 (World.wp_mono restoreLogging_wp ?_ fun _ _ h => h.elim)
    rintro ⟨restored, j₂⟩ s₄ ⟨same₄, none₄, nodes₄⟩
    refine (World.wp_bind _ _).2 (World.wp_mono (rejoin_wp known j₂) ?_ fun _ _ h => h.elim)
    rintro rejoined s₅ ⟨same₅, rejoins⟩
    have same : s₅.containers = s₂.containers := by rw [same₅, same₄, same₃]
    have up₄ : lab.Up s₅ → lab.Up s₄ := fun up node m => by
      rw [← same₅]
      exact up node m
    rw [nodes₄, nodes₃] at rejoins
    cases none₃
    cases none₄
    dsimp only
    split
    · rename_i some_
      intro up recoverable
      by_cases first : restarted = []
      · have failed : rejoined ≠ [] := by simpa [first] using some_
        refine failed ((rejoins (up₄ up)).2 ?_)
        exact recoverable.imp_right fun h => h.1
      · obtain ⟨node, m, stopped⟩ := kept first
        have running := up node (sub m)
        rw [same, stopped] at running
        cases running
    · rename_i none_
      refine ask_wp fun r s₆ does => ?_
      cases does with
      | unlink =>
        refine ⟨rfl, fun up => ?_⟩
        have fine : rejoined = [] := by
          have := not_not.1 none_
          simp only [List.append_eq_nil_iff] at this
          exact this.2
        exact ((rejoins (up₄ up)).1 fine).imp_right fun three => ⟨three, sub⟩
  · intro e s₁ unknown _ recoverable
    rcases recoverable with none_ | known
    · exact unknown (by rw [none_]; exact List.nil_subset _)
    · exact unknown known.2

/-- Where every command succeeds and all nodes come back, a recovery ends well, and leaves no
journal, if and only if the interrupted scenario had disturbed no nodes, or nodes of a cluster of
three. -/
theorem recovers_iff (lab : Lab) (uuid : Str) (known : uuid ≠ []) (j : Journal σ)
    (left : Interrupted lab j) (s s' : State σ)
    (file : s.file = some j) (there : ∀ node ∈ j.nodes, s.containers node ≠ .absent)
    (r : Except Raised Unit)
    (ran : (surroundings lab uuid).Ran lab.recoverPending s r s') (up : lab.Up s') :
    (r = .ok () ∧ s'.file = none) ↔ (j.nodes = [] ∨ lab.nodeCount = 3 ∧ j.nodes ⊆ lab.nodes) := by
  have whole : wp lab uuid (fun _ s' => s'.file = none ∧ (lab.Up s' → Recoverable lab j))
      (fun _ s' => lab.Up s' → ¬ Recoverable lab j) lab.recoverPending s := by
    refine (World.wp_bind _ _).2 (ask_wp fun r s₁ does => ?_)
    cases does with
    | journal =>
      rw [file]
      dsimp only
      rw [if_neg (by simp [left.version, left.project, left.engine])]
      exact recover_wp known left there
  have ended := ran.post whole
  cases r with
  | ok =>
    have ended : s'.file = none ∧ (lab.Up s' → Recoverable lab j) := ended
    exact ⟨fun _ => ended.2 up, fun _ => ⟨rfl, ended.1⟩⟩
  | error e => exact ⟨fun h => (nomatch h.1), fun h => absurd h (ended up)⟩

end

end

/-! ### Two quick clusters -/

section
attribute [local instance] ascii

/-- Commands take no time, and all nodes report at once that they have joined. -/
def quick (lab : Lab) (uuid : Str) : Oracle (surroundings (σ := Unit) lab uuid) Unit where
  answer
    | .journal, s, _ => (.ok s.file, s, ())
    | .save j, s, _ => (.ok (), { s with file := some j }, ())
    | .unlink, s, _ => (.ok (), { s with file := none }, ())
    | .inspect node, s, _ => (.ok (s.containers node), s, ())
    | .unpause node, s, _ => (.ok (), s.start node s.clock, ())
    | .up node, s, _ => (.ok (), s.start node s.clock, ())
    | .probe _, s, _ =>
      (.ok (some ⟨true, some (digitChars lab.nodeCount), some uuid, some (str "galera")⟩), s, ())
    | .worker .., s, _ => (.ok (), s, ())
    | .logs _, s, _ => (.ok (), s, ())
    | .monotonic, s, _ => (.ok s.clock, s, ())
    | .sleep seconds, s, _ => (.ok (), { s with clock := s.clock + seconds }, ())
  does x s _ := by
    cases x with
    | journal => exact .journal s
    | save j => exact .save j s
    | unlink => exact .unlink s
    | inspect node => exact .inspect node le_rfl
    | unpause node => exact .unpause node le_rfl
    | up node => exact .up node le_rfl
    | probe node => exact .probe node le_rfl fun _ _ => ⟨_, rfl, rfl, rfl, rfl, rfl⟩
    | worker => exact .worker _ _ _ _ le_rfl
    | logs node => exact .logs node le_rfl
    | monotonic => exact .monotonic s
    | sleep seconds => exact .sleep seconds le_rfl

def demoLab (nodeCount : Nat) (supported : 3 ≤ nodeCount ∧ nodeCount ≤ 5) : Lab :=
  ⟨str "mariadb-ha", str "podman", nodeCount, supported, 10, le_rfl⟩

/-- A scenario that had paused the first node. -/
def demoJournal : Journal Unit :=
  ⟨1, str "mariadb-ha", str "podman", str "t", [str "galera1"], [], none⟩

def demoState : State Unit where
  containers node := if node = str "galera1" then .paused else .running
  file := some demoJournal
  clock := 0

/-- The scenario of the demonstration was interrupted. -/
lemma demo_interrupted (nodeCount : Nat) (supported : 3 ≤ nodeCount ∧ nodeCount ≤ 5) :
    Interrupted (demoLab nodeCount supported) demoJournal := ⟨rfl, rfl, rfl, by decide⟩

/-- The run of the recovery next to a quick cluster. -/
def demoRun (nodeCount : Nat) (supported : 3 ≤ nodeCount ∧ nodeCount ≤ 5) :
    Except Raised Unit × State Unit × Unit :=
  (quick (demoLab nodeCount supported) (str "u")).run
    (demoLab nodeCount supported).recoverPending demoState ()

/-- All containers of the demonstration are there. -/
lemma demo_there : ∀ node ∈ demoJournal.nodes, demoState.containers node ≠ .absent := by decide

/-- `recovers_iff` for three nodes. -/
theorem recovers_iff_three :
    ((demoRun 3 (by decide)).1 = .ok () ∧ (demoRun 3 (by decide)).2.1.file = none) ↔
      (demoJournal.nodes = [] ∨ (demoLab 3 (by decide)).nodeCount = 3 ∧
        demoJournal.nodes ⊆ (demoLab 3 (by decide)).nodes) := by
  refine recovers_iff (demoLab 3 (by decide)) (str "u") (by decide) demoJournal
    (demo_interrupted 3 _) demoState _ rfl
    demo_there _ (Oracle.run_ran _ _ _) ?_
  show ∀ node ∈ (demoLab 3 (by decide)).nodes, _
  decide +kernel

/-- A recovery of a cluster of four waits for three nodes, in vain. -/
theorem four_unrecovered :
    ∃ lab : Lab, ∃ j : Journal Unit, ∃ s s' r, Interrupted lab j ∧ s.file = some j ∧
      (∀ node ∈ j.nodes, s.containers node ≠ .absent) ∧
      (surroundings lab (str "u")).Ran lab.recoverPending s r s' ∧ lab.Up s' ∧
        ¬ (r = .ok () ∧ s'.file = none) := by
  refine ⟨demoLab 4 (by decide), demoJournal, demoState, (demoRun 4 (by decide)).2.1,
    (demoRun 4 (by decide)).1, demo_interrupted 4 _, rfl, demo_there, Oracle.run_ran _ _ _, ?_, ?_⟩
  · show ∀ node ∈ (demoLab 4 (by decide)).nodes, _
    decide +kernel
  · have refused : passes (demoRun 4 (by decide)).1 (fun _ => true) = false := by decide +kernel
    rintro ⟨ok, -⟩
    rw [ok] at refused
    cases refused

end

end DbLab.Galera.Scenario
