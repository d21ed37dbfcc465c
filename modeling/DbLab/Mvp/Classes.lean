import DbLab.Mvp.Study

/-!
# Classification is a partition

The windows of a fault run, the keys of the groups and the filter of the deltas agree on what a pure
window is.
-/

namespace DbLab.Mvp.Study
open DbLab.Py DbLab.Data Simulation

/-! ### Purity -/

/-- The mark of a boundary request has a colon. -/
lemma boundary_part {c : Str} (h : str ":boundary" <:+: c) : 58 ∈ c := h.subset (by decide +kernel)

/-- A class is impure where it is not the name of a window. -/
lemma impure_iff {ws : List Window} (named : Named ws) {c : Str} (m : c ∈ classes ws) :
    impure c = true ↔ ∀ w ∈ ws, c ≠ w.label := by
  simp only [impure, Bool.or_eq_true, decide_eq_true_eq]
  constructor
  · rintro (boundary | outside) w mw rfl
    · exact (named.plain w mw).1 (boundary_part boundary)
    · exact (named.plain w mw).2 outside
  · intro other
    rcases List.mem_append.1 m with inside | outside
    · rcases List.mem_append.1 inside with pure | boundary
      · obtain ⟨w, mw, same⟩ := List.mem_map.1 pure
        exact absurd same.symm (other w mw)
      · obtain ⟨w, _, same⟩ := List.mem_map.1 boundary
        exact .inl (same ▸ List.suffix_append .. |>.isInfix)
    · exact .inr (List.mem_singleton.1 outside)

/-- The classes, by their names. -/
lemma classes_eq (ws : List Window) :
    classes ws = ws.map Tile.label ++ (ws.map Tile.label).map (· ++ str ":boundary") ++
      [str "outside_window"] := by
  rw [classes, List.map_map]
  rfl

def comparedNames : List String := ["before", "fault", "after"]

/-- The classes that the deltas keep are three pure windows. -/
lemma kept {fault : Run} {ws : List Window} (aligned : alignedWindows fault = .ok ws) {c : Str}
    (m : c ∈ classes ws)
    (kept : excluded c = false) : c ∈ comparedNames.map str := by
  rw [classes_eq, aligned_labels aligned] at m
  have all : ∀ c ∈ windowNames.map str ++ (windowNames.map str).map (· ++ str ":boundary") ++
    [str "outside_window"],
      excluded c = false → c ∈ comparedNames.map str := by decide +kernel
  exact all c m kept

/-! ### Sums -/

/-- The counts of a run's metrics, for its requests under their keys. -/
structure Sums (ws : List Window) (key : Request → Key) (rows : List Request)
    (m : Metrics) : Prop where
  requests : m.httpRequests = rows.length ∧ (m.groups.map fun g => g.total.count).sum =
    m.httpRequests
  outcomes : (m.outcomes.map Prod.snd).sum = m.httpRequests ∧
    ∀ o ∈ m.outcomes, ((m.groups.filter fun g => g.key.2.2 = o.1).map fun g => g.total.count).sum =
      o.2
  boundary : m.boundaryRequests = rows.countP fun row => ∀ w ∈ ws, (key row).1 ≠ w.label
  groups : ∀ g ∈ m.groups, g.total.count = rows.countP fun row => key row = g.key

/-- What is required holds. -/
lemma require_ok {c : Prop} [Decidable c] {code : String} {u : Unit} (h : require c code = .ok u) :
    c := by
  unfold require at h
  split at h
  · assumption
  · cases h

/-- The outcomes of a valid run are among the known ones. -/
lemma validateRun_outcome {r : Run} (h : validateRun r = .ok ()) :
    ∀ row ∈ r.requests, row.outcome ∈ outcomeNames.map str := by
  obtain ⟨_, _, h⟩ := bind_ok.1 h
  obtain ⟨_, _, h⟩ := bind_ok.1 h
  obtain ⟨_, requests, _⟩ := bind_ok.1 h
  intro row m
  obtain ⟨_, valid⟩ := forM_mem_ok requests row m
  obtain ⟨_, kind, _⟩ := bind_ok.1 valid
  obtain ⟨_, _, kind⟩ := bind_ok.1 kind
  obtain ⟨_, _, kind⟩ := bind_ok.1 kind
  obtain ⟨_, _, outcome⟩ := bind_ok.1 kind
  rw [require_ok outcome]
  apply List.mem_map_of_mem
  unfold expectedOutcome
  split_ifs <;> decide

/-- Requests with the four outcomes are counted once. -/
lemma outcomes_sum {rows : List Request} (h : ∀ row ∈ rows, row.outcome ∈ outcomeNames.map str) :
    (outcomeNames.map (outcomeCount rows)).sum = rows.length := by
  induction rows with
  | nil => rfl
  | cons row rows ih =>
    have before := ih fun r m => h r (List.mem_cons_of_mem _ m)
    have one : (outcomeNames.map fun o => if row.outcome = str o then 1 else 0).sum = 1 := by
      have each : ∀ s ∈ outcomeNames.map str, (outcomeNames.map fun o => if s = str o then 1
          else 0).sum = 1 := by
        decide +kernel
      exact each _ (h row List.mem_cons_self)
    have split : outcomeCount (row :: rows) = fun o =>
      outcomeCount rows o + if row.outcome = str o then 1 else 0 := by
      funext o
      simp [outcomeCount, List.countP_cons]
    rw [List.length_cons, ← before, ← one, ← List.sum_map_add, split]

/-- What the metrics of a run are. -/
lemma workloadMetrics_ok {r : Run} {ws : List Window} {m : Metrics}
    (h : workloadMetrics r ws = .ok m) :
    ∃ zero, origin r = .ok zero ∧ m.httpRequests = (workload r).length ∧
      m.outcomes = outcomeNames.map (fun o => (str o, outcomeCount (workload r) o)) ∧
      m.boundaryRequests = ((workload r).countP fun row => impure (classify row zero ws)) ∧
      m.groups = groups (keyOf zero ws) (workload r) := by
  obtain ⟨zero, started, h⟩ := bind_ok.1 h
  obtain ⟨_, _, h⟩ := bind_ok.1 h
  cases h
  exact ⟨zero, started, rfl, rfl, rfl, rfl⟩

/-- The counts of a validated run add up. -/
lemma metrics_sums {r : Run} {ws : List Window} {m : Metrics} {zero : Rat} (named : Named ws)
    (valid : validateRun r = .ok ())
    (started : origin r = .ok zero) (h : workloadMetrics r ws = .ok m) :
    Sums ws (keyOf zero ws) (workload r) m := by
  obtain ⟨zero', started', requests, outcomes, boundary, made⟩ := workloadMetrics_ok h
  cases started.symm.trans started'
  have known : ∀ row ∈ workload r, row.outcome ∈ outcomeNames.map str :=
    fun row m => validateRun_outcome valid row (List.mem_of_mem_filter m)
  refine ⟨⟨requests, ?_⟩, ⟨?_, ?_⟩, ?_, ?_⟩
  · have all := @groups_sum (keyOf zero ws) (workload r) fun _ => true
    rw [made, requests]
    simpa using all
  · rw [outcomes, List.map_map, requests]
    exact outcomes_sum known
  · intro o mo
    rw [outcomes] at mo
    obtain ⟨name, _, rfl⟩ := List.mem_map.1 mo
    rw [made]
    exact groups_sum fun k => k.2.2 = str name
  · rw [boundary]
    refine List.countP_congr fun row _ => ?_
    rw [decide_eq_true_eq]
    exact impure_iff named (classify_mem row zero ws)
  · intro g mg
    rw [made] at mg
    rw [mem_groups mg, group_count, under_length]
    rfl

/-! ### Deltas -/

/-- A difference is shown for two samples that are large enough, as the difference of their
percentiles. -/
def Differs (first second : List Request) (p minimum : Nat) (v : Option Rat) : Prop :=
  v = none ∨ minimum ≤ min first.length second.length ∧
    ∃ x y, percentile p (first.map Request.latencyMs) = some x ∧
      percentile p (second.map Request.latencyMs) = some y ∧ v = some (roundTo 3 (y - x))

/-- A delta is about a pure window, and counts and compares the requests of that window, operation
and outcome. -/
structure PureDelta (keyL keyF : Request → Key) (left fault : List Request) (d : Delta) : Prop where
  window : d.window ∈ comparedNames.map str
  baseline : d.baselineN = (under keyL left (d.window, d.operation, d.outcome)).length
  faulted : d.faultN = (under keyF fault (d.window, d.operation, d.outcome)).length
  p50 : Differs (under keyL left (d.window, d.operation, d.outcome))
    (under keyF fault (d.window, d.operation, d.outcome)) 50 5 d.p50
  p95 : Differs (under keyL left (d.window, d.operation, d.outcome))
    (under keyF fault (d.window, d.operation, d.outcome)) 95 20 d.p95
  p99 : Differs (under keyL left (d.window, d.operation, d.outcome))
    (under keyF fault (d.window, d.operation, d.outcome)) 99 100 d.p99

/-- A group that is found has all requests of its key. -/
lemma found_group {key : Request → Key} {rows : List Request} {k : Key} {g : Group}
    (h : (groups key rows).find? (·.key = k) = some g) : g = group k (under key rows k) := by
  have own : g.key = k := by simpa using List.find?_some h
  rw [mem_groups (List.mem_of_find?_eq_some h), own]

/-- What a difference of two groups is. -/
lemma difference_spec {keyL keyF : Request → Key} {left fault : List Request} {blocked : Bool}
    {k : Key} {p minimum : Nat}
    {field : Stats → Option Rat}
    (reads : ∀ values, field (percentiles values) = percentile p values) :
    Differs (under keyL left k) (under keyF fault k) p minimum
      (difference blocked ((groups keyL left).find? (·.key = k))
        ((groups keyF fault).find? (·.key = k)) field minimum) := by
  unfold difference
  split
  · rename_i f s first second
    cases found_group first
    cases found_group second
    split
    · rename_i enough
      rw [group_count, group_count] at enough
      split
      · rename_i x y hx hy
        exact .inr ⟨enough, x, y, (reads _).symm.trans hx, (reads _).symm.trans hy, rfl⟩
      · exact .inl rfl
    · exact .inl rfl
  · exact .inl rfl

/-- The deltas are of requests that lie in one window. -/
lemma deltas_pure {fault : Run} {ws : List Window} (aligned : alignedWindows fault = .ok ws)
    {zl zf : Rat} {blocked : Bool}
    {left right : List Request} {d : Delta}
    (m : d ∈ deltas blocked (groups (keyOf zl ws) left) (groups (keyOf zf ws) right)) :
    PureDelta (keyOf zl ws) (keyOf zf ws) left right d := by
  obtain ⟨k, mk, rfl⟩ := List.mem_map.1 m
  obtain ⟨listed, left_⟩ := List.mem_filter.1 mk
  have pure : excluded k.1 = false := by simpa using left_
  have member := (List.mem_dedup.1 ((List.perm_insertionSort _ _).mem_iff.1 listed))
  -- the key is that of a request of one of the runs
  have class_ : k.1 ∈ classes ws := by
    rcases List.mem_append.1 member with own | own
    all_goals
      rw [groups_key, (List.perm_insertionSort _ _).mem_iff, List.mem_dedup] at own
      obtain ⟨row, _, rfl⟩ := List.mem_map.1 own
      exact classify_mem row _ ws
  exact ⟨kept aligned class_ pure, find_count k, find_count k, difference_spec fun _ => rfl,
    difference_spec fun _ => rfl, difference_spec fun _ => rfl⟩

/-- A comparison that is made uses the windows of the fault run, if it has any. -/
lemma compare_ok {left fault : Run} {ws : List Window} {c : Comparison}
    (aligned : alignedWindows fault = .ok ws)
    (h : compare left fault = .ok c) :
    ∃ zl zf blocked, origin left = .ok zl ∧ origin fault = .ok zf ∧ c.windows = ws ∧
      c.deltas = deltas blocked (groups (keyOf zl ws) (workload left))
        (groups (keyOf zf ws) (workload fault)) := by
  obtain ⟨_, _, h⟩ := bind_ok.1 h
  obtain ⟨_, _, h⟩ := bind_ok.1 h
  obtain ⟨_, _, h⟩ := bind_ok.1 h
  obtain ⟨_, _, h⟩ := bind_ok.1 h
  obtain ⟨baseline, first, h⟩ := bind_ok.1 h
  obtain ⟨metrics, second, h⟩ := bind_ok.1 h
  cases h
  obtain ⟨zl, startedL, _, _, _, madeL⟩ := workloadMetrics_ok first
  obtain ⟨zf, startedF, _, _, _, madeF⟩ := workloadMetrics_ok second
  have common : commonWindows left fault = .ok ws :=
    bind_ok.2 ⟨ws, aligned, bind_ok.2 ⟨zl, startedL, rfl⟩⟩
  rw [common] at madeL madeF ⊢
  exact ⟨zl, zf, _, startedL, startedF, rfl, by rw [madeL, madeF]⟩

/-- The windows of a fault run classify every request once, by where it starts and ends; the counts
of a validated run add up over these classes; and the deltas of a comparison are about the requests
of three pure windows. -/
theorem windows_partition {fault : Run} {ws : List Window}
    (aligned : alignedWindows fault = .ok ws) :
    ((classes ws).Nodup ∧ ∀ row zero, classify row zero ws ∈ classes ws ∧
      (∀ w ∈ ws,
        (classify row zero ws = w.label ↔
          (w.lo ≤ row.startedSeconds - zero ∧ row.startedSeconds - zero < w.hi) ∧
            row.finishedSeconds - zero ≤ w.hi) ∧
        (classify row zero ws = w.label ++ str ":boundary" ↔
          (w.lo ≤ row.startedSeconds - zero ∧ row.startedSeconds - zero < w.hi) ∧
            w.hi < row.finishedSeconds - zero)) ∧
      (classify row zero ws = str "outside_window" ↔
        row.startedSeconds - zero < 0 ∨ (fault.plan.seconds : Rat) ≤ row.startedSeconds - zero)) ∧
    (∀ run m, validateRun run = .ok () → workloadMetrics run ws = .ok m →
      ∃ zero, origin run = .ok zero ∧ Sums ws (keyOf zero ws) (workload run) m) ∧
    ∀ left c, compare left fault = .ok c → ∃ zl zf, origin left = .ok zl ∧ origin fault = .ok zf ∧
      c.windows = ws ∧ ∀ d ∈ c.deltas, PureDelta (keyOf zl ws) (keyOf zf ws) (workload left)
        (workload fault) d := by
  have named := aligned_named aligned
  have tiles := aligned_tiles aligned
  refine ⟨⟨classes_nodup named, ?_⟩, ?_, ?_⟩
  · intro row zero
    refine ⟨classify_mem row zero ws, ?_, classify_outside named tiles⟩
    intro w m
    rw [classify_pure named tiles m, classify_boundary named tiles m, Tile.has_iff]
    exact ⟨Iff.rfl, Iff.rfl⟩
  · intro run m valid metrics
    obtain ⟨zero, started, _⟩ := workloadMetrics_ok metrics
    exact ⟨zero, started, metrics_sums named valid started metrics⟩
  · intro left c compared
    obtain ⟨zl, zf, blocked, startedL, startedF, windows, made⟩ := compare_ok aligned compared
    refine ⟨zl, zf, startedL, startedF, windows, ?_⟩
    rw [made]
    exact fun d m => deltas_pure aligned m

/-! ### A pair of runs -/

namespace Pair

def row (stage : String) (elapsed : Rat) : Row := ⟨str stage, elapsed, none, none, none⟩

def timeline : List Row :=
  [⟨str "workload_started", 10, some 10, none, none⟩,
    ⟨str "workflow_admitted", 10, none, some 0, none⟩,
    ⟨str "workflow_finished", 15, none, some 0, some (str "completed")⟩]

def marks : List Row :=
  [row "fault_requested" 13, row "fault_applied" 14, row "fault_restore_requested" 17,
    row "fault_restore" 18]

/-- A request of the first workflow. -/
def request (start finish : Rat) : Request :=
  ⟨str "workload", str "detail", str "success", 200, start, finish, finish,
    (finish - start) * 1000, some 0, some ((finish - start) * 1000), some true, some 0⟩

def run (name : String) (scenario : Scenario) (timeline : List Row) : Run where
  runId := str name
  summary := ⟨str "passed", true, 3, 1, 14⟩
  plan := ⟨scenario, 42, 15, .int 1, 2, 3, 4, 90, .mixed⟩
  operations := (List.range 15).map fun i => ⟨i, i, .read, 0, 1, 10⟩
  context := ⟨true, true, fun _ => []⟩
  requests := [request 11 12, request 12 (27 / 2), request 25 26]
  timeline := timeline

def baseline : Run := run "sim-000000000001" .baseline timeline

def fault : Run := run "sim-000000000002" .kafkaOutage (timeline ++ marks)

/-- One request before the fault, one over its boundary and one too late. -/
theorem windows_partition_pair :
    ∃ ws c, alignedWindows fault = .ok ws ∧ compare baseline fault = .ok c ∧ c.deltas.length = 1 ∧
      c.fault.boundaryRequests = 2 ∧ (classes ws).Nodup ∧
    ∃ zl zf, ∀ d ∈ c.deltas, PureDelta (keyOf zl ws) (keyOf zf ws) (workload baseline)
      (workload fault) d := by
  have cut : passes (alignedWindows fault) (fun _ => true) = true := by decide +kernel
  have test : passes (compare baseline fault) (fun c => c.deltas.length = 1 &&
      c.fault.boundaryRequests = 2) = true := by
    decide +kernel
  obtain ⟨ws, aligned, _⟩ := ok_of_test cut
  obtain ⟨c, compared, counts⟩ := ok_of_test test
  rw [Bool.and_eq_true, decide_eq_true_eq, decide_eq_true_eq] at counts
  obtain ⟨⟨nodup, _⟩, _, pairs⟩ := windows_partition aligned
  obtain ⟨zl, zf, _, _, _, pure⟩ := pairs baseline c compared
  exact ⟨ws, c, aligned, compared, counts.1, counts.2, nodup, zl, zf, pure⟩

end Pair

end DbLab.Mvp.Study
