import DbLab.Data.Tiles
import DbLab.Mvp.Plan
import DbLab.Py.Exec

/-!
# Windows of a fault run (`study_analysis.py`)

The four marks that a fault leaves on the timeline cut the workload into five windows. Every request
of a workload is classified by the window it starts in, and as a boundary request if it ends behind
that window. Clocks are exact.
-/

namespace DbLab.Mvp.Study
open DbLab.Py DbLab.Data Simulation

/-- A row of `timeline.jsonl`, with the fields that are read here. -/
structure Row where
  stage : Str
  elapsedSeconds : Rat
  clockOriginSeconds : Option Rat
  operationNumber : Option Int
  outcome : Option Str

/-- A row of `requests.jsonl`. -/
structure Request where
  scope : Str
  operation : Str
  outcome : Str
  status : Int
  startedSeconds : Rat
  finishedSeconds : Rat
  elapsedSeconds : Rat
  latencyMs : Rat
  clientQueueMs : Option Rat
  transportMs : Option Rat
  transportAttempted : Option Bool
  workflowNumber : Option Int

/-- `summary.json`, with the fields that are read here. -/
structure Summary where
  status : Str
  live : Bool
  workloadHttpRequests : Int
  admittedWorkflows : Int
  skippedWorkflows : Int

/-- `comparison-context.json`: whether it is there and stable, and its digests. -/
structure Context where
  available : Bool
  stable : Bool
  before : String → Str

structure Run where
  runId : Str
  summary : Summary
  plan : Plan
  operations : List Operation
  context : Context
  requests : List Request
  timeline : List Row

/-- `require(condition, code)` -/
def require (c : Prop) [Decidable c] (code : String) : Except String Unit :=
  if c then .ok () else .error code

/-- `number(value, code, maximum)` -/
def number (v : Rat) (code : String) (maximum : Rat) : Except String Rat :=
  if 0 ≤ v ∧ v ≤ maximum then .ok v else .error code

/-- `events(run, stage)`; rows of equal times keep their order. -/
def events (r : Run) (stage : String) : List Row :=
  (r.timeline.filter (·.stage = str stage)).insertionSort fun a b =>
    a.elapsedSeconds ≤ b.elapsedSeconds

/-- `run.origin()` -/
def origin (r : Run) : Except String Rat :=
  match r.timeline.filter (·.stage = str "workload_started") with
  | [row] => match row.clockOriginSeconds with
    | some t => number t "invalid_workload_origin" 100000
    | none => .error "invalid_workload_origin"
  | _ => .error "workload_origin_missing_or_duplicate"

def faultStages : List String :=
  ["fault_requested", "fault_applied", "fault_restore_requested", "fault_restore"]

def windowNames : List String :=
  ["before", "apply_transition", "fault", "restore_transition", "after"]

/-- The time of the one row of a stage. -/
def mark (r : Run) (zero : Rat) (stage : String) : Except String Rat :=
  match events r stage with
  | [row] => .ok (row.elapsedSeconds - zero)
  | _ => .error "fault_timeline_missing_or_duplicate"

/-- A window: its name, `start_seconds` and `end_seconds`. -/
abbrev Window := Tile Str Rat

/-- The windows between bounds, rounded to microseconds. -/
def windowsOf (bounds : List Rat) : List Window :=
  List.zipWith (fun n b => ⟨str n, roundTo 6 b.1, roundTo 6 b.2⟩) windowNames
    (bounds.zip bounds.tail)

/-- `aligned_windows(fault)` -/
def alignedWindows (fault : Run) : Except String (List Window) := do
  let zero ← origin fault
  let times ← faultStages.mapM (mark fault zero)
  let bounds := 0 :: times ++ [(fault.plan.seconds : Rat)]
  require (bounds.IsChain (· ≤ ·)) "fault_outside_paired_workload_window"
  return windowsOf bounds

/-- `classify(row, origin, windows)` -/
def classify (row : Request) (zero : Rat) (windows : List Window) : Str :=
  match windows.find? fun w => w.has (row.startedSeconds - zero) with
  | some w => w.label ++ if w.hi < row.finishedSeconds - zero then str ":boundary" else []
  | none => str "outside_window"

/-! ### The classes -/

/-- Windows under distinct names without a colon, none of which is that of the outside. -/
structure Named (windows : List Window) : Prop where
  distinct : (windows.map Tile.label).Nodup
  plain : ∀ w ∈ windows, 58 ∉ w.label ∧ w.label ≠ str "outside_window"

/-- The classes of the requests of a run. -/
def classes (windows : List Window) : List Str :=
  windows.map Tile.label ++ windows.map (fun w => w.label ++ str ":boundary") ++
    [str "outside_window"]

/-- The outside label has no colon. -/
lemma outside_plain : 58 ∉ str "outside_window" := by decide +kernel

/-- A boundary label has one. -/
lemma boundary_colon (s : Str) : 58 ∈ s ++ str ":boundary" :=
  List.mem_append_right _ (by decide +kernel)

section
variable {windows : List Window} {row : Request} {zero lo hi : Rat}

/-- A window is known by its label. -/
lemma Named.label_inj (h : Named windows) {w w' : Window} (m : w ∈ windows) (m' : w' ∈ windows)
    (same : w.label = w'.label) :
    w = w' := List.inj_on_of_nodup_map h.distinct m m' same

/-- No two classes have one name. -/
lemma classes_nodup (h : Named windows) : (classes windows).Nodup := by
  refine List.nodup_append.2 ⟨List.nodup_append.2 ⟨h.distinct, ?_, ?_⟩, List.nodup_singleton _, ?_⟩
  · have base := h.distinct
    have suffixed : windows.map (fun w => w.label ++ str ":boundary") =
        (windows.map Tile.label).map (· ++ str ":boundary") := by
      rw [List.map_map]
      rfl
    rw [suffixed]
    exact base.map fun a b same => List.append_cancel_right same
  · rintro a ma b mb rfl
    obtain ⟨w, mw, rfl⟩ := List.mem_map.1 ma
    obtain ⟨w', _, same⟩ := List.mem_map.1 mb
    exact (h.plain w mw).1 (same ▸ boundary_colon w'.label)
  · rintro a ma b mb rfl
    cases List.mem_singleton.1 mb
    rcases List.mem_append.1 ma with pure | boundary
    · obtain ⟨w, mw, same⟩ := List.mem_map.1 pure
      exact (h.plain w mw).2 same
    · obtain ⟨w, _, same⟩ := List.mem_map.1 boundary
      exact outside_plain (same ▸ boundary_colon w.label)

/-- Every request is in a class. -/
lemma classify_mem (row : Request) (zero : Rat) (windows : List Window) :
    classify row zero windows ∈ classes windows := by
  unfold classify classes
  split
  · rename_i w found
    have m := List.mem_of_find?_eq_some found
    split
    · exact List.mem_append_left _ (List.mem_append_right _ (List.mem_map.2 ⟨w, m, rfl⟩))
    · rw [List.append_nil]
      exact List.mem_append_left _ (List.mem_append_left _ (List.mem_map.2 ⟨w, m, rfl⟩))
  · exact List.mem_append_right _ List.mem_cons_self

/-- A request in a pure window starts and finishes inside it. -/
lemma classify_pure (named : Named windows) (tiles : Tiles lo hi windows) {w : Window}
    (m : w ∈ windows) :
    classify row zero windows = w.label ↔
      w.has (row.startedSeconds - zero) = true ∧ row.finishedSeconds - zero ≤ w.hi := by
  constructor
  · unfold classify
    split
    · rename_i w' found
      have m' := List.mem_of_find?_eq_some found
      intro label
      split at label
      · exact absurd (label ▸ boundary_colon w'.label) (named.plain w m).1
      · rename_i within
        rw [List.append_nil] at label
        cases named.label_inj m' m label
        have has := List.find?_some found
        exact ⟨has, not_lt.1 within⟩
    · exact fun label => absurd label.symm (named.plain w m).2
  · rintro ⟨has, within⟩
    rw [classify, tiles.find_eq m has]
    simp only
    rw [if_neg (not_lt.2 within), List.append_nil]

/-- A boundary request starts inside its window and finishes after it. -/
lemma classify_boundary (named : Named windows) (tiles : Tiles lo hi windows) {w : Window}
    (m : w ∈ windows) :
    classify row zero windows = w.label ++ str ":boundary" ↔
      w.has (row.startedSeconds - zero) = true ∧ w.hi < row.finishedSeconds - zero := by
  constructor
  · unfold classify
    split
    · rename_i w' found
      have m' := List.mem_of_find?_eq_some found
      intro label
      split at label
      · rename_i beyond
        cases named.label_inj m' m (List.append_cancel_right label)
        have has := List.find?_some found
        exact ⟨has, beyond⟩
      · rw [List.append_nil] at label
        exact absurd (label ▸ boundary_colon w.label) (named.plain w' m').1
    · intro label
      exact absurd (label ▸ boundary_colon w.label) outside_plain
  · rintro ⟨has, beyond⟩
    rw [classify, tiles.find_eq m has]
    simp only
    rw [if_pos beyond]

/-- A request is outside all windows where it starts outside of the whole. -/
lemma classify_outside (named : Named windows) (tiles : Tiles lo hi windows) :
    classify row zero windows = str "outside_window" ↔ row.startedSeconds - zero < lo ∨
      hi ≤ row.startedSeconds - zero := by
  rw [← tiles.find_none]
  constructor
  · unfold classify
    split
    · rename_i w found
      intro label
      have m := List.mem_of_find?_eq_some found
      split at label
      · exact absurd (label ▸ boundary_colon w.label) outside_plain
      · rw [List.append_nil] at label
        exact absurd label (named.plain w m).2
    · rename_i none
      exact fun _ => none
  · intro none
    rw [classify, none]

end

/-! ### Aligned windows -/

/-- The bounds of aligned windows, from zero to the planned seconds. -/
lemma aligned_bounds {fault : Run} {ws : List Window} (h : alignedWindows fault = .ok ws) :
    ∃ a b c d : Rat, [0, a, b, c, d, (fault.plan.seconds : Rat)].IsChain (· ≤ ·) ∧
      ws = windowsOf [0, a, b, c, d, (fault.plan.seconds : Rat)] := by
  obtain ⟨zero, _, h⟩ := bind_ok.1 h
  obtain ⟨times, marks, h⟩ := bind_ok.1 h
  obtain ⟨u, chain, h⟩ := bind_ok.1 h
  have four := (mapM_eq_ok marks).length_eq
  unfold require at chain
  split at chain
  · rename_i ordered
    match times, four, ordered, h with
    | [a, b, c, d], _, ordered, h => exact ⟨a, b, c, d, ordered, (Except.ok.inj h).symm⟩
  · cases chain

/-- The windows tile the run. -/
lemma aligned_tiles {fault : Run} {ws : List Window} (h : alignedWindows fault = .ok ws) :
    Tiles 0 (fault.plan.seconds : Rat) ws := by
  obtain ⟨a, b, c, d, chain, rfl⟩ := aligned_bounds h
  simp only [List.isChain_cons_cons, List.isChain_singleton, and_true] at chain
  obtain ⟨h₁, h₂, h₃, h₄, h₅⟩ := chain
  -- rounding keeps the order of the bounds and leaves the two ends alone
  have zero : roundTo 6 0 = 0 := by exact_mod_cast roundTo_int 6 0
  have seconds := roundTo_int 6 fault.plan.seconds
  exact ⟨zero, roundTo_mono 6 h₁, rfl, roundTo_mono 6 h₂, rfl, roundTo_mono 6 h₃, rfl,
    roundTo_mono 6 h₄, rfl, roundTo_mono 6 h₅, seconds⟩

/-- The labels of the aligned windows. -/
lemma aligned_labels {fault : Run} {ws : List Window} (h : alignedWindows fault = .ok ws) :
    ws.map Tile.label = windowNames.map str := by
  obtain ⟨a, b, c, d, _, rfl⟩ := aligned_bounds h
  rfl

/-- The aligned windows are named. -/
lemma aligned_named {fault : Run} {ws : List Window} (h : alignedWindows fault = .ok ws) :
    Named ws where
  distinct := by
    rw [aligned_labels h]
    decide +kernel
  plain := by
    have names : ∀ n ∈ windowNames.map str, 58 ∉ n ∧ n ≠ str "outside_window" := by decide +kernel
    intro w m
    apply names
    rw [← aligned_labels h]
    exact List.mem_map_of_mem m

end DbLab.Mvp.Study
