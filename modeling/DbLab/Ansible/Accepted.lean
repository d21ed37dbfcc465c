import DbLab.Ansible.Consent
import DbLab.Ansible.Controllers

/-!
# What the policy accepts, the controllers accept

The options on a planned command line are read back by the controller's parser and pass its own
checks. The seed of a transaction lesson is the exception: the policy allows thirty-two bits, the
lesson thirty-one.
-/

namespace DbLab.Ansible
open DbLab.Py

/-! ### Tables of options -/

/-- The kind under which every controller reads an option of the policy. -/
def kindOf (key : String) : Option Kind :=
  if key ∈ numeric.map Prod.fst then some .int
  else if key = "rate" then some .float
  else if key = "workload" then some (.choice workloadNames)
  else if key = "candidate_image" ∨ key = "snapshot" then some .text
  else none

/-- Every option of the table has the policy's flag and kind, and its own row. -/
def Faithful (table : ArgTable) : Prop :=
  ∀ e ∈ table, str e.1 = flagOf (str e.2.1) ∧ kindOf e.2.1 = some e.2.2 ∧ e.1 ≠ "--yes" ∧
    (table.find? fun e' => str e.1 = str e'.1) = some e

instance (table : ArgTable) : Decidable (Faithful table) :=
  inferInstanceAs (Decidable (∀ e ∈ table, str e.1 = flagOf (str e.2.1) ∧
    kindOf e.2.1 = some e.2.2 ∧ e.1 ≠ "--yes" ∧
      (table.find? fun e' => str e.1 = str e'.1) = some e))

/-- The options of `simulate` are read as they are written. -/
lemma simulateOptions_faithful : Faithful simulateOptions := by decide
/-- The options of `study` are read as they are written. -/
lemma studyOptions_faithful (run : Bool) : Faithful (studyOptions run) := by
  cases run <;> decide
/-- The options of `drills` are read as they are written. -/
lemma drillOptions_faithful (run : Bool) : Faithful (drillOptions run) := by
  cases run <;> decide

/-- What is at least `0.2` is at least one, if it is an integer. -/
lemma fifth_le {n : Int} (h : fifth ≤ n) : 1 ≤ n := by
  have pos : (0 : Rat) < n := lt_of_lt_of_le (by norm_num [fifth]) h
  have : (0 : Int) < n := by exact_mod_cast pos
  omega

/-- Each numeric option has one row in the table. -/
lemma numeric_row : ∀ e ∈ numeric, (numeric.find? fun e' => str e.1 = str e'.1) = some e := by
  simp only [str_inj]
  decide

/-- What is at most `b` is not greater than `b`. -/
lemma lt_of_le {a b : FloatView} (h : a.le b = true) : b.lt a = false := by
  cases a with
  | nan => cases h
  | inf s =>
    cases b with
    | nan => cases s <;> cases h
    | inf t => cases s <;> cases t <;> first | rfl | cases h
    | finite q => cases s <;> first | rfl | cases h
  | finite p =>
    cases b with
    | nan => cases h
    | inf t => cases t <;> first | rfl | cases h
    | finite q =>
      have le : p ≤ q := of_decide_eq_true h
      rw [FloatView.lt, FloatView.le, FloatView.eq]
      by_cases ge : q ≤ p
      · rw [decide_eq_true (le_antisymm ge le)]
        simp
      · rw [decide_eq_false ge]
        rfl

/-- A workload is one of the names. -/
lemma workload_kind : kindOf "workload" = some (.choice workloadNames) := rfl
/-- An image is a text. -/
lemma image_kind : kindOf "candidate_image" = some .text := rfl
/-- A snapshot is a text. -/
lemma snapshot_kind : kindOf "snapshot" = some .text := rfl
/-- The number of clients is an integer. -/
lemma clients_kind : kindOf "clients" = some .int := rfl
/-- A seed is an integer. -/
lemma seed_kind : kindOf "seed" = some .int := rfl

/-- Three scenarios of the simulation inject no fault. -/
lemma scenario_quiet : ∀ n ∈ ["baseline", "duplicate-retry", "version-race"],
    named ((scenarios.filter Prod.snd).map Prod.fst) (str n) = false := by
  simp only [named_str]
  decide

/-- The simulation knows every scenario that the policy allows. -/
lemma simulate_choices : ∀ n ∈ drillChoices (str "simulate"),
    named (scenarios.map Prod.fst) (str n) = true := by
  simp only [drillChoices, named_str]
  decide

/-- A study knows every scenario that the policy allows. -/
lemma study_choices : ∀ n ∈ drillChoices (str "study"),
    named studyScenarios (str n) = true ∧ named (scenarios.map Prod.fst) (str n) = true := by
  simp only [drillChoices, named_str, str_inj]
  decide

/-- The command line of `simulate` has every option that the policy allows. -/
lemma simulate_keys {verb name : Str} :
    ∀ k ∈ allowedOptions (str "simulate") verb name, ∃ e ∈ simulateOptions, k = e.2.1 := by
  change ∀ k ∈ simKeys, _
  decide

/-- The command line of `study` has every option that the policy allows. -/
lemma study_keys (verb name : Str) :
    ∀ k ∈ allowedOptions (str "study") verb name, ∃ e ∈ studyOptions (verb = str "run"),
      k = e.2.1 := by
  have other : str "study" ≠ str "simulate" := by decide
  unfold allowedOptions
  rw [if_neg other, if_pos rfl]
  by_cases run : verb = str "run"
  · rw [decide_eq_true run, if_pos run]
    decide
  · rw [decide_eq_false run, if_neg run]
    decide

/-- A lesson is a drill and a scenario of the transactions. -/
lemma lesson_words : ∀ n ∈ transactions, named drillKinds (str n) = true ∧
    named transactionScenarios (str n) = true ∧ str n ≠ str "upgrade-restore" := by
  simp only [named_str, ne_eq, str_inj]
  decide

/-- A lesson is found among the lessons. -/
lemma lesson_known : ∀ n ∈ transactions, named transactions (str n) = true :=
  fun n m => named_iff.2 ⟨n, m, rfl⟩

/-- The options of a lesson. -/
lemma lesson_allowed (verb : Str) (n : String) (mem : n ∈ transactions) :
    allowedOptions (str "drills") verb (str n) = ["clients", "seed"] := by
  have simulate : str "drills" ≠ str "simulate" := by decide
  have study : str "drills" ≠ str "study" := by decide
  unfold allowedOptions
  rw [if_neg simulate, if_neg study, if_pos rfl, if_pos (lesson_known n mem)]

/-- The command line of `drills` has the options of a lesson. -/
lemma lesson_keys (run : Bool) : ∀ k ∈ ["clients", "seed"], ∃ e ∈ drillOptions run, k = e.2.1 := by
  cases run <;> decide

/-- A trial is a drill, but no scenario of the transactions. -/
lemma trial_words : ∀ n ∈ ["backup-restore", "upgrade-restore", "redis-disk-full",
    "redis-oom", "deadlock"], named drillKinds (str n) = true ∧
      named transactionScenarios (str n) = false := by
  simp only [named_str]
  decide

/-- A trial is no lesson. -/
lemma trial_fresh : ∀ n ∈ ["backup-restore", "upgrade-restore", "redis-disk-full",
    "redis-oom", "deadlock"], named transactions (str n) = false := by
  simp only [named_str]
  decide

/-- The command line of `drills` has the options of a trial, which has no clients, seed or image of
its own. -/
lemma trial_keys (verb : Str) :
    ∀ n ∈ ["backup-restore", "upgrade-restore", "redis-disk-full", "redis-oom", "deadlock"],
      (∀ k ∈ allowedOptions (str "drills") verb (str n),
      ∃ e ∈ drillOptions (verb = str "run"), k = e.2.1) ∧
    "clients" ∉ allowedOptions (str "drills") verb (str n) ∧
      "seed" ∉ allowedOptions (str "drills") verb (str n) ∧
    (n ≠ "upgrade-restore" → "candidate_image" ∉ allowedOptions (str "drills") verb (str n)) ∧
    (named ["backup-restore", "upgrade-restore"] (str n) = false →
      "snapshot" ∉ allowedOptions (str "drills") verb (str n)) := by
  have options : ∀ n ∈ ["backup-restore", "upgrade-restore", "redis-disk-full",
    "redis-oom", "deadlock"],
      allowedOptions (str "drills") verb (str n) =
        if n = "backup-restore" ∧ verb = str "run" then ["snapshot"]
        else if n = "upgrade-restore" ∧ verb = str "run" then ["snapshot", "candidate_image"]
          else [] := by
    intro n mem
    have simulate : str "drills" ≠ str "simulate" := by decide
    have study : str "drills" ≠ str "study" := by decide
    have lesson : named transactions (str n) = false := trial_fresh n mem
    unfold allowedOptions
    rw [if_neg simulate, if_neg study, if_pos rfl, lesson]
    simp
  intro n mem
  rw [options n mem]
  by_cases run : verb = str "run"
  · rw [decide_eq_true run]
    simp only [run, and_true, named_str]
    revert n
    decide
  · simp [run]

/-- A drill is a lesson or a trial. -/
lemma drill_choices : ∀ n ∈ drillChoices (str "drills"), n ∈ transactions ∨
    n ∈ ["backup-restore", "upgrade-restore", "redis-disk-full", "redis-oom", "deadlock"] := by
  intro n m
  exact (List.mem_append.1 m).symm

/-- The three actions that have scenarios are handled as drills. -/
lemma drill_branch : ∀ a ∈ ["simulate", "study", "drills"], named plainActions (str a) = false ∧
    named serviceActions (str a) = false ∧ named drillActions (str a) = true ∧ a ≠ "verify" ∧
    (a ∈ ["simulate", "study"] → named ["simulate", "study"] (str a) = true) := by
  simp only [named_str]
  decide

/-- `plan` and `run` are handled as verbs of a scenario. -/
lemma drill_verb : ∀ v ∈ ["plan", "run"], named ["list", "recover", "prepare"] (str v) = false ∧
    named ["report", "export", "inspect", "cleanup"] (str v) = false ∧ str v ≠ str "compare" := by
  simp only [named_str, ne_eq, str_inj]
  decide

/-- A result that is tested to be one. -/
lemma isOk_ok {α : Type} {x : Except Exn α} : isOk x = true ↔ ∃ a, x = .ok a := by
  cases x with
  | ok a => exact ⟨fun _ => ⟨a, rfl⟩, fun _ => rfl⟩
  | error e => exact ⟨nofun, nofun⟩

section Accepted
variable [Interpreter]

/-! ### Reading one option back -/

/-- A value that was read back: the same one, or the float of a small integer. -/
inductive Reads : Kind → Value → Value → Prop where
  | same (kind : Kind) (v : Value) : Reads kind v v
  | rate {n : Int} {x : Interpreter.Float} : Interpreter.view x = .finite n →
      Reads .float (.int n) (.float x)

/-- Which values are integers. -/
lemma isInt_iff {v : Value} : v.isInt = true ↔ ∃ n, v = .int n := by
  cases v <;> simp [Value.isInt]

/-- The range of an integer. -/
lemma within_int {n lo hi : Int} : (Value.int n).within (.finite lo) (.finite hi) = true ↔
    lo ≤ n ∧ n ≤ hi := by
  simp [Value.within, Value.num?, Py.Num.view, FloatView.le]

/-- An integer is read back from its text. -/
lemma readArg_int {n : Int} {t : Str} (text : intRepr n = .ok t) :
    readArg .int t = some (.int n) := by
  have scan := scanNumber_int text delimited_nil
  rw [List.append_nil] at scan
  rw [readArg, scan]

/-- `math.isfinite` of a float. -/
lemma isfinite_float {x : Interpreter.Float} :
    (Value.float x).isfinite = .ok true ↔ ∃ q, Interpreter.view x = .finite q := by
  cases view : Interpreter.view x <;>
    simp [Value.isfinite, Value.num?, Py.Num.toFloat, view, pure_eq_ok]

/-- A rate in range is an integer from one to ten or a finite float. -/
lemma rate_cases {v : Value} (h : rateInRange v = .ok true) :
    (∃ n : Int, v = .int n ∧ 1 ≤ n ∧ n ≤ 10) ∨ ∃ x q, v = .float x ∧
      Interpreter.view x = .finite q := by
  obtain ⟨number, finite, range⟩ := rateInRange_ok h
  cases v with
  | int n =>
    have bounds : fifth ≤ n ∧ (n : Rat) ≤ 10 := by
      simpa [Value.within, Value.num?, Py.Num.view, FloatView.le] using range
    exact .inl ⟨n, rfl, fifth_le bounds.1, by exact_mod_cast bounds.2⟩
  | float x =>
    obtain ⟨q, view⟩ := isfinite_float.1 finite
    exact .inr ⟨x, q, rfl, view⟩
  | null => cases number
  | bool b => cases number
  | str s => cases number
  | list xs => cases number
  | dict ms => cases number

/-- A rate is read back from its text, as the same number. -/
lemma readArg_rate [FloatLaws] {v : Value} {t : Str} (range : rateInRange v = .ok true)
    (text : v.text = .ok t) :
    ∃ w, readArg .float t = some w ∧ Reads .float v w := by
  rcases rate_cases range with ⟨n, rfl, low, high⟩ | ⟨x, q, rfl, view⟩
  · obtain ⟨x, conv, view⟩ := FloatLaws.ofInt_exact n (by omega)
    have scan := scanNumber_int text delimited_nil
    rw [List.append_nil] at scan
    refine ⟨.float x, ?_, .rate view⟩
    rw [readArg, scan]
    dsimp only
    rw [conv]
    rfl
  · change floatRepr _ x = .ok t at text
    rw [floatRepr, view] at text
    cases text
    have scan := scanNumber_float view delimited_nil
    rw [List.append_nil] at scan
    refine ⟨.float x, ?_, .same _ _⟩
    rw [readArg, scan]

/-- An encoded option with a value is its flag and a text that reads back. -/
lemma encodeOption_read [FloatLaws] {key : String} {kind : Kind} {val : Value} {l : List Str}
    (known : kindOf key = some kind) (h : encodeOption (str key) val = .ok l) :
    ∃ t v, l = [flagOf (str key), t] ∧ t.head? ≠ some 45 ∧ readArg kind t = some v ∧
      Reads kind val v := by
  unfold encodeOption at h
  split at h
  · rename_i name lo hi found
    obtain ⟨e, mem⟩ := numeric_find found
    cases str_inj.1 e
    obtain ⟨_, range, h⟩ := bind_ok.1 h
    obtain ⟨t, text, h⟩ := bind_ok.1 h
    cases h
    rw [kindOf, if_pos (List.mem_map.2 ⟨_, mem, rfl⟩)] at known
    cases known
    rw [require_ok] at range
    obtain ⟨n, rfl⟩ := isInt_iff.1 ((Bool.and_eq_true _ _).mp range).1
    exact ⟨t, _, rfl, (within_count (numeric_nonneg _ mem) range text).plain,
      readArg_int text, .same _ _⟩
  split at h
  · rename_i rate
    cases str_inj.1 rate
    obtain ⟨range, inRange, h⟩ := bind_ok.1 h
    obtain ⟨_, passed, h⟩ := bind_ok.1 h
    obtain ⟨t, text, h⟩ := bind_ok.1 h
    cases h
    cases known
    cases require_ok.1 passed
    obtain ⟨v, read, reads⟩ := readArg_rate inRange text
    exact ⟨t, v, rfl, (rate_validated inRange text).plain, read, reads⟩
  split at h
  · rename_i workload
    cases str_inj.1 workload
    obtain ⟨_, passed, h⟩ := bind_ok.1 h
    obtain ⟨t, text, h⟩ := bind_ok.1 h
    cases h
    cases known
    obtain ⟨n, mem, rfl⟩ := Value.oneOf_iff.1 (require_ok.1 passed)
    cases text
    refine ⟨_, _, rfl, words_plain n (workloads_words n mem), ?_, .same _ _⟩
    exact if_pos (named_iff.2 ⟨n, mem, rfl⟩)
  split at h
  · rename_i keep
    cases str_inj.1 keep
    cases known
  split at h
  · rename_i image
    cases str_inj.1 image
    cases val with
    | str s =>
      obtain ⟨_, passed, h⟩ := bind_ok.1 h
      cases h
      cases known
      exact ⟨_, _, rfl, image_plain (require_ok.1 passed), rfl, .same _ _⟩
    | null => cases h
    | bool b => cases h
    | int n => cases h
    | float x => cases h
    | list xs => cases h
    | dict ms => cases h
  split at h
  · rename_i snapshot
    cases str_inj.1 snapshot
    obtain ⟨t, path, h⟩ := bind_ok.1 h
    cases h
    cases known
    obtain ⟨rfl, _, head⟩ := absolute_ok path
    exact ⟨t, _, rfl, by rw [head]; nofun, rfl, .same _ _⟩
  · cases h

/-! ### Reading all options back -/

/-- The attributes `fields` are the options `opts` with the keys `ks`. -/
def ReadBack (opts : Fields) (ks : List Str) (fields : Fields) : Prop :=
  ∀ k, match lookup k fields with
    | some v =>
      k ∈ ks ∧ ∃ key kind w, k = str key ∧ kindOf key = some kind ∧ lookup k opts = some w ∧
        Reads kind w v
    | none => k ∉ ks

/-- An option is there just if it is found. -/
lemma at_ok {opts : Fields} {k : Str} {v : Value} : opts.at k = .ok v ↔ lookup k opts = some v := by
  unfold Fields.at
  cases lookup k opts <;> simp

/-- The words of the encoded options are read as the options. -/
lemma readOptions_encoded [FloatLaws] {table : ArgTable} {opts : Fields} (faithful : Faithful table)
    {ks : List Str} (nodup : ks.Nodup) {ls : List (List Str)}
    (known : ∀ k ∈ ks, ∃ e ∈ table, k = str e.2.1)
    (h : (ks.mapM fun key => do encodeOption key (← opts.at key)) = .ok ls) :
    ∃ fields, readOptions table ls.flatten = some (false, fields) ∧ ReadBack opts ks fields := by
  induction ks generalizing ls with
  | nil =>
    cases h
    exact ⟨[], rfl, fun k => List.not_mem_nil⟩
  | cons k ks ih =>
    rw [List.mapM_cons] at h
    obtain ⟨l, one, h⟩ := bind_ok.1 h
    obtain ⟨ls', rest, h⟩ := bind_ok.1 h
    cases h
    obtain ⟨val, present, encode⟩ := bind_ok.1 one
    obtain ⟨fresh, nodup⟩ := List.nodup_cons.1 nodup
    obtain ⟨fields, read, back⟩ := ih nodup (fun k' m => known k' (List.mem_cons_of_mem _ m)) rest
    obtain ⟨e, mem, rfl⟩ := known k List.mem_cons_self
    obtain ⟨flag, kind, notYes, row⟩ := faithful e mem
    obtain ⟨t, v, rfl, plain, arg, reads⟩ := encodeOption_read kind encode
    have absent : lookup (str e.2.1) fields = none := by
      have here := back (str e.2.1)
      cases found : lookup (str e.2.1) fields with
      | none => rfl
      | some w =>
        rw [found] at here
        exact absurd here.1 fresh
    refine ⟨(str e.2.1, v) :: fields, ?_, ?_⟩
    · rw [← flag, List.flatten_cons, List.cons_append, List.cons_append,
        List.nil_append, readOptions, if_neg (mt str_inj.1 notYes), if_neg plain, row]
      dsimp only
      rw [arg, read]
      dsimp only
      rw [absent]
      rfl
    · intro k'
      rw [lookup]
      by_cases same : str e.2.1 = k'
      · rw [if_pos same]
        exact ⟨same ▸ List.mem_cons_self, _, _, val, same.symm, kind, same ▸ at_ok.1 present, reads⟩
      · rw [if_neg same]
        have there := back k'
        cases found : lookup k' fields with
        | none =>
          rw [found] at there
          exact fun m => (List.mem_cons.1 m).elim (fun e' => same e'.symm) there
        | some w =>
          rw [found] at there
          exact ⟨List.mem_cons_of_mem _ there.1, there.2⟩

/-! ### Options in range -/

/-- The option of an accepted mapping went through its check. -/
lemma encoded_at {opts : Fields} {allowed : List String} {l : List Str}
    (h : encodeOptions opts allowed = .ok l)
    {k : Str} {v : Value} (found : lookup k opts = some v) : ∃ a, encodeOption k v = .ok a := by
  obtain ⟨_, _, h⟩ := bind_ok.1 h
  obtain ⟨ls, each, _⟩ := bind_ok.1 h
  obtain ⟨a, one⟩ :=
    mapM_mem_ok each k (Fields.mem_sorted.2 (List.mem_map.2 ⟨_, lookup_mem found, rfl⟩))
  obtain ⟨v', present, encode⟩ := bind_ok.1 one
  rw [at_ok, found, Option.some_inj] at present
  exact ⟨a, present ▸ encode⟩

/-- What an accepted mapping has at a numeric option, the default standing in for an absent one. -/
lemma numeric_value {opts : Fields} {allowed : List String} {l : List Str}
    (h : encodeOptions opts allowed = .ok l) (k : String) (lo hi d : Int)
    (row : (k, lo, hi) ∈ numeric)
    (low : lo ≤ d) (high : d ≤ hi) : ∃ n, opts.getD k (.int d) = .int n ∧ lo ≤ n ∧ n ≤ hi := by
  unfold Fields.getD
  cases found : lookup (str k) opts with
  | none => exact ⟨d, rfl, low, high⟩
  | some v =>
    obtain ⟨a, encode⟩ := encoded_at h found
    unfold encodeOption at encode
    rw [numeric_row _ row] at encode
    obtain ⟨_, range, _⟩ := bind_ok.1 encode
    rw [require_ok, Bool.and_eq_true] at range
    obtain ⟨n, rfl⟩ := isInt_iff.1 range.1
    exact ⟨n, rfl, within_int.1 range.2⟩

/-- A finite number in the range of the rates is a rate. -/
lemma rateInRange_of {v : Value} (number : v.isNumber = true) (finite : v.isfinite = .ok true)
    (range : v.within (.finite fifth) (.finite 10) = true) : rateInRange v = .ok true := by
  rw [rateInRange, if_pos number, finite]
  exact congrArg Except.ok range

/-- What an accepted mapping has at `rate`. -/
lemma rate_value [FloatLaws] {opts : Fields} {allowed : List String} {l : List Str}
    (h : encodeOptions opts allowed = .ok l) :
    rateInRange (opts.getD "rate" (.int 2)) = .ok true := by
  unfold Fields.getD
  cases found : lookup (str "rate") opts with
  | none =>
    obtain ⟨x, conv, view⟩ := FloatLaws.ofInt_exact 2 (by decide)
    have finite : (Value.int 2).isfinite = .ok true := by
      simp [Value.isfinite, Value.num?, Py.Num.toFloat, conv, view, pure_eq_ok]
    have range : (Value.int 2).within (.finite fifth) (.finite 10) = true := by
      simp only [Value.within, Value.num?, Py.Num.view, FloatView.le, Bool.and_eq_true,
        decide_eq_true_eq, fifth]
      norm_num
    exact rateInRange_of rfl finite range
  | some v =>
    obtain ⟨a, encode⟩ := encoded_at h found
    have row : (numeric.find? fun e => str "rate" = str e.1) = none := by
      simp only [str_inj]
      decide
    unfold encodeOption at encode
    rw [row] at encode
    obtain ⟨range, inRange, encode⟩ := bind_ok.1 encode
    obtain ⟨_, passed, _⟩ := bind_ok.1 encode
    cases require_ok.1 passed
    exact inRange

/-- What an accepted mapping has at `workload`. -/
lemma workload_value {opts : Fields} {allowed : List String} {l : List Str}
    (h : encodeOptions opts allowed = .ok l) :
    (opts.getD "workload" (.str (str "mixed"))).oneOf workloads = true := by
  unfold Fields.getD
  cases found : lookup (str "workload") opts with
  | none => exact Value.oneOf_iff.2 ⟨"mixed", by decide, rfl⟩
  | some v =>
    obtain ⟨a, encode⟩ := encoded_at h found
    have row : (numeric.find? fun e => str "workload" = str e.1) = none := by
      simp only [str_inj]
      decide
    unfold encodeOption at encode
    rw [row] at encode
    obtain ⟨_, passed, _⟩ := bind_ok.1 encode
    exact require_ok.1 passed

/-- An option that is no rate is read back as it was given. -/
lemma ReadBack.found {opts fields : Fields} (back : ReadBack opts opts.sorted fields) {key : String}
    {kind : Kind}
    (known : kindOf key = some kind) (exact_ : kind ≠ .float) :
    lookup (str key) fields = lookup (str key) opts := by
  have here := back (str key)
  cases found : lookup (str key) fields with
  | none =>
    rw [found] at here
    rw [lookup_eq_none.2 fun m => here (Fields.mem_sorted.2 m)]
  | some v =>
    rw [found] at here
    obtain ⟨_, key', kind', w, e, known', present, reads⟩ := here
    cases str_inj.1 e
    cases known.symm.trans known'
    rw [present]
    cases reads with
    | same => rfl
    | rate _ => exact absurd rfl exact_

/-- The same with a default in its place. -/
lemma ReadBack.same {opts fields : Fields} (back : ReadBack opts opts.sorted fields) {key : String}
    {kind : Kind}
    (known : kindOf key = some kind) (exact_ : kind ≠ .float) (d : Value) :
    fields.getD key d = opts.getD key d := by
  rw [Fields.getD, Fields.getD, back.found known exact_]

/-- A rate is read back as the same number. -/
lemma ReadBack.rate {opts fields : Fields} (back : ReadBack opts opts.sorted fields) (d : Value) :
    Reads .float (opts.getD "rate" d) (fields.getD "rate" d) := by
  have here := back (str "rate")
  unfold Fields.getD
  cases found : lookup (str "rate") fields with
  | none =>
    rw [found] at here
    rw [lookup_eq_none.2 fun m => here (Fields.mem_sorted.2 m)]
    exact .same _ _
  | some v =>
    rw [found] at here
    obtain ⟨_, key, kind, w, e, known, present, reads⟩ := here
    cases str_inj.1 e
    cases known
    rw [present]
    exact reads

/-! ### `validate` -/

/-- The float of an admitted integer rate is admitted. -/
lemma rate_read [FloatLaws] {v w : Value} (range : rateInRange v = .ok true)
    (reads : Reads .float v w) :
    rateInRange w = .ok true := by
  cases reads with
  | same => exact range
  | @rate n x view =>
    have bounds := (rateInRange_ok range).2.2
    have finite : (Value.float x).isfinite = .ok true := isfinite_float.2 ⟨_, view⟩
    have within : (Value.float x).within (.finite fifth) (.finite 10) = true := by
      rw [← bounds]
      simp only [Value.within, Value.num?, Py.Num.view, view]
    exact rateInRange_of rfl finite within

/-- The budget the policy grants is granted again by the controller, which multiplies in floats. -/
lemma budget_read [FloatLaws] {s : Int} {v w total : Value} (small : 15 ≤ s ∧ s ≤ 180)
    (range : rateInRange v = .ok true) (reads : Reads .float v w)
    (mul : (Value.int s).mul v = .ok total)
    (le : total.le (.int 400) = .ok true) :
    ∃ total', (Value.int s).mul w = .ok total' ∧ (Value.int 400).lt total' = .ok false := by
  cases reads with
  | same =>
    refine ⟨total, mul, ?_⟩
    unfold Value.le at le
    unfold Value.lt
    cases num : total.num? with
    | none =>
      rw [num] at le
      cases le
    | some a =>
      rw [num] at le
      exact congrArg Except.ok (lt_of_le (Except.ok.inj le))
  | @rate n x view =>
    obtain ⟨low, high⟩ : 1 ≤ n ∧ n ≤ 10 := by
      rcases rate_cases range with ⟨m, e, low, high⟩ | ⟨_, _, e, _⟩
      · cases e
        exact ⟨low, high⟩
      · cases e
    have product : s * n ≤ 400 := by
      cases mul
      have le : ((s * n : Int) : Rat) ≤ (400 : Int) := of_decide_eq_true (Except.ok.inj le)
      exact_mod_cast le
    obtain ⟨y, conv, viewY⟩ := FloatLaws.ofInt_exact s (by omega)
    have bound : (s * n).natAbs ≤ 2 ^ 53 := by
      have : 0 ≤ s * n := Int.mul_nonneg (by omega) (by omega)
      omega
    have exact_ := FloatLaws.mul_exact y x s n viewY view bound
    refine ⟨.float (Interpreter.mul y x), ?_, ?_⟩
    · change (do return Py.Num.toValue (← Py.Num.mul (.int s) (.float x))) = _
      rw [Py.Num.mul, Py.Num.toFloat, conv]
      · rfl
      · nofun
    · change Except.ok (FloatView.lt (.finite (400 : Int))
        (Interpreter.view (Interpreter.mul y x))) = _
      rw [exact_]
      congr 1
      apply lt_of_le
      exact decide_eq_true (by exact_mod_cast product)

/-- An integer with a default is read back. -/
lemma readBack_int {opts fields : Fields} (back : ReadBack opts opts.sorted fields)
    {k : String} {d n : Int}
    (known : kindOf k = some .int) (value : opts.getD k (.int d) = .int n) :
    fields.getD k (.int d) = .int n := by
  rw [back.same known nofun, value]

/-- The order of integers as values. -/
lemma lt_int {m n : Int} : (Value.int m).lt (.int n) = .ok (decide (m < n)) := by
  change Except.ok (FloatView.lt (.finite m) (.finite n)) = _
  congr 1
  rw [Bool.eq_iff_iff, FloatView.lt, FloatView.le, FloatView.eq]
  simp only [Bool.and_eq_true, Bool.not_eq_true', decide_eq_true_eq,
    decide_eq_false_iff_not, Int.cast_le, Int.cast_inj]
  omega

/-- The order of integers as values. -/
lemma le_int {m n : Int} : (Value.int m).le (.int n) = .ok (decide (m ≤ n)) := by
  change Except.ok (decide ((m : Rat) ≤ n)) = _
  simp only [Int.cast_le]

/-- The bounds that `build_plan` checks across fields are those of `Plan.validate`. -/
lemma validate_ok [FloatLaws] {opts fields : Fields} {allowed : List String} {l : List Str}
    {name : Str} {u : Unit}
    (encoded : encodeOptions opts allowed = .ok l) (bounds : boundedPlan name opts = .ok u)
    (back : ReadBack opts opts.sorted fields) (known : named (scenarios.map Prod.fst) name = true) :
    (SimPlan.of name fields).validate = .ok () := by
  obtain ⟨seed, seedE, seedR⟩ :=
    numeric_value encoded "seed" 0 (2 ^ 32 - 1) 42 (by decide) (by decide) (by decide)
  obtain ⟨seconds, secondsE, secondsR⟩ :=
    numeric_value encoded "seconds" 15 180 40 (by decide) (by decide) (by decide)
  obtain ⟨workers, workersE, workersR⟩ :=
    numeric_value encoded "workers" 1 8 4 (by decide) (by decide) (by decide)
  obtain ⟨faultAt, faultAtE, faultAtR⟩ :=
    numeric_value encoded "fault_at" 1 179 8 (by decide) (by decide) (by decide)
  obtain ⟨faultFor, faultForE, faultForR⟩ :=
    numeric_value encoded "fault_for" 1 30 10 (by decide) (by decide) (by decide)
  obtain ⟨recovery, recoveryE, recoveryR⟩ :=
    numeric_value encoded "recovery_timeout" 5 300 90 (by decide) (by decide) (by decide)
  have rate := rate_value encoded
  have rateBack := back.rate (.int 2)
  unfold boundedPlan at bounds
  rw [secondsE, workersE, faultAtE, faultForE] at bounds
  obtain ⟨total, mul, bounds⟩ := bind_ok.1 bounds
  obtain ⟨inBudget, le, bounds⟩ := bind_ok.1 bounds
  obtain ⟨_, budget, bounds⟩ := bind_ok.1 bounds
  obtain ⟨before, lt, bounds⟩ := bind_ok.1 bounds
  obtain ⟨_, inside, bounds⟩ := bind_ok.1 bounds
  obtain ⟨_, sum, bounds⟩ := bind_ok.1 bounds
  cases sum
  obtain ⟨_, sum, bounds⟩ := bind_ok.1 bounds
  cases sum
  obtain ⟨observed, fits, bounds⟩ := bind_ok.1 bounds
  obtain ⟨_, observation, bounds⟩ := bind_ok.1 bounds
  obtain ⟨two, enough, slots⟩ := bind_ok.1 bounds
  rw [require_ok] at budget inside observation slots
  cases budget
  cases inside
  rw [lt_int] at lt
  have before : faultAt < seconds := of_decide_eq_true (Except.ok.inj lt)
  obtain ⟨total', mul', high⟩ := budget_read secondsR rate rateBack mul le
  unfold SimPlan.validate SimPlan.of
  dsimp only
  rw [readBack_int back (by decide) seedE, readBack_int back (by decide) secondsE,
    readBack_int back (by decide) workersE, readBack_int back (by decide) faultAtE,
    readBack_int back (by decide) faultForE, readBack_int back (by decide) recoveryE]
  refine bind_ok.2 ⟨(), require_ok.2 ?_, ?_⟩
  · rw [known, back.same workload_kind nofun]
    exact workload_value encoded
  refine bind_ok.2 ⟨(), forM_ok ?_, ?_⟩
  · intro e m
    apply require_ok.2
    revert e
    simp [Value.isInt]
  rw [lt_int, le_int]
  refine bind_ok.2 ⟨_, rfl, bind_ok.2 ⟨_, rfl, bind_ok.2 ⟨(), require_ok.2 ?_, ?_⟩⟩⟩
  · simp only [Bool.and_eq_true, decide_eq_true_eq]
    exact ⟨⟨⟨⟨⟨⟨within_int.2 seedR, within_int.2 secondsR⟩, within_int.2 workersR⟩,
      within_int.2 faultForR⟩, faultAtR.1⟩, before⟩, within_int.2 recoveryR⟩
  refine bind_ok.2 ⟨true, rate_read rate rateBack, bind_ok.2 ⟨(), require_ok.2 rfl, ?_⟩⟩
  rw [lt_int]
  refine bind_ok.2 ⟨_, rfl, bind_ok.2 ⟨(), require_ok.2 ?_, ?_⟩⟩
  · rw [le_int] at enough
    cases enough
    rw [Bool.or_eq_true] at slots ⊢
    refine slots.imp id fun two => ?_
    rw [Bool.not_eq_true', decide_eq_false_iff_not]
    exact not_lt.2 (of_decide_eq_true two)
  refine bind_ok.2 ⟨total', mul', bind_ok.2 ⟨false, high, bind_ok.2 ⟨(), require_ok.2 rfl, ?_⟩⟩⟩
  refine bind_ok.2 ⟨_, rfl, bind_ok.2 ⟨_, rfl, ?_⟩⟩
  refine bind_ok.2 ⟨_, lt_int, require_ok.2 ?_⟩
  rw [Bool.not_eq_true', Bool.and_eq_false_iff]
  rw [Bool.or_eq_true] at observation
  rcases observation with quiet | observed
  · obtain ⟨n, mem, rfl⟩ := named_iff.1 quiet
    exact .inl (scenario_quiet n mem)
  · change (Value.int (faultAt + faultFor + 5)).le (.int seconds) = .ok _ at fits
    rw [le_int] at fits
    cases fits
    exact .inr (decide_eq_false (not_lt.2 (of_decide_eq_true observed)))

/-! ### The command line of a plan -/

/-- A consent in front of the options. -/
lemma readOptions_yes {table : ArgTable} {l : List Str} {fields : Fields}
    (h : readOptions table l = some (false, fields)) :
    readOptions table (str "--yes" :: l) = some (true, fields) := by
  cases l with
  | nil =>
    cases h
    exact if_pos rfl
  | cons v r =>
    rw [readOptions, if_pos rfl, h]
    rfl

/-- The parser reads what the policy wrote behind the scenario. -/
lemma parseArgs_plan [FloatLaws] {choices : List String} {table : ArgTable} {opts : Fields}
    {allowed : List String}
    {l : List Str} {verb name : Str} (faithful : Faithful table)
    (known : ∀ k ∈ allowed, ∃ e ∈ table, k = e.2.1) (encoded : encodeOptions opts allowed = .ok l)
    (choice : named choices name = true) :
    ∃ fields, parseArgs choices table (verb = str "run")
        (name :: (whenever (verb = str "run") "--yes" ++ l)) = some (name, fields) ∧
      ReadBack opts opts.sorted fields := by
  obtain ⟨_, keys, encoded⟩ := bind_ok.1 encoded
  obtain ⟨ls, each, encoded⟩ := bind_ok.1 encoded
  cases encoded
  rw [require_ok, List.all_eq_true] at keys
  have known : ∀ k ∈ opts.sorted, ∃ e ∈ table, k = str e.2.1 := by
    intro k m
    obtain ⟨e, me, rfl⟩ := List.mem_map.1 (Fields.mem_sorted.1 m)
    obtain ⟨n, mn, same⟩ := named_iff.1 (keys e me)
    obtain ⟨row, mr, rfl⟩ := known n mn
    exact ⟨row, mr, same⟩
  obtain ⟨fields, read, back⟩ := readOptions_encoded faithful (Fields.sorted_nodup opts) known each
  refine ⟨fields, ?_, back⟩
  rw [parseArgs, if_pos choice]
  by_cases run : verb = str "run"
  · have yes : readOptions table (whenever (verb = str "run") "--yes" ++ ls.flatten) =
        some (true, fields) := by
      rw [decide_eq_true run]
      exact readOptions_yes read
    rw [yes, decide_eq_true run]
    rfl
  · rw [decide_eq_false run]
    rw [show whenever false "--yes" ++ ls.flatten = ls.flatten from rfl, read]
    rfl

/-- The seed of the request is beyond the thirty-one bits of a transaction lesson. -/
def LateSeed (params : Fields) : Prop :=
  ∃ req n, request params = .ok req ∧ lookup (str "seed") req.opts = some (.int n) ∧ 2 ^ 31 ≤ n

/-- `simulate` accepts the words of a plan that the policy accepts. -/
lemma simulate_accepts [FloatLaws] {opts : Fields} {l : List Str} {verb name : Str} {u : Unit}
    (encoded : encodeOptions opts (allowedOptions (str "simulate") verb name) = .ok l)
    (bounds : boundedPlan name opts = .ok u)
    (known : named (drillChoices (str "simulate")) name = true) :
    simulateCli (verb = str "run") (name :: (whenever (verb = str "run") "--yes" ++ l)) = true := by
  obtain ⟨n, mem, rfl⟩ := named_iff.1 known
  have choice : named (scenarios.map Prod.fst) (str n) = true := simulate_choices n mem
  obtain ⟨fields, parsed, back⟩ :=
    parseArgs_plan simulateOptions_faithful simulate_keys encoded choice
  rw [simulateCli, parsed]
  exact isOk_ok.2 ⟨_, validate_ok encoded bounds back choice⟩

/-- `study` accepts the words of a plan that the policy accepts. -/
lemma study_accepts [FloatLaws] {opts : Fields} {l : List Str} {verb name : Str} {u : Unit}
    (encoded : encodeOptions opts (allowedOptions (str "study") verb name) = .ok l)
    (bounds : boundedPlan name opts = .ok u)
    (known : named (drillChoices (str "study")) name = true) :
    studyCli (verb = str "run") (name :: (whenever (verb = str "run") "--yes" ++ l)) = true := by
  obtain ⟨n, mem, rfl⟩ := named_iff.1 known
  obtain ⟨choice, scenario⟩ := study_choices n mem
  obtain ⟨fields, parsed, back⟩ := parseArgs_plan (studyOptions_faithful (verb = str "run"))
    (study_keys verb (str n)) encoded choice
  rw [studyCli, parsed]
  obtain ⟨t, value, range⟩ :=
    numeric_value encoded "step_timeout" 120 1200 650 (by decide) (by decide) (by decide)
  have timeout := readBack_int back (by decide) value
  dsimp only
  rw [isOk_ok.2 ⟨_, validate_ok encoded bounds back scenario⟩, timeout]
  rw [Bool.true_and, Bool.or_eq_true, Bool.and_eq_true]
  exact .inr ⟨rfl, within_int.2 range⟩

/-- No option outside the allowed ones. -/
lemma encodeOptions_absent {opts : Fields} {allowed : List String} {l : List Str}
    (h : encodeOptions opts allowed = .ok l) {key : String} (absent : key ∉ allowed) :
    lookup (str key) opts = none := by
  obtain ⟨_, keys, _⟩ := bind_ok.1 h
  rw [require_ok, List.all_eq_true] at keys
  rw [lookup_eq_none]
  intro m
  obtain ⟨e, me, same⟩ := List.mem_map.1 m
  obtain ⟨n, mn, e'⟩ := named_iff.1 (keys e me)
  exact absent (str_inj.1 (same.symm.trans e') ▸ mn)

/-- An image that the policy encodes is one that the controller takes. -/
lemma candidate_value {opts : Fields} {allowed : List String} {l : List Str}
    (h : encodeOptions opts allowed = .ok l) {v : Value}
    (found : lookup (str "candidate_image") opts = some v) :
    candidate v = .ok () := by
  obtain ⟨a, encode⟩ := encoded_at h found
  have row : (numeric.find? fun e => str "candidate_image" = str e.1) = none := by
    simp only [str_inj]
    decide
  unfold encodeOption at encode
  rw [row] at encode
  simp only at encode
  rw [if_neg (by decide), if_neg (by decide), if_neg (by decide), if_pos trivial] at encode
  split at encode
  · obtain ⟨_, passed, _⟩ := bind_ok.1 encode
    exact require_ok.2 (require_ok.1 passed)
  · cases encode

/-- The options of a lesson are accepted just if the seed is below `2^31`. -/
lemma txOptions_iff {scenario : Str} {clients seed : Int}
    (known : named transactionScenarios scenario = true)
    (range : 2 ≤ clients ∧ clients ≤ 8) (low : 0 ≤ seed) :
    isOk (txOptions scenario (.int clients) (.int seed)) = true ↔ seed ≤ 2 ^ 31 - 1 := by
  rw [isOk_ok]
  constructor
  · rintro ⟨_, h⟩
    obtain ⟨_, _, h⟩ := bind_ok.1 h
    obtain ⟨_, _, h⟩ := bind_ok.1 h
    exact (within_int.1 ((Bool.and_eq_true _ _).mp (require_ok.1 h)).2).2
  · intro high
    refine ⟨(), bind_ok.2 ⟨(), require_ok.2 known,
      bind_ok.2 ⟨(), require_ok.2 ?_, require_ok.2 ?_⟩⟩⟩
    · exact (Bool.and_eq_true _ _).mpr ⟨rfl, within_int.2 range⟩
    · exact (Bool.and_eq_true _ _).mpr ⟨rfl, within_int.2 ⟨low, high⟩⟩

/-- `drills` accepts the words of a lesson just if its seed is not too late. -/
lemma lesson_accepts [FloatLaws] {opts : Fields} {l : List Str} {verb : Str} {n : String}
    (lesson : n ∈ transactions)
    (encoded : encodeOptions opts (allowedOptions (str "drills") verb (str n)) = .ok l) :
    drillsCli (verb = str "run") (str n :: (whenever (verb = str "run") "--yes" ++ l)) = true ↔
      ¬ ∃ s, lookup (str "seed") opts = some (.int s) ∧ 2 ^ 31 ≤ s := by
  obtain ⟨choice, scenario, fresh⟩ := lesson_words n lesson
  rw [lesson_allowed verb n lesson] at encoded
  obtain ⟨fields, parsed, back⟩ := parseArgs_plan (drillOptions_faithful (verb = str "run"))
    (lesson_keys (verb = str "run")) encoded choice
  obtain ⟨clients, clientsE, clientsR⟩ :=
    numeric_value encoded "clients" 2 8 4 (by decide) (by decide) (by decide)
  obtain ⟨seed, seedE, seedR⟩ :=
    numeric_value encoded "seed" 0 (2 ^ 32 - 1) 42 (by decide) (by decide) (by decide)
  have image : fields.getD "candidate_image" .null = .null := by
    rw [back.same image_kind nofun, Fields.getD, encodeOptions_absent encoded (by decide)]
    rfl
  have snapshot : fields.getD "snapshot" .null = .null := by
    rw [back.same snapshot_kind nofun, Fields.getD, encodeOptions_absent encoded (by decide)]
    rfl
  have late : (∃ s, lookup (str "seed") opts = some (.int s) ∧ 2 ^ 31 ≤ s) ↔ 2 ^ 31 ≤ seed := by
    unfold Fields.getD at seedE
    cases found : lookup (str "seed") opts with
    | none =>
      rw [found] at seedE
      cases seedE
      exact ⟨fun ⟨_, e, _⟩ => (nomatch e), fun h => absurd h (by decide)⟩
    | some v =>
      rw [found] at seedE
      cases seedE
      exact ⟨fun ⟨_, e, le⟩ => by cases e; exact le, fun le => ⟨_, rfl, le⟩⟩
  have rest : (!decide (verb = str "run") ||
      (if str n = str "upgrade-restore" then isOk (candidate (fields.getD "candidate_image" .null))
        else !(fields.getD "candidate_image" .null).truthy) &&
        (!(fields.getD "snapshot" .null).truthy ||
          named ["backup-restore", "upgrade-restore"] (str n))) = true := by
    rw [image, snapshot, if_neg fresh]
    simp [Value.truthy]
  rw [drillsCli, parsed]
  dsimp only
  rw [rest, Bool.and_true, if_pos scenario, readBack_int back (by decide) clientsE,
    readBack_int back (by decide) seedE, txOptions_iff scenario clientsR seedR.1, late, not_le]
  omega

/-- `drills` accepts the words of every trial. -/
lemma trial_accepts [FloatLaws] {opts : Fields} {l : List Str} {verb : Str} {n : String}
    (trial : n ∈ ["backup-restore", "upgrade-restore", "redis-disk-full", "redis-oom", "deadlock"])
    (encoded : encodeOptions opts (allowedOptions (str "drills") verb (str n)) = .ok l)
    (image : needsImage (str "drills") verb (str n) = true →
      (lookup (str "candidate_image") opts).isSome = true) :
    drillsCli (verb = str "run") (str n :: (whenever (verb = str "run") "--yes" ++ l)) = true ∧
      lookup (str "seed") opts = none := by
  obtain ⟨choice, scenario⟩ := trial_words n trial
  obtain ⟨keys, noClients, noSeed, noImage, noSnapshot⟩ := trial_keys verb n trial
  obtain ⟨fields, parsed, back⟩ :=
    parseArgs_plan (drillOptions_faithful (verb = str "run")) keys encoded choice
  have seed := encodeOptions_absent encoded noSeed
  refine ⟨?_, seed⟩
  have seedless : (lookup (str "seed") fields).isNone = true := by
    rw [back.found seed_kind nofun, seed]
    rfl
  have clientless : (lookup (str "clients") fields).isNone = true := by
    rw [back.found clients_kind nofun, encodeOptions_absent encoded noClients]
    rfl
  rw [drillsCli, parsed]
  dsimp only
  rw [if_neg (by rw [scenario]; nofun), seedless, clientless, Bool.and_self, Bool.true_and]
  by_cases run : verb = str "run"
  · rw [decide_eq_true run, Bool.not_true, Bool.false_or, back.same image_kind nofun,
      back.same snapshot_kind nofun, Bool.and_eq_true]
    constructor
    · by_cases upgrade : str n = str "upgrade-restore"
      · rw [if_pos upgrade]
        obtain ⟨v, found⟩ :=
          Option.isSome_iff_exists.1 (image (by rw [needsImage, upgrade, decide_eq_true run]; rfl))
        rw [Fields.getD, found, Option.getD_some]
        exact isOk_ok.2 ⟨(), candidate_value encoded found⟩
      · rw [if_neg upgrade, Fields.getD,
          encodeOptions_absent encoded (noImage (mt (congrArg str) upgrade))]
        rfl
    · by_cases restore : named ["backup-restore", "upgrade-restore"] (str n) = true
      · rw [restore, Bool.or_true]
      · rw [Fields.getD, encodeOptions_absent encoded (noSnapshot (by simpa using restore))]
        rfl
  · rw [decide_eq_false run]
    rfl

/-- `drills` accepts the words of a drill just if it is no lesson with a late seed. -/
lemma drills_accepts [FloatLaws] {opts : Fields} {l : List Str} {verb name : Str}
    (encoded : encodeOptions opts (allowedOptions (str "drills") verb name) = .ok l)
    (image : needsImage (str "drills") verb name = true →
      (lookup (str "candidate_image") opts).isSome = true)
    (known : named (drillChoices (str "drills")) name = true) :
    drillsCli (verb = str "run") (name :: (whenever (verb = str "run") "--yes" ++ l)) = true ↔
      ¬ ∃ s, lookup (str "seed") opts = some (.int s) ∧ 2 ^ 31 ≤ s := by
  obtain ⟨n, mem, rfl⟩ := named_iff.1 known
  rcases drill_choices n mem with lesson | trial
  · exact lesson_accepts lesson encoded
  · obtain ⟨accepted, seedless⟩ := trial_accepts trial encoded image
    rw [accepted, seedless]
    exact ⟨fun _ ⟨_, e, _⟩ => (nomatch e), fun _ => rfl⟩

/-! ### Plans -/

/-- The drill command of an accepted request, and what was checked about it. -/
lemma scenario_plan {root : Str} {req : Request} {d : Draft} {a v : String}
    (action : req.action = str a) (drill : a ∈ ["simulate", "study", "drills"])
    (verb : req.verb = some (str v))
    (run : v ∈ ["plan", "run"]) (h : mvpDraft (base root) req = .ok d) :
    ∃ name l, d.commands = [base root ++ (str "mvp" :: str a :: str v :: name ::
        (whenever (str v = str "run") "--yes" ++ l))] ∧
      named (drillChoices (str a)) name = true ∧
      encodeOptions req.opts (allowedOptions (str a) (str v) name) = .ok l ∧
      (needsImage (str a) (str v) name = true →
        (lookup (str "candidate_image") req.opts).isSome = true) ∧
      (a ∈ ["simulate", "study"] → boundedPlan name req.opts = .ok ()) := by
  obtain ⟨draft, branch, h⟩ := bind_ok.1 h
  obtain ⟨l, encoded, h⟩ := bind_ok.1 h
  obtain ⟨_, checked, h⟩ := bind_ok.1 h
  cases h
  obtain ⟨notPlain, notService, isDrill, notVerify, isBounded⟩ := drill_branch a drill
  obtain ⟨notBare, notRun, notCompare⟩ := drill_verb v run
  unfold mvpBranch at branch
  rw [action, if_neg (by rw [notPlain]; nofun), if_neg (by rw [notService]; nofun),
    if_pos isDrill, drillDraft, verb] at branch
  dsimp only at branch
  split at branch
  · cases branch
  have bare : ¬ named ["list", "recover", "prepare"] (str v) = true := by rw [notBare]; nofun
  have ofRun : ¬ named ["report", "export", "inspect", "cleanup"] (str v) = true := by
    rw [notRun]; nofun
  rw [if_neg bare, if_neg ofRun] at branch
  obtain ⟨name, known, _, image, rfl⟩ := scenarioDraft_ok branch
  rw [action] at known image
  dsimp only [Draft.of] at encoded checked ⊢
  rw [action] at encoded ⊢
  refine ⟨name, l, ?_, known, encoded, image, ?_⟩
  · rw [List.append_assoc]
    rfl
  · intro simulated
    rw [boundedCheck, bounded, action, isBounded simulated, verb] at checked
    have inRun : named ["plan", "run"] (str v) = true := named_iff.2 ⟨v, run, rfl⟩
    rw [Bool.true_and, Option.any_some, inRun, if_pos rfl] at checked
    exact checked

/-- The controller accepts the command line that `build_plan` returns for a simulation, a study or a
drill, except for a transaction lesson whose seed has thirty-two bits. -/
theorem controller_accepts_iff [FloatLaws] {params : Fields} {check : Bool} {plan : Plan}
    (h : buildPlan params check = .ok plan) (target : plan.target = str "mvp")
    (action : named ["simulate", "study", "drills"] plan.action = true)
    (verb : plan.verb.any (named ["plan", "run"]) = true) :
    ∃ argv, plan.commands = [base plan.projectRoot ++ argv] ∧
      (controllerAccepts argv = true ↔ ¬ (plan.action = str "drills" ∧ LateSeed params)) := by
  obtain ⟨root, _, h⟩ := bind_ok.1 h
  split at h
  · obtain ⟨_, _, h⟩ := bind_ok.1 h
    obtain ⟨req, request, h⟩ := bind_ok.1 h
    obtain ⟨_, _, h⟩ := bind_ok.1 h
    obtain ⟨_, _, h⟩ := bind_ok.1 h
    obtain ⟨draft, drafted, h⟩ := bind_ok.1 h
    obtain ⟨_, _, h⟩ := bind_ok.1 h
    obtain ⟨_, _, h⟩ := bind_ok.1 h
    obtain ⟨_, _, h⟩ := bind_ok.1 h
    cases h
    dsimp only at target action verb ⊢
    rw [draftOf, if_pos target] at drafted
    obtain ⟨a, drill, action⟩ := named_iff.1 action
    obtain ⟨v', verbE, verb⟩ := Option.any_eq_true _ _ |>.1 verb
    obtain ⟨v, run, rfl⟩ := named_iff.1 verb
    obtain ⟨name, l, commands, known, encoded, image, bounds⟩ :=
      scenario_plan action drill verbE run drafted
    have late : LateSeed params ↔ ∃ s, lookup (str "seed") req.opts = some (.int s) ∧
        2 ^ 31 ≤ s := by
      constructor
      · rintro ⟨req', s, request', found, le⟩
        cases request.symm.trans request'
        exact ⟨s, found, le⟩
      · rintro ⟨s, found, le⟩
        exact ⟨req, s, request, found, le⟩
    have inRun : named ["plan", "run"] (str v) = true := named_iff.2 ⟨v, run, rfl⟩
    refine ⟨_, commands, ?_⟩
    rw [controllerAccepts, inRun, action, late, decide_eq_true rfl, Bool.true_and,
      Bool.true_and, dispatch]
    rcases List.mem_cons.1 drill with rfl | drill
    · rw [if_pos rfl, simulate_accepts encoded (bounds (by decide)) known]
      exact ⟨fun _ both => absurd both.1 (by decide), fun _ => rfl⟩
    rcases List.mem_cons.1 drill with rfl | drill
    · rw [if_neg (by decide), if_pos rfl, study_accepts encoded (bounds (by decide)) known]
      exact ⟨fun _ both => absurd both.1 (by decide), fun _ => rfl⟩
    cases List.mem_singleton.1 drill
    rw [if_neg (by decide), if_neg (by decide), decide_eq_true rfl, Bool.true_and,
      drills_accepts encoded image known]
    simp
  · cases h

end Accepted

/-! ### Runs -/

section Runs
attribute [local instance] integral integral_laws

def lessonParams (seed : Int) : Fields :=
  demoParams "mvp" [("action", .str (str "drills")), ("verb", .str (str "plan")),
    ("name", .str (str "stock-race")), ("options", .ofFields [("seed", .int seed)])] [] ""

/-- `controller_accepts_iff` for a lesson with the seed 7. -/
theorem controller_accepts_lesson : ∃ plan argv, buildPlan (lessonParams 7) false = .ok plan ∧
    plan.commands = [base plan.projectRoot ++ argv] ∧
    (controllerAccepts argv = true ↔
      ¬ (plan.action = str "drills" ∧ LateSeed (lessonParams 7))) := by
  obtain ⟨plan, ok, test⟩ := ok_of_test (x := buildPlan (lessonParams 7) false)
    (p := fun plan => plan.target == str "mvp" && plan.action == str "drills" &&
      plan.verb == some (str "plan"))
    (by decide +kernel)
  simp only [Bool.and_eq_true, beq_iff_eq] at test
  obtain ⟨⟨target, action⟩, verb⟩ := test
  obtain ⟨argv, commands, accepts⟩ :=
    controller_accepts_iff ok target (by rw [action]; decide +kernel)
    (by rw [verb]; decide +kernel)
  exact ⟨plan, argv, ok, commands, accepts⟩

/-- The policy plans a transaction lesson with the seed `2 ^ 31`, which the lesson refuses. -/
theorem late_seed_refused : ∃ plan argv, buildPlan (lessonParams (2 ^ 31)) false = .ok plan ∧
    plan.commands = [base plan.projectRoot ++ argv] ∧ controllerAccepts argv = false := by
  obtain ⟨plan, ok, test⟩ := ok_of_test (x := buildPlan (lessonParams (2 ^ 31)) false)
    (p := fun plan => plan.commands == [base plan.projectRoot ++
      [str "mvp", str "drills", str "plan", str "stock-race", str "--seed", str "2147483648"]])
        (by decide +kernel)
  exact ⟨plan, _, ok, beq_iff_eq.1 test, by decide +kernel⟩

end Runs

end DbLab.Ansible
