import DbLab.Ansible.Command

/-!
# Consent

Every command that `build_plan` returns outside check mode is assembled from the policy's own words
and from checked values, and what it does has been consented to.
-/

namespace DbLab.Ansible
open DbLab.Py

/-! ### Options -/

/-- Every option has a word of the policy. -/
lemma flags_known : ∀ k ∈ numeric.map Prod.fst ++
    ["rate", "workload", "candidate_image", "snapshot"], ∃ w ∈ valued, flagOf (str k) = str w := by
  decide

/-- The lists that `words` joins. -/
lemma mem_words {n : String}
    (h : n ∈ targets ∨ n ∈ plainActions ∨ n ∈ serviceActions ∨ n ∈ drillActions ∨ n ∈ simulations ∨
      n ∈ drills ∨ n ∈ messages ∨ n ∈ suites ∨ n ∈ services ∨ n ∈ workloads) : n ∈ words := by
  simp only [words, List.mem_append]
  exact .inr h

/-- The names of the workloads are words of the policy. -/
lemma workloads_words : ∀ n ∈ workloads, n ∈ words :=
  fun n m => mem_words (by simp only [m, or_true])
/-- No numeric option has a negative bound. -/
lemma numeric_nonneg : ∀ e ∈ numeric, 0 ≤ e.2.1 := by decide
/-- No option of a benchmark has a negative bound. -/
lemma ranges_nonneg : ∀ e ∈ ranges, 0 ≤ e.2.1 := by decide

/-- What is found in a table of ranges is a row of it. -/
lemma numeric_find {ranges : List (String × Int × Int)} {key : Str} {name : String} {lo hi : Int}
    (h : (ranges.find? fun e => key = str e.1) = some (name, lo, hi)) :
    key = str name ∧ (name, lo, hi) ∈ ranges := by
  have hit := List.find?_some h
  exact ⟨of_decide_eq_true hit, List.mem_of_find?_eq_some h⟩

/-! ### Words of the branches -/

/-- What the plain actions are to the readers of the words. -/
lemma plain_words : ∀ n ∈ plainActions, named drillActions (str n) = false ∧
    named ["stop", "recreate"] (str n) = false ∧ str n ≠ str "experiment" ∧
    (named ["init", "up", "down", "smoke", "restart", "rebuild-search", "bind-target",
      "stop", "resume", "recreate", "experiment"] (str n) = true →
        named plainChanges (str n) = true) ∧
    (named ["bind-target", "rebuild-search"] (str n) = true →
      named plainChanges (str n) = true) := by
  simp only [named_str, decide_eq_true_eq, decide_eq_false_iff_not, ne_eq, str_inj]
  decide

/-- What a service action may name are words of the policy. -/
lemma choices_words {n w : String} (m : w ∈ serviceChoices (str n)) : w ∈ words := by
  unfold serviceChoices at m
  split_ifs at m
  · revert w
    decide
  · revert w
    decide
  · exact mem_words (by simp only [m, or_true, true_or])

/-- Of the service actions only `resume` changes the state without injecting a fault. -/
lemma service_stateful : ∀ n ∈ serviceActions, named drillActions (str n) = false ∧
    (named ["init", "up", "down", "smoke", "restart", "rebuild-search", "bind-target",
      "stop", "resume", "recreate", "experiment"] (str n) = true →
      named ["stop", "recreate", "experiment"] (str n) = false → str n = str "resume") := by
  simp only [named_str, decide_eq_true_eq, decide_eq_false_iff_not, str_inj]
  decide

/-- To stop and to recreate a service are faults. -/
lemma service_stop : ∀ n ∈ serviceActions, named ["stop", "recreate"] (str n) = true →
    named ["stop", "recreate", "experiment"] (str n) = true ∧ str n ≠ str "experiment" := by
  simp only [named_str, decide_eq_true_eq, ne_eq, str_inj]
  decide

/-- What the drill actions are to the readers of the words. -/
lemma drill_heads : ∀ a ∈ drillActions, named ["stop", "recreate"] (str a) = false ∧
    str a ≠ str "experiment" ∧
    named ["init", "up", "down", "smoke", "restart", "rebuild-search", "bind-target",
      "stop", "resume", "recreate", "experiment"] (str a) = false ∧
        named drillActions (str a) = true := by
  simp only [named_str, decide_eq_true_eq, decide_eq_false_iff_not, ne_eq, str_inj]
  decide

/-- The verbs of the drills are words of the policy. -/
lemma drill_words : ∀ a ∈ drillActions, ∀ v ∈ drillVerbs (str a), v ∈ words := by
  simp only [drillVerbs, named_str, decide_eq_true_eq, str_inj]
  decide

/-- The scenarios are words of the policy. -/
lemma scenario_words {a n : String} (m : n ∈ drillChoices (str a)) : n ∈ words := by
  unfold drillChoices at m
  split_ifs at m
  · exact mem_words (by simp only [m, or_true, true_or])
  · exact mem_words (by simp only [m, or_true, true_or])
  · exact mem_words (by simp only [m, or_true, true_or])
  · exact mem_words (by simp only [m, or_true, true_or])
  · have simulation := List.mem_of_mem_filter m
    exact mem_words (by simp only [simulation, or_true, true_or])

/-- A scenario that the policy only observes or changes injects no fault. -/
lemma scenario_faultless (a n : String)
    (h : (str a = str "simulate" && named ["baseline", "duplicate-retry", "version-race"] (str n) ||
      str a = str "verify" && str n = str "core") = true) : named (faultless (str a))
        (str n) = true := by
  rw [Bool.or_eq_true, Bool.and_eq_true, Bool.and_eq_true, decide_eq_true_eq,
    decide_eq_true_eq] at h
  unfold faultless
  rcases h with ⟨simulate, harmless⟩ | ⟨verify, core⟩
  · rw [if_pos simulate]
    exact harmless
  · have other : str a ≠ str "simulate" := by
      rw [verify]
      decide
    rw [if_neg other, if_pos verify]
    exact named_iff.2 ⟨"core", List.mem_singleton_self _, of_decide_eq_true core⟩

/-- Which verbs name a scenario. -/
lemma scenario_verbs : ∀ a ∈ drillActions, ∀ v ∈ drillVerbs (str a),
    named ["list", "recover", "prepare"] (str v) = false →
    named ["report", "export", "inspect", "cleanup"] (str v) = false → v ≠ "compare" →
      v ∈ ["plan", "run"] := by
  simp only [drillVerbs, named_str, decide_eq_true_eq, decide_eq_false_iff_not, str_inj]
  decide

/-- Of the verbs that name a run only `cleanup` changes the state. -/
lemma changing_verb : ∀ v ∈ ["report", "export", "inspect", "cleanup"],
    v ∈ ["run", "recover", "prepare", "cleanup"] → v = "cleanup" := by decide

/-- Of the verbs that name a scenario only `run` changes the state. -/
lemma running_verb : ∀ v ∈ ["plan", "run"], v ∈ ["run", "recover", "prepare", "cleanup"] →
    v = "run" := by decide

/-- Every option of a benchmark has a word of the policy. -/
lemma range_flags : ∀ e ∈ ranges, ∃ w ∈ valued, str "--" ++ str e.1 = str w := by decide

/-- The names of the benchmarks are words of the policy. -/
lemma database_words : ∀ e ∈ databases, e.2.1 ∈ words := by decide

/-- What the actions of a lab are to the readers of the words. -/
lemma lab_words : ∀ n ∈ ["help", "list", "init", "doctor", "preflight", "health", "status", "up",
    "down", "restart", "test", "reset", "benchmark"], n ∈ words ∧ (n ≠ "mvp" ∧ n ≠ "k8s") ∧
    (named ["init", "up", "down", "restart", "reset", "benchmark"] (str n) = true →
      str n ≠ str "reset" → str n ≠ str "benchmark" →
        named ["init", "up", "down", "restart"] (str n) = true) := by
  simp only [named_str, decide_eq_true_eq, ne_eq, str_inj]
  decide

/-- What the actions of a release are to the readers of the words. -/
lemma kube_words : ∀ n ∈ ["init", "preflight", "lint", "template", "up", "status", "history",
    "values", "down"], n ∈ words ∧ (named ["init", "up", "down"] (str n) = true →
      str n = str "down" ∨ named ["init", "up"] (str n) = true) := by
  simp only [named_str, decide_eq_true_eq, str_inj]
  decide

/-! ### Encoded options -/

section Safety
variable [Interpreter]

/-- One of the names is an argument. -/
lemma oneOf_word {v : Value} {names : List String} {t : Str} (mem : v.oneOf names = true)
    (sub : ∀ n ∈ names, n ∈ words) (text : v.text = .ok t) : Argument t := by
  obtain ⟨n, m, rfl⟩ := Value.oneOf_iff.1 mem
  cases text
  exact .word (sub n m)

/-- A number that is not negative is a validated value. -/
lemma within_count {v : Value} {lo hi : Int} {t : Str} (nonneg : 0 ≤ lo)
    (range : (v.isInt && v.within (.finite lo) (.finite hi)) = true) (text : v.text = .ok t) :
    Validated t := by
  cases v with
  | int n =>
    have low : lo ≤ n := by
      have := ((Bool.and_eq_true _ _).mp ((Bool.and_eq_true _ _).mp range).2).1
      simpa [FloatView.le, Py.Num.view] using this
    exact .count (nonneg.trans low) text
  | null => cases range
  | bool b => cases range
  | float x => cases range
  | str s => cases range
  | list xs => cases range
  | dict ms => cases range

/-- What a rate is. -/
lemma rateInRange_ok {v : Value} (h : rateInRange v = .ok true) :
    v.isNumber = true ∧ v.isfinite = .ok true ∧ v.within (.finite fifth) (.finite 10) = true := by
  unfold rateInRange at h
  split at h
  · rename_i number
    obtain ⟨finite, isfinite, h⟩ := bind_ok.1 h
    cases finite with
    | false => cases h
    | true => exact ⟨number, isfinite, Except.ok.inj h⟩
  · cases h

/-- The text of a rate is a validated value. -/
lemma rate_validated {v : Value} {t : Str} (range : rateInRange v = .ok true)
    (text : v.text = .ok t) :
    Validated t := by
  obtain ⟨number, _, within⟩ := rateInRange_ok range
  cases v with
  | int n =>
    have low : fifth ≤ n := by
      simpa [FloatView.le, Py.Num.view] using ((Bool.and_eq_true _ _).mp within).1
    have pos : (0 : Rat) < n := lt_of_lt_of_le (by norm_num [fifth]) low
    exact .count (by exact_mod_cast pos.le) text
  | float x =>
    have low := ((Bool.and_eq_true _ _).mp within).1
    change FloatView.le (.finite fifth) (Interpreter.view x) = true at low
    change floatRepr _ x = .ok t at text
    rw [floatRepr] at text
    cases view : Interpreter.view x with
    | finite q =>
      rw [view] at low text
      exact .rate view (of_decide_eq_true low) (Except.ok.inj text).symm
    | nan =>
      rw [view] at low
      cases low
    | inf b =>
      have high := ((Bool.and_eq_true _ _).mp within).2
      change FloatView.le (Interpreter.view x) (.finite 10) = true at high
      rw [view] at low high
      cases b with
      | true => cases low
      | false => cases high
  | null => cases number
  | bool b => cases number
  | str s => cases number
  | list xs => cases number
  | dict ms => cases number

/-- Nothing, `--keep`, or a flag of the policy and its value. -/
inductive Encoded : List Str → Prop where
  | none : Encoded []
  | keep : Encoded [str "--keep"]
  | option {w : String} {t : Str} : w ∈ valued → Argument t → Encoded [str w, t]

/-- An option of the table with its argument. -/
lemma encoded_known {k : String} {t : Str}
    (mem : k ∈ numeric.map Prod.fst ++ ["rate", "workload", "candidate_image", "snapshot"])
    (arg : Argument t) :
    Encoded [flagOf (str k), t] := by
  obtain ⟨w, valued, e⟩ := flags_known k mem
  rw [e]
  exact .option valued arg

/-- What the policy makes of an option. -/
lemma encodeOption_ok {key : Str} {val : Value} {l : List Str} (h : encodeOption key val = .ok l) :
    Encoded l := by
  unfold encodeOption at h
  split at h
  · rename_i name lo hi found
    obtain ⟨rfl, mem⟩ := numeric_find found
    obtain ⟨_, range, h⟩ := bind_ok.1 h
    obtain ⟨t, text, h⟩ := bind_ok.1 h
    cases h
    exact encoded_known (List.mem_append_left _ (List.mem_map.2 ⟨_, mem, rfl⟩))
      (.inr (within_count (numeric_nonneg _ mem) (require_ok.1 range) text))
  split at h
  · rename_i rate
    obtain ⟨range, inRange, h⟩ := bind_ok.1 h
    obtain ⟨_, passed, h⟩ := bind_ok.1 h
    obtain ⟨t, text, h⟩ := bind_ok.1 h
    cases h
    subst rate
    cases require_ok.1 passed
    exact encoded_known (by decide) (.inr (rate_validated inRange text))
  split at h
  · rename_i workload
    obtain ⟨_, passed, h⟩ := bind_ok.1 h
    obtain ⟨t, text, h⟩ := bind_ok.1 h
    cases h
    subst workload
    exact encoded_known (by decide) (oneOf_word (require_ok.1 passed) workloads_words text)
  split at h
  · cases val with
    | bool b =>
      cases h
      cases b with
      | true => exact .keep
      | false => exact .none
    | null => cases h
    | int n => cases h
    | float x => cases h
    | str s => cases h
    | list xs => cases h
    | dict ms => cases h
  split at h
  · rename_i image
    subst image
    cases val with
    | str s =>
      obtain ⟨_, passed, h⟩ := bind_ok.1 h
      cases h
      exact encoded_known (by decide) (.inr (.image (require_ok.1 passed)))
    | null => cases h
    | bool b => cases h
    | int n => cases h
    | float x => cases h
    | list xs => cases h
    | dict ms => cases h
  split at h
  · rename_i snapshot
    subst snapshot
    obtain ⟨t, path, h⟩ := bind_ok.1 h
    cases h
    exact encoded_known (by decide) (.inr (.path (absolute_ok path).2.1))
  · cases h

/-- Encoded options are pieces. -/
lemma Encoded.assembled {l : List Str} (h : Encoded l) : Assembled l := by
  cases h with
  | none => exact .nil
  | keep => exact (Piece.switch (w := "--keep") (by decide)).assembled
  | option mem arg => exact (Piece.option mem arg).assembled

/-- No argument is the consent. -/
lemma not_yes [FloatLaws] {t : Str} (arg : Argument t) : t ≠ str "--yes" := by
  rintro rfl
  exact arg.plain rfl

/-- No encoded option is the consent. -/
lemma Encoded.not_yes [FloatLaws] {l : List Str} (h : Encoded l) : str "--yes" ∉ l := by
  cases h with
  | none => exact nofun
  | keep => exact (by decide)
  | option mem arg =>
    have other : ∀ w ∈ valued, str "--yes" ≠ str w := by
      simp only [ne_eq, str_inj]
      decide
    intro m
    rcases List.mem_cons.1 m with e | m
    · exact other _ mem e
    · exact Ansible.not_yes arg (List.mem_singleton.1 m).symm

/-- What the policy makes of all options. -/
lemma encodeOptions_ok {options : Fields} {allowed : List String} {l : List Str}
    (h : encodeOptions options allowed = .ok l) :
    ∃ ls : List (List Str), l = ls.flatten ∧ ∀ a ∈ ls, Encoded a := by
  obtain ⟨_, _, h⟩ := bind_ok.1 h
  obtain ⟨ls, each, h⟩ := bind_ok.1 h
  cases h
  refine ⟨ls, rfl, fun a m => ?_⟩
  obtain ⟨key, _, h⟩ := mapM_result each a m
  obtain ⟨val, _, h⟩ := bind_ok.1 h
  exact encodeOption_ok h

/-! ### What a draft announces -/

/-- The category of an MVP command says what its words do. -/
structure Announced (category : Category) (rest : List Str) : Prop where
  assembled : Assembled rest
  yes : str "--yes" ∈ rest → category ≠ .observe
  stateful : mvpStateful rest = true → category ≠ .observe
  faulting : mvpFaulting rest = true → category = .fault

/-- What holds of the commands of a draft. -/
structure Covered (target : Str) (d : Draft) (argv : List Str) : Prop where
  assembled : Assembled argv
  changes : changing argv = true → d.category ≠ .observe
  faults : faulting argv = true → d.category = .fault
  resets : resetting argv = true → d.category = .destroy ∧ d.phrase = some (str "DELETE:" ++ target)
  uninstalls : uninstalling argv = true → d.category = .destroy ∧ ∃ ns release,
    ("DB_LAB_NAMESPACE", ns) ∈ d.env ∧ ("DB_LAB_RELEASE", release) ∈ d.env ∧
      d.phrase = some (str "UNINSTALL:" ++ (ns ++ (str "/" ++ release)))

/-- What is announced is covered by a draft of the same category. -/
lemma Announced.covered {target : Str} {d : Draft} {category : Category} {rest : List Str}
    (h : Announced category rest) (same : d.category = category) :
    Covered target d (str "mvp" :: rest) where
  assembled := (Piece.argument (.word (w := "mvp") (by decide))).assembled.append h.assembled
  changes changes := by
    rw [changing, Ansible.stateful, if_pos rfl, Bool.or_eq_true, List.contains_iff_mem] at changes
    rcases changes with yes | stateful
    · rcases List.mem_cons.1 yes with e | yes
      · exact absurd e (by decide)
      · exact same ▸ h.yes yes
    · exact same ▸ h.stateful stateful
  faults faults := by
    rw [Ansible.faulting, Bool.and_eq_true] at faults
    exact same.trans (h.faulting faults.2)
  resets resets := by
    have other : named ["reset"] (str "mvp") = false := by decide
    rw [resetting, first, List.head?_cons, Option.any_some, other] at resets
    cases resets
  uninstalls uninstalls := by
    have other : decide (str "mvp" = str "k8s") = false := by decide
    rw [uninstalling, other] at uninstalls
    cases uninstalls

/-- A draft of an MVP command whose options are still to come. -/
structure Sound (base : List Str) (d : Draft) : Prop where
  args : ∃ rest, d.args = str "mvp" :: rest ∧
    ∀ tail, Assembled tail → str "--yes" ∉ tail → Announced d.category (rest ++ tail)
  commands : ∀ c ∈ d.commands, ∃ rest, c = base ++ (str "mvp" :: rest) ∧ Announced d.category rest

/-- A consent among arguments comes from its condition. -/
lemma yes_whenever [FloatLaws] {ws tail : List Str} {c : Bool} (arguments : ∀ t ∈ ws, Argument t)
    (quiet : str "--yes" ∉ tail) (m : str "--yes" ∈ ws ++ whenever c "--yes" ++ tail) :
    c = true := by
  rcases List.mem_append.1 m with m | m
  · rcases List.mem_append.1 m with m | m
    · exact absurd rfl (not_yes (arguments _ m))
    · cases c with
      | true => rfl
      | false => cases m
  · exact absurd m quiet

/-- A draft with its words in front of `--yes`. -/
lemma announced_of [FloatLaws] {category : Category} {ws : List Str} {c : Bool}
    (arguments : ∀ t ∈ ws, Argument t) (yes : c = true → category ≠ .observe)
    (stateful : ∀ tail, mvpStateful (ws ++ tail) = true → category ≠ .observe)
    (faulting : ∀ tail, mvpFaulting (ws ++ tail) = true → category = .fault) (tail : List Str)
    (assembled : Assembled tail) (quiet : str "--yes" ∉ tail) :
    Announced category (ws ++ whenever c "--yes" ++ tail) where
  assembled := ((Assembled.arguments arguments).append (.whenever (by decide) c)).append assembled
  yes m := yes (yes_whenever arguments quiet m)
  stateful h := stateful (whenever c "--yes" ++ tail) (by rwa [← List.append_assoc])
  faulting h := faulting (whenever c "--yes" ++ tail) (by rwa [← List.append_assoc])

/-! ### The branches -/

/-- A single word is a list of arguments. -/
lemma argument_singleton {w : String} (h : w ∈ words) : ∀ t ∈ [str w], Argument t := by
  intro t m
  rw [List.mem_singleton.1 m]
  exact .word h

/-- The command of a plain action is announced. -/
lemma plain_announced [FloatLaws] {action : Str}
    (known : named plainActions action = true) (c : Bool)
    (yes : c = true → named ["bind-target", "rebuild-search"] action = true) (tail : List Str)
    (assembled : Assembled tail) (quiet : str "--yes" ∉ tail) :
    Announced (if named plainChanges action then .change else .observe)
      ([action] ++ whenever c "--yes" ++ tail) := by
  obtain ⟨n, mem, rfl⟩ := named_iff.1 known
  obtain ⟨noDrill, noStop, noExperiment, stateful, switched⟩ := plain_words n mem
  have word : n ∈ words := mem_words (by simp only [mem, or_true, true_or])
  apply announced_of (argument_singleton word) _ _ _ tail assembled quiet
  · intro on
    rw [if_pos (switched (yes on))]
    nofun
  · intro tail h
    rw [List.singleton_append, mvpStateful, noDrill, Bool.false_and, Bool.or_false] at h
    rw [if_pos (stateful h)]
    nofun
  · intro tail h
    rw [List.singleton_append, mvpFaulting, noDrill, noStop, decide_eq_false noExperiment] at h
    cases h

/-- The draft of a plain action is sound. -/
lemma plainDraft_sound [FloatLaws] {base : List Str} {req : Request} {d : Draft}
    (known : named plainActions req.action = true) (h : plainDraft base req = .ok d) :
    Sound base d := by
  obtain ⟨_, _, h⟩ := bind_ok.1 h
  cases h
  refine ⟨⟨_, rfl, plain_announced known _ id⟩, ?_⟩
  intro c m
  dsimp only at m
  split at m
  · rename_i restart
    have known : ∀ n ∈ ["down", "up"], named plainActions (str n) = true ∧
        named plainChanges (str n) = true := by
      simp only [named_str]
      decide
    have announced : ∀ n ∈ ["down", "up"], Announced .change [str n] := by
      intro n mem
      have plain := plain_announced (known n mem).1 false nofun [] .nil (by simp)
      rwa [if_pos (known n mem).2] at plain
    have category : named plainChanges req.action = true := by
      rw [restart]
      decide
    rw [Draft.of, if_pos category]
    rcases List.mem_cons.1 m with rfl | m
    · exact ⟨_, rfl, announced "down" (by decide)⟩
    · rw [List.mem_singleton.1 m]
      exact ⟨_, rfl, announced "up" (by decide)⟩
  · cases m

/-- The draft of a service action is sound. -/
lemma serviceDraft_sound [FloatLaws] {base : List Str} {req : Request} {d : Draft}
    (known : named serviceActions req.action = true) (h : serviceDraft req = .ok d) :
    Sound base d := by
  obtain ⟨_, _, h⟩ := bind_ok.1 h
  obtain ⟨_, choice, h⟩ := bind_ok.1 h
  cases h
  obtain ⟨n, mem, action⟩ := named_iff.1 known
  rw [require_ok] at choice
  have name : ∀ t ∈ req.name.toList, ∃ w ∈ serviceChoices req.action, t = str w := by
    intro t m
    cases e : req.name with
    | none =>
      rw [e] at m
      cases m
    | some s =>
      rw [e, Option.isNone_some, Bool.and_false, Bool.or_false, Option.any_some] at choice
      rw [e, Option.toList_some, List.mem_singleton] at m
      rw [m]
      exact named_iff.1 choice
  have arguments : ∀ t ∈ req.action :: req.name.toList, Argument t := by
    intro t m
    rcases List.mem_cons.1 m with rfl | m
    · rw [action]
      exact .word (mem_words (by simp only [mem, or_true, true_or]))
    · obtain ⟨w, mem', rfl⟩ := name t m
      rw [action] at mem'
      exact .word (choices_words mem')
  refine ⟨⟨_, rfl, ?_⟩, nofun⟩
  apply announced_of arguments
  · intro changing
    dsimp only [Draft.of]
    rw [if_pos changing]
    split <;> nofun
  · intro tail h
    dsimp only [Draft.of]
    rw [action] at h ⊢
    obtain ⟨noDrill, stateful⟩ := service_stateful n mem
    rw [List.cons_append, mvpStateful, noDrill, Bool.false_and, Bool.or_false] at h
    split
    · split <;> nofun
    · rename_i calm
      rw [if_pos (by simpa using stateful h (by simpa using calm))]
      nofun
  · intro tail h
    dsimp only [Draft.of]
    rw [action] at h ⊢
    obtain ⟨noDrill, _⟩ := service_stateful n mem
    rw [List.cons_append, mvpFaulting, noDrill, Bool.false_and, Bool.false_and, Bool.or_false,
      Bool.or_eq_true] at h
    rcases h with stop | experiment
    · obtain ⟨changing, other⟩ := service_stop n mem stop
      rw [if_pos changing, if_neg (fun both => other both.1)]
    · rw [Bool.and_eq_true, decide_eq_true_eq] at experiment
      obtain ⟨experiment, fault⟩ := experiment
      have changing : named ["stop", "recreate", "experiment"] (str n) = true := by
        rw [experiment]
        decide
      rw [if_pos changing, if_neg]
      rintro ⟨_, normal⟩
      rw [normal] at fault
      exact absurd fault (by simp [first, named])

/-- The command of a drill is announced. -/
lemma drill_announced [FloatLaws] {category : Category} {a v : String} (more : List Str) {c : Bool}
    (action : a ∈ drillActions) (verb : v ∈ drillVerbs (str a)) (arguments : ∀ t ∈ more, Argument t)
    (yes : c = true → category ≠ .observe)
    (stateful : v ∈ ["run", "recover", "prepare", "cleanup"] → category ≠ .observe)
    (faulting : ∀ tail, v = "run" → first (more ++ tail) (faultless (str a)) = false →
      category = .fault) :
    ∀ tail, Assembled tail → str "--yes" ∉ tail →
      Announced category ([str a, str v] ++ more ++ whenever c "--yes" ++ tail) := by
  have wordA : a ∈ words := mem_words (by simp only [action, or_true, true_or])
  have wordV := drill_words a action v verb
  have all : ∀ t ∈ [str a, str v] ++ more, Argument t := by
    intro t m
    rcases List.mem_append.1 m with m | m
    · rcases List.mem_cons.1 m with rfl | m
      · exact .word wordA
      · exact argument_singleton wordV t m
    · exact arguments t m
  have head : named ["stop", "recreate"] (str a) = false ∧ str a ≠ str "experiment" ∧
      named ["init", "up", "down", "smoke", "restart", "rebuild-search", "bind-target",
        "stop", "resume", "recreate", "experiment"] (str a) = false ∧
          named drillActions (str a) = true :=
    drill_heads a action
  apply announced_of all yes
  · intro tail h
    rw [List.append_assoc, List.cons_append, mvpStateful, head.2.2.1, head.2.2.2, Bool.false_or,
      Bool.true_and, List.cons_append, first, List.head?_cons, Option.any_some] at h
    obtain ⟨w, mem, e⟩ := named_iff.1 h
    exact stateful (str_inj.1 e ▸ mem)
  · intro tail h
    rw [List.append_assoc, List.cons_append, mvpFaulting, head.1, head.2.2.2,
      decide_eq_false head.2.1, Bool.false_and, Bool.false_or, Bool.false_or, Bool.true_and,
      List.cons_append, first, List.head?_cons, Option.any_some, Bool.and_eq_true,
      Bool.not_eq_true', List.tail_cons, List.nil_append] at h
    obtain ⟨w, mem, e⟩ := named_iff.1 h.1
    rw [List.mem_singleton.1 mem] at e
    exact faulting tail (str_inj.1 e) h.2

/-- The draft of a drill without scenario and run is sound. -/
lemma bareDraft_sound [FloatLaws] {base : List Str} {req : Request} {d : Draft} {a v : String}
    (action : req.action = str a) (memA : a ∈ drillActions) (memV : v ∈ drillVerbs (str a))
    (bare : v ∈ ["list", "recover", "prepare"]) (h : bareDraft (str v) req = .ok d) :
    Sound base d := by
  obtain ⟨_, _, h⟩ := bind_ok.1 h
  cases h
  have run : v ≠ "run" := by
    rintro rfl
    exact absurd bare (by decide)
  refine ⟨⟨_, rfl, ?_⟩, nofun⟩
  rw [action]
  apply drill_announced [] memA memV nofun
  · intro changing
    dsimp only [Draft.of]
    rw [if_pos changing]
    nofun
  · intro stateful
    dsimp only [Draft.of]
    have changing : str v ≠ str "list" := by
      intro e
      rw [str_inj.1 e] at stateful
      exact absurd stateful (by decide)
    rw [if_pos (decide_eq_true changing)]
    nofun
  · exact fun _ e => absurd e run

/-- The id of a run is a text of its kind. -/
lemma runId_ok {v : Value} {kind : RunKind} {t : Str} (h : runId v kind = .ok t) :
    v = .str t ∧ kind.re.fullmatch t = true := by
  cases v with
  | str s =>
    obtain ⟨_, re, h⟩ := bind_ok.1 h
    cases h
    exact ⟨rfl, require_ok.1 re⟩
  | null => cases h
  | bool b => cases h
  | int n => cases h
  | float x => cases h
  | list xs => cases h
  | dict ms => cases h

/-- The draft about a run is sound. -/
lemma runDraft_sound [FloatLaws] {base : List Str} {req : Request} {d : Draft} {a v : String}
    (action : req.action = str a) (memA : a ∈ drillActions) (memV : v ∈ drillVerbs (str a))
    (kind : v ∈ ["report", "export", "inspect", "cleanup"]) (h : runDraft (str v) req = .ok d) :
    Sound base d := by
  obtain ⟨id, ok, h⟩ := bind_ok.1 h
  cases h
  refine ⟨⟨_, rfl, ?_⟩, nofun⟩
  rw [action]
  apply drill_announced [id] memA memV
  · intro t m
    rw [List.mem_singleton.1 m]
    exact .inr (.run (runId_ok ok).2)
  · intro cleanup
    dsimp only [Draft.of]
    rw [if_pos cleanup]
    nofun
  · intro stateful
    dsimp only [Draft.of]
    have cleanup : v = "cleanup" := changing_verb v kind stateful
    rw [if_pos (decide_eq_true (congrArg str cleanup))]
    nofun
  · rintro _ rfl
    exact absurd kind (by decide)

/-- The draft of a comparison is sound. -/
lemma compareDraft_sound [FloatLaws] {base : List Str} {req : Request} {d : Draft} {a : String}
    (action : req.action = str a) (memA : a ∈ drillActions) (memV : "compare" ∈ drillVerbs (str a))
    (h : compareDraft (str "compare") req = .ok d) : Sound base d := by
  obtain ⟨_, _, h⟩ := bind_ok.1 h
  obtain ⟨baseline, baselineOk, h⟩ := bind_ok.1 h
  obtain ⟨fault, faultOk, h⟩ := bind_ok.1 h
  obtain ⟨_, _, h⟩ := bind_ok.1 h
  cases h
  refine ⟨⟨_, rfl, ?_⟩, nofun⟩
  rw [action]
  apply drill_announced [baseline, fault] (c := false) memA memV
  · intro t m
    rcases List.mem_cons.1 m with rfl | m
    · exact .inr (.run (runId_ok baselineOk).2)
    · rw [List.mem_singleton.1 m]
      exact .inr (.run (runId_ok faultOk).2)
  · exact nofun
  · exact fun stateful => absurd stateful (by decide)
  · exact fun _ e => absurd e (by decide)

/-- The scenario that `plan` and `run` settle on. -/
lemma scenarioDraft_ok {verb : Str} {req : Request} {d : Draft}
    (h : scenarioDraft verb req = .ok d) :
    ∃ name, named (drillChoices req.action) name = true ∧
      (if req.action = str "verify" then some (req.name.getD (str "core"))
        else req.name) = some name ∧
      (needsImage req.action verb name = true →
        (lookup (str "candidate_image") req.opts).isSome = true) ∧
      d = { Draft.of ([str "mvp", req.action, verb, name] ++ whenever (verb = str "run") "--yes")
              (if verb = str "run" then
                if req.action = str "simulate" &&
                  named ["baseline", "duplicate-retry", "version-race"] name ||
                  req.action = str "verify" && name = str "core" then .change else .fault
              else .observe) req with
            name := some name, allowed := allowedOptions req.action verb name } := by
  unfold scenarioDraft at h
  split at h
  · cases h
  · rename_i name chosen
    obtain ⟨_, known, h⟩ := bind_ok.1 h
    obtain ⟨_, image, h⟩ := bind_ok.1 h
    cases h
    rw [require_ok] at known image
    refine ⟨name, known, chosen, ?_, by simp⟩
    intro needs
    rwa [needs, Bool.not_true, Bool.false_or] at image

/-- The draft of a scenario is sound. -/
lemma scenarioDraft_sound [FloatLaws] {base : List Str} {req : Request} {d : Draft} {a v : String}
    (action : req.action = str a) (memA : a ∈ drillActions) (memV : v ∈ drillVerbs (str a))
    (h : scenarioDraft (str v) req = .ok d) (kind : v ∈ ["plan", "run"]) : Sound base d := by
  obtain ⟨name, known, _, _, rfl⟩ := scenarioDraft_ok h
  refine ⟨⟨_, rfl, ?_⟩, nofun⟩
  rw [action] at known ⊢
  obtain ⟨n, memN, rfl⟩ := named_iff.1 known
  apply drill_announced [str n] memA memV
  · exact argument_singleton (scenario_words memN)
  · intro run
    dsimp only [Draft.of]
    rw [if_pos (of_decide_eq_true run)]
    split <;> nofun
  · intro stateful
    dsimp only [Draft.of]
    have run : v = "run" := running_verb v kind stateful
    rw [if_pos (congrArg str run)]
    split <;> nofun
  · intro tail run fault
    dsimp only [Draft.of]
    rw [if_pos (congrArg str run), if_neg]
    intro harmless
    rw [List.cons_append, first, List.head?_cons, Option.any_some] at fault
    have calm := scenario_faultless a n harmless
    rw [fault] at calm
    cases calm

/-- The draft of a drill is sound. -/
lemma drillDraft_sound [FloatLaws] {base : List Str} {req : Request} {d : Draft}
    (known : named drillActions req.action = true) (h : drillDraft req = .ok d) : Sound base d := by
  obtain ⟨a, memA, action⟩ := named_iff.1 known
  unfold drillDraft at h
  split at h
  · cases h
  rename_i verb _
  split at h
  · cases h
  rename_i verbs
  rw [Bool.not_eq_true', Bool.not_eq_false, action] at verbs
  obtain ⟨v, memV, rfl⟩ := named_iff.1 verbs
  split at h
  · rename_i bare
    obtain ⟨w, mem, e⟩ := named_iff.1 bare
    exact bareDraft_sound action memA memV (str_inj.1 e ▸ mem) h
  split at h
  · rename_i kind
    obtain ⟨w, mem, e⟩ := named_iff.1 kind
    exact runDraft_sound action memA memV (str_inj.1 e ▸ mem) h
  rename_i bare kind
  split at h
  · rename_i compare
    cases str_inj.1 compare
    exact compareDraft_sound action memA memV h
  · rename_i compare
    refine scenarioDraft_sound action memA memV h ?_
    exact scenario_verbs a memA v memV (by simpa using bare) (by simpa using kind)
      (fun e => compare (congrArg str e))

/-- Every command of a draft for the MVP is covered. -/
lemma mvpDraft_covered [FloatLaws] {target : Str} {base : List Str} {req : Request} {d : Draft}
    (h : mvpDraft base req = .ok d) :
    ∀ c ∈ d.commands, ∃ argv, c = base ++ argv ∧ Covered target d argv := by
  obtain ⟨draft, branch, h⟩ := bind_ok.1 h
  obtain ⟨options, encoded, h⟩ := bind_ok.1 h
  obtain ⟨_, _, h⟩ := bind_ok.1 h
  cases h
  have sound : Sound base draft := by
    unfold mvpBranch at branch
    split at branch
    · rename_i known
      exact plainDraft_sound known branch
    split at branch
    · rename_i known
      exact serviceDraft_sound known branch
    split at branch
    · rename_i known
      exact drillDraft_sound known branch
    · cases branch
  obtain ⟨ls, rfl, pieces⟩ := encodeOptions_ok encoded
  obtain ⟨⟨rest, args, announced⟩, commands⟩ := sound
  intro c m
  dsimp only at m
  split at m
  · rw [List.mem_singleton.1 m, args]
    refine ⟨_, rfl, (announced ls.flatten (.flatten fun l m => (pieces l m).assembled)
      ?_).covered rfl⟩
    intro yes
    obtain ⟨l, ml, yes⟩ := List.mem_flatten.1 yes
    exact (pieces l ml).not_yes yes
  · obtain ⟨rest, rfl, announced⟩ := commands c m
    exact ⟨_, rfl, announced.covered rfl⟩

/-- A command that belongs neither to the MVP nor to Kubernetes. -/
lemma lab_covered [FloatLaws] {target : Str} {d : Draft} {head : String} {rest : List Str}
    (known : head ≠ "mvp" ∧ head ≠ "k8s") (assembled : Assembled (str head :: rest))
    (yes : str "--yes" ∈ rest → d.category ≠ .observe)
    (stateful : named ["init", "up", "down", "restart", "reset", "benchmark"] (str head) = true →
      d.category ≠ .observe)
    (word : head ∈ words)
    (resets : head = "reset" → d.category = .destroy ∧ d.phrase = some (str "DELETE:" ++ target)) :
    Covered target d (str head :: rest) where
  assembled := assembled
  changes changes := by
    rw [changing, Ansible.stateful, if_neg (mt str_inj.1 known.1), if_neg (mt str_inj.1 known.2),
      Bool.or_eq_true, List.contains_iff_mem] at changes
    rcases changes with m | changes
    · rcases List.mem_cons.1 m with e | m
      · exact absurd e.symm (not_yes (.word word))
      · exact yes m
    · exact stateful changes
  faults faults := by
    rw [Ansible.faulting, decide_eq_false (mt str_inj.1 known.1)] at faults
    cases faults
  resets h := by
    rw [resetting, first, List.head?_cons, Option.any_some] at h
    obtain ⟨n, mem, e⟩ := named_iff.1 h
    exact resets ((str_inj.1 e).trans (List.mem_singleton.1 mem))
  uninstalls h := by
    rw [uninstalling, decide_eq_false (mt str_inj.1 known.2)] at h
    cases h

/-- What the policy makes of an option of a benchmark. -/
lemma benchmarkOption_ok {key : Str} {value : Value} {l : List Str}
    (h : benchmarkOption key value = .ok l) :
    ∃ w t, l = [str w, t] ∧ w ∈ valued ∧ Argument t := by
  unfold benchmarkOption at h
  split at h
  · rename_i name low high found
    obtain ⟨rfl, mem⟩ := numeric_find found
    obtain ⟨_, range, h⟩ := bind_ok.1 h
    obtain ⟨t, text, h⟩ := bind_ok.1 h
    cases h
    obtain ⟨w, flag, e⟩ := range_flags _ mem
    exact ⟨w, t,
      by rw [e], flag, .inr (within_count (ranges_nonneg _ mem) (require_ok.1 range) text)⟩
  · cases h

/-- The commands of a benchmark. -/
lemma benchmarkPlan_ok {target : Str} {options : Fields} {base : List Str} {cs : List (List Str)}
    (h : benchmarkPlan target options base = .ok cs) :
    ∃ database ∈ databases, ∃ ls : List (List Str),
      cs = [base ++ (str "benchmark" :: str database.2.1 :: ls.flatten)] ∧
      ∀ l ∈ ls, ∃ w t, l = [str w, t] ∧ w ∈ valued ∧ Argument t := by
  unfold benchmarkPlan at h
  split at h
  · rename_i found
    obtain ⟨_, _, h⟩ := bind_ok.1 h
    obtain ⟨ls, each, h⟩ := bind_ok.1 h
    cases h
    refine ⟨_, List.mem_of_find?_eq_some found, ls, rfl, fun l m => ?_⟩
    obtain ⟨key, _, h⟩ := mapM_result each l m
    obtain ⟨value, _, h⟩ := bind_ok.1 h
    exact benchmarkOption_ok h
  · cases h

/-- Every command of a draft for a lab is covered. -/
lemma labDraft_covered [FloatLaws] {target : Str} {base : List Str} {req : Request} {d : Draft}
    (known : named targets target = true) (h : labDraft base target req = .ok d) :
    ∀ c ∈ d.commands, ∃ argv, c = base ++ argv ∧ Covered target d argv := by
  obtain ⟨_, _, h⟩ := bind_ok.1 h
  obtain ⟨_, action, h⟩ := bind_ok.1 h
  by_cases benchmark : req.action = str "benchmark"
  · rw [if_pos benchmark] at h
    obtain ⟨cs, plan, h⟩ := bind_ok.1 h
    cases h
    obtain ⟨database, mem, ls, rfl, pieces⟩ := benchmarkPlan_ok plan
    intro c m
    rw [List.mem_singleton.1 m]
    refine ⟨_, rfl, lab_covered (by decide) ?_ (fun _ e => by cases e)
      (fun _ e => by cases e) (by decide)
      (by simp)⟩
    have options : Assembled ls.flatten := by
      apply Assembled.flatten
      intro l m
      obtain ⟨w, t, rfl, flag, arg⟩ := pieces l m
      exact (Piece.option flag arg).assembled
    refine Assembled.append (a := [_, _]) (.arguments ?_) options
    intro t m
    rcases List.mem_cons.1 m with rfl | m
    · exact .word (by decide)
    · exact argument_singleton (database_words database mem) t m
  · rw [if_neg benchmark] at h
    cases h
    obtain ⟨n, memN, e⟩ := named_iff.1 (require_ok.1 action)
    obtain ⟨t, memT, rfl⟩ := named_iff.1 known
    obtain ⟨word, other, stateful⟩ := lab_words n memN
    intro c m
    rw [List.mem_singleton.1 m, e]
    have shape : ∃ rest, (if named ["help", "list"] (str n) then [str n] else [str n, str t]) =
      str n :: rest ∧
        ∀ r ∈ rest, r = str t := by
      split
      · exact ⟨[], rfl, List.forall_mem_nil _⟩
      · exact ⟨[str t], rfl, fun r m => List.mem_singleton.1 m⟩
    obtain ⟨rest, shape, targets⟩ := shape
    have target : Argument (str t) := .word (by
      simp only [words, List.mem_append]
      exact .inr (.inl memT))
    have arguments : ∀ r ∈ rest, Argument r := fun r m => targets r m ▸ target
    refine ⟨_, rfl, ?_⟩
    rw [shape]
    apply lab_covered other _ _ _ word
    · rintro rfl
      exact ⟨rfl, rfl⟩
    · have front := @Assembled.arguments _ (str n :: rest) (by
        intro r m
        rcases List.mem_cons.1 m with rfl | m
        · exact .word word
        · exact arguments r m)
      exact (front.append (.whenever (by decide) _)).append (.whenever (by decide) _)
    · intro yes
      have reset : str n = str "reset" := by
        rcases List.mem_append.1 yes with m | m
        · rcases List.mem_append.1 m with m | m
          · exact absurd rfl (not_yes (arguments _ m))
          · unfold whenever at m
            split at m
            · exact absurd (List.mem_singleton.1 m) (by decide)
            · cases m
        · unfold whenever at m
          split at m
          · rename_i reset
            exact of_decide_eq_true reset
          · cases m
      dsimp only [Draft.of]
      rw [if_pos reset]
      intro e
      cases e
    · intro changes
      dsimp only [Draft.of]
      split
      · intro e
        cases e
      · rename_i reset
        rw [if_pos (stateful changes reset (e ▸ benchmark))]
        intro e
        cases e

/-- What is planned for a release. -/
lemma kubePlan_ok {action : Str} {config : Value} {kube : KubePlan}
    (h : kubePlan action config = .ok kube) :
    ∃ ns release, kube.name = ns ++ (str "/" ++ release) ∧ ("DB_LAB_NAMESPACE", ns) ∈ kube.env ∧
      ("DB_LAB_RELEASE", release) ∈ kube.env ∧
      ∃ ls : List (List Str), kube.args = ls.flatten ∧ ∀ l ∈ ls, ∃ t, l = [str "-f", t] ∧
        Argument t := by
  cases config with
  | dict config =>
    obtain ⟨_, _, h⟩ := bind_ok.1 h
    obtain ⟨⟨ctx, contexts⟩, _, h⟩ := bind_ok.1 h
    obtain ⟨ns, _, h⟩ := bind_ok.1 h
    obtain ⟨release, _, h⟩ := bind_ok.1 h
    obtain ⟨_, _, h⟩ := bind_ok.1 h
    obtain ⟨kubeconfig, _, h⟩ := bind_ok.1 h
    split at h
    · obtain ⟨_, _, h⟩ := bind_ok.1 h
      obtain ⟨_, _, h⟩ := bind_ok.1 h
      obtain ⟨ls, each, h⟩ := bind_ok.1 h
      cases h
      refine ⟨ns, release, by simp, by simp, by simp, ls, rfl, fun l m => ?_⟩
      obtain ⟨path, _, h⟩ := mapM_result each l m
      obtain ⟨t, ok, h⟩ := bind_ok.1 h
      cases h
      exact ⟨t, rfl, .inr (.path (absolute_ok ok).2.1)⟩
    · cases h
  | null => cases h
  | bool b => cases h
  | int n => cases h
  | float x => cases h
  | str s => cases h
  | list xs => cases h

/-- Every command of a draft for a release is covered. -/
lemma kubeDraft_covered [FloatLaws] {target : Str} {base : List Str} {params : Fields}
    {req : Request} {d : Draft}
    (h : kubeDraft base params req = .ok d) :
    ∀ c ∈ d.commands, ∃ argv, c = base ++ argv ∧ Covered target d argv := by
  obtain ⟨_, _, h⟩ := bind_ok.1 h
  obtain ⟨_, action, h⟩ := bind_ok.1 h
  obtain ⟨kube, plan, h⟩ := bind_ok.1 h
  cases h
  obtain ⟨n, mem, e⟩ := named_iff.1 (require_ok.1 action)
  obtain ⟨ns, release, name, envNs, envRelease, ls, args, pieces⟩ := kubePlan_ok plan
  obtain ⟨word, change⟩ := kube_words n mem
  have values : Assembled kube.args ∧ str "--yes" ∉ kube.args := by
    rw [args]
    constructor
    · apply Assembled.flatten
      intro l m
      obtain ⟨t, rfl, arg⟩ := pieces l m
      exact (Piece.option (w := "-f") (by decide) arg).assembled
    · intro m
      obtain ⟨l, ml, m⟩ := List.mem_flatten.1 m
      obtain ⟨t, rfl, arg⟩ := pieces l ml
      rcases List.mem_cons.1 m with e | m
      · exact absurd e (by decide)
      · exact not_yes arg (List.mem_singleton.1 m).symm
  have yesDown : str "--yes" ∈ str n :: kube.args ++ whenever (str n = str "down") "--yes" →
      str n = str "down" := by
    intro m
    rcases List.mem_append.1 m with m | m
    · rcases List.mem_cons.1 m with e | m
      · exact absurd e.symm (not_yes (.word word))
      · exact absurd m values.2
    · unfold whenever at m
      split at m
      · rename_i down
        exact of_decide_eq_true down
      · cases m
  intro c m
  rw [List.mem_singleton.1 m, e]
  refine ⟨_, rfl, ?_, ?_, ?_, ?_, ?_⟩
  · have head : Assembled [str "k8s", str n] := .arguments (by
      intro t m
      rcases List.mem_cons.1 m with rfl | m
      · exact .word (by decide)
      · exact argument_singleton word t m)
    exact (head.append values.1).append (.whenever (by decide) _)
  · intro changes
    dsimp only [Draft.of]
    have stateful : str n = str "down" ∨ named ["init", "up"] (str n) = true := by
      rw [changing, Bool.or_eq_true, List.contains_iff_mem] at changes
      rcases changes with m | stateful
      · rcases List.mem_cons.1 m with e | m
        · exact absurd e (by decide)
        · exact .inl (yesDown m)
      · refine change ?_
        simpa [Ansible.stateful, first] using stateful
    split
    · nofun
    · rename_i down
      rw [if_pos (stateful.resolve_left down)]
      nofun
  · intro faults
    simp [Ansible.faulting] at faults
  · intro resets
    exact absurd resets (by simp [resetting, first, named])
  · intro down
    have down : str n = str "down" := by simpa [uninstalling, first, named] using down
    dsimp only [Draft.of]
    rw [if_pos down, if_pos down, name]
    exact ⟨rfl, ns, release, envNs, envRelease, rfl⟩

/-! ### Plans -/

/-- What was granted and confirmed for a draft. -/
lemma consented_ok {params : Fields} {confirmed : Str} {d : Draft} {u : Unit}
    (h : consented params confirmed d = .ok u) :
    (∀ flag ∈ d.category.consent, granted params flag = true) ∧ ∀ phrase, d.phrase = some phrase →
      confirmed = phrase := by
  obtain ⟨_, flags, h⟩ := bind_ok.1 h
  constructor
  · intro flag mem
    obtain ⟨_, passed⟩ := forM_mem_ok flags flag mem
    exact require_ok.1 passed
  · intro phrase e
    rw [e] at h
    exact of_decide_eq_true (require_ok.1 h)

/-- Outside check mode every command is assembled from words of the policy and checked values that
are no flags, a change has been allowed, a fault has been allowed as one, and resetting a lab or
uninstalling a release has been allowed and confirmed by the phrase that names it. -/
theorem consent_safe [FloatLaws] {params : Fields} {plan : Plan}
    (h : buildPlan params false = .ok plan) :
    ∀ c ∈ plan.commands, ∃ argv, c = base plan.projectRoot ++ argv ∧
      (changing argv = true → granted params "allow_changes" = true) ∧
      (faulting argv = true →
        granted params "allow_changes" = true ∧ granted params "allow_faults" = true) ∧
      (resetting argv = true →
        granted params "allow_changes" = true ∧ granted params "allow_destroy" = true ∧
          confirmation params = .ok (str "DELETE:" ++ plan.target)) ∧
      (uninstalling argv = true →
        granted params "allow_changes" = true ∧ granted params "allow_destroy" = true ∧
          ∃ ns release, ("DB_LAB_NAMESPACE", ns) ∈ plan.environment ∧
            ("DB_LAB_RELEASE", release) ∈ plan.environment ∧
            confirmation params = .ok (str "UNINSTALL:" ++ (ns ++ (str "/" ++ release)))) ∧
      Assembled argv ∧
      ∀ t ∈ argv, (∃ w ∈ words ++ (switches ++ valued), t = str w) ∨ (Validated t ∧ ¬ Dash t) := by
  obtain ⟨root, _, h⟩ := bind_ok.1 h
  split at h
  · rename_i target _
    obtain ⟨_, known, h⟩ := bind_ok.1 h
    obtain ⟨req, _, h⟩ := bind_ok.1 h
    obtain ⟨_, _, h⟩ := bind_ok.1 h
    obtain ⟨confirmed, phrase, h⟩ := bind_ok.1 h
    obtain ⟨draft, drafted, h⟩ := bind_ok.1 h
    obtain ⟨_, _, h⟩ := bind_ok.1 h
    obtain ⟨_, _, h⟩ := bind_ok.1 h
    obtain ⟨_, consent, h⟩ := bind_ok.1 h
    cases h
    have covered : ∀ c ∈ draft.commands, ∃ argv, c = base root ++ argv ∧
        Covered target draft argv := by
      unfold draftOf at drafted
      split at drafted
      · exact mvpDraft_covered drafted
      split at drafted
      · exact kubeDraft_covered drafted
      · exact labDraft_covered (require_ok.1 known) drafted
    obtain ⟨flags, confirm⟩ := consented_ok consent
    intro c m
    obtain ⟨argv, rfl, cover⟩ := covered c m
    have changes : draft.category ≠ .observe → granted params "allow_changes" = true := by
      intro ne
      apply flags
      cases e : draft.category with
      | observe => exact absurd e ne
      | change => exact List.mem_cons_self
      | fault => exact List.mem_cons_self
      | destroy => exact List.mem_cons_self
    refine ⟨argv, rfl, fun h => changes (cover.changes h), ?_, ?_, ?_, cover.assembled,
      cover.assembled.tokens⟩
    · intro h
      have fault := cover.faults h
      exact ⟨changes (by rw [fault]; nofun), flags _ (by rw [fault]; decide)⟩
    · intro h
      obtain ⟨destroy, named⟩ := cover.resets h
      refine ⟨changes (by rw [destroy]; nofun), flags _ (by rw [destroy]; decide), ?_⟩
      rw [phrase, confirm _ named]
    · intro h
      obtain ⟨destroy, ns, release, envNs, envRelease, named⟩ := cover.uninstalls h
      refine ⟨changes (by rw [destroy]; nofun), flags _ (by rw [destroy]; decide), ns, release,
        envNs, envRelease, ?_⟩
      rw [phrase, confirm _ named]
  · cases h

end Safety

/-! ### Runs -/

section Runs
attribute [local instance] integral integral_laws

def demoParams (target : String) (req : List (String × Value)) (flags : List String)
    (phrase : String) : Fields :=
  [(str "project_root", .str (str "/srv/db-lab")), (str "target", .str (str target)),
   (str "request", .ofFields req), (str "confirmation", .str (str phrase))] ++
    flags.map fun flag => (str flag, .bool true)

/-- `consent_safe` for the reset of a lab. -/
theorem consent_safe_reset : ∃ plan,
    buildPlan (demoParams "redis" [("action", .str (str "reset"))] ["allow_changes",
      "allow_destroy"] "DELETE:redis")
      false = .ok plan ∧ plan.commands ≠ [] ∧
    ∀ c ∈ plan.commands, ∃ argv, c = base plan.projectRoot ++ argv ∧
      ∀ t ∈ argv, (∃ w ∈ words ++ (switches ++ valued), t = str w) ∨ (Validated t ∧ ¬ Dash t) := by
  obtain ⟨plan, ok, some⟩ :=
    ok_of_test (x := buildPlan (demoParams "redis" [("action", .str (str "reset"))]
    ["allow_changes", "allow_destroy"] "DELETE:redis") false)
      (p := fun plan => !plan.commands.isEmpty)
    (by decide +kernel)
  refine ⟨plan, ok, by simpa using some, fun c m => ?_⟩
  obtain ⟨argv, e, _, _, _, _, _, tokens⟩ := consent_safe ok c m
  exact ⟨argv, e, tokens⟩

def cleanupParams : Fields :=
  demoParams "mvp" [("action", .str (str "messages")), ("verb", .str (str "cleanup")),
    ("name", .str (str "msg-0123456789abcdef01234567"))] ["allow_changes"] ""

/-- The topics and the index of a message drill are deleted without consent to destroy and without a
phrase. -/
theorem cleanup_unconfirmed : ∃ plan, buildPlan cleanupParams false = .ok plan ∧
    (∃ c ∈ plan.commands, ∃ argv, c = base plan.projectRoot ++ argv ∧ discarding argv = true) ∧
    granted cleanupParams "allow_destroy" = false ∧ plan.requiredConfirmation = none := by
  obtain ⟨plan, ok, test⟩ := ok_of_test (x := buildPlan cleanupParams false)
    (p :=
      fun plan =>
      plan.commands == [base plan.projectRoot ++ [str "mvp", str "messages", str "cleanup",
        str "msg-0123456789abcdef01234567", str "--yes"]] && plan.requiredConfirmation.isNone)
        (by decide +kernel)
  rw [Bool.and_eq_true, beq_iff_eq, Option.isNone_iff_eq_none] at test
  refine ⟨plan, ok, ⟨_, test.1 ▸ List.mem_singleton_self _, _, rfl, by decide +kernel⟩,
    by decide +kernel, test.2⟩

end Runs

end DbLab.Ansible
