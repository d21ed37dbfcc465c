import DbLab.Perf.Recovery

/-!
# What guards leave behind

`Guard` and all sequences of actions. A change of the configuration is undone by the next recovery
that returns, whatever failed before, as long as it was made on the process that the guard was
entered on. The guard reads the run id of the server once, and originals of later settings when they
are first changed; a restart in between leads to changes that no recovery undoes.
-/

namespace DbLab.Perf
open DbLab.Py DbLab.Proc Relation

/-! ### The guard -/

section Guarding
variable {K : Option Journal → Prop} {g : Guard} {ks : List Str} {s s' : State}

/-- The guard, if there is one, has originals of these settings. -/
def Remembers (ks : List Str) (s : State) : Prop := ∀ g, s.guard = some g → ks ⊆ g.original.names

/-- The guard of a state, with what it remembers. -/
structure Guarded (g : Guard) (ks : List Str) (s : State) : Prop where
  idle : Idle s
  guard : s.guard = some g
  names : ks ⊆ g.original.names

/-- Drift keeps the guard's names. -/
lemma Guarded.drift (h : Guarded g ks s) (drift : Drifts s s') : Guarded g ks s' :=
  ⟨h.idle.drift drift, drift.guard.trans h.guard, h.names⟩

/-- A guarded state may end the program. -/
lemma Guarded.ends (h : Guarded g ks s) (keep : ∀ j, K j) : Ends K s := ⟨h.idle, keep _⟩

/-- Opening the link keeps the guard's names. -/
lemma Guarded.opened (h : Guarded g ks s) {p : Nat} (le : p ≤ s.process) :
    Guarded g ks { s with link := .opened p false } := ⟨h.idle.opened le, h.guard, h.names⟩

/-- A guarded state remembers the names. -/
lemma Guarded.remembers (h : Guarded g ks s) : Remembers ks s := by
  intro g' guard
  cases h.guard.symm.trans guard
  exact h.names

/-- The guard at hand has the names. -/
lemma self_wp (keep : ∀ j, K j) (idle : Idle s) (names : Remembers ks s) :
    wp K (fun g s' => Guarded g ks s') (ask .self) s := by
  refine file_wp (P := fun s => Idle s ∧ Remembers ks s) nofun ?_ (fun h _ => ⟨h.1, keep _⟩)
    (fun h => h.1.core)
    ⟨idle, names⟩ ?_
  · exact fun h drift => ⟨h.1.drift drift, fun g guard => h.2 g (drift.guard ▸ guard)⟩
  · rintro s g s' ⟨idle, names⟩ answers
    cases answers with
    | self guard => exact ⟨idle.core, ⟨idle, guard, names g guard⟩, fun _ => ⟨idle, keep _⟩⟩

/-- A value read for a setting that the guard has not changed is that from before. -/
def Original (g : Guard) (k v : Str) (s : State) : Prop :=
  g.serverId = s.process → s.base k = some v

/-- Drift keeps an original value. -/
lemma Original.drift {k v : Str} (h : Original g k v s) (guarded : Guarded g ks s)
    (drift : Drifts s s') :
    Original g k v s' := by
  cases drift with
  | restarted =>
    have own := (guarded.idle.guard g guarded.guard).own
    intro same
    dsimp only at same
    omega
  | others => exact h
  | administered config none closed => cases closed.symm.trans guarded.guard

/-- A setting that the guard does not know is as it was. -/
lemma Guarded.unchanged {k : Str} (h : Guarded g ks s) (new : k ∉ g.original.names)
    (here : g.serverId = s.process) :
    s.config k = s.base k := by
  cases named : s.journal with
  | none => rw [h.idle.core.settled named]
  | some j =>
    obtain ⟨own, originals, covers, restarted⟩ := h.idle.core.journal j named
    obtain ⟨same, names⟩ := (h.idle.guard g h.guard).journal j named
    by_contra changed
    exact new (names (covers (same.trans here) k changed))

/-- The value that is read is the original one. -/
lemma current_wp {k : Str} (keep : ∀ j, K j) (h : Guarded g ks s) (new : k ∉ g.original.names) :
    wp K (fun d s' => Guarded g ks s' ∧ ∀ v, d.lookup k = some v →
      Original g k v s') (redis (.configGet [k])) s := by
  refine redis_wp Guarded.drift (fun h => h.ends keep) h ?_
  intro s d s' h reaches serves
  cases serves with
  | configGet _ _ _ values =>
    refine ⟨h.idle, h.opened (Nat.le_refl _), fun v found here => ?_⟩
    have value := (values k List.mem_cons_self).symm.trans found
    exact (h.unchanged new here).symm.trans value

/-- A setting and its original are added. -/
lemma Guard.Holds.remember {k v : Str} (h : g.Holds s) (original : Original g k v s) :
    ({ g with original := g.original ++ [(k, v)] } : Guard).Holds s := by
  refine ⟨h.own, fun here k' v' found => ?_, fun j named => ⟨(h.journal j named).1, ?_⟩⟩
  · rw [List.lookup_append] at found
    cases old : g.original.lookup k' with
    | some w =>
      rw [old] at found
      exact h.originals here k' v' (old.trans found)
    | none =>
      rw [old, Option.none_or, List.lookup_singleton] at found
      split at found
      · rename_i same
        rw [beq_iff_eq.1 same, ← found]
        exact original here
      · cases found
  · intro k' m
    have old := (h.journal j named).2 m
    rw [Settings.names, List.map_append]
    exact List.mem_append_left _ old

/-- One more name is remembered. -/
lemma remember_wp {k : Str} (keep : ∀ j, K j) (idle : Idle s) (names : Remembers ks s) :
    wp K (fun _ s' => Idle s' ∧ Remembers (ks ++ [k]) s') (remember k) s := by
  refine bind_wp (self_wp keep idle names) ?_
  intro g s h
  split
  · rename_i known
    refine ⟨h.idle, fun g' guard => ?_⟩
    cases h.guard.symm.trans guard
    exact List.append_subset.2 ⟨h.names, fun _ m => List.mem_singleton.1 m ▸ known⟩
  · rename_i new
    refine bind_wp (current_wp keep h new) ?_
    rintro current s ⟨h, original⟩
    split
    · exact h.ends keep
    · rename_i v found
      refine file_wp (P := fun s => Guarded g ks s ∧ Original g k v s) nofun ?_
        (fun h _ => h.1.ends keep)
        (fun h => h.1.idle.core) ⟨h, original v found⟩ ?_
      · exact fun h drift => ⟨h.1.drift drift, h.2.drift h.1 drift⟩
      · rintro s a s' ⟨h, original⟩ answers
        cases answers with
        | remember _ _ guard =>
          cases h.guard.symm.trans guard
          have holds := (h.idle.guard g guard).remember original
          obtain ⟨settled, supported, journal, changes, unlinked, link, pinged⟩ := h.idle.core
          have idle :
              Idle { s with guard := some { g with original := g.original ++ [(k, v)] } } := by
            refine ⟨⟨settled, supported, fun j named => ?_, changes, unlinked, link, pinged⟩, ?_⟩
            · obtain ⟨own, originals, covers, restarted⟩ := journal j named
              exact ⟨own, originals, covers, restarted⟩
            · rintro g' ⟨⟩
              obtain ⟨own, originals, journal⟩ := holds
              exact ⟨own, originals, journal⟩
          refine ⟨idle.core, ⟨idle, ?_⟩, fun _ => ⟨idle, keep _⟩⟩
          rintro g' ⟨⟩
          rw [Settings.names, List.map_append]
          exact List.append_subset.2 ⟨List.subset_append_of_subset_left _ h.names,
            List.subset_append_of_subset_right _ (List.Subset.refl _)⟩

/-- All the names are remembered. -/
lemma rememberAll_wp (keep : ∀ j, K j) (names done : List Str) (idle : Idle s)
    (remembers : Remembers done s) :
    wp K (fun _ s' => Idle s' ∧ Remembers (done ++ names) s') (rememberAll names) s := by
  induction names generalizing done s with
  | nil =>
    rw [List.append_nil]
    exact ⟨idle, remembers⟩
  | cons k names ih =>
    refine bind_wp (remember_wp keep idle remembers) ?_
    rintro _ s ⟨idle, remembers⟩
    rw [List.append_cons]
    exact ih (done ++ [k]) idle remembers

/-- A journal that has these settings. -/
def Journals (ks : List Str) (s : State) : Prop := ∃ j, s.journal = some j ∧ ks ⊆ j.config.names

/-- A journal that is persisted has the names. -/
lemma persist_wp (keep : ∀ j, K j) (idle : Idle s) (names : Remembers ks s) :
    wp K (fun _ s' => Idle s' ∧ Journals ks s') persist s := by
  refine bind_wp (self_wp keep idle names) ?_
  intro g s h
  refine file_wp nofun Guarded.drift (fun h _ => h.ends keep) (fun h => h.idle.core) h ?_
  intro s a s' h answers
  cases answers with
  | persist =>
    obtain ⟨own, originals, journal⟩ := h.idle.guard g h.guard
    have holds : Journal.Holds ⟨g.serverId, g.keyPrefix, g.original⟩ s := by
      refine ⟨own, originals, fun here k changed => ?_, fun other => ?_⟩
      · by_contra new
        exact changed (h.unchanged new here)
      · cases named : s.journal with
        | none => exact h.idle.core.settled named
        | some j =>
          exact (h.idle.core.journal j named).restarted ((journal j named).1.trans_ne other)
    obtain ⟨settled, supported, _, changes, unlinked, link, pinged⟩ := h.idle.core
    have idle : Idle { s with journal := some ⟨g.serverId, g.keyPrefix, g.original⟩ } := by
      refine ⟨⟨nofun, supported, ?_, changes, unlinked, link, pinged⟩, fun g' guard => ?_⟩
      · rintro j ⟨⟩
        obtain ⟨own, originals, covers, restarted⟩ := holds
        exact ⟨own, originals, covers, restarted⟩
      · cases h.guard.symm.trans guard
        refine ⟨own, originals, ?_⟩
        rintro j ⟨⟩
        exact ⟨rfl, List.Subset.refl _⟩
    exact ⟨idle.core, ⟨idle, _, rfl, h.names⟩, fun _ => ⟨idle, keep _⟩⟩

/-- A change of the configuration keeps the invariant on the process that the journal is about. -/
lemma configure_wp (keep : ∀ j, K j) (settings : Settings) (idle : Idle s) :
    wp K (fun _ => Idle) (configure settings) s := by
  unfold configure
  split
  · exact ⟨idle, keep _⟩
  refine bind_wp (rememberAll_wp keep settings.names [] idle fun _ _ => List.nil_subset _) ?_
  rintro _ s ⟨idle, remembers⟩
  refine bind_wp (persist_wp keep idle remembers) ?_
  rintro _ s ⟨idle, journals⟩
  refine redis_wp (P := fun s => Idle s ∧ Journals settings.names s) ?_ (fun h => ⟨h.1, keep _⟩)
    ⟨idle, journals⟩ ?_
  · rintro s s' ⟨idle, j, named, names⟩ drift
    exact ⟨idle.drift drift, j, drift.journal.trans named, names⟩
  · rintro s a s' ⟨idle, j, named, names⟩ reaches serves
    have here := reaches.home.resolve_left id settings rfl j named
    have idle' := serves.configSet_idle idle named here names
    exact ⟨idle', idle'.opened (Nat.le_of_eq serves.process.symm)⟩

/-- The lock is taken while no guard is entered. -/
lemma flock_wp (ends : Ends K s) (stable : ∀ {s s'}, Ends K s → Drifts s s' → Ends K s') :
    wp K (fun a s' => Ends K s' ∧ (a = true → s'.guard = none)) (ask .flock) s := by
  refine file_wp nofun stable (fun h _ => h) (fun h => h.idle.core) ends ?_
  intro s a s' h answers
  cases answers with
  | flock free none =>
    obtain ⟨settled, supported, journal, changes, unlinked, link, pinged⟩ := h.idle.core
    have core : Core { s with locked := true } := by
      refine ⟨settled, supported, fun j named => ?_, changes, unlinked, link, pinged⟩
      obtain ⟨own, originals, covers, restarted⟩ := journal j named
      exact ⟨own, originals, covers, restarted⟩
    have ends : Ends K { s with locked := true } :=
      ⟨⟨core, fun g guard => (nomatch none.symm.trans guard)⟩, h.journal⟩
    exact ⟨core, ⟨ends, fun _ => none⟩, fun _ => ends⟩
  | busy held => exact ⟨h.idle.core, ⟨h, nofun⟩, fun _ => h⟩

/-- Unlocking keeps the core. -/
lemma Core.unlocked (core : Core s) : Core { s with locked := false } := by
  obtain ⟨settled, supported, journal, changes, unlinked, link, pinged⟩ := core
  refine ⟨settled, supported, fun j named => ?_, changes, unlinked, link, pinged⟩
  obtain ⟨own, originals, covers, restarted⟩ := journal j named
  exact ⟨own, originals, covers, restarted⟩

/-- Unlocking keeps an idle state. -/
lemma Idle.unlocked (idle : Idle s) : Idle { s with locked := false } := by
  refine ⟨idle.core.unlocked, fun g entered => ?_⟩
  obtain ⟨own, originals, journal⟩ := idle.guard g entered
  exact ⟨own, originals, journal⟩

/-- The lock of a guard that is not entered is given up. -/
lemma abandon_wp (keep : ∀ j, K j) (idle : Idle s) : wp K (fun _ => Idle) (ask .abandon) s := by
  refine file_wp nofun Idle.drift nofun Idle.core idle ?_
  intro s a s' idle answers
  cases answers with
  | abandon => exact ⟨idle.core.unlocked, idle.unlocked, fun _ => ⟨idle.unlocked, keep _⟩⟩

/-- The lock is given up. An interruption is raised where the journal is still there. -/
lemma unlock_wp {R : State → Prop} (stable : ∀ {s s'}, R s → Drifts s s' → R s')
    (frame : ∀ {s}, R s → R { s with locked := false })
    (kept : ∀ {s}, R s → s.journal.isSome = true → K s.journal)
    (idle : Idle s) (known : R s) : wp K (fun _ s' => Idle s' ∧ R s') (ask .unlock) s := by
  refine file_wp (P := fun s => Idle s ∧ R s) nofun ?_ nofun (fun h => h.1.core) ⟨idle, known⟩ ?_
  · exact fun h drift => ⟨h.1.drift drift, stable h.2 drift⟩
  · rintro s a s' ⟨idle, known⟩ answers
    cases answers with
    | unlock =>
      refine ⟨idle.core.unlocked, ⟨idle.unlocked, frame known⟩, fun calm => ⟨idle.unlocked, ?_⟩⟩
      exact kept (frame known) (calm.resolve_left nofun)

/-- A guard is left. An interruption is raised where the journal is still there. -/
lemma release_wp {R : State → Prop} (stable : ∀ {s s'}, R s → Drifts s s' → R s')
    (frame : ∀ {s}, R s → R { s with guard := none })
    (kept : ∀ {s}, R s → s.journal.isSome = true → K s.journal)
    (idle : Idle s) (known : R s) : wp K (fun _ s' => Idle s' ∧ R s') (ask .release) s := by
  refine file_wp (P := fun s => Idle s ∧ R s) nofun ?_ nofun (fun h => h.1.core) ⟨idle, known⟩ ?_
  · exact fun h drift => ⟨h.1.drift drift, stable h.2 drift⟩
  · rintro s a s' ⟨idle, known⟩ answers
    cases answers with
    | release =>
      obtain ⟨⟨settled, supported, journal, changes, unlinked, link, pinged⟩, guard⟩ := idle
      have core : Core { s with guard := none } := by
        refine ⟨settled, supported, fun j named => ?_, changes, unlinked, link, pinged⟩
        obtain ⟨own, originals, covers, restarted⟩ := journal j named
        exact ⟨own, originals, covers, restarted⟩
      have idle : Idle { s with guard := none } := ⟨core, nofun⟩
      exact ⟨core, ⟨idle, frame known⟩,
        fun calm => ⟨idle, kept (frame known) (calm.resolve_left nofun)⟩⟩

/-- The state of a new guard before its journal is written. -/
structure Vacant (s : State) : Prop where
  idle : Idle s
  guard : s.guard = none
  journal : s.journal = none

/-- Drift keeps a vacant state. -/
lemma Vacant.drift (h : Vacant s) (drift : Drifts s s') : Vacant s' :=
  ⟨h.idle.drift drift, drift.guard.trans h.guard, drift.journal.trans h.journal⟩

/-- A vacant state may end the program. -/
lemma Vacant.ends (h : Vacant s) (keep : ∀ j, K j) : Ends K s := ⟨h.idle, keep _⟩

/-- The first journal of a guard names no settings. -/
lemma Vacant.persist (h : Vacant s) {id : Nat} (le : id ≤ s.process) (keyPrefix : Str) :
    Idle { s with journal := some ⟨id, keyPrefix, []⟩ } := by
  obtain ⟨settled, supported, _, changes, unlinked, link, pinged⟩ := h.idle.core
  have same := settled h.journal
  refine ⟨⟨nofun, supported, ?_, changes, unlinked, link, pinged⟩,
    fun g guard => (nomatch h.guard.symm.trans guard)⟩
  rintro j ⟨⟩
  exact ⟨le, fun _ _ _ => nofun, fun _ k changed => absurd (congrFun same k) changed, fun _ => same⟩

/-- The state in which a guard is entered. -/
structure Claimed (g : Guard) (s : State) : Prop where
  idle : Idle s
  guard : s.guard = none
  journal : s.journal = some ⟨g.serverId, g.keyPrefix, []⟩

/-- Drift keeps a claim. -/
lemma Claimed.drift (h : Claimed g s) (drift : Drifts s s') : Claimed g s' :=
  ⟨h.idle.drift drift, drift.guard.trans h.guard, drift.journal.trans h.journal⟩

/-- A claim without originals is entered idle. -/
lemma Claimed.enter (h : Claimed g s) (new : g.original = []) :
    Idle { s with guard := some g, locked := false } := by
  obtain ⟨settled, supported, journal, changes, unlinked, link, pinged⟩ := h.idle.core
  refine ⟨⟨settled, supported, fun j named => ?_, changes, unlinked, link, pinged⟩, ?_⟩
  · obtain ⟨own, originals, covers, restarted⟩ := journal j named
    exact ⟨own, originals, covers, restarted⟩
  · rintro g' ⟨⟩
    refine ⟨(journal _ h.journal).own, fun _ k v found => ?_, fun j named => ?_⟩
    · rw [new] at found
      cases found
    · cases h.journal.symm.trans named
      exact ⟨rfl, List.nil_subset _⟩

/-- Claiming ends idle. -/
lemma claim_wp (keep : ∀ j, K j) (keyPrefix : Str) (idle : Idle s) (none : s.guard = none) :
    wp K (fun _ => Idle) (claim keyPrefix) s := by
  unfold claim
  refine bind_wp (R := fun found s => Idle s ∧ (found = false → Vacant s)) ?_ ?_
  · refine file_wp (P := fun s => Idle s ∧ s.guard = Option.none) nofun ?_
      (fun h _ => ⟨h.1, keep _⟩) (fun h => h.1.core)
      ⟨idle, none⟩ ?_
    · exact fun h drift => ⟨h.1.drift drift, drift.guard.trans h.2⟩
    · rintro s found s' ⟨idle, none⟩ answers
      cases answers with
      | journalExists =>
        exact ⟨idle.core, ⟨idle, fun absent =>
          ⟨idle, none, Option.isSome_eq_false_iff.1 absent |> Option.isNone_iff_eq_none.1⟩⟩,
            fun _ => ⟨idle, keep _⟩⟩
  rintro found s ⟨idle, vacant⟩
  split
  · exact ⟨idle, keep _⟩
  rename_i absent
  refine bind_wp (R := fun _ => Vacant) ?_ ?_
  · refine file_wp nofun Vacant.drift (fun h _ => h.ends keep) (fun h => h.idle.core)
      (vacant (by simpa using absent)) ?_
    intro s a s' h answers
    cases answers with
    | connection =>
      have vacant : Vacant { s with link := .closed } := ⟨h.idle.closed, h.guard, h.journal⟩
      exact ⟨vacant.idle.core, vacant, fun _ => vacant.ends keep⟩
  intro _ s h
  refine bind_wp (R := fun info s => Vacant s ∧ info.runId ≤ s.process) ?_ ?_
  · refine redis_wp Vacant.drift (fun h => h.ends keep) h ?_
    intro s info s' h reaches serves
    cases serves with
    | info _ _ own =>
      exact ⟨h.idle, ⟨h.idle.opened (Nat.le_refl _), h.guard, h.journal⟩, Nat.le_of_eq own⟩
  rintro info s ⟨h, le⟩
  dsimp only
  split
  · exact h.ends keep
  split
  · exact h.ends keep
  refine bind_wp (R := fun _ => Claimed ⟨info.runId, keyPrefix, []⟩) ?_ ?_
  · refine file_wp (P := fun s => Vacant s ∧ info.runId ≤ s.process) nofun ?_
      (fun h _ => h.1.ends keep)
      (fun h => h.1.idle.core) ⟨h, le⟩ ?_
    · exact fun h drift => ⟨h.1.drift drift, Nat.le_trans h.2 drift.process⟩
    · rintro s a s' ⟨h, le⟩ answers
      cases answers with
      | persist =>
        have idle := h.persist le keyPrefix
        exact ⟨idle.core, ⟨idle, h.guard, rfl⟩, fun _ => ⟨idle, keep _⟩⟩
  · intro _ s h
    refine file_wp nofun Claimed.drift (fun h _ => ⟨h.idle, keep _⟩) (fun h => h.idle.core) h ?_
    intro s a s' h answers
    cases answers with
    | enter =>
      have idle := h.enter rfl
      exact ⟨idle.core, idle, fun _ => ⟨idle, keep _⟩⟩

/-- Entering ends idle. -/
lemma enter_wp (keep : ∀ j, K j) (reportId : Str) (idle : Idle s) :
    wp K (fun _ => Idle) (enter reportId) s := by
  unfold enter ownedPrefix
  split
  · refine bind_wp (R := fun _ => Idle) idle fun keyPrefix s idle => ?_
    refine bind_wp (flock_wp ⟨idle, keep _⟩ fun h drift => ⟨h.idle.drift drift, keep _⟩) ?_
    rintro a s ⟨h, free⟩
    split
    · rename_i taken
      refine (World.wp_handle _ _).2 (World.wp_mono (claim_wp keep keyPrefix h.idle (free taken))
        (fun _ _ idle => idle) ?_)
      intro e s ends
      exact bind_wp (abandon_wp keep ends.idle) fun _ s idle => ⟨idle, keep _⟩
    · exact h
  · exact ⟨idle, keep _⟩

end Guarding

/-! ### All actions -/

section System

/-- An action that recovers a journal has done so. -/
def Outcome.Restores : Outcome → Prop
  | .exited (.restored _) | .recovered _ => True
  | _ => False

/-- An action that recovers a journal. -/
def Action.Recovers : Action → Prop
  | .exit _ _ | .recover _ => True
  | _ => False

/-- What is claimed of an action that has ended: a recovery that returned has restored all, and one
that raised has left the journal. -/
structure Handled (c : Action) (b : State) (r : Except Raised Outcome) (s : State) : Prop where
  restored : ∀ o, r = .ok o → o.Restores → Recovered b.journal s
  kept : c.Recovers → (∀ o, r = .ok o → ¬o.Restores) → s.journal = b.journal

variable {b : Option Journal} {s s' : State}

/-- Drift keeps what is recovered. -/
lemma Recovered.drift (h : Recovered b s) (drift : Drifts s s') : Recovered b s' :=
  ⟨drift.settled h.config, fun j q named bytes =>
    ⟨(h.keys j q named bytes).1.drift (h.keys j q named bytes).2 drift, (h.keys j q named bytes).2⟩,
    drift.journal.trans h.journal⟩

/-- Behind a recovery there is no journal. -/
lemma Recovered.gone {P : Prop} (h : Recovered b s) (kept : s.journal.isSome = true) : P := by
  rw [h.journal] at kept
  cases kept

/-- Drift keeps what is handled. -/
lemma Handled.drift {c : Action} {b : State} {r : Except Raised Outcome} (h : Handled c b r s)
    (drift : Drifts s s') :
    Handled c b r s' :=
  ⟨fun o ok restores => (h.restored o ok restores).drift drift,
    fun recovers none => drift.journal.trans (h.kept recovers none)⟩

/-- Recovery that returns has recovered the journal it found. -/
lemma recover_wp (rounds : Nat) (idle : Idle s) (same : s.journal = b) :
    wp (· = b) (fun _ s' => Idle s' ∧ Recovered b s') (recover rounds) s := by
  have stable : ∀ {s s'}, Ends (· = b) s → Drifts s s' → Ends (· = b) s' :=
    fun h drift => ⟨h.idle.drift drift, drift.journal.trans h.journal⟩
  refine bind_wp (flock_wp ⟨idle, same⟩ stable) ?_
  rintro a s ⟨h, _⟩
  split
  · have body : wp (· = b) (fun _ s' => Idle s' ∧ Recovered b s') (do
        ask .connection
        recoverJournal rounds) s := by
      refine bind_wp (R := fun _ => Ends (· = b)) ?_ fun _ s h =>
        recoverJournal_wp rounds h.idle h.journal
      refine file_wp nofun stable (fun h _ => h) (fun h => h.idle.core) h ?_
      intro s u s' h answers
      cases answers with
      | connection => exact ⟨h.closed.idle.core, h.closed, fun _ => h.closed⟩
    refine (World.wp_ensure _ _).2 (World.wp_mono body ?_ ?_)
    · rintro r s ⟨idle, recovered⟩
      exact unlock_wp Recovered.drift (fun h => ⟨h.config, h.keys, h.journal⟩)
        (fun h kept => h.gone kept) idle recovered
    · intro e s ends
      refine World.wp_mono (unlock_wp (R := fun s => s.journal = b)
        (fun h drift => drift.journal.trans h) id
        (fun h _ => h) ends.idle ends.journal) ?_ fun _ _ ends => ends
      exact fun _ s h => ⟨h.1, h.2⟩
  · exact h

/-- What an exit reports is so. -/
def Reported (b : Option Journal) : Report → State → Prop
  | .restored _, s => Recovered b s
  | .retained, s => s.journal = b

/-- Drift keeps a report. -/
lemma Reported.drift {r : Report} (h : Reported b r s) (drift : Drifts s s') : Reported b r s' := by
  cases r with
  | restored x => exact Recovered.drift h drift
  | retained => exact drift.journal.trans h

/-- Leaving reports what it recovered. -/
lemma exit_wp (rounds : Nat) (raised : Bool) (idle : Idle s) (same : s.journal = b) :
    wp (· = b) (fun r s' => Idle s' ∧ Reported b r s') (exit rounds raised) s := by
  have body : wp (· = b) (fun r s' => Idle s' ∧ Reported b r s') (tryCatch (do
      let r ← recoverJournal rounds
      pure (.restored r)) fun e => if raised then pure .retained else throw e) s := by
    refine (World.wp_handle _ _).2
      ((World.wp_bind _ _).2 (World.wp_mono (recoverJournal_wp rounds idle same) ?_ ?_))
    · exact fun r s h => h
    · intro e s ends
      split
      · exact ⟨ends.idle, ends.journal⟩
      · exact ends
  refine (World.wp_ensure _ _).2 (World.wp_mono body ?_ ?_)
  · rintro r s ⟨idle, reported⟩
    refine release_wp Reported.drift (fun h => ?_) (fun h kept => ?_) idle reported
    · cases r with
      | restored x => exact ⟨h.config, h.keys, h.journal⟩
      | retained => exact h
    · cases r with
      | restored x => exact Recovered.gone h kept
      | retained => exact h
  · intro e s ends
    refine World.wp_mono (release_wp (R := fun s => s.journal = b)
      (fun h drift => drift.journal.trans h) id
      (fun h _ => h) ends.idle ends.journal) ?_ fun _ _ ends => ends
    exact fun _ s h => ⟨h.1, h.2⟩

/-- An action that recovers nothing. -/
lemma Handled.other {c : Action} {b : State} {r : Except Raised Outcome}
    (none : ∀ o, r = .ok o → ¬o.Restores)
    (other : ¬c.Recovers) : Handled c b r s :=
  ⟨fun o ok restores => absurd restores (none o ok), fun recovers => absurd recovers other⟩

/-- Every action keeps what it promises. -/
lemma verified : Verified (perf False) Action.code Idle Core Handled where
  begins := Idle.core
  code := by
    intro c b idle
    have plain : ∀ {p : Method Unit}, ¬c.Recovers → wp (fun _ => True) (fun _ => Idle) p b →
        (perf False).wp Core (fun o s' => Idle s' ∧ Handled c b (.ok o) s')
          (fun e s' => Idle s' ∧ Handled c b (.error e) s') (do
            p
            pure Outcome.finished) b := by
      intro p other h
      refine (World.wp_bind _ _).2 (World.wp_mono h ?_ fun e s ends =>
        ⟨ends.idle, .other nofun other⟩)
      refine fun _ s idle => ⟨idle, .other ?_ other⟩
      rintro o ⟨⟩
      exact id
    cases c with
    | enter reportId => exact plain id (enter_wp (fun _ => trivial) reportId idle)
    | configure settings => exact plain id (configure_wp (fun _ => trivial) settings idle)
    | work keys =>
      refine plain id (redis_wp Idle.drift (fun h => ⟨h, trivial⟩) idle ?_)
      intro s u s' idle reaches serves
      have idle' := serves.idle trivial idle
      exact ⟨idle', idle'.opened (Nat.le_of_eq serves.process.symm)⟩
    | exit rounds raised =>
      have left : ∀ {s} (e : Raised), Ends (· = b.journal) s →
          Idle s ∧ Handled (.exit rounds raised) b (.error e) s :=
            fun e ends => ⟨ends.idle, nofun, fun _ _ => ends.journal⟩
      have entered : wp (· = b.journal) (fun _ => Ends (· = b.journal)) (ask .self) b := by
        refine file_wp (P := Ends (· = b.journal)) nofun ?_ (fun h _ => h) (fun h => h.idle.core)
          ⟨idle, rfl⟩ ?_
        · exact fun h drift => ⟨h.idle.drift drift, drift.journal.trans h.journal⟩
        · intro s g s' h answers
          cases answers with
          | self => exact ⟨h.idle.core, h, fun _ => h⟩
      refine (World.wp_bind _ _).2 (World.wp_mono entered ?_ fun e s => left e)
      intro g s h
      refine (World.wp_bind _ _).2 (World.wp_mono (exit_wp rounds raised h.idle h.journal) ?_
        fun e s => left e)
      rintro r s ⟨idle, reported⟩
      cases r with
      | restored x =>
        refine ⟨idle, fun _ _ _ => reported, fun _ none => absurd trivial (none _ rfl)⟩
      | retained =>
        refine ⟨idle, ?_, fun _ _ => reported⟩
        rintro o ⟨⟩ ⟨⟩
    | recover rounds =>
      refine (World.wp_bind _ _).2 (World.wp_mono (recover_wp rounds idle rfl) ?_ ?_)
      · rintro r s ⟨idle, recovered⟩
        exact ⟨idle, fun _ _ _ => recovered, fun _ none => absurd trivial (none _ rfl)⟩
      · exact fun e s ends => ⟨ends.idle, nofun, fun _ _ => ends.journal⟩
  idle := Idle.drift
  always := Core.drift
  drifts := Handled.drift
  killed := by
    rintro s s' core rfl
    exact core.killed

/-- A server that no guard has changed, and no journal. -/
structure Start (s : State) : Prop where
  config : s.config = s.base
  link : s.link = .closed
  guard : s.guard = none
  journal : s.journal = none
  pinged : s.pinged = none
  changes : s.changes = []
  unlinked : s.unlinked = []

/-- The start is idle. -/
lemma Start.idle (h : Start s) : Idle s := by
  refine ⟨⟨fun _ => h.config,
    fun k => by rw [h.config], fun j named => (nomatch h.journal.symm.trans named), ?_, ?_,
    fun p stale opened => (nomatch h.link.symm.trans opened), fun p pinged =>
      (nomatch h.pinged.symm.trans pinged)⟩,
    fun g entered => (nomatch h.guard.symm.trans entered)⟩
  · rw [h.changes]
    nofun
  · rw [h.unlinked]
    nofun

/-- In every run without the hazards: no change is made before the journal has the originals of its
settings, only keys with the prefix of the journal are removed, a recovery that returns has restored
all, and one that raises has left the journal. -/
theorem guard_recovers {s₀ : State} {s : Config (perf False) Action Outcome} (start : Start s₀)
    (h : Reachable Action.code s₀ s) :
    (∀ c ∈ s.state.changes, c.Journaled) ∧ (∀ x ∈ s.state.unlinked, Owned x) ∧
    ∀ e ∈ s.log, Handled e.command e.before e.result e.after := by
  have sound := verified.sound start.idle h
  exact ⟨sound.always.changes, sound.always.unlinked, sound.log⟩

end System

/-! ### A guard that is undone, and one that is not -/

section Demo

/-- What a server does that has a value for each setting and returns all keys at once. -/
def serve : (v : Verb) → State → v.Answer × State
  | .info, s => (⟨some (str "master"), some 0, none, s.process⟩, s)
  | .configGet names, s => (names.filterMap fun k => (s.config k).map (k, ·), s)
  | .configSet settings, s =>
    ((), { s.receive (.configSet settings) with
      config := fun k => (s.config k).map fun v => (settings.lookup k).getD v })
  | .scan cursor q, s =>
    let keys := s.keys.filter q.isPrefixOf
    ((cursor, keys), { s with unseen := s.rest cursor keys })
  | .unlink keys, s => ((s.keys.filter (· ∈ keys)).length, { s with
      keys := s.keys.filter (· ∉ keys)
      unseen := s.unseen.filter (· ∉ keys)
      unlinked := s.unlinked ++ keys.map fun k => (s.journal, k) })
  | .ping, s => (pong, { s with pinged := some s.process })
  | .write keys, s => ((), { s with keys := s.keys ++ keys })

/-- Looking up a name that is asked for. -/
lemma lookup_filterMap (config : Configuration) {names : List Str} {k : Str} (m : k ∈ names) :
    (names.filterMap fun k => (config k).map (k, ·)).lookup k = config k := by
  induction names with
  | nil => cases m
  | cons n names ih =>
    by_cases same : k = n
    · subst same
      cases value : config k with
      | none =>
        rw [List.filterMap_cons_none (by rw [value]; rfl)]
        by_cases again : k ∈ names
        · rw [ih again, value]
        · rw [List.lookup_eq_none_iff]
          intro p mp
          obtain ⟨n, mn, e⟩ := List.mem_filterMap.1 mp
          obtain ⟨v, _, rfl⟩ := Option.map_eq_some_iff.1 e
          simpa using fun same : k = n => again (same ▸ mn)
      | some v =>
        rw [List.filterMap_cons_some (by rw [value]; rfl), List.lookup_cons_self]
    · have later := ih ((List.mem_cons.1 m).resolve_left same)
      cases value : config n with
      | none => rw [List.filterMap_cons_none (by rw [value]; rfl), later]
      | some v =>
        rw [List.filterMap_cons_some (by rw [value]; rfl), List.lookup_cons,
          beq_eq_false_iff_ne.2 same]
        exact later

/-- The server of the example serves. -/
lemma serve_serves (v : Verb) (s : State) : Serves v s (serve v s).1 (serve v s).2 := by
  cases v with
  | info => exact .info s _ rfl
  | configGet names => exact .configGet s names _ fun k m => lookup_filterMap s.config m
  | configSet settings =>
    refine .configSet s settings _ (fun k => Option.isSome_map) fun k other => ?_
    have none : settings.lookup k = none := by
      by_contra some_
      exact other (Settings.mem_names.2 (Option.ne_none_iff_exists'.1 some_))
    simp [none]
  | scan cursor q =>
    refine .scan s cursor q cursor _ (fun k m => ?_) fun first k m own => ?_
    · simpa using m
    · rw [State.rest, if_pos first, List.mem_filter] at m
      have returned : k ∈ s.keys.filter q.isPrefixOf :=
        List.mem_filter.2 ⟨m.1, List.isPrefixOf_iff_prefix.2 own⟩
      exact absurd returned (by simpa only [decide_eq_true_eq] using m.2)
  | unlink keys => exact .unlink s keys
  | ping => exact .ping s
  | write keys => exact .write s keys

/-- A command gets through on a connection that is not to an earlier process, where `careful` only
to the process that the journal is about. -/
def through (careful : Bool) (s : State) : Bool :=
  (match s.link with
  | .closed => true
  | .opened p stale => p == s.process && !stale) &&
  (!careful || s.journal.all fun j => j.serverId == s.process)

/-- What it lets through reaches it. -/
lemma reaches_of_through {hazards : Prop} {careful : Bool} (h : careful = false → hazards)
    {v : Verb} {s : State}
    (ok : through careful s = true) : Reaches hazards v s := by
  rw [through, Bool.and_eq_true] at ok
  obtain ⟨live, home⟩ := ok
  refine ⟨?_, ?_⟩
  · cases link : s.link with
    | closed => exact .inl rfl
    | opened p stale =>
      rw [link] at live
      simp only [Bool.and_eq_true, beq_iff_eq, Bool.not_eq_true'] at live
      obtain ⟨rfl, rfl⟩ := live
      exact .inr rfl
  · cases careful with
    | false => exact .inl (h rfl)
    | true =>
      refine .inr fun _ _ j named => ?_
      rw [named] at home
      simpa using home

/-- The answer to each call where nothing fails but what must. -/
def respond (careful : Bool) : (x : Call) → State → Except Raised x.Result × State
  | .redis v, s =>
    if through careful s then
      (.ok (serve v s).1, { (serve v s).2 with link := .opened s.process false })
    else (.error .transport, { s with link := .closed })
  | .connection, s => (.ok (), { s with link := .closed })
  | .flock, s =>
    if s.locked = false ∧ s.guard.isNone then (.ok true, { s with locked := true })
      else (.ok false, s)
  | .unlock, s | .abandon, s => (.ok (), { s with locked := false })
  | .journalExists, s => (.ok s.journal.isSome, s)
  | .readJournal, s => (match s.journal with | some j => .ok j | none => .error .os, s)
  | .persist j, s => (.ok (), { s with journal := some j })
  | .unlinkJournal, s => (.ok (), { s with journal := none })
  | .self, s => (match s.guard with | some g => .ok g | none => .error (.py .attributeError), s)
  | .enter g, s => (.ok (), { s with guard := some g, locked := false })
  | .remember k v, s =>
    match s.guard with
    | some g => (.ok (), { s with guard := some { g with original := g.original ++ [(k, v)] } })
    | none => (.error (.py .attributeError), s)
  | .release, s => (.ok (), { s with guard := none })
  | .hang, s => (.error .interrupt, s)

/-- The responses of the example are possible ones. -/
lemma respond_does {hazards : Prop} {careful : Bool} (h : careful = false → hazards) (x : Call)
    (s : State) :
    Does hazards x s (respond careful x s).1 (respond careful x s).2 := by
  cases x with
  | redis v =>
    unfold respond
    dsimp only
    split
    · exact .answers (.redis (reaches_of_through h ‹_›) (serve_serves v s))
    · exact .closes s .transport rfl
  | connection => exact .answers (.connection s)
  | flock =>
    unfold respond
    dsimp only
    split
    · rename_i free
      exact .answers (.flock free.1 (Option.isNone_iff_eq_none.1 free.2))
    · rename_i held
      refine .answers (.busy ?_)
      by_contra free
      simp only [not_or, Bool.not_eq_true, not_not] at free
      exact held ⟨free.1, Option.isNone_iff_eq_none.2 free.2⟩
  | unlock => exact .answers (.unlock s)
  | abandon => exact .answers (.abandon s)
  | journalExists => exact .answers (.journalExists s)
  | readJournal =>
    unfold respond
    dsimp only
    cases named : s.journal with
    | some j => exact .answers (.readJournal named)
    | none => exact .raises s .os rfl
  | persist j => exact .answers (.persist s j)
  | unlinkJournal => exact .answers (.unlinkJournal s)
  | self =>
    unfold respond
    dsimp only
    cases entered : s.guard with
    | some g => exact .answers (.self entered)
    | none => exact .raises s _ rfl
  | enter g => exact .answers (.enter s g)
  | remember k v =>
    unfold respond
    dsimp only
    cases entered : s.guard with
    | some g => exact .answers (.remember k v entered)
    | none => exact .raises s _ rfl
  | release => exact .answers (.release s)
  | hang => exact .raises s .interrupt rfl

def steady {hazards : Prop} (careful : Bool) (h : careful = false → hazards) :
    Oracle (perf hazards) Unit where
  answer x s u := ((respond careful x s).1, (respond careful x s).2, u)
  does x s _ := respond_does h x s

/-- A server with one setting. -/
def ten : Configuration := fun k => if k = str "hz" then some (str "10") else none

def opening : State := ⟨0, ten, ten, [], [], .closed, none, false, none, none, [], []⟩

/-- The opening is a start. -/
lemma opening_start : Start opening := ⟨rfl, rfl, rfl, rfl, rfl, rfl, rfl⟩

def fifty : Action := .configure [(str "hz", str "50")]

/-- `guard_recovers` for a guard that changes a setting, writes a key, and is left. -/
theorem guard_recovers_fifty :
    ∃ (s : Config (perf False) Action Outcome) (e : Ended (perf False) Action Outcome),
      Reachable Action.code opening s ∧ e ∈ s.log ∧ e.before.config (str "hz") = some (str "50") ∧
    e.before.keys ≠ [] ∧ e.after.keys = [] ∧ Handled e.command e.before e.result e.after := by
  have fresh : Reachable (W := perf False) Action.code opening ⟨opening, none, []⟩ := .init
  have reach := Oracle.runAll_reachable (O := steady true nofun)
    [.enter (str "abcdefgh"), fifty,
      .work [scenarioKeys ++ [97, 98, 99, 100, 101, 102, 103, 104, 58, 49]], .exit 1 false] ()
    fresh
  have all := (guard_recovers opening_start reach).2.2
  refine ⟨_, _, reach, List.mem_append_right _
    (List.mem_cons_of_mem _ (List.mem_cons_of_mem _ (List.mem_cons_of_mem _
    List.mem_cons_self))), ?_, ?_, ?_,
      all _ (List.mem_append_right _ (List.mem_cons_of_mem _ (List.mem_cons_of_mem _
    (List.mem_cons_of_mem _ List.mem_cons_self))))⟩
  · decide +kernel
  · decide +kernel
  · decide +kernel

/-- A recovery that returned. -/
def returned : Except Raised Outcome → Bool
  | .ok (.exited (.restored _)) | .ok (.recovered _) => true
  | _ => false

/-- A recovery that returns has recovered. -/
lemma Handled.recovered {c : Action} {b s : State} {r : Except Raised Outcome} (h : Handled c b r s)
    (ok : returned r = true) : Recovered b.journal s := by
  cases r with
  | error e => cases ok
  | ok o =>
    refine h.restored o rfl ?_
    cases o with
    | finished => cases ok
    | recovered r => trivial
    | exited r =>
      cases r with
      | restored r => trivial
      | retained => cases ok

/-- The server restarts after a guard is entered. The guard changes a setting of the new process on
its second try, and leaves it so when it is left. -/
theorem changed_after_restart : ¬∀ (s₀ : State) (s : Config (perf True) Action Outcome), Start s₀ →
    Reachable Action.code s₀ s → ∀ e ∈ s.log, Handled e.command e.before e.result e.after := by
  intro claimed
  let O : Oracle (perf True) Unit := steady false fun _ => trivial
  have fresh : Reachable (W := perf True) Action.code opening ⟨opening, none, []⟩ := .init
  have entered := Oracle.runAll_reachable (O := O) [.enter (str "abcdefgh")] () fresh
  have restarted := Reachable.step entered (.drift (.restarted _ ten [] []))
  have left := Oracle.runAll_reachable (O := O) [fifty, fifty, .exit 1 false] () restarted
  have handled := claimed _ _ opening_start left _ (List.mem_append_right _ (List.mem_cons_of_mem _
    (List.mem_cons_of_mem _ List.mem_cons_self)))
  have same := congrFun (handled.recovered (by decide +kernel)).config (str "hz")
  revert same
  decide +kernel

/-- An interruption behind the removal of the journal. -/
def cutShort : Oracle (perf True) Unit where
  answer
    | .unlinkJournal, s, u => (.error .interrupt, { s with journal := none }, u)
    | x, s, u => ((respond false x s).1, (respond false x s).2, u)
  does x s u := by
    cases x with
    | unlinkJournal => exact .struck (.inl trivial) (.unlinkJournal s)
    | _ => exact @respond_does True false (fun _ => trivial) _ s

/-- A recovery that is interrupted behind the removal of the journal raises, and there is no
journal. -/
theorem raised_without_journal :
    ∃ (s : Config (perf True) Action Outcome) (e : Ended (perf True) Action Outcome),
      Reachable Action.code opening s ∧ e ∈ s.log ∧ e.command.Recovers ∧ returned e.result = false ∧
    e.before.journal.isSome = true ∧ e.after.journal.isSome = false := by
  have fresh : Reachable (W := perf True) Action.code opening ⟨opening, none, []⟩ := .init
  have entered :=
    Oracle.runAll_reachable (O := steady false fun _ => trivial) [.enter (str "abcdefgh"),
      fifty] () fresh
  have left := Oracle.runAll_reachable (O := cutShort) [.exit 1 false] () entered
  refine ⟨_, _, left, List.mem_append_right _ List.mem_cons_self, trivial, ?_, ?_, ?_⟩
  · decide +kernel
  · decide +kernel
  · decide +kernel

end Demo

end DbLab.Perf
