import DbLab.Perf.Invariant

/-!
# What a recovery restores

`recover_journal` from any state that keeps the invariant. If it returns, it has read back all
originals of the process that the journal is about, or nothing was changed since the restart; and a
scan that found no keys was complete, on one connection that lasted until the answer to `PING`.
-/

namespace DbLab.Perf
open DbLab.Py DbLab.Proc Relation

/-! ### Prefixes -/

/-- The bytes of two texts together. -/
lemma encode_append {x y : Str} {b : Bytes} (h : encode (x ++ y) = .ok b) :
    ∃ bx by_, encode x = .ok bx ∧ encode y = .ok by_ ∧ b = bx ++ by_ := by
  induction x generalizing b with
  | nil => exact ⟨[], b, rfl, h, rfl⟩
  | cons c x ih =>
    rw [List.cons_append, encode] at h
    cases first : encodeChar c with
    | error e =>
      rw [first] at h
      cases h
    | ok bc =>
      rw [first] at h
      cases rest : encode (x ++ y) with
      | error e =>
        rw [rest] at h
        cases h
      | ok br =>
        rw [rest] at h
        cases h
        obtain ⟨bx, b', ex, ey, rfl⟩ := ih rest
        refine ⟨bc ++ bx, b', ?_, ey, (List.append_assoc ..).symm⟩
        rw [encode, first, ex]
        rfl

/-- The bytes of an owned prefix are those of keys of scenarios. -/
lemma scenarioKeys_of_matches {value : Str} {q : Bytes} (owned : matchesPrefix value = true)
    (bytes : encode value = .ok q) :
    scenarioKeys <+: q := by
  simp only [matchesPrefix, Bool.and_eq_true, beq_iff_eq] at owned
  obtain ⟨⟨⟨whole, _⟩, _⟩, _⟩ := owned
  rw [whole, List.append_assoc] at bytes
  obtain ⟨b, b', ops, _, rfl⟩ := encode_append bytes
  cases ops
  exact List.prefix_append _ _

/-! ### Cleanup -/

section Cleanup
variable {j : Journal} {q : Bytes} {K : Option Journal → Prop} {s s' : State}

/-- The journal is there, and the configuration is that from before it. -/
structure Restored (j : Journal) (s : State) : Prop where
  idle : Idle s
  journal : s.journal = some j
  config : s.config = s.base

/-- While the connection lasts, the keys with the prefix are among those that the scan has yet to
return. -/
def Scanning (q : Bytes) (s : State) : Prop :=
  ∃ p, s.link = .opened p false ∧ (p = s.process → ∀ k ∈ s.keys, q <+: k → k ∈ s.unseen)

/-- While the connection lasts, no keys have the prefix. -/
def Clean (q : Bytes) (s : State) : Prop :=
  ∃ p, s.link = .opened p false ∧ (p = s.process → ∀ k ∈ s.keys, ¬q <+: k)

/-- Since the last answer to `PING` the server was restarted, or no keys have the prefix. -/
def Swept (q : Bytes) (s : State) : Prop :=
  ∃ p, s.pinged = some p ∧ p ≤ s.process ∧ (p = s.process → ∀ k ∈ s.keys, ¬q <+: k)

/-- Settings at their base stay there. -/
lemma Drifts.settled (h : Drifts s s') (same : s.config = s.base) : s'.config = s'.base := by
  cases h with
  | restarted => rfl
  | others => exact same
  | administered => rfl

/-- Drift keeps restored settings. -/
lemma Restored.drift (h : Restored j s) (drift : Drifts s s') : Restored j s' :=
  ⟨h.idle.drift drift, drift.journal.trans h.journal, drift.settled h.config⟩

/-- Drift keeps the keys that a scan has removed. -/
lemma Scanning.drift (h : Scanning q s) (core : Core s) (ops : scenarioKeys <+: q)
    (drift : Drifts s s') :
    Scanning q s' := by
  obtain ⟨p, opened, rest⟩ := h
  cases drift with
  | restarted config keys unseen =>
    refine ⟨p, opened, fun same => ?_⟩
    have le := (core.link _ _ opened).2
    dsimp only at same
    omega
  | others keys foreign =>
    refine ⟨p, opened, fun same k m own => List.mem_filter.2 ⟨?_, by simpa using m⟩⟩
    exact rest same k (foreign k m (ops.trans own)) own
  | administered => exact ⟨p, opened, rest⟩

/-- Drift keeps a prefix empty. -/
lemma Clean.drift (h : Clean q s) (core : Core s) (ops : scenarioKeys <+: q) (drift : Drifts s s') :
    Clean q s' := by
  obtain ⟨p, opened, clean⟩ := h
  cases drift with
  | restarted config keys unseen =>
    refine ⟨p, opened, fun same => ?_⟩
    have le := (core.link _ _ opened).2
    dsimp only at same
    omega
  | others keys foreign =>
    exact ⟨p, opened, fun same k m own => clean same k (foreign k m (ops.trans own)) own⟩
  | administered => exact ⟨p, opened, clean⟩

/-- Drift keeps a prefix swept. -/
lemma Swept.drift (h : Swept q s) (ops : scenarioKeys <+: q) (drift : Drifts s s') :
    Swept q s' := by
  obtain ⟨p, pinged, le, swept⟩ := h
  cases drift with
  | restarted config keys unseen =>
    refine ⟨p, pinged, Nat.le_succ_of_le le, fun same => ?_⟩
    dsimp only at same
    omega
  | others keys foreign =>
    exact ⟨p, pinged, le, fun same k m own => swept same k (foreign k m (ops.trans own)) own⟩
  | administered => exact ⟨p, pinged, le, swept⟩

/-- Restored settings may end the program. -/
lemma Restored.ends (h : Restored j s) (keep : K (some j)) : Ends K s := ⟨h.idle, h.journal ▸ keep⟩

/-- Opening the link keeps restored settings. -/
lemma Restored.opened (h : Restored j s) {p : Nat} (le : p ≤ s.process) :
    Restored j { s with link := .opened p false } :=
  ⟨h.idle.opened le, h.journal, h.config⟩

/-- A command that reaches the server meets its own process. -/
lemma redis_ends {v : Verb} {s : State} (reaches : Reaches False v s) {p : Nat}
    (opened : s.link = .opened p false) :
    p = s.process := by
  rcases reaches.live with closed | live
  · cases opened.symm.trans closed
  · cases opened.symm.trans live
    rfl

/-- Persisting for ever never goes wrong. -/
lemma forever_wp {α : Type} {Q : α → State → Prop} (keep : K (some j)) (h : Restored j s) :
    wp K Q forever s := by
  refine bind_wp (R := fun _ _ => False) ?_ fun never => never.elim
  exact file_wp nofun Restored.drift (fun h _ => h.ends keep) (fun h => h.idle.core) h
    fun s never => never.elim

/-- The first batch is as long as there are keys. -/
lemma batches_long {keys : List Bytes} (some_ : keys ≠ []) : ∃ b ∈ batches keys, b ≠ [] := by
  cases keys with
  | nil => exact absurd rfl some_
  | cons k keys =>
    refine ⟨(k :: keys).take 100, List.mem_map.2 ⟨0, List.mem_range.2 ?_, rfl⟩, nofun⟩
    rw [List.length_cons]
    omega

/-- Removing batches of keys counts them. -/
lemma unlinkBatches_wp (keep : K (some j)) (bytes : encode j.keyPrefix = .ok q)
    (bs : List (List Bytes)) (n : Nat × Nat)
    (h : Restored j s) :
    wp K (fun n' s' => Restored j s' ∧ n.1 ≤ n'.1 ∧ ∀ b ∈ bs, b.length ≤ n'.1)
      (unlinkBatches q bs n) s := by
  induction bs generalizing n s with
  | nil => exact ⟨h, Nat.le_refl _, nofun⟩
  | cons batch rest ih =>
    obtain ⟨found, removed⟩ := n
    rw [unlinkBatches]
    split
    · exact h.ends keep
    · rename_i own
      have owned : ∀ k ∈ batch, q <+: k := by simpa using own
      refine bind_wp (R := fun _ => Restored j)
        (redis_wp Restored.drift (fun h => h.ends keep) h ?_) fun m s' h => ?_
      · intro s a s' h reaches serves
        have idle := serves.unlink_idle h.idle h.journal bytes owned
        have settled : s'.config = s'.base := by
          cases serves
          exact h.config
        have restored : Restored j s' := ⟨idle, serves.journal.trans h.journal, settled⟩
        exact ⟨idle, restored.opened (Nat.le_of_eq serves.process.symm)⟩
      · refine World.wp_mono (ih (found + batch.length, removed + m) h) ?_ fun _ _ ends => ends
        rintro n' s' ⟨h, le, each⟩
        dsimp only at le
        refine ⟨h, by omega, fun b m => ?_⟩
        rcases List.mem_cons.1 m with rfl | m
        · omega
        · exact each b m

/-- A scan that finds nothing has seen all keys. -/
lemma scanAll_wp (keep : K (some j)) (bytes : encode j.keyPrefix = .ok q) (ops : scenarioKeys <+: q)
    (rounds cursor : Nat)
    (n : Nat × Nat) (h : Restored j s) (seen : n.1 = 0 → cursor = 0 ∨ Scanning q s) :
    wp K (fun n' s' => Restored j s' ∧ (n'.1 = 0 → Clean q s')) (scanAll q rounds cursor n) s := by
  induction rounds generalizing cursor n s with
  | zero => exact forever_wp keep h
  | succ rounds ih =>
    rw [scanAll]
    refine bind_wp (R := fun x s' => Restored j s' ∧
      (x.2 = [] → n.1 = 0 → Scanning q s' ∧ (x.1 = 0 → Clean q s')))
      (redis_wp (P := fun s => Restored j s ∧ (n.1 = 0 → cursor = 0 ∨ Scanning q s)) ?_
        (fun h => h.1.ends keep)
        ⟨h, seen⟩ ?_) ?_
    · rintro s s' ⟨h, seen⟩ drift
      exact ⟨h.drift drift, fun none => (seen none).imp_right fun scan =>
        scan.drift h.idle.core ops drift⟩
    · rintro s a s' ⟨h, seen⟩ reaches serves
      have idle := serves.idle trivial h.idle
      cases serves with
      | scan _ _ _ next keys present full =>
        have restored : Restored j { s with unseen := s.rest cursor keys } :=
          ⟨idle, h.journal, h.config⟩
        refine ⟨idle, restored.opened (Nat.le_refl _), ?_⟩
        rintro rfl none
        have rest : ∀ k ∈ s.keys, q <+: k → k ∈ s.rest cursor [] := by
          intro k m own
          refine List.mem_filter.2 ⟨?_, by simp⟩
          split
          · exact m
          · rename_i later
            obtain ⟨p, opened, rest⟩ := (seen none).resolve_left later
            exact rest (redis_ends reaches opened) k m own
        exact ⟨⟨_, rfl, fun _ => rest⟩,
          fun last => ⟨_, rfl, fun _ k m own => full last k (rest k m own) own⟩⟩
    · rintro ⟨next, keys⟩ s ⟨h, scan⟩
      refine bind_wp (R := fun n' s' => Restored j s' ∧
        (n'.1 = 0 → Scanning q s' ∧ (next = 0 → Clean q s'))) ?_ ?_
      · by_cases none : keys = []
        · subst none
          exact ⟨h, fun zero => scan rfl zero⟩
        · refine World.wp_mono (unlinkBatches_wp keep bytes (batches keys) n h) ?_ fun _ _ ends =>
            ends
          rintro n' s' ⟨h, _, each⟩
          refine ⟨h, fun zero => ?_⟩
          obtain ⟨b, m, long⟩ := batches_long none
          exact absurd (List.length_eq_zero_iff.1 (Nat.le_zero.1 (zero ▸ each b m))) long
      · rintro n' s ⟨h, scan⟩
        split
        · rename_i last
          exact ⟨h, fun zero => (scan zero).2 last⟩
        · exact ih next n' h fun zero => .inr (scan zero).1

/-- Rounds of scanning that end leave the prefix empty. -/
lemma scans_wp (keep : K (some j)) (bytes : encode j.keyPrefix = .ok q) (ops : scenarioKeys <+: q)
    (rounds n removed : Nat)
    (h : Restored j s) : wp K (fun _ s' => Restored j s' ∧ Clean q s')
    (scans q rounds n removed) s := by
  induction n generalizing removed s with
  | zero => exact h.ends keep
  | succ n ih =>
    rw [scans]
    refine bind_wp (scanAll_wp keep bytes ops rounds 0 (0, removed) h fun _ => .inl rfl) ?_
    rintro ⟨found, removed⟩ s ⟨h, clean⟩
    dsimp only
    split
    · rename_i none
      exact ⟨h, clean none⟩
    · exact ih removed h

/-- A cleanup that returns leaves the prefix empty. -/
lemma cleanup_wp {keyPrefix : Str} (keep : K (some j)) (same : j.keyPrefix = keyPrefix)
    (rounds : Nat) (h : Restored j s) :
    wp K (fun _ s' => Restored j s' ∧ ∀ q, encode j.keyPrefix = .ok q →
      Clean q s' ∧ scenarioKeys <+: q)
      (cleanup rounds keyPrefix) s := by
  subst same
  unfold cleanup ownedPrefix
  split
  · rename_i owned
    refine bind_wp (R := fun v s' => v = j.keyPrefix ∧ Restored j s') ⟨rfl, h⟩ ?_
    rintro _ s ⟨rfl, h⟩
    refine bind_wp (R := fun q s' => encode j.keyPrefix = .ok q ∧ Restored j s')
      (World.wp_ofExcept (fun q ok => ?_) fun e _ => h.ends keep) ?_
    · cases bytes : encode j.keyPrefix with
      | error e =>
        rw [bytes] at ok
        cases ok
      | ok q' =>
        rw [bytes] at ok
        cases ok
        exact ⟨rfl, h⟩
    · rintro q s ⟨bytes, h⟩
      have ops := scenarioKeys_of_matches owned bytes
      refine World.wp_mono (scans_wp keep bytes ops rounds 4 0 h) ?_ fun _ _ ends => ends
      rintro n s ⟨h, clean⟩
      refine ⟨h, fun q' bytes' => ?_⟩
      cases bytes.symm.trans bytes'
      exact ⟨clean, ops⟩
  · exact h.ends keep

end Cleanup

/-! ### Recovery -/

section Recover
variable {j : Journal} {K : Option Journal → Prop} {s s' : State}

/-- The journal is there. -/
structure Pending (j : Journal) (s : State) : Prop where
  idle : Idle s
  journal : s.journal = some j

/-- Drift keeps a pending restoration. -/
lemma Pending.drift (h : Pending j s) (drift : Drifts s s') : Pending j s' :=
  ⟨h.idle.drift drift, drift.journal.trans h.journal⟩

/-- A pending restoration may end the program. -/
lemma Pending.ends (h : Pending j s) (keep : K (some j)) : Ends K s := ⟨h.idle, h.journal ▸ keep⟩

/-- Opening the link keeps it. -/
lemma Pending.opened (h : Pending j s) {p : Nat} (le : p ≤ s.process) :
    Pending j { s with link := .opened p false } :=
  ⟨h.idle.opened le, h.journal⟩

/-- A connection, as long as it lasts, is to the process that the journal is about. -/
def Home (j : Journal) (s : State) : Prop := s.link = .opened j.serverId false

/-- Drift keeps the journal at home. -/
lemma Home.drift (h : Home j s) (drift : Drifts s s') : Home j s' := by cases drift <;> exact h

/-- A journal that is about an earlier process, or that names no settings, has nothing to
restore. -/
lemma Pending.restored (h : Pending j s) (nothing : j.serverId ≠ s.process ∨ j.config = []) :
    Restored j s := by
  obtain ⟨own, originals, covers, restarted⟩ := h.idle.core.journal j h.journal
  refine ⟨h.idle, h.journal, ?_⟩
  by_cases here : j.serverId = s.process
  · have none := nothing.resolve_left (not_not_intro here)
    funext k
    by_contra changed
    have named := covers here k changed
    rw [none] at named
    cases named
  · exact restarted here

/-- All settings of the journal are read back as they were. -/
lemma Pending.restored_of_observed (h : Pending j s) (here : j.serverId = s.process)
    {observed : Settings}
    (values : ∀ k ∈ j.config.names, observed.lookup k = s.config k)
    (same : j.config.any (differs observed) = false) :
    Restored j s := by
  obtain ⟨own, originals, covers, restarted⟩ := h.idle.core.journal j h.journal
  refine ⟨h.idle, h.journal, ?_⟩
  funext k
  by_contra changed
  have named := covers here k changed
  obtain ⟨v, found⟩ := Settings.mem_names.1 named
  have original := originals here k v found
  have supported := h.idle.core.supported k
  rw [original] at supported
  obtain ⟨w, now⟩ := Option.isSome_iff_exists.1 supported
  obtain ⟨before, after, split, _⟩ := List.lookup_eq_some_iff.1 found
  have m : (k, v) ∈ j.config := split ▸ List.mem_append_right before List.mem_cons_self
  have equal := List.any_eq_false.1 same (k, v) m
  rw [differs, values k named, now] at equal
  have final : w = v := by simpa using equal
  exact changed (by rw [now, original, final])

/-- Restoring that returns has restored the settings. -/
lemma restore_wp (keep : K (some j)) (h : Pending j s) (home : Home j s) :
    wp K (fun _ => Restored j) (restore j.config) s := by
  have stable : ∀ {s s'}, Pending j s ∧ Home j s → Drifts s s' → Pending j s' ∧ Home j s' :=
    fun h drift => ⟨h.1.drift drift, h.2.drift drift⟩
  refine bind_wp (R := fun _ s => Pending j s ∧ Home j s)
    (redis_wp stable (fun h => h.1.ends keep) ⟨h, home⟩ ?_) ?_
  · rintro s a s' ⟨h, home⟩ reaches serves
    have here := redis_ends reaches home
    have idle := serves.configSet_idle h.idle h.journal here fun _ m => m
    have pending : Pending j s' := ⟨idle, serves.journal.trans h.journal⟩
    exact ⟨idle, pending.opened (Nat.le_of_eq serves.process.symm), by rw [Home, here]⟩
  · rintro _ s ⟨h, home⟩
    refine bind_wp (R := fun observed s => Pending j s ∧ (j.config.any (differs observed) = false →
      Restored j s))
      (redis_wp stable (fun h => h.1.ends keep) ⟨h, home⟩ ?_) ?_
    · rintro s observed s' ⟨h, home⟩ reaches serves
      have here := redis_ends reaches home
      cases serves with
      | configGet _ _ _ values =>
        exact ⟨h.idle, h.opened (Nat.le_refl _), fun same =>
          (h.restored_of_observed here values same).opened (Nat.le_refl _)⟩
    · rintro observed s ⟨h, restored⟩
      split
      · exact h.ends keep
      · rename_i same
        exact restored (by simpa using same)

/-- After a recovery: the configuration is that from before the guard, no keys of the run are left,
and the journal is gone. -/
structure Recovered (b : Option Journal) (s : State) : Prop where
  config : s.config = s.base
  keys : ∀ j q, b = some j → encode j.keyPrefix = .ok q → Swept q s ∧ scenarioKeys <+: q
  journal : s.journal = none

/-- A server that was asked, and the journal that is to be undone. -/
lemma info_wp (keep : K (some j)) (h : Pending j s) :
    wp K (fun info s' => Pending j s' ∧ (info.runId = j.serverId → Home j s') ∧
      (info.runId ≠ j.serverId → Restored j s')) (redis .info) s := by
  refine redis_wp Pending.drift (fun h => h.ends keep) h ?_
  intro s info s' h reaches serves
  cases serves with
  | info _ _ own =>
    refine ⟨h.idle, h.opened (Nat.le_refl _), fun same => ?_, fun other => ?_⟩
    · rw [Home, ← same, own]
    · exact (h.restored (.inl fun here => other (own.trans here.symm))).opened (Nat.le_refl _)

/-- A server that answers is still swept. -/
lemma ping_wp (keep : K (some j)) (h : Restored j s)
    (clean : ∀ q, encode j.keyPrefix = .ok q → Clean q s ∧ scenarioKeys <+: q) :
    wp K (fun _ s' => Restored j s' ∧ ∀ q, encode j.keyPrefix = .ok q →
      Swept q s' ∧ scenarioKeys <+: q)
      (redis .ping) s := by
  refine redis_wp (P := fun s => Restored j s ∧ ∀ q, encode j.keyPrefix = .ok q →
    Clean q s ∧ scenarioKeys <+: q) ?_
    (fun h => h.1.ends keep) ⟨h, clean⟩ ?_
  · rintro s s' ⟨h, clean⟩ drift
    exact ⟨h.drift drift, fun q bytes =>
      ⟨(clean q bytes).1.drift h.idle.core (clean q bytes).2 drift, (clean q bytes).2⟩⟩
  · rintro s a s' ⟨h, clean⟩ reaches serves
    have idle := serves.idle trivial h.idle
    cases serves with
    | ping =>
      have restored : Restored j { s with pinged := some s.process } := ⟨idle, h.journal, h.config⟩
      refine ⟨idle, restored.opened (Nat.le_refl _), fun q bytes => ⟨?_, (clean q bytes).2⟩⟩
      obtain ⟨p, opened, none⟩ := (clean q bytes).1
      exact ⟨_, rfl, Nat.le_refl _, fun _ => none (redis_ends reaches opened)⟩

/-- The journal is removed once all is restored. -/
lemma unlinkJournal_wp (keep : K (some j)) (h : Restored j s)
    (swept : ∀ q, encode j.keyPrefix = .ok q → Swept q s ∧ scenarioKeys <+: q) :
    wp K (fun _ s' => Idle s' ∧ Recovered (some j) s') (ask .unlinkJournal) s := by
  refine file_wp (P := fun s => Restored j s ∧ ∀ q, encode j.keyPrefix = .ok q →
    Swept q s ∧ scenarioKeys <+: q) nofun ?_
    (fun h _ => h.1.ends keep) (fun h => h.1.idle.core) ⟨h, swept⟩ ?_
  · rintro s s' ⟨h, swept⟩ drift
    exact ⟨h.drift drift, fun q bytes =>
      ⟨(swept q bytes).1.drift (swept q bytes).2 drift, (swept q bytes).2⟩⟩
  · rintro s a s' ⟨h, swept⟩ answers
    cases answers with
    | unlinkJournal =>
      obtain ⟨settled, supported, journal, changes, unlinked, link, pinged⟩ := h.idle.core
      have core : Core { s with journal := none } :=
        ⟨fun _ => h.config, supported, nofun, changes, unlinked, link, pinged⟩
      refine ⟨core, ⟨⟨core, fun g entered => ?_⟩, h.config, ?_, rfl⟩, fun calm => ?_⟩
      · obtain ⟨own, originals, _⟩ := h.idle.guard g entered
        exact ⟨own, originals, nofun⟩
      · rintro j' q ⟨⟩ bytes
        exact swept q bytes
      · rcases calm with calm | calm <;> cases calm

/-- Finishing that returns has recovered. -/
lemma finish_wp (keep : K (some j)) (rounds : Nat) (same : Bool) (h : Restored j s) :
    wp K (fun _ s' => Idle s' ∧ Recovered (some j) s') (finish rounds j.keyPrefix same) s := by
  refine bind_wp (cleanup_wp keep rfl rounds h) ?_
  rintro n s ⟨h, clean⟩
  refine bind_wp (ping_wp keep h clean) ?_
  rintro answer s ⟨h, swept⟩
  split
  · exact h.ends keep
  · exact bind_wp (unlinkJournal_wp keep h swept) fun _ _ recovered => recovered

/-- A recovery that returns has restored all, and one that raises has left the journal. -/
lemma recoverJournal_wp {b : Option Journal} (rounds : Nat) (idle : Idle s) (same : s.journal = b) :
    wp (· = b) (fun _ s' => Idle s' ∧ Recovered b s') (recoverJournal rounds) s := by
  unfold recoverJournal
  have stable : ∀ {s s'}, Idle s ∧ s.journal = b → Drifts s s' → Idle s' ∧ s'.journal = b :=
    fun h drift => ⟨h.1.drift drift, drift.journal.trans h.2⟩
  refine bind_wp (R := fun found s => (Idle s ∧ s.journal = b) ∧ found = b.isSome) ?_ ?_
  · refine file_wp nofun stable (fun h _ => ⟨h.1, h.2⟩) (fun h => h.1.core) ⟨idle, same⟩ ?_
    rintro s found s' ⟨idle, same⟩ answers
    cases answers with
    | journalExists => exact ⟨idle.core, ⟨⟨idle, same⟩, by rw [same]⟩, fun _ => ⟨idle, same⟩⟩
  rintro found s ⟨⟨idle, same⟩, found_⟩
  cases b with
  | none =>
    subst found_
    exact ⟨idle, idle.core.settled same, nofun, same⟩
  | some j =>
    subst found_
    refine bind_wp (R := fun data s => data = j ∧ Pending j s) ?_ ?_
    · refine file_wp nofun Pending.drift (fun h _ => h.ends rfl) (fun h => h.idle.core)
        ⟨idle, same⟩ ?_
      intro s data s' h answers
      cases answers with
      | readJournal journal =>
        cases journal.symm.trans h.journal
        exact ⟨h.idle.core, ⟨rfl, h⟩, fun _ => h.ends rfl⟩
    rintro data s ⟨rfl, h⟩
    refine bind_wp (R := fun keyPrefix s => keyPrefix = data.keyPrefix ∧ Pending data s) ?_ ?_
    · unfold ownedPrefix
      split
      · exact ⟨rfl, h⟩
      · exact h.ends rfl
    rintro _ s ⟨rfl, h⟩
    dsimp only
    split
    · exact h.ends rfl
    refine bind_wp (info_wp rfl h) ?_
    rintro info s ⟨h, home, restored⟩
    split
    · rename_i check
      rw [Bool.and_eq_true, beq_iff_eq] at check
      exact bind_wp (restore_wp rfl h (home check.1)) fun _ s h =>
        finish_wp (K := (· = some data)) rfl rounds _ h
    · rename_i check
      refine finish_wp (K := (· = some data)) rfl rounds _ ?_
      by_cases here : info.runId = data.serverId
      · have none : data.config = [] := by simpa [here] using check
        exact h.restored (.inr none)
      · exact restored here

end Recover

end DbLab.Perf
