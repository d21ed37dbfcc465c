import DbLab.Perf.Guard

/-!
# What a journal is good for

While a journal is there, it names every setting that a guard changed on the process that the
journal is about, with its value from before. The invariant of that, and the rules for one call:
what is known before a call has to survive what the server does by itself, and the invariant holds
whether the call returns, raises or is interrupted.
-/

namespace DbLab.Perf
open DbLab.Py DbLab.Proc Relation

/-- The journal is about the process that runs and has the originals of all that changed on it, or
it is about an earlier one and nothing changed since the restart. -/
structure Journal.Holds (j : Journal) (s : State) : Prop where
  own : j.serverId ≤ s.process
  originals : j.serverId = s.process → ∀ k v, j.config.lookup k = some v → s.base k = some v
  covers : j.serverId = s.process → ∀ k, s.config k ≠ s.base k → k ∈ j.config.names
  restarted : j.serverId ≠ s.process → s.config = s.base

/-- A guard has the originals of its process, at least those in its journal. -/
structure Guard.Holds (g : Guard) (s : State) : Prop where
  own : g.serverId ≤ s.process
  originals : g.serverId = s.process → ∀ k v, g.original.lookup k = some v → s.base k = some v
  journal : ∀ j, s.journal = some j → j.serverId = g.serverId ∧ j.config.names ⊆ g.original.names

/-- Before the change the journal had the original value of each of its settings. -/
def Change.Journaled (c : Change) : Prop :=
  ∃ j, c.journal = some j ∧ ∀ k ∈ c.names, ∃ v, j.config.lookup k = some v ∧ c.base k = some v

/-- A key that was removed had the prefix of the journal. -/
def Owned (x : Option Journal × Bytes) : Prop :=
  ∃ j q, x.1 = some j ∧ encode j.keyPrefix = .ok q ∧ q <+: x.2

/-- What holds at any time. -/
structure Core (s : State) : Prop where
  settled : s.journal = none → s.config = s.base
  supported : ∀ k, (s.config k).isSome = (s.base k).isSome
  journal : ∀ j, s.journal = some j → j.Holds s
  changes : ∀ c ∈ s.changes, c.Journaled
  unlinked : ∀ x ∈ s.unlinked, Owned x
  link : ∀ p stale, s.link = .opened p stale → stale = false ∧ p ≤ s.process
  pinged : ∀ p, s.pinged = some p → p ≤ s.process

/-- What holds between actions, and most of the time. -/
structure Idle (s : State) : Prop where
  core : Core s
  guard : ∀ g, s.guard = some g → g.Holds s

/-- A name is there with its value. -/
lemma Settings.mem_names {d : Settings} {k : Str} : k ∈ d.names ↔ ∃ v, d.lookup k = some v := by
  induction d with
  | nil => simp [Settings.names]
  | cons x d ih =>
    obtain ⟨n, v⟩ := x
    rw [Settings.names, List.map_cons, List.mem_cons, List.lookup_cons]
    cases same : k == n with
    | true =>
      rw [beq_iff_eq] at same
      exact ⟨fun _ => ⟨v, rfl⟩, fun _ => .inl same⟩
    | false =>
      have ne : k ≠ n := by simpa using same
      exact ⟨fun m => ih.1 (m.resolve_left ne), fun found => .inr (ih.2 found)⟩

section Stable
variable {s s' : State} {j : Journal} {g : Guard}

/-- Drift keeps the journal. -/
lemma Drifts.journal (h : Drifts s s') : s'.journal = s.journal := by cases h <;> rfl

/-- Drift keeps the guard. -/
lemma Drifts.guard (h : Drifts s s') : s'.guard = s.guard := by cases h <;> rfl

/-- Drift only moves the process on. -/
lemma Drifts.process (h : Drifts s s') : s.process ≤ s'.process := by
  cases h with
  | restarted => exact Nat.le_succ _
  | others => exact Nat.le_refl _
  | administered => exact Nat.le_refl _

/-- Drift keeps the core. -/
lemma Core.drift (h : Core s) (drift : Drifts s s') : Core s' := by
  cases drift with
  | restarted config keys unseen =>
    refine ⟨fun _ => rfl, fun _ => rfl, fun j journal => ?_, h.changes, h.unlinked,
      fun p stale opened => ?_, fun p last => ?_⟩
    · have own := (h.journal j journal).own
      have other : j.serverId ≠ s.process + 1 := by omega
      exact ⟨Nat.le_succ_of_le own, fun same => absurd same other, fun same => absurd same other,
        fun _ => rfl⟩
    · exact ⟨(h.link p stale opened).1, Nat.le_succ_of_le (h.link p stale opened).2⟩
    · exact Nat.le_succ_of_le (h.pinged p last)
  | others keys foreign =>
    refine ⟨h.settled, h.supported, fun j journal => ?_, h.changes, h.unlinked, h.link, h.pinged⟩
    obtain ⟨own, originals, covers, restarted⟩ := h.journal j journal
    exact ⟨own, originals, covers, restarted⟩
  | administered config none closed =>
    exact ⟨fun _ => rfl, fun _ => rfl, fun j journal => (nomatch none.symm.trans journal),
      h.changes, h.unlinked, h.link, h.pinged⟩

/-- Drift keeps an idle state. -/
lemma Idle.drift (h : Idle s) (drift : Drifts s s') : Idle s' := by
  refine ⟨h.core.drift drift, fun g guard => ?_⟩
  obtain ⟨own, originals, journal⟩ := h.guard g (drift.guard ▸ guard)
  refine ⟨Nat.le_trans own drift.process, ?_, fun j named => journal j (drift.journal ▸ named)⟩
  cases drift with
  | restarted config keys unseen =>
    intro same
    dsimp only at same
    omega
  | others keys foreign => exact originals
  | administered config none closed => cases closed.symm.trans guard

/-- A link that is not ahead of the process keeps the core. -/
lemma Core.relink (h : Core s) {link : Link}
    (ok : ∀ p stale, link = .opened p stale → stale = false ∧ p ≤ s.process) :
    Core { s with link } := by
  refine ⟨h.settled, h.supported, fun j journal => ?_, h.changes, h.unlinked, ok, h.pinged⟩
  obtain ⟨own, originals, covers, restarted⟩ := h.journal j journal
  exact ⟨own, originals, covers, restarted⟩

/-- A link that is not ahead of the process keeps an idle state. -/
lemma Idle.relink (h : Idle s) {link : Link}
    (ok : ∀ p stale, link = .opened p stale → stale = false ∧ p ≤ s.process) :
    Idle { s with link } := by
  refine ⟨h.core.relink ok, fun g guard => ?_⟩
  obtain ⟨own, originals, journal⟩ := h.guard g guard
  exact ⟨own, originals, journal⟩

/-- Closing the link keeps an idle state. -/
lemma Idle.closed (h : Idle s) : Idle { s with link := .closed } := h.relink nofun

/-- Opening the link keeps an idle state. -/
lemma Idle.opened (h : Idle s) {p : Nat} (le : p ≤ s.process) :
    Idle { s with link := .opened p false } := by
  refine h.relink ?_
  rintro p stale ⟨⟩
  exact ⟨rfl, le⟩

/-- A killed process leaves what is durable. -/
lemma Core.killed (h : Core s) :
    Idle { s with link := .closed, guard := none, locked := false } := by
  refine ⟨⟨h.settled, h.supported, fun j journal => ?_, h.changes, h.unlinked, nofun,
    h.pinged⟩, nofun⟩
  obtain ⟨own, originals, covers, restarted⟩ := h.journal j journal
  exact ⟨own, originals, covers, restarted⟩

end Stable

/-! ### Commands -/

section Commands
variable {s s' : State} {v : Verb} {a : v.Answer}

/-- An answer keeps the process. -/
lemma Serves.process (h : Serves v s a s') : s'.process = s.process := by cases h <;> rfl

/-- An answer keeps the journal. -/
lemma Serves.journal (h : Serves v s a s') : s'.journal = s.journal := by cases h <;> rfl

/-- Commands that neither change the configuration nor remove keys. -/
def Verb.Harmless : Verb → Prop
  | .configSet _ | .unlink _ => False
  | _ => True

/-- A harmless command keeps an idle state. -/
lemma Serves.idle (h : Serves v s a s') (harmless : v.Harmless) (idle : Idle s) : Idle s' := by
  obtain ⟨⟨settled, supported, journal, changes, unlinked, link, pinged⟩, guard⟩ := idle
  have journal' : ∀ j, s.journal = some j → j.Holds s' := by
    intro j named
    obtain ⟨own, originals, covers, restarted⟩ := journal j named
    cases h with
    | configSet => exact harmless.elim
    | unlink => exact harmless.elim
    | info | configGet | scan | ping | write => exact ⟨own, originals, covers, restarted⟩
  have guard' : ∀ g, s.guard = some g → g.Holds s' := by
    intro g entered
    obtain ⟨own, originals, journal⟩ := guard g entered
    cases h with
    | configSet => exact harmless.elim
    | unlink => exact harmless.elim
    | info | configGet | scan | ping | write => exact ⟨own, originals, journal⟩
  cases h with
  | configSet => exact harmless.elim
  | unlink => exact harmless.elim
  | ping =>
    refine ⟨⟨settled, supported, journal', changes, unlinked, link, ?_⟩, guard'⟩
    rintro p ⟨⟩
    exact Nat.le_refl _
  | info | configGet | scan | write =>
    exact ⟨⟨settled, supported, journal', changes, unlinked, link, pinged⟩, guard'⟩

/-- A change of settings that the journal of the process names. -/
lemma Serves.configSet_idle {settings : Settings} {u : Unit} {j : Journal}
    (h : Serves (.configSet settings) s u s')
    (idle : Idle s) (named : s.journal = some j) (here : j.serverId = s.process)
    (names : settings.names ⊆ j.config.names) : Idle s' := by
  cases h with
  | configSet _ _ config supported others =>
    obtain ⟨own, originals, covers, restarted⟩ := idle.core.journal j named
    refine ⟨⟨fun none => (nomatch named.symm.trans none),
      fun k =>
        (supported k).trans (idle.core.supported k), ?_, ?_, idle.core.unlinked, idle.core.link,
          idle.core.pinged⟩, ?_⟩
    · intro j' named'
      cases named.symm.trans named'
      refine ⟨own, originals, fun same k changed => ?_, fun other => absurd here other⟩
      by_cases m : k ∈ settings.names
      · exact names m
      · exact covers same k (others k m ▸ changed)
    · intro c m
      rcases List.mem_append.1 m with old | new
      · exact idle.core.changes c old
      · cases List.mem_singleton.1 new
        refine ⟨j, named, fun k m => ?_⟩
        obtain ⟨v, found⟩ := Settings.mem_names.1 (names m)
        exact ⟨v, found, originals here k v found⟩
    · intro g entered
      obtain ⟨own, originals, journal⟩ := idle.guard g entered
      exact ⟨own, originals, journal⟩

/-- Keys with the prefix of the journal are removed. -/
lemma Serves.unlink_idle {keys : List Bytes} {n : Nat} {j : Journal} {q : Bytes}
    (h : Serves (.unlink keys) s n s')
    (idle : Idle s) (named : s.journal = some j) (bytes : encode j.keyPrefix = .ok q)
    (owned : ∀ k ∈ keys, q <+: k) :
    Idle s' := by
  cases h with
  | unlink =>
    refine ⟨⟨idle.core.settled, idle.core.supported, fun j named => ?_, idle.core.changes, ?_,
      idle.core.link, idle.core.pinged⟩, fun g entered => ?_⟩
    · obtain ⟨own, originals, covers, restarted⟩ := idle.core.journal j named
      exact ⟨own, originals, covers, restarted⟩
    · intro x m
      rcases List.mem_append.1 m with old | new
      · exact idle.core.unlinked x old
      · obtain ⟨k, mk, rfl⟩ := List.mem_map.1 new
        exact ⟨j, q, named, bytes, owned k mk⟩
    · obtain ⟨own, originals, journal⟩ := idle.guard g entered
      exact ⟨own, originals, journal⟩

end Commands

/-! ### Rules -/

section Rules
variable {α : Type} {K : Option Journal → Prop} {s : State} {P : State → Prop}

/-- What is raised leaves a state between actions, with a journal as in `K`. -/
structure Ends (K : Option Journal → Prop) (s : State) : Prop where
  idle : Idle s
  journal : K s.journal

/-- The weakest precondition of a part of the code, without the hazards. -/
abbrev wp (K : Option Journal → Prop) (Q : α → State → Prop) (p : Method α) : State → Prop :=
  (perf False).wp Core Q (fun _ : Raised => Ends K) p

/-- One program after the other. -/
lemma bind_wp {β : Type} {Q : β → State → Prop} {p : Method α} {f : α → Method β}
    {R : α → State → Prop}
    (h : wp K R p s) (next : ∀ a s, R a s → wp K Q (f a) s) : wp K Q (p >>= f) s :=
  (World.wp_bind p f).2 (World.wp_mono h next fun _ _ ends => ends)

/-- A state to end in stays one when the link closes. -/
lemma Ends.closed (h : Ends K s) : Ends K { s with link := .closed } := ⟨h.idle.closed, h.journal⟩

/-- One command, returned, refused, lost or interrupted. -/
lemma Does.command {v : Verb} {Q : v.Answer → State → Prop} {s' : State}
    {r : Except Raised (Call.Result (.redis v))} (ends : Ends K s)
    (serves : ∀ a s', Reaches False v s → Serves v s a s' →
      Idle s' ∧ Q a { s' with link := .opened s.process false })
    (does : Does False (.redis v) s r s') :
    Core s' ∧ (∀ a, r = .ok a → Q a s') ∧ ∀ e, r = .error e → Ends K s' := by
  -- Without the hazards no reply is ever unread.
  have answered : ∀ (a : v.Answer) s', Answers False (.redis v) s a s' → Ends K s' ∧ Q a s' := by
    intro a s' answers
    cases answers with
    | redis reaches runs =>
      obtain ⟨idle, q⟩ := serves a _ reaches runs
      exact ⟨⟨idle.opened (Nat.le_of_eq runs.process.symm), runs.journal ▸ ends.journal⟩, q⟩
    | stray link => cases (ends.idle.core.link _ _ link).1
    | strayServed link => cases (ends.idle.core.link _ _ link).1
  cases does with
  | answers answers =>
    obtain ⟨ends', q⟩ := answered _ _ answers
    refine ⟨ends'.idle.core, ?_, nofun⟩
    rintro a ⟨⟩
    exact q
  | raises e open_ => exact ⟨ends.idle.core, nofun, fun _ _ => ends⟩
  | closes e command => exact ⟨ends.closed.idle.core, nofun, fun _ _ => ends.closed⟩
  | refused command reaches =>
    cases command
    have noted : Ends K { s.receive v with link := .opened s.process false } := by
      cases v with
      | configSet settings =>
        have runs := Serves.configSet s settings s.config (fun _ => rfl) fun _ _ => rfl
        exact ⟨(serves () _ reaches runs).1.opened (Nat.le_refl _), ends.journal⟩
      | info | configGet | scan | unlink | ping | write =>
        exact ⟨ends.idle.opened (Nat.le_refl _), ends.journal⟩
    exact ⟨noted.idle.core, nofun, fun _ _ => noted⟩
  | lost command answers =>
    cases command
    have closed := (answered _ _ answers).1.closed
    exact ⟨closed.idle.core, nofun, fun _ _ => closed⟩
  | struck calm answers =>
    have ends' := (answered _ _ answers).1
    exact ⟨ends'.idle.core, nofun, fun _ _ => ends'⟩
  | cutOff hazard => exact hazard.elim

/-- A command over the link, from what every answer of it keeps. -/
lemma redis_wp {v : Verb} {Q : v.Answer → State → Prop}
    (stable : ∀ {s s'}, P s → Drifts s s' → P s')
    (ends : ∀ {s}, P s → Ends K s) (h : P s)
    (serves : ∀ s a s', P s → Reaches False v s → Serves v s a s' →
      Idle s' ∧ Q a { s' with link := .opened s.process false }) : wp K Q (redis v) s := by
  refine World.wp_ask fun s₁ drift r s' does => ?_
  have known : P s₁ := drifts_many (W := perf False) stable drift h
  obtain ⟨core, ok, error⟩ := Does.command (ends known) (fun a s' => serves s₁ a s' known) does
  refine ⟨core, ?_⟩
  cases r with
  | ok a => exact ok a rfl
  | error e => exact error e rfl

/-- A call that is not a command. -/
lemma file_wp {x : Call} {Q : x.Result → State → Prop} (plain : ∀ v, x ≠ .redis v)
    (stable : ∀ {s s'}, P s → Drifts s s' → P s') (ends : ∀ {s}, P s → x.ends = false → Ends K s)
    (core : ∀ {s}, P s → Core s)
    (h : P s) (answers : ∀ s a s', P s → Answers False x s a s' →
      Core s' ∧ Q a s' ∧ (x.closing = false ∨ s'.journal.isSome = true → Ends K s')) :
        wp K Q (ask x) s := by
  refine World.wp_ask fun s₁ drift r s' does => ?_
  replace h : P s₁ := drifts_many (W := perf False) stable drift h
  cases does with
  | answers reply => exact ⟨(answers _ _ _ h reply).1, (answers _ _ _ h reply).2.1⟩
  | raises e open_ => exact ⟨core h, ends h open_⟩
  | struck calm reply =>
    obtain ⟨core', _, ends'⟩ := answers _ _ _ h reply
    exact ⟨core', ends' (calm.resolve_left id)⟩
  | closes e command => exact absurd command (plain _)
  | refused command => exact absurd command (plain _)
  | lost command => exact absurd command (plain _)
  | cutOff hazard => exact hazard.elim

end Rules

end DbLab.Perf
