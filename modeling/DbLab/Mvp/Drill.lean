import DbLab.Mvp.Envelope
import DbLab.Mvp.Search

/-!
# Message drills (`message_drill.Runner.consume`)

Consumers that give one record after the other to `process_record`. Whatever that calls may fail,
before or after it has taken effect or while it still may, and a consumer may be cut off at any
call. No record is lost: what is in front of the committed offset is reflected in the index or
preserved in the quarantine topic, and only what was refused is there.
-/

namespace DbLab.Mvp.Message.Drill
open DbLab.Py DbLab.Proc Relation

section
variable [Interpreter]

/-- A record of the source topic. -/
structure Source where
  key : Option Bytes
  raw : Option Bytes

/-- What a call of `process_record` leaves behind. -/
inductive Effect where
  | index (order : Value)
  | quarantine (record : Bytes)
  | commit (offset : Nat)

/-- The index, the values in the quarantine topic, the offset that the group has committed, that of
the message the consumer is at, and the calls that were not answered and may still take effect. -/
structure State where
  elastic : Elastic
  dlq : List Bytes
  committed : Nat
  position : Nat
  inflight : List Effect

def Effect.on (M : Mapping) : Effect → State → State
  | .index order, s => { s with elastic := (Search.index M order s.elastic).2 }
  | .quarantine record, s => { s with dlq := s.dlq ++ [record] }
  | .commit offset, s => { s with committed := offset }

/-- What a call asks for; the checkpoints and the cache leave nothing that the drill is about. -/
def Call.effect (s : State) : Call → Option Effect
  | .index order => some (.index order)
  | .quarantine record => (canonical record).toOption.map .quarantine
  | .commit => some (.commit (s.position + 1))
  | .checkpoint _ | .deleteCached _ => none

/-- What may be raised while nothing is wrong with the record. -/
def Outage (e : Thrown) : Call → Prop
  | .index _ => permanentReason e .project = none
  | _ => True

/-- How the calls are answered. -/
inductive Does (M : Mapping) : (x : Call) → State → Except Thrown x.Result → State → Prop where
  | indexed {order s outcome} (sent : (Search.index M order s.elastic).1 = .ok outcome) :
    Does M (.index order) s (.ok (.str (str outcome))) ((Effect.index order).on M s)
  | refused {order s e} (sent : (Search.index M order s.elastic).1 = .error e) :
    Does M (.index order) s (.error e) ((Effect.index order).on M s)
  | quarantined {record s b} (written : canonical record = .ok b) (receipt : Value) :
    Does M (.quarantine record) s (.ok receipt) ((Effect.quarantine b).on M s)
  | committed {s} : Does M .commit s (.ok ())
      { s with committed := s.position + 1, position := s.position + 1 }
  | passed {s} (name : String) : Does M (.checkpoint name) s (.ok ()) s
  | deleted {s} (id : Value) : Does M (.deleteCached id) s (.ok ()) s
  | failed {x s e} (outage : Outage e x) : Does M x s (.error e) s
  | lost {x s e effect} (asked : Call.effect s x = some effect) (outage : Outage e x) :
    Does M x s (.error e) (effect.on M s)
  | late {x s e effect} (asked : Call.effect s x = some effect) (outage : Outage e x) :
    Does M x s (.error e) { s with inflight := effect :: s.inflight }

/-- A call that was not answered takes effect. -/
inductive Drifts (M : Mapping) : State → State → Prop where
  | late {s effect} (m : effect ∈ s.inflight) : Drifts M s (effect.on M s)

/-- The surroundings of a drill. -/
abbrev surroundings (M : Mapping) : Proc.World processing Thrown where
  State := State
  does := Does M
  drifts := Drifts M
  killed s s' := s' = s

/-- A consumer that begins where the group has committed, gives the messages it comes to to
`process_record`, and may be cut off at any call. -/
inductive Reachable (M : Mapping) (scope : Scope) (topicId : Str) (messages : List Source) :
    State → Prop where
  | init (elastic : Elastic) : Reachable M scope topicId messages ⟨elastic, [], 0, 0, []⟩
  | reader {s} (h : Reachable M scope topicId messages s) : Reachable M scope topicId messages
      { s with position := s.committed }
  | drift {s s'} (h : Reachable M scope topicId messages s) (drift : Drifts M s s') :
      Reachable M scope topicId messages s'
  | consume {s s' m} (h : Reachable M scope topicId messages s)
      (next : messages[s.position]? = some m) (policy : Str)
    (run : (surroundings M).Passes
      (processRecord scope topicId (ownRecord scope s.position) m.key m.raw policy) s s') :
    Reachable M scope topicId messages s'

/-! ### What becomes of a record -/

/-- Contents of one text. -/
def SameText (v w : Value) : Prop :=
  ∃ t, dumps Search.canonicalDump v = .ok t ∧ dumps Search.canonicalDump w = .ok t

/-- A document is there that is the order, or is of a newer version. -/
def Reflects (docs : Documents) (order : Value) (id : Str) (version : Int) : Prop :=
  ∃ d, docs id = some d ∧ (version < d.1 ∨ version = d.1 ∧ (d.2 = order ∨ SameText d.2 order))

/-- A document of the same version is there, with other contents. -/
def Conflicts (docs : Documents) (order : Value) (id : Str) (version : Int) : Prop :=
  ∃ stored t t', docs id = some (version, stored) ∧ dumps Search.canonicalDump stored = .ok t ∧
    dumps Search.canonicalDump order = .ok t' ∧ t ≠ t'

/-- Documents are only replaced by larger versions. -/
def Newer (docs docs' : Documents) : Prop :=
  ∀ id d, docs id = some d → ∃ d', docs' id = some d' ∧ (d' = d ∨ d.1 < d'.1)

namespace Source
variable (m : Source)

/-- The order of the event in a record. -/
structure Carries (order : Value) (id : Str) (version : Int) : Prop where
  event : ∃ event, readRecord m.key m.raw = .ok event ∧ event.item "order" = .ok order
  id : order.item "id" = .ok (.str id)
  version : order.item "version" = .ok (.int version)

/-- A record is reflected in the index. -/
def Indexed (docs : Documents) : Prop :=
  ∃ order id version, m.Carries order id version ∧ Reflects docs order id version

/-- A record was refused: it does not decode, the mapping of the index forbids it, or it
contradicted a document. -/
def Refused (M : Mapping) (docs : Documents) : Prop :=
  (∃ e, readRecord m.key m.raw = .error e) ∨ ∃ order id version, m.Carries order id version ∧
    ((∃ errorType ∈ mappingErrors, M.rejects order = some (400, errorType)) ∨
      ∃ before, Newer before docs ∧ Conflicts before order id version)

/-- A value of the quarantine topic is the envelope of the record at an offset, and gives back its
key and its value. -/
def Preserved (scope : Scope) (topicId : Str) (offset : Nat) (b : Bytes) : Prop :=
  ∃ key raw reason rec r, m.key = some key ∧ m.raw = some raw ∧
    quarantineRecord scope topicId (ownRecord scope offset) (some key) (some raw) reason = .ok rec ∧
    canonical rec = .ok b ∧ loadsBytes Hooks.default b = .ok r ∧ checkedQuarantine r scope topicId =
      .ok (key, raw)

end Source

/-- The same documents are no older. -/
lemma Newer.refl (docs : Documents) : Newer docs docs := fun _ _ h => ⟨_, h, .inl rfl⟩

/-- What is newer than newer documents is newer. -/
lemma Newer.trans {docs docs' docs'' : Documents} (h : Newer docs docs') (h' : Newer docs' docs'') :
    Newer docs docs'' := by
  intro id d stored
  obtain ⟨d', stored', next⟩ := h id d stored
  obtain ⟨d'', stored'', next'⟩ := h' id d' stored'
  refine ⟨d'', stored'', ?_⟩
  rcases next with rfl | larger
  · exact next'
  · rcases next' with rfl | larger'
    · exact .inr larger
    · exact .inr (larger.trans larger')

/-- Newer documents still reflect an order. -/
lemma Reflects.newer {docs docs' : Documents} {order : Value} {id : Str} {version : Int}
    (h : Reflects docs order id version) (newer : Newer docs docs') :
    Reflects docs' order id version := by
  obtain ⟨d, stored, there⟩ := h
  obtain ⟨d', stored', next⟩ := newer id d stored
  refine ⟨d', stored', ?_⟩
  rcases next with rfl | larger
  · exact there
  · rcases there with older | ⟨same, _⟩
    · exact .inl (older.trans larger)
    · exact .inl (same ▸ larger)

namespace Source
variable {m : Source} {docs docs' : Documents} {M : Mapping}

/-- What is indexed stays indexed. -/
lemma Indexed.newer (h : m.Indexed docs) (newer : Newer docs docs') : m.Indexed docs' := by
  obtain ⟨order, id, version, carries, reflects⟩ := h
  exact ⟨order, id, version, carries, reflects.newer newer⟩

/-- What is refused stays refused. -/
lemma Refused.newer (h : m.Refused M docs) (newer : Newer docs docs') : m.Refused M docs' := by
  rcases h with undecoded | ⟨order, id, version, carries, forbidden | ⟨before, since, conflicts⟩⟩
  · exact .inl undecoded
  · exact .inr ⟨order, id, version, carries, .inl forbidden⟩
  · exact .inr ⟨order, id, version, carries, .inr ⟨before, since.trans newer, conflicts⟩⟩

end Source

/-! ### The index call -/

section Index
variable {M : Mapping} {s : Elastic} {order : Value} {id : Str} {version : Int}
  {outcome : String} {e : Thrown}

/-- `compareStored` ends without an error for a newer version, and for the same contents. -/
lemma compareStored_reflects {docs : Documents} {d : Int × Value} (stored : docs id = some d)
    (h : Search.compareStored order id version d.2 d.1 = .ok outcome) :
    Reflects docs order id version := by
  refine ⟨d, stored, ?_⟩
  unfold Search.compareStored at h
  split at h
  · rename_i ms contents
    split at h
    · cases h
    split at h
    · exact .inl ‹_›
    split at h
    · rename_i same
      obtain ⟨there, hthere, h⟩ := bind_ok.1 h
      obtain ⟨here, hhere, h⟩ := bind_ok.1 h
      rw [mapError_ok] at hthere hhere
      split at h
      · rename_i text
        exact .inr ⟨same.symm, .inr ⟨there, contents ▸ hthere, text ▸ hhere⟩⟩
      · cases h
    · cases h
  · cases h

/-- The refusal that `compareStored` raises is that of a document of the same version with other
contents. -/
lemma compareStored_conflicts {docs : Documents} {d : Int × Value} (stored : docs id = some d)
    (h : Search.compareStored order id version d.2 d.1 = .error e)
    (refusal : permanentReason e .project ≠ none) :
    Conflicts docs order id version := by
  unfold Search.compareStored at h
  split at h
  · split at h
    · cases h
      exact absurd rfl refusal
    split at h
    · cases h
    split at h
    · rename_i same
      cases there : dumps Search.canonicalDump d.2 with
      | error x =>
        rw [there] at h
        cases h
        exact absurd rfl refusal
      | ok t =>
        cases here : dumps Search.canonicalDump order with
        | error x =>
          rw [there, here] at h
          cases h
          exact absurd rfl refusal
        | ok t' =>
          rw [there, here] at h
          simp only [Except.mapError, ok_bind] at h
          split at h
          · cases h
          · rename_i differ
            exact ⟨d.2, t, t', by rw [stored, ← same], there, here, differ⟩
    · cases h
      exact absurd rfl refusal
  · cases h
    exact absurd rfl refusal

/-- What the index does with a document: the mapping rejects it, or it is written, or it is compared
with what is there. -/
lemma indexAs_cases (M : Mapping) (order : Value) (id : Str) (version : Int) (s : Elastic) :
    (∃ status errorType, M.rejects order = some (status, errorType) ∧
      Search.indexAs M order id version s = (.error (.http status errorType),
        Search.initializeIndex s)) ∨
    (Search.indexAs M order id version s = (.ok "indexed",
      ⟨true, Fence.write s.docs ⟨id, version, order⟩⟩) ∧ Fence.fresh s.docs id version = true) ∨
    ∃ d, s.docs id = some d ∧
      Search.indexAs M order id version s = (Search.compareStored order id version d.2 d.1,
        Search.initializeIndex s) := by
  rw [Search.indexAs, Search.put]
  cases rejected : M.rejects order with
  | some r => exact .inl ⟨r.1, r.2, rfl, rfl⟩
  | none =>
    refine .inr ?_
    cases new : Fence.fresh (Search.initializeIndex s).docs id version with
    | true => exact .inl ⟨rfl, new⟩
    | false =>
      obtain ⟨d, stored, _⟩ := Fence.stale_some new
      refine .inr ⟨d, stored, ?_⟩
      simp only [Bool.false_eq_true, if_false, stored]

/-- No document becomes older when one is indexed under an id and a version. -/
lemma indexAs_newer : Newer s.docs (Search.indexAs M order id version s).2.docs := by
  rcases indexAs_cases M order id version s with ⟨_, _, _, sent⟩ | ⟨sent, _⟩ | ⟨_, _, sent⟩
  · exact sent ▸ Newer.refl _
  · rw [sent]
    exact fun _ _ stored => Fence.write_mono _ stored
  · exact sent ▸ Newer.refl _

/-- No document becomes older when one is indexed. -/
lemma index_newer : Newer s.docs (Search.index M order s).2.docs := by
  unfold Search.index
  split
  · exact indexAs_newer
  all_goals exact Newer.refl _

/-- A document that was taken reflects the order. -/
lemma indexAs_reflects (h : (Search.indexAs M order id version s).1 = .ok outcome) :
    Reflects (Search.indexAs M order id version s).2.docs order id version := by
  rcases indexAs_cases M order id version s with ⟨_, _, _, sent⟩ | ⟨sent, new⟩ | ⟨d, stored, sent⟩
  · rw [sent] at h
    cases h
  · rw [sent]
    have written : Fence.write s.docs ⟨id, version, order⟩ id = some (version, order) := by
      rw [Fence.write_fresh new]
      exact Function.update_self ..
    exact ⟨_, written, .inr ⟨rfl, .inl rfl⟩⟩
  · rw [sent] at h ⊢
    exact compareStored_reflects stored h

/-- A document is refused by the mapping or by a newer one of the same version. -/
lemma indexAs_refused (h : (Search.indexAs M order id version s).1 = .error e)
    (refusal : permanentReason e .project ≠ none) :
    (∃ errorType ∈ mappingErrors, M.rejects order = some (400, errorType)) ∨
      Conflicts s.docs order id version := by
  rcases indexAs_cases M order id version s with ⟨status, errorType, rejected, sent⟩ | ⟨sent,
    _⟩ | ⟨d, stored, sent⟩
  · rw [sent] at h
    cases h
    rw [permanentReason] at refusal
    split at refusal
    · rename_i mapping
      exact .inl ⟨errorType, mapping.2, mapping.1 ▸ rejected⟩
    · exact absurd rfl refusal
  · rw [sent] at h
    cases h
  · rw [sent] at h
    exact .inr (compareStored_conflicts stored h refusal)

/-- An order that was taken is reflected. -/
lemma index_reflects (h : (Search.index M order s).1 = .ok outcome) :
    ∃ id version, order.item "id" = .ok (.str id) ∧ order.item "version" = .ok (.int version) ∧
      Reflects (Search.index M order s).2.docs order id version := by
  unfold Search.index at h ⊢
  split at h
  · exact ⟨_, _, ‹_›, ‹_›, indexAs_reflects h⟩
  all_goals cases h

/-- An order is refused by the mapping or by another document of its version. -/
lemma index_refused (h : (Search.index M order s).1 = .error e)
    (refusal : permanentReason e .project ≠ none) :
    ∃ id version, order.item "id" = .ok (.str id) ∧ order.item "version" = .ok (.int version) ∧
      ((∃ errorType ∈ mappingErrors, M.rejects order = some (400, errorType)) ∨
        Conflicts s.docs order id version) := by
  unfold Search.index at h
  split at h
  · exact ⟨_, _, ‹_›, ‹_›, indexAs_refused h refusal⟩
  all_goals
    cases h
    exact absurd rfl refusal

end Index

/-! ### No record is lost -/

section Kept
variable (M : Mapping) (scope : Scope) (topicId : Str) (messages : List Source)

/-- What is in front of an offset is reflected in the index or preserved in the quarantine topic. -/
def Settled (s : State) (n : Nat) : Prop :=
  ∀ i < n, ∃ m, messages[i]? = some m ∧
    (m.Indexed s.elastic.docs ∨ ∃ b ∈ s.dlq, m.Preserved scope topicId i b)

/-- A value of the quarantine topic preserves a record that was refused. -/
def Rightful (s : State) (b : Bytes) : Prop :=
  ∃ (i : Nat) (m : Source), messages[i]? = some m ∧ m.Preserved scope topicId i b ∧
    m.Refused M s.elastic.docs

/-- What may take effect. -/
def Allowed (s : State) : Effect → Prop
  | .index _ => True
  | .quarantine b => Rightful M scope topicId messages s b
  | .commit n => Settled scope topicId messages s n

structure Kept (s : State) : Prop where
  committed : Settled scope topicId messages s s.committed
  position : Settled scope topicId messages s s.position
  dlq : ∀ b ∈ s.dlq, Rightful M scope topicId messages s b
  inflight : ∀ effect ∈ s.inflight, Allowed M scope topicId messages s effect

end Kept

/-- Documents become newer, and what is in the quarantine topic stays. -/
structure Onward (s s' : State) : Prop where
  docs : Newer s.elastic.docs s'.elastic.docs
  dlq : s.dlq <+: s'.dlq

/-- The same documents and the same quarantine are further on. -/
lemma Onward.same {s s' : State} (docs : s'.elastic = s.elastic) (dlq : s'.dlq = s.dlq) :
    Onward s s' :=
  ⟨docs ▸ Newer.refl _, dlq ▸ List.prefix_rfl⟩

/-- Further on, twice. -/
lemma Onward.trans {s s' s'' : State} (h : Onward s s') (h' : Onward s' s'') : Onward s s'' :=
  ⟨h.docs.trans h'.docs, h.dlq.trans h'.dlq⟩

section
variable {M : Mapping} {scope : Scope} {topicId : Str} {messages : List Source} {s s' : State}
  {effect : Effect} {n : Nat} {b : Bytes}

/-- What is settled stays settled. -/
lemma Settled.onward (h : Settled scope topicId messages s n) (onward : Onward s s') :
    Settled scope topicId messages s' n := by
  intro i lt
  obtain ⟨m, there, settled⟩ := h i lt
  refine ⟨m, there, settled.imp (·.newer onward.docs) ?_⟩
  rintro ⟨b, mb, preserved⟩
  exact ⟨b, onward.dlq.subset mb, preserved⟩

/-- What is rightfully quarantined stays so. -/
lemma Rightful.onward (h : Rightful M scope topicId messages s b) (onward : Onward s s') :
    Rightful M scope topicId messages s' b := by
  obtain ⟨i, m, there, preserved, refused⟩ := h
  exact ⟨i, m, there, preserved, refused.newer onward.docs⟩

/-- What was allowed stays allowed. -/
lemma Allowed.onward (h : Allowed M scope topicId messages s effect) (onward : Onward s s') :
    Allowed M scope topicId messages s' effect := by
  cases effect with
  | index order => trivial
  | quarantine b => exact Rightful.onward h onward
  | commit n => exact Settled.onward h onward

/-- One more record is settled. -/
lemma Settled.next {m : Source} (h : Settled scope topicId messages s n)
    (there : messages[n]? = some m)
    (settled : m.Indexed s.elastic.docs ∨ ∃ b ∈ s.dlq, m.Preserved scope topicId n b) :
    Settled scope topicId messages s (n + 1) := by
  intro i lt
  rcases Nat.lt_succ_iff_lt_or_eq.1 lt with lt | rfl
  · exact h i lt
  · exact ⟨m, there, settled⟩

/-- An effect leads onward. -/
lemma Effect.onward (effect : Effect) : Onward s (effect.on M s) := by
  cases effect with
  | index order => exact ⟨index_newer, List.prefix_rfl⟩
  | quarantine b => exact ⟨Newer.refl _, List.prefix_append _ _⟩
  | commit n => exact .same rfl rfl

/-- What may take effect can do so. -/
lemma Kept.on (h : Kept M scope topicId messages s) (effect : Effect)
    (allowed : Allowed M scope topicId messages s effect) :
    Kept M scope topicId messages (effect.on M s) := by
  have onward := effect.onward (M := M) (s := s)
  have inflight : ∀ e ∈ s.inflight, Allowed M scope topicId messages (effect.on M s) e :=
    fun e m => (h.inflight e m).onward onward
  cases effect with
  | index order =>
    exact ⟨h.committed.onward onward, h.position.onward onward,
      fun b m => (h.dlq b m).onward onward, inflight⟩
  | quarantine b =>
    refine ⟨h.committed.onward onward, h.position.onward onward, fun b' m => ?_, inflight⟩
    rcases List.mem_append.1 m with m | m
    · exact (h.dlq b' m).onward onward
    · cases List.mem_singleton.1 m
      exact Rightful.onward allowed onward
  | commit n =>
    exact ⟨Settled.onward allowed onward, h.position.onward onward,
      fun b m => (h.dlq b m).onward onward, inflight⟩

/-- An allowed effect may come late. -/
lemma Kept.late (h : Kept M scope topicId messages s)
    (allowed : Allowed M scope topicId messages s effect) :
    Kept M scope topicId messages { s with inflight := effect :: s.inflight } := by
  have onward : Onward s { s with inflight := effect :: s.inflight } := .same rfl rfl
  refine ⟨h.committed.onward onward, h.position.onward onward, fun b m => (h.dlq b m).onward onward,
    fun e m => ?_⟩
  rcases List.mem_cons.1 m with rfl | m
  · exact allowed.onward onward
  · exact (h.inflight e m).onward onward

/-- Where the consumer stands, `s` is what the record before it has left. -/
structure At (M : Mapping) (scope : Scope) (topicId : Str) (messages : List Source) (s s' : State) :
    Prop where
  kept : Kept M scope topicId messages s'
  onward : Onward s s'
  position : s'.position = s.position

/-- Late effects lead onward from the same place. -/
lemma At.drifts {s₀ : State} (h : At M scope topicId messages s₀ s)
    (drift : ReflTransGen (Drifts M) s s') :
    At M scope topicId messages s₀ s' := by
  induction drift with
  | refl => exact h
  | tail _ last ih =>
    obtain ⟨m⟩ := last
    rename_i effect
    refine ⟨ih.kept.on effect (ih.kept.inflight _ m), ih.onward.trans effect.onward, ?_⟩
    rw [← ih.position]
    cases effect <;> rfl

/-! ### The calls -/

variable {m : Source}

abbrev Fine (M : Mapping) (scope : Scope) (topicId : Str) (messages : List Source) {α : Type}
    (p : Processor α) (s : State) : Prop :=
  (surroundings M).wp (Kept M scope topicId messages) (fun _ _ => True) (fun _ _ => True) p s

/-- Where the processor stands. -/
lemma Kept.here (h : Kept M scope topicId messages s) : At M scope topicId messages s s :=
  ⟨h, .same rfl rfl, rfl⟩

/-- A call that raises left things as they may be. -/
lemma At.raised {s₀ : State} {x : Call} {e : Thrown} (h : At M scope topicId messages s₀ s)
    (allowed : ∀ effect, Call.effect s x = some effect → Allowed M scope topicId messages s effect)
    (does : Does M x s (.error e) s') : At M scope topicId messages s₀ s' := by
  cases does with
  | refused sent =>
    exact ⟨h.kept.on _ (allowed _ rfl), h.onward.trans (Effect.onward _), h.position⟩
  | failed outage => exact h
  | @lost _ _ _ effect asked outage =>
    refine ⟨h.kept.on _ (allowed _ asked), h.onward.trans (Effect.onward _), ?_⟩
    rw [← h.position]
    cases effect <;> rfl
  | late asked outage =>
    exact ⟨h.kept.late (allowed _ asked), h.onward.trans (.same rfl rfl), h.position⟩

/-- What one call to the surroundings keeps. -/
lemma ask_wp {x : Call} {Q : Call.Result x → State → Prop} {E : Thrown → State → Prop}
    (h : Kept M scope topicId messages s)
    (allowed : ∀ s₁, At M scope topicId messages s s₁ → ∀ effect, Call.effect s₁ x = some effect →
      Allowed M scope topicId messages s₁ effect)
    (ok : ∀ s₁ a s', At M scope topicId messages s s₁ → Does M x s₁ (.ok a) s' →
      Kept M scope topicId messages s' ∧ Q a s')
    (error : ∀ s₁ e s', At M scope topicId messages s s₁ → At M scope topicId messages s s' →
      Does M x s₁ (.error e) s' → E e s') :
    (surroundings M).wp (Kept M scope topicId messages) Q E (ask x) s := by
  refine Proc.World.wp_ask fun s₁ drift r s' does => ?_
  have at₁ : At M scope topicId messages s s₁ := h.here.drifts drift
  cases r with
  | ok a => exact ok s₁ a s' at₁ does
  | error e =>
    have at' := at₁.raised (allowed s₁ at₁) does
    exact ⟨at'.kept, error s₁ e s' at₁ at' does⟩

/-- A checkpoint passes or interrupts. -/
lemma checkpoint_wp {name : String} {Q : Unit → State → Prop} (h : Kept M scope topicId messages s)
    (ok : ∀ s', At M scope topicId messages s s' → Q () s') :
    (surroundings M).wp (Kept M scope topicId messages) Q (fun _ _ => True)
      (ask (.checkpoint name)) s := by
  refine ask_wp h (fun s₁ _ effect asked => by cases asked) (fun s₁ a s' at₁ does => ?_)
    fun _ _ _ _ _ _ => trivial
  cases does
  exact ⟨at₁.kept, ok _ at₁⟩

/-- The offset behind a settled message is committed. -/
lemma commit_wp {Q : Unit → State → Prop} (h : Kept M scope topicId messages s)
    (settled : Settled scope topicId messages s (s.position + 1)) (ok : ∀ s', Q () s') :
    (surroundings M).wp (Kept M scope topicId messages) Q (fun _ _ => True) (ask .commit) s := by
  have next : ∀ s₁, At M scope topicId messages s s₁ →
    Settled scope topicId messages s₁ (s₁.position + 1) := fun s₁ at₁ =>
    at₁.position ▸ settled.onward at₁.onward
  refine ask_wp h (fun s₁ at₁ effect asked => ?_) (fun s₁ a s' at₁ does => ?_) fun _ _ _ _ _ _ =>
    trivial
  · cases asked
    exact next s₁ at₁
  · cases does
    have same : Onward s₁ { s₁ with committed := s₁.position + 1, position := s₁.position + 1 } :=
      .same rfl rfl
    have settled' := (next s₁ at₁).onward same
    exact ⟨⟨settled', settled', fun b m => (at₁.kept.dlq b m).onward same,
      fun e m => (at₁.kept.inflight e m).onward same⟩, ok _⟩

/-- What is raised is caught. -/
lemma attempt_wp {α : Type} {p : Processor α} {Q : Except Thrown α → State → Prop}
    {E : Thrown → State → Prop}
    (h : (surroundings M).wp (Kept M scope topicId messages) (fun a => Q (.ok a))
      (fun e => Q (.error e)) p s) :
    (surroundings M).wp (Kept M scope topicId messages) Q E (attempt p) s :=
  (Proc.World.wp_handle _ _).2 ((Proc.World.wp_bind p _).2 h)

/-- A computation that may raise. -/
lemma lift_wp {α : Type} {r : Except Raised α} {Q : α → State → Prop}
    (ok : ∀ a, r = .ok a → Q a s) :
    (surroundings M).wp (Kept M scope topicId messages) Q (fun _ _ => True) (lift r) s :=
  Proc.World.wp_ofExcept (fun a ends => ok a (mapError_ok.1 ends)) fun _ _ => trivial

/-- Behind the index a settled record is acknowledged. -/
lemma finishProjection_wp {event order outcome : Value} (h : Kept M scope topicId messages s)
    (settled : Settled scope topicId messages s (s.position + 1)) :
    Fine M scope topicId messages (finishProjection event order outcome) s := by
  unfold Fine finishProjection
  rw [Proc.World.wp_bind]
  refine checkpoint_wp h fun s₁ at₁ => ?_
  have settled₁ := settled.onward at₁.onward
  rw [← at₁.position] at settled₁
  rw [Proc.World.wp_bind]
  refine lift_wp fun id _ => ?_
  rw [Proc.World.wp_bind]
  have rest : ∀ (cacheFailed : Bool) s₂, At M scope topicId messages s₁ s₂ →
    Fine M scope topicId messages (do
      ask .commit
      let eventId ← lift ((event.item "event_id").mapError .python)
      let version ← lift ((order.item "version").mapError .python)
      return .projected outcome eventId id version cacheFailed : Processor Processed) s₂ := by
    intro cacheFailed s₂ at₂
    unfold Fine
    rw [Proc.World.wp_bind]
    refine commit_wp at₂.kept (at₂.position ▸ settled₁.onward at₂.onward) fun s₃ => ?_
    rw [Proc.World.wp_bind]
    refine lift_wp fun eventId _ => ?_
    rw [Proc.World.wp_bind]
    exact lift_wp fun version _ => trivial
  refine attempt_wp (ask_wp at₁.kept (fun s₂ _ effect asked => by cases asked)
    (fun s₂ a s' at₂ does => ?_)
    fun s₂ e s' _ at' _ => rest _ s' at')
  cases does
  exact ⟨at₂.kept, rest _ _ at₂⟩

omit [Interpreter] in
/-- Literals have no surrogates. -/
lemma str_scalar (t : String) : ∀ c ∈ str t, Scalar c := by
  intro c m
  obtain ⟨x, _, rfl⟩ := List.mem_map.1 m
  have valid : x.toNat < 0xD800 ∨ 0xDFFF < x.toNat ∧ x.toNat < 0x110000 := x.valid
  refine ⟨by omega, ?_⟩
  simp only [surrogate, Bool.and_eq_false_iff, decide_eq_false_iff_not]
  omega

/-- The envelope of a record can be written, and gives it back. -/
lemma preserved_made {rec : Value} {reason : String} (located : Located topicId n)
    (made : quarantineRecord scope topicId (ownRecord scope n) m.key m.raw
      (.str (str reason)) = .ok rec) :
    ∃ b, canonical rec = .ok b ∧ m.Preserved scope topicId n b := by
  obtain ⟨key, raw, hkey, hraw⟩ : ∃ key raw, m.key = some key ∧ m.raw = some raw := by
    rcases quarantineRecord_own scope located m.key m.raw (.str (str reason)) with ⟨_, msg,
      fails⟩ | ⟨k, b, _, hk, hb, _⟩
    · cases made.symm.trans fails
    · exact ⟨k, b, hk, hb⟩
  rw [hkey, hraw] at made
  obtain ⟨_, small, short, _⟩ := quarantineRecord_inv made
  have depth : 0 + 2 ≤ Interpreter.recursionLimit := by
    have := Interpreter.recursionLimit_ge
    omega
  obtain ⟨rec', b, r, made', written, read, checked⟩ :=
    roundTrip_written (d := 0) located.recordable short small (.str (str_scalar reason)) depth
  cases made.symm.trans made'
  exact ⟨b, written, key, raw, _, rec, r, hkey, hraw, made, written, read, checked⟩

/-- A refused record is acknowledged behind its envelope. -/
lemma setAside_wp {policy : Str} {stage : Stage} {e : Thrown} (h : Kept M scope topicId messages s)
    (located : Located topicId s.position) (there : messages[s.position]? = some m)
    (refused : m.Refused M s.elastic.docs) :
    Fine M scope topicId messages
      (setAside scope topicId (ownRecord scope s.position) m.key m.raw policy stage e) s := by
  unfold Fine setAside
  split
  · trivial
  · rename_i reason _
    split
    · trivial
    · rw [Proc.World.wp_bind]
      refine lift_wp fun rec made => ?_
      rw [mapError_ok] at made
      obtain ⟨b, written, preserved⟩ := preserved_made located made
      have rightful : ∀ s₁, At M scope topicId messages s s₁ →
        Rightful M scope topicId messages s₁ b := fun s₁ at₁ =>
        ⟨s.position, m, there, preserved, refused.newer at₁.onward.docs⟩
      rw [Proc.World.wp_bind]
      refine ask_wp h (fun s₁ at₁ effect asked => ?_) (fun s₁ a s' at₁ does => ?_)
        fun _ _ _ _ _ _ => trivial
      · rw [Call.effect, written] at asked
        cases asked
        exact rightful s₁ at₁
      · cases does with
        | quarantined written' receipt =>
          cases written.symm.trans written'
          have kept := at₁.kept.on (.quarantine b) (rightful s₁ at₁)
          have settled := kept.position.next (m := m) (at₁.position ▸ there)
            (.inr ⟨b, List.mem_append_right _ (List.mem_singleton_self b),
              at₁.position ▸ preserved⟩)
          refine ⟨kept, ?_⟩
          rw [Proc.World.wp_bind]
          refine checkpoint_wp kept fun s₂ at₂ => ?_
          rw [Proc.World.wp_bind]
          refine commit_wp at₂.kept (at₂.position ▸ settled.onward at₂.onward) fun s₃ => ?_
          rw [Proc.World.wp_bind]
          exact lift_wp fun dlqId _ => trivial

/-- `process_record` keeps what holds of the drill. -/
theorem processRecord_wp {policy : Str} (h : Kept M scope topicId messages s)
    (located : Located topicId s.position)
    (there : messages[s.position]? = some m) :
    Fine M scope topicId messages
      (processRecord scope topicId (ownRecord scope s.position) m.key m.raw policy) s := by
  unfold Fine processRecord
  split
  · trivial
  split
  · rename_i e read
    exact setAside_wp h located there (.inl ⟨e, read⟩)
  · rename_i event read
    rw [Proc.World.wp_bind]
    refine lift_wp fun order item => ?_
    rw [mapError_ok] at item
    rw [Proc.World.wp_bind]
    refine attempt_wp (ask_wp h (fun _ _ effect asked => ?_) (fun s₁ a s' at₁ does => ?_)
      fun s₁ e s' at₁ at' does => ?_)
    · cases asked
      trivial
    · cases does with
      | @indexed _ _ outcome sent =>
        obtain ⟨id, version, hid, hversion, reflects⟩ := index_reflects sent
        have kept := at₁.kept.on (.index order) trivial
        have settled := kept.position.next (m := m) (at₁.position ▸ there)
          (.inl ⟨order, id, version, ⟨⟨event, read, item⟩, hid, hversion⟩, reflects⟩)
        exact ⟨kept, finishProjection_wp kept settled⟩
    · show Fine M scope topicId messages
        (setAside scope topicId (ownRecord scope s.position) m.key m.raw policy .project e) s'
      by_cases passing : permanentReason e .project = none
      · unfold Fine setAside
        rw [passing]
        trivial
      · -- only the index itself refuses a document
        cases does with
        | refused sent =>
          obtain ⟨id, version, hid, hversion, why⟩ := index_refused sent passing
          have refused : m.Refused M ((Effect.index order).on M s₁).elastic.docs :=
            .inr ⟨order, id, version, ⟨⟨event, read, item⟩, hid, hversion⟩,
              why.imp (fun forbidden => forbidden) fun conflicts => ⟨_, index_newer, conflicts⟩⟩
          rw [← at'.position] at located there ⊢
          exact setAside_wp at'.kept located there refused
        | failed outage => exact absurd outage passing
        | lost asked outage => exact absurd outage passing
        | late asked outage => exact absurd outage passing

/-! ### Drills -/

/-- What is kept holds in every reachable state. -/
lemma Reachable.kept (located : ∀ i < messages.length, Located topicId i)
    (reach : Reachable M scope topicId messages s) : Kept M scope topicId messages s := by
  induction reach with
  | init elastic =>
    have nothing : ∀ s, Settled scope topicId messages s 0 :=
      fun s i lt => absurd lt (Nat.not_lt_zero i)
    exact ⟨nothing _, nothing _, List.forall_mem_nil _, List.forall_mem_nil _⟩
  | @reader s _ ih =>
    have same : Onward s { s with position := s.committed } := .same rfl rfl
    exact ⟨ih.committed.onward same, ih.committed.onward same, fun b m => (ih.dlq b m).onward same,
      fun e m => (ih.inflight e m).onward same⟩
  | drift _ drift ih => exact (ih.here.drifts (.single drift)).kept
  | consume _ next policy run ih =>
    exact run.keeps (processRecord_wp ih (located _ (List.getElem?_eq_some_iff.1 next).1) next) ih

/-- In every state of a drill what is in front of the committed offset is reflected in the index or
preserved in the quarantine topic, and what is in that topic is the envelope of a record that was
refused. -/
theorem nothing_lost (located : ∀ i < messages.length, Located topicId i)
    (reach : Reachable M scope topicId messages s) :
    (∀ i < s.committed, ∃ m, messages[i]? = some m ∧
      (m.Indexed s.elastic.docs ∨ ∃ b ∈ s.dlq, m.Preserved scope topicId i b)) ∧
    ∀ b ∈ s.dlq, ∃ (i : Nat) (m : Source), messages[i]? = some m ∧ m.Preserved scope topicId i b ∧
      m.Refused M s.elastic.docs :=
  have kept := reach.kept located
  ⟨kept.committed, kept.dlq⟩

end

end

/-! ### A drill -/

section Tombstone
attribute [local instance] integral

/-- An index without restrictions, and calls that take effect at once. -/
def calm : Oracle (surroundings ⟨fun _ => none⟩) Unit where
  answer
    | .index order, s, n =>
      ((Search.index ⟨fun _ => none⟩ order s.elastic).1.map fun outcome => .str (str outcome),
        (Effect.index order).on ⟨fun _ => none⟩ s, n)
    | .quarantine record, s, n => match canonical record with
      | .ok b => (.ok .null, (Effect.quarantine b).on ⟨fun _ => none⟩ s, n)
      | .error _ => (.error .other, s, n)
    | .checkpoint _, s, n => (.ok (), s, n)
    | .deleteCached _, s, n => (.ok (), s, n)
    | .commit, s, n =>
      (.ok (), { s with committed := s.position + 1, position := s.position + 1 }, n)
  does x s n := by
    cases x with
    | index order =>
      dsimp only
      cases sent : (Search.index ⟨fun _ => none⟩ order s.elastic).1 with
      | ok outcome => exact .indexed sent
      | error e => exact .refused sent
    | quarantine record =>
      dsimp only
      split
      · exact .quarantined ‹_› _
      · exact .failed trivial
    | checkpoint name => exact .passed name
    | deleteCached id => exact .deleted id
    | commit => exact .committed

/-- A message without a text, for a key. -/
def emptied : Source := ⟨some [107], some []⟩

def begun : State := ⟨⟨true, fun _ => none⟩, [], 0, 0, []⟩

/-- What a consumer runs for it. -/
def emptiedProgram : Processor Processed :=
  processRecord drillScope (str "topic") (ownRecord drillScope begun.position) emptied.key
    emptied.raw (str "quarantine")

/-- The run of the demonstration quarantines its message and commits behind it. -/
lemma emptied_ends : ∃ s, (surroundings ⟨fun _ => none⟩).Passes emptiedProgram begun s ∧
    s.committed = 1 ∧ s.dlq.length = 1 := by
  have ends : (calm.run emptiedProgram begun ()).2.1.committed = 1 ∧
      (calm.run emptiedProgram begun ()).2.1.dlq.length = 1 := by
    decide +kernel
  exact ⟨_, (calm.run_ran emptiedProgram begun ()).passes, ends⟩

/-- `nothing_lost` for one empty message. -/
theorem nothing_lost_emptied :
    ∃ s : State, Reachable ⟨fun _ => none⟩ drillScope (str "topic") [emptied] s ∧ s.committed = 1 ∧
      s.dlq.length = 1 ∧
    ∀ b ∈ s.dlq, ∃ (i : Nat) (m : Source), [emptied][i]? = some m ∧
      m.Preserved drillScope (str "topic") i b ∧ m.Refused ⟨fun _ => none⟩ s.elastic.docs := by
  obtain ⟨s, run, committed, dlq⟩ := emptied_ends
  have reach : Reachable ⟨fun _ => none⟩ drillScope (str "topic") [emptied] s :=
    .consume (.init ⟨true, fun _ => none⟩) (show [emptied][0]? = some emptied from rfl)
      (str "quarantine") run
  have located : ∀ i < [emptied].length, Located (str "topic") i := by
    intro i lt
    obtain rfl : i = 0 := Nat.lt_one_iff.1 lt
    exact drill_located
  exact ⟨s, reach, committed, dlq, (nothing_lost located reach).2⟩

end Tombstone

end DbLab.Mvp.Message.Drill
