import DbLab.Mvp.Stack
import DbLab.Py.Reference

/-!
# Retained message runs

The ledger of a run that is kept names the API container of its time. It can be cleaned up as long
as that container is there, and a command that replaces it ends that.
-/

namespace DbLab.Mvp.Stack
open DbLab.Py Message

variable {compose : Compose}

/-! ### What Compose keeps -/

namespace World
variable (w : World) {s t : Service} (id : ContainerId)

/-- The container that was created. -/
lemma create_self : (w.create s id).containers s =
    some ⟨id, w.images s, s.environment w.mode, true⟩ :=
  Function.update_self ..

/-- The other containers stay when one is created. -/
lemma create_other (other : t ≠ s) : (w.create s id).containers t = w.containers t :=
  Function.update_of_ne other ..

/-- A service is up in its own container. -/
lemma up_other (force : Bool) (other : t ≠ s) :
    (w.up s force id).containers t = w.containers t := by
  rw [up]
  split
  · exact w.create_other id other
  · exact Function.update_of_ne other ..

/-- Up starts a container that is not outdated. -/
lemma up_kept {force : Bool} (kept : (force || w.outdated s) = false) :
    (w.up s force id).containers s = (w.containers s).map fun c => { c with running := true } := by
  rw [up, kept]
  exact Function.update_self ..

/-- Up changes no setting. -/
lemma up_settings (force : Bool) :
    (w.up s force id).mode = w.mode ∧ (w.up s force id).images = w.images := by
  rw [up]
  split
  · exact ⟨rfl, rfl⟩
  · exact ⟨rfl, rfl⟩

end World

/-- Containers have identities of their own. -/
structure World.Wf (w : World) : Prop where
  issued : ∀ s c, w.containers s = some c → c.id ∈ w.issued
  distinct : ∀ s s' c c', w.containers s = some c → w.containers s' = some c' →
    c.id = c'.id → s = s'

/-- What Compose may do: a container stays with its identity and its environment, or has a new
identity. -/
structure Composed (w w' : World) : Prop where
  data : w'.topics = w.topics ∧ w'.indexes = w.indexes
  files : w'.ledgers = w.ledgers ∧ w'.active = w.active
  target : w'.project = w.project ∧ w'.engine = w.engine
  issued : ∀ id ∈ w.issued, id ∈ w'.issued
  containers : ∀ s c', w'.containers s = some c' →
    (∃ c, w.containers s = some c ∧ c.id = c'.id ∧ c.env = c'.env) ∨ c'.id ∉ w.issued
  wf : w.Wf → w'.Wf

namespace Composed
variable {w w' w'' : World}

/-- Nothing happened. -/
lemma refl (w : World) : Composed w w :=
  ⟨⟨rfl, rfl⟩, ⟨rfl, rfl⟩, ⟨rfl, rfl⟩, fun _ mem => mem, fun _ c here => .inl ⟨c, here, rfl, rfl⟩,
    fun wf => wf⟩

/-- One after the other. -/
lemma trans (h : Composed w w') (h' : Composed w' w'') : Composed w w'' := by
  refine ⟨⟨h'.data.1.trans h.data.1, h'.data.2.trans h.data.2⟩,
    ⟨h'.files.1.trans h.files.1, h'.files.2.trans h.files.2⟩,
    ⟨h'.target.1.trans h.target.1, h'.target.2.trans h.target.2⟩, fun id mem =>
      h'.issued id (h.issued id mem), ?_,
    fun wf => h'.wf (h.wf wf)⟩
  intro s c'' here
  cases h'.containers s c'' here with
  | inl old =>
    obtain ⟨c', here', id', env'⟩ := old
    cases h.containers s c' here' with
    | inl older =>
      obtain ⟨c, here, id, env⟩ := older
      exact .inl ⟨c, here, id.trans id', env.trans env'⟩
    | inr new => exact .inr (id' ▸ new)
  | inr new => exact .inr fun mem => new (h.issued _ mem)

/-- The mode and the images of a world are changed. -/
lemma settings (w : World) (mode : Mode) (images : Service → Str) :
    Composed w { w with mode, images } :=
  ⟨⟨rfl, rfl⟩, ⟨rfl, rfl⟩, ⟨rfl, rfl⟩, fun _ mem => mem, fun _ c here => .inl ⟨c, here, rfl, rfl⟩,
    fun wf => ⟨wf.issued, wf.distinct⟩⟩

/-- A container is started or stopped. -/
lemma run (w : World) (s : Service) (running : Bool) :
    Composed w { w with
      containers :=
        Function.update w.containers s ((w.containers s).map fun c => { c with running }) } := by
  have same : ∀ t c', Function.update w.containers s ((w.containers s).map fun c =>
    { c with running }) t = some c' →
      ∃ c, w.containers t = some c ∧ c.id = c'.id ∧ c.env = c'.env := by
    intro t c' here
    by_cases its : t = s
    · rw [its, Function.update_self] at here
      obtain ⟨c, there, same⟩ := Option.map_eq_some_iff.1 here
      rw [its]
      exact ⟨c, there, by rw [← same], by rw [← same]⟩
    · rw [Function.update_of_ne its] at here
      exact ⟨c', here, rfl, rfl⟩
  refine ⟨⟨rfl, rfl⟩, ⟨rfl, rfl⟩, ⟨rfl, rfl⟩, fun _ mem => mem,
    fun t c' here => .inl (same t c' here), fun wf => ⟨?_, ?_⟩⟩
  · intro t c' here
    obtain ⟨c, there, id, _⟩ := same t c' here
    exact id ▸ wf.issued t c there
  · intro t t' c c' here here' eq
    obtain ⟨d, there, id, _⟩ := same t c here
    obtain ⟨d', there', id', _⟩ := same t' c' here'
    exact wf.distinct t t' d d' there there' (id.trans (eq.trans id'.symm))

/-- A new container. -/
lemma create (w : World) (s : Service) {id : ContainerId} (fresh : id ∉ w.issued) :
    Composed w (w.create s id) := by
  have cases_ : ∀ t c', (w.create s id).containers t = some c' → (t = s ∧ c'.id = id) ∨
      w.containers t = some c' := by
    intro t c' here
    by_cases its : t = s
    · rw [its, w.create_self] at here
      exact .inl ⟨its, congrArg Container.id (Option.some.inj here).symm⟩
    · rw [w.create_other id its] at here
      exact .inr here
  refine ⟨⟨rfl, rfl⟩, ⟨rfl, rfl⟩, ⟨rfl, rfl⟩, fun _ mem => List.mem_cons_of_mem _ mem, ?_,
    fun wf => ⟨?_, ?_⟩⟩
  · intro t c' here
    cases cases_ t c' here with
    | inl new => exact .inr (new.2 ▸ fresh)
    | inr old => exact .inl ⟨c', old, rfl, rfl⟩
  · intro t c' here
    cases cases_ t c' here with
    | inl new => exact new.2 ▸ List.mem_cons_self
    | inr old => exact List.mem_cons_of_mem _ (wf.issued t c' old)
  · intro t t' c c' here here' eq
    cases cases_ t c here with
    | inl new =>
      cases cases_ t' c' here' with
      | inl new' => exact new.1.trans new'.1.symm
      | inr old' => exact (fresh (by rw [← new.2, eq]; exact wf.issued t' c' old')).elim
    | inr old =>
      cases cases_ t' c' here' with
      | inl new' => exact (fresh (by rw [← new'.2, ← eq]; exact wf.issued t c old)).elim
      | inr old' => exact wf.distinct t t' c c' old old' eq

/-- Bringing a service up. -/
lemma up {s : Service} {force : Bool} (up : compose.up w s force w') : Composed w w' := by
  obtain ⟨id, fresh, rfl⟩ := compose.up_documented up
  rw [World.up]
  split
  · exact create w s fresh
  · exact run w s true

/-- What stop does. -/
lemma stop {s : Service} (stop : compose.stop w s w') : Composed w w' := by
  cases compose.stop_documented stop
  exact run w s false

/-- What down does. -/
lemma down (down : compose.down w w') : Composed w w' := by
  cases compose.down_documented down
  refine ⟨⟨rfl, rfl⟩, ⟨rfl, rfl⟩, ⟨rfl, rfl⟩, fun _ mem => mem, ?_, fun _ => ⟨?_, ?_⟩⟩
  · intro s c here
    cases here
  · intro s c here
    cases here
  · intro s t c d here
    cases here

/-- Any number of ups. -/
lemma ups {l : List (Service × Bool)} (h : Ups compose w l w') : Composed w w' := by
  induction h with
  | nil => exact refl _
  | cons first _ ih => exact (up first).trans ih

/-- What a fault does. -/
lemma simulates {f : Fault} (h : Simulates compose w f w') : Composed w w' := by
  cases h with
  | passing => exact refl _
  | recreate h => exact ups h
  | switch spare there back left =>
    have whole :=
      ((ups spare).trans ((settings _ _ _).trans (ups there))).trans
        ((settings _ _ _).trans (ups back))
    split at left
    · exact left ▸ whole
    · exact whole.trans (stop left)

/-- An event log is written. -/
lemma logged (w : World) (runId : Str) (size : Nat) : Composed w (w.logged runId size) :=
  ⟨⟨rfl, rfl⟩, ⟨rfl, rfl⟩, ⟨rfl, rfl⟩, fun _ mem => mem, fun _ c here => .inl ⟨c, here, rfl, rfl⟩,
    fun wf => ⟨wf.issued, wf.distinct⟩⟩

end Composed

/-! ### The API container -/

namespace World

/-- The API container has this identity. -/
def Pinned (w : World) (id : ContainerId) : Prop := ∃ c, w.containers .api = some c ∧ c.id = id

/-- The commands that put an end to the API container that there is, or leave none. -/
def replaces (w : World) : Command → Bool
  | .up built => (w.build built).outdated .api
  | .down | .experiment _ => true
  | .resume s => s = .api && w.outdated .api
  | .recreate s => s = .api
  | .simulate f => f = .switch
  | _ => false

/-- What a container is compared with. -/
lemma outdated_eq {w w' : World} {s : Service} (containers : w'.containers s = w.containers s)
    (mode : w'.mode = w.mode)
    (images : w'.images = w.images) : w'.outdated s = w.outdated s := by
  rw [outdated, outdated, containers, mode, images]

/-- Up keeps the pinned container unless it is outdated. -/
lemma up_pinned {w : World} {pinned id : ContainerId} (known : pinned ∈ w.issued)
    (fresh : id ∉ w.issued) (force : Bool) :
    (w.up .api force id).Pinned pinned ↔ w.Pinned pinned ∧ (force || w.outdated .api) = false := by
  by_cases replaced : (force || w.outdated .api) = true
  · rw [up, if_pos replaced]
    constructor
    · intro ⟨c, here, same⟩
      rw [w.create_self] at here
      have new : c.id = id := congrArg Container.id (Option.some.inj here).symm
      exact (fresh (by rw [← new, same]; exact known)).elim
    · intro ⟨_, kept⟩
      rw [kept] at replaced
      cases replaced
  · have kept := Bool.eq_false_of_not_eq_true replaced
    constructor
    · intro ⟨c', here, same⟩
      rw [w.up_kept id kept] at here
      obtain ⟨c, there, eq⟩ := Option.map_eq_some_iff.1 here
      exact ⟨⟨c, there, by rw [← same, ← eq]⟩, kept⟩
    · intro ⟨⟨c, there, same⟩, _⟩
      exact ⟨{ c with running := true }, by rw [w.up_kept id kept, there]; rfl, same⟩

end World

namespace Ups
variable {w w' : World} {l l' : List (Service × Bool)}

/-- Ups one after the other. -/
lemma append (h : Ups compose w (l ++ l') w') : ∃ m, Ups compose w l m ∧ Ups compose m l' w' := by
  induction l generalizing w with
  | nil => exact ⟨w, .nil, h⟩
  | cons p l ih =>
    cases h with
    | cons fresh rest =>
      obtain ⟨m, first, second⟩ := ih rest
      exact ⟨m, .cons fresh first, second⟩

/-- Services other than the API leave its container alone. -/
lemma frame (h : Ups compose w l w') (others : ∀ p ∈ l, p.1 ≠ .api) :
    w'.containers .api = w.containers .api ∧ w'.mode = w.mode ∧ w'.images = w.images := by
  induction h with
  | nil => exact ⟨rfl, rfl, rfl⟩
  | @cons w s force w₁ l w' up _ ih =>
    obtain ⟨containers, mode, images⟩ := ih fun p mem => others p (List.mem_cons_of_mem _ mem)
    obtain ⟨id, _, rfl⟩ := compose.up_documented up
    have settings := w.up_settings id (s := s) force
    have other : Service.api ≠ s := fun same => others (s, force) List.mem_cons_self same.symm
    exact ⟨containers.trans (w.up_other id force other), mode.trans settings.1,
      images.trans settings.2⟩

/-- Ups of other services keep the pinned container. -/
lemma pinned_of_others (h : Ups compose w l w') (others : ∀ p ∈ l, p.1 ≠ .api)
    (pinned : ContainerId) :
    w'.Pinned pinned ↔ w.Pinned pinned := by
  rw [World.Pinned, World.Pinned, (h.frame others).1]

/-- The API is brought up somewhere on the way. -/
lemma pinned_api {force : Bool} {pinned : ContainerId}
    (h : Ups compose w (l ++ (.api, force) :: l') w')
    (known : pinned ∈ w.issued) (before : ∀ p ∈ l, p.1 ≠ .api) (after : ∀ p ∈ l', p.1 ≠ .api) :
    w'.Pinned pinned ↔ w.Pinned pinned ∧ (force || w.outdated .api) = false := by
  obtain ⟨m, first, rest⟩ := h.append
  obtain ⟨containers, mode, images⟩ := first.frame before
  cases rest with
  | cons up rest =>
    obtain ⟨id, fresh, rfl⟩ := compose.up_documented up
    rw [rest.pinned_of_others after, World.up_pinned ((Composed.ups first).issued _ known) fresh,
      first.pinned_of_others before, World.outdated_eq containers mode images]

/-- The applications are created anew. -/
lemma apps_unpinned {pinned : ContainerId} (h : Ups compose w apps w') (known : pinned ∈ w.issued) :
    ¬ w'.Pinned pinned := by
  intro kept
  have same := ((pinned_api (l := []) h known nofun (by decide)).1 kept).2
  cases same

end Ups

/-- The databases are other services. -/
lemma databases_others (m : Mode) : ∀ p ∈ (databases m).map fun s => (s, false), p.1 ≠ .api := by
  cases m <;> decide

/-! ### The container of a ledger -/

namespace World
variable {w w' : World} {l : Ledger} {c : Container}

/-- A container that is found is there. -/
lemma find_some {s : Service} {id : ContainerId} (h : w.find id = some (s, c)) :
    w.containers s = some c ∧ c.id = id := by
  obtain ⟨t, _, found⟩ := List.exists_of_findSome?_eq_some h
  obtain ⟨d, here, same⟩ := Option.bind_eq_some_iff.1 found
  split at same
  case isTrue eq =>
    cases same
    exact ⟨here, eq⟩
  case isFalse => cases same

/-- The API container is found by its identity if no other container has it. -/
lemma find_api {id : ContainerId} (here : w.containers .api = some c) (same : c.id = id)
    (only : ∀ s c, w.containers s = some c → c.id = id → s = .api) :
    w.find id = some (.api, c) := by
  have others : ∀ s, s ≠ .api →
      (w.containers s).bind (fun c => if c.id = id then some (s, c) else none) = none := by
    intro s other
    refine Option.bind_eq_none_iff.2 ?_
    intro d there
    exact if_neg fun eq => other (only s d there eq)
  have mine : (w.containers .api).bind (fun c => if c.id = id then some (Service.api, c)
      else none) = some (.api, c) := by
    rw [here]
    exact if_pos same
  simp only [find, services, baseServices, List.cons_append, List.nil_append, List.findSome?_cons,
    others .mariadb (by decide), others .kafka (by decide), others .elasticsearch (by decide),
    others .redis (by decide), mine]

/-- When a ledger is valid. -/
lemma validate_ok : w.validate l = .ok c ↔
    (l.scope.project = w.project ∧ l.engine = w.engine) ∧ w.find l.apiId = some (.api, c) := by
  rw [validate]
  by_cases foreign : l.scope.project ≠ w.project ∨ l.engine ≠ w.engine
  · rw [if_pos foreign]
    constructor
    · exact nofun
    · intro ⟨⟨project, engine⟩, _⟩
      exact (foreign.elim (· project) (· engine)).elim
  · obtain ⟨project, engine⟩ := not_or.1 foreign
    rw [if_neg foreign]
    constructor
    · intro ok
      cases found : w.find l.apiId with
      | none =>
        rw [found] at ok
        cases ok
      | some p =>
        obtain ⟨s, d⟩ := p
        rw [found] at ok
        by_cases api : s = .api
        · subst api
          cases ok
          exact ⟨⟨not_not.1 project, not_not.1 engine⟩, rfl⟩
        · exact nomatch (show Except.error _ = Except.ok c from (if_pos api).symm.trans ok)
    · intro ⟨_, found⟩
      rw [found]
      rfl

end World

/-! ### Names -/

/-- A run id is its prefix and its number. -/
lemma runId_eq (scope : Scope) : scope.runId = str "msg-" ++ scope.runId.drop 4 := by
  have matched := scope.runId_ok
  rw [Pattern.fullmatch, runPattern, Pattern.seq, Pattern.lit] at matched
  split at matched
  case isTrue front =>
    obtain ⟨rest, eq⟩ := List.isPrefixOf_iff_prefix.1 front
    rw [← eq]
    rfl
  case isFalse => cases matched

section
variable [Interpreter]

/-- Runs of one project with different ids have different names. -/
structure Apart (a b : Scope) : Prop where
  events : a.topic ≠ b.topic ∧ a.topic ≠ b.dlq
  dlq : a.dlq ≠ b.topic ∧ a.dlq ≠ b.dlq
  index : indexName a ≠ indexName b

/-- Two runs have nothing in common. -/
lemma apart_of_runId {a b : Scope} (project : a.project = b.project) (other : a.runId ≠ b.runId) :
    Apart a b := by
  have rests : a.runId.drop 4 ≠ b.runId.drop 4 := by
    intro same
    exact other (by rw [runId_eq a, runId_eq b, same])
  have suffixes : a.suffix ≠ b.suffix := by
    intro same
    rw [Scope.suffix, Scope.suffix, project] at same
    exact rests (List.append_cancel_left same)
  -- the names of events and of quarantine end in different letters
  have kinds : ∀ s t : Str, str "mvp.study." ++ s ++ str ".events" ≠ str "mvp.study." ++ t ++
      str ".dlq" := by
    intro s t same
    have events : str ".events" <:+ str "mvp.study." ++ s ++ str ".events" := List.suffix_append ..
    have dlq : str ".dlq" <:+ str "mvp.study." ++ s ++ str ".events" := by
      rw [same]
      exact List.suffix_append ..
    exact absurd (List.suffix_or_suffix_of_suffix events dlq) (by decide +kernel)
  refine ⟨⟨?_, kinds _ _⟩, ⟨fun same => kinds _ _ same.symm, ?_⟩, ?_⟩
  · exact fun same => suffixes (List.append_cancel_left (List.append_cancel_right same))
  · exact fun same => suffixes (List.append_cancel_left (List.append_cancel_right same))
  · exact fun same => suffixes (List.append_cancel_left same)

/-! ### What a session deletes -/

namespace World
variable {w w' : World} {l : Ledger} {scope : Scope} {res : Resources} {live : List Str}
  {indexExists : Bool} {size : Nat}

omit [Interpreter] in
/-- A helper answers. -/
lemma rpc_ok {α : Type} {helper : Except String α} {a : α} : w.rpc l helper = .ok a ↔
    ∃ c env, w.validate l = .ok c ∧ c.running = true ∧ c.env = some env ∧
      (env.cacheHost = "redis" ∧ env.searchIndex = "mvp-orders-v1") ∧ helper = .ok a := by
  constructor
  · intro ok
    rw [rpc] at ok
    obtain ⟨c, valid, ok⟩ := bind_ok.1 ok
    cases running : c.running with
    | false =>
      rw [running] at ok
      cases ok
    | true =>
      cases env : c.env with
      | none =>
        rw [running, env] at ok
        cases ok
      | some e =>
        rw [running, env] at ok
        by_cases other : e.cacheHost ≠ "redis" ∨ e.searchIndex ≠ "mvp-orders-v1"
        · have refused := (if_pos other).symm.trans ok
          cases refused
        · obtain ⟨host, index⟩ := not_or.1 other
          have done := (if_neg other).symm.trans ok
          exact ⟨c, e, valid, running, env, ⟨not_not.1 host, not_not.1 index⟩, mapError_ok.1 done⟩
  · intro ⟨c, env, valid, running, some_, ⟨host, index⟩, done⟩
    rw [rpc, valid, ok_bind, running, some_]
    have selected : ¬ (env.cacheHost ≠ "redis" ∨ env.searchIndex ≠ "mvp-orders-v1") :=
      not_or.2 ⟨not_not.2 host, not_not.2 index⟩
    exact (if_neg selected).trans (mapError_ok.2 done)

/-- When the cleanup of a run's resources succeeds. -/
lemma runtimeCleanup_ok : w.runtimeCleanup scope res = .ok w' ↔
    ∃ live indexExists, w.verifyResources true scope res = .ok (live, indexExists) ∧
      w' = w.without scope live indexExists := by
  rw [runtimeCleanup, bind_ok]
  constructor
  · intro ⟨⟨live, indexExists⟩, found, ok⟩
    cases ok
    exact ⟨live, indexExists, found, rfl⟩
  · intro ⟨live, indexExists, found, eq⟩
    exact ⟨(live, indexExists), found, congrArg _ eq.symm⟩

omit [Interpreter] in
/-- When a session's log is small enough. -/
lemma openSession_ok : w.openSession l = .ok () ↔ w.logSize l.scope.runId ≤ 4 * 1024 * 1024 := by
  rw [openSession]
  split
  case isTrue large => exact ⟨nofun, fun small => absurd large (not_lt.2 small)⟩
  case isFalse small => exact ⟨fun _ => not_lt.1 small, fun _ => rfl⟩

/-- When the cleanup of a session succeeds. -/
lemma sessionCleanup_ok : w.sessionCleanup l size = .ok w' ↔
    w.logSize l.scope.runId ≤ 4 * 1024 * 1024 ∧
      ∃ w₁, (w.save l (some l)).rpc l ((w.save l (some l)).runtimeCleanup l.scope l.resources) =
        .ok w₁ ∧ w' = (w₁.logged l.scope.runId size).save { l with stage := .cleaned } none := by
  constructor
  · intro ok
    obtain ⟨_, opened, ok⟩ := bind_ok.1 ok
    obtain ⟨_, _, ok⟩ := bind_ok.1 ok
    obtain ⟨w₁, done, ok⟩ := bind_ok.1 ok
    cases ok
    exact ⟨openSession_ok.1 opened, w₁, done, rfl⟩
  · intro ⟨small, w₁, done, eq⟩
    obtain ⟨c, _, valid, _⟩ := rpc_ok.1 done
    have here : w.validate l = .ok c := valid
    rw [sessionCleanup, openSession_ok.2 small, ok_bind, here, ok_bind]
    dsimp only
    rw [done, eq]
    rfl

omit [Interpreter] in
/-- When a ledger is read. -/
lemma readLedger_ok {runId : Str} :
    w.readLedger runId = .ok l ↔ runPattern.fullmatch runId = true ∧ w.ledgers runId = some l := by
  rw [readLedger]
  cases runPattern.fullmatch runId with
  | false => exact ⟨nofun, nofun⟩
  | true =>
    cases w.ledgers runId with
    | none => exact ⟨nofun, nofun⟩
    | some b =>
      exact ⟨fun ok => ⟨rfl, congrArg some (Except.ok.inj ok)⟩,
        fun same => congrArg _ (Option.some.inj same.2)⟩

omit [Interpreter] in
/-- Nothing is simulated or drilled. -/
lemma requireNoFault_ok (free : w.simulating = false ∧ w.drilling = false) :
    w.requireNoFault = .ok () := by
  rw [requireNoFault, free.1, free.2]
  rfl

/-- A topic that is there is the one of the ledger. -/
def Known (w : World) (res : Resources) (name : Str) : Prop :=
  ∀ t, w.topics name = some t → describe t = .ok t.topicId ∧ lookup name res.topics = some t.topicId

/-- An index that is there is the one of the ledger. -/
def KnownIndex (w : World) (scope : Scope) (res : Resources) : Prop :=
  ∀ i, w.indexes (indexName scope) = some i → indexIdentity scope i = .ok i.uuid ∧
    ∃ name, res.index = some (name, i.uuid)

omit [Interpreter] in
/-- A known topic is verified. -/
lemma verifyTopic_ok {name : Str} (known : w.Known res name) :
    w.verifyTopic true res name = .ok (w.topics name).isSome := by
  rw [verifyTopic]
  cases here : w.topics name with
  | none => rfl
  | some t =>
    obtain ⟨described, recorded⟩ := known t here
    rw [recorded]
    cases id : t.topicId with
    | nil =>
      rw [describe, if_pos (.inl id)] at described
      cases described
    | cons c id' =>
      show checkTopic t (c :: id') = .ok true
      rw [checkTopic, described, ok_bind, if_neg (not_not.2 id)]
      rfl

/-- A known index is verified. -/
lemma verifyIndex_ok (known : w.KnownIndex scope res) :
    w.verifyIndex true scope res = .ok (w.indexes (indexName scope)).isSome := by
  rw [verifyIndex]
  cases here : w.indexes (indexName scope) with
  | none => rfl
  | some i =>
    obtain ⟨identity, name, recorded⟩ := known i here
    rw [recorded]
    show checkIndex scope i i.uuid = .ok true
    rw [checkIndex, identity, ok_bind, if_neg (not_not.2 rfl)]
    rfl

/-- The resources of a run are verified. -/
lemma verifyResources_ok (own : ∀ t ∈ res.topics, t.1 = scope.topic ∨ t.1 = scope.dlq)
    (ownIndex : ∀ i ∈ res.index, i.1 = indexName scope) (events : w.Known res scope.topic)
    (dlq : w.Known res scope.dlq)
    (index : w.KnownIndex scope res) :
    w.verifyResources true scope res = .ok
      ([scope.topic, scope.dlq].filter fun name => (w.topics name).isSome,
        (w.indexes (indexName scope)).isSome) := by
  have topics : res.topics.any (fun t => t.1 ≠ scope.topic && t.1 ≠ scope.dlq) = false := by
    refine List.any_eq_false.2 ?_
    intro t mem foreign
    rw [Bool.and_eq_true, decide_eq_true_eq, decide_eq_true_eq] at foreign
    exact (own t mem).elim foreign.1 foreign.2
  have indexes : res.index.any (fun i => i.1 ≠ indexName scope) = false := by
    cases here : res.index with
    | none => rfl
    | some i => exact decide_eq_false (not_not.2 (ownIndex i here))
  have live : [scope.topic, scope.dlq].filterM (fun name => w.verifyTopic true res name) =
      .ok ([scope.topic, scope.dlq].filter fun name => (w.topics name).isSome) := by
    refine filterM_ok ?_
    intro name mem
    cases mem with
    | head => exact verifyTopic_ok events
    | tail _ mem =>
      cases List.mem_singleton.1 mem
      exact verifyTopic_ok dlq
  rw [verifyResources, topics, indexes, live, verifyIndex_ok index]
  rfl

/-- Nothing is deleted but what the scope of a session names. -/
lemma verifyResources_live (h : w.verifyResources true scope res = .ok (live, indexExists)) :
    ∀ name ∈ live, name = scope.topic ∨ name = scope.dlq := by
  rw [verifyResources] at h
  split at h
  · cases h
  · split at h
    · cases h
    · obtain ⟨found, run, h⟩ := bind_ok.1 h
      obtain ⟨_, _, h⟩ := bind_ok.1 h
      cases h
      intro name mem
      have sub := filterM_mem run name mem
      cases sub with
      | head => exact .inl rfl
      | tail _ sub => exact .inr (List.mem_singleton.1 sub)

end World

/-- What a session leaves when it has cleaned up. -/
structure Cleans (l : Ledger) (w w' : World) : Prop where
  containers : w'.containers = w.containers ∧ w'.issued = w.issued
  target : w'.project = w.project ∧ w'.engine = w.engine
  topics : ∀ name, w'.topics name = w.topics name ∨ w'.topics name = none ∧
    (name = l.scope.topic ∨ name = l.scope.dlq)
  indexes : ∀ name, w'.indexes name = w.indexes name ∨ w'.indexes name = none ∧
    name = indexName l.scope
  ledgers : w'.ledgers = Function.update w.ledgers l.scope.runId (some { l with stage := .cleaned })
  active : w'.active = none

/-- A cleaned session is clean. -/
lemma World.sessionCleanup_cleans {w w' : World} {l : Ledger} {size : Nat}
    (h : w.sessionCleanup l size = .ok w') :
    Cleans l w w' := by
  obtain ⟨_, w₁, done, eq⟩ := sessionCleanup_ok.1 h
  obtain ⟨_, _, _, _, _, _, cleaned⟩ := rpc_ok.1 done
  obtain ⟨live, indexExists, verified, eq₁⟩ := runtimeCleanup_ok.1 cleaned
  rw [eq, eq₁]
  refine ⟨⟨rfl, rfl⟩, ⟨rfl, rfl⟩, ?_, ?_, Function.update_idem .., rfl⟩
  · intro name
    show (if name ∈ live then none else w.topics name) = w.topics name ∨
      (if name ∈ live then none else w.topics name) = none ∧ _
    split
    case isTrue mem => exact .inr ⟨rfl, verifyResources_live verified name mem⟩
    case isFalse => exact .inl rfl
  · intro name
    show (if indexExists = true ∧ name = indexName l.scope then none else w.indexes name) =
      w.indexes name ∨ (if indexExists = true ∧ name = indexName l.scope then none
        else w.indexes name) = none ∧ _
    split
    case isTrue mine => exact .inr ⟨rfl, mine.2⟩
    case isFalse => exact .inl rfl

/-- Recovery cleans the active run, if there is one. -/
lemma World.recover_cleans {w w' : World} {size : Nat} (h : w.recover size = .ok w') :
    w' = w ∨ ∃ l, w.active = some l ∧ Cleans l w w' := by
  rw [recover] at h
  cases active : w.active with
  | none =>
    rw [active] at h
    exact .inl (Except.ok.inj h).symm
  | some l =>
    rw [active] at h
    obtain ⟨_, _, done⟩ := bind_ok.1 h
    exact .inr ⟨l, rfl, sessionCleanup_cleans done⟩

/-- Cleanup cleans the run that it names. -/
lemma World.cleanup_cleans {w w' : World} {runId : Str} {size : Nat}
    (h : w.cleanup runId size = .ok w') :
    ∃ l, w.ledgers runId = some l ∧ Cleans l w w' := by
  obtain ⟨l, read, h⟩ := bind_ok.1 h
  obtain ⟨_, _, h⟩ := bind_ok.1 h
  obtain ⟨_, _, done⟩ := bind_ok.1 h
  exact ⟨l, (readLedger_ok.1 read).2, sessionCleanup_cleans done⟩

/-- An inspection writes its event log. -/
lemma World.inspect_logged {w w' : World} {runId : Str} {size : Nat}
    (h : w.inspect runId size = .ok w') :
    ∃ l, w.ledgers runId = some l ∧ w' = w.logged l.scope.runId size := by
  obtain ⟨l, read, h⟩ := bind_ok.1 h
  obtain ⟨_, _, h⟩ := bind_ok.1 h
  obtain ⟨_, _, h⟩ := bind_ok.1 h
  obtain ⟨_, _, h⟩ := bind_ok.1 h
  obtain ⟨_, _, h⟩ := bind_ok.1 h
  exact ⟨l, (readLedger_ok.1 read).2, (Except.ok.inj h).symm⟩

/-- What a message run leaves: its own ledger, and nothing under the names of others. -/
structure Runs (l : Ledger) (w w' : World) : Prop where
  containers : w'.containers = w.containers ∧ w'.issued = w.issued
  target : w'.project = w.project ∧ w'.engine = w.engine
  topics : ∀ name, name ≠ l.scope.topic → name ≠ l.scope.dlq → w'.topics name = w.topics name
  indexes : ∀ name, name ≠ indexName l.scope → w'.indexes name = w.indexes name
  ledgers : w'.ledgers = Function.update w.ledgers l.scope.runId (some l)
  active : w'.active = none ∨ w'.active = some l

/-- All that a command may do. -/
lemma Step.does {w w' : World} {command : Command} (step : Step compose w command w') :
    Composed w w' ∨ (∃ l, ((∃ runId, w.ledgers runId = some l) ∨ w.active = some l) ∧
      Cleans l w w') ∨ ∃ l, w.ledgers l.scope.runId = none ∧ l.scope.project = w.project ∧
        Runs l w w' := by
  cases step with
  | up _ _ ups => exact .inl ((Composed.settings w _ _).trans (.ups ups))
  | down _ down => exact .inl (.down down)
  | stop _ stop => exact .inl (.stop stop)
  | resume _ ups | recreate _ ups => exact .inl (.ups ups)
  | experiment _ spare ups =>
    exact .inl ((Composed.ups spare).trans ((Composed.settings _ _ _).trans (.ups ups)))
  | simulate _ simulates => exact .inl (.simulates simulates)
  | drill => exact .inl (.refl w)
  | @retained scope l c events dlq index size _ new made =>
    cases made.own
    refine .inr (.inr ⟨l, new, made.project, ⟨rfl, rfl⟩, ⟨rfl, rfl⟩, ?_, ?_, rfl, .inl rfl⟩)
    · intro name events dlq
      exact (Function.update_of_ne dlq ..).trans (Function.update_of_ne events ..)
    · intro name other
      exact Function.update_of_ne other ..
  | @cleaned scope l c size _ new made =>
    cases made.own
    exact .inr (.inr ⟨l, new, made.project, ⟨rfl, rfl⟩, ⟨rfl, rfl⟩, fun _ _ _ => rfl,
      fun _ _ => rfl, rfl, .inl rfl⟩)
  | @failed scope l c size topics indexes _ new made _ others otherIndexes =>
    cases made.own
    exact .inr (.inr ⟨l, new, made.project, ⟨rfl, rfl⟩, ⟨rfl, rfl⟩, others, otherIndexes,
      rfl, .inr rfl⟩)
  | recover ok =>
    rcases World.recover_cleans ok with same | ⟨l, active, cleans⟩
    · rw [same]
      exact .inl (.refl w)
    · exact .inr (.inl ⟨l, .inr active, cleans⟩)
  | cleanup ok =>
    obtain ⟨l, read, cleans⟩ := World.cleanup_cleans ok
    exact .inr (.inl ⟨l, .inl ⟨_, read⟩, cleans⟩)
  | inspect ok =>
    obtain ⟨l, _, eq⟩ := World.inspect_logged ok
    exact .inl (eq ▸ .logged w _ _)

/-! ### What is kept of a run -/

/-- Ledgers lie under their own names and are of this project. -/
structure Filed (w : World) : Prop where
  ledgers : ∀ runId l, w.ledgers runId = some l → l.scope.runId = runId ∧
    l.scope.project = w.project
  active : ∀ l, w.active = some l → l.scope.project = w.project

/-- What is kept of the run of a ledger, whatever its API container has come to. -/
structure Kept (l : Ledger) (w : World) : Prop where
  recorded : ∃ stage, w.ledgers l.scope.runId = some { l with stage }
  same : ∀ a, w.active = some a → a.scope.runId = l.scope.runId → ∃ stage, a = { l with stage }
  target : l.scope.project = w.project ∧ l.engine = w.engine
  known : l.apiId ∈ w.issued
  api : ∀ s c, w.containers s = some c → c.id = l.apiId →
    s = .api ∧ ∃ env, c.env = some env ∧ env.cacheHost = "redis" ∧ env.searchIndex = "mvp-orders-v1"
  events : w.Known l.resources l.scope.topic
  dlq : w.Known l.resources l.scope.dlq
  index : w.KnownIndex l.scope l.resources

section
variable {w w' : World} {l a : Ledger}

omit [Interpreter] in
/-- Filing one ledger keeps the others filed. -/
lemma Filed.updated (h : Filed w) (project : w'.project = w.project)
    (own : a.scope.project = w.project)
    (ledgers : w'.ledgers = Function.update w.ledgers a.scope.runId (some a))
    (active : w'.active = none ∨ w'.active = some a) : Filed w' where
  ledgers runId b here := by
    rw [ledgers] at here
    by_cases mine : runId = a.scope.runId
    · rw [mine, Function.update_self] at here
      cases here
      exact ⟨mine.symm, own.trans project.symm⟩
    · rw [Function.update_of_ne mine] at here
      have filed := h.ledgers runId b here
      exact ⟨filed.1, filed.2.trans project.symm⟩
  active b here := by
    cases active with
    | inl none =>
      rw [none] at here
      cases here
    | inr some_ =>
      rw [some_] at here
      cases here
      exact own.trans project.symm

/-- Every command keeps the ledgers filed. -/
lemma Filed.step {command : Command} (h : Filed w) (step : Step compose w command w') :
    Filed w' := by
  rcases step.does with composed | ⟨a, source, cleans⟩ | ⟨a, _, own, runs⟩
  · refine ⟨fun runId b here => ?_, fun b here => ?_⟩
    · rw [composed.files.1] at here
      exact composed.target.1 ▸ h.ledgers runId b here
    · rw [composed.files.2] at here
      exact composed.target.1 ▸ h.active b here
  · have own : a.scope.project = w.project :=
      source.elim (fun ⟨runId, here⟩ => (h.ledgers runId a here).2) (h.active a)
    exact h.updated (a := { a with stage := .cleaned }) cleans.target.1 own cleans.ledgers
      (.inl cleans.active)
  · exact h.updated runs.target.1 own runs.ledgers runs.active

/-- What Compose does keeps a retained run. -/
lemma Kept.composed (h : Kept l w) (c : Composed w w') : Kept l w' := by
  obtain ⟨topics, indexes⟩ := c.data
  refine ⟨?_, ?_, ⟨h.target.1.trans c.target.1.symm, h.target.2.trans c.target.2.symm⟩,
    c.issued _ h.known, ?_, ?_, ?_, ?_⟩
  · rw [c.files.1]
    exact h.recorded
  · rw [c.files.2]
    exact h.same
  · intro s c' here id
    cases c.containers s c' here with
    | inl old =>
      obtain ⟨d, there, same, env⟩ := old
      rw [← env]
      exact h.api s d there (same.trans id)
    | inr new => exact (new (id ▸ h.known)).elim
  · rw [World.Known, topics]
    exact h.events
  · rw [World.Known, topics]
    exact h.dlq
  · rw [World.KnownIndex, indexes]
    exact h.index

/-- Sessions of the run itself and of others change the stage of a ledger, and delete. -/
lemma Kept.cleans (h : Kept l w)
    (own : a.scope.runId = l.scope.runId → ∃ stage, a = { l with stage })
    (c : Cleans a w w') : Kept l w' := by
  refine ⟨?_, ?_, ⟨h.target.1.trans c.target.1.symm, h.target.2.trans c.target.2.symm⟩, ?_,
    ?_, ?_, ?_, ?_⟩
  · rw [c.ledgers]
    by_cases mine : l.scope.runId = a.scope.runId
    · obtain ⟨stage, eq⟩ := own mine.symm
      rw [mine, Function.update_self, eq]
      exact ⟨.cleaned, rfl⟩
    · rw [Function.update_of_ne mine]
      exact h.recorded
  · rw [c.active]
    nofun
  · rw [c.containers.2]
    exact h.known
  · rw [c.containers.1]
    exact h.api
  · intro t here
    cases c.topics l.scope.topic with
    | inl same => exact h.events t (same ▸ here)
    | inr gone => rw [gone.1] at here; cases here
  · intro t here
    cases c.topics l.scope.dlq with
    | inl same => exact h.dlq t (same ▸ here)
    | inr gone => rw [gone.1] at here; cases here
  · intro i here
    cases c.indexes (indexName l.scope) with
    | inl same => exact h.index i (same ▸ here)
    | inr gone => rw [gone.1] at here; cases here

/-- A run of another id. -/
lemma Kept.runs (h : Kept l w) (other : l.scope.runId ≠ a.scope.runId)
    (own : a.scope.project = w.project)
    (c : Runs a w w') : Kept l w' := by
  have apart := apart_of_runId (h.target.1.trans own.symm) other
  refine ⟨?_, ?_, ⟨h.target.1.trans c.target.1.symm, h.target.2.trans c.target.2.symm⟩, ?_,
    ?_, ?_, ?_, ?_⟩
  · rw [c.ledgers, Function.update_of_ne other]
    exact h.recorded
  · intro b here same
    cases c.active with
    | inl none =>
      rw [none] at here
      cases here
    | inr some_ =>
      rw [some_] at here
      cases here
      exact (other same.symm).elim
  · rw [c.containers.2]
    exact h.known
  · rw [c.containers.1]
    exact h.api
  · intro t here
    rw [c.topics _ apart.events.1 apart.events.2] at here
    exact h.events t here
  · intro t here
    rw [c.topics _ apart.dlq.1 apart.dlq.2] at here
    exact h.dlq t here
  · intro i here
    rw [c.indexes _ apart.index] at here
    exact h.index i here

/-- Every command keeps a retained run. -/
lemma Kept.step {command : Command} (h : Kept l w) (filed : Filed w)
    (step : Step compose w command w') : Kept l w' := by
  rcases step.does with composed | ⟨a, source, cleans⟩ | ⟨a, new, own, runs⟩
  · exact h.composed composed
  · refine h.cleans (fun same => ?_) cleans
    cases source with
    | inl ledger =>
      obtain ⟨runId, here⟩ := ledger
      obtain ⟨stage, recorded⟩ := h.recorded
      rw [← same, (filed.ledgers runId a here).1, here] at recorded
      exact ⟨stage, Option.some.inj recorded⟩
    | inr active => exact h.same a active same
  · refine h.runs (fun same => ?_) own runs
    obtain ⟨stage, recorded⟩ := h.recorded
    rw [same, new] at recorded
    cases recorded

end

/-! ### Whether the container is replaced -/

omit [Interpreter] in
/-- Starting or stopping keeps the pinned container. -/
lemma World.run_pinned {w : World} {s : Service} {running : Bool} {pinned : ContainerId} :
    ({ w with
      containers :=
        Function.update w.containers s ((w.containers s).map fun c => { c with running }) } :
      World).Pinned pinned ↔ w.Pinned pinned := by
  by_cases api : s = .api
  · rw [api]
    constructor
    · intro ⟨c', here, same⟩
      obtain ⟨c, there, eq⟩ := Option.map_eq_some_iff.1 ((Function.update_self Service.api
        ((w.containers .api).map fun c => ({ c with running } : Container)) w.containers).symm.trans
          here)
      exact ⟨c, there, by rw [← same, ← eq]⟩
    · intro ⟨c, there, same⟩
      refine ⟨{ c with running }, ?_, same⟩
      refine (Function.update_self Service.api
        ((w.containers .api).map fun c => ({ c with running } : Container)) w.containers).trans ?_
      rw [there]
      rfl
  · have kept : Function.update w.containers s ((w.containers s).map fun c =>
      ({ c with running } : Container)) .api =
        w.containers .api := Function.update_of_ne (Ne.symm api) ..
    rw [Pinned, Pinned]
    show (∃ c, Function.update w.containers s _ .api = some c ∧ _) ↔ _
    rw [kept]

omit [Interpreter] in
/-- A service that is brought up alone. -/
lemma Ups.pinned_single {w w' : World} {s : Service} {force : Bool} {pinned : ContainerId}
    (h : Ups compose w [(s, force)] w')
    (known : pinned ∈ w.issued) :
    w'.Pinned pinned ↔ w.Pinned pinned ∧
      (decide (s = .api) && (force || w.outdated .api)) = false := by
  by_cases api : s = .api
  · rw [api] at h ⊢
    rw [h.pinned_api (l := []) known nofun nofun, decide_eq_true rfl, Bool.true_and]
  · rw [h.pinned_of_others (by intro p mem; cases List.mem_singleton.1 mem; exact api),
      decide_eq_false api, Bool.false_and, eq_self, and_true]

/-- The API container is there after a command if it was there before and the command does not
replace it. -/
lemma Step.pinned {w w' : World} {command : Command} {pinned : ContainerId}
    (step : Step compose w command w')
    (known : pinned ∈ w.issued) :
    w'.Pinned pinned ↔ w.Pinned pinned ∧ w.replaces command = false := by
  have never : ∀ {u : World}, ¬ u.Pinned pinned →
      (u.Pinned pinned ↔ w.Pinned pinned ∧ true = false) :=
    fun gone => ⟨fun there => (gone there).elim, fun ⟨_, wrong⟩ => nomatch wrong⟩
  have kept : ∀ {u : World}, u.containers = w.containers →
      (u.Pinned pinned ↔ w.Pinned pinned ∧ false = false) := by
    intro u same
    rw [World.Pinned, same]
    exact ⟨fun there => ⟨there, rfl⟩, And.left⟩
  cases step with
  | @up built w' _ _ ups =>
    exact ups.pinned_api (w := w.build built) known (databases_others w.mode) (by decide)
  | down _ down =>
    cases compose.down_documented down
    exact never nofun
  | stop _ stop =>
    cases compose.stop_documented stop
    exact World.run_pinned.trans ⟨fun there => ⟨there, rfl⟩, And.left⟩
  | resume _ ups => exact ups.pinned_single known
  | @recreate s _ _ ups =>
    rw [ups.pinned_single known, Bool.true_or, Bool.and_true]
    rfl
  | @experiment m w₁ w₂ _ spare ups =>
    exact never (ups.apps_unpinned ((Composed.ups spare).issued _ known))
  | simulate _ simulates =>
    cases simulates with
    | passing => exact kept rfl
    | recreate ups => exact ups.pinned_single known
    | switch spare there back left =>
      have known₁ := (Composed.ups spare).issued _ known
      have gone := back.apps_unpinned ((Composed.ups there).issued _ known₁)
      split at left
      · exact never (left ▸ gone)
      · cases compose.stop_documented left
        exact never fun there => gone (World.run_pinned.1 there)
  | drill => exact kept rfl
  | retained | cleaned | failed => exact kept rfl
  | recover ok =>
    rcases World.recover_cleans ok with same | ⟨l, _, cleans⟩
    · exact kept (congrArg World.containers same)
    · exact kept cleans.containers.1
  | cleanup ok =>
    obtain ⟨l, _, cleans⟩ := World.cleanup_cleans ok
    exact kept cleans.containers.1
  | inspect ok =>
    obtain ⟨l, _, eq⟩ := World.inspect_logged ok
    rw [eq]
    exact kept rfl

/-- Commands that follow a world, and whether one of them has replaced the API container. -/
inductive Later (compose : Compose) (w : World) : Bool → World → Prop where
  | refl : Later compose w false w
  | step {replaced w' command w''} (h : Later compose w replaced w')
      (step : Step compose w' command w'') :
    Later compose w (replaced || w'.replaces command) w''

/-- A retained run is kept, and pinned where nothing was replaced. -/
lemma Later.kept {w w' : World} {replaced : Bool} {l : Ledger} (h : Later compose w replaced w')
    (filed : Filed w) (start : Kept l w)
    (pinned : w.Pinned l.apiId) :
    Filed w' ∧ Kept l w' ∧ (w'.Pinned l.apiId ↔ replaced = false) := by
  induction h with
  | refl => exact ⟨filed, start, fun _ => rfl, fun _ => pinned⟩
  | step _ step ih =>
    obtain ⟨filed', kept, same⟩ := ih
    refine ⟨filed'.step step, kept.step filed' step, ?_⟩
    rw [step.pinned kept.known, same, Bool.or_eq_false_iff]

/-- Every reachable world is well formed and filed. -/
lemma Reachable.wf {w : World} (h : Reachable compose w) : w.Wf ∧ Filed w := by
  induction h with
  | @init w containers ledgers active =>
    refine ⟨⟨fun s c here => ?_, fun s _ c _ here => ?_⟩,
      ⟨fun runId l here => ?_, fun l here => ?_⟩⟩
    · rw [containers] at here
      cases here
    · rw [containers] at here
      cases here
    · rw [ledgers] at here
      cases here
    · rw [active] at here
      cases here
  | step _ step ih =>
    refine ⟨?_, ih.2.step step⟩
    rcases step.does with composed | ⟨_, _, cleans⟩ | ⟨_, _, _, runs⟩
    · exact composed.wf ih.1
    · constructor
      · rw [cleans.containers.1, cleans.containers.2]
        exact ih.1.issued
      · rw [cleans.containers.1]
        exact ih.1.distinct
    · constructor
      · rw [runs.containers.1, runs.containers.2]
        exact ih.1.issued
      · rw [runs.containers.1]
        exact ih.1.distinct

/-! ### Cleaning up -/

/-- A ledger names topics and an index of its own scope only. -/
structure Owned (l : Ledger) : Prop where
  topics : ∀ t ∈ l.resources.topics, t.1 = l.scope.topic ∨ t.1 = l.scope.dlq
  index : ∀ i ∈ l.resources.index, i.1 = indexName l.scope

/-- The resources that a run has created. -/
lemma World.with_created (w : World) (scope : Scope) (events dlq : Topic) (index : Index)
    (kinds : scope.topic ≠ scope.dlq) :
    (w.with scope events dlq index).topics scope.topic = some events ∧
      (w.with scope events dlq index).topics scope.dlq = some dlq ∧
      (w.with scope events dlq index).indexes (indexName scope) = some index :=
  ⟨(Function.update_of_ne kinds ..).trans (Function.update_self ..), Function.update_self ..,
    Function.update_self ..⟩

/-- A run that has passed and is kept. -/
lemma Step.retains {w w' : World} {scope : Scope}
    (step : Step compose w (.messages scope .retained) w') (wf : w.Wf) :
    ∃ l, l.scope = scope ∧ Kept l w' ∧ w'.Pinned l.apiId ∧ Owned l := by
  cases step with
  | @retained _ l c events dlq index size ready new made created stage =>
    cases made.own
    have kinds : l.scope.topic ≠ l.scope.dlq := by
      intro same
      exact absurd (List.append_cancel_left same) (by decide +kernel)
    obtain ⟨hasEvents, hasDlq, hasIndex⟩ := w.with_created l.scope events dlq index kinds
    have first : lookup l.scope.topic l.resources.topics = some events.topicId := by
      rw [created.resources]
      exact if_pos rfl
    have second : lookup l.scope.dlq l.resources.topics = some dlq.topicId := by
      rw [created.resources]
      exact (if_neg kinds).trans (if_pos rfl)
    refine ⟨l, rfl, ⟨?_, nofun, ⟨made.project, made.engine⟩, ?_, ?_, ?_, ?_, ?_⟩,
      ⟨c, made.api, made.apiId.symm⟩, ?_, ?_⟩
    · exact ⟨l.stage, Function.update_self ..⟩
    · rw [made.apiId]
      exact wf.issued _ _ made.api
    · intro s d here same
      have api : s = .api := wf.distinct _ _ _ _ here made.api (same.trans made.apiId)
      rw [api] at here
      cases here.symm.trans made.api
      exact ⟨api, made.selected⟩
    · intro t here
      have mine : events = t := Option.some.inj (hasEvents.symm.trans here)
      rw [← mine]
      exact ⟨created.eventsId, first⟩
    · intro t here
      have mine : dlq = t := Option.some.inj (hasDlq.symm.trans here)
      rw [← mine]
      exact ⟨created.dlqId, second⟩
    · intro i here
      have mine : index = i := Option.some.inj (hasIndex.symm.trans here)
      rw [← mine]
      exact ⟨created.indexId, indexName l.scope, by rw [created.resources]⟩
    · intro t mem
      rw [created.resources] at mem
      cases mem with
      | head => exact .inl rfl
      | tail _ mem =>
        cases List.mem_singleton.1 mem
        exact .inr rfl
    · intro i mem
      rw [created.resources] at mem
      cases mem
      rfl

/-- Nothing is cleaned up without the container of the ledger. -/
lemma Kept.cleanup_pinned {w w' : World} {l : Ledger} (h : Kept l w) {size : Nat}
    (ok : w.cleanup l.scope.runId size = .ok w') :
    w.Pinned l.apiId ∧ w.logSize l.scope.runId ≤ 4 * 1024 * 1024 := by
  obtain ⟨stage, recorded⟩ := h.recorded
  obtain ⟨l', read, ok⟩ := bind_ok.1 ok
  cases recorded.symm.trans (World.readLedger_ok.1 read).2
  obtain ⟨_, _, ok⟩ := bind_ok.1 ok
  obtain ⟨_, _, ok⟩ := bind_ok.1 ok
  obtain ⟨small, _, done, _⟩ := World.sessionCleanup_ok.1 ok
  obtain ⟨c, _, valid, _⟩ := World.rpc_ok.1 done
  exact ⟨⟨c, World.find_some (World.validate_ok.1 valid).2⟩, small⟩

/-- A run can be cleaned up just if its API container is there and its event log is not too
large. -/
lemma Kept.cleanup_iff {w : World} {l : Ledger} (h : Kept l w) (owned : Owned l)
    (ready : w.preflight) (size : Nat) :
    (∃ w', w.cleanup l.scope.runId size = .ok w' ∧ w'.topics l.scope.topic = none ∧
      w'.topics l.scope.dlq = none ∧ w'.indexes (indexName l.scope) = none) ↔
      w.Pinned l.apiId ∧ w.logSize l.scope.runId ≤ 4 * 1024 * 1024 := by
  obtain ⟨stage, recorded⟩ := h.recorded
  have read : w.readLedger l.scope.runId = .ok { l with stage } :=
    World.readLedger_ok.2 ⟨l.scope.runId_ok, recorded⟩
  constructor
  · intro ⟨w', ok, _⟩
    exact h.cleanup_pinned ok
  · intro ⟨⟨c, here, same⟩, small⟩
    obtain ⟨⟨unsimulated, undrilled, inactive⟩, _, running⟩ := ready
    obtain ⟨_, env, selected, fits⟩ := h.api .api c here same
    have runs : c.running = true := by
      obtain ⟨d, there, runs⟩ := running .api (by decide)
      cases there.symm.trans here
      exact runs
    have valid : w.validate { l with stage } = .ok c :=
      World.validate_ok.2 ⟨h.target, World.find_api here same fun s c here same =>
        (h.api s c here same).1⟩
    have verified := World.verifyResources_ok owned.topics owned.index h.events h.dlq h.index
    have own : w.requireOwn { l with stage } = .ok () := by
      rw [World.requireOwn, inactive]
      rfl
    let w₀ := w.save { l with stage } (some { l with stage })
    let w₁ :=
      w₀.without l.scope ([l.scope.topic, l.scope.dlq].filter fun name => (w.topics name).isSome)
      (w.indexes (indexName l.scope)).isSome
    have done : w₀.rpc { l with stage } (w₀.runtimeCleanup l.scope l.resources) = .ok w₁ :=
      World.rpc_ok.2 ⟨c, env, valid, runs, selected, fits,
        World.runtimeCleanup_ok.2 ⟨_, _, verified, rfl⟩⟩
    have cleaned : w.sessionCleanup { l with stage } size =
        .ok ((w₁.logged l.scope.runId size).save { l with stage := .cleaned } none) :=
      World.sessionCleanup_ok.2 ⟨small, w₁, done, rfl⟩
    -- what was there is deleted, and what was not there is not there now
    have gone : ∀ name, (name = l.scope.topic ∨ name = l.scope.dlq) → w₁.topics name = none := by
      intro name mine
      show (if name ∈ _ then none else w.topics name) = none
      split
      case isTrue => rfl
      case isFalse out =>
        cases there : w.topics name with
        | none => rfl
        | some t =>
          refine (out (List.mem_filter.2 ⟨?_, by rw [there]; rfl⟩)).elim
          exact mine.elim (fun eq => eq ▸ List.mem_cons_self)
            fun eq => List.mem_cons_of_mem _ (List.mem_singleton.2 eq)
    refine ⟨(w₁.logged l.scope.runId size).save { l with stage := .cleaned } none, ?_,
      gone _ (.inl rfl), gone _ (.inr rfl), ?_⟩
    · exact bind_ok.2 ⟨_, read,
        bind_ok.2 ⟨_, own, bind_ok.2 ⟨_,
        World.requireNoFault_ok ⟨unsimulated, undrilled⟩, cleaned⟩⟩⟩
    · show (if (w.indexes (indexName l.scope)).isSome = true ∧
        indexName l.scope = indexName l.scope then none
        else w.indexes (indexName l.scope)) = none
      cases w.indexes (indexName l.scope) with
      | none => exact ite_self _
      | some i => exact if_pos ⟨rfl, rfl⟩

/-- Once the stack is running in normal mode again, a run that was kept can be cleaned up just if
none of the commands since has replaced the API container, and its event log is not larger than a
session accepts. -/
theorem cleanable_iff {w₀ w₁ w : World} {scope : Scope} {replaced : Bool}
    (reachable : Reachable compose w₀)
    (kept : Step compose w₀ (.messages scope .retained) w₁) (later : Later compose w₁ replaced w)
    (ready : w.preflight) (size : Nat) :
    (∃ w', w.cleanup scope.runId size = .ok w' ∧ w'.topics scope.topic = none ∧
      w'.topics scope.dlq = none ∧ w'.indexes (indexName scope) = none) ↔
      replaced = false ∧ w.logSize scope.runId ≤ 4 * 1024 * 1024 := by
  obtain ⟨wf, filed⟩ := reachable.wf
  obtain ⟨l, own, start, pinned, owned⟩ := kept.retains wf
  obtain ⟨_, after, same⟩ := later.kept (filed.step kept) start pinned
  rw [← own, after.cleanup_iff owned ready size, same]

end

section
attribute [local instance] reference

/-! ### A run that was kept -/

/-- An identity of twelve equal digits. -/
def plainId (n : Fin 10) : ContainerId := ⟨List.replicate 12 (48 + n), by revert n; decide +kernel⟩

/-- Compose as it is documented. -/
def docker : Compose where
  up w s force w' := ∃ id, id ∉ w.issued ∧ w' = w.up s force id
  stop w s w' := w' = w.stop s
  down w w' := w' = w.down
  up_documented h := h
  stop_documented h := h
  down_documented h := h

/-- Nothing has been started. -/
def emptyWorld : World where
  project := str "db-lab-mvp"
  engine := str "engine"
  mode := .normal
  images _ := str "image"
  containers _ := none
  issued := []
  simulating := false
  drilling := false
  active := none
  ledgers _ := none
  logSize _ := 0
  topics _ := none
  indexes _ := none

/-- The stack is up. -/
def upWorld : World :=
  ((((((emptyWorld.build (str "app")).up .mariadb false (plainId 0)).up .kafka false (plainId 1)).up
    .elasticsearch false
    (plainId 2)).up .redis false (plainId 3)).up .api false (plainId 4)).up .worker
      false (plainId 5)

/-- The lab is up. -/
lemma upWorld_reachable : Reachable docker upWorld := by
  have ups : Ups docker (emptyWorld.build (str "app")) (started .normal) upWorld :=
    .cons ⟨_, by decide +kernel, rfl⟩
      (.cons ⟨_, by decide +kernel, rfl⟩ (.cons ⟨_, by decide +kernel, rfl⟩
      (.cons ⟨_, by decide +kernel, rfl⟩
        (.cons ⟨_, by decide +kernel, rfl⟩ (.cons ⟨_, by decide +kernel, rfl⟩ .nil)))))
  exact .step (.init (w := emptyWorld) (fun _ => rfl) (fun _ => rfl) rfl)
    (.up ⟨rfl, rfl, rfl⟩ (by decide) ups)

/-- The lab that is up is ready. -/
lemma upWorld_ready : upWorld.preflight := by
  refine ⟨⟨rfl, rfl, rfl⟩, rfl, ?_⟩
  simp only [baseServices, List.forall_mem_cons]
  exact ⟨⟨_, rfl, rfl⟩, ⟨_, rfl, rfl⟩, ⟨_, rfl, rfl⟩, ⟨_, rfl, rfl⟩, ⟨_, rfl, rfl⟩,
    ⟨_, rfl, rfl⟩, nofun⟩

/-- What the run of `drillScope` writes down. -/
def drillLedger : Ledger where
  scope := drillScope
  engine := str "engine"
  apiId := plainId 4
  stage := .retained
  resources :=
    ⟨[(drillScope.topic, str "first"), (drillScope.dlq, str "second")],
      some (indexName drillScope, str "third")⟩

/-- The run of `drillScope` is kept. -/
def keptWorld : World :=
  ((upWorld.with drillScope ⟨str "first", false, 1⟩ ⟨str "second", false, 1⟩
    ⟨str "third", drillScope.token, drillScope.runId⟩).logged drillScope.runId 30000).save
      drillLedger none

/-- A run is retained. -/
lemma keptWorld_step : Step docker upWorld (.messages drillScope .retained) keptWorld := by
  refine .retained (c := ⟨plainId 4, str "app", some (Mode.overlay .normal), true⟩)
    upWorld_ready rfl
    ⟨rfl, rfl, rfl, rfl, rfl, ⟨_, rfl, rfl, rfl⟩⟩ ⟨⟨rfl, rfl, rfl⟩, ?_, ?_, ?_, rfl⟩ rfl
  · exact if_neg (by decide +kernel)
  · exact if_neg (by decide +kernel)
  · exact if_neg (by decide +kernel)

/-- `recreate api` before the run is cleaned up. -/
def recreatedWorld : World := keptWorld.up .api true (plainId 6)

/-- The container is recreated. -/
lemma recreatedWorld_step : Step docker keptWorld (.recreate .api) recreatedWorld :=
  .recreate ⟨rfl, rfl, rfl⟩ (.cons ⟨_, by decide +kernel, rfl⟩ .nil)

/-- The lab is ready after the recreation. -/
lemma recreatedWorld_ready : recreatedWorld.preflight := by
  refine ⟨⟨rfl, rfl, rfl⟩, rfl, ?_⟩
  simp only [baseServices, List.forall_mem_cons]
  exact ⟨⟨_, rfl, rfl⟩, ⟨_, rfl, rfl⟩, ⟨_, rfl, rfl⟩, ⟨_, rfl, rfl⟩, ⟨_, rfl, rfl⟩,
    ⟨_, rfl, rfl⟩, nofun⟩

/-- A run retained before recreation cannot be cleaned. -/
theorem recreated_uncleanable :
    Reachable docker upWorld ∧ Step docker upWorld (.messages drillScope .retained) keptWorld ∧
      Step docker keptWorld (.recreate .api) recreatedWorld ∧ recreatedWorld.preflight ∧
      ∀ size w', recreatedWorld.cleanup drillScope.runId size ≠ .ok w' := by
  refine ⟨upWorld_reachable, keptWorld_step, recreatedWorld_step, recreatedWorld_ready, ?_⟩
  obtain ⟨wf, filed⟩ := upWorld_reachable.wf
  obtain ⟨l, own, start, pinned, _⟩ := keptWorld_step.retains wf
  have later : Later docker keptWorld true recreatedWorld := .step .refl recreatedWorld_step
  obtain ⟨_, kept, same⟩ := later.kept (filed.step keptWorld_step) start pinned
  intro size w' ok
  rw [← own] at ok
  exact nomatch same.1 (kept.cleanup_pinned ok).1

/-- The worker is stopped and started again, the cache is created anew, and the run is looked at. -/
def stoppedWorld : World := keptWorld.stop .worker

def resumedWorld : World := stoppedWorld.up .worker false (plainId 6)

def cachedWorld : World := resumedWorld.up .redis true (plainId 6)

def inspectedWorld : World := cachedWorld.logged drillScope.runId 32000

/-- The commands that keep the container. -/
lemma inspectedWorld_later : Later docker keptWorld false inspectedWorld := by
  have stopped : Step docker keptWorld (.stop .worker) stoppedWorld := .stop ⟨rfl, rfl, rfl⟩ rfl
  have resumed : Step docker stoppedWorld (.resume .worker) resumedWorld :=
    .resume ⟨rfl, rfl, rfl⟩ (.cons ⟨_, by decide +kernel, rfl⟩ .nil)
  have cached : Step docker resumedWorld (.recreate .redis) cachedWorld :=
    .recreate ⟨rfl, rfl, rfl⟩ (.cons ⟨_, by decide +kernel, rfl⟩ .nil)
  have inspected : Step docker cachedWorld (.inspect drillScope.runId) inspectedWorld := by
    have ok : (cachedWorld.inspect drillScope.runId 32000).isOk = true := by decide +kernel
    cases done : cachedWorld.inspect drillScope.runId 32000 with
    | error e =>
      rw [done] at ok
      cases ok
    | ok w =>
      obtain ⟨l, filed, eq⟩ := World.inspect_logged done
      have mine : Function.update upWorld.ledgers drillScope.runId (some drillLedger)
          drillScope.runId = some drillLedger :=
        Function.update_self ..
      cases mine.symm.trans filed
      subst eq
      exact .inspect done
  exact .step (.step (.step (.step .refl stopped) resumed) cached) inspected

/-- The lab is ready after them. -/
lemma inspectedWorld_ready : inspectedWorld.preflight := by
  refine ⟨⟨rfl, rfl, rfl⟩, rfl, ?_⟩
  simp only [baseServices, List.forall_mem_cons]
  exact ⟨⟨_, rfl, rfl⟩, ⟨_, rfl, rfl⟩, ⟨_, rfl, rfl⟩, ⟨_, rfl, rfl⟩, ⟨_, rfl, rfl⟩, ⟨_, rfl, rfl⟩,
    List.forall_mem_nil _⟩

/-- The log of the session is small enough to open. -/
lemma inspectedWorld_small : inspectedWorld.logSize drillScope.runId ≤ 4 * 1024 * 1024 := by
  have size : inspectedWorld.logSize drillScope.runId = 32000 := by
    show Function.update cachedWorld.logSize drillScope.runId (32000 : Nat) drillScope.runId = 32000
    exact Function.update_self ..
  rw [size]
  decide

/-- The run is cleaned after commands that keep its container. -/
theorem cleanable_iff_kept : Later docker keptWorld false inspectedWorld ∧
    ∃ w', inspectedWorld.cleanup drillScope.runId 33000 = .ok w' ∧
      w'.topics drillScope.topic = none ∧ w'.topics drillScope.dlq = none ∧
        w'.indexes (indexName drillScope) = none :=
  ⟨inspectedWorld_later, (cleanable_iff upWorld_reachable keptWorld_step inspectedWorld_later
    inspectedWorld_ready 33000).2
    ⟨rfl, inspectedWorld_small⟩⟩

end

end DbLab.Mvp.Stack
