import DbLab.Mvp.Faults

/-!
# Markers exclude each other

Each command is a program whose calls touch one marker, behind a check that the others do not exist.
So at most one exists at any time, and a recovery that its marker calls for meets no other.
-/

namespace DbLab.Mvp.Faults
open DbLab.Proc Relation Function

/-! ### One marker at a time -/

/-- No two markers exist. -/
def One (m : Markers) : Prop := ∀ k k', (m k).isSome = true → (m k').isSome = true → k = k'

/-- No marker exists. -/
def Clear (m : Markers) : Prop := ∀ k, m k = none

/-- Only this marker may exist. -/
def Only (k : Kind) (m : Markers) : Prop := ∀ k', k' ≠ k → m k' = none

/-- No other marker is one marker at most. -/
lemma Only.one {k : Kind} {m : Markers} (only : Only k m) : One m := by
  have same : ∀ k', (m k').isSome = true → k' = k := by
    intro k' some
    by_contra other
    rw [only k' other] at some
    cases some
  exact fun k₁ k₂ some₁ some₂ => (same k₁ some₁).trans (same k₂ some₂).symm

/-- Other markers do not come with one's own. -/
lemma Only.update {k : Kind} {m : Markers} (only : Only k m) (own : Option Marker) :
    Only k (update m k own) := by
  intro k' other
  rw [← only k' other]
  exact update_of_ne other _ _

/-- No marker was there when the services were to be changed, nor when they were while a command
waited. -/
structure Change.Fair (c : Change) : Prop where
  asked : Clear c.asked
  made : c.awaited = true → Clear c.made

/-- What holds at any time: one marker at most, and none while a command has the services
changed. -/
structure Apart (s : State) : Prop where
  one : One s.marker
  waited : ∀ m, s.waited = some m → Clear m ∧ Clear s.marker
  left : ∀ m ∈ s.left, Clear m
  lifecycle : ∀ c ∈ s.lifecycle, c.Fair

/-- A command that is left behind. -/
lemma Apart.leave {s : State} (apart : Apart s) : Apart s.leave := by
  refine ⟨apart.one, by simp [State.leave], fun m mem => ?_, apart.lifecycle⟩
  rcases List.mem_append.1 mem with old | new
  · exact apart.left m old
  · exact (apart.waited m (Option.mem_toList.1 new)).1

/-- A process that goes on keeps the markers apart. -/
lemma Apart.drift {s s' : State} (apart : Apart s) (drift : Drifts s s') : Apart s' := by
  have more : ∀ {c : Change}, c.Fair → ∀ c' ∈ s.lifecycle ++ [c], c'.Fair := by
    intro c fair c' mem
    rcases List.mem_append.1 mem with old | new
    · exact apart.lifecycle c' old
    · exact List.mem_singleton.1 new ▸ fair
  cases drift with
  | works waited =>
    obtain ⟨asked, made⟩ := apart.waited _ waited
    exact ⟨apart.one, apart.waited, apart.left, more ⟨asked, fun _ => made⟩⟩
  | late left => exact ⟨apart.one, apart.waited, apart.left, more ⟨apart.left _ left, nofun⟩⟩
  | ends fewer =>
    exact ⟨apart.one, apart.waited, fun m mem => apart.left m (fewer.subset mem), apart.lifecycle⟩

/-- Nothing is waited for, and these are the markers. -/
structure At (m : Markers) (s : State) : Prop where
  apart : Apart s
  idle : s.waited = none
  marker : s.marker = m

/-- Nothing is waited for. -/
abbrev Settled (s : State) : Prop := At s.marker s

/-- What is known of a command holds between commands when it ends. -/
lemma At.settled {m : Markers} {s : State} (here : At m s) : Settled s :=
  ⟨here.apart, here.idle, rfl⟩

/-- What was waited for is no more once it is left to itself. -/
lemma Apart.leave_settled {s : State} (apart : Apart s) : Settled s.leave := ⟨apart.leave, rfl, rfl⟩

/-- A command that is left behind has its markers. -/
lemma At.leave {m : Markers} {s : State} (here : At m s) : At m s.leave :=
  ⟨here.apart.leave, rfl, here.marker⟩

/-- What goes on by itself leaves the markers alone. -/
lemma At.drift {m : Markers} {s s' : State} (here : At m s) (drift : Drifts s s') : At m s' := by
  have apart := here.apart.drift drift
  cases drift with
  | works waited => cases here.idle.symm.trans waited
  | late left => exact ⟨apart, here.idle, here.marker⟩
  | ends fewer => exact ⟨apart, here.idle, here.marker⟩

/-- A marker is written or goes, next to no other. -/
lemma At.update {m : Markers} {s : State} {k : Kind} (here : At m s) (only : Only k m)
    (own : Option Marker) :
    At (update m k own) { s with marker := update s.marker k own } := by
  rw [← here.marker] at only ⊢
  refine ⟨⟨(only.update own).one, ?_, here.apart.left, here.apart.lifecycle⟩, here.idle, rfl⟩
  intro _ waited
  cases here.idle.symm.trans waited

section Rules
variable {α β : Type} {m : Markers} {s : State} {X : Raised → Prop}

/-- A program that keeps the markers apart, with what it raises. -/
abbrev wp (X : Raised → Prop) (Q : α → State → Prop) (p : Method α) : State → Prop :=
  files.wp Apart Q (fun e s => Settled s ∧ X e) p

/-- One part of a command after the other. -/
lemma bind_wp {Q : β → State → Prop} {p : Method α} {f : α → Method β} {R : α → State → Prop}
    (h : wp X R p s)
    (next : ∀ a s, R a s → wp X Q (f a) s) : wp X Q (p >>= f) s :=
  (World.wp_bind p f).2 (World.wp_mono h next fun _ _ raised => raised)

/-- A weaker postcondition. -/
lemma then_wp {Q Q' : α → State → Prop} {p : Method α} (h : wp X Q p s)
    (next : ∀ a s, Q a s → Q' a s) :
    wp X Q' p s := World.wp_mono h next fun _ _ raised => raised

/-- One call, where what it needs outlasts what the processes do. -/
lemma ask_wp {P : State → Prop} {x : Call} {Q : x.Result → State → Prop}
    (foreign : ∀ e : Raised, e.foreign = true → X e)
    (holds : P s) (drifts : ∀ {s s'}, P s → Drifts s s' → P s') (apart : ∀ {s}, P s → Apart s)
    (answers : ∀ s, P s → ∀ a s', Answers x s a s' → Apart s' ∧ Q a s') : wp X Q (ask x) s := by
  refine World.wp_ask fun s₁ drift r s' does => ?_
  have holds := drifts_many drifts drift holds
  have raised : ∀ {s}, Apart s → ∀ e : Raised, e.foreign = true →
      Apart s.leave ∧ Settled s.leave ∧ X e :=
    fun apart e own => ⟨apart.leave, apart.leave_settled, foreign e own⟩
  cases does with
  | answers reply => exact answers _ holds _ _ reply
  | fails own => exact raised (apart holds) _ own
  | lost own reply => exact raised (answers _ holds _ _ reply).1 _ own

/-- One call, where nothing is waited for. -/
lemma call_wp {x : Call} {Q : x.Result → State → Prop}
    (foreign : ∀ e : Raised, e.foreign = true → X e) (here : At m s)
    (answers : ∀ s, At m s → ∀ a s', Answers x s a s' → Apart s' ∧ Q a s') : wp X Q (ask x) s :=
  ask_wp foreign here (fun here drift => here.drift drift) (fun here => here.apart) answers

/-- A call that changes nothing. -/
lemma look_wp {x : Call} {R : x.Result → Prop} (foreign : ∀ e : Raised, e.foreign = true → X e)
    (here : At m s)
    (looks : ∀ s a s', s.marker = m → Answers x s a s' → s' = s ∧ R a) :
    wp X (fun a s' => At m s' ∧ R a) (ask x) s := by
  refine call_wp foreign here fun s here a s' answers => ?_
  obtain ⟨rfl, known⟩ := looks s a s' here.marker answers
  exact ⟨here.apart, here, known⟩

/-- A call that tells nothing and changes nothing. -/
lemma plain_wp {x : Call} (foreign : ∀ e : Raised, e.foreign = true → X e) (here : At m s)
    (plain : ∀ s a s', Answers x s a s' → s' = s) : wp X (fun _ => At m) (ask x) s :=
  then_wp (look_wp (R := fun _ => True) foreign here fun s a s' _ answers =>
    ⟨plain s a s' answers, trivial⟩)
    fun _ _ known => known.1

/-- A check that touches no marker. -/
lemma guard_wp (what : String) (foreign : ∀ e : Raised, e.foreign = true → X e) (here : At m s) :
    wp X (fun _ => At m) (ask (.guard what)) s := by
  refine plain_wp foreign here fun s a s' answers => ?_
  cases answers
  rfl

/-- Whether there is a marker. -/
lemma exists_wp (k : Kind) (foreign : ∀ e : Raised, e.foreign = true → X e) (here : At m s) :
    wp X (fun b s' => At m s' ∧ b = (m k).isSome) (ask (.exists k)) s := by
  refine look_wp (x := .exists k) (R := fun b : Bool => b = (m k).isSome) foreign here
    fun s a s' same answers => ?_
  cases answers
  exact ⟨rfl, by rw [same]⟩

/-- The lock is taken. -/
lemma lock_wp (foreign : ∀ e : Raised, e.foreign = true → X e) (here : At m s) :
    wp X (fun _ => At m) (ask .lock) s := by
  refine plain_wp foreign here fun s a s' answers => ?_
  cases answers
  rfl

/-! ### Checks -/

/-- Anything may be raised. -/
abbrev Any : Raised → Prop := fun _ => True

/-- Anything may be raised. -/
lemma any_foreign (e : Raised) (_ : e.foreign = true) : Any e := trivial

/-- Behind the refusal there is no marker of the kind. -/
lemma refuse_wp (k : Kind) (here : At m s) :
    wp Any (fun _ s' => At m s' ∧ m k = none) (refuse k) s := by
  refine bind_wp (exists_wp k any_foreign here) ?_
  rintro active s ⟨here, same⟩
  cases active with
  | true => exact ⟨here.settled, trivial⟩
  | false => exact ⟨here, Option.isNone_iff_eq_none.1 (Option.isSome_eq_false_iff.1 same.symm)⟩

/-- No marker of any kind. -/
lemma clear_of (simulation : m .simulation = none) (drill : m .drill = none)
    (message : m .message = none) :
    Clear m := by
  intro k
  cases k with
  | simulation => exact simulation
  | drill => exact drill
  | message => exact message

/-- Behind the checks before a fault there is no marker. -/
lemma preflight_wp (here : At m s) : wp Any (fun _ s' => At m s' ∧ Clear m) preflight s := by
  refine bind_wp (refuse_wp .message here) ?_
  rintro _ s ⟨here, message⟩
  refine bind_wp (guard_wp _ any_foreign here) fun _ s here => ?_
  refine bind_wp (guard_wp _ any_foreign here) fun _ s here => ?_
  refine bind_wp (refuse_wp .drill here) ?_
  rintro _ s ⟨here, drill⟩
  refine bind_wp (refuse_wp .simulation here) ?_
  rintro _ s ⟨here, simulation⟩
  refine bind_wp (guard_wp _ any_foreign here) fun _ s here => ?_
  refine then_wp (guard_wp _ any_foreign here) fun _ s here => ?_
  exact ⟨here, clear_of simulation drill message⟩

/-! ### Programs of one kind -/

/-- A call that touches no marker but that of the kind, and not the shared services. -/
def Call.OfKind (k : Kind) : Call → Prop
  | .write k' _ | .unlink k' => k' = k
  | .start | .wait => False
  | _ => True

/-- All calls of a program are of the kind, whatever they return. -/
def Tame (k : Kind) (X : Raised → Prop) : Method α → Prop
  | .done (.ok _) => True
  | .done (.error e) => X e
  | .call x next => x.OfKind k ∧ ∀ r, (∀ e, r = .error e → e.foreign = true) → Tame k X (next r)

variable {k : Kind} {Y : Raised → Prop}

/-- A call that touches its own kind only. -/
lemma tame_ask {x : Call} (own : x.OfKind k) (foreign : ∀ e : Raised, e.foreign = true → X e) :
    Tame k X (ask x) := by
  refine ⟨own, fun r raised => ?_⟩
  cases r with
  | ok a => trivial
  | error e => exact foreign e (raised e rfl)

/-- One tame part after the other. -/
lemma tame_bind {p : Method α} {f : α → Method β} (first : Tame k X p)
    (next : ∀ a, Tame k X (f a)) :
    Tame k X (p >>= f) := by
  induction p with
  | done r =>
    cases r with
    | ok a => exact next a
    | error e => exact first
  | call x rest ih => exact ⟨first.1, fun r raised => ih r (first.2 r raised)⟩

/-- A program of a kind keeps the markers here, where there is no marker of another. -/
lemma Tame.wp {p : Method α} (tame : Tame k X p) (here : At m s) (only : Only k m) :
    Faults.wp X (fun _ s' => Settled s' ∧ Only k s'.marker) p s := by
  induction p generalizing m s with
  | done r =>
    cases r with
    | ok a => exact ⟨here.settled, here.marker ▸ only⟩
    | error e => exact ⟨here.settled, tame⟩
  | call x next ih =>
    intro s₁ drift r s' does
    have here := drifts_many (fun here drift => here.drift drift) drift here
    have answered : ∀ a s', Answers x s₁ a s' → ∃ m, At m s' ∧ Only k m := by
      intro a s' answers
      cases x with
      | write k' own =>
        cases answers
        cases tame.1
        exact ⟨_, here.update only (some own), only.update (some own)⟩
      | unlink k' =>
        cases answers
        cases tame.1
        exact ⟨_, here.update only none, only.update none⟩
      | start => exact tame.1.elim
      | wait => exact tame.1.elim
      | _ =>
        cases answers
        exact ⟨m, here, only⟩
    cases does with
    | answers reply =>
      obtain ⟨m', after, only'⟩ := answered _ _ reply
      exact ⟨after.apart, ih _ (tame.2 _ nofun) after only'⟩
    | fails own =>
      refine ⟨here.leave.apart, ih _ (tame.2 _ ?_) here.leave only⟩
      rintro e ⟨⟩
      exact own
    | lost own reply =>
      obtain ⟨m', after, only'⟩ := answered _ _ reply
      refine ⟨after.leave.apart, ih _ (tame.2 _ ?_) after.leave only'⟩
      rintro e ⟨⟩
      exact own

/-! ### The programs of the kinds -/

/-- An effect of a fault. -/
lemma tame_effect (run : Marker) (foreign : ∀ e : Raised, e.foreign = true → X e) (e : Effect) :
    Tame .simulation X (effect run e) := by
  cases e with
  | engine => exact tame_ask trivial foreign
  | maybe =>
    refine tame_bind (tame_ask trivial foreign) fun there => ?_
    cases there with
    | true => exact tame_ask trivial foreign
    | false => trivial
  | save => exact tame_ask rfl foreign
  | file => exact tame_ask trivial foreign
  | check => exact tame_ask trivial foreign

/-- The effects of a fault. -/
lemma tame_effects (run : Marker) (foreign : ∀ e : Raised, e.foreign = true → X e)
    (es : List Effect) :
    Tame .simulation X (effects run es) := by
  induction es with
  | nil => trivial
  | cons e es ih => exact tame_bind (tame_effect run foreign e) fun _ => ih

/-- A fault is restored. -/
lemma tame_restore (run : Marker) (foreign : ∀ e : Raised, e.foreign = true → X e) :
    Tame .simulation X (restore run) := by
  refine tame_bind (tame_ask trivial foreign) fun active => ?_
  cases active with
  | false => trivial
  | true =>
    refine tame_bind (tame_ask trivial foreign) fun a => ?_
    exact tame_bind (tame_effects run foreign _) fun _ => tame_ask rfl foreign

/-- The containers of a drill are removed. -/
lemma tame_removeAll (foreign : ∀ e : Raised, e.foreign = true → X e) (n : Nat) :
    Tame .drill X (removeAll n) := by
  induction n with
  | zero => trivial
  | succ n ih =>
    exact tame_bind (tame_ask trivial foreign) fun _ =>
      tame_bind (tame_ask trivial foreign) fun _ => ih

/-- A drill is cleaned up. -/
lemma tame_cleanupDrill (foreign : ∀ e : Raised, e.foreign = true → X e) (n : Nat) :
    Tame .drill X (cleanupDrill n) := by
  refine tame_bind (tame_ask trivial foreign) fun active => ?_
  cases active with
  | false => trivial
  | true =>
    refine tame_bind (tame_ask trivial foreign) fun _ => ?_
    exact tame_bind (tame_removeAll foreign n) fun _ => tame_ask rfl foreign

/-- Behind a check that no marker exists, a program of a kind may run. -/
lemma Tame.clear {p : Method α} (tame : Tame k Any p) (here : At m s) (clear : Clear m) :
    Faults.wp Any (fun _ => Settled) p s :=
  then_wp (tame.wp here fun k' _ => clear k') fun _ _ kept => kept.1

/-- The lock, and the first check. -/
lemma locked_wp {Q : α → State → Prop} {f : Method α} (what : String)
    (foreign : ∀ e : Raised, e.foreign = true → X e)
    (here : At m s) (next : ∀ s, At m s → wp X Q f s) :
    wp X Q (do ask .lock; ask (.guard what); f) s :=
  bind_wp (lock_wp foreign here) fun _ _ here =>
    bind_wp (guard_wp _ foreign here) fun _ s here => next s here

/-- The record that is read is that of the marker. -/
lemma scope_wp (foreign : ∀ e : Raised, e.foreign = true → X e) (here : At m s) :
    wp X (fun (record : Marker) s' => At m s' ∧ m .message = some record) (ask .scope) s := by
  refine look_wp (x := .scope) (R := fun record : Marker => m .message = some record)
    foreign here ?_
  intro s record s' same answers
  cases answers with
  | scope active => exact ⟨rfl, same ▸ active⟩

/-- Only the record of another run is refused. -/
lemma ownRecord_wp (scope : Marker) (foreign : ∀ e : Raised, e.foreign = true → X e) (here : At m s)
    (different : m .message ≠ some scope → X .different) :
    wp X (fun _ => At m) (ownRecord scope) s := by
  refine bind_wp (exists_wp .message foreign here) ?_
  rintro active s ⟨here, _⟩
  cases active with
  | false => exact here
  | true =>
    refine bind_wp (scope_wp foreign here) ?_
    rintro (record : Marker) s ⟨here, active⟩
    by_cases other : record ≠ scope
    · rw [if_pos other]
      refine ⟨here.settled, different ?_⟩
      rw [active]
      exact fun same => other (Option.some.inj same)
    · rw [if_neg other]
      exact here

/-- and waited for while there is still none. -/
lemma wait_wp (clear : Apart s ∧ Clear s.marker) :
    wp Any (fun _ s' => Settled s' ∧ Clear s'.marker) (ask .wait) s := by
  refine ask_wp (P := fun s => Apart s ∧ Clear s.marker) any_foreign clear ?_
    (fun clear => clear.1) ?_
  · rintro s s' ⟨apart, clear⟩ drift
    refine ⟨apart.drift drift, ?_⟩
    cases drift with
    | works waited => exact clear
    | late left => exact clear
    | ends fewer => exact clear
  · rintro s ⟨apart, clear⟩ a s' answers
    cases answers
    have ended : Settled { s with waited := none } :=
      ⟨⟨apart.one, by simp, apart.left, apart.lifecycle⟩, rfl, rfl⟩
    exact ⟨ended.apart, ended, clear⟩

/-- Only what calls raise. -/
abbrev Foreign : Raised → Prop := fun e => e.foreign = true

/-- What comes from outside. -/
lemma foreign_foreign (e : Raised) (own : e.foreign = true) : Foreign e := own

/-- No other marker is there. -/
lemma exists_other_wp {k' : Kind} (here : At m s) (only : Only k m) (other : k' ≠ k) :
    wp Foreign (fun b s' => At m s' ∧ b = false) (ask (.exists k')) s := by
  refine then_wp (exists_wp k' foreign_foreign here) ?_
  rintro b s ⟨here, same⟩
  rw [only k' other] at same
  exact ⟨here, same⟩

/-- The marker of the run that is active goes. -/
lemma clearRecord_wp (run : Marker) (here : At m s) (only : Only .message m)
    (active : m .message = some run) :
    wp Foreign (fun _ => Settled) (clearRecord run) s := by
  refine bind_wp (exists_wp .message foreign_foreign here) ?_
  rintro there s ⟨here, _⟩
  cases there with
  | false => exact here.settled
  | true =>
    refine bind_wp (scope_wp foreign_foreign here) ?_
    rintro (record : Marker) s ⟨here, found⟩
    cases found.symm.trans active
    rw [if_neg (not_not.2 rfl)]
    have unlink : Tame .message Foreign (ask (.unlink .message)) := tame_ask rfl foreign_foreign
    exact then_wp (unlink.wp here only) fun _ _ kept => kept.1

/-- The run whose record is active can be cleaned up. -/
lemma cleanupActive_wp (run : Marker) (here : At m s) (only : Only .message m) :
    wp Foreign (fun _ => Settled) (cleanupRun run) s := by
  refine bind_wp (R := fun _ => At m) ?_ fun _ s here => ?_
  · refine bind_wp (exists_other_wp here only (by decide)) ?_
    rintro _ s ⟨here, rfl⟩
    refine bind_wp (exists_other_wp here only (by decide)) ?_
    rintro _ s ⟨here, rfl⟩
    exact here
  refine bind_wp (guard_wp _ foreign_foreign here) fun _ s here => ?_
  refine bind_wp (R := fun _ => At (update m .message (some run))) ?_ fun _ s here => ?_
  · refine call_wp foreign_foreign here fun s here a s' answers => ?_
    cases answers
    have after := here.update only (some run)
    exact ⟨after.apart, after⟩
  have active : update m .message (some run) .message = some run := update_self _ _ _
  refine bind_wp (guard_wp _ foreign_foreign here) fun _ s here => ?_
  refine bind_wp (ownRecord_wp run foreign_foreign here fun other => absurd active other)
    fun _ s here => ?_
  refine bind_wp (plain_wp (x := .engine) foreign_foreign here fun s a s' answers => ?_)
    fun _ s here => ?_
  · cases answers
    rfl
  refine bind_wp (guard_wp _ foreign_foreign here) fun _ s here => ?_
  exact clearRecord_wp run here (only.update (some run)) active

/-- The recover command of the marker that exists raises nothing but what calls raise. -/
lemma recover_wp (run : Marker) (n : Nat) (k : Kind) (here : At m s)
    (active : (m k).isSome = true) :
    wp Foreign (fun _ => Settled) (recover run n k) s := by
  have only : Only k m := by
    intro k' other
    by_contra there
    have one : One m := here.marker ▸ here.apart.one
    exact other (one k' k (Option.isSome_iff_ne_none.2 there) active)
  cases k with
  | simulation =>
    refine locked_wp _ foreign_foreign here fun s here => ?_
    exact then_wp ((tame_restore run foreign_foreign).wp here only) fun _ _ kept => kept.1
  | drill =>
    refine locked_wp _ foreign_foreign here fun s here => ?_
    exact then_wp ((tame_cleanupDrill foreign_foreign n).wp here only) fun _ _ kept => kept.1
  | message =>
    refine locked_wp _ foreign_foreign here fun s here =>
      bind_wp (exists_wp .message foreign_foreign here) ?_
    rintro there s ⟨here, same⟩
    cases there with
    | false => exact here.settled
    | true =>
      refine bind_wp (scope_wp foreign_foreign here) ?_
      rintro record s ⟨here, _⟩
      exact bind_wp (guard_wp _ foreign_foreign here) fun _ s here =>
        cleanupActive_wp record here only

end Rules

/-! ### Runs -/

/-- The state before the first command. -/
def quiet : State := ⟨fun _ => none, none, [], []⟩

/-- The run of the message marker -/
def activeScope (s : State) : Except Raised Marker × State :=
  match s.marker .message with
  | some m => (.ok m, s)
  | none => (.error .guard, s.leave)

/-- Calls return, where they can, but for the first calls to the engine. -/
def faulty (x : Call) (s : State) (failures : Nat) : Except Raised x.Result × State × Nat :=
  match x with
  | .lock | .guard _ => (.ok (), s, failures)
  | .chance _ => (.ok true, s, failures)
  | .action => (.ok Action.stop, s, failures)
  | .exists k => (.ok (s.marker k).isSome, s, failures)
  | .scope => ((activeScope s).1, (activeScope s).2, failures)
  | .write k m => (.ok (), { s with marker := update s.marker k (some m) }, failures)
  | .unlink k => (.ok (), { s with marker := update s.marker k none }, failures)
  | .engine =>
    match failures with
    | 0 => (.ok (), s, 0)
    | n + 1 => (.error .guard, s.leave, n)
  | .start => (.ok (), { s.leave with waited := some s.marker }, failures)
  | .wait => (.ok (), { s with waited := none }, failures)

def faultyEngine : Oracle files Nat where
  answer := faulty
  does x s failures := by
    cases x with
    | lock => exact .answers (.lock s)
    | guard what => exact .answers (.guard s what)
    | chance what => exact .answers (.chance s what true)
    | action => exact .answers (.action s .stop)
    | «exists» k => exact .answers (.exists s k)
    | scope =>
      show Does .scope s (activeScope s).1 (activeScope s).2
      unfold activeScope
      split
      · rename_i m active
        exact .answers (.scope active)
      · exact .fails s rfl
    | write k m => exact .answers (.write s k m)
    | unlink k => exact .answers (.unlink s k)
    | engine =>
      cases failures with
      | zero => exact .answers (.engine s)
      | succ n => exact .fails s rfl
    | start => exact .answers (.start s)
    | wait => exact .answers (.wait s)

/-- A simulation whose fault cannot be applied or undone, and what follows. -/
def stuck : List Command := [.simulateRun 1 (some .stop), .manage .down, .recover .simulation 1 0]

/-- What `stuck` leaves once the services have begun to go down again. -/
def stopping : Method Unit × State × Nat :=
  faultyEngine.runFor 11 (code (.manage .down)) (faultyEngine.runAll code stuck quiet 2).2 0

-- The services go down once, behind the recovery.
example : ((faultyEngine.runAll code (stuck ++ [.manage .down]) quiet 2).1.map fun e =>
    (e.after.marker .simulation, e.result.isOk)) =
      [(some 1, true), (some 1, false), (none, true), (none, true)] := by decide

/-! ### A command killed -/

end DbLab.Mvp.Faults
