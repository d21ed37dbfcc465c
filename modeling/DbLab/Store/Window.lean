import DbLab.Store.Engine

/-!
# Results that deny a commit

Some results of a program say that none of its commits took effect. A commit whose reply was lost
may still take effect later, so such a result is true only if the program learned, after its last
request to commit, that no commit of its own was or will be made. From then on, until it asks for a
commit again, it is in a window in which it may deny. The run is restricted to steps that meet a
condition.
-/

namespace DbLab.Store
open Function

variable {I : Interface} {S : Server I} {C α : Type}

/-- The states a run can reach from the world `w` if all its steps are allowed. -/
inductive ReachableWhen (allowed : Config S C α → Config S C α → Prop) (code : C → Prog I α)
    (w : World S) :
    Config S C α → Prop where
  | init : ReachableWhen allowed code w (.init w)
  | step {s s'} (h : ReachableWhen allowed code w s) (step : Step code s s') (ok : allowed s s') :
    ReachableWhen allowed code w s'

/-- What is reachable under a condition is reachable. -/
lemma ReachableWhen.reachable {allowed : Config S C α → Config S C α → Prop} {code : C → Prog I α}
    {w : World S}
    {s : Config S C α} (h : ReachableWhen allowed code w s) : Reachable code w s := by
  induction h with
  | init => exact .init
  | step _ step _ ih => exact .step ih step

/-- No commit of task `t` had an effect, and none is on its way. -/
structure Config.Untouched (s : Config S C α) (t : Nat) : Prop where
  conns : ∀ n ws, s.conns n = some ⟨t, ws, .committing⟩ → ws = []
  log : ∀ ws, (t, ws) ∈ s.log → ws = []

/-- A program, a window that is open or not at its start, and what is then true of its result and
the window at its end. A reply that is `clear` opens the window, a request to commit closes it. -/
def Tracks (clear : (q : I.Query) → I.Rows q → Prop) (post : α → Prop → Prop) :
    Prop → Prog I α → Prop
  | window, .ret a => post a window
  | _, .ask .commit next => ∀ r, Tracks clear post False (next r)
  | window, .ask (.sql q) next => (∀ e, Tracks clear post window (next (.error e))) ∧
    ∀ a, Tracks clear post (window ∨ clear q a) (next (.ok a))
  | window, .ask .connect next => ∀ r, Tracks clear post window (next r)
  | window, .ask .rollback next => ∀ r, Tracks clear post window (next r)
  | window, .ask .close next => ∀ r, Tracks clear post window (next r)
  | window, .ask (.act _) next => ∀ r, Tracks clear post window (next r)

/-- A program that denies only within a window. -/
abbrev Quits (denies : α → Prop) (clear : (q : I.Query) → I.Rows q → Prop) :
    Prop → Prog I α → Prop :=
  Tracks clear fun a window => denies a → window

section Tracks
variable {β : Type} {clear : (q : I.Query) → I.Rows q → Prop} {post post' : α → Prop →
  Prop} {window window' : Prop}
  {p : Prog I α}

/-- A weaker promise. -/
lemma Tracks.mono (h : Tracks clear post window p) (le : window → window')
    (post_le : ∀ a {w w' : Prop}, (w → w') → post a w → post' a w') :
    Tracks clear post' window' p := by
  induction p generalizing window window' with
  | ret a => exact post_le a le h
  | ask op next ih =>
    cases op with
    | commit => exact fun r => ih r (h r) id
    | sql q => exact ⟨fun e => ih _ (h.1 e) le, fun a => ih _ (h.2 a) (Or.imp_left le)⟩
    | connect => exact fun r => ih r (h r) le
    | rollback => exact fun r => ih r (h r) le
    | close => exact fun r => ih r (h r) le
    | act x => exact fun r => ih r (h r) le

/-- A wider window. -/
lemma Quits.mono {denies : α → Prop} (h : Quits denies clear window p) (le : window → window') :
    Quits denies clear window' p :=
  Tracks.mono h le fun _ _ _ le d a => le (d a)

/-- The window over one program after the other. -/
lemma Tracks.bind {post : α → Prop → Prop} {post' : β → Prop → Prop} {f : α → Prog I β}
    (h : Tracks clear post window p) (each : ∀ a w, post a w → Tracks clear post' w (f a)) :
    Tracks clear post' window (p >>= f) := by
  induction p generalizing window with
  | ret a => exact each a window h
  | ask op next ih =>
    cases op with
    | commit => exact fun r => ih r (h r)
    | sql q => exact ⟨fun e => ih _ (h.1 e), fun a => ih _ (h.2 a)⟩
    | connect => exact fun r => ih r (h r)
    | rollback => exact fun r => ih r (h r)
    | close => exact fun r => ih r (h r)
    | act x => exact fun r => ih r (h r)

/-! ### Programs that raise -/

/-- What is true of a result, or of an exception, and the window. -/
def Both {ε : Type} (Q : α → Prop → Prop) (E : ε → Prop → Prop) : Except ε α → Prop → Prop
  | .ok a, w => Q a w
  | .error e, w => E e w

variable {ε : Type} {Q : α → Prop → Prop} {E : ε → Prop → Prop} {raise : Failure → ε}

/-- The window after a query. -/
lemma Tracks.execute {q : I.Query} {Q : I.Rows q → Prop → Prop} (ok : ∀ a, Q a (window ∨ clear q a))
    (error : ∀ e, E (raise e) window) :
    Tracks clear (Both Q E) window (Client.execute raise q).run :=
  ⟨error, ok⟩

/-- The window after connecting. -/
lemma Tracks.connect {Q : Unit → Prop → Prop} (ok : Q () window) (error : ∀ e, E (raise e) window) :
    Tracks clear (Both Q E) window (Client.connect raise).run := by
  intro r
  cases r with
  | ok u => exact ok
  | error e => exact error e

/-- The window after rolling back. -/
lemma Tracks.rollback {Q : Unit → Prop → Prop} (ok : Q () window)
    (error : ∀ e, E (raise e) window) :
    Tracks clear (Both Q E) window (Client.rollback raise).run := by
  intro r
  cases r with
  | ok u => exact ok
  | error e => exact error e

/-- Committing closes the window. -/
lemma Tracks.commit {Q : Unit → Prop → Prop} (ok : Q () False) (error : ∀ e, E (raise e) False) :
    Tracks clear (Both Q E) window (Client.commit raise).run := by
  intro r
  cases r with
  | ok u => exact ok
  | error e => exact error e

/-- The window after closing. -/
lemma Tracks.close {Q : Unit → Prop → Prop} (ok : Q () window) :
    Tracks clear (Both Q E) window (Client.close : Client I ε Unit).run := fun _ => ok

/-- A program after one of which something is known. -/
lemma Tracks.seq {p : Client I ε α} {f : α → Client I ε β} {Q' : β → Prop → Prop}
    {E' : ε → Prop → Prop}
    (h : Tracks clear (Both Q E) window p.run)
    (ok : ∀ a w, Q a w → Tracks clear (Both Q' E') w (f a).run)
    (error : ∀ e w, E e w → E' e w) : Tracks clear (Both Q' E') window (p >>= f).run := by
  refine Tracks.bind h fun x w both => ?_
  cases x with
  | ok a => exact ok a w both
  | error e => exact error e w both

/-- The window over one client after the other. -/
lemma Tracks.raising {p : Client I ε α} {f : α → Client I ε β} {Q : β → Prop → Prop}
    (h : Tracks clear (Both (fun a w => Tracks clear (Both Q E) w (f a).run) E) window p.run) :
    Tracks clear (Both Q E) window (p >>= f).run :=
  Tracks.seq h (fun _ _ rest => rest) fun _ _ e => e

/-- The window over a client with its handler. -/
lemma Tracks.tryCatch {p : Client I ε α} {f : ε → Client I ε α} {E' : ε → Prop → Prop}
    (h : Tracks clear (Both Q E) window p.run)
    (handle : ∀ e w, E e w → Tracks clear (Both Q E') w (f e).run) :
    Tracks clear (Both Q E') window (MonadExcept.tryCatch p f : Client I ε α).run := by
  refine Tracks.bind h fun x w both => ?_
  cases x with
  | ok a => exact both
  | error e => exact handle e w both

end Tracks

section Watch
variable (denies : α → Prop) (clear : C → (q : I.Query) → I.Rows q → Prop)

/-- Every connection belongs to the one task that has it, and a task denies only while it is
untouched. -/
structure Watched (s : Config S C α) : Prop where
  owned : ∀ t T n c, s.tasks t = some T → T.conn = some n → s.conns n = some c → c.task = t
  distinct : ∀ t t' T T' n, s.tasks t = some T → s.tasks t' = some T' → T.conn = some n →
    T'.conn = some n → t = t'
  quits : ∀ t T, s.tasks t = some T → Quits denies (clear T.call) (s.Untouched t) T.prog

/-- A step of task `t`, which has connection `o` before or after it, leaves other connections and
commits alone. -/
structure Mild (t : Nat) (o : Option Nat) (s s' : Config S C α) : Prop where
  conns : ∀ n c, s'.conns n = some c → s.conns n = some c ∨ c.task = t ∧ o = some n
  log : ∀ e ∈ s'.log, e.1 ≠ t → e ∈ s.log

/-- Nothing of task `t` gets underway or takes effect. -/
structure Still (t : Nat) (s s' : Config S C α) : Prop where
  conns : ∀ n ws, s'.conns n = some ⟨t, ws, .committing⟩ → s.conns n = some ⟨t, ws, .committing⟩
  log : ∀ ws, (t, ws) ∈ s'.log → (t, ws) ∈ s.log

variable {denies clear} {s s' : Config S C α} {t u : Nat} {T T' : Task S C α} {o : Option Nat}

/-- What is still is untouched. -/
lemma Still.untouched (still : Still t s s') (h : s.Untouched t) : s'.Untouched t :=
  ⟨fun n ws c => h.conns n ws (still.conns n ws c), fun ws m => h.log ws (still.log ws m)⟩

/-- A mild step of another task. -/
lemma Mild.still (mild : Mild t o s s') (ne : u ≠ t) : Still u s s' :=
  ⟨fun n _ c => (mild.conns n _ c).resolve_right fun own => ne own.1, fun _ m => mild.log _ m ne⟩

/-- A task that moves on. -/
lemma Watched.advance (h : Watched denies clear s) (T' : Task S C α) (o : Option Nat)
    (tasks : s'.tasks = Function.update s.tasks t (some T'))
    (mild : Mild t o s s') (mine : ∀ n, o = some n → s.Fresh n ∨ ∃ T, s.tasks t = some T ∧
      T.conn = some n)
    (conn : ∀ n, T'.conn = some n → o = some n)
    (quits : Quits denies (clear T'.call) (s'.Untouched t) T'.prog) : Watched denies clear s' := by
  have other : ∀ {u U}, u ≠ t → s'.tasks u = some U → s.tasks u = some U := by
    intro u U ne task
    rwa [tasks, update_of_ne ne] at task
  have new : ∀ {U}, s'.tasks t = some U → U = T' := by
    intro U task
    rw [tasks, update_self] at task
    exact (Option.some.inj task).symm
  -- No other task has the connection of `t`.
  have alone : ∀ {u U n}, u ≠ t → s.tasks u = some U → o = some n → U.conn ≠ some n := by
    intro u U n ne task own conn
    rcases mine n own with fresh | ⟨T, task', conn'⟩
    · exact fresh.tasks u U task conn
    · exact ne (h.distinct u t U T n task task' conn conn')
  refine ⟨fun u U n c task has at_ => ?_, fun u u' U U' n task task' has has' => ?_,
    fun u U task => ?_⟩
  · by_cases same : u = t
    · subst same
      cases new task
      rcases mild.conns n c at_ with old | ⟨own, _⟩
      · rcases mine n (conn n has) with fresh | ⟨T, task', conn'⟩
        · cases fresh.conn.symm.trans old
        · exact h.owned u T n c task' conn' old
      · exact own
    · rcases mild.conns n c at_ with old | ⟨_, own⟩
      · exact h.owned u U n c (other same task) has old
      · exact absurd has (alone same (other same task) own)
  · by_cases same : u = t
    · by_cases same' : u' = t
      · exact same.trans same'.symm
      · subst same
        cases new task
        exact absurd has' (alone same' (other same' task') (conn n has))
    · by_cases same' : u' = t
      · subst same'
        cases new task'
        exact absurd has (alone same (other same task) (conn n has'))
      · exact h.distinct u u' U U' n (other same task) (other same' task') has has'
  · by_cases same : u = t
    · subst same
      cases new task
      exact quits
    · exact Quits.mono (h.quits u U (other same task)) (mild.still same).untouched

/-- A step of no task. -/
lemma Watched.move (h : Watched denies clear s) (tasks : s'.tasks = s.tasks)
    (conns : ∀ n c, s'.conns n = some c → s.conns n = some c)
    (log : ∀ e ∈ s'.log, e ∈ s.log ∨ ∃ n, s.conns n = some ⟨e.1, e.2, .committing⟩) :
    Watched denies clear s' := by
  refine ⟨fun u U n c task has at_ => ?_, ?_, fun u U task => ?_⟩
  · exact h.owned u U n c (tasks ▸ task) has (conns n c at_)
  · rw [tasks]
    exact h.distinct
  · refine Quits.mono (h.quits u U (tasks ▸ task)) fun untouched =>
      ⟨fun n ws at_ => untouched.conns n ws (conns n _ at_), ?_⟩
    intro ws m
    rcases log _ m with old | ⟨n, underway⟩
    · exact untouched.log ws old
    · exact untouched.conns n ws underway

/-- What a failed request leaves of the connection of its task. -/
lemma Fails.mild {n : Nat} {o : Option (Conn S)} (f : Fails (s.conns n) o)
    (own : ∀ c, s.conns n = some c → c.task = t)
    (c : Conn S) (at_ : o = some c) : (s.conns n = some c ∨ c.task = t) ∧
      (∀ ws, c = ⟨t, ws, .committing⟩ → s.conns n = some c) := by
  generalize e : s.conns n = c₀ at f own ⊢
  cases f with
  | kept => exact ⟨.inl at_, fun _ _ => at_⟩
  | lost t₀ ws =>
    cases at_
    exact ⟨.inr (own ⟨t₀, ws, .active⟩ rfl), nofun⟩

/-- A connection that is gone is no other one. -/
lemma removed {n m : Nat} {c : Conn S} (at_ : update s.conns n none m = some c) :
    s.conns m = some c := by
  by_cases same : m = n
  · subst same
    rw [update_self] at at_
    cases at_
  · rwa [update_of_ne same] at at_

/-- The connection `n` of a task changes. -/
lemma Mild.update {n : Nat} {o : Option (Conn S)} (conns : s'.conns = Function.update s.conns n o)
    (log : ∀ e ∈ s'.log, e.1 ≠ t → e ∈ s.log)
    (own : ∀ c, o = some c → s.conns n = some c ∨ c.task = t) :
    Mild t (some n) s s' := by
  refine ⟨fun m c at_ => ?_, log⟩
  rw [conns] at at_
  by_cases same : m = n
  · subst same
    rw [update_self] at at_
    exact (own c at_).imp_right fun task => ⟨task, rfl⟩
  · rw [update_of_ne same] at at_
    exact .inl at_

/-- A change of another connection leaves the task still. -/
lemma Still.update {n : Nat} {o : Option (Conn S)} (conns : s'.conns = Function.update s.conns n o)
    (log : s'.log = s.log)
    (quiet : ∀ ws, o = some ⟨t, ws, .committing⟩ → s.conns n = some ⟨t, ws, .committing⟩) :
    Still t s s' := by
  refine ⟨fun m ws at_ => ?_, fun ws m => log ▸ m⟩
  rw [conns] at at_
  by_cases same : m = n
  · subst same
    rw [update_self] at at_
    exact quiet ws at_
  · rwa [update_of_ne same] at at_

/-- A step that changes no connection is mild. -/
lemma Mild.same (conns : s'.conns = s.conns) (log : s'.log = s.log) : Mild t o s s' :=
  ⟨fun _ _ at_ => .inl (conns ▸ at_), fun _ m _ => log ▸ m⟩

/-- A step that changes no connection leaves the task still. -/
lemma Still.same (conns : s'.conns = s.conns) (log : s'.log = s.log) : Still t s s' :=
  ⟨fun _ _ at_ => conns ▸ at_, fun _ m => log ▸ m⟩

variable {code : C → Prog I α} {allowed : Config S C α → Config S C α → Prop}

/-- A request of a task is answered, and its connection `n` may change. -/
lemma Watched.answer (h : Watched denies clear s) {c : C} {b : World S} {p p' : Prog I α} {n : Nat}
    {m : Option Nat}
    {o : Option (Conn S)} (task : s.tasks t = some ⟨c, b, p, some n⟩)
    (tasks : s'.tasks = Function.update s.tasks t (some ⟨c, b, p', m⟩))
    (keeps : m = some n ∨ m = none)
    (conns : s'.conns = Function.update s.conns n o) (log : ∀ e ∈ s'.log, e.1 ≠ t → e ∈ s.log)
    (own : ∀ c, o = some c → s.conns n = some c ∨ c.task = t)
    (quits : Quits denies (clear c) (s'.Untouched t) p') : Watched denies clear s' := by
  refine h.advance _ (some n) tasks (.update conns log own) ?_ ?_ quits
  · rintro m ⟨⟩
    exact .inr ⟨_, task, rfl⟩
  · intro k has
    rcases keeps with same | none
    · exact same ▸ has
    · cases none.symm.trans has

/-- A task that moves on without a request to commit. -/
lemma Watched.glide (h : Watched denies clear s) (T' : Task S C α) (o : Option Nat)
    (tasks : s'.tasks = Function.update s.tasks t (some T')) (mild : Mild t o s s')
    (still : Still t s s')
    (mine : ∀ n, o = some n → s.Fresh n ∨ ∃ T, s.tasks t = some T ∧ T.conn = some n)
    (conn : ∀ n, T'.conn = some n → o = some n)
    (quits : Quits denies (clear T'.call) (s.Untouched t) T'.prog) : Watched denies clear s' :=
  h.advance T' o tasks mild mine conn (Quits.mono quits still.untouched)

/-- A request that is no commit. -/
lemma Watched.quiet (h : Watched denies clear s) {c : C} {b : World S} {p p' : Prog I α} {n : Nat}
    {m : Option Nat}
    {o : Option (Conn S)} (task : s.tasks t = some ⟨c, b, p, some n⟩)
    (tasks : s'.tasks = Function.update s.tasks t (some ⟨c, b, p', m⟩))
    (keeps : m = some n ∨ m = none)
    (conns : s'.conns = Function.update s.conns n o) (log : s'.log = s.log)
    (own : ∀ c, o = some c → s.conns n = some c ∨ c.task = t)
    (quiet : ∀ ws, o = some ⟨t, ws, .committing⟩ → s.conns n = some ⟨t, ws, .committing⟩)
    (quits : Quits denies (clear c) (s.Untouched t) p') : Watched denies clear s' :=
  h.answer task tasks keeps conns (fun _ m _ => log ▸ m) own
    (Quits.mono quits (Still.update conns log quiet).untouched)

/-- A request that fails. -/
lemma Watched.fails (h : Watched denies clear s) {c : C} {b : World S} {p p' : Prog I α} {n : Nat}
    {m : Option Nat}
    {o : Option (Conn S)} (task : s.tasks t = some ⟨c, b, p, some n⟩)
    (tasks : s'.tasks = Function.update s.tasks t (some ⟨c, b, p', m⟩))
    (keeps : m = some n ∨ m = none)
    (conns : s'.conns = Function.update s.conns n o) (log : s'.log = s.log)
    (f : Fails (s.conns n) o)
    (quits : Quits denies (clear c) (s.Untouched t) p') : Watched denies clear s' := by
  have left := fun k at_ => f.mild (t := t) (fun k conn => h.owned t _ n k task rfl conn) k at_
  exact h.quiet task tasks keeps conns log (fun k at_ => (left k at_).1)
    (fun ws at_ => (left _ at_).2 ws rfl) quits

/-- What a step does to the tasks that are watched. -/
theorem Watched.step (begins : ∀ c, Quits denies (clear c) False (code c))
    (clears : ∀ {t c b q next n ws a d' ks ws'},
      s.tasks t = some ⟨c, b, .ask (.sql q) next, some n⟩ → s.conns n = some ⟨t, ws, .active⟩ →
        S.runs q s.world.db ws (.ok a) d' ks ws' →
      (∀ k ∈ ks, s.owner k = none ∨ s.owner k = some n) →
        s'.tasks t = some ⟨c, b, next (.ok a), some n⟩ →
      allowed s s' → clear c q a → s.Untouched t)
    (h : Watched denies clear s) (st : Step code s s') (ok : allowed s s') :
      Watched denies clear s' := by
  cases st with
  | spawn t c free =>
    exact h.glide ⟨c, s.world, code c, none⟩ none rfl (.same rfl rfl) (.same rfl rfl) nofun nofun
      (Quits.mono (begins c) False.elim)
  | @connect t c b next n task fresh =>
    have quits := h.quits t _ task
    refine h.glide ⟨c, b, next (.ok ()), some n⟩ (some n) rfl
      (.update (o := some ⟨t, [], .active⟩) rfl (fun _ m _ => m) fun c' e => .inr (by cases e; rfl))
      (.update (o := some ⟨t, [], .active⟩) rfl rfl nofun) ?_ (fun _ e => e) (quits (.ok ()))
    rintro m ⟨⟩
    exact .inl fresh
  | @connectFails t c b next e spurious task =>
    have quits := h.quits t _ task
    exact h.glide ⟨c, b, next (.error e), none⟩ none rfl (.same rfl rfl) (.same rfl rfl) nofun nofun
      (quits (.error e))
  | @sql t c b q next n ws r d' ks ws' task conn runs free =>
    refine h.quiet task rfl (.inl rfl) (o := some ⟨t, ws ++ ws', .active⟩) rfl rfl
      (fun c' e => .inr (by cases e; rfl)) nofun ?_
    have quits := h.quits t _ task
    cases r with
    | error e => exact quits.1 e
    | ok a =>
      refine Quits.mono (quits.2 a) fun window => ?_
      rcases window with old | opens
      · exact old
      · exact clears task conn runs free (update_self ..) ok opens
  | @sqlFails t c b q next n c' e spurious task conn =>
    have quits := h.quits t _ task
    exact h.fails task rfl (.inl rfl) rfl rfl conn (quits.1 e)
  | @sqlAborts t c b q next n ws e spurious task conn =>
    have quits := h.quits t _ task
    exact h.quiet task rfl (.inl rfl) (o := some ⟨t, [], .active⟩) rfl rfl
      (fun c' e => .inr (by cases e; rfl)) nofun (quits.1 e)
  | @commit t c b next n ws task conn =>
    have quits := h.quits t _ task
    refine h.answer task rfl (.inl rfl) (o := some ⟨t, [], .active⟩) rfl (fun e m ne => ?_)
      (fun c' e => .inr (by cases e; rfl)) (Quits.mono (quits (.ok ())) False.elim)
    rcases List.mem_append.1 m with old | new
    · exact old
    · cases List.mem_singleton.1 new
      exact absurd rfl ne
  | @commitFails t c b next n c' e spurious task conn =>
    have quits := h.quits t _ task
    have own : ∀ k, c' = some k → s.conns n = some k ∨ k.task = t := by
      intro k at_
      have mine := fun k conn => h.owned t _ n k task rfl conn
      generalize e : s.conns n = c₀ at conn mine ⊢
      cases conn with
      | fails f =>
        exact (Fails.mild (s := s) (t := t) (n := n) (e ▸ f) (e ▸ mine) k at_).1.imp_left fun old =>
          e ▸ old
      | underway t₀ ws =>
        cases at_
        exact .inr (mine ⟨t₀, ws, .active⟩ rfl)
    exact h.answer task rfl (.inl rfl) rfl (fun _ m _ => m) own
      (Quits.mono (quits (.error e)) False.elim)
  | @commitAborts t c b next n ws e spurious task conn =>
    have quits := h.quits t _ task
    exact h.answer task rfl (.inl rfl) (o := some ⟨t, [], .active⟩) rfl (fun _ m _ => m)
      (fun c' e => .inr (by cases e; rfl)) (Quits.mono (quits (.error e)) False.elim)
  | @rollback t c b next n ws task conn =>
    have quits := h.quits t _ task
    exact h.quiet task rfl (.inl rfl) (o := some ⟨t, [], .active⟩) rfl rfl
      (fun c' e => .inr (by cases e; rfl)) nofun (quits (.ok ()))
  | @rollbackFails t c b next n c' e spurious task conn =>
    have quits := h.quits t _ task
    exact h.fails task rfl (.inl rfl) rfl rfl conn (quits (.error e))
  | @close t c b next n c' task conn gone =>
    have quits := h.quits t _ task
    exact h.fails task rfl (.inr rfl) rfl rfl conn (quits ())
  | @act t c b x next n a e' task acts =>
    have quits := h.quits t _ task
    exact h.glide ⟨c, b, next a, n⟩ n rfl (.same rfl rfl) (.same rfl rfl)
      (fun m e => .inr ⟨_, task, e⟩) (fun _ e => e) (quits a)
  | drift drifts => exact h.move rfl (fun _ _ c => c) fun _ m => .inl m
  | orphanRollsBack n t ws phase conn gone =>
    exact h.move rfl (fun m c at_ => removed at_) fun _ m => .inl m
  | orphanCommits n t ws conn =>
    refine h.move rfl (fun m c at_ => removed at_) fun e m => ?_
    rcases List.mem_append.1 m with old | new
    · exact .inl old
    · cases List.mem_singleton.1 new
      exact .inr ⟨n, conn⟩

/-- In every run whose steps are allowed, a call that denies is untouched from then on. -/
theorem untouched_of_denies {w : World S} (begins : ∀ c, Quits denies (clear c) False (code c))
    (clears : ∀ {s s' t c b q next n ws a d' ks ws'}, ReachableWhen allowed code w s →
      s.tasks t = some ⟨c, b, .ask (.sql q) next, some n⟩ → s.conns n = some ⟨t, ws, .active⟩ →
      S.runs q s.world.db ws (.ok a) d' ks ws' → (∀ k ∈ ks, s.owner k = none ∨ s.owner k = some n) →
      s'.tasks t = some ⟨c, b, next (.ok a), some n⟩ → allowed s s' → clear c q a → s.Untouched t)
    (reach : ReachableWhen allowed code w s) {c : C} {b : World S} {a : α} {o : Option Nat}
    (task : s.tasks t = some ⟨c, b, .ret a, o⟩) (d : denies a) : s.Untouched t := by
  have watched : Watched denies clear s := by
    clear task
    induction reach with
    | init => exact ⟨nofun, nofun, nofun⟩
    | step reach step ok ih => exact ih.step begins (clears reach) step ok
  exact watched.quits t _ task d

end Watch

end DbLab.Store
