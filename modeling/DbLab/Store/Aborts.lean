import DbLab.Store.Solo

/-!
# Calls that end without a commit

What the result of a program tells about whether it has asked for a commit. Where it tells that it
has not, nothing the program has written is ever committed, whatever else runs.
-/

namespace DbLab.Store
open Function Relation

variable {I : Interface} {S : Server I} {C ε α β : Type}

def Op.commits : Op I → Bool
  | .commit => true
  | _ => false

/-- The replies there are to a request. -/
def Server.Allows (S : Server I) : (op : Op I) → op.Reply → Prop
  | .act x, a => ∃ e e', S.acts x e a e'
  | _, _ => True

/-- The results of a program are as in `P`, which knows whether a commit was asked for. -/
def Tells (S : Server I) (P : Bool → α → Prop) : Bool → Prog I α → Prop
  | asked, .ret a => P asked a
  | asked, .ask op next => ∀ r, S.Allows op r → Tells S P (asked || op.commits) (next r)

/-! ### Programs -/

section Programs
variable {asked : Bool} {P : Bool → α → Prop}

/-- What one program after the other tells. -/
lemma tells_bind {P : Bool → β → Prop} (p : Prog I α) (f : α → Prog I β) :
    Tells S P asked (p >>= f) ↔ Tells S (fun b a => Tells S P b (f a)) asked p := by
  induction p generalizing asked with
  | ret a => rfl
  | ask op next ih => exact forall₂_congr fun r _ => ih r

/-- A weaker promise. -/
lemma Tells.mono {P' : Bool → α → Prop} {p : Prog I α} (h : Tells S P asked p)
    (le : ∀ b a, P b a → P' b a) :
    Tells S P' asked p := by
  induction p generalizing asked with
  | ret a => exact le _ _ h
  | ask op next ih => exact fun r allowed => ih r (h r allowed)

/-- A promise that always holds. -/
lemma tells_of_all {p : Prog I α} (h : ∀ b a, P b a) : Tells S P asked p := by
  induction p generalizing asked with
  | ret a => exact h asked a
  | ask op next ih => exact fun r _ => ih r

/-- The same for programs that raise. -/
def Tellsc (S : Server I) (Q : Bool → α → Prop) (E : Bool → ε → Prop) (asked : Bool)
    (p : Client I ε α) : Prop :=
  Tells S (fun b r => match r with | .ok a => Q b a | .error e => E b e) asked p.run

variable {Q : Bool → α → Prop} {E : Bool → ε → Prop} {raise : Failure → ε}

/-- What a result tells. -/
lemma tellsc_pure (a : α) : Tellsc S Q E asked (pure a) ↔ Q asked a := Iff.rfl

/-- What an exception tells. -/
lemma tellsc_throw (e : ε) : Tellsc S Q E asked (throw e : Client I ε α) ↔ E asked e := Iff.rfl

/-- One after the other, under an equivalent promise. -/
lemma tells_bind_iff {P : Bool → β → Prop} {R : Bool → α → Prop} {p : Prog I α} {f : α → Prog I β}
    (same : ∀ b a, Tells S P b (f a) ↔ R b a) : Tells S P asked (p >>= f) ↔ Tells S R asked p := by
  rw [tells_bind]
  exact ⟨fun h => h.mono fun b a => (same b a).1, fun h => h.mono fun b a => (same b a).2⟩

/-- What one client after the other tells. -/
lemma tellsc_bind {Q : Bool → β → Prop} (p : Client I ε α) (f : α → Client I ε β) :
    Tellsc S Q E asked (p >>= f) ↔ Tellsc S (fun b a => Tellsc S Q E b (f a)) E asked p := by
  apply tells_bind_iff
  intro b r
  cases r with
  | error e => rfl
  | ok a => rfl

/-- What a client with its handler tells. -/
lemma tellsc_tryCatch (p : Client I ε α) (f : ε → Client I ε α) :
    Tellsc S Q E asked (tryCatch p f) ↔ Tellsc S Q (fun b e => Tellsc S Q E b (f e)) asked p := by
  apply tells_bind_iff
  intro b r
  cases r with
  | error e => rfl
  | ok a => rfl

/-- What a client with its final block tells. -/
lemma tellsc_finally (p : Client I ε α) (f : Client I ε β) :
    Tellsc S Q E asked (tryFinally p f) ↔
      Tellsc S (fun b a => Tellsc S (fun b _ => Q b a) E b f)
        (fun b e => Tellsc S (fun b _ => E b e) E b f) asked p := by
  rw [Tellsc, Client.finally_run]
  apply tells_bind_iff
  intro b r
  cases r with
  | error e =>
    apply tells_bind_iff
    intro b r
    cases r with
    | error e' => rfl
    | ok a => rfl
  | ok a =>
    apply tells_bind_iff
    intro b r
    cases r with
    | error e' => rfl
    | ok a => rfl

/-- A weaker promise. -/
lemma Tellsc.mono {Q' : Bool → α → Prop} {E' : Bool → ε → Prop} {p : Client I ε α}
    (h : Tellsc S Q E asked p)
    (ok : ∀ b a, Q b a → Q' b a) (error : ∀ b e, E b e → E' b e) : Tellsc S Q' E' asked p := by
  apply Tells.mono h
  intro b r
  cases r with
  | error e => exact error b e
  | ok a => exact ok b a

/-- What is no commit asks for none. -/
lemma asked_kept {op : Op I} (h : op.commits = false) : (asked || op.commits) = asked := by
  rw [h, Bool.or_false]

/-- What connecting tells. -/
lemma tellsc_connect {Q : Bool → Unit → Prop} (ok : Q asked ()) (error : ∀ e, E asked (raise e)) :
    Tellsc (I := I) S Q E asked (Client.connect raise) := by
  intro r _
  rw [asked_kept rfl]
  cases r with
  | error e => exact error e
  | ok a => exact ok

/-- What a query tells. -/
lemma tellsc_execute {q : I.Query} {Q : Bool → I.Rows q → Prop} (ok : ∀ a, Q asked a)
    (error : ∀ e, E asked (raise e)) :
    Tellsc S Q E asked (Client.execute raise q) := by
  intro r _
  rw [asked_kept rfl]
  cases r with
  | error e => exact error e
  | ok a => exact ok a

/-- What rolling back tells. -/
lemma tellsc_rollback {Q : Bool → Unit → Prop} (ok : Q asked ()) (error : ∀ e, E asked (raise e)) :
    Tellsc (I := I) S Q E asked (Client.rollback raise) := by
  intro r _
  rw [asked_kept rfl]
  cases r with
  | error e => exact error e
  | ok a => exact ok

/-- What committing tells. -/
lemma tellsc_commit {Q : Bool → Unit → Prop} (ok : Q true ()) (error : ∀ e, E true (raise e)) :
    Tellsc (I := I) S Q E asked (Client.commit raise) := by
  intro r _
  have now : (asked || (Op.commit : Op I).commits) = true := Bool.or_true _
  rw [now]
  cases r with
  | error e => exact error e
  | ok a => exact ok

/-- What closing tells. -/
lemma tellsc_close {Q : Bool → Unit → Prop} (ok : Q asked ()) :
    Tellsc (I := I) S Q E asked Client.close := by
  intro r _
  rw [asked_kept rfl]
  exact ok

/-- What an action outside tells. -/
lemma tellsc_act {x : I.Action} {Q : Bool → I.Outcome x → Prop}
    (ok : ∀ a e e', S.acts x e a e' → Q asked a) :
    Tellsc S Q E asked (Client.act x) := by
  intro a allowed
  obtain ⟨e, e', acts⟩ := allowed
  rw [asked_kept rfl]
  exact ok a e e' acts

end Programs

/-! ### Runs -/

variable {s s' : Config S C α} {t : Nat}

/-- No commit of task `t` has taken effect or is under way. -/
structure Config.Clean (s : Config S C α) (t : Nat) : Prop where
  log : ∀ ws, (t, ws) ∉ s.log
  conns : ∀ n ws, s.conns n ≠ some ⟨t, ws, .committing⟩

/-- What a step may do to the commits and connections of all tasks but one. -/
structure Spares (x : Option Nat) (s s' : Config S C α) : Prop where
  log : ∀ e ∈ s'.log, e ∈ s.log ∨ x = some e.1
  conns : ∀ n c', s'.conns n = some c' →
    ∃ c, s.conns n = some c ∧ c.task = c'.task ∧
      (c'.phase = .committing → c = c' ∨ x = some c'.task)

/-- A clean task that is spared stays clean. -/
lemma Spares.clean {x : Option Nat} (h : Spares x s s') (clean : s.Clean t) (other : x ≠ some t) :
    s'.Clean t := by
  constructor
  · intro ws m
    rcases h.log _ m with old | own
    · exact clean.log ws old
    · exact other own
  · intro n ws conn
    obtain ⟨c, old, _, same⟩ := h.conns n _ conn
    rcases same rfl with same | own
    · rw [same] at old
      exact clean.conns n ws old
    · exact other own

/-- Nothing happened. -/
lemma Spares.rfl {x : Option Nat} : Spares x s s :=
  ⟨fun _ m => .inl m, fun _ c conn => ⟨c, conn, .refl _, fun _ => .inl (.refl _)⟩⟩

/-- The task itself does not matter. -/
lemma Spares.setTask {x : Option Nat} {T : Task S C α} (h : Spares x s s') :
    Spares x s (s'.setTask t T) :=
  ⟨h.log, h.conns⟩

/-- One connection is changed. -/
lemma Spares.update {x : Option Nat} {n : Nat} {c' : Option (Conn S)}
    (log : ∀ e ∈ s'.log, e ∈ s.log ∨ x = some e.1)
    (conns : s'.conns = update s.conns n c')
    (one : ∀ d, c' = some d → ∃ c, s.conns n = some c ∧ c.task = d.task ∧
      (d.phase = .committing → c = d ∨ x = some d.task)) :
    Spares x s s' := by
  refine ⟨log, fun m d conn => ?_⟩
  rw [conns] at conn
  by_cases same : m = n
  · subst same
    rw [update_self] at conn
    exact one d conn
  · rw [update_of_ne same] at conn
    exact ⟨d, conn, .refl _, fun _ => .inl (.refl _)⟩

/-- A failure spares every task. -/
lemma Fails.spares {n : Nat} {c' : Option (Conn S)} (h : Fails (s.conns n) c') :
    Spares none s (s.setConn n c') := by
  refine .update (fun _ m => .inl m) (.refl _) fun d same => ?_
  generalize conn : s.conns n = c at h
  cases h with
  | kept => exact ⟨d, same, rfl, fun _ => .inl rfl⟩
  | lost u ws =>
    cases same
    exact ⟨_, rfl, rfl, nofun⟩

/-- Connections belong to their tasks, and a program that has not asked for a commit is clean. -/
structure Tracked (P : C → Bool → α → Prop) (s : Config S C α) : Prop where
  own : ∀ t T n c, s.tasks t = some T → T.conn = some n → s.conns n = some c → c.task = t
  absent : ∀ t, s.tasks t = none → s.Clean t
  present : ∀ t T, s.tasks t = some T → ∃ asked, Tells S (P T.call) asked T.prog ∧
    (asked = false → s.Clean t)

section Track
variable {P : C → Bool → α → Prop} {code : C → Prog I α}

/-- Nothing has ended yet. -/
lemma Tracked.init (w : World S) : Tracked P (Config.init w) :=
  ⟨nofun, fun _ _ => ⟨nofun, nofun⟩, nofun⟩

/-- A request of task `t` is answered. -/
lemma Tracked.answer (h : Tracked P s) {c : C} {b : World S} {op : Op I}
    {next : op.Reply → Prog I α} {n n' : Option Nat}
    {r : op.Reply} {x : Option Nat} (task : s.tasks t = some ⟨c, b, .ask op next, n⟩)
    (allowed : S.Allows op r)
    (tasks : s'.tasks = update s.tasks t (some ⟨c, b, next r, n'⟩)) (spares : Spares x s s')
    (asks : ∀ u, x = some u → u = t ∧ op.commits = true) (conn : n' = n ∨ n' = none) :
    Tracked P s' := by
  have others : ∀ u, u ≠ t → x ≠ some u := fun u ne same => ne (asks u same).1
  constructor
  · intro u U m d here own conn'
    obtain ⟨d', old, same, _⟩ := spares.conns m d conn'
    rw [← same]
    rw [tasks] at here
    by_cases me : u = t
    · subst me
      rw [update_self] at here
      cases here
      rcases conn with same | closed
      · exact h.own u _ m d' task (same ▸ own) old
      · cases closed.symm.trans own
    · rw [update_of_ne me] at here
      exact h.own u U m d' here own old
  · intro u free
    rw [tasks] at free
    by_cases me : u = t
    · subst me
      rw [update_self] at free
      cases free
    · rw [update_of_ne me] at free
      exact spares.clean (h.absent u free) (others u me)
  · intro u U here
    rw [tasks] at here
    by_cases me : u = t
    · subst me
      rw [update_self] at here
      cases here
      obtain ⟨asked, tells, clean⟩ := h.present u _ task
      refine ⟨asked || op.commits, tells r allowed, fun unasked => ?_⟩
      obtain ⟨unasked, no⟩ := Bool.or_eq_false_iff.1 unasked
      refine spares.clean (clean unasked) fun own => ?_
      cases no.symm.trans (asks u own).2
    · rw [update_of_ne me] at here
      obtain ⟨asked, tells, clean⟩ := h.present u U here
      exact ⟨asked, tells, fun unasked => spares.clean (clean unasked) (others u me)⟩

/-- Nothing is answered. -/
lemma Tracked.move (h : Tracked P s) {x : Option Nat} (tasks : s'.tasks = s.tasks)
    (spares : Spares x s s')
    (dirty : ∀ u, x = some u → ¬ s.Clean u) : Tracked P s' := by
  have clean : ∀ u, s.Clean u → s'.Clean u :=
    fun u was => spares.clean was fun same => dirty u same was
  constructor
  · intro u U m d here own conn
    obtain ⟨d', old, same, _⟩ := spares.conns m d conn
    rw [← same]
    exact h.own u U m d' (tasks ▸ here) own old
  · exact fun u free => clean u (h.absent u (tasks ▸ free))
  · intro u U here
    obtain ⟨asked, tells, was⟩ := h.present u U (tasks ▸ here)
    exact ⟨asked, tells, fun unasked => clean u (was unasked)⟩

/-- A call begins. -/
lemma Tracked.spawn (h : Tracked P s) (tells : ∀ c, Tells S (P c) false (code c)) {c : C}
    (free : s.tasks t = none) :
    Tracked P (s.setTask t ⟨c, s.world, code c, none⟩) := by
  constructor
  · intro u U m d here own conn
    by_cases me : u = t
    · subst me
      cases (update_self ..).symm.trans here
      cases own
    · exact h.own u U m d ((update_of_ne me _ _).symm.trans here) own conn
  · intro u none_
    by_cases me : u = t
    · subst me
      cases (update_self ..).symm.trans none_
    · exact ⟨(h.absent u ((update_of_ne me _ _).symm.trans none_)).log,
        (h.absent u ((update_of_ne me _ _).symm.trans none_)).conns⟩
  · intro u U here
    by_cases me : u = t
    · subst me
      cases (update_self ..).symm.trans here
      exact ⟨false, tells c, fun _ => ⟨(h.absent u free).log, (h.absent u free).conns⟩⟩
    · obtain ⟨asked, tells, clean⟩ := h.present u U ((update_of_ne me _ _).symm.trans here)
      exact ⟨asked, tells, fun unasked => ⟨(clean unasked).log, (clean unasked).conns⟩⟩

/-- A task gets a connection. -/
lemma Tracked.connect (h : Tracked P s) {c : C} {b : World S}
    {next : Except Failure Unit → Prog I α} {n : Nat}
    (task : s.tasks t = some ⟨c, b, .ask .connect next, none⟩) (fresh : s.Fresh n) :
    Tracked P ((s.setConn n (some ⟨t, [], .active⟩)).setTask t ⟨c, b, next (.ok ()), some n⟩) := by
  have clean : ∀ u, s.Clean u →
      ((s.setConn n (some ⟨t, [], .active⟩)).setTask t ⟨c, b, next (.ok ()), some n⟩).Clean u := by
    refine fun u was => ⟨was.log, fun m ws conn => ?_⟩
    by_cases new : m = n
    · subst new
      cases (update_self ..).symm.trans conn
    · exact was.conns m ws ((update_of_ne new _ _).symm.trans conn)
  constructor
  · intro u U m d here own conn
    by_cases me : u = t
    · subst me
      cases (update_self ..).symm.trans here
      cases own
      cases (update_self ..).symm.trans conn
      rfl
    · have old : s.tasks u = some U := (update_of_ne me _ _).symm.trans here
      by_cases new : m = n
      · subst new
        exact absurd own (fresh.tasks u U old)
      · exact h.own u U m d old own ((update_of_ne new _ _).symm.trans conn)
  · intro u none_
    by_cases me : u = t
    · subst me
      cases (update_self ..).symm.trans none_
    · exact clean u (h.absent u ((update_of_ne me _ _).symm.trans none_))
  · intro u U here
    by_cases me : u = t
    · subst me
      cases (update_self ..).symm.trans here
      obtain ⟨asked, tells, was⟩ := h.present u _ task
      have now := tells (.ok ()) trivial
      rw [asked_kept rfl] at now
      exact ⟨asked, now, fun unasked => clean u (was unasked)⟩
    · obtain ⟨asked, tells, was⟩ := h.present u U ((update_of_ne me _ _).symm.trans here)
      exact ⟨asked, tells, fun unasked => clean u (was unasked)⟩

/-- What a failed commit may do is the task's own doing. -/
lemma CommitFails.spares {n : Nat} {c' : Option (Conn S)} (h : CommitFails (s.conns n) c')
    (own : ∀ c, s.conns n = some c → c.task = t) : Spares (some t) s (s.setConn n c') := by
  refine .update (fun _ m => .inl m) rfl fun d same => ?_
  generalize conn : s.conns n = c at h
  cases h with
  | fails h =>
    cases h with
    | kept => exact ⟨d, same, rfl, fun _ => .inl rfl⟩
    | lost u ws =>
      cases same
      exact ⟨_, rfl, rfl, nofun⟩
  | underway u ws =>
    cases same
    have mine : u = t := own _ conn
    exact ⟨_, rfl, rfl, fun _ => .inr (congrArg some mine.symm)⟩

/-- Aborting spares every task. -/
lemma spares_abort {n : Nat} {ws : List S.Write} (conn : s.conns n = some ⟨t, ws, .active⟩) :
    Spares none s (s.abort n (some ⟨t, [], .active⟩)) := by
  refine .update (fun _ m => .inl m) rfl fun d same => ?_
  cases same
  exact ⟨_, conn, rfl, nofun⟩

/-- A statement spares every task. -/
lemma spares_run {n : Nat} {ws ws' : List S.Write} {d : S.Db} {ks : List S.Key}
    (conn : s.conns n = some ⟨t, ws, .active⟩) :
    Spares none s (s.run n d ks ⟨t, ws', .active⟩) := by
  refine .update (fun _ m => .inl m) rfl fun d same => ?_
  cases same
  exact ⟨_, conn, rfl, nofun⟩

/-- A lost connection spares every task. -/
lemma spares_drop (n : Nat) : Spares none s (s.abort n none) :=
  .update (fun _ m => .inl m) rfl nofun

/-- A commit spares the others. -/
lemma spares_commit {n : Nat} {ws : List S.Write} {c c' : Option (Conn S)} (conn : s.conns n = c)
    (same : ∀ d, c' = some d → ∃ c₀, c = some c₀ ∧ c₀.task = d.task ∧ d.phase ≠ .committing) :
    Spares (some t) s (s.commit n t ws c') := by
  refine .update ?_ rfl fun d eq => ?_
  · intro e m
    rcases List.mem_append.1 m with old | new
    · exact .inl old
    · cases List.mem_singleton.1 new
      exact .inr rfl
  · obtain ⟨c₀, found, task, active⟩ := same d eq
    exact ⟨c₀, conn.trans found, task, fun phase => absurd phase active⟩

/-- Every step keeps track. -/
lemma Tracked.step (h : Tracked P s) (tells : ∀ c, Tells S (P c) false (code c))
    (step : Step code s s') :
    Tracked P s' := by
  cases step with
  | spawn t c free => exact h.spawn tells free
  | connect n task fresh => exact h.connect task fresh
  | connectFails e spurious task =>
    exact h.answer (x := none) task trivial rfl (Spares.setTask .rfl) nofun (.inl rfl)
  | sql task conn runs free =>
    exact h.answer (x := none) task trivial rfl (spares_run conn).setTask nofun (.inl rfl)
  | sqlFails e spurious task conn =>
    exact h.answer (x := none) task trivial rfl conn.spares.setTask nofun (.inl rfl)
  | sqlAborts e spurious task conn =>
    exact h.answer (x := none) task trivial rfl (spares_abort conn).setTask nofun (.inl rfl)
  | @commit t c b next n ws task conn =>
    have own : ∀ u, some t = some u → u = t ∧ (Op.commit : Op I).commits = true := by
      intro u same
      cases same
      exact ⟨rfl, rfl⟩
    refine h.answer task trivial rfl (spares_commit conn fun d same => ?_).setTask own (.inl rfl)
    cases same
    exact ⟨_, rfl, rfl, nofun⟩
  | @commitFails t c b next n c' e spurious task conn =>
    have own : ∀ u, some t = some u → u = t ∧ (Op.commit : Op I).commits = true := by
      intro u same
      cases same
      exact ⟨rfl, rfl⟩
    have spares := conn.spares fun d found => h.own t _ n d task rfl found
    exact h.answer task trivial rfl spares.setTask own (.inl rfl)
  | commitAborts e spurious task conn =>
    exact h.answer (x := none) task trivial rfl (spares_abort conn).setTask nofun (.inl rfl)
  | rollback task conn =>
    exact h.answer (x := none) task trivial rfl (spares_abort conn).setTask nofun (.inl rfl)
  | rollbackFails e spurious task conn =>
    exact h.answer (x := none) task trivial rfl conn.spares.setTask nofun (.inl rfl)
  | close task conn gone =>
    exact h.answer (x := none) task trivial rfl conn.spares.setTask nofun (.inr rfl)
  | act task acts =>
    exact h.answer (x := none) task ⟨_, _, acts⟩ rfl ⟨Spares.rfl.log, Spares.rfl.conns⟩
      nofun (.inl rfl)
  | drift drifts => exact h.move (x := none) rfl ⟨Spares.rfl.log, Spares.rfl.conns⟩ nofun
  | orphanRollsBack n t ws phase conn gone => exact h.move (x := none) rfl (spares_drop n) nofun
  | orphanCommits n t ws conn =>
    refine h.move rfl (spares_commit (t := t) conn nofun) fun u same clean => ?_
    cases same
    exact clean.conns n ws conn

/-- What the result of a call tells: a call that has not asked for a commit has committed nothing,
and nothing of it will ever be committed. -/
theorem reachable_tracked {w : World S} (tells : ∀ c, Tells S (P c) false (code c))
    (h : Reachable code w s) :
    Tracked P s := by
  induction h with
  | init => exact .init w
  | step _ step ih => exact ih.step tells step

end Track

/-! ### Without a call that has ended -/

/-- A state without task `t`. -/
def Config.forget (s : Config S C α) (t : Nat) : Config S C α :=
  { s with tasks := update s.tasks t none }

section Forget
variable {code : C → Prog I α}

/-- Another task is as before. -/
lemma forget_tasks {u : Nat} (ne : u ≠ t) : (s.forget t).tasks u = s.tasks u := update_of_ne ne ..

/-- Forgetting one task and setting another. -/
lemma forget_setTask {u : Nat} (ne : u ≠ t) (T : Task S C α) :
    (s.setTask u T).forget t = (s.forget t).setTask u T := by
  have comm : update (update s.tasks u (some T)) t none =
      update (update s.tasks t none) u (some T) :=
    update_comm ne ..
  rw [Config.forget, Config.setTask, Config.setTask, Config.forget, comm]

/-- Forgetting keeps connections fresh. -/
lemma Config.Fresh.forget {n : Nat} (h : s.Fresh n) : (s.forget t).Fresh n := by
  refine ⟨h.conn, h.owner, fun u U task => ?_⟩
  by_cases me : u = t
  · subst me
    cases (update_self ..).symm.trans task
  · exact h.tasks u U ((update_of_ne me ..).symm.trans task)

/-- Task `t` has ended. -/
def Config.HasEnded (s : Config S C α) (t : Nat) : Prop :=
  ∃ c b a n, s.tasks t = some ⟨c, b, .ret a, n⟩

/-- A step of the others is a step without a task that has ended. -/
lemma Step.forget (step : Step code s s') (ended : s.HasEnded t) :
    Step code (s.forget t) (s'.forget t) ∧ s'.HasEnded t := by
  obtain ⟨c₀, b₀, a₀, n₀, ended⟩ := ended
  have running : ∀ {u : Nat} {c b op n} {next : Op.Reply op → Prog I α},
      s.tasks u = some ⟨c, b, .ask op next, n⟩ → u ≠ t := by
    intro u c b op n next task same
    rw [same, ended] at task
    cases task
  have stays : ∀ {u : Nat} {T : Task S C α} {s₁ : Config S C α}, u ≠ t → s₁.tasks = s.tasks →
      (s₁.setTask u T).HasEnded t := by
    intro u T s₁ ne same
    exact ⟨c₀, b₀, a₀, n₀, (update_of_ne ne.symm ..).trans ((congrFun same t).trans ended)⟩
  cases step with
  | spawn u c free =>
    have ne : u ≠ t := fun same => by cases (same ▸ free).symm.trans ended
    exact ⟨forget_setTask ne _ ▸ .spawn u c ((forget_tasks ne).trans free), stays ne rfl⟩
  | connect n task fresh =>
    have ne := running task
    exact ⟨forget_setTask ne _ ▸ .connect n ((forget_tasks ne).trans task) fresh.forget,
      stays ne rfl⟩
  | connectFails e spurious task =>
    have ne := running task
    exact ⟨forget_setTask ne _ ▸ .connectFails e spurious ((forget_tasks ne).trans task),
      stays ne rfl⟩
  | sql task conn runs free =>
    have ne := running task
    exact ⟨forget_setTask ne _ ▸ .sql ((forget_tasks ne).trans task) conn runs free, stays ne rfl⟩
  | sqlFails e spurious task conn =>
    have ne := running task
    exact ⟨forget_setTask ne _ ▸ .sqlFails e spurious ((forget_tasks ne).trans task) conn,
      stays ne rfl⟩
  | sqlAborts e spurious task conn =>
    have ne := running task
    exact ⟨forget_setTask ne _ ▸ .sqlAborts e spurious ((forget_tasks ne).trans task) conn,
      stays ne rfl⟩
  | commit task conn =>
    have ne := running task
    exact ⟨forget_setTask ne _ ▸ .commit ((forget_tasks ne).trans task) conn, stays ne rfl⟩
  | commitFails e spurious task conn =>
    have ne := running task
    exact ⟨forget_setTask ne _ ▸ .commitFails e spurious ((forget_tasks ne).trans task) conn,
      stays ne rfl⟩
  | commitAborts e spurious task conn =>
    have ne := running task
    exact ⟨forget_setTask ne _ ▸ .commitAborts e spurious ((forget_tasks ne).trans task) conn,
      stays ne rfl⟩
  | rollback task conn =>
    have ne := running task
    exact ⟨forget_setTask ne _ ▸ .rollback ((forget_tasks ne).trans task) conn, stays ne rfl⟩
  | rollbackFails e spurious task conn =>
    have ne := running task
    exact ⟨forget_setTask ne _ ▸ .rollbackFails e spurious ((forget_tasks ne).trans task) conn,
      stays ne rfl⟩
  | close task conn gone =>
    have ne := running task
    exact ⟨forget_setTask ne _ ▸ .close ((forget_tasks ne).trans task) conn gone, stays ne rfl⟩
  | act task acts =>
    have ne := running task
    exact ⟨forget_setTask ne _ ▸ .act ((forget_tasks ne).trans task) acts, stays ne rfl⟩
  | drift drifts => exact ⟨.drift drifts, c₀, b₀, a₀, n₀, ended⟩
  | orphanRollsBack n u ws phase conn gone =>
    exact ⟨.orphanRollsBack n u ws phase conn gone, c₀, b₀, a₀, n₀, ended⟩
  | orphanCommits n u ws conn => exact ⟨.orphanCommits n u ws conn, c₀, b₀, a₀, n₀, ended⟩

/-- What follows a call that has ended follows without it. -/
lemma Steps.forget (steps : Steps code s s') (ended : s.HasEnded t) :
    Steps code (s.forget t) (s'.forget t) := by
  have both : Steps code (s.forget t) (s'.forget t) ∧ s'.HasEnded t := by
    induction steps with
    | refl => exact ⟨.refl, ended⟩
    | tail _ last ih =>
      obtain ⟨step, ended⟩ := last.forget ih.2
      exact ⟨.tail ih.1 step, ended⟩
  exact both.1

/-- The log goes on. -/
lemma Step.log (step : Step code s s') : s.log <+: s'.log := by
  cases step with
  | commit task conn => exact List.prefix_append ..
  | orphanCommits n t ws conn => exact List.prefix_append ..
  | _ => exact List.prefix_rfl

/-- The log only grows. -/
lemma Steps.log (steps : Steps code s s') : s.log <+: s'.log := by
  induction steps with
  | refl => exact List.prefix_rfl
  | tail _ last ih => exact ih.trans last.log

/-- Where statements do not change the data, the commits do. -/
lemma Steps.replay (still : ∀ {q d ws r d' ks ws'}, S.runs q d ws r d' ks ws' → d' = d)
    {log : List (Nat × List S.Write)}
    (steps : Steps code s s') (logged : s'.log = s.log ++ log) :
    s'.world.db = S.commit s.world.db (log.flatMap Prod.snd) := by
  induction steps generalizing log with
  | refl =>
    cases List.self_eq_append_right.1 logged
    rfl
  | @tail s₁ s₂ steps last ih =>
    obtain ⟨log₁, logged₁⟩ := Steps.log steps
    have same : s₂.log = s₁.log → s₂.world.db = s₁.world.db →
        s₂.world.db = S.commit s.world.db (log.flatMap Prod.snd) := by
      intro log db
      rw [db]
      exact ih (log.symm.trans logged)
    have more : ∀ t ws, s₂.log = s₁.log ++ [(t, ws)] → s₂.world.db = S.commit s₁.world.db ws →
        s₂.world.db = S.commit s.world.db (log.flatMap Prod.snd) := by
      intro t ws log db
      rw [← logged₁, logged, List.append_assoc] at log
      rw [db, ih logged₁.symm, List.append_cancel_left log, List.flatMap_append, Server.commit,
        Server.commit, Server.commit, List.flatMap_singleton, List.foldl_append]
    cases last with
    | sql task conn runs free => exact same rfl (still runs)
    | commit task conn => exact more _ _ rfl rfl
    | orphanCommits n t ws conn => exact more _ _ rfl rfl
    | _ => exact same rfl rfl

/-- Task `t` asks for a commit. -/
def Config.Asks (s : Config S C α) (t : Nat) : Prop :=
  ∃ c b next n, s.tasks t = some ⟨c, b, .ask .commit next, n⟩

/-- A task that does not ask for a commit stays clean. -/
lemma Step.clean (step : Step code s s') (own : ∀ t T n c, s.tasks t = some T → T.conn = some n →
    s.conns n = some c → c.task = t)
    (clean : s.Clean t) (quiet : ¬ s.Asks t) : s'.Clean t := by
  have other : ∀ {u c b next n}, s.tasks u = some ⟨c, b, .ask .commit next, n⟩ →
      some u ≠ some t := by
    intro u c b next n task same
    cases same
    exact quiet ⟨c, b, next, n, task⟩
  have none_ : (none : Option Nat) ≠ some t := nofun
  cases step with
  | spawn u c free => exact ⟨clean.log, clean.conns⟩
  | @connect u c b next n task fresh =>
    refine ⟨clean.log, fun m ws conn => ?_⟩
    by_cases new : m = n
    · subst new
      cases (update_self ..).symm.trans conn
    · exact clean.conns m ws ((update_of_ne new _ _).symm.trans conn)
  | connectFails e spurious task => exact ⟨clean.log, clean.conns⟩
  | sql task conn runs free => exact (spares_run conn).setTask.clean clean none_
  | sqlFails e spurious task conn => exact conn.spares.setTask.clean clean none_
  | sqlAborts e spurious task conn => exact (spares_abort conn).setTask.clean clean none_
  | commit task conn =>
    refine (spares_commit conn fun d same => ?_).setTask.clean clean (other task)
    cases same
    exact ⟨_, rfl, rfl, nofun⟩
  | commitFails e spurious task conn =>
    exact (conn.spares fun d found => own _ _ _ d task rfl found).setTask.clean clean (other task)
  | commitAborts e spurious task conn => exact (spares_abort conn).setTask.clean clean none_
  | rollback task conn => exact (spares_abort conn).setTask.clean clean none_
  | rollbackFails e spurious task conn => exact conn.spares.setTask.clean clean none_
  | close task conn gone => exact conn.spares.setTask.clean clean none_
  | act task acts => exact ⟨clean.log, clean.conns⟩
  | drift drifts => exact ⟨clean.log, clean.conns⟩
  | orphanRollsBack n u ws phase conn gone => exact (spares_drop n).clean clean none_
  | orphanCommits n u ws conn =>
    have spares : Spares (some u) s (s.commit n u ws none) := spares_commit conn nofun
    refine spares.clean clean fun same => ?_
    cases same
    exact clean.conns n ws conn

/-- Steps in which task `t` does not ask for a commit. -/
abbrev Quietly (code : C → Prog I α) (t : Nat) : Config S C α → Config S C α → Prop :=
  ReflTransGen fun s s' => Step code s s' ∧ ¬ s.Asks t

/-- Quiet steps are steps. -/
lemma Quietly.steps (quietly : Quietly code t s s') : Steps code s s' := by
  induction quietly with
  | refl => exact .refl
  | tail _ last ih => exact .tail ih last.1

/-- Quiet steps keep a clean task clean. -/
lemma Quietly.clean {w : World S} (reach : Reachable code w s) (clean : s.Clean t)
    (quietly : Quietly code t s s') :
    s'.Clean t := by
  induction quietly with
  | refl => exact clean
  | tail before last ih =>
    have tracked :=
      reachable_tracked (P := fun _ _ _ => True) (fun _ => tells_of_all fun _ _ => trivial)
      (Steps.reachable reach (Quietly.steps before))
    exact last.1.clean tracked.own ih last.2

/-- A call that has ended asks for nothing. -/
lemma Steps.quietly (steps : Steps code s s') (ended : s.HasEnded t) : Quietly code t s s' := by
  have both : Quietly code t s s' ∧ s'.HasEnded t := by
    induction steps with
    | refl => exact ⟨.refl, ended⟩
    | tail _ last ih =>
      refine ⟨.tail ih.1 ⟨last, fun asks => ?_⟩, (last.forget ih.2).2⟩
      obtain ⟨_, _, _, _, task⟩ := asks
      obtain ⟨_, _, _, _, done⟩ := ih.2
      cases task.symm.trans done
  exact both.1

/-- The call `t`, which began after `s` and has ended in `s'`, has done nothing, and might as well
not have been made. -/
structure Undone (code : C → Prog I α) (t : Nat) (s s' : Config S C α) : Prop where
  never : ∀ s'', Steps code s' s'' → ∀ ws, (t, ws) ∉ s''.log
  same : ∀ log, s'.log = s.log ++ log → (∀ e ∈ log, e.1 = t) → s'.world.db = s.world.db
  next : s.Idle → s'.Idle → s'.log = s.log → s'.world = s.world →
    (∀ u, u ≠ t → s'.tasks u = s.tasks u) → ∀ s'', Steps code s' s'' → Steps code s (s''.forget t)

/-- A call that leaves no commit behind is undone. -/
theorem undone_of_clean (still : ∀ {q d ws r d' ks ws'}, S.runs q d ws r d' ks ws' → d' = d)
    {w : World S}
    (reach : Reachable code w s) (free : s.tasks t = none) (steps : Steps code s s')
    (ended : s'.HasEnded t)
    (clean : s'.Clean t) : Undone code t s s' where
  never s'' after :=
    (Quietly.clean (Steps.reachable reach steps) clean (Steps.quietly after ended)).log
  same log logged own := by
    have none_ : log = [] := by
      refine List.eq_nil_iff_forall_not_mem.2 fun e m => clean.log e.2 ?_
      rw [logged, ← own e m]
      exact List.mem_append_right _ m
    rw [Steps.replay still steps logged, none_]
    rfl
  next idle idle' log world others s'' after := by
    have forgotten : s'.forget t = s := by
      have owner : s'.owner = s.owner := funext fun k => (idle'.owner k).trans (idle.owner k).symm
      have conns : s'.conns = s.conns := funext fun n => (idle'.conns n).trans (idle.conns n).symm
      have tasks : update s'.tasks t none = s.tasks := by
        funext u
        by_cases me : u = t
        · rw [me, update_self, free]
        · rw [update_of_ne me, others u me]
      rw [Config.forget, tasks]
      cases s
      cases s'
      simp_all
    rw [← forgotten]
    exact Steps.forget after ended

end Forget

end DbLab.Store
