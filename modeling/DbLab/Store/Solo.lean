import DbLab.Store.Engine

/-!
# Calls that run alone

The run of a program while no other runs and no request fails, computed. Where it is computed, the
system reaches a state in which the call has ended, so that runs of the whole system can be given by
evaluation.
-/

namespace DbLab.Store
open Function

variable {I : Interface} {S : Server I} {C α : Type} {σ : Type}

/-- One reply for each statement and each action, among those that the server allows. -/
structure Oracle (S : Server I) (σ : Type) where
  eval (q : I.Query) (d : S.Db) (ws : List S.Write) : Except Failure (I.Rows q) × S.Db × List S.Key
    × List S.Write
  act (x : I.Action) : S.Env → σ → I.Outcome x × S.Env × σ
  runs : ∀ q d ws, S.runs q d ws (eval q d ws).1 (eval q d ws).2.1 (eval q d ws).2.2.1
    (eval q d ws).2.2.2
  acts : ∀ x e r, S.acts x e (act x e r).1 (act x e r).2.1

/-- What a program that runs alone returns, the world it leaves and its commits. The transaction, if
there is one, has the writes `ws`. -/
def Oracle.solo (O : Oracle S σ) : Prog I α → σ → Option (List S.Write) → World S →
    Option (α × World S × List (List S.Write))
  | .ret a, _, none, w => some (a, w, [])
  | .ask .connect next, r, none, w => solo O (next (.ok ())) r (some []) w
  | .ask (.sql q) next, r, some ws, w =>
    let e := O.eval q w.db ws
    solo O (next e.1) r (some (ws ++ e.2.2.2)) { w with db := e.2.1 }
  | .ask .commit next, r, some ws, w =>
    (solo O (next (.ok ())) r (some []) (w.commit ws)).map fun x => (x.1, x.2.1, ws :: x.2.2)
  | .ask .rollback next, r, some _, w => solo O (next (.ok ())) r (some []) w
  | .ask .close next, r, some _, w => solo O (next ()) r none w
  | .ask (.act x) next, r, m, w =>
    let e := O.act x w.env r
    solo O (next e.1) e.2.2 m { w with env := e.2.1 }
  | _, _, _, _ => none

namespace Config
variable {s s' : Config S C α} {t : Nat}

/-- Only task `t` has a connection, if any, and its number is 0. -/
structure Alone (s : Config S C α) (t : Nat) (m : Option (List S.Write)) : Prop where
  conns : ∀ n, s.conns n = if n = 0 then m.map fun ws => ⟨t, ws, .active⟩ else none
  owner : ∀ k n, s.owner k = some n → n = 0 ∧ m ≠ none
  tasks : ∀ t' T, t' ≠ t → s.tasks t' = some T → T.conn = none

/-- The connection of a task alone. -/
lemma Alone.conn {ws : List S.Write} (h : s.Alone t (some ws)) :
    s.conns 0 = some ⟨t, ws, .active⟩ := by
  rw [h.conns, if_pos rfl]
  rfl

/-- Every lock is free to it. -/
lemma Alone.free {ws : List S.Write} (h : s.Alone t (some ws)) (k : S.Key) :
    s.owner k = none ∨ s.owner k = some 0 := by
  cases owned : s.owner k with
  | none => exact .inl rfl
  | some n =>
    obtain ⟨rfl, _⟩ := h.owner k n owned
    exact .inr rfl

/-- The task itself does not matter. -/
lemma Alone.setTask {m : Option (List S.Write)} {T : Task S C α} (h : s.Alone t m) :
    (s.setTask t T).Alone t m := by
  refine ⟨h.conns, h.owner, fun t' T' ne task => h.tasks t' T' ne ?_⟩
  exact (update_of_ne ne _ _).symm.trans task

/-- Connection 0 becomes another one. -/
lemma Alone.conns_update {m : Option (List S.Write)} (h : s.Alone t m)
    {c : Option (Conn S)} (n : Nat) :
    update s.conns 0 c n = if n = 0 then c else none := by
  by_cases zero : n = 0
  · rw [zero, update_self, if_pos rfl]
  · rw [update_of_ne zero, h.conns, if_neg zero, if_neg zero]

/-- A task alone connects. -/
lemma Alone.connect (h : s.Alone t none) :
    (s.setConn 0 (some ⟨t, [], .active⟩)).Alone t (some []) :=
  ⟨fun n => h.conns_update n, fun k n owned => absurd rfl (h.owner k n owned).2, h.tasks⟩

/-- The connection of a task alone is fresh. -/
lemma Alone.fresh (h : s.Alone t none) (own : ∀ T, s.tasks t = some T → T.conn = none) :
    s.Fresh 0 := by
  refine ⟨h.conns 0, fun k owned => (h.owner k 0 owned).2 rfl, fun t' T task conn => ?_⟩
  have closed : T.conn = none := by
    by_cases same : t' = t
    · exact own T (same ▸ task)
    · exact h.tasks t' T same task
  cases closed.symm.trans conn

/-- A task alone runs a statement. -/
lemma Alone.run {ws ws' : List S.Write} (h : s.Alone t (some ws)) (d : S.Db) (ks : List S.Key) :
    (s.run 0 d ks ⟨t, ws', .active⟩).Alone t (some ws') := by
  refine ⟨fun n => h.conns_update n, fun k n owned => ?_, h.tasks⟩
  rw [Config.run] at owned
  dsimp only [acquire] at owned
  split at owned
  · cases owned
    exact ⟨rfl, by simp⟩
  · exact ⟨(h.owner k n owned).1, by simp⟩

/-- No lock is left behind. -/
lemma Alone.released {m : Option (List S.Write)} (h : s.Alone t m) (k : S.Key) :
    release s.owner 0 k = none := by
  rw [release]
  split
  · rfl
  · cases owned : s.owner k with
    | none => rfl
    | some n =>
      obtain ⟨rfl, _⟩ := h.owner k n owned
      contradiction

/-- A task alone commits. -/
lemma Alone.commit {ws ws' : List S.Write} (h : s.Alone t (some ws)) :
    (s.commit 0 t ws' (some ⟨t, [], .active⟩)).Alone t (some []) :=
  ⟨fun n => h.conns_update n, fun k _ owned => (nomatch (h.released k).symm.trans owned), h.tasks⟩

/-- A task alone rolls back. -/
lemma Alone.abort {ws : List S.Write} (h : s.Alone t (some ws)) :
    (s.abort 0 (some ⟨t, [], .active⟩)).Alone t (some []) :=
  ⟨fun n => h.conns_update n, fun k _ owned => (nomatch (h.released k).symm.trans owned), h.tasks⟩

/-- A connection is closed, and the server rolls back what it left. -/
lemma Alone.close {m : Option (List S.Write)} {T : Task S C α} {c : Option (Conn S)}
    (h : s.Alone t m) :
    (((s.setConn 0 c).setTask t T).abort 0 none).Alone t none := by
  have closed : ∀ n, update (update s.conns 0 c) 0 none n = if n = 0 then none else none := by
    intro n
    rw [update_idem]
    exact h.conns_update n
  exact ⟨closed, fun k _ owned => (nomatch (h.released k).symm.trans owned), h.setTask.tasks⟩

end Config

/-- A call that can be run alone to its end can do so as part of a run of the system. -/
theorem Oracle.solo_steps (O : Oracle S σ) {code : C → Prog I α} {w : World S} {t : Nat} {c : C}
    {b : World S}
    {a : α} {log : List (List S.Write)} (p : Prog I α) {r : σ} {m : Option (List S.Write)}
    {s₀ s : Config S C α}
    (steps : Steps code s₀ s) (task : s.tasks t = some ⟨c, b, p, m.map fun _ => 0⟩)
    (alone : s.Alone t m)
    (run : O.solo p r m s.world = some (a, w, log)) :
    ∃ s', Steps code s₀ s' ∧ s'.Alone t none ∧ s'.world = w ∧
      s'.tasks = update s.tasks t (some ⟨c, b, .ret a, none⟩) ∧
        s'.log = s.log ++ log.map (t, ·) := by
  induction p generalizing r m s w log with
  | ret a' =>
    cases m with
    | some ws => cases run
    | none =>
      cases run
      refine ⟨s, steps, alone, rfl, ?_, (List.append_nil _).symm⟩
      exact (update_eq_self t s.tasks).symm.trans (congrArg (update s.tasks t) task)
  | ask op next ih =>
    -- What is left to do after a step to `s₁`, whose task runs on.
    have go : ∀ {s₁ : Config S C α} {x : op.Reply} {r m log log₁}, Steps code s₀ s₁ →
        s₁.tasks = update s.tasks t (some ⟨c, b, next x, m.map fun _ => 0⟩) →
        s₁.log = s.log ++ log₁.map (t, ·) → s₁.Alone t m →
          O.solo (next x) r m s₁.world = some (a, w, log) →
        ∃ s', Steps code s₀ s' ∧ s'.Alone t none ∧ s'.world = w ∧
          s'.tasks = update s.tasks t (some ⟨c, b, .ret a, none⟩) ∧
            s'.log = s.log ++ (log₁ ++ log).map (t, ·) := by
      intro s₁ x r m log log₁ steps₁ tasks logged alone₁ run
      obtain ⟨s', steps', alone', world, tasks', logged'⟩ :=
        ih x steps₁ (by rw [tasks, update_self]) alone₁ run
      refine ⟨s', steps', alone', world, by rw [tasks', tasks, update_idem], ?_⟩
      rw [logged', logged, List.map_append, List.append_assoc]
    have quiet : s.log = s.log ++ ([] : List (List S.Write)).map (t, ·) := (List.append_nil _).symm
    cases op with
    | connect =>
      cases m with
      | some ws => cases run
      | none =>
        have fresh := alone.fresh fun T same => by cases task.symm.trans same; rfl
        have step := steps.tail (.connect 0 task fresh)
        exact go step rfl quiet alone.connect.setTask run
    | sql q =>
      cases m with
      | none => cases run
      | some ws =>
        have step :=
          steps.tail (.sql task alone.conn (O.runs q s.world.db ws) fun k _ => alone.free k)
        exact go step rfl quiet (alone.run _ _).setTask run
    | commit =>
      cases m with
      | none => cases run
      | some ws =>
        obtain ⟨⟨_, _, log'⟩, rest, e⟩ := Option.map_eq_some_iff.1 run
        cases e
        have step := steps.tail (.commit task alone.conn)
        have logged : s.log ++ [(t, ws)] = s.log ++ [ws].map (t, ·) := rfl
        exact go step rfl logged alone.commit.setTask rest
    | rollback =>
      cases m with
      | none => cases run
      | some ws =>
        have step := steps.tail (.rollback task alone.conn)
        exact go step rfl quiet alone.abort.setTask run
    | close =>
      cases m with
      | none => cases run
      | some ws =>
        have lost : Fails (s.conns 0) (some ⟨t, ws, .dead⟩) := alone.conn ▸ .lost t ws
        have closed := steps.tail (.close task lost nofun)
        have step := closed.tail (.orphanRollsBack 0 t ws .dead (alone.conns_update 0) nofun)
        exact go step rfl quiet alone.close run
    | act x =>
      have step := steps.tail (.act task (O.acts x s.world.env r))
      exact go (m := m) step rfl quiet ⟨alone.conns, alone.owner, alone.setTask.tasks⟩ run

/-- Nothing runs. -/
structure Config.Idle (s : Config S C α) : Prop where
  conns : ∀ n, s.conns n = none
  owner : ∀ k, s.owner k = none
  tasks : ∀ t T, s.tasks t = some T → T.conn = none

/-- Nothing runs at first. -/
lemma Config.init_idle (w : World S) : (Config.init w : Config S C α).Idle :=
  ⟨fun _ => rfl, fun _ => rfl, nofun⟩

/-- In an idle state a call can be run alone. -/
theorem Oracle.solo_idle (O : Oracle S σ) {code : C → Prog I α} {w : World S} {s : Config S C α}
    {t : Nat} {c : C}
    {r : σ} {a : α} {log : List (List S.Write)} (idle : s.Idle)
    (free : s.tasks t = none) (run : O.solo (code c) r none s.world = some (a, w, log)) :
    ∃ s', Steps code s s' ∧ s'.Idle ∧ s'.world = w ∧
      s'.tasks = update s.tasks t (some ⟨c, s.world, .ret a, none⟩) ∧
        s'.log = s.log ++ log.map (t, ·) := by
  have spawned : (s.setTask t ⟨c, s.world, code c, none⟩).tasks t =
      some ⟨c, s.world, code c, none⟩ :=
    update_self ..
  have alone : (s.setTask t ⟨c, s.world, code c, none⟩).Alone t none := by
    refine Config.Alone.setTask ⟨fun n => ?_, fun k n owned => ?_,
      fun t' T _ task => idle.tasks t' T task⟩
    · rw [idle.conns]
      split <;> rfl
    · cases (idle.owner k).symm.trans owned
  obtain ⟨s', steps, alone', world, tasks, logged⟩ :=
    O.solo_steps (code c) (.single (.spawn t c free)) spawned alone run
  have tasks' : s'.tasks = update s.tasks t (some ⟨c, s.world, .ret a, none⟩) :=
    tasks.trans (update_idem ..)
  refine ⟨s', steps, ⟨fun n => ?_, fun k => ?_, fun t' T task => ?_⟩, world, tasks', logged⟩
  · rw [alone'.conns]
    split <;> rfl
  · cases owned : s'.owner k with
    | none => rfl
    | some n => exact absurd rfl (alone'.owner k n owned).2
  · by_cases same : t' = t
    · rw [tasks', same, update_self] at task
      cases task
      rfl
    · exact alone'.tasks t' T same task

/-- What can be reached goes on with a call that runs alone. -/
theorem Oracle.solo_call (O : Oracle S σ) {code : C → Prog I α} {w₀ w : World S} {s : Config S C α}
    {t : Nat} {c : C}
    {r : σ} {a : α} {log : List (List S.Write)} (reach : Reachable code w₀ s) (idle : s.Idle)
    (free : s.tasks t = none) (run : O.solo (code c) r none s.world = some (a, w, log)) :
    ∃ s', Reachable code w₀ s' ∧ s'.Idle ∧ s'.world = w ∧
      s'.tasks = update s.tasks t (some ⟨c, s.world, .ret a, none⟩) ∧
        s'.log = s.log ++ log.map (t, ·) := by
  obtain ⟨s', steps, rest⟩ := O.solo_idle idle free run
  exact ⟨s', Steps.reachable reach steps, rest⟩

end DbLab.Store
