import DbLab.Store.Hoare

/-!
# Verified programs run together

If every program of a system is verified, then in every reachable state the invariant holds, every
call that has ended has its postcondition, and every commit has earned its marks. The proof carries,
for each call, a place in its verification that fits the state: the locks it relies on are its own,
and what it read under them is still there.
-/

namespace DbLab.Store
open Function

variable {I : Interface} {S : Server I} {C α : Type}

/-- The programs of a system are verified, and what commits earn lasts. -/
structure Verified (P : Contract S) (code : C → Prog I α) (marks : C → World S → Marks S)
    (post : C → World S → α → List (List S.Write) → World S → Prop) : Prop where
  code : ∀ c b, P.Inv b → P.wp (marks c b) (fun a l => post c b a l.done l.view) (code c)
    ⟨.closed, b, []⟩
  stable : ∀ {c b ws w w'}, P.Inv w → P.Guar w w' → (marks c b).after ws w → (marks c b).after ws w'

/-- Connection `n` has the locks, and they cover its writes. -/
structure Config.Holds (s : Config S C α) (n : Nat) (held : List (S.Key × S.Val))
    (ws : List S.Write) :
    Prop where
  owner : ∀ e ∈ held, s.owner e.1 = some n
  covers : ∀ w ∈ ws, ∀ k ∈ S.touched w, ∃ e ∈ held, e.1 = k

/-- The connection of task `t` is as its program believes. -/
def Config.Serves (s : Config S C α) (t : Nat) : Mode S → Option Nat → Prop
  | .closed, o => o = none
  | .live held ws, o => ∃ n, o = some n ∧ s.conns n = some ⟨t, ws, .active⟩ ∧ s.Holds n held ws
  | .failed, o => o ≠ none

section Sound
variable (P : Contract S) (marks : C → World S → Marks S)
  (post : C → World S → α → List (List S.Write) → World S → Prop)

/-- A task stands at a place of its verification. -/
structure TaskOk (s : Config S C α) (t : Nat) (T : Task S C α) (l : Local S) : Prop where
  wp : P.wp (marks T.call T.born) (fun a l => post T.call T.born a l.done l.view) T.prog l
  sees : P.Sees l.mode.held l.view s.world
  serves : s.Serves t l.mode T.conn
  done : ∀ ws ∈ l.done, (t, ws) ∈ s.log

/-- A commit on its way may still take effect. -/
structure OrphanOk (s : Config S C α) (n t : Nat) (ws : List S.Write) (T : Task S C α)
    (held : List (S.Key × S.Val)) (v : World S) : Prop where
  task : s.tasks t = some T
  sees : P.Sees held v s.world
  holds : s.Holds n held ws
  commits : ∀ w, P.Sees held v w → P.Commits (marks T.call T.born) ws w

/-- A commit of the history has earned its mark. -/
def Earned (s : Config S C α) (e : Nat × List S.Write) : Prop :=
  ∃ T, s.tasks e.1 = some T ∧ (marks T.call T.born).after e.2 s.world

/-- When a later commit was made, the mark of an earlier one was there. -/
def Follows (s : Config S C α) (e e' : Nat × List S.Write) : Prop :=
  ∃ T T' w, s.tasks e.1 = some T ∧ s.tasks e'.1 = some T' ∧ P.Inv w ∧
    (marks T.call T.born).after e.2 w ∧ (marks T'.call T'.born).before e'.2 w

/-- The invariant of the whole system. -/
structure Sound (s : Config S C α) : Prop where
  inv : P.Inv s.world
  born : ∀ t T, s.tasks t = some T → P.Inv T.born ∧ P.Guar T.born s.world
  tasks : ∀ t T, s.tasks t = some T → ∃ l, TaskOk P marks post s t T l
  distinct : ∀ t t' T T' n, s.tasks t = some T → s.tasks t' = some T' → T.conn = some n →
    T'.conn = some n → t = t'
  orphans : ∀ n t ws, s.conns n = some ⟨t, ws, .committing⟩ →
    ∃ T held v, OrphanOk P marks s n t ws T held v
  earned : ∀ e ∈ s.log, Earned marks s e
  follows : s.log.Pairwise (Follows P marks s)

/-- A step that leaves all connections but `o` alone. -/
structure Apart (o : Option Nat) (s s' : Config S C α) : Prop where
  inv : P.Inv s'.world
  guar : P.Guar s.world s'.world
  conns : ∀ n, o ≠ some n → s'.conns n = s.conns n
  owner : ∀ n k, o ≠ some n → s.owner k = some n → s'.owner k = some n
  read : ∀ n k, o ≠ some n → s.owner k = some n → S.read s'.world.db k = S.read s.world.db k
  log : ∀ e ∈ s.log, e ∈ s'.log

/-- Tasks stay what they are. -/
def Kept (s s' : Config S C α) : Prop :=
  ∀ t T, s.tasks t = some T → ∃ T', s'.tasks t = some T' ∧ T'.call = T.call ∧ T'.born = T.born

/-- A step commits nothing, or one transaction whose marks are earned. -/
def Logs (s s' : Config S C α) : Prop :=
  s'.log = s.log ∨ ∃ t ws T, s'.log = s.log ++ [(t, ws)] ∧ s.tasks t = some T ∧
    (marks T.call T.born).before ws s.world ∧ (marks T.call T.born).after ws s'.world

end Sound

variable {P : Contract S} {code : C → Prog I α} {marks : C → World S → Marks S}
  {post : C → World S → α → List (List S.Write) → World S →
    Prop} {s s' : Config S C α} {o : Option Nat}

/-- What another connection holds it still holds. -/
lemma Apart.holds (a : Apart P o s s') {n : Nat} {held : List (S.Key × S.Val)} {ws : List S.Write}
    (ne : o ≠ some n) (h : s.Holds n held ws) : s'.Holds n held ws :=
  ⟨fun e m => a.owner n e.1 ne (h.owner e m), h.covers⟩

/-- What is read under the locks of others stays. -/
lemma Apart.sees (a : Apart P o s s') {n : Nat} {held : List (S.Key × S.Val)} {v : World S}
    (ne : o ≠ some n) (owner : ∀ e ∈ held, s.owner e.1 = some n) (h : P.Sees held v s.world) :
    P.Sees held v s'.world where
  inv := a.inv
  guar := P.trans h.guar a.guar
  read := fun e m => (a.read n e.1 ne (owner e m)).trans (h.read e m)

/-- Another task is as sound as before. -/
lemma Apart.task (a : Apart P o s s') {t : Nat} {T : Task S C α} {l : Local S}
    (quiet : ∀ n, o = some n → T.conn = some n → ∀ ws, s.conns n ≠ some ⟨t, ws, .active⟩)
    (h : TaskOk P marks post s t T l) : TaskOk P marks post s' t T l := by
  have done : ∀ ws ∈ l.done, (t, ws) ∈ s'.log := fun ws m => a.log _ (h.done ws m)
  have unlocked : l.mode.held = [] → P.Sees l.mode.held l.view s'.world := by
    intro none
    rw [none]
    exact ⟨a.inv, P.trans h.sees.guar a.guar, nofun⟩
  obtain ⟨wp, sees, serves, _⟩ := h
  obtain ⟨m, v, d⟩ := l
  cases m with
  | closed => exact ⟨wp, unlocked rfl, serves, done⟩
  | live held ws =>
    obtain ⟨n, conn, active, holds⟩ := serves
    have ne : o ≠ some n := fun e => quiet n e conn ws active
    exact ⟨wp, a.sees ne holds.owner sees,
      ⟨n, conn, (a.conns n ne).trans active, a.holds ne holds⟩, done⟩
  | failed => exact ⟨wp, unlocked rfl, serves, done⟩

/-- An orphaned connection is as sound as before. -/
lemma Apart.orphan (a : Apart P o s s') (kept : Kept s s') {n t : Nat} {ws : List S.Write}
    (ne : o ≠ some n)
    (h : ∃ T held v, OrphanOk P marks s n t ws T held v) :
    ∃ T held v, OrphanOk P marks s' n t ws T held v := by
  obtain ⟨T, held, v, task, sees, holds, commits⟩ := h
  obtain ⟨T', task', call, born⟩ := kept t T task
  refine ⟨T', held, v, task', a.sees ne holds.owner sees, a.holds ne holds, ?_⟩
  rw [call, born]
  exact commits

/-- The history stays earned. -/
lemma Sound.history (h : Sound P marks post s) (ver : Verified P code marks post)
    (a : Apart P o s s')
    (kept : Kept s s') (logs : Logs marks s s') :
    (∀ e ∈ s'.log, Earned marks s' e) ∧ s'.log.Pairwise (Follows P marks s') := by
  have earned : ∀ e ∈ s.log, Earned marks s' e := by
    intro e m
    obtain ⟨T, task, after⟩ := h.earned e m
    obtain ⟨T', task', call, born⟩ := kept _ T task
    refine ⟨T', task', ?_⟩
    rw [call, born]
    exact ver.stable h.inv a.guar after
  have follows : s.log.Pairwise (Follows P marks s') := by
    refine h.follows.imp ?_
    rintro e e' ⟨T, T', w, task, task', inv, after, before⟩
    obtain ⟨U, utask, call, born⟩ := kept _ T task
    obtain ⟨U', utask', call', born'⟩ := kept _ T' task'
    refine ⟨U, U', w, utask, utask', inv, ?_, ?_⟩
    · rw [call, born]
      exact after
    · rw [call', born']
      exact before
  rcases logs with same | ⟨t, ws, T, log, task, before, after⟩
  · rw [same]
    exact ⟨earned, follows⟩
  · obtain ⟨T', task', call, born⟩ := kept _ T task
    rw [← call, ← born] at before after
    rw [log]
    refine ⟨?_, ?_⟩
    · intro e m
      rcases List.mem_append.1 m with old | new
      · exact earned e old
      · rw [List.mem_singleton] at new
        subst new
        exact ⟨T', task', after⟩
    · refine List.pairwise_append.2 ⟨follows, List.pairwise_singleton .., ?_⟩
      intro e m e' m'
      rw [List.mem_singleton] at m'
      subst m'
      obtain ⟨U, utask, mark⟩ := h.earned e m
      obtain ⟨U', utask', call', born'⟩ := kept _ U utask
      rw [← call', ← born'] at mark
      exact ⟨U', T', s.world, utask', task', h.inv, mark, before⟩

/-- A task that moves on, in a step that leaves the connections of all other tasks alone. -/
lemma Sound.advance (h : Sound P marks post s) (ver : Verified P code marks post) {t : Nat}
    {T' : Task S C α}
    (a : Apart P o s s') (tasks : s'.tasks = update s.tasks t (some T'))
    (same : ∀ T, s.tasks t = some T → T'.call = T.call ∧ T'.born = T.born)
    (born : P.Inv T'.born ∧ P.Guar T'.born s'.world)
    (alone : ∀ n, o = some n ∨ T'.conn = some n → ∀ t₂ T₂, t₂ ≠ t → s.tasks t₂ = some T₂ →
      T₂.conn ≠ some n)
    (ok : ∃ l, TaskOk P marks post s' t T' l)
    (orphan : ∀ n t ws, o = some n → s'.conns n = some ⟨t, ws, .committing⟩ →
      ∃ T held v, OrphanOk P marks s' n t ws T held v)
    (logs : Logs marks s s') : Sound P marks post s' := by
  have mine : ∀ T, s'.tasks t = some T → T = T' := by
    intro T task
    rw [tasks, update_self] at task
    exact (Option.some.inj task).symm
  have other : ∀ {t₂ T₂}, t₂ ≠ t → s'.tasks t₂ = some T₂ → s.tasks t₂ = some T₂ := by
    intro t₂ T₂ ne task
    rwa [tasks, update_of_ne ne] at task
  have kept : Kept s s' := by
    intro t₂ T task
    by_cases e : t₂ = t
    · subst e
      exact ⟨T', by rw [tasks, update_self], same T task⟩
    · exact ⟨T, by rw [tasks, update_of_ne e, task], rfl, rfl⟩
  obtain ⟨earned, follows⟩ := h.history ver a kept logs
  refine ⟨a.inv, ?_, ?_, ?_, ?_, earned, follows⟩
  · intro t₂ T₂ task
    by_cases e : t₂ = t
    · subst e
      rw [mine T₂ task]
      exact born
    · obtain ⟨inv, guar⟩ := h.born t₂ T₂ (other e task)
      exact ⟨inv, P.trans guar a.guar⟩
  · intro t₂ T₂ task
    by_cases e : t₂ = t
    · subst e
      rw [mine T₂ task]
      exact ok
    · have old := other e task
      obtain ⟨l, place⟩ := h.tasks t₂ T₂ old
      exact ⟨l, a.task (fun n o conn => absurd conn (alone n (.inl o) t₂ T₂ e old)) place⟩
  · intro t₁ t₂ T₁ T₂ n task₁ task₂ conn₁ conn₂
    by_cases e₁ : t₁ = t
    · by_cases e₂ : t₂ = t
      · exact e₁.trans e₂.symm
      · subst e₁
        rw [mine T₁ task₁] at conn₁
        exact absurd conn₂ (alone n (.inr conn₁) t₂ T₂ e₂ (other e₂ task₂))
    · by_cases e₂ : t₂ = t
      · subst e₂
        rw [mine T₂ task₂] at conn₂
        exact absurd conn₁ (alone n (.inr conn₂) t₁ T₁ e₁ (other e₁ task₁))
      · exact h.distinct t₁ t₂ T₁ T₂ n (other e₁ task₁) (other e₂ task₂) conn₁ conn₂
  · intro n t₂ ws underway
    by_cases e : o = some n
    · exact orphan n t₂ ws e underway
    · rw [a.conns n e] at underway
      exact a.orphan kept e (h.orphans n t₂ ws underway)

/-- A task whose request is answered. -/
lemma Sound.answer (h : Sound P marks post s) (ver : Verified P code marks post) {t : Nat}
    {T T' : Task S C α}
    (task : s.tasks t = some T) (a : Apart P o s s') (tasks : s'.tasks = update s.tasks t (some T'))
    (call : T'.call = T.call) (born : T'.born = T.born) (conn : T'.conn = T.conn ∨ T'.conn = none)
    (own : o = none ∨ o = T.conn) (ok : ∃ l, TaskOk P marks post s' t T' l)
    (orphan : ∀ n t ws, o = some n → s'.conns n = some ⟨t, ws, .committing⟩ →
      ∃ T held v, OrphanOk P marks s' n t ws T held v)
    (logs : Logs marks s s') : Sound P marks post s' := by
  refine h.advance ver a tasks ?_ ?_ ?_ ok orphan logs
  · intro U task'
    rw [task, Option.some.injEq] at task'
    subst task'
    exact ⟨call, born⟩
  · rw [born]
    exact ⟨(h.born t T task).1, P.trans (h.born t T task).2 a.guar⟩
  · intro n e t₂ T₂ ne task₂ conn₂
    have mine : T.conn = some n := by
      rcases e with e | e
      · exact own.elim (fun none => by rw [none] at e; cases e) fun own => own ▸ e
      · exact conn.elim (fun same => same ▸ e) fun none => by rw [none] at e; cases e
    exact ne (h.distinct t₂ t T₂ T n task₂ task conn₂ mine)

/-- A step of no task. -/
lemma Sound.move (h : Sound P marks post s) (ver : Verified P code marks post) (a : Apart P o s s')
    (tasks : s'.tasks = s.tasks)
    (idle : ∀ n, o = some n → ∀ t ws, s.conns n ≠ some ⟨t, ws, .active⟩)
    (orphan : ∀ n t ws, o = some n → s'.conns n ≠ some ⟨t, ws, .committing⟩)
    (logs : Logs marks s s') : Sound P marks post s' := by
  have kept : Kept s s' := fun t T task => ⟨T, by rw [tasks, task], rfl, rfl⟩
  obtain ⟨earned, follows⟩ := h.history ver a kept logs
  refine ⟨a.inv, ?_, ?_, ?_, ?_, earned, follows⟩
  · intro t T task
    rw [tasks] at task
    exact ⟨(h.born t T task).1, P.trans (h.born t T task).2 a.guar⟩
  · intro t T task
    rw [tasks] at task
    obtain ⟨l, place⟩ := h.tasks t T task
    exact ⟨l, a.task (fun n e _ ws => idle n e t ws) place⟩
  · rw [tasks]
    exact h.distinct
  · intro n t ws underway
    by_cases e : o = some n
    · exact absurd underway (orphan n t ws e)
    · rw [a.conns n e] at underway
      exact a.orphan kept e (h.orphans n t ws underway)

/-! ### What each kind of step leaves alone -/

/-- Setting the task itself is apart. -/
lemma Apart.setTask {t : Nat} {T : Task S C α} (a : Apart P o s s') :
    Apart P o s (s'.setTask t T) :=
  ⟨a.inv, a.guar, a.conns, a.owner, a.read, a.log⟩

/-- Nothing that happens is apart. -/
lemma Apart.rfl (inv : P.Inv s.world) : Apart P none s s where
  inv := inv
  guar := P.refl _
  conns := fun _ _ => Eq.refl _
  owner := fun _ _ _ h => h
  read := fun _ _ _ _ => Eq.refl _
  log := fun _ h => h

/-- The environment moves apart from every connection. -/
lemma Apart.env {e' : S.Env} (inv : P.Inv { s.world with env := e' })
    (guar : P.Guar s.world { s.world with env := e' }) :
    Apart P none s { s with world := { s.world with env := e' } } where
  inv := inv
  guar := guar
  conns := fun _ _ => Eq.refl _
  owner := fun _ _ _ h => h
  read := fun _ _ _ _ => Eq.refl _
  log := fun _ h => h

/-- A connection changes apart from the others. -/
lemma Apart.setConn {n : Nat} {c : Option (Conn S)} (inv : P.Inv s.world) :
    Apart P (some n) s (s.setConn n c) where
  inv := inv
  guar := P.refl _
  conns := fun _ ne => update_of_ne (fun e => ne (congrArg some e.symm)) _ _
  owner := fun _ _ _ h => h
  read := fun _ _ _ _ => Eq.refl _
  log := fun _ h => h

/-- What another holds is not released. -/
lemma release_of_ne {owner : S.Key → Option Nat} {n n' : Nat} {k : S.Key} (ne : some n ≠ some n')
    (h : owner k = some n') : release owner n k = some n' := by
  rw [release, h, if_neg fun e => ne e.symm]

/-- A connection aborts apart from the others. -/
lemma Apart.abort {n : Nat} {c : Option (Conn S)} (inv : P.Inv s.world) :
    Apart P (some n) s (s.abort n c) where
  inv := inv
  guar := P.refl _
  conns := fun _ ne => update_of_ne (fun e => ne (congrArg some e.symm)) _ _
  owner := fun _ _ ne h => release_of_ne ne h
  read := fun _ _ _ _ => Eq.refl _
  log := fun _ h => h

/-- A connection runs a statement apart from the others. -/
lemma Apart.run {n : Nat} {d : S.Db} {ks : List S.Key} {c : Conn S}
    (inv : P.Inv { s.world with db := d })
    (guar : P.Guar s.world { s.world with db := d })
    (free : ∀ k ∈ ks, s.owner k = none ∨ s.owner k = some n)
    (read : ∀ k, S.read d k = S.read s.world.db k) : Apart P (some n) s (s.run n d ks c) where
  inv := inv
  guar := guar
  conns := fun _ ne => update_of_ne (fun e => ne (congrArg some e.symm)) _ _
  owner := fun n' k ne h => by
    have notMem : k ∉ ks := by
      intro m
      rcases free k m with none | mine
      · rw [none] at h
        cases h
      · exact ne (mine.symm.trans h)
    exact (if_neg notMem).trans h
  read := fun _ k _ _ => read k
  log := fun _ h => h

/-- A commit touches only what its connection has locked. -/
lemma Apart.commit {n t : Nat} {ws : List S.Write} {c : Option (Conn S)} {M : Marks S}
    {held : List (S.Key × S.Val)} (commits : P.Commits M ws s.world) (holds : s.Holds n held ws) :
    Apart P (some n) s (s.commit n t ws c) where
  inv := commits.inv
  guar := commits.guar
  conns := fun _ ne => update_of_ne (fun e => ne (congrArg some e.symm)) _ _
  owner := fun _ _ ne h => release_of_ne ne h
  read := fun n' k ne h => by
    apply Server.commit_frame
    intro w m touches
    obtain ⟨e, me, rfl⟩ := holds.covers w m k touches
    exact ne ((holds.owner e me).symm.trans h)
  log := fun _ m => List.mem_append_left _ m

/-- A connection that is known not to be behind a commit. -/
lemma not_underway {c : Option (Conn S)} {n : Nat} (conn : s.conns n = c)
    (ne : ∀ t ws, c ≠ some ⟨t, ws, .committing⟩) :
    ∀ n' t ws, some n = some n' → s.conns n' ≠ some ⟨t, ws, .committing⟩ := by
  rintro n' t ws ⟨⟩
  rw [conn]
  exact ne t ws

/-- A failed request leaves the other connections alone, and brings no commit on its way. -/
lemma Fails.apart {n : Nat} {c' : Option (Conn S)} (f : Fails (s.conns n) c')
    (inv : P.Inv s.world) :
    ∃ o, (o = none ∨ o = some n) ∧ Apart P o s (s.setConn n c') ∧
      ∀ n' t ws, o = some n' → (s.setConn n c').conns n' ≠ some ⟨t, ws, .committing⟩ := by
  generalize e : s.conns n = c at f
  cases f with
  | kept =>
    subst e
    have same : s.setConn n (s.conns n) = s := by rw [Config.setConn, update_eq_self]
    rw [same]
    exact ⟨none, .inl rfl, .rfl inv, nofun⟩
  | lost t ws => exact ⟨some n, .inr rfl, .setConn inv, not_underway (s.setConn_self ..) nofun⟩

/-- A request after which the task relies on no locks. -/
lemma Sound.unlock (h : Sound P marks post s) (ver : Verified P code marks post) {t n : Nat} {c : C}
    {b : World S}
    {p p' : Prog I α} {conn' : Option Nat} {l : Local S} {m : Mode S}
    (task : s.tasks t = some ⟨c, b, p, some n⟩)
    (place : TaskOk P marks post s t ⟨c, b, p, some n⟩ l) (a : Apart P o s s')
    (own : o = none ∨ o = some n)
    (tasks : s'.tasks = s.tasks) (log : s'.log = s.log)
    (orphan : ∀ n t ws, o = some n → s'.conns n ≠ some ⟨t, ws, .committing⟩)
    (wp : P.wp (marks c b) (fun a l => post c b a l.done l.view) p' ⟨m, l.view, l.done⟩)
    (mode : (m = .failed ∧ conn' = some n) ∨ (m = .closed ∧ conn' = none)) :
    Sound P marks post (s'.setTask t ⟨c, b, p', conn'⟩) := by
  have unlocked : m.held = [] := by
    rcases mode with ⟨rfl, _⟩ | ⟨rfl, _⟩
    · rfl
    · rfl
  have sees : P.Sees m.held l.view s'.world := by
    rw [unlocked]
    exact ⟨a.inv, P.trans place.sees.guar a.guar, nofun⟩
  have serves : (s'.setTask t ⟨c, b, p', conn'⟩).Serves t m conn' := by
    rcases mode with ⟨rfl, rfl⟩ | ⟨rfl, rfl⟩
    · exact nofun
    · rfl
  have updated : (s'.setTask t ⟨c, b, p', conn'⟩).tasks =
      update s.tasks t (some ⟨c, b, p', conn'⟩) := by
    rw [Config.setTask, tasks]
  exact h.answer ver task a.setTask updated rfl rfl
    (mode.imp And.right And.right) own
    ⟨⟨m, l.view, l.done⟩, wp, sees, serves, fun ws m => a.log _ (place.done ws m)⟩
    (fun n t ws e underway => absurd underway (orphan n t ws e)) (.inl log)

/-- One step keeps the system sound. -/
theorem Sound.step (ver : Verified P code marks post) (h : Sound P marks post s)
    (st : Step code s s') :
    Sound P marks post s' := by
  cases st with
  | spawn t c free =>
    refine h.advance ver (Apart.rfl h.inv).setTask rfl ?_ ⟨h.inv, P.refl _⟩ ?_ ?_ nofun (.inl rfl)
    · intro T task
      rw [free] at task
      cases task
    · rintro n (e | e)
      · cases e
      · cases e
    · exact ⟨⟨.closed, s.world, []⟩, ver.code c s.world h.inv, ⟨h.inv, P.refl _, nofun⟩, rfl, nofun⟩
  | @connect t c b next n task fresh =>
    obtain ⟨⟨m, v, d⟩, wp, sees, serves, done⟩ := h.tasks _ _ task
    have born := h.born _ _ task
    have orphan := not_underway (s.setConn_self n (some ⟨t, [], .active⟩)) nofun
    refine h.advance ver (Apart.setConn h.inv).setTask rfl ?_ born ?_ ?_ ?_ (.inl rfl)
    · intro T task'
      rw [task, Option.some.injEq] at task'
      subst task'
      exact ⟨rfl, rfl⟩
    · intro n' e t₂ T₂ _ task₂
      have same : n' = n :=
        e.elim (fun e => (Option.some.inj e).symm) fun e => (Option.some.inj e).symm
      rw [same]
      exact fresh.tasks t₂ T₂ task₂
    · exact ⟨⟨.live [] [], v, d⟩, wp.2.1, ⟨h.inv, sees.guar, nofun⟩,
        ⟨n, rfl, s.setConn_self n _, nofun, nofun⟩, done⟩
    · exact fun n' t' ws e underway => absurd underway (orphan n' t' ws e)
  | @connectFails t c b next e spurious task =>
    obtain ⟨⟨m, v, d⟩, wp, sees, serves, done⟩ := h.tasks _ _ task
    obtain ⟨rfl, _, fails⟩ := wp
    exact h.answer ver task (Apart.rfl h.inv).setTask rfl rfl rfl (.inl rfl) (.inl rfl)
      ⟨⟨.closed, v, d⟩, fails e spurious, sees, rfl, done⟩ nofun (.inl rfl)
  | @sql t c b q next n ws r d' ks ws' task conn runs free =>
    obtain ⟨⟨m, v, d⟩, wp, sees, serves, done⟩ := h.tasks _ _ task
    obtain ⟨held, ws₀, rfl, run, _⟩ := wp
    obtain ⟨_, ⟨⟩, active, holds⟩ := serves
    rw [conn, Option.some.injEq, Conn.mk.injEq] at active
    obtain ⟨_, rfl, _⟩ := active
    obtain ⟨inv, guar⟩ := P.runs h.inv runs
    have a : Apart P (some n) s (s.run n d' ks ⟨t, ws ++ ws', .active⟩) :=
      .run inv guar free (S.runs_read runs)
    have orphan := not_underway (s.run_self n d' ks ⟨t, ws ++ ws', .active⟩) nofun
    refine h.answer ver task a.setTask rfl rfl rfl (.inl rfl) (.inr rfl)
      ⟨_, run s.world sees r d' ks ws' runs, ⟨inv, P.refl _, ?_⟩,
        ⟨n, rfl, s.run_self n d' ks _, ?_, ?_⟩, done⟩
      (fun n' t' ws e underway => absurd underway (orphan n' t' ws e)) (.inl rfl)
    · intro e m
      refine (S.runs_read runs e.1).trans ?_
      rcases List.mem_append.1 m with old | new
      · exact sees.read e old
      · obtain ⟨k, _, rfl⟩ := List.mem_map.1 new
        rfl
    · intro e m
      by_cases locked : e.1 ∈ ks
      · exact if_pos locked
      · refine (if_neg locked).trans ?_
        rcases List.mem_append.1 m with old | new
        · exact holds.owner e old
        · obtain ⟨k, mk, rfl⟩ := List.mem_map.1 new
          exact absurd mk locked
    · intro w m k touches
      rcases List.mem_append.1 m with old | new
      · obtain ⟨e, me, key⟩ := holds.covers w old k touches
        exact ⟨e, List.mem_append_left _ me, key⟩
      · exact ⟨_, List.mem_append_right _
          (List.mem_map_of_mem (S.runs_touched runs w new k touches)), rfl⟩
  | @sqlFails t c b q next n c' e spurious task conn =>
    obtain ⟨⟨m, v, d⟩, place⟩ := h.tasks _ _ task
    obtain ⟨held, ws₀, _, _, fails⟩ := place.wp
    obtain ⟨o, own, a, orphan⟩ := conn.apart h.inv
    exact h.unlock ver task place a own rfl rfl orphan (fails e spurious) (.inl ⟨rfl, rfl⟩)
  | @sqlAborts t c b q next n ws e spurious task conn =>
    obtain ⟨⟨m, v, d⟩, place⟩ := h.tasks _ _ task
    obtain ⟨held, ws₀, _, _, fails⟩ := place.wp
    exact h.unlock ver task place (.abort h.inv) (.inr rfl) rfl rfl
      (not_underway (s.abort_self ..) nofun)
      (fails e spurious) (.inl ⟨rfl, rfl⟩)
  | @commit t c b next n ws task conn =>
    obtain ⟨⟨m, v, d⟩, wp, sees, serves, done⟩ := h.tasks _ _ task
    obtain ⟨held, ws₀, rfl, run, _⟩ := wp
    obtain ⟨_, ⟨⟩, active, holds⟩ := serves
    rw [conn, Option.some.injEq, Conn.mk.injEq] at active
    obtain ⟨_, rfl, _⟩ := active
    obtain ⟨commits, next⟩ := run s.world sees
    have a : Apart P (some n) s (s.commit n t ws (some ⟨t, [], .active⟩)) := .commit commits holds
    have orphan := not_underway (s.commit_self n t ws (some ⟨t, [], .active⟩)) nofun
    refine h.answer ver task a.setTask rfl rfl rfl (.inl rfl) (.inr rfl)
      ⟨_, next, ⟨commits.inv, P.refl _, nofun⟩, ⟨n, rfl, s.commit_self n t ws _, nofun, nofun⟩, ?_⟩
      (fun n' t' ws e underway => absurd underway (orphan n' t' ws e))
      (.inr ⟨t, ws, _, rfl, task, commits.before, commits.after⟩)
    intro ws' m
    rcases List.mem_append.1 m with old | new
    · exact a.log _ (done ws' old)
    · rw [List.mem_singleton] at new
      subst new
      exact List.mem_append_right _ List.mem_cons_self
  | @commitFails t c b next n c' e spurious task conn =>
    obtain ⟨⟨m, v, d⟩, place⟩ := h.tasks _ _ task
    obtain ⟨held, ws₀, rfl, run, fails⟩ := place.wp
    generalize old : s.conns n = conn₀ at conn
    cases conn with
    | fails f =>
      subst old
      obtain ⟨o, own, a, orphan⟩ := f.apart h.inv
      exact h.unlock ver task place a own rfl rfl orphan (fails e spurious) (.inl ⟨rfl, rfl⟩)
    | underway t₀ ws =>
      obtain ⟨_, ⟨⟩, active, holds⟩ := place.serves
      rw [old, Option.some.injEq, Conn.mk.injEq] at active
      obtain ⟨rfl, rfl, _⟩ := active
      refine h.answer ver task (Apart.setConn h.inv).setTask rfl rfl rfl (.inl rfl) (.inr rfl)
        ⟨⟨.failed, v, d⟩, fails e spurious, ⟨h.inv, place.sees.guar, nofun⟩, nofun,
          place.done⟩ ?_ (.inl rfl)
      rintro n' t' ws' ⟨⟩ underway
      rw [Config.setTask, Config.setConn] at underway
      cases (update_self ..).symm.trans underway
      exact ⟨_, held, v, update_self .., place.sees, ⟨holds.owner, holds.covers⟩,
        fun w sees => (run w sees).1⟩
  | @commitAborts t c b next n ws e spurious task conn =>
    obtain ⟨⟨m, v, d⟩, place⟩ := h.tasks _ _ task
    obtain ⟨held, ws₀, _, _, fails⟩ := place.wp
    exact h.unlock ver task place (.abort h.inv) (.inr rfl) rfl rfl
      (not_underway (s.abort_self ..) nofun)
      (fails e spurious) (.inl ⟨rfl, rfl⟩)
  | @rollback t c b next n ws task conn =>
    obtain ⟨⟨m, v, d⟩, place⟩ := h.tasks _ _ task
    exact h.unlock ver task place (.abort h.inv) (.inr rfl) rfl rfl
      (not_underway (s.abort_self ..) nofun)
      place.wp.2.1 (.inl ⟨rfl, rfl⟩)
  | @rollbackFails t c b next n c' e spurious task conn =>
    obtain ⟨⟨m, v, d⟩, place⟩ := h.tasks _ _ task
    obtain ⟨o, own, a, orphan⟩ := conn.apart h.inv
    exact h.unlock ver task place a own rfl rfl orphan (place.wp.2.2 e spurious) (.inl ⟨rfl, rfl⟩)
  | @close t c b next n c' task conn gone =>
    obtain ⟨⟨m, v, d⟩, place⟩ := h.tasks _ _ task
    obtain ⟨o, own, a, orphan⟩ := conn.apart h.inv
    exact h.unlock ver task place a own rfl rfl orphan place.wp.2 (.inr ⟨rfl, rfl⟩)
  | @act t c b x next n r e' task acts =>
    obtain ⟨⟨m, v, d⟩, wp, sees, serves, done⟩ := h.tasks _ _ task
    obtain ⟨inv, guar, run⟩ := wp s.world sees r e' acts
    have serves : (({ s with world := { s.world with env := e' } } : Config S C α).setTask t
        ⟨c, b, next r, n⟩).Serves t m n := by
      cases m with
      | closed => exact serves
      | failed => exact serves
      | live held ws =>
        obtain ⟨n, conn, active, holds⟩ := serves
        exact ⟨n, conn, active, holds.owner, holds.covers⟩
    exact h.answer ver task (Apart.env inv guar).setTask rfl rfl rfl (.inl rfl) (.inl rfl)
      ⟨_, run, ⟨inv, P.refl _, sees.read⟩, serves, done⟩ nofun (.inl rfl)
  | drift drifts =>
    obtain ⟨inv, guar⟩ := P.drifts h.inv drifts
    exact h.move ver (.env inv guar) rfl nofun nofun (.inl rfl)
  | orphanRollsBack n t ws phase conn gone =>
    refine h.move ver (.abort h.inv) rfl ?_ (not_underway (s.abort_self ..) nofun) (.inl rfl)
    rintro n' ⟨⟩ t' ws' active
    cases conn.symm.trans active
    exact gone rfl
  | orphanCommits n t ws conn =>
    obtain ⟨T, held, v, task, sees, holds, commits⟩ := h.orphans n t ws conn
    have earns := commits s.world sees
    refine h.move ver (.commit earns holds) rfl ?_ (not_underway (s.commit_self ..) nofun)
      (.inr ⟨t, ws, T, rfl, task, earns.before, earns.after⟩)
    rintro n' ⟨⟩ t' ws' active
    cases conn.symm.trans active

/-- In every reachable state the system is sound. -/
theorem sound {w : World S} (ver : Verified P code marks post) (inv : P.Inv w)
    (h : Reachable code w s) :
    Sound P marks post s := by
  induction h with
  | init => exact ⟨inv, nofun, nofun, nofun, nofun, nofun, .nil⟩
  | step _ st ih => exact ih.step ver st

/-- A call that has ended has its postcondition, and its commits are in the history. -/
theorem Sound.ended (h : Sound P marks post s) {t : Nat} {c : C} {b : World S} {a : α}
    {conn : Option Nat}
    (task : s.tasks t = some ⟨c, b, .ret a, conn⟩) :
    ∃ done v, post c b a done v ∧ P.Guar v s.world ∧ ∀ ws ∈ done, (t, ws) ∈ s.log := by
  obtain ⟨l, place⟩ := h.tasks _ _ task
  exact ⟨l.done, l.view, place.wp, place.sees.guar, place.done⟩

end DbLab.Store
