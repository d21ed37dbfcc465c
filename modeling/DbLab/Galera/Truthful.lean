import DbLab.Galera.Safe
import DbLab.Store.Window

/-!
# The answers of a transfer

A host name is backed by a committed row. A refusal for lack of funds says that no attempt at the
request took effect or will. It is true where the balance that it is based on does not already lack
the amount of the request itself: a commit of an earlier attempt may take effect after the lookup of
the request id and before the locks on the accounts.
-/

namespace DbLab.Galera
open DbLab.Py DbLab.Store Work

/-- The balance of the source, under its lock, is less than the amount. -/
def Request.Refuses (r : Request) : (q : Query) → q.Rows → Prop
  | .lock a b, rows => a = min r.source r.target ∧ b = max r.source r.target ∧
    ∃ acc, rows.find? (fun x => x.id = r.source) = some acc ∧ acc.balance < r.amount
  | _, _ => False

/-- A refusal. -/
def Denies (x : Except Raised Outcome) : Prop := x = .ok (.answered none)

section Tracks
variable {r : Request} {window : Prop}

/-- A part of the program whose results are as in `Q`, and whose exceptions say nothing. -/
abbrev Follows {α : Type} (r : Request) (Q : α → Prop → Prop) (window : Prop) (p : Work α) : Prop :=
  Tracks r.Refuses (Both Q fun _ _ => True) window p.run

/-- A statement may open the window. -/
lemma query_tracks {q : Query} {Q : q.Rows → Prop → Prop} (ok : ∀ a, Q a (window ∨ r.Refuses q a)) :
    Follows r Q window (query q) := ⟨fun _ => trivial, ok⟩

/-- A balance below the amount was read in the window. -/
lemma lockBalances_tracks : Follows r (fun b w => b < r.amount → w) window (lockBalances r) := by
  refine Tracks.raising (query_tracks fun rows => ?_)
  split
  · rename_i a found
    exact fun poor => .inr ⟨rfl, rfl, a, found, poor⟩
  · trivial

/-- A refusal comes from the window. -/
lemma move_tracks : Follows r (fun a w => a = none → w) window (move r) := by
  refine Tracks.raising (query_tracks fun host => Tracks.seq lockBalances_tracks
    (fun b w short => ?_) fun _ _ e => e)
  split
  · rename_i poor
    exact Tracks.raising (Tracks.rollback (fun _ => short poor) fun _ => trivial)
  · refine Tracks.raising (query_tracks fun _ =>
      Tracks.raising (query_tracks fun _ => Tracks.raising (query_tracks fun _ => ?_)))
    exact Tracks.raising (Tracks.commit nofun fun _ => trivial)

/-- What is rolled back tells nothing. -/
lemma abandon_tracks {e : Raised} {Q : Option Str → Prop → Prop} :
    Follows r Q window (abandon e) := by
  refine Tracks.seq (Q := fun _ _ => True) (E := fun _ _ => True) ?_ (fun _ _ _ => trivial)
    fun _ _ e => e
  refine Tracks.tryCatch (E := fun _ _ => True) (Tracks.rollback trivial fun _ => trivial)
    fun e w _ => ?_
  cases e with
  | sql e => trivial
  | runtimeError m => trivial
  | keyError => trivial

/-- An attempt that refuses was in the window. -/
lemma transfer_tracks : Follows r (fun a w => a = none → w) window (transfer r) := by
  refine Tracks.raising (query_tracks fun _ => Tracks.raising (query_tracks fun found => ?_))
  cases found with
  | some row =>
    dsimp only
    split
    · exact nofun
    · trivial
  | none =>
    refine Tracks.raising (query_tracks fun _ => Tracks.raising (query_tracks fun _ => ?_))
    exact Tracks.tryCatch move_tracks fun e w _ => abandon_tracks

/-- What is raised is caught. -/
lemma attempted_tracks {α : Type} {p : Work α} {Q : α → Prop → Prop} (h : Follows r Q window p) :
    Follows r (fun x w => ∀ a, x = .ok a → Q a w) window (attempted p) := by
  refine Tracks.tryCatch (E := fun _ _ => True) (Tracks.seq h (fun a w q => ?_) fun _ _ e => e)
    fun e w _ => ?_
  · rintro a ⟨⟩
    exact q
  · exact nofun

/-- All attempts that refuse were in the window. -/
lemma attempts_tracks (n : Nat) :
    Follows r (fun x w => x = .answered none → w) window (attempts r n) := by
  induction n generalizing window with
  | zero => exact nofun
  | succ n ih =>
    have retry : ∀ e (w : Prop), Follows r (fun x w => x = .answered none →
        w) w (retryOr (attempts r n) e) := by
      intro e w
      cases e with
      | sql e =>
        unfold retryOr
        dsimp only
        split
        · exact ih
        · trivial
      | runtimeError m => trivial
      | keyError => trivial
    have opened : Follows r (fun _ _ => True) window connect :=
      Tracks.connect trivial fun _ => trivial
    refine Tracks.seq (attempted_tracks opened) (fun x w _ => ?_) fun _ _ e => e
    cases x with
    | error e => exact retry e w
    | ok u =>
      refine Tracks.seq (attempted_tracks transfer_tracks) (fun x w told => ?_) fun _ _ e => e
      refine Tracks.raising (Tracks.close ?_)
      cases x with
      | error e => exact retry e w
      | ok a =>
        intro none
        cases none
        exact told _ rfl rfl

end Tracks

/-! ### Runs -/

section System
variable {S : Schema} {d₀ : Database} {s s' : System S d₀}

/-- When the rows of both accounts are locked for an attempt and the balance of the source, as the
attempt sees it, is less than the amount, the request has no row yet. -/
def Settled (s s' : System S d₀) : Prop :=
  ∀ t c b next n ws rows,
    s.tasks t = some ⟨c, b, .ask
      (.sql (.lock (min c.1.source c.1.target) (max c.1.source c.1.target))) next, some n⟩ →
    s.conns n = some ⟨t, ws, .active⟩ → s'.tasks t = some ⟨c, b, next (.ok rows), some n⟩ →
    ∀ funds, (ws.foldl Database.apply s.world.db).balance c.1.source = some funds →
      funds < c.1.amount → s.world.db.transfers.find? c.1.requestId = none

/-- A transfer that refuses was in the window. -/
lemma program_quits (c : Requests S d₀) : Quits Denies c.1.Refuses False (program S d₀ c) := by
  refine Tracks.mono (attempts_tracks 8) id fun x w w' le both => ?_
  rintro rfl
  exact le (both rfl)

/-- While another connection has the locks of an attempt, none of its commits is underway. -/
lemma underway_empty (sound : Sound (bank S d₀) (fun r _ => r.1.marks S) (ends S d₀) s)
    {t n n' : Nat} {T}
    {ws ws' : List Write} (task : s.tasks t = some T) (conn : s.conns n = some ⟨t, ws, .active⟩)
    (free : s.owner (.account T.call.1.source) = none ∨ s.owner (.account T.call.1.source) = some n)
    (underway : s.conns n' = some ⟨t, ws', .committing⟩) : ws' = [] := by
  by_contra some_
  obtain ⟨T', held, v, orphan⟩ := sound.orphans n' t ws' underway
  cases task.symm.trans orphan.task
  obtain ⟨host, rfl, _⟩ := (orphan.commits s.world orphan.sees).after some_
  have debit : Write.add T.call.1.source (-T.call.1.amount) ∈ transferWrites T.call.1 host := by
    simp [transferWrites]
  obtain ⟨e, m, key⟩ := orphan.holds.covers _ debit _ (List.mem_singleton_self _)
  have owner := orphan.holds.owner e m
  rw [key] at owner
  have same : n' = n := by
    rcases free with none | own
    · cases none.symm.trans owner
    · exact Option.some.inj (owner.symm.trans own)
  subst same
  cases conn.symm.trans underway

/-- Where every refusal is based on a balance that does not lack the amount of the request itself: a
host name is backed by a committed row with the parameters of the request, and after a refusal no
attempt at the request has taken effect or will. -/
theorem answers_truthful (solvent : d₀.Solvent)
    (h : ReachableWhen Settled (program S d₀) ⟨d₀, ()⟩ s) {t : Nat}
    {r : Requests S d₀} {b : World (writer S)} {a : Option Str} {o : Option Nat}
    (task : s.tasks t = some ⟨r, b, .ret (.ok (.answered a)), o⟩) :
    (∀ host, a = some host → r.1.Backed s.world.db host) ∧ (a = none → s.Untouched t) := by
  refine ⟨fun host e => ?_, ?_⟩
  · obtain ⟨done, v, ended, guar, _⟩ := (reachable_sound solvent h.reachable).ended task
    exact (ended _ rfl a rfl).mono guar host e
  · rintro rfl
    have begins : ∀ c : Requests S d₀,
      Quits Denies ((fun c => c.1.Refuses) c) False (program S d₀ c) := program_quits
    refine untouched_of_denies begins ?_ h task rfl
    intro s s' t c b q next n ws a d' ks ws' reach task conn runs free moved settled refuses
    have sound := reachable_sound solvent reach.reachable
    cases q with
    | lock lo hi =>
      obtain ⟨rfl, rfl, acc, found, poor⟩ := refuses
      obtain ⟨_, run⟩ := runs
      cases run
      have own : acc.id = c.1.source := by simpa using List.find?_some found
      have row : (ws.foldl Database.apply s.world.db).accounts.find? c.1.source = some acc := by
        obtain ⟨k, _, e⟩ := List.mem_filterMap.1 (List.mem_of_find?_eq_some found)
        have key := (Table.find?_eq_some.1 e).2
        rw [← own, key]
        exact e
      have funds : (ws.foldl Database.apply s.world.db).balance c.1.source = some acc.balance := by
        rw [Database.balance, row]
        rfl
      have absent := settled t c b next n ws _ task conn moved acc.balance funds poor
      have locked : Key.account c.1.source ∈
          [Key.account (min c.1.source c.1.target), .account (max c.1.source c.1.target)] := by
        rcases Int.le_total c.1.source c.1.target with le | le
        · simp [Int.min_eq_left le]
        · simp [Int.max_eq_left le]
      refine ⟨fun n' ws' underway => underway_empty sound task conn (free _ locked) underway,
        fun ws' logged => ?_⟩
      by_contra some_
      obtain ⟨T, task', after⟩ := sound.earned _ logged
      cases task.symm.trans task'
      obtain ⟨host, _, m⟩ := after some_
      exact Table.find?_eq_none.1 absent _ m rfl
    | session s => exact refuses.elim
    | find r => exact refuses.elim
    | hostname => exact refuses.elim
    | insert r => exact refuses.elim
    | add id delta => exact refuses.elim

/-- Rows of `transfer` are only added. -/
lemma rows_grow (step : Step (program S d₀) s s') :
    ∀ t ∈ s.world.db.transfers.rows, t ∈ s'.world.db.transfers.rows := by
  have folded : ∀ (ws : List Write) (d : Database), ∀ t ∈ d.transfers.rows,
      t ∈ (ws.foldl Database.apply d).transfers.rows := by
    intro ws
    induction ws with
    | nil => exact fun d t m => m
    | cons w ws ih =>
      intro d t m
      refine ih _ t ?_
      cases w with
      | insert r => exact Table.mem_insert m
      | add id delta => exact m
  intro t m
  cases step with
  | sql task conn runs free =>
    obtain ⟨rfl, _⟩ := runs
    exact m
  | commit task conn => exact folded _ _ t m
  | orphanCommits n t' ws conn => exact folded _ _ t m
  | act task acts => exact m
  | drift drifts => exact drifts.elim
  | spawn | connect | connectFails | sqlFails | sqlAborts | commitFails | commitAborts | rollback
  | rollbackFails | close | orphanRollsBack => exact m

/-- As long as no transfer is committed, no refusal is based on one. -/
lemma settled_of_no_rows (h : Reachable (program S d₀) ⟨d₀, ()⟩ s)
    (none : s.world.db.transfers.rows = []) :
    ReachableWhen Settled (program S d₀) ⟨d₀, ()⟩ s := by
  induction h with
  | init => exact .init
  | @step s s' h step ih =>
    have before : s.world.db.transfers.rows = [] :=
      List.eq_nil_iff_forall_not_mem.2 fun t m =>
        List.eq_nil_iff_forall_not_mem.1 none t (rows_grow step t m)
    refine .step (ih before) step ?_
    intro t c b next n ws rows _ _ _ funds _ _
    rw [Table.find?, before]
    rfl

/-- A row that is missing behind a step was missing before. -/
lemma find?_before {r : Str} (step : Step (program S d₀) s s')
    (after : s'.world.db.transfers.find? r = none) :
    s.world.db.transfers.find? r = none :=
  Table.find?_eq_none.2 fun t m => Table.find?_eq_none.1 after t (rows_grow step t m)

/-- Where only tasks without a row of their own are before the locks, a refusal is not based on a
row. -/
lemma settled_of_absent (absent : ∀ t T a b next, s.tasks t = some T →
    T.prog = .ask (.sql (.lock a b)) next → s.world.db.transfers.find? T.call.1.requestId = none) :
      Settled s s' := by
  intro t c b next n ws rows task _ _ _ _ _
  exact absent t _ _ _ next task rfl

/-- No refusal is based on a row while tasks that have ended have rows and those that go on have
none. -/
lemma settled_steps (reach : ReachableWhen Settled (program S d₀) ⟨d₀, ()⟩ s)
    (steps : Steps (program S d₀) s s')
    (absent : ∀ t T, s'.tasks t = some T → s'.world.db.transfers.find? T.call.1.requestId = none ∨
      ∃ T₀ a, s.tasks t = some T₀ ∧ T₀.prog = .ret a) :
    ReachableWhen Settled (program S d₀) ⟨d₀, ()⟩ s' := by
  suffices run : ReachableWhen Settled (program S d₀) ⟨d₀, ()⟩ s' ∧
      ∀ t T₀ a, s.tasks t = some T₀ → T₀.prog = .ret a → s'.tasks t = some T₀ from run.1
  induction steps with
  | refl => exact ⟨reach, fun t T₀ a task _ => task⟩
  | @tail s₁ s' steps step ih =>
    -- What holds of the tasks at the end held of them before the last step.
    have before : ∀ t T, s₁.tasks t = some T →
      s₁.world.db.transfers.find? T.call.1.requestId = none ∨
        ∃ T₀ a, s.tasks t = some T₀ ∧ T₀.prog = .ret a := by
      intro t T task
      obtain ⟨T', task', call, _⟩ := step.kept task
      refine (absent t T' task').imp_left fun none => find?_before step ?_
      rw [← call]
      exact none
    obtain ⟨reach₁, ended⟩ := ih before
    refine ⟨.step reach₁ step (settled_of_absent fun t T a b next task lock => ?_),
      fun t T₀ a task ret => ?_⟩
    · rcases before t T task with none | ⟨T₀, x, task₀, ret⟩
      · exact none
      · cases (ended t T₀ x task₀ ret).symm.trans task
        cases ret.symm.trans lock
    · obtain ⟨T', task', _, same⟩ := step.kept (ended t T₀ a task ret)
      rw [task', same a ret]

end System

/-! ### A refusal, true and false -/

section Demo

set_option maxRecDepth 4000 in
/-- `answers_truthful` for a transfer of 60 whose first `COMMIT` is not reported and does not take
effect. Before its second attempt another transfer takes the money, so that the attempt refuses. -/
theorem answers_truthful_poor : ∃ (s : System galera1 demo) (b : World (writer galera1)),
    s.tasks 0 = some ⟨sixty, b, .ret (.ok (.answered none)), none⟩ ∧ s.Untouched 0 ∧
    s.world.db.transfers.rows = [⟨str "q", 1, 2, 60, str "galera1"⟩] := by
  let opening : World (writer galera1) := ⟨demo, ()⟩
  have r0 : Reachable (program galera1 demo) opening (.init opening) := .init
  have r1 := Reachable.step r0 (.spawn 0 sixty rfl)
  have r2 := Reachable.step r1 (.connect (t := 0) 0 rfl
    (fresh_of_pair r1 rfl (fun _ e => by cases e; rfl) (fun _ e => by cases e) fun t ne _ =>
      Function.update_of_ne ne _ _))
  -- The lookup, BEGIN, the locks and the three writes of the first attempt.
  have r3 := Reachable.step r2 (.sql (t := 0) (n := 0) rfl rfl ⟨rfl, rfl⟩ (by simp))
  have r4 := Reachable.step r3 (.sql (t := 0) (n := 0) rfl rfl ⟨rfl, rfl⟩ (by simp))
  have r5 := Reachable.step r4 (.sql (t := 0) (n := 0) rfl rfl ⟨rfl, rfl⟩ (by simp))
  have r6 := Reachable.step r5 (.sql (t := 0) (n := 0) rfl rfl ⟨rfl, rfl⟩ (by simp))
  have r7 := Reachable.step r6 (.sql (t := 0) (n := 0) rfl rfl ⟨rfl, rfl⟩ (by simp))
  have r8 := Reachable.step r7 (.sql (t := 0) (n := 0) rfl rfl ⟨rfl, rfl⟩ fun k m => .inl rfl)
  have r9 := Reachable.step r8 (.sql (t := 0) (n := 0) rfl rfl ⟨rfl, rfl⟩ (by decide))
  have r10 := Reachable.step r9 (.sql (t := 0) (n := 0) rfl rfl ⟨rfl, rfl⟩ (by decide))
  have r11 := Reachable.step r10 (.sql (t := 0) (n := 0) rfl rfl ⟨rfl, rfl⟩ (by decide))
  have r12 :=
    Reachable.step r11 (.commitFails (t := 0) (n := 0) .lost (by simp) rfl (.underway 0 _))
  have r13 := Reachable.step r12 (.rollbackFails (t := 0) (n := 0) .lost (by simp) rfl (.kept _))
  have r14 := Reachable.step r13 (.close (t := 0) (n := 0) rfl (.kept _) fun _ _ e => by cases e)
  have r15 := Reachable.step r14 (.orphanRollsBack 0 0 _ _ rfl (by decide))
  -- The other transfer, as far as its own COMMIT.
  have r16 := Reachable.step r15 (.spawn 1 (asking "q") rfl)
  have r17 := Reachable.step r16 (.connect (t := 1) 1 rfl
    (fresh_of_pair r16 rfl (fun _ e => by cases e; rfl) (fun _ e => by cases e; rfl)
      fun t ne ne' => by
      simp [Config.setTask, Config.run, Config.setConn, Config.abort, Function.update_of_ne ne,
        Function.update_of_ne ne', Config.init]))
  have r18 := Reachable.step r17 (.sql (t := 1) (n := 1) rfl rfl ⟨rfl, rfl⟩ (by simp))
  have r19 := Reachable.step r18 (.sql (t := 1) (n := 1) rfl rfl ⟨rfl, rfl⟩ (by simp))
  have r20 := Reachable.step r19 (.sql (t := 1) (n := 1) rfl rfl ⟨rfl, rfl⟩ (by simp))
  have r21 := Reachable.step r20 (.sql (t := 1) (n := 1) rfl rfl ⟨rfl, rfl⟩ (by simp))
  have r22 := Reachable.step r21 (.sql (t := 1) (n := 1) rfl rfl ⟨rfl, rfl⟩ (by simp))
  have r23 := Reachable.step r22 (.sql (t := 1) (n := 1) rfl rfl ⟨rfl, rfl⟩ (by decide))
  have r24 := Reachable.step r23 (.sql (t := 1) (n := 1) rfl rfl ⟨rfl, rfl⟩ (by decide))
  have r25 := Reachable.step r24 (.sql (t := 1) (n := 1) rfl rfl ⟨rfl, rfl⟩ (by decide))
  have r26 := Reachable.step r25 (.sql (t := 1) (n := 1) rfl rfl ⟨rfl, rfl⟩ (by decide))
  -- It commits and closes its connection.
  have w26 := settled_of_no_rows r26 rfl
  have w27 :=
    ReachableWhen.step w26 (.commit (t := 1) (n := 1) rfl rfl)
      (settled_of_absent fun _ _ _ _ _ _ _ => rfl)
  have w28 :=
    ReachableWhen.step w27 (.close (t := 1) (n := 1) rfl (.lost 1 _) (by simp)) (settled_of_absent
    fun t T a b next task lock => by
      by_cases zero : t = 0
      · subst zero
        cases task
        decide
      by_cases one : t = 1
      · subst one
        cases task
        cases lock
      · simp [Config.setTask, Config.run, Config.setConn, Config.abort, Config.commit,
          Function.update_of_ne zero, Function.update_of_ne one, Config.init] at task)
  -- The second attempt finds no row, and 40.
  have second : Step (program galera1 demo) _ _ :=
    .connect (t := 0) 2 rfl (fresh_of_pair w28.reachable rfl
    (fun _ e => by cases e; rfl) (fun _ e => by cases e; rfl) fun t ne ne' => by
      simp [Config.setTask, Config.run, Config.setConn, Config.abort, Config.commit,
        Function.update_of_ne ne, Function.update_of_ne ne', Config.init])
  have s29 := Relation.ReflTransGen.single second
  have s30 := s29.tail (.sql (t := 0) (n := 2) rfl rfl ⟨rfl, rfl⟩ (by simp))
  have s31 := s30.tail (.sql (t := 0) (n := 2) rfl rfl ⟨rfl, rfl⟩ (by simp))
  have s32 := s31.tail (.sql (t := 0) (n := 2) rfl rfl ⟨rfl, rfl⟩ (by simp))
  have s33 := s32.tail (.sql (t := 0) (n := 2) rfl rfl ⟨rfl, rfl⟩ (by simp))
  have s34 := s33.tail (.sql (t := 0) (n := 2) rfl rfl ⟨rfl, rfl⟩ (by simp))
  have s35 := s34.tail (.sql (t := 0) (n := 2) rfl rfl ⟨rfl, rfl⟩ (by decide))
  have s36 := s35.tail (.rollback (t := 0) (n := 2) rfl rfl)
  have s37 := s36.tail (.close (t := 0) (n := 2) rfl (.lost 0 _) (by simp))
  have settled := settled_steps w28 s37 fun t T task => by
    by_cases zero : t = 0
    · subst zero
      cases task
      exact .inl (by decide)
    by_cases one : t = 1
    · subst one
      exact .inr ⟨_, _, rfl, rfl⟩
    · simp [Config.setTask, Config.run, Config.setConn, Config.abort, Config.commit,
        Function.update_of_ne zero, Function.update_of_ne one, Config.init] at task
  exact ⟨_, opening, rfl, (answers_truthful demo_solvent settled rfl).2 rfl, by decide +kernel⟩

set_option maxRecDepth 4000 in
/-- The first `COMMIT` of a transfer of 60 is not reported. It takes effect after the second attempt
has looked for the request id and before it locks the accounts, so that the attempt finds 40 and
refuses. -/
theorem refused_though_committed :
    ¬∀ (S : Schema) (d₀ : Database), d₀.Solvent →
      ∀ (s : System S d₀) t r b o, Reachable (program S d₀) ⟨d₀, ()⟩ s →
      s.tasks t = some ⟨r, b, .ret (.ok (.answered none)), o⟩ → s.Untouched t := by
  intro claim
  let opening : World (writer galera1) := ⟨demo, ()⟩
  have r0 : Reachable (program galera1 demo) opening (.init opening) := .init
  have r1 := Reachable.step r0 (.spawn 0 sixty rfl)
  have r2 := Reachable.step r1 (.connect (t := 0) 0 rfl
    (fresh_of_pair r1 rfl (fun _ e => by cases e; rfl) (fun _ e => by cases e) fun t ne _ =>
      Function.update_of_ne ne _ _))
  -- The lookup, BEGIN, the locks and the three writes of the first attempt.
  have r3 := Reachable.step r2 (.sql (t := 0) (n := 0) rfl rfl ⟨rfl, rfl⟩ (by simp))
  have r4 := Reachable.step r3 (.sql (t := 0) (n := 0) rfl rfl ⟨rfl, rfl⟩ (by simp))
  have r5 := Reachable.step r4 (.sql (t := 0) (n := 0) rfl rfl ⟨rfl, rfl⟩ (by simp))
  have r6 := Reachable.step r5 (.sql (t := 0) (n := 0) rfl rfl ⟨rfl, rfl⟩ (by simp))
  have r7 := Reachable.step r6 (.sql (t := 0) (n := 0) rfl rfl ⟨rfl, rfl⟩ (by simp))
  have r8 := Reachable.step r7 (.sql (t := 0) (n := 0) rfl rfl ⟨rfl, rfl⟩ fun k m => .inl rfl)
  have r9 := Reachable.step r8 (.sql (t := 0) (n := 0) rfl rfl ⟨rfl, rfl⟩ (by decide))
  have r10 := Reachable.step r9 (.sql (t := 0) (n := 0) rfl rfl ⟨rfl, rfl⟩ (by decide))
  have r11 := Reachable.step r10 (.sql (t := 0) (n := 0) rfl rfl ⟨rfl, rfl⟩ (by decide))
  have r12 :=
    Reachable.step r11 (.commitFails (t := 0) (n := 0) .lost (by simp) rfl (.underway 0 _))
  have r13 := Reachable.step r12 (.rollbackFails (t := 0) (n := 0) .lost (by simp) rfl (.kept _))
  have r14 := Reachable.step r13 (.close (t := 0) (n := 0) rfl (.kept _) fun _ _ e => by cases e)
  have r15 :=
    Reachable.step r14 (.connect (t := 0) 1 rfl (fresh_of_pair r14 rfl (fun _ e => by cases e; rfl)
    (fun _ e => by cases e) fun t ne _ => by
      simp [Config.setTask, Config.run, Config.setConn, Function.update_of_ne ne, Config.init]))
  have r16 := Reachable.step r15 (.sql (t := 0) (n := 1) rfl rfl ⟨rfl, rfl⟩ (by simp))
  have r17 := Reachable.step r16 (.sql (t := 0) (n := 1) rfl rfl ⟨rfl, rfl⟩ (by simp))
  have r18 := Reachable.step r17 (.sql (t := 0) (n := 1) rfl rfl ⟨rfl, rfl⟩ (by simp))
  have r19 := Reachable.step r18 (.sql (t := 0) (n := 1) rfl rfl ⟨rfl, rfl⟩ (by simp))
  have r20 := Reachable.step r19 (.sql (t := 0) (n := 1) rfl rfl ⟨rfl, rfl⟩ (by simp))
  -- The second attempt has found no row, and now the first one commits.
  have r21 := Reachable.step r20 (.orphanCommits 0 0 _ rfl)
  have r22 := Reachable.step r21 (.sql (t := 0) (n := 1) rfl rfl ⟨rfl, rfl⟩ (by decide))
  have r23 := Reachable.step r22 (.rollback (t := 0) (n := 1) rfl rfl)
  have r24 := Reachable.step r23 (.close (t := 0) (n := 1) rfl (.lost 0 _) (by simp))
  have touched := claim galera1 demo demo_solvent _ 0 sixty _ none r24 rfl
  cases touched.log _ (List.mem_singleton_self _)

end Demo

end DbLab.Galera
