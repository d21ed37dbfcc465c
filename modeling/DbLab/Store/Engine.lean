import DbLab.Store.Program

/-!
# A store under strict two-phase locking

The server side of the programs. A statement locks the keys it reads for update or writes, waits
while another connection holds one of them, and keeps them until its transaction ends; its writes
are applied to the committed data at commit. Any request may fail: the transaction may survive, be
rolled back by the server, or be left behind by a lost connection, and a commit whose reply is lost
may still take effect or not, at any later time. A client that stops is one whose next request never
comes.
-/

namespace DbLab.Store
open Function

variable {I : Interface}

/-- The data of a store and what each statement may do, and the world outside.

`runs q d ws r d' ks ws'`: on the committed data `d` and with the writes `ws` of its transaction
pending, the statement `q` replies `r`, locks `ks` and adds the writes `ws'`. The data `d'` differs
from `d` only where no key reads, as when a counter moves. `acts x e a e'` is an action of a client
in the world `e`, and `drifts e e'` what the world does by itself. -/
structure Server (I : Interface) where
  Db : Type
  Env : Type
  Key : Type
  Val : Type
  Write : Type
  [decKey : DecidableEq Key]
  read : Db → Key → Val
  apply : Db → Write → Db
  touched : Write → List Key
  runs (q : I.Query) : Db → List Write → Except Failure (I.Rows q) → Db → List Key →
    List Write → Prop
  acts (x : I.Action) : Env → I.Outcome x → Env → Prop
  drifts : Env → Env → Prop
  frame : ∀ {d w k}, k ∉ touched w → read (apply d w) k = read d k
  runs_touched : ∀ {q d ws r d' ks ws'}, runs q d ws r d' ks ws' →
    ∀ w ∈ ws', ∀ k ∈ touched w, k ∈ ks
  runs_read : ∀ {q d ws r d' ks ws'}, runs q d ws r d' ks ws' → ∀ k, read d' k = read d k

attribute [instance] Server.decKey

/-- The committed data and the world outside. -/
structure World (S : Server I) where
  db : S.Db
  env : S.Env

namespace Server
variable (S : Server I)

def commit (d : S.Db) (ws : List S.Write) : S.Db := ws.foldl S.apply d

variable {S}

/-- A commit leaves the keys alone that none of its writes touches. -/
lemma commit_frame {d : S.Db} {ws : List S.Write} {k : S.Key} (h : ∀ w ∈ ws, k ∉ S.touched w) :
    S.read (S.commit d ws) k = S.read d k := by
  induction ws generalizing d with
  | nil => rfl
  | cons w ws ih =>
    rw [commit, List.foldl_cons, ← commit, ih fun w' m => h w' (List.mem_cons_of_mem _ m)]
    exact S.frame (h w List.mem_cons_self)

end Server

def World.commit {S : Server I} (w : World S) (ws : List S.Write) : World S :=
  { w with db := S.commit w.db ws }

/-- What the server knows of a connection's client: it waits for statements, it is gone, or it is
gone behind a commit. -/
inductive Phase where
  | active
  | dead
  | committing
deriving DecidableEq

/-- The transaction of a connection, and the task whose connection it is. -/
structure Conn (S : Server I) where
  task : Nat
  writes : List S.Write
  phase : Phase

/-- A call that runs: what was called, the world when it began, what is left of its program and its
connection. -/
structure Task (S : Server I) (C α : Type) where
  call : C
  born : World S
  prog : Prog I α
  conn : Option Nat

/-- A state of the whole system. `log` is the history of commits, each with the task it belongs
to. -/
structure Config (S : Server I) (C α : Type) where
  world : World S
  owner : S.Key → Option Nat
  conns : Nat → Option (Conn S)
  tasks : Nat → Option (Task S C α)
  log : List (Nat × List S.Write)

variable {S : Server I} {C α : Type}

def Config.init (w : World S) : Config S C α where
  world := w
  owner := fun _ => none
  conns := fun _ => none
  tasks := fun _ => none
  log := []

/-- The locks after those of connection `n` are released. -/
def release (owner : S.Key → Option Nat) (n : Nat) : S.Key → Option Nat :=
  fun k => if owner k = some n then none else owner k

def acquire (owner : S.Key → Option Nat) (n : Nat) (ks : List S.Key) : S.Key → Option Nat :=
  fun k => if k ∈ ks then some n else owner k

/-- What a failed request may do to its connection: nothing, or it is lost. -/
inductive Fails : Option (Conn S) → Option (Conn S) → Prop where
  | kept (c : Option (Conn S)) : Fails c c
  | lost (t : Nat) (ws : List S.Write) : Fails (some ⟨t, ws, .active⟩) (some ⟨t, ws, .dead⟩)

/-- What a failed commit may do: it may also be on its way. -/
inductive CommitFails : Option (Conn S) → Option (Conn S) → Prop where
  | fails {c c' : Option (Conn S)} (h : Fails c c') : CommitFails c c'
  | underway (t : Nat) (ws : List S.Write) : CommitFails (some ⟨t, ws, .active⟩)
      (some ⟨t, ws, .committing⟩)

namespace Config

def setTask (s : Config S C α) (t : Nat) (T : Task S C α) : Config S C α :=
  { s with tasks := update s.tasks t (some T) }

def setConn (s : Config S C α) (n : Nat) (c : Option (Conn S)) : Config S C α :=
  { s with conns := update s.conns n c }

/-- The connection `n` runs a statement. -/
def run (s : Config S C α) (n : Nat) (d : S.Db) (ks : List S.Key) (c : Conn S) : Config S C α :=
  { s with
    world := { s.world with db := d }
    owner := acquire s.owner n ks
    conns := update s.conns n (some c) }

/-- The transaction of connection `n` ends without effect. -/
def abort (s : Config S C α) (n : Nat) (c : Option (Conn S)) : Config S C α :=
  { s with owner := release s.owner n, conns := update s.conns n c }

/-- The transaction of connection `n` takes effect. -/
def commit (s : Config S C α) (n : Nat) (t : Nat) (ws : List S.Write) (c : Option (Conn S)) :
    Config S C α :=
  { s with
    world := s.world.commit ws
    owner := release s.owner n
    conns := update s.conns n c
    log := s.log ++ [(t, ws)] }

/-- The connection that was set. -/
lemma setConn_self (s : Config S C α) (n : Nat) (c : Option (Conn S)) :
    (s.setConn n c).conns n = c :=
  update_self ..

/-- The connection that ran. -/
lemma run_self (s : Config S C α) (n : Nat) (d : S.Db) (ks : List S.Key) (c : Conn S) :
    (s.run n d ks c).conns n = some c :=
  update_self ..

/-- The connection that was aborted. -/
lemma abort_self (s : Config S C α) (n : Nat) (c : Option (Conn S)) : (s.abort n c).conns n = c :=
  update_self ..

/-- The connection that committed. -/
lemma commit_self (s : Config S C α) (n t : Nat) (ws : List S.Write) (c : Option (Conn S)) :
    (s.commit n t ws c).conns n = c :=
  update_self ..

/-- No one has the connection `n`. -/
structure Fresh (s : Config S C α) (n : Nat) : Prop where
  conn : s.conns n = none
  owner : ∀ k, s.owner k ≠ some n
  tasks : ∀ t T, s.tasks t = some T → T.conn ≠ some n

end Config

/-- One step: a call begins, a request of a task is answered, a connection without client ends, or
the world moves. -/
inductive Step (code : C → Prog I α) : Config S C α → Config S C α → Prop where
  | spawn {s} (t : Nat) (c : C) (free : s.tasks t = none) :
    Step code s (s.setTask t ⟨c, s.world, code c, none⟩)
  | connect {s t c b next} (n : Nat) (task : s.tasks t = some ⟨c, b, .ask .connect next, none⟩)
      (fresh : s.Fresh n) :
    Step code s ((s.setConn n (some ⟨t, [], .active⟩)).setTask t ⟨c, b, next (.ok ()), some n⟩)
  | connectFails {s t c b next} (e : Failure) (spurious : e ≠ .duplicate)
      (task : s.tasks t = some ⟨c, b, .ask .connect next, none⟩) :
    Step code s (s.setTask t ⟨c, b, next (.error e), none⟩)
  | sql {s t c b q next n ws r d' ks ws'}
      (task : s.tasks t = some ⟨c, b, .ask (.sql q) next, some n⟩)
      (conn : s.conns n = some ⟨t, ws, .active⟩) (runs : S.runs q s.world.db ws r d' ks ws')
      (free : ∀ k ∈ ks, s.owner k = none ∨ s.owner k = some n) :
    Step code s ((s.run n d' ks ⟨t, ws ++ ws', .active⟩).setTask t ⟨c, b, next r, some n⟩)
  | sqlFails {s t c b q next n c'} (e : Failure) (spurious : e ≠ .duplicate)
      (task : s.tasks t = some ⟨c, b, .ask (.sql q) next, some n⟩) (conn : Fails (s.conns n) c') :
    Step code s ((s.setConn n c').setTask t ⟨c, b, next (.error e), some n⟩)
  | sqlAborts {s t c b q next n ws} (e : Failure) (spurious : e ≠ .duplicate)
      (task : s.tasks t = some ⟨c, b, .ask (.sql q) next, some n⟩)
        (conn : s.conns n = some ⟨t, ws, .active⟩) :
    Step code s ((s.abort n (some ⟨t, [], .active⟩)).setTask t ⟨c, b, next (.error e), some n⟩)
  | commit {s t c b next n ws} (task : s.tasks t = some ⟨c, b, .ask .commit next, some n⟩)
      (conn : s.conns n = some ⟨t, ws, .active⟩) :
    Step code s ((s.commit n t ws (some ⟨t, [], .active⟩)).setTask t ⟨c, b, next (.ok ()), some n⟩)
  | commitFails {s t c b next n c'} (e : Failure) (spurious : e ≠ .duplicate)
      (task : s.tasks t = some ⟨c, b, .ask .commit next, some n⟩)
        (conn : CommitFails (s.conns n) c') :
    Step code s ((s.setConn n c').setTask t ⟨c, b, next (.error e), some n⟩)
  | commitAborts {s t c b next n ws} (e : Failure) (spurious : e ≠ .duplicate)
      (task : s.tasks t = some ⟨c, b, .ask .commit next, some n⟩)
        (conn : s.conns n = some ⟨t, ws, .active⟩) :
    Step code s ((s.abort n (some ⟨t, [], .active⟩)).setTask t ⟨c, b, next (.error e), some n⟩)
  | rollback {s t c b next n ws} (task : s.tasks t = some ⟨c, b, .ask .rollback next, some n⟩)
      (conn : s.conns n = some ⟨t, ws, .active⟩) :
    Step code s ((s.abort n (some ⟨t, [], .active⟩)).setTask t ⟨c, b, next (.ok ()), some n⟩)
  | rollbackFails {s t c b next n c'} (e : Failure) (spurious : e ≠ .duplicate)
      (task : s.tasks t = some ⟨c, b, .ask .rollback next, some n⟩) (conn : Fails (s.conns n) c') :
    Step code s ((s.setConn n c').setTask t ⟨c, b, next (.error e), some n⟩)
  | close {s t c b next n c'} (task : s.tasks t = some ⟨c, b, .ask .close next, some n⟩)
      (conn : Fails (s.conns n) c') (gone : ∀ t ws, c' ≠ some ⟨t, ws, .active⟩) :
    Step code s ((s.setConn n c').setTask t ⟨c, b, next (), none⟩)
  | act {s t c b x next n a e'} (task : s.tasks t = some ⟨c, b, .ask (.act x) next, n⟩)
      (acts : S.acts x s.world.env a e') :
    Step code s (({ s with world := { s.world with env := e' } } : Config S C α).setTask t ⟨c,
      b, next a, n⟩)
  | drift {s e'} (drifts : S.drifts s.world.env e') :
    Step code s { s with world := { s.world with env := e' } }
  | orphanRollsBack {s} (n t ws phase) (conn : s.conns n = some ⟨t, ws, phase⟩)
      (gone : phase ≠ .active) :
    Step code s (s.abort n none)
  | orphanCommits {s} (n t ws) (conn : s.conns n = some ⟨t, ws, .committing⟩) :
    Step code s (s.commit n t ws none)

/-- The states a run can reach from the world `w`. -/
inductive Reachable (code : C → Prog I α) (w : World S) : Config S C α → Prop where
  | init : Reachable code w (.init w)
  | step {s s'} (h : Reachable code w s) (step : Step code s s') : Reachable code w s'

/-- Who holds a lock has a connection. -/
def Config.Owned (s : Config S C α) : Prop := ∀ k n, s.owner k = some n → s.conns n ≠ none

namespace Config.Owned

variable {s : Config S C α} {n : Nat}

/-- Who holds a lock still has a connection after a connection changes. -/
lemma setConn {c : Option (Conn S)} (h : s.Owned) (kept : s.conns n ≠ none → c ≠ none) :
    (s.setConn n c).Owned := by
  intro k m owned
  rcases eq_or_ne m n with rfl | ne
  · rw [Config.setConn_self]
    exact kept (h k m owned)
  · exact (update_of_ne ne _ _).trans_ne (h k m owned)

/-- Running a statement keeps owners. -/
lemma run {ks : List S.Key} {c : Conn S} (h : s.Owned) (d : S.Db) : (s.run n d ks c).Owned := by
  intro k m owned
  rcases eq_or_ne m n with rfl | ne
  · simp [Config.run]
  · refine (update_of_ne ne _ _).trans_ne (h k m ?_)
    simp only [Config.run, acquire] at owned
    split at owned
    · exact absurd (Option.some.inj owned).symm ne
    · exact owned

/-- Aborting keeps owners. -/
lemma abort {c : Option (Conn S)} (h : s.Owned) : (s.abort n c).Owned := by
  intro k m owned
  have held : s.owner k = some m ∧ m ≠ n := by
    simp only [Config.abort, release] at owned
    split at owned
    · cases owned
    · exact ⟨owned, fun e => absurd (e ▸ owned) ‹_›⟩
  exact (update_of_ne held.2 _ _).trans_ne (h k m held.1)

end Config.Owned

/-- A failure keeps a connection that is there. -/
lemma Fails.kept_some {c c' : Option (Conn S)} (h : Fails c c') : c ≠ none → c' ≠ none := by
  cases h with
  | kept => exact id
  | lost => simp

/-- A failed commit keeps a connection that is there. -/
lemma CommitFails.kept_some {c c' : Option (Conn S)} (h : CommitFails c c') :
    c ≠ none → c' ≠ none := by
  cases h with
  | fails h => exact h.kept_some
  | underway => simp

/-- Every step keeps owners. -/
lemma Step.owned {code : C → Prog I α} {s s' : Config S C α} (step : Step code s s') (h : s.Owned) :
    s'.Owned := by
  cases step with
  | spawn | act | drift | connectFails => exact h
  | connect => exact h.setConn (by simp)
  | sql => exact h.run s.world.db
  | sqlFails _ _ _ conn | rollbackFails _ _ _ conn | close _ conn => exact h.setConn conn.kept_some
  | commitFails _ _ _ conn => exact h.setConn conn.kept_some
  -- A commit gives the locks back just as an abort does.
  | sqlAborts | commitAborts | rollback | orphanRollsBack | commit | orphanCommits => exact h.abort

/-- Every reachable state has owners. -/
lemma Reachable.owned {code : C → Prog I α} {w : World S} {s : Config S C α}
    (reach : Reachable code w s) : s.Owned := by
  induction reach with
  | init => exact fun _ _ owned => by cases owned
  | step _ step ih => exact step.owned ih

/-- A connection that nobody opened is new. -/
lemma Reachable.fresh {code : C → Prog I α} {w : World S} {s : Config S C α}
    (reach : Reachable code w s) {n : Nat}
    (conn : s.conns n = none) (tasks : ∀ t T, s.tasks t = some T → T.conn ≠ some n) : s.Fresh n :=
  ⟨conn, fun k owned => reach.owned k n owned conn, tasks⟩

/-- What the tasks are after one of them, which has not ended, went on. -/
lemma kept_update {tasks : Nat → Option (Task S C α)} {t u : Nat} {T U V : Task S C α}
    (going : tasks u = some U)
    (call : V.call = U.call) (asks : ∀ a, U.prog ≠ .ret a) (task : tasks t = some T) :
    ∃ T', update tasks u (some V) t = some T' ∧ T'.call = T.call ∧
      ∀ a, T.prog = .ret a → T' = T := by
  rcases eq_or_ne t u with rfl | ne
  · cases going.symm.trans task
    exact ⟨V, update_self .., call, fun a ended => absurd ended (asks a)⟩
  · exact ⟨T, (update_of_ne ne _ _).trans task, rfl, fun _ _ => rfl⟩

/-- A task keeps its call, and one that has ended stays as it is. -/
lemma Step.kept {code : C → Prog I α} {s s' : Config S C α} (step : Step code s s') {t : Nat}
    {T : Task S C α}
    (task : s.tasks t = some T) :
    ∃ T', s'.tasks t = some T' ∧ T'.call = T.call ∧ ∀ a, T.prog = .ret a → T' = T := by
  cases step with
  | spawn u c free =>
    have ne : t ≠ u := fun e => by cases (e ▸ task).symm.trans free
    exact ⟨T, (update_of_ne ne _ _).trans task, rfl, fun _ _ => rfl⟩
  | drift | orphanRollsBack | orphanCommits => exact ⟨T, task, rfl, fun _ _ => rfl⟩
  | connect _ going | connectFails _ _ going | sql going | sqlFails _ _ going | sqlAborts _ _ going
  | commit going | commitFails _ _ going | commitAborts _ _ going | rollback going
  | rollbackFails _ _ going | close going | act going =>
    exact kept_update going rfl (by simp) task

/-- One state leads to another. -/
abbrev Steps (code : C → Prog I α) : Config S C α → Config S C α → Prop :=
  Relation.ReflTransGen (Step code)

/-- Steps from a reachable state. -/
lemma Steps.reachable {code : C → Prog I α} {w : World S} {s s' : Config S C α}
    (reach : Reachable code w s)
    (steps : Steps code s s') : Reachable code w s' := by
  induction steps with
  | refl => exact reach
  | tail _ last ih => exact .step ih last

end DbLab.Store
