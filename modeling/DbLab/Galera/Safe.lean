import DbLab.Galera.Moves
import DbLab.Store.Solo
import DbLab.Store.Soundness

/-!
# Transfers are safe

Any number of workers serve their requests at once, with failures, retries and commits whose reply
is lost. A transfer locks both accounts before it looks at them and claims its request id before it
moves money, so what it commits is all of one transfer, under an id that is free.
-/

namespace DbLab.Galera
open DbLab.Py DbLab.Store Work

/-- The contract of the workload on a bank that began as `d₀`. -/
def bank (S : Schema) (d₀ : Database) : Contract (writer S) where
  Inv := fun w => Database.Moved d₀ w.db
  Guar := fun v w => ∀ t ∈ v.db.transfers.rows, t ∈ w.db.transfers.rows
  refl := fun _ _ m => m
  trans := fun h h' t m => h' t (h t m)
  runs := by
    rintro q w ws r d' ks ws' inv ⟨rfl, _⟩
    exact ⟨inv, fun _ m => m⟩
  drifts := nofun

/-- What a request may commit: nothing, or all of its transfer, under an id that is free. -/
def Request.marks (S : Schema) (r : Request) : Marks (writer S) where
  before := fun ws w => ws ≠ [] → w.db.transfers.find? r.requestId = none
  after :=
    fun ws w => ws ≠ [] → ∃ host, ws = transferWrites r host ∧ r.row host ∈ w.db.transfers.rows

/-- An answer with a host name is backed by a row with the parameters of the request. -/
def Request.Backed (r : Request) (d : Database) (host : Str) : Prop :=
  ∃ t ∈ d.transfers.rows, t.requestId = r.requestId ∧ r.Matches t ∧ t.handledBy = host

def Request.Tells (r : Request) (d : Database) (a : Option Str) : Prop :=
  ∀ host, a = some host → r.Backed d host

/-- The target of a request is known, by the foreign keys or from the start. -/
def Request.Known (S : Schema) (d₀ : Database) (r : Request) : Prop :=
  S.foreignKeys = true ∨ (d₀.balance r.target).isSome

section Rules
variable {S : Schema} {d₀ : Database} {r : Request} {m : Mode (writer S)} {v : World (writer S)}
  {done : List (List Write)} {l : Local (writer S)} {held : List (Key × Option Row)}
    {ws : List Write}

/-- A task that still has its connection. -/
structure Connected (S : Schema) (d₀ : Database) (v : World (writer S)) (l : Local (writer S)) :
    Prop where
  opened : l.mode ≠ .closed
  at_ : ∃ done, (bank S d₀).At l.mode v done l

/-- Where an attempt stands while its connection is open. -/
lemma Connected.intro (h : (bank S d₀).At m v done l) (opened : m ≠ .closed) : Connected S d₀ v l :=
  ⟨h.mode ▸ opened, done, h.mode ▸ h⟩

/-- The weakest precondition of a part of `transfer`, which raises only while it is connected. -/
abbrev wp {α : Type} (S : Schema) (d₀ : Database) (r : Request) (v : World (writer S))
    (Q : α → Local (writer S) → Prop)
    (p : Work α) : Local (writer S) → Prop :=
  (bank S d₀).wpc (r.marks S) Q (fun _ : Raised => Connected S d₀ v) p

/-- One part of the program after the other. -/
lemma bind_wp {α β : Type} {p : Work α} {f : α → Work β} {Q : β → Local (writer S) → Prop}
    (h : wp S d₀ r v (fun a => wp S d₀ r v Q (f a)) p l) : wp S d₀ r v Q (p >>= f) l :=
  ((bank S d₀).wpc_bind p f l).2 h

/-- A statement is answered by `Query.eval` on the rows its transaction sees. -/
lemma query_wp {q : Query} {Q : q.Rows → Local (writer S) → Prop}
    (h : (bank S d₀).At (.live held ws) v done l)
    (ok : ∀ l a ks ws', Query.eval S (ws.foldl Database.apply l.view.db) q = (.ok a, ks, ws') →
      (∀ e ∈ held, l.view.db.read e.1 = e.2) →
      (bank S d₀).At (.live (held ++ ks.map fun k => (k, l.view.db.read k)) (ws ++ ws')) v done l →
      Q a l) :
    wp S d₀ r v Q (query q) l := by
  refine h.execute (fun w sees a d' ks ws' runs l view at' => ?_)
    (fun w _ e d' ks ws' runs l view at' => ?_)
    fun e l _ at' => .intro at' nofun
  · obtain ⟨rfl, run⟩ := runs
    have same : l.view = w := view
    have reads := sees.read
    rw [← same] at run at' reads
    exact ok l a ks ws' run.symm reads at'
  · exact .intro at' nofun

/-- A statement about the session. -/
lemma session_wp {s : Session} {Q : Unit → Local (writer S) → Prop}
    (h : (bank S d₀).At (.live held ws) v done l)
    (ok : ∀ l, (bank S d₀).At (.live held ws) v done l → Q () l) :
    wp S d₀ r v Q (query (.session s)) l := by
  refine query_wp h fun l a ks ws' run _ at' => ?_
  cases run
  simp only [List.map_nil, List.append_nil] at at'
  exact ok l at'

/-- The host is the one of the server. -/
lemma hostname_wp {Q : Str → Local (writer S) → Prop} (h : (bank S d₀).At (.live held ws) v done l)
    (ok : ∀ l, (bank S d₀).At (.live held ws) v done l → Q S.host l) :
    wp S d₀ r v Q (query .hostname) l := by
  refine query_wp h fun l a ks ws' run _ at' => ?_
  cases run
  simp only [List.map_nil, List.append_nil] at at'
  exact ok l at'

/-- The lookup of a request id, outside a transaction. -/
lemma find_wp {id : Str} {Q : Option Transfer → Local (writer S) → Prop}
    (h : (bank S d₀).At (.live [] []) v done l)
    (ok : ∀ l, (bank S d₀).At (.live [] []) v done l → Q (l.view.db.transfers.find? id) l) :
    wp S d₀ r v Q (query (.find id)) l := by
  refine query_wp h fun l a ks ws' run _ at' => ?_
  cases run
  simp only [List.map_nil, List.append_nil] at at'
  exact ok l at'

/-- The locks of a transfer, and the rows under them. -/
structure Locked (r : Request) (a : Account) (target : Option Row)
    (held : List (Key × Option Row)) : Prop where
  source : (.account r.source, some (.account a)) ∈ held
  target : (.account r.target, target) ∈ held
  own : a.id = r.source

/-- More locks do not harm. -/
lemma Locked.append {a : Account} {target : Option Row} (h : Locked r a target held)
    (more : List (Key × Option Row)) :
    Locked r a target (held ++ more) :=
  ⟨List.mem_append_left _ h.source, List.mem_append_left _ h.target, h.own⟩

/-- Both accounts are locked and their balances read. -/
lemma lockBalances_wp {Q : Int → Local (writer S) → Prop}
    (h : (bank S d₀).At (.live [] []) v done l)
    (ok : ∀ a target held l, Locked r a target held → (bank S d₀).At (.live held []) v done l →
      Q a.balance l) :
    wp S d₀ r v Q (lockBalances r) l := by
  refine bind_wp (query_wp h fun l rows ks ws' run _ at' => ?_)
  cases run
  split
  · rename_i a found
    have own : a.id = r.source := by simpa using List.find?_some found
    have row : l.view.db.accounts.find? r.source = some a := by
      obtain ⟨k, _, e⟩ := List.mem_filterMap.1 (List.mem_of_find?_eq_some found)
      have key := (Table.find?_eq_some.1 e).2
      rw [← own, key]
      exact e
    refine ok a (l.view.db.read (.account r.target)) _ l ⟨?_, ?_, own⟩ at'
    · have read : some (Row.account a) = l.view.db.read (.account r.source) := by
        rw [Database.read, row]; rfl
      rw [read]
      rcases Int.le_total r.source r.target with le | le
      · simp [Int.min_eq_left le]
      · simp [Int.max_eq_left le]
    · rcases Int.le_total r.source r.target with le | le
      · simp [Int.max_eq_right le]
      · simp [Int.min_eq_right le]
  · exact .intro at' (by simp)

/-- The claim of a request id. -/
lemma insert_wp {host : Str} {Q : Unit → Local (writer S) → Prop}
    (h : (bank S d₀).At (.live held []) v done l)
    (ok : ∀ l, (bank S d₀).At
      (.live (held ++ [(.transfer r.requestId, none)]) [.insert (r.row host)]) v done l →
      (∀ e ∈ held, l.view.db.read e.1 = e.2) →
      (S.foreignKeys = true → (l.view.db.accounts.find? r.target).isSome) → Q () l) :
    wp S d₀ r v Q (query (.insert (r.row host))) l := by
  refine query_wp h fun l a ks ws' run reads at' => ?_
  rw [Query.eval] at run
  split at run
  · cases run
  split at run
  · cases run
  split at run
  · cases run
  rename_i _ free foreign
  cases run
  have free : l.view.db.read (.transfer r.requestId) = none := by
    simpa [Database.read, Request.row] using free
  have known : S.foreignKeys = true → (l.view.db.accounts.find? r.target).isSome := by
    intro fk
    by_contra missing
    exact foreign ⟨fk, fun both => missing both.2⟩
  simp only [Request.row, List.map_cons, List.map_nil, free] at at'
  exact ok l at' reads known

/-- An `UPDATE` of a balance whose account is there. -/
lemma add_wp {id delta : Int} {Q : Unit → Local (writer S) → Prop}
    (h : (bank S d₀).At (.live held ws) v done l)
    (there : ∀ d : Database, Database.Moved d₀ d → (∀ e ∈ held, d.read e.1 = e.2) →
      ((ws.foldl Database.apply d).accounts.find? id).isSome)
    (ok : ∀ l held', (bank S d₀).At (.live (held ++ held') (ws ++ [.add id delta])) v done l →
      Q () l) :
    wp S d₀ r v Q (query (.add id delta)) l := by
  refine query_wp h fun l a ks ws' run reads at' => ?_
  have found := there l.view.db at'.inv reads
  rw [Query.eval] at run
  split at run
  · rename_i missing
    rw [missing] at found
    cases found
  · split at run
    · cases run
    split at run
    · cases run
    cases run
    exact ok l _ at'

/-! ### The transfer -/

/-- What was read under a lock is still there. -/
lemma Locked.found {a : Account} {target : Option Row} {d : Database} (h : Locked r a target held)
    (reads : ∀ e ∈ held, d.read e.1 = e.2) : d.accounts.find? r.source = some a := by
  have read := reads _ h.source
  obtain ⟨a', found, e⟩ := Option.map_eq_some_iff.1 read
  cases e
  exact found

/-- An account has a balance just if it is there. -/
lemma balance_isSome {d : Database} {k : Int} :
    (d.balance k).isSome = (d.accounts.find? k).isSome := Option.isSome_map

/-- The account of the target is there when money arrives. -/
lemma Locked.target_found {a : Account} {target : Option Row} {d d' : Database}
    (h : Locked r a target held)
    (known : r.Known S d₀) (reads : ∀ e ∈ held, d.read e.1 = e.2)
    (foreign : S.foreignKeys = true → (d.accounts.find? r.target).isSome)
    (moved : Database.Moved d₀ d')
    (reads' : ∀ e ∈ held, d'.read e.1 = e.2) : (d'.accounts.find? r.target).isSome := by
  rcases known with fk | start
  · have same : d'.read (.account r.target) = d.read (.account r.target) :=
      (reads' _ h.target).trans (reads _ h.target).symm
    have there := foreign fk
    rw [← Option.isSome_map (f := Row.account)] at there ⊢
    exact (congrArg Option.isSome same).trans there
  · obtain ⟨new, _, balances⟩ := moved.moves
    rw [← balance_isSome, balances, Option.isSome_map]
    exact start

/-- No write adds or removes an account. -/
lemma foldl_accounts_isSome {ws : List Write} {d : Database} {k : Int} :
    ((ws.foldl Database.apply d).accounts.find? k).isSome = (d.accounts.find? k).isSome := by
  induction ws generalizing d with
  | nil => rfl
  | cons w ws ih =>
    rw [List.foldl_cons, ih]
    cases w with
    | insert t => rfl
    | add id delta =>
      rw [← balance_isSome, Database.balance_add, ← balance_isSome]
      split
      · exact Option.isSome_map
      · rfl

/-- What a transfer returns, and how it leaves its connection. -/
structure Answers (S : Schema) (d₀ : Database) (r : Request) (v : World (writer S)) (a : Option Str)
    (l : Local (writer S)) : Prop where
  connected : Connected S d₀ v l
  tells : r.Tells l.view.db a

/-- The money is moved, or there is too little of it. -/
lemma move_wp (known : r.Known S d₀) (h : (bank S d₀).At (.live [] []) v done l) :
    wp S d₀ r v (Answers S d₀ r v) (move r) l := by
  refine bind_wp (hostname_wp h fun l h =>
    bind_wp (lockBalances_wp h fun a target held l locked h => ?_))
  split
  · refine bind_wp (h.rollback (by simp) (fun l h => ?_) fun e l _ h => .intro h (by simp))
    exact ⟨.intro h (by simp), fun host e => by cases e⟩
  · rename_i rich
    refine bind_wp (insert_wp h fun l₁ h reads foreign => ?_)
    have locked' := locked.append [(.transfer r.requestId, none)]
    have there : ∀ d, Database.Moved d₀ d →
      (∀ e ∈ held ++ [(.transfer r.requestId, none)], d.read e.1 = e.2) →
        (d.accounts.find? r.target).isSome := fun d moved reads' =>
      locked.target_found known reads foreign moved fun e m => reads' e (List.mem_append_left _ m)
    refine bind_wp (add_wp h (fun d moved reads => ?_) fun l held₂ h => ?_)
    · rw [foldl_accounts_isSome, locked'.found reads]
      rfl
    refine bind_wp (add_wp h (fun d moved reads => ?_) fun l held₃ h => ?_)
    · rw [foldl_accounts_isSome]
      exact there d moved fun e m => reads e (List.mem_append_left _ m)
    -- All that the commit relies on was read under its locks.
    have keeps : ∀ w, (bank S d₀).Sees ((held ++ [(.transfer r.requestId, none)]) ++
      held₂ ++ held₃) v w →
        Database.Moved d₀ ((transferWrites r S.host).foldl Database.apply w.db) ∧
          w.db.transfers.find? r.requestId = none := by
      intro w sees
      have reads : ∀ e ∈ held ++ [(.transfer r.requestId, none)], w.db.read e.1 = e.2 := fun e m =>
        sees.read e (List.mem_append_left _ (List.mem_append_left _ m))
      have free : w.db.transfers.find? r.requestId = none :=
        Option.map_eq_none_iff.1 (reads (.transfer r.requestId, none) (by simp))
      have source : w.db.balance r.source = some a.balance := by
        rw [Database.balance, locked'.found reads]; rfl
      have target := there w.db sees.inv reads
      rw [← balance_isSome] at target
      obtain ⟨c, target⟩ := Option.isSome_iff_exists.1 target
      exact ⟨sees.inv.transfer free source (by omega) target, free⟩
    have inserted : ∀ w, (bank S d₀).Sees ((held ++ [(.transfer r.requestId, none)]) ++
      held₂ ++ held₃) v w →
        r.row S.host ∈ ((transferWrites r S.host).foldl Database.apply w.db).transfers.rows :=
          fun w sees =>
      Table.mem_insert_self (keeps w sees).2
    refine bind_wp (h.commit (fun w sees => ?_) (fun w sees l view h => ?_) fun e l _ h =>
      .intro h (by simp))
    · obtain ⟨moved, free⟩ := keeps w sees
      exact ⟨moved, fun t m => Table.mem_insert m, fun _ => free,
        fun _ => ⟨S.host, rfl, inserted w sees⟩⟩
    · refine ⟨.intro h (by simp), ?_⟩
      rintro host ⟨⟩
      rw [view]
      exact ⟨_, inserted w sees, rfl, ⟨rfl, rfl, rfl⟩, rfl⟩

/-- An attempt that has failed is rolled back. -/
lemma abandon_wp {e : Raised} {Q : Option Str → Local (writer S) → Prop} (h : Connected S d₀ v l) :
    wp S d₀ r v Q (abandon e) l := by
  obtain ⟨done, at_⟩ := h.at_
  refine bind_wp (((bank S d₀).wpc_tryCatch _ _ _).2
    (at_.rollback h.opened (fun l h => ?_) fun f l _ h => ?_))
  · exact .intro h nofun
  · exact .intro h nofun

/-- One attempt at a transfer. -/
theorem transfer_wp (known : r.Known S d₀) (h : (bank S d₀).At (.live [] []) v done l) :
    wp S d₀ r v (Answers S d₀ r v) (transfer r) l := by
  refine bind_wp (session_wp h fun l h => bind_wp (find_wp h fun l h => ?_))
  split
  · rename_i row found
    obtain ⟨m, id⟩ := Table.find?_eq_some.1 found
    split
    · rename_i matches_
      refine ⟨.intro h nofun, ?_⟩
      rintro host ⟨⟩
      exact ⟨row, m, id, matches_, rfl⟩
    · exact .intro h nofun
  · refine bind_wp (session_wp h fun l h => bind_wp (session_wp h fun l h => ?_))
    refine ((bank S d₀).wpc_tryCatch _ _ _).2
      ((bank S d₀).wpc_mono (move_wp known h) (fun _ _ a => a) ?_)
    exact fun e l c => abandon_wp c

/-! ### The attempts -/

/-- What is raised is caught. -/
lemma attempted_wp {α : Type} {p : Work α} {Q : α → Local (writer S) → Prop}
    {E E' : Raised → Local (writer S) → Prop}
    {R : Except Raised α → Local (writer S) → Prop} (h : (bank S d₀).wpc (r.marks S) Q E p l)
    (ok : ∀ a l, Q a l → R (.ok a) l) (error : ∀ e l, E e l → R (.error e) l) :
    (bank S d₀).wpc (r.marks S) R E' (attempted p) l := by
  refine ((bank S d₀).wpc_tryCatch _ _ _).2 (((bank S d₀).wpc_bind _ _ _).2 ?_)
  exact (bank S d₀).wpc_mono h ok error

/-- An answer stays true as rows are added. -/
lemma Request.Tells.mono {d d' : Database} {a : Option Str} (h : r.Tells d a)
    (le : ∀ t ∈ d.transfers.rows, t ∈ d'.transfers.rows) : r.Tells d' a := by
  intro host e
  obtain ⟨t, m, rest⟩ := h host e
  exact ⟨t, le t m, rest⟩

/-- What is known of an outcome. -/
def Request.Ends (r : Request) (d : Database) (x : Outcome) : Prop :=
  ∀ a, x = .answered a → r.Tells d a

/-- All attempts at a transfer. -/
theorem attempts_wp (known : r.Known S d₀) (n : Nat) (h : (bank S d₀).At .closed v done l) :
    (bank S d₀).wpc (r.marks S) (fun x l => r.Ends l.view.db x) (fun _ : Raised => fun _ => True)
      (attempts r n) l := by
  induction n generalizing v done l with
  | zero => exact nofun
  | succ n ih =>
    have retry : ∀ {e v done l}, (bank S d₀).At .closed v done l →
        (bank S d₀).wpc (r.marks S) (fun x l => r.Ends l.view.db x)
          (fun _ : Raised => fun _ => True)
          (retryOr (attempts r n) e) l := by
      intro e v done l h
      cases e with
      | sql e =>
        unfold retryOr
        dsimp only
        split
        · exact ih h
        · trivial
      | runtimeError m => trivial
      | keyError => trivial
    refine ((bank S d₀).wpc_bind _ _ _).2
      (attempted_wp (Q := fun _ l => (bank S d₀).At (.live [] []) v done l)
      (E := fun _ l => (bank S d₀).At .closed v done l) ?_ (fun _ l h => ?_) fun e l h => retry h)
    · exact h.connect (fun l h => h) fun e l _ h => h
    · refine ((bank S d₀).wpc_bind _ _ _).2 (attempted_wp (transfer_wp known h) (fun a l ans => ?_)
        fun e l c => ?_)
      · obtain ⟨done, at_⟩ := ans.connected.at_
        refine ((bank S d₀).wpc_bind _ _ _).2 (at_.rebase.close ans.connected.opened fun l' h => ?_)
        rintro a ⟨⟩
        exact ans.tells.mono h.guar
      · obtain ⟨done, at_⟩ := c.at_
        exact ((bank S d₀).wpc_bind _ _ _).2 (at_.close c.opened fun l' h => retry h)

end Rules

/-! ### The system -/

section System
variable (S : Schema) (d₀ : Database)

/-- The requests of the workload. -/
abbrev Requests := { r : Request // r.Known S d₀ }

def program (r : Requests S d₀) : Prog interface (Except Raised Outcome) := (serve r.1).run

abbrev System := Config (writer S) (Requests S d₀) (Except Raised Outcome)

/-- The result of a request in the state in which it ended. -/
def ends (r : Requests S d₀) (_ : World (writer S)) (x : Except Raised Outcome)
    (_ : List (List Write))
    (w : World (writer S)) : Prop :=
  ∀ o, x = .ok o → r.1.Ends w.db o

/-- The program of a transfer is verified. -/
lemma verified : Verified (bank S d₀) (program S d₀) (fun r _ => r.1.marks S) (ends S d₀) where
  code := by
    intro r b inv
    have start : (bank S d₀).At .closed b [] ⟨.closed, b, []⟩ := ⟨rfl, inv, fun _ m => m, rfl⟩
    refine (bank S d₀).wp_mono (attempts_wp r.2 8 start) ?_
    rintro (e | x) l h
    · exact nofun
    · rintro o ⟨⟩
      exact h
  stable := by
    intro r b ws w w' _ guar after some_
    obtain ⟨host, writes, m⟩ := after some_
    exact ⟨host, writes, guar _ m⟩

variable {S d₀} {s : System S d₀}

/-- Every reachable system is sound. -/
theorem reachable_sound (solvent : d₀.Solvent) (h : Reachable (program S d₀) ⟨d₀, ()⟩ s) :
    Sound (bank S d₀) (fun r _ => r.1.marks S) (ends S d₀) s := by
  have start : (bank S d₀).Inv ⟨d₀, ()⟩ := Database.Moved.start solvent
  exact sound (verified S d₀) start h

/-- In every state of every run from a bank in which no account is overdrawn: a request id has at
most one row, every new row has moved its amount exactly once and nothing else has moved, the sum of
all balances is what it was, no balance is negative, and a request commits nothing under an id whose
row has other parameters. -/
theorem transfers_safe (solvent : d₀.Solvent) (h : Reachable (program S d₀) ⟨d₀, ()⟩ s) :
    (s.world.db.transfers.rows.map Transfer.requestId).Nodup ∧
    (∃ new, s.world.db.transfers.rows = d₀.transfers.rows ++ new ∧
      ∀ k, s.world.db.balance k = (d₀.balance k).map (· + net k new)) ∧
    s.world.db.total = d₀.total ∧
    (∀ k b, s.world.db.balance k = some b → 0 ≤ b) ∧
    ∀ t T, s.tasks t = some T → ∀ row ∈ s.world.db.transfers.rows,
      row.requestId = T.call.1.requestId → ¬T.call.1.Matches row → ∀ ws, (t, ws) ∈ s.log →
        ws = [] := by
  have sound := reachable_sound solvent h
  have inv : Database.Moved d₀ s.world.db := sound.inv
  refine ⟨s.world.db.transfers.nodup, inv.moves, inv.total, inv.solvent, ?_⟩
  intro t T task row m id other ws logged
  by_contra some_
  obtain ⟨T', task', after⟩ := sound.earned _ logged
  cases task.symm.trans task'
  obtain ⟨host, _, own⟩ := after some_
  have same := s.world.db.transfers.one_row m own id
  subst same
  exact other ⟨rfl, rfl, rfl⟩

end System

/-! ### A run of one transfer -/

section Demo

def galera1 : Schema := ⟨str "galera1", true⟩

/-- Two accounts, of which the first has 100. -/
def demo : Database := ⟨⟨[⟨1, 100⟩, ⟨2, 0⟩], by decide⟩, .empty⟩

/-- A transfer of 60 from the first to the second. -/
def asking (id : String) : Requests galera1 demo :=
  ⟨⟨str id, 1, 2, 60, by decide, by decide⟩, .inl rfl⟩

abbrev sixty := asking "r"

/-- No account of the demonstration is overdrawn. -/
lemma demo_solvent : demo.Solvent := by
  intro k b funds
  obtain ⟨r, found, rfl⟩ := Option.map_eq_some_iff.1 funds
  have nonneg : ∀ r ∈ demo.accounts.rows, 0 ≤ r.balance := by decide
  exact nonneg r (Table.find?_eq_some.1 found).1

/-- A connection that nobody opened is new to two tasks without connections. -/
lemma fresh_of_pair {w : World (writer galera1)} {s : System galera1 demo}
    (reach : Reachable (program galera1 demo) w s) {n : Nat} (conn : s.conns n = none)
    (first : ∀ T, s.tasks 0 = some T → T.conn = none)
    (second : ∀ T, s.tasks 1 = some T → T.conn = none)
    (others : ∀ t, t ≠ 0 → t ≠ 1 → s.tasks t = none) : s.Fresh n := by
  refine reach.fresh conn fun t T task => ?_
  by_cases zero : t = 0
  · rw [first T (zero ▸ task)]
    simp
  by_cases one : t = 1
  · rw [second T (one ▸ task)]
    simp
  · cases (others t zero one).symm.trans task

set_option maxRecDepth 4000 in
/-- `transfers_safe` for a transfer of 60 whose first `COMMIT` is not reported but takes effect: the
retry finds the row. -/
theorem transfers_safe_sixty : ∃ (s : System galera1 demo) (b : World (writer galera1)),
    Reachable (program galera1 demo) ⟨demo, ()⟩ s ∧
    s.tasks 0 = some ⟨sixty, b, .ret (.ok (.answered (some (str "galera1")))), none⟩ ∧
    (s.world.db.balance 1, s.world.db.balance 2) = (some 40, some 60) ∧
    (s.world.db.transfers.rows.map Transfer.requestId).Nodup ∧ s.world.db.total = demo.total := by
  let opening : World (writer galera1) := ⟨demo, ()⟩
  have r0 : Reachable (program galera1 demo) opening (.init opening) := .init
  have r1 := Reachable.step r0 (.spawn 0 sixty rfl)
  have r2 := Reachable.step r1 (.connect (t := 0) 0 rfl
    (fresh_of_pair r1 rfl (fun _ e => by cases e; rfl) (fun _ e => by cases e) fun t ne _ =>
      Function.update_of_ne ne _ _))
  -- The lookup, BEGIN, the locks and the three writes of the first attempt.
  have r3 := Reachable.step r2 (.sql (t := 0) (n := 0) rfl rfl ⟨rfl, rfl⟩ (by simp))
  have r4 := Reachable.step r3 (.sql (t := 0) (n := 0) rfl rfl ⟨rfl, rfl⟩ (by simp))
  have r5 := Reachable.step r4 (.sql (t := 0) (n := 0) rfl rfl ⟨rfl, rfl⟩ (by simp))
  have r6 := Reachable.step r5 (.sql (t := 0) (n := 0) rfl rfl ⟨rfl, rfl⟩ (by simp))
  have r7 := Reachable.step r6 (.sql (t := 0) (n := 0) rfl rfl ⟨rfl, rfl⟩ (by simp))
  have r8 := Reachable.step r7 (.sql (t := 0) (n := 0) rfl rfl ⟨rfl, rfl⟩ fun k m => .inl rfl)
  have r9 := Reachable.step r8 (.sql (t := 0) (n := 0) rfl rfl ⟨rfl, rfl⟩ (by decide))
  have r10 := Reachable.step r9 (.sql (t := 0) (n := 0) rfl rfl ⟨rfl, rfl⟩ (by decide))
  have r11 := Reachable.step r10 (.sql (t := 0) (n := 0) rfl rfl ⟨rfl, rfl⟩ (by decide))
  have r12 :=
    Reachable.step r11 (.commitFails (t := 0) (n := 0) .lost (by simp) rfl (.underway 0 _))
  have r13 := Reachable.step r12 (.rollbackFails (t := 0) (n := 0) .lost (by simp) rfl (.kept _))
  have r14 := Reachable.step r13 (.close (t := 0) (n := 0) rfl (.kept _) fun _ _ e => by cases e)
  -- The commit takes effect, and the second attempt looks for the request id.
  have r15 := Reachable.step r14 (.orphanCommits 0 0 _ rfl)
  have r16 :=
    Reachable.step r15 (.connect (t := 0) 1 rfl (fresh_of_pair r15 rfl (fun _ e => by cases e; rfl)
    (fun _ e => by cases e) fun t ne _ => by
      simp [Config.setTask, Config.run, Config.setConn, Config.commit, Function.update_of_ne ne,
        Config.init]))
  have r17 := Reachable.step r16 (.sql (t := 0) (n := 1) rfl rfl ⟨rfl, rfl⟩ (by simp))
  have r18 := Reachable.step r17 (.sql (t := 0) (n := 1) rfl rfl ⟨rfl, rfl⟩ (by simp))
  have r19 := Reachable.step r18 (.close (t := 0) (n := 1) rfl (.lost 0 _) (by simp))
  have safe := transfers_safe demo_solvent r19
  exact ⟨_, opening, r19, rfl, by decide +kernel, safe.1, safe.2.2.1⟩

end Demo

end DbLab.Galera
