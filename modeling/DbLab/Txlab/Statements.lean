import DbLab.Txlab.Books

/-!
# Proof rules for the statements of the repository

For each statement, what a program may assume of the row it finds and of the locks it then holds.
-/

namespace DbLab.Txlab
open DbLab.Py DbLab.Store Repo

/-! ### Rows and pending writes -/

namespace Database
variable {d : Database} {ws : List Write} {k : Key}

/-- A key that nothing writes reads as before. -/
lemma read_foldl_of_quiet (h : ∀ w ∈ ws, w.key ≠ k) : (ws.foldl apply d).read k = d.read k :=
  mariadb.commit_frame fun w m e => h w m (List.mem_singleton.1 e).symm

/-- The same reading, the same stock. -/
lemma inventory_of_read {d d' : Database} {c : Str}
    (h : d.read (.inventory c) = d'.read (.inventory c)) :
    d.inventory.find? c = d'.inventory.find? c :=
  Option.map_injective (fun _ _ e => Row.inventory.inj e) h

/-- The same wallet. -/
lemma wallet_of_read {d d' : Database} {c owner : Str}
    (h : d.read (.wallet c owner) = d'.read (.wallet c owner)) :
    d.wallets.find? (c, owner) = d'.wallets.find? (c, owner) :=
  Option.map_injective (fun _ _ e => Row.wallet.inj e) h

/-- The same order. -/
lemma order_of_read {d d' : Database} {id : Str} (h : d.read (.order id) = d'.read (.order id)) :
    d.orders.find? id = d'.orders.find? id :=
  Option.map_injective (fun _ _ e => Row.order.inj e) h

/-- What was inserted is read. -/
lemma read_insert_self (d : Database) (r : Row) : (d.insert r).read r.key ≠ none := by
  cases r <;> exact fun e => Table.find?_insert_self_ne_none _ _ (Option.map_eq_none_iff.1 e)

/-- No write removes a row. -/
lemma read_apply_ne_none {w : Write} (h : d.read k ≠ none) : (d.apply w).read k ≠ none := by
  by_cases e : k = w.key
  · subst e
    cases w with
    | insert r => exact read_insert_self d r
    | setAvailable c n | addAvailable c n | addBalance c owner n | setState id state =>
      simp only [apply, read, Write.key, ne_eq, Option.map_eq_none_iff,
        Table.find?_update_eq_none] at h ⊢
      exact h
  · rwa [read_apply e]

/-- What is there stays there. -/
lemma read_foldl_ne_none (h : d.read k ≠ none) : (ws.foldl apply d).read k ≠ none := by
  induction ws generalizing d with
  | nil => exact h
  | cons w ws ih => exact ih (read_apply_ne_none h)

/-- A pending row is there. -/
lemma read_pending {r : Row} (m : Write.insert r ∈ ws) : (ws.foldl apply d).read r.key ≠ none := by
  induction ws generalizing d with
  | nil => cases m
  | cons w ws ih =>
    rcases List.mem_cons.1 m with rfl | m
    · exact read_foldl_ne_none (d := d.insert r) (read_insert_self d r)
    · exact ih m

end Database

variable [Interpreter] {M : Marks mariadb} {E : Raised → Local mariadb → Prop} {m : Mode mariadb}
  {v : World mariadb} {done : List (List Write)} {l : Local mariadb}
  {held : List (Key × Option Row)} {ws : List Write}

/-! ### Rules -/

/-- What a requirement ends with. -/
lemma require_wp {c : Prop} [Decidable c] {e : Raised} {Q : Unit → Local mariadb → Prop}
    (ok : c → Q () l)
    (err : ¬c → E e l) : lab.wpc M Q E (require c e) l := by
  rw [require]
  split
  · exact ok ‹_›
  · exact err ‹_›

/-- A computation that returns. -/
lemma lift_wp {α : Type} {x : Except Exn α} {a : α} {Q : α → Local mariadb → Prop} (h : x = .ok a)
    (ok : Q a l) :
    lab.wpc M Q E (lift x) l := by
  rw [h]
  exact ok

/-- An action outside keeps the database. -/
lemma act_allowed {x : Action} {w : World mariadb} {a : x.Outcome} {e' : Unit}
    (sees : lab.Sees m.held v w)
    (_ : mariadb.acts x w.env a e') :
    lab.Inv { w with env := e' } ∧ lab.Guar w { w with env := e' } :=
  ⟨sees.inv, .refl _⟩

/-- What drawing an id ends with. -/
lemma uuid4_wp {Q : Str → Local mariadb → Prop} (h : lab.At m v done l)
    (ok : ∀ id l, orderIdOk id = true → lab.At m v done l → Q id l) : lab.wpc M Q E uuid4 l :=
  h.act (fun _ sees _ _ acts => act_allowed sees acts) fun _ _ id _ acts l _ at' => ok id l acts at'

/-- What tracing ends with. -/
lemma trace_wp {Q : Unit → Local mariadb → Prop} (h : lab.At m v done l)
    (ok : ∀ l, lab.At m v done l → Q () l)
    (full : ∀ l, lab.At m v done l → E (.runtimeError "Transaction trace budget exceeded") l) :
    lab.wpc M Q E trace l := by
  rw [trace, lab.wpc_bind]
  refine h.act (fun _ sees _ _ acts => act_allowed sees acts) fun _ _ room _ _ l _ at' => ?_
  exact require_wp (fun _ => ok l at') fun _ => full l at'

/-- A statement is answered by `Query.eval` on the rows its transaction sees. -/
lemma eval_wp {q : Query} {Q : q.Rows → Local mariadb → Prop} (h : lab.At (.live held ws) v done l)
    (ok : ∀ l a ks ws', Query.eval (ws.foldl Database.apply l.view.db) q = (.ok a, ks, ws') →
      lab.At (.live (held ++ ks.map fun k => (k, l.view.db.read k)) (ws ++ ws')) v done l → Q a l)
    (error : ∀ l e ks ws', Query.eval (ws.foldl Database.apply l.view.db) q = (.error e, ks, ws') →
      lab.At (.live (held ++ ks.map fun k => (k, l.view.db.read k)) (ws ++ ws')) v done l →
        E (.sql e) l)
    (fails : ∀ e l, e ≠ .duplicate → lab.At .failed v done l → E (.sql e) l) :
    lab.wpc M Q E (execute q) l := by
  refine h.execute (fun w _ a d' ks ws' runs l view at' => ?_)
    (fun w _ e d' ks ws' runs l view at' => ?_) fails
  · obtain ⟨rfl, run⟩ := runs
    have same : l.view = w := view
    rw [← same] at run at'
    exact ok l a ks ws' run.symm at'
  · obtain ⟨rfl, run⟩ := runs
    have same : l.view = w := view
    rw [← same] at run at'
    exact error l e ks ws' run.symm at'

/-- What setting the session up ends with. -/
lemma session_wp {s : Session} {Q : Unit → Local mariadb → Prop}
    (h : lab.At (.live held ws) v done l)
    (ok : ∀ l, lab.At (.live held ws) v done l → Q () l)
    (fails : ∀ e l, e ≠ .duplicate → lab.At .failed v done l → E (.sql e) l) :
    lab.wpc M Q E (execute (.session s)) l := by
  refine eval_wp h (fun l a ks ws' run at' => ?_) (fun l e ks ws' run => ?_) fails
  · cases run
    simp only [List.map_nil, List.append_nil] at at'
    exact ok l at'
  · cases run

/-- What inserting a row ends with. -/
lemma insert_wp {r : Row} {Q : Unit → Local mariadb → Prop} (h : lab.At (.live held ws) v done l)
    (ok : ∀ l, lab.At (.live (held ++ [(r.key, none)]) (ws ++ [.insert r])) v done l →
      l.view.db.read r.key = none → (∀ r', Write.insert r' ∈ ws → r'.key ≠ r.key) → Q () l)
    (taken : ∀ l, lab.At (.live held ws) v done l →
      (ws.foldl Database.apply l.view.db).read r.key ≠ none → E (.sql .duplicate) l)
    (fails : ∀ e l, e ≠ .duplicate → lab.At .failed v done l → E (.sql e) l) :
    lab.wpc M Q E (execute (.insert r)) l := by
  refine eval_wp h (fun l a ks ws' run at' => ?_) (fun l e ks ws' run at' => ?_) fails
  · rw [Query.eval] at run
    split at run
    · cases run
    · cases run
      rename_i free
      rw [Bool.not_eq_true, Option.isSome_eq_false_iff, Option.isNone_iff_eq_none] at free
      have base : l.view.db.read r.key = none := by
        by_contra taken
        exact Database.read_foldl_ne_none taken free
      simp only [List.map_cons, List.map_nil, base] at at'
      exact ok l at' base fun r' m e => Database.read_pending m (e ▸ free)
  · rw [Query.eval] at run
    split at run
    · cases run
      rename_i full
      simp only [List.map_nil, List.append_nil] at at'
      exact taken l at' (Option.isSome_iff_ne_none.1 full)
    · cases run

/-- A plain `SELECT` of a fixture, before its row is written. -/
lemma inventory_wp {c : Str} {Q : Option InventoryRow → Local mariadb → Prop}
    (h : lab.At (.live held ws) v done l)
    (quiet : ∀ w ∈ ws, w.key ≠ .inventory c)
    (ok : ∀ l, lab.At (.live held ws) v done l → Q (l.view.db.inventory.find? c) l)
    (fails : ∀ e l, e ≠ .duplicate → lab.At .failed v done l → E (.sql e) l) :
    lab.wpc M Q E (execute (.inventory c)) l := by
  refine eval_wp h (fun l a ks ws' run at' => ?_) nofun fails
  cases run
  simp only [List.map_nil, List.append_nil] at at'
  rw [Database.inventory_of_read (Database.read_foldl_of_quiet quiet)]
  exact ok l at'

/-- A `SELECT` of a claim in a transaction without writes. -/
lemma request_wp {c k : Str} {Q : Option RequestRow → Local mariadb → Prop}
    (h : lab.At (.live held []) v done l)
    (ok : ∀ l, lab.At (.live held []) v done l → Q (l.view.db.requests.find? (c, k)) l)
    (fails : ∀ e l, e ≠ .duplicate → lab.At .failed v done l → E (.sql e) l) :
    lab.wpc M Q E (execute (.request c k)) l := by
  refine eval_wp h (fun l a ks ws' run at' => ?_) nofun fails
  cases run
  simp only [List.map_nil, List.append_nil] at at'
  exact ok l at'

/-- A `SELECT` of an order in a transaction without writes. -/
lemma order_wp {id : Str} {Q : Option OrderRow → Local mariadb → Prop}
    (h : lab.At (.live held []) v done l)
    (ok : ∀ l, lab.At (.live held []) v done l → Q (l.view.db.orders.find? id) l)
    (fails : ∀ e l, e ≠ .duplicate → lab.At .failed v done l → E (.sql e) l) :
    lab.wpc M Q E (execute (.order id)) l := by
  refine eval_wp h (fun l a ks ws' run at' => ?_) nofun fails
  cases run
  simp only [List.map_nil, List.append_nil] at at'
  exact ok l at'

/-- A `SELECT ... FOR UPDATE` of an order, first in its transaction. -/
lemma orderOf_wp {id c : Str} {Q : Option OrderRow → Local mariadb → Prop}
    (h : lab.At (.live [] []) v done l)
    (some : ∀ o l, l.view.db.orders.find? id = some o → o.caseId = c →
      lab.At (.live [(.order id, some (.order o))] []) v done l → Q (some o) l)
    (none : ∀ l, lab.At (.live [] []) v done l → Q none l)
    (fails : ∀ e l, e ≠ .duplicate → lab.At .failed v done l → E (.sql e) l) :
    lab.wpc M Q E (execute (.orderOf id c true)) l := by
  refine eval_wp h (fun l a ks ws' run at' => ?_) (fun l e ks ws' run => ?_) fails
  · rw [Query.eval, List.foldl_nil] at run
    split at run
    · rename_i o found
      obtain ⟨found, same⟩ := Option.filter_eq_some_iff.1 found
      cases run
      have read : l.view.db.read (.order id) = Option.some (.order o) := by
        rw [Database.read, found]
        rfl
      rw [if_pos rfl] at at'
      simp only [List.map_cons, List.map_nil, List.append_nil, List.nil_append, read] at at'
      exact some o l found (of_decide_eq_true same) at'
    · cases run
      simp only [List.map_nil, List.append_nil] at at'
      exact none l at'
  · rw [Query.eval] at run
    split at run <;> cases run

/-- An `UPDATE` of a stock that the transaction has not written before. -/
lemma addAvailable_wp {c : Str} {n : Int} {atLeast : Option Int} {Q : Nat → Local mariadb → Prop}
    (h : lab.At (.live held ws) v done l) (quiet : ∀ w ∈ ws, w.key ≠ .inventory c)
    (ok : ∀ i l, l.view.db.inventory.find? c = some i → atLeast.all (· ≤ i.available) = true →
      lab.At (.live (held ++ [(.inventory c, some (.inventory i))])
        (ws ++ [.addAvailable c n])) v done l →
      Q (if n ≠ 0 then 1 else 0) l)
    (miss : ∀ l, (∀ i, l.view.db.inventory.find? c = some i →
      atLeast.all (· ≤ i.available) = false) → lab.At (.live held ws) v done l → Q 0 l)
    (fails : ∀ e l, e ≠ .duplicate → lab.At .failed v done l → E (.sql e) l) :
    lab.wpc M Q E (execute (.addAvailable c n atLeast)) l := by
  have sees : ∀ d : Database, (ws.foldl Database.apply d).inventory.find? c = d.inventory.find? c :=
    fun d => Database.inventory_of_read (Database.read_foldl_of_quiet quiet)
  refine eval_wp h (fun l a ks ws' run at' => ?_) (fun l e ks ws' run => ?_) fails
  · rw [Query.eval, sees] at run
    rcases updateRow_inv run with ⟨i, found, hit, rows, rfl, rfl⟩ | ⟨missed, rows, rfl, rfl⟩
    · cases rows
      have read : l.view.db.read (.inventory c) = some (.inventory i) := by
        rw [Database.read, found]
        rfl
      simp only [List.map_cons, List.map_nil, Write.key, read] at at'
      simpa using ok i l found hit at'
    · cases rows
      simp only [List.map_nil, List.append_nil] at at'
      exact miss l missed at'
  · rw [Query.eval] at run
    rcases updateRow_inv run with ⟨_, _, _, rows, _⟩ | ⟨_, rows, _⟩
    · cases rows
    · cases rows

/-- An `UPDATE` of a balance that the transaction has not written before. -/
lemma addBalance_wp {c owner : Str} {n : Int} {atLeast : Option Int}
    {Q : Nat → Local mariadb → Prop}
    (h : lab.At (.live held ws) v done l) (quiet : ∀ w ∈ ws, w.key ≠ .wallet c owner)
    (ok : ∀ w l, l.view.db.wallets.find? (c, owner) = some w → atLeast.all (· ≤ w.balance) = true →
      lab.At (.live (held ++ [(.wallet c owner, some (.wallet w))])
        (ws ++ [.addBalance c owner n])) v done l →
      Q (if n ≠ 0 then 1 else 0) l)
    (miss : ∀ l, (∀ w, l.view.db.wallets.find? (c, owner) = some w →
      atLeast.all (· ≤ w.balance) = false) → lab.At (.live held ws) v done l → Q 0 l)
    (fails : ∀ e l, e ≠ .duplicate → lab.At .failed v done l → E (.sql e) l) :
    lab.wpc M Q E (execute (.addBalance c owner n atLeast)) l := by
  have sees : ∀ d : Database, (ws.foldl Database.apply d).wallets.find? (c, owner) =
      d.wallets.find? (c, owner) :=
    fun d => Database.wallet_of_read (Database.read_foldl_of_quiet quiet)
  refine eval_wp h (fun l a ks ws' run at' => ?_) (fun l e ks ws' run => ?_) fails
  · rw [Query.eval, sees] at run
    rcases updateRow_inv run with ⟨w, found, hit, rows, rfl, rfl⟩ | ⟨missed, rows, rfl, rfl⟩
    · cases rows
      have read : l.view.db.read (.wallet c owner) = some (.wallet w) := by
        rw [Database.read, found]
        rfl
      simp only [List.map_cons, List.map_nil, Write.key, read] at at'
      simpa using ok w l found hit at'
    · cases rows
      simp only [List.map_nil, List.append_nil] at at'
      exact miss l missed at'
  · rw [Query.eval] at run
    rcases updateRow_inv run with ⟨_, _, _, rows, _⟩ | ⟨_, rows, _⟩
    · cases rows
    · cases rows

/-- An `UPDATE` of the state of an order that the transaction has not written before. -/
lemma setState_wp {id state : Str} {Q : Nat → Local mariadb → Prop}
    (h : lab.At (.live held ws) v done l) (quiet : ∀ w ∈ ws, w.key ≠ .order id)
    (ok : ∀ o l n, l.view.db.orders.find? id = some o →
      lab.At (.live (held ++ [(.order id, some (.order o))]) (ws ++ [.setState id state])) v
        done l → Q n l)
    (miss : ∀ l, l.view.db.orders.find? id = none → lab.At (.live held ws) v done l → Q 0 l)
    (fails : ∀ e l, e ≠ .duplicate → lab.At .failed v done l → E (.sql e) l) :
    lab.wpc M Q E (execute (.setState id state)) l := by
  have sees : ∀ d : Database, (ws.foldl Database.apply d).orders.find? id = d.orders.find? id :=
    fun d => Database.order_of_read (Database.read_foldl_of_quiet quiet)
  refine eval_wp h (fun l a ks ws' run at' => ?_) (fun l e ks ws' run => ?_) fails
  · rw [Query.eval, sees] at run
    rcases updateRow_inv run with ⟨o, found, _, rows, rfl, rfl⟩ | ⟨missed, rows, rfl, rfl⟩
    · have read : l.view.db.read (.order id) = some (.order o) := by
        rw [Database.read, found]
        rfl
      simp only [List.map_cons, List.map_nil, Write.key, read] at at'
      exact ok o l a found at'
    · cases rows
      simp only [List.map_nil, List.append_nil] at at'
      refine miss l ?_ at'
      cases found : l.view.db.orders.find? id with
      | none => rfl
      | some o => cases missed o found
  · rw [Query.eval] at run
    rcases updateRow_inv run with ⟨_, _, _, rows, _⟩ | ⟨_, rows, _⟩
    · cases rows
    · cases rows

end DbLab.Txlab
