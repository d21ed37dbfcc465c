import DbLab.Store.Engine

/-!
# Verifying programs one at a time

Rely and guarantee for programs on a store. A program is verified alone by `wp`: at each of its
requests the world may be any that satisfies the invariant, that the guarantee leads to from the
world it saw last, and whose locked keys still read as they did when they were locked.
-/

namespace DbLab.Store

variable {I : Interface} {S : Server I} {ε α β : Type}

/-- What all programs together maintain: an invariant of the world and a relation between the worlds
before and after any number of steps. -/
structure Contract (S : Server I) where
  Inv : World S → Prop
  Guar : World S → World S → Prop
  refl : ∀ w, Guar w w
  trans : ∀ {w w' w''}, Guar w w' → Guar w' w'' → Guar w w''
  runs : ∀ {q w ws r d' ks ws'}, Inv w → S.runs q w.db ws r d' ks ws' →
    Inv { w with db := d' } ∧ Guar w { w with db := d' }
  drifts : ∀ {w e'}, Inv w → S.drifts w.env e' → Inv { w with env := e' } ∧
    Guar w { w with env := e' }

/-- The connection of a program: it has none, it has one whose transaction holds locks, with what
was read under them, and has writes pending, or it has one that it may only roll back and close. -/
inductive Mode (S : Server I) where
  | closed
  | live (held : List (S.Key × S.Val)) (ws : List S.Write)
  | failed

def Mode.held : Mode S → List (S.Key × S.Val)
  | .live held _ => held
  | _ => []

/-- Where a program stands: its connection, the world when it looked last, and its commits so
far. -/
structure Local (S : Server I) where
  mode : Mode S
  view : World S
  done : List (List S.Write)

/-- What is claimed of a commit: of the world it meets, and of all worlds after it. -/
structure Marks (S : Server I) where
  before : List S.Write → World S → Prop
  after : List S.Write → World S → Prop

namespace Contract
variable (P : Contract S)

/-- A world as a transaction may find it that saw `v` and holds locks. -/
structure Sees (held : List (S.Key × S.Val)) (v w : World S) : Prop where
  inv : P.Inv w
  guar : P.Guar v w
  read : ∀ e ∈ held, S.read w.db e.1 = e.2

/-- A commit keeps the invariant, is within the guarantee and earns its marks. -/
structure Commits (M : Marks S) (ws : List S.Write) (w : World S) : Prop where
  inv : P.Inv (w.commit ws)
  guar : P.Guar w (w.commit ws)
  before : M.before ws w
  after : M.after ws (w.commit ws)

/-- The weakest precondition of a program. -/
def wp (M : Marks S) (Q : α → Local S → Prop) : Prog I α → Local S → Prop
  | .ret a, l => Q a l
  | .ask .connect next, ⟨m, v, done⟩ =>
    m = .closed ∧ wp M Q (next (.ok ())) ⟨.live [] [], v, done⟩ ∧ ∀ e, e ≠ Failure.duplicate →
      wp M Q (next (.error e)) ⟨.closed, v, done⟩
  | .ask (.sql q) next, ⟨m, v, done⟩ => ∃ held ws, m = .live held ws ∧
    (∀ w, P.Sees held v w → ∀ r d' ks ws', S.runs q w.db ws r d' ks ws' →
      wp M Q (next r) ⟨.live (held ++ ks.map fun k => (k, S.read w.db k)) (ws ++ ws'),
        { w with db := d' }, done⟩) ∧
    ∀ e, e ≠ Failure.duplicate → wp M Q (next (.error e)) ⟨.failed, v, done⟩
  | .ask .commit next, ⟨m, v, done⟩ => ∃ held ws, m = .live held ws ∧
    (∀ w, P.Sees held v w → P.Commits M ws w ∧
      wp M Q (next (.ok ())) ⟨.live [] [], w.commit ws, done ++ [ws]⟩) ∧
    ∀ e, e ≠ Failure.duplicate → wp M Q (next (.error e)) ⟨.failed, v, done⟩
  | .ask .rollback next, ⟨m, v, done⟩ => m ≠ .closed ∧ wp M Q (next (.ok ())) ⟨.failed, v, done⟩ ∧
    ∀ e, e ≠ Failure.duplicate → wp M Q (next (.error e)) ⟨.failed, v, done⟩
  | .ask .close next, ⟨m, v, done⟩ => m ≠ .closed ∧ wp M Q (next ()) ⟨.closed, v, done⟩
  | .ask (.act x) next, ⟨m, v, done⟩ => ∀ w, P.Sees m.held v w → ∀ a e', S.acts x w.env a e' →
    P.Inv { w with env := e' } ∧ P.Guar w { w with env := e' } ∧
      wp M Q (next a) ⟨m, { w with env := e' }, done⟩

variable {P} {M : Marks S}

/-- A program in sequence with another. -/
lemma wp_bind {Q : β → Local S → Prop} (p : Prog I α) (f : α → Prog I β) (l : Local S) :
    P.wp M Q (p >>= f) l ↔ P.wp M (fun a l => P.wp M Q (f a) l) p l := by
  induction p generalizing l with
  | ret a => rfl
  | ask op next ih =>
    cases op <;> simp only [Prog.ask_bind, wp, ih]

/-- What is true of fewer results is weaker. -/
lemma wp_mono {Q Q' : α → Local S → Prop} {p : Prog I α} {l : Local S} (h : P.wp M Q p l)
    (le : ∀ a l, Q a l → Q' a l) : P.wp M Q' p l := by
  induction p generalizing l with
  | ret a => exact le a l h
  | ask op next ih =>
    cases op with
    | connect => exact ⟨h.1, ih _ h.2.1, fun e ne => ih _ (h.2.2 e ne)⟩
    | sql q =>
      obtain ⟨held, ws, mode, run, fail⟩ := h
      exact ⟨held, ws, mode, fun w sees r d' ks ws' runs => ih _ (run w sees r d' ks ws' runs),
        fun e ne => ih _ (fail e ne)⟩
    | commit =>
      obtain ⟨held, ws, mode, run, fail⟩ := h
      exact ⟨held, ws, mode, fun w sees => ⟨(run w sees).1, ih _ (run w sees).2⟩,
        fun e ne => ih _ (fail e ne)⟩
    | rollback => exact ⟨h.1, ih _ h.2.1, fun e ne => ih _ (h.2.2 e ne)⟩
    | close => exact ⟨h.1, ih _ h.2⟩
    | act x =>
      intro w sees a e' acts
      obtain ⟨inv, guar, run⟩ := h w sees a e' acts
      exact ⟨inv, guar, ih _ run⟩

/-- One after the other, under an equivalent postcondition. -/
lemma wp_bind_iff {Q : β → Local S → Prop} {R : α → Local S → Prop} {p : Prog I α}
    {f : α → Prog I β}
    {l : Local S} (same : ∀ a l, P.wp M Q (f a) l ↔ R a l) :
    P.wp M Q (p >>= f) l ↔ P.wp M R p l := by
  rw [wp_bind]
  exact ⟨fun h => wp_mono h fun a l => (same a l).1, fun h => wp_mono h fun a l => (same a l).2⟩

/-! ### Programs that raise -/

/-- The weakest precondition of a program that returns as in `Q` or raises as in `E`. -/
def wpc (P : Contract S) (M : Marks S) (Q : α → Local S → Prop) (E : ε → Local S → Prop)
    (p : Client I ε α) : Local S → Prop :=
  P.wp M (fun r l => match r with | .ok a => Q a l | .error e => E e l) p.run

variable {Q : α → Local S → Prop} {E : ε → Local S → Prop} {raise : Failure → ε}

/-- A client that returns. -/
lemma wpc_pure (a : α) (l : Local S) : P.wpc M Q E (pure a) l ↔ Q a l := Iff.rfl

/-- One client after the other. -/
lemma wpc_bind {Q : β → Local S → Prop} (p : Client I ε α) (f : α → Client I ε β) (l : Local S) :
    P.wpc M Q E (p >>= f) l ↔ P.wpc M (fun a => P.wpc M Q E (f a)) E p l := by
  apply wp_bind_iff
  rintro (e | a) l
  · rfl
  · rfl

/-- A client with its handler. -/
lemma wpc_tryCatch (p : Client I ε α) (f : ε → Client I ε α) (l : Local S) :
    P.wpc M Q E (tryCatch p f) l ↔ P.wpc M Q (fun e => P.wpc M Q E (f e)) p l := by
  apply wp_bind_iff
  rintro (e | a) l
  · rfl
  · rfl

/-- A weaker postcondition. -/
lemma wpc_mono {Q' : α → Local S → Prop} {E' : ε → Local S → Prop} {p : Client I ε α} {l : Local S}
    (h : P.wpc M Q E p l) (ok : ∀ a l, Q a l → Q' a l) (error : ∀ e l, E e l → E' e l) :
    P.wpc M Q' E' p l := by
  apply wp_mono h
  rintro (e | a) l
  · exact error e l
  · exact ok a l

/-- The block of a `finally` runs after a result and after an exception. -/
lemma wpc_finally {γ : Type} (p : Client I ε α) (f : Client I ε γ) (l : Local S) :
    P.wpc M Q E (tryFinally p f) l ↔
      P.wpc M (fun a => P.wpc M (fun _ => Q a) E f) (fun e => P.wpc M (fun _ => E e) E f) p l := by
  rw [wpc, Client.finally_run]
  apply wp_bind_iff
  rintro (e | a) l
  · apply wp_bind_iff
    rintro (e' | b) l
    · rfl
    · rfl
  · apply wp_bind_iff
    rintro (e' | b) l
    · rfl
    · rfl

/-- A client that connects. -/
lemma wpc_connect {Q : Unit → Local S → Prop} {v : World S} {done : List (List S.Write)}
    (ok : Q () ⟨.live [] [], v, done⟩)
    (fails : ∀ e, e ≠ .duplicate → E (raise e) ⟨.closed, v, done⟩) :
    P.wpc M Q E (Client.connect raise) ⟨.closed, v, done⟩ :=
  ⟨rfl, ok, fails⟩

/-- A client that executes a query. -/
lemma wpc_execute {q : I.Query} {Q : I.Rows q → Local S → Prop} {held : List (S.Key × S.Val)}
    {ws : List S.Write} {v : World S}
    {done : List (List S.Write)}
    (ok : ∀ w, P.Sees held v w → ∀ a d' ks ws', S.runs q w.db ws (.ok a) d' ks ws' →
      Q a ⟨.live (held ++ ks.map fun k => (k, S.read w.db k)) (ws ++ ws'),
        { w with db := d' }, done⟩)
    (error : ∀ w, P.Sees held v w → ∀ e d' ks ws', S.runs q w.db ws (.error e) d' ks ws' →
      E (raise e) ⟨.live (held ++ ks.map fun k => (k, S.read w.db k)) (ws ++ ws'),
        { w with db := d' }, done⟩)
    (fails : ∀ e, e ≠ .duplicate → E (raise e) ⟨.failed, v, done⟩) :
    P.wpc M Q E (Client.execute raise q) ⟨.live held ws, v, done⟩ := by
  refine ⟨held, ws, rfl, ?_, fails⟩
  rintro w sees (e | a) d' ks ws' runs
  · exact error w sees e d' ks ws' runs
  · exact ok w sees a d' ks ws' runs

/-- A client that commits. -/
lemma wpc_commit {Q : Unit → Local S → Prop} {held : List (S.Key × S.Val)} {ws : List S.Write}
    {v : World S}
    {done : List (List S.Write)}
    (commits : ∀ w, P.Sees held v w → P.Commits M ws w)
    (ok : ∀ w, P.Sees held v w → Q () ⟨.live [] [], w.commit ws, done ++ [ws]⟩)
    (fails : ∀ e, e ≠ .duplicate → E (raise e) ⟨.failed, v, done⟩) :
    P.wpc M Q E (Client.commit raise) ⟨.live held ws, v, done⟩ :=
  ⟨held, ws, rfl, fun w sees => ⟨commits w sees, ok w sees⟩, fails⟩

/-- A client that rolls back. -/
lemma wpc_rollback {Q : Unit → Local S → Prop} {m : Mode S} {v : World S}
    {done : List (List S.Write)}
    (opened : m ≠ .closed)
    (ok : Q () ⟨.failed, v, done⟩) (fails : ∀ e, e ≠ .duplicate → E (raise e) ⟨.failed, v, done⟩) :
    P.wpc M Q E (Client.rollback raise) ⟨m, v, done⟩ :=
  ⟨opened, ok, fails⟩

/-- A client that closes. -/
lemma wpc_close {Q : Unit → Local S → Prop} {m : Mode S} {v : World S} {done : List (List S.Write)}
    (opened : m ≠ .closed) (ok : Q () ⟨.closed, v, done⟩) : P.wpc M Q E Client.close ⟨m, v, done⟩ :=
  ⟨opened, ok⟩

/-- A client that acts outside. -/
lemma wpc_act {x : I.Action} {Q : I.Outcome x → Local S → Prop} {m : Mode S} {v : World S}
    {done : List (List S.Write)}
    (ok : ∀ w, P.Sees m.held v w → ∀ a e', S.acts x w.env a e' → P.Inv { w with env := e' } ∧
      P.Guar w { w with env := e' } ∧ Q a ⟨m, { w with env := e' }, done⟩) :
    P.wpc M Q E (Client.act x) ⟨m, v, done⟩ :=
  ok

/-! ### Assertions that others keep true -/

variable (P) in
/-- A program stands in mode `m`, with the commits `done`, and the world it saw last follows `v`. -/
structure At (m : Mode S) (v : World S) (done : List (List S.Write)) (l : Local S) : Prop where
  mode : l.mode = m
  inv : P.Inv l.view
  guar : P.Guar v l.view
  done : l.done = done

variable (P) in
/-- The exceptions in `A` are allowed for as long as there is a connection to clean up. -/
def Lax (A : ε → Prop) (E : ε → Local S → Prop) (v : World S) : Prop :=
  ∀ e l done, A e → l.mode ≠ .closed → P.At l.mode v done l → E e l

variable {m : Mode S} {v : World S} {done : List (List S.Write)} {l : Local S} {A : ε → Prop}

/-- Starting anew from what is seen. -/
lemma At.rebase (h : P.At m v done l) : P.At m l.view done l := ⟨h.mode, h.inv, P.refl _, h.done⟩

/-- Starting earlier. -/
lemma At.since {u : World S} (guar : P.Guar u v) (h : P.At m v done l) : P.At m u done l :=
  ⟨h.mode, h.inv, P.trans guar h.guar, h.done⟩

/-- What is lax stays lax when the world moves. -/
lemma Lax.rebase (lax : P.Lax A E v) {w : World S} (guar : P.Guar v w) : P.Lax A E w :=
  fun e l done a opened h => lax e l done a opened (h.since guar)

/-- A lax exception may be raised at hand. -/
lemma Lax.at (lax : P.Lax A E v) {e : ε} (h : P.At m v done l) (opened : m ≠ .closed)
    (a : A e) : E e l :=
  lax e l done a (h.mode ▸ opened) (h.mode ▸ h)

/-- Connecting from where the client is. -/
lemma At.connect {Q : Unit → Local S → Prop} (h : P.At .closed v done l)
    (ok : ∀ l, P.At (.live [] []) v done l → Q () l)
    (fails : ∀ e l, e ≠ .duplicate → P.At .closed v done l → E (raise e) l) :
    P.wpc M Q E (Client.connect raise) l := by
  obtain ⟨m, u, d⟩ := l
  obtain ⟨rfl, inv, guar, rfl⟩ := h
  exact wpc_connect (ok _ ⟨rfl, inv, guar, rfl⟩) fun e ne => fails e _ ne ⟨rfl, inv, guar, rfl⟩

/-- Rolling back from where the client is. -/
lemma At.rollback {Q : Unit → Local S → Prop} (h : P.At m v done l) (opened : m ≠ .closed)
    (ok : ∀ l, P.At .failed v done l → Q () l)
    (fails : ∀ e l, e ≠ .duplicate → P.At .failed v done l → E (raise e) l) :
    P.wpc M Q E (Client.rollback raise) l := by
  obtain ⟨m, u, d⟩ := l
  obtain ⟨rfl, inv, guar, rfl⟩ := h
  exact wpc_rollback opened (ok _ ⟨rfl, inv, guar, rfl⟩) fun e ne =>
    fails e _ ne ⟨rfl, inv, guar, rfl⟩

/-- Closing from where the client is. -/
lemma At.close {Q : Unit → Local S → Prop} (h : P.At m v done l) (opened : m ≠ .closed)
    (ok : ∀ l, P.At .closed v done l → Q () l) : P.wpc M Q E Client.close l := by
  obtain ⟨m, u, d⟩ := l
  obtain ⟨rfl, inv, guar, rfl⟩ := h
  exact wpc_close opened (ok _ ⟨rfl, inv, guar, rfl⟩)

/-- A commit, with what is known of the world it takes effect on. -/
lemma At.commit {Q : Unit → Local S → Prop} {held : List (S.Key × S.Val)} {ws : List S.Write}
    (h : P.At (.live held ws) v done l) (commits : ∀ w, P.Sees held v w → P.Commits M ws w)
    (ok : ∀ w, P.Sees held v w → ∀ l, l.view = w.commit ws →
      P.At (.live [] []) v (done ++ [ws]) l → Q () l)
    (fails : ∀ e l, e ≠ .duplicate → P.At .failed v done l → E (raise e) l) :
    P.wpc M Q E (Client.commit raise) l := by
  obtain ⟨m, u, d⟩ := l
  obtain ⟨rfl, inv, guar, rfl⟩ := h
  have since : ∀ {w}, P.Sees held u w → P.Sees held v w := fun sees =>
    ⟨sees.inv, P.trans guar sees.guar, sees.read⟩
  refine wpc_commit (fun w sees => commits w (since sees)) (fun w sees => ?_)
    fun e ne => fails e _ ne ⟨rfl, inv, guar, rfl⟩
  have done := commits w (since sees)
  exact ok w (since sees) _ rfl ⟨rfl, done.inv, P.trans (since sees).guar done.guar, rfl⟩

/-- A statement, with what is known of the world it runs on. -/
lemma At.execute {q : I.Query} {Q : I.Rows q → Local S → Prop} {held : List (S.Key × S.Val)}
    {ws : List S.Write} (h : P.At (.live held ws) v done l)
    (ok : ∀ w, P.Sees held v w → ∀ a d' ks ws', S.runs q w.db ws (.ok a) d' ks ws' → ∀ l,
      l.view = { w with db := d' } →
      P.At (.live (held ++ ks.map fun k => (k, S.read w.db k)) (ws ++ ws')) v done l → Q a l)
    (error : ∀ w, P.Sees held v w → ∀ e d' ks ws', S.runs q w.db ws (.error e) d' ks ws' → ∀ l,
      l.view = { w with db := d' } →
      P.At (.live (held ++ ks.map fun k => (k, S.read w.db k)) (ws ++ ws')) v done l →
        E (raise e) l)
    (fails : ∀ e l, e ≠ .duplicate → P.At .failed v done l → E (raise e) l) :
    P.wpc M Q E (Client.execute raise q) l := by
  obtain ⟨m, u, d⟩ := l
  obtain ⟨rfl, inv, guar, rfl⟩ := h
  have since : ∀ {w}, P.Sees held u w → P.Sees held v w := fun sees =>
    ⟨sees.inv, P.trans guar sees.guar, sees.read⟩
  refine wpc_execute (fun w sees a d' ks ws' runs => ?_) (fun w sees e d' ks ws' runs => ?_)
    fun e ne => fails e _ ne ⟨rfl, inv, guar, rfl⟩
  · obtain ⟨inv', guar'⟩ := P.runs sees.inv runs
    exact ok w (since sees) a d' ks ws' runs _ rfl ⟨rfl, inv', P.trans (since sees).guar guar', rfl⟩
  · obtain ⟨inv', guar'⟩ := P.runs sees.inv runs
    exact error w (since sees) e d' ks ws' runs _ rfl ⟨rfl, inv',
      P.trans (since sees).guar guar', rfl⟩

/-- An action that the contract allows. -/
lemma At.act {x : I.Action} {Q : I.Outcome x → Local S → Prop} (h : P.At m v done l)
    (allowed : ∀ w, P.Sees m.held v w → ∀ a e', S.acts x w.env a e' →
      P.Inv { w with env := e' } ∧ P.Guar w { w with env := e' })
    (ok : ∀ w, P.Sees m.held v w → ∀ a e', S.acts x w.env a e' →
      ∀ l, l.view = { w with env := e' } → P.At m v done l → Q a l) :
    P.wpc M Q E (Client.act x) l := by
  obtain ⟨m, u, d⟩ := l
  obtain ⟨rfl, inv, guar, rfl⟩ := h
  refine wpc_act fun w sees a e' acts => ?_
  have since : P.Sees m.held v w := ⟨sees.inv, P.trans guar sees.guar, sees.read⟩
  obtain ⟨inv', guar'⟩ := allowed w since a e' acts
  exact ⟨inv', guar', ok w since a e' acts _ rfl ⟨rfl, inv', P.trans since.guar guar', rfl⟩⟩

end Contract

end DbLab.Store
