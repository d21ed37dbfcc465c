import DbLab.Store.Solo

/-!
# Calls that run alone, statement by statement

The run of a call without others and without failures, put together from the runs of its parts.
-/

namespace DbLab.Store

variable {I : Interface} {S : Server I} {σ ε α β : Type}

/-- Where a program stands that runs alone: what is left of the script, the writes of its
transaction if it has a connection, the world and its commits. -/
structure Standing (S : Server I) (σ : Type) where
  script : σ
  pending : Option (List S.Write)
  world : World S
  commits : List (List S.Write)

namespace Oracle
variable (O : Oracle S σ)

/-- The run of a part of a program. -/
def thread : Prog I α → Standing S σ → Option (α × Standing S σ)
  | .ret a, x => some (a, x)
  | .ask .connect next, ⟨r, none, w, l⟩ => thread (next (.ok ())) ⟨r, some [], w, l⟩
  | .ask (.sql q) next, ⟨r, some ws, w, l⟩ =>
    let e := O.eval q w.db ws
    thread (next e.1) ⟨r, some (ws ++ e.2.2.2), { w with db := e.2.1 }, l⟩
  | .ask .commit next, ⟨r, some ws, w, l⟩ =>
    thread (next (.ok ())) ⟨r, some [], w.commit ws, l ++ [ws]⟩
  | .ask .rollback next, ⟨r, some _, w, l⟩ => thread (next (.ok ())) ⟨r, some [], w, l⟩
  | .ask .close next, ⟨r, some _, w, l⟩ => thread (next ()) ⟨r, none, w, l⟩
  | .ask (.act x) next, ⟨r, m, w, l⟩ =>
    let e := O.act x w.env r
    thread (next e.1) ⟨e.2.2, m, { w with env := e.2.1 }, l⟩
  | _, _ => none

/-- One program after the other. -/
lemma thread_bind (p : Prog I α) (f : α → Prog I β) (x : Standing S σ) :
    O.thread (p >>= f) x = (O.thread p x).bind fun y => O.thread (f y.1) y.2 := by
  induction p generalizing x with
  | ret a => rfl
  | ask op next ih =>
    obtain ⟨r, m, w, l⟩ := x
    cases op with
    | connect =>
      cases m with
      | none => exact ih _ _
      | some ws => rfl
    | act y => exact ih _ _
    | _ =>
      cases m with
      | none => rfl
      | some ws => exact ih _ _

/-- The run of a whole program. -/
lemma solo_of_thread {p : Prog I α} {r r' : σ} {m : Option (List S.Write)} {w w' : World S}
    {l l' : List (List S.Write)} {a : α}
    (run : O.thread p ⟨r, m, w, l⟩ = some (a, ⟨r', none, w', l'⟩)) :
    ∃ log, l' = l ++ log ∧ O.solo p r m w = some (a, w', log) := by
  induction p generalizing r m w l with
  | ret b =>
    cases run
    exact ⟨[], (List.append_nil _).symm, rfl⟩
  | ask op next ih =>
    cases op with
    | connect =>
      cases m with
      | none => exact ih _ run
      | some ws => cases run
    | act y => exact ih _ run
    | commit =>
      cases m with
      | none => cases run
      | some ws =>
        obtain ⟨log, same, solo⟩ := ih _ run
        refine ⟨ws :: log, by rw [same, List.append_assoc]; rfl, ?_⟩
        rw [Oracle.solo, solo]
        rfl
    | _ =>
      cases m with
      | none => cases run
      | some ws => exact ih _ run

/-- A part of a program returns, and does not raise. -/
def Does (p : Client I ε α) (x : Standing S σ) (a : α) (y : Standing S σ) : Prop :=
  O.thread p.run x = some (.ok a, y)

variable {O} {x y z : Standing S σ} {p : Client I ε α} {a : α} {raise : Failure → ε}

/-- A result does nothing. -/
lemma Does.pure (a : α) : O.Does (pure a : Client I ε α) x a x := rfl

/-- One client after the other. -/
lemma Does.bind {f : α → Client I ε β} {b : β} (first : O.Does p x a y)
    (rest : O.Does (f a) y b z) :
    O.Does (p >>= f) x b z := by
  have both : O.thread (p >>= f).run x = _ := thread_bind O p.run (ExceptT.bindCont f) x
  rw [first] at both
  exact both.trans rest

/-- A client that needs no handler. -/
lemma Does.handled {f : ε → Client I ε α} (body : O.Does p x a y) :
    O.Does (tryCatch p f) x a y := by
  have both : O.thread (tryCatch p f).run x = _ := thread_bind O p.run _ x
  rw [body] at both
  exact both

/-- A client with its final block. -/
lemma Does.finally {block : Client I ε β} {b : β} (body : O.Does p x a y)
    (last : O.Does block y b z) :
    O.Does (tryFinally p block) x a z := by
  have first : O.thread p.run x = _ := body
  have second : O.thread block.run y = _ := last
  rw [Does, Client.finally_run, thread_bind, first, Option.bind_some, thread_bind, second]
  rfl

variable {r : σ} {w : World S} {l : List (List S.Write)} {ws : List S.Write}

/-- What connecting does. -/
lemma Does.connect : O.Does (Client.connect raise) ⟨r, none, w, l⟩ () ⟨r, some [], w, l⟩ := rfl

/-- What a query does. -/
lemma Does.execute {q : I.Query} {a : I.Rows q} {d : S.Db} {ks : List S.Key} {ws' : List S.Write}
    (eval : O.eval q w.db ws = (.ok a, d, ks, ws')) :
    O.Does (Client.execute raise q) ⟨r, some ws, w, l⟩ a ⟨r, some (ws ++ ws'),
      { w with db := d }, l⟩ := by
  rw [Does, Client.execute, ExceptT.run_mk, thread, eval]
  rfl

/-- What committing does. -/
lemma Does.commit : O.Does (Client.commit raise) ⟨r, some ws, w, l⟩ () ⟨r, some [], w.commit ws,
    l ++ [ws]⟩ := rfl

/-- What closing does. -/
lemma Does.close : O.Does (Client.close : Client I ε Unit) ⟨r, some ws, w, l⟩ () ⟨r, none, w, l⟩ :=
  rfl

/-- What an action outside does. -/
lemma Does.act {b : I.Action} :
    O.Does (Client.act b : Client I ε _) x (O.act b x.world.env x.script).1
    ⟨(O.act b x.world.env x.script).2.2, x.pending,
      { x.world with env := (O.act b x.world.env x.script).2.1 }, x.commits⟩ :=
  rfl

end Oracle

end DbLab.Store
