import DbLab.Store.Drive
import DbLab.Store.Solo
import DbLab.Store.Soundness

/-!
# Programs in larger systems

A server whose clients may do more, in a larger world outside. A program that is verified with the
smaller server is verified with the larger one, where its actions do what they did and its commits
keep what the larger contract adds.
-/

namespace DbLab.Store
open Relation

variable {I : Interface} {C α : Type}

/-- The same statements, with other actions. -/
abbrev Interface.withActions (I : Interface) (A : Type) (O : A → Type) : Interface :=
  ⟨I.Query, I.Rows, A, O⟩

/-- The same data, with other actions in another world outside. -/
abbrev Server.within (S : Server I) {A : Type} {O : A → Type} {Env : Type}
    (acts : (x : A) → Env → O x → Env → Prop)
    (drifts : Env → Env → Prop) : Server (I.withActions A O) where
  Db := S.Db
  Env := Env
  Key := S.Key
  Val := S.Val
  Write := S.Write
  decKey := S.decKey
  read := S.read
  apply := S.apply
  touched := S.touched
  runs := S.runs
  acts := acts
  drifts := drifts
  frame := S.frame
  runs_touched := S.runs_touched
  runs_read := S.runs_read

/-- The actions of programs among other actions. -/
structure Interface.Among (I : Interface) (A : Type) (O : A → Type) where
  action : I.Action → A
  outcome : ∀ x, O (action x) → I.Outcome x

section
variable {S : Server I} {A : Type} {O : A → Type} {Env : Type} {acts : (x : A) → Env →
  O x → Env → Prop}
  {drifts : Env → Env → Prop} (φ : I.Among A O) (env : Env → S.Env)

def Interface.Among.hom : Interface.Hom I (I.withActions A O) :=
  ⟨id, fun _ => id, φ.action, φ.outcome⟩

def World.inner (w : World (S.within acts drifts)) : World S := ⟨w.db, env w.env⟩

def Mode.inner : Mode (S.within acts drifts) → Mode S
  | .closed => .closed
  | .live held ws => .live held ws
  | .failed => .failed

def Local.inner (l : Local (S.within acts drifts)) : Local S :=
  ⟨l.mode.inner, l.view.inner env, l.done⟩

/-- From the world `v` on, the larger contract allows what the smaller one does. -/
structure Contains (P : Contract S) (P' : Contract (S.within acts drifts)) (M : Marks S)
    (M' : Marks (S.within acts drifts))
    (v : World (S.within acts drifts)) : Prop where
  inv : ∀ {w}, P'.Inv w → P.Inv (w.inner env)
  guar : ∀ {w w'}, P'.Guar w w' → P.Guar (w.inner env) (w'.inner env)
  acts : ∀ {w x a e'}, P'.Inv w → acts (φ.action x) w.env a e' →
    S.acts x (env w.env) (φ.outcome x a) (env e') ∧ P'.Inv { w with env := e' } ∧
      P'.Guar w { w with env := e' }
  commits : ∀ {w ws}, P'.Inv w → P'.Guar v w → P.Commits M ws (w.inner env) → P'.Commits M' ws w

variable {φ env} {P : Contract S} {P' : Contract (S.within acts drifts)} {M : Marks S}
  {M' : Marks (S.within acts drifts)}
  {v : World (S.within acts drifts)}

/-- What the outer protocol sees the inner one sees. -/
lemma Contains.sees (h : Contains φ env P P' M M' v) {m : Mode (S.within acts drifts)}
    {u w : World (S.within acts drifts)}
    (sees : P'.Sees m.held u w) : P.Sees m.inner.held (u.inner env) (w.inner env) := by
  refine ⟨h.inv sees.inv, h.guar sees.guar, fun e m' => ?_⟩
  cases m with
  | closed => cases m'
  | live held ws => exact sees.read e m'
  | failed => cases m'

/-- A verified program stays verified. -/
theorem Contains.wp (h : Contains φ env P P' M M' v) {Q : α → Local S → Prop} (p : Prog I α)
    {l : Local (S.within acts drifts)} (inv : P'.Inv l.view) (guar : P'.Guar v l.view)
    (wp : P.wp M Q p (l.inner env)) :
    P'.wp M' (fun a l => P'.Inv l.view ∧ P'.Guar v l.view ∧ Q a (l.inner env))
      (p.translate φ.hom) l := by
  -- along the program, what it views stays related to the world in which it began
  induction p generalizing l with
  | ret a => exact ⟨inv, guar, wp⟩
  | ask op next ih =>
    obtain ⟨m, u, done⟩ := l
    cases op with
    | connect =>
      obtain ⟨closed, ok, fails⟩ := wp
      cases m with
      | closed => exact ⟨rfl, ih _ inv guar ok, fun e ne => ih _ inv guar (fails e ne)⟩
      | live held ws => cases closed
      | failed => cases closed
    | sql q =>
      obtain ⟨held, ws, mode, run, fails⟩ := wp
      cases m with
      | closed => cases mode
      | live held' ws' =>
        cases mode
        refine ⟨held, ws, rfl, fun w sees r d' ks ws'' runs => ?_,
          fun e ne => ih _ inv guar (fails e ne)⟩
        obtain ⟨inv', guar'⟩ := P'.runs sees.inv runs
        -- the rows are the same, so the reply is
        have same : r.map (φ.hom.rows q) = r := by cases r <;> rfl
        have rest := run (w.inner env) (h.sees (m := .live held ws) sees) r d' ks ws'' runs
        rw [← same] at rest
        exact ih _ inv' (P'.trans guar (P'.trans sees.guar guar')) rest
      | failed => cases mode
    | commit =>
      obtain ⟨held, ws, mode, run, fails⟩ := wp
      cases m with
      | closed => cases mode
      | live held' ws' =>
        cases mode
        refine ⟨held, ws, rfl, fun w sees => ?_, fun e ne => ih _ inv guar (fails e ne)⟩
        obtain ⟨commits, rest⟩ := run (w.inner env) (h.sees (m := .live held ws) sees)
        have since := P'.trans guar sees.guar
        have commits' := h.commits sees.inv since commits
        exact ⟨commits', ih _ commits'.inv (P'.trans since commits'.guar) rest⟩
      | failed => cases mode
    | rollback =>
      obtain ⟨opened, ok, fails⟩ := wp
      have opened' : m ≠ .closed := fun closed => opened (by rw [closed]; rfl)
      exact ⟨opened', ih _ inv guar ok, fun e ne => ih _ inv guar (fails e ne)⟩
    | close =>
      obtain ⟨opened, ok⟩ := wp
      have opened' : m ≠ .closed := fun closed => opened (by rw [closed]; rfl)
      exact ⟨opened', ih _ inv guar ok⟩
    | act x =>
      intro w sees a e' acted
      obtain ⟨acts', inv', guar'⟩ := h.acts sees.inv acted
      obtain ⟨_, _, rest⟩ := wp (w.inner env) (h.sees sees) _ _ acts'
      exact ⟨inv', guar', ih _ inv' (P'.trans guar (P'.trans sees.guar guar')) rest⟩

/-- A verified program that may raise stays verified. -/
theorem Contains.wpc (h : Contains φ env P P' M M' v) {ε : Type} {Q : α → Local S → Prop}
    {E : ε → Local S → Prop}
    (p : Client I ε α) {l : Local (S.within acts drifts)} (inv : P'.Inv l.view)
    (guar : P'.Guar v l.view)
    (wp : P.wpc M Q E p (l.inner env)) :
    P'.wpc M' (fun a l => P'.Inv l.view ∧ P'.Guar v l.view ∧ Q a (l.inner env))
      (fun e l => P'.Inv l.view ∧ P'.Guar v l.view ∧ E e (l.inner env))
        (Client.translate φ.hom p) l := by
  refine P'.wp_mono (h.wp p.run inv guar wp) ?_
  rintro (e | a) l ends
  · exact ends
  · exact ends

end

/-! ### Exceptions under another name -/

section
variable {S : Server I} {P : Contract S} {M : Marks S} {ε ε' : Type} {Q : α → Local S →
  Prop} {E : ε' → Local S → Prop}

/-- A program whose exceptions are wrapped. -/
def Client.wrap (f : ε → ε') (p : Client I ε α) : Client I ε' α :=
  .mk (p.run >>= fun r => .ret (r.mapError f))

/-- Exceptions under another name. -/
lemma wpc_wrap {f : ε → ε'} {p : Client I ε α} {l : Local S}
    (h : P.wpc M Q (fun e => E (f e)) p l) :
    P.wpc M Q E (p.wrap f) l := by
  refine (P.wp_bind p.run _ l).2 (P.wp_mono h ?_)
  rintro (e | a) l ends
  · exact ends
  · exact ends

end

/-! ### Runs -/

section
variable {S : Server I} {P : Contract S} {code : C → Prog I α} {marks : C → World S → Marks S}
  {post : C → World S → α → List (List S.Write) → World S → Prop} {s s' : Config S C α}

/-- One step stays within the guarantee. -/
theorem Sound.guar (h : Sound P marks post s) (st : Step code s s') : P.Guar s.world s'.world := by
  -- only statements, commits, actions and what happens outside change the world
  cases st with
  | sql task conn runs free => exact (P.runs h.inv runs).2
  | @commit t c b next n ws task conn =>
    obtain ⟨⟨m, v, d⟩, wp, sees, serves, _⟩ := h.tasks _ _ task
    obtain ⟨held, ws₀, rfl, run, _⟩ := wp
    obtain ⟨_, ⟨⟩, active, _⟩ := serves
    rw [conn, Option.some.injEq, Conn.mk.injEq] at active
    obtain ⟨_, rfl, _⟩ := active
    exact (run s.world sees).1.guar
  | act task acts =>
    obtain ⟨_, wp, sees, _⟩ := h.tasks _ _ task
    exact (wp s.world sees _ _ acts).2.1
  | drift drifts => exact (P.drifts h.inv drifts).2
  | orphanCommits n t ws conn =>
    obtain ⟨_, _, _, _, sees, _, commits⟩ := h.orphans n t ws conn
    exact (commits s.world sees).guar
  | _ => exact P.refl _

/-- What a run leads to is within the guarantee. -/
theorem Sound.run (h : Sound P marks post s) (ver : Verified P code marks post)
    (steps : ReflTransGen (Step code) s s') :
    Sound P marks post s' ∧ P.Guar s.world s'.world := by
  induction steps with
  | refl => exact ⟨h, P.refl _⟩
  | tail _ st ih => exact ⟨ih.1.step ver st, P.trans ih.2 (ih.1.guar st)⟩

end

/-! ### Calls that run one after the other -/

section
variable {S : Server I} {σ : Type} (O : Oracle S σ) (code : C → Prog I α)

/-- The world that calls leave which run in turn, each from a state of the oracle. -/
def Oracle.turns : List (C × σ) → World S → Option (World S)
  | [], w => some w
  | (c, r) :: cs, w => (O.solo (code c) r none w).bind fun x => turns cs x.2.1

variable {code}

/-- Calls in turn reach a state. -/
theorem Oracle.turns_reachable {w₀ w : World S} {s : Config S C α} {cs : List (C × σ)} {t : Nat}
    (reach : Reachable code w₀ s)
    (idle : s.Idle) (free : ∀ m, t ≤ m → s.tasks m = none)
    (run : O.turns code cs s.world = some w) :
    ∃ s', Reachable code w₀ s' ∧ s'.world = w := by
  induction cs generalizing s t with
  | nil =>
    cases run
    exact ⟨s, reach, rfl⟩
  | cons call cs ih =>
    obtain ⟨c, r⟩ := call
    rw [Oracle.turns, Option.bind_eq_some_iff] at run
    obtain ⟨⟨x, w₁, log⟩, solo, rest⟩ := run
    obtain ⟨s₁, reach₁, idle₁, world₁, tasks₁, _⟩ := O.solo_call reach idle (free t le_rfl) solo
    refine ih (t := t + 1) reach₁ idle₁ (fun m le => ?_) (world₁ ▸ rest)
    rw [tasks₁, Function.update_of_ne (by omega)]
    exact free m (by omega)

end

end DbLab.Store
