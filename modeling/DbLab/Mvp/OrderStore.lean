import DbLab.Mvp.OrderCalls

/-!
# The order store in every state

However calls are interleaved, fail and are repeated: the outbox tells the versions of each order in
their order, a version is committed once, and a key opens one order. A call that is repeated names
that order, and one for something else is refused and changes nothing.
-/

namespace DbLab.Mvp.Shop
open DbLab.Py DbLab.Store Relation

section System
variable [Interpreter] {s : System} {d d' : Tables} {row : OrderRow}

/-- Task `t` is a call that began in the world `b` and has ended. -/
def Ended (s : System) (t : Nat) (c : Call) (b : World mariadb) (x : Except Raised Answer) : Prop :=
  ∃ n, s.tasks t = some ⟨c, b, .ret x, n⟩

/-! ### Versions -/

/-- A version of an order is announced once. -/
lemma Booked.announced_once (booked : Booked d) :
    (d.outbox.rows.map fun e => announced e.payload).Nodup := by
  have events : d.outbox.rows.Nodup := .of_map _ d.outbox.nodup
  refine (List.nodup_map_iff_inj_on events).2 fun e m e' m' same => ?_
  obtain ⟨r, mr, owner⟩ := booked.owned e m
  obtain ⟨h, history, _, announce⟩ := booked.versions r mr
  have place : e ∈ d.about r.id := mem_about.2 ⟨m, owner⟩
  have place' : e' ∈ d.about r.id := mem_about.2 ⟨m', same ▸ owner⟩
  -- the version tells the place among the events of the order
  have at_ : ∀ {i : Nat} {x : EventRow}, (d.about r.id)[i]? = some x →
      (announced x.payload).map Prod.snd = some (i + 1 : Int) := by
    intro i x here
    obtain ⟨bound, rfl⟩ := List.getElem?_eq_some_iff.1 here
    have announces := announce.get bound (announce.length_eq ▸ bound)
    have mo := List.getElem_mem (announce.length_eq ▸ bound)
    rw [List.get_eq_getElem, List.get_eq_getElem] at announces
    rw [announces.announced history mo]
    exact congrArg some (history.version i _ (List.getElem?_eq_getElem _))
  obtain ⟨i, here⟩ := List.mem_iff_getElem?.1 place
  obtain ⟨j, here'⟩ := List.mem_iff_getElem?.1 place'
  have index : (i + 1 : Int) = j + 1 := Option.some.inj ((at_ here).symm.trans (same ▸ at_ here'))
  have same : i = j := by omega
  rw [same] at here
  exact Option.some.inj (here.symm.trans here')

/-! ### Commits -/

/-- What a commit claims, no other one claims. -/
lemma claims_once (h : Sound shop (fun c _ => c.marks)
    (fun c b x done w => c.Ends b.db x done w.db) s) :
    s.log.Pairwise fun e e' => ∀ x ∈ claims e.2, x ∉ claims e'.2 := by
  refine h.follows.imp ?_
  rintro e e' ⟨T, T', w, _, _, _, after, before⟩ x m m'
  exact before x m' (after.1 x m)

/-- A claim is made at one place in the log. -/
lemma claim_place (once : s.log.Pairwise fun e e' => ∀ x ∈ claims e.2, x ∉ claims e'.2) {i j : Nat}
    {e e' : Nat × List Write}
    (at_ : s.log[i]? = some e) (at' : s.log[j]? = some e') {x : Claim} (m : x ∈ claims e.2)
    (m' : x ∈ claims e'.2) : i = j := by
  obtain ⟨bound, rfl⟩ := List.getElem?_eq_some_iff.1 at_
  obtain ⟨bound', rfl⟩ := List.getElem?_eq_some_iff.1 at'
  have apart := List.pairwise_iff_getElem.1 once
  rcases lt_trichotomy i j with lt | same | gt
  · exact absurd m' (apart i j bound bound' lt x m)
  · exact same
  · exact absurd m (apart j i bound' bound gt x m')

/-- The entries with a claim are of one task. -/
lemma claim_task (once : s.log.Pairwise fun e e' => ∀ x ∈ claims e.2, x ∉ claims e'.2)
    {e e' : Nat × List Write} (m : e ∈ s.log)
    (m' : e' ∈ s.log) {x : Claim} (c : x ∈ claims e.2) (c' : x ∈ claims e'.2) : e = e' := by
  obtain ⟨i, at_⟩ := List.mem_iff_getElem?.1 m
  obtain ⟨j, at'⟩ := List.mem_iff_getElem?.1 m'
  have same := claim_place once at_ at' c c'
  subst same
  exact Option.some.inj (at_.symm.trans at')

/-- What an update claims. -/
lemma update_claims {id : Str} {data : Value} {ws : List Write}
    (h : (Call.update id data).Writes ws) (effect : ws ≠ []) :
    ∃ v, expectedVersion data = some v ∧ Claim.version id (v + 1) ∈ claims ws := by
  cases h with
  | @moved _ _ o e own expected =>
    refine ⟨_, expected, ?_⟩
    rw [← own, Int.sub_add_cancel]
    exact List.mem_flatMap.2 ⟨.updateOrder o.id o.status o.version, List.mem_cons_self,
      List.mem_singleton_self _⟩
  | nothing => exact absurd rfl effect

/-! ### What holds in every state -/

/-- The book of orders is kept. -/
structure Kept (s : System) : Prop where
  /-- What was committed is one change of the book after the other. -/
  book : Book s.world.db
  /-- The events of an order are its versions, numbered in their order. -/
  versions : ∀ r ∈ s.world.db.orders.rows, ∃ h, History h ∧ h.getLast? = some r.toOrder ∧
    (h.length : Int) = r.version ∧ (s.world.db.about r.id).Forall₂ Announces h ∧
      (s.world.db.about r.id).Pairwise fun e e' => e.seq < e'.seq
  total : ∀ r ∈ s.world.db.orders.rows, r.total = r.quantity * r.unitPrice
  keys : ∀ r ∈ s.world.db.orders.rows, ∀ r' ∈ s.world.db.orders.rows,
    r.idempotencyKey = r'.idempotencyKey → r = r'
  /-- Every event is of an order, and no version has two. -/
  owned : ∀ e ∈ s.world.db.outbox.rows, ∃ r ∈ s.world.db.orders.rows,
    (announced e.payload).map Prod.fst = some r.id
  once : (s.world.db.outbox.rows.map fun e => announced e.payload).Nodup
  /-- Of the updates that expect one version of an order, one is committed at most. -/
  expected : ∀ (i j : Nat) t t' T T' id data data' (ws ws' : List Write), s.log[i]? = some (t, ws) →
    s.log[j]? = some (t', ws') → s.tasks t = some T → s.tasks t' = some T' →
      T.call = .update id data → T'.call = .update id data' →
        expectedVersion data = expectedVersion data' → ws ≠ [] → ws' ≠ [] → i = j
  /-- The outbox tells what an update has returned. -/
  told : ∀ t id data b o, Ended s t (.update id data) b (.ok (.moved o)) →
    (∃ e, (t, updating o e) ∈ s.log) ∧ s.world.db.Tells o

/-- The orders of every reachable state are kept. -/
theorem orders_kept (reach : Reachable Call.code schema s) : Kept s := by
  have h := reachable_sound reach
  have book : Book s.world.db := h.inv
  have booked := book.booked
  have once := claims_once h
  constructor
  case book => exact book
  case versions =>
    intro r m
    obtain ⟨h, history, last, announce⟩ := booked.versions r m
    exact ⟨h, history, last, history_length history last, announce, booked.ordered r.id⟩
  case total =>
    intro r m
    obtain ⟨h, history, last, _⟩ := booked.versions r m
    exact (history.valid _ (List.mem_of_getLast? last)).totalValue
  case keys => exact fun r m r' m' same => booked.one m m' same
  case owned => exact booked.owned
  case once => exact booked.announced_once
  case expected =>
    intro i j t t' T T' id data data' ws ws' at_ at' task task' call call' same effect effect'
    obtain ⟨U, utask, after⟩ := h.earned _ (List.mem_of_getElem? at_)
    obtain rfl := Option.some.inj (task.symm.trans utask)
    obtain ⟨U', utask', after'⟩ := h.earned _ (List.mem_of_getElem? at')
    obtain rfl := Option.some.inj (task'.symm.trans utask')
    rw [call] at after
    rw [call'] at after'
    obtain ⟨v, expects, claim⟩ := update_claims after.2.2 effect
    obtain ⟨v', expects', claim'⟩ := update_claims after'.2.2 effect'
    obtain rfl : v = v' := Option.some.inj (expects.symm.trans (same.trans expects'))
    exact claim_place once at_ at' claim claim'
  case told =>
    rintro t id data b o ⟨n, task⟩
    obtain ⟨done, v, ends, guar, logged⟩ := h.ended task
    cases ends with
    | moved mine tells => exact ⟨⟨_, logged _ mine⟩, tells.grows (.changes guar)⟩

/-! ### A key opens one order -/

section
variable {data : Value} {draft : Draft} {key k : Str} {b : Tables} {x : Except Raised Answer}
  {done : List (List Write)}

/-- What a call with a key that is accepted has returned or raised. -/
inductive Outcome (draft : Draft) (key : Str) (b d : Tables) (done : List (List Write)) :
    Except Raised Answer → Prop where
  | placed {ws o created} (logged : ws ∈ done) (placed : Placed draft key b d ws (o, created)) :
    Outcome draft key b d done (.ok (.placed o created))
  | declined {e} (declined : Declined draft key d e) : Outcome draft key b d done (.error e)

/-- How a creation with a key may end. -/
lemma ends_outcome (input : createInput data = .ok draft) (ne : key ≠ [])
    (shape : keyPattern.fullmatch key = true)
    (ends : (Call.create data (some key)).Ends b x done d) : Outcome draft key b d done x := by
  cases ends with
  | placed input' named logged placed =>
    cases input.symm.trans input'
    cases named key rfl ne
    exact .placed logged placed
  | declined input' named declined =>
    cases input.symm.trans input'
    cases named key rfl ne
    exact .declined declined
  | invalid _ not =>
    refine absurd ⟨⟨draft, input⟩, fun k same _ => ?_⟩ not
    cases same
    exact shape
  | unavailable => exact .declined (.sql _)

omit [Interpreter] in
/-- A successor fits the draft where its origin did. -/
lemma Succeeds.fits {r r' : OrderRow} (h : Succeeds r r') : Fits r' draft ↔ Fits r draft := by
  obtain ⟨_, _, rfl, _⟩ := h
  exact .rfl

omit [Interpreter] in
/-- A successor has the id and the key of its origin. -/
lemma Succeeds.same {r r' : OrderRow} (h : Succeeds r r') :
    r'.id = r.id ∧ r'.idempotencyKey = r.idempotencyKey := by
  obtain ⟨_, _, rfl, _⟩ := h
  exact ⟨rfl, rfl⟩

/-- The row of a key. -/
lemma Booked.row_of (booked : Booked d) {r : OrderRow} (m : r ∈ d.orders.rows)
    (own : r.idempotencyKey = key) (kept : d.Keeps row)
    (own' : row.idempotencyKey = key) : Succeeds row r := by
  obtain ⟨r', m', next⟩ := kept
  have same : r = r' := booked.one m m' (own.trans (own'.symm.trans next.same.2.symm))
  exact same ▸ next

omit [Interpreter] in
/-- A new row fits its draft. -/
lemma fits_new (new : row.toOrder = newOrder draft row.id row.createdAt) : Fits row draft :=
  ⟨congrArg Order.item new, congrArg Order.quantity new, congrArg Order.unitPrice new⟩

omit [Interpreter] in
/-- The row that a call has placed or found. -/
lemma Placed.found {ws : List Write} {a : Order × Bool} (placed : Placed draft key b d ws a) :
    ∃ row : OrderRow, row.toOrder = a.1 ∧ row.idempotencyKey = key ∧ Fits row draft ∧
      d.Keeps row := by
  cases placed with
  | created row e free own new kept => exact ⟨row, rfl, own, fits_new new, kept⟩
  | replayed row own fits kept => exact ⟨row, rfl, own, fits, kept⟩

/-- What `create` has committed, with any effect, is a row of its request. -/
lemma create_claims {ws : List Write} (ne : key ≠ []) (input : createInput data = .ok draft)
    (h : (Call.create data (some key)).Writes ws) (effect : ws ≠ []) :
    ∃ row e, ws = opening row e ∧ row.idempotencyKey = key ∧ Fits row draft := by
  cases h with
  | opened input' named own new =>
    cases input.symm.trans input'
    cases named key rfl ne
    exact ⟨_, _, rfl, own, fits_new new⟩
  | nothing => exact absurd rfl effect

end

/-- A key opens one order. -/
structure OpenedOnce (s : System) (key : Str) : Prop where
  /-- One call at most has created the order. -/
  created : ∀ t t' data data' b b' o o',
    Ended s t (.create data (some key)) b (.ok (.placed o true)) →
      Ended s t' (.create data' (some key)) b' (.ok (.placed o' true)) → t = t'
  /-- A call that returns names the order of the key, and it is what the call has asked for. -/
  answers : ∀ t data draft b o created, createInput data = .ok draft →
    Ended s t (.create data (some key)) b (.ok (.placed o created)) → ∃ r ∈ s.world.db.orders.rows,
      r.idempotencyKey = key ∧ r.id = o.id ∧ o.item = draft.item ∧ o.quantity = draft.quantity ∧
        o.unitPrice = draft.unitPrice
  one : ∀ r ∈ s.world.db.orders.rows, ∀ r' ∈ s.world.db.orders.rows, r.idempotencyKey = key →
    r'.idempotencyKey = key → r = r'
  /-- A call for something else has no effect. -/
  unchanged : ∀ t T data draft, s.tasks t = some T → T.call = .create data (some key) →
    createInput data = .ok draft → ∀ r ∈ s.world.db.orders.rows, r.idempotencyKey = key →
      ¬Fits r draft → ∀ ws, (t, ws) ∈ s.log → ws = []
  /-- It is refused if the key was taken when it began. -/
  refused : ∀ t data draft b x, createInput data = .ok draft →
    Ended s t (.create data (some key)) b x → ∀ r ∈ b.db.orders.rows, r.idempotencyKey = key →
      ¬Fits r draft → x = .error reused ∨ ∃ f, x = .error (.sql f)
  /-- A later call for the same names the order, and creates nothing. -/
  repeated : ∀ t data draft b x, createInput data = .ok draft →
    Ended s t (.create data (some key)) b x → ∀ r ∈ b.db.orders.rows, r.idempotencyKey = key →
      Fits r draft → (∃ o, x = .ok (.placed o false) ∧ o.id = r.id) ∨ ∃ f, x = .error (.sql f)

/-- A key opens one order in every reachable state. -/
theorem opened_once (reach : Reachable Call.code schema s) {key : Str}
    (shape : keyPattern.fullmatch key = true) :
    OpenedOnce s key := by
  have h := reachable_sound reach
  have booked : Booked s.world.db := Book.booked h.inv
  have ne : key ≠ [] := by
    rintro rfl
    exact absurd shape (by decide)
  have outcome : ∀ {t data draft b x}, createInput data = .ok draft →
    Ended s t (.create data (some key)) b x →
      ∃ done, Outcome draft key b.db s.world.db done x ∧ ∀ ws ∈ done, (t, ws) ∈ s.log := by
    rintro t data draft b x input ⟨n, task⟩
    obtain ⟨done, v, ends, guar, logged⟩ := h.ended task
    refine ⟨done, ?_, logged⟩
    cases ends_outcome input ne shape ends with
    | placed mine placed => exact .placed mine (placed.grows (.changes guar))
    | declined declined => exact .declined (declined.grows (.changes guar))
  -- the row that was there when a call began
  have before : ∀ {t data b x} {r : OrderRow}, Ended s t (.create data (some key)) b x →
    r ∈ b.db.orders.rows →
      r.idempotencyKey = key → b.db.holder key ≠ none ∧ ∃ r' ∈ s.world.db.orders.rows,
        r'.idempotencyKey = key ∧ Succeeds r r' := by
    rintro t data b x r ⟨n, task⟩ m own
    obtain ⟨_, guar⟩ := h.born t _ task
    obtain ⟨r', m', next⟩ := (Grows.changes guar).rows r m
    exact ⟨fun free => List.find?_eq_none.1 free r m (decide_eq_true own), r', m',
      next.same.2.trans own, next⟩
  constructor
  case created =>
    intro t t' data data' b b' o o' ended ended'
    have claims_key : ∀ {t data b o}, Ended s t (.create data (some key)) b (.ok (.placed o true)) →
        ∃ ws, (t, ws) ∈ s.log ∧ Claim.key key ∈ claims ws := by
      rintro t data b o ⟨n, task⟩
      obtain ⟨done, v, ends, guar, logged⟩ := h.ended task
      cases ends with
      | placed input named mine placed =>
        cases named key rfl ne
        cases placed with
        | created row e free own =>
          exact ⟨_, logged _ mine, own ▸ List.mem_flatMap.2 ⟨.insertOrder row, List.mem_cons_self,
            List.mem_cons_self⟩⟩
    obtain ⟨ws, m, c⟩ := claims_key ended
    obtain ⟨ws', m', c'⟩ := claims_key ended'
    exact congrArg Prod.fst (claim_task (claims_once h) m m' c c')
  case answers =>
    intro t data draft b o created input ended
    obtain ⟨done, out, _⟩ := outcome input ended
    cases out with
    | placed _ placed =>
      obtain ⟨row, rfl, own, fits, r, m, next⟩ := placed.found
      exact ⟨r, m, next.same.2.trans own, next.same.1, fits⟩
  case one => exact fun r m r' m' own own' => booked.one m m' (own.trans own'.symm)
  case unchanged =>
    intro t T data draft task call input r m own other ws logged
    obtain ⟨T', task', after⟩ := h.earned _ logged
    obtain rfl := Option.some.inj (task.symm.trans task')
    by_contra effect
    rw [call] at after
    obtain ⟨row, e, rfl, own', fits⟩ := create_claims ne input after.2.2 effect
    have same := booked.row_of m own (after.2.1 row List.mem_cons_self) own'
    exact other (same.fits.2 fits)
  case refused =>
    intro t data draft b x input ended r m own other
    obtain ⟨taken, r', m', own', next⟩ := before ended m own
    obtain ⟨done, out, _⟩ := outcome input ended
    cases out with
    | placed _ placed =>
      obtain ⟨row, _, own₂, fits, kept⟩ := placed.found
      have same := booked.row_of m' own' kept own₂
      exact absurd (next.fits.1 (same.fits.2 fits)) other
    | declined declined =>
      cases declined with
      | sql f => exact .inr ⟨f, rfl⟩
      | reused => exact .inl rfl
  case repeated =>
    intro t data draft b x input ended r m own fits
    obtain ⟨taken, r', m', own', next⟩ := before ended m own
    obtain ⟨done, out, _⟩ := outcome input ended
    cases out with
    | placed _ placed =>
      cases placed with
      | created row e free => exact absurd free taken
      | replayed row own₂ _ kept =>
        have same := booked.row_of m' own' kept own₂
        exact .inl ⟨row.toOrder, rfl, same.same.1.symm.trans next.same.1⟩
    | declined declined =>
      cases declined with
      | sql f => exact .inr ⟨f, rfl⟩
      | reused row own₂ other kept =>
        have same := booked.row_of m' own' kept own₂
        exact absurd (same.fits.1 (next.fits.2 fits)) other

end System

/-! ### A mug that is ordered twice and paid -/

section Mug
attribute [local instance] integral

def drawn (n : Nat) : Str := str "00000000-0000-4000-8000-00000000000" ++ [48 + n % 10]

/-- The example's time is a clock text. -/
lemma mug_time : IsTimestamp mug.createdAt := ⟨by decide +kernel, by decide +kernel⟩

/-- Ids in sequence, at one time. -/
def steady : Oracle mariadb Nat where
  eval q d ws := eval d (ws.foldl Tables.apply d) q
  act
    | .uuid4, e, n => (drawn n, e, n + 1)
    | .now, e, n => (mug.createdAt, e, n)
  runs _ _ _ := rfl
  acts
    | .uuid4, _, n => by
      have digits : ∀ k < 10, IsUuid (str "00000000-0000-4000-8000-00000000000" ++ [48 + k]) := by
        decide +kernel
      exact digits (n % 10) (Nat.mod_lt _ (by decide))
    | .now, _, _ => mug_time

/-- Calls that run one after the other, each from the world the last one has left. -/
def inTurn : List Call → Nat → World mariadb →
    Option (List (World mariadb × Except Raised Answer) × World mariadb)
  | [], _, w => some ([], w)
  | c :: cs, n, w => do
    let (x, w', _) ← steady.solo c.code n none w
    let (xs, w'') ← inTurn cs (n + 2) w'
    some ((w, x) :: xs, w'')

/-- Calls in turn reach a state. -/
lemma inTurn_reachable {s : System} {cs : List Call} {n t : Nat}
    {xs : List (World mariadb × Except Raised Answer)} {w : World mariadb}
    (reach : Reachable Call.code schema s) (idle : s.Idle) (free : ∀ m, t ≤ m → s.tasks m = none)
    (run : inTurn cs n s.world = some (xs, w)) :
    ∃ s', Reachable Call.code schema s' ∧ s'.world = w ∧ (∀ m, m < t → s'.tasks m = s.tasks m) ∧
      ∀ (i : Nat) c b x, cs[i]? = some c → xs[i]? = some (b, x) → Ended s' (t + i) c b x := by
  induction cs generalizing s n t xs with
  | nil =>
    cases run
    exact ⟨s, reach, rfl, fun _ _ => rfl, nofun⟩
  | cons c cs ih =>
    simp only [inTurn, Option.bind_eq_bind, Option.bind_eq_some_iff] at run
    obtain ⟨⟨x, w₁, log⟩, solo, ⟨ys, w₂⟩, rest, same⟩ := run
    cases same
    obtain ⟨s₁, reach₁, idle₁, world₁, tasks₁, _⟩ :=
      steady.solo_call reach idle (free t le_rfl) solo
    have free₁ : ∀ m, t + 1 ≤ m → s₁.tasks m = none := fun m le => by
      rw [tasks₁, Function.update_of_ne (by omega)]
      exact free m (by omega)
    obtain ⟨s₂, reach₂, world₂, old, ended⟩ := ih reach₁ idle₁ free₁ (world₁ ▸ rest)
    refine ⟨s₂, reach₂, world₂, fun m lt => ?_, fun i c' b y call out => ?_⟩
    · rw [old m (by omega), tasks₁, Function.update_of_ne (by omega)]
    · cases i with
      | zero =>
        cases call
        cases out
        refine ⟨none, ?_⟩
        rw [Nat.add_zero, old t (by omega), tasks₁, Function.update_self]
      | succ i =>
        have later := ended i c' b y call out
        rwa [Nat.add_assoc, Nat.add_comm 1 i] at later

/-- The mug is ordered, ordered again and paid. -/
def mugCalls : List Call :=
  [.create mugBody (some (str "key-1")), .create mugBody (some (str "key-1")),
    .update (drawn 0) (.ofFields [("expected_version", .int 1), ("status", .str (str "paid"))])]

/-- An order that was placed, and whether it was created. -/
def Answer.order? : Except Raised Answer → Option (Order × Bool)
  | .ok (.placed o created) => some (o, created)
  | _ => none

/-- An order is answered by a placement. -/
lemma order?_some {x : Except Raised Answer} {o : Order} {created : Bool}
    (h : Answer.order? x = some (o, created)) :
    x = .ok (.placed o created) := by
  unfold Answer.order? at h
  split at h
  · cases h
    rfl
  · cases h

/-- What the first two calls have returned, and what the tables hold in the end. -/
structure Seen where
  first : Option (Order × Bool)
  second : Option (Order × Bool)
  versions : List Int
  events : Nat
deriving DecidableEq

def seen (r : List (World mariadb × Except Raised Answer) × World mariadb) : Seen where
  first := r.1[0]?.bind fun e => Answer.order? e.2
  second := r.1[1]?.bind fun e => Answer.order? e.2
  versions := r.2.db.orders.rows.map fun row => row.version
  events := r.2.db.outbox.rows.length

/-- The mug as it was ordered. -/
def orderedMug : Order := { mug with id := drawn 0 }

/-- The example: created, asked again, paid. -/
lemma mug_run : (inTurn mugCalls 0 schema).map seen = some ⟨some (orderedMug, true),
    some (orderedMug, false), [2], 2⟩ := by
  decide +kernel

/-- The state that the example reaches. -/
lemma mug_reachable : ∃ (s : System) (b b' : World mariadb), Reachable Call.code schema s ∧
    s.world.db.orders.rows.map (fun row => row.version) = [2] ∧ s.world.db.outbox.rows.length = 2 ∧
    Ended s 0 (.create mugBody (some (str "key-1"))) b (.ok (.placed orderedMug true)) ∧
    Ended s 1 (.create mugBody (some (str "key-1"))) b' (.ok (.placed orderedMug false)) := by
  obtain ⟨⟨xs, w⟩, run, view⟩ := Option.map_eq_some_iff.1 mug_run
  simp only [seen, Seen.mk.injEq, Option.bind_eq_some_iff] at view
  obtain ⟨⟨⟨b, x⟩, first, created⟩, ⟨⟨b', x'⟩, second, found⟩, rows, events⟩ := view
  obtain ⟨s, reach, world, _, ended⟩ :=
    inTurn_reachable .init (Config.init_idle schema) (fun _ _ => rfl) run
  cases order?_some created
  cases order?_some found
  exact ⟨s, b, b', reach, world ▸ rows, world ▸ events, ended 0 _ _ _ rfl first,
    ended 1 _ _ _ rfl second⟩

/-- The example is kept. -/
theorem orders_kept_mug : ∃ s : System, Reachable Call.code schema s ∧ Kept s ∧
    s.world.db.orders.rows.map (fun row => row.version) = [2] ∧
      s.world.db.outbox.rows.length = 2 := by
  obtain ⟨s, _, _, reach, rows, events, _⟩ := mug_reachable
  exact ⟨s, reach, orders_kept reach, rows, events⟩

/-- The example's key opened one order. -/
theorem opened_once_mug :
    ∃ (s : System) (b b' : World mariadb), Reachable Call.code schema s ∧
    OpenedOnce s (str "key-1") ∧
      Ended s 0 (.create mugBody (some (str "key-1"))) b (.ok (.placed orderedMug true)) ∧
    Ended s 1 (.create mugBody (some (str "key-1"))) b' (.ok (.placed orderedMug false)) := by
  obtain ⟨s, b, b', reach, _, _, created, found⟩ := mug_reachable
  exact ⟨s, b, b', reach, opened_once reach (by decide +kernel), created, found⟩

end Mug

end DbLab.Mvp.Shop
