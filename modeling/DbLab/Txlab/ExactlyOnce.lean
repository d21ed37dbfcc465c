import DbLab.Txlab.Calls
import DbLab.Txlab.Corruption

/-!
# Checkout happens once for each key

However calls are interleaved, fail and are repeated, a key is claimed by at most one commit, and
with the claim come all effects of one order. The calls that return for the key name that order.
Once it is committed, later calls replay it or report the conflict, unless the database fails or the
trace is full.
-/

namespace DbLab.Txlab
open DbLab.Py DbLab.Store

/-- The order that a purchase returns. -/
def Reply.order? : Reply → Option OrderRow
  | .created o | .replayed o => some o
  | _ => none

section System
variable [Interpreter] {s : System} {d d' : Database} {o o' : OrderRow} {req : Purchase}

/-- Task `t` is a purchase that began in the world `b` and has ended. -/
def Answers (s : System) (t : Nat) (req : Purchase) (b : World mariadb) (x : Except Raised Reply) :
    Prop :=
  ∃ failAt loseResponse n, s.tasks t = some ⟨.purchase req failAt loseResponse, b, .ret x, n⟩

/-- The order is of the key of a request. -/
def OrderRow.OfKey (o : OrderRow) (req : Purchase) : Prop :=
  o.caseId = req.caseId ∧ o.requestKey = req.key

/-! ### The claim of an order -/

/-- Every order has its claim. -/
lemma Database.Books.claim (h : d.Books) (mo : o ∈ d.orders.rows) :
    ∃ r ∈ d.requests.rows, r.key = (o.caseId, o.requestKey) ∧ r.orderId = o.id ∧
      o.fingerprint? o.caseId = some r.fingerprint := by
  have mem : o ∈ (d.ofCase o.caseId).orders := List.mem_filter.2 ⟨mo, decide_eq_true rfl⟩
  rcases h o.caseId with empty | ⟨i, _, _, books, _⟩
  · rw [empty] at mem
    cases mem
  · have own : i.caseId = o.caseId := by
      have mi : i ∈ (d.ofCase o.caseId).inventory := books.inventory ▸ List.mem_singleton_self i
      exact of_decide_eq_true (List.mem_filter.1 mi).2
    obtain ⟨r, mr, e⟩ := List.mem_map.1 (books.claims.mem_iff.2 (List.mem_map_of_mem mem))
    obtain ⟨mr, case_⟩ := List.mem_filter.1 mr
    simp only [Prod.mk.injEq, own] at e
    exact ⟨r, mr, Prod.ext (of_decide_eq_true case_) e.1, e.2.2, e.2.1.symm⟩

/-- A key has one order. -/
lemma Database.Books.one_order (h : d.Books) (mo : o ∈ d.orders.rows) (mo' : o' ∈ d.orders.rows)
    (caseId : o.caseId = o'.caseId) (key : o.requestKey = o'.requestKey) : o = o' := by
  have mem : o ∈ (d.ofCase o.caseId).orders := List.mem_filter.2 ⟨mo, decide_eq_true rfl⟩
  have mem' : o' ∈ (d.ofCase o.caseId).orders := List.mem_filter.2 ⟨mo', decide_eq_true caseId.symm⟩
  rcases h o.caseId with empty | ⟨_, _, _, books, _⟩
  · rw [empty] at mem
    cases mem
  · exact List.inj_on_of_nodup_map books.keys mem mem' key

/-- The fingerprint of an order is that of a request with its key and quantity. -/
lemma OrderRow.OfKey.fingerprint {fp : Str} (own : o.OfKey req)
    (print : o.fingerprint? o.caseId = some fp) :
    ∃ p : Purchase, p.caseId = req.caseId ∧ p.key = req.key ∧ p.quantity = o.quantity ∧
      p.fingerprint = .ok fp := by
  obtain ⟨p, made, print⟩ := fingerprint?_eq_some.1 print
  obtain ⟨caseId, key, quantity⟩ := purchase?_inv made
  exact ⟨p, caseId.trans own.1, key.trans own.2, quantity, print⟩

/-- The same quantity has the same fingerprint. -/
lemma OrderRow.OfKey.same_fingerprint {fp : Str} (own : o.OfKey req)
    (same : o.quantity = req.quantity)
    (print : o.fingerprint? o.caseId = some fp) : req.fingerprint = .ok fp := by
  obtain ⟨p, made, print⟩ := fingerprint?_eq_some.1 print
  rw [own.1, own.2, same] at made
  exact Except.ok.inj (made.symm.trans req.checked) ▸ print

/-! ### The history -/

/-- No key is claimed by two commits. -/
lemma claims_once (h : Sound lab (fun c _ => c.marks) Call.Ends s) :
    s.log.Pairwise fun e e' => ∀ r ∈ claims e.2, ∀ r' ∈ claims e'.2, r.key ≠ r'.key := by
  refine h.follows.imp ?_
  rintro e e' ⟨T, T', w, _, _, _, after, before⟩ r mr r' mr'
  exact Table.find?_eq_none.1 (before r' mr') r (after.1 r mr)

/-- What a purchase has committed is the claim of its own key with its own fingerprint. -/
lemma purchase_logged (h : Sound lab (fun c _ => c.marks) Call.Ends s) {t : Nat} {ws : List Write}
    {failAt : Option Failpoint}
    {lose : Bool} {T : Task mariadb Call (Except Raised Reply)} (task : s.tasks t = some T)
    (call : T.call = .purchase req failAt lose) (logged : (t, ws) ∈ s.log) :
    ∃ r ∈ s.world.db.requests.rows, r.key = (req.caseId, req.key) ∧
      req.fingerprint = .ok r.fingerprint := by
  obtain ⟨T', task', after, writes⟩ := h.earned _ logged
  obtain rfl := Option.some.inj (task.symm.trans task')
  rw [call] at writes
  obtain ⟨fp, oid, item, l₁, l₂, e, print, rfl⟩ := writes
  exact ⟨_, after _ (List.mem_singleton_self _), rfl, print⟩

/-- Where the fingerprint of a request is that of an order of its key, their quantities are the
same, unless the fingerprint is ambiguous. -/
lemma Database.Books.quantity (h : d.Books) (mo : o ∈ d.orders.rows) (own : o.OfKey req)
    {r : RequestRow}
    (mr : r ∈ d.requests.rows) (key : r.key = (req.caseId, req.key))
    (print : req.fingerprint = .ok r.fingerprint) :
    o.quantity = req.quantity ∨ req.Ambiguous := by
  obtain ⟨r', mr', key', _, printed⟩ := h.claim mo
  have same : r' = r := by
    refine d.requests.one_row mr' mr ?_
    rw [key', key, own.1, own.2]
  subst same
  obtain ⟨p, caseId, pkey, quantity, print'⟩ := own.fingerprint printed
  by_cases q : o.quantity = req.quantity
  · exact .inl q
  · exact .inr ⟨p, caseId, pkey, quantity ▸ q, print'.trans print.symm⟩

/-! ### What holds in every state -/

/-- Exactly once, as far as the database answers and the trace has room. -/
structure ExactlyOnce (s : System) : Prop where
  /-- No key is claimed by two commits. -/
  once : s.log.Pairwise fun e e' => ∀ r ∈ claims e.2, ∀ r' ∈ claims e'.2, r.key ≠ r'.key
  /-- A commit of a call has all of its effects, and the database has the effects of the commits. -/
  whole : ∀ e ∈ s.log, ∃ T, s.tasks e.1 = some T ∧ T.call.Writes e.2
  replay : s.world.db = (s.log.flatMap Prod.snd).foldl Database.apply .empty
  orders : ∀ o ∈ s.world.db.orders.rows, ∀ o' ∈ s.world.db.orders.rows, o.caseId = o'.caseId →
    o.requestKey = o'.requestKey → o = o'
  claims : ∀ r ∈ s.world.db.requests.rows, ∀ r' ∈ s.world.db.requests.rows, r.key = r'.key → r = r'
  /-- A call that returns names the order of its key. -/
  answers : ∀ t req b y, Answers s t req b (.ok y) → ∃ o, y.order? = some o ∧
    ∃ o' ∈ s.world.db.orders.rows, o'.id = o.id ∧ o'.OfKey req ∧ o'.quantity = req.quantity
  /-- A call for another quantity commits nothing. -/
  unchanged : ∀ t T req failAt lose, s.tasks t = some T → T.call = .purchase req failAt lose →
    ∀ o ∈ s.world.db.orders.rows, o.OfKey req → o.quantity ≠ req.quantity → ¬req.Ambiguous →
      ∀ ws, (t, ws) ∉ s.log
  /-- It raises a conflict if the key was taken when it began. -/
  conflict : ∀ t req b x, Answers s t req b x → ∀ o ∈ b.db.orders.rows, o.OfKey req →
    o.quantity ≠ req.quantity → ¬req.Ambiguous → x = .error (.rejected "idempotency_conflict") ∨
      ∃ e, x = .error e ∧ Interrupted e
  /-- A later call for the same quantity replays. -/
  replays : ∀ t req b x, Answers s t req b x → ∀ o ∈ b.db.orders.rows, o.OfKey req →
    o.quantity = req.quantity → (∃ o', x = .ok (.replayed o') ∧ o'.id = o.id) ∨ ∃ e, x = .error e ∧
      Interrupted e

/-- What a call that has ended says of the world now. -/
lemma answers_end (h : Sound lab (fun c _ => c.marks) Call.Ends s) {t : Nat} {b : World mariadb}
    {x : Except Raised Reply} (ended : Answers s t req b x) :
    PurchaseEnds req b.db s.world.db x ∧ Database.Books b.db ∧ Database.Grows b.db s.world.db := by
  obtain ⟨failAt, lose, n, task⟩ := ended
  obtain ⟨done, v, ends, guar, _⟩ := h.ended task
  obtain ⟨inv, grows⟩ := h.born t _ task
  exact ⟨PurchaseEnds.grows ends guar, inv, grows⟩

/-- The claim that was there when a call began. -/
lemma born_claim (books : d.Books) (grows : d.Grows d') (mo : o ∈ d.orders.rows)
    (own : o.OfKey req) :
    ∃ r ∈ d.requests.rows, r.key = (req.caseId, req.key) ∧ r.orderId = o.id ∧
      o.fingerprint? o.caseId = some r.fingerprint ∧
      ∀ r' ∈ d'.requests.rows, r'.key = (req.caseId, req.key) → r' = r := by
  obtain ⟨r, mr, key, id, print⟩ := books.claim mo
  rw [own.1, own.2] at key
  refine ⟨r, mr, key, id, print, fun r' mr' key' => ?_⟩
  exact d'.requests.one_row mr' (grows.requests r mr) (key'.trans key.symm)

/-- Purchases take effect once in every reachable state. -/
theorem exactly_once (reach : Reachable Call.code schema s) : ExactlyOnce s := by
  have h := reachable_sound reach
  constructor
  case once => exact claims_once h
  case whole =>
    intro e me
    obtain ⟨T, task, after⟩ := h.earned e me
    exact ⟨T, task, after.2⟩
  case replay => exact reachable_replay reach
  case orders => exact fun o mo o' mo' => Database.Books.one_order h.inv mo mo'
  case claims => exact fun r mr r' mr' => s.world.db.requests.one_row mr mr'
  case answers =>
    intro t req b y ended
    obtain ⟨ends, _, _⟩ := answers_end h ended
    cases ends with
    | created o _ recorded | replayed o recorded =>
      obtain ⟨o', mo, id, caseId, key, quantity⟩ := recorded.order
      exact ⟨o, rfl, o', mo, id, ⟨caseId, key⟩, quantity⟩
  case unchanged =>
    intro t T req failAt lose task call o mo own other plain ws logged
    obtain ⟨r, mr, key, print⟩ := purchase_logged h task call logged
    exact (Database.Books.quantity h.inv mo own mr key print).elim other plain
  case conflict =>
    intro t req b x ended o mo own other plain
    obtain ⟨ends, books, grows⟩ := answers_end h ended
    obtain ⟨r, mr, key, _, _, only⟩ := born_claim books grows mo own
    have different : ∀ r' ∈ s.world.db.requests.rows, r'.key = (req.caseId, req.key) →
        req.fingerprint ≠ .ok r'.fingerprint := by
      intro r' mr' key' print
      rw [only r' mr' key'] at print
      exact (Database.Books.quantity books mo own mr key print).elim other plain
    cases ends with
    | created o free _ => exact absurd key (Table.find?_eq_none.1 free r mr)
    | replayed o recorded =>
      obtain ⟨r', mr', key', _, print⟩ := recorded.claim
      exact absurd print (different r' mr' key')
    | conflict => exact .inl rfl
    | interrupted e h => exact .inr ⟨e, rfl, h⟩
    | failed e free => exact absurd key (Table.find?_eq_none.1 free r mr)
    | mismatch e h =>
      obtain ⟨r', mr', key', print, _⟩ := h
      exact absurd print (different r' mr' key')
  case replays =>
    intro t req b x ended o mo own same
    obtain ⟨ends, books, grows⟩ := answers_end h ended
    obtain ⟨r, mr, key, id, print, only⟩ := born_claim books grows mo own
    cases ends with
    | created o free _ => exact absurd key (Table.find?_eq_none.1 free r mr)
    | replayed o' recorded =>
      obtain ⟨r', mr', key', id', _⟩ := recorded.claim
      exact .inl ⟨o', rfl, id'.symm.trans (by rw [only r' mr' key', id])⟩
    | conflict r' mr' key' other =>
      rw [only r' mr' key'] at other
      exact absurd (own.same_fingerprint same print) other
    | interrupted e h => exact .inr ⟨e, rfl, h⟩
    | failed e free => exact absurd key (Table.find?_eq_none.1 free r mr)
    | mismatch e h =>
      obtain ⟨r', mr', key', _, o₁, mo₁, id₁, other⟩ := h
      obtain ⟨o₂, mo₂, id₂, _, _, quantity, _⟩ := grows.orders o mo
      have one : o₁ = o₂ :=
        s.world.db.orders.one_row mo₁ mo₂ (by rw [id₁, id₂, only r' mr' key', id])
      exact absurd (one ▸ quantity.trans same) other

end System

/-! ### A run of three calls -/

section Lesson
attribute [local instance] reference

def uuidOf (n : Nat) : Str := List.replicate 31 48 ++ [48 + n % 10]

/-- Ids in sequence, and a trace with some room left. -/
def steady : Oracle mariadb (Nat × Nat) where
  eval := fun q d ws =>
    let e := Query.eval (ws.foldl Database.apply d) q
    (e.1, d, e.2.1, e.2.2)
  act
    | .uuid4, e, (n, room) => (uuidOf n, e, n + 1, room)
    | .trace, e, (n, room) => (decide (0 < room), e, n, room - 1)
  runs := fun _ _ _ => ⟨rfl, rfl⟩
  acts
    | .uuid4, _, (n, _) => by
      have digit : n % 10 < 10 := Nat.mod_lt _ (by decide)
      simp [uuidOf, orderIdOk, isDigit]
      omega
    | .trace, _, _ => trivial

/-- What a call does that runs alone, with room for `room` entries in the trace. -/
def alone (room : Nat) (c : Call) (w : World mariadb) :
    Option (Except Raised Reply × World mariadb × List (List Write)) :=
  steady.solo c.code (0, room) none w

def lessonSeed : Call := .seed (str "lesson") 3 100 5
def lessonCall : Call := .purchase lessonPurchase none false

/-- After the seed, and after the purchase. -/
def seeded : World mariadb := ((alone 4096 lessonSeed schema).map fun x => x.2.1).getD schema
def bought : World mariadb := ((alone 4096 lessonCall seeded).map fun x => x.2.1).getD seeded

/-- A call that runs alone reaches its state. -/
lemma alone_reachable {s : System} (room : Nat) (c : Call) (t : Nat)
    (reach : Reachable Call.code schema s) (idle : s.Idle)
    (free : ∀ n, t ≤ n → s.tasks n = none) (run : (alone room c s.world).isSome = true) :
    ∃ s' x, Reachable Call.code schema s' ∧ s'.Idle ∧ (∀ n, t + 1 ≤ n → s'.tasks n = none) ∧
      s'.world = ((alone room c s.world).map fun x => x.2.1).getD s.world ∧
      s'.tasks t = some ⟨c, s.world, .ret x, none⟩ ∧
        (alone room c s.world).map Prod.fst = some x := by
  obtain ⟨⟨x, w, log⟩, run⟩ := Option.isSome_iff_exists.1 run
  obtain ⟨s', reach', idle', world, tasks, _⟩ := steady.solo_call reach idle (free t le_rfl) run
  refine ⟨s', x, reach', idle', fun n le => ?_, ?_, ?_, ?_⟩
  · rw [tasks, Function.update_of_ne (by omega)]
    exact free n (by omega)
  · rw [world, run]
    rfl
  · rw [tasks, Function.update_self]
  · rw [run]
    rfl

/-- The state of the example is reached. -/
lemma bought_reachable : ∃ s : System, Reachable Call.code schema s ∧ s.Idle ∧
    (∀ n, 2 ≤ n → s.tasks n = none) ∧ s.world = bought := by
  obtain ⟨s₁, _, reach₁, idle₁, free₁, world₁, _⟩ :=
    alone_reachable 4096 lessonSeed 0 .init (Config.init_idle schema)
    (fun _ _ => rfl) (show (alone 4096 lessonSeed schema).isSome = true by decide +kernel)
  replace world₁ : s₁.world = seeded := world₁
  obtain ⟨s₂, _, reach₂, idle₂, free₂, world₂, _⟩ :=
    alone_reachable 4096 lessonCall 1 reach₁ idle₁ free₁
    (by rw [world₁]; decide +kernel)
  rw [world₁] at world₂
  exact ⟨s₂, reach₂, idle₂, free₂, world₂⟩

/-- `audit_of_reachable` after the purchase: the snapshot has its order and passes. -/
theorem audit_of_reachable_lesson : ∃ (s : System) (v : Value), Reachable Call.code schema s ∧
    (s.world.db.ofCase (str "lesson")).orders.length = 1 ∧
    audit (s.world.db.ofCase (str "lesson")).toValue true = .ok v ∧ reportsPassed v := by
  obtain ⟨s, reach, _, _, world⟩ := bought_reachable
  have seeded : s.world.db.inventory.find? (str "lesson") = some ⟨str "lesson", 3, 1, 5⟩ := by
    rw [world]
    decide +kernel
  have same : (s.world.db.ofCase (str "lesson")).Same (s.world.db.ofCase (str "lesson")) :=
    ⟨.refl _, .refl _, .refl _, .refl _, .refl _, .refl _⟩
  have bounded : (s.world.db.ofCase (str "lesson")).Bounded := by
    rw [world]
    constructor <;> decide +kernel
  obtain ⟨v, run, pass⟩ := audit_of_reachable reach seeded same bounded
  exact ⟨s, v, reach, by rw [world]; decide +kernel, run, pass⟩

/-- `exactly_once` after the same call was made again: it replays. -/
theorem exactly_once_lesson : ∃ s : System, Reachable Call.code schema s ∧ ExactlyOnce s ∧
    ∃ o, Answers s 2 lessonPurchase bought (.ok (.replayed o)) := by
  obtain ⟨s, reach, idle, free, world⟩ := bought_reachable
  obtain ⟨s', x, reach', _, _, _, task, value⟩ := alone_reachable 4096 lessonCall 2 reach idle free
    (by rw [world]; decide +kernel)
  rw [world] at value task
  have replayed : (alone 4096 lessonCall bought).map Prod.fst = some (.ok (.replayed
      ⟨uuidOf 0, str "lesson", str "key-1", 2, 10, str "paid"⟩)) := by decide +kernel
  obtain rfl := Option.some.inj (replayed.symm.trans value)
  exact ⟨s', reach', exactly_once reach', _, none, false, none, task⟩

/-- With room for one entry in the trace, the same call does not replay, though the database does
not fail. -/
theorem replay_refused : ¬∀ (s : System) t req b x, Reachable Call.code schema s →
    Answers s t req b x → ∀ o ∈ b.db.orders.rows, o.OfKey req → o.quantity = req.quantity →
      (∃ o', x = .ok (.replayed o') ∧ o'.id = o.id) ∨ ∃ f, x = .error (.sql f) := by
  intro claim
  obtain ⟨s, reach, idle, free, world⟩ := bought_reachable
  obtain ⟨s', x, reach', _, _, _, task, value⟩ := alone_reachable 1 lessonCall 2 reach idle free
    (by rw [world]; decide +kernel)
  rw [world] at value task
  have refused : (alone 1 lessonCall bought).map Prod.fst = some (.error traceFull) := by
    decide +kernel
  obtain rfl := Option.some.inj (refused.symm.trans value)
  have order : ∃ o ∈ bought.db.orders.rows, o.OfKey lessonPurchase ∧
      o.quantity = lessonPurchase.quantity := by
    unfold OrderRow.OfKey
    decide +kernel
  obtain ⟨o, mo, own, same⟩ := order
  rcases claim s' 2 lessonPurchase bought _ reach' ⟨none, false, none, task⟩ o mo own same with ⟨_,
    e, _⟩ | ⟨_, e⟩
  · cases e
  · cases e

end Lesson

end DbLab.Txlab
