import DbLab.Mvp.OrderPrograms
import DbLab.Store.Solo
import DbLab.Store.Soundness

/-!
# Calls on the order store (`Storefront.create`, `Storefront.update`, `relay_once`)

Any number of calls run together, statement by statement, with failures and commits whose reply is
lost. A commit claims what no other may claim: the idempotency key of an order that is opened, and
every version of every order.
-/

namespace DbLab.Mvp.Shop
open DbLab.Py DbLab.Store Relation

/-- `[A-Za-z0-9_.:-]` -/
def keyChar (c : Nat) : Bool :=
  isDigit c || (65 ≤ c && c ≤ 90) || (97 ≤ c && c ≤ 122) || c = 95 || c = 46 || c = 58 || c = 45

/-- `[A-Za-z0-9_.:-]{1,80}` -/
def keyPattern : Pattern := .seq (.one keyChar) (.upTo keyChar 79)

/-- A run of characters of a class matches the repetition. -/
lemma upTo_all {p : Nat → Bool} {n : Nat} {s : Str} (all : ∀ c ∈ s, p c = true)
    (le : s.length ≤ n) :
    [] ∈ Pattern.upTo p n s := by
  induction n generalizing s with
  | zero => exact List.mem_singleton.2 (List.eq_nil_of_length_eq_zero (Nat.le_zero.1 le)).symm
  | succ n ih =>
    cases s with
    | nil => exact List.mem_append_right _ (List.mem_singleton_self _)
    | cons c s =>
      refine List.mem_append_left _
        (List.mem_flatMap.2 ⟨s, ?_, ih (fun c m => all c (.tail _ m)) (Nat.le_of_succ_le_succ le)⟩)
      rw [Pattern.one, if_pos (all c List.mem_cons_self)]
      exact List.mem_singleton_self _

/-- A drawn key is a key. -/
lemma uuid_key {s : Str} (h : IsUuid s) : keyPattern.fullmatch s = true := by
  have chars : ∀ c ∈ s, keyChar c = true := by
    have hex : ∀ c, lowerHex c = true → keyChar c = true := by
      intro c h
      simp only [lowerHex, isDigit, keyChar, Bool.or_eq_true, Bool.and_eq_true,
        decide_eq_true_eq] at h ⊢
      omega
    have dash : Pattern.Within (keyChar · = true) (.lit "-") := .lit (by decide)
    have hexes : ∀ n, Pattern.Within (keyChar · = true) (.times lowerHex n) := .times hex
    exact ((hexes 8).seq (dash.seq ((hexes 4).seq (dash.seq ((hexes 4).seq (dash.seq ((hexes 4).seq
      (dash.seq (hexes 12))))))))).fullmatch h
  have short := h.length
  cases s with
  | nil => exact absurd h (by decide)
  | cons c s =>
    refine List.any_eq_true.2 ⟨[], List.mem_flatMap.2 ⟨s, ?_, ?_⟩, rfl⟩
    · rw [Pattern.one, if_pos (chars c List.mem_cons_self)]
      exact List.mem_singleton_self _
    · rw [List.length_cons] at short
      exact upTo_all (fun c m => chars c (.tail _ m)) (by omega)

def checkedKey (key : Str) : Repo Str :=
  if keyPattern.fullmatch key then pure key else throw (.problem 400 "invalid_idempotency_key")

/-- `request_key`: a key that is missing or empty is drawn. -/
def requestKey : Option Str → Repo Str
  | some (c :: key) => checkedKey (c :: key)
  | _ => do checkedKey (← SQL.uuid4)

variable [Interpreter]

/-- `Storefront.create`, as far as the database sees it. -/
def Storefront.create (data : Value) (key : Option Str) : Repo (Order × Bool) := do
  let draft ← SQL.lift (createInput data)
  let key ← requestKey key
  SQL.create draft key

/-- `Storefront.update`, as far as the database sees it. -/
def Storefront.update (orderId : Str) (data : Value) : Repo Order := do
  let id ← SQL.lift (identifier (.str orderId))
  SQL.update id data

inductive Call where
  | create (data : Value) (key : Option Str)
  | update (orderId : Str) (data : Value)
  | pendingOne
  | markSent (seq : Int)

inductive Answer where
  | placed (order : Order) (created : Bool)
  | moved (order : Order)
  | pending (event : Option (Int × Value))
  | marked

def Call.run : Call → Repo Answer
  | .create data key => (fun a => .placed a.1 a.2) <$> Storefront.create data key
  | .update orderId data => .moved <$> Storefront.update orderId data
  | .pendingOne => .pending <$> SQL.pendingOne
  | .markSent seq => (fun _ => .marked) <$> SQL.markSent seq

/-- The program of a call, with its result or exception. -/
def Call.code (c : Call) : Prog interface (Except Raised Answer) := c.run.run

abbrev System := Config mariadb Call (Except Raised Answer)

/-! ### Claims -/

/-- What only one commit has. -/
inductive Claim where
  | key (k : Str)
  | version (id : Str) (version : Int)
deriving DecidableEq

def Write.claims : Write → List Claim
  | .insertOrder r => [.key r.idempotencyKey, .version r.id r.version]
  | .updateOrder id _ version => [.version id version]
  | .insertEvent _ | .markSent _ => []

def claims (ws : List Write) : List Claim := ws.flatMap Write.claims

/-- The claim has been made. -/
def Tables.Claimed (d : Tables) : Claim → Prop
  | .key k => ∃ r ∈ d.orders.rows, r.idempotencyKey = k
  | .version id version => ∃ r ∈ d.orders.rows, r.id = id ∧ version ≤ r.version

/-- The version that an update expects. -/
def expectedVersion : Value → Option Int
  | .dict ms =>
    match Fields.getD ms "expected_version" .null with
    | .int n => some n
    | _ => none
  | _ => none

/-- The key of a call, where it has one, is that of the request. -/
def OfRequest (key : Option Str) (k : Str) : Prop :=
  ∀ given, key = some given → given ≠ [] → k = given

/-- What a call may commit. -/
inductive Call.Writes : Call → List Write → Prop where
  | opened {data key draft k row e} (input : createInput data = .ok draft) (named : OfRequest key k)
    (own : row.idempotencyKey = k) (new : row.toOrder = newOrder draft row.id row.createdAt) :
    Writes (.create data key) (opening row e)
  | moved {orderId data o e} (own : o.id = orderId)
      (expected : expectedVersion data = some (o.version - 1)) :
    Writes (.update orderId data) (updating o e)
  | sent {seq} : Writes (.markSent seq) [.markSent seq]
  | nothing {c} : Writes c []

/-- A commit claims what is free, and it is claimed from then on. -/
def Call.marks (c : Call) : Marks mariadb where
  before ws w := ∀ x ∈ claims ws, ¬w.db.Claimed x
  after ws w :=
    (∀ x ∈ claims ws, w.db.Claimed x) ∧ (∀ row, Write.insertOrder row ∈ ws →
      w.db.Keeps row) ∧ c.Writes ws

/-- The request can be an order. -/
def Acceptable (data : Value) (key : Option Str) : Prop :=
  (∃ draft, createInput data = .ok draft) ∧ ∀ k, key = some k → k ≠ [] →
    keyPattern.fullmatch k = true

/-- What a call that began in `b` has returned or raised. -/
inductive Call.Ends : Call → (b : Tables) → Except Raised Answer → List (List Write) →
    Tables → Prop where
  | placed {data key draft k ws b o created done d} (input : createInput data = .ok draft)
      (named : OfRequest key k)
    (logged : ws ∈ done) (placed : Placed draft k b d ws (o, created)) :
    Ends (.create data key) b (.ok (.placed o created)) done d
  | declined {data key draft k b e done d} (input : createInput data = .ok draft)
      (named : OfRequest key k)
    (declined : Declined draft k d e) : Ends (.create data key) b (.error e) done d
  | invalid {data key e b done d} (bad : IsInvalid e) (not : ¬Acceptable data key) :
      Ends (.create data key) b (.error e) done d
  | moved {orderId data o e b done d} (logged : updating o e ∈ done) (tells : d.Tells o) :
    Ends (.update orderId data) b (.ok (.moved o)) done d
  | refused {orderId data b e done d} : Ends (.update orderId data) b (.error e) done d
  | pending {b event done d} : Ends .pendingOne b (.ok (.pending event)) done d
  | marked {seq b done d} : Ends (.markSent seq) b (.ok .marked) done d
  | unavailable {c b f done d} : Ends c b (.error (.sql f)) done d

section
variable {d d' : Tables} {x : Claim}

/-- What is claimed stays claimed. -/
lemma Tables.Claimed.grows (claimed : d.Claimed x) (grows : Grows d d') : d'.Claimed x := by
  cases x with
  | key k =>
    obtain ⟨r, m, rfl⟩ := claimed
    obtain ⟨r', m', status, version, rfl, _⟩ := grows.rows r m
    exact ⟨_, m', rfl⟩
  | version id version =>
    obtain ⟨r, m, rfl, le⟩ := claimed
    obtain ⟨r', m', status, version, rfl, le'⟩ := grows.rows r m
    exact ⟨_, m', rfl, le.trans le'⟩

/-- A transition that is taken names the version before it. -/
lemma transition_expected {o o' : Order} {data : Value} (h : transition o data = .ok o') :
    expectedVersion data = some (o'.version - 1) := by
  obtain ⟨_, _, _, _, rfl⟩ := transition_inv h
  unfold transition at h
  unfold expectedVersion
  split at h
  · split at h
    · rename_i expected found
      split at h
      · cases h
      · rename_i same
        rw [not_not] at same
        simp [found, same]
    · cases h
  · cases h

/-- A commit of `create` claims the key of the order and its first version. -/
lemma opening_earns {data : Value} {key : Option Str} {draft : Draft} {k : Str}
    (input : createInput data = .ok draft)
    (named : OfRequest key k) : Opening (Call.create data key).marks draft k where
  nothing w := ⟨nofun, nofun, nofun, .nothing⟩
  opened w row e _ free key own new kept := by
    obtain ⟨r, m, next⟩ := kept
    have both : ∀ {P : Claim → Prop}, P (.key row.idempotencyKey) →
      P (.version row.id row.version) →
        ∀ x ∈ claims (opening row e), P x := by
      intro P key version x m
      simp only [claims, opening, List.flatMap_cons, Write.claims, List.flatMap_nil,
        List.append_nil, List.mem_cons, List.not_mem_nil, or_false] at m
      rcases m with rfl | rfl
      · exact key
      · exact version
    refine ⟨both ?_ ?_, both ?_ ?_, fun row' m' => ?_, .opened input named own new⟩
    · rintro ⟨r, m, same⟩
      exact List.find?_eq_none.1 key r m (decide_eq_true (same.trans own))
    · rintro ⟨r, m, same, _⟩
      exact Table.find?_eq_none.1 free r m same
    · obtain ⟨_, _, rfl, _⟩ := next
      exact ⟨_, m, rfl⟩
    · obtain ⟨_, _, rfl, le⟩ := next
      exact ⟨_, m, rfl, le⟩
    · simp only [opening, List.mem_cons, Write.insertOrder.injEq, reduceCtorEq, List.not_mem_nil,
        or_false] at m'
      exact ⟨r, m, m' ▸ next⟩

/-- A commit of `update` claims the next version. -/
lemma moving_earns {id : Str} {data : Value} : Moving (Call.update id data).marks id data := by
  intro w row o e _ there step stored
  obtain ⟨m, own⟩ := Table.find?_eq_some.1 there
  obtain ⟨r, mr, made⟩ := stored
  have next : o.id = row.id ∧ o.version = row.version + 1 := by
    obtain ⟨_, _, _, _, rfl⟩ := transition_inv step
    exact ⟨rfl, rfl⟩
  have one : ∀ {P : Claim → Prop}, P (.version o.id o.version) →
      ∀ x ∈ claims (updating o e), P x := by
    intro P version x m
    simp only [claims, updating, List.flatMap_cons, Write.claims, List.flatMap_nil, List.append_nil,
      List.mem_cons, List.not_mem_nil, or_false] at m
    exact m ▸ version
  have stored : (w.commit (updating o e)).db.Claimed (.version o.id o.version) :=
    ⟨r, mr, congrArg Order.id made, (congrArg Order.version made).ge⟩
  refine ⟨one ?_, one stored, by simp [updating], .moved ?_ (transition_expected step)⟩
  · rintro ⟨r', mr', same, le⟩
    have here : r' = row := w.db.orders.one_row mr' m (same.trans next.1)
    rw [here, next.2] at le
    omega
  · rw [next.1, own]

end

/-! ### Every call is verified -/

section
variable {M : Marks mariadb} {v : World mariadb} {done : List (List Write)}
  {l : Local mariadb} {α : Type}

/-- A plain computation leaves the session as it is. -/
lemma lift_wp {Q : α → Local mariadb → Prop} {E : Raised → Local mariadb → Prop}
    {x : Except Raised α}
    (ok : ∀ a, x = .ok a → Q a l) (error : ∀ e, x = .error e → E e l) :
    shop.wpc M Q E (SQL.lift x) l := by
  cases x with
  | ok a => exact ok a rfl
  | error e => exact error e rfl

/-- A key in the pattern passes, any other is refused. -/
lemma checkedKey_wp {Q : Str → Local mariadb → Prop} {E : Raised → Local mariadb → Prop} {key : Str}
    (ok : keyPattern.fullmatch key = true → Q key l)
    (error : keyPattern.fullmatch key ≠ true → E (.problem 400 "invalid_idempotency_key") l) :
    shop.wpc M Q E (checkedKey key) l := by
  unfold checkedKey
  split
  · exact ok ‹_›
  · exact error ‹_›

/-- The key of a request: its own, or a fresh one. -/
lemma requestKey_wp {Q : Str → Local mariadb → Prop} {E : Raised → Local mariadb → Prop}
    {key : Option Str}
    (h : shop.At .closed v done l)
    (ok : ∀ k l', OfRequest key k → shop.At .closed v done l' → Q k l')
    (error : ∀ k, key = some k → k ≠ [] → keyPattern.fullmatch k ≠ true →
      E (.problem 400 "invalid_idempotency_key") l) :
    shop.wpc M Q E (requestKey key) l := by
  have drawn : (∀ k, key = some k → k = []) → shop.wpc M Q E (do checkedKey (← SQL.uuid4)) l := by
    intro none
    rw [shop.wpc_bind]
    refine uuid4_wp h fun id l' uuid at' => ?_
    refine checkedKey_wp (fun _ => ok id l' (fun given some ne => absurd (none given some) ne) at')
      fun bad => ?_
    exact absurd (uuid_key uuid) bad
  match key with
  | some (c :: k) =>
    refine checkedKey_wp (fun _ => ok _ l ?_ h) fun bad => error _ rfl nofun bad
    rintro given ⟨⟩ _
    rfl
  | some [] => exact drawn fun k some => (Option.some.inj some).symm
  | none => exact drawn nofun

/-- Mapping the result of a program. -/
lemma map_wp {β : Type} {p : Repo α} {f : α → β} {Q : β → Local mariadb → Prop}
    {E : Raised → Local mariadb → Prop}
    (h : shop.wpc M (fun a => Q (f a)) E p l) : shop.wpc M Q E (f <$> p) l := by
  rw [map_eq_pure_bind, shop.wpc_bind]
  exact h

/-- The answer of a call from the result of its program. -/
lemma call_wp {c : Call} {b : Tables} (h : shop.wpc M (fun a l => c.Ends b (.ok a) l.done l.view.db)
    (fun e l => c.Ends b (.error e) l.done l.view.db) c.run l) :
    shop.wp M (fun x l => c.Ends b x l.done l.view.db) c.code l := by
  refine shop.wp_mono h ?_
  rintro (e | a) l ends
  · exact ends
  · exact ends

/-- Reading the body of a creation only refuses. -/
lemma createInput_only (data : Value) : Only IsInvalid (createInput data) := by
  unfold createInput
  split
  · exact draftOf_only _
  · exact .error invalid400

/-- What a creation ends with. -/
lemma placing_wp {data : Value} {key : Option Str}
    (earns : ∀ draft k, createInput data = .ok draft → OfRequest key k → Opening M draft k)
    (h : shop.At .closed v done l) :
    shop.wpc M
      (fun a l => (Call.create data key).Ends v.db (.ok (.placed a.1 a.2)) l.done l.view.db)
      (fun e l => (Call.create data key).Ends v.db (.error e) l.done l.view.db)
        (Storefront.create data key) l := by
  unfold Storefront.create
  rw [shop.wpc_bind]
  refine lift_wp (fun draft input => ?_) fun e refused => ?_
  · rw [shop.wpc_bind]
    refine requestKey_wp h (fun k l named at' => ?_) fun k given ne bad => ?_
    · refine shop.wpc_mono (create_wp input (earns draft k input named) at') ?_ ?_
      · rintro a l ⟨ws, logged, placed⟩
        exact .placed input named logged placed
      · exact fun e l declined => .declined input named declined
    · exact .invalid invalid400 fun acceptable => bad (acceptable.2 k given ne)
  · refine .invalid (createInput_only data e refused) ?_
    rintro ⟨⟨draft, input⟩, _⟩
    cases refused.symm.trans input

end

/-- Every call keeps what it promises. -/
theorem verified : Verified shop Call.code (fun c _ => c.marks) fun c b x done w =>
  c.Ends b.db x done w.db where
  code := by
    intro c b inv
    have start : shop.At .closed b [] ⟨.closed, b, []⟩ := ⟨rfl, inv, .refl, rfl⟩
    refine call_wp ?_
    cases c with
    | create data key => exact map_wp (placing_wp (fun _ _ => opening_earns) start)
    | update orderId data =>
      refine map_wp ?_
      unfold Storefront.update
      rw [shop.wpc_bind]
      refine lift_wp (fun id named => ?_) fun e _ => .refused
      obtain ⟨same, _⟩ := identifier_ok.1 named
      cases same
      refine shop.wpc_mono (update_wp moving_earns start) ?_ fun e l _ => .refused
      rintro o l ⟨⟨e, logged⟩, tells⟩
      exact .moved logged tells
    | pendingOne =>
      refine map_wp (shop.wpc_mono (pendingOne_wp (fun w => ⟨nofun, nofun, nofun, .nothing⟩) start)
        (fun a l _ => .pending) ?_)
      rintro _ l ⟨_, f, rfl⟩
      exact .unavailable
    | markSent seq =>
      refine map_wp (shop.wpc_mono (sent_wp (fun ws w writes => ?_) start)
        (fun a l _ => .marked) ?_)
      · rcases writes with rfl | rfl
        · exact ⟨nofun, nofun, nofun, .nothing⟩
        · exact ⟨nofun, nofun, by simp, .sent⟩
      · rintro _ l ⟨_, f, rfl⟩
        exact .unavailable
  stable := by
    rintro c b ws w w' _ guar ⟨claimed, kept, writes⟩
    exact ⟨fun x m => (claimed x m).grows (.changes guar),
      fun row m => (kept row m).grows (.changes guar), writes⟩

/-- The world when the shop is initialized. -/
def schema : World mariadb := ⟨.empty, ()⟩

variable {s : System}

/-- Every reachable state is sound. -/
theorem reachable_sound (h : Reachable Call.code schema s) :
    Sound shop (fun c _ => c.marks) (fun c b x done w => c.Ends b.db x done w.db) s :=
  have inv : shop.Inv schema := .refl
  sound verified inv h

end DbLab.Mvp.Shop
