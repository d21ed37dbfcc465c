import DbLab.Txlab.Refund
import DbLab.Txlab.Auditable
import DbLab.Store.Solo

/-!
# The checkout as a system

Any number of calls of `seed`, `purchase` and `refund` under the protected policy, interleaved
request by request, with failures, retries inside the calls and commits whose reply is lost. In
every state they reach the books are kept, and no key is claimed by two commits.
-/

namespace DbLab.Txlab
open DbLab.Py DbLab.Store

inductive Call where
  | seed (caseId : Str) (stock balance price : Int)
  | purchase (req : Purchase) (failAt : Option Failpoint) (loseResponse : Bool)
  | refund (caseId oid : Str)

/-- The request rows a transaction inserts. -/
def claims (ws : List Write) : List RequestRow :=
  ws.filterMap fun
    | .insert (.request r) => some r
    | _ => none

/-- A purchase claims its request. -/
lemma claims_purchase (o : OrderRow) (r : RequestRow) (l₁ l₂ : LedgerRow) (e : EventRow) :
    claims (purchaseWrites o r l₁ l₂ e) = [r] := rfl

/-- The log replays to the database. -/
lemma replay_commit {d d' : Database} {log : List (Nat × List Write)} {t : Nat} {ws : List Write}
    (h : d' = (log.flatMap Prod.snd).foldl Database.apply d) :
    ws.foldl Database.apply d' = ((log ++ [(t, ws)]).flatMap Prod.snd).foldl Database.apply d := by
  rw [List.flatMap_append, List.flatMap_singleton, List.foldl_append, h]

variable [Interpreter]

def Call.run : Call → Repo Reply
  | .seed c stock balance price => Repository.seed c stock balance price
  | .purchase req failAt loseResponse => Repository.purchase req .safe failAt loseResponse
  | .refund c oid => Repository.refund c oid true

/-- The program of a call, with its result or exception. -/
def Call.code (c : Call) : Prog interface (Except Raised Reply) := c.run.run

abbrev System := Config mariadb Call (Except Raised Reply)

/-- What a call may commit: all of its effects at once. -/
def Call.Writes : Call → List Write → Prop
  | .seed c stock balance price, ws => ws = seedWrites c stock balance price
  | .purchase req _ _, ws => ∃ fp oid item l₁ l₂ e, req.fingerprint = .ok fp ∧
    ws = purchaseWrites (Repository.newOrder req oid item) ⟨req.caseId, req.key, fp, oid⟩ l₁ l₂ e
  | .refund _ _, ws => ∃ o l₁ l₂ e, ws = refundWrites o l₁ l₂ e

/-- A commit claims keys that are free, and they are claimed from then on. -/
def Call.marks (c : Call) : Marks mariadb where
  before := fun ws w => ∀ r ∈ claims ws, w.db.requests.find? r.key = none
  after := fun ws w => (∀ r ∈ claims ws, r ∈ w.db.requests.rows) ∧ c.Writes ws

def Call.Ends (c : Call) (b : World mariadb) (x : Except Raised Reply) (_ : List (List Write))
    (w : World mariadb) :
    Prop :=
  match c with
  | .purchase req _ _ => PurchaseEnds req b.db w.db x
  | _ => True

/-- A purchase has its marks. -/
lemma purchase_earns (req : Purchase) (failAt : Option Failpoint) (lose : Bool) :
    Earns (Call.purchase req failAt lose).marks req := by
  intro w fp oid item i b m l₁ l₂ e print new
  refine ⟨fun r mr => ?_, fun r mr => ?_, fp, oid, item, l₁, l₂, e, print, rfl⟩
  · rw [claims_purchase, List.mem_singleton] at mr
    subst mr
    exact new.request
  · rw [claims_purchase, List.mem_singleton] at mr
    subst mr
    exact new.claimed

/-- Every call keeps what it promises. -/
theorem verified : Verified lab Call.code (fun c _ => c.marks) Call.Ends where
  code := by
    intro c b inv
    have start : lab.At .closed b [] ⟨.closed, b, []⟩ := ⟨rfl, inv, .refl _, rfl⟩
    cases c with
    | seed c stock balance price =>
      have wp : lab.wpc (Call.seed c stock balance price).marks (fun _ _ => True) (fun _ _ => True)
          (Repository.seed c stock balance price) ⟨.closed, b, []⟩ :=
            seed_wp start fun w => ⟨nofun, nofun, rfl⟩
      exact lab.wp_mono wp fun _ _ _ => trivial
    | purchase req failAt lose =>
      refine lab.wp_mono (attempts_wp (purchase_earns req failAt lose) 2 start) ?_
      rintro (e | a) l h
      · exact h
      · exact h
    | refund c oid =>
      have wp : lab.wpc (Call.refund c oid).marks (fun _ _ => True) (fun _ _ => True)
          (Repository.refund c oid true) ⟨.closed, b, []⟩ :=
        refund_wp start fun w i b m o l₁ l₂ e _ => ⟨nofun, nofun, o, l₁, l₂, e, rfl⟩
      exact lab.wp_mono wp fun _ _ _ => trivial
  stable := fun _ guar after => ⟨fun r mr => guar.requests r (after.1 r mr), after.2⟩

/-- The world when the lab is initialized. -/
def schema : World mariadb := ⟨Database.empty, ()⟩

variable {s : System}

/-- Every reachable state is sound. -/
theorem reachable_sound (h : Reachable Call.code schema s) :
    Sound lab (fun c _ => c.marks) Call.Ends s :=
  sound verified (fun _ => .inl rfl) h

/-- The database is what the commits of the history made of the empty schema. -/
theorem reachable_replay {w : World mariadb} (h : Reachable Call.code w s) :
    s.world.db = (s.log.flatMap Prod.snd).foldl Database.apply w.db := by
  induction h with
  | init => rfl
  | step _ step ih =>
    cases step with
    | sql task conn runs free => exact runs.1.trans ih
    | commit task conn | orphanCommits n t ws conn => exact replay_commit ih
    | drift drifts => exact nomatch drifts
    | _ => exact ih

/-- In every state of every run, a snapshot of a case that was seeded passes the audit. -/
theorem audit_of_reachable (h : Reachable Call.code schema s) {c : Str} {i : InventoryRow}
    {snapshot : Snapshot}
    (seeded : s.world.db.inventory.find? c = some i) (rows : snapshot.Same (s.world.db.ofCase c))
    (bounded : snapshot.Bounded) : ∃ v, audit snapshot.toValue true = .ok v ∧ reportsPassed v :=
  Database.Books.audited (reachable_sound h).inv seeded rows bounded

end DbLab.Txlab
