import DbLab.Mvp.Restored
import DbLab.Py.Reference

/-!
# Integrity of snapshots

What an export promises, and what becomes of it when it is edited or restored.
-/

namespace DbLab.Mvp
open DbLab.Py DbLab.Store Tool SQL

section Integrity
variable [Interpreter]

/-- A snapshot that does not validate is refused before the first request. -/
lemma restore_refused {s : Settings} {id : Str} {snapshot : Value} {e : Exn}
    (invalid : validate snapshot = .error e) :
    ∃ e', restoreSnapshot s id snapshot = throw e' := by
  rw [restoreSnapshot, invalid]
  cases disposable s id with
  | ok u => exact ⟨.python e, rfl⟩
  | error e' => exact ⟨.python e', rfl⟩

/-- The members of a sealed value. -/
lemma sealedValue_member (c : Content) (version : Str) (raw : Bytes) :
    member "tables" (sealedValue c version raw) = some (tablesValue c) ∧
      member "sha256" (sealedValue c version raw) = some (.str (Interpreter.sha256 raw)) :=
  ⟨(sealedFields_lookup ..).2.1, (sealedFields_lookup ..).2.2.1⟩

/-- Sealed values of one content have one digest. -/
lemma sameSha256_content (c : Content) (source target : Str) (raw : Bytes) :
    sameSha256 ((sealedValue c source raw).reorder compactSorted) (sealedValue c target raw) =
      .ok true := by
  have nodup := sealedFields_nodup (tablesValue c) (.str source) (Interpreter.sha256 raw)
  have digest := (sealedFields_lookup (tablesValue c) (.str source) (Interpreter.sha256 raw)).2.2.1
  have digest' := (sealedFields_lookup (tablesValue c) (.str target) (Interpreter.sha256 raw)).2.2.1
  have same : (Value.str (Interpreter.sha256 raw)).eq (.str (Interpreter.sha256 raw)) = true :=
    eq_str_iff.2 rfl
  rw [sameSha256, sealedValue, sealedValue, sealResult_eq, sealResult_eq, Value.reorder, Value.item,
    digest', ok_bind, Value.item, lookup_reorder _ nodup, digest]
  exact congrArg Except.ok same

/-- Integrity of application snapshots. The export of a content is accepted, and `restore_snapshot`
of it into an empty schema brings the server into a state from which an export gives the same tables
and checksum; there it begins its audit. An accepted snapshot whose cells are edited under its
checksum is refused, if SHA-256 does not collide; and a refused snapshot is refused before the first
request to a server. -/
theorem snapshot_integrity :
    (∀ (source target : MariaDb) (clk clk' : Clock) (c : Content) (nextSeq : Int) (n n' : Nat),
      @Content.Held _ source c → @Content.Held _ target c → c.Limited source.version →
        c.Limited target.version →
      (∀ r ∈ c .outbox, r.cells.head? ≠ some (.int 0)) →
      ∃ v snapshot restored server server',
        Client.eval (@serve _ source clk) exportSnapshot ⟨.of c nextSeq, none, n⟩ =
          (.ok v, ⟨.of c nextSeq, none, n + 8⟩) ∧
        validate v = .ok v ∧ roundTrip v = .ok snapshot ∧
        (∀ s id, disposable s id = .ok () →
          Client.eval (@serve _ target clk') (restoreSnapshot s id snapshot) ⟨.empty, none, n'⟩ =
            Client.eval (@serve _ target clk') (auditRestored id snapshot restored) server) ∧
        sameSha256 snapshot restored = .ok true ∧
        Client.eval (@serve _ target clk') exportSnapshot server = (.ok restored, server') ∧
          server.db.rows = c ∧
        member "tables" restored = member "tables" v ∧
          member "sha256" restored = member "sha256" v) ∧
    (∀ v w v' t, validate v = .ok v' → cells w t ≠ cells v t →
      member "sha256" w = member "sha256" v → NoCollision v w → ∃ e, validate w = .error e) ∧
    ∀ s id snapshot e, validate snapshot = .error e →
      ∃ e', restoreSnapshot s id snapshot = throw e' := by
  refine ⟨fun source target clk clk' c nextSeq n n' held held' limited limited' numbered => ?_,
    fun v w v' t hv edited sha256 safe => ?_, fun s id snapshot e invalid =>
      restore_refused invalid⟩
  · obtain ⟨raw, written⟩ := canonical_ok (sealBody_legible (tablesValue_legible c))
    obtain ⟨nextSeq', m, restore⟩ :=
      @eval_restoreRows _ target clk' c source.version raw n' held' limited' written numbered
    refine ⟨sealedValue c source.version raw,
      (sealedValue c source.version raw).reorder compactSorted, sealedValue c target.version raw,
      ⟨.of c nextSeq', none, m⟩, ⟨.of c nextSeq', none, m + 8⟩,
      @eval_exportSnapshot _ source clk c nextSeq n raw held limited written,
      @validate_content _ c source.version raw source held limited source.version_scalar written,
      roundTrip_content source.version_scalar, fun s id safe =>
        ?_, sameSha256_content c _ _ raw,
          @eval_exportSnapshot _ target clk' c nextSeq' m raw held' limited' written, rfl, ?_, ?_⟩
    · have valid :=
        @validate_reordered _ c source.version raw source held limited source.version_scalar written
      rw [restoreSnapshot, safe, valid]
      exact Client.eval_bind restore _
    · rw [(sealedValue_member c _ raw).1, (sealedValue_member c _ raw).1]
    · rw [(sealedValue_member c _ raw).2, (sealedValue_member c _ raw).2]
  · cases hw : validate w with
    | error e => exact ⟨e, rfl⟩
    | ok w' => exact absurd (validate_cells hv hw sha256.symm safe t).symm edited

end Integrity

section Runs
attribute [local instance] reference

/-- A server that compares texts code point by code point and converts nothing. -/
@[reducible] def strictServer : MariaDb where
  version := str "11.8.2-MariaDB"
  version_scalar := by decide
  weight s := (rstrip s).map Int.ofNat
  coerce _ _ := .error (.server 1366)

attribute [local instance] strictServer

def noon : DateTime := ⟨⟨2026, 1, 2, 12, 0, 0, 7000⟩, by decide⟩

/-- Random ids and clocks that count. -/
def counting : Clock where
  uuid n := str "00000000-0000-4000-8000-0000000000" ++ zfill 2 n
  isoformat _ := str "2026-01-02T12:00:00.007+00:00"
  timestamp _ := noon

/-- One event, with the number `seq`. -/
def oneEvent (seq : Int) (small : fits 64 seq = true) : Content
  | .orders => []
  | .outbox =>
    [⟨[.int seq, .text (str "0b"), .text (str "[]"), .stamp (.instant noon), .null],
      .cons small (by decide)⟩]

def drill : Str := str "drill-0123456789ab"
def loopback : Settings := ⟨str "127.0.0.1", str "mvp", str "mvp"⟩

/-- A run of the server whose result passes a test. -/
def runs {α : Type} (p : Tool α) (s : Server) (test : α → Server → Bool) : Bool :=
  passes (Client.eval (serve counting) p s).1 fun a => test a (Client.eval (serve counting) p s).2

/-- A run that is tested has a result. -/
lemma runs_inv {α : Type} {p : Tool α} {s : Server} {test : α → Server → Bool}
    (h : runs p s test = true) :
    ∃ a s', Client.eval (serve counting) p s = (.ok a, s') ∧ test a s' = true := by
  obtain ⟨a, run, ok⟩ := ok_of_test h
  exact ⟨a, _, Prod.ext run rfl, ok⟩

/-- The content of the demonstration is one that the tables can hold. -/
lemma oneEvent_held (seq : Int) (small : fits 64 seq = true) : (oneEvent seq small).Held where
  sorted t := by cases t <;> simp [oneEvent]
  unique t := by cases t <;> simp [oneEvent]

set_option maxRecDepth 20000 in
/-- The content of the demonstration is small enough. -/
lemma oneEvent_limited : (oneEvent 1 rfl).Limited MariaDb.version where
  rows t := by cases t <;> simp [oneEvent, maxRows]
  payloads := by
    have two : payloadBytes (oneEvent 1 rfl .outbox) = 2 := rfl
    rw [two, maxBytes]
    omega
  body raw written := by
    have small : passes (canonical (.ofFields (sealBody (tablesValue (oneEvent 1 rfl)))))
        (fun raw => raw.length ≤ maxBytes) := by
      decide +kernel
    have short := passes_of_ok small written
    exact of_decide_eq_true short
  whole raw whole written all := by
    have small : passes (canonical (.ofFields (sealBody (tablesValue (oneEvent 1 rfl)))))
      (fun raw =>
        passes (canonical (sealResult (tablesValue (oneEvent 1 rfl)) (.str MariaDb.version)
          (Interpreter.sha256 raw))) fun whole =>
          whole.length ≤ maxBytes) := by
      decide +kernel
    have small := passes_of_ok small written
    have short := passes_of_ok small all
    exact of_decide_eq_true short

/-- The export of one event under another number, with the old checksum. -/
def renumbered (raw : Bytes) : Value := sealedValue (oneEvent 2 rfl) MariaDb.version raw

/-- No collision is met in the demonstration. -/
lemma renumbered_safe (raw : Bytes) :
    NoCollision (sealedValue (oneEvent 1 rfl) MariaDb.version raw) (renumbered raw) := by
  intro tables tables' b b' holds holds' encoded encoded' same
  obtain rfl := Option.some.inj ((sealedValue_member (oneEvent 1 rfl) _ raw).1.symm.trans holds)
  obtain rfl := Option.some.inj ((sealedValue_member (oneEvent 2 rfl) _ raw).1.symm.trans holds')
  have apart : passes (canonical (.ofFields (sealBody (tablesValue (oneEvent 1 rfl))))) (fun b =>
      passes (canonical (.ofFields (sealBody (tablesValue (oneEvent 2 rfl))))) fun b' =>
        Interpreter.sha256 b ≠ Interpreter.sha256 b') := by
    decide +kernel
  have apart := passes_of_ok apart encoded
  have differ := passes_of_ok apart encoded'
  exact absurd same (of_decide_eq_true differ)

/-- The number in the first cell of a table. -/
def firstNumber : Option (List (List (Option Value))) → Option Int
  | some ((some (.int n) :: _) :: _) => some n
  | _ => none

/-- A row of the demonstration was changed. -/
lemma renumbered_differs (raw : Bytes) :
    cells (renumbered raw) .outbox ≠ cells (sealedValue (oneEvent 1 rfl) MariaDb.version raw)
      .outbox := by
  have one : firstNumber (grid (tablesValue (oneEvent 1 rfl)) .outbox) = some 1 := by decide +kernel
  have two : firstNumber (grid (tablesValue (oneEvent 2 rfl)) .outbox) = some 2 := by decide +kernel
  rw [cells, cells, renumbered, (sealedValue_member ..).1, (sealedValue_member ..).1]
  intro same
  cases two.symm.trans ((congrArg firstNumber same).trans one)

/-- Of one event: its export restores, renumbered it is refused, and so is what is no snapshot. -/
theorem snapshot_integrity_event :
    (∃ v snapshot restored server server',
      Client.eval (serve counting) exportSnapshot ⟨.of (oneEvent 1 rfl) 2, none, 0⟩ =
        (.ok v, ⟨.of (oneEvent 1 rfl) 2, none, 8⟩) ∧
      validate v = .ok v ∧ roundTrip v = .ok snapshot ∧
      Client.eval (serve counting) (restoreSnapshot loopback drill snapshot) ⟨.empty, none, 0⟩ =
        Client.eval (serve counting) (auditRestored drill snapshot restored) server ∧
      Client.eval (serve counting) exportSnapshot server = (.ok restored, server') ∧
        server.db.rows = oneEvent 1 rfl) ∧
    (∃ raw, canonical (.ofFields (sealBody (tablesValue (oneEvent 1 rfl)))) = .ok raw ∧
      ∃ e, validate (renumbered raw) = .error e) ∧
    ∃ e, restoreSnapshot loopback drill .null = throw e := by
  have held := oneEvent_held 1 rfl
  have limited := oneEvent_limited
  refine ⟨?_, ?_, snapshot_integrity.2.2 loopback drill .null _ rfl⟩
  · obtain ⟨v, snapshot, restored, server, server', export_, valid, read, restore, _,
      again, rows, _⟩ :=
      snapshot_integrity.1 strictServer strictServer counting counting (oneEvent 1 rfl) 2 0 0 held
        held limited limited
        (by decide)
    exact ⟨v, snapshot, restored, server, server', export_, valid, read,
      restore loopback drill rfl, again, rows⟩
  · obtain ⟨raw, written⟩ := canonical_ok (sealBody_legible (tablesValue_legible (oneEvent 1 rfl)))
    refine ⟨raw, written, snapshot_integrity.2.1 _ (renumbered raw) _ .outbox
      (validate_content held limited strictServer.version_scalar written)
        (renumbered_differs raw) ?_
      (renumbered_safe raw)⟩
    exact (sealedValue_member (oneEvent 2 rfl) _ raw).2.trans
      (sealedValue_member (oneEvent 1 rfl) _ raw).2.symm

/-- The report of a restore says that a row differs. -/
def unmatched (report : Value) : Bool := match member "matched" report with
  | some (.bool b) => !b
  | _ => false

/-- A report that is not matched says so. -/
lemma of_unmatched {report : Value} (h : unmatched report = true) :
    member "matched" report = some (.bool false) := by
  unfold unmatched at h
  split at h
  · rename_i b item
    rw [Bool.not_eq_true'] at h
    rw [item, h]
  · cases h

set_option maxRecDepth 20000 in
/-- The canary of `restore_snapshot` is in the next export, and an event with number 0 gets another
number. -/
theorem canary_stays :
    (∃ v snapshot r s server,
      Client.eval (serve counting) exportSnapshot ⟨.of (fun _ => []) 1, none, 0⟩ = (.ok v, s) ∧
      roundTrip v = .ok snapshot ∧
      Client.eval (serve counting) (restoreSnapshot loopback drill snapshot) ⟨.empty, none, 0⟩ =
        (.ok r, server) ∧
      ∀ v' s', Client.eval (serve counting) exportSnapshot server = (.ok v', s') →
        cells v' .orders ≠ cells v .orders) ∧
    ∃ v snapshot r s server,
      Client.eval (serve counting) exportSnapshot ⟨.of (oneEvent 0 rfl) 1, none, 0⟩ = (.ok v, s) ∧
      roundTrip v = .ok snapshot ∧
      Client.eval (serve counting) (restoreSnapshot loopback drill snapshot) ⟨.empty, none, 0⟩ =
        (.ok r, server) ∧
      member "matched" r = some (.bool false) := by
  constructor
  · have run : runs exportSnapshot ⟨.of (fun _ => []) 1, none, 0⟩
      (fun v _ => passes (roundTrip v) fun snapshot =>
        runs (restoreSnapshot loopback drill snapshot) ⟨.empty, none, 0⟩ fun _ server =>
        runs readTables { server with session := some server.db } fun tables _ =>
          (grid tables.1 .orders).map List.length ≠ (cells v .orders).map List.length) = true := by
      decide +kernel
    obtain ⟨v, s, export_, run⟩ := runs_inv run
    obtain ⟨snapshot, read, run⟩ := ok_of_test run
    obtain ⟨r, server, restore, run⟩ := runs_inv run
    obtain ⟨tables, s', again, differ⟩ := runs_inv run
    refine ⟨v, snapshot, r, s, server, export_, read, restore, fun v' s' run' same => ?_⟩
    rw [← same, cells, exportSnapshot_tables again run'] at differ
    exact absurd rfl (of_decide_eq_true differ)
  · have run : runs exportSnapshot ⟨.of (oneEvent 0 rfl) 1, none, 0⟩
      (fun v _ => passes (roundTrip v) fun snapshot =>
        runs (restoreSnapshot loopback drill snapshot) ⟨.empty, none, 0⟩ fun r _ =>
          unmatched r) = true := by
      decide +kernel
    obtain ⟨v, s, export_, run⟩ := runs_inv run
    obtain ⟨snapshot, read, run⟩ := ok_of_test run
    obtain ⟨r, server, restore, differ⟩ := runs_inv run
    exact ⟨v, snapshot, r, s, server, export_, read, restore, of_unmatched differ⟩

end Runs

end DbLab.Mvp
