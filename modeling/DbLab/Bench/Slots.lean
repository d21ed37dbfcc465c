import DbLab.Bench.Elastic
import DbLab.Py.Exec
import DbLab.Py.Reference

/-!
# The accounts of the write benchmark

A batch begins at the slot that is due, and the slots that are left bound its size; so what is
queued and what is skipped never exceed the slots of the run, and the loop ends. Every queued
document is acknowledged, refused or uncertain.
-/

namespace DbLab.Bench.Elastic
open DbLab.Py DbLab.Proc

/-! ### Document ids -/

/-- Numbers that fit are told apart. -/
lemma docId_inj (runId : Str) {n n' : Nat} (h : n < 10 ^ 9) (h' : n' < 10 ^ 9)
    (same : docId runId n = docId runId n') :
    n = n' := by
  have digits : zfill 9 n = zfill 9 n' := by
    have text := List.append_cancel_left same
    rwa [zeroPadded, zeroPadded, if_pos h, if_pos h'] at text
  have read : some n = some n' := by rw [← number_zfill h, ← number_zfill h', digits]
  exact Option.some.inj read

/-- Documents up to the nine digits of their numbers have ids of their own. -/
lemma ids_nodup (runId : Str) {n : Nat} (h : n ≤ 10 ^ 9) :
    ((List.range n).map (docId runId)).Nodup := by
  refine (List.nodup_map_iff_inj_on List.nodup_range).2 ?_
  intro i m i' m' same
  rw [List.mem_range] at m m'
  exact docId_inj runId (by omega) (by omega) same

/-! ### Slots -/

namespace Plan
variable {p : Plan}

/-- The rate is positive. -/
lemma rate_pos (p : Plan) : (0 : Rat) < p.arguments.rate := by exact_mod_cast p.arguments.rate_ok.1

/-- When later slots are due. -/
lemma due_add (n m : Int) : p.due (n + m) = p.due n + m / p.arguments.rate := by
  rw [due, due]
  push_cast
  ring

/-- The slots that are missed are those after which the next one is not over yet. -/
lemma missed_spec {scheduled : Int} {now : Rat} (ripe : p.due scheduled ≤ now) :
    0 ≤ p.missed scheduled now ∧ p.due (scheduled + p.missed scheduled now) ≤ now ∧
      now < p.due (scheduled + p.missed scheduled now) + 1 / p.arguments.rate := by
  have rate := p.rate_pos
  rw [due_add, missed]
  split
  · have elapsed : 0 ≤ (now - p.due scheduled) * p.arguments.rate :=
      mul_nonneg (by linarith) rate.le
    rw [truncate, if_pos elapsed]
    have lower := Int.floor_le ((now - p.due scheduled) * p.arguments.rate)
    have upper := Int.lt_floor_add_one ((now - p.due scheduled) * p.arguments.rate)
    rw [← div_le_iff₀ rate] at lower
    rw [← lt_div_iff₀ rate, add_div] at upper
    exact ⟨Int.floor_nonneg.2 elapsed, by linarith, by linarith⟩
  · have slot : 0 < 1 / (p.arguments.rate : Rat) := by positivity
    refine ⟨le_rfl, ?_, ?_⟩
    · simpa using ripe
    · rw [Int.cast_zero, zero_div, add_zero]
      linarith

/-- A slot that is due before the deadline is a slot of the run. -/
lemma slot_lt {slot : Int} {now : Rat} (ripe : p.due slot ≤ now) (early : now < p.deadline) :
    slot < p.arguments.slots := by
  have before : (slot : Rat) / p.arguments.rate < p.arguments.seconds := by
    have chain := ripe.trans_lt early
    rw [due, deadline] at chain
    linarith
  rw [div_lt_iff₀ p.rate_pos] at before
  rw [Arguments.slots]
  exact_mod_cast before

/-- What is left of the run after a slot is a whole number of slots. -/
lemma count_eq {slot : Int} (free : slot < p.arguments.slots) :
    p.count (p.due slot) = min p.arguments.batch (p.arguments.slots - slot) := by
  have rate := p.rate_pos
  have left : (p.deadline - p.due slot) * p.arguments.rate =
      ((p.arguments.slots - slot : Int) : Rat) := by
    rw [deadline, due, Arguments.slots]
    push_cast
    field_simp
    ring
  have positive : (0 : Rat) ≤ ((p.arguments.slots - slot : Int) : Rat) := by
    exact_mod_cast (by omega : 0 ≤ p.arguments.slots - slot)
  rw [count, left, truncate, if_pos positive, Int.floor_intCast, max_eq_right (by omega)]

end Plan

section
variable [Interpreter]

/-! ### What the accounts should say -/

/-- The documents of a request. -/
def Exchange.docs? (e : Exchange) : Option (List Doc) :=
  match e.body with
  | .docs docs => some docs
  | _ => none

/-- A batch is answered by an item for each document, and all items acknowledge. -/
def Answers (reply : Except Failure Value) (docs : List Doc) : Prop :=
  ∃ v items, reply = .ok v ∧ elements (itemsOf v) = .ok items ∧ items.length = docs.length ∧
    ∀ item ∈ items, acknowledged item = .ok true

/-- A batch of the right size that begins in its first slot and before the deadline, and is sent
after that. -/
structure Arguments.Timely (a : Arguments) (started : Rat) (b : Batch) : Prop where
  due : b.due = started + b.slot / a.rate
  some_ : 1 ≤ b.docs.length
  most : b.docs.length ≤ a.batch
  ripe : b.due ≤ b.start
  soon : b.start < b.due + 1 / a.rate
  early : b.start < started + a.seconds
  sent : b.start ≤ b.sent

/-- The last two requests are the refresh of the index and its count. Both have succeeded, and the
count is as given. -/
def Counted (indexed : Int) (log : List Exchange) : Prop :=
  ∃ before refreshed counted n, log = before ++
      [⟨"POST", s!"/{index}/_refresh", .none, .ok refreshed⟩,
        ⟨"GET", s!"/{index}/_count", .none, .ok counted⟩] ∧
    counted.get "count" = .ok n ∧ n.eq (.int indexed) = true

/-- All documents were acknowledged, and after that the requests to refresh, to count and to delete
the index have succeeded, in this order, and the count is as many documents. -/
structure Confirmed (indexed : Int) (log : List Exchange) : Prop where
  acknowledged : ∀ e ∈ log, ∀ docs, e.docs? = some docs → Answers e.reply docs
  deleted : ∃ before v, log = before ++ [⟨"DELETE", s!"/{index}", .none, .ok v⟩] ∧
    Counted indexed before

/-- The accounts of a run with the requests in `log`. -/
structure Accounted (r : Report) (log : List Exchange) : Prop where
  ended : r.metrics.queued = r.metrics.indexed + r.metrics.failed + r.metrics.uncertain
  slots : r.metrics.queued + r.metrics.scheduledSkipped ≤ r.arguments.slots
  sent : log.filterMap Exchange.docs? = r.batches.map Batch.docs
  total : r.metrics.queued = (r.batches.flatMap Batch.docs).length
  distinct : ((r.batches.flatMap Batch.docs).map Doc.id).Nodup
  timely : ∀ b ∈ r.batches, r.arguments.Timely r.started b
  passed : r.status = str "PASS" → r.metrics.indexed = r.metrics.queued ∧
    Confirmed r.metrics.indexed log

/-! ### Replies -/

variable {p : Plan} {t t' : Tally} {s : State}

/-- A queued batch comes to its end: its documents are acknowledged, refused or uncertain, and if
none is refused or uncertain, it was answered. -/
inductive Settled (count : Int) (answers : Prop) (t : Tally) : Tally → Prop where
  | intro (indexed failed uncertain : Int) (errors : List (Str × Int)) (refused : 0 ≤ failed)
      (unknown : 0 ≤ uncertain)
      (total : indexed + failed + uncertain = count) (all : failed = 0 → uncertain = 0 → answers) :
    Settled count answers t { t with
      indexed := t.indexed + indexed
      failed := t.failed + failed
      uncertain := t.uncertain + uncertain
      errors := errors }

omit [Interpreter] in
/-- A batch of which nothing is known. -/
lemma Settled.lost {count : Int} {answers : Prop} (kind : Str) (some_ : 1 ≤ count) :
    Settled count answers t (t.lost count kind) := by
  have unknown : 0 ≤ count := by omega
  have h : Settled count answers t _ :=
    .intro 0 0 count (addError kind count t.errors) le_rfl unknown (by omega) (by omega)
  simpa [Tally.lost] using h

section
variable [Unicode]

/-- One item is acknowledged or refused. -/
lemma settle_ok {item : Value} (h : settle t item = .ok t') :
    ∃ acked, acknowledged item = .ok acked ∧ ∃ errors, t' = { t with
      indexed := t.indexed + if acked then 1 else 0
      failed := t.failed + if acked then 0 else 1
      errors := errors } := by
  obtain ⟨acked, item, h⟩ := bind_ok.1 h
  refine ⟨acked, item, ?_⟩
  cases acked with
  | true =>
    cases h
    exact ⟨t.errors, by simp⟩
  | false =>
    obtain ⟨kind, _, h⟩ := bind_ok.1 h
    cases h
    exact ⟨addError kind 1 t.errors, by simp⟩

/-- The items of a reply are acknowledged or refused one by one. -/
lemma settle_many {items : List Value} (h : items.foldlM settle t = .ok t') :
    ∃ (indexed failed : Nat) (errors : List (Str × Int)), indexed + failed = items.length ∧
      (failed = 0 → ∀ item ∈ items, acknowledged item = .ok true) ∧
      t' =
        { t with
          indexed := t.indexed + indexed, failed := t.failed + failed, errors := errors } := by
  induction items generalizing t with
  | nil =>
    obtain rfl : t = t' := Except.ok.inj h
    exact ⟨0, 0, t.errors, rfl, fun _ => nofun, by simp⟩
  | cons item items ih =>
    rw [List.foldlM_cons] at h
    obtain ⟨t₁, first, rest⟩ := bind_ok.1 h
    obtain ⟨acked, item, _, rfl⟩ := settle_ok first
    obtain ⟨indexed, failed, errors, total, all, rfl⟩ := ih rest
    cases acked with
    | true =>
      refine ⟨indexed + 1, failed, errors, by simp; omega, fun none => ?_, by simp; omega⟩
      intro x m
      rcases List.mem_cons.1 m with rfl | m
      · exact item
      · exact all none x m
    | false => exact ⟨indexed, failed + 1, errors, by simp; omega, nofun, by simp; omega⟩

/-- The reply to a batch settles all its documents. -/
lemma settleAll_ok {docs : List Doc} {v : Value} {on : Bool} (some_ : 1 ≤ docs.length)
    (h : settleAll t docs.length v = .ok (t', on)) :
    Settled docs.length (Answers (.ok v) docs) t t' := by
  obtain ⟨items, found, h⟩ := bind_ok.1 h
  split at h
  · cases h
    exact .lost _ (by omega)
  · rename_i length
    obtain ⟨t₁, fold, h⟩ := bind_ok.1 h
    cases h
    obtain ⟨indexed, failed, errors, total, all, rfl⟩ := settle_many fold
    have settled : Settled docs.length (Answers (.ok v) docs) t _ :=
      .intro indexed failed 0 errors (by omega) le_rfl (by omega) fun none _ =>
        ⟨v, items, rfl, found, by omega, all (by omega)⟩
    simpa using settled

end

/-! ### What the loop keeps -/

/-- The accounts between two passes, of which the requests in `log` were sent. -/
structure Inv (p : Plan) (t : Tally) (log : List Exchange) : Prop where
  ended : t.queued = t.indexed + t.failed + t.uncertain
  refused : 0 ≤ t.failed
  unknown : 0 ≤ t.uncertain
  skipped : 0 ≤ t.scheduledSkipped
  used : t.queued + t.scheduledSkipped = t.scheduled
  fits : t.scheduled ≤ p.arguments.slots
  sequence : (t.sequence : Int) = t.queued
  ids : (t.batches.flatMap Batch.docs).map Doc.id = (List.range t.sequence).map (docId p.runId)
  timely : ∀ b ∈ t.batches, p.arguments.Timely p.started b
  sent : log.filterMap Exchange.docs? = t.batches.map Batch.docs
  answered : t.failed = 0 → t.uncertain = 0 → ∀ e ∈ log, ∀ docs, e.docs? = some docs →
    Answers e.reply docs

/-- A run begins with requests that hold no documents. -/
lemma Inv.init {log : List Exchange} (none : ∀ e ∈ log, e.docs? = none) : Inv p .init log where
  ended := rfl
  refused := le_rfl
  unknown := le_rfl
  skipped := le_rfl
  used := rfl
  fits := by
    have seconds := p.arguments.seconds_ok.1
    have rate := p.arguments.rate_ok.1
    exact mul_nonneg (by omega) (by omega)
  sequence := rfl
  ids := rfl
  timely := nofun
  sent := List.filterMap_eq_nil_iff.2 none
  answered _ _ e m docs some_ := by
    rw [none e m] at some_
    cases some_

omit [Interpreter] in
/-- A batch has as many documents as were counted. -/
lemma docs_length (sequence : Nat) {count : Int} (some_ : 1 ≤ count) :
    (p.docs sequence count).length = count := by
  rw [Plan.docs, List.length_map, List.length_range]
  omega

omit [Interpreter] in
/-- The ids of a batch go on where those before it ended. -/
lemma docs_ids (sequence : Nat) (count : Int) :
    (List.range sequence).map (docId p.runId) ++ (p.docs sequence count).map Doc.id =
      (List.range (sequence + count.toNat)).map (docId p.runId) := by
  rw [List.range_add, List.map_append, List.map_map, Plan.docs, List.map_map]
  rfl

/-- A batch that begins when its slot is due keeps the accounts, however it ends. -/
lemma Inv.queue {log : List Exchange} {now before : Rat} {reply : Except Failure Value}
    (h : Inv p t log)
    (ripe : p.due t.scheduled ≤ now) (early : now < p.deadline) (later : now ≤ before)
    {slot count : Int}
    (slot_eq : slot = t.scheduled + p.missed t.scheduled now)
    (count_eq : count = p.count (p.due slot))
    (settled : Settled count (Answers reply (p.docs t.sequence count))
      (p.queue t slot now before) t') :
    Inv p t' (log ++ [⟨"POST", "/_bulk", .docs (p.docs t.sequence count), reply⟩]) ∧
      t.scheduled < t'.scheduled := by
  obtain ⟨forward, due, soon⟩ := Plan.missed_spec ripe
  rw [← slot_eq] at due soon
  have free : slot < p.arguments.slots := Plan.slot_lt due early
  rw [Plan.count_eq free] at count_eq
  have batch := p.arguments.batch_ok.1
  have some_ : 1 ≤ count := by omega
  have length := docs_length (p := p) t.sequence some_
  obtain ⟨indexed, failed, uncertain, errors, refused, unknown, total, all⟩ := settled
  have size : p.count (p.due slot) = count := by rw [Plan.count_eq free, count_eq]
  have used := h.used
  have ended := h.ended
  have sequence := h.sequence
  have skipped := h.skipped
  have refusedBefore := h.refused
  have unknownBefore := h.unknown
  constructor
  · constructor
    · show t.queued + p.count (p.due slot) = t.indexed + indexed + (t.failed + failed) +
        (t.uncertain + uncertain)
      omega
    · show 0 ≤ t.failed + failed
      omega
    · show 0 ≤ t.uncertain + uncertain
      omega
    · show 0 ≤ t.scheduledSkipped + (slot - t.scheduled)
      omega
    · show t.queued + p.count (p.due slot) + (t.scheduledSkipped + (slot - t.scheduled)) = slot +
        p.count (p.due slot)
      omega
    · show slot + p.count (p.due slot) ≤ p.arguments.slots
      omega
    · show ((t.sequence + (p.count (p.due slot)).toNat : Nat) : Int) = t.queued +
        p.count (p.due slot)
      omega
    · show ((t.batches ++ [_]).flatMap Batch.docs).map Doc.id =
        (List.range (t.sequence + (p.count (p.due slot)).toNat)).map (docId p.runId)
      rw [List.flatMap_append, List.map_append, h.ids, ← docs_ids]
      simp
    · intro b m
      rcases List.mem_append.1 m with m | m
      · exact h.timely b m
      · cases List.mem_singleton.1 m
        rw [size]
        have least : 1 ≤ (p.docs t.sequence count).length := by omega
        have most : ((p.docs t.sequence count).length : Int) ≤ p.arguments.batch := by omega
        exact ⟨rfl, least, most, due, soon, early, later⟩
    · show _ = (t.batches ++ [_]).map Batch.docs
      rw [List.filterMap_append, h.sent, List.map_append, size]
      rfl
    · show t.failed + failed = 0 → t.uncertain + uncertain = 0 → _
      intro noneRefused noneUnknown e m docs found
      rcases List.mem_append.1 m with m | m
      · exact h.answered (by omega) (by omega) e m docs found
      · cases List.mem_singleton.1 m
        cases found
        exact all (by omega) (by omega)
  · show t.scheduled < slot + p.count (p.due slot)
    omega

/-! ### Calls -/

/-- The weakest precondition of a method. What it raises is that the loop does not end in no
case. -/
abbrev wp {α : Type} (Q : α → State → Prop) (E : Raised → State → Prop) (m : Method α) :
    State → Prop :=
  server.wp (fun _ => True) Q E m

/-- What a method may raise. -/
def Ends (e : Raised) (_ : State) : Prop := e ≠ .endless

/-- What one call to the surroundings keeps. -/
lemma ask_wp {x : Call} {Q : x.Result → State → Prop} {E : Raised → State → Prop}
    (ok : ∀ a s', Does x s (.ok a) s' → Q a s') (error : ∀ e s', Does x s (.error e) s' → E e s') :
    wp Q E (ask x) s := by
  refine World.wp_ask fun s₁ drift r s' does => ⟨trivial, ?_⟩
  cases Relation.ReflTransGen.cases_head drift with
  | inl same =>
    subst same
    cases r with
    | ok a => exact ok a s' does
    | error e => exact error e s' does
  | inr moved =>
    obtain ⟨_, never, _⟩ := moved
    exact never.elim

/-- The clock has not gone back. -/
lemma monotonic_wp {Q : Rat → State → Prop} (h : ∀ now, s.clock ≤ now → Q now ⟨now, s.log⟩) :
    wp Q Ends (ask .monotonic) s := by
  apply ask_wp
  · intro now s' does
    cases does with
    | monotonic later => exact h now later
  · intro e s' does
    cases does with
    | interrupted later => nofun

/-- A sleep is not shorter than asked for. -/
lemma sleep_wp {d : Rat} {Q : Unit → State → Prop}
    (h : ∀ now, s.clock + d ≤ now → Q () ⟨now, s.log⟩) :
    wp Q Ends (ask (.sleep d)) s := by
  apply ask_wp
  · intro _ s' does
    cases does with
    | slept positive long => exact h _ long
  · intro e s' does
    cases does with
    | refused negative => nofun
    | interrupted later => nofun

/-- A request is answered, or fails with an exception. -/
lemma request_wp {method path : String} {body : Body} {Q : Value → State → Prop}
    {E : Raised → State → Prop}
    (ok : ∀ v now, s.clock ≤ now → Q v ⟨now, s.log ++ [⟨method, path, body, .ok v⟩]⟩)
    (error : ∀ f now, s.clock ≤ now →
      E (.failure f) ⟨now, s.log ++ [⟨method, path, body, .error f⟩]⟩)
    (interrupt : ∀ s', E .interrupt s') : wp Q E (request method path body) s := by
  apply ask_wp
  · intro v s' does
    cases does with
    | answered v later => exact ok v _ later
  · intro e s' does
    cases does with
    | failed f later => exact error f _ later
    | interrupted later => exact interrupt _

/-- The report is written. -/
lemma write_wp {r : Report} {Q : Unit → State → Prop} (h : Q () s) :
    wp Q Ends (ask (.write r)) s := by
  apply ask_wp
  · intro _ s' does
    cases does with
    | wrote => exact h
  · intro e s' does
    cases does with
    | notWritten f => nofun
    | interrupted later => nofun

/-- A computation that may raise. -/
lemma lift_wp {α : Type} {x : Except Exn α} {Q : α → State → Prop} (h : ∀ a, x = .ok a → Q a s) :
    wp Q Ends (lift x) s := by
  refine World.wp_ofExcept ?_ ?_
  · intro a ok
    exact h a (mapError_ok.1 ok)
  · intro e error
    cases x with
    | ok a => cases error
    | error e' =>
      cases error
      nofun

/-- A failure is caught, an interruption is not. -/
lemma attempt_wp {α : Type} {m : Method α} {Q : Except Failure α → State → Prop}
    {E : Raised → State → Prop}
    (h : wp (fun a => Q (.ok a))
      (fun e s' => match e with | .failure f => Q (.error f) s' | e => E e s') m s) :
    wp Q E (attempt m) s := by
  refine (World.wp_handle _ _).2 ((World.wp_bind _ _).2 (World.wp_mono h ?_ ?_))
  · exact fun a s' q => q
  · intro e s' q
    cases e with
    | failure f => exact q
    | interrupt => exact q
    | endless => exact q

/-! ### The loop -/

namespace Plan

/-- After the sleep the slot is due, or the time is over. -/
lemma sleepUntil_wp (due : Rat) :
    wp (fun _ s' => (due ≤ s'.clock ∨ p.deadline ≤ s'.clock) ∧ s'.log = s.log) Ends
      (p.sleepUntil due) s := by
  refine (World.wp_bind _ _).2 (monotonic_wp fun now _ => ?_)
  split
  · refine (World.wp_bind _ _).2 (monotonic_wp fun now' later => ?_)
    refine sleep_wp fun woken long => ⟨?_, rfl⟩
    dsimp only at later long ⊢
    rcases min_choice (due - now) (p.deadline - now') with delay | remaining
    · left
      rw [delay] at long
      linarith
    · right
      rw [remaining] at long
      linarith
  · rename_i ripe
    exact ⟨.inl (by dsimp only; linarith), rfl⟩

variable [Unicode]

/-- A batch keeps the accounts and uses slots. -/
lemma send_wp (h : Inv p t s.log) (ripe : p.due t.scheduled ≤ s.clock)
    (early : s.clock < p.deadline) :
    wp (fun r s' => Inv p r.1 s'.log ∧ t.scheduled < r.1.scheduled) Ends (p.send t s.clock) s := by
  have free := slot_lt (missed_spec ripe).2.1 early
  have some_ : 1 ≤ p.count (p.due (t.scheduled + p.missed t.scheduled s.clock)) := by
    have batch := p.arguments.batch_ok.1
    rw [count_eq free]
    omega
  have length := docs_length (p := p) t.sequence some_
  refine (World.wp_bind _ _).2 (monotonic_wp fun before later => ?_)
  refine (World.wp_bind _ _).2 (attempt_wp (request_wp ?_ ?_ ?_))
  · intro v now _
    refine (World.wp_bind _ _).2 (monotonic_wp fun after _ => ?_)
    refine lift_wp fun r settled => ?_
    rw [← length] at settled
    have ends := settleAll_ok (by omega) settled
    rw [length] at ends
    exact h.queue ripe early later rfl rfl ends
  · intro f now _
    exact h.queue ripe early later rfl rfl (.lost _ some_)
  · nofun

/-- A pass keeps the accounts, and uses slots if the loop goes on. -/
lemma pass_wp (h : Inv p t s.log) :
    wp (fun r s' => Inv p r.1 s'.log ∧ (r.2 = true → t.scheduled < r.1.scheduled)) Ends
      (p.pass t) s := by
  refine (World.wp_bind _ _).2 (monotonic_wp fun now _ => ?_)
  split
  · refine (World.wp_bind _ _).2 (World.wp_mono (sleepUntil_wp _) ?_ fun _ _ ends => ends)
    intro _ s₁ ⟨slept, same⟩
    refine (World.wp_bind _ _).2 (monotonic_wp fun now later => ?_)
    split
    · exact ⟨same ▸ h, nofun⟩
    · rename_i early
      have ripe : p.due t.scheduled ≤ now := by
        rcases slept with due | overdue
        · exact due.trans later
        · exact absurd (overdue.trans later) early
      refine World.wp_mono (send_wp (s := ⟨now, s₁.log⟩) (same ▸ h) ripe (not_le.1 early)) ?_
        fun _ _ ends => ends
      exact fun r s' kept => ⟨kept.1, fun _ => kept.2⟩
  · exact ⟨h, nofun⟩

/-- The loop ends within the slots that are left. -/
lemma loop_wp {passes : Nat} (h : Inv p t s.log)
    (enough : p.arguments.slots < t.scheduled + passes) :
    wp (fun t' s' => Inv p t' s'.log) Ends (p.loop passes t) s := by
  induction passes generalizing t s with
  | zero =>
    have fits := h.fits
    omega
  | succ passes ih =>
    refine (World.wp_bind _ _).2 (World.wp_mono (pass_wp h) ?_ fun _ _ ends => ends)
    intro ⟨t', on⟩ s' ⟨kept, progress⟩
    cases on with
    | true =>
      have more : t.scheduled < t'.scheduled := progress rfl
      apply ih kept
      show p.arguments.slots < t'.scheduled + passes
      push_cast at enough
      omega
    | false => exact kept

end Plan

/-! ### Before the loop -/

/-- No documents have been sent. -/
def Bare (log : List Exchange) : Prop := ∀ e ∈ log, e.docs? = none

/-- Another request without documents. -/
lemma Bare.snoc {log : List Exchange} {e : Exchange} (h : Bare log) (none : e.docs? = none) :
    Bare (log ++ [e]) := by
  intro e' m
  rcases List.mem_append.1 m with m | m
  · exact h e' m
  · rw [List.mem_singleton.1 m]
    exact none

/-- A request without documents. -/
lemma bare_wp {method path : String} {body : Body}
    (none : ∀ reply, Exchange.docs? ⟨method, path, body, reply⟩ = none)
    (h : Bare s.log) : wp (fun _ s' => Bare s'.log) Ends (request method path body) s := by
  apply request_wp
  · exact fun v now _ => h.snoc (none _)
  · exact fun f now _ => nofun
  · exact fun s' => nofun

/-- A failure ends the run. -/
lemma raise_wp {α : Type} {Q : α → State → Prop} (f : Failure) : wp Q Ends (raise f) s :=
  (World.wp_throw _).2 (by nofun)

/-- The check of the cluster sends no documents. -/
lemma assertLab_wp [Unicode] (expected : Str) (h : Bare s.log) :
    wp (fun _ s' => Bare s'.log) Ends (assertLab expected) s := by
  refine (World.wp_bind _ _).2 (World.wp_mono (bare_wp (fun _ => rfl) h) ?_ fun _ _ ends => ends)
  intro info s₁ bare
  refine (World.wp_bind _ _).2 (lift_wp fun name _ => ?_)
  split
  · exact (World.wp_bind _ _).2 (lift_wp fun shown _ => raise_wp _)
  · refine (World.wp_bind _ _).2 (lift_wp fun uuid _ => ?_)
    split
    · exact raise_wp _
    · exact bare

/-- The check for the index sends no documents. -/
lemma absent_wp (h : Bare s.log) : wp (fun _ s' => Bare s'.log) Ends absent s := by
  refine (World.wp_bind _ _).2 (attempt_wp (request_wp ?_ ?_ ?_))
  · exact fun v now _ => raise_wp _
  · intro f now _
    dsimp only
    split
    · exact h.snoc rfl
    · rename_i same
      cases same
      exact raise_wp _
    · rename_i same
      cases same
  · nofun

/-! ### After the loop -/

/-- Requests without documents and counts of errors do not matter to the accounts. -/
lemma Inv.snoc {log : List Exchange} {e : Exchange} (h : Inv p t log) (none : e.docs? = none) :
    Inv p t (log ++ [e]) where
  ended := h.ended
  refused := h.refused
  unknown := h.unknown
  skipped := h.skipped
  used := h.used
  fits := h.fits
  sequence := h.sequence
  ids := h.ids
  timely := h.timely
  sent := by
    rw [List.filterMap_append, h.sent, List.filterMap_cons_none none, List.filterMap_nil,
      List.append_nil]
  answered noneRefused noneUnknown e' m docs found := by
    rcases List.mem_append.1 m with m | m
    · exact h.answered noneRefused noneUnknown e' m docs found
    · rw [List.mem_singleton.1 m, none] at found
      cases found

/-- The counts of errors do not matter to the accounts. -/
lemma Inv.errors {log : List Exchange} (h : Inv p t log) (errors : List (Str × Int)) :
    Inv p { t with errors } log :=
  ⟨h.ended, h.refused, h.unknown, h.skipped, h.used, h.fits, h.sequence, h.ids, h.timely,
    h.sent, h.answered⟩

/-- The count of the refreshed index is verified. -/
lemma verify_wp (h : Inv p t s.log) :
    wp (fun r s' => Inv p r.1 s'.log ∧ (r.2 = true → Counted r.1.indexed s'.log)) Ends
      (verify t) s := by
  have failed : ∀ {log : List Exchange} (f : Failure), Inv p t log →
      Inv p { t with errors := addError f.name 1 t.errors } log ∧
        (false = true → Counted t.indexed log) :=
    fun f kept => ⟨kept.errors _, nofun⟩
  refine (World.wp_bind _ _).2 (attempt_wp ((World.wp_bind _ _).2 (request_wp ?_ ?_ ?_)))
  · intro v now _
    refine (World.wp_bind _ _).2 (request_wp ?_ ?_ ?_)
    · intro w now' _
      have asked := h.snoc (e := ⟨"POST", s!"/{index}/_refresh", .none, .ok v⟩) rfl
      have kept := asked.snoc (e := ⟨"GET", s!"/{index}/_count", .none, .ok w⟩) rfl
      refine World.wp_ofExcept ?_ ?_
      · intro n ok
        dsimp only
        split
        · rename_i same
          exact ⟨kept, fun _ => ⟨s.log, v, w, n, List.append_assoc .., mapError_ok.1 ok, same⟩⟩
        · exact ⟨kept.errors _, nofun⟩
      · intro e error
        cases result : w.get "count" with
        | ok n =>
          rw [result] at error
          cases error
        | error e' =>
          rw [result] at error
          cases error
          exact failed _ kept
    · intro f now' _
      apply failed
      exact (h.snoc rfl).snoc rfl
    · nofun
  · exact fun f now _ => failed f (h.snoc rfl)
  · nofun

/-- The index is deleted behind the count. -/
lemma cleanup_wp (h : Inv p t s.log) (verified : Bool)
    (counted : verified = true → Counted t.indexed s.log) :
    wp (fun r s' => Inv p r.1 s'.log ∧ (verified = true → r.2 = true →
      ∃ before v, s'.log = before ++ [⟨"DELETE", s!"/{index}", .none, .ok v⟩] ∧
        Counted r.1.indexed before)) Ends
      (cleanup t) s := by
  refine (World.wp_bind _ _).2 (attempt_wp (request_wp ?_ ?_ ?_))
  · exact fun v now _ => ⟨h.snoc rfl, fun yes _ => ⟨s.log, v, rfl, counted yes⟩⟩
  · exact fun f now _ => ⟨(h.snoc rfl).errors _, nofun⟩
  · nofun

/-- The report of a run whose accounts were kept. -/
lemma report_accounted {cluster : Value} {verified cleaned : Bool} {elapsed : Rat} {r : Report}
    {log : List Exchange}
    (h : Inv p t log) (deleted : verified = true → cleaned = true →
      ∃ before v, log = before ++ [⟨"DELETE", s!"/{index}", .none, .ok v⟩] ∧
        Counted t.indexed before)
    (reported : p.report cluster t verified cleaned elapsed = .ok r) : Accounted r log ∧
      r.arguments = p.arguments := by
  obtain ⟨version, _, reported⟩ := bind_ok.1 reported
  obtain ⟨name, _, reported⟩ := bind_ok.1 reported
  cases reported
  have sequence := h.sequence
  have total : (t.batches.flatMap Batch.docs).length = t.sequence := by
    have ids := congrArg List.length h.ids
    rwa [List.length_map, List.length_map, List.length_range] at ids
  have used := h.used
  have fits := h.fits
  have skipped := h.skipped
  refine ⟨⟨h.ended, by dsimp only; omega, h.sent, by dsimp only; omega, ?_, h.timely, ?_⟩, rfl⟩
  · show ((t.batches.flatMap Batch.docs).map Doc.id).Nodup
    rw [h.ids]
    apply ids_nodup
    have seconds := p.arguments.seconds_ok
    have rate := p.arguments.rate_ok
    have most : p.arguments.slots ≤ 600 * 10000 :=
      mul_le_mul (by omega) (by omega) (by omega) (by omega)
    omega
  · intro pass
    have passed : (0 < t.indexed && t.failed = 0 && t.uncertain = 0 && verified &&
        cleaned) = true := by
      by_contra fails
      rw [Bool.not_eq_true] at fails
      dsimp only at pass
      rw [fails] at pass
      exact absurd pass (by decide)
    simp only [Bool.and_eq_true, decide_eq_true_eq] at passed
    obtain ⟨⟨⟨⟨_, noneRefused⟩, noneUnknown⟩, isCounted⟩, isDeleted⟩ := passed
    have ended := h.ended
    exact ⟨by dsimp only; omega, h.answered noneRefused noneUnknown, deleted isCounted isDeleted⟩

variable [Unicode]

/-- The run from the start of its clock on. -/
lemma rest_wp (cluster : Value) (h : Bare s.log) :
    wp (fun r s' => Accounted r s'.log ∧ r.arguments = p.arguments) Ends (p.rest cluster) s := by
  have enough : p.arguments.slots < (Tally.init).scheduled +
      (p.arguments.slots.toNat + 1 : Nat) := by
    show p.arguments.slots < 0 + _
    omega
  refine (World.wp_bind _ _).2 (World.wp_mono (Plan.loop_wp (.init h) enough) ?_
    fun _ _ ends => ends)
  intro t s₁ kept
  refine (World.wp_bind _ _).2 (monotonic_wp fun stop _ => ?_)
  refine (World.wp_bind _ _).2 (World.wp_mono (verify_wp kept) ?_ fun _ _ ends => ends)
  intro ⟨t₁, verified⟩ s₂ ⟨kept, counted⟩
  refine (World.wp_bind _ _).2 (World.wp_mono (cleanup_wp kept verified counted) ?_
    fun _ _ ends => ends)
  intro ⟨t₂, cleaned⟩ s₃ ⟨kept, deleted⟩
  refine (World.wp_bind _ _).2 (lift_wp fun r reported => ?_)
  exact (World.wp_bind _ _).2 (write_wp (report_accounted kept deleted reported))

/-- What a whole run ends with. -/
lemma run_wp (expected : Str) (a : Arguments) (runId : Str) (draws : Nat → Draw) (h : Bare s.log) :
    wp (fun r s' => Accounted r s'.log ∧ r.arguments = a) Ends (run expected a runId draws) s := by
  refine (World.wp_bind _ _).2 (World.wp_mono (assertLab_wp expected h) ?_ fun _ _ ends => ends)
  intro cluster s₁ bare
  refine (World.wp_bind _ _).2 (World.wp_mono (absent_wp bare) ?_ fun _ _ ends => ends)
  intro _ s₂ bare
  refine (World.wp_bind _ _).2 (World.wp_mono (bare_wp (fun _ => rfl) bare) ?_ fun _ _ ends => ends)
  intro _ s₃ bare
  refine (World.wp_bind _ _).2 (monotonic_wp fun started _ => ?_)
  exact rest_wp (p := ⟨a, runId, draws, started⟩) cluster bare

/-- A run ends, and when it returns a report, its accounts are right. -/
theorem run_accounted (expected : Str) (seconds rate batch : Int) (a : Arguments)
    (accepted : Arguments.parse seconds rate batch = some a) (runId : Str) (draws : Nat → Draw)
    (clock : Rat)
    (result : Except Raised Report) (s' : State)
    (ran : server.Ran (run expected a runId draws) ⟨clock, []⟩ result s') :
    result ≠ .error .endless ∧ ∀ r, result = .ok r →
      Accounted r s'.log ∧ r.arguments.seconds = seconds ∧ r.arguments.rate = rate ∧
        r.arguments.batch = batch := by
  have post := ran.post (run_wp expected a runId draws (s := ⟨clock, []⟩) (fun _ => nofun))
  have same : a.seconds = seconds ∧ a.rate = rate ∧ a.batch = batch := by
    unfold Arguments.parse at accepted
    split at accepted
    · cases accepted
      exact ⟨rfl, rfl, rfl⟩
    · cases accepted
  cases result with
  | ok r =>
    refine ⟨nofun, fun r' eq => ?_⟩
    cases eq
    obtain ⟨accounted, arguments⟩ := post
    rw [arguments]
    exact ⟨accounted, same⟩
  | error e =>
    constructor
    · intro eq
      cases eq
      exact post rfl
    · intro r eq
      cases eq

end

/-! ### A run of five documents -/

section
attribute [local instance] reference ascii

/-- A server that answers at once as the script says, and a clock that moves in sleeps only. -/
def scripted : Oracle server (List (Except Failure Value)) where
  answer x s script :=
    match x with
    | .monotonic => (.ok s.clock, s, script)
    | .sleep d =>
      if 0 ≤ d then (.ok (), { s with clock := s.clock + d }, script)
      else (.error (.failure (.py (.valueError "sleep length must be non-negative"))), s, script)
    | .request method path body =>
      match script.headD (.ok .null) with
      | .ok v => (.ok v, ⟨s.clock, s.log ++ [⟨method, path, body, .ok v⟩]⟩, script.tail)
      | .error f =>
        (.error (.failure f), ⟨s.clock, s.log ++ [⟨method, path, body, .error f⟩]⟩, script.tail)
    | .write _ => (.ok (), s, script)
  does x s script := by
    cases x with
    | monotonic => exact .monotonic le_rfl
    | sleep d =>
      dsimp only
      split
      · exact .slept ‹_› le_rfl
      · exact .refused (not_le.1 ‹_›)
    | request method path body =>
      dsimp only
      split
      · exact .answered _ le_rfl
      · exact .failed _ le_rfl
    | write r => exact .wrote r s

/-- The replies of a server that stores five documents. -/
def replies : List (Except Failure Value) :=
  let item : Value := .ofFields [("index", .ofFields [("status", .int 201)])]
  let acknowledgement : Value := .ofFields [("acknowledged", .bool true)]
  [.ok (.ofFields [("cluster_name", .str (str "cerebro-shard-lab")),
    ("cluster_uuid", .str (str "u"))]), .error (.api 404), .ok acknowledgement,
      .ok (.ofFields [("items", .list (List.replicate 5 item))]),
    .ok (.ofFields [("_shards", .ofFields [("total", .int 1), ("successful", .int 1),
      ("failed", .int 0)])]),
    .ok (.ofFields [("count", .int 5)]), .ok acknowledgement]

/-- Five seconds, one document a second. -/
def five : Arguments := ⟨5, 1, 1000, by decide, by decide, by decide⟩

/-- All five documents are in one batch, and the run passes. -/
theorem run_accounted_five :
    ∃ r s', server.Ran (run (str "cerebro-shard-lab") five [] fun _ => ⟨[], 0, 0, [], [], 0, 0⟩) ⟨0,
      []⟩ (.ok r) s' ∧ r.status = str "PASS" ∧ r.metrics.queued = 5 ∧ Accounted r s'.log := by
  let draws : Nat → Draw := fun _ => ⟨[], 0, 0, [], [], 0, 0⟩
  let end_ := scripted.run (run (str "cerebro-shard-lab") five [] draws) ⟨0, []⟩ replies
  have ran := scripted.run_ran (run (str "cerebro-shard-lab") five [] draws) ⟨0, []⟩ replies
  have test : passes end_.1 (fun r => r.status = str "PASS" && r.metrics.queued = 5) = true := by
    decide +kernel
  obtain ⟨r, ok, test⟩ := ok_of_test test
  rw [Bool.and_eq_true, decide_eq_true_eq, decide_eq_true_eq] at test
  change server.Ran _ _ end_.1 _ at ran
  rw [ok] at ran
  have accounted := run_accounted (str "cerebro-shard-lab") 5 1 1000 five rfl [] draws 0 _ _ ran
  exact ⟨r, _, ran, test.1, test.2, (accounted.2 r rfl).1⟩

end
end DbLab.Bench.Elastic
