import DbLab.Py.Json

/-!
# Reading a topic up to its watermarks (`client.topic_watermarks`, `client.scan_records`)

A scan asks for the watermarks of every partition, and reads each partition from its low watermark
on. A partition is done with the record just before its high watermark, or with an end of the
partition at the watermark or beyond it.
-/

namespace DbLab.Kafka
open DbLab.Py

/-! ### The snapshot -/

structure Row where
  partition : Int
  low : Int
  high : Int
  offsetSpan : Int

/-- The rows of `topic_watermarks`, one a partition. -/
structure Watermarks where
  rows : List Row
  distinct : (rows.map Row.partition).Nodup

/-- `topic_watermarks(bootstrap, topic)` -/
def topicWatermarks (ps : List Int) (distinct : ps.Nodup) (getWatermarkOffsets : Int → Int × Int) :
    Watermarks where
  rows := ps.map fun p =>
    let (low, high) := getWatermarkOffsets p
    ⟨p, low, high, high - low⟩
  distinct := by simpa [List.map_map, Function.comp_def] using distinct

/-- The rows a scan assigns. -/
def Watermarks.assigned (w : Watermarks) : List Row := w.rows.filter fun r => r.low < r.high

/-- `{r["partition"]: r["high"] for r in rows if r["high"] > r["low"]}` -/
def Watermarks.targets (w : Watermarks) : List (Int × Int) :=
  w.assigned.map fun r => (r.partition, r.high)

/-! ### The scan -/

structure Record (α : Type) where
  partition : Int
  offset : Int
  value : α
deriving DecidableEq

/-- What `c.poll(1)` gives. -/
inductive Polled (α : Type) where
  | none
  | eof (partition offset : Int)
  | error (code : Int)
  | record (msg : Record α)
deriving DecidableEq

/-- A pass of the loop: it finds the deadline past, or polls. -/
inductive Pass (α : Type) where
  | late
  | polled (m : Polled α)
deriving DecidableEq

inductive ScanError where
  | lab (text : Str)
  | kafka (code : Int)
deriving DecidableEq

inductive Outcome where
  | returned
  | raised (e : ScanError)
  /-- Still in the loop. -/
  | reading
deriving DecidableEq

/-- `str(n)` -/
def decimalText (n : Int) : Str := if n < 0 then 45 :: digitChars n.natAbs else digitChars n.natAbs

/-- `f"읽기 시간 초과: remaining partitions={targets}, records={n}"` -/
def timeoutText (targets : List (Int × Int)) (n : Nat) : Str :=
  str "읽기 시간 초과: remaining partitions=\x7b" ++
    List.intercalate (str ", ") (targets.map fun q => decimalText q.1 ++ str ": " ++
      decimalText q.2) ++
    str "\x7d, records=" ++ decimalText n

/-- `targets.pop(partition, None)` -/
def pop (targets : List (Int × Int)) (partition : Int) : List (Int × Int) :=
  targets.filter fun q => q.1 ≠ partition

variable {α : Type}

/-- The loop `while targets`; what it yields, and how it ends. -/
def scanFrom (limit : Option Nat) :
    List (Pass α) → List (Int × Int) → Nat → List (Record α) × Outcome
  | [], targets, _ => ([], if targets = [] then .returned else .reading)
  | pass :: passes, targets, n =>
    if targets = [] then ([], .returned)
    else
      match pass with
      | .late => ([], .raised (.lab (timeoutText targets n)))
      | .polled .none => scanFrom limit passes targets n
      | .polled (.eof partition offset) =>
        match targets.lookup partition with
        | some high =>
          scanFrom limit passes (if high ≤ offset then pop targets partition else targets) n
        | none => scanFrom limit passes targets n
      | .polled (.error code) => ([], .raised (.kafka code))
      | .polled (.record msg) =>
        match targets.lookup msg.partition with
        | none => scanFrom limit passes targets n
        | some high =>
          if high ≤ msg.offset then scanFrom limit passes targets n
          else
            let rest :=
              if limit.any (· ≤ n + 1) then ([], .returned)
              else scanFrom limit passes (if high ≤ msg.offset + 1 then pop targets msg.partition
                else targets) (n + 1)
            (msg :: rest.1, rest.2)

/-- `scan_records(bootstrap, topic, limit, timeout)` -/
def scanRecords (w : Watermarks) (limit : Option Nat) (passes : List (Pass α)) :
    List (Record α) × Outcome :=
  scanFrom limit passes w.targets 0

/-! ### What a consumer is given -/

/-- All records a partition ever has for its readers: offsets grow, and some are missing. -/
structure Log (α : Type) where
  records : Int → List (Record α)
  placed : ∀ p, ∀ r ∈ records p, r.partition = p
  sorted : ∀ p, (records p).Pairwise fun r r' => r.offset < r'.offset

/-- The records of one partition among the passes. -/
def recordsOf (p : Int) (passes : List (Pass α)) : List (Record α) :=
  passes.filterMap fun
    | .polled (.record msg) => if msg.partition = p then some msg else none
    | _ => none

/-- The deliveries of a consumer that is assigned the partitions at their low watermarks, in any
interleaving. An end of a partition at an offset comes after everything before that offset. -/
structure Delivers (w : Watermarks) (log : Log α) (passes : List (Pass α)) : Prop where
  timely : .late ∉ passes
  sound : ∀ code, .polled (.error code) ∉ passes
  ordered : ∀ row ∈ w.assigned,
    recordsOf row.partition passes <+: (log.records row.partition).filter fun r =>
      row.low ≤ r.offset
  ended : ∀ row ∈ w.assigned, ∀ before offset after,
    passes = before ++ .polled (.eof row.partition offset) :: after →
      ∀ r ∈ log.records row.partition, row.low ≤ r.offset → r.offset < offset →
        r ∈ recordsOf row.partition before

/-- Every partition has delivered a record or an end at its snapshot end or beyond it. -/
def Covered (w : Watermarks) (passes : List (Pass α)) : Prop :=
  ∀ row ∈ w.assigned,
    (∃ r ∈ recordsOf row.partition passes, row.high ≤ r.offset + 1) ∨
      ∃ offset, row.high ≤ offset ∧ .polled (.eof row.partition offset) ∈ passes

/-- A finite scan: it yields the records of the snapshot, and it is done when every partition is. -/
structure FiniteScan (w : Watermarks) (log : Log α) (passes : List (Pass α)) : Prop where
  only : ∀ r ∈ (scanRecords w none passes).1, ∃ row ∈ w.rows, r ∈ log.records row.partition ∧
    row.low ≤ r.offset ∧ r.offset < row.high
  exact : (scanRecords w none passes).2 = .returned → ∀ row ∈ w.rows,
    (scanRecords w none passes).1.filter (fun r => r.partition = row.partition) =
      (log.records row.partition).filter fun r => row.low ≤ r.offset ∧ r.offset < row.high
  finishes : Covered w passes → (scanRecords w none passes).2 = .returned

/-- No partition was passed only by a record beyond a gap at its snapshot end. -/
def Closed (w : Watermarks) (log : Log α) (passes : List (Pass α)) : Prop :=
  ∀ row ∈ w.assigned,
    (∃ r ∈ log.records row.partition, r.offset + 1 = row.high) ∨
      ∃ offset, row.high ≤ offset ∧ .polled (.eof row.partition offset) ∈ passes

/-! ### One pass -/

/-- What takes a partition off the targets. -/
def signals (q : Int × Int) : Pass α → Bool
  | .polled (.eof partition offset) => partition = q.1 ∧ q.2 ≤ offset
  | .polled (.record msg) => msg.partition = q.1 ∧ msg.offset < q.2 ∧ q.2 ≤ msg.offset + 1
  | _ => false

/-- What a pass yields. -/
def yielded (targets : List (Int × Int)) : Pass α → List (Record α)
  | .polled (.record msg) =>
    match targets.lookup msg.partition with
    | some high => if msg.offset < high then [msg] else []
    | none => []
  | _ => []

/-- With partitions of their own a target is found just if it is there. -/
lemma lookup_eq_some_iff {targets : List (Int × Int)} (keys : (targets.map Prod.fst).Nodup)
    {p high : Int} :
    targets.lookup p = some high ↔ (p, high) ∈ targets := by
  induction targets with
  | nil => simp
  | cons q targets ih =>
    obtain ⟨p', high'⟩ := q
    obtain ⟨fresh, keys⟩ := List.nodup_cons.1 keys
    rw [List.mem_cons, Prod.mk.injEq]
    by_cases same : p = p'
    · subst same
      have none_else : (p, high) ∉ targets := fun m => fresh (List.mem_map.2 ⟨_, m, rfl⟩)
      simp [none_else, eq_comm]
    · rw [List.lookup_cons, beq_eq_false_iff_ne.2 same, ih keys]
      simp [same]

/-- A partition without target has none. -/
lemma lookup_eq_none {targets : List (Int × Int)} {p : Int} (none_ : targets.lookup p = none)
    {q : Int × Int}
    (m : q ∈ targets) : q.1 ≠ p := by
  have away := List.lookup_eq_none_iff.1 none_ q m
  exact fun same => by simp [same] at away

/-- With one entry a partition, a pop takes off the entry it is meant for. -/
lemma pop_eq_filter {targets : List (Int × Int)} (keys : (targets.map Prod.fst).Nodup)
    {p high : Int}
    (mem : (p, high) ∈ targets) (signalled : Int × Int → Bool)
    (other : ∀ q : Int × Int, q.1 ≠ p → signalled q = false) :
    (if signalled (p, high) then pop targets p else targets) = targets.filter fun q =>
      !signalled q := by
  have one : ∀ q ∈ targets, q.1 = p → q = (p, high) := fun q m same => by
    obtain ⟨p', high'⟩ := q
    cases same
    have here := (lookup_eq_some_iff keys).2 m
    rw [(lookup_eq_some_iff keys).2 mem] at here
    rw [Option.some_inj.1 here]
  split
  case isTrue yes =>
    refine List.filter_congr fun q m => ?_
    by_cases same : q.1 = p
    · rw [one q m same, yes]; simp
    · rw [other q same]; simp [same]
  case isFalse no =>
    refine (List.filter_eq_self.2 fun q m => ?_).symm
    by_cases same : q.1 = p
    · rw [one q m same]; simpa using no
    · rw [other q same]; rfl

/-- Nothing is taken off when no entry is signalled. -/
lemma filter_unsignalled {targets : List (Int × Int)} {t : Pass α}
    (none_ : ∀ q ∈ targets, signals q t = false) :
    (targets.filter fun q => !signals q t) = targets :=
  List.filter_eq_self.2 fun q m => by simp [none_ q m]

/-- What a pass does to an unlimited scan: it yields at most its record, and takes off what it
signals. -/
lemma scanFrom_cons {t : Pass α} {passes : List (Pass α)} {targets : List (Int × Int)} {n : Nat}
    (on : targets ≠ [])
    (keys : (targets.map Prod.fst).Nodup) (timely : t ≠ .late)
    (sound : ∀ code, t ≠ .polled (.error code)) :
    ∃ n', scanFrom none (t :: passes) targets n =
      (yielded targets t ++ (scanFrom none passes (targets.filter fun q => !signals q t) n').1,
        (scanFrom none passes (targets.filter fun q => !signals q t) n').2) := by
  cases t with
  | late => exact absurd rfl timely
  | polled m =>
    cases m with
    | none => exact ⟨n, by simp [scanFrom, on, signals, yielded]⟩
    | error code => exact absurd rfl (sound code)
    | eof partition offset =>
      refine ⟨n, ?_⟩
      cases found : targets.lookup partition with
      | none =>
        rw [filter_unsignalled fun q m => by simp [signals, (lookup_eq_none found m).symm]]
        simp [scanFrom, on, yielded, found]
      | some high =>
        have left := pop_eq_filter keys ((lookup_eq_some_iff keys).1 found)
          (fun q => signals q (.polled (.eof partition offset) : Pass α))
          fun q away => by simp [signals, away.symm]
        simp only [signals, decide_eq_true_eq, true_and] at left
        simp only [scanFrom, if_neg on, yielded, found, List.nil_append, left, signals]
    | record msg =>
      cases found : targets.lookup msg.partition with
      | none =>
        rw [filter_unsignalled fun q m => by simp [signals, (lookup_eq_none found m).symm]]
        exact ⟨n, by simp [scanFrom, on, yielded, found]⟩
      | some high =>
        have left := pop_eq_filter keys ((lookup_eq_some_iff keys).1 found)
          (fun q => signals q (.polled (.record msg) : Pass α)) fun q away =>
            by simp [signals, away.symm]
        by_cases beyond : high ≤ msg.offset
        · have before : ¬ msg.offset < high := by omega
          have stays : signals (msg.partition, high) (.polled (.record msg) : Pass α) = false := by
            simp [signals, before]
          rw [if_neg (by simp [stays])] at left
          exact ⟨n, by simp [scanFrom, on, yielded, found, beyond, before, ← left]⟩
        · have before : msg.offset < high := by omega
          have last : signals (msg.partition, high) (.polled (.record msg) : Pass α) =
              decide (high ≤ msg.offset + 1) := by
            simp [signals, before]
          simp only [last, decide_eq_true_eq] at left
          exact ⟨n + 1, by simp [scanFrom, on, yielded, found, beyond, before, ← left]⟩

/-- With no targets left the scan is over. -/
lemma scanFrom_nil {limit : Option Nat} {passes : List (Pass α)} {n : Nat} :
    scanFrom limit passes [] n = ([], .returned) := by
  cases passes <;> simp [scanFrom]

/-! ### A whole scan -/

/-- Fewer targets still have partitions of their own. -/
lemma keys_filter {targets : List (Int × Int)} (keys : (targets.map Prod.fst).Nodup)
    (f : Int × Int → Bool) :
    ((targets.filter f).map Prod.fst).Nodup :=
  keys.sublist ((List.filter_sublist).map _)

/-- An unlimited scan returns once every target is signalled, and stays in the loop before. -/
lemma scanFrom_outcome {passes : List (Pass α)} (timely : .late ∉ passes)
    (sound : ∀ code, .polled (.error code) ∉ passes)
    {targets : List (Int × Int)} (keys : (targets.map Prod.fst).Nodup) (n : Nat) :
    (scanFrom none passes targets n).2 = if ∀ q ∈ targets, ∃ t ∈ passes,
      signals q t = true then .returned else .reading := by
  induction passes generalizing targets n with
  | nil =>
    cases targets with
    | nil => simp [scanFrom]
    | cons q targets =>
      rw [if_neg fun all => by obtain ⟨t, m, _⟩ := all q List.mem_cons_self; cases m]
      simp [scanFrom]
  | cons t passes ih =>
    by_cases on : targets = []
    · simp [on, scanFrom_nil]
    · obtain ⟨n', step⟩ := scanFrom_cons on keys (fun e => timely (e ▸ List.mem_cons_self))
        (n := n) fun code e => sound code (e ▸ List.mem_cons_self)
      rw [step]
      show (scanFrom none passes _ n').2 = _
      rw [ih (fun m => timely (List.mem_cons_of_mem _ m))
        (fun code m => sound code (List.mem_cons_of_mem _ m))
        (keys_filter keys _)]
      refine if_congr ⟨fun all q m => ?_, fun all q m => ?_⟩ rfl rfl
      · by_cases here : signals q t = true
        · exact ⟨t, List.mem_cons_self, here⟩
        · obtain ⟨t', m', later⟩ := all q (List.mem_filter.2 ⟨m, by simpa using here⟩)
          exact ⟨t', List.mem_cons_of_mem _ m', later⟩
      · obtain ⟨m, off⟩ := List.mem_filter.1 m
        obtain ⟨t', m', later⟩ := all q m
        rcases List.mem_cons.1 m' with rfl | m'
        · simp [later] at off
        · exact ⟨t', m', later⟩

/-- What a target has to wait for comes before what is beyond it. -/
def Settled (q : Int × Int) (passes : List (Pass α)) : Prop :=
  passes.Pairwise fun t t' =>
    signals q t = true → ∀ msg, t' = .polled (.record msg) → msg.partition = q.1 → q.2 ≤ msg.offset

/-- The records of a partition are those polled of it. -/
lemma mem_recordsOf {p : Int} {r : Record α} {passes : List (Pass α)} :
    r ∈ recordsOf p passes ↔ .polled (.record r) ∈ passes ∧ r.partition = p := by
  unfold recordsOf
  rw [List.mem_filterMap]
  constructor
  · intro ⟨t, m, e⟩
    split at e
    · split at e
      · cases e; exact ⟨m, ‹_›⟩
      · cases e
    · cases e
  · intro ⟨m, e⟩
    exact ⟨_, m, by simp [e]⟩

/-- The records of passes one after the other. -/
lemma recordsOf_append (p : Int) (passes passes' : List (Pass α)) :
    recordsOf p (passes ++ passes') = recordsOf p passes ++ recordsOf p passes' :=
      List.filterMap_append

/-- What is yielded was polled and lies below a target. -/
lemma mem_yielded {targets : List (Int × Int)} (keys : (targets.map Prod.fst).Nodup) {t : Pass α}
    {r : Record α}
    (m : r ∈ yielded targets t) :
    t = .polled (.record r) ∧ ∃ q ∈ targets, r.partition = q.1 ∧ r.offset < q.2 := by
  unfold yielded at m
  split at m
  · split at m
    · split at m
      · cases List.mem_singleton.1 m
        exact ⟨rfl, _, (lookup_eq_some_iff keys).1 ‹_›, rfl, ‹_›⟩
      · cases m
    · cases m
  · cases m

/-- What is yielded of a partition. -/
lemma yielded_filter {targets : List (Int × Int)} (keys : (targets.map Prod.fst).Nodup)
    {q : Int × Int} (m : q ∈ targets)
    (t : Pass α) :
    (yielded targets t).filter (fun r => r.partition = q.1) = (recordsOf q.1 [t]).filter fun r =>
      r.offset < q.2 := by
  cases t with
  | late => rfl
  | polled polled =>
    cases polled with
    | none | eof | error => rfl
    | record msg =>
      by_cases same : msg.partition = q.1
      · have found : targets.lookup q.1 = some q.2 := (lookup_eq_some_iff keys).2 m
        by_cases before : msg.offset < q.2 <;> simp [yielded, recordsOf, found, same, before]
      · have away : ∀ r ∈ yielded targets (.polled (.record msg)), ¬ r.partition = q.1 :=
          fun r m' => by
          cases (mem_yielded keys m').1
          exact same
        rw [List.filter_eq_nil_iff.2 fun r m' => by simpa using away r m']
        simp [recordsOf, same]

/-- A scan yields records that were polled, of its targets and before their ends. -/
lemma scanFrom_only {passes : List (Pass α)} (timely : .late ∉ passes)
    (sound : ∀ code, .polled (.error code) ∉ passes)
    {targets : List (Int × Int)} (keys : (targets.map Prod.fst).Nodup) (n : Nat) {r : Record α}
    (m : r ∈ (scanFrom none passes targets n).1) :
    .polled (.record r) ∈ passes ∧ ∃ q ∈ targets, r.partition = q.1 ∧ r.offset < q.2 := by
  induction passes generalizing targets n with
  | nil => cases m
  | cons t passes ih =>
    by_cases on : targets = []
    · rw [on, scanFrom_nil] at m
      cases m
    · obtain ⟨n', step⟩ := scanFrom_cons on keys (fun e => timely (e ▸ List.mem_cons_self))
        (n := n) fun code e => sound code (e ▸ List.mem_cons_self)
      rw [step] at m
      rcases List.mem_append.1 m with m | m
      · obtain ⟨e, of⟩ := mem_yielded keys m
        exact ⟨e ▸ List.mem_cons_self, of⟩
      · obtain ⟨polled, q, mq, of⟩ := ih (fun m => timely (List.mem_cons_of_mem _ m))
          (fun code m => sound code (List.mem_cons_of_mem _ m)) (keys_filter keys _) n' m
        exact ⟨List.mem_cons_of_mem _ polled, q, (List.mem_filter.1 mq).1, of⟩

/-- A scan yields of each target the polled records before its end, and all of them when nothing
before the end comes after what takes the target off. -/
lemma scanFrom_yields {passes : List (Pass α)} (timely : .late ∉ passes)
    (sound : ∀ code, .polled (.error code) ∉ passes)
    {targets : List (Int × Int)} (keys : (targets.map Prod.fst).Nodup)
    (settled : ∀ q ∈ targets, Settled q passes) (n : Nat)
    {q : Int × Int} (m : q ∈ targets) :
    (scanFrom none passes targets n).1.filter (fun r => r.partition = q.1) =
      (recordsOf q.1 passes).filter fun r => r.offset < q.2 := by
  induction passes generalizing targets n q with
  | nil => rfl
  | cons t passes ih =>
    have timely' : .late ∉ passes := fun m => timely (List.mem_cons_of_mem _ m)
    have sound' : ∀ code, .polled (.error code) ∉ passes :=
      fun code m => sound code (List.mem_cons_of_mem _ m)
    obtain ⟨n', step⟩ :=
      scanFrom_cons (List.ne_nil_of_mem m) keys (fun e => timely (e ▸ List.mem_cons_self))
      (n := n) fun code e => sound code (e ▸ List.mem_cons_self)
    rw [step, ← List.singleton_append, recordsOf_append, List.filter_append, List.filter_append,
      yielded_filter keys m]
    congr 1
    by_cases here : signals q t = true
    · -- The target is off: the scan yields no more of it, and nothing before its end is still to
      -- come.
      have rest : ∀ r ∈ recordsOf q.1 passes, q.2 ≤ r.offset := fun r m' => by
        obtain ⟨polled, same⟩ := mem_recordsOf.1 m'
        exact (List.pairwise_cons.1 (settled q m)).1 _ polled here r rfl same
      have nothing : (recordsOf q.1 passes).filter (fun r => r.offset < q.2) = [] :=
        List.filter_eq_nil_iff.2 fun r m' => by simpa using rest r m'
      rw [nothing]
      refine List.filter_eq_nil_iff.2 fun r m' same => ?_
      obtain ⟨-, q', mq, same', -⟩ := scanFrom_only timely' sound' (keys_filter keys _) n' m'
      obtain ⟨mq, on⟩ := List.mem_filter.1 mq
      have one : q' = q :=
        (List.inj_on_of_nodup_map keys) mq m (same'.symm.trans (by simpa using same))
      rw [one, here] at on
      cases on
    · exact ih timely' sound' (keys_filter keys _)
        (fun q m => (List.pairwise_cons.1 (settled q (List.mem_filter.1 m).1)).2) n'
        (List.mem_filter.2 ⟨m, by simpa using here⟩)

/-! ### Deliveries -/

/-- A relation of each element to all that follow. -/
lemma pairwise_of_split {β : Type} {R : β → β → Prop} {l : List β}
    (split : ∀ before t after, l = before ++ t :: after → ∀ t' ∈ after, R t t') : l.Pairwise R := by
  induction l with
  | nil => exact .nil
  | cons t l ih =>
    refine List.pairwise_cons.2 ⟨split [] t l rfl, ih fun before t' after e => ?_⟩
    exact split (t :: before) t' after (by rw [e, List.cons_append])

section
variable {w : Watermarks} {log : Log α} {passes : List (Pass α)}

/-- The targets have partitions of their own. -/
lemma Watermarks.targets_keys (w : Watermarks) : (w.targets.map Prod.fst).Nodup := by
  have e : w.targets.map Prod.fst = w.assigned.map Row.partition := by
    simp [targets, Function.comp_def]
  exact e ▸ w.distinct.sublist ((List.filter_sublist).map _)

/-- A target is the high watermark of an assigned partition. -/
lemma Watermarks.mem_targets {w : Watermarks} {q : Int × Int} :
    q ∈ w.targets ↔ ∃ row ∈ w.assigned, (row.partition, row.high) = q := List.mem_map

/-- A partition is assigned unless it is empty. -/
lemma Watermarks.mem_assigned {w : Watermarks} {row : Row} :
    row ∈ w.assigned ↔ row ∈ w.rows ∧ row.low < row.high := by
  simp [assigned]

/-- A partition has one row. -/
lemma Watermarks.row_unique (w : Watermarks) {row row' : Row} (m : row ∈ w.rows)
    (m' : row' ∈ w.rows)
    (same : row.partition = row'.partition) : row = row' :=
  List.inj_on_of_nodup_map w.distinct m m' same

/-- A partition is delivered in order: what is still to come is after what has come. -/
lemma Delivers.rest (d : Delivers w log passes) {row : Row} (m : row ∈ w.assigned) :
    ∃ rest, (log.records row.partition).filter (fun r => row.low ≤ r.offset) =
      recordsOf row.partition passes ++ rest ∧
        (recordsOf row.partition passes ++ rest).Pairwise fun r r' => r.offset < r'.offset := by
  obtain ⟨rest, e⟩ := d.ordered row m
  exact ⟨rest, e.symm, e ▸ (log.sorted row.partition).sublist List.filter_sublist⟩

/-- The records of a partition come in order. -/
lemma Delivers.sorted (d : Delivers w log passes) {row : Row} (m : row ∈ w.assigned) :
    (recordsOf row.partition passes).Pairwise fun r r' => r.offset < r'.offset := by
  obtain ⟨rest, -, sorted⟩ := d.rest m
  exact (List.pairwise_append.1 sorted).1

/-- What is polled is in the log, from the low watermark on. -/
lemma Delivers.logged (d : Delivers w log passes) {row : Row} (m : row ∈ w.assigned) {r : Record α}
    (polled : r ∈ recordsOf row.partition passes) :
    r ∈ log.records row.partition ∧ row.low ≤ r.offset := by
  simpa using (d.ordered row m).subset polled

/-- Nothing before the end of a partition comes after what takes it off. -/
lemma Delivers.settled (d : Delivers w log passes) {row : Row} (m : row ∈ w.assigned) :
    Settled (row.partition, row.high) passes := by
  refine pairwise_of_split fun before t after e t' later signal msg e' same => ?_
  subst e'
  have polled : msg ∈ recordsOf row.partition after := mem_recordsOf.2 ⟨later, same⟩
  have sorted := d.sorted m
  rw [e, recordsOf_append, ← List.singleton_append, recordsOf_append] at sorted
  unfold signals at signal
  split at signal
  case h_1 p offset =>
    obtain ⟨rfl, high⟩ : p = row.partition ∧ row.high ≤ offset := by simpa using signal
    by_contra early
    obtain ⟨logged, low⟩ := d.logged m (by rw [e]; exact mem_recordsOf.2 ⟨by simp [later], same⟩)
    have earlier := d.ended row m before offset after e msg logged low (by omega)
    have less :=
      (List.pairwise_append.1 sorted).2.2 msg earlier msg (List.mem_append_right _ polled)
    omega
  case h_2 msg' =>
    obtain ⟨same', -, last⟩ : msg'.partition = row.partition ∧ msg'.offset < row.high ∧
      row.high ≤ msg'.offset + 1 := by
      simpa using signal
    have here : msg' ∈ recordsOf row.partition [.polled (.record msg')] :=
      mem_recordsOf.2 ⟨by simp, same'⟩
    have less :=
      (List.pairwise_append.1 (List.pairwise_append.1 sorted).2.1).2.2 msg' here msg polled
    show row.high ≤ msg.offset
    omega
  case h_3 => cases signal

/-- What takes a partition off has come with or after everything of its snapshot. -/
lemma Delivers.complete (d : Delivers w log passes) {row : Row} (m : row ∈ w.assigned) {t : Pass α}
    (mt : t ∈ passes)
    (signal : signals (row.partition, row.high) t = true) :
    (recordsOf row.partition passes).filter (fun r => r.offset < row.high) =
      (log.records row.partition).filter fun r => row.low ≤ r.offset ∧ r.offset < row.high := by
  obtain ⟨rest, whole, sorted⟩ := d.rest m
  have beyond : ∀ r ∈ rest, row.high ≤ r.offset := fun r mr => by
    have after := (List.pairwise_append.1 sorted).2.2
    unfold signals at signal
    split at signal
    case h_1 p offset =>
      obtain ⟨rfl, high⟩ : p = row.partition ∧ row.high ≤ offset := by simpa using signal
      obtain ⟨before, later, e⟩ := List.append_of_mem mt
      obtain ⟨logged, low⟩ : r ∈ log.records row.partition ∧ row.low ≤ r.offset := by
        simpa using (whole ▸ List.mem_append_right _ mr :
          r ∈ (log.records row.partition).filter fun r => row.low ≤ r.offset)
      by_contra early
      have polled := d.ended row m before offset later e r logged low (by omega)
      have polled' : r ∈ recordsOf row.partition passes := by
        rw [e, recordsOf_append]
        exact List.mem_append_left _ polled
      have := after r polled' r mr
      omega
    case h_2 msg =>
      obtain ⟨same, -, last⟩ : msg.partition = row.partition ∧ msg.offset < row.high ∧
        row.high ≤ msg.offset + 1 := by
        simpa using signal
      have := after msg (mem_recordsOf.2 ⟨mt, same⟩) r mr
      omega
    case h_3 => cases signal
  have none_left : rest.filter (fun r => r.offset < row.high) = [] :=
    List.filter_eq_nil_iff.2 fun r mr => by simpa using beyond r mr
  calc (recordsOf row.partition passes).filter (fun r => r.offset < row.high)
      = ((log.records row.partition).filter fun r => row.low ≤ r.offset).filter fun r =>
        r.offset < row.high := by
        rw [whole, List.filter_append, none_left, List.append_nil]
    _ = (log.records row.partition).filter fun r => row.low ≤ r.offset ∧ r.offset < row.high := by
        rw [List.filter_filter]
        exact List.filter_congr fun r _ => by simp [Bool.and_comm]

/-- A scan returns just if all partitions signal their end. -/
lemma Delivers.returned_iff (d : Delivers w log passes) :
    (scanRecords w none passes).2 = .returned ↔
      ∀ row ∈ w.assigned, ∃ t ∈ passes, signals (row.partition, row.high) t = true := by
  unfold scanRecords
  rw [scanFrom_outcome d.timely d.sound w.targets_keys]
  constructor
  · intro returned row m
    by_cases all : ∀ q ∈ w.targets, ∃ t ∈ passes, signals q t = true
    · exact all _ (Watermarks.mem_targets.2 ⟨row, m, rfl⟩)
    · rw [if_neg all] at returned
      cases returned
  · intro all
    refine if_pos fun q mq => ?_
    obtain ⟨row, m, rfl⟩ := Watermarks.mem_targets.1 mq
    exact all row m

/-- A scan yields records of its snapshot only, and those of a partition in order. -/
theorem Delivers.only (d : Delivers w log passes) {r : Record α}
    (m : r ∈ (scanRecords w none passes).1) :
    ∃ row ∈ w.assigned, r ∈ log.records row.partition ∧ row.low ≤ r.offset ∧
      r.offset < row.high := by
  obtain ⟨polled, q, mq, same, before⟩ := scanFrom_only d.timely d.sound w.targets_keys 0 m
  obtain ⟨row, mr, rfl⟩ := Watermarks.mem_targets.1 mq
  obtain ⟨logged, low⟩ := d.logged mr (mem_recordsOf.2 ⟨polled, same⟩)
  exact ⟨row, mr, logged, low, before⟩

/-- A scan that returns has yielded each partition's records of the snapshot, once and in order. -/
theorem Delivers.exact (d : Delivers w log passes)
    (returned : (scanRecords w none passes).2 = .returned) {row : Row}
    (m : row ∈ w.rows) :
    (scanRecords w none passes).1.filter (fun r => r.partition = row.partition) =
      (log.records row.partition).filter fun r => row.low ≤ r.offset ∧ r.offset < row.high := by
  by_cases some_ : row.low < row.high
  · have assigned := Watermarks.mem_assigned.2 ⟨m, some_⟩
    obtain ⟨t, mt, signal⟩ := d.returned_iff.1 returned row assigned
    rw [← d.complete assigned mt signal]
    refine scanFrom_yields d.timely d.sound w.targets_keys (fun q mq => ?_) 0
      (Watermarks.mem_targets.2 ⟨row, assigned, rfl⟩)
    obtain ⟨row', m', rfl⟩ := Watermarks.mem_targets.1 mq
    exact d.settled m'
  · have left : ∀ r ∈ (scanRecords w none passes).1, ¬ r.partition = row.partition :=
      fun r mr same => by
      obtain ⟨row', m', logged, -, -⟩ := d.only mr
      obtain ⟨m', some'⟩ := Watermarks.mem_assigned.1 m'
      have one := w.row_unique m' m ((log.placed _ r logged).symm.trans same)
      exact some_ (one ▸ some')
    rw [List.filter_eq_nil_iff.2 fun r mr => by simpa using left r mr]
    refine (List.filter_eq_nil_iff.2 fun r _ => ?_).symm
    simp only [decide_eq_true_eq]
    omega

/-- A partition that is covered and closed has been taken off. -/
lemma Delivers.signalled (d : Delivers w log passes) (covered : Covered w passes)
    (closed : Closed w log passes) {row : Row}
    (m : row ∈ w.assigned) : ∃ t ∈ passes, signals (row.partition, row.high) t = true := by
  have by_end : (∃ offset, row.high ≤ offset ∧ .polled (.eof row.partition offset) ∈ passes) →
      ∃ t ∈ passes, signals (row.partition, row.high) t = true :=
    fun ⟨offset, high, mt⟩ => ⟨_, mt, by simpa [signals] using high⟩
  rcases closed row m with ⟨r, logged, last⟩ | ended
  · rcases covered row m with ⟨r', polled, high⟩ | ended
    · obtain ⟨rest, whole, sorted⟩ := d.rest m
      have some_ := (Watermarks.mem_assigned.1 m).2
      have mem : r ∈ recordsOf row.partition passes ++ rest := by
        rw [← whole]
        exact List.mem_filter.2 ⟨logged, by simp; omega⟩
      have polled' : r ∈ recordsOf row.partition passes := by
        refine (List.mem_append.1 mem).resolve_right fun later => ?_
        have := (List.pairwise_append.1 sorted).2.2 r' polled r later
        omega
      obtain ⟨mt, same⟩ := mem_recordsOf.1 polled'
      exact ⟨_, mt, by simp [signals, same]; omega⟩
    · exact by_end ended
  · exact by_end ended

/-- Where all partitions signal their end, all are closed. -/
lemma Delivers.closed (d : Delivers w log passes)
    (all : ∀ row ∈ w.assigned, ∃ t ∈ passes, signals (row.partition, row.high) t = true) :
    Closed w log passes := by
  intro row m
  obtain ⟨t, mt, signal⟩ := all row m
  unfold signals at signal
  split at signal
  case h_1 p offset =>
    obtain ⟨rfl, high⟩ : p = row.partition ∧ row.high ≤ offset := by simpa using signal
    exact .inr ⟨offset, high, mt⟩
  case h_2 msg =>
    obtain ⟨same, before, last⟩ : msg.partition = row.partition ∧ msg.offset < row.high ∧
      row.high ≤ msg.offset + 1 := by
      simpa using signal
    exact .inl ⟨msg, (d.logged m (mem_recordsOf.2 ⟨mt, same⟩)).1, by omega⟩
  case h_3 => cases signal

/-- A scan reads exactly its snapshot, and is done with it as soon as the deliveries have passed it,
if and only if no partition is passed only by a record beyond a gap at its snapshot end. -/
theorem scan_finite_iff (w : Watermarks) (log : Log α) (passes : List (Pass α))
    (d : Delivers w log passes) :
    FiniteScan w log passes ↔ (Covered w passes → Closed w log passes) := by
  constructor
  · intro finite covered
    exact d.closed (d.returned_iff.1 (finite.finishes covered))
  · intro closed
    refine ⟨fun r m => ?_, fun returned row m => d.exact returned m, fun covered => ?_⟩
    · obtain ⟨row, m, inside⟩ := d.only m
      exact ⟨row, (Watermarks.mem_assigned.1 m).1, inside⟩
    · exact d.returned_iff.2 fun row m => d.signalled covered (closed covered) m

end

/-! ### A gap at the end -/

/-- One partition, whose snapshot holds offsets 0 and 1. -/
def demoWatermarks : Watermarks := topicWatermarks [0] (by decide) fun _ => (0, 2)

/-- Its log: offset 1 is no record (a transaction marker, say), and offset 2 was appended after the
snapshot. -/
def demoLog : Log Unit where
  records p := if p = 0 then [⟨0, 0, ()⟩, ⟨0, 2, ()⟩] else []
  placed p r m := by
    split at m
    case isTrue zero =>
      simp only [List.mem_cons, List.not_mem_nil, or_false] at m
      rcases m with rfl | rfl <;> exact zero.symm
    case isFalse => cases m
  sorted p := by split <;> simp

def demoPasses : List (Pass Unit) := [.polled (.record ⟨0, 0, ()⟩), .polled (.record ⟨0, 2, ()⟩)]

/-- The one partition of the demonstration. -/
lemma demo_assigned {row : Row} (m : row ∈ demoWatermarks.assigned) : row = ⟨0, 0, 2, 2⟩ := by
  simpa [demoWatermarks, topicWatermarks, Watermarks.assigned] using m

/-- The passes of the demonstration deliver its log. -/
lemma demo_delivers : Delivers demoWatermarks demoLog demoPasses where
  timely := by decide
  sound code m := by simp [demoPasses] at m
  ordered row m := by
    cases demo_assigned m
    exact ⟨[], by decide⟩
  ended row m before offset after e := by
    have mem : Pass.polled (.eof row.partition offset) ∈ demoPasses := by simp [e]
    simp [demoPasses] at mem

/-- The passes of the demonstration get as far as the records go. -/
lemma demo_covered : Covered demoWatermarks demoPasses := by
  intro row m
  cases demo_assigned m
  exact .inl ⟨⟨0, 2, ()⟩, by decide, by decide⟩

/-- Both records have come, the second from beyond the snapshot, and the scan still waits. -/
theorem scan_waits_beyond_gap :
    Delivers demoWatermarks demoLog demoPasses ∧ Covered demoWatermarks demoPasses ∧
      scanRecords demoWatermarks none demoPasses = ([⟨0, 0, ()⟩], .reading) ∧
      ¬ FiniteScan demoWatermarks demoLog demoPasses :=
  ⟨demo_delivers, demo_covered, by decide, fun finite => by
    have returned := finite.finishes demo_covered
    revert returned
    decide⟩

/-- Two partitions: the second ends with an offset that is no record. -/
def pairWatermarks : Watermarks :=
  topicWatermarks [0, 1] (by decide) fun p => if p = 0 then (0, 2) else (5, 7)

def pairLog : Log Unit where
  records p :=
    if p = 0 then [⟨0, 0, ()⟩, ⟨0, 1, ()⟩, ⟨0, 2, ()⟩] else if p = 1 then [⟨1, 5, ()⟩] else []
  placed p r m := by
    split_ifs at m with zero one
    · simp only [List.mem_cons, List.not_mem_nil, or_false] at m
      rcases m with rfl | rfl | rfl <;> exact zero.symm
    · rw [List.mem_singleton.1 m, one]
    · cases m
  sorted p := by split_ifs <;> simp

/-- The deliveries of the two partitions, one among the other. -/
def pairPasses : List (Pass Unit) :=
  [.polled (.record ⟨1, 5, ()⟩), .polled .none, .polled (.record ⟨0, 0, ()⟩), .polled (.eof 1 7),
    .polled (.record ⟨0, 1, ()⟩)]

/-- The two partitions of the demonstration. -/
lemma pair_assigned {row : Row} (m : row ∈ pairWatermarks.assigned) :
    row = ⟨0, 0, 2, 2⟩ ∨ row = ⟨1, 5, 7, 2⟩ := by
  simpa [pairWatermarks, topicWatermarks, Watermarks.assigned] using m

/-- The passes of both partitions deliver their log. -/
lemma pair_delivers : Delivers pairWatermarks pairLog pairPasses where
  timely := by decide
  sound code m := by simp [pairPasses] at m
  ordered row m := by
    rcases pair_assigned m with rfl | rfl
    · exact ⟨[⟨0, 2, ()⟩], by decide⟩
    · exact ⟨[], by decide⟩
  ended row m before offset after e r logged _ _ := by
    have mem : Pass.polled (.eof row.partition offset) ∈ pairPasses := by simp [e]
    rcases pair_assigned m with rfl | rfl
    · simp [pairPasses] at mem
    · obtain rfl : r = ⟨1, 5, ()⟩ := List.mem_singleton.1 logged
      have first : pairPasses.head? = some (.polled (.record ⟨1, 5, ()⟩)) := rfl
      rw [e] at first
      cases before with
      | nil => cases first
      | cons pass before =>
        cases first
        exact mem_recordsOf.2 ⟨List.mem_cons_self, rfl⟩

/-- Both partitions are closed. -/
lemma pair_closed : Closed pairWatermarks pairLog pairPasses := by
  intro row m
  rcases pair_assigned m with rfl | rfl
  · exact .inl ⟨⟨0, 1, ()⟩, by decide, by decide⟩
  · exact .inr ⟨7, by decide, by decide⟩

/-- One partition is done with its last record, the other with its end. -/
theorem scan_finite_iff_demo : FiniteScan pairWatermarks pairLog pairPasses :=
  (scan_finite_iff pairWatermarks pairLog pairPasses pair_delivers).2 fun _ => pair_closed

example : scanRecords pairWatermarks none pairPasses = ([⟨1, 5, ()⟩, ⟨0, 0, ()⟩, ⟨0, 1, ()⟩],
    .returned) := by decide

end DbLab.Kafka
