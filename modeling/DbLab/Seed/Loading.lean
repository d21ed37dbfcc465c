import DbLab.Seed.Delivery
import DbLab.Py.Reference

/-!
# Loading an index

What `seed_index` has asked of the server when it ends: the batches that it has sent are consecutive
parts of the documents, each as small as it has to be, and the refresh interval was asked to be what
it had been. Where it returns, every document was acknowledged, and the index holds the documents
and nothing else.
-/

namespace DbLab.Seed.Bulk
open DbLab.Py DbLab.Proc

section Loading
variable [Interpreter] {idOf : Record → Str} {gen : List Record} {before : List (Str × Bytes)}
  {log : List Exchange}
  {asked : List Str} {told : List (Option Str)} {s s' : State} {args : Arguments}
    {done : List Record} {p : Progress}

/-- A batch and its requests. -/
structure Batch (args : Arguments) (b : List Record × List Exchange) : Prop where
  few : b.2.length ≤ (args.retries + 1).toNat
  count : (b.1.length : Int) ≤ args.batchSize
  bytes : ((payload b.1).length : Int) ≤ args.limit
  delivery : Delivery b.1 b.2

/-- The requests are those of batches that make up `done`. -/
def Sends (args : Arguments) (done : List Record) (log : List Exchange) : Prop :=
  ∃ batches : List (List Record × List Exchange), (batches.map Prod.fst).flatten = done ∧
    (batches.map Prod.snd).flatten = log ∧ ∀ b ∈ batches, Batch args b

/-- Every record was acknowledged. -/
def Acked (log : List Exchange) (records : List Record) : Prop :=
  ∀ r ∈ records, ∃ e ∈ log, r ∈ e.acked

/-- Nothing was sent. -/
lemma Sends.nil : Sends args [] [] := ⟨[], rfl, rfl, nofun⟩

/-- One more batch was sent. -/
lemma Sends.batch (h : Sends args done log) {records : List Record} {es : List Exchange}
    (batch : Batch args (records, es)) :
    Sends args (done ++ records) (log ++ es) := by
  obtain ⟨batches, rfl, rfl, all⟩ := h
  refine ⟨batches ++ [(records, es)], by simp, by simp, ?_⟩
  exact List.forall_mem_append.2 ⟨all, List.forall_mem_singleton.2 batch⟩

/-- Where the loop stands: `done` is sent and acknowledged, and what is pending fits into a
batch. -/
structure Pass (args : Arguments) (done : List Record) (log : List Exchange) (p : Progress) :
    Prop where
  sends : Sends args done log
  acked : Acked log done
  count : (p.pending.length : Int) ≤ args.batchSize
  bytes : ((payload p.pending).length : Int) ≤ args.limit ∨ p.pending = []
  pendingBytes : p.pendingBytes = (payload p.pending).length
  total : p.count = (done ++ p.pending).length

/-- What a load that was broken off has sent. -/
def Broken (idOf : Record → Str) (gen : List Record) (before : List (Str × Bytes))
    (args : Arguments) (asked : List Str)
    (told : List (Option Str)) (s : State) : Prop :=
  ∃ done log, done <+: gen ∧ Sends args done log ∧ At idOf gen before log asked told s

/-- The pending records are sent as a batch. -/
lemma pending_wp (distinct : (gen.map idOf).Nodup) (pass : Pass args done log p)
    (prefix_ : done ++ p.pending <+: gen)
    (some_ : p.pending ≠ []) (h : At idOf gen before log asked told s) :
    wp idOf (fun _ s' => ∃ log', Sends args (done ++ p.pending) log' ∧
      Acked log' (done ++ p.pending) ∧
        At idOf gen before log' asked told s')
      (fun _ => Broken idOf gen before args asked told)
        (bulkSend p.pending args.retries (1 / 2)) s := by
  have ours : ∀ r ∈ p.pending, r ∈ gen := fun r m => prefix_.subset (List.mem_append_right _ m)
  have nodup : p.pending.Nodup := by
    have all := prefix_.sublist.nodup (List.Nodup.of_map _ distinct)
    exact (List.nodup_append.1 all).2.1
  have batch {es : List Exchange} (few : es.length ≤ (args.retries + 1).toNat)
    (delivery : Delivery p.pending es) :
      Batch args (p.pending, es) := ⟨few, pass.count, pass.bytes.resolve_right some_, delivery⟩
  refine World.wp_mono (bulkSend_wp distinct ours nodup args.retries (1 / 2) h) ?_ ?_
  · intro _ s' ⟨es, few, tries, here⟩
    refine ⟨log ++ es, pass.sends.batch (batch few tries.toDelivery), ?_, here⟩
    intro r m
    rcases List.mem_append.1 m with m | m
    · obtain ⟨e, me, mr⟩ := pass.acked r m
      exact ⟨e, List.mem_append_left _ me, mr⟩
    · obtain none | ⟨e, me, mr⟩ := tries.cover r m
      · cases none
      · exact ⟨e, List.mem_append_right _ me, mr⟩
  · intro _ s' ⟨es, few, delivery, here⟩
    exact ⟨_, _, prefix_, pass.sends.batch (batch few delivery), here⟩

omit [Interpreter] in
/-- One more record in the payload. -/
lemma payload_append (records : List Record) (r : Record) :
    (payload (records ++ [r])).length = (payload records).length + r.size := by
  rw [payload_length, payload_length, List.map_append, List.sum_append]
  rfl

/-- Before a document is pending there is room for it. -/
lemma flush_wp (distinct : (gen.map idOf).Nodup) (client : args.client = true)
    (pass : Pass args done log p)
    (prefix_ : done ++ p.pending <+: gen) {size : Nat} (fits : (size : Int) ≤ args.limit)
    (h : At idOf gen before log asked told s) :
    wp idOf (fun p' s' => ∃ done' log', Pass args done' log' p' ∧
      done' ++ p'.pending = done ++ p.pending ∧
        (p'.pending.length : Int) < args.batchSize ∧ ((payload p'.pending).length : Int) +
          size ≤ args.limit ∧
        At idOf gen before log' asked told s')
      (fun _ => Broken idOf gen before args asked told) (flush args p size) s := by
  rw [flush, client]
  have one := args.batch_ok
  split
  · rename_i full
    rw [Bool.true_and, Bool.and_eq_true, Bool.not_eq_true', List.isEmpty_eq_false_iff] at full
    refine (World.wp_bind _ _).2 (World.wp_mono (pending_wp distinct pass prefix_ full.1 h) ?_
      fun _ _ q => q)
    intro _ s' ⟨log', sends, acked, here⟩
    refine ⟨done ++ p.pending, log', ⟨sends, acked, ?_, .inr rfl, rfl, ?_⟩, List.append_nil _,
      ?_, ?_, here⟩
    · show ((0 : Nat) : Int) ≤ args.batchSize
      omega
    · exact pass.total.trans (congrArg List.length (List.append_nil _).symm)
    · show ((0 : Nat) : Int) < args.batchSize
      omega
    · show ((0 : Nat) : Int) + size ≤ args.limit
      omega
  · rename_i room
    refine ⟨done, log, pass, rfl, ?_, ?_, h⟩
    · by_cases none : p.pending = []
      · rw [none]
        show ((0 : Nat) : Int) < args.batchSize
        omega
      · have full : ¬ (args.batchSize ≤ p.pending.length) :=
          fun overfull => room (by simp [none, overfull])
        omega
    · by_cases none : p.pending = []
      · rw [none]
        show ((0 : Nat) : Int) + size ≤ args.limit
        omega
      · have full : ¬ (args.limit < p.pendingBytes + size) :=
          fun overfull => room (by simp [none, overfull])
        rw [pass.pendingBytes] at full
        omega

/-- One document is counted and is pending. -/
lemma pass_wp (distinct : (gen.map idOf).Nodup) (client : args.client = true)
    (here : Pass args done log p) {r : Record}
    {rest : List Record} (split_ : done ++ p.pending ++ r :: rest = gen)
    (h : At idOf gen before log asked told s) :
    wp idOf (fun p' s' => ∃ done' log', Pass args done' log' p' ∧
      done' ++ p'.pending ++ rest = gen ∧
        At idOf gen before log' asked told s')
      (fun _ => Broken idOf gen before args asked told) (pass args p r) s := by
  have prefix_ : done ++ p.pending <+: gen := ⟨_, split_⟩
  rw [pass]
  split
  · exact ⟨done, log, (List.prefix_append _ _).trans prefix_, here.sends, h⟩
  · rename_i fits
    refine (World.wp_bind _ _).2
      (World.wp_mono (flush_wp distinct client here prefix_ (not_lt.1 fits) h) ?_ fun _ _ q => q)
    intro p' s' ⟨done', log', here', same, count, bytes, h'⟩
    have added {s'' : State} (h'' : At idOf gen before log' asked told s'') :
        ∃ done' log', Pass args done' log' (p'.add args r) ∧
          done' ++ (p'.add args r).pending ++ rest = gen ∧
            At idOf gen before log' asked told s'' := by
      have pending : (p'.add args r).pending = p'.pending ++ [r] := if_pos client
      refine ⟨done', log', ⟨here'.sends, here'.acked, ?_, .inl ?_, ?_, ?_⟩, ?_, h''⟩
      · rw [pending, List.length_append, List.length_singleton]
        omega
      · rw [pending, payload_append]
        omega
      · rw [pending, payload_append, ← here'.pendingBytes]
        exact if_pos client
      · rw [pending, ← List.append_assoc, List.length_append, ← here'.total]
        rfl
      · rw [pending, ← List.append_assoc, same, List.append_assoc]
        exact split_
    refine (World.wp_bind _ _).2 ?_
    rw [emit]
    split
    · refine ask_wp distinct h' ?_ ?_
      · intro s₁ _ s'' h'' does
        cases does with
        | write => exact added h''
      · intro s₁ e s'' h'' does
        cases does with
        | fails _ other =>
          exact ⟨done', log', (List.prefix_append _ _).trans (same ▸ prefix_), here'.sends, h''⟩
    · exact added h'

/-- What a load comes to. -/
lemma load_wp (distinct : (gen.map idOf).Nodup) (client : args.client = true) {rest : List Record}
    (here : Pass args done log p)
    (split_ : done ++ p.pending ++ rest = gen) (h : At idOf gen before log asked told s) :
    wp idOf (fun p' s' => p'.count = gen.length ∧ ∃ log', Sends args gen log' ∧ Acked log' gen ∧
        At idOf gen before log' asked told s')
      (fun _ => Broken idOf gen before args asked told) (load args p rest) s := by
  induction rest generalizing done log p s with
  | nil =>
    rw [List.append_nil] at split_
    rw [load, client]
    split
    · rename_i full
      rw [Bool.true_and, Bool.not_eq_true', List.isEmpty_eq_false_iff] at full
      refine (World.wp_bind _ _).2
        (World.wp_mono (pending_wp distinct here ⟨[], by rw [List.append_nil, split_]⟩ full h) ?_
        fun _ _ q => q)
      intro _ s' ⟨log', sends, acked, h'⟩
      rw [split_] at sends acked
      exact ⟨split_ ▸ here.total, log', sends, acked, h'⟩
    · rename_i none
      rw [Bool.true_and, Bool.not_eq_true', Bool.not_eq_false, List.isEmpty_iff] at none
      have all : done = gen := by rw [← split_, none, List.append_nil]
      exact ⟨split_ ▸ here.total, log, all ▸ here.sends, all ▸ here.acked, h⟩
  | cons r rest ih =>
    rw [load]
    refine (World.wp_bind _ _).2 (World.wp_mono (pass_wp distinct client here split_ h) ?_
      fun _ _ q => q)
    intro p' s' ⟨done', log', here', split', h'⟩
    exact ih here' split' h'

/-! ### The whole load -/

/-- The interval the index had. -/
def Restored (asked : List Str) (told : List (Option Str)) : Prop :=
  (asked = [] ∧ told = []) ∨ ∃ previous : Option Str, told = [previous] ∧
    asked = [str "-1", previous.getD (str "1s")]

/-- The call that sets an interval. -/
lemma setRefresh_wp (distinct : (gen.map idOf).Nodup) {interval : Str} {Q : Unit → State → Prop}
    {E : Raised → State → Prop}
    (h : At idOf gen before log asked told s)
    (ok : ∀ s', At idOf gen before log (asked ++ [interval]) told s' → Q () s')
    (error : ∀ e s', At idOf gen before log (asked ++ [interval]) told s' → E e s') :
    wp idOf Q E (ask (.setRefresh interval)) s := by
  have next {s₁ : State} (h : At idOf gen before log asked told s₁) :
      At idOf gen before log (asked ++ [interval]) told
        { s₁ with asked := s₁.asked ++ [interval] } :=
    ⟨⟨h.kept.ours, h.kept.nodup, h.kept.stored, h.kept.others⟩, h.log_eq,
      congrArg (· ++ _) h.asked_eq, h.told_eq⟩
  refine ask_wp distinct h ?_ ?_
  · intro s₁ _ s' h₁ does
    cases does with
    | setRefresh _ => exact ok _ (next h₁)
  · intro s₁ e s' h₁ does
    cases does with
    | setRefresh _ => exact error e _ (next h₁)
    | fails _ other => exact absurd rfl (other [] interval).2

/-- The interval is set for the load, and set back whatever comes of it. -/
lemma restoring_wp (distinct : (gen.map idOf).Nodup) (client : args.client = true)
    (previous : Option Str)
    (h : At idOf gen before [] [] [previous] s) :
    wp idOf (fun p s' => p.count = gen.length ∧ ∃ log, Sends args gen log ∧ Acked log gen ∧
        At idOf gen before log [str "-1", previous.getD (str "1s")] [previous] s')
      (fun _ => Broken idOf gen before args [str "-1", previous.getD (str "1s")] [previous])
      (restoring (previous.getD (str "1s")) do
        ask (.setRefresh (str "-1"))
        load args .init gen) s := by
  have start : Pass args [] [] .init := by
    refine ⟨.nil, nofun, ?_, .inr rfl, rfl, rfl⟩
    have one := args.batch_ok
    show ((0 : Nat) : Int) ≤ args.batchSize
    omega
  -- the body, and what it raises
  have body : wp idOf (fun p s' => p.count = gen.length ∧ ∃ log, Sends args gen log ∧
    Acked log gen ∧
      At idOf gen before log [str "-1"] [previous] s') (fun _ =>
        Broken idOf gen before args [str "-1"] [previous])
      (do ask (.setRefresh (str "-1")); load args .init gen) s := by
    refine (World.wp_bind _ _).2 (setRefresh_wp distinct h ?_ ?_)
    · intro s' h'
      exact load_wp distinct client start rfl h'
    · intro e s' h'
      exact ⟨[], [], List.nil_prefix, .nil, h'⟩
  refine (World.wp_bind _ _).2
    ((World.wp_handle _ _).2 ((World.wp_bind _ _).2 (World.wp_mono body ?_ ?_)))
  · intro p s' ⟨count, log, sends, acked, h'⟩
    refine (World.wp_bind _ _).2 (setRefresh_wp distinct h' ?_ ?_)
    · exact fun s'' h'' => ⟨count, log, sends, acked, h''⟩
    · exact fun e s'' h'' => ⟨gen, log, List.prefix_rfl, sends, h''⟩
  · intro e s' ⟨done, log, prefix_, sends, h'⟩
    refine (World.wp_bind _ _).2 (attempt_wp (setRefresh_wp distinct h' ?_ ?_))
    · exact fun s'' h'' => ⟨done, log, prefix_, sends, h''⟩
    · intro f s'' h''
      cases f with
      | failure f => exact ⟨done, log, prefix_, sends, h''⟩
      | interrupt => exact ⟨done, log, prefix_, sends, h''⟩

/-- A count that is right is the count of the documents that the index holds. -/
lemma counted_wp (distinct : (gen.map idOf).Nodup) (count : Nat)
    (h : At idOf gen before log asked told s) :
    wp idOf (fun _ s' => At idOf gen before log asked told s' ∧ s'.docs.length = count)
      (fun _ s' => At idOf gen before log asked told s') (counted count) s := by
  refine (World.wp_bind _ _).2 (ask_wp distinct h ?_ ?_)
  · intro s₁ reply s' h₁ does
    cases does with
    | refresh _ =>
      refine (World.wp_bind _ _).2 (lift_wp (fun failed _ => ?_) fun _ => h₁)
      split
      · exact h₁
      · refine (World.wp_bind _ _).2 (ask_wp distinct h₁ ?_ ?_)
        · intro s₂ reply s' h₂ does
          cases does with
          | count _ honest =>
            refine (World.wp_bind _ _).2 (lift_wp (fun actual read => ?_) fun _ => h₂)
            split
            · rename_i same
              refine ⟨h₂, ?_⟩
              obtain ⟨a, num, view⟩ := eq_int_iff.1 (honest actual (mapError_ok.1 read))
              obtain ⟨b, num', view'⟩ := eq_int_iff.1 same
              rw [num] at num'
              cases num'
              rw [view] at view'
              exact_mod_cast FloatView.finite.inj view'
            · exact h₂
        · intro s₂ e s' h₂ does
          cases does with
          | fails _ other => exact h₂
  · intro s₁ e s' h₁ does
    cases does with
    | fails _ other => exact h₁

/-- What `seed_index` comes to. -/
lemma seedIndex_wp (distinct : (gen.map idOf).Nodup) (client : args.client = true)
    (nodup : (before.map Prod.fst).Nodup) :
    wp idOf (fun _ s' => Restored s'.asked s'.told ∧ Sends args gen s'.log ∧ Acked s'.log gen ∧
      Kept idOf gen before s' ∧
        s'.docs.length = gen.length)
      (fun _ s' => Restored s'.asked s'.told ∧ (∃ done, done <+: gen ∧ Sends args done s'.log) ∧
        Kept idOf gen before s')
      (seedIndex args gen) ⟨before, [], [], []⟩ := by
  have start : At idOf gen before [] [] [] ⟨before, [], [], []⟩ :=
    ⟨⟨nofun, nodup, nofun, fun _ _ => rfl⟩, rfl, rfl, rfl⟩
  rw [seedIndex, if_pos client]
  refine (World.wp_bind _ _).2 (ask_wp distinct start ?_ ?_)
  · intro s₁ previous s' h₁ does
    cases does with
    | settings _ =>
      have told : At idOf gen before [] [] [previous] { s₁ with told := s₁.told ++ [previous] } :=
        ⟨⟨h₁.kept.ours, h₁.kept.nodup, h₁.kept.stored, h₁.kept.others⟩, h₁.log_eq, h₁.asked_eq,
          congrArg (· ++ _) h₁.told_eq⟩
      refine (World.wp_bind _ _).2
        (World.wp_mono (restoring_wp distinct client previous told) ?_ ?_)
      · intro totals s' ⟨count, log, sends, acked, h'⟩
        have broken (e : Raised) (s'' : State)
          (h'' : At idOf gen before log [str "-1", previous.getD (str "1s")] [previous] s'') :
            Restored s''.asked s''.told ∧ (∃ done, done <+: gen ∧ Sends args done s''.log) ∧
              Kept idOf gen before s'' :=
          ⟨.inr ⟨previous, h''.told_eq, h''.asked_eq⟩,
            ⟨gen, List.prefix_rfl, h''.log_eq.symm ▸ sends⟩, h''.kept⟩
        refine (World.wp_bind _ _).2 (ask_wp distinct h' ?_ ?_)
        · intro s₂ text s'' h₂ does
          cases does with
          | signature _ =>
            refine (World.wp_bind _ _).2
              (World.wp_mono (counted_wp distinct totals.count h₂) ?_ broken)
            intro actual s'' ⟨h'', length⟩
            exact ⟨.inr ⟨previous, h''.told_eq, h''.asked_eq⟩, h''.log_eq.symm ▸ sends,
              h''.log_eq.symm ▸ acked, h''.kept, length.trans count⟩
        · intro s₂ e s'' h₂ does
          cases does with
          | fails _ other => exact broken e _ h₂
      · intro e s' ⟨done, log, prefix_, sends, h'⟩
        exact ⟨.inr ⟨previous, h'.told_eq, h'.asked_eq⟩,
          ⟨done, prefix_, h'.log_eq.symm ▸ sends⟩, h'.kept⟩
  · intro s₁ e s' h₁ does
    cases does with
    | fails _ other =>
      exact ⟨.inl ⟨h₁.asked_eq, h₁.told_eq⟩, ⟨[], List.nil_prefix, h₁.log_eq.symm ▸ .nil⟩, h₁.kept⟩

/-- No batch has a record of another one, so what was acknowledged is not sent again. -/
lemma Sends.once (h : Sends args done log) (nodup : done.Nodup) : log.Pairwise fun e e' =>
  ∀ r ∈ e.acked, r ∉ e'.records := by
  obtain ⟨batches, rfl, rfl, all⟩ := h
  obtain ⟨_, apart⟩ := List.nodup_flatten.1 nodup
  refine List.pairwise_flatten.2 ⟨?_, ?_⟩
  · intro es m
    obtain ⟨b, mb, rfl⟩ := List.mem_map.1 m
    exact (all b mb).delivery.once
  · rw [List.pairwise_map] at apart ⊢
    refine apart.imp_of_mem fun {b b'} mb mb' apart e me e' me' r mr mr' => ?_
    have first := ((all b mb).delivery.within e me).subset (mem_acked mr)
    exact apart first (((all b' mb').delivery.within e' me').subset mr')

/-- A request is no larger than its batch. -/
lemma Sends.bounded (h : Sends args done log) :
    ∀ e ∈ log, (e.records.length : Int) ≤ args.batchSize ∧ ((payload e.records).length : Int) ≤
      args.limit := by
  obtain ⟨batches, _, rfl, all⟩ := h
  intro e m
  obtain ⟨es, mes, me⟩ := List.mem_flatten.1 m
  obtain ⟨b, mb, rfl⟩ := List.mem_map.1 mes
  have within := (all b mb).delivery.within e me
  have count := within.length_le
  have bytes : (payload e.records).length ≤ (payload b.1).length := by
    rw [payload_length, payload_length]
    exact (within.map _).sum_le_sum fun _ _ => Nat.zero_le _
  have := (all b mb).count
  have := (all b mb).bytes
  omega

/-- An index with as many documents as were generated, all of them stored, holds nothing else. -/
lemma Kept.exact (distinct : (gen.map idOf).Nodup) (h : Kept idOf gen before s)
    (acked : Acked s.log gen)
    (length : s.docs.length = gen.length) (k : Str) (source : Bytes) :
    lookup k s.docs = some source ↔ ∃ r ∈ gen, idOf r = k ∧ r.source = source := by
  have stored : ∀ r ∈ gen, lookup (idOf r) s.docs = some r.source := fun r m => by
    obtain ⟨e, me, mr⟩ := acked r m
    exact h.stored e me r mr
  have sub : gen.map idOf ⊆ s.docs.map Prod.fst := by
    intro k m
    obtain ⟨r, mr, rfl⟩ := List.mem_map.1 m
    exact List.mem_map.2 ⟨_, lookup_mem (stored r mr), rfl⟩
  have perm : (gen.map idOf).Perm (s.docs.map Prod.fst) := by
    apply (distinct.subperm sub).perm_of_length_le
    rw [List.length_map, List.length_map, length]
  constructor
  · intro found
    have key : k ∈ s.docs.map Prod.fst := List.mem_map.2 ⟨_, lookup_mem found, rfl⟩
    obtain ⟨r, mr, rfl⟩ := List.mem_map.1 (perm.mem_iff.2 key)
    rw [stored r mr] at found
    exact ⟨r, mr, rfl, Option.some.inj found⟩
  · rintro ⟨r, mr, rfl, rfl⟩
    exact stored r mr

/-- What a load of `gen` into an index that held `before` has come to. -/
structure Loads (idOf : Record → Str) (gen : List Record) (args : Arguments)
    (result : Except Raised Loaded) (s : State) : Prop where
  once : s.log.Pairwise fun e e' => ∀ r ∈ e.acked, r ∉ e'.records
  bounded : ∀ e ∈ s.log, (e.records.length : Int) ≤ args.batchSize ∧
    ((payload e.records).length : Int) ≤ args.limit
  batches : ∃ done, done <+: gen ∧ Sends args done s.log
  restored : Restored s.asked s.told
  acked : ∀ l, result = .ok l → Acked s.log gen
  exact : ∀ l, result = .ok l → ∀ k source, lookup k s.docs = some source ↔
    ∃ r ∈ gen, idOf r = k ∧ r.source = source

/-- What the requests for one batch `gen` have come to, whatever the index held `before`. -/
structure Posts (idOf : Record → Str) (gen : List Record) (before : List (Str × Bytes))
    (tries : Int)
    (result : Except Raised Nat) (s : State) : Prop where
  few : s.log.length ≤ (tries + 1).toNat
  delivery : Delivery gen s.log
  acked : ∀ n, result = .ok n → Acked s.log gen
  exact : ∀ n, result = .ok n → ∀ r ∈ gen, lookup (idOf r) s.docs = some r.source
  others : ∀ k, k ∉ gen.map idOf → lookup k s.docs = lookup k before

/-- However the server behaves, `bulk_send` and `seed_index` deliver the documents or raise. -/
structure Delivers (idOf : Record → Str) (gen : List Record) : Prop where
  send : ∀ (before : List (Str × Bytes)) (tries : Int) (backoff : Rat)
    (result : Except Raised Nat) (s : State), (before.map Prod.fst).Nodup →
      (server idOf).Ran (bulkSend gen tries backoff) ⟨before, [], [], []⟩ result s →
    Posts idOf gen before tries result s
  load : ∀ (before : List (Str × Bytes)) (args : Arguments)
    (result : Except Raised Loaded) (s : State), (before.map Prod.fst).Nodup → args.client = true →
      (server idOf).Ran (seedIndex args gen) ⟨before, [], [], []⟩ result s →
    Loads idOf gen args result s

/-- Every run delivers what it reports. -/
theorem bulk_delivery (idOf : Record → Str) (gen : List Record) (distinct : (gen.map idOf).Nodup) :
    Delivers idOf gen where
  send before tries backoff result s nodup ran := by
    have start : At idOf gen before [] [] [] ⟨before, [], [], []⟩ :=
      ⟨⟨nofun, nodup, nofun, fun _ _ => rfl⟩, rfl, rfl, rfl⟩
    have post :=
      ran.post (bulkSend_wp distinct (fun _ m => m) (List.Nodup.of_map _ distinct) tries
        backoff start)
    cases result with
    | ok n =>
      obtain ⟨es, few, done, h⟩ := post
      rw [List.nil_append] at h
      obtain rfl := h.log_eq
      have acked : Acked s.log gen := fun r m => (done.cover r m).resolve_left List.not_mem_nil
      refine ⟨few, done.toDelivery, fun _ _ => acked, fun _ _ r m => ?_, h.kept.others⟩
      obtain ⟨e, me, mr⟩ := acked r m
      exact h.kept.stored e me r mr
    | error e =>
      obtain ⟨es, few, delivery, h⟩ := post
      rw [List.nil_append] at h
      obtain rfl := h.log_eq
      exact ⟨few, delivery, nofun, nofun, h.kept.others⟩
  load before args result s nodup client ran := by
    have post := ran.post (seedIndex_wp distinct client nodup)
    have nodup := List.Nodup.of_map _ distinct
    cases result with
    | ok l =>
      obtain ⟨restored, sends, acked, kept, length⟩ := post
      exact ⟨sends.once nodup, sends.bounded, ⟨gen, List.prefix_rfl, sends⟩, restored,
        fun _ _ => acked, fun _ _ => kept.exact distinct acked length⟩
    | error e =>
      obtain ⟨restored, ⟨done, prefix_, sends⟩, kept⟩ := post
      exact ⟨sends.once (prefix_.sublist.nodup nodup), sends.bounded, ⟨done, prefix_, sends⟩,
        restored, nofun, nofun⟩

end Loading

/-! ### A load of two documents -/

section Sample
attribute [local instance] reference

/-- A server that carries out what it acknowledges, and answers Bulk requests as the script says. -/
def scripted (idOf : Record → Str) : Oracle (server idOf) (List (Except Raised Value)) where
  answer x s script :=
    match x with
    | .bulk records =>
      let reply := script.headD (.error .interrupt)
      (reply, { s with
        docs := store idOf s.docs (Exchange.acked ⟨records, reply⟩)
        log := s.log ++ [⟨records, reply⟩] }, script.tail)
    | .settings => (.ok none, { s with told := s.told ++ [none] }, script)
    | .setRefresh interval => (.ok (), { s with asked := s.asked ++ [interval] }, script)
    | .refresh => (.ok (.dict []), s, script)
    | .count => (.ok (.ofFields [("count", .int s.docs.length)]), s, script)
    | .sleep d => if 0 ≤ d then (.ok (), s, script) else (.error (.failure .other), s, script)
    | .write _ => (.ok (), s, script)
    | .signature => (.ok [], s, script)
  does x s script := by
    cases x with
    | bulk records => exact .bulk _ _ (fun _ m => mem_acked m) fun _ m => m
    | settings => exact .settings none
    | setRefresh interval => exact .setRefresh _
    | refresh => exact .refresh _
    | count =>
      refine .count _ fun n read => ?_
      rw [item_cons_self] at read
      cases read
      rw [eq_int, decide_eq_true_eq]
    | sleep d =>
      dsimp only
      split
      · exact .sleep ‹_›
      · exact .fails _ (fun _ _ => ⟨nofun, nofun⟩)
    | write r => exact .write
    | signature => exact .signature []

/-- Two documents, which their action lines tell apart. -/
def two : List Record := [⟨[49], [123, 125]⟩, ⟨[50], [123, 125]⟩]

/-- The one-character id in an action line. -/
def lineId (r : Record) : Str := r.action.map UInt8.toNat

/-- Both documents in one batch, and four further attempts. -/
def arguments : Arguments := ⟨500, 4, 4, true, false, by decide⟩

/-- The first document is stored at once, the second one after it was put off. -/
def answers : List (Except Raised Value) :=
  let item (status : Int) : Value := .ofFields [("index", .ofFields [("status", .int status)])]
  [.ok (.ofFields [("items", .list [item 201, item 429])]),
    .ok (.ofFields [("items", .list [item 200])])]

/-- The load of the two documents returns after two requests. -/
theorem bulk_delivery_two :
    ∃ l s, (server lineId).Ran (seedIndex arguments two) ⟨[], [], [], []⟩ (.ok l) s ∧
      s.log.length = 2 ∧ Loads lineId two arguments (.ok l) s := by
  let end_ := (scripted lineId).run (seedIndex arguments two) ⟨[], [], [], []⟩ answers
  have ran := (scripted lineId).run_ran (seedIndex arguments two) ⟨[], [], [], []⟩ answers
  have test : passes end_.1 (fun l => l.totals.count = 2) = true := by decide +kernel
  have requests : end_.2.1.log.length = 2 := by decide +kernel
  obtain ⟨l, ok, _⟩ := ok_of_test test
  change (server lineId).Ran _ _ end_.1 _ at ran
  rw [ok] at ran
  exact ⟨l, _, ran, requests,
    (bulk_delivery lineId two (by decide)).load [] arguments _ _ List.nodup_nil rfl ran⟩

end Sample

end DbLab.Seed.Bulk
