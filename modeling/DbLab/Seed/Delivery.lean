import DbLab.Seed.Bulk
import DbLab.Py.Equality

/-!
# What a load of the seed data comes to

The index always holds what was acknowledged, since every write of an id writes the one document
that has it. The attempts of a batch keep apart the records that were acknowledged and those that
are left, and the batches are consecutive parts of the documents.
-/

namespace DbLab.Seed.Bulk
open DbLab.Py DbLab.Proc Relation
open DbLab.Bench.Elastic (getOr elements successful)

/-! ### The index -/

section Index
variable {idOf : Record → Str} {gen applied : List Record} {docs : List (Str × Bytes)} {r : Record}

/-- Storing keeps the ids distinct. -/
lemma store_nodup (nd : (docs.map Prod.fst).Nodup) :
    ((store idOf docs applied).map Prod.fst).Nodup := by
  induction applied generalizing docs with
  | nil => exact nd
  | cons a applied ih => exact ih (insertKey_nodup nd)

/-- Another document is as before. -/
lemma lookup_store_other {k : Str} (other : k ∉ applied.map idOf) :
    lookup k (store idOf docs applied) = lookup k docs := by
  induction applied generalizing docs with
  | nil => rfl
  | cons a applied ih =>
    rw [List.map_cons, List.mem_cons, not_or] at other
    exact (ih other.2).trans (lookup_insertKey_ne (Ne.symm other.1))

/-- Documents with distinct ids are told apart by them. -/
lemma same_of_id (distinct : (gen.map idOf).Nodup) {a b : Record} (ma : a ∈ gen) (mb : b ∈ gen)
    (same : idOf a = idOf b) :
    a = b := List.inj_on_of_nodup_map distinct ma mb same

/-- A document that is stored stays. -/
lemma lookup_store_keep (distinct : (gen.map idOf).Nodup) (sub : ∀ a ∈ applied, a ∈ gen)
    (mem : r ∈ gen)
    (held : lookup (idOf r) docs = some r.source) :
    lookup (idOf r) (store idOf docs applied) = some r.source := by
  induction applied generalizing docs with
  | nil => exact held
  | cons a applied ih =>
    refine ih (fun b m => sub b (List.mem_cons_of_mem _ m)) ?_
    by_cases same : idOf a = idOf r
    · rw [same_of_id distinct (sub a List.mem_cons_self) mem same]
      exact lookup_insertKey_self
    · rw [lookup_insertKey_ne same, held]

/-- A document that is written is stored. -/
lemma lookup_store_mem (distinct : (gen.map idOf).Nodup) (sub : ∀ a ∈ applied, a ∈ gen)
    (mem : r ∈ applied) :
    lookup (idOf r) (store idOf docs applied) = some r.source := by
  induction applied generalizing docs with
  | nil => cases mem
  | cons a applied ih =>
    have rest : ∀ b ∈ applied, b ∈ gen := fun b m => sub b (List.mem_cons_of_mem _ m)
    rcases List.mem_cons.1 mem with rfl | m
    · show lookup (idOf r) (store idOf (insertKey (idOf r) r.source docs) applied) = some r.source
      exact lookup_store_keep distinct rest (sub r List.mem_cons_self) lookup_insertKey_self
    · exact ih rest m

end Index

section Delivery
variable [Interpreter]

/-! ### Replies -/

/-- A status that is worth another attempt is no success. -/
lemma successful_retryable {status : Value} {n : Int} (listed : n ∈ retryable)
    (same : status.eq (.int n) = true) :
    successful status = .ok false := by
  obtain ⟨a, num, view⟩ := eq_int_iff.1 same
  have low : (Value.int 200).le status = .ok (decide ((200 : Rat) ≤ n)) := by
    rw [Value.le, num]
    show Except.ok (Num.le (.int 200) a) = _
    rw [Num.le, view]
    rfl
  have high : status.lt (.int 300) = .ok ((decide ((n : Rat) ≤ 300)) &&
      !decide ((n : Rat) = 300)) := by
    rw [Value.lt, num]
    show Except.ok (a.view.lt (.finite 300)) = _
    rw [view]
    rfl
  rw [successful, low, high]
  have big : ¬ (n : Rat) ≤ 300 := by
    rw [not_le]
    have large : (300 : Int) < n := (by decide : ∀ m ∈ retryable, (300 : Int) < m) n listed
    exact_mod_cast large
  rw [decide_eq_false big, ok_bind]
  split <;> rfl

/-- What an item that is passed over, or sent again, tells of its status. -/
lemma outcome_created {item : Value} {o : Outcome} (h : outcome item = .ok o) :
    match o with
    | .stored => created item = true
    | .retry => created item = false
    | .fatal _ => True := by
  obtain ⟨⟨operation, status⟩, read, h⟩ := bind_ok.1 h
  obtain ⟨good, success, h⟩ := bind_ok.1 h
  obtain ⟨error, _, h⟩ := bind_ok.1 h
  have told : created item = good := by
    rw [created, read, ok_bind, success]
    rfl
  split at h
  · rename_i both
    cases h
    rw [told]
    exact (Bool.and_eq_true_iff.1 both).1
  · split at h
    · rename_i again
      cases h
      obtain ⟨n, m, same⟩ := List.any_eq_true.1 again
      rw [successful_retryable m same] at success
      rw [told]
      exact (Except.ok.inj success).symm
    · cases h
      trivial

/-- The first record is acknowledged or not. -/
lemma acks_cons {r : Record} {pending : List Record} {item : Value} {items : List Value} :
    acks (r :: pending) (item :: items) = if created item then r :: acks pending items
      else acks pending items := by
  rw [acks, List.zip_cons_cons, List.filterMap_cons]
  cases created item <;> rfl

/-- What is acknowledged was sent. -/
lemma mem_acks {records : List Record} {items : List Value} {r : Record}
    (m : r ∈ acks records items) : r ∈ records := by
  obtain ⟨⟨a, item⟩, pair, same⟩ := List.mem_filterMap.1 m
  dsimp only at same
  split at same
  · cases same
    exact (List.of_mem_zip pair).1
  · cases same

/-- What an exchange acknowledges it sent. -/
lemma mem_acked {e : Exchange} {r : Record} (m : r ∈ e.acked) : r ∈ e.records := by
  rw [Exchange.acked] at m
  split at m
  · split at m
    · split at m
      · exact mem_acks m
      · cases m
    · cases m
  · cases m

/-- The items part the records into those they acknowledge and those that are sent again. -/
structure Parts (pending acked rest : List Record) : Prop where
  sub : rest.Sublist pending
  cover : ∀ r ∈ pending, r ∈ acked ∨ r ∈ rest
  apart : pending.Nodup → ∀ r ∈ acked, r ∉ rest

/-- The records are acknowledged or left over. -/
lemma parts_of_outcomes {pending : List Record} {items : List Value} {outcomes : List Outcome}
    (length : items.length = pending.length)
    (each : List.Forall₂ (fun i o => outcome i = .ok o) items outcomes)
    (fine : fatals outcomes = []) :
    Parts pending (acks pending items) (retries pending outcomes) := by
  induction each generalizing pending with
  | nil =>
    obtain rfl := List.length_eq_zero_iff.1 length.symm
    exact ⟨.slnil, nofun, fun _ => nofun⟩
  | @cons item o items outcomes head _ ih =>
    cases pending with
    | nil => cases length
    | cons r pending =>
      have length : items.length = pending.length := Nat.succ.inj length
      cases o with
      | stored =>
        have told : created item = true := outcome_created head
        have parts := ih length fine
        rw [acks_cons, if_pos told]
        refine ⟨parts.sub.cons r, ?_, ?_⟩
        · intro a m
          rcases List.mem_cons.1 m with rfl | m
          · exact .inl List.mem_cons_self
          · exact (parts.cover a m).imp (List.mem_cons_of_mem _) id
        · intro nd a m again
          rcases List.mem_cons.1 m with rfl | m
          · exact (List.nodup_cons.1 nd).1 (parts.sub.subset again)
          · exact parts.apart (List.nodup_cons.1 nd).2 a m again
      | retry =>
        have told : created item = false := outcome_created head
        have parts := ih length fine
        rw [acks_cons, if_neg (told ▸ Bool.false_ne_true)]
        refine ⟨parts.sub.cons_cons r, ?_, ?_⟩
        · intro a m
          rcases List.mem_cons.1 m with rfl | m
          · exact .inr List.mem_cons_self
          · exact (parts.cover a m).imp id (List.mem_cons_of_mem _)
        · intro nd a m again
          rcases List.mem_cons.1 again with rfl | again
          · exact (List.nodup_cons.1 nd).1 (mem_acks m)
          · exact parts.apart (List.nodup_cons.1 nd).2 a m again
      | fatal operation => cases fine

/-- Items that can be gone through are those of a list. -/
lemma elements_list {v : Value} {items : List Value} {outcomes : List Outcome}
    (listed : elements v = .ok items)
    (each : List.Forall₂ (fun i o => outcome i = .ok o) items outcomes) (some_ : items ≠ []) :
    v = .list items := by
  have text (s : Str) : ∀ o, outcome (.str s) ≠ .ok o := nofun
  cases v with
  | list xs => exact congrArg _ (Except.ok.inj listed)
  | str s =>
    obtain rfl := Except.ok.inj listed
    cases s with
    | nil => exact absurd rfl some_
    | cons c s =>
      cases each with
      | cons head _ => exact absurd head (text _ _)
  | dict ms =>
    obtain rfl := Except.ok.inj listed
    cases ms with
    | nil => exact absurd rfl some_
    | cons m ms =>
      cases each with
      | cons head _ => exact absurd head (text _ _)
  | _ => cases listed

/-- What is left of a batch whose reply has been gone through. -/
lemma settle_parts {pending rest : List Record} {reply : Value}
    (h : settle pending reply = .ok rest) :
    Parts pending (Exchange.acked ⟨pending, .ok reply⟩) rest := by
  obtain ⟨v, got, h⟩ := bind_ok.1 h
  obtain ⟨items, listed, h⟩ := bind_ok.1 h
  split at h
  · cases h
  · rename_i length
    rw [not_not] at length
    obtain ⟨outcomes, run, h⟩ := bind_ok.1 h
    have each := mapM_eq_ok (mapError_ok.1 run)
    split at h
    · rename_i fine
      cases h
      have parts := parts_of_outcomes length each (List.isEmpty_iff.1 fine)
      cases pending with
      | nil => exact ⟨parts.sub, nofun, fun _ r m => absurd (mem_acked m) List.not_mem_nil⟩
      | cons r pending =>
        have some_ : items ≠ [] := fun none => by
          rw [none] at length
          cases length
        obtain rfl := elements_list (mapError_ok.1 listed) each some_
        have acked : Exchange.acked ⟨r :: pending, .ok reply⟩ = acks (r :: pending) items := by
          cases reply with
          | dict ms =>
            have found : (lookup (str "items") ms).getD (.list []) = .list items :=
              Except.ok.inj (mapError_ok.1 got)
            cases known : lookup (str "items") ms with
            | none =>
              rw [known] at found
              exact absurd (Value.list.inj found).symm some_
            | some w =>
              rw [known] at found
              obtain rfl : w = .list items := found
              rw [Exchange.acked]
              simp only [known, if_pos length]
          | _ => cases got
        rw [acked]
        exact parts
    · obtain ⟨_, _, h⟩ := bind_ok.1 h
      cases h

/-! ### What is kept -/

/-- What holds of the index and of the requests while the documents `gen` are sent to an index that
held `before`. -/
structure Kept (idOf : Record → Str) (gen : List Record) (before : List (Str × Bytes))
    (s : State) : Prop where
  ours : ∀ e ∈ s.log, ∀ r ∈ e.records, r ∈ gen
  nodup : (s.docs.map Prod.fst).Nodup
  stored : ∀ e ∈ s.log, ∀ r ∈ e.acked, lookup (idOf r) s.docs = some r.source
  others : ∀ k, k ∉ gen.map idOf → lookup k s.docs = lookup k before

/-- A state with these requests, intervals and answers. -/
structure At (idOf : Record → Str) (gen : List Record) (before : List (Str × Bytes))
    (log : List Exchange) (asked : List Str)
    (told : List (Option Str)) (s : State) : Prop where
  kept : Kept idOf gen before s
  log_eq : s.log = log
  asked_eq : s.asked = asked
  told_eq : s.told = told

variable {idOf : Record → Str} {gen : List Record} {before : List (Str × Bytes)}
  {log es : List Exchange} {asked : List Str}
  {told : List (Option Str)} {s s' : State}

omit [Interpreter] in
/-- An id outside is not applied. -/
lemma not_mem_ids {applied : List Record} (sub : ∀ r ∈ applied, r ∈ gen) {k : Str}
    (other : k ∉ gen.map idOf) :
    k ∉ applied.map idOf := by
  intro m
  obtain ⟨r, mr, same⟩ := List.mem_map.1 m
  exact other (List.mem_map.2 ⟨r, sub r mr, same⟩)

/-- What is carried out later changes nothing. -/
lemma At.late (distinct : (gen.map idOf).Nodup) (h : At idOf gen before log asked told s)
    (late : Late idOf s s') :
    At idOf gen before log asked told s' := by
  obtain ⟨applied, sent, rfl⟩ := late
  have sub : ∀ r ∈ applied, r ∈ gen := fun r m => by
    obtain ⟨e, me, mr⟩ := sent r m
    exact h.kept.ours e me r mr
  refine ⟨⟨h.kept.ours, store_nodup h.kept.nodup, ?_, ?_⟩, h.log_eq, h.asked_eq, h.told_eq⟩
  · exact fun e me r mr =>
      lookup_store_keep distinct sub (h.kept.ours e me r (mem_acked mr)) (h.kept.stored e me r mr)
  · exact fun k other => (lookup_store_other (not_mem_ids sub other)).trans (h.kept.others k other)

/-- A request that is carried out, and how it was answered. -/
lemma At.sent (distinct : (gen.map idOf).Nodup) (h : At idOf gen before log asked told s)
    {pending applied : List Record}
    {reply : Except Raised Value} (ours : ∀ r ∈ pending, r ∈ gen) (sub : ∀ r ∈ applied, r ∈ pending)
    (acked : ∀ r ∈ Exchange.acked ⟨pending, reply⟩, r ∈ applied) :
    At idOf gen before (log ++ [⟨pending, reply⟩]) asked told
      { s with docs := store idOf s.docs applied, log := s.log ++ [⟨pending, reply⟩] } := by
  have within : ∀ r ∈ applied, r ∈ gen := fun r m => ours r (sub r m)
  refine ⟨⟨?_, store_nodup h.kept.nodup, ?_, ?_⟩, congrArg (· ++ _) h.log_eq, h.asked_eq, h.told_eq⟩
  · intro e me
    cases List.mem_append.1 me with
    | inl me => exact h.kept.ours e me
    | inr me => exact List.mem_singleton.1 me ▸ ours
  · intro e me r mr
    cases List.mem_append.1 me with
    | inl me =>
      exact lookup_store_keep distinct within (h.kept.ours e me r (mem_acked mr))
        (h.kept.stored e me r mr)
    | inr me =>
      obtain rfl := List.mem_singleton.1 me
      exact lookup_store_mem distinct within (acked r mr)
  · exact fun k other =>
      (lookup_store_other (not_mem_ids within other)).trans (h.kept.others k other)

/-! ### Calls -/

/-- The weakest precondition of a method. -/
abbrev wp {α : Type} (idOf : Record → Str) (Q : α → State → Prop) (E : Raised → State → Prop)
    (m : Method α) : State → Prop :=
  (server idOf).wp (fun _ => True) Q E m

section Calls
variable {α : Type}

/-- One call in such a state, which the server may have left for another one by then. -/
lemma ask_wp (distinct : (gen.map idOf).Nodup) {x : Call} {Q : x.Result → State → Prop}
    {E : Raised → State → Prop}
    (h : At idOf gen before log asked told s)
    (ok : ∀ s₁ a s', At idOf gen before log asked told s₁ → Does idOf x s₁ (.ok a) s' → Q a s')
    (error : ∀ s₁ e s', At idOf gen before log asked told s₁ →
      Does idOf x s₁ (.error e) s' → E e s') :
    wp idOf Q E (ask x) s := by
  refine World.wp_ask fun s₁ drift r s' does => ⟨trivial, ?_⟩
  have known : At idOf gen before log asked told s₁ :=
    drifts_many (W := server idOf) (fun h late => At.late distinct h late) drift h
  cases r with
  | ok a => exact ok s₁ a s' known does
  | error e => exact error s₁ e s' known does

/-- A plain computation. -/
lemma lift_wp {x : Except Failure α} {Q : α → State → Prop} {E : Raised → State → Prop}
    (ok : ∀ a, x = .ok a → Q a s)
    (error : ∀ e, E e s) : wp idOf Q E (lift x) s :=
  World.wp_ofExcept (fun a same => ok a (mapError_ok.1 same)) fun e _ => error e

/-- An attempt keeps its failure. -/
lemma attempt_wp {m : Method α} {Q : Except Failure α → State → Prop} {E : Raised → State → Prop}
    (h : wp idOf (fun a => Q (.ok a))
      (fun e s' => match e with | .failure f => Q (.error f) s' | e => E e s') m s) :
    wp idOf Q E (attempt m) s := by
  refine (World.wp_handle _ _).2 ((World.wp_bind _ _).2 (World.wp_mono h (fun a s' q => q) ?_))
  intro e s' q
  cases e with
  | failure f => exact q
  | interrupt => exact q

end Calls

/-! ### A batch -/

/-- What the requests of a batch are: parts of it, without what was acknowledged before. -/
structure Delivery (records : List Record) (es : List Exchange) : Prop where
  within : ∀ e ∈ es, e.records.Sublist records
  once : es.Pairwise fun e e' => ∀ r ∈ e.acked, r ∉ e'.records

/-- Where the attempts stand: what is pending is what was not acknowledged. -/
structure Tries (records : List Record) (es : List Exchange) (pending : List Record) :
    Prop extends Delivery records es where
  sub : pending.Sublist records
  cover : ∀ r ∈ records, r ∈ pending ∨ ∃ e ∈ es, r ∈ e.acked
  apart : ∀ e ∈ es, ∀ r ∈ e.acked, r ∉ pending

variable {records pending : List Record}

/-- A batch before its first try. -/
lemma Tries.start : Tries records [] records :=
  ⟨⟨nofun, .nil⟩, .refl _, fun _ m => .inl m, nofun⟩

/-- A batch after one more try. -/
lemma Tries.send (h : Tries records es pending) (reply : Except Raised Value) :
    Delivery records (es ++ [⟨pending, reply⟩]) := by
  constructor
  · intro e me
    cases List.mem_append.1 me with
    | inl me => exact h.within e me
    | inr me => exact List.mem_singleton.1 me ▸ h.sub
  · refine List.pairwise_append.2 ⟨h.once, List.pairwise_singleton _ _, fun e me e' me' => ?_⟩
    obtain rfl := List.mem_singleton.1 me'
    exact h.apart e me

/-- What a try left over is to try next. -/
lemma Tries.next (h : Tries records es pending) (nodup : records.Nodup)
    {reply : Except Raised Value} {rest : List Record}
    (parts : Parts pending (Exchange.acked ⟨pending, reply⟩) rest) :
    Tries records (es ++ [⟨pending, reply⟩]) rest := by
  refine ⟨h.send reply, parts.sub.trans h.sub, ?_, ?_⟩
  · intro r m
    rcases h.cover r m with open_ | ⟨e, me, done⟩
    · rcases parts.cover r open_ with done | left
      · exact .inr ⟨_, List.mem_append_right _ (List.mem_singleton_self _), done⟩
      · exact .inl left
    · exact .inr ⟨e, List.mem_append_left _ me, done⟩
  · intro e me r mr left
    cases List.mem_append.1 me with
    | inl me => exact h.apart e me r mr (parts.sub.subset left)
    | inr me =>
      obtain rfl := List.mem_singleton.1 me
      exact parts.apart (h.sub.nodup nodup) r mr left

/-- What a request has left, whether it was answered or not. -/
def Sent.rest : Sent → List Record
  | .done => []
  | .again rest _ => rest

/-- An answer acknowledges some records. -/
lemma received_wp {P : State → Prop} (h : P s) (reply : Value) :
    wp idOf (fun x s' => P s' ∧
      Parts pending (Exchange.acked ⟨pending, .ok reply⟩) x.rest) (fun _ => P)
      (received pending reply) s := by
  refine (World.wp_bind _ _).2 (lift_wp (fun rest run => ?_) fun _ => h)
  have parts := settle_parts run
  split
  · rename_i none
    rw [List.isEmpty_iff.1 none] at parts
    refine (World.wp_bind _ _).2 (lift_wp (fun errors _ => ?_) fun _ => h)
    split
    · exact h
    · exact ⟨h, parts⟩
  · exact ⟨h, parts⟩

/-- No answer acknowledges none. -/
lemma unanswered_wp {P : State → Prop} (h : P s) (e : Raised) (f : Failure) :
    wp idOf (fun x s' => P s' ∧
      Parts pending (Exchange.acked ⟨pending, .error e⟩) x.rest) (fun _ => P)
      (unanswered pending f) s := by
  rw [unanswered]
  cases f.transient with
  | none => exact h
  | some text => exact ⟨h, .refl _, fun r m => .inr m, fun _ => nofun⟩

/-- One attempt: it is one request for what is pending, and leaves what the reply did not
acknowledge. -/
lemma sendOnce_wp (distinct : (gen.map idOf).Nodup) (ours : ∀ r ∈ pending, r ∈ gen)
    (h : At idOf gen before log asked told s) :
    wp idOf (fun x s' => ∃ reply, At idOf gen before (log ++ [⟨pending, reply⟩]) asked told s' ∧
        Parts pending (Exchange.acked ⟨pending, reply⟩) x.rest)
      (fun _ s' => ∃ reply, At idOf gen before (log ++ [⟨pending, reply⟩]) asked told s')
        (sendOnce pending) s := by
  refine (World.wp_bind _ _).2 (attempt_wp (ask_wp distinct h ?_ ?_))
  · intro s₁ reply s' h₁ does
    cases does with
    | bulk _ applied sub acked =>
      refine World.wp_mono (received_wp (h₁.sent distinct ours sub acked) reply) ?_ ?_
      · exact fun x s'' q => ⟨_, q⟩
      · exact fun e s'' q => ⟨_, q⟩
  · intro s₁ e s' h₁ does
    cases does with
    | bulk _ applied sub acked =>
      have sent := h₁.sent distinct ours sub acked
      cases e with
      | interrupt => exact ⟨_, sent⟩
      | failure f =>
        refine World.wp_mono (unanswered_wp sent (.failure f) f) ?_ ?_
        · exact fun x s'' q => ⟨_, q⟩
        · exact fun e s'' q => ⟨_, q⟩
    | fails _ other => exact absurd rfl (other pending []).1

/-- What the attempts of a batch come to. -/
lemma attempts_wp (distinct : (gen.map idOf).Nodup) (ours : ∀ r ∈ records, r ∈ gen)
    (nodup : records.Nodup) (backoff : Rat)
    (total left n : Nat) (tries : Tries records es pending)
    (h : At idOf gen before (log ++ es) asked told s) :
    wp idOf (fun _ s' => ∃ es', es'.length ≤ es.length + left + 1 ∧ Tries records es' [] ∧
        At idOf gen before (log ++ es') asked told s')
      (fun _ s' => ∃ es', es'.length ≤ es.length + left + 1 ∧ Delivery records es' ∧
        At idOf gen before (log ++ es') asked told s')
      (attempts backoff total left n pending) s := by
  induction left generalizing n pending es s with
  | zero =>
    rw [attempts]
    refine (World.wp_bind _ _).2
      (World.wp_mono (sendOnce_wp distinct (fun r m => ours r (tries.sub.subset m)) h) ?_ ?_)
    · intro x s' ⟨reply, here, parts⟩
      rw [List.append_assoc] at here
      cases x with
      | done => exact ⟨_, by simp, tries.next nodup parts, here⟩
      | again rest why => exact ⟨_, by simp, tries.send reply, here⟩
    · intro e s' ⟨reply, here⟩
      rw [List.append_assoc] at here
      exact ⟨_, by simp, tries.send reply, here⟩
  | succ left ih =>
    rw [attempts]
    refine (World.wp_bind _ _).2
      (World.wp_mono (sendOnce_wp distinct (fun r m => ours r (tries.sub.subset m)) h) ?_ ?_)
    · intro x s' ⟨reply, here, parts⟩
      rw [List.append_assoc] at here
      have next := tries.next nodup parts
      have few : (es ++ [(⟨pending, reply⟩ : Exchange)]).length = es.length + 1 := by simp
      cases x with
      | done => exact ⟨_, by omega, next, here⟩
      | again rest why =>
        have givenUp (e : Raised) (s' : State)
          (here : At idOf gen before (log ++ (es ++ [⟨pending, reply⟩])) asked told s') :
            ∃ es', es'.length ≤ es.length + (left + 1) + 1 ∧ Delivery records es' ∧
              At idOf gen before (log ++ es') asked told s' := ⟨_, by omega, next.toDelivery, here⟩
        refine (World.wp_bind _ _).2 (lift_wp (fun seconds _ => ?_) fun e => givenUp e _ here)
        refine (World.wp_bind _ _).2 (ask_wp distinct here ?_ ?_)
        · intro s₁ _ s'' here does
          cases does with
          | sleep positive =>
            refine World.wp_mono (ih (n + 1) next here) ?_ ?_
            · intro _ _ ⟨es', few', rest⟩
              exact ⟨es', by omega, rest⟩
            · intro _ _ ⟨es', few', rest⟩
              exact ⟨es', by omega, rest⟩
        · intro s₁ e s'' here does
          cases does with
          | fails _ other => exact givenUp e _ here
    · intro e s' ⟨reply, here⟩
      rw [List.append_assoc] at here
      exact ⟨_, by simp, tries.send reply, here⟩

/-- What `bulk_send` comes to: the records of a batch are acknowledged, or it raises. -/
lemma bulkSend_wp (distinct : (gen.map idOf).Nodup) (ours : ∀ r ∈ records, r ∈ gen)
    (nodup : records.Nodup) (tries : Int)
    (backoff : Rat) (h : At idOf gen before log asked told s) :
    wp idOf (fun _ s' => ∃ es, es.length ≤ (tries + 1).toNat ∧ Tries records es [] ∧
      At idOf gen before (log ++ es) asked told s')
      (fun _ s' => ∃ es, es.length ≤ (tries + 1).toNat ∧ Delivery records es ∧
        At idOf gen before (log ++ es) asked told s')
      (bulkSend records tries backoff) s := by
  rw [bulkSend]
  have here : At idOf gen before (log ++ []) asked told s := by rwa [List.append_nil]
  split
  · exact ⟨[], Nat.zero_le _, Tries.start.toDelivery, here⟩
  · rename_i natural
    refine World.wp_mono (attempts_wp distinct ours nodup backoff records.length tries.toNat 0
      .start here) ?_ ?_
    · intro _ _ ⟨es, few, rest⟩
      exact ⟨es, by rw [List.length_nil] at few; omega, rest⟩
    · intro _ _ ⟨es, few, rest⟩
      exact ⟨es, by rw [List.length_nil] at few; omega, rest⟩

end Delivery

end DbLab.Seed.Bulk
