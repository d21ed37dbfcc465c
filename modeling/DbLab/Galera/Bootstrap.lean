import DbLab.Py.Exec
import DbLab.Py.Text

/-!
# Where a cluster is started (`lab.select_safe_node`, `lab.select_recovered_node`)

A stopped cluster is started from one node, which must know all that the others have committed. What
the nodes know is in their `grastate.dat` files, and any line of those may be missing.
-/

namespace DbLab.Galera
open DbLab.Py

/-! ### `parse_state` -/

/-- `(uuid|seqno|safe_to_bootstrap):\s*(\S+)` at the front of a text, and how long the match is. -/
def stateEntry (s : Str) : Option (Str × Str × Nat) :=
  [str "uuid", str "seqno", str "safe_to_bootstrap"].findSome? fun key =>
    if (key ++ [58]).isPrefixOf s then
      let rest := s.drop (key.length + 1)
      let value := (rest.dropWhile unicodeSpace).takeWhile fun c => !unicodeSpace c
      if value = [] then none
      else some (key, value, key.length + 1 + (rest.takeWhile unicodeSpace).length + value.length)
    else none

/-- `re.findall` at the line starts; `skip` characters belong to the match before. -/
def stateEntries (start : Bool) (skip : Nat) : Str → List (Str × Str)
  | [] => []
  | c :: s =>
    match skip with
    | skip + 1 => stateEntries (c = 10) skip s
    | 0 =>
      match if start then stateEntry (c :: s) else none with
      | some (key, value, length) => (key, value) :: stateEntries (c = 10) (length - 1) s
      | none => stateEntries (c = 10) 0 s

/-- `values.get(key)`; the last entry of a key counts. -/
def stateValue (entries : List (Str × Str)) (key : Str) : Option Str := entries.reverse.lookup key

/-- What is known of a node. -/
structure NodeState where
  uuid : Option Str
  seqno : Int
  safeToBootstrap : Int
  initialized : Bool
  initComplete : Bool
deriving DecidableEq

section
variable [Unicode]

/-- `dict(parse_state(text), initialized=…, init_complete=…)` -/
def parseState (text : Str) (initialized initComplete : Bool) : Except Exn NodeState := do
  let values := stateEntries true 0 text
  let seqno ← intOfStr ((stateValue values (str "seqno")).getD (str "-1"))
  let safeToBootstrap ← intOfStr ((stateValue values (str "safe_to_bootstrap")).getD (str "0"))
  pure ⟨stateValue values (str "uuid"), seqno, safeToBootstrap, initialized, initComplete⟩

end

/-! ### The selection -/

/-- The states of the nodes, by name. -/
structure States where
  entries : List (Str × NodeState)
  distinct : (entries.map Prod.fst).Nodup

inductive Authorization where
  | authorizeNew
  | authorizeSafe
deriving DecidableEq

/-- `'00000000-0000-0000-0000-000000000000'` -/
def zeroUuid : Str := str "00000000-0000-0000-0000-000000000000"

/-- `bool(s['uuid'])` -/
def NodeState.identified (s : NodeState) : Bool := s.uuid.any (· ≠ [])

/-- `set(states) == set(NODES)` -/
def States.covers (states : States) (nodes : List Str) : Bool :=
  states.entries.all (fun e => e.1 ∈ nodes) && nodes.all fun n => n ∈ states.entries.map Prod.fst

/-- `select_safe_node(states)`, where `NODES` are `nodes`. -/
def selectSafeNode (nodes : List Str) (states : States) : Except String (Str × Authorization) :=
  if !states.covers nodes then
    .error s!"Bootstrap requires state checks on all {nodes.length} active nodes."
  else if !states.entries.any (·.2.initialized) then .ok (str "galera1", .authorizeNew)
  else
    let existing := states.entries.filter (·.2.initialized)
    if existing.any (!·.2.initComplete) then
      .error "Partial initialization detected; inspect logs. No automatic bootstrap."
    else if existing.any (·.2.seqno < 0) then
      .error "An existing node has an unknown position. Recover all positions before bootstrap."
    else
      match existing.filter fun e => e.2.safeToBootstrap = 1 ∧ 0 ≤ e.2.seqno with
      | [(selected, s)] =>
        let ids := (existing.filter fun e => e.2.identified ∧ 0 ≤ e.2.seqno).map (·.2.uuid)
        if ids.dedup.length ≠ 1 ∨ some zeroUuid ∈ ids ∨ s.uuid ∉ ids then
          .error "State UUID mismatch. Refusing to combine different cluster histories."
        else if existing.any (s.seqno < ·.2.seqno) then
          .error "Safe flag conflicts with sequence positions. Run offline recovery."
        else .ok (selected, .authorizeSafe)
      | _ => .error "No unique safe-to-bootstrap node. Run ./lab.sh recover (all nodes stopped)."

/-- `states[n]['seqno']` for the name of a node. -/
def States.seqno (states : States) (n : Str) : Int :=
  ((states.entries.lookup n).map NodeState.seqno).getD 0

/-- `select_recovered_node(states)`, where `NODES` are `nodes`. -/
def selectRecoveredNode (nodes : List Str) (states : States) : Except String Str :=
  if !states.covers nodes ∨ states.entries.any fun e => !e.2.initialized || e.2.seqno < 0 then
    .error s!"Recovery requires valid positions from all {nodes.length} existing nodes."
  else
    let uuids := states.entries.map (·.2.uuid)
    if uuids.dedup.length ≠ 1 ∨ none ∈ uuids ∨ some zeroUuid ∈ uuids then
      .error "Recovered UUIDs differ or are invalid: manual investigation required."
    else
      match @List.argmax Str Int Int.instLinearOrder.toPreorder Int.decLt states.seqno nodes with
      | some n => .ok n
      | none => .error "max() arg is an empty sequence"

/-! ### What a selection is worth -/

/-- A node from which all initialised nodes can be started: they finished their initialisation, they
have its history or a part of it, and it is the only one that says so. -/
structure Authoritative (states : States) (n : Str) (s : NodeState) : Prop where
  mem : (n, s) ∈ states.entries
  initialized : s.initialized = true
  uuid : s.identified = true ∧ s.uuid ≠ some zeroUuid
  complete : ∀ e ∈ states.entries, e.2.initialized = true → e.2.initComplete = true
  same : ∀ e ∈ states.entries, e.2.initialized = true → e.2.uuid = s.uuid
  seqno : ∀ e ∈ states.entries, e.2.initialized = true → 0 ≤ e.2.seqno ∧ e.2.seqno ≤ s.seqno
  alone : ∀ e ∈ states.entries, e.2.initialized = true → (e.2.safeToBootstrap = 1 ↔ e = (n, s))

/-- All nodes share the history of one, or have a part of it. -/
structure Latest (states : States) (n : Str) (s : NodeState) : Prop where
  mem : (n, s) ∈ states.entries
  uuid : s.uuid ≠ none ∧ s.uuid ≠ some zeroUuid
  same : ∀ e ∈ states.entries, e.2.uuid = s.uuid
  seqno : ∀ e ∈ states.entries, e.2.seqno ≤ s.seqno

variable {nodes : List Str} {states : States} {n : Str}

/-- In a list with one element but for repetitions all are equal. -/
lemma eq_of_dedup_length {α : Type} [DecidableEq α] {l : List α} (one : l.dedup.length = 1)
    {a b : α} (ha : a ∈ l)
    (hb : b ∈ l) : a = b := by
  obtain ⟨c, single⟩ := List.length_eq_one_iff.1 one
  have mem : ∀ x ∈ l, x = c := by
    intro x m
    have m := List.mem_dedup.2 m
    rw [single] at m
    exact List.mem_singleton.1 m
  rw [mem a ha, mem b hb]

/-- What was checked of a node that is authorized as safe; the identity of others is compared only
where they have one. -/
structure Checked (states : States) (n : Str) (s : NodeState) : Prop where
  mem : (n, s) ∈ states.entries
  initialized : s.initialized = true
  uuid : s.identified = true ∧ s.uuid ≠ some zeroUuid
  complete : ∀ e ∈ states.entries, e.2.initialized = true → e.2.initComplete = true
  same : ∀ e ∈ states.entries, e.2.initialized = true → e.2.identified = true → e.2.uuid = s.uuid
  seqno : ∀ e ∈ states.entries, e.2.initialized = true → 0 ≤ e.2.seqno ∧ e.2.seqno ≤ s.seqno
  alone : ∀ e ∈ states.entries, e.2.initialized = true → (e.2.safeToBootstrap = 1 ↔ e = (n, s))

/-- A node that is taken as safe has passed the checks. -/
lemma selectSafeNode_checked (h : selectSafeNode nodes states = .ok (n, .authorizeSafe)) :
    ∃ s, Checked states n s := by
  unfold selectSafeNode at h
  split_ifs at h with covers none
  · cases h
  extract_lets existing ids at h
  split_ifs at h with partial_ unknown
  have inits : ∀ e, e ∈ existing ↔ e ∈ states.entries ∧ e.2.initialized = true :=
    fun e => List.mem_filter
  have known : ∀ e ∈ existing, 0 ≤ e.2.seqno := by
    intro e m
    by_contra negative
    exact unknown (List.any_eq_true.2 ⟨e, m, decide_eq_true (not_le.1 negative)⟩)
  split at h
  · rename_i selected s candidates
    split_ifs at h with mismatch behind
    cases h
    have flagged : ∀ e ∈ existing, e.2.safeToBootstrap = 1 ↔ e = (n, s) := by
      intro e m
      have listed : e ∈ [(n, s)] ↔ e ∈ existing ∧ e.2.safeToBootstrap = 1 ∧ 0 ≤ e.2.seqno := by
        rw [← candidates, List.mem_filter, decide_eq_true_iff]
      rw [List.mem_singleton] at listed
      rw [listed]
      exact ⟨fun safe => ⟨m, safe, known e m⟩, fun safe => safe.2.1⟩
    have first : (n, s) ∈ existing :=
      (List.mem_filter.1 (candidates ▸ List.mem_singleton.2 rfl : (n, s) ∈ existing.filter _)).1
    have mem := (inits _).1 first
    obtain ⟨one, nonzero, own⟩ := not_or.1 mismatch |>.imp not_not.1 not_or.1
    have own := not_not.1 own
    have identities : ∀ u, u ∈ ids ↔ ∃ e ∈ existing, e.2.identified = true ∧ e.2.uuid = u := by
      intro u
      simp only [ids, List.mem_map, List.mem_filter, decide_eq_true_iff]
      exact ⟨fun ⟨e, ⟨m, i, _⟩, u⟩ => ⟨e, m, i, u⟩, fun ⟨e, m, i, u⟩ => ⟨e, ⟨m, i, known e m⟩, u⟩⟩
    refine ⟨s, mem.1, mem.2, ⟨?_, fun zero => nonzero (zero ▸ own)⟩, ?_, ?_, ?_, ?_⟩
    · obtain ⟨e, _, i, same⟩ := (identities _).1 own
      rwa [NodeState.identified, ← same]
    · intro e m i
      by_contra incomplete
      exact partial_ (List.any_eq_true.2 ⟨e, (inits e).2 ⟨m, i⟩, by simpa using incomplete⟩)
    · intro e m i identified
      exact eq_of_dedup_length one ((identities _).2 ⟨e, (inits e).2 ⟨m, i⟩, identified, rfl⟩) own
    · intro e m i
      refine ⟨known e ((inits e).2 ⟨m, i⟩), ?_⟩
      by_contra later
      exact behind (List.any_eq_true.2 ⟨e, (inits e).2 ⟨m, i⟩, decide_eq_true (not_le.1 later)⟩)
    · exact fun e m i => flagged e ((inits e).2 ⟨m, i⟩)
  · cases h

/-- Every entry is found under its name. -/
lemma lookup_of_mem {entries : List (Str × NodeState)} (distinct : (entries.map Prod.fst).Nodup)
    {e : Str × NodeState}
    (m : e ∈ entries) : entries.lookup e.1 = some e.2 := by
  induction entries with
  | nil => cases m
  | cons d entries ih =>
    obtain ⟨new, distinct⟩ := List.nodup_cons.1 distinct
    rcases List.mem_cons.1 m with rfl | m
    · exact List.lookup_cons_self
    · have other : (e.1 == d.1) = false := by
        rw [beq_eq_false_iff_ne]
        intro same
        exact new (same ▸ List.mem_map_of_mem m)
      rw [List.lookup_cons, other]
      exact ih distinct m

/-- The position of an entry. -/
lemma States.seqno_eq {e : Str × NodeState} (m : e ∈ states.entries) :
    states.seqno e.1 = e.2.seqno := by
  rw [seqno, lookup_of_mem states.distinct m]
  rfl

/-- The states are those of the nodes, no more and no fewer. -/
lemma States.covers_mem (h : states.covers nodes = true) :
    (∀ e ∈ states.entries, e.1 ∈ nodes) ∧ ∀ n ∈ nodes, ∃ s, (n, s) ∈ states.entries := by
  obtain ⟨named, checked⟩ := Bool.and_eq_true_iff.1 h
  refine ⟨fun e m => by simpa using List.all_eq_true.1 named e m, fun n m => ?_⟩
  have known := List.all_eq_true.1 checked n m
  obtain ⟨e, mem, rfl⟩ := List.mem_map.1 (of_decide_eq_true known)
  exact ⟨e.2, mem⟩

/-- The node that is recovered has the latest position. -/
lemma selectRecoveredNode_latest (h : selectRecoveredNode nodes states = .ok n) :
    ∃ s, Latest states n s := by
  unfold selectRecoveredNode at h
  split_ifs at h with refused
  extract_lets uuids at h
  split_ifs at h with mismatch
  obtain ⟨covers, valid⟩ := not_or.1 refused
  obtain ⟨named, checked⟩ := States.covers_mem (by simpa using covers)
  obtain ⟨one, nonzero⟩ := not_or.1 mismatch |>.imp not_not.1 not_or.1
  have identities : ∀ e ∈ states.entries, e.2.uuid ∈ uuids := fun e m => List.mem_map_of_mem m
  split at h
  · rename_i m best
    cases h
    obtain ⟨s, mem⟩ := checked n (List.argmax_mem best)
    refine ⟨s, mem, ⟨fun none => nonzero.1 (none ▸ identities _ mem),
      fun zero =>
        nonzero.2 (zero ▸ identities _ mem)⟩, fun e m => eq_of_dedup_length one (identities e m)
          (identities _ mem), fun e m => ?_⟩
    have most := List.le_of_mem_argmax (named e m) best
    rwa [States.seqno_eq m, States.seqno_eq mem] at most
  · cases h

/-- A new cluster is begun only where no node was ever initialized. -/
lemma selectSafeNode_new (h : selectSafeNode nodes states = .ok (n, .authorizeNew)) :
    ∀ e ∈ states.entries, e.2.initialized = false := by
  unfold selectSafeNode at h
  split_ifs at h with covers none
  · intro e m
    by_contra initialized
    rw [Bool.not_eq_true', ← Bool.not_eq_true, List.any_eq_true] at none
    exact none ⟨e, m, by simpa using initialized⟩
  · extract_lets existing ids at h
    split_ifs at h
    split at h
    · split_ifs at h
      cases h
    · cases h

/-- A node that is authorized as safe has the history of all initialised nodes if and only if each
of them has a uuid; the other selections keep what they promise. -/
theorem selections (nodes : List Str) (states : States) (n : Str) :
    (selectSafeNode nodes states = .ok (n, .authorizeSafe) →
      ((∃ s, Authoritative states n s) ↔ ∀ e ∈ states.entries, e.2.initialized = true →
        e.2.identified = true)) ∧
    (selectRecoveredNode nodes states = .ok n → ∃ s, Latest states n s) ∧
    (selectSafeNode nodes states = .ok (n, .authorizeNew) →
      ∀ e ∈ states.entries, e.2.initialized = false) := by
  refine ⟨fun safe => ⟨?_, fun identified => ?_⟩, selectRecoveredNode_latest, selectSafeNode_new⟩
  · rintro ⟨s, h⟩ e m i
    rw [NodeState.identified, h.same e m i]
    exact h.uuid.1
  · obtain ⟨s, h⟩ := selectSafeNode_checked safe
    exact ⟨s, h.mem, h.initialized, h.uuid, h.complete,
      fun e m i => h.same e m i (identified e m i), h.seqno, h.alone⟩

/-! ### Three nodes -/

section Three
attribute [local instance] ascii

def three : List Str := [str "galera1", str "galera2", str "galera3"]

def uuid : Str := str "3f1b6a52-5d7c-11ee-8c99-0242ac120002"

/-- The file of a node that was stopped last has `safe`, and each has the uuid unless the second
lost it. -/
def stopped (lost : Bool) : States where
  entries := [(str "galera1", ⟨some uuid, 7, 1, true, true⟩),
    (str "galera2", ⟨if lost then none else some uuid, 7, 0, true, true⟩),
    (str "galera3", ⟨some uuid, 6, 0, true, true⟩)]
  distinct := (by decide : three.Nodup)

/-- `selections` for three stopped nodes of which one is safe to bootstrap. -/
theorem selections_stopped : ∃ s, Authoritative (stopped false) (str "galera1") s :=
  ((selections three (stopped false) (str "galera1")).1 (by decide +kernel)).2 (by decide +kernel)

/-- A file without a uuid is read as such, and its node escapes the comparison. -/
theorem selection_lost :
    parseState (str "version: 2.1\nseqno: 7\n") true true = .ok ⟨none, 7, 0, true, true⟩ ∧
    selectSafeNode three (stopped true) = .ok (str "galera1", .authorizeSafe) ∧
    ¬∃ s, Authoritative (stopped true) (str "galera1") s := by
  refine ⟨by decide +kernel, by decide +kernel, ?_⟩
  rintro ⟨s, h⟩
  have same := h.same (str "galera2", ⟨none, 7, 0, true, true⟩) (by decide +kernel) rfl
  have identified := h.uuid.1
  rw [NodeState.identified, ← same] at identified
  cases identified

end Three

end DbLab.Galera
