import DbLab.Mvp.Quarantine
import DbLab.Py.Float
import DbLab.Py.Nesting

/-!
# The envelope codec (`quarantine_record`, `checked_quarantine`)

What `checked_quarantine` accepts is what `quarantine_record` makes for a position whose partition
equals zero. That does not make the partition the integer: `False` and `0.0` equal it too, and each
is written in its own way.
-/

namespace DbLab.Mvp.Message
open DbLab.Py

section
variable [Interpreter]

/-- A position in the topic of the scope, with anything for its partition. -/
def positionOf (scope : Scope) (partition : Value) (offset : Int) : Fields :=
  [(str "topic", .str scope.topic), (str "partition", partition), (str "offset", .int offset)]

/-- The position with partition zero is the processor's own. -/
lemma positionOf_zero (scope : Scope) (offset : Int) :
    positionOf scope (.int 0) offset = ownRecord scope offset := rfl

variable {scope : Scope} {topicId : Str} {key raw : Bytes} {record reason expected : Value}

/-- What a record is made of. -/
lemma quarantineRecord_inv {position : Fields}
    (h : quarantineRecord scope topicId position (some key) (some raw) reason = .ok expected) :
    ownPosition scope topicId position = true ∧ raw.length ≤ maxMessage ∧ key.length ≤ 128 ∧
      ∃ identity, canonical (identityOf scope (sourceOf topicId position) key raw) = .ok identity ∧
        expected = envelopeOf scope (digest identity) (sourceOf topicId position) key
          raw reason := by
  unfold quarantineRecord at h
  split at h
  · cases h
  · rename_i own
    rw [Bool.not_eq_true, Bool.not_eq_false'] at own
    split at h
    · cases h
    · rename_i same
      cases same
      dsimp only at h
      split at h
      · cases h
      rename_i small
      split at h
      · cases h
      rename_i short
      obtain ⟨identity, text, h⟩ := bind_ok.1 h
      cases h
      exact ⟨own, Nat.not_lt.1 small, Nat.not_lt.1 short, identity, text, rfl⟩

/-- What the processor's own position is. -/
lemma ownPosition_inv {position : Fields} (h : ownPosition scope topicId position = true) :
    topicId ≠ [] ∧ Fields.getD position "topic" .null = .str scope.topic ∧
      (Fields.getD position "partition" .null).eq (.int 0) = true ∧
      ∃ offset, 0 ≤ offset ∧ Fields.getD position "offset" .null = .int offset := by
  simp only [ownPosition, Bool.and_eq_true, Bool.not_eq_true', List.isEmpty_eq_false_iff] at h
  obtain ⟨⟨⟨some, topic⟩, partition⟩, offset⟩ := h
  refine ⟨some, eq_str_iff.1 topic, partition, ?_⟩
  split at offset
  · exact ⟨_, of_decide_eq_true offset, ‹_›⟩
  · cases offset

/-- What has been checked is a record that `quarantine_record` makes for a partition that equals
zero. -/
theorem checkedQuarantine_inv (h : checkedQuarantine record scope topicId = .ok (key, raw)) :
    ∃ ms ss partition offset reason expected b, record = .dict ms ∧
      lookup (str "source") ms = some (.dict ss) ∧ lookup (str "partition") ss = some partition ∧
        lookup (str "offset") ss = some (.int offset) ∧
      lookup (str "reason") ms = some reason ∧ topicId ≠ [] ∧
        partition.eq (.int 0) = true ∧ 0 ≤ offset ∧
      quarantineRecord scope topicId (positionOf scope partition offset) (some key)
        (some raw) reason = .ok expected ∧
      canonical expected = .ok b ∧ canonical record = .ok b := by
  unfold checkedQuarantine at h
  split at h
  · rename_i ms
    split at h
    · cases h
    obtain ⟨⟨key', raw', expected⟩, built, h⟩ := bind_ok.1 h
    rw [mapError_ok] at built
    obtain ⟨b, written, h⟩ := bind_ok.1 h
    obtain ⟨b', written', h⟩ := bind_ok.1 h
    split at h
    · cases h
    rename_i texts
    rw [not_not] at texts
    cases h
    obtain ⟨raw64, hraw, built⟩ := bind_ok.1 built
    obtain ⟨raw, draw, built⟩ := bind_ok.1 built
    obtain ⟨key64, hkey, built⟩ := bind_ok.1 built
    obtain ⟨key, dkey, built⟩ := bind_ok.1 built
    obtain ⟨source, hsource, built⟩ := bind_ok.1 built
    obtain ⟨topic, htopic, built⟩ := bind_ok.1 built
    obtain ⟨partition, hpartition, built⟩ := bind_ok.1 built
    obtain ⟨offset, hoffset, built⟩ := bind_ok.1 built
    obtain ⟨reason, hreason, built⟩ := bind_ok.1 built
    obtain ⟨expected, made, built⟩ := bind_ok.1 built
    cases built
    obtain ⟨_, e, source⟩ := item_ok.1 hsource
    cases e
    obtain ⟨ss, rfl, _⟩ := item_ok.1 htopic
    obtain ⟨_, e, partitionOf⟩ := item_ok.1 hpartition
    cases e
    obtain ⟨_, e, offsetOf⟩ := item_ok.1 hoffset
    cases e
    obtain ⟨_, e, reasonOf⟩ := item_ok.1 hreason
    cases e
    obtain ⟨own, _⟩ := quarantineRecord_inv made
    obtain ⟨some, same, zero, n, lower, e⟩ := ownPosition_inv own
    have members : topic = .str scope.topic ∧ offset = .int n := ⟨same, e⟩
    obtain ⟨rfl, rfl⟩ := members
    exact ⟨ms, ss, partition, n, reason, expected, b, rfl, source, partitionOf, offsetOf, reasonOf,
      some, zero, lower, made, written, texts ▸ written'⟩
  · cases h

/-- Values that differ in the order of members at most. -/
def SameRecord (v w : Value) : Prop := v.reorder canonicalDump = w.reorder canonicalDump

/-- Values with one canonical text are the same but for the order of members. -/
lemma canonical_same {d e : Nat} {v w : Value} {b : Bytes} (hv : Legible d v) (hw : Legible e w)
    (dv : d ≤ Interpreter.recursionLimit) (dw : e ≤ Interpreter.recursionLimit)
    (h : canonical v = .ok b)
    (h' : canonical w = .ok b) : SameRecord v w := by
  obtain ⟨t, text, bytes⟩ := bind_ok.1 h
  obtain ⟨t', text', bytes'⟩ := bind_ok.1 h'
  cases encode_injective bytes bytes'
  exact hv.reorder_eq hw dv dw canonicalDump (by rw [textOf, textOf, text, text'])

/-- The fields of a source. -/
lemma sourceOf_fields (topicId : Str) (scope : Scope) (partition : Value) (offset : Int) :
    sourceOf topicId (positionOf scope partition offset) = .ofFields [("topic", .str scope.topic),
      ("partition", partition), ("offset", .int offset), ("topic_id", .str topicId)] := rfl

/-- An envelope is tidy if partition and reason are. -/
lemma envelopeOf_tidy {d : Nat} {partition : Value} (offset : Int) (dlqId : Str)
    (hp : Tidy True d partition)
    (hr : Tidy True (d + 1) reason) :
    Tidy True (d + 2) (envelopeOf scope dlqId (sourceOf topicId (positionOf scope partition offset))
      key raw reason) := by
  have source : Tidy True (d + 1) (sourceOf topicId (positionOf scope partition offset)) := by
    rw [sourceOf_fields]
    refine .ofFields (show ["topic", "partition", "offset", "topic_id"].Nodup by decide) fun f m =>
      ?_
    simp only [List.mem_cons, List.not_mem_nil, or_false] at m
    rcases m with rfl | rfl | rfl | rfl
    · exact .str
    · exact hp
    · exact .int
    · exact .str
  refine .ofFields (show ["schema", "run_id", "owner", "dlq_id", "source", "reason",
    "raw_sha256", "raw_b64", "key_b64"].Nodup by decide) fun f m => ?_
  simp only [List.mem_cons, List.not_mem_nil, or_false] at m
  rcases m with rfl | rfl | rfl | rfl | rfl | rfl | rfl | rfl | rfl
  · exact .int
  · exact .str
  · exact .str
  · exact .str
  · exact source
  · exact hr
  · exact .str
  · exact .str
  · exact .str

/-- The partition that a record names. -/
def sourcePartition (record : Value) : Except Exn Value := do
  (← record.item "source").item "partition"

/-- The offset that a record names. -/
def sourceOffset (record : Value) : Except Exn Value := do
  (← record.item "source").item "offset"

/-- A record as `checked_quarantine` accepts it, with what is in it. -/
structure Accepted (scope : Scope) (topicId : Str) (ms : Fields) (key raw : Bytes)
    (partition : Value) (offset : Int)
    (reason : Value) (identity : Bytes) : Prop where
  zero : partition.eq (.int 0) = true
  lower : 0 ≤ offset
  written : canonical (identityOf scope (sourceOf topicId (positionOf scope partition offset)) key
    raw) = .ok identity
  made : quarantineRecord scope topicId (positionOf scope partition offset) (some key)
    (some raw) reason = .ok (envelopeOf scope (digest identity)
      (sourceOf topicId (positionOf scope partition offset)) key raw reason)
  keys : (ms.map Prod.fst).Nodup
  same : SameRecord (.dict ms)
    (envelopeOf scope (digest identity) (sourceOf topicId (positionOf scope partition offset))
      key raw reason)
  reasonOf : lookup (str "reason") ms = some reason
  partitionOf : sourcePartition (.dict ms) = .ok partition
  offsetOf : sourceOffset (.dict ms) = .ok (.int offset)

/-- Every record that is accepted is one that `quarantine_record` makes for its partition. -/
theorem accepted_of_checked (tidy : Tidy True Interpreter.recursionLimit record)
    (h : checkedQuarantine record scope topicId = .ok (key, raw)) :
    ∃ ms partition offset reason identity, record = .dict ms ∧
      Accepted scope topicId ms key raw partition offset reason identity := by
  obtain ⟨ms, ss, partition, offset, reason, expected, b, rfl, source, partitionOf, offsetOf,
    reasonOf, some, zero, lower, made, written, written'⟩ := checkedQuarantine_inv h
  obtain ⟨own, small, short, identity, text, rfl⟩ := quarantineRecord_inv made
  obtain ⟨d, limit⟩ : ∃ d, Interpreter.recursionLimit = d + 2 :=
    ⟨Interpreter.recursionLimit - 2, by have := Interpreter.recursionLimit_ge; omega⟩
  have legible := canonical_legible tidy written'
  rw [limit] at tidy
  cases tidy with
  | dict keys members =>
    have tidySource := members _ (lookup_mem source)
    have tidyReason := members _ (lookup_mem reasonOf)
    cases tidySource with
    | dict keys' members' =>
      have tidyPartition := members' _ (lookup_mem partitionOf)
      have expected :=
        canonical_legible (envelopeOf_tidy offset (digest identity) tidyPartition
          tidyReason) written
      rw [← limit] at expected
      refine ⟨ms, partition, offset, reason, identity, rfl, zero, lower, text, made, keys,
        canonical_same legible expected le_rfl le_rfl written' written, reasonOf, ?_, ?_⟩
      · simp only [sourcePartition, Value.item, source, partitionOf, ok_bind]
      · simp only [sourceOffset, Value.item, source, offsetOf, ok_bind]

/-- Only a text is reordered to a text. -/
lemma reorder_str {v : Value} {s : Str} (h : v.reorder canonicalDump = .str s) : v = .str s := by
  cases v with
  | list xs => cases h
  | dict ms => cases h
  | _ => exact h

/-- Only an integer is reordered to an integer. -/
lemma reorder_int {v : Value} {n : Int} (h : v.reorder canonicalDump = .int n) : v = .int n := by
  cases v with
  | list xs => cases h
  | dict ms => cases h
  | _ => exact h

/-- The members of an envelope. -/
def envelopeMembers (scope : Scope) (dlqId : Str) (source : Value) (key raw : Bytes)
    (reason : Value) : Fields :=
  [(str "schema", .int 1), (str "run_id", .str scope.runId), (str "owner", .str scope.token),
    (str "dlq_id", .str dlqId), (str "source", source), (str "reason", reason),
    (str "raw_sha256", .str (digest raw)), (str "raw_b64", .str (b64encode raw)),
    (str "key_b64", .str (b64encode key))]

/-- The members of an envelope have keys of their own. -/
lemma envelopeMembers_keys (dlqId : Str) (source : Value) :
    ((envelopeMembers scope dlqId source key raw reason).map Prod.fst).Nodup := by
  have names : (envelopeMembers scope dlqId source key raw reason).map Prod.fst =
      ["schema", "run_id", "owner", "dlq_id", "source", "reason", "raw_sha256", "raw_b64",
        "key_b64"].map str := by
    simp [envelopeMembers]
  rw [names]
  exact literals_nodup (by decide)

section Members
variable {ms : Fields} {partition : Value} {offset : Int} {identity : Bytes}

/-- An accepted envelope has the members of the one it was checked against. -/
lemma Accepted.member (h : Accepted scope topicId ms key raw partition offset reason identity)
    (k : Str) :
    (lookup k ms).map (Value.reorder canonicalDump) =
      (lookup k (envelopeMembers scope (digest identity)
        (sourceOf topicId (positionOf scope partition offset)) key raw
        reason)).map (Value.reorder canonicalDump) :=
  lookup_of_reorder h.keys (envelopeMembers_keys _ _) h.same k

/-- The texts among them are the same. -/
lemma Accepted.text (h : Accepted scope topicId ms key raw partition offset reason identity)
    {k s : Str}
    (there : lookup k (envelopeMembers scope (digest identity)
      (sourceOf topicId (positionOf scope partition offset)) key raw
      reason) = some (.str s)) : lookup k ms = some (.str s) := by
  have same := h.member k
  rw [there] at same
  obtain ⟨v, found, e⟩ := Option.map_eq_some_iff.1 same
  rw [found, reorder_str e]

/-- The id of an accepted envelope. -/
lemma Accepted.dlqId (h : Accepted scope topicId ms key raw partition offset reason identity) :
    lookup (str "dlq_id") ms = some (.str (digest identity)) :=
      h.text (by simp [envelopeMembers, lookup])

/-- The message of an accepted envelope. -/
lemma Accepted.raw64 (h : Accepted scope topicId ms key raw partition offset reason identity) :
    lookup (str "raw_b64") ms = some (.str (b64encode raw)) :=
      h.text (by simp [envelopeMembers, lookup])

/-- The key of an accepted envelope. -/
lemma Accepted.key64 (h : Accepted scope topicId ms key raw partition offset reason identity) :
    lookup (str "key_b64") ms = some (.str (b64encode key)) :=
      h.text (by simp [envelopeMembers, lookup])

/-- Sources that differ in the order of members at most have the same offset and partitions of one
text. -/
lemma source_same {partition' : Value} {offset' : Int}
    (same : SameRecord (sourceOf topicId (positionOf scope partition offset))
    (sourceOf topicId (positionOf scope partition' offset'))) : SameRecord partition partition' ∧
      offset = offset' := by
  have keys : ∀ (p : Value) (n : Int),
      ((positionOf scope p n ++ [(str "topic_id", Value.str topicId)]).map Prod.fst).Nodup := by
    intro p n
    have names : (positionOf scope p n ++ [(str "topic_id", Value.str topicId)]).map Prod.fst =
        ["topic", "partition", "offset", "topic_id"].map str := by simp [positionOf]
    rw [names]
    exact literals_nodup (by decide)
  have members := lookup_of_reorder (keys partition offset) (keys partition' offset') same
  have hp := members (str "partition")
  have hn := members (str "offset")
  simp [positionOf, lookup] at hp hn
  exact ⟨hp, by simpa [Value.reorder] using hn⟩

/-- The record is the one of the integer partition exactly if that is what it names. -/
theorem Accepted.partition_iff
    (h : Accepted scope topicId ms key raw partition offset reason identity) :
    (∃ offset' reason' rec, 0 ≤ offset' ∧ (Value.dict ms).item "reason" = .ok reason' ∧
      quarantineRecord scope topicId (ownRecord scope offset') (some key)
        (some raw) reason' = .ok rec ∧
      SameRecord (.dict ms) rec) ↔ sourcePartition (.dict ms) = .ok (.int 0) := by
  rw [h.partitionOf, Except.ok.injEq]
  constructor
  · rintro ⟨offset', reason', rec, _, _, made, same⟩
    obtain ⟨_, _, _, identity', _, rfl⟩ := quarantineRecord_inv made
    rw [← positionOf_zero] at same
    have sources := h.member (str "source")
    rw [lookup_of_reorder h.keys (envelopeMembers_keys _ _) same] at sources
    have one : SameRecord (sourceOf topicId (positionOf scope (.int 0) offset'))
        (sourceOf topicId (positionOf scope partition offset)) := by
      simpa [envelopeMembers, lookup, SameRecord] using sources
    exact reorder_int (source_same one).1.symm
  · rintro rfl
    exact ⟨offset, reason, _, h.lower, item_ok.2 ⟨ms, rfl, h.reasonOf⟩, h.made, h.same⟩

variable {ms' : Fields} {key' raw' identity' : Bytes} {partition' reason' : Value} {offset' : Int}

/-- Records of one identity, key and value differ in their reasons at most. -/
lemma Accepted.one (h : Accepted scope topicId ms key raw partition offset reason identity)
    (h' : Accepted scope topicId ms' key raw partition' offset' reason' identity)
    (source : SameRecord (sourceOf topicId (positionOf scope partition offset))
      (sourceOf topicId (positionOf scope partition' offset'))) {k :
      Str} (other : k ≠ str "reason") :
    (lookup k ms).map (Value.reorder canonicalDump) =
      (lookup k ms').map (Value.reorder canonicalDump) := by
  rw [h.member, h'.member]
  have fields : ∀ (s r : Value),
    (lookup k (envelopeMembers scope (digest identity) s key raw r)).map
      (Value.reorder canonicalDump) = if k = str "source" then some (s.reorder canonicalDump) else
        (lookup k (envelopeMembers scope (digest identity) .null key raw .null)).map
          (Value.reorder canonicalDump) := by
    intro s r
    simp only [envelopeMembers, lookup, if_neg other.symm]
    by_cases at_source : k = str "source"
    · subst at_source
      simp
    · rw [if_neg at_source, if_neg (Ne.symm at_source), if_neg (Ne.symm at_source)]
  unfold SameRecord at source
  rw [fields _ reason, fields _ reason', source]

/-- What equals zero is a number. -/
lemma tidy_zero {v : Value} (zero : v.eq (.int 0) = true) (d : Nat) : Tidy True d v := by
  cases v with
  | bool => exact .bool
  | int => exact .int
  | float => exact .float trivial
  | _ => cases zero

/-- An identity that could be written is legible. -/
lemma written_identity {b : Bytes} (zero : partition.eq (.int 0) = true)
    (written : canonical (identityOf scope (sourceOf topicId (positionOf scope partition offset))
      key raw) = .ok b) :
    Legible 2 (identityOf scope (sourceOf topicId (positionOf scope partition offset))
      key raw) := by
  have source : Tidy True 1 (sourceOf topicId (positionOf scope partition offset)) := by
    rw [sourceOf_fields]
    refine .ofFields (show ["topic", "partition", "offset", "topic_id"].Nodup by decide) fun f m =>
      ?_
    simp only [List.mem_cons, List.not_mem_nil, or_false] at m
    rcases m with rfl | rfl | rfl | rfl
    · exact .str
    · exact tidy_zero zero 0
    · exact .int
    · exact .str
  refine canonical_legible (.ofFields (show ["scope", "source", "raw_sha256", "key_sha256"].Nodup
    by decide) fun f m => ?_)
    written
  simp only [List.mem_cons, List.not_mem_nil, or_false] at m
  rcases m with rfl | rfl | rfl | rfl
  · exact .str
  · exact source
  · exact .str
  · exact .str

/-- Texts of identities tell sources, values and keys apart, up to their digests. -/
lemma identity_same {b : Bytes} (h : Accepted scope topicId ms key raw partition offset reason b)
    (h' : Accepted scope topicId ms' key' raw' partition' offset' reason' b) :
    SameRecord (sourceOf topicId (positionOf scope partition offset))
      (sourceOf topicId (positionOf scope partition' offset')) ∧ digest raw = digest raw' ∧
        digest key = digest key' := by
  have limit : 2 ≤ Interpreter.recursionLimit := le_trans (by decide) Interpreter.recursionLimit_ge
  have same :=
    canonical_same (written_identity h.zero h.written) (written_identity h'.zero h'.written) limit
      limit h.written h'.written
  have keys : ∀ (source : Value) (key raw : Bytes),
    (([("scope", Value.str scope.suffix), ("source", source),
      ("raw_sha256", .str (digest raw)), ("key_sha256", .str (digest key))].map fun f =>
        (str f.1, f.2)).map Prod.fst).Nodup := by
    intro source key raw
    exact fields_nodup (show ["scope", "source", "raw_sha256", "key_sha256"].Nodup by decide)
  have members := lookup_of_reorder (keys _ key raw) (keys _ key' raw') same
  have source := members (str "source")
  have raws := members (str "raw_sha256")
  have keys := members (str "key_sha256")
  simp [lookup, Value.reorder] at source raws keys
  exact ⟨source, raws, keys⟩

/-- No other record with the same members but for one, which is not the reason, is accepted, unless
digests collide. -/
theorem Accepted.unaltered (h : Accepted scope topicId ms key raw partition offset reason identity)
    (h' : Accepted scope topicId ms' key' raw' partition' offset' reason' identity')
    (identities : digest identity = digest identity' → identity = identity')
    (raws : digest raw = digest raw' → raw = raw')
    (keys : digest key = digest key' → key = key') {k : Str} (other : k ≠ str "reason")
    (rest : ∀ k', k' ≠ k → lookup k' ms' = lookup k' ms) :
    (lookup k ms).map (Value.reorder canonicalDump) =
      (lookup k ms').map (Value.reorder canonicalDump) := by
  by_cases id : k = str "dlq_id"
  · subst id
    -- everything that the id is made of is unchanged
    have sources := rest (str "source") (by decide)
    have sameRaw := rest (str "raw_b64") (by decide)
    have sameKey := rest (str "key_b64") (by decide)
    rw [h.raw64, h'.raw64, Option.some_inj, Value.str.injEq] at sameRaw
    rw [h.key64, h'.key64, Option.some_inj, Value.str.injEq] at sameKey
    cases b64encode_injective sameRaw
    cases b64encode_injective sameKey
    have partitions := h'.partitionOf
    rw [sourcePartition, Value.item, sources] at partitions
    cases partitions.symm.trans h.partitionOf
    have one : SameRecord (sourceOf topicId (positionOf scope partition offset))
        (sourceOf topicId (positionOf scope partition offset')) := by
      have there := h.member (str "source")
      rw [← sources, h'.member] at there
      simpa [envelopeMembers, lookup, SameRecord] using there.symm
    obtain ⟨_, rfl⟩ := source_same one
    cases h.written.symm.trans h'.written
    exact h.one h' one other
  · have ids := rest (str "dlq_id") (Ne.symm id)
    rw [h.dlqId, h'.dlqId, Option.some_inj, Value.str.injEq] at ids
    cases identities ids.symm
    obtain ⟨source, sameRaw, sameKey⟩ := identity_same h h'
    cases raws sameRaw
    cases keys sameKey
    exact h.one h' source other

end Members

/-! ### There and back -/

/-- What was encoded is decoded. -/
lemma b64decodeValue_encode (b : Bytes) : b64decodeValue (.str (b64encode b)) = .ok b := by
  have ascii : ((b64encode b).all fun c => c < 128) = true :=
    List.all_eq_true.2 fun c m => decide_eq_true (b64encode_ascii b c m)
  rw [b64decodeValue, if_pos ascii, b64decode_encode]

/-- The members of an envelope for a record of the scope's topic, and those of its source. -/
structure Envelope (scope : Scope) (ms ss : Fields) (key raw : Bytes) (offset : Int)
    (reason : Value) : Prop where
  schema : lookup (str "schema") ms = some (.int 1)
  owner : lookup (str "owner") ms = some (.str scope.token)
  runId : lookup (str "run_id") ms = some (.str scope.runId)
  raw64 : lookup (str "raw_b64") ms = some (.str (b64encode raw))
  key64 : lookup (str "key_b64") ms = some (.str (b64encode key))
  reason : lookup (str "reason") ms = some reason
  source : lookup (str "source") ms = some (.dict ss)
  topic : lookup (str "topic") ss = some (.str scope.topic)
  partition : lookup (str "partition") ss = some (.int 0)
  offset : lookup (str "offset") ss = some (.int offset)

/-- An envelope is built again from its own members. -/
lemma Envelope.rebuild {ms ss : Fields} {offset : Int}
    (h : Envelope scope ms ss key raw offset reason)
    (made : quarantineRecord scope topicId (ownRecord scope offset) (some key) (some raw) reason =
      .ok expected) :
    Message.rebuild scope topicId (.dict ms) = .ok (key, raw, expected) := by
  unfold Message.rebuild
  simp only [Value.item, h.raw64, h.key64, h.source, h.topic, h.partition, h.offset,
    h.reason, ok_bind, b64decodeValue_encode]
  rw [show [(str "topic", Value.str scope.topic), (str "partition", .int 0),
    (str "offset", .int offset)] = ownRecord scope offset from rfl, made]
  rfl

/-- An envelope is accepted where its text is that of what is made anew. -/
lemma Envelope.checked {ms ss : Fields} {offset : Int} {b : Bytes}
    (h : Envelope scope ms ss key raw offset reason)
    (made : quarantineRecord scope topicId (ownRecord scope offset) (some key) (some raw) reason =
      .ok expected)
    (written : canonical expected = .ok b) (written' : canonical (.dict ms) = .ok b) :
    checkedQuarantine (.dict ms) scope topicId = .ok (key, raw) := by
  have own : (!(Fields.getD ms "schema" .null).eq (.int 1) ||
    !(Fields.getD ms "owner" .null).eq (.str scope.token) ||
      !(Fields.getD ms "run_id" .null).eq (.str scope.runId)) = false := by
    rw [getD_of h.schema, getD_of h.owner, getD_of h.runId]
    simp
  rw [checkedQuarantine, own]
  simp only [Bool.false_eq_true, if_false, h.rebuild made, written']
  simp only [Except.mapError, ok_bind, written, ne_eq, not_true_eq_false, if_false]
  rfl

/-- An envelope can be written and read if source and reason can. -/
lemma envelopeOf_legible {d : Nat} {dlqId : Str} {source : Value} (hd : ∀ c ∈ dlqId, Scalar c)
    (hs : Legible d source)
    (hr : Legible d reason) : Legible (d + 1) (envelopeOf scope dlqId source key raw reason) := by
  have ascii : ∀ b : Bytes, ∀ c ∈ b64encode b, Scalar c :=
    fun b c m => ascii_scalar (b64encode_ascii b c m)
  refine Legible.ofFields (show literalKeys ["schema", "run_id", "owner", "dlq_id", "source",
    "reason", "raw_sha256", "raw_b64", "key_b64"] = true by decide) fun f m => ?_
  simp only [List.mem_cons, List.not_mem_nil, or_false] at m
  rcases m with rfl | rfl | rfl | rfl | rfl | rfl | rfl | rfl | rfl
  · exact .int (by decide)
  · exact .str fun c m => ascii_scalar (scope.runId_ascii c m)
  · exact .str fun c m => ascii_scalar (scope.token_ascii c m)
  · exact .str hd
  · exact hs
  · exact hr
  · exact .str (digest_scalar raw)
  · exact .str (ascii raw)
  · exact .str (ascii key)

/-- What `quarantine_record` makes of a message of the topic is read back as its key and its
value. -/
def RoundTrip (scope : Scope) (topicId : Str) (offset : Int) (key raw : Bytes) (reason : Value) :
    Prop :=
  ∃ rec b r, quarantineRecord scope topicId (ownRecord scope offset) (some key)
    (some raw) reason = .ok rec ∧ canonical rec = .ok b ∧ loadsBytes Hooks.default b = .ok r ∧
      checkedQuarantine r scope topicId = .ok (key, raw)

/-- What can be written and read again makes the round trip. -/
theorem roundTrip_written {offset : Int} {d : Nat} (recordable : Recordable topicId offset)
    (short : key.length ≤ 128)
    (small : raw.length ≤ maxMessage) (reasonOf : Legible (d + 1) reason)
    (depth : d + 2 ≤ Interpreter.recursionLimit) :
    RoundTrip scope topicId offset key raw reason := by
  obtain ⟨identity, text⟩ := canonical_ok (identity_legible scope recordable key raw)
  have made : ∀ reason, quarantineRecord scope topicId (ownRecord scope offset) (some key)
    (some raw) reason =
      .ok (envelopeOf scope (digest identity) (sourceOf topicId (ownRecord scope offset)) key raw
        reason) := by
    intro reason
    unfold quarantineRecord
    rw [ownPosition_record scope recordable.some recordable.lower]
    simp only [Bool.not_true, Bool.false_eq_true, if_false, if_neg (Nat.not_lt.2 small),
      if_neg (Nat.not_lt.2 short), text]
    rfl
  have legible : ∀ reason, Legible (d + 1) reason →
      Legible (d + 2) (envelopeOf scope (digest identity)
        (sourceOf topicId (ownRecord scope offset)) key raw reason) :=
    fun reason h =>
      envelopeOf_legible (digest_scalar identity) (source_legible scope recordable d) h
  obtain ⟨t, b, written, bytes, _, read⟩ :=
    (legible reason reasonOf).loadsBytes canonicalDump Hooks.default_keeps depth
  have written : dumps canonicalDump
    (envelopeOf scope (digest identity) (sourceOf topicId (ownRecord scope offset)) key raw
    reason) = .ok t := written
  have canonicalRec : canonical
    (envelopeOf scope (digest identity) (sourceOf topicId (ownRecord scope offset)) key raw
      reason) = .ok b := by
    rw [canonical, written, ok_bind, bytes]
  refine ⟨_, b, _, made reason, canonicalRec, read, ?_⟩
  -- what is read back has the members of the record, these in the order of their names
  have member : ∀ k, lookup k
    (canonicalDump.order (Value.reorderDict canonicalDump (envelopeMembers scope (digest identity)
      (sourceOf topicId (ownRecord scope offset)) key raw reason))) =
        (lookup k (envelopeMembers scope (digest identity)
      (sourceOf topicId (ownRecord scope offset)) key raw reason)).map
        (Value.reorder canonicalDump) :=
    lookup_reorder canonicalDump (envelopeMembers_keys _ _)
  have keys : ((ownRecord scope offset ++ [(str "topic_id", Value.str topicId)]).map
      Prod.fst).Nodup :=
    literals_nodup (show ["topic", "partition", "offset", "topic_id"].Nodup by decide)
  have inner : ∀ k, lookup k (canonicalDump.order (Value.reorderDict canonicalDump
      (ownRecord scope offset ++ [(str "topic_id", .str topicId)]))) =
        (lookup k (ownRecord scope offset ++ [(str "topic_id", .str topicId)])).map
          (Value.reorder canonicalDump) :=
    lookup_reorder canonicalDump keys
  have envelope : Envelope scope
    (canonicalDump.order (Value.reorderDict canonicalDump (envelopeMembers scope (digest identity)
      (sourceOf topicId (ownRecord scope offset)) key raw reason)))
        (canonicalDump.order (Value.reorderDict canonicalDump
        (ownRecord scope offset ++ [(str "topic_id", .str topicId)]))) key raw offset
          (reason.reorder canonicalDump) := by
    constructor
    all_goals first | rw [member] | rw [inner]
    all_goals simp [envelopeMembers, ownRecord, sourceOf, insertKey, lookup, Value.reorder]
  have again := legible (reason.reorder canonicalDump) (reasonOf.reorder canonicalDump)
  have same : SameRecord (envelopeOf scope (digest identity)
    (sourceOf topicId (ownRecord scope offset)) key raw
      (reason.reorder canonicalDump))
      (envelopeOf scope (digest identity) (sourceOf topicId (ownRecord scope offset)) key raw
        reason) := by
    rw [SameRecord, envelopeOf, envelopeOf, Value.ofFields, Value.ofFields, Value.reorder,
      Value.reorder, reorderDict_eq, reorderDict_eq]
    simp only [List.map_cons, List.map_nil, reasonOf.reorder_reorder]
  refine envelope.checked (made (reason.reorder canonicalDump)) (b := b) ?_ ?_
  · rw [canonical, ← again.dumps_reorder canonicalDump, same,
      (legible reason reasonOf).dumps_reorder canonicalDump, written, ok_bind, bytes]
  · have back := (legible reason reasonOf).dumps_reorder canonicalDump
    rw [written] at back
    exact bind_ok.2 ⟨t, back, bytes⟩

/-- A round trip shows that the position could be written, and that the reason could be written and
read again. -/
lemma RoundTrip.inv {offset : Int} {d : Nat} (h : RoundTrip scope topicId offset key raw reason)
    (tidy : Tidy True d reason) :
    Recordable topicId offset ∧ Legible (Interpreter.recursionLimit - 1) reason := by
  obtain ⟨rec, b, r, made, written, read, _⟩ := h
  obtain ⟨own, _, _, identity, text, rfl⟩ := quarantineRecord_inv made
  rw [← positionOf_zero] at own written text
  obtain ⟨some, _, zero, n, lower, position⟩ := ownPosition_inv own
  cases position
  have identityOf := written_identity zero text
  have source : Legible 1 (sourceOf topicId (positionOf scope (.int 0) offset)) := by
    cases identityOf with
    | dict _ _ members =>
      exact members (str "source", sourceOf topicId (positionOf scope (.int 0) offset))
        (.tail _ (.head _))
  rw [sourceOf_fields] at source
  have recordable : Recordable topicId offset := by
    cases source with
    | dict _ _ members =>
      have id := members (str "topic_id", .str topicId) (by simp)
      have off := members (str "offset", .int offset) (by simp)
      cases id with
      | str chars =>
        cases off with
        | int digits => exact ⟨some, chars, lower, digits⟩
  refine ⟨recordable, ?_⟩
  -- the envelope was written, and read at the limit of the interpreter
  have deeper : Tidy True (d + 1) reason := tidy.mono (Nat.le_succ d)
  have envelope :=
    canonical_legible (envelopeOf_tidy (d := d) offset (digest identity) .int deeper) written
  obtain ⟨t, dumped, bytes⟩ := bind_ok.1 written
  obtain ⟨t', decoded, loaded⟩ := loadsBytes_ok.1 read
  cases (jsonText_dict dumped bytes).2.symm.trans decoded
  obtain ⟨_, bounded⟩ := envelope.read_back dumped loaded
  generalize Interpreter.recursionLimit = limit at bounded
  cases bounded with
  | dict _ _ members => exact members (str "reason", reason) (by simp)

/-- The round trip is made exactly if the topic id and the offset can be written, and the reason
written and read. -/
theorem roundTrip_iff {offset : Int} {d : Nat} (tidy : Tidy True d reason)
    (short : key.length ≤ 128)
    (small : raw.length ≤ maxMessage) : RoundTrip scope topicId offset key raw reason ↔
      Recordable topicId offset ∧ Legible (Interpreter.recursionLimit - 1) reason := by
  constructor
  · exact fun h => h.inv tidy
  · rintro ⟨recordable, reasonOf⟩
    obtain ⟨d, limit⟩ : ∃ d, Interpreter.recursionLimit = d + 2 :=
      ⟨Interpreter.recursionLimit - 2, by have := Interpreter.recursionLimit_ge; omega⟩
    rw [limit] at reasonOf
    exact roundTrip_written recordable short small reasonOf limit.ge

/-- The codec: what `quarantine_record` makes is read back as the key and the value exactly if the
topic id, the offset and the reason can be written and read; what is accepted is what it makes for
the integer partition exactly if that is what the record names; of such records with one offset, key
and value there is one id; and no record that differs in one member, other than the reason, is
accepted beside another. -/
theorem envelope_codec (scope : Scope) (topicId : Str) :
    (∀ {offset : Int} {key raw : Bytes} {reason : Value} {d : Nat}, 0 ≤ offset → key.length ≤ 128 →
      raw.length ≤ maxMessage → Tidy True d reason →
      (RoundTrip scope topicId offset key raw reason ↔
        topicId ≠ [] ∧ (∀ c ∈ topicId, Scalar c) ∧ (digitChars offset.natAbs).length ≤
          maxStrDigits ∧ Legible (Interpreter.recursionLimit - 1) reason)) ∧
    ∀ {record : Value} {key raw : Bytes}, Tidy True Interpreter.recursionLimit record →
      checkedQuarantine record scope topicId = .ok (key, raw) →
      ((∃ offset reason rec, 0 ≤ offset ∧ record.item "reason" = .ok reason ∧
          quarantineRecord scope topicId (ownRecord scope offset) (some key)
            (some raw) reason = .ok rec ∧
          SameRecord record rec) ↔ sourcePartition record = .ok (.int 0)) ∧
      ∀ {record' : Value} {key' raw' : Bytes}, Tidy True Interpreter.recursionLimit record' →
        checkedQuarantine record' scope topicId = .ok (key', raw') →
        (sourcePartition record = .ok (.int 0) → sourcePartition record' = .ok (.int 0) →
          key' = key → raw' = raw → sourceOffset record' = sourceOffset record →
            record'.item "dlq_id" = record.item "dlq_id") ∧
        ∃ ms ms' identity identity', record = .dict ms ∧ record' = .dict ms' ∧
          record.item "dlq_id" = .ok (.str (digest identity)) ∧
            record'.item "dlq_id" = .ok (.str (digest identity')) ∧
          ((digest identity = digest identity' → identity = identity') →
            (digest raw = digest raw' → raw = raw') → (digest key = digest key' → key = key') →
            ∀ k, k ≠ str "reason" → (∀ k', k' ≠ k → lookup k' ms' = lookup k' ms) →
              (lookup k ms).map (Value.reorder canonicalDump) =
                (lookup k ms').map (Value.reorder canonicalDump)) := by
  refine ⟨fun lower short small tidy => (roundTrip_iff tidy short small).trans ?_, ?_⟩
  · exact ⟨fun h => ⟨h.1.some, h.1.scalar, h.1.digits, h.2⟩,
      fun h => ⟨⟨h.1, h.2.1, lower, h.2.2.1⟩, h.2.2.2⟩⟩
  intro record key raw tidy checked
  obtain ⟨ms, partition, offset, reason, identity, rfl, accepted⟩ :=
    accepted_of_checked tidy checked
  refine ⟨accepted.partition_iff, ?_⟩
  intro record' key' raw' tidy' checked'
  obtain ⟨ms', partition', offset', reason', identity', rfl, accepted'⟩ :=
    accepted_of_checked tidy' checked'
  have dlqId := item_ok.2 ⟨ms, rfl, accepted.dlqId⟩
  have dlqId' := item_ok.2 ⟨ms', rfl, accepted'.dlqId⟩
  refine ⟨?_, ms, ms', identity, identity', rfl, rfl, dlqId, dlqId',
    fun identities raws keys k other rest =>
    accepted.unaltered accepted' identities raws keys other rest⟩
  rintro zero zero' rfl rfl offsets
  cases zero.symm.trans accepted.partitionOf
  cases zero'.symm.trans accepted'.partitionOf
  rw [accepted.offsetOf, accepted'.offsetOf, Except.ok.injEq, Value.int.injEq] at offsets
  cases offsets
  cases accepted.written.symm.trans accepted'.written
  rw [dlqId, dlqId']

end

/-! ### A partition of `False` -/

section
attribute [local instance] integral

/-- The record of the first message of the topic, with `False` for its partition. -/
def falseRecord : Except Exn Value := do
  let rec ← quarantineRecord drillScope (str "topic") (positionOf drillScope (.bool false) 0)
    (some [107]) (some [1])
    (.str (str "invalid_event_json"))
  let _ ← checkedQuarantine rec drillScope (str "topic")
  return rec

/-- A record whose partition is `false` is accepted. -/
lemma falseRecord_accepted : ∃ rec key raw, Tidy True Interpreter.recursionLimit rec ∧
    checkedQuarantine rec drillScope (str "topic") = .ok (key, raw) ∧
      sourcePartition rec = .ok (.bool false) := by
  have run : passes falseRecord (fun _ => true) = true := by decide +kernel
  obtain ⟨rec, ok, _⟩ := ok_of_test run
  obtain ⟨made, recorded, ok⟩ := bind_ok.1 ok
  obtain ⟨⟨key, raw⟩, checked, ok⟩ := bind_ok.1 ok
  cases ok
  obtain ⟨_, _, _, identity, _, rfl⟩ := quarantineRecord_inv recorded
  refine ⟨_, key, raw, envelopeOf_tidy (d := 998) 0 (digest identity) .bool .str, checked, ?_⟩
  simp [sourcePartition, envelopeOf, sourceOf_fields, Value.ofFields, Value.item, lookup]

/-- A record is accepted that `quarantine_record` makes for no integer partition. -/
theorem false_partition_accepted :
    ∃ record key raw, checkedQuarantine record drillScope (str "topic") = .ok (key, raw) ∧
      ¬∃ offset reason rec, 0 ≤ offset ∧ record.item "reason" = .ok reason ∧
        quarantineRecord drillScope (str "topic") (ownRecord drillScope offset) (some key)
        (some raw) reason = .ok rec ∧
      SameRecord record rec := by
  obtain ⟨record, key, raw, tidy, checked, partition⟩ := falseRecord_accepted
  obtain ⟨ms, _, _, _, _, rfl, accepted⟩ := accepted_of_checked tidy checked
  refine ⟨_, key, raw, checked, fun same => ?_⟩
  have zero := accepted.partition_iff.1 same
  rw [partition] at zero
  cases zero

/-- The round trip fails for each part of its condition that does not hold. -/
theorem envelope_codec_false :
    (∀ reason ∈ ["invalid_event_json", ""],
      RoundTrip drillScope (str "topic") 0 [107] [1] (.str (str reason)) ∧
        ¬RoundTrip drillScope [] 0 [107] [1] (.str (str reason))) ∧
    ¬RoundTrip drillScope (str "topic") 0 [107] [1] (.str [0xD800]) ∧
    ∃ record key raw, checkedQuarantine record drillScope (str "topic") = .ok (key, raw) ∧
      ((∃ offset reason rec, 0 ≤ offset ∧ record.item "reason" = .ok reason ∧
        quarantineRecord drillScope (str "topic") (ownRecord drillScope offset) (some key)
          (some raw) reason = .ok rec ∧
        SameRecord record rec) ↔ sourcePartition record = .ok (.int 0)) := by
  refine ⟨fun reason m => ⟨?_, fun h => ?_⟩, fun h => ?_, ?_⟩
  · refine ((envelope_codec drillScope (str "topic")).1 (d := 0) le_rfl (by decide)
      (by decide) .str).2 ?_
    refine ⟨by decide, fun c m => ascii_scalar (by revert c; decide), by decide, .str ?_⟩
    revert reason
    decide
  · exact (((envelope_codec drillScope []).1 (d := 0) le_rfl (by decide) (by decide) .str).1 h).1
      rfl
  · have legible :=
      (((envelope_codec drillScope (str "topic")).1 (d := 0) le_rfl (by decide)
        (by decide) .str).1 h).2.2.2
    cases legible with
    | str chars => exact absurd (chars 0xD800 List.mem_cons_self) (by decide)
  · obtain ⟨record, key, raw, tidy, checked, _⟩ := falseRecord_accepted
    exact ⟨record, key, raw, checked, ((envelope_codec drillScope (str "topic")).2 tidy checked).1⟩

end

end DbLab.Mvp.Message
