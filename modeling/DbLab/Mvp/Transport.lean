import DbLab.Mvp.Messages
import DbLab.Mvp.Search

/-!
# Events on their way

An event of a version of an order, as it is made for the outbox, for a drill or for a repair, fits
in a message, and what `decode` makes of the message has the members of the version.
-/

namespace DbLab.Mvp
open DbLab.Py Message

variable [Interpreter]

/-- The size of a record's text. -/
lemma Value.ofFields_size (fs : List (String × Value)) :
    (Value.ofFields fs).size = (fs.map fun f => 6 * (str f.1).length + f.2.size + 6).sum + 2 := by
  rw [Value.ofFields, Value.size, sizeDict_eq, List.map_map]
  rfl

/-- An event with members behind its order. -/
def eventWith (eventId : Str) (order : Value) (extra : List (String × Value)) : Value :=
  .ofFields ([("schema_version", .int 1), ("event_id", .str eventId), ("order", order)] ++ extra)

/-- What may stand behind the order of an event. -/
structure Appended (extra : List (String × Value)) : Prop where
  keys : literalKeys (["schema_version", "event_id", "order"] ++ extra.map Prod.fst) = true
  legible : ∀ f ∈ extra, ∀ d, Legible (d + 1) f.2
  small : (extra.map fun f => 6 * (str f.1).length + f.2.size + 6).sum ≤ 5000

/-- Nothing appended. -/
lemma appended_nil : Appended [] where
  keys := (by decide : literalKeys ["schema_version", "event_id", "order"] = true)
  legible := nofun
  small := Nat.zero_le 5000

/-- Values without members stay as they are. -/
lemma reorderDict_members (o : Order) {ms : Fields} (perm : ms.Perm o.members) (D : Dump) :
    Value.reorderDict D ms = ms := by
  have plain : ∀ e ∈ ms, (e.1, e.2.reorder D) = e := by
    intro e m
    have there := perm.mem_iff.1 m
    simp only [Order.members, Order.fields, List.map_cons, List.map_nil, List.mem_cons,
      List.not_mem_nil, or_false] at there
    rcases there with rfl | rfl | rfl | rfl | rfl | rfl | rfl | rfl <;> rfl
  rw [reorderDict_eq]
  exact (List.map_congr_left plain).trans (List.map_id ms)

variable {h : List Order} {o : Order} {ms : Fields} {eventId : Str} {extra : List (String × Value)}

/-- An event around a legal order is valid. -/
lemma eventWith_valid (history : History h) (m : o ∈ h) (perm : ms.Perm o.members)
    (uuid : IsUuid eventId) :
    ValidEvent (eventWith eventId (.dict ms) extra) eventId ms o where
  members := ⟨_, rfl, by simp [lookup], by simp [lookup], by simp [lookup]⟩
  eventUuid := uuid
  order := (history.valid o m).fields perm

/-- An event around a legal order is legible. -/
lemma eventWith_legible (history : History h) (m : o ∈ h) (perm : ms.Perm o.members)
    (uuid : IsUuid eventId)
    (appended : Appended extra) (d : Nat) :
    Legible (d + 2) (eventWith eventId (.dict ms) extra) := by
  refine .ofFields (by rw [List.map_append]; exact appended.keys) fun f mf => ?_
  rcases List.mem_append.1 mf with mf | mf
  · simp only [List.mem_cons, List.not_mem_nil, or_false] at mf
    rcases mf with rfl | rfl | rfl
    · exact .int (by decide)
    · exact .str uuid.scalar
    · exact history.legible m perm d
  · exact appended.legible f mf d

/-- An event around a legal order is small. -/
lemma eventWith_size (history : History h) (m : o ∈ h) (perm : ms.Perm o.members)
    (uuid : IsUuid eventId)
    (appended : Appended extra) : (eventWith eventId (.dict ms) extra).size ≤ 8000 := by
  have order := history.size m perm
  have id := str_size uuid.length
  have one : (Value.int 1).size ≤ 19 := int_size (by decide) (by decide)
  have small := appended.small
  have keys : ∀ k ∈ ["schema_version", "event_id", "order"], (str k).length ≤ 14 := by decide
  simp only [List.forall_mem_cons] at keys
  rw [eventWith, Value.ofFields_size]
  simp only [List.map_append, List.map_cons, List.map_nil, List.sum_append, List.sum_cons,
    List.sum_nil]
  omega

/-- What `decode` makes of the message of an event: the version, its members in the order of their
names. -/
theorem eventWith_decoded (history : History h) (m : o ∈ h) (perm : ms.Perm o.members)
    (uuid : IsUuid eventId)
    (appended : Appended extra) :
    ∃ b es ms', Message.canonical (eventWith eventId (.dict ms) extra) = .ok b ∧
      b.length ≤ maxMessage ∧ Message.decode (some b) = .ok (.dict es) ∧
        lookup (str "event_id") es = some (.str eventId) ∧
      lookup (str "order") es = some (.dict ms') ∧ ms'.Perm o.members := by
  obtain ⟨d, limit⟩ : ∃ d, Interpreter.recursionLimit = d + 2 :=
    ⟨Interpreter.recursionLimit - 2, by have := Interpreter.recursionLimit_ge; omega⟩
  have valid : ValidEvent (eventWith eventId (.dict ms) extra) eventId ms o :=
    eventWith_valid history m perm uuid
  have legible := eventWith_legible history m perm uuid appended d
  rw [← limit] at legible
  obtain ⟨b, written, read⟩ := decode_canonical valid legible
  have fits : b.length ≤ maxMessage := by
    obtain ⟨t, text, bytes⟩ := bind_ok.1 written
    have characters := legible.textOf_length Message.canonicalDump
    rw [legible.text, Except.ok.injEq] at text
    rw [text] at characters
    have length := encode_length bytes
    have size := eventWith_size history m perm uuid appended
    exact (length.trans (Nat.mul_le_mul_left 4 (characters.trans size))).trans (by decide)
  have again := valid.reorder (D := Message.canonicalDump) legible
  obtain ⟨es, e, _, id, order⟩ := again.members
  refine ⟨b, es, _, written, fits, e ▸ read fits, id, order, ?_⟩
  rw [reorderDict_members o perm]
  exact (order_perm Message.canonicalDump ms).trans perm

end DbLab.Mvp
