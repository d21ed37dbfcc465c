import DbLab.Mvp.Ledger

/-!
# From the outbox to the index (`relay_once`, `project_one`)

What the relay reads of an outbox row and sends, what the consumer makes of the message, and that
for the event of a version nothing is lost on the way.
-/

namespace DbLab.Mvp
open DbLab.Py Message

section
variable [Interpreter]

/-- The options of `json.dumps(event, ensure_ascii=False)`. -/
def plainDump : Dump := ⟨false, false, true⟩

/-- The value that `Broker.publish` sends for an event. -/
def wire (event : Value) : Except Exn Bytes := do
  encode (← dumps plainDump event)

/-- The event of a row, as `pending_one` reads it. -/
def rowEvent (payload : Str) : Except Exn Value := loads Hooks.default payload

/-- The order that `project_one` finds in a message. -/
def messageOrder (raw : Bytes) : Except Raised Value := do
  let event ← (loadsBytes Hooks.default raw).mapError .python
  validateEvent event

/-- `project_one` up to the write to the index. -/
def projectOne (M : Mapping) (raw : Bytes) (s : Elastic) : Except Thrown String × Elastic :=
  match messageOrder raw with
  | .error e => (.error (.raised e), s)
  | .ok order => Search.index M order s

/-- The consumer finds the version in the message. -/
structure Bears (H : Search.Histories) (o : Order) (raw : Bytes) (ms : Fields) : Prop where
  made : o ∈ H.of o.id
  read : messageOrder raw = .ok (.dict ms)
  perm : ms.Perm o.members

variable {H H' : Search.Histories} {o : Order} {raw : Bytes} {ms : Fields}

/-- A history within another bears the same. -/
lemma Bears.within (h : Bears H o raw ms) (within : H.Within H') : Bears H' o raw ms :=
  ⟨within _ _ h.made, h.read, h.perm⟩

/-- What is delivered of a message. -/
def Bears.delivery (h : Bears H o raw ms) : Search.Delivery H := ⟨o, h.made, ms, h.perm⟩

/-- The event of a version can be written, sent and read. -/
theorem bears_event {fields : List (String × Value)} {eventId payload : Str} {event : Value}
    (made : o ∈ H.of o.id)
    (perm : (fields.map fun f => (str f.1, f.2)).Perm o.members) (uuid : IsUuid eventId)
    (payloadOf : eventText fields eventId = .ok payload) (eventOf : rowEvent payload = .ok event)
    (rawOf : wire event = .ok raw) : Bears H o raw (fields.map fun f => (str f.1, f.2)) := by
  obtain ⟨d, limit⟩ : ∃ d, Interpreter.recursionLimit = d + 2 :=
    ⟨Interpreter.recursionLimit - 2, by have := Interpreter.recursionLimit_ge; omega⟩
  have history := H.history o.id (List.ne_nil_of_mem made)
  have valid : ValidEvent (eventWith eventId (.ofFields fields) []) eventId _ o :=
    eventWith_valid history made perm uuid
  have legible : Legible Interpreter.recursionLimit (eventWith eventId (.ofFields fields) []) :=
    limit ▸ eventWith_legible history made perm uuid appended_nil d
  have written : dumps plainDump (eventWith eventId (.ofFields fields) []) = .ok payload :=
    payloadOf
  -- the event is the same in the row, in the message, and behind it
  have whole := legible.reorder_unsorted (o := plainDump) rfl
  have same : event = eventWith eventId (.ofFields fields) [] := by
    obtain ⟨t, text, _, read⟩ := legible.loads plainDump Hooks.default_keeps le_rfl
    cases written.symm.trans text
    rw [whole] at read
    exact Except.ok.inj (eventOf.symm.trans read)
  subst same
  obtain ⟨t, b, text, bytes, _, read⟩ := legible.loadsBytes plainDump Hooks.default_keeps le_rfl
  have sent : wire (eventWith eventId (.ofFields fields) []) = .ok b := by
    have text : dumps plainDump (eventWith eventId (.ofFields fields) []) = .ok t := text
    rw [wire, text, ok_bind, bytes]
  cases rawOf.symm.trans sent
  refine ⟨made, ?_, perm⟩
  have read : loadsBytes Hooks.default raw =
    .ok ((eventWith eventId (.ofFields fields) []).reorder plainDump) := read
  rw [messageOrder, read, whole]
  exact valid.validateEvent

end

end DbLab.Mvp
