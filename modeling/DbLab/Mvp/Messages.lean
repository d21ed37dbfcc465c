import DbLab.Mvp.Events
import DbLab.Py.Float
import DbLab.Py.Literals

/-!
# Reading messages (`message_safety.py`)

`canonical` and `decode`. What `decode` accepts can be written again exactly if the literals of its
text can: an extra member may hold a number that overflows or a lone surrogate, which neither hook
sees.
-/

namespace DbLab.Mvp.Message
open DbLab.Py

/-- `MAX_MESSAGE` -/
def maxMessage : Nat := 32 * 1024

/-- The `except` clause of `decode`. -/
def invalidJson : Raised → Raised
  | .python e => if e.isUnreadable then .problem 422 "invalid_event_json" else .python e
  | e => e

/-- Before the `except` clause. -/
def Unreadable (e : Raised) : Prop := IsInvalid e ∨ ∃ x : Exn, e = .python x ∧ x.isUnreadable = true

/-- Text that cannot be read is refused as input. -/
lemma invalidJson_invalid {e : Raised} (h : Unreadable e) : IsInvalid (invalidJson e) := by
  rcases h with ⟨status, code, rfl, kind⟩ | ⟨x, rfl, unreadable⟩
  · exact ⟨status, code, rfl, kind⟩
  · rw [invalidJson, if_pos unreadable]
    exact invalid422

section
variable [Interpreter]

/-- The options of `canonical`. -/
def canonicalDump : Dump := ⟨true, true, false⟩

/-- `canonical` -/
def canonical (v : Value) : Except Exn Bytes := do
  encode (← dumps canonicalDump v)

/-- `pairs` in `decode` -/
def pairs (items : List (Str × Value)) : Except Raised Value := do
  return .dict (← items.foldlM (fun result e =>
    if (lookup e.1 result).isSome then .error (.problem 422 "duplicate_json_key")
      else .ok (result ++ [e])) [])

/-- The hooks `decode` passes. -/
def eventHooks : Hooks Raised where
  raise := .python
  pairs := pairs
  constant _ := .error (.problem 422 "nonfinite_json_number")

/-- `decode` -/
def decode (raw : Option Bytes) : Except Raised Value :=
  match raw with
  | some b =>
    if ¬(0 < b.length ∧ b.length ≤ maxMessage) then .error (.problem 422 "invalid_event_size")
    else do
      let event ← (loadsBytes eventHooks b).mapError invalidJson
      let _ ← validateEvent event
      return event
  | none => .error (.problem 422 "invalid_event_size")

/-! ### What is raised -/

/-- Keys that are refused are refused as input. -/
lemma pairs_only (items : List (Str × Value)) : Only IsInvalid (pairs items) := by
  have loop : ∀ (items result : List (Str × Value)), Only IsInvalid (items.foldlM (fun result e =>
      if (lookup e.1 result).isSome then .error (.problem 422 "duplicate_json_key")
        else .ok (result ++ [e])) result) := by
    intro items
    induction items with
    | nil => exact fun result => .ok _
    | cons e items ih =>
      intro result
      rw [List.foldlM_cons]
      refine Only.bind ?_ fun next _ => ih next
      split
      · exact .error invalid422
      · exact .ok _
  exact (loop items []).bind fun ms _ => .ok _

/-- What the reader of events raises. -/
lemma eventHooks_only : eventHooks.Only Unreadable where
  unreadable e h := .inr ⟨e, rfl, h⟩
  pairs ms := (pairs_only ms).mono fun _ => .inl
  constant _ := .error (.inl invalid422)

/-- Whatever is in a message, `decode` returns or raises a `Problem` of status 400 or 422. -/
theorem decode_only (raw : Option Bytes) : Only IsInvalid (decode raw) := by
  unfold decode
  split
  · split
    · exact .error invalid422
    · refine ((loadsBytes_only eventHooks_only _).mapError fun _ => invalidJson_invalid).bind
        fun event _ => ?_
      exact (validateEvent_only event).bind fun _ _ => .pure _
  · exact .error invalid422

/-- A message that is decoded is an event of limited size. -/
lemma decode_inv {raw : Option Bytes} {event : Value} (h : decode raw = .ok event) :
    ∃ b order, raw = some b ∧ 0 < b.length ∧ b.length ≤ maxMessage ∧
      loadsBytes eventHooks b = .ok event ∧ validateEvent event = .ok order := by
  unfold decode at h
  split at h
  · rename_i b
    split at h
    · cases h
    · rename_i size
      obtain ⟨event', read, h⟩ := bind_ok.1 h
      obtain ⟨order, valid, h⟩ := bind_ok.1 h
      cases h
      cases loaded : loadsBytes eventHooks b with
      | error e =>
        rw [loaded] at read
        cases read
      | ok v =>
        rw [loaded] at read
        cases read
        exact ⟨b, order, rfl, (not_not.1 size).1, (not_not.1 size).2, loaded, valid⟩
  · cases h

/-! ### What is accepted is strict exactly if its literals are -/

/-- The members so far, if no key is there twice. -/
lemma pairs_loop {items result ms : List (Str × Value)} (nodup : (result.map Prod.fst).Nodup) :
    items.foldlM (fun result e =>
        if (lookup e.1 result).isSome then Except.error (Raised.problem 422 "duplicate_json_key")
          else .ok (result ++ [e]))
      result = .ok ms ↔ ms = result ++ items ∧ ((result ++ items).map Prod.fst).Nodup := by
  induction items generalizing result with
  | nil =>
    rw [List.append_nil]
    exact ⟨fun h => ⟨(Except.ok.inj h).symm, nodup⟩, fun h => congrArg _ h.1.symm⟩
  | cons e items ih =>
    rw [List.foldlM_cons]
    cases found : lookup e.1 result with
    | some v =>
      refine ⟨nofun, fun ⟨_, distinct⟩ => ?_⟩
      rw [List.map_append, List.nodup_append] at distinct
      have old : e.1 ∈ result.map Prod.fst := List.mem_map.2 ⟨_, lookup_mem found, rfl⟩
      exact absurd rfl (distinct.2.2 e.1 old e.1 (by simp))
    | none =>
      have fresh := lookup_eq_none.1 found
      have next : ((result ++ [e]).map Prod.fst).Nodup := by
        rw [List.map_append, List.map_singleton]
        exact List.nodup_append.2 ⟨nodup, List.nodup_singleton _, fun k m k' m' same => by
          rw [List.mem_singleton.1 m'] at same
          exact fresh (same ▸ m)⟩
      simp only [Option.isSome_none, Bool.false_eq_true, if_false, ok_bind]
      rw [ih next, List.append_assoc, List.singleton_append]

/-- Members are taken if no key is there twice. -/
lemma pairs_ok {items : List (Str × Value)} {v : Value} :
    pairs items = .ok v ↔ v = .dict items ∧ (items.map Prod.fst).Nodup := by
  have loop : ∀ ms, _ ↔ _ := fun ms => @pairs_loop _ items [] ms .nil
  simp only [List.nil_append] at loop
  constructor
  · intro h
    obtain ⟨ms, run, h⟩ := bind_ok.1 h
    cases h
    obtain ⟨rfl, keys⟩ := (loop _).1 run
    exact ⟨rfl, keys⟩
  · rintro ⟨rfl, keys⟩
    rw [pairs, (loop items).2 ⟨rfl, keys⟩]
    rfl

/-- The reader of events is strict. -/
lemma eventHooks_strict : eventHooks.Strict where
  pairs _ _ := pairs_ok.1
  constant _ _ := nofun

/-- The reader of events keeps members with keys of their own. -/
lemma eventHooks_keeps : eventHooks.Keeps := fun _ keys => pairs_ok.2 ⟨rfl, keys⟩

/-- The literals of the text of a message can all be written again: no number among them overflows,
and no string holds a lone surrogate. -/
def WritableMessage (raw : Bytes) : Prop := ∃ text, jsonText raw = .ok text ∧ Writable text

/-- An event that strict JSON represents: `canonical` writes it, and `decode` reads it back where it
fits. -/
def Strict (event : Value) : Prop :=
  ∃ b, canonical event = .ok b ∧
    (b.length ≤ maxMessage → ∃ event', decode (some b) = .ok event' ∧ event.eq event' = true)

/-- What has a canonical text can be written and read. -/
lemma canonical_legible {d : Nat} {event : Value} {b : Bytes} (tidy : Tidy True d event)
    (h : canonical event = .ok b) :
    Legible d event := by
  obtain ⟨t, text, bytes⟩ := bind_ok.1 h
  exact tidy.legible (fun _ => rfl) text (encode_inv bytes)

/-- What `decode` makes of a legible valid event that `canonical` wrote. -/
theorem decode_canonical {event : Value} {eventId : Str} {ms : Fields} {o : Order}
    (valid : ValidEvent event eventId ms o)
    (legible : Legible Interpreter.recursionLimit event) :
    ∃ b, canonical event = .ok b ∧
      (b.length ≤ maxMessage → decode (some b) = .ok (event.reorder canonicalDump)) := by
  obtain ⟨es, rfl, schema, _⟩ := valid.members
  cases es with
  | nil => cases schema
  | cons e es =>
    obtain ⟨t, b, text, bytes, pos, read⟩ :=
      legible.loadsBytes canonicalDump eventHooks_keeps le_rfl
    refine ⟨b, ?_, fun fits => ?_⟩
    · rw [canonical, text, ok_bind, bytes]
    · rw [decode, if_neg (not_not.2 ⟨pos, fits⟩), read]
      have again := (valid.reorder (D := canonicalDump) legible).validateEvent
      exact bind_ok.2 ⟨_, rfl, bind_ok.2 ⟨_, again, rfl⟩⟩

/-- A legible valid event is strict. -/
lemma strict_of_valid {event : Value} {eventId : Str} {ms : Fields} {o : Order}
    (valid : ValidEvent event eventId ms o)
    (legible : Legible Interpreter.recursionLimit event) : Strict event := by
  obtain ⟨b, written, read⟩ := decode_canonical valid legible
  exact ⟨b, written, fun fits => ⟨_, read fits, legible.eq_reorder canonicalDump⟩⟩

/-- An event that was decoded is strict exactly if the literals of its message can be written
again. -/
theorem strict_iff_writable {raw : Bytes} {event : Value}
    (accepted : decode (some raw) = .ok event) :
    Strict event ↔ WritableMessage raw := by
  obtain ⟨b, order, same, _, _, read, valid⟩ := decode_inv accepted
  cases same
  obtain ⟨eventId, ms, o, _, valid⟩ := validateEvent_inv valid
  obtain ⟨s, text, loaded⟩ := loadsBytes_ok.1 read
  obtain ⟨legible, tidy⟩ := loads_legible eventHooks_strict loaded
  have writable : WritableMessage raw ↔ Writable s :=
    ⟨fun ⟨s', text', w⟩ => by rw [text] at text'; cases text'; exact w, fun w => ⟨s, text, w⟩⟩
  rw [writable, ← legible]
  exact ⟨fun ⟨b, written, _⟩ => canonical_legible tidy written, strict_of_valid valid⟩

end

/-- A message with a lone surrogate in a member that no check looks at. -/
def surrogateMessage : Bytes :=
  (str
    ("\x7b\"schema_version\":1,\"event_id\":\"00000000-0000-4000-8000-000000000001\",\"order\":\x7b" ++
  "\"id\":\"00000000-0000-4000-8000-000000000002\",\"item\":\"cup\",\"quantity\":2,\"unit_price\":3,\"total\":6," ++
  "\"status\":\"created\",\"version\":1,\"created_at\":\"2024-01-01T00:00:00.000+00:00\"\x7d,\"x\":\"\\ud800\"\x7d")).map .ofNat

/-- `canonical` raises. -/
def unwritable [Interpreter] (event : Value) : Bool :=
  match canonical event with
  | .ok _ => false
  | .error _ => true

/-- The message of the demonstration is decoded and cannot be written. -/
lemma surrogateMessage_decoded :
    ∃ event, @decode integral (some surrogateMessage) = .ok event ∧
      @unwritable integral event = true := by
  have run : passes (@decode integral (some surrogateMessage)) (@unwritable integral) = true := by
    decide +kernel
  exact ok_of_test run

/-- `decode` returns an event that `canonical` cannot write. -/
theorem lone_surrogate_accepted :
    ∃ event, @decode integral (some surrogateMessage) = .ok event ∧ ¬ @Strict integral event := by
  obtain ⟨event, accepted, fails⟩ := surrogateMessage_decoded
  refine ⟨event, accepted, fun ⟨b, written, _⟩ => ?_⟩
  unfold unwritable at fails
  rw [written] at fails
  cases fails

/-- `strict_iff_writable` for a message with a lone surrogate. -/
theorem strict_iff_writable_surrogate :
    ∃ event, @decode integral (some surrogateMessage) = .ok event ∧ (@Strict integral event ↔
      @WritableMessage integral surrogateMessage) := by
  obtain ⟨event, accepted, _⟩ := surrogateMessage_decoded
  exact ⟨event, accepted, @strict_iff_writable integral _ _ accepted⟩

end DbLab.Mvp.Message
