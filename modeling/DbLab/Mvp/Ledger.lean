import DbLab.Mvp.Transport

/-!
# The ledger of versions

The versions that the database has held of each order, how creates and updates add to them, and the
messages that carry one of them. A message once sent stays the message of a version.
-/

namespace DbLab.Mvp
open DbLab.Py Message

variable [Interpreter]

namespace Search.Histories
variable (H : Histories)

/-- A new order. -/
def create (o : Order) (new : History [o]) : Histories where
  of := Function.update H.of o.id [o]
  history id h := by
    by_cases same : id = o.id
    · subst same
      rw [Function.update_self]
      exact new
    · rw [Function.update_of_ne same] at h ⊢
      exact H.history id h
  own id x m := by
    by_cases same : id = o.id
    · subst same
      rw [Function.update_self, List.mem_singleton] at m
      rw [m]
    · rw [Function.update_of_ne same] at m
      exact H.own id x m

/-- The next version of an order. -/
def update {past : List Order} {o o' : Order} {data : Value} (last : H.of o.id = past ++ [o])
    (step : transition o data = .ok o') : Histories where
  of := Function.update H.of o.id (past ++ [o, o'])
  history id h := by
    by_cases same : id = o.id
    · subst same
      rw [Function.update_self]
      have before : History (H.of o.id) := H.history o.id (by rw [last]; simp)
      rw [last] at before
      exact .updated before step
    · rw [Function.update_of_ne same] at h ⊢
      exact H.history id h
  own id x m := by
    by_cases same : id = o.id
    · subst same
      rw [Function.update_self] at m
      have old : x ∈ past ++ [o] ∨ x = o' := by simpa [or_assoc] using m
      rcases old with old | rfl
      · exact H.own o.id x (last ▸ old)
      · obtain ⟨next, status, _, _, rfl⟩ := transition_inv step
        rfl
    · rw [Function.update_of_ne same] at m
      exact H.own id x m

/-- The histories with a new order. -/
lemma create_of (o : Order) (new : History [o]) :
    (H.create o new).of = Function.update H.of o.id [o] := rfl

/-- The histories with a new version. -/
lemma update_of {past : List Order} {o o' : Order} {data : Value} (last : H.of o.id = past ++ [o])
    (step : transition o data = .ok o') :
    (H.update last step).of = Function.update H.of o.id (past ++ [o, o']) := rfl

/-- Everything that was a version still is. -/
def Within (H H' : Histories) : Prop := ∀ id, ∀ o ∈ H.of id, o ∈ H'.of id

variable {H}

/-- Histories are within themselves. -/
lemma Within.refl : Within H H := fun _ _ m => m

/-- A new order adds to the histories. -/
lemma within_create {o : Order} (fresh : H.of o.id = []) (new : History [o]) :
    Within H (H.create o new) := by
  intro id x m
  have other : id ≠ o.id := by
    rintro rfl
    rw [fresh] at m
    cases m
  rwa [create_of, Function.update_of_ne other]

/-- A new version adds to the histories. -/
lemma within_update {past : List Order} {o o' : Order} {data : Value}
    (last : H.of o.id = past ++ [o])
    (step : transition o data = .ok o') : Within H (H.update last step) := by
  intro id x m
  rw [update_of]
  by_cases same : id = o.id
  · subst same
    rw [Function.update_self]
    rw [last] at m
    exact List.mem_append.2 ((List.mem_append.1 m).imp_right fun m =>
      List.mem_cons.2 (.inl (List.mem_singleton.1 m)))
  · rwa [Function.update_of_ne same]

/-- A new order is in its history. -/
lemma create_self {o : Order} (new : History [o]) : o ∈ (H.create o new).of o.id := by
  rw [create_of, Function.update_self]
  exact List.mem_singleton_self o

/-- A new version is in its history. -/
lemma update_self {past : List Order} {o o' : Order} {data : Value} (last : H.of o.id = past ++ [o])
    (step : transition o data = .ok o') : o' ∈ (H.update last step).of o'.id := by
  have id : o'.id = o.id := by
    obtain ⟨next, status, _, _, rfl⟩ := transition_inv step
    rfl
  rw [update_of, id, Function.update_self]
  simp

/-- The version that the database holds. -/
def Current (H : Histories) (o : Order) : Prop := (H.of o.id).getLast? = some o

/-- The current version is in the history. -/
lemma Current.mem {o : Order} (h : Current H o) : o ∈ H.of o.id := List.mem_of_getLast? h

end Search.Histories

/-! ### Messages -/

/-- A message with the version that it was made of, which is no part of it. -/
structure Sent where
  order : Order
  key : Bytes
  raw : Bytes

/-- The message decodes to an event of its version. -/
structure Sent.Carries (m : Sent) (H : Search.Histories) (es ms : Fields) : Prop where
  made : m.order ∈ H.of m.order.id
  read : readRecord (some m.key) (some m.raw) = .ok (.dict es)
  order : lookup (str "order") es = some (.dict ms)
  perm : ms.Perm m.order.members

variable {H : Search.Histories} {m : Sent} {es ms : Fields}

/-- What is carried stays so as histories grow. -/
lemma Sent.Carries.within (h : m.Carries H es ms) {H' : Search.Histories} (within : H.Within H') :
    m.Carries H' es ms where
  made := within _ _ h.made
  read := h.read
  order := h.order
  perm := h.perm

/-- What is delivered of a message. -/
def Sent.Carries.delivery (h : m.Carries H es ms) : Search.Delivery H where
  order := m.order
  mem := h.made
  ms := ms
  perm := h.perm

/-- An event of a version, sent under the id of its order. -/
theorem carries_eventWith {o : Order} (made : o ∈ H.of o.id) {eventId : Str} (uuid : IsUuid eventId)
    {extra : List (String × Value)} (appended : Appended extra) {key raw : Bytes}
    (keyOf : encode o.id = .ok key)
    {order : Fields} (members : order.Perm o.members)
    (rawOf : Message.canonical (eventWith eventId (.dict order) extra) = .ok raw) :
    ∃ es ms, Sent.Carries ⟨o, key, raw⟩ H es ms := by
  have history := H.history o.id (List.ne_nil_of_mem made)
  obtain ⟨b, es, ms, written, _, decoded, _, orderOf, perm⟩ :=
    eventWith_decoded history made members uuid appended
  cases rawOf.symm.trans written
  have id := ((history.valid o made).fields perm).id
  refine ⟨es, ms, made, ?_, orderOf, perm⟩
  unfold readRecord
  simp only [decoded, ok_bind, Value.item, orderOf, Except.bind, id, Except.mapError, keyOf, ne_eq,
    not_true_eq_false, if_false]
  rfl

end DbLab.Mvp
