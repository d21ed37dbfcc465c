import DbLab.Mvp.Storefront
import DbLab.Py.Text

/-!
# What a simulation knows of its orders (`simulation.py`)

For every idempotency key a run keeps the payload it asked for, the ids and the copies that answers
acknowledged and the updates it attempted. `register`, `acknowledge` and `update` build this journal
from whatever answers come.
-/

namespace DbLab.Mvp.Simulation
open DbLab.Py

variable [Interpreter]

/-- An answer of the study API: its status, or 0 where none came, and its object. -/
structure Response where
  status : Int
  payload : Fields

/-- An order with every field. -/
structure Copy where
  fields : Fields
  complete : ∀ k ∈ orderFields, (lookup (str k) fields).isSome = true

/-- `order[k]` of a field. -/
def Copy.field (c : Copy) (k : String) : Value := c.fields.getD k .null

/-- `type(v) is type(w)` -/
def sameType : Value → Value → Bool
  | .null, .null | .bool _, .bool _ | .int _, .int _ | .float _, .float _ | .str _,
      .str _ | .list _, .list _
  | .dict _, .dict _ => true
  | _, _ => false

/-- The field is missing on one side, or has another type or value. -/
def differs (r c : Fields) (k : String) : Bool :=
  match lookup (str k) c, lookup (str k) r with
  | some v, some w => !sameType v w || !v.eq w
  | _, _ => true

/-- `differences(reference, candidate)` (`inspection.py`) -/
def differences : Value → Value → List String
  | .dict r, .dict c => orderFields.filter (differs r c)
  | _, _ => orderFields

structure Intent where
  payload : Fields
  ids : List Value
  acknowledged : List (Str × Copy)
  attemptedUpdates : List Value

/-- `self.intents` and `self.contract_errors`. -/
structure Journal where
  intents : List (Str × Intent)
  contractErrors : List (String × Option Str)

namespace Journal

def empty : Journal := ⟨[], []⟩

def contract (j : Journal) (code : String) (key : Option Str) : Journal :=
  { j with contractErrors := j.contractErrors ++ [(code, key)] }

def put (j : Journal) (key : Str) (i : Intent) : Journal :=
  { j with intents := insertKey key i j.intents }

/-- A broken contract leaves the intents alone. -/
@[simp] lemma contract_intents (j : Journal) (code : String) (key : Option Str) :
    (j.contract code key).intents = j.intents := rfl

/-- The intent that was put. -/
@[simp] lemma put_self (j : Journal) (key : Str) (i : Intent) :
    lookup key (j.put key i).intents = some i :=
  lookup_insertKey_self

/-- Intents of other keys are kept. -/
lemma put_ne {key k : Str} (j : Journal) (i : Intent) (h : key ≠ k) :
    lookup k (j.put key i).intents = lookup k j.intents :=
  lookup_insertKey_ne h

end Journal

/-! ### The steps of a run -/

/-- `register` -/
def register (key : Str) (payload : Fields) (j : Journal) : Journal :=
  match lookup key j.intents with
  | some _ => j
  | none => j.put key ⟨payload, [], [], []⟩

/-- The order of an answer, where it is an object with every field. -/
def shownOrder (r : Response) : Option Copy :=
  match r.payload.getD "order" .null with
  | .dict ms =>
    if complete : ∀ k ∈ orderFields, (lookup (str k) ms).isSome =
      true then some ⟨ms, complete⟩ else none
  | _ => none

def payloadFields : List String := ["item", "quantity", "unit_price"]

/-- `any(order.get(k) != payload[k] for k in ("item", "quantity", "unit_price"))` -/
def payloadDiffers (order payload : Fields) : Except Exn Bool :=
  payloadFields.anyM fun k => do return !(order.getD k .null).eq (← payload.at (str k))

/-- `v in xs` -/
def contains (xs : List Value) (v : Value) : Bool := xs.any fun x => x.eq v

/-- Whether a value is in a list. -/
lemma contains_iff {xs : List Value} {v : Value} : contains xs v = true ↔ ∃ x ∈ xs, x.eq v = true :=
  List.any_eq_true

def Intent.identify (i : Intent) (id : Value) : Intent :=
  if contains i.ids id then i else { i with ids := i.ids ++ [id] }

/-- The id that was noted is among the ids. -/
lemma Intent.identify_mem (i : Intent) (id : Value) :
    ∃ x ∈ (i.identify id).ids, x = id ∨ x.eq id = true := by
  unfold Intent.identify
  split
  · rename_i known
    obtain ⟨x, m, same⟩ := contains_iff.1 known
    exact ⟨x, m, .inr same⟩
  · exact ⟨id, List.mem_append_right _ List.mem_cons_self, .inl rfl⟩

/-- A copy with this text of a version is known and differs. -/
def Intent.contradicts (i : Intent) (version : Str) (order : Copy) : Bool :=
  match lookup version i.acknowledged with
  | some old => differences (.dict old.fields) (.dict order.fields) ≠ []
  | none => false

variable [Unicode]

/-- The end of `acknowledge`: the id is noted, then the copy under the text of its version. -/
def noteCopy (key : Str) (order : Copy) (i : Intent) (j : Journal) : Journal × Except Exn Unit :=
  let i := i.identify (order.field "id")
  let j := if 1 < i.ids.length then j.contract "same_key_multiple_order_ids" (some key) else j
  match (order.field "version").asStr with
  | .error e => (j.put key i, .error e)
  | .ok version =>
    let j :=
      if i.contradicts version order then j.contract "same_version_different_content"
        (some key) else j
    (j.put key { i with acknowledged := insertKey version order i.acknowledged }, .ok ())

/-- `response.status in {200, 201}` -/
def Response.accepted (r : Response) : Bool := r.status = 200 || r.status = 201

/-- `acknowledge` -/
def acknowledge (key : Str) (r : Response) (j : Journal) : Journal × Except Exn Unit :=
  if r.accepted then
    match shownOrder r with
    | none => (j.contract "invalid_order_acknowledgement" none, .ok ())
    | some order => match lookup key j.intents with
      | none => (j, .error .keyError)
      | some i => match payloadDiffers order.fields i.payload with
        | .error e => (j, .error e)
        | .ok changed =>
          noteCopy key order i (if changed then j.contract "acknowledged_payload_changed"
            (some key) else j)
  else (j, .ok ())

/-- `[order["version"] + 1, status]` -/
def attempt (order : Value) (status : Str) : Except Exn Value := do
  let version ← order.item "version"
  return .list [← version.add (.int 1), .str status]

/-- `update`: the attempt is noted before the call, whatever comes of it. -/
def update (key : Str) (order : Value) (status : Str) (reply : Except Exn Response) (j : Journal) :
    Journal × Except Exn Unit :=
  match lookup key j.intents with
  | none => (j, .error .keyError)
  | some i => match attempt order status with
    | .error e => (j, .error e)
    | .ok a =>
      let j := j.put key { i with attemptedUpdates := i.attemptedUpdates ++ [a] }
      match reply with
      | .error e => (j, .error e)
      | .ok r => acknowledge key r j

/-- The orders of a call that returned. -/
def returned (orders : List Copy) : Except Exn Unit → List Copy
  | .ok _ => orders
  | .error _ => []

/-- What an answer adds to the acknowledged orders. -/
def added (r : Response) (result : Except Exn Unit) : List Copy :=
  returned (if r.accepted then shownOrder r else none).toList result

/-- What happens to the journal; `create` is a registration and then what the answer
acknowledges. -/
inductive Event where
  | register (key : Str) (payload : Fields)
  | acknowledge (key : Str) (r : Response)
  | update (key : Str) (order : Value) (status : Str) (reply : Except Exn Response)

namespace Event

def key : Event → Str
  | .register key _ | .acknowledge key _ | .update key _ _ _ => key

/-- The answer that the event hands to `acknowledge`. -/
def response : Event → Option Response
  | .acknowledge _ r | .update _ _ _ (.ok r) => some r
  | _ => none

def apply : Event → Journal → Journal × Except Exn Unit
  | .register key payload, j => (Simulation.register key payload j, .ok ())
  | .acknowledge key r, j => Simulation.acknowledge key r j
  | .update key order status reply, j => Simulation.update key order status reply j

/-- The orders that the event acknowledges for a key: none where it raises. -/
def acknowledges (e : Event) (key : Str) (j : Journal) : List Copy :=
  if e.key = key then
    match e.response with
    | some r => added r (e.apply j).2
    | none => []
  else []

end Event

def run : List Event → Journal → Journal
  | [], j => j
  | e :: es, j => run es (e.apply j).1

/-- The orders that a run acknowledges for a key. -/
def acknowledgements (key : Str) : List Event → Journal → List Copy
  | [], _ => []
  | e :: es, j => e.acknowledges key j ++ acknowledgements key es (e.apply j).1

/-! ### What the journal holds -/

/-- An intent holds the orders acknowledged so far: their ids, and by the text of its version the
last copy. -/
structure Intent.Tracks (i : Intent) (log : List Copy) : Prop where
  ids : ∀ c ∈ log, ∃ x ∈ i.ids, x = c.field "id" ∨ x.eq (c.field "id") = true
  versions : ∀ c ∈ log, ∃ t, (c.field "version").asStr = .ok t ∧ t ∈ i.acknowledged.map Prod.fst
  copies : ∀ e ∈ i.acknowledged, e.2 ∈ log ∧ (e.2.field "version").asStr = .ok e.1
  nodup : (i.acknowledged.map Prod.fst).Nodup

/-- The journal tracks the orders acknowledged for a key; without an intent there are none. -/
def Journal.Tracks (j : Journal) (key : Str) (log : List Copy) : Prop :=
  match lookup key j.intents with
  | some i => i.Tracks log
  | none => log = []

/-- The id of an order does not matter to its copies. -/
lemma Intent.Tracks.identify {i : Intent} {log : List Copy} (h : i.Tracks log) (id : Value) :
    (i.identify id).Tracks log := by
  unfold Intent.identify
  split
  · exact h
  · refine ⟨?_, h.versions, h.copies, h.nodup⟩
    intro c m
    obtain ⟨x, mx, same⟩ := h.ids c m
    exact ⟨x, List.mem_append_left _ mx, same⟩

/-- A copy is put under the text of its version. -/
lemma Intent.Tracks.copy {i : Intent} {log : List Copy} {order : Copy} {version : Str}
    (h : i.Tracks log)
    (id : ∃ x ∈ i.ids, x = order.field "id" ∨ x.eq (order.field "id") = true)
    (text : (order.field "version").asStr = .ok version) :
    Tracks { i with acknowledged := insertKey version order i.acknowledged } (log ++ [order]) where
  ids := by
    intro c m
    rcases List.mem_append.1 m with old | new
    · exact h.ids c old
    · cases List.mem_singleton.1 new
      exact id
  versions := by
    intro c m
    rcases List.mem_append.1 m with old | new
    · obtain ⟨t, known, mt⟩ := h.versions c old
      exact ⟨t, known, mem_insertKey_keys.2 (.inr mt)⟩
    · cases List.mem_singleton.1 new
      exact ⟨version, text, mem_insertKey_keys.2 (.inl rfl)⟩
  copies := by
    intro e m
    rcases mem_insertKey h.nodup m with rfl | ⟨old, _⟩
    · exact ⟨List.mem_append_right _ List.mem_cons_self, text⟩
    · exact ⟨List.mem_append_left _ (h.copies e old).1, (h.copies e old).2⟩
  nodup := insertKey_nodup h.nodup

/-- The tracks of a key depend on its intent. -/
lemma Journal.Tracks.of_lookup {j j' : Journal} {key : Str} {log : List Copy} (h : j.Tracks key log)
    (same : lookup key j'.intents = lookup key j.intents) : j'.Tracks key log := by
  unfold Journal.Tracks at h ⊢
  rw [same]
  exact h

/-- An intent that tracks is put. -/
lemma Journal.Tracks.put {j : Journal} {key : Str} {i : Intent} {log : List Copy}
    (h : i.Tracks log) :
    (j.put key i).Tracks key log := by
  unfold Journal.Tracks
  rw [Journal.put_self]
  exact h

/-- The intent of a key tracks. -/
lemma Journal.Tracks.intent {j : Journal} {key : Str} {i : Intent} {log : List Copy}
    (h : j.Tracks key log)
    (found : lookup key j.intents = some i) : i.Tracks log := by
  unfold Journal.Tracks at h
  rw [found] at h
  exact h

/-- Noting a copy touches one key; where it returns, the copy is tracked. -/
lemma noteCopy_tracks {key : Str} {order : Copy} {i : Intent} {j : Journal} {log : List Copy}
    (h : i.Tracks log) :
    (noteCopy key order i j).1.Tracks key (log ++ returned [order] (noteCopy key order i j).2) := by
  have tracked := h.identify (order.field "id")
  unfold noteCopy
  simp only
  split
  · rw [returned, List.append_nil]
    exact .put tracked
  · rename_i version text
    exact .put (tracked.copy (i.identify_mem _) text)

/-- A copy leaves other keys alone. -/
lemma noteCopy_other {key k : Str} {order : Copy} {i : Intent} {j : Journal} (ne : key ≠ k) :
    lookup k (noteCopy key order i j).1.intents = lookup k j.intents := by
  unfold noteCopy
  simp only
  split
  · rw [Journal.put_ne _ _ ne]
    split <;> rfl
  · rw [Journal.put_ne _ _ ne]
    split <;> split <;> rfl

/-- An acknowledgement is tracked. -/
lemma acknowledge_tracks {key : Str} {r : Response} {j : Journal} {log : List Copy}
    (h : j.Tracks key log) :
    (acknowledge key r j).1.Tracks key (log ++ added r (acknowledge key r j).2) := by
  unfold acknowledge added
  by_cases accepted : r.accepted = true
  · rw [if_pos accepted, if_pos accepted]
    cases shownOrder r with
    | none =>
      rw [Option.toList_none, returned, List.append_nil]
      exact h.of_lookup rfl
    | some order =>
      simp only
      cases found : lookup key j.intents with
      | none =>
        rw [returned, List.append_nil]
        exact h
      | some i =>
        simp only
        cases payloadDiffers order.fields i.payload with
        | error e =>
          rw [returned, List.append_nil]
          exact h
        | ok changed => exact noteCopy_tracks (h.intent found)
  · rw [if_neg accepted, if_neg accepted, Option.toList_none, returned, List.append_nil]
    exact h

/-- An acknowledgement leaves other keys alone. -/
lemma acknowledge_other {key k : Str} {r : Response} {j : Journal} (ne : key ≠ k) :
    lookup k (acknowledge key r j).1.intents = lookup k j.intents := by
  unfold acknowledge
  split
  · cases shownOrder r with
    | none => rfl
    | some order =>
      simp only
      cases lookup key j.intents with
      | none => rfl
      | some i =>
        simp only
        cases payloadDiffers order.fields i.payload with
        | error e => rfl
        | ok changed =>
          simp only
          rw [noteCopy_other ne]
          split <;> rfl
  · rfl

/-- A registration changes no tracks. -/
lemma register_tracks {key k : Str} {payload : Fields} {j : Journal} {log : List Copy}
    (h : j.Tracks k log) :
    (register key payload j).Tracks k log := by
  unfold register
  cases found : lookup key j.intents with
  | some i => exact h
  | none =>
    simp only
    by_cases same : key = k
    · subst same
      unfold Journal.Tracks at h
      rw [found] at h
      cases h
      exact .put ⟨nofun, nofun, nofun, .nil⟩
    · exact h.of_lookup (Journal.put_ne _ _ same)

/-- What an answer to the key acknowledges. -/
lemma acknowledges_eq {e : Event} {key : Str} {j : Journal} {r : Response} (own : e.key = key)
    (answer : e.response = some r) :
    e.acknowledges key j = added r (e.apply j).2 := by
  rw [Event.acknowledges, if_pos own, answer]

/-- Without an answer to the key nothing is acknowledged. -/
lemma acknowledges_none {e : Event} {key : Str} {j : Journal}
    (h : e.key = key → e.response = none) :
    e.acknowledges key j = [] := by
  unfold Event.acknowledges
  split
  · rename_i own
    rw [h own]
  · rfl

/-- An intent tracks the same orders whatever is attempted. -/
lemma Intent.Tracks.attempted {i : Intent} {log : List Copy} (h : i.Tracks log) (a : List Value) :
    Tracks { i with attemptedUpdates := a } log := ⟨h.ids, h.versions, h.copies, h.nodup⟩

/-- An update is tracked. -/
lemma update_tracks {key : Str} {order : Value} {status : Str} {r : Response} {j : Journal}
    {log : List Copy}
    (h : j.Tracks key log) :
    (update key order status (.ok r) j).1.Tracks key
      (log ++ added r (update key order status (.ok r) j).2) := by
  unfold update
  cases found : lookup key j.intents with
  | none =>
    rw [added, returned, List.append_nil]
    exact h
  | some i =>
    simp only
    cases attempt order status with
    | error e =>
      rw [added, returned, List.append_nil]
      exact h
    | ok a => exact acknowledge_tracks (.put ((h.intent found).attempted _))

/-- An update without an answer leaves what was acknowledged alone. -/
lemma update_lost_tracks {key : Str} {order : Value} {status : Str} {e : Exn} {j : Journal}
    {log : List Copy}
    (h : j.Tracks key log) : (update key order status (.error e) j).1.Tracks key log := by
  unfold update
  cases found : lookup key j.intents with
  | none => exact h
  | some i =>
    simp only
    cases attempt order status with
    | error e => exact h
    | ok a => exact .put ((h.intent found).attempted _)

/-- An update leaves other keys alone. -/
lemma update_other {key k : Str} {order : Value} {status : Str} {reply : Except Exn Response}
    {j : Journal}
    (ne : key ≠ k) : lookup k (update key order status reply j).1.intents = lookup k j.intents := by
  unfold update
  cases lookup key j.intents with
  | none => rfl
  | some i =>
    simp only
    cases attempt order status with
    | error e => rfl
    | ok a =>
      cases reply with
      | error e => exact Journal.put_ne _ _ ne
      | ok r => exact (acknowledge_other ne).trans (Journal.put_ne _ _ ne)

/-- What one event does to a key that is tracked. -/
lemma Event.apply_tracks {e : Event} {key : Str} {j : Journal} {log : List Copy}
    (h : j.Tracks key log) :
    (e.apply j).1.Tracks key (log ++ e.acknowledges key j) := by
  by_cases own : e.key = key
  · subst own
    cases e with
    | register k payload =>
      rw [acknowledges_none fun _ => rfl, List.append_nil]
      exact register_tracks h
    | acknowledge k r =>
      rw [acknowledges_eq rfl rfl]
      exact acknowledge_tracks h
    | update k order status reply =>
      cases reply with
      | error e =>
        rw [acknowledges_none fun _ => rfl, List.append_nil]
        exact update_lost_tracks h
      | ok r =>
        rw [acknowledges_eq rfl rfl]
        exact update_tracks h
  · rw [acknowledges_none fun same => absurd same own, List.append_nil]
    cases e with
    | register k payload => exact register_tracks h
    | acknowledge k r => exact h.of_lookup (acknowledge_other own)
    | update k order status reply => exact h.of_lookup (update_other own)

/-- Whatever happens, the journal tracks every key. -/
theorem run_tracks {es : List Event} {key : Str} {j : Journal} {log : List Copy}
    (h : j.Tracks key log) :
    (run es j).Tracks key (log ++ acknowledgements key es j) := by
  induction es generalizing j log with
  | nil =>
    rw [acknowledgements, List.append_nil]
    exact h
  | cons e es ih =>
    rw [run, acknowledgements, ← List.append_assoc]
    exact ih (Event.apply_tracks h)

end DbLab.Mvp.Simulation
