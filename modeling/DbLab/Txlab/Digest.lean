import DbLab.Txlab.Snapshot
import DbLab.Py.RoundTrip
import DbLab.Py.Equality

/-!
# Digests exist

`canonical` and `digest` raise only on values that cannot be written: fingerprints of purchases
always exist, and so does the digest of a snapshot whose texts and numbers are ordinary.
-/

namespace DbLab.Txlab
open DbLab.Py

/-- A number that fits a `BIGINT` column. -/
abbrev Bigint (n : Int) : Prop := n.natAbs < 10 ^ 20

abbrev Text (s : Str) : Prop := ∀ c ∈ s, Scalar c

/-! ### Case ids, keys and numbers -/

/-- A case id is a text. -/
lemma caseIdOk_scalar {c : Str} (h : caseIdOk c = true) : Text c := by
  cases c with
  | nil => exact nofun
  | cons u c =>
    simp only [caseIdOk, Bool.and_eq_true, Bool.or_eq_true, decide_eq_true_eq,
      List.all_eq_true] at h
    intro w m
    cases m with
    | head => exact ascii_scalar (by omega)
    | tail _ m =>
      rcases h.2 w m with (lower | digit) | dash
      · exact ascii_scalar (by omega)
      · exact digit_scalar digit
      · exact ascii_scalar (by omega)

/-- A request key is a text. -/
lemma keyOk_scalar {k : Str} (h : keyOk k = true) : Text k := by
  simp only [keyOk, Bool.and_eq_true, Bool.or_eq_true, decide_eq_true_eq, List.all_eq_true] at h
  intro u m
  rcases h.2 u m with (((upper | lower) | digit) | under) | dash
  · exact ascii_scalar (by omega)
  · exact ascii_scalar (by omega)
  · exact digit_scalar digit
  · exact ascii_scalar (by omega)
  · exact ascii_scalar (by omega)

variable [Interpreter]

/-- A legible value has a digest. -/
lemma digest_ok {d : Nat} {v : Value} (h : Legible d v) : ∃ t, digest v = .ok t := by
  obtain ⟨t, w⟩ := h.written { compact := true, sortKeys := true }
  obtain ⟨b, run⟩ := encode_scalar w.scalar
  exact ⟨_, by rw [digest, canonical, w.text, ok_bind, run]; rfl⟩

/-- A digest is a text. -/
lemma digest_text {v : Value} {t : Str} (h : digest v = .ok t) : Text t := by
  obtain ⟨b, _, h⟩ := bind_ok.1 h
  cases h
  intro c m
  rcases Interpreter.sha256_hex b c m with digit | lower
  · exact digit_scalar digit
  · exact ascii_scalar (by omega)

/-- Numbers that fit a `BIGINT` column can be written. -/
lemma legible_int {d : Nat} {n : Int} (h : Bigint n) : Legible d (.int n) :=
  .int ((digitChars_length h (by decide)).trans (by decide))

/-! ### Fingerprints -/

/-- A purchase is legible. -/
lemma Purchase.legible (p : Purchase) :
    Legible 1 (.ofFields [("case_id", .str p.caseId), ("key", .str p.key),
      ("quantity", .int p.quantity), ("sku", .str (str "study-widget")),
      ("buyer", .str (str "buyer"))]) := by
  apply Legible.ofFields (by simp only [List.map_cons, List.map_nil]; decide)
  intro f m
  have small := p.quantity_le
  have pos := p.quantity_pos
  simp only [List.mem_cons, List.not_mem_nil, or_false] at m
  rcases m with rfl | rfl | rfl | rfl | rfl
  · exact .str (caseIdOk_scalar p.caseId_ok)
  · exact .str (keyOk_scalar p.key_ok)
  · exact legible_int (by omega)
  · exact .str (by decide)
  · exact .str (by decide)

/-- Every purchase has a fingerprint. -/
theorem Purchase.fingerprint_ok (p : Purchase) : ∃ fp, p.fingerprint = .ok fp :=
  digest_ok p.legible

/-- A purchase is accepted as itself. -/
lemma Purchase.checked (p : Purchase) :
    purchase? (.str p.caseId) (.str p.key) (.int p.quantity) = .ok p := by
  rw [purchase?]
  exact dif_pos ⟨p.caseId_ok, p.key_ok, p.quantity_pos, p.quantity_le⟩

/-- What is accepted is the purchase. -/
lemma purchase?_inv {c k : Str} {q : Int} {p : Purchase}
    (h : purchase? (.str c) (.str k) (.int q) = .ok p) :
    p.caseId = c ∧ p.key = k ∧ p.quantity = q := by
  rw [purchase?] at h
  split at h
  · cases h
    exact ⟨rfl, rfl, rfl⟩
  · cases h

/-- Another quantity under the same key has the same fingerprint. -/
def Purchase.Ambiguous (p : Purchase) : Prop :=
  ∃ p' : Purchase, p'.caseId = p.caseId ∧ p'.key = p.key ∧ p'.quantity ≠ p.quantity ∧
    p'.fingerprint = p.fingerprint

/-- An order with an accepted purchase has a fingerprint. -/
lemma fingerprint?_ok {o : OrderRow} {c : Str} {p : Purchase}
    (h : purchase? (.str c) (.str o.requestKey) (.int o.quantity) = .ok p) :
    ∃ fp, o.fingerprint? c = some fp ∧ p.fingerprint = .ok fp := by
  obtain ⟨fp, run⟩ := p.fingerprint_ok
  exact ⟨fp, by rw [OrderRow.fingerprint?, h]; simp only [run]; rfl, run⟩

/-! ### Event payloads -/

/-- `canonical({...}).decode()` for the payload of an event. -/
def OrderRow.payloadText (o : OrderRow) (kind : Str) : Except Exn Str := do
  decode false (← canonical (o.payload kind))

/-- The payload of an order is legible. -/
lemma OrderRow.payload_legible {o : OrderRow} {kind : Str} (id : Text o.id)
    (quantity : Bigint o.quantity)
    (amount : Bigint o.amount) (text : Text kind) : Legible 1 (o.payload kind) := by
  apply Legible.ofFields (by simp only [List.map_cons, List.map_nil]; decide)
  intro f m
  simp only [List.mem_cons, List.not_mem_nil, or_false] at m
  rcases m with rfl | rfl | rfl | rfl
  exacts [.str id, legible_int quantity, legible_int amount, .str text]

/-- A payload text exists and reads back as the payload. -/
theorem OrderRow.payloadText_ok (o : OrderRow) (kind : Str) (id : Text o.id)
    (quantity : Bigint o.quantity)
    (amount : Bigint o.amount) (text : Text kind) :
    ∃ t, o.payloadText kind = .ok t ∧ Text t ∧
      ∃ v, loadsPayload (.str t) = .ok v ∧ v.eq (o.payload kind) = true := by
  have legible := OrderRow.payload_legible id quantity amount text
  have depth : 1 ≤ Interpreter.recursionLimit :=
    Nat.le_trans (by decide) Interpreter.recursionLimit_ge
  obtain ⟨t, dumped, scalar, read⟩ := legible.loads { compact := true, sortKeys := true }
    Hooks.default_keeps depth
  obtain ⟨b, encoded⟩ := encode_scalar scalar
  refine ⟨t, ?_, scalar, _, by rw [loadsPayload, read], ?_⟩
  · rw [OrderRow.payloadText, canonical, dumped, ok_bind, encoded, ok_bind, decode_encode encoded]
  · rw [OrderRow.payload, Value.ofFields, Value.reorder, reorderDict_eq]
    have same : ([("order_id", Value.str o.id), ("quantity", .int o.quantity),
      ("amount", .int o.amount),
        ("state", .str kind)].map fun f => (str f.1, f.2)).map
          (fun e => (e.1, e.2.reorder { compact := true, sortKeys := true })) =
        [("order_id", Value.str o.id), ("quantity", .int o.quantity), ("amount", .int o.amount),
          ("state", .str kind)].map fun f => (str f.1, f.2) := rfl
    rw [same]
    apply eq_dict_of_perm (order_perm _ _)
    · simp
    · simp

/-! ### Snapshots -/

/-- The texts and numbers of all rows can be written. -/
structure Snapshot.Plain (s : Snapshot) : Prop where
  inventory : ∀ r ∈ s.inventory, Text r.caseId ∧ Bigint r.initialQty ∧ Bigint r.available ∧
    Bigint r.unitPrice
  wallets : ∀ r ∈ s.wallets, Text r.caseId ∧ Text r.owner ∧ Bigint r.initialBalance ∧
    Bigint r.balance
  requests : ∀ r ∈ s.requests, Text r.caseId ∧ Text r.requestKey ∧ Text r.fingerprint ∧
    Text r.orderId
  orders : ∀ r ∈ s.orders, Text r.id ∧ Text r.caseId ∧ Text r.requestKey ∧ Bigint r.quantity ∧
    Bigint r.amount ∧ Text r.state
  ledger : ∀ r ∈ s.ledger, Text r.id ∧ Text r.caseId ∧ Text r.orderId ∧ Text r.owner ∧
    Text r.phase ∧ Bigint r.delta
  events : ∀ r ∈ s.events, Text r.id ∧ Text r.caseId ∧ Text r.orderId ∧ Text r.kind ∧ Text r.payload

/-- Rows of legible values are legible. -/
lemma legible_rows {ρ : Type} {v : ρ → Value} {rs : List ρ} {d : Nat}
    (h : ∀ r ∈ rs, Legible d (v r)) :
    Legible (d + 1) (.list (rs.map v)) := by
  apply Legible.list
  intro x m
  obtain ⟨r, mr, rfl⟩ := List.mem_map.1 m
  exact h r mr

/-- A plain snapshot is legible. -/
lemma Snapshot.Plain.legible {s : Snapshot} (h : s.Plain) : Legible 3 s.toValue := by
  apply Legible.ofFields (by simp only [List.map_cons, List.map_nil]; decide)
  intro f m
  simp only [List.mem_cons, List.not_mem_nil, or_false] at m
  rcases m with rfl | rfl | rfl | rfl | rfl | rfl <;> apply legible_rows <;> intro r mr <;>
    apply Legible.ofFields (by simp only [List.map_cons, List.map_nil]; decide) <;> intro f m <;>
    simp only [List.mem_cons, List.not_mem_nil, or_false] at m
  · obtain ⟨c, q, a, p⟩ := h.inventory r mr
    rcases m with rfl | rfl | rfl | rfl
    exacts [.str c, legible_int q, legible_int a, legible_int p]
  · obtain ⟨c, o, i, b⟩ := h.wallets r mr
    rcases m with rfl | rfl | rfl | rfl
    exacts [.str c, .str o, legible_int i, legible_int b]
  · obtain ⟨c, k, fp, o⟩ := h.requests r mr
    rcases m with rfl | rfl | rfl | rfl
    exacts [.str c, .str k, .str fp, .str o]
  · obtain ⟨i, c, k, q, a, st⟩ := h.orders r mr
    rcases m with rfl | rfl | rfl | rfl | rfl | rfl
    exacts [.str i, .str c, .str k, legible_int q, legible_int a, .str st]
  · obtain ⟨i, c, o, w, p, d⟩ := h.ledger r mr
    rcases m with rfl | rfl | rfl | rfl | rfl | rfl
    exacts [.str i, .str c, .str o, .str w, .str p, legible_int d]
  · obtain ⟨i, c, o, k, p⟩ := h.events r mr
    rcases m with rfl | rfl | rfl | rfl | rfl
    exacts [.str i, .str c, .str o, .str k, .str p]

end DbLab.Txlab
