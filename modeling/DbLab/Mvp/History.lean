import DbLab.Mvp.Events
import DbLab.Py.Size

/-!
# The versions of an order

What `create` and `update` make of an order, version by version, and that every version passes the
checks that events are subject to.
-/

namespace DbLab.Mvp
open DbLab.Py

/-! ### Stripped text -/

/-- What is left does not begin with what was dropped. -/
lemma dropWhile_head {p : Nat → Bool} {s : Str} {c : Nat} {r : Str} (h : s.dropWhile p = c :: r) :
    p c = false := by
  induction s with
  | nil => cases h
  | cons a s ih =>
    rw [List.dropWhile_cons] at h
    split at h
    · exact ih h
    · cases h
      exact eq_false_of_ne_true ‹_›

/-- Nothing is dropped where the test fails at once. -/
lemma dropWhile_of_head {p : Nat → Bool} {s : Str} (h : ∀ c r, s = c :: r → p c = false) :
    s.dropWhile p = s := by
  cases s with
  | nil => rfl
  | cons c r => rw [List.dropWhile_cons, h c r rfl, if_neg Bool.false_ne_true]

/-- Stripped text has nothing to strip. -/
lemma stripped_stripped (s : Str) : stripped (stripped s) = stripped s := by
  obtain ⟨t, ht⟩ : ∃ t, t = s.dropWhile unicodeSpace := ⟨_, rfl⟩
  have front : ∀ c r, t = c :: r → unicodeSpace c = false :=
    fun c r e => dropWhile_head (ht.symm.trans e)
  have text : stripped s = (t.reverse.dropWhile unicodeSpace).reverse := by rw [stripped, ht]
  have leading : ∀ c r, stripped s = c :: r → unicodeSpace c = false := by
    intro c r e
    -- what is left is the beginning of `t`
    obtain ⟨u, hu⟩ := List.dropWhile_suffix (l := t.reverse) unicodeSpace
    have split : t = stripped s ++ u.reverse := by
      rw [text, ← List.reverse_append, hu, List.reverse_reverse]
    rw [e] at split
    exact front c _ split
  have trailing : ∀ c r, (stripped s).reverse = c :: r → unicodeSpace c = false := by
    intro c r e
    rw [text, List.reverse_reverse] at e
    exact dropWhile_head e
  have first : (stripped s).dropWhile unicodeSpace = stripped s := dropWhile_of_head leading
  have last : (stripped s).reverse.dropWhile unicodeSpace = (stripped s).reverse :=
    dropWhile_of_head trailing
  have unfolded : stripped (stripped s) =
    (((stripped s).dropWhile unicodeSpace).reverse.dropWhile unicodeSpace).reverse := rfl
  rw [unfolded, first, last, List.reverse_reverse]

/-- A stripped text has no new characters. -/
lemma stripped_subset (s : Str) : ∀ c ∈ stripped s, c ∈ s := by
  intro c m
  have inner := (List.dropWhile_suffix _).subset (List.mem_reverse.1 m)
  exact (List.dropWhile_suffix _).subset (List.mem_reverse.1 inner)

/-! ### Times -/

/-- `isoformat(timespec="milliseconds")` of a time in UTC. -/
def timestampPattern : Pattern :=
  .seq (.times isDigit 4) <| .seq (.lit "-") <| .seq (.times isDigit 2) <| .seq (.lit "-") <|
    .seq (.times isDigit 2) <|
    .seq (.lit "T") <| .seq (.times isDigit 2) <| .seq (.lit ":") <| .seq (.times isDigit 2) <|
      .seq (.lit ":") <|
      .seq (.times isDigit 2) <| .seq (.lit ".") <| .seq (.times isDigit 3) (.lit "+00:00")

/-- What `datetime.now(timezone.utc).isoformat(timespec="milliseconds")` gives. -/
structure IsTimestamp (s : Str) : Prop where
  shape : timestampPattern.fullmatch s = true
  date : fromisoformat s = true

/-- A timestamp is ASCII. -/
lemma IsTimestamp.ascii {s : Str} (h : IsTimestamp s) : ∀ c ∈ s, c < 128 := by
  have lit : ∀ w : String, (∀ c ∈ str w, c < 128) → Pattern.Within (· < 128) (.lit w) :=
    fun _ => .lit
  have digits : ∀ n, Pattern.Within (· < 128) (.times isDigit n) := .times fun c digit => by
    simp only [isDigit, Bool.and_eq_true, decide_eq_true_eq] at digit
    omega
  exact ((digits 4).seq ((lit "-" (by decide)).seq
    ((digits 2).seq ((lit "-" (by decide)).seq ((digits 2).seq
    ((lit "T" (by decide)).seq
      ((digits 2).seq ((lit ":" (by decide)).seq ((digits 2).seq ((lit ":" (by decide)).seq
      ((digits 2).seq ((lit "." (by decide)).seq
        ((digits 3).seq (lit "+00:00" (by decide))))))))))))))).fullmatch h.shape

/-- A timestamp has 29 characters at most. -/
lemma IsTimestamp.length {s : Str} (h : IsTimestamp s) : s.length ≤ 29 := by
  have lit : ∀ w : String, Pattern.Short (str w).length (.lit w) := .lit
  have digits : ∀ n, Pattern.Short n (.times isDigit n) := .times isDigit
  exact ((digits 4).seq ((lit "-").seq
    ((digits 2).seq ((lit "-").seq ((digits 2).seq ((lit "T").seq ((digits 2).seq
    ((lit ":").seq ((digits 2).seq ((lit ":").seq ((digits 2).seq ((lit ".").seq ((digits 3).seq
      (lit "+00:00")))))))))))))).fullmatch h.shape

/-! ### Valid orders -/

/-- An order that passes the checks of `validate_event`. -/
structure Order.Valid (o : Order) : Prop where
  uuid : IsUuid o.id
  itemLength : 1 ≤ (stripped o.item).length ∧ (stripped o.item).length ≤ 100
  itemText : ∃ b, encode o.item = .ok b
  quantityRange : 1 ≤ o.quantity ∧ o.quantity ≤ 1000
  unitPriceRange : 0 ≤ o.unitPrice ∧ o.unitPrice ≤ 100000000
  totalValue : o.total = o.quantity * o.unitPrice
  statusKnown : (nextStates o.status).isSome
  versionRange : 1 ≤ o.version
  createdAtDate : fromisoformat o.createdAt = true

/-- A status that another leads to is a status. -/
lemma nextStates_closed {status s : Str} {next : List String} (h : nextStates status = some next)
    (m : named next s = true) : (nextStates s).isSome := by
  have table : ∀ e ∈ states, ∀ n ∈ e.2, (nextStates (str n)).isSome := by decide
  obtain ⟨e, found, rfl⟩ := Option.map_eq_some_iff.1 h
  obtain ⟨n, mn, rfl⟩ := named_iff.1 m
  exact table e (List.mem_of_find?_eq_some found) n mn

/-- Where an order stands: the status says how many versions there can have been. -/
def Order.Staged (o : Order) : Prop :=
  (o.status = str "created" ∧ o.version = 1) ∨ (o.status = str "paid" ∧ o.version = 2) ∨
    (o.status = str "shipped" ∧ o.version = 3) ∨ (o.status = str "cancelled" ∧ o.version ≤ 3)

/-- An order has three versions at most. -/
lemma Order.Staged.version_le {o : Order} (h : o.Staged) : o.version ≤ 3 := by
  rcases h with ⟨_, v⟩ | ⟨_, v⟩ | ⟨_, v⟩ | ⟨_, v⟩ <;> omega

/-- A status has no surrogates. -/
lemma Order.Staged.status_scalar {o : Order} (h : o.Staged) : ∀ c ∈ o.status, Scalar c := by
  have ascii : ∀ n ∈ ["created", "paid", "shipped", "cancelled"], ∀ c ∈ str n, c < 128 := by decide
  intro c m
  rcases h with ⟨st, _⟩ | ⟨st, _⟩ | ⟨st, _⟩ | ⟨st, _⟩ <;> rw [st] at m <;>
    exact ascii_scalar (ascii _ (by simp) c m)

/-- Numbers of eighteen digits can be written. -/
lemma small_digits {n : Int} (lower : 0 ≤ n) (upper : n < 10 ^ 18) :
    (digitChars n.natAbs).length ≤ maxStrDigits :=
  (digitChars_length (k := 18) (by omega) (by decide)).trans (by decide)

/-- The total of a valid order is in range. -/
lemma Order.Valid.total {o : Order} (valid : o.Valid) : 0 ≤ o.total ∧ o.total < 10 ^ 18 := by
  have q := valid.quantityRange
  have p := valid.unitPriceRange
  rw [valid.totalValue]
  constructor
  · exact Int.mul_nonneg (by omega) p.1
  · have bound : o.quantity * o.unitPrice ≤ 1000 * 100000000 :=
      Int.mul_le_mul q.2 p.2 p.1 (by decide)
    omega

section
variable [Interpreter]

/-- The members of an order, as `SELECT` returns it. -/
def Order.members (o : Order) : Fields := o.fields.map fun f => (str f.1, f.2)

/-- The members of an order have keys of their own. -/
lemma Order.members_keys (o : Order) : (o.members.map Prod.fst).Nodup := by
  have names : o.members.map Prod.fst =
      ["id", "item", "quantity", "unit_price", "total", "status", "version",
        "created_at"].map str := by
    simp [Order.members, Order.fields]
  rw [names]
  exact literals_nodup (by decide)

/-- A dictionary with the members of a valid order passes the checks. -/
theorem Order.Valid.fields {o : Order} (valid : o.Valid) {ms : Fields} (perm : ms.Perm o.members) :
    ValidFields ms o := by
  have at_key : ∀ e ∈ o.members, lookup e.1 ms = some e.2 := by
    intro e m
    rw [lookup_perm perm ((perm.map Prod.fst).nodup_iff.2 o.members_keys)]
    exact lookup_of_mem o.members_keys m
  have member : ∀ {k : String} {v : Value}, (k, v) ∈ o.fields → lookup (str k) ms = some v := by
    intro k v m
    exact at_key (str k, v) (List.mem_map.2 ⟨(k, v), m, rfl⟩)
  exact {
    id := member (by simp [Order.fields])
    uuid := valid.uuid
    item := member (by simp [Order.fields])
    itemLength := valid.itemLength
    itemText := valid.itemText
    quantity := member (by simp [Order.fields])
    quantityRange := valid.quantityRange
    unitPrice := member (by simp [Order.fields])
    unitPriceRange := valid.unitPriceRange
    total := member (by simp [Order.fields])
    totalValue := valid.totalValue
    status := member (by simp [Order.fields])
    statusKnown := valid.statusKnown
    version := member (by simp [Order.fields])
    versionRange := valid.versionRange
    createdAt := member (by simp [Order.fields])
    createdAtDate := valid.createdAtDate }

/-- The versions of an order in a row: one that `create` made, and what `update` made of it. -/
inductive History : List Order → Prop where
  | created {data : Value} {draft : Draft} {id createdAt : Str}
      (input : createInput data = .ok draft) (uuid : IsUuid id)
    (time : IsTimestamp createdAt) : History [newOrder draft id createdAt]
  | updated {past : List Order} {o o' : Order} {data : Value} (before : History (past ++ [o]))
    (step : transition o data = .ok o') : History (past ++ [o, o'])

/-- What a transition does. -/
lemma transition_inv {o o' : Order} {data : Value} (h : transition o data = .ok o') :
    ∃ next status, nextStates o.status = some next ∧ named next status = true ∧
      o' = { o with status := status, version := o.version + 1 } := by
  unfold transition at h
  split at h
  · split at h
    · split at h
      · cases h
      · split at h
        · split at h
          · cases h
          · rename_i next known
            split at h
            · cases h
              exact ⟨next, _, known, ‹_›, rfl⟩
            · cases h
        · cases h
    · cases h
  · cases h

/-- A new order is valid. -/
lemma newOrder_valid {data : Value} {draft : Draft} {id createdAt : Str}
    (input : createInput data = .ok draft)
    (uuid : IsUuid id) (date : fromisoformat createdAt = true) :
    (newOrder draft id createdAt).Valid := by
  obtain ⟨ms, item, _, valid, stripped⟩ := createInput_inv input
  obtain ⟨b, text⟩ := valid.itemText
  have scalar := encode_inv text
  have created : (nextStates (str "created")).isSome := by decide
  refine ⟨uuid, ?_, ?_, valid.quantityRange, valid.unitPriceRange, rfl, created, le_rfl, date⟩
  · rw [newOrder, stripped, stripped_stripped]
    exact valid.itemLength
  · rw [newOrder, stripped]
    exact encode_scalar fun c m => scalar c (stripped_subset item c m)

/-- Every version of an order passes the checks. -/
theorem History.valid {h : List Order} (history : History h) : ∀ o ∈ h, o.Valid := by
  induction history with
  | created input uuid time =>
    intro o m
    rw [List.mem_singleton.1 m]
    exact newOrder_valid input uuid time.date
  | @updated past o o' data before step ih =>
    intro x m
    have old : x ∈ past ++ [o] ∨ x = o' := by simpa [or_assoc] using m
    rcases old with old | rfl
    · exact ih x old
    · obtain ⟨next, status, known, named, rfl⟩ := transition_inv step
      have valid := ih o (by simp)
      exact ⟨valid.uuid, valid.itemLength, valid.itemText, valid.quantityRange,
        valid.unitPriceRange, valid.totalValue, nextStates_closed known named,
        by have := valid.versionRange; simp only; omega, valid.createdAtDate⟩

/-- Versions are numbered from one. -/
theorem History.version {h : List Order} (history : History h) (i : Nat) (o : Order)
    (at_i : h[i]? = some o) :
    o.version = i + 1 := by
  induction history generalizing i o with
  | created input uuid time =>
    cases i with
    | zero =>
      cases at_i
      rfl
    | succ i => cases at_i
  | @updated past o₁ o₂ data before step ih =>
    rw [show past ++ [o₁, o₂] = (past ++ [o₁]) ++ [o₂] by simp] at at_i
    rcases Nat.lt_trichotomy i (past ++ [o₁]).length with lt | rfl | gt
    · rw [List.getElem?_append_left lt] at at_i
      exact ih i o at_i
    · rw [List.getElem?_append_right le_rfl, Nat.sub_self] at at_i
      cases at_i
      obtain ⟨next, status, _, _, rfl⟩ := transition_inv step
      have last := ih past.length o₁ (by simp)
      simp only [List.length_append, List.length_singleton]
      push_cast
      omega
    · rw [List.getElem?_append_right gt.le,
        List.getElem?_eq_none (by simp; simp at gt; omega)] at at_i
      cases at_i

/-- The versions of an order have one id. -/
theorem History.one {h : List Order} (history : History h) : ∃ id, ∀ o ∈ h, o.id = id := by
  induction history with
  | @created data draft id createdAt => exact ⟨id, fun o m => by rw [List.mem_singleton.1 m]; rfl⟩
  | @updated past o o' data before step ih =>
    obtain ⟨id, all⟩ := ih
    refine ⟨id, fun x m => ?_⟩
    have old : x ∈ past ++ [o] ∨ x = o' := by simpa [or_assoc] using m
    rcases old with old | rfl
    · exact all x old
    · obtain ⟨next, status, _, _, rfl⟩ := transition_inv step
      exact all o (by simp)

/-- A number stands for one version. -/
theorem History.unique {h : List Order} (history : History h) {o o' : Order} (m : o ∈ h)
    (m' : o' ∈ h)
    (same : o.version = o'.version) : o = o' := by
  obtain ⟨i, hi⟩ := List.mem_iff_getElem?.1 m
  obtain ⟨j, hj⟩ := List.mem_iff_getElem?.1 m'
  have vi := history.version i o hi
  have vj := history.version j o' hj
  have ij : i = j := by omega
  rw [ij, hj] at hi
  exact (Option.some.inj hi).symm

/-- A transition leads to the next stage. -/
lemma Order.Staged.step {o o' : Order} {data : Value} (h : o.Staged)
    (step : transition o data = .ok o') : o'.Staged := by
  obtain ⟨next, status, known, named, rfl⟩ := transition_inv step
  obtain ⟨n, mn, rfl⟩ := named_iff.1 named
  rcases h with ⟨st, v⟩ | ⟨st, v⟩ | ⟨st, v⟩ | ⟨st, _⟩
  · obtain rfl : ["paid", "cancelled"] = next := by
      rw [st] at known
      exact Option.some.inj known
    simp only [List.mem_cons, List.not_mem_nil, or_false] at mn
    rcases mn with rfl | rfl
    · exact .inr (.inl ⟨rfl, by simp only [v]; rfl⟩)
    · exact .inr (.inr (.inr ⟨rfl, by simp only [v]; decide⟩))
  · obtain rfl : ["shipped", "cancelled"] = next := by
      rw [st] at known
      exact Option.some.inj known
    simp only [List.mem_cons, List.not_mem_nil, or_false] at mn
    rcases mn with rfl | rfl
    · exact .inr (.inr (.inl ⟨rfl, by simp only [v]; rfl⟩))
    · exact .inr (.inr (.inr ⟨rfl, by simp only [v]; decide⟩))
  · obtain rfl : [] = next := by
      rw [st] at known
      exact Option.some.inj known
    cases mn
  · obtain rfl : [] = next := by
      rw [st] at known
      exact Option.some.inj known
    cases mn

/-- No order has more than three versions, and none changes the time. -/
theorem History.staged {h : List Order} (history : History h) :
    ∀ o ∈ h, o.Staged ∧ IsTimestamp o.createdAt := by
  induction history with
  | created input uuid time =>
    intro o m
    rw [List.mem_singleton.1 m]
    exact ⟨.inl ⟨rfl, rfl⟩, time⟩
  | @updated past o o' data before step ih =>
    intro x m
    have old : x ∈ past ++ [o] ∨ x = o' := by simpa [or_assoc] using m
    rcases old with old | rfl
    · exact ih x old
    · obtain ⟨staged, time⟩ := ih o (by simp)
      refine ⟨staged.step step, ?_⟩
      obtain ⟨next, status, _, _, rfl⟩ := transition_inv step
      exact time

/-- The members of a version, in any order, can be written and read back. -/
theorem History.legible {h : List Order} (history : History h) {o : Order} (m : o ∈ h) {ms : Fields}
    (perm : ms.Perm o.members) (d : Nat) : Legible (d + 1) (.dict ms) := by
  have valid := history.valid o m
  obtain ⟨staged, created⟩ := history.staged o m
  obtain ⟨b, text⟩ := valid.itemText
  have version := staged.version_le
  have versionPos := valid.versionRange
  have total := valid.total
  have each : ∀ f ∈ o.fields, Legible d f.2 := by
    intro f mf
    simp only [Order.fields, List.mem_cons, List.not_mem_nil, or_false] at mf
    rcases mf with rfl | rfl | rfl | rfl | rfl | rfl | rfl | rfl
    · exact .str valid.uuid.scalar
    · exact .str (encode_inv text)
    · exact .int (small_digits (by have := valid.quantityRange; omega)
        (by have := valid.quantityRange; omega))
    · exact .int (small_digits valid.unitPriceRange.1 (by have := valid.unitPriceRange; omega))
    · exact .int (small_digits total.1 total.2)
    · exact .str staged.status_scalar
    · exact .int (small_digits (by omega) (by omega))
    · exact .str fun c m => ascii_scalar (created.ascii c m)
  have names : literalKeys (o.fields.map Prod.fst) = true := by
    have keys : o.fields.map Prod.fst = ["id", "item", "quantity", "unit_price", "total", "status",
      "version", "created_at"] := rfl
    rw [keys]
    decide
  cases Legible.ofFields names each with
  | dict keys chars members =>
    exact .dict ((perm.map Prod.fst).nodup_iff.2 keys) (fun e m => chars e (perm.mem_iff.1 m))
      fun e m => members e (perm.mem_iff.1 m)

/-- The item of an order is stripped. -/
lemma History.item {h : List Order} (history : History h) : ∀ o ∈ h, stripped o.item = o.item := by
  induction history with
  | @created data draft id createdAt input uuid time =>
    intro o m
    rw [List.mem_singleton.1 m]
    obtain ⟨ms, item, _, _, strip⟩ := createInput_inv input
    rw [newOrder, strip, stripped_stripped]
  | @updated past o o' data before step ih =>
    intro x m
    have old : x ∈ past ++ [o] ∨ x = o' := by simpa [or_assoc] using m
    rcases old with old | rfl
    · exact ih x old
    · obtain ⟨next, status, _, _, rfl⟩ := transition_inv step
      exact ih o (by simp)

/-- The size of a number. -/
lemma int_size {n : Int} (lower : 0 ≤ n) (upper : n < 10 ^ 18) : (Value.int n).size ≤ 19 :=
  Nat.succ_le_succ (digitChars_length (k := 18) (by omega) (by decide))

/-- The size of a text. -/
lemma str_size {s : Str} {n : Nat} (h : s.length ≤ n) : (Value.str s).size ≤ 6 * n + 2 := by
  rw [Value.size]
  omega

/-- The text of a version is short. -/
theorem History.size {h : List Order} (history : History h) {o : Order} (m : o ∈ h) {ms : Fields}
    (perm : ms.Perm o.members) : (Value.dict ms).size ≤ 2000 := by
  have valid := history.valid o m
  obtain ⟨staged, created⟩ := history.staged o m
  have itemLength := valid.itemLength.2
  rw [history.item o m] at itemLength
  have version := staged.version_le
  have versionPos := valid.versionRange
  have status : o.status.length ≤ 9 := by
    rcases staged with ⟨st, _⟩ | ⟨st, _⟩ | ⟨st, _⟩ | ⟨st, _⟩ <;> rw [st] <;> decide
  have q := valid.quantityRange
  have p := valid.unitPriceRange
  have total := valid.total
  have s₁ := str_size valid.uuid.length
  have s₂ := str_size itemLength
  have s₃ := int_size (n := o.quantity) (by omega) (by omega)
  have s₄ := int_size (n := o.unitPrice) (by omega) (by omega)
  have s₅ := int_size total.1 total.2
  have s₆ := str_size status
  have s₇ := int_size (n := o.version) (by omega) (by omega)
  have s₈ := str_size created.length
  have keys : ∀ k ∈ ["id", "item", "quantity", "unit_price", "total", "status", "version",
    "created_at"],
      (str k).length ≤ 10 := by decide
  rw [Value.size, sizeDict_perm perm, sizeDict_eq]
  simp only [Order.members, Order.fields, List.map_cons, List.map_nil, List.sum_cons, List.sum_nil]
  simp only [List.forall_mem_cons] at keys
  omega

end

end DbLab.Mvp
