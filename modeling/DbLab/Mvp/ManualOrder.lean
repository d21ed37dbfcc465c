import DbLab.Js.Text
import DbLab.Mvp.History
import DbLab.Mvp.HttpPolicy
import DbLab.Py.Reference

/-!
# Orders entered by hand (`manual-order.js`, `CreateOrder.jsx`)

The browser checks an order, keeps its body and key, and sends the body until an answer acknowledges
it. The server checks the order in its own way, and strips its item. The two have different notions
of white space.
-/

namespace DbLab.Mvp.Manual
open DbLab.Py DbLab.Js DbLab.Mvp.Http

/-- A value of JavaScript that is read from JSON or from a form. A number that is infinite or no
number has no value. -/
inductive JsValue where
  | null
  | bool (b : Bool)
  | number (value : Option Rat)
  | string (s : Units)
  | array (xs : List JsValue)
  | object (members : List (Units × JsValue))

/-- The units of a literal. -/
def units (s : String) : Units := ofCodePoints (str s)

/-! ### `validManualOrder` -/

/-- `Object.keys(data).sort().join(',')` -/
def keysText (ms : List (Units × JsValue)) : Str :=
  List.intercalate [44] ((sortByKey (ms.map fun e => (e.1.map UInt16.toNat, ()))).map Prod.fst)

/-- `data.name` -/
def member (ms : List (Units × JsValue)) (name : String) : Option JsValue :=
  (ms.find? fun e => e.1 = units name).map Prod.snd

/-- `typeof value === 'string'`, and the tests of an item -/
def validItem : Option JsValue → Bool
  | some (.string item) =>
    0 < item.length && item.length ≤ 100 && item = trim item && isWellFormed item
  | _ => false

/-- `Number.isInteger(value) && value >= low && value <= high` -/
def integerIn (low high : Int) : Option JsValue → Bool
  | some (.number (some q)) => q.den = 1 && low ≤ q.num && q.num ≤ high
  | _ => false

/-- `validManualOrder(data)` -/
def validManualOrder : JsValue → Bool
  | .object ms =>
    keysText ms = str "item,quantity,unit_price" && validItem (member ms "item") &&
      integerIn 1 1000 (member ms "quantity") && integerIn 0 100000000 (member ms "unit_price")
  | _ => false

/-! ### `JSON.stringify` -/

/-- One code point of a string. Only a surrogate that is alone is escaped. -/
def escapeJs (c : Nat) : Str :=
  if c = 8 then str "\\b"
  else if c = 9 then str "\\t"
  else if c = 10 then str "\\n"
  else if c = 12 then str "\\f"
  else if c = 13 then str "\\r"
  else if c = 34 then str "\\\""
  else if c = 92 then str "\\\\"
  else if c < 32 ∨ surrogate c = true then
    str "\\u" ++ [hexDigit (c / 4096 % 16), hexDigit (c / 256 % 16), hexDigit (c / 16 % 16),
      hexDigit (c % 16)]
  else [c]

def quoteJs (s : Units) : Str := 34 :: ((codePoints s).flatMap escapeJs ++ [34])

/-- The text of a number. Those of fractions and of very large integers are left out: no order has
them. -/
def numberText : Option Rat → Option Str
  | none => some (str "null")
  | some q =>
    if q.den = 1 ∧ q.num.natAbs < 10 ^ 21 then
      some (if q.num < 0 then 45 :: digitChars q.num.natAbs else digitChars q.num.natAbs)
    else none

mutual
/-- `JSON.stringify(value)` -/
def stringify : JsValue → Option Str
  | .null => some (str "null")
  | .bool b => some (if b then str "true" else str "false")
  | .number value => numberText value
  | .string s => some (quoteJs s)
  | .array xs => do
    let texts ← stringifyList xs
    return 91 :: (List.intercalate [44] texts ++ [93])
  | .object ms => do
    let texts ← stringifyMembers ms
    return 123 :: (List.intercalate [44] texts ++ [125])
def stringifyList : List JsValue → Option (List Str)
  | [] => some []
  | x :: xs => do
    let text ← stringify x
    let texts ← stringifyList xs
    return text :: texts
def stringifyMembers : List (Units × JsValue) → Option (List Str)
  | [] => some []
  | (key, value) :: ms => do
    let text ← stringify value
    let texts ← stringifyMembers ms
    return (quoteJs key ++ 58 :: text) :: texts
end

/-! ### The server, and what the browser makes of its answer -/

/-- An order in an answer. -/
structure Receipt where
  id : Units
  item : Units
  quantity : Int
  unitPrice : Int
  total : Int
  status : Units
  version : Int

/-- An order as the browser reads it. -/
def receiptOf (o : Order) : Receipt :=
  ⟨ofCodePoints o.id, ofCodePoints o.item, o.quantity, o.unitPrice, o.total,
    ofCodePoints o.status, o.version⟩

/-- `isOrderId(value)` -/
def isOrderId (value : Units) : Bool := uuidPattern.fullmatch (codePoints value)

/-- The keys of `labels` in `orders.js` -/
def labels : List String := ["created", "paid", "shipped", "cancelled"]

/-- `validReceipt(order)` -/
def validReceipt (r : Receipt) : Bool :=
  isOrderId r.id && r.item.length ≤ 100 && 1 ≤ r.quantity && r.quantity ≤ 1000 && 0 ≤ r.unitPrice &&
    r.unitPrice ≤ 100000000 && r.total = r.quantity * r.unitPrice &&
      labels.any (fun l => units l = r.status) &&
    1 ≤ r.version

/-- The members of an order that was entered: item, quantity and unit price. -/
structure Entered where
  item : Units
  quantity : Int
  unitPrice : Int
deriving DecidableEq

/-- The members of an object, where they are of their types. -/
def entered : JsValue → Option Entered
  | .object ms =>
    match member ms "item", member ms "quantity", member ms "unit_price" with
    | some (.string item), some (.number (some quantity)), some (.number (some unitPrice)) =>
      some ⟨item, quantity.num, unitPrice.num⟩
    | _, _, _ => none
  | _ => none

/-- The outcome of `request`: an order, or an error. -/
inductive Answer where
  | order (r : Receipt)
  | failed

/-- The end of `save`: whether the pending request is cleared. `here` is that the dialog is still
open at the same place. -/
def clears (data : Entered) (here : Bool) : Answer → Bool
  | .order r =>
    if !validReceipt r || r.item ≠ data.item || r.quantity ≠ data.quantity ||
      r.unitPrice ≠ data.unitPrice then false
    else here
  | .failed => false

/-! ### What the browser lets pass -/

/-- The length of `n` keys between commas. -/
lemma intercalate_length {ks : List Str} (some_ : ks ≠ []) :
    (List.intercalate [44] ks).length + 1 = (ks.map List.length).sum + ks.length := by
  induction ks with
  | nil => exact absurd rfl some_
  | cons k ks ih =>
    cases ks with
    | nil => simp
    | cons k' ks =>
      have rest := ih nofun
      simp only [List.intercalate_cons_cons, List.length_append, List.length_cons, List.length_nil,
        List.map_cons, List.sum_cons] at rest ⊢
      omega

/-- A member that is found is there. -/
lemma mem_of_member {ms : List (Units × JsValue)} {name : String} {v : JsValue}
    (found : member ms name = some v) :
    (units name, v) ∈ ms := by
  obtain ⟨e, at_, rfl⟩ := Option.map_eq_some_iff.1 found
  have key : e.1 = units name := by simpa using List.find?_some at_
  exact key ▸ List.mem_of_find?_eq_some at_

/-- The members of an accepted order. -/
def threeMembers (item quantity unitPrice : JsValue) : List (Units × JsValue) :=
  [(units "item", item), (units "quantity", quantity), (units "unit_price", unitPrice)]

/-- An accepted object has its three members and no others. -/
lemma three_members {ms : List (Units × JsValue)}
    (text : keysText ms = str "item,quantity,unit_price")
    {item quantity unitPrice : JsValue} (hi : member ms "item" = some item)
    (hq : member ms "quantity" = some quantity)
    (hp : member ms "unit_price" = some unitPrice) :
    ms.Perm (threeMembers item quantity unitPrice) := by
  have distinct : (threeMembers item quantity unitPrice).Nodup := by
    have keys : [units "item", units "quantity", units "unit_price"].Nodup := by decide
    exact List.Nodup.of_map Prod.fst keys
  have inside : threeMembers item quantity unitPrice ⊆ ms := by
    intro e m
    rcases List.mem_cons.1 m with rfl | m
    · exact mem_of_member hi
    · rcases List.mem_cons.1 m with rfl | m
      · exact mem_of_member hq
      · rw [List.mem_singleton.1 m]
        exact mem_of_member hp
  obtain ⟨l, same, sub⟩ := List.subperm_of_subset distinct inside
  obtain ⟨rest, perm⟩ := sub.exists_perm_append
  have perm : ms.Perm (threeMembers item quantity unitPrice ++ rest) :=
    perm.trans (same.append_right rest)
  -- the commas and the three keys leave no room for another key
  have sorted : ((sortByKey (ms.map fun e => (e.1.map UInt16.toNat, ()))).map Prod.fst).Perm
      (((threeMembers item quantity unitPrice) ++ rest).map fun e => e.1.map UInt16.toNat) := by
    have := ((sortByKey_perm (ms.map fun e => (e.1.map UInt16.toNat, ()))).map Prod.fst).trans
      ((perm.map fun e => (e.1.map UInt16.toNat, ())).map Prod.fst)
    simpa [List.map_map, Function.comp_def] using this
  have some_ : (sortByKey (ms.map fun e => (e.1.map UInt16.toNat, ()))).map Prod.fst ≠ [] :=
    fun none_ => by
    rw [none_] at sorted
    cases sorted.nil_eq
  have length := intercalate_length some_
  have whole : (keysText ms).length = 24 := by rw [text]; rfl
  have lengths := (sorted.map List.length).sum_eq
  have count := sorted.length_eq
  have sum : ((threeMembers item quantity unitPrice).map fun e =>
    (e.1.map UInt16.toNat).length).sum = 22 := rfl
  rw [keysText, ← Nat.add_right_cancel_iff (n := 1), length, lengths, count] at whole
  simp only [List.map_map, List.map_append, List.sum_append, Function.comp_def, List.length_append,
    List.length_map] at whole sum
  rw [sum] at whole
  have none_ : rest = [] := List.length_eq_zero_iff.1 (by simp [threeMembers] at whole; omega)
  simpa [none_] using perm

/-- What `validManualOrder` has found out. -/
structure Accepted (ms : List (Units × JsValue)) (e : Entered) : Prop where
  members : ms.Perm (threeMembers (.string e.item) (.number (some e.quantity))
    (.number (some e.unitPrice)))
  entered : entered (.object ms) = some e
  some_ : 0 < e.item.length
  short : e.item.length ≤ 100
  trimmed : e.item = trim e.item
  wellFormed : isWellFormed e.item = true
  quantity : 1 ≤ e.quantity ∧ e.quantity ≤ 1000
  unitPrice : 0 ≤ e.unitPrice ∧ e.unitPrice ≤ 100000000

/-- An integer in a range. -/
lemma integerIn_inv {low high : Int} {v : Option JsValue} (h : integerIn low high v = true) :
    ∃ n : Int, v = some (.number (some n)) ∧ low ≤ n ∧ n ≤ high := by
  unfold integerIn at h
  split at h
  · rename_i q
    simp only [Bool.and_eq_true, decide_eq_true_eq] at h
    obtain ⟨⟨integral, low⟩, high⟩ := h
    exact ⟨q.num, by rw [Rat.den_eq_one_iff q |>.1 integral], low, high⟩
  · cases h

/-- What the browser accepts. -/
lemma validManualOrder_inv {data : JsValue} (h : validManualOrder data = true) :
    ∃ ms e, data = .object ms ∧ Accepted ms e := by
  unfold validManualOrder at h
  split at h
  · rename_i ms
    simp only [Bool.and_eq_true, decide_eq_true_eq] at h
    obtain ⟨⟨⟨text, item⟩, quantity⟩, price⟩ := h
    obtain ⟨q, hq, quantity⟩ := integerIn_inv quantity
    obtain ⟨p, hp, price⟩ := integerIn_inv price
    unfold validItem at item
    split at item
    · rename_i item' hi
      simp only [Bool.and_eq_true, decide_eq_true_eq] at item
      obtain ⟨⟨⟨some_, short⟩, trimmed⟩, wellFormed⟩ := item
      refine ⟨ms, ⟨item', q, p⟩, rfl, three_members text hi hq hp, ?_, some_, short, trimmed,
        wellFormed, quantity, price⟩
      simp [entered, hi, hq, hp]
    · cases item
  · cases h

/-! ### What is sent -/

/-- A code point that is no surrogate is escaped as in Python. -/
lemma escapeJs_eq {c : Nat} (h : surrogate c = false) : escapeJs c = escapeChar c := by
  have control : ∀ c < 32,
      str "\\u" ++ [hexDigit (c / 4096 % 16), hexDigit (c / 256 % 16), hexDigit (c / 16 % 16),
        hexDigit (c % 16)] = str "\\u00" ++ [hexDigit (c / 16), hexDigit (c % 16)] := by decide
  have named : c = 8 ∨ c = 9 ∨ c = 10 ∨ c = 12 ∨ c = 13 ∨ c = 34 ∨ c = 92 ∨
      (c ≠ 8 ∧ c ≠ 9 ∧ c ≠ 10 ∧ c ≠ 12 ∧ c ≠ 13 ∧ c ≠ 34 ∧ c ≠ 92) := by omega
  rcases named with rfl | rfl | rfl | rfl | rfl | rfl | rfl | ⟨h8, h9, h10, h12, h13, h34, h92⟩
  -- The named escapes are the same, in another order.
  iterate 7 simp [escapeJs, escapeChar]
  simp only [escapeJs, escapeChar, if_neg h8, if_neg h9, if_neg h10, if_neg h12, if_neg h13,
    if_neg h34, if_neg h92, h, Bool.false_eq_true, or_false]
  split
  · exact control c ‹_›
  · rfl

/-- A well-formed text is quoted as Python does. -/
lemma quoteJs_eq {s : Units} (h : isWellFormed s = true) : quoteJs s = quote (codePoints s) := by
  have same : (codePoints s).flatMap escapeJs = (codePoints s).flatMap escapeChar :=
    List.flatMap_congr fun c m => escapeJs_eq (isWellFormed_iff.1 h c m).2
  rw [quoteJs, quote, same]

section
variable [Interpreter]

/-- What Python reads of a string or an integer. -/
def plainValue : JsValue → Value
  | .string s => .str (codePoints s)
  | .number (some q) => .int q.num
  | _ => .null

/-- The writer of Python that has the separators of `JSON.stringify`. -/
def compact : Dump := ⟨true, false, true⟩

/-- A value is written as in Python. -/
def Writes (v : JsValue) : Prop :=
  ∃ text, stringify v = some text ∧ dumps compact (plainValue v) = .ok text

omit [Interpreter] in
/-- Numbers of eighteen digits can be written. -/
lemma small_digits' {n : Int} (small : n.natAbs < 10 ^ 18) :
    (digitChars n.natAbs).length ≤ maxStrDigits :=
  (digitChars_length (k := 18) small (by decide)).trans (by decide)

/-- A well-formed text is written as Python does. -/
lemma writes_string {s : Units} (h : isWellFormed s = true) : Writes (.string s) :=
  ⟨quoteJs s, rfl, by rw [quoteJs_eq h]; rfl⟩

/-- A number is written as Python does. -/
lemma writes_number {n : Int} (small : n.natAbs < 10 ^ 18) : Writes (.number (some n)) := by
  refine ⟨if n < 0 then 45 :: digitChars n.natAbs else digitChars n.natAbs, ?_, ?_⟩
  · have sized : (n : Rat).den = 1 ∧ (n : Rat).num.natAbs < 10 ^ 21 :=
      ⟨Rat.den_intCast n, by rw [Rat.num_intCast]; omega⟩
    rw [stringify, numberText, if_pos sized, Rat.num_intCast]
  · show intRepr (n : Rat).num = _
    rw [Rat.num_intCast, intRepr]
    simp only [if_neg (Nat.not_lt.2 (small_digits' small))]

/-- The members of an object as Python reads them. -/
def plainMembers (ms : List (Units × JsValue)) : List (Str × Value) :=
  ms.map fun e => (codePoints e.1, plainValue e.2)

/-- Members are written as Python does. -/
lemma stringifyMembers_eq {ms : List (Units × JsValue)} (keys : ∀ e ∈ ms, isWellFormed e.1 = true)
    (writes : ∀ e ∈ ms, Writes e.2) :
    ∃ ts, dumpsDict compact (plainMembers ms) = .ok ts ∧
      stringifyMembers ms = some (ts.map fun t => quote t.1 ++ compact.keySep ++ t.2) := by
  induction ms with
  | nil => exact ⟨[], rfl, rfl⟩
  | cons e ms ih =>
    obtain ⟨key, value⟩ := e
    obtain ⟨ts, dumped, sent⟩ := ih (fun e m => keys e (.tail _ m)) fun e m => writes e (.tail _ m)
    obtain ⟨text, sent', dumped'⟩ := writes _ List.mem_cons_self
    refine ⟨(codePoints key, text) :: ts, ?_, ?_⟩
    · show dumpsDict compact ((codePoints key, plainValue value) :: plainMembers ms) = _
      rw [dumpsDict, dumped', ok_bind, dumped]
      rfl
    · have quoted := quoteJs_eq (keys _ List.mem_cons_self)
      simp only at sent' quoted
      rw [stringifyMembers, sent', sent, quoted]
      simp [compact, Dump.keySep]

/-- An object is written as Python does. -/
lemma stringify_object {ms : List (Units × JsValue)} (keys : ∀ e ∈ ms, isWellFormed e.1 = true)
    (writes : ∀ e ∈ ms, Writes e.2) :
    ∃ text, stringify (.object ms) = some text ∧ dumps compact (.dict (plainMembers ms)) =
      .ok text := by
  obtain ⟨ts, dumped, sent⟩ := stringifyMembers_eq keys writes
  refine ⟨_, by rw [stringify, sent]; rfl, ?_⟩
  rw [dumps, dumped, ok_bind]
  rfl

/-- What `POST /api/orders` makes of a body. -/
def receive (raw : Bytes) : Except Raised Draft := do
  let data ← decodeJson raw
  bodyFields data ["item", "quantity", "unit_price"]
  createInput data

/-- The browser and the server agree on an order: the body that is sent is accepted, what is stored
is what was entered, and the request is cleared by the answer, the order being in any of its
versions by then. -/
def Agreed (data : JsValue) : Prop :=
  ∃ text raw draft e, stringify data = some text ∧ encode text = .ok raw ∧ receive raw = .ok draft ∧
    entered data = some e ∧ draft.item = codePoints e.item ∧ draft.quantity = e.quantity ∧
      draft.unitPrice = e.unitPrice ∧
    ∀ id createdAt h o, History h → newOrder draft id createdAt ∈ h → o ∈ h →
      clears e true (.order (receiptOf o)) = true

/-- White space of Python that is none of JavaScript. -/
def pythonOnly (u : UInt16) : Bool := (0x1C ≤ u.toNat && u.toNat ≤ 0x1F) || u.toNat = 0x85

/-- The item of an object begins and ends with none of the white space that only Python has. -/
def PlainEnds (data : JsValue) : Prop :=
  ∀ e, entered data = some e → (∀ u ∈ e.item.head?, pythonOnly u = false) ∧ ∀ u ∈ e.item.getLast?,
    pythonOnly u = false

/-! ### What is stored, and shown -/

section
variable {ms : List (Units × JsValue)} {e : Entered}

/-- The members of an accepted order. -/
lemma plain_perm (h : Accepted ms e) : (plainMembers ms).Perm
    [(str "item", .str (codePoints e.item)), (str "quantity", .int e.quantity),
      (str "unit_price", .int e.unitPrice)] := by
  have keys : codePoints (units "item") = str "item" ∧ codePoints (units "quantity") =
    str "quantity" ∧
      codePoints (units "unit_price") = str "unit_price" := by decide
  have read : plainMembers (threeMembers (.string e.item) (.number (some e.quantity))
    (.number (some e.unitPrice))) =
      [(str "item", .str (codePoints e.item)), (str "quantity", .int e.quantity),
        (str "unit_price", .int e.unitPrice)] := by
    simp [plainMembers, threeMembers, keys, plainValue]
  exact read ▸ h.members.map _

/-- The members of an accepted order have keys of their own. -/
lemma plain_keys (h : Accepted ms e) : ((plainMembers ms).map Prod.fst).Nodup := by
  have keys : [str "item", str "quantity", str "unit_price"].Nodup := by decide
  exact ((plain_perm h).map Prod.fst).nodup_iff.2 keys

omit [Interpreter] in
/-- The item of an accepted order has no surrogates. -/
lemma Accepted.scalar (h : Accepted ms e) : ∀ c ∈ codePoints e.item, Scalar c :=
  isWellFormed_iff.1 h.wellFormed

/-- An accepted order can be written and read. -/
lemma plain_legible (h : Accepted ms e) : Legible 1 (.dict (plainMembers ms)) := by
  have names : ∀ k ∈ [str "item", str "quantity", str "unit_price"], ∀ c ∈ k, Scalar c := by decide
  have q := h.quantity
  have p := h.unitPrice
  refine .dict (plain_keys h) (fun f m => ?_) fun f m => ?_
  · exact names f.1 (((plain_perm h).map Prod.fst).subset (List.mem_map_of_mem m))
  · have one := (plain_perm h).subset m
    simp only [List.mem_cons, List.not_mem_nil, or_false] at one
    rcases one with rfl | rfl | rfl
    · exact .str h.scalar
    · exact .int (small_digits' (by omega))
    · exact .int (small_digits' (by omega))

/-- The body of an accepted order is read back by the server, member by member. -/
lemma body_read (h : Accepted ms e) :
    ∃ text raw, stringify (.object ms) = some text ∧ encode text = .ok raw ∧
      receive raw = draftOf (plainMembers ms) := by
  have q := h.quantity
  have p := h.unitPrice
  have each : ∀ f ∈ ms, isWellFormed f.1 = true ∧ Writes f.2 := fun f m => by
    have keys : isWellFormed (units "item") = true ∧ isWellFormed (units "quantity") = true ∧
        isWellFormed (units "unit_price") = true := by decide
    have one := h.members.subset m
    simp only [threeMembers, List.mem_cons, List.not_mem_nil, or_false] at one
    rcases one with rfl | rfl | rfl
    · exact ⟨keys.1, writes_string h.wellFormed⟩
    · exact ⟨keys.2.1, writes_number (by omega)⟩
    · exact ⟨keys.2.2, writes_number (by omega)⟩
  obtain ⟨text, sent, dumped⟩ := stringify_object (fun f m => (each f m).1) fun f m => (each f m).2
  have deep : 1 ≤ Interpreter.recursionLimit :=
    (by decide : 1 ≤ 64).trans Interpreter.recursionLimit_ge
  obtain ⟨text', raw, dumped', bytes, read⟩ :=
    decodeJson_written (plain_legible h) (by decide) compact deep
  cases dumped.symm.trans dumped'
  refine ⟨text, raw, sent, bytes, ?_⟩
  rw [(plain_legible h).reorder_unsorted rfl] at read
  have allowed : (plainMembers ms).any (fun f => !named ["item", "quantity", "unit_price"] f.1) =
      false := by
    refine List.any_eq_false.2 fun f m => ?_
    have key := ((plain_perm h).map Prod.fst).subset (List.mem_map_of_mem m)
    have known : ∀ k ∈ [str "item", str "quantity", str "unit_price"],
        ¬(!named ["item", "quantity", "unit_price"] k) = true := by decide
    exact known f.1 key
  rw [receive, read, ok_bind, bodyFields, allowed]
  rfl

omit [Interpreter] in
/-- Python and JavaScript have the same white space but for a few characters. -/
lemma space_iff {u : UInt16} (h : space u = false) : unicodeSpace u.toNat = pythonOnly u := by
  rw [Bool.eq_iff_iff]
  simp only [space, unicodeSpace, pythonOnly, Bool.or_eq_false_iff, Bool.and_eq_false_iff,
    decide_eq_false_iff_not, Bool.or_eq_true, Bool.and_eq_true, decide_eq_true_eq] at h ⊢
  omega

omit [Interpreter] in
/-- A test of two options that agree. -/
lemma none_iff {α β : Type} {x : Option α} {y : Option β} {f : α → Bool} {g : β → Bool}
    (same : x.map f = y.map g) :
    (∀ a ∈ x, f a = false) ↔ ∀ b ∈ y, g b = false := by
  cases x <;> cases y <;> simp_all

omit [Interpreter] in
/-- The server strips nothing from an item if and only if it has plain ends. -/
lemma stripped_iff (h : Accepted ms e) : stripped (codePoints e.item) = codePoints e.item ↔
    PlainEnds (.object ms) := by
  obtain ⟨front, back⟩ := (trimmed_iff e.item).1 h.trimmed.symm
  have head := head_space (codePoints_lt e.item)
  have last := last_space (codePoints_lt e.item)
  rw [ofCodePoints_codePoints] at head last
  have ends : PlainEnds (.object ms) ↔
      (∀ u ∈ e.item.head?, pythonOnly u = false) ∧ ∀ u ∈ e.item.getLast?, pythonOnly u = false := by
    refine ⟨fun plain => plain e h.entered, fun plain e' found => ?_⟩
    cases h.entered.symm.trans found
    exact plain
  rw [stripped, trimmed_iff, ends, ← none_iff head, ← none_iff last]
  exact and_congr (forall₂_congr fun u m => by rw [space_iff (front u m)])
    (forall₂_congr fun u m => by rw [space_iff (back u m)])

/-! ### The answer -/

/-- All versions of an order are about the same item, quantity and price. -/
lemma same_content {h : List Order} (history : History h) {o o' : Order} (m : o ∈ h) (m' : o' ∈ h) :
    o'.item = o.item ∧ o'.quantity = o.quantity ∧ o'.unitPrice = o.unitPrice := by
  have one : ∃ item quantity unitPrice, ∀ o ∈ h, o.item = item ∧ o.quantity = quantity ∧
      o.unitPrice = unitPrice := by
    clear m m'
    induction history with
    | @created data draft id createdAt =>
      exact ⟨draft.item, draft.quantity, draft.unitPrice,
        fun o m => by rw [List.mem_singleton.1 m]; exact ⟨rfl, rfl, rfl⟩⟩
    | @updated past o o' data before step ih =>
      obtain ⟨item, quantity, unitPrice, all⟩ := ih
      refine ⟨item, quantity, unitPrice, fun x m => ?_⟩
      have old : x ∈ past ++ [o] ∨ x = o' := by simpa [or_assoc] using m
      rcases old with old | rfl
      · exact all x old
      · obtain ⟨next, status, _, _, rfl⟩ := transition_inv step
        exact all o (by simp)
  obtain ⟨item, quantity, unitPrice, all⟩ := one
  obtain ⟨hi, hq, hp⟩ := all o m
  obtain ⟨hi', hq', hp'⟩ := all o' m'
  exact ⟨hi'.trans hi.symm, hq'.trans hq.symm, hp'.trans hp.symm⟩

omit [Interpreter] in
/-- A status with a successor has a label. -/
lemma known_status {status : Str} (known : (nextStates status).isSome) :
    labels.any (fun l => units l = ofCodePoints status) = true := by
  obtain ⟨next, found⟩ := Option.isSome_iff_exists.1 known
  obtain ⟨s, found, -⟩ := Option.map_eq_some_iff.1 found
  have name : str s.1 = status := by simpa using List.find?_some found
  have table : ∀ s ∈ states, labels.any (fun l => units l = ofCodePoints (str s.1)) = true := by
    decide
  exact name ▸ table s (List.mem_of_find?_eq_some found)

omit [Interpreter] in
/-- An order in any of its versions acknowledges what was entered, if that is its content. -/
lemma clears_valid {o : Order} (valid : o.Valid) {e : Entered} (short : e.item.length ≤ 100)
    (item : ofCodePoints o.item = e.item) (quantity : o.quantity = e.quantity)
    (unitPrice : o.unitPrice = e.unitPrice) :
    clears e true (.order (receiptOf o)) = true := by
  have id : isOrderId (ofCodePoints o.id) = true := by
    rw [isOrderId, codePoints_ofCodePoints fun c m => (valid.uuid.ascii c m).trans (by decide)]
    exact valid.uuid
  have receipt : validReceipt (receiptOf o) = true := by
    have q := valid.quantityRange
    have p := valid.unitPriceRange
    simp only [validReceipt, receiptOf, item, Bool.and_eq_true, decide_eq_true_eq]
    exact ⟨⟨⟨⟨⟨⟨⟨⟨id, short⟩, q.1⟩, q.2⟩, p.1⟩, p.2⟩, valid.totalValue⟩,
      known_status valid.statusKnown⟩, valid.versionRange⟩
  simp only [clears, receipt]
  simp [receiptOf, item, quantity, unitPrice]

/-- Browser and server agree on an accepted order if and only if the server strips nothing from its
item. -/
lemma agreed_iff_stripped (h : Accepted ms e) :
    Agreed (.object ms) ↔ stripped (codePoints e.item) = codePoints e.item := by
  obtain ⟨text, raw, sent, bytes, read⟩ := body_read h
  have look (k : Str) := lookup_perm (k := k) (plain_perm h) (plain_keys h)
  have item : lookup (str "item") (plainMembers ms) = some (.str (codePoints e.item)) :=
    (look _).trans rfl
  have quantity : lookup (str "quantity") (plainMembers ms) = some (.int e.quantity) :=
    (look _).trans (by rfl)
  have unitPrice : lookup (str "unit_price") (plainMembers ms) = some (.int e.unitPrice) :=
    (look _).trans (by rfl)
  constructor
  · rintro ⟨text', raw', draft, e', sent', bytes', received, found, same, -⟩
    cases sent.symm.trans sent'
    cases bytes.symm.trans bytes'
    cases h.entered.symm.trans found
    rw [read] at received
    obtain ⟨name, draftOk, strip⟩ := draftOf_inv received
    cases item.symm.trans draftOk.item
    exact strip.symm.trans same
  · intro plain
    have some_ : 1 ≤ (codePoints e.item).length := List.length_pos_iff.2 fun none_ => by
      have empty := ofCodePoints_codePoints e.item
      rw [none_] at empty
      exact absurd h.some_ (by rw [← empty]; decide)
    have length : 1 ≤ (stripped (codePoints e.item)).length ∧
        (stripped (codePoints e.item)).length ≤ 100 := by
      rw [plain]
      exact ⟨some_, (codePoints_length e.item).trans h.short⟩
    have draftOk : draftOf (plainMembers ms) = .ok ⟨stripped (codePoints e.item), e.quantity,
        e.unitPrice⟩ :=
      ValidDraft.draftOf ⟨item, length, encode_scalar h.scalar, quantity, h.quantity,
        unitPrice, h.unitPrice⟩
    refine ⟨text, raw, _, e, sent, bytes, read.trans draftOk, h.entered, plain, rfl, rfl, ?_⟩
    intro id createdAt versions o history first m
    obtain ⟨content, count, price⟩ := same_content history first m
    refine clears_valid (history.valid o m) h.short ?_ count price
    rw [content]
    show ofCodePoints (stripped (codePoints e.item)) = e.item
    rw [plain, ofCodePoints_codePoints]

end

/-- Browser and server agree on an order that the browser accepts if and only if its item begins and
ends with no white space that only Python has. -/
theorem agreed_iff (data : JsValue) (valid : validManualOrder data = true) :
    Agreed data ↔ PlainEnds data := by
  obtain ⟨ms, e, rfl, h⟩ := validManualOrder_inv valid
  exact (agreed_iff_stripped h).trans (stripped_iff h)

end

section
attribute [local instance] reference

/-- An order of two mugs, less or more. -/
def demoOrder (item : Str) : JsValue :=
  .object (threeMembers (.string (ofCodePoints item)) (.number (some 2)) (.number (some 3)))

/-- `agreed_iff` for a mug. -/
theorem agreed_iff_mug : Agreed (demoOrder (str "mug")) ↔ PlainEnds (demoOrder (str "mug")) :=
  agreed_iff (demoOrder (str "mug")) (by decide +kernel)

/-- A mug with a next-line character before it passes in the browser, and the server stores a mug
without it. -/
theorem next_line_disagrees :
    validManualOrder (demoOrder (0x85 :: str "mug")) = true ∧
      ¬ Agreed (demoOrder (0x85 :: str "mug")) := by
  have valid : validManualOrder (demoOrder (0x85 :: str "mug")) = true := by decide +kernel
  refine ⟨valid, fun agreed => ?_⟩
  obtain ⟨ms, e, same, h⟩ := validManualOrder_inv valid
  have plain := (agreed_iff_stripped h).1 (same ▸ agreed)
  have entered_ := h.entered
  rw [← same] at entered_
  cases (show some ⟨ofCodePoints (0x85 :: str "mug"), 2, 3⟩ = some e from entered_)
  revert plain
  decide +kernel

end

end DbLab.Mvp.Manual
