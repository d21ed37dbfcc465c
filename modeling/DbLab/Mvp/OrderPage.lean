import DbLab.Data.Like
import DbLab.Mvp.History
import DbLab.Py.Float
import DbLab.Py.Nesting
import DbLab.Py.Size
import DbLab.Py.UrlSafe

/-!
# Pages of orders (`order_page_input`, `order_page_result`, the filter of `list_page`)

A page that is not the last one carries a cursor: the sort key of its last row and the filter it was
made with, as URL-safe text. A request with a cursor is checked against the filter that it was made
with.
-/

namespace DbLab.Mvp
open DbLab.Py

/-! ### The search filter -/

/-- `!`, `%` and `_` -/
def signs : Like.Signs Nat := ⟨33, 37, 95, by decide, by decide, by decide⟩

/-- The `pattern` of `list_page`. -/
def likePattern (q : Str) : Str :=
  str "%" ++ Like.replace 95 (str "!_")
    (Like.replace 37 (str "!%") (Like.replace 33 (str "!!") q)) ++ str "%"

/-- `LOWER` of the database: characters go to characters, the three signs to themselves and nothing
else to one. -/
structure Lower where
  lower : Nat → Nat
  fixes : ∀ c, signs.means c = true → lower c = c
  only : ∀ c, signs.means (lower c) = true → signs.means c = true

def Lower.apply (l : Lower) (s : Str) : Str := s.map l.lower

/-- `LOWER(item) LIKE LOWER(%s) ESCAPE '!'` -/
def itemLike (l : Lower) (item pattern : Str) : Bool :=
  Like.like signs (l.apply pattern) (l.apply item)

/-- `id LIKE %s ESCAPE '!'` -/
def idLike (id pattern : Str) : Bool := Like.like signs pattern id

/-- The pattern is the escaped text between two percent signs. -/
lemma likePattern_eq (q : Str) : likePattern q = 37 :: (Like.escaped signs q ++ [37]) := by
  rw [← Like.replace_escaped]
  rfl

/-- Lowering keeps what a sign means. -/
lemma Lower.means (l : Lower) (c : Nat) : signs.means (l.lower c) = signs.means c := by
  rw [Bool.eq_iff_iff]
  exact ⟨l.only c, fun h => by rw [l.fixes c h]; exact h⟩

/-- Lowering goes through the pattern. -/
lemma Lower.pattern (l : Lower) (q : Str) : l.apply (likePattern q) = likePattern (l.apply q) := by
  have any : l.lower 37 = 37 := l.fixes 37 rfl
  rw [likePattern_eq, likePattern_eq, Lower.apply, List.map_cons, List.map_append,
    Like.map_escaped signs l.means (l.fixes _ rfl), List.map_singleton, any]
  rfl

/-- The pattern finds the filter text wherever it occurs in the item, in lower case, or in the id,
and nothing else. -/
theorem filter_finds (l : Lower) (q item id : Str) :
    (itemLike l item (likePattern q) = true ↔ l.apply q <:+: l.apply item) ∧
      (idLike id (likePattern q) = true ↔ q <:+: id) := by
  rw [itemLike, idLike, l.pattern, likePattern_eq, likePattern_eq]
  exact ⟨Like.like_infix signs, Like.like_infix signs⟩

/-- The signs with a meaning. -/
lemma signs_means (c : Nat) : signs.means c = true ↔ c = 33 ∨ c = 37 ∨ c = 95 := by
  simp only [Like.Signs.means, Bool.or_eq_true, decide_eq_true_eq, or_assoc]
  rfl

/-- Capital letters of ASCII become small ones. -/
def lowerAscii (c : Nat) : Nat := if 65 ≤ c ∧ c ≤ 90 then c + 32 else c

/-- No sign is a capital letter. -/
lemma lowerAscii_fixes (c : Nat) (h : signs.means c = true) : lowerAscii c = c := by
  have sign := (signs_means c).1 h
  rw [lowerAscii, if_neg (by omega)]

/-- No capital letter becomes a sign. -/
lemma lowerAscii_only (c : Nat) (h : signs.means (lowerAscii c) = true) : signs.means c = true := by
  rw [lowerAscii] at h
  split_ifs at h with capital
  · have sign := (signs_means (c + 32)).1 h
    omega
  · exact h

def asciiLower : Lower := ⟨lowerAscii, lowerAscii_fixes, lowerAscii_only⟩

example : itemLike asciiLower (str "Blue MUG 50%_") (likePattern (str "mug 50%_")) = true ∧
    itemLike asciiLower (str "Blue MUG 500_") (likePattern (str "mug 50%_")) = false := by
      decide +kernel

/-! ### Requests -/

section
variable [Interpreter]

def pageKeys : List String := ["limit", "cursor", "q", "status"]

/-- A list with one string in it. -/
def single : Value → Bool
  | .list [.str _] => true
  | _ => false

/-- `value(key, default)`, of a query that was checked. -/
def pageText (query : Fields) (key default : String) : Str :=
  match Fields.getD query key (.list [.str (str default)]) with
  | .list [.str s] => s
  | _ => []

/-- `re.fullmatch(r"[0-9]{1,3}", raw_limit)` and `1 <= int(raw_limit) <= 100` -/
def pageLimit (raw : Str) : Option Nat :=
  if 1 ≤ raw.length ∧ raw.length ≤ 3 then (number raw).filter fun n => 1 ≤ n ∧ n ≤ 100 else none

/-- `order_page_input` up to the cursor: the limit, `q` and the status. -/
def pageFilter (query : Fields) : Except Raised (Nat × Str × Str) :=
  if query.any (fun e => !pageKeys.any fun k => e.1 = str k) ||
    query.any (fun e => !single e.2) then
    .error (.problem 400 "invalid_order_page_parameters")
  else
    let q := stripped (pageText query "q" "")
    let status := pageText query "status" ""
    match pageLimit (pageText query "limit" "25") with
    | none => .error (.problem 400 "invalid_page_limit")
    | some limit =>
      if 100 < q.length || (status ≠ [] && (nextStates status).isNone) then
        .error (.problem 400 "invalid_order_filter")
      else match encode q with
        | .error _ => .error (.problem 400 "invalid_order_filter")
        | .ok _ => .ok (limit, q, status)

/-- `raise ValueError()` -/
def cursorError : Raised := .python (.valueError "")

/-- The checks of the parts that a cursor spells. -/
def checkParts (q status : Str) (parts : Value) : Except Raised (Str × Str) :=
  match parts with
  | .list [.str createdAt, id, q', status'] =>
    if 40 < createdAt.length || !Value.eqList [q', status'] [.str q, .str status] then
      .error cursorError
    else if !fromisoformat createdAt then .error (.python (.valueError "Invalid isoformat string"))
    else do
      let orderId ← identifier id
      return (createdAt, orderId)
  | _ => .error cursorError

/-- The `try` block of `order_page_input`. -/
def cursorParts (cursor q status : Str) : Except Raised (Str × Str) :=
  if 1024 < cursor.length || !cursor.all urlsafeChar then .error cursorError
  else do
    let raw ← (urlsafeB64decode (padded cursor)).mapError .python
    let parts ← (loadsBytes Hooks.default raw).mapError .python
    checkParts q status parts

/-- `except (ValueError, TypeError, Problem)` -/
def Raised.caught : Raised → Bool
  | .problem _ _ => true
  | .python e => e.isValueError || e = .typeError
  | .sql _ => false

/-- `after`, an empty cursor being none. -/
def readCursor (cursor q status : Str) : Except Raised (Option (Str × Str)) :=
  if cursor = [] then .ok none
  else match cursorParts cursor q status with
    | .ok after => .ok (some after)
    | .error e => .error (if e.caught then .problem 400 "invalid_order_cursor" else e)

structure PageInput where
  limit : Nat
  q : Str
  status : Str
  after : Option (Str × Str)

/-- `order_page_input` -/
def orderPageInput (query : Fields) : Except Raised PageInput := do
  let (limit, q, status) ← pageFilter query
  let after ← readCursor (pageText query "cursor" "") q status
  return ⟨limit, q, status, after⟩

/-! ### Results -/

structure Page where
  orders : List Order
  source : String
  hasMore : Bool
  nextCursor : Option Str
deriving DecidableEq

/-- The value that the cursor spells. -/
def cursorValue (last : Order) (q status : Str) : Value :=
  .list [.str last.createdAt, .str last.id, .str q, .str status]

/-- The cursor behind a row. -/
def cursorOf (last : Order) (q status : Str) : Except Exn Str := do
  let raw ← encode (← dumps ⟨false, false, true⟩ (cursorValue last q status))
  return rstripPadding (urlsafeB64encode raw)

/-- `order_page_result` -/
def orderPageResult (rows : List Order) (limit : Nat) (q status : Str) : Except Exn Page :=
  let page := rows.take limit
  if limit < rows.length then match page.getLast? with
    | none => .error .indexError
    | some last => do return ⟨page, "mariadb", true, some (← cursorOf last q status)⟩
  else .ok ⟨page, "mariadb", false, none⟩

/-! ### Rows and filters -/

/-- A row whose sort key a cursor can carry: an id, and a time in characters that need no escape. -/
structure Listed (o : Order) : Prop where
  uuid : IsUuid o.id
  date : fromisoformat o.createdAt = true
  length : o.createdAt.length ≤ 40
  plain : ∀ c ∈ o.createdAt, unescaped c = true

omit [Interpreter] in
/-- Hex digits need no escape. -/
lemma lowerHex_unescaped {c : Nat} (h : lowerHex c = true) : unescaped c = true := by
  simp only [lowerHex, isDigit, Bool.or_eq_true, Bool.and_eq_true, decide_eq_true_eq] at h
  simp only [unescaped, Bool.and_eq_true, decide_eq_true_eq]
  omega

omit [Interpreter] in
/-- Digits need no escape. -/
lemma isDigit_unescaped {c : Nat} (h : isDigit c = true) : unescaped c = true :=
  lowerHex_unescaped (by rw [lowerHex, h, Bool.true_or])

omit [Interpreter] in
/-- An id needs no escape. -/
lemma IsUuid.unescaped {s : Str} (h : IsUuid s) : ∀ c ∈ s, Py.unescaped c = true := by
  have dash : Pattern.Within (fun c => Py.unescaped c = true) (.lit "-") := .lit (by decide)
  have hex : ∀ n, Pattern.Within (fun c => Py.unescaped c = true) (.times lowerHex n) :=
    .times fun _ => lowerHex_unescaped
  exact ((hex 8).seq (dash.seq ((hex 4).seq (dash.seq ((hex 4).seq (dash.seq ((hex 4).seq
    (dash.seq (hex 12))))))))).fullmatch h

omit [Interpreter] in
/-- A clock text needs no escape. -/
lemma IsTimestamp.unescaped {s : Str} (h : IsTimestamp s) : ∀ c ∈ s, Py.unescaped c = true := by
  have lit : ∀ w : String, (∀ c ∈ str w, Py.unescaped c = true) →
      Pattern.Within (fun c => Py.unescaped c = true) (.lit w) := fun _ => .lit
  have digits : ∀ n, Pattern.Within (fun c => Py.unescaped c = true) (.times isDigit n) :=
    .times fun _ => isDigit_unescaped
  exact ((digits 4).seq ((lit "-" (by decide)).seq
    ((digits 2).seq ((lit "-" (by decide)).seq ((digits 2).seq
    ((lit "T" (by decide)).seq
      ((digits 2).seq ((lit ":" (by decide)).seq ((digits 2).seq ((lit ":" (by decide)).seq
      ((digits 2).seq ((lit "." (by decide)).seq
        ((digits 3).seq (lit "+00:00" (by decide))))))))))))))).fullmatch h.shape

/-- Every version that `create` and `update` make is such a row. -/
lemma History.listed {h : List Order} (history : History h) {o : Order} (m : o ∈ h) : Listed o := by
  have time := (history.staged o m).2
  exact ⟨(history.valid o m).uuid, time.date, time.length.trans (by decide), time.unescaped⟩

/-- What `order_page_input` accepts as a filter. -/
structure IsFilter (q status : Str) : Prop where
  strip : stripped q = q
  length : q.length ≤ 100
  text : ∀ c ∈ q, Scalar c
  status : status = [] ∨ (nextStates status).isSome = true

omit [Interpreter] in
/-- A status is short and needs no escape. -/
lemma nextStates_text {status : Str} (h : status = [] ∨ (nextStates status).isSome = true) :
    status.length ≤ 9 ∧ ∀ c ∈ status, unescaped c = true := by
  have table : ∀ e ∈ states, (str e.1).length ≤ 9 ∧ ∀ c ∈ str e.1, unescaped c = true := by decide
  rcases h with rfl | known
  · exact ⟨by decide, nofun⟩
  · obtain ⟨next, some⟩ := Option.isSome_iff_exists.1 known
    obtain ⟨e, found, _⟩ := Option.map_eq_some_iff.1 some
    have same : str e.1 = status := by simpa using List.find?_some found
    exact same ▸ table e (List.mem_of_find?_eq_some found)

/-- What an accepted filter is. -/
lemma pageFilter_inv {query : Fields} {limit : Nat} {q status : Str}
    (h : pageFilter query = .ok (limit, q, status)) :
    IsFilter q status ∧ 1 ≤ limit ∧ limit ≤ 100 := by
  unfold pageFilter at h
  split at h
  · cases h
  · simp only at h
    split at h
    · cases h
    · rename_i n known
      split at h
      · cases h
      · rename_i allowed
        split at h
        · cases h
        · rename_i b bytes
          cases h
          simp only [Bool.or_eq_true, decide_eq_true_eq, not_or, not_lt, Bool.and_eq_true,
            ne_eq, not_and, Bool.not_eq_true, Option.isNone_eq_false_iff] at allowed
          have range : 1 ≤ limit ∧ limit ≤ 100 := by
            rw [pageLimit] at known
            split at known
            · have := (Option.filter_eq_some_iff.1 known).2
              simpa using this
            · cases known
          refine ⟨⟨stripped_stripped _, allowed.1, encode_inv bytes, ?_⟩, range⟩
          by_cases none : pageText query "status" "" = []
          · exact .inl none
          · exact .inr (allowed.2 (by simpa using none))

/-! ### The cursor -/

section
variable {last : Order} {q status : Str}

/-- The value of a cursor is legible. -/
lemma IsFilter.legible (filter : IsFilter q status) (listed : Listed last) (d : Nat) :
    Legible (d + 1) (cursorValue last q status) := by
  have plain : ∀ {s : Str}, (∀ c ∈ s, unescaped c = true) → ∀ c ∈ s, Scalar c := by
    intro s h c m
    have := h c m
    simp only [unescaped, Bool.and_eq_true, decide_eq_true_eq] at this
    exact ascii_scalar (by omega)
  refine .list fun x m => ?_
  simp only [List.mem_cons, List.not_mem_nil, or_false] at m
  rcases m with rfl | rfl | rfl | rfl
  · exact .str (plain listed.plain)
  · exact .str listed.uuid.scalar
  · exact .str filter.text
  · exact .str (plain (nextStates_text filter.status).2)

/-- The text of the cursor takes at most 701 bytes, with a hundred characters of `q` that take six
each. -/
lemma cursor_size (filter : IsFilter q status) (listed : Listed last) {t : Str}
    (text : dumps ⟨false, false, true⟩ (cursorValue last q status) = .ok t) :
    utf8Size t ≤ 701 ∧ ∃ r, t = 91 :: 34 :: r := by
  cases text
  have state := nextStates_text filter.status
  have time := quote_unescaped listed.plain
  have id := quote_unescaped listed.uuid.unescaped
  have word := quote_unescaped state.2
  have search := quote_size q
  have sep : utf8Size [44, 32] = 2 := rfl
  have fold : ([44, 32] : Str).intercalate [quote last.createdAt, quote last.id, quote q,
    quote status] =
      quote last.createdAt ++ ([44, 32] ++ quote last.id ++
        ([44, 32] ++ quote q ++ ([44, 32] ++ quote status))) := by
    simp [List.intercalate_cons_cons]
  refine ⟨?_, _, rfl⟩
  have front : utf8Width 91 = 1 := rfl
  have close : utf8Size [93] = 1 := rfl
  have short := listed.length
  have uuid := listed.uuid.length
  have limit := filter.length
  change utf8Size (91 :: (([44, 32] : Str).intercalate [quote last.createdAt, quote last.id,
    quote q, quote status] ++ [93])) ≤ 701
  rw [fold]
  simp only [utf8Size_cons, utf8Size_append, front, close, sep, time, id, word]
  omega

/-- The cursor of a row fits, is of URL-safe characters, and decodes to what it spells. -/
lemma cursor_reads (filter : IsFilter q status) (listed : Listed last) :
    ∃ cursor raw, cursorOf last q status = .ok cursor ∧ cursor ≠ [] ∧ cursor.length ≤ 1024 ∧
      cursor.all urlsafeChar = true ∧ urlsafeB64decode (padded cursor) = .ok raw ∧
      loadsBytes Hooks.default raw = .ok (cursorValue last q status) := by
  obtain ⟨d, depth⟩ : ∃ d, Interpreter.recursionLimit = d + 1 :=
    ⟨Interpreter.recursionLimit - 1, by have := Interpreter.recursionLimit_ge; omega⟩
  have legible : Legible Interpreter.recursionLimit (cursorValue last q status) :=
    depth ▸ filter.legible listed d
  obtain ⟨t, text, scalar, read⟩ := legible.loads ⟨false, false, true⟩ Hooks.default_keeps le_rfl
  obtain ⟨raw, bytes⟩ := encode_scalar scalar
  obtain ⟨size, r, rfl⟩ := cursor_size filter listed text
  have whole : (cursorValue last q status).reorder ⟨false, false, true⟩ =
      cursorValue last q status :=
    legible.reorder_unsorted rfl
  rw [whole] at read
  obtain ⟨safe, short, back⟩ := urlsafe_round_trip raw
  rw [← encode_size bytes] at size
  refine ⟨_, raw, ?_, fun empty => ?_, by omega, List.all_eq_true.2 safe, back, ?_⟩
  · rw [cursorOf, text, ok_bind, bytes, ok_bind]
    rfl
  · -- nothing decodes to nothing
    rw [empty] at back
    cases back
    obtain ⟨b', e, _⟩ := encode_ascii (by decide) bytes
    cases e
  · exact loadsBytes_ok.2 ⟨_, jsonText_ascii (by decide) (by decide) bytes, read⟩

/-- Two pairs of texts are equal part by part. -/
lemma eqList_filter (a b c d : Str) :
    Value.eqList [.str a, .str b] [.str c, .str d] = decide (a = c ∧ b = d) := by
  simp [Value.eqList, Value.eq]

/-- With the filter it was made with a cursor gives the sort key of its row, and with another one it
is refused. -/
lemma readCursor_made (filter : IsFilter q status) (listed : Listed last) {cursor : Str}
    (made : cursorOf last q status = .ok cursor) (q' status' : Str) : readCursor cursor q' status' =
      if q = q' ∧ status = status' then .ok (some (last.createdAt, last.id))
      else .error (.problem 400 "invalid_order_cursor") := by
  obtain ⟨cursor, raw, made', some, short, safe, back, read⟩ := cursor_reads filter listed
  cases made.symm.trans made'
  have fits : ¬ (decide (1024 < cursor.length) || !cursor.all urlsafeChar) = true := by
    rw [safe, decide_eq_false (by omega)]
    decide
  have date : ¬ (!fromisoformat last.createdAt) = true := by
    rw [listed.date]
    decide
  have inner : cursorParts cursor q' status' =
      if q = q' ∧ status = status' then .ok (last.createdAt, last.id) else .error cursorError := by
    rw [cursorParts, if_neg fits, back, Except.mapError, ok_bind, read, Except.mapError, ok_bind,
      cursorValue, checkParts, eqList_filter, decide_eq_false (not_lt.2 listed.length),
      Bool.false_or]
    by_cases same : q = q' ∧ status = status'
    · rw [if_pos same, decide_eq_true same, if_neg (by decide), if_neg date,
        identifier_ok.2 ⟨rfl, listed.uuid⟩]
      rfl
    · rw [if_neg same, decide_eq_false same, if_pos (by decide)]
  rw [readCursor, if_neg some, inner]
  by_cases same : q = q' ∧ status = status'
  · rw [if_pos same, if_pos same]
  · rw [if_neg same, if_neg same]
    rfl

/-- What accepted cursor parts are. -/
lemma checkParts_inv {parts : Value} {after : Str × Str}
    (h : checkParts q status parts = .ok after) :
    fromisoformat after.1 = true ∧ IsUuid after.2 := by
  unfold checkParts at h
  split at h
  · split_ifs at h with _ undated
    obtain ⟨orderId, known, h⟩ := bind_ok.1 h
    cases h
    rw [Bool.not_eq_true, Bool.not_eq_false'] at undated
    exact ⟨undated, (identifier_ok.1 known).2⟩
  · cases h

/-- Reading cursor parts only raises what the caller catches. -/
lemma checkParts_only (parts : Value) :
    Only (fun e => e.caught = true) (checkParts q status parts) := by
  unfold checkParts
  split
  · split_ifs
    · exact .error rfl
    · exact .error rfl
    · refine Only.bind ?_ fun _ _ => .ok _
      intro e raised
      obtain ⟨_, _, rfl, _⟩ := identifier_only _ e raised
      rfl
  · exact .error rfl

/-- Whatever a cursor spells, what is raised is caught: it is too short to nest deeper than the
reader goes. -/
lemma cursorParts_only (depth : 768 ≤ Interpreter.recursionLimit) (cursor : Str) :
    Only (fun e => e.caught = true) (cursorParts cursor q status) := by
  have value : ∀ e : Exn, e.isValueError = true → (Raised.python e).caught = true := by
    intro e h
    rw [Raised.caught, h, Bool.true_or]
  unfold cursorParts
  split_ifs with refused
  · exact .error rfl
  · rw [Bool.or_eq_true, decide_eq_true_eq, not_or, not_lt] at refused
    refine ((urlsafeB64decode_only _).mapError value).bind fun raw decoded => ?_
    have length : raw.length ≤ 768 := by
      have bytes := urlsafeB64decode_length (mapError_ok.1 decoded)
      have four := padded_length cursor
      omega
    refine ((loadsBytes_shallow Hooks.default_values (length.trans depth)).mapError value).bind
      fun parts _ => ?_
    exact checkParts_only parts

/-- Every text but the empty one is refused, or gives a time and an id. -/
lemma readCursor_total (depth : 768 ≤ Interpreter.recursionLimit) {cursor : Str}
    (some : cursor ≠ []) :
    readCursor cursor q status = .error (.problem 400 "invalid_order_cursor") ∨
      ∃ createdAt id, readCursor cursor q status = .ok (Option.some (createdAt, id)) ∧
        fromisoformat createdAt = true ∧ IsUuid id := by
  rw [readCursor, if_neg some]
  cases run : cursorParts cursor q status with
  | error e =>
    have caught := cursorParts_only depth cursor e run
    exact .inl (by simp only [caught, if_true])
  | ok after =>
    unfold cursorParts at run
    split_ifs at run
    obtain ⟨_, _, run⟩ := bind_ok.1 run
    obtain ⟨_, _, run⟩ := bind_ok.1 run
    exact .inr ⟨after.1, after.2, rfl, checkParts_inv run⟩

end

/-- What a page gives away of its rows: with more of them than the limit, the cursor of the last one
it shows. -/
lemma orderPageResult_inv {rows : List Order} {limit : Nat} {q status : Str} {page : Page}
    (h : orderPageResult rows limit q status = .ok page) : page.orders = rows.take limit ∧
      (page.hasMore = true ↔ limit < rows.length) ∧
      (page.nextCursor = none ∨ ∃ last ∈ rows, ∃ cursor,
        (rows.take limit).getLast? = some last ∧ cursorOf last q status = .ok cursor ∧
        page.nextCursor = some cursor) := by
  unfold orderPageResult at h
  split at h
  · rename_i more
    simp only at h
    split at h
    · cases h
    · rename_i last found
      obtain ⟨cursor, made, h⟩ := bind_ok.1 h
      cases h
      have mem : last ∈ rows := List.mem_of_mem_take (List.mem_of_getLast? found)
      exact ⟨rfl, by simp [more], .inr ⟨last, mem, cursor, found, made, rfl⟩⟩
  · rename_i all
    cases h
    exact ⟨rfl, by simp [all], .inl rfl⟩

/-- The cursor of a page of rows whose keys a cursor can carry. A request that has it, whatever else
it asks for, gets the time and the id of the last row if it has the filter of the page, and is
refused with any other filter. Every other nonempty cursor is refused or gives a time and an id. -/
theorem cursor_round_trip (depth : 768 ≤ Interpreter.recursionLimit) :
    (∀ rows limit q status page cursor, (∀ o ∈ rows, Listed o) → IsFilter q status →
      orderPageResult rows limit q status = .ok page → page.nextCursor = some cursor →
        cursor.length ≤ 1024 ∧ ∃ last, page.orders.getLast? = some last ∧ ∀ query limit' q' status',
        pageFilter query = .ok (limit', q', status') →
          pageText query "cursor" "" = cursor → orderPageInput query =
            if q' = q ∧ status' = status then
              .ok ⟨limit', q, status, some (last.createdAt, last.id)⟩
            else .error (.problem 400 "invalid_order_cursor")) ∧
    (∀ query limit q status, pageFilter query = .ok (limit, q, status) →
      if pageText query "cursor" "" = [] then
      orderPageInput query = .ok ⟨limit, q, status, none⟩
      else orderPageInput query = .error (.problem 400 "invalid_order_cursor") ∨
        ∃ createdAt id, orderPageInput query = .ok ⟨limit, q, status, some (createdAt, id)⟩ ∧
          fromisoformat createdAt = true ∧ IsUuid id) := by
  constructor
  · intro rows limit q status page cursor listed filter result next
    obtain ⟨orders, _, none | ⟨last, mem, cursor', found, made, some⟩⟩ := orderPageResult_inv result
    · cases none.symm.trans next
    · cases some.symm.trans next
      obtain ⟨_, _, made', _, short, _⟩ := cursor_reads filter (listed last mem)
      cases made.symm.trans made'
      refine ⟨short, last, orders ▸ found, fun query limit' q' status' accepted text => ?_⟩
      rw [orderPageInput, accepted, ok_bind, text]
      simp only
      rw [readCursor_made filter (listed last mem) made]
      by_cases same : q = q' ∧ status = status'
      · obtain ⟨rfl, rfl⟩ := same
        rw [if_pos ⟨rfl, rfl⟩, if_pos ⟨rfl, rfl⟩]
        rfl
      · rw [if_neg same, if_neg fun e => same ⟨e.1.symm, e.2.symm⟩]
        rfl
  · intro query limit q status accepted
    have input : orderPageInput query = do
        let after ← readCursor (pageText query "cursor" "") q status
        return ⟨limit, q, status, after⟩ := by
      rw [orderPageInput, accepted, ok_bind]
    split
    · rename_i none
      rw [input, none]
      rfl
    · rename_i some
      rcases readCursor_total depth some with refused | ⟨createdAt, id, read, date, uuid⟩
      · exact .inl (by rw [input, refused, error_bind])
      · exact .inr ⟨createdAt, id, by rw [input, read]; rfl, date, uuid⟩

end

section
attribute [local instance] integral

def pageRow (id : String) : Order :=
  ⟨str id, str "mug", 1, 500, 500, str "created", 1, str "2024-02-29T10:20:30.123+00:00"⟩

def pageRows : List Order :=
  [pageRow "7d3e7dbe-9b0e-4a43-8f5a-0d6a3c1b2f10", pageRow "1c9f0f6a-52c5-4c0e-9f0e-2b7c8d9e0a11"]

/-- The rows of the example are listed. -/
lemma pageRows_listed : ∀ o ∈ pageRows, Listed o := by
  have date : fromisoformat (str "2024-02-29T10:20:30.123+00:00") = true := by decide +kernel
  have plain : ∀ c ∈ str "2024-02-29T10:20:30.123+00:00", unescaped c = true := by decide
  have length : (str "2024-02-29T10:20:30.123+00:00").length ≤ 40 := by decide
  have uuid : ∀ o ∈ pageRows, IsUuid o.id := by decide +kernel
  intro o m
  have known := uuid o m
  simp only [pageRows, List.mem_cons, List.not_mem_nil, or_false] at m
  rcases m with rfl | rfl
  · exact ⟨known, date, length, plain⟩
  · exact ⟨known, date, length, plain⟩

/-- The filter of the example. -/
lemma mug_filter : IsFilter (str "mug") [] := ⟨by decide, by decide, by decide, .inl rfl⟩

/-- A page of one row with the cursor to the next. -/
theorem cursor_round_trip_mug :
    ∃ page cursor, orderPageResult pageRows 1 (str "mug") [] = .ok page ∧
      page.nextCursor = some cursor ∧ cursor.length ≤ 1024 := by
  obtain ⟨cursor, _, made, _⟩ := cursor_reads mug_filter
    (pageRows_listed (pageRow "7d3e7dbe-9b0e-4a43-8f5a-0d6a3c1b2f10") List.mem_cons_self)
  have result : orderPageResult pageRows 1 (str "mug") [] =
      .ok ⟨[pageRow "7d3e7dbe-9b0e-4a43-8f5a-0d6a3c1b2f10"], "mariadb", true, some cursor⟩ := by
    have page : (pageRows.take 1).getLast? =
      some (pageRow "7d3e7dbe-9b0e-4a43-8f5a-0d6a3c1b2f10") := rfl
    rw [orderPageResult, if_pos (by decide)]
    simp only [page, made]
    rfl
  have trip :=
    (cursor_round_trip (by decide)).1 pageRows 1 (str "mug") [] _ cursor pageRows_listed
      mug_filter result rfl
  exact ⟨_, cursor, result, rfl, trip.1⟩

/-- A cursor that is given as the empty text is neither refused nor gives a time and an id. -/
theorem cursor_round_trip_false :
    ∃ input, orderPageInput [(str "cursor", .list [.str []])] = .ok input ∧ input.after = none := by
  have filter : pageFilter [(str "cursor", .list [.str []])] = .ok (25, [], []) := by decide +kernel
  exact ⟨⟨25, [], [], none⟩, by rw [orderPageInput, filter]; rfl, rfl⟩

end

end DbLab.Mvp
