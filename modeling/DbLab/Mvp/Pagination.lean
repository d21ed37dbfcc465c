import DbLab.Data.Keyset
import DbLab.Mvp.OrderPage

/-!
# Walking through the pages (`SQL.list_page`)

A client asks for the first page and then follows the cursors until a page says that there are no
more. Between two of its requests the rows may change. The comparison that `list_page` writes out is
the order of the pairs it sorts by.
-/

namespace DbLab.Mvp
open DbLab.Py

/-- How the database compares texts: by their place in an order. It also has a `LOWER`. -/
structure Collation (κ : Type) where
  place : Str → κ
  lowering : Lower

/-- The rows of `orders` at one moment: `id` is the primary key. -/
structure Orders {κ : Type} (c : Collation κ) where
  rows : List Order
  ids : (rows.map fun o => c.place o.id).Nodup
  listed : ∀ o ∈ rows, Listed o

/-- What `ORDER BY created_at DESC, id DESC` goes by. -/
def Collation.key {κ : Type} (c : Collation κ) (o : Order) : κ ×ₗ κ :=
  toLex (c.place o.createdAt, c.place o.id)

/-- Rows with different ids have different keys. -/
lemma Orders.distinct {κ : Type} {c : Collation κ} (orders : Orders c) (p : Order → Bool) :
    ((orders.rows.filter p).map c.key).Nodup := by
  have ids : ((orders.rows.filter p).map fun o => c.place o.id).Nodup :=
    orders.ids.sublist (List.filter_sublist.map _)
  rw [List.Nodup, List.pairwise_map] at ids ⊢
  refine ids.imp fun ne same => ne ?_
  have pair := toLex.injective same
  exact (Prod.ext_iff.1 pair).2

section
variable {κ : Type} [LinearOrder κ] (c : Collation κ)

namespace Collation

/-- The clauses on `q` and on the status. -/
def admits (q status : Str) (o : Order) : Bool :=
  (q = [] || itemLike c.lowering o.item (likePattern q) || idLike o.id (likePattern q)) &&
    (status = [] || c.place o.status = c.place status)

/-- `(created_at<%s OR (created_at=%s AND id<%s))` -/
def beyond (after : Option (Str × Str)) (o : Order) : Bool :=
  match after with
  | none => true
  | some (createdAt, id) => c.place o.createdAt < c.place createdAt ||
      (c.place o.createdAt = c.place createdAt && c.place o.id < c.place id)

end Collation

variable [Interpreter]

/-- `list_page` -/
def listPage (rows : List Order) (limit : Nat) (q status : Str) (after : Option (Str × Str)) :
    Except Exn Page :=
  let selected := rows.filter fun o => c.admits q status o && c.beyond after o
  orderPageResult ((selected.insertionSort fun a b => c.key b ≤ c.key a).take (limit + 1))
    limit q status

/-- The query of the client, with a cursor. -/
def withCursor (query : Fields) : Option Str → Fields
  | none => query
  | some cursor => query ++ [(str "cursor", .list [.str cursor])]

/-- `GET /api/orders`, for a query. -/
def getPage (rows : List Order) (query : Fields) : Except Raised Page := do
  let input ← orderPageInput query
  (listPage c rows input.limit input.q input.status input.after).mapError .python

/-- The client: from its `k`th request on it follows the cursors, for at most `n` pages, `none` if
there are more. -/
def follow (orders : Nat → Orders c) (query : Fields) :
    Nat → Nat → Option Str → Except Raised (Option (List Page))
  | 0, _, _ => .ok none
  | n + 1, k, cursor => do
    let page ← getPage c (orders k).rows (withCursor query cursor)
    if page.hasMore then do
      let pages ← follow orders query n (k + 1) page.nextCursor
      return pages.map (page :: ·)
    else return some [page]

/-- The rows that some pages show. -/
def visited (pages : List Page) : List Order := (pages.map Page.orders).flatten

end

/-! ### One request -/

section
variable {κ : Type} [LinearOrder κ] {c : Collation κ}

/-- The comparison that is written out is the one of the keys. -/
lemma beyond_key (last o : Order) :
    c.beyond (some (last.createdAt, last.id)) o = Keyset.below c.key (some (c.key last)) o := by
  rw [Bool.eq_iff_iff]
  simp only [Collation.beyond, Keyset.below, Collation.key, Prod.Lex.toLex_lt_toLex,
    Bool.or_eq_true, Bool.and_eq_true, decide_eq_true_eq]

/-- Appending under another key keeps the lookup. -/
lemma lookup_append_ne {V : Type} {k k' : Str} (ne : k' ≠ k) (ms : List (Str × V)) (v : V) :
    lookup k (ms ++ [(k', v)]) = lookup k ms := by
  induction ms with
  | nil => exact if_neg ne
  | cons e ms ih =>
    rw [List.cons_append, lookup, lookup, ih]

/-- Appending under a missing key is found. -/
lemma lookup_append_self {V : Type} {k : Str} {ms : List (Str × V)}
    (none : lookup k ms = none) (v : V) :
    lookup k (ms ++ [(k, v)]) = some v := by
  induction ms with
  | nil => exact if_pos rfl
  | cons e ms ih =>
    rw [lookup] at none
    split at none
    · cases none
    · rename_i ne
      rw [List.cons_append, lookup, if_neg ne, ih none]

/-- Rows with strictly decreasing keys that agree on the key wherever they agree on the id show an
id at most once. -/
lemma once {rows : List Order} (decreasing : rows.Pairwise fun a b => c.key b < c.key a) {id : Str}
    (createdAt : Str)
    (same : ∀ o ∈ rows, o.id = id → o.createdAt = createdAt) :
    (rows.filter fun o => o.id = id).length ≤ 1 := by
  have apart := decreasing.sublist (List.filter_sublist (p := fun o : Order => decide (o.id = id)))
  have key : ∀ o ∈ rows.filter (fun o => o.id = id),
      c.key o = toLex (c.place createdAt, c.place id) := by
    intro o m
    obtain ⟨mem, known⟩ := List.mem_filter.1 m
    have known := of_decide_eq_true known
    rw [Collation.key, same o mem known, known]
  cases shown : rows.filter fun o => o.id = id with
  | nil => exact Nat.zero_le 1
  | cons a rest =>
    cases rest with
    | nil => exact le_rfl
    | cons b rest =>
      rw [shown] at apart key
      have less := (List.pairwise_cons.1 apart).1 b List.mem_cons_self
      rw [key a List.mem_cons_self, key b (List.mem_cons_of_mem _ List.mem_cons_self)] at less
      exact absurd less (lt_irrefl _)

variable [Interpreter]

/-- The cursor is the only text that changes. -/
lemma pageText_withCursor {key default : String} (ne : key ≠ "cursor") (query : Fields)
    (cursor : Option Str) :
    pageText (withCursor query cursor) key default = pageText query key default := by
  cases cursor with
  | none => rfl
  | some text =>
    have other : str "cursor" ≠ str key := fun e => ne (str_inj.1 e).symm
    rw [pageText, pageText, withCursor, Fields.getD, Fields.getD, lookup_append_ne other]

/-- A cursor leaves the rest of the query as it is. -/
lemma pageFilter_withCursor (query : Fields) (cursor : Option Str) :
    pageFilter (withCursor query cursor) = pageFilter query := by
  have keys : ((withCursor query cursor).any fun e => !pageKeys.any fun k => e.1 = str k) =
      query.any fun e => !pageKeys.any fun k => e.1 = str k := by
    cases cursor with
    | none => rfl
    | some text =>
      have known : (!pageKeys.any fun k => str "cursor" = str k) = false := by decide
      rw [withCursor, List.any_append, List.any_cons, List.any_nil, known, Bool.or_false,
        Bool.or_false]
  have values : ((withCursor query cursor).any fun e => !single e.2) = query.any fun e =>
    !single e.2 := by
    cases cursor with
    | none => rfl
    | some text =>
      rw [withCursor, List.any_append, List.any_cons, List.any_nil]
      simp [single]
  rw [pageFilter, pageFilter, keys, values, pageText_withCursor (by decide),
    pageText_withCursor (by decide), pageText_withCursor (by decide)]

/-- A cursor stands for a bound: none, or the key of the row it was made of. -/
inductive Stands (c : Collation κ) (q status : Str) : Option Str → Option (κ ×ₗ κ) → Prop
  | first : Stands c q status none none
  | behind {last cursor} (listed : Listed last) (made : cursorOf last q status = .ok cursor) :
    Stands c q status (some cursor) (some (c.key last))

variable {query : Fields} {limit : Nat} {q status : Str}

/-- What a request shows: the rows of the filter below the bound that the cursor stands for. -/
lemma getPage_eq (accepted : pageFilter query = .ok (limit, q, status))
    (first : lookup (str "cursor") query = none)
    {cursor : Option Str} {bound : Option (κ ×ₗ κ)} (stands : Stands c q status cursor bound)
    (rows : List Order) :
    getPage c rows (withCursor query cursor) = (orderPageResult
      ((Keyset.found c.key bound (rows.filter (c.admits q status))).take (limit + 1)) limit q
        status).mapError .python := by
  have filter := (pageFilter_inv accepted).1
  have select : ∀ after : Option (Str × Str), (∀ o, c.beyond after o = Keyset.below c.key bound o) →
      listPage c rows limit q status after = orderPageResult
        ((Keyset.found c.key bound (rows.filter (c.admits q status))).take (limit + 1)) limit
          q status := by
    intro after same
    have rows' : rows.filter (fun o => c.admits q status o && c.beyond after o) =
        (rows.filter (c.admits q status)).filter (Keyset.below c.key bound) := by
      rw [List.filter_filter]
      refine List.filter_congr fun o _ => ?_
      rw [same, Bool.and_comm]
    rw [listPage, rows', Keyset.found]
  cases stands with
  | first =>
    have text : pageText query "cursor" "" = [] := by
      rw [pageText, Fields.getD, first]
      rfl
    have input : orderPageInput query = .ok ⟨limit, q, status, none⟩ := by
      rw [orderPageInput, accepted, ok_bind, text]
      rfl
    rw [withCursor, getPage, input, ok_bind, select none fun _ => rfl]
  | @behind last cursor listed made =>
    have text : pageText (withCursor query (some cursor)) "cursor" "" = cursor := by
      rw [pageText, withCursor, Fields.getD, lookup_append_self first]
      rfl
    have input : orderPageInput (withCursor query (some cursor)) =
        .ok ⟨limit, q, status, some (last.createdAt, last.id)⟩ := by
      rw [orderPageInput, pageFilter_withCursor, accepted, ok_bind, text]
      simp only
      rw [readCursor_made filter listed made, if_pos ⟨rfl, rfl⟩]
      rfl
    rw [getPage, input, ok_bind, select _ fun o => beyond_key last o]

/-! ### Following the cursors -/

/-- The last page: everything that is found. -/
lemma getPage_last (accepted : pageFilter query = .ok (limit, q, status))
    (first : lookup (str "cursor") query = none)
    {cursor : Option Str} {bound : Option (κ ×ₗ κ)} (stands : Stands c q status cursor bound)
    {rows : List Order}
    (all : (Keyset.found c.key bound (rows.filter (c.admits q status))).length ≤ limit) :
    getPage c rows (withCursor query cursor) =
      .ok ⟨Keyset.found c.key bound (rows.filter (c.admits q status)), "mariadb", false, none⟩ := by
  rw [getPage_eq accepted first stands, List.take_of_length_le (all.trans (Nat.le_succ _)),
    orderPageResult, if_neg (not_lt.2 all), List.take_of_length_le all]
  rfl

/-- Any other page: the first rows, and a cursor that stands for the key of the last one of them. -/
lemma getPage_next (accepted : pageFilter query = .ok (limit, q, status))
    (first : lookup (str "cursor") query = none)
    {cursor : Option Str} {bound : Option (κ ×ₗ κ)} (stands : Stands c q status cursor bound)
    (orders : Orders c)
    (more : limit < (Keyset.found c.key bound (orders.rows.filter (c.admits q status))).length) :
    ∃ last next,
      ((Keyset.found c.key bound (orders.rows.filter (c.admits q status))).take limit).getLast? =
      some last ∧ getPage c orders.rows (withCursor query cursor) =
        .ok ⟨(Keyset.found c.key bound (orders.rows.filter (c.admits q status))).take limit,
          "mariadb", true, some next⟩ ∧
      Stands c q status (some next) (some (c.key last)) := by
  obtain ⟨filter, positive, _⟩ := pageFilter_inv accepted
  obtain ⟨found, e⟩ : ∃ found,
    found = Keyset.found c.key bound (orders.rows.filter (c.admits q status)) := ⟨_, rfl⟩
  rw [← e] at more ⊢
  obtain ⟨last, bottom⟩ : ∃ last, (found.take limit).getLast? = some last := by
    cases none : (found.take limit).getLast? with
    | some last => exact ⟨last, rfl⟩
    | none =>
      have short := congrArg List.length (List.getLast?_eq_none_iff.1 none)
      rw [List.length_take, List.length_nil] at short
      omega
  have mem : last ∈ found := List.mem_of_mem_take (List.mem_of_getLast? bottom)
  rw [e] at mem
  have listed := orders.listed last (List.mem_of_mem_filter (Keyset.mem_found.1 mem).1)
  obtain ⟨next, _, made, _⟩ := cursor_reads filter listed
  refine ⟨last, next, bottom, ?_, .behind listed made⟩
  have probe : limit < (found.take (limit + 1)).length := by
    rw [List.length_take]
    omega
  have shown : (found.take (limit + 1)).take limit = found.take limit := by
    rw [List.take_take, Nat.min_eq_left (Nat.le_succ _)]
  rw [getPage_eq accepted first stands, ← e, orderPageResult, if_pos probe, shown]
  simp only [bottom, made]
  rfl

/-- The pages that a client is shown are a walk through the states that it meets. -/
lemma follow_walk (accepted : pageFilter query = .ok (limit, q, status))
    (first : lookup (str "cursor") query = none)
    {orders : Nat → Orders c} {n k : Nat} {cursor : Option Str} {bound : Option (κ ×ₗ κ)}
    (stands : Stands c q status cursor bound) {pages : List Page}
    (run : follow c orders query n k cursor = .ok (some pages)) : Keyset.Walk c.key limit bound
      ((List.range' k pages.length).map fun j => (orders j).rows.filter (c.admits q status))
      (pages.map Page.orders) := by
  induction n generalizing k cursor bound pages with
  | zero => cases run
  | succ n ih =>
    rw [follow] at run
    rcases Nat.lt_or_ge limit
      (Keyset.found c.key bound ((orders k).rows.filter (c.admits q status))).length with more | all
    · obtain ⟨last, next, bottom, page, behind⟩ :=
        getPage_next accepted first stands (orders k) more
      rw [page, ok_bind, if_pos rfl] at run
      obtain ⟨rest, deeper, h⟩ := bind_ok.1 run
      cases rest with
      | none => cases h
      | some rest =>
        cases h
        exact .next more bottom (ih behind deeper)
    · rw [getPage_last accepted first stands all, ok_bind, if_neg Bool.false_ne_true] at run
      cases run
      exact .last all

/-- A walk through rows that stay as they are is what a client is shown. -/
lemma walk_follow (accepted : pageFilter query = .ok (limit, q, status))
    (first : lookup (str "cursor") query = none)
    (orders : Orders c) {states shown : List (List Order)} {bound : Option (κ ×ₗ κ)}
    (walk : Keyset.Walk c.key limit bound states shown) {n : Nat}
    (same : states = List.replicate n (orders.rows.filter (c.admits q status))) {m k : Nat}
    (fuel : n ≤ m)
    {cursor : Option Str} (stands : Stands c q status cursor bound) :
    ∃ pages, follow c (fun _ => orders) query m k cursor = .ok (some pages) ∧
      pages.map Page.orders = shown := by
  induction walk generalizing n m k cursor with
  | @last bound rows all =>
    cases n with
    | zero => cases same
    | succ n =>
      obtain ⟨m, rfl⟩ : ∃ m', m = m' + 1 := ⟨m - 1, by omega⟩
      obtain ⟨rfl, _⟩ := List.cons.inj (same.trans List.replicate_succ)
      refine ⟨[⟨Keyset.found c.key bound (orders.rows.filter (c.admits q status)), "mariadb", false,
        none⟩], ?_, rfl⟩
      rw [follow, getPage_last accepted first stands all, ok_bind, if_neg Bool.false_ne_true]
      rfl
  | @next bound rows last states pages more bottom rest ih =>
    cases n with
    | zero => cases same
    | succ n =>
      obtain ⟨m, rfl⟩ : ∃ m', m = m' + 1 := ⟨m - 1, by omega⟩
      obtain ⟨rfl, tail⟩ := List.cons.inj (same.trans List.replicate_succ)
      obtain ⟨last', next, bottom', page, behind⟩ := getPage_next accepted first stands orders more
      cases bottom.symm.trans bottom'
      obtain ⟨rest, run, shown⟩ := ih tail (Nat.le_of_succ_le_succ fuel) behind (k := k + 1)
      refine ⟨⟨_, "mariadb", true, some next⟩ :: rest, ?_, by rw [List.map_cons, shown]⟩
      rw [follow, page, ok_bind, if_pos rfl, run]
      rfl

/-- Rows that stay as they are are all shown, each once, in strictly decreasing order, and the
client comes to an end. If the rows change between its requests, what it is shown still decreases
strictly; a row that matches all along with an unchanged time is shown once, and no row is shown
twice unless its time changed. -/
theorem pages_complete (c : Collation κ) (accepted : pageFilter query = .ok (limit, q, status))
    (first : lookup (str "cursor") query = none) :
    (∀ orders : Orders c, ∃ pages,
      follow c (fun _ => orders) query (orders.rows.length + 1) 0 none = .ok (some pages) ∧
        (visited pages).Perm (orders.rows.filter (c.admits q status)) ∧
      (visited pages).Pairwise fun a b => c.key b < c.key a) ∧
    ∀ orders n pages, follow c orders query n 0 none = .ok (some pages) →
      (visited pages).Pairwise (fun a b => c.key b < c.key a) ∧
      (∀ id createdAt, (∀ k < pages.length, ∃ o ∈ (orders k).rows, o.id = id ∧
        o.createdAt = createdAt ∧ c.admits q status o = true) → ((visited pages).filter fun o =>
          o.id = id).length = 1) ∧
      ∀ id createdAt, (∀ k < pages.length, ∀ o ∈ (orders k).rows, o.id = id →
        o.createdAt = createdAt) → ((visited pages).filter fun o => o.id = id).length ≤ 1 := by
  obtain ⟨_, positive, _⟩ := pageFilter_inv accepted
  constructor
  · intro orders
    have distinct := orders.distinct (c.admits q status)
    obtain ⟨n, shown, few, walk, flat⟩ := Keyset.Walk.complete positive distinct none
    have short : n ≤ orders.rows.length + 1 := by
      refine few.trans (Nat.succ_le_succ ?_)
      rw [Keyset.found_perm.length_eq]
      exact (List.length_filter_le _ _).trans (List.length_filter_le _ _)
    obtain ⟨pages, run, same⟩ := walk_follow accepted first orders walk rfl short (k := 0) .first
    have all : visited pages =
        Keyset.found c.key none (orders.rows.filter (c.admits q status)) := by
      rw [visited, same, flat]
    refine ⟨pages, run, ?_, ?_⟩
    · rw [all]
      refine Keyset.found_perm.trans (List.Perm.of_eq ?_)
      exact List.filter_eq_self.2 fun _ _ => rfl
    · rw [all]
      exact Keyset.found_decreasing none distinct
  · intro orders n pages run
    have walk := follow_walk accepted first .first run
    have states : ∀ rows ∈ (List.range' 0 pages.length).map
      (fun j => (orders j).rows.filter (c.admits q status)),
        ∃ k < pages.length, rows = (orders k).rows.filter (c.admits q status) := by
      intro rows m
      obtain ⟨k, mk, rfl⟩ := List.mem_map.1 m
      have := List.mem_range'_1.1 mk
      exact ⟨k, by omega, rfl⟩
    have distinct : ∀ rows ∈ (List.range' 0 pages.length).map
      (fun j => (orders j).rows.filter (c.admits q status)),
        (rows.map c.key).Nodup := by
      intro rows m
      obtain ⟨k, _, rfl⟩ := states rows m
      exact (orders k).distinct _
    have decreasing : (visited pages).Pairwise fun a b => c.key b < c.key a :=
      walk.decreasing distinct
    have origin : ∀ o ∈ visited pages, ∃ k < pages.length, o ∈ (orders k).rows := by
      intro o m
      obtain ⟨rows, mr, mo⟩ := walk.mem o m
      obtain ⟨k, small, rfl⟩ := states rows mr
      exact ⟨k, small, List.mem_of_mem_filter mo⟩
    refine ⟨decreasing, fun id createdAt steady => ?_, fun id createdAt same => ?_⟩
    · have same : ∀ o ∈ visited pages, o.id = id → o.createdAt = createdAt := by
        intro o m known
        obtain ⟨k, small, mem⟩ := origin o m
        obtain ⟨o', mem', known', time, _⟩ := steady k small
        have one := List.inj_on_of_nodup_map (orders k).ids mem mem' (by rw [known, known'])
        rw [one, time]
      have most := once decreasing createdAt same
      have kept : ∀ rows ∈ (List.range' 0 pages.length).map
        (fun j => (orders j).rows.filter (c.admits q status)),
          ∃ o ∈ rows, c.key o = toLex (c.place createdAt, c.place id) := by
        intro rows m
        obtain ⟨k, small, rfl⟩ := states rows m
        obtain ⟨o, mem, known, time, admitted⟩ := steady k small
        exact ⟨o, List.mem_filter.2 ⟨mem, admitted⟩, by rw [Collation.key, known, time]⟩
      obtain ⟨o, shown, key⟩ := walk.steady distinct kept trivial
      -- the row that is shown in its place has its id
      have place : c.place o.id = c.place id := (Prod.ext_iff.1 (toLex.injective key)).2
      obtain ⟨k, small, mem⟩ := origin o shown
      obtain ⟨o', mem', known, _⟩ := steady k small
      have one := List.inj_on_of_nodup_map (orders k).ids mem mem' (by rw [place, known])
      have found : o ∈ (visited pages).filter fun o => o.id = id :=
        List.mem_filter.2 ⟨shown, decide_eq_true (one ▸ known)⟩
      have least := List.length_pos_of_mem found
      omega
    · refine once decreasing createdAt fun o m known => ?_
      obtain ⟨k, small, mem⟩ := origin o m
      exact same k small o mem known

end

/-! ### A row whose time changes -/

section
attribute [local instance] integral

/-- Texts of one length in the order of their code points. -/
def demoCollation : Collation Nat where
  place s := s.foldl (fun n c => n * 0x110000 + c) 0
  lowering := asciiLower

def demoRow (id time : String) : Order :=
  ⟨str id, str "mug", 1, 500, 500, str "created", 1, str time⟩

/-- Two rows, of which the first one has the given time. -/
def demoRows (time : String) : List Order :=
  [demoRow "7d3e7dbe-9b0e-4a43-8f5a-0d6a3c1b2f10" time,
    demoRow "1c9f0f6a-52c5-4c0e-9f0e-2b7c8d9e0a11" "2024-02-28T10:20:30.123+00:00"]

def demoOrders (later : Bool) : Orders demoCollation where
  rows :=
    demoRows (if later then "2024-02-27T10:20:30.123+00:00" else "2024-02-29T10:20:30.123+00:00")
  ids := by cases later <;> decide +kernel
  listed := by
    have uuids : ∀ later : Bool, ∀ o ∈ demoRows (if later then "2024-02-27T10:20:30.123+00:00" else
        "2024-02-29T10:20:30.123+00:00"), IsUuid o.id ∧ fromisoformat o.createdAt = true ∧
          o.createdAt.length ≤ 40 ∧
        ∀ c ∈ o.createdAt, unescaped c = true := by decide +kernel
    intro o m
    obtain ⟨uuid, date, length, plain⟩ := uuids later o m
    exact ⟨uuid, date, length, plain⟩

/-- One order a page. -/
def demoQuery : Fields := [(str "limit", .list [.str (str "1")])]

/-- The query of the example is accepted. -/
lemma demoQuery_accepted : pageFilter demoQuery = .ok (1, [], []) := by decide +kernel

/-- Two pages of one order each. -/
theorem pages_complete_demo :
    ∃ pages, follow demoCollation (fun _ => demoOrders false) demoQuery 3 0 none =
    .ok (some pages) ∧ (visited pages).length = 2 := by
  obtain ⟨pages, run, perm, _⟩ :=
    (pages_complete demoCollation demoQuery_accepted rfl).1 (demoOrders false)
  refine ⟨pages, run, ?_⟩
  rw [perm.length_eq]
  decide +kernel

/-- The first row is shown, then its time is set back behind the one of the second row, and it is
shown again. -/
theorem pages_complete_false :
    ∃ pages, follow demoCollation (fun k => demoOrders (k ≠ 0)) demoQuery 3 0 none =
    .ok (some pages) ∧ (visited pages).map Order.id = [str "7d3e7dbe-9b0e-4a43-8f5a-0d6a3c1b2f10",
      str "1c9f0f6a-52c5-4c0e-9f0e-2b7c8d9e0a11", str "7d3e7dbe-9b0e-4a43-8f5a-0d6a3c1b2f10"] := by
  have run : passes (follow demoCollation (fun k => demoOrders (k ≠ 0)) demoQuery 3 0 none)
    (fun r => r.any fun pages =>
      (visited pages).map Order.id = [str "7d3e7dbe-9b0e-4a43-8f5a-0d6a3c1b2f10",
        str "1c9f0f6a-52c5-4c0e-9f0e-2b7c8d9e0a11", str "7d3e7dbe-9b0e-4a43-8f5a-0d6a3c1b2f10"]) =
          true := by
    decide +kernel
  obtain ⟨r, ok, test⟩ := ok_of_test run
  obtain ⟨pages, some, ids⟩ := (Option.any_eq_true _ _).1 test
  exact ⟨pages, some ▸ ok, of_decide_eq_true ids⟩

end

end DbLab.Mvp
