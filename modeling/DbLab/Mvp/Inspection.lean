import DbLab.Mvp.Journal
import DbLab.Py.Float

/-!
# The audit of an intent (`simulation.inspect_intent`)

A lookup by key and a comparison of the sources are judged against the journal. A consistent report
means that the order is the one that was asked for and acknowledged, in a version that is explained,
unless nothing was ever acknowledged: then no version is looked at.
-/

namespace DbLab.Mvp.Simulation
open DbLab.Py

section
variable [Interpreter]

/-! ### Fields and numbers -/

/-- A member that is there. -/
lemma at_getD {ms : Fields} {k : String} {v : Value} (h : ms.at (str k) = .ok v) :
    ms.getD k .null = v := by
  unfold Fields.at at h
  unfold Fields.getD
  split at h
  · rename_i w found
    cases h
    rw [found, Option.getD_some]
  · cases h

/-- Fields that do not differ are equal. -/
lemma differences_eq {r c : Fields} (h : differences (.dict r) (.dict c) = []) {k : String}
    (m : k ∈ orderFields) :
    (c.getD k .null).eq (r.getD k .null) = true := by
  have same := List.filter_eq_nil_iff.1 h k m
  unfold differs at same
  unfold Fields.getD
  split at same
  · rename_i v w hv hw
    rw [hv, hw]
    simp only [Bool.or_eq_true, Bool.not_eq_eq_eq_not, Bool.not_true, not_or,
      Bool.not_eq_false] at same
    exact same.2
  · exact absurd rfl same

/-- The order of integers. -/
lemma lt_int {m n : Int} {b : Bool} (h : (Value.int m).lt (.int n) = .ok b) :
    b = decide (m < n) := by
  cases h
  rw [Bool.eq_iff_iff]
  simp only [FloatView.lt, Num.view, FloatView.le, FloatView.eq, Bool.and_eq_true,
    Bool.not_eq_true', decide_eq_true_eq, decide_eq_false_iff_not, Rat.intCast_le_intCast,
    Rat.intCast_inj]
  omega

/-- Which values are integers. -/
lemma isInt_iff {v : Value} : v.isInt = true ↔ ∃ n, v = .int n := by
  cases v <;> simp [Value.isInt]

/-- Nothing is compared with a text. -/
lemma not_lt_str {v : Value} {s : Str} {b : Bool} : v.lt (.str s) ≠ .ok b := by
  unfold Value.lt
  cases v.num? <;> nofun

/-- Equal integers. -/
lemma eq_int_int {m n : Int} : (Value.int m).eq (.int n) = true ↔ m = n := by
  rw [eq_int_iff]
  constructor
  · rintro ⟨a, num, view⟩
    cases num
    exact_mod_cast FloatView.finite.inj view
  · rintro rfl
    exact ⟨_, rfl, rfl⟩

variable [Unicode]

/-- What the report says of an order that was compared. -/
structure Observed where
  orderId : Value
  version : Value
  cache : Value
  search : Value

structure Report where
  state : String
  consistent : Bool
  errors : Option (List Str)
  observed : Option Observed

/-- The entry whose version is the greatest as a number, the first of equal ones. -/
def newest (best : Int × Copy) : List (Str × Copy) → Except Exn (Int × Copy)
  | [] => .ok best
  | e :: es => do
    let n ← intOfStr e.1
    newest (if best.1 < n then (n, e.2) else best) es

/-- `ack[max(ack, key=lambda v: int(v))]` -/
def latest (e : Str × Copy) (es : List (Str × Copy)) : Except Exn Copy := do
  let n ← intOfStr e.1
  return (← newest (n, e.2) es).2

/-- `[sql["version"], sql["status"]] not in attempted_updates` -/
def unattempted (i : Intent) (sql : Fields) : Except Exn Bool := do
  return !contains i.attemptedUpdates (.list [← sql.at (str "version"), ← sql.at (str "status")])

/-- The version of the order against the newest one that was acknowledged. -/
def versionErrors (i : Intent) (sql : Fields) : Except Exn (List Str) :=
  match i.acknowledged with
  | [] => .ok []
  | e :: es => do
    let newest ← latest e es
    let version := sql.getD "version" .null
    if !version.isInt then return [str "acknowledged_version_missing"]
    else
      let old ← version.lt (newest.field "version")
      if old then return [str "acknowledged_version_missing"]
      else if version.eq (newest.field "version") &&
        differences (.dict newest.fields) (.dict sql) ≠ [] then
        return [str "acknowledged_content_mismatch"]
      else
        let newer ← (newest.field "version").lt version
        if newer then
          let unexpected ← unattempted i sql
          return if unexpected then [str "unexpected_source_version"] else []
        else return []

def identityErrors (i : Intent) (sql : Fields) : List Str :=
  if 1 < i.ids.length || (!i.ids.isEmpty && !contains i.ids (sql.getD "id" .null)) then
    [str "idempotency_identity_mismatch"]
  else []

/-- What the journal says against the order. -/
def journalErrors (i : Intent) (sql : Fields) : Except Exn (List Str) := do
  let changed ← payloadDiffers sql i.payload
  let version ← versionErrors i sql
  return (if changed then [str "source_payload_mismatch"] else []) ++
    identityErrors i sql ++ version

/-- `data.get(k, {}).get(field, default)` -/
def nested (data : Fields) (k field : String) (default : Value) : Except Exn Value :=
  match lookup (str k) data with
  | none => .ok default
  | some (.dict ms) => .ok (Fields.getD ms field default)
  | some _ => .error .attributeError

/-- `label + v` -/
def labelled (label : String) : Value → Except Exn Str
  | .str s => .ok (str label ++ s)
  | _ => .error .typeError

/-- `search != "match"` -/
def searchErrors (search : Value) : Except Exn (List Str) :=
  if search.eq (.str (str "match")) then .ok []
  else do return [← labelled "search_" search]

/-- `cache not in {"match", "missing"}` -/
def cacheErrors (cache : Value) : Except Exn (List Str) :=
  if cache.hashable then
    if cache.oneOf ["match", "missing"] then .ok [] else do return [← labelled "cache_" cache]
  else .error .typeError

/-- What the comparison of the sources says. -/
structure Sources where
  order : Value
  stable : Bool
  valid : Bool
  search : Value
  cache : Value

/-- Reading the comparison. -/
def sources (data : Fields) : Except Exn Sources := do
  let order ← nested data "mariadb" "order" .null
  let search ← nested data "elasticsearch" "comparison" (.str (str "unknown"))
  let cache ← nested data "redis" "comparison" (.str (str "unknown"))
  return ⟨order, (data.getD "sql_stable_during_observation" .null).truthy,
    (data.getD "authoritative_valid" .null).truthy, search, cache⟩

def sourceErrors (sql : Fields) (s : Sources) : Except Exn (List Str) := do
  let search ← searchErrors s.search
  let cache ← cacheErrors s.cache
  return (if differences (.dict sql) s.order ≠ [] then [str "source_changed_between_observations"]
    else []) ++ (if !s.stable || !s.valid then [str "unstable_or_invalid_source"] else []) ++
      search ++ cache

/-- `inspect_intent(intent, lookup, observed)` -/
def inspectIntent (i : Intent) (found : Response) (observed : Option Response) :
    Except Exn Report :=
  if found.status ≠ 200 then .ok ⟨"unresolved", false, none, none⟩
  else match found.payload.getD "order" .null with
    | .null =>
      .ok ⟨if i.acknowledged.isEmpty then "unacknowledged_absent" else "acknowledged_missing",
        i.acknowledged.isEmpty, none, none⟩
    | .dict sql => do
      let own ← journalErrors i sql
      match observed with
      | none => return ⟨"unresolved", false, some own, none⟩
      | some o =>
        if o.status ≠ 200 then return ⟨"unresolved", false, some own, none⟩
        else
          let seen ← sources o.payload
          let errors := own ++ (← sourceErrors sql seen)
          return ⟨if i.acknowledged.isEmpty then "present_without_ack" else "acknowledged_present",
            errors.isEmpty, some errors,
            some ⟨Fields.getD sql "id" .null, Fields.getD sql "version" .null, seen.cache,
            seen.search⟩⟩
    | _ => .error .attributeError

/-! ### What a consistent report should mean -/

/-- A value that `int` reads as a version. -/
def Numbered (v : Value) (n : Int) : Prop := v = .int n ∨ ∃ s, v = .str s ∧ intOfStr s = .ok n

/-- `[version, status]` of an order. -/
def standing (sql : Fields) : Value := .list [sql.getD "version" .null, sql.getD "status" .null]

/-- The version and the status that every order begins with. -/
def initial : Value := .list [.int 1, .str (str "created")]

/-- The version and the status are the initial ones or those of an update that was attempted. -/
def Expected (i : Intent) (sql : Fields) : Prop :=
  (standing sql).eq initial = true ∨ contains i.attemptedUpdates (standing sql) = true

/-- The order is explained by the journal, in which the orders of `log` were acknowledged. -/
structure Explained (log : List Copy) (i : Intent) (sql : Fields) : Prop where
  payload : ∀ k ∈ payloadFields, ∃ v, lookup (str k) i.payload = some v ∧
    (sql.getD k .null).eq v = true
  one : i.ids.length ≤ 1
  identity : ∀ c ∈ log, ∃ x ∈ i.ids, (x = c.field "id" ∨ x.eq (c.field "id") = true) ∧
    x.eq (sql.getD "id" .null) = true
  version : log ≠ [] → ∃ n, sql.getD "version" .null = .int n ∧ ∀ c ∈ log, ∃ m ≤ n,
    Numbered (c.field "version") m
  copy : ∀ e ∈ i.acknowledged, (sql.getD "version" .null).asStr = .ok e.1 →
    differences (.dict e.2.fields) (.dict sql) = []
  standing : Expected i sql ∨ ∃ e ∈ i.acknowledged,
    (sql.getD "version" .null).eq (e.2.field "version") = true ∧
      (sql.getD "status" .null).eq (e.2.field "status") = true

/-- The copies of the order elsewhere are as a consistent report says. -/
def Agrees (sql : Fields) (observed : Option Response) : Prop :=
  ∃ o s, observed = some o ∧ o.status = 200 ∧ sources o.payload = .ok s ∧
    differences (.dict sql) s.order = [] ∧ s.stable = true ∧ s.valid = true ∧
      s.search = .str (str "match") ∧ s.cache.oneOf ["match", "missing"] = true

/-- What a consistent report promises of the order that the lookup found. -/
def Promised (log : List Copy) (i : Intent) (observed : Option Response) : Value → Prop
  | .null => log = []
  | .dict sql => Explained log i sql ∧ Agrees sql observed
  | _ => False

/-- Something was acknowledged, or there is no order, or its version and status are expected. -/
def Covered (i : Intent) : Value → Prop
  | .dict sql => i.acknowledged ≠ [] ∨ Expected i sql
  | _ => True

/-! ### The checks -/

/-- The newest copy has the greatest version. -/
lemma newest_spec {best : Int × Copy} {es : List (Str × Copy)} {r : Int × Copy}
    (h : newest best es = .ok r) :
    best.1 ≤ r.1 ∧ (r = best ∨ ∃ e ∈ es, e.2 = r.2 ∧ intOfStr e.1 = .ok r.1) ∧
      ∀ e ∈ es, ∃ n ≤ r.1, intOfStr e.1 = .ok n := by
  induction es generalizing best with
  | nil =>
    cases h
    exact ⟨le_refl _, .inl rfl, nofun⟩
  | cons e es ih =>
    obtain ⟨n, read, h⟩ := bind_ok.1 h
    obtain ⟨above, from_, all⟩ := ih h
    by_cases newer : best.1 < n
    · rw [if_pos newer] at above from_
      refine ⟨le_of_lt (lt_of_lt_of_le newer above), .inr ?_, ?_⟩
      · rcases from_ with rfl | ⟨e', m, same, text⟩
        · exact ⟨e, List.mem_cons_self, rfl, read⟩
        · exact ⟨e', List.mem_cons_of_mem _ m, same, text⟩
      · intro e' m
        rcases List.mem_cons.1 m with rfl | m
        · exact ⟨n, above, read⟩
        · exact all e' m
    · rw [if_neg newer] at above from_
      refine ⟨above, ?_, ?_⟩
      · rcases from_ with rfl | ⟨e', m, same, text⟩
        · exact .inl rfl
        · exact .inr ⟨e', List.mem_cons_of_mem _ m, same, text⟩
      · intro e' m
        rcases List.mem_cons.1 m with rfl | m
        · exact ⟨n, (not_lt.1 newer).trans above, read⟩
        · exact all e' m

/-- The latest entry is one of the entries, and no version is above its own. -/
lemma latest_spec {e : Str × Copy} {es : List (Str × Copy)} {c : Copy} (h : latest e es = .ok c) :
    ∃ t n, (t, c) ∈ e :: es ∧ intOfStr t = .ok n ∧ ∀ e' ∈ e :: es, ∃ m ≤ n,
      intOfStr e'.1 = .ok m := by
  obtain ⟨n, read, h⟩ := bind_ok.1 h
  obtain ⟨r, found, h⟩ := bind_ok.1 h
  cases h
  obtain ⟨above, from_, all⟩ := newest_spec found
  have bound : ∀ e' ∈ e :: es, ∃ m ≤ r.1, intOfStr e'.1 = .ok m := by
    intro e' m
    rcases List.mem_cons.1 m with rfl | m
    · exact ⟨n, above, read⟩
    · exact all e' m
  rcases from_ with rfl | ⟨e', m, same, text⟩
  · exact ⟨e.1, n, List.mem_cons_self, read, bound⟩
  · refine ⟨e'.1, r.1, ?_, text, bound⟩
    rw [← same]
    exact List.mem_cons_of_mem _ m

omit [Unicode] in
/-- An update that is not refused was attempted. -/
lemma unattempted_spec {i : Intent} {sql : Fields} (h : unattempted i sql = .ok false) :
    contains i.attemptedUpdates (standing sql) = true := by
  obtain ⟨v, version, h⟩ := bind_ok.1 h
  obtain ⟨s, status, h⟩ := bind_ok.1 h
  rw [standing, at_getD version, at_getD status]
  simpa using Except.ok.inj h

/-- Nothing against the version: it is a number no smaller than any acknowledged one, equal to the
acknowledged copy of its own version, and if it is newer than all of them the update was
attempted. -/
lemma versionErrors_none {i : Intent} {log : List Copy} {sql : Fields} (tracks : i.Tracks log)
    (some_ : i.acknowledged ≠ [])
    (h : versionErrors i sql = .ok []) :
    ∃ n, sql.getD "version" .null = .int n ∧ (∀ c ∈ log, ∃ m ≤ n, Numbered (c.field "version") m) ∧
      (∀ e ∈ i.acknowledged, intRepr n = .ok e.1 →
        differences (.dict e.2.fields) (.dict sql) = []) ∧
      (contains i.attemptedUpdates (standing sql) = true ∨
        ∃ e ∈ i.acknowledged, (sql.getD "version" .null).eq (e.2.field "version") = true ∧
          (sql.getD "status" .null).eq (e.2.field "status") = true) := by
  obtain ⟨e, es, ack⟩ := List.exists_cons_of_ne_nil some_
  unfold versionErrors at h
  rw [ack] at h
  simp only at h
  obtain ⟨c, newest, h⟩ := bind_ok.1 h
  split at h
  · cases h
  rename_i int
  obtain ⟨n, version⟩ := isInt_iff.1 (by simpa using int)
  rw [version] at h
  obtain ⟨old, older, h⟩ := bind_ok.1 h
  obtain ⟨t, k, entry, read, bound⟩ := latest_spec newest
  rw [← ack] at entry bound
  have own := (tracks.copies _ entry).2
  have number : c.field "version" = .int k := by
    rcases intOfStr_asStr own read with int | text
    · exact int
    · rw [text] at older
      exact absurd older not_lt_str
  rw [number] at h older
  have above : k ≤ n := by
    split at h
    · cases h
    · rename_i not_
      rw [lt_int older, decide_eq_true_eq] at not_
      omega
  rw [if_neg (by rw [lt_int older, decide_eq_true_eq]; omega)] at h
  have greatest : ∀ c ∈ log, ∃ m ≤ n, Numbered (c.field "version") m := by
    intro c' m
    obtain ⟨t', text, known⟩ := tracks.versions c' m
    obtain ⟨e', me, rfl⟩ := List.mem_map.1 known
    obtain ⟨l, below, read'⟩ := bound e' me
    refine ⟨l, below.trans above, ?_⟩
    rcases intOfStr_asStr text read' with int | str
    · exact .inl int
    · exact .inr ⟨_, str, read'⟩
  have same : n = k → differences (.dict c.fields) (.dict sql) = [] := by
    rintro rfl
    split at h
    · cases h
    · rename_i equal
      simpa [eq_int_int.2 rfl] using equal
  refine ⟨n, version, greatest, ?_, ?_⟩
  · intro e' me text
    -- the entry of this very version is the newest one
    obtain ⟨l, below, read'⟩ := bound e' me
    have value : l = n := Except.ok.inj (read'.symm.trans (intOfStr_intRepr text))
    have top : n = k := by omega
    have text' : t = e'.1 := by
      rw [number, ← top] at own
      exact Except.ok.inj (own.symm.trans text)
    have found := lookup_of_mem tracks.nodup entry
    have found' := lookup_of_mem tracks.nodup me
    rw [text', found', Option.some_inj] at found
    rw [found]
    exact same top
  · rcases eq_or_lt_of_le above with top | newer
    · have alike := same top.symm
      refine .inr ⟨_, entry, ?_, ?_⟩
      · exact differences_eq alike (by decide)
      · exact differences_eq alike (by decide)
    · left
      have apart : (Value.int n).eq (.int k) = false := by
        rw [Bool.eq_false_iff]
        intro same
        have := eq_int_int.1 same
        omega
      rw [apart, Bool.false_and, if_neg Bool.false_ne_true] at h
      obtain ⟨b, compared, h⟩ := bind_ok.1 h
      rw [if_pos (by rw [lt_int compared, decide_eq_true_eq]; exact newer)] at h
      obtain ⟨u, unexpected, h⟩ := bind_ok.1 h
      cases u with
      | true => cases h
      | false => exact unattempted_spec unexpected

omit [Unicode] in
/-- An order with the payload has its fields. -/
lemma payloadDiffers_false {order payload : Fields} (h : payloadDiffers order payload = .ok false) :
    ∀ k ∈ payloadFields, ∃ v, lookup (str k) payload = some v ∧
      (order.getD k .null).eq v = true := by
  intro k m
  obtain ⟨v, field, same⟩ := bind_ok.1 (anyM_false.1 h k m)
  refine ⟨v, ?_, by simpa using Except.ok.inj same⟩
  unfold Fields.at at field
  split at field
  · rename_i w found
    cases field
    exact found
  · cases field

omit [Unicode] in
/-- Nothing against the ids: there is at most one, and it is that of the order. -/
lemma identityErrors_none {i : Intent} {sql : Fields} (h : identityErrors i sql = []) :
    i.ids.length ≤ 1 ∧ ∀ x ∈ i.ids, x.eq (sql.getD "id" .null) = true := by
  unfold identityErrors at h
  split at h
  · cases h
  rename_i none
  simp only [Bool.or_eq_true, Bool.and_eq_true, Bool.not_eq_true', decide_eq_true_eq, not_or,
    not_and, not_lt, Bool.not_eq_false] at none
  refine ⟨none.1, ?_⟩
  intro x m
  have known := none.2 (List.isEmpty_eq_false_iff.2 (List.ne_nil_of_mem m))
  obtain ⟨y, my, same⟩ := contains_iff.1 known
  obtain ⟨z, ids⟩ := List.length_eq_one_iff.1 (le_antisymm none.1 (List.length_pos_of_mem m))
  rw [ids, List.mem_singleton] at m my
  rw [m, ← my]
  exact same

/-- Where the journal finds nothing, all three checks pass. -/
lemma journalErrors_none {i : Intent} {sql : Fields} (h : journalErrors i sql = .ok []) :
    payloadDiffers sql i.payload = .ok false ∧ identityErrors i sql = [] ∧
      versionErrors i sql = .ok [] := by
  obtain ⟨changed, payload, h⟩ := bind_ok.1 h
  obtain ⟨version, versions, h⟩ := bind_ok.1 h
  have empty := Except.ok.inj h
  rw [List.append_eq_nil_iff, List.append_eq_nil_iff] at empty
  obtain ⟨⟨unchanged, ids⟩, none⟩ := empty
  rw [none] at versions
  refine ⟨?_, ids, versions⟩
  cases changed with
  | true => cases unchanged
  | false => exact payload

omit [Unicode] in
/-- Where the search finds nothing, it has the order. -/
lemma searchErrors_none {search : Value} (h : searchErrors search = .ok []) :
    search = .str (str "match") := by
  unfold searchErrors at h
  split at h
  · rename_i same
    exact eq_str_iff.1 same
  · obtain ⟨_, _, h⟩ := bind_ok.1 h
    cases h

omit [Unicode] in
/-- Where the cache finds nothing, it has the order or none. -/
lemma cacheErrors_none {cache : Value} (h : cacheErrors cache = .ok []) :
    cache.oneOf ["match", "missing"] = true := by
  unfold cacheErrors at h
  split at h
  · split at h
    · assumption
    · obtain ⟨_, _, h⟩ := bind_ok.1 h
      cases h
  · cases h

omit [Unicode] in
/-- Nothing against the copies elsewhere. -/
lemma sourceErrors_none {sql : Fields} {s : Sources} (h : sourceErrors sql s = .ok []) :
    differences (.dict sql) s.order = [] ∧ s.stable = true ∧ s.valid = true ∧
      s.search = .str (str "match") ∧ s.cache.oneOf ["match", "missing"] = true := by
  obtain ⟨search, searched, h⟩ := bind_ok.1 h
  obtain ⟨cache, cached, h⟩ := bind_ok.1 h
  have empty := Except.ok.inj h
  rw [List.append_eq_nil_iff, List.append_eq_nil_iff, List.append_eq_nil_iff] at empty
  obtain ⟨⟨⟨order, stable⟩, noSearch⟩, noCache⟩ := empty
  rw [noSearch] at searched
  rw [noCache] at cached
  have same : differences (.dict sql) s.order = [] := by
    by_contra differ
    rw [if_pos differ] at order
    cases order
  have sound : (!s.stable || !s.valid) = false := by
    rw [Bool.eq_false_iff]
    intro unsound
    rw [if_pos unsound] at stable
    cases stable
  simp only [Bool.or_eq_false_iff, Bool.not_eq_false'] at sound
  exact ⟨same, sound.1, sound.2, searchErrors_none searched, cacheErrors_none cached⟩

/-! ### The report -/

/-- A consistent report is about an order or about none. -/
lemma inspectIntent_object {i : Intent} {found : Response} {observed : Option Response}
    {report : Report}
    (inspected : inspectIntent i found observed = .ok report)
    (consistent : report.consistent = true) :
    (found.payload.getD "order" .null = .null ∧ i.acknowledged = []) ∨
      ∃ sql, found.payload.getD "order" .null = .dict sql := by
  unfold inspectIntent at inspected
  split at inspected
  · cases inspected
    cases consistent
  split at inspected
  · rename_i order
    cases inspected
    exact .inl ⟨order, List.isEmpty_iff.1 consistent⟩
  · rename_i sql order
    exact .inr ⟨sql, order⟩
  · cases inspected

/-- A consistent report on an order. -/
lemma inspectIntent_order {i : Intent} {found : Response} {observed : Option Response}
    {report : Report} {sql : Fields}
    (order : found.payload.getD "order" .null = .dict sql)
    (inspected : inspectIntent i found observed = .ok report)
    (consistent : report.consistent = true) :
    journalErrors i sql = .ok [] ∧ Agrees sql observed := by
  unfold inspectIntent at inspected
  rw [order] at inspected
  split at inspected
  · cases inspected
    cases consistent
  simp only at inspected
  obtain ⟨own, journal, inspected⟩ := bind_ok.1 inspected
  cases observed with
  | none =>
    cases inspected
    cases consistent
  | some o =>
    simp only at inspected
    split at inspected
    · cases inspected
      cases consistent
    rename_i status
    obtain ⟨seen, read, inspected⟩ := bind_ok.1 inspected
    obtain ⟨errors, sourced, inspected⟩ := bind_ok.1 inspected
    cases inspected
    have none := List.isEmpty_iff.1 consistent
    rw [List.append_eq_nil_iff] at none
    rw [none.1] at journal
    rw [none.2] at sourced
    exact ⟨journal, o, seen, rfl, not_not.1 status, read, sourceErrors_none sourced⟩

/-- Nothing was acknowledged to an intent without copies. -/
lemma Intent.Tracks.none {i : Intent} {log : List Copy} (tracks : i.Tracks log)
    (none : i.acknowledged = []) : log = [] := by
  rw [List.eq_nil_iff_forall_not_mem]
  intro c m
  obtain ⟨_, _, known⟩ := tracks.versions c m
  rw [none] at known
  cases known

/-- An order against which the journal says nothing is explained, if its version is covered. -/
lemma explained_iff {i : Intent} {log : List Copy} {sql : Fields} (tracks : i.Tracks log)
    (h : journalErrors i sql = .ok []) :
    Explained log i sql ↔ i.acknowledged ≠ [] ∨ Expected i sql := by
  obtain ⟨payload, ids, version⟩ := journalErrors_none h
  obtain ⟨one, own⟩ := identityErrors_none ids
  constructor
  · intro explained
    rcases explained.standing with expected | ⟨e, m, _⟩
    · exact .inr expected
    · exact .inl (List.ne_nil_of_mem m)
  · intro covered
    have identity : ∀ c ∈ log, ∃ x ∈ i.ids, (x = c.field "id" ∨ x.eq (c.field "id") = true) ∧
        x.eq (sql.getD "id" .null) = true := by
      intro c m
      obtain ⟨x, mx, same⟩ := tracks.ids c m
      exact ⟨x, mx, same, own x mx⟩
    by_cases some_ : i.acknowledged = []
    · have none := tracks.none some_
      refine ⟨payloadDiffers_false payload, one, identity, fun some => absurd none some, ?_, ?_⟩
      · rw [some_]
        exact nofun
      · exact .inl (covered.resolve_left fun some => some some_)
    · obtain ⟨n, number, above, copy, standing⟩ := versionErrors_none tracks some_ version
      refine ⟨payloadDiffers_false payload, one, identity, fun _ => ⟨n, number, above⟩, ?_, ?_⟩
      · rw [number]
        exact copy
      · exact standing.imp .inr id

/-- A consistent report keeps its promise exactly where something was acknowledged for the key, or
there is no order, or the version and the status of the order are the initial ones or were
attempted. -/
theorem inspect_sound (events : List Event) (key : Str) {i : Intent}
    (built : lookup key (run events .empty).intents = some i) (found : Response)
    (observed : Option Response)
    {report : Report} (inspected : inspectIntent i found observed = .ok report)
    (consistent : report.consistent = true) :
    Promised (acknowledgements key events .empty) i observed (found.payload.getD "order" .null) ↔
      Covered i (found.payload.getD "order" .null) := by
  have start : Journal.empty.Tracks key [] := rfl
  have tracks : i.Tracks (acknowledgements key events .empty) := (run_tracks start).intent built
  rcases inspectIntent_object inspected consistent with ⟨order, absent⟩ | ⟨sql, order⟩
  · rw [order]
    exact iff_of_true (tracks.none absent) trivial
  · rw [order]
    obtain ⟨journal, agrees⟩ := inspectIntent_order order inspected consistent
    exact (and_iff_left agrees).trans (explained_iff tracks journal)

end

/-! ### Runs -/

section
attribute [local instance] integral

attribute [local instance] ascii

def requested : Fields :=
  [(str "item", .str (str "tea")), (str "quantity", .int 2), (str "unit_price", .int 30)]

/-- The order as it is in a version. -/
def shown (version : Int) (status : String) : Fields :=
  [(str "id", .str (str "o1")), (str "total", .int 60), (str "status", .str (str status)),
    (str "version", .int version), (str "created_at", .str (str "2026-01-01"))] ++ requested

def answer (order : Fields) : Response := ⟨200, [(str "order", .dict order)]⟩

/-- A comparison in which every copy is that of the order. -/
def compared (order : Fields) : Response :=
  ⟨200, [(str "mariadb", .dict [(str "order", .dict order)]),
    (str "sql_stable_during_observation", .bool true), (str "authoritative_valid", .bool true),
    (str "elasticsearch", .dict [(str "comparison", .str (str "match"))]),
    (str "redis", .dict [(str "comparison", .str (str "missing"))])]⟩

/-- The intent that a run leaves is audited. -/
def audited (events : List Event) (key : Str) (order : Fields) : Bool :=
  match lookup key (run events .empty).intents with
  | some i => passes (inspectIntent i (answer order) (some (compared order))) Report.consistent
  | none => false

/-- An audit that passes has a consistent report. -/
lemma audited_report {events : List Event} {key : Str} {order : Fields}
    (h : audited events key order = true) :
    ∃ i report, lookup key (run events .empty).intents = some i ∧
      inspectIntent i (answer order) (some (compared order)) = .ok report ∧
        report.consistent = true := by
  unfold audited at h
  split at h
  · rename_i i built
    obtain ⟨report, inspected, consistent⟩ := ok_of_test h
    exact ⟨i, report, built, inspected, consistent⟩
  · cases h

/-- An order is created, and its payment is attempted but not answered. -/
def unanswered : List Event :=
  [.register (str "k") requested,
    .acknowledge (str "k") ⟨201, [(str "order", .dict (shown 1 "created"))]⟩,
    .update (str "k") (.dict (shown 1 "created")) (str "paid")
    (.ok ⟨0, [(str "error", .str (str "TimeoutError"))]⟩)]

/-- `inspect_sound` for an update that was never answered. -/
theorem inspect_sound_unanswered :
    ∃ i report, lookup (str "k") (run unanswered .empty).intents = some i ∧
      inspectIntent i (answer (shown 2 "paid")) (some (compared (shown 2 "paid"))) = .ok report ∧
    (Promised (acknowledgements (str "k") unanswered .empty) i (some (compared (shown 2 "paid")))
      ((answer (shown 2 "paid")).payload.getD "order" .null) ↔
        Covered i ((answer (shown 2 "paid")).payload.getD "order" .null)) := by
  have test : audited unanswered (str "k") (shown 2 "paid") = true := by decide +kernel
  obtain ⟨i, report, built, inspected, consistent⟩ := audited_report test
  exact ⟨i, report, built, inspected,
    inspect_sound unanswered (str "k") built _ _ inspected consistent⟩

/-- An order is asked for, and no answer comes. -/
def lost : List Event :=
  [.register (str "k") requested,
    .acknowledge (str "k") ⟨0, [(str "error", .str (str "TimeoutError"))]⟩]

/-- Nothing was acknowledged and no update was attempted, and the order is found shipped in version
3: the report is consistent. -/
theorem inspect_sound_false : ∃ i report,
    lookup (str "k") (run lost .empty).intents = some i ∧
    inspectIntent i (answer (shown 3 "shipped")) (some (compared (shown 3 "shipped"))) =
      .ok report ∧
    report.consistent = true ∧
    ¬ Promised (acknowledgements (str "k") lost .empty) i (some (compared (shown 3 "shipped")))
      ((answer (shown 3 "shipped")).payload.getD "order" .null) := by
  have test : audited lost (str "k") (shown 3 "shipped") = true := by decide +kernel
  obtain ⟨i, report, built, inspected, consistent⟩ := audited_report test
  refine ⟨i, report, built, inspected, consistent, ?_⟩
  have registered : lookup (str "k") (run lost .empty).intents = some ⟨requested, [], [], []⟩ := by
    rfl
  cases built.symm.trans registered
  have order : (answer (shown 3 "shipped")).payload.getD "order" .null =
    .dict (shown 3 "shipped") := rfl
  rw [order]
  rintro ⟨explained, _⟩
  rcases explained.standing with (first | attempted) | ⟨e, m, _⟩
  · exact absurd first (by decide +kernel)
  · cases attempted
  · cases m

end

end DbLab.Mvp.Simulation
