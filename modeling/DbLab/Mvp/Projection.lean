import DbLab.Mvp.OrderStore
import DbLab.Mvp.Pipeline
import DbLab.Mvp.Repair

/-!
# The projection is sound

What is in the topic, on its way or in the index is a version of an order that the database has
committed; the committed offset is behind messages that the index has, in that version or a newer
one; and what is marked as sent is in the topic. So when nothing is pending and the offset is at the
end, the index has every order as it is. A consumer that runs alone does with a message what
`project_one` does in one step.
-/

namespace DbLab.Mvp.Pipeline
open DbLab.Py DbLab.Store DbLab.Mvp.Shop Relation
open Message (Thrown)

section
variable [Interpreter] {d d' : Tables} {e e' : Outside} {o o' : Order} {raw : Bytes} {x : EventRow}

/-! ### Versions -/

/-- A version of an order that the outbox tells of. -/
structure Recorded (d : Tables) (o : Order) : Prop where
  made : ∃ h, History h ∧ o ∈ h
  told : d.Tells o

/-- What is recorded stays recorded. -/
lemma Recorded.grows (h : Recorded d o) (grows : Grows d d') : Recorded d' o :=
  ⟨h.made, h.told.grows grows⟩

/-- An event is of one version. -/
lemma announces_unique {h h' : List Order} (history : History h) (m : o ∈ h) (history' : History h')
    (m' : o' ∈ h')
    (announces : Announces x o) (announces' : Announces x o') : o = o' := by
  obtain ⟨fields, written, read⟩ := announces.read history m
  obtain ⟨fields', written', read'⟩ := announces'.read history' m'
  have same : eventWith x.eventId (.ofFields fields) [] =
      eventWith x.eventId (.ofFields fields') [] :=
    Except.ok.inj (read.symm.trans read')
  have order : (Value.ofFields fields) = .ofFields fields' := by
    simpa [eventWith, Value.ofFields] using same
  refine Message.order_of_members (written.perm.symm.trans ?_)
  rw [Value.dict.inj order]
  exact written'.perm

/-- An event of the outbox tells a version of its order. -/
lemma told_version (booked : Booked d) (m : x ∈ d.outbox.rows) :
    ∃ r ∈ d.orders.rows, ∃ h, History h ∧ h.getLast? = some r.toOrder ∧ ∃ o ∈ h, Announces x o := by
  obtain ⟨r, mr, owner⟩ := booked.owned x m
  obtain ⟨h, history, last, announce⟩ := booked.versions r mr
  obtain ⟨i, here⟩ := List.mem_iff_getElem?.1 (mem_about.2 ⟨m, owner⟩)
  obtain ⟨bound, rfl⟩ := List.getElem?_eq_some_iff.1 here
  have announces := announce.get bound (announce.length_eq ▸ bound)
  exact ⟨r, mr, h, history, last, _, List.getElem_mem _, announces⟩

/-- A version that is told is in the history of an order. -/
lemma Recorded.version (booked : Booked d) (h : Recorded d o) :
    ∃ r ∈ d.orders.rows, ∃ past, History past ∧ past.getLast? = some r.toOrder ∧ o ∈ past := by
  obtain ⟨past, made, m⟩ := h.made
  obtain ⟨x, mx, announces⟩ := h.told
  obtain ⟨r, mr, past', history, last, o', m', announces'⟩ := told_version booked mx
  cases announces_unique made m history m' announces announces'
  exact ⟨r, mr, past', history, last, m'⟩

/-- The message of a version. -/
def Carries (d : Tables) (raw : Bytes) : Prop :=
  ∃ o ms, Recorded d o ∧ messageOrder raw = .ok (.dict ms) ∧ ms.Perm o.members

/-- The document of a version. -/
def Documents (d : Tables) (w : Str × Int × Value) : Prop :=
  ∃ o ms, Recorded d o ∧ w = (o.id, o.version, .dict ms) ∧ ms.Perm o.members

/-- What a message carries stays recorded. -/
lemma Carries.grows (h : Carries d raw) (grows : Grows d d') : Carries d' raw := by
  obtain ⟨o, ms, recorded, read, perm⟩ := h
  exact ⟨o, ms, recorded.grows grows, read, perm⟩

/-- What a document shows stays recorded. -/
lemma Documents.grows {w : Str × Int × Value} (h : Documents d w) (grows : Grows d d') :
    Documents d' w := by
  obtain ⟨o, ms, recorded, same, perm⟩ := h
  exact ⟨o, ms, recorded.grows grows, same, perm⟩

/-- The histories with one order. -/
def oneHistory {h : List Order} (history : History h) (id : Str) (own : ∀ o ∈ h, o.id = id) :
    Search.Histories where
  of id' := if id' = id then h else []
  history id' ne := by
    split at ne
    · rw [if_pos ‹_›]
      exact history
    · exact absurd rfl ne
  own id' o m := by
    split at m
    · rw [own o m]
      exact Eq.symm ‹_›
    · cases m

/-- The message of an event of the outbox. -/
lemma carries_event (booked : Booked d) (m : x ∈ d.outbox.rows) {event : Value}
    (read : rowEvent x.payload = .ok event)
    (sent : wire event = .ok raw) :
    ∃ o ms, Recorded d o ∧ Announces x o ∧ messageOrder raw = .ok (.dict ms) ∧
      ms.Perm o.members := by
  obtain ⟨r, mr, h, history, _, o, mo, announces⟩ := told_version booked m
  obtain ⟨fields, written, text⟩ := announces.text
  obtain ⟨id, own⟩ := history.one
  have there : o ∈ (oneHistory history id own).of o.id := by
    rw [oneHistory, own o mo]
    simpa using mo
  have bears := bears_event there written.perm announces.uuid text read sent
  exact ⟨o, _, ⟨⟨h, history, mo⟩, x, m, announces⟩, announces, bears.read, bears.perm⟩

/-! ### What holds of the world -/

/-- The index has the version of the message, or a newer one. -/
def Indexed (e : Outside) (raw : Bytes) : Prop :=
  ∃ (o : Order) (ms : Fields) (doc : Int × Value), messageOrder raw = .ok (.dict ms) ∧
    ms.Perm o.members ∧ e.elastic.docs o.id = some doc ∧ o.version ≤ doc.1

/-- The index has what is in front of a position. -/
def Passed (e : Outside) (position : Nat) : Prop :=
  ∀ i < position, ∃ raw, e.topic[i]? = some raw ∧ Indexed e raw

/-- The message of the event is in the topic. -/
def Delivered (e : Outside) (x : EventRow) : Prop :=
  ∃ event raw, rowEvent x.payload = .ok event ∧ wire event = .ok raw ∧ raw ∈ e.topic

structure Synced (d : Tables) (e : Outside) : Prop where
  topic : ∀ raw ∈ e.topic, Carries d raw
  publishing : ∀ raw ∈ e.publishing, Carries d raw
  docs : ∀ id doc, e.elastic.docs id = some doc → Documents d (id, doc)
  writes : ∀ w ∈ e.writes, Documents d w
  committed : Passed e e.committed
  commits : ∀ position ∈ e.commits, Passed e position
  sent : ∀ x ∈ d.outbox.rows, x.sent = true → Delivered e x

/-- Messages stay, and versions do not go back. -/
structure Ahead (e e' : Outside) : Prop where
  topic : e.topic <+: e'.topic
  docs : ∀ id doc, e.elastic.docs id = some doc → ∃ doc', e'.elastic.docs id = some doc' ∧
    doc.1 ≤ doc'.1

/-- The same topic and documents are no further behind. -/
lemma Ahead.same (topic : e'.topic = e.topic) (elastic : e'.elastic = e.elastic) : Ahead e e' :=
  ⟨topic ▸ List.prefix_rfl, fun _ doc there => ⟨doc, elastic ▸ there, le_rfl⟩⟩

/-- An outside is no further than itself. -/
lemma Ahead.refl (e : Outside) : Ahead e e := .same rfl rfl

/-- Being ahead composes. -/
lemma Ahead.trans {e'' : Outside} (h : Ahead e e') (h' : Ahead e' e'') : Ahead e e'' := by
  refine ⟨h.topic.trans h'.topic, fun id doc there => ?_⟩
  obtain ⟨doc', there', le⟩ := h.docs id doc there
  obtain ⟨doc'', there'', le'⟩ := h'.docs id doc' there'
  exact ⟨doc'', there'', le.trans le'⟩

/-- A message stays in its place. -/
lemma Ahead.message (ahead : Ahead e e') {i : Nat} (there : e.topic[i]? = some raw) :
    e'.topic[i]? = some raw := by
  obtain ⟨rest, same⟩ := ahead.topic
  rw [← same, List.getElem?_append_left (List.getElem?_eq_some_iff.1 there).1]
  exact there

/-- What is indexed stays indexed. -/
lemma Indexed.ahead (h : Indexed e raw) (ahead : Ahead e e') : Indexed e' raw := by
  obtain ⟨o, ms, doc, read, perm, there, le⟩ := h
  obtain ⟨doc', there', le'⟩ := ahead.docs _ _ there
  exact ⟨o, ms, doc', read, perm, there', le.trans le'⟩

/-- What is passed stays passed. -/
lemma Passed.ahead {position : Nat} (h : Passed e position) (ahead : Ahead e e') :
    Passed e' position := by
  intro i lt
  obtain ⟨raw, there, indexed⟩ := h i lt
  exact ⟨raw, ahead.message there, indexed.ahead ahead⟩

/-- What is delivered stays delivered. -/
lemma Delivered.ahead (h : Delivered e x) (ahead : Ahead e e') : Delivered e' x := by
  obtain ⟨event, raw, read, sent, m⟩ := h
  exact ⟨event, raw, read, sent, ahead.topic.subset m⟩

/-- A delivered event that stays is still delivered. -/
lemma Delivered.stays {x' : EventRow} (h : Delivered e x) (stays : Stays x x') :
    Delivered e x' := by
  obtain ⟨event, raw, read, sent, m⟩ := h
  exact ⟨event, raw, stays.2.2 ▸ read, sent, m⟩

/-- The empty outside is in step with the empty tables. -/
lemma synced_empty : Synced .empty .empty where
  topic := List.forall_mem_nil _
  publishing := List.forall_mem_nil _
  docs id doc there := by cases there
  writes := List.forall_mem_nil _
  committed i lt := absurd lt (Nat.not_lt_zero i)
  commits := List.forall_mem_nil _
  sent := List.forall_mem_nil _

/-! ### Every step keeps it -/

/-- The tables grow, and what is newly sent was delivered. -/
lemma Synced.tables (h : Synced d e) (grows : Grows d d')
    (sent : ∀ x ∈ d'.outbox.rows, x.sent = true → Delivered e x) :
    Synced d' e where
  topic raw m := (h.topic raw m).grows grows
  publishing raw m := (h.publishing raw m).grows grows
  docs id doc there := (h.docs id doc there).grows grows
  writes w m := (h.writes w m).grows grows
  committed := h.committed
  commits := h.commits
  sent := sent

/-- Appending goes ahead. -/
lemma ahead_append (raw : Bytes) : Ahead e (e.append raw) :=
  ⟨List.prefix_append _ _, fun _ doc h => ⟨doc, h, le_rfl⟩⟩

/-- Appending what the tables carry keeps the step. -/
lemma Synced.append (h : Synced d e) (carries : Carries d raw) : Synced d (e.append raw) where
  topic raw' m := by
    rcases List.mem_append.1 m with m | m
    · exact h.topic raw' m
    · exact List.mem_singleton.1 m ▸ carries
  publishing := h.publishing
  docs := h.docs
  writes := h.writes
  committed := h.committed.ahead (ahead_append raw)
  commits position m := (h.commits position m).ahead (ahead_append raw)
  sent x m sent := (h.sent x m sent).ahead (ahead_append raw)

/-- A message is on its way. -/
lemma Synced.publishes (h : Synced d e) (carries : Carries d raw) :
    Synced d { e with publishing := raw :: e.publishing } where
  topic := h.topic
  publishing raw' m := by
    rcases List.mem_cons.1 m with rfl | m
    · exact carries
    · exact h.publishing raw' m
  docs := h.docs
  writes := h.writes
  committed := h.committed
  commits := h.commits
  sent := h.sent

/-- An offset is committed. -/
lemma Synced.commit {position : Nat} (h : Synced d e) (passed : Passed e position) :
    Synced d { e with committed := position } where
  topic := h.topic
  publishing := h.publishing
  docs := h.docs
  writes := h.writes
  committed := passed
  commits := h.commits
  sent := h.sent

/-- An offset is on its way. -/
lemma Synced.commits_later {position : Nat} (h : Synced d e) (passed : Passed e position) :
    Synced d { e with commits := position :: e.commits } where
  topic := h.topic
  publishing := h.publishing
  docs := h.docs
  writes := h.writes
  committed := h.committed
  commits n m := by
    rcases List.mem_cons.1 m with rfl | m
    · exact passed
    · exact h.commits n m
  sent := h.sent

variable {K : Cluster} {w : Str × Int × Value}

/-- A write to the index is on its way. -/
lemma Synced.requests (h : Synced d e) (document : Documents d w) :
    Synced d { e with writes := w :: e.writes } where
  topic := h.topic
  publishing := h.publishing
  docs := h.docs
  writes w' m := by
    rcases List.mem_cons.1 m with rfl | m
    · exact document
    · exact h.writes w' m
  committed := h.committed
  commits := h.commits
  sent := h.sent

/-- A write to the index takes effect behind the fence, or not at all. -/
lemma write_docs (e : Outside) (w : Str × Int × Value) :
    (e.write K w).elastic.docs = e.elastic.docs ∧ (e.reply K w).1 ≠ .written ∨
      (e.write K w).elastic.docs = Fence.write e.elastic.docs ⟨w.1, w.2.1, w.2.2⟩ ∧
        (e.reply K w).1 = .written ∧ Fence.fresh e.elastic.docs w.1 w.2.1 = true := by
  simp only [Outside.write, Outside.reply, Search.put]
  split
  · exact .inl ⟨rfl, by simp⟩
  · split
    · exact .inr ⟨rfl, rfl, ‹_›⟩
    · exact .inl ⟨rfl, by simp⟩

/-- Writing goes ahead. -/
lemma ahead_write (e : Outside) (w : Str × Int × Value) : Ahead e (e.write K w) := by
  refine ⟨List.prefix_rfl, fun id doc there => ?_⟩
  rcases write_docs (K := K) e w with ⟨same, _⟩ | ⟨written, _⟩
  · rw [same]
    exact ⟨doc, there, le_rfl⟩
  · rw [written]
    obtain ⟨doc', there', newer⟩ := Fence.write_mono ⟨w.1, w.2.1, w.2.2⟩ there
    exact ⟨doc', there', newer.elim (fun same => same ▸ le_rfl) le_of_lt⟩

/-- Writing what the tables show keeps the step. -/
lemma Synced.write (h : Synced d e) (document : Documents d w) : Synced d (e.write K w) where
  topic := h.topic
  publishing := h.publishing
  docs id doc there := by
    rcases write_docs (K := K) e w with ⟨same, _⟩ | ⟨written, _, fresh⟩
    · rw [same] at there
      exact h.docs id doc there
    · rw [written] at there
      by_cases own : id = w.1
      · rw [Fence.write_fresh fresh, own, Function.update_self] at there
        cases there
        subst own
        exact document
      · rw [Fence.write_other own] at there
        exact h.docs id doc there
  writes := h.writes
  committed := h.committed.ahead (ahead_write e w)
  commits position m := (h.commits position m).ahead (ahead_write e w)
  sent x m sent := (h.sent x m sent).ahead (ahead_write e w)

variable (K) in
/-- What all programs together maintain. -/
def pipeline : Contract (cluster K) where
  Inv w := Book w.db ∧ Synced w.db w.env
  Guar w w' := ReflTransGen Change w.db w'.db ∧ Ahead w.env w'.env
  refl w := ⟨.refl, .refl _⟩
  trans h h' := ⟨h.1.trans h'.1, h.2.trans h'.2⟩
  runs := by
    rintro q ⟨d, e⟩ ws r d' ks ws' ⟨book, synced⟩ run
    have leaves := eval_leaves q d (ws.foldl Tables.apply d)
    rw [← run] at leaves
    rcases leaves with rfl | rfl
    · exact ⟨⟨book, synced⟩, .refl, .refl _⟩
    · have grows : Grows d { d with nextSeq := d.nextSeq + 1 } := .change .drew
      exact ⟨⟨book.change .drew, synced.tables grows synced.sent⟩, .single .drew, .refl _⟩
  drifts := by
    rintro ⟨d, e⟩ e' ⟨book, synced⟩ drift
    cases drift with
    | publish m => exact ⟨⟨book, synced.append (synced.publishing _ m)⟩, .refl, ahead_append _⟩
    | write m => exact ⟨⟨book, synced.write (synced.writes _ m)⟩, .refl, ahead_write _ _⟩
    | commit m => exact ⟨⟨book, synced.commit (synced.commits _ m)⟩, .refl, .same rfl rfl⟩

/-! ### The programs of the repository -/

/-- Writes that mark nothing as sent. -/
def Quiet (ws : List Write) : Prop :=
  ∀ w ∈ ws, (∀ x, w = .insertEvent x → x.sent = false) ∧ ∀ seq, w ≠ .markSent seq

def quiet : Marks mariadb := ⟨fun ws _ => Quiet ws, fun _ _ => True⟩

def anything : Marks (cluster K) := ⟨fun _ _ => True, fun _ _ => True⟩

omit [Interpreter] in
/-- A row that quiet writes leave as sent was sent before. -/
lemma sent_of_quiet {ws : List Write} (quiet : Quiet ws)
    (m : x ∈ (ws.foldl Tables.apply d).outbox.rows) (sent : x.sent = true) :
    x ∈ d.outbox.rows := by
  induction ws generalizing d with
  | nil => exact m
  | cons w ws ih =>
    have later := ih (fun w' m' => quiet w' (.tail _ m')) m
    obtain ⟨unsent, unmarked⟩ := quiet w List.mem_cons_self
    cases w with
    | insertOrder row => exact later
    | updateOrder id status version => exact later
    | insertEvent x' =>
      have rows : x ∈ (d.outbox.insert x').rows := later
      rw [Table.insert] at rows
      split at rows
      · rcases List.mem_append.1 rows with old | new
        · exact old
        · rw [List.mem_singleton.1 new, unsent x' rfl] at sent
          cases sent
      · exact rows
    | markSent seq => exact absurd rfl (unmarked seq)

/-- An action of the store leaves the outside alone. -/
lemma acts_among {w : World (cluster K)} {a : DbLab.Mvp.Action} {out : Outcome (among.action a)}
    {e' : Outside}
    (acted : acts K (among.action a) w.env out e') :
    mariadb.acts a () (among.outcome a out) () ∧ e' = w.env := by
  cases a with
  | uuid4 => exact acted
  | now => exact acted

/-- Programs whose writes are quiet keep what all maintain. -/
lemma contains_quiet (v : World (cluster K)) :
    Contains among (fun _ => ()) shop (pipeline K) quiet anything v where
  inv h := h.1
  guar h := h.1
  acts inv acted := by
    obtain ⟨allowed, same⟩ := acts_among acted
    subst same
    exact ⟨allowed, inv, (pipeline K).refl _⟩
  commits := by
    rintro w ws ⟨book, synced⟩ _ commits
    have grows : Grows w.db (ws.foldl Tables.apply w.db) := .changes commits.guar
    have sent : ∀ x ∈ (ws.foldl Tables.apply w.db).outbox.rows, x.sent = true → Delivered w.env x :=
      fun x m marked =>
      synced.sent x (sent_of_quiet commits.before m marked) marked
    exact ⟨⟨commits.inv, synced.tables grows sent⟩, ⟨commits.guar, .refl _⟩, trivial, trivial⟩

def marking (seq : Int) : Marks mariadb :=
  ⟨fun ws _ => ws = [] ∨ ws = [.markSent seq], fun _ _ => True⟩

/-- An event that was delivered may be marked as sent. -/
lemma contains_marking {v : World (cluster K)} {x : EventRow} (m : x ∈ v.db.outbox.rows)
    (delivered : Delivered v.env x) :
    Contains among (fun _ => ()) shop (pipeline K) (marking x.seq) anything v where
  inv h := h.1
  guar h := h.1
  acts inv acted := by
    obtain ⟨allowed, same⟩ := acts_among acted
    subst same
    exact ⟨allowed, inv, (pipeline K).refl _⟩
  commits := by
    rintro w ws ⟨book, synced⟩ ⟨changes, ahead⟩ commits
    have grows : Grows w.db (ws.foldl Tables.apply w.db) := .changes commits.guar
    obtain ⟨x', m', stays⟩ := (Grows.changes changes).events x m
    have sent : ∀ y ∈ (ws.foldl Tables.apply w.db).outbox.rows, y.sent = true →
        Delivered w.env y := by
      intro y my marked
      rcases commits.before with rfl | rfl
      · exact synced.sent y my marked
      · obtain ⟨y₀, m₀, rfl⟩ := List.mem_map.1 my
        by_cases own : y₀.seq = x.seq
        · -- the number is that of the event
          have one : y₀ = x' := w.db.outbox.one_row m₀ m' (own.trans stays.1.symm)
          rw [if_pos own, one]
          exact ((delivered.ahead ahead).stays stays).stays ⟨rfl, rfl, rfl⟩
        · rw [if_neg own] at marked ⊢
          exact synced.sent y₀ m₀ marked
    exact ⟨⟨commits.inv, synced.tables grows sent⟩, ⟨commits.guar, .refl _⟩, trivial, trivial⟩

variable {v : World (cluster K)} {done : List (List Write)} {l : Local (cluster K)}

/-- A program of the repository that was verified alone. -/
lemma repo_wp {α : Type} {M : Marks mariadb} {Q : α → Local mariadb → Prop}
    {E : Raised → Local mariadb → Prop} {p : Repo α}
    (contains : Contains among (fun _ => ()) shop (pipeline K) M anything l.view)
    (h : (pipeline K).At .closed v done l)
    (alone : ∀ l', shop.At .closed (l.view.inner fun _ => ()) done l' → shop.wpc M Q E p l') :
    (pipeline K).wpc anything (fun a l' => (pipeline K).Inv l'.view ∧
      (pipeline K).Guar l.view l'.view ∧ Q a (l'.inner fun _ => ()))
      (fun _ _ => True) (repo p) l := by
  have start : shop.At .closed (l.view.inner fun _ => ()) done (l.inner fun _ => ()) := by
    refine ⟨?_, h.inv.1, .refl, h.done⟩
    show l.mode.inner = .closed
    rw [h.mode]
    rfl
  refine wpc_wrap ((pipeline K).wpc_mono
    (contains.wpc p h.inv ((pipeline K).refl _) (alone _ start)) ?_ ?_)
  · exact fun a l' ends => ends
  · exact fun e l' _ => trivial

/-- A closed store is a closed cluster. -/
lemma inner_closed {m : Mode (cluster K)} (h : m.inner = .closed) : m = .closed := by
  cases m with
  | closed => rfl
  | live held ws => cases h
  | failed => cases h

omit [Interpreter] in
/-- A call that promises nothing may open an order. -/
lemma opening_quiet {draft : Draft} {key : Str} : Opening quiet draft key where
  nothing w := ⟨List.forall_mem_nil _, trivial⟩
  opened w row e unsent free taken own new kept := by
    refine ⟨fun w m => ?_, trivial⟩
    simp only [opening, List.mem_cons, List.not_mem_nil, or_false] at m
    rcases m with rfl | rfl
    · exact ⟨by simp, by simp⟩
    · exact ⟨by rintro _ ⟨⟩; exact unsent, by simp⟩

/-- A call that promises nothing may move an order. -/
lemma moving_quiet {id : Str} {data : Value} : Moving quiet id data := by
  intro w row o e unsent there step stored
  refine ⟨fun w m => ?_, trivial⟩
  simp only [updating, List.mem_cons, List.not_mem_nil, or_false] at m
  rcases m with rfl | rfl
  · exact ⟨by simp, by simp⟩
  · exact ⟨by rintro _ ⟨⟩; exact unsent, by simp⟩

/-! ### The relay and the consumer -/

variable {Q : Unit → Local (cluster K) → Prop}

/-- What the programs of the pipeline raise is of no consequence. -/
abbrev Anyway : Thrown → Local (cluster K) → Prop := fun _ _ => True

/-- A plain computation leaves the session as it is. -/
lemma lift_wp {α : Type} {Q : α → Local (cluster K) → Prop} {r : Except Thrown α}
    (ok : ∀ a, r = .ok a → Q a l) :
    (pipeline K).wpc anything Q Anyway (lift r) l := by
  cases r with
  | ok a => exact ok a rfl
  | error e => trivial

/-- An action outside a transaction, from what each of its effects keeps. -/
lemma act_wp {a : Action} {Q : Outcome a → Local (cluster K) → Prop}
    (h : (pipeline K).At .closed v done l)
    (keeps : ∀ w, (pipeline K).Sees [] v w → ∀ out e', acts K a w.env out e' →
      Synced w.db e' ∧ Ahead w.env e')
    (ok : ∀ w, (pipeline K).Sees [] v w → ∀ out e', acts K a w.env out e' →
      ∀ l', l'.view = { w with env := e' } → (pipeline K).At .closed v done l' → Q out l') :
    (pipeline K).wpc anything Q Anyway (act a) l := by
  refine h.act (fun w sees out e' acted => ?_) fun w sees out e' acted l' view at' =>
    ok w sees out e' acted l' view at'
  obtain ⟨synced, ahead⟩ := keeps w sees out e' acted
  exact ⟨⟨sees.inv.1, synced⟩, .refl, ahead⟩

/-- A publication that succeeds has delivered its event. -/
lemma publish_wp {event : Value} (h : (pipeline K).At .closed v done l) (m : x ∈ v.db.outbox.rows)
    (read : rowEvent x.payload = .ok event)
    (ok : ∀ l', (pipeline K).At .closed v done l' → Delivered l'.view.env x → Q () l') :
    (pipeline K).wpc anything Q Anyway (publish event) l := by
  unfold publish
  rw [(pipeline K).wpc_bind]
  refine lift_wp fun key _ => ?_
  rw [(pipeline K).wpc_bind]
  refine lift_wp fun raw sent => ?_
  rw [mapError_ok] at sent
  rw [(pipeline K).wpc_bind]
  refine act_wp h (fun w sees out e' acted => ?_) fun w sees out e' acted l' view at' => ?_
  · obtain ⟨x', m', stays⟩ := (Grows.changes sees.guar.1).events x m
    obtain ⟨o, ms, recorded, _, order, perm⟩ :=
      carries_event sees.inv.1.booked m' (stays.2.2 ▸ read) sent
    have carries : Carries w.db raw := ⟨o, ms, recorded, order, perm⟩
    have synced : Synced w.db w.env := sees.inv.2
    rcases acted with rfl | ⟨_, rfl | rfl⟩
    · exact ⟨synced.append carries, ahead_append raw⟩
    · exact ⟨synced, .refl _⟩
    · exact ⟨synced.publishes carries, .same rfl rfl⟩
  · split
    · rename_i acknowledged
      rcases acted with rfl | ⟨lost, _⟩
      · refine ok l' at' ⟨event, raw, read, sent, ?_⟩
        rw [view]
        exact List.mem_append_right _ (List.mem_singleton_self _)
      · cases acknowledged.symm.trans lost
    · trivial

/-- `relay_once` -/
lemma relay_wp (h : (pipeline K).At .closed v done l) :
    (pipeline K).wpc anything (fun _ _ => True) Anyway relayOnce l := by
  unfold relayOnce
  rw [(pipeline K).wpc_bind]
  refine (pipeline K).wpc_mono (repo_wp (contains_quiet l.view) h fun l' start =>
    pendingOne_wp (fun w => ⟨List.forall_mem_nil _, trivial⟩) start) ?_ fun _ _ _ => trivial
  rintro row l₁ ⟨inv, guar, at₁, reads⟩
  split
  · trivial
  · rename_i seq event
    obtain ⟨x, m, rfl, read⟩ := reads seq event rfl
    have here : (pipeline K).At .closed l₁.view l₁.done l₁ :=
      ⟨inner_closed at₁.mode, inv, (pipeline K).refl _, rfl⟩
    -- the event may be marked, since it was delivered before; another relay may have marked it
    -- meanwhile
    rw [(pipeline K).wpc_bind]
    refine publish_wp here m read fun l₂ at₂ delivered => ?_
    rw [(pipeline K).wpc_bind]
    obtain ⟨x', m', stays⟩ := (Grows.changes at₂.guar.1).events x m
    have contains := contains_marking m' (delivered.stays stays)
    rw [stays.1] at contains
    refine (pipeline K).wpc_mono (repo_wp contains at₂ fun l' start =>
      sent_wp (fun ws w writes => ⟨writes, trivial⟩) start) ?_
      fun _ _ _ => trivial
    exact fun _ _ _ => trivial

/-- A comparison that does not raise found the version or a newer one. -/
lemma compareStored_ok {order : Value} {id : Str} {version : Int} {doc : Int × Value}
    {outcome : String}
    (h : Search.compareStored order id version doc.2 doc.1 = .ok outcome) : version ≤ doc.1 := by
  unfold Search.compareStored at h
  split at h
  · split at h
    · cases h
    · split at h
      · omega
      · split at h
        · omega
        · cases h
  · cases h

/-- An index call that succeeds has indexed its order. -/
lemma index_wp {o : Order} {ms : Fields} (h : (pipeline K).At .closed v done l)
    (recorded : Recorded v.db o)
    (perm : ms.Perm o.members) {Q : String → Local (cluster K) → Prop}
    (ok : ∀ outcome l' doc, (pipeline K).At .closed v done l' →
      l'.view.env.elastic.docs o.id = some doc → o.version ≤ doc.1 →
        Q outcome l') : (pipeline K).wpc anything Q Anyway (index (.dict ms)) l := by
  have valid : ValidFields ms o := by
    obtain ⟨past, history, m⟩ := recorded.made
    exact (history.valid o m).fields perm
  have program : index (.dict ms) = indexAs (.dict ms) o.id o.version := by
    simp only [index, Value.item, valid.id, valid.version]
  rw [program, indexAs, (pipeline K).wpc_bind]
  refine act_wp h (fun w sees out e' acted => ?_) fun w sees out e' acted l₁ view at₁ => ?_
  · have document : Documents w.db (o.id, o.version, .dict ms) :=
      ⟨o, ms, recorded.grows (.changes sees.guar.1), rfl, perm⟩
    have synced : Synced w.db w.env := sees.inv.2
    rcases acted with ⟨rfl, _⟩ | ⟨_, rfl | rfl⟩
    · exact ⟨synced.write document, ahead_write _ _⟩
    · exact ⟨synced, .refl _⟩
    · exact ⟨synced.requests document, .same rfl rfl⟩
  · obtain _ | reply := out
    · trivial
    cases reply with
    | failed status errorType => trivial
    | written =>
      rcases acted with ⟨rfl, replied⟩ | ⟨raised, _⟩
      · -- the document is there
        have reply := replied .written rfl
        rcases write_docs (K := K) w.env (o.id, o.version, .dict ms) with ⟨_,
          other⟩ | ⟨written, _, fresh⟩
        · exact absurd reply.symm other
        · refine ok _ l₁ (o.version, .dict ms) at₁ ?_ le_rfl
          rw [view]
          show (w.env.write K (o.id, o.version, .dict ms)).elastic.docs o.id = _
          rw [written, Fence.write_fresh fresh, Function.update_self]
      · cases raised
    | conflict =>
      -- nothing was written now, and what is read may be newer still
      rw [(pipeline K).wpc_bind]
      refine act_wp at₁ (fun w sees out e' acted => ?_) fun w sees out e' acted l₂ view at₂ => ?_
      · obtain ⟨rfl, _⟩ := acted
        exact ⟨sees.inv.2, .refl _⟩
      · obtain ⟨rfl, stored⟩ := acted
        obtain _ | _ | doc := out
        · trivial
        · trivial
        · refine lift_wp fun outcome compared => ?_
          refine ok outcome l₂ doc at₂ ?_ (compareStored_ok compared)
          rw [view]
          exact (stored _ rfl).symm

/-- An acknowledgement of what is passed. -/
lemma acknowledge_wp {position : Nat} (h : (pipeline K).At .closed v done l)
    (passed : Passed v.env (position + 1))
    (ok : ∀ l', (pipeline K).At .closed v done l' → Q () l') :
    (pipeline K).wpc anything Q Anyway (acknowledge K position) l := by
  unfold acknowledge
  rw [(pipeline K).wpc_bind]
  refine act_wp h (fun w sees out e' acted => ?_) fun w sees out e' acted l₁ view at₁ => ?_
  · have here := passed.ahead sees.guar.2
    have synced : Synced w.db w.env := sees.inv.2
    -- whatever is returned, the offset may be committed, now or later
    rcases acted with rfl | rfl | rfl
    · exact ⟨synced, .refl _⟩
    · exact ⟨synced.commit here, .same rfl rfl⟩
    · exact ⟨synced.commits_later here, .same rfl rfl⟩
  · cases out with
    | none => trivial
    | some results =>
      show (pipeline K).wpc anything Q Anyway (if confirmed K position results then pure ()
        else throw .other) l₁
      split
      · exact ok l₁ at₁
      · trivial

/-- `consume_loop` from a position that the index has passed. -/
lemma consume_wp (polls position : Nat) (h : (pipeline K).At .closed v done l)
    (passed : Passed v.env position) :
    (pipeline K).wpc anything (fun _ _ => True) Anyway (consume K polls position) l := by
  induction polls generalizing position v l with
  | zero => trivial
  | succ polls ih =>
    rw [consume, (pipeline K).wpc_bind]
    refine act_wp h (fun w sees out e' acted => ?_) fun w sees out e' acted l₁ view at₁ => ?_
    · obtain ⟨rfl, _⟩ := acted
      exact ⟨sees.inv.2, .refl _⟩
    · obtain ⟨rfl, polled⟩ := acted
      have synced : Synced w.db w.env := sees.inv.2
      cases out with
      | nothing => exact ih position at₁ passed
      | error => trivial
      | message raw =>
        have there := polled raw rfl
        obtain ⟨o, ms, recorded, read, perm⟩ := synced.topic raw (List.mem_of_getElem? there)
        have decoded : (messageOrder raw).mapError Thrown.raised = .ok (.dict ms) := by
          rw [read]; rfl
        have here : (pipeline K).At .closed l₁.view done l₁ := at₁.rebase
        have recorded' : Recorded l₁.view.db o := by rw [view]; exact recorded
        rw [(pipeline K).wpc_bind, projectOne, decoded, (pipeline K).wpc_bind]
        refine lift_wp ?_
        rintro _ ⟨⟩
        rw [(pipeline K).wpc_bind]
        refine index_wp here recorded' perm fun outcome l₂ doc at₂ stored le => ?_
        -- the message is behind the position now
        have next : Passed l₂.view.env (position + 1) := by
          have ahead : Ahead w.env l₂.view.env := by
            have guar := at₂.guar.2
            rw [view] at guar
            exact guar
          intro i lt
          rcases Nat.lt_succ_iff_lt_or_eq.1 lt with lt | rfl
          · exact (passed.ahead (sees.guar.2.trans ahead)) i lt
          · exact ⟨raw, ahead.message there, o, ms, doc, read, perm, stored, le⟩
        refine acknowledge_wp at₂.rebase next fun l₃ at₃ => ?_
        exact ih (position + 1) at₃ next

/-- `consume_loop` from the committed offset. -/
lemma session_wp (polls : Nat) (h : (pipeline K).At .closed v done l) :
    (pipeline K).wpc anything (fun _ _ => True) Anyway (session K polls) l := by
  unfold session
  rw [(pipeline K).wpc_bind]
  refine act_wp h (fun w sees out e' acted => ?_) fun w sees out e' acted l₁ view at₁ => ?_
  · obtain ⟨rfl, _⟩ := acted
    exact ⟨sees.inv.2, .refl _⟩
  · obtain ⟨rfl, start⟩ := acted
    cases out with
    | none => trivial
    | some position =>
      have passed : Passed l₁.view.env position := by
        rw [view, start position rfl]
        exact Synced.committed sees.inv.2
      exact consume_wp polls position at₁.rebase passed

/-- Forgetting the result of a program. -/
lemma ignore_wp {α : Type} {p : Job α}
    (h : (pipeline K).wpc anything (fun _ _ => True) Anyway p l) :
    (pipeline K).wpc anything (fun _ _ => True) Anyway ((fun _ => ()) <$> p) l := by
  rw [map_eq_pure_bind, (pipeline K).wpc_bind]
  exact h

/-- Every call keeps the pipeline in step. -/
theorem verified : Verified (pipeline K) (Call.code K) (fun _ _ => anything) fun _ _ _ _ _ =>
  True where
  code := by
    intro c b inv
    have start : (pipeline K).At .closed b [] ⟨.closed, b, []⟩ :=
      ⟨rfl, inv, (pipeline K).refl _, rfl⟩
    have whole : (pipeline K).wpc anything (fun _ _ => True) Anyway (c.run K) ⟨.closed, b, []⟩ := by
      cases c with
      | create data key =>
        refine ignore_wp ((pipeline K).wpc_mono (repo_wp (contains_quiet b) start fun l' h =>
          placing_wp (fun draft k _ _ => opening_quiet) h) (fun _ _ _ =>
            trivial) fun _ _ _ => trivial)
      | update orderId data =>
        refine ignore_wp ((pipeline K).wpc_mono
          (repo_wp (Q := fun _ _ => True) (E := fun _ _ => True) (contains_quiet b) start
          fun l' h => ?_) (fun _ _ _ => trivial) fun _ _ _ => trivial)
        unfold Storefront.update
        rw [shop.wpc_bind]
        refine Shop.lift_wp (fun id named => ?_) fun e _ => trivial
        exact shop.wpc_mono (update_wp moving_quiet h) (fun _ _ _ => trivial) fun _ _ _ => trivial
      | relay => exact ignore_wp (relay_wp start)
      | consume polls => exact session_wp polls start
    refine (pipeline K).wp_mono whole ?_
    rintro (e | a) l _
    · trivial
    · trivial
  stable := fun _ _ _ => trivial

variable {s s' : System K}

/-- Every reachable state is sound. -/
theorem reachable_sound (h : Reachable (Call.code K) (initial K) s) :
    Sound (pipeline K) (fun _ _ => anything) (fun _ _ _ _ _ => True) s :=
  have inv : (pipeline K).Inv (initial K) := ⟨.refl, synced_empty⟩
  sound verified inv h

/-! ### What holds in every state -/

/-- The index follows the orders. -/
structure Projected (d : Tables) (e : Outside) : Prop where
  /-- A document is a version that an order of the database has or had. -/
  documents : ∀ id version doc, e.elastic.docs id = some (version, doc) →
    ∃ r ∈ d.orders.rows, ∃ h o ms, History h ∧ h.getLast? = some r.toOrder ∧ o ∈ h ∧ o.id = id ∧
      o.version = version ∧ doc = .dict ms ∧ ms.Perm o.members
  /-- What is in front of the committed offset is indexed, in that version or a newer one. -/
  passed : Passed e e.committed
  /-- What is marked as sent is in the topic. -/
  sent : ∀ x ∈ d.outbox.rows, x.sent = true → Delivered e x
  /-- When nothing is left to do, every order is indexed as it is. -/
  settled : (∀ x ∈ d.outbox.rows, x.sent = true) → e.committed = e.topic.length →
    ∀ r ∈ d.orders.rows, ∃ ms, e.elastic.docs r.id = some (r.version, .dict ms) ∧
      ms.Perm r.toOrder.members

omit [Interpreter] in
/-- Each member on the right has one on the left. -/
lemma forall₂_mem {A B : Type} {R : A → B → Prop} {as : List A} {bs : List B} (h : as.Forall₂ R bs)
    {b : B} (m : b ∈ bs) :
    ∃ a ∈ as, R a b := by
  induction h with
  | nil => cases m
  | cons head _ ih =>
    rcases List.mem_cons.1 m with rfl | m
    · exact ⟨_, List.mem_cons_self, head⟩
    · obtain ⟨a, ma, related⟩ := ih m
      exact ⟨a, .tail _ ma, related⟩

/-- The document of an order is at most as new as the order. -/
lemma Synced.newest (h : Synced d e) (booked : Booked d) {r : OrderRow} (m : r ∈ d.orders.rows)
    {doc : Int × Value}
    (there : e.elastic.docs r.id = some doc) (le : r.version ≤ doc.1) :
    ∃ ms, e.elastic.docs r.id = some (r.version, .dict ms) ∧ ms.Perm r.toOrder.members := by
  obtain ⟨o, ms, recorded, same, perm⟩ := h.docs r.id doc there
  -- the document is a version of an order with this id, which is this order
  obtain ⟨r', m', past, history, last, mo⟩ := recorded.version booked
  have key : r.id = o.id := congrArg Prod.fst same
  have value : doc = (o.version, .dict ms) := congrArg Prod.snd same
  have lastMem := List.mem_of_getLast? last
  have own : r'.id = r.id := by
    obtain ⟨id, all⟩ := history.one
    exact (all _ lastMem).trans ((all _ mo).symm.trans key.symm)
  have one : r' = r := d.orders.one_row m' m own
  subst one
  -- no version is newer than the last
  obtain ⟨i, place⟩ := List.mem_iff_getElem?.1 mo
  have bound := (List.getElem?_eq_some_iff.1 place).1
  have number := history.version i o place
  have count := history_length history last
  have count' : (past.length : Int) = r'.version := count
  have version : o.version = r'.version := by
    rw [value] at le
    have le : r'.version ≤ o.version := le
    omega
  have last' : o = r'.toOrder := history.unique mo lastMem version
  subst last'
  exact ⟨ms, value ▸ there, perm⟩

/-- What is in step is projected. -/
lemma Synced.projected (h : Synced d e) (book : Book d) : Projected d e := by
  have booked := book.booked
  refine ⟨fun id version doc there => ?_, h.committed, h.sent, fun all last r m => ?_⟩
  · obtain ⟨o, ms, recorded, same, perm⟩ := h.docs id (version, doc) there
    simp only [Prod.mk.injEq] at same
    obtain ⟨own, at_, rfl⟩ := same
    obtain ⟨r, mr, past, history, latest, mo⟩ := recorded.version booked
    exact ⟨r, mr, past, o, ms, history, latest, mo, own.symm, at_.symm, rfl, perm⟩
  · -- the last event of the order was sent, and its message is in front of the offset
    obtain ⟨past, history, latest, announce⟩ := booked.versions r m
    have mo := List.mem_of_getLast? latest
    obtain ⟨x, mx, announces⟩ := forall₂_mem announce mo
    have mx := (mem_about.1 mx).1
    obtain ⟨event, raw, read, sent, there⟩ := h.sent x mx (all x mx)
    obtain ⟨o, ms, ⟨⟨past', history', m'⟩, _⟩, announces', order, perm⟩ :=
      carries_event booked mx read sent
    cases announces_unique history mo history' m' announces announces'
    obtain ⟨i, place⟩ := List.mem_iff_getElem?.1 there
    obtain ⟨raw', place', o, ms', doc, order', perm', stored, le⟩ :=
      h.committed i (last ▸ (List.getElem?_eq_some_iff.1 place).1)
    cases place.symm.trans place'
    cases order.symm.trans order'
    cases Message.order_of_members (perm.symm.trans perm')
    exact h.newest booked m stored le

/-- In every state of every run the index follows the orders, and on the way to any later state no
document goes back to an older version. -/
theorem projection_sound (reach : Reachable (Call.code K) (initial K) s) :
    Projected s.world.db s.world.env ∧ ∀ s', ReflTransGen (Step (Call.code K)) s s' →
      ∀ id doc, s.world.env.elastic.docs id = some doc →
        ∃ doc', s'.world.env.elastic.docs id = some doc' ∧ doc.1 ≤ doc'.1 := by
  have h := reachable_sound reach
  obtain ⟨book, synced⟩ := h.inv
  refine ⟨synced.projected book, fun s' steps id doc there => ?_⟩
  exact (h.run verified steps).2.2.docs id doc there

end

/-! ### A consumer alone -/

section
variable [Interpreter] {K : Cluster}

/-- Everything is acknowledged and takes effect at once. -/
def direct (K : Cluster) : Oracle (cluster K) Nat where
  eval q d ws := Shop.eval d (ws.foldl Tables.apply d) q
  act
    | .uuid4, e, n => (drawn n, e, n + 1)
    | .now, e, n => (mug.createdAt, e, n)
    | .publish value, e, n => (true, e.append value, n)
    | .subscribe, e, n => (some e.committed, e, n)
    | .poll position, e, n => (e.topic[position]?.elim .nothing .message, e, n)
    | .put id version order, e, n =>
      (some (e.reply K (id, version, order)).1, e.write K (id, version, order), n)
    | .get id, e, n => (some (e.elastic.docs id), e, n)
    | .commit position, e, n =>
      (some [⟨false, K.topic, some 0, some (position + 1)⟩],
        { e with committed := position + 1 }, n)
  runs _ _ _ := rfl
  acts
    | .uuid4, _, n => ⟨steady.acts .uuid4 () n, rfl⟩
    | .now, _, _ => ⟨mug_time, rfl⟩
    | .publish _, _, _ => .inl rfl
    | .subscribe, _, _ => ⟨rfl, fun _ same => (Option.some.inj same).symm⟩
    | .poll position, e, _ => ⟨rfl, fun value polled => by
        dsimp only at polled
        cases there : e.topic[position]? with
        | none =>
          rw [there] at polled
          cases polled
        | some raw =>
          rw [there] at polled
          cases polled
          rfl⟩
    | .put _ _ _, _, _ => .inl ⟨rfl, fun _ same => (Option.some.inj same).symm⟩
    | .get _, _, _ => ⟨rfl, fun _ same => (Option.some.inj same).symm⟩
    | .commit _, _, _ => .inr (.inl rfl)

variable {α β : Type} (n : Nat) (w : World (cluster K))

/-- One action of a program that runs alone. -/
lemma solo_act {x : Action} {r : Outcome x} {e' : Outside} {n' : Nat} (f : Outcome x → Job α)
    (next : Except Thrown α → Prog (interface.withActions Action Outcome) β)
    (acts : (direct K).act x w.env n = (r, e', n')) :
    (direct K).solo ((act x >>= f).run >>= next) n none w = (direct K).solo ((f r).run >>=
      next) n' none ⟨w.db, e'⟩ := by
  show (direct K).solo ((f ((direct K).act x w.env n).1).run >>=
    next) ((direct K).act x w.env n).2.2 none
    ⟨w.db, ((direct K).act x w.env n).2.1⟩ = _
  rw [acts]

/-- An index call that runs alone. -/
lemma solo_indexAs (order : Value) (id : Str) (version : Int)
    (next : Except Thrown String → Prog (interface.withActions Action Outcome) β) :
    (direct K).solo ((indexAs order id version).run >>= next) n none w =
      (direct K).solo (next (Search.indexAs K.mapping order id version w.env.elastic).1) n none
        ⟨w.db,
          { w.env with
            elastic := (Search.indexAs K.mapping order id version w.env.elastic).2 }⟩ := by
  obtain ⟨reply, s, put⟩ : ∃ reply s,
    Search.put K.mapping id version order (Search.initializeIndex w.env.elastic) = (reply, s) :=
    ⟨_, _, rfl⟩
  have acts : (direct K).act (.put id version order) w.env n =
      (some reply, { w.env with elastic := s }, n) := by
    simp only [direct, Outside.reply, Outside.write, put]
  rw [indexAs, solo_act n w _ next acts, Search.indexAs, put]
  cases reply with
  | written => rfl
  | failed status errorType => rfl
  | conflict =>
    refine (solo_act n ⟨w.db, { w.env with elastic := s }⟩ _ next rfl).trans ?_
    dsimp only
    cases s.docs id with
    | none => rfl
    | some d =>
      dsimp only
      cases Search.compareStored order id version d.2 d.1 with
      | ok outcome => rfl
      | error e => rfl

/-- Alone, `Search.index` is one step. -/
lemma solo_index (order : Value)
    (next : Except Thrown String → Prog (interface.withActions Action Outcome) β) :
    (direct K).solo ((index order).run >>= next) n none w =
      (direct K).solo (next (Search.index K.mapping order w.env.elastic).1) n none
        ⟨w.db, { w.env with elastic := (Search.index K.mapping order w.env.elastic).2 }⟩ := by
  unfold index Search.index
  generalize order.item "id" = id, order.item "version" = version
  cases id with
  | error e => rfl
  | ok id =>
    cases version with
    | error e => cases id <;> rfl
    | ok version =>
      cases id with
      | str id =>
        cases version with
        | int version => exact solo_indexAs n w order id version next
        | _ => rfl
      | _ => cases version <;> rfl

/-- Alone, the consumer of a message is `project_one`, and the offset is committed when it has not
raised. -/
theorem solo_projectOne (raw : Bytes) (position : Nat) {outcome : Except Thrown String}
    {s : Elastic}
    (projected : Mvp.projectOne K.mapping raw w.env.elastic = (outcome, s)) :
    (direct K).solo (projectOne K raw position).run n none w = some (outcome.map fun _ => (),
      ⟨w.db,
        { w.env with
          elastic := s, committed :=
            if outcome.isOk then position + 1 else w.env.committed }⟩, []) := by
  unfold Mvp.projectOne at projected
  unfold projectOne
  cases read : messageOrder raw with
  | error e =>
    rw [read] at projected
    cases projected
    rfl
  | ok order =>
    rw [read] at projected
    have indexed : Search.index K.mapping order w.env.elastic = (outcome, s) := projected
    have alone :=
      solo_index (K := K) n w order fun r =>
        (do let _ ← (ExceptT.mk (.ret r) : Job String); acknowledge K position).run
    refine alone.trans ?_
    rw [indexed]
    cases outcome with
    | error e => rfl
    | ok outcome =>
      have sure : confirmed K position [⟨false, K.topic, some 0, some (position + 1)⟩] = true := by
        simp [confirmed]
      show (direct K).solo (if confirmed K position
        [⟨false, K.topic, some 0, some (position + 1)⟩] then pure () else throw .other :
        Job Unit).run n none ⟨w.db, { w.env with elastic := s, committed := position + 1 }⟩ = _
      rw [if_pos sure]
      rfl

end

section Mug
attribute [local instance] integral

/-- The index takes every document. -/
def lenient : Cluster := ⟨⟨fun _ => none⟩, str "orders"⟩

/-- The mug is ordered, told of and indexed, and then it is paid. -/
def mugPath : List (Call × Nat) :=
  [(.create mugBody (some (str "key-1")), 0), (.relay, 2), (.consume 2, 2),
    (.update (drawn 0) (.ofFields [("expected_version", .int 1), ("status", .str (str "paid"))]),
      2), (.relay, 3), (.consume 2, 3)]

/-- What the index has in the end, and where the consumer is. -/
def arrived (w : World (cluster lenient)) : Option Int × Nat × Nat :=
  ((w.env.elastic.docs (drawn 0)).map Prod.fst, w.env.topic.length, w.env.committed)

/-- The example: created, paid, relayed and consumed. -/
lemma mug_path : ((direct lenient).turns (Call.code lenient) mugPath (initial lenient)).map
    arrived = some (some 2, 2, 2) := by
  decide +kernel

/-- The example is projected. -/
theorem projection_sound_mug :
    ∃ s : System lenient, Reachable (Call.code lenient) (initial lenient) s ∧
      Projected s.world.db s.world.env ∧ arrived s.world = (some 2, 2, 2) := by
  obtain ⟨w, run, view⟩ := Option.map_eq_some_iff.1 mug_path
  obtain ⟨s, reach, world⟩ :=
    (direct lenient).turns_reachable (t := 0) .init (Config.init_idle _) (fun _ _ => rfl) run
  exact ⟨s, reach, (projection_sound reach).1, world ▸ view⟩

end Mug

end DbLab.Mvp.Pipeline
