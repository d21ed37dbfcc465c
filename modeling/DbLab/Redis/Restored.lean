import DbLab.Redis.Sandbox
import DbLab.Py.Canonical
import DbLab.Py.Float

/-!
# What a fault of the sandbox leaves behind

As long as a recovery is not cut off between the deletion of the key and the last of the settings,
the key or the marker tells what has to be undone, and the originals are in force when a recovery
has returned.
-/

namespace DbLab.Redis.Sandbox
open DbLab.Py DbLab.Proc Relation

section
variable [Interpreter]

/-- The text has these settings. -/
def Saves (orig : Settings) (text : Str) : Prop :=
  ∃ d, d.Perm orig.entries ∧ originalText d = .ok text

/-- Every setting is text that JSON can hold. -/
def Settings.Plain (orig : Settings) : Prop := ∀ e ∈ orig.entries, ∀ c ∈ e.2, Scalar c

variable {orig : Settings}

omit [Interpreter] in
/-- The settings have distinct names. -/
lemma entries_nodup (orig : Settings) : (orig.entries.map Prod.fst).Nodup := by
  have keys : orig.entries.map Prod.fst = ["maxmemory", "maxmemory-policy"].map str := rfl
  rw [keys]
  exact literals_nodup (by decide)

/-- What is saved is read back. -/
lemma Saves.read (plain : orig.Plain) {text : Str} (saves : Saves orig text) :
    ∃ v, loads Hooks.default text = .ok v ∧ v.item "maxmemory" = .ok (.str orig.maxmemory) ∧
      v.item "maxmemory-policy" = .ok (.str orig.policy) := by
  obtain ⟨d, perm, written⟩ := saves
  obtain ⟨n, limit⟩ : ∃ n, Interpreter.recursionLimit = n + 1 :=
    ⟨Interpreter.recursionLimit - 1, by have := Interpreter.recursionLimit_ge; omega⟩
  have members : (d.map fun e => (e.1, Value.str e.2)).Perm
    (orig.entries.map fun e => (e.1, Value.str e.2)) := perm.map _
  have keys : ((d.map fun e => (e.1, Value.str e.2)).map Prod.fst).Nodup := by
    rw [List.map_map]
    exact (perm.map Prod.fst).nodup_iff.2 (entries_nodup orig)
  have legible : Legible Interpreter.recursionLimit
      (.dict (d.map fun e => (e.1, Value.str e.2))) := by
    rw [limit]
    refine .dict keys (fun e m => ?_) fun e m => ?_
    · have known := members.mem_iff.1 m
      simp only [Settings.entries, List.map_cons, List.map_nil, List.mem_cons, List.not_mem_nil,
        or_false] at known
      rcases known with rfl | rfl
      · exact (by decide : ∀ c ∈ str "maxmemory", Scalar c)
      · exact (by decide : ∀ c ∈ str "maxmemory-policy", Scalar c)
    · obtain ⟨e', m', rfl⟩ := List.mem_map.1 m
      exact .str (plain e' (perm.mem_iff.1 m'))
  obtain ⟨t, text', _, read⟩ := legible.loads ⟨true, false, true⟩ Hooks.default_keeps le_rfl
  cases written.symm.trans text'
  rw [legible.reorder_unsorted rfl] at read
  have item : ∀ e ∈ orig.entries, lookup e.1 (d.map fun e => (e.1, Value.str e.2)) =
      some (.str e.2) := by
    intro e m
    rw [lookup_perm members keys]
    refine lookup_of_mem ?_ (List.mem_map.2 ⟨e, m, rfl⟩)
    rw [List.map_map]
    exact entries_nodup orig
  refine ⟨_, read, ?_, ?_⟩
  · rw [Value.item, item (str "maxmemory", orig.maxmemory) (by simp [Settings.entries])]
  · rw [Value.item, item (str "maxmemory-policy", orig.policy) (by simp [Settings.entries])]

/-! ### The invariant -/

variable (orig) in
/-- What holds at any time. -/
structure Core (s : State) : Prop where
  text : ∀ t, s.original = some t → Saves orig t
  settled : s.original = none → s.restoring = false → s.settings = orig
  blocked : s.target.isDirectory = true → s.active = true
  away : s.away = s.saved.toList
  clean : s.active = false → s.saved = none

variable (orig) in
/-- What holds between commands. -/
structure Idle (s : State) : Prop where
  core : Core orig s
  calm : s.restoring = false

variable {s s' : State} {α β : Type}

/-- A save by itself changes the file only. -/
structure Untouched (s s' : State) : Prop where
  settings : s'.settings = s.settings
  original : s'.original = s.original
  saved : s'.saved = s.saved
  active : s'.active = s.active
  away : s'.away = s.away
  restoring : s'.restoring = s.restoring
  open_ : s.target.isDirectory = false → s'.target.isDirectory = false
  closed : s'.target.isDirectory = true → s.target.isDirectory = true

omit [Interpreter] in
/-- Drift touches no settings. -/
lemma Drifts.untouched (h : Drifts s s') : Untouched s s' := by
  cases h with
  | saved dump free => exact ⟨rfl, rfl, rfl, rfl, rfl, rfl, fun _ => rfl, nofun⟩

/-- Drift keeps the core. -/
lemma Core.drift (h : Core orig s) (drift : Drifts s s') : Core orig s' := by
  have u := drift.untouched
  refine ⟨?_, ?_, ?_, ?_, ?_⟩
  · exact fun t text => h.text t (u.original.symm.trans text)
  · intro none calm
    rw [u.settings]
    exact h.settled (u.original.symm.trans none) (u.restoring.symm.trans calm)
  · exact fun directory => u.active.trans (h.blocked (u.closed directory))
  · rw [u.away, u.saved]
    exact h.away
  · exact fun inactive => u.saved.trans (h.clean (u.active.symm.trans inactive))

/-- Drift keeps an idle state. -/
lemma Idle.drift (h : Idle orig s) (drift : Drifts s s') : Idle orig s' :=
  ⟨h.core.drift drift, drift.untouched.restoring.trans h.calm⟩

/-! ### Rules -/

variable (orig) in
/-- A program that keeps the invariant and raises only where it holds as between commands. -/
abbrev wp (Q : α → State → Prop) (p : Method α) : State → Prop :=
  (sandbox False).wp (Core orig) Q (fun _ : Raised => Idle orig) p

/-- One program after the other. -/
lemma bind_wp {Q : β → State → Prop} {p : Method α} {f : α → Method β} {R : α → State → Prop}
    (h : wp orig R p s)
    (next : ∀ a s, R a s → wp orig Q (f a) s) : wp orig Q (p >>= f) s :=
  (World.wp_bind p f).2 (World.wp_mono h next fun _ _ idle => idle)

/-- One call. -/
lemma call_wp {x : Call} {P : State → Prop} {Q : x.Result → State → Prop}
    (stable : ∀ {s s'}, P s → Drifts s s' → P s')
    (core : ∀ {s}, P s → Core orig s)
    (free : ∀ {s}, P s → s.restoring = false ∨ x.sets = true) (h : P s)
    (answers : ∀ s a s', P s → Answers x s a s' → Core orig s' ∧ Q a s') : wp orig Q (ask x) s := by
  refine World.wp_ask fun s₁ drift r s' does => ?_
  have known : P s₁ := drifts_many (W := sandbox False) stable drift h
  cases does with
  | answers reply => exact answers _ _ _ known reply
  | fails _ calm =>
    refine ⟨core known, core known, ?_⟩
    rcases calm with never | calm | other
    · exact never.elim
    · exact calm
    · exact (free known).resolve_right fun sets => Bool.noConfusion (sets.symm.trans other)
  | lost e reply calm =>
    obtain ⟨core, _⟩ := answers _ _ _ known reply
    exact ⟨core, core, calm.resolve_left id⟩

/-- What is known of the state behind its saves. -/
def Kept (φ : State → Prop) : Prop := ∀ s s', Untouched s s' → φ s → φ s'

variable {φ : State → Prop}

/-- A call between the commands that restore. -/
lemma step_wp {x : Call} {Q : x.Result → State → Prop} (kept : Kept φ)
    (idle : Idle orig s) (h : φ s)
    (answers : ∀ s a s', Idle orig s → φ s → Answers x s a s' → Core orig s' ∧ Q a s') :
    wp orig Q (ask x) s :=
  call_wp (P := fun s => Idle orig s ∧
    φ s) (fun h drift => ⟨h.1.drift drift, kept _ _ drift.untouched h.2⟩)
    (fun h => h.1.core) (fun h => .inl h.1.calm) ⟨idle, h⟩ fun s a s' h => answers s a s' h.1 h.2

/-- A call that changes nothing. -/
lemma look_wp {x : Call} {R : x.Result → State → Prop} (kept : Kept φ)
    (idle : Idle orig s) (h : φ s)
    (looks : ∀ s a s', Answers x s a s' → s' = s ∧ R a s) :
    wp orig (fun a s' => Idle orig s' ∧ φ s' ∧ R a s') (ask x) s := by
  refine step_wp kept idle h fun s a s' idle h answers => ?_
  obtain ⟨rfl, known⟩ := looks s a s' answers
  exact ⟨idle.core, idle, h, known⟩

/-- The target is free, and no dump is away. -/
def Cleared (s : State) : Prop := s.target.isDirectory = false ∧ s.saved = none

omit [Interpreter] in
/-- A cleared container stays cleared. -/
lemma kept_cleared : Kept Cleared := fun _ _ u h => ⟨u.open_ h.1, u.saved.trans h.2⟩

/-- What moves dumps and directories keeps the invariant while the marker is there. -/
lemma Idle.moved {target : Target} {saved : Option Nat} {away : List Nat} (idle : Idle orig s)
    (active : s.active = true)
    (same : away = saved.toList) : Idle orig { s with target, saved, away } := by
  obtain ⟨⟨text, settled, blocked, _, clean⟩, calm⟩ := idle
  have clean : s.active = false → saved = none :=
    fun inactive => Bool.noConfusion (inactive.symm.trans active)
  exact ⟨⟨text, settled, fun _ => active, same, clean⟩, calm⟩

/-- A look at the saves. -/
lemma info_wp {f : Str → Bool} (kept : Kept φ) (idle : Idle orig s) (h : φ s) :
    wp orig (fun _ s' => Idle orig s' ∧
      φ s') (do let info ← ask .infoPersistence; pure (f info)) s := by
  refine bind_wp (look_wp (R := fun _ _ => True) kept idle h ?_) fun _ s ⟨idle, h, _⟩ => ⟨idle, h⟩
  intro s a s' answers
  cases answers
  exact ⟨rfl, trivial⟩

variable (orig) in
/-- The key is gone, and the settings are not all restored. -/
structure Window (s : State) : Prop where
  core : Core orig s
  original : s.original = none
  restoring : s.restoring = true
  cleared : Cleared s

variable (orig) in
/-- The originals are in force. -/
structure Restored (s : State) : Prop where
  settings : s.settings = orig
  original : s.original = none
  cleared : Cleared s

/-- Drift keeps the window. -/
lemma Window.drift (h : Window orig s) (drift : Drifts s s') : Window orig s' := by
  have u := drift.untouched
  exact ⟨h.core.drift drift, u.original.trans h.original, u.restoring.trans h.restoring,
    kept_cleared _ _ u h.cleared⟩

variable (orig) in
/-- Whatever differs from the originals can be undone: the key has them, or the marker is there and
the dump is not lost. -/
structure Recoverable (s : State) : Prop where
  memory : s.settings ≠ orig → ∃ t, s.original = some t ∧ Saves orig t
  target : s.target.isDirectory = true → s.active = true
  dumps : s.away = s.saved.toList

variable (orig) in
/-- A sandbox without faults. -/
structure Fresh (s : State) : Prop where
  settings : s.settings = orig
  original : s.original = none
  target : s.target.isDirectory = false
  saved : s.saved = none
  away : s.away = []
  restoring : s.restoring = false

/-- A fresh sandbox is idle. -/
lemma Fresh.idle (h : Fresh orig s) : Idle orig s := by
  have text : ∀ t, s.original = some t → Saves orig t :=
    fun t some => (nomatch h.original.symm.trans some)
  have blocked : s.target.isDirectory = true → s.active = true :=
    fun directory => (nomatch h.target.symm.trans directory)
  have away : s.away = s.saved.toList := by rw [h.away, h.saved, Option.toList_none]
  exact ⟨⟨text, fun _ _ => h.settings, blocked, away, fun _ => h.saved⟩, h.restoring⟩

/-- What is idle can be recovered. -/
lemma Idle.recoverable (h : Idle orig s) : Recoverable orig s where
  memory changed := by
    cases text : s.original with
    | none => exact absurd (h.core.settled text h.calm) changed
    | some t => exact ⟨t, rfl, h.core.text t text⟩
  target := h.core.blocked
  dumps := h.core.away

end

/-! ### A recovery that is cut off -/

/-- Calls return, where they can, but for the second write of a fill, which is rejected. A save
fails while the directory is in its way. -/
def smooth (x : Call) (s : State) : Except Raised x.Result × State :=
  match x with
  | .checkEnv | .inspect | .composeUp | .bgsave => (.ok (), s)
  | .time | .ping => (.ok true, s)
  | .usedMemory => (.ok (0 : Nat), s)
  | .configGet => (.ok s.settings.entries, s)
  | .exists => (.ok s.original.isSome, s)
  | .get => (.ok s.original, s)
  | .set text => (.ok (), { s with original := some text })
  | .configSet k value =>
    (.ok (), { s with settings := s.settings.set k value, restoring := s.restoring && !k.last })
  | .fill i =>
    if i = 0 then (.ok (), { s with fillers := s.fillers ++ [i] }) else (.error (.response true), s)
  | .scan _ => (.ok (0, s.fillers), s)
  | .unlink i => (.ok (), { s with fillers := s.fillers.filter (· ≠ i) })
  | .delete => (.ok (), { s with original := none, restoring := s.original.isSome })
  | .hang => (.error .exit, s)
  | .infoPersistence =>
    (.ok (str (if s.target.isDirectory then "rdb_bgsave_in_progress:0 rdb_last_bgsave_status:err"
      else "rdb_bgsave_in_progress:0 rdb_last_bgsave_status:ok")), s)
  | .cliSet _ _ => (.ok (str (if s.target.isDirectory then "MISCONF" else "OK")), s)
  | .testActive => (.ok s.active, s)
  | .touchActive => (.ok (), { s with active := true })
  | .removeActive => (.ok (), { s with active := false })
  | .testFile => (.ok s.target.isFile, s)
  | .testDirectory => (.ok s.target.isDirectory, s)
  | .testSaved => (.ok s.saved.isSome, s)
  | .moveAway =>
    match s.target with
    | .file d => (.ok (), { s with target := .absent, saved := some d, away := s.away ++ [d] })
    | _ => (.error .exit, s)
  | .moveBack =>
    match s.saved, s.target with
    | none, _ => (.error .exit, s)
    | some d, .directory _ => (.ok (), { s with target := .directory (some d), saved := none })
    | some d, _ => (.ok (), { s with target := .file d, saved := none, away := s.away.erase d })
  | .makeDirectory =>
    match s.target with
    | .absent => (.ok (), { s with target := .directory none })
    | .directory _ => (.ok (), s)
    | .file _ => (.error .exit, s)
  | .removeDirectory =>
    match s.target with
    | .directory none => (.ok (), { s with target := .absent })
    | _ => (.error .exit, s)

/-- The example's container does what one does. -/
lemma smooth_does {hazards : Prop} (x : Call) (s : State) :
    Does hazards x s (smooth x s).1 (smooth x s).2 := by
  cases x with
  | checkEnv => exact .answers (.checkEnv s)
  | inspect => exact .answers (.inspect s)
  | composeUp => exact .answers (.composeUp s)
  | time => exact .answers (.time s true)
  | ping => exact .answers (.ping s true)
  | usedMemory => exact .answers (.usedMemory s 0)
  | configGet => exact .answers (.configGet (.refl _))
  | «exists» => exact .answers (.exists s)
  | get => exact .answers (.get s)
  | set text => exact .answers (.set s text)
  | configSet k value => exact .answers (.configSet s k value)
  | fill i =>
    dsimp only [smooth]
    split
    · exact .answers (.fill s i)
    · exact .fails s _ (.inr (.inr rfl))
  | scan cursor => exact .answers (.scan s cursor 0 s.fillers fun _ m => m)
  | unlink i => exact .answers (.unlink s i)
  | delete => exact .answers (.delete s)
  | hang => exact .fails s _ (.inr (.inr rfl))
  | bgsave => exact .answers (.bgsave s)
  | infoPersistence => exact .answers (.infoPersistence s _)
  | cliSet key value => exact .answers (.cliSet s key value _)
  | testActive => exact .answers (.testActive s)
  | touchActive => exact .answers (.touchActive s)
  | removeActive => exact .answers (.removeActive s)
  | testFile => exact .answers (.testFile s)
  | testDirectory => exact .answers (.testDirectory s)
  | testSaved => exact .answers (.testSaved s)
  | moveAway =>
    dsimp only [smooth]
    split
    · exact .answers (.moveAway ‹_›)
    · exact .fails s _ (.inr (.inr rfl))
  | moveBack =>
    dsimp only [smooth]
    split
    · exact .fails s _ (.inr (.inr rfl))
    · exact .answers (.moveInto ‹_› ‹_›)
    · rename_i d saved free
      refine .answers (.moveBack saved ?_)
      cases target : s.target with
      | directory inner => exact absurd target (free inner)
      | absent | file => rfl
  | makeDirectory =>
    dsimp only [smooth]
    split
    · exact .answers (.makeDirectory ‹_›)
    · exact .answers (.madeDirectory (by simp [*, Target.isDirectory]))
    · exact .fails s _ (.inr (.inr rfl))
  | removeDirectory =>
    dsimp only [smooth]
    split
    · exact .answers (.removeDirectory ‹_›)
    · exact .fails s _ (.inr (.inr rfl))

/-- The call behind the next `n` is interrupted before its effect, unless it is one of the two
`CONFIG SET` of a recovery. -/
def interrupted : Oracle (sandbox False) (Option Nat) where
  answer x s left :=
    match left with
    | none => ((smooth x s).1, (smooth x s).2, none)
    | some 0 =>
      if s.restoring && x.sets then ((smooth x s).1, (smooth x s).2, none)
        else (.error .interrupt, s, none)
    | some (n + 1) => ((smooth x s).1, (smooth x s).2, some n)
  does x s left := by
    cases left with
    | none => exact smooth_does x s
    | some n =>
      cases n with
      | succ n => exact smooth_does x s
      | zero =>
        dsimp only
        split
        · exact smooth_does x s
        · rename_i calm
          exact .fails s _ (.inr (by simpa [imp_iff_not_or] using calm))

/-- The first deletion of the key takes effect, but its answer is lost. -/
def careless : Oracle (sandbox True) Bool where
  answer x s lose :=
    match x with
    | .delete =>
      if lose then (.error .interrupt, (smooth .delete s).2, false)
        else ((smooth .delete s).1, (smooth .delete s).2, false)
    | x => ((smooth x s).1, (smooth x s).2, lose)
  does x s lose := by
    cases x with
    | delete =>
      cases lose with
      | true => exact .lost _ (.delete s) (.inl trivial)
      | false => exact smooth_does .delete s
    | _ => exact smooth_does _ s

/-- The sandbox with its 64 MB. -/
def configured : Settings := ⟨str "67108864", str "noeviction"⟩

def sound : State := ⟨configured, none, [], .file 0, none, false, [], false⟩

section
attribute [local instance] integral

/-- A fault, a recovery that is interrupted when the key is deleted, and another recovery. -/
def cutOff : List (Ended (sandbox True) Command Unit) × State :=
  careless.runAll (code 1) [.oom, .recover, .recover] sound true

/-- Both faults and their recoveries. The first recovery is interrupted when the directory is gone
and the dump is not back. -/
def both : List Command → List (Ended (sandbox False) Command Unit) × State := fun cs =>
  interrupted.runAll (code 1) cs sound (some 18)

end

end DbLab.Redis.Sandbox
