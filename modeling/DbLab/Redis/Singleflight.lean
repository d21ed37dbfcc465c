import DbLab.Py.Scan

/-!
# One call of the origin (`scenarios.cache_stampede`, the singleflight phase)

Workers that have met at the barrier read a key of the cache. Those that find nothing take turns at
a lock: its holder looks again, calls the origin if there is still nothing, fills the cache and
gives back the lock. Commands succeed. The lock and the key are set for a time; the server may let
them expire at any moment, and a step that takes the clock past that time is told apart from others.
-/

namespace DbLab.Redis.Singleflight
open DbLab.Py

/-- `answer` -/
def answer : Bytes := "origin-profile".toUTF8.toList

/-- `f'owner-{index}'` -/
def token (index : Nat) : Str := str "owner-" ++ digitChars index

/-- Tokens are distinct. -/
lemma token_inj {i j : Nat} (h : token i = token j) : i = j := by
  have digits : digitChars i = digitChars j := List.append_cancel_left h
  have value := digitChars_value i
  rw [digits, digitChars_value j] at value
  exact_mod_cast value.symm

/-- What a worker does next. -/
inductive Pc where
  | first
  | starting
  | looping (deadline : Rat)
  | polling (deadline : Rat)
  | locking (deadline : Rat)
  | pausing (deadline until_ : Rat)
  | rechecking
  | calling
  | entering
  | loading (until_ : Rat)
  | filling (value : Bytes)
  | releasing (value : Bytes)
  | testing (value : Bytes)
  | ended (r : Except String Bytes)
deriving DecidableEq

/-- What the workers share: the clock, the two keys of the server, each with the time when it
expires if it is there, and `calls[0]`. -/
structure Shared where
  now : Rat
  cache : Option Bytes
  cacheDue : Rat
  lock : Option Str
  lockDue : Rat
  calls : Nat

/-- In the section of `sem`. -/
def Pc.inside : Pc → Bool
  | loading _ => true
  | _ => false

/-- A move of the worker `index` while `busy` workers are in the section of `sem`. -/
inductive Move (index busy : Nat) (s : Shared) : Pc → Shared → Pc → Prop where
  -- `value = rc.execute('GET', key)`
  | hit {v} (cache : s.cache = some v) : Move index busy s .first s (.testing v)
  | miss (cache : s.cache = none) : Move index busy s .first s .starting
  | start : Move index busy s .starting s (.looping (s.now + 5))
  -- `while time.monotonic() < deadline`
  | goOn {d} (within : s.now < d) : Move index busy s (.looping d) s (.polling d)
  | timeout {d} (overdue : d ≤ s.now) : Move index busy s (.looping d) s
      (.ended (.error "Singleflight wait timed out"))
  | found {d v} (cache : s.cache = some v) : Move index busy s (.polling d) s (.testing v)
  | absent {d} (cache : s.cache = none) : Move index busy s (.polling d) s (.locking d)
  -- `rc.execute('SET', lockkey, token, 'NX', 'PX', 2000)`
  | acquire {d} (free : s.lock = none) :
    Move index busy s (.locking d)
      { s with lock := some (token index), lockDue := s.now + 2 } .rechecking
  | taken {d t} (held : s.lock = some t) : Move index busy s (.locking d) s
      (.pausing d (s.now + 1 / 200))
  | wake {d t} (due : t ≤ s.now) : Move index busy s (.pausing d t) s (.looping d)
  -- the holder of the lock
  | refilled {v} (cache : s.cache = some v) : Move index busy s .rechecking s (.releasing v)
  | still (cache : s.cache = none) : Move index busy s .rechecking s .calling
  | call : Move index busy s .calling { s with calls := s.calls + 1 } .entering
  | enter (room : busy < 4) : Move index busy s .entering s (.loading (s.now + 3 / 50))
  | load {t} (due : t ≤ s.now) : Move index busy s (.loading t) s (.filling answer)
  -- `rc.execute('SET', key, value, 'EX', 60)`
  | fill {v} : Move index busy s (.filling v) { s with cache := some v, cacheDue := s.now + 60 }
      (.releasing v)
  -- the script of `EVAL`
  | release {v} : Move index busy s (.releasing v)
    { s with lock := if s.lock = some (token index) then none else s.lock } (.testing v)
  -- `if value != answer`
  | obtain_ {v} (same : v = answer) : Move index busy s (.testing v) s (.ended (.ok v))
  | mismatch {v} (other : v ≠ answer) : Move index busy s (.testing v) s
      (.ended (.error "Cache value mismatch"))

variable {n : Nat}

/-- A run of `n` workers. The last field is not the program's: how many moves they have made. -/
structure Run (n : Nat) where
  shared : Shared
  pcs : Fin n → Pc
  moves : Nat

/-- The key has expired and there is no lock. -/
def Run.init (n : Nat) (start : Rat) : Run n :=
  ⟨⟨start, none, start, none, start, 0⟩, fun _ => .first, 0⟩

def Run.busy (r : Run n) : Nat := (Finset.univ.filter fun i => (r.pcs i).inside).card

/-- Neither the lock nor the key has expired by then. -/
def Shared.Fresh (s : Shared) (t : Rat) : Prop :=
  (s.lock ≠ none → t < s.lockDue) ∧ (s.cache ≠ none → t < s.cacheDue)

inductive Event where
  | tick
  | elapse
  | worker (index : Nat)
  | lockExpires
  | keyExpires

inductive Step (r : Run n) : Event → Run n → Prop where
  | tick (t : Rat) (later : r.shared.now ≤ t) (fresh : r.shared.Fresh t) :
    Step r .tick { r with shared := { r.shared with now := t } }
  | elapse (t : Rat) (later : r.shared.now ≤ t) : Step r .elapse
      { r with shared := { r.shared with now := t } }
  | worker (i : Fin n) {s pc} (move : Move i r.busy r.shared (r.pcs i) s pc) :
    Step r (.worker i) ⟨s, Function.update r.pcs i pc, r.moves + 1⟩
  | lockExpires : Step r .lockExpires { r with shared := { r.shared with lock := none } }
  | keyExpires : Step r .keyExpires { r with shared := { r.shared with cache := none } }

/-- The states that a run reaches by steps whose events are as in `P`. -/
inductive Reachable (P : Event → Prop) : Run n → Prop where
  | init (start : Rat) : Reachable P (.init n start)
  | step {r r' e} (h : Reachable P r) (step : Step r e r') (meets : P e) : Reachable P r'

/-- Neither the lock nor the key expires. -/
def Event.keeps : Event → Prop
  | tick | worker _ => True
  | elapse | lockExpires | keyExpires => False

/-- The holder of the lock may release it. -/
lemma Move.released {index busy : Nat} {s : Shared} {v : Bytes}
    (held : s.lock = some (token index)) :
    Move index busy s (.releasing v) { s with lock := none } (.testing v) := by
  have release : Move index busy s (.releasing v)
    { s with lock := if s.lock = some (token index) then none else s.lock } (.testing v) := .release
  rw [if_pos held] at release
  exact release

/-! ### Where the workers are -/

namespace Pc

/-- Between the commands that set and delete the lock. -/
def holds : Pc → Bool
  | rechecking | calling | entering | loading _ | filling _ | releasing _ => true
  | _ => false

/-- The holder has found nothing under the lock, and has not filled the cache yet. -/
def missed : Pc → Bool
  | calling | entering | loading _ | filling _ => true
  | _ => false

/-- The origin is called, and the cache is not filled yet. -/
def called : Pc → Bool
  | entering | loading _ | filling _ => true
  | _ => false

/-- The value has been in the cache. -/
def served : Pc → Bool
  | releasing _ | testing _ | ended (.ok _) => true
  | _ => false

/-- A value is the answer, and the wait for one is all that fails. -/
def Sound : Pc → Prop
  | filling v | releasing v | testing v | ended (.ok v) => v = answer
  | ended (.error e) => e = "Singleflight wait timed out"
  | _ => True

/-- Who missed holds the lock. -/
lemma holds_of_missed {pc : Pc} (h : pc.missed = true) : pc.holds = true := by
  cases pc with
  | calling | entering | loading | filling => rfl
  | _ => cases h

/-- Who called has missed. -/
lemma missed_of_called {pc : Pc} (h : pc.called = true) : pc.missed = true := by
  cases pc with
  | entering | loading | filling => rfl
  | _ => cases h

end Pc

/-- The lock carries the token of the worker that holds it. -/
structure Locked (lock : Option Str) (pcs : Fin n → Pc) : Prop where
  held : ∀ i, (pcs i).holds = true → lock = some (token i)
  holder : ∀ t, lock = some t → ∃ i, (pcs i).holds = true

/-- What the workers keep of the cache and of `calls[0]`. -/
structure Served (cache : Option Bytes) (calls : Nat) (pcs : Fin n → Pc) : Prop where
  sound : ∀ i, (pcs i).Sound
  cached : ∀ v, cache = some v → v = answer
  missed : ∀ i, (pcs i).missed = true → cache = none
  served : ∀ i, (pcs i).served = true → cache ≠ none
  filled : cache ≠ none → ∃ i, (pcs i).served = true
  once : cache ≠ none ∨ (∃ i, (pcs i).called = true) → calls = 1
  never : cache = none → (∀ i, (pcs i).called = false) → calls = 0

section
variable {cache : Option Bytes} {calls : Nat} {lock : Option Str} {pcs : Fin n →
  Pc} {i : Fin n} {pc : Pc}

/-- A property that a move does not change. -/
lemma update_same {f : Pc → Bool} (eq : f pc = f (pcs i)) (j : Fin n) :
    f (Function.update pcs i pc j) = f (pcs j) := by
  by_cases mine : j = i
  · rw [mine, Function.update_self, eq]
  · rw [Function.update_of_ne mine]

namespace Locked

/-- Nobody holds the lock. -/
lemma init : Locked (n := n) none fun _ => .first := ⟨fun _ => nofun, nofun⟩

/-- One holder at most. -/
lemma unique (h : Locked lock pcs) (mine : (pcs i).holds = true) {j : Fin n}
    (its : (pcs j).holds = true) : j = i := by
  have same := (h.held j its).symm.trans (h.held i mine)
  exact Fin.ext (token_inj (Option.some.inj same))

/-- A move that keeps the lock. -/
lemma go (h : Locked lock pcs) (same : pc.holds = (pcs i).holds) :
    Locked lock (Function.update pcs i pc) where
  held j its := h.held j ((update_same same j).symm.trans its)
  holder t its := by
    obtain ⟨j, holds⟩ := h.holder t its
    exact ⟨j, (update_same same j).trans holds⟩

/-- Taking the lock. -/
lemma acquire (h : Locked none pcs) (holds : pc.holds = true) :
    Locked (some (token i)) (Function.update pcs i pc) where
  held := by
    refine (Function.forall_update_iff pcs fun j pc => pc.holds = true →
      some (token i) = some (token j)).2 ⟨fun _ => rfl, ?_⟩
    intro j _ its
    cases h.held j its
  holder _ _ := ⟨i, by rw [Function.update_self]; exact holds⟩

/-- Giving it back. -/
lemma release (h : Locked lock pcs) (mine : (pcs i).holds = true) (leaves : pc.holds = false) :
    Locked none (Function.update pcs i pc) where
  held := by
    refine (Function.forall_update_iff pcs fun j pc => pc.holds = true →
      none = some (token j)).2 ⟨?_, ?_⟩
    · rw [leaves]
      nofun
    · intro j other its
      exact (other (h.unique mine its)).elim
  holder := nofun

end Locked

namespace Served

/-- Nobody has been served. -/
lemma init : Served (n := n) none 0 fun _ => .first where
  sound _ := trivial
  cached := nofun
  missed _ := nofun
  served _ := nofun
  filled none := (none rfl).elim
  once either := by
    cases either with
    | inl some_ => exact (some_ rfl).elim
    | inr called => obtain ⟨_, called⟩ := called; cases called
  never _ _ := rfl

/-- A worker goes on with the cache as it is. -/
lemma go (h : Served cache calls pcs) (sound : pc.Sound) (called : pc.called = (pcs i).called)
    (missed : pc.missed = true → cache = none) (served : pc.served = true → cache ≠ none)
    (still : (pcs i).served = true → pc.served = true) :
    Served cache calls (Function.update pcs i pc) where
  sound := (Function.forall_update_iff pcs fun _ pc => pc.Sound).2 ⟨sound, fun j _ => h.sound j⟩
  cached := h.cached
  missed :=
    (Function.forall_update_iff pcs fun _ pc => pc.missed = true →
      cache = none).2 ⟨missed, fun j _ => h.missed j⟩
  served :=
    (Function.forall_update_iff pcs fun _ pc => pc.served = true →
      cache ≠ none).2 ⟨served, fun j _ => h.served j⟩
  filled some_ := by
    obtain ⟨j, its⟩ := h.filled some_
    by_cases mine : j = i
    · refine ⟨i, ?_⟩
      rw [Function.update_self]
      exact still (mine ▸ its)
    · refine ⟨j, ?_⟩
      rw [Function.update_of_ne mine]
      exact its
  once either := by
    refine h.once (either.imp_right ?_)
    intro ⟨j, its⟩
    exact ⟨j, (update_same called j).symm.trans its⟩
  never none all := h.never none fun j => (update_same called j).symm.trans (all j)

/-- The holder of the lock calls the origin. -/
lemma call (h : Served cache calls pcs) (locked : Locked lock pcs) (at_ : pcs i = .calling) :
    Served cache (calls + 1) (Function.update pcs i .entering) := by
  have none : cache = none := h.missed i (by rw [at_]; rfl)
  have uncalled : ∀ j, (pcs j).called = false := by
    intro j
    by_contra called
    have its := Bool.eq_true_of_not_eq_false called
    -- only the holder calls, and it has not called yet
    have mine :=
      locked.unique (i := i) (by rw [at_]; rfl) (Pc.holds_of_missed (Pc.missed_of_called its))
    rw [mine, at_] at its
    cases its
  have zero := h.never none uncalled
  refine ⟨?_, h.cached, ?_, ?_, fun some_ => (some_ none).elim, fun _ => by rw [zero], ?_⟩
  · exact (Function.forall_update_iff pcs fun _ pc => pc.Sound).2 ⟨trivial, fun j _ => h.sound j⟩
  · exact fun _ _ => none
  · exact (Function.forall_update_iff pcs fun _ pc => pc.served = true →
      cache ≠ .none).2 ⟨nofun, fun j _ => h.served j⟩
  · intro _ all
    have entered := all i
    rw [Function.update_self] at entered
    cases entered

/-- The holder of the lock fills the cache. -/
lemma fill (h : Served cache calls pcs) (locked : Locked lock pcs) {v : Bytes}
    (at_ : pcs i = .filling v) :
    Served (some v) calls (Function.update pcs i (.releasing v)) := by
  have sound : v = answer := by
    have sound := h.sound i
    rw [at_] at sound
    exact sound
  refine ⟨?_, fun w same => (Option.some.inj same).symm.trans sound, ?_, fun _ _ => nofun,
    fun _ => ?_, fun _ => ?_, nofun⟩
  · exact (Function.forall_update_iff pcs fun _ pc => pc.Sound).2 ⟨sound, fun j _ => h.sound j⟩
  · refine (Function.forall_update_iff pcs fun _ pc => pc.missed = true →
      some v = .none).2 ⟨nofun, ?_⟩
    intro j other missed
    exact (other (locked.unique (by rw [at_]; rfl) (Pc.holds_of_missed missed))).elim
  · exact ⟨i, by rw [Function.update_self]; rfl⟩
  · exact h.once (.inr ⟨i, by rw [at_]; rfl⟩)

end Served
end

/-- What a move of a worker keeps. -/
lemma Move.keeps {s s' : Shared} {pcs : Fin n → Pc} {i : Fin n} {busy : Nat} {pc : Pc}
    (move : Move i busy s (pcs i) s' pc)
    (locked : Locked s.lock pcs) (served : Served s.cache s.calls pcs) :
    Locked s'.lock (Function.update pcs i pc) ∧
      Served s'.cache s'.calls (Function.update pcs i pc) := by
  have sound := served.sound i
  have full := served.served i
  have missed := served.missed i
  generalize at_ : pcs i = pc₀ at move sound full missed
  have locks (same : pc.holds = pc₀.holds) : Locked s.lock (Function.update pcs i pc) :=
    locked.go (at_ ▸ same)
  have serves (sound : pc.Sound) (called : pc.called = pc₀.called) (missed : pc.missed = true →
    s.cache = none)
      (served' : pc.served = true → s.cache ≠ none) (still : pc₀.served = true → pc.served = true) :
      Served s.cache s.calls (Function.update pcs i pc) :=
    served.go sound (at_ ▸ called) missed served' (at_ ▸ still)
  cases move with
  | hit cache | found cache =>
    exact ⟨locks rfl, serves (served.cached _ cache) rfl nofun
      (fun _ => by rw [cache]; nofun) nofun⟩
  | miss | start | goOn | absent | taken | wake =>
    exact ⟨locks rfl, serves trivial rfl nofun nofun nofun⟩
  | timeout => exact ⟨locks rfl, serves rfl rfl nofun nofun nofun⟩
  | acquire free =>
    rw [free] at locked
    exact ⟨locked.acquire rfl, serves trivial rfl nofun nofun nofun⟩
  | refilled cache =>
    exact ⟨locks rfl, serves (served.cached _ cache) rfl nofun
      (fun _ => by rw [cache]; nofun) nofun⟩
  | still cache => exact ⟨locks rfl, serves trivial rfl (fun _ => cache) nofun nofun⟩
  | call => exact ⟨locks rfl, served.call locked at_⟩
  | enter => exact ⟨locks rfl, serves trivial rfl (fun _ => missed rfl) nofun nofun⟩
  | load => exact ⟨locks rfl, serves rfl rfl (fun _ => missed rfl) nofun nofun⟩
  | fill => exact ⟨locks rfl, served.fill locked at_⟩
  | release =>
    have mine : (pcs i).holds = true := by rw [at_]; rfl
    refine ⟨?_, serves sound rfl nofun (fun _ => full rfl) fun _ => rfl⟩
    rw [if_pos (locked.held i mine)]
    exact locked.release mine rfl
  | obtain_ same => exact ⟨locks rfl, serves same rfl nofun (fun _ => full rfl) fun _ => rfl⟩
  | mismatch other => exact (other sound).elim

/-- What a run keeps while no key expires. -/
lemma Reachable.keeps {r : Run n} (h : Reachable Event.keeps r) :
    Locked r.shared.lock r.pcs ∧ Served r.shared.cache r.shared.calls r.pcs := by
  induction h with
  | init => exact ⟨.init, .init⟩
  | step _ step meets ih =>
    cases step with
    | tick => exact ih
    | worker i move => exact move.keeps ih.1 ih.2
    | elapse | lockExpires | keyExpires => cases meets

/-! ### No worker goes on for ever -/

/-- How often the loop can still pause before its deadline. -/
def pauses (deadline now : Rat) : Nat := ⌈(deadline - now) * 200⌉₊

/-- Fewer pauses are left later. -/
lemma pauses_mono {d now later : Rat} (le : now ≤ later) : pauses d later ≤ pauses d now :=
  Nat.ceil_mono (by linarith)

/-- A pause that begins before the deadline is one of them. -/
lemma pauses_succ {d now : Rat} (within : now < d) :
    pauses d (now + 1 / 200) + 1 ≤ pauses d now := by
  have some_ : 0 < pauses d now := Nat.ceil_pos.2 (by linarith)
  have fewer : pauses d (now + 1 / 200) ≤ pauses d now - 1 := by
    refine Nat.ceil_le.2 ?_
    have most := Nat.le_ceil ((d - now) * 200)
    rw [Nat.cast_sub some_, Nat.cast_one]
    change _ ≤ (⌈(d - now) * 200⌉₊ : Rat) - 1
    linarith
  omega

/-- A bound on the moves that a worker has left. -/
def Pc.left (now : Rat) : Pc → Nat
  | first => 4011
  | starting => 4010
  | looping d => 4 * pauses d now + 9
  | polling d => 4 * pauses d (now + 1 / 200) + 12
  | locking d => 4 * pauses d (now + 1 / 200) + 11
  | pausing d t => 4 * pauses d t + 10
  | rechecking => 8
  | calling => 7
  | entering => 6
  | loading _ => 5
  | filling _ => 4
  | releasing _ => 3
  | testing _ => 2
  | ended _ => 0

/-- Less is left to do later. -/
lemma Pc.left_mono {now later : Rat} (le : now ≤ later) (pc : Pc) :
    pc.left later ≤ pc.left now := by
  have shifted : now + 1 / 200 ≤ later + 1 / 200 := by linarith
  cases pc with
  | looping d =>
    have fewer := pauses_mono (d := d) le
    simp only [left]
    omega
  | polling d | locking d =>
    have fewer := pauses_mono (d := d) shifted
    simp only [left]
    omega
  | _ => exact le_refl _

/-- A move leaves one thing less to do. -/
lemma Move.left {index busy : Nat} {s s' : Shared} {pc pc' : Pc}
    (move : Move index busy s pc s' pc') :
    pc'.left s'.now + 1 ≤ pc.left s.now := by
  cases move with
  | start =>
    have whole : pauses (s.now + 5) s.now = 1000 := by
      rw [pauses, show (s.now + 5 - s.now) * 200 = ((1000 : Nat) : Rat)
        by norm_num, Nat.ceil_natCast]
    simp only [Pc.left, whole]
    omega
  | goOn within =>
    have fewer := pauses_succ within
    simp only [Pc.left]
    omega
  | @wake d t due =>
    have fewer := pauses_mono (d := d) due
    simp only [Pc.left]
    omega
  | _ => simp only [Pc.left]; omega

/-- A move takes no time. -/
lemma Move.now {index busy : Nat} {s s' : Shared} {pc pc' : Pc}
    (move : Move index busy s pc s' pc') : s'.now = s.now := by
  cases move with
  | _ => rfl

/-- The moves that are made and those that are left. -/
def Run.total (r : Run n) : Nat := r.moves + ∑ i, (r.pcs i).left r.shared.now

/-- No step adds to what is left. -/
lemma Step.total {r r' : Run n} {e : Event} (step : Step r e r') : r'.total ≤ r.total := by
  cases step with
  | tick t later | elapse t later =>
    refine Nat.add_le_add_left (Finset.sum_le_sum ?_) _
    intro i _
    exact Pc.left_mono later _
  | @worker i s pc move =>
    have others : ∑ j ∈ Finset.univ.erase i, (Function.update r.pcs i pc j).left s.now =
        ∑ j ∈ Finset.univ.erase i, (r.pcs j).left r.shared.now := by
      refine Finset.sum_congr rfl ?_
      intro j mem
      rw [Function.update_of_ne (Finset.ne_of_mem_erase mem), move.now]
    have fewer := move.left
    show r.moves + 1 + ∑ j, (Function.update r.pcs i pc j).left s.now ≤ r.moves + ∑ j,
      (r.pcs j).left r.shared.now
    rw [← Finset.add_sum_erase _ _ (Finset.mem_univ i), others, Function.update_self,
      ← Finset.add_sum_erase _ _ (Finset.mem_univ i)]
    omega
  | lockExpires | keyExpires => exact le_refl _

/-- The moves of a run are bounded. -/
lemma Reachable.moves_le {P : Event → Prop} {r : Run n} (h : Reachable P r) :
    r.moves ≤ 4011 * n := by
  have total : r.total ≤ 4011 * n := by
    induction h with
    | init start =>
      rw [Run.total]
      show 0 + ∑ _ : Fin n, 4011 ≤ 4011 * n
      rw [Finset.sum_const, Finset.card_univ, Fintype.card_fin, smul_eq_mul, zero_add, Nat.mul_comm]
    | step _ step _ ih => exact step.total.trans ih
  exact (Nat.le_add_right _ _).trans total

/-- What a worker waits for: nothing, the clock or `sem`. -/
lemma Pc.goes_on (index busy : Nat) (s : Shared) {pc : Pc} (on : ∀ e, pc ≠ .ended e)
    (room : pc = .entering → busy < 4) :
    ∃ t s' pc', s.now ≤ t ∧ Move index busy { s with now := t } pc s' pc' := by
  obtain ⟨now, cache, cacheDue, lock, lockDue, calls⟩ := s
  cases pc with
  | first =>
    cases cache with
    | none => exact ⟨_, _, _, le_refl _, .miss rfl⟩
    | some v => exact ⟨_, _, _, le_refl _, .hit rfl⟩
  | starting => exact ⟨_, _, _, le_refl _, .start⟩
  | looping d =>
    by_cases within : now < d
    · exact ⟨_, _, _, le_refl _, .goOn within⟩
    · exact ⟨_, _, _, le_refl _, .timeout (not_lt.1 within)⟩
  | polling d =>
    cases cache with
    | none => exact ⟨_, _, _, le_refl _, .absent rfl⟩
    | some v => exact ⟨_, _, _, le_refl _, .found rfl⟩
  | locking d =>
    cases lock with
    | none => exact ⟨_, _, _, le_refl _, .acquire rfl⟩
    | some t => exact ⟨_, _, _, le_refl _, .taken rfl⟩
  | pausing d t => exact ⟨max now t, _, _, le_max_left _ _, .wake (le_max_right _ _)⟩
  | rechecking =>
    cases cache with
    | none => exact ⟨_, _, _, le_refl _, .still rfl⟩
    | some v => exact ⟨_, _, _, le_refl _, .refilled rfl⟩
  | calling => exact ⟨_, _, _, le_refl _, .call⟩
  | entering => exact ⟨_, _, _, le_refl _, .enter (room rfl)⟩
  | loading t => exact ⟨max now t, _, _, le_max_left _ _, .load (le_max_right _ _)⟩
  | filling v => exact ⟨_, _, _, le_refl _, .fill⟩
  | releasing v => exact ⟨_, _, _, le_refl _, .release⟩
  | testing v =>
    by_cases same : v = answer
    · exact ⟨_, _, _, le_refl _, .obtain_ same⟩
    · exact ⟨_, _, _, le_refl _, .mismatch same⟩
  | ended e => exact (on e rfl).elim

/-- Some worker can go on, if not now then after a while. -/
lemma Run.goes_on (r : Run n) (some_ : ∃ i, ∀ e, r.pcs i ≠ .ended e) :
    ∃ t r' i, r.shared.now ≤ t ∧
      Step { r with shared := { r.shared with now := t } } (.worker i) r' := by
  by_cases inside : ∃ i, (r.pcs i).inside = true
  · -- a worker that is in the section of `sem` can leave it
    obtain ⟨i, inside⟩ := inside
    have on : ∀ e, r.pcs i ≠ .ended e := by
      intro e ended
      rw [ended] at inside
      cases inside
    have elsewhere : r.pcs i = .entering → r.busy < 4 := by
      intro at_
      rw [at_] at inside
      cases inside
    obtain ⟨t, s, pc, le, move⟩ := Pc.goes_on i r.busy r.shared on elsewhere
    exact ⟨t, _, i, le, .worker i move⟩
  · obtain ⟨i, on⟩ := some_
    have empty : r.busy = 0 := by
      refine Finset.card_eq_zero.2 (Finset.filter_eq_empty_iff.2 ?_)
      intro j _ its
      exact inside ⟨j, its⟩
    obtain ⟨t, s, pc, le, move⟩ := Pc.goes_on i r.busy r.shared on (fun _ => by rw [empty]; decide)
    exact ⟨t, _, i, le, .worker i move⟩

/-! ### What the phase ends with -/

/-- A worker that has ended has the answer, or its wait has timed out. -/
lemma Pc.Sound.ended {e : Except String Bytes} (h : (Pc.ended e).Sound) :
    e = .ok answer ∨ e = .error "Singleflight wait timed out" := by
  cases e with
  | ok v => exact .inl (congrArg _ h)
  | error m => exact .inr (congrArg _ h)

/-- A run in which no key expires comes to its end. Then there is no lock, each worker has the
answer unless its wait has timed out, and the origin was called once unless all of them have. -/
lemma Reachable.ended {r : Run n} (h : Reachable Event.keeps r)
    (ended : ∀ i, ∃ e, r.pcs i = .ended e) :
    r.shared.lock = none ∧
      (∀ i, r.pcs i = .ended (.ok answer) ∨
        r.pcs i = .ended (.error "Singleflight wait timed out")) ∧
      r.shared.calls = if ∃ i, r.pcs i = .ended (.ok answer) then 1 else 0 := by
  obtain ⟨locked, served⟩ := h.keeps
  have nobody : ∀ {f : Pc → Bool}, (∀ e, f (.ended e) = false) → ∀ i, f (r.pcs i) = false := by
    intro f none i
    obtain ⟨e, at_⟩ := ended i
    rw [at_]
    exact none e
  have results : ∀ i, r.pcs i = .ended (.ok answer) ∨
      r.pcs i = .ended (.error "Singleflight wait timed out") := by
    intro i
    obtain ⟨e, at_⟩ := ended i
    have sound := served.sound i
    rw [at_] at sound ⊢
    exact sound.ended.imp (congrArg _) (congrArg _)
  refine ⟨?_, results, ?_⟩
  · cases lock : r.shared.lock with
    | none => rfl
    | some t =>
      obtain ⟨i, holds⟩ := locked.holder t lock
      have none : (r.pcs i).holds = false := nobody (fun _ => rfl) i
      rw [none] at holds
      cases holds
  · split
    case isTrue some_ =>
      obtain ⟨i, at_⟩ := some_
      exact served.once (.inl (served.served i (by rw [at_]; rfl)))
    case isFalse none =>
      refine served.never ?_ (nobody fun _ => rfl)
      by_contra full
      obtain ⟨i, its⟩ := served.filled full
      cases results i with
      | inl ok => exact none ⟨i, ok⟩
      | inr error => rw [error] at its; cases its

/-- Whatever expires and when, a worker leaves a lock alone that carries the token of another. -/
lemma Move.lock {i busy : Nat} {s s' : Shared} {pc pc' : Pc}
    (move : Move i busy s pc s' pc') {t : Str}
    (held : s.lock = some t) (other : t ≠ token i) : s'.lock = some t := by
  cases move with
  | acquire free =>
    rw [held] at free
    cases free
  | release =>
    show (if s.lock = some (token i) then none else s.lock) = some t
    rw [if_neg (fun mine => other (Option.some.inj (held.symm.trans mine)))]
    exact held
  | _ => exact held

/-- A run under a stronger condition is one under a weaker. -/
lemma Reachable.mono {P Q : Event → Prop} {r : Run n} (h : Reachable P r)
    (weaker : ∀ e, P e → Q e) : Reachable Q r := by
  induction h with
  | init start => exact .init start
  | step _ step meets ih => exact ih.step step (weaker _ meets)

/-- The workers come to their ends. If no key expires, the origin has then been called once, no lock
is left, and each worker has the answer, except for those whose own wait has timed out. Whatever
expires and when, no worker takes the lock from another. -/
theorem answered_or_timed_out {P : Event → Prop} {r : Run n} (h : Reachable P r) :
    r.moves ≤ 4011 * n ∧
      ((∃ i, ∀ e, r.pcs i ≠ .ended e) →
        ∃ t r' i, r.shared.now ≤ t ∧
          Step { r with shared := { r.shared with now := t } } (.worker i) r') ∧
      ((∀ e, P e → e.keeps) → (∀ i, ∃ e, r.pcs i = .ended e) →
        r.shared.lock = none ∧
          (∀ i, r.pcs i = .ended (.ok answer) ∨
            r.pcs i = .ended (.error "Singleflight wait timed out")) ∧
          r.shared.calls = if ∃ i, r.pcs i = .ended (.ok answer) then 1 else 0) ∧
      ∀ (i j : Fin n) (r' : Run n), j ≠ i → Step r (.worker i) r' → r.shared.lock = some (token j) →
        r'.shared.lock = some (token j) := by
  refine ⟨h.moves_le, r.goes_on, fun keeps ended => (h.mono keeps).ended ended, ?_⟩
  intro i j r' other step held
  generalize its : Event.worker i = e at step
  cases step with
  | worker k move =>
    refine move.lock held fun same => other (Fin.ext ?_)
    rw [token_inj same]
    exact (Event.worker.inj its).symm
  | tick | elapse | lockExpires | keyExpires => cases its

/-! ### Two workers -/

section
variable {s s' : Shared} {a b c : Pc} {moves : Nat}

/-- A run goes on as time passes. -/
lemma Reachable.tick (h : Reachable Event.keeps (n := 2) ⟨s, ![a, b], moves⟩) {t : Rat}
    (later : s.now ≤ t)
    (fresh : s.Fresh t) : Reachable Event.keeps (n := 2) ⟨{ s with now := t }, ![a, b], moves⟩ :=
  h.step (.tick t later fresh) trivial

/-- The first caller moves. -/
lemma Reachable.zero (h : Reachable Event.keeps (n := 2) ⟨s, ![a, b], moves⟩)
    (move : ∀ busy < 4, Move 0 busy s a s' c) :
    Reachable Event.keeps (n := 2) ⟨s', ![c, b], moves + 1⟩ := by
  have few : Run.busy ⟨s, ![a, b], moves⟩ < 4 := (Finset.card_filter_le _ _).trans_lt (by decide)
  have moved := h.step (.worker 0 (move _ few)) trivial
  rw [show Function.update ![a, b] 0 c = ![c, b] by funext i; fin_cases i <;> rfl] at moved
  exact moved

/-- The second caller moves. -/
lemma Reachable.one (h : Reachable Event.keeps (n := 2) ⟨s, ![a, b], moves⟩)
    (move : ∀ busy < 4, Move 1 busy s b s' c) :
    Reachable Event.keeps (n := 2) ⟨s', ![a, c], moves + 1⟩ := by
  have few : Run.busy ⟨s, ![a, b], moves⟩ < 4 := (Finset.card_filter_le _ _).trans_lt (by decide)
  have moved := h.step (.worker 1 (move _ few)) trivial
  rw [show Function.update ![a, b] 1 c = ![a, c] by funext i; fin_cases i <;> rfl] at moved
  exact moved

end

/-- The first of two workers takes the lock shortly before the deadline, fills the cache and gives
back the lock within its time. The second does not get on before its own deadline. -/
lemma Reachable.late : ∃ s moves, s.cache = some answer ∧ s.lock = none ∧ s.calls = 1 ∧
    Reachable Event.keeps (n := 2)
      ⟨s, ![.ended (.ok answer), .ended (.error "Singleflight wait timed out")], moves⟩ := by
  have init : Reachable Event.keeps (n := 2) ⟨⟨0, none, 0, none, 0, 0⟩, ![.first, .first], 0⟩ := by
    rw [show ![.first, .first] = (fun _ : Fin 2 => Pc.first) by funext i; fin_cases i <;> rfl]
    exact .init 0
  have missed := (init.zero fun _ _ => .miss rfl).one fun _ _ => .miss rfl
  have started := (missed.zero fun _ _ => .start).one fun _ _ => .start
  have waited := started.tick (by norm_num : (0 : Rat) ≤ 9 / 2) (by simp [Shared.Fresh])
  have locked :=
    ((waited.zero fun _ _ => .goOn (by norm_num)).zero fun _ _ => .absent rfl).zero fun _ _ =>
      .acquire rfl
  have called :=
    ((locked.zero fun _ _ => .still rfl).zero fun _ _ => .call).zero fun _ room => .enter room
  have loaded := called.tick (by norm_num : (9 / 2 : Rat) ≤ 47 / 10) (by norm_num [Shared.Fresh])
  have filled : Reachable Event.keeps (n := 2)
      ⟨⟨47 / 10, some answer, 47 / 10 + 60, some (token 0), 9 / 2 + 2, 1⟩,
        ![.releasing answer, .looping (0 + 5)], _⟩ :=
    (loaded.zero fun _ _ => .load (by norm_num)).zero fun _ _ => .fill
  have released : Reachable Event.keeps (n := 2)
      ⟨⟨47 / 10, some answer, 47 / 10 + 60, none, 9 / 2 + 2, 1⟩,
        ![.testing answer, .looping (0 + 5)], _⟩ :=
    filled.zero fun _ _ => .released rfl
  have late := released.tick (by norm_num : (47 / 10 : Rat) ≤ 6) (by norm_num [Shared.Fresh])
  have ended := (late.zero fun _ _ => .obtain_ rfl).one fun _ _ => .timeout (by norm_num)
  exact ⟨_, _, rfl, rfl, rfl, ended⟩

/-- There is a value in the cache then, and the second worker fails. -/
theorem times_out :
    ∃ r : Run 2, Reachable Event.keeps r ∧ (∀ i, ∃ e, r.pcs i = .ended e) ∧
      ¬ (r.shared.calls = 1 ∧ (∀ i, r.pcs i = .ended (.ok answer)) ∧ r.shared.lock = none) := by
  obtain ⟨s, moves, _, _, _, h⟩ := Reachable.late
  refine ⟨_, h, ?_, ?_⟩
  · intro i
    fin_cases i
    · exact ⟨_, rfl⟩
    · exact ⟨_, rfl⟩
  · intro ⟨_, all, _⟩
    cases all 1

/-- The two workers of that run. -/
theorem answered_or_timed_out_late :
    ∃ r : Run 2, Reachable Event.keeps r ∧ r.moves ≤ 4011 * 2 ∧ r.shared.lock = none ∧
      r.shared.calls = if ∃ i, r.pcs i = .ended (.ok answer) then 1 else 0 := by
  obtain ⟨s, moves, _, _, _, h⟩ := Reachable.late
  obtain ⟨few, _, ends, _⟩ := answered_or_timed_out h
  obtain ⟨lock, _, calls⟩ := ends (fun _ keeps => keeps) (by
    intro i
    fin_cases i
    · exact ⟨_, rfl⟩
    · exact ⟨_, rfl⟩)
  exact ⟨_, h, few, lock, calls⟩

end DbLab.Redis.Singleflight
