import DbLab.Py.Raises
import DbLab.Redis.Sync

/-!
# What a command leaves behind when it fails

On a connection of its own that nothing interrupts, a thread gets a `RedisError` from every command
that fails. As long as the connection says that no send was attempted, its socket was given the
bytes of `AUTH` at most.
-/

namespace DbLab.Redis
open DbLab.Py DbLab.Data DbLab.Proc Relation

/-- A connection, and the packets that its sockets were given. -/
structure Line where
  conn : State
  handed : List Bytes

/-- What a call gives to the socket. -/
def Call.hands : Call → List Bytes
  | .sendall packet => [packet]
  | _ => []

/-- The surroundings of a connection that no interruption strikes. -/
def wire : World calls Raised where
  State := Line
  does x l r l' := Effect x l.conn r l'.conn ∧ l'.handed = l.handed ++ x.hands
  drifts l l' := Drifts l.conn l'.conn ∧ l'.handed = l.handed
  killed _ _ := False

/-- The weakest precondition of a method that nothing interrupts. -/
abbrev wireWp {α : Type} (Q : α → Line → Prop) (E : Raised → Line → Prop) (p : Method α)
    (l : Line) : Prop :=
  wire.wp (fun _ => True) Q E p l

/-- There is no socket, or there is one with an open reader. -/
def State.Whole (s : State) : Prop := ∀ n, s.sock = some n → n.stream = .opened

/-- The connection says whether a send was attempted, and the packets are as in `H`. -/
structure Line.Gave (l : Line) (attempted : Bool) (H : List Bytes → Prop) : Prop where
  flag : l.conn.sendAttempted = attempted
  handed : H l.handed

/-- There is a socket with an open reader. -/
structure Line.Open (l : Line) (attempted : Bool) (H : List Bytes → Prop) :
    Prop extends l.Gave attempted H where
  sock : ∃ n, l.conn.sock = some n ∧ n.stream = .opened

/-- There is a socket. -/
structure Line.Bound (l : Line) (attempted : Bool) (H : List Bytes → Prop) :
    Prop extends l.Gave attempted H where
  sock : ∃ n, l.conn.sock = some n

/-- There is no socket. -/
structure Line.Shut (l : Line) (attempted : Bool) (H : List Bytes → Prop) :
    Prop extends l.Gave attempted H where
  sock : l.conn.sock = none

/-- A connection that is used again is whole. -/
structure Line.Whole (l : Line) (attempted : Bool) (H : List Bytes → Prop) :
    Prop extends l.Gave attempted H where
  sock : l.conn.Whole

section Calls
variable {α : Type} {l l' : Line} {b : Bool} {H : List Bytes → Prop}

/-- Drift keeps what was handed over. -/
lemma Line.Gave.drift (h : l.Gave b H) (d : wire.drifts l l') : l'.Gave b H := by
  obtain ⟨d, same⟩ := d
  refine ⟨?_, same ▸ h.handed⟩
  rw [← h.flag]
  cases l' with
  | mk conn handed =>
    cases d with
    | gone unread sock front => rfl

/-- Drift keeps an open line. -/
lemma Line.Open.drift (h : l.Open b H) (d : wire.drifts l l') : l'.Open b H := by
  refine ⟨h.toGave.drift d, ?_⟩
  obtain ⟨n, sock, opened⟩ := h.sock
  cases l' with
  | mk conn handed =>
    cases d.1 with
    | gone unread here front =>
      cases sock.symm.trans here
      exact ⟨_, rfl, opened⟩

/-- Drift keeps a bound line. -/
lemma Line.Bound.drift (h : l.Bound b H) (d : wire.drifts l l') : l'.Bound b H := by
  refine ⟨h.toGave.drift d, ?_⟩
  cases l' with
  | mk conn handed =>
    cases d.1 with
    | gone unread here front => exact ⟨_, rfl⟩

/-- Drift keeps a shut line. -/
lemma Line.Shut.drift (h : l.Shut b H) (d : wire.drifts l l') : l'.Shut b H := by
  refine ⟨h.toGave.drift d, ?_⟩
  cases l' with
  | mk conn handed =>
    cases d.1 with
    | gone unread here front => cases h.sock.symm.trans here

/-- An open line is whole. -/
lemma Line.Open.whole (h : l.Open b H) : l.conn.Whole := by
  intro n here
  obtain ⟨m, same, opened⟩ := h.sock
  cases same.symm.trans here
  exact opened

/-- A shut line is whole. -/
lemma Line.Shut.whole (h : l.Shut b H) : l.conn.Whole :=
  fun _ here => nomatch h.sock.symm.trans here

/-- Drift keeps a whole line. -/
lemma Line.Whole.drift (h : l.Whole b H) (d : wire.drifts l l') : l'.Whole b H := by
  refine ⟨h.toGave.drift d, ?_⟩
  cases l' with
  | mk conn handed =>
    cases d.1 with
    | gone unread here front =>
      rintro n ⟨⟩
      have opened := h.sock _ here
      exact opened

/-- One call, of which something is known that survives the server going. -/
lemma wire_ask {x : Call} {P : Line → Prop} {Q : x.Result → Line → Prop} {E : Raised → Line → Prop}
    (stable : ∀ {l l'}, P l → wire.drifts l l' → P l') (h : P l)
    (ok : ∀ l₁ a s', P l₁ → Effect x l₁.conn (.ok a) s' → Q a ⟨s', l₁.handed ++ x.hands⟩)
    (error : ∀ l₁ e s', P l₁ → Effect x l₁.conn (.error e) s' → E e ⟨s', l₁.handed ++ x.hands⟩) :
    wireWp Q E (ask x) l := by
  refine World.wp_ask fun l₁ drift r l' does => ⟨trivial, ?_⟩
  have known : P l₁ := drifts_many (W := wire) stable drift h
  obtain ⟨effect, handed⟩ := does
  cases l' with
  | mk s' handed' =>
    cases handed
    cases r with
    | ok a => exact ok l₁ a s' known effect
    | error e => exact error l₁ e s' known effect

/-- What a call that gives nothing to the socket keeps. -/
lemma Line.Gave.keep (h : l.Gave b H) {s' : State}
    (flag : s'.sendAttempted = l.conn.sendAttempted) :
    Line.Gave ⟨s', l.handed ++ []⟩ b H :=
  ⟨flag.trans h.flag, (List.append_nil l.handed).symm ▸ h.handed⟩

/-- A failure to close is ignored. -/
lemma ignoringOs_wire {p : Method Unit}
    (closes : wireWp (fun _ l' => l'.Gave b H) (fun e l' => e = .os ∧ l'.Gave b H) p l) :
    wireWp (fun _ l' => l'.Gave b H) (fun _ _ => False) (ignoringOs p) l := by
  refine (World.wp_handle _ _).2 (World.wp_mono closes (fun _ _ gave => gave) ?_)
  rintro e l' ⟨rfl, gave⟩
  exact gave

/-- Closing the stream hands nothing over. -/
lemma closeStream_wire (h : l.Gave b H) :
    wireWp (fun _ l' => l'.Gave b H) (fun _ _ => False) closeStream l := by
  refine (World.wp_bind _ _).2 (wire_ask (P := fun l => l.Gave b H) .drift h ?_
    fun _ _ _ _ effect => nomatch effect)
  intro l₁ here s' gave effect
  cases effect with
  | hasStream =>
    split
    · refine ignoringOs_wire (wire_ask (P := fun l => l.Gave b H) .drift (gave.keep rfl) ?_ ?_)
      · intro l₂ _ s' gave effect
        cases effect with
        | streamClosed sock => exact gave.keep rfl
      · intro l₂ e s' gave effect
        cases effect with
        | streamNotClosed => exact ⟨rfl, gave.keep rfl⟩
    · exact gave.keep rfl

/-- Closing the socket hands nothing over. -/
lemma closeSock_wire (h : l.Gave b H) :
    wireWp (fun _ l' => l'.Gave b H) (fun _ _ => False) closeSock l := by
  refine (World.wp_bind _ _).2 (wire_ask (P := fun l => l.Gave b H) .drift h ?_
    fun _ _ _ _ effect => nomatch effect)
  intro l₁ here s' gave effect
  cases effect with
  | hasSock =>
    split
    · refine ignoringOs_wire (wire_ask (P := fun l => l.Gave b H) .drift (gave.keep rfl) ?_ ?_)
      · intro l₂ _ s' gave effect
        cases effect with
        | sockClosed => exact gave.keep rfl
      · intro l₂ e s' gave effect
        cases effect with
        | sockNotClosed => exact ⟨rfl, gave.keep rfl⟩
    · exact gave.keep rfl

/-- `close` raises nothing and leaves no socket. -/
lemma close_wire (h : l.Gave b H) :
    wireWp (fun _ l' => l'.Shut b H) (fun _ _ => False) close l := by
  refine (World.wp_bind _ _).2 (World.wp_mono (closeStream_wire h) (fun _ l₁ gave => ?_)
    fun _ _ never => never)
  refine (World.wp_bind _ _).2 (World.wp_mono (closeSock_wire gave) (fun _ l₂ gave => ?_)
    fun _ _ never => never)
  refine (World.wp_bind _ _).2 (wire_ask (P := fun l => l.Gave b H) .drift gave
    (fun l₃ _ s' gave effect => ?_) fun _ _ _ _ effect => nomatch effect)
  cases effect with
  | dropStream =>
    refine wire_ask (P := fun l => l.Gave b H) .drift (gave.keep rfl)
      (fun l₄ _ s' gave effect => ?_)
      fun _ _ _ _ effect => nomatch effect
    cases effect with
    | dropSock => exact ⟨gave.keep rfl, rfl⟩

/-- A failed `try` block of `connect` whose exception is handled. -/
lemma connectFailed_wire {e : Raised} (handled : (e.isBroken || e.isRedis) = true) (h : l.Gave b H)
    {Q : Unit → Line → Prop} :
    wireWp Q (fun e l' => e.isRedis = true ∧ l'.Shut b H) (connectFailed e) l := by
  rw [connectFailed, if_pos handled]
  refine (World.wp_bind _ _).2 (World.wp_mono (close_wire h) (fun _ l' shut => ?_)
    fun _ _ never => never.elim)
  split
  · rename_i redis
    exact ⟨redis, shut⟩
  · exact ⟨rfl, shut⟩

/-- A failed `try` block of `pipeline` whose exception is handled. -/
lemma exchangeFailed_wire {e : Raised} (handled : (e.isBroken || e.isProtocol) = true)
    (h : l.Gave b H)
    {Q : List Reply → Line → Prop} :
    wireWp Q (fun e l' => e.isRedis = true ∧ l'.Shut b H) (exchangeFailed e) l := by
  rw [exchangeFailed, if_pos handled]
  exact (World.wp_bind _ _).2 (World.wp_mono (close_wire h) (fun _ _ shut => ⟨rfl, shut⟩)
    fun _ _ never => never.elim)

/-- A reader that is open returns a reply or fails on the wire. -/
lemma read_wire (h : l.Open b H) :
    wireWp (fun _ l' => l'.Open b H) (fun e l' => (e.isBroken || e.isProtocol) = true ∧ l'.Gave b H)
      (ask .readReply) l := by
  refine wire_ask (P := fun l => l.Open b H) .drift h ?_ ?_
  · intro l₁ v s' opened effect
    cases effect with
    | read sock stream reads => exact ⟨opened.toGave.keep rfl, _, rfl, stream⟩
  · intro l₁ e s' opened effect
    obtain ⟨n, same, isOpen⟩ := opened.sock
    cases effect with
    | @readFails _ _ n f sock stream fails skips =>
      refine ⟨readReply_raises 33 _ f fails, ?_⟩
      cases skips with
      | part unread sock rest => exact opened.toGave.keep rfl
    | timedOut sock stream skips =>
      cases skips with
      | part unread sock rest => exact ⟨rfl, opened.toGave.keep rfl⟩
    | readClosed sock stream =>
      cases sock.symm.trans same
      cases stream.symm.trans isOpen
    | readNone absent => cases (absent n same).symm.trans isOpen

/-- A packet is given to the socket, whether or not it is sent. -/
lemma sendall_wire {packet : Bytes} {G : List Bytes → Prop} (h : l.Open b H)
    (grows : ∀ handed, H handed → G (handed ++ [packet])) :
    wireWp (fun _ l' => l'.Open b G) (fun e l' => e.isBroken = true ∧ l'.Gave b G)
      (ask (.sendall packet)) l := by
  refine wire_ask (P := fun l => l.Open b H) .drift h ?_ ?_
  · intro l₁ _ s' opened effect
    obtain ⟨n, same, isOpen⟩ := opened.sock
    have given := grows l₁.handed opened.handed
    cases effect with
    | sent sent =>
      cases sent with
      | whole cmds sock split serves =>
        cases sock.symm.trans same
        cases serves with
        | gone gone => exact ⟨⟨opened.flag, given⟩, _, rfl, isOpen⟩
        | answers answers length => exact ⟨⟨opened.flag, given⟩, _, rfl, isOpen⟩
        | confused unread torn => exact ⟨⟨opened.flag, given⟩, _, rfl, isOpen⟩
  · intro l₁ e s' opened effect
    obtain ⟨n, same, _⟩ := opened.sock
    cases effect with
    | notSent torn =>
      cases torn with
      | part cmds rest sock split serves => exact ⟨rfl, opened.flag, grows l₁.handed opened.handed⟩
    | sentNone sock => cases same.symm.trans sock

/-- Reading replies hands nothing over. -/
lemma replies_wire (n : Nat) (h : l.Open b H) :
    wireWp (fun rs l' => rs.length = n ∧ l'.Open b H)
      (fun e l' => (e.isBroken || e.isProtocol) = true ∧ l'.Gave b H) (replies n) l := by
  induction n generalizing l with
  | zero => exact ⟨rfl, h⟩
  | succ n ih =>
    refine (World.wp_bind _ _).2 (World.wp_mono (read_wire h) (fun r l₁ opened => ?_)
      fun _ _ fails => fails)
    refine (World.wp_bind _ _).2 (World.wp_mono (ih opened) ?_ fun _ _ fails => fails)
    rintro rs l₂ ⟨length, opened⟩
    exact ⟨congrArg Nat.succ length, opened⟩

/-- An error among the replies is raised, and leaves the connection open. -/
lemma raiseErrors_wire (rs : List Reply) (h : l.Open b H) :
    wireWp (fun _ l' => l'.Open b H) (fun e l' => e.isRedis = true ∧ l'.Open b H)
      (raiseErrors rs) l := by
  induction rs with
  | nil => exact h
  | cons r rs ih =>
    cases r with
    | error m => exact ⟨rfl, h⟩
    | bytes b => exact ih
    | int n => exact ih
    | none => exact ih
    | list items => exact ih

end Calls

/-! ### The methods -/

section Methods
variable [Interpreter] {l : Line} {b : Bool} {password : Str}

/-- Text, bytes and integers can be written, unless as text they cannot be encoded. -/
def Arg.Plain : Arg → Prop
  | .bytes _ | .value (.str _) | .value (.int _) => True
  | _ => False

/-- A plain argument only raises value errors. -/
lemma Arg.item_only {a : Arg} (h : a.Plain) : Only (fun e => e.isValueError = true) a.item := by
  cases a with
  | bytes b => exact .ok b
  | value v =>
    cases v with
    | str s => exact encode_only s
    | int n =>
      refine Only.bind ?_ fun s _ => encode_only s
      unfold intRepr
      dsimp only
      split
      · exact .error rfl
      · exact .ok _
    | null | bool | float | list | dict => exact h.elim

/-- Plain arguments only raise value errors. -/
lemma encodeArgs_only {args : List Arg} (some_ : args ≠ []) (h : ∀ a ∈ args, a.Plain) :
    Only (fun e => e.isValueError = true) (encodeArgs args) := by
  rw [encodeArgs, if_neg some_]
  exact (Only.mapM fun a m => Arg.item_only (h a m)).bind fun items _ => .ok _

/-- `('AUTG, self.password)` -/
def auth (password : Str) : List Arg := [.value (.str (str "AUTH")), .value (.str password)]

/-- Nothing but `AUTH` was given to the sockets. -/
def AuthOnly (password : Str) (handed : List Bytes) : Prop :=
  ∀ p ∈ handed, encodeArgs (auth password) = .ok p

/-- Authenticating once more is all that was handed over. -/
lemma AuthOnly.append {handed : List Bytes} {p : Bytes} (h : AuthOnly password handed)
    (packed : encodeArgs (auth password) = .ok p) : AuthOnly password (handed ++ [p]) := by
  intro q m
  rcases List.mem_append.1 m with old | new
  · exact h q old
  · rwa [List.mem_singleton.1 new]

/-- Authenticating hands over the password alone. -/
lemma authenticate_wire (h : l.Open b (AuthOnly password)) :
    wireWp (fun _ l' => l'.Open b (AuthOnly password))
      (fun e l' => (e.isBroken || e.isRedis) = true ∧ l'.Gave b (AuthOnly password))
        (authenticate password) l := by
  have plain : ∀ a ∈ auth password, a.Plain := by
    intro a m
    rcases List.mem_cons.1 m with rfl | m
    · trivial
    · cases List.mem_singleton.1 m
      trivial
  unfold authenticate encoded
  refine (World.wp_bind _ _).2 ?_
  cases packed : encodeArgs (auth password) with
  | error e =>
    have valueError := encodeArgs_only (List.cons_ne_nil _ _) plain e packed
    rw [show encodeArgs [.value (.str (str "AUTH")), .value (.str password)] = .error e from packed]
    exact ⟨by rw [Raised.isBroken, valueError, Bool.true_or], h.toGave⟩
  | ok p =>
    rw [show encodeArgs [.value (.str (str "AUTH")), .value (.str password)] = .ok p from packed]
    refine (World.wp_bind _ _).2
      (World.wp_mono (sendall_wire h fun handed only => only.append packed) ?_ ?_)
    · intro _ l₁ opened
      refine (World.wp_bind _ _).2 (World.wp_mono (read_wire opened) ?_ ?_)
      · intro v l₂ opened
        split
        · exact ⟨rfl, opened.toGave⟩
        · exact opened
        · exact ⟨rfl, opened.toGave⟩
      · rintro e l₂ ⟨fails, gave⟩
        refine ⟨?_, gave⟩
        rw [Bool.or_eq_true] at fails ⊢
        exact fails.imp id Raised.isRedis_of_isProtocol
    · rintro e l₁ ⟨broken, gave⟩
      exact ⟨by rw [broken, Bool.true_or], gave⟩

/-- Opening the socket hands over the password alone. -/
lemma openSocket_wire (h : l.Gave b (AuthOnly password)) :
    wireWp (fun _ l' => l'.Open b (AuthOnly password))
      (fun e l' => (e.isBroken || e.isRedis) = true ∧ l'.Gave b (AuthOnly password))
        (openSocket password) l := by
  refine (World.wp_bind _ _).2
    (wire_ask (P := fun l => l.Gave b (AuthOnly password)) .drift h ?_ ?_)
  · intro l₁ _ s' gave effect
    have made : Line.Bound ⟨s', l₁.handed ++ []⟩ b (AuthOnly password) := by
      cases effect with
      | created => exact ⟨gave.keep rfl, _, rfl⟩
    refine (World.wp_bind _ _).2
      (wire_ask (P := fun l => l.Bound b (AuthOnly password)) .drift made ?_ ?_)
    · intro l₂ _ s' bound effect
      have set : Line.Bound ⟨s', l₂.handed ++ []⟩ b (AuthOnly password) := by
        cases effect with
        | noDelay => exact ⟨bound.toGave.keep rfl, bound.sock⟩
      refine (World.wp_bind _ _).2
        (wire_ask (P := fun l => l.Bound b (AuthOnly password)) .drift set ?_ ?_)
      · intro l₃ _ s' bound effect
        have opened : Line.Open ⟨s', l₃.handed ++ []⟩ b (AuthOnly password) := by
          cases effect with
          | makefile sock => exact ⟨bound.toGave.keep rfl, _, rfl, rfl⟩
        split
        · exact authenticate_wire opened
        · exact opened
      · intro l₃ e s' bound effect
        obtain ⟨n, same⟩ := bound.sock
        cases effect with
        | makefileNone sock => cases same.symm.trans sock
    · intro l₂ e s' bound effect
      cases effect with
      | noDelayFails => exact ⟨rfl, bound.toGave.keep rfl⟩
  · intro l₁ e s' gave effect
    cases effect with
    | notCreated => exact ⟨rfl, gave.keep rfl⟩

/-- Connecting hands over the password alone. -/
lemma connect_wire (h : l.Whole b (AuthOnly password)) :
    wireWp (fun _ l' => l'.Open b (AuthOnly password)) (fun e l' => e.isRedis = true ∧
      l'.Shut b (AuthOnly password))
      (connect password) l := by
  refine (World.wp_bind _ _).2 (wire_ask (P := fun l => l.Whole b (AuthOnly password)) .drift h ?_
    fun _ _ _ _ effect => nomatch effect)
  intro l₁ here s' whole effect
  cases effect with
  | hasSock =>
    split
    · rename_i here
      obtain ⟨n, sock⟩ := Option.isSome_iff_exists.1 here
      exact ⟨whole.toGave.keep rfl, n, sock, whole.sock n sock⟩
    · refine (World.wp_handle _ _).2 (World.wp_mono (openSocket_wire (whole.toGave.keep rfl))
        (fun _ _ opened => opened) ?_)
      rintro e l₂ ⟨handled, gave⟩
      exact connectFailed_wire handled gave

/-- What a failed `try` block of `pipeline` leaves: no send was attempted, and nothing but `AUTH`
was sent, or one was. -/
def Line.Broke (l : Line) (password : Str) : Prop :=
  l.Gave false (AuthOnly password) ∨ l.Gave true fun _ => True

/-- An exchange hands over its command. -/
lemma exchange_wire {args : List Arg} (some_ : args ≠ []) (plain : ∀ a ∈ args, a.Plain)
    (h : l.Open false (AuthOnly password)) :
    wireWp (fun rs l' => rs.length = 1 ∧ l'.Open true fun _ => True)
      (fun e l' => (e.isBroken || e.isProtocol) = true ∧ l'.Broke password)
        (exchange [args]) l := by
  have packs : Only (fun e => e.isValueError = true) (packet [args]) := by
    refine (Only.mapM fun a m => ?_).bind fun parts _ => ?_
    · rw [List.mem_singleton.1 m]
      exact encodeArgs_only some_ plain
    · split
      · exact .throw rfl
      · exact .pure _
  refine (World.wp_bind _ _).2 ?_
  cases packed : packet [args] with
  | error e => exact ⟨by rw [Raised.isBroken, packs e packed, Bool.true_or], .inl h.toGave⟩
  | ok p =>
    refine (World.wp_bind _ _).2
      (wire_ask (P := fun l => l.Open false (AuthOnly password)) .drift h ?_
      fun _ _ _ _ effect => nomatch effect)
    intro l₁ _ s' opened effect
    have marked : Line.Open ⟨s', l₁.handed ++ []⟩ true fun _ => True := by
      cases effect with
      | attempted => exact ⟨⟨rfl, trivial⟩, opened.sock⟩
    refine (World.wp_bind _ _).2
      (World.wp_mono (sendall_wire (G := fun _ => True) marked fun _ _ => trivial)
      (fun _ l₂ sent => ?_) ?_)
    · refine World.wp_mono (replies_wire 1 sent) (fun _ _ replied => replied) ?_
      rintro e l₃ ⟨fails, gave⟩
      exact ⟨fails, .inr gave⟩
    · rintro e l₂ ⟨broken, gave⟩
      exact ⟨by rw [broken, Bool.true_or], .inr gave⟩

/-- What a failed command leaves: if no send was attempted, the sockets were given nothing but
`AUTH`. -/
structure Failure (password : Str) (e : Raised) (l : Line) : Prop where
  redis : e.isRedis = true
  whole : l.conn.Whole
  unsent : l.conn.sendAttempted = false → AuthOnly password l.handed

/-- A failure before the command handed nothing over. -/
lemma Line.Gave.failure {H : List Bytes → Prop} {e : Raised} (h : l.Gave b H)
    (redis : e.isRedis = true)
    (whole : l.conn.Whole) (only : b = false → ∀ handed, H handed → AuthOnly password handed) :
    Failure password e l :=
  ⟨redis, whole, fun unset => only (h.flag.symm.trans unset) _ h.handed⟩

/-- A command of plain arguments, on a connection whose sockets were not given anything yet. -/
theorem execute_wire {args : List Arg} (some_ : args ≠ []) (plain : ∀ a ∈ args, a.Plain)
    (whole : l.conn.Whole)
    (fresh : l.handed = []) :
    wireWp (fun _ l' => l'.conn.Whole) (Failure password) (execute password args) l := by
  have only : AuthOnly password l.handed := fresh ▸ nofun
  have start : l.Whole l.conn.sendAttempted (AuthOnly password) := ⟨⟨rfl, only⟩, whole⟩
  refine (World.wp_bind _ _).2 ?_
  rw [pipeline, if_neg (List.cons_ne_nil _ _),
    if_neg (show ¬1024 < [args].length from (by decide : ¬1024 < 1))]
  refine (World.wp_bind _ _).2
    (wire_ask (P := fun m => m.Whole l.conn.sendAttempted (AuthOnly password)) .drift start ?_
    fun _ _ _ _ effect => nomatch effect)
  intro l₁ _ s' whole effect
  have unset : Line.Whole ⟨s', l₁.handed ++ []⟩ false (AuthOnly password) := by
    cases effect with
    | attempted => exact ⟨⟨rfl, (List.append_nil l₁.handed).symm ▸ whole.handed⟩, whole.sock⟩
  refine (World.wp_bind _ _).2 (World.wp_mono (connect_wire unset) ?_ ?_)
  · intro _ l₂ opened
    refine (World.wp_bind _ _).2
      ((World.wp_handle _ _).2 (World.wp_mono (exchange_wire some_ plain opened) ?_ ?_))
    · rintro rs l₃ ⟨length, opened⟩
      refine (World.wp_bind _ _).2
        (World.wp_mono (raiseErrors_wire rs opened) (fun _ l₄ opened => ?_) ?_)
      · obtain ⟨r, rfl⟩ := List.length_eq_one_iff.1 length
        exact opened.whole
      · rintro e l₄ ⟨redis, opened⟩
        exact opened.toGave.failure redis opened.whole nofun
    · rintro e l₃ ⟨handled, unsent | sent⟩
      · refine World.wp_mono (exchangeFailed_wire handled unsent) (fun _ _ never => never) ?_
        rintro e' l₄ ⟨redis, shut⟩
        exact shut.toGave.failure redis shut.whole fun _ _ only => only
      · refine World.wp_mono (exchangeFailed_wire handled sent) (fun _ _ never => never) ?_
        rintro e' l₄ ⟨redis, shut⟩
        exact shut.toGave.failure redis shut.whole nofun
  · rintro e l₂ ⟨redis, shut⟩
    exact shut.toGave.failure redis shut.whole fun _ _ only => only

end Methods

/-! ### Runs -/

/-- A connection that is answered as a script says. -/
def wired : Oracle wire (List Choice) where
  answer x l script :=
    let a := respond x l.conn (script.headD .go)
    (a.1, ⟨a.2, l.handed ++ x.hands⟩, script.tail)
  does x l script := ⟨respond_effect x l.conn (script.headD .go), rfl⟩

end DbLab.Redis
