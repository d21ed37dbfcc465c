import DbLab.Py.Exec
import DbLab.Redis.Connection

/-!
# Replies belong to their commands

A connection is quiet when nothing is unread on its open stream. A method that begins on a quiet
connection ends on one, and what it returns are the replies to its own commands, as long as no
interruption strikes between the first byte sent and the last byte read. One that does leaves a
reply behind for the next command.
-/

namespace DbLab.Redis
open DbLab.Py DbLab.Data DbLab.Proc Reader

/-! ### Commands tell where they end -/

/-- A text ends at the first byte that it does not have. -/
lemma append_cons_inj {b : UInt8} {l l' r r' : Bytes} (h : b ∉ l) (h' : b ∉ l')
    (same : l ++ b :: r = l' ++ b :: r') :
    l = l' ∧ r = r' := by
  induction l generalizing l' with
  | nil =>
    cases l' with
    | nil => exact ⟨rfl, (List.cons.inj same).2⟩
    | cons c l' => exact absurd ((List.cons.inj same).1 ▸ List.mem_cons_self) h'
  | cons c l ih =>
    cases l' with
    | nil => exact absurd ((List.cons.inj same).1 ▸ List.mem_cons_self) h
    | cons c' l' =>
      obtain ⟨rfl, rest⟩ := List.cons.inj same
      obtain ⟨rfl, tail⟩ :=
        ih (fun m => h (List.mem_cons_of_mem _ m)) (fun m => h' (List.mem_cons_of_mem _ m)) rest
      exact ⟨rfl, tail⟩

/-- The first line of a command or an argument. -/
lemma size_delimited (kind : UInt8) : Delimited fun n => line kind (decimal n) := by
  intro n n' r r' same
  have text : decimal n ++ 13 :: (10 :: r) = decimal n' ++ 13 :: (10 :: r') := by
    simpa [line, crlf] using same
  obtain ⟨digits, rest⟩ :=
    append_cons_inj (decimal_plain (by decide) n) (decimal_plain (by decide) n') text
  exact ⟨decimal_injective digits, (List.cons.inj rest).2⟩

/-- A part ends where it says. -/
lemma part_delimited : Delimited part := by
  intro item item' r r' same
  simp only [part_eq, Wire.serialize, List.append_assoc] at same
  obtain ⟨length, rest⟩ := size_delimited 36 same
  obtain ⟨data, tail⟩ := List.append_inj rest length
  exact ⟨data, List.append_cancel_left tail⟩

/-- A command on the wire. -/
def commandBytes (items : List Bytes) : Bytes := (command items).serialize

/-- The bytes of a command. -/
lemma commandBytes_eq (items : List Bytes) :
    commandBytes items = line 42 (decimal items.length) ++ (items.map part).flatten := by
  rw [commandBytes, command_serialize]
  rfl

/-- A command ends where it says. -/
lemma command_delimited : Delimited commandBytes := by
  intro items items' r r' same
  rw [commandBytes_eq, commandBytes_eq, List.append_assoc, List.append_assoc] at same
  obtain ⟨length, rest⟩ := size_delimited 42 same
  exact part_delimited.many length rest

/-- A command has bytes. -/
lemma commandBytes_ne_nil (items : List Bytes) : commandBytes items ≠ [] := by
  rw [commandBytes_eq]
  nofun

/-! ### A reply that cannot be read is an error of the wire -/

/-- The exceptions that `pipeline` and `connect` take for a broken connection. -/
def Fault.Handled (f : Fault) : Prop := (f.raised.isBroken || f.raised.isProtocol) = true

/-- A number raises what is handled. -/
lemma number_raises (data : Bytes) : Raises (number data) Fault.Handled := by
  unfold number intOfBytes
  dsimp only
  split
  · exact .pure _
  · rename_i e fails
    split at fails
    · cases fails
      exact .throw rfl
    · split at fails
      · cases fails
        exact .throw rfl
      · cases fails

/-- A header raises what is handled. -/
lemma header_raises : Raises header Fault.Handled := by
  refine Raises.bind nofun fun line => ?_
  unfold splitLine
  split
  · exact .throw rfl
  · split
    · exact .throw rfl
    · exact .pure _

/-- A bulk string raises what is handled. -/
lemma bulk_raises (size : Nat) : Raises (bulk size) Fault.Handled := by
  refine Raises.bind nofun fun value => ?_
  unfold bulkEnd
  split
  · exact .throw rfl
  · refine Raises.bind nofun fun stop => ?_
    split
    · exact .throw rfl
    · exact .pure _

/-- A sized reply raises what is handled. -/
lemma sized_raises {item : Stream Reply} (h : Raises item Fault.Handled) (kind : Bytes)
    (size : Int) :
    Raises (sized item kind size) Fault.Handled := by
  unfold sized
  split
  · exact .pure _
  split
  · exact .throw rfl
  split
  · split
    · exact .throw rfl
    · exact bulk_raises _
  split
  · exact .throw rfl
  · exact (h.times _).map _

/-- The body of a reply raises what is handled. -/
lemma body_raises {item : Stream Reply} (h : Raises item Fault.Handled) (kind data : Bytes) :
    Raises (body item kind data) Fault.Handled := by
  unfold body
  split
  · exact .pure _
  split
  · exact .pure _
  split
  · exact (number_raises data).map _
  split
  · exact (number_raises data).bind (sized_raises h kind)
  · exact .throw rfl

/-- A reply raises what is handled. -/
lemma readReply_raises (n : Nat) : Raises (readReply n) Fault.Handled := by
  induction n with
  | zero => exact .throw rfl
  | succ n ih => exact header_raises.bind fun x => body_raises ih x.1 x.2

/-! ### States of a connection -/

/-- Nothing is unread on the open stream of a connection, and all that was sent was sent in
whole. -/
def Quiet (s : State) : Prop :=
  ∀ n, s.sock = some n → n.stream = .opened → n.unread = [] ∧ n.torn = false

/-- A quiet connection, whose commands so far were answered as in `log`. -/
structure Calm (log : List (List Bytes × Answer)) (s : State) : Prop where
  quiet : Quiet s
  served : s.served = log

/-- A socket on which nothing was sent. -/
structure Fresh (log : List (List Bytes × Answer)) (s : State) : Prop where
  sock : ∃ n, s.sock = some n ∧ n.unread = [] ∧ n.torn = false
  served : s.served = log

/-- What arrives on the open stream of a connection is at most `tail`. -/
structure Awaits (tail : Bytes) (log : List (List Bytes × Answer)) (s : State) : Prop where
  sock : ∃ n, s.sock = some n ∧ n.stream = .opened ∧ n.torn = false ∧ n.unread <+: tail
  served : s.served = log

/-- There is no socket. -/
structure Dropped (log : List (List Bytes × Answer)) (s : State) : Prop where
  sock : s.sock = none
  served : s.served = log

/-- The start is quiet. -/
lemma State.init_quiet : Quiet State.init := fun _ sock => nomatch (show none = some _ from sock)

section States
variable {log : List (List Bytes × Answer)} {tail : Bytes} {s s' : State}

/-- Drift keeps a quiet state. -/
lemma Quiet.drift (h : Quiet s) (d : Drifts s s') : Quiet s' := by
  cases d with
  | gone unread sock front =>
    rintro n ⟨⟩ opened
    obtain ⟨none, whole⟩ := h _ sock opened
    rw [none] at front
    exact ⟨List.prefix_nil.1 front, whole⟩

/-- Drift keeps a calm state. -/
lemma Calm.drift (h : Calm log s) (d : Drifts s s') : Calm log s' := by
  refine ⟨h.quiet.drift d, ?_⟩
  cases d with
  | gone unread sock front => exact h.served

/-- Drift keeps a fresh state. -/
lemma Fresh.drift (h : Fresh log s) (d : Drifts s s') : Fresh log s' := by
  cases d with
  | gone unread sock front =>
    obtain ⟨m, same, none, whole⟩ := h.sock
    cases sock.symm.trans same
    rw [none] at front
    exact ⟨⟨_, rfl, List.prefix_nil.1 front, whole⟩, h.served⟩

/-- Drift keeps what a state awaits. -/
lemma Awaits.drift (h : Awaits tail log s) (d : Drifts s s') : Awaits tail log s' := by
  cases d with
  | gone unread sock front =>
    obtain ⟨m, same, opened, whole, arrives⟩ := h.sock
    cases sock.symm.trans same
    exact ⟨⟨_, rfl, opened, whole, front.trans arrives⟩, h.served⟩

/-- Drift keeps a connection dropped. -/
lemma Dropped.drift (h : Dropped log s) (d : Drifts s s') : Dropped log s' := by
  cases d with
  | gone unread sock front => cases sock.symm.trans h.sock

/-- A fresh connection is calm. -/
lemma Fresh.calm (h : Fresh log s) : Calm log s := by
  refine ⟨fun n sock _ => ?_, h.served⟩
  obtain ⟨m, same, none, whole⟩ := h.sock
  cases sock.symm.trans same
  exact ⟨none, whole⟩

/-- A state that awaits nothing is calm. -/
lemma Awaits.calm (h : Awaits [] log s) : Calm log s := by
  refine ⟨fun n sock _ => ?_, h.served⟩
  obtain ⟨m, same, _, whole, arrives⟩ := h.sock
  cases sock.symm.trans same
  exact ⟨List.prefix_nil.1 arrives, whole⟩

/-- A state without a connection is calm. -/
lemma Dropped.calm (h : Dropped log s) : Calm log s :=
  ⟨fun _ sock => (nomatch h.sock.symm.trans sock), h.served⟩

end States

/-! ### The methods, call by call -/

/-- What a command returns to its caller. -/
def Answer.value : Answer → Option Reply
  | .reply w _ => some w.reply
  | .malformed _ _ => none

/-- The weakest precondition of a method, where interruptions strike quiet connections only. -/
abbrev wp {α : Type} (Q : α → State → Prop) (E : Raised → State → Prop) (p : Method α) :
    State → Prop :=
  (server Quiet).wp (fun _ => True) Q E p

/-- What the `try` block of a method may raise: something that is handled, unless the connection is
quiet. -/
structure Breaks (e : Raised) (s : State) : Prop where
  quiet : (e.isBroken || e.isProtocol) = true ∨ Quiet s
  first : ∀ cause, e ≠ .transport cause

/-- What a method may raise: the connection is quiet, and after a failure on the wire it is gone. -/
structure Fails (e : Raised) (s : State) : Prop where
  quiet : Quiet s
  dropped : ∀ cause, e = .transport cause → s.sock = none

section Calls
variable {α : Type} {log : List (List Bytes × Answer)} {s : State}

/-- One call, of which something is known that survives the server going. -/
lemma ask_wp {x : Call} {P : State → Prop} {Q : x.Result → State → Prop} {E : Raised → State → Prop}
    (stable : ∀ {s s'}, P s → Drifts s s' → P s') (h : P s)
    (ok : ∀ s₁ a s', P s₁ → Effect x s₁ (.ok a) s' → Q a s')
    (error : ∀ s₁ e s', P s₁ → Effect x s₁ (.error e) s' → E e s')
    (interrupt : ∀ s', Quiet s' → E .interrupt s') :
    wp Q E (ask x) s := by
  refine World.wp_ask fun s₁ drift r s' does => ⟨trivial, ?_⟩
  have known : P s₁ := drifts_many (W := server Quiet) stable drift h
  cases does with
  | effect effect =>
    cases r with
    | ok a => exact ok s₁ a s' known effect
    | error e => exact error s₁ e s' known effect
  | interrupt strikes here => exact interrupt s' here

/-- An interruption breaks in a quiet state. -/
lemma Breaks.interrupt : ∀ s, Quiet s → Breaks .interrupt s := fun _ quiet => ⟨.inr quiet, nofun⟩

/-- A failure of the system breaks anywhere. -/
lemma Breaks.os (s : State) : Breaks .os s := ⟨.inl rfl, nofun⟩

/-- The stream of a quiet connection brings nothing. -/
lemma read_quiet_wp (h : Quiet s) : wp (fun _ _ => False) Breaks (ask .readReply) s := by
  refine ask_wp .drift h ?_ ?_ Breaks.interrupt
  · intro s₁ a s' quiet effect
    cases effect with
    | read sock stream reads =>
      rw [(quiet _ sock stream).1] at reads
      cases reads
  · intro s₁ e s' quiet effect
    cases effect with
    | @readFails _ _ n f sock stream fails skips =>
      rw [(quiet _ sock stream).1] at fails
      cases fails
      exact ⟨.inl rfl, nofun⟩
    | timedOut sock stream skips => exact .os s'
    | readClosed sock stream => exact ⟨.inl rfl, nofun⟩
    | readNone absent => exact ⟨.inr quiet, nofun⟩

/-- What a server sends for a command is read as its reply, or as nothing at all. -/
lemma Answer.reads {a : Answer} {tail q rest : Bytes} {v : Reply} (arrives : q <+: a.bytes ++ tail)
    (reads : readReply 33 q = .ok (v, rest)) : a.value = some v ∧ rest <+: tail := by
  cases a with
  | reply w fits =>
    have framed := readReply_frames fits
    rcases prefix_append_cases arrives with ⟨short, proper⟩ | ⟨q', rfl, arrives'⟩
    · obtain ⟨e, fails⟩ := framed.stops q short proper
      cases fails.symm.trans reads
    · have same := (framed.reads q').symm.trans reads
      cases same
      exact ⟨rfl, arrives'⟩
  | malformed b bad =>
    have part : q <+: b ∨ b <+: q :=
      List.prefix_or_prefix_of_prefix arrives (List.prefix_append _ _)
    obtain ⟨e, fails⟩ := bad q part
    cases fails.symm.trans reads

/-- Reading a reply that is awaited. -/
lemma read_wp {a : Answer} {r : Bytes} (h : Awaits (a.bytes ++ r) log s) :
    wp (fun v s' => a.value = some v ∧ Awaits r log s') Breaks (ask .readReply) s := by
  refine ask_wp .drift h ?_ ?_ Breaks.interrupt
  · intro s₁ v s' awaits effect
    cases effect with
    | @read _ n _ rest sock stream reads =>
      obtain ⟨m, same, opened, whole, arrives⟩ := awaits.sock
      cases sock.symm.trans same
      obtain ⟨value, rest⟩ := Answer.reads arrives reads
      exact ⟨value, ⟨_, rfl, opened, whole, rest⟩, awaits.served⟩
  · intro s₁ e s' awaits effect
    obtain ⟨m, same, opened, _, _⟩ := awaits.sock
    cases effect with
    | @readFails _ _ n f sock stream fails skips =>
      refine ⟨.inl (readReply_raises 33 _ f fails), fun cause same => ?_⟩
      cases f <;> cases same
    | timedOut sock stream skips => exact .os s'
    | readClosed sock stream =>
      cases sock.symm.trans same
      cases stream.symm.trans opened
    | readNone absent => cases (absent m same).symm.trans opened

/-- One `read_reply` for each command. -/
lemma replies_wp {answers : List Answer} (h : Awaits (answers.map Answer.bytes).flatten log s) :
    wp (fun rs s' => answers.map Answer.value = rs.map some ∧ Awaits [] log s') Breaks
      (replies answers.length) s := by
  induction answers generalizing s with
  | nil => exact ⟨rfl, h⟩
  | cons a answers ih =>
    refine (World.wp_bind _ _).2 (World.wp_mono (read_wp h) ?_ fun _ _ breaks => breaks)
    rintro v s₁ ⟨value, awaits⟩
    refine (World.wp_bind _ _).2 (World.wp_mono (ih awaits) ?_ fun _ _ breaks => breaks)
    rintro rs s₂ ⟨values, awaits⟩
    exact ⟨by rw [List.map_cons, List.map_cons, value, values], awaits⟩

/-- Reading replies that nobody sends. -/
lemma replies_quiet_wp {n : Nat} (h : Quiet s) :
    wp (fun _ _ => False) Breaks (replies (n + 1)) s := by
  refine (World.wp_bind _ _).2 (World.wp_mono (read_quiet_wp h) ?_ fun _ _ breaks => breaks)
  exact fun _ _ never => never.elim

/-- What was sent on a quiet connection is answered, unless nothing will be read. -/
lemma sendall_wp {packet : Bytes} (h : Calm log s) :
    wp (fun _ s' => Quiet s' ∨ ∃ (cmds : List (List Bytes)) (answers : List Answer),
      packet = (cmds.map commandBytes).flatten ∧
        answers.length = cmds.length ∧
          Awaits (answers.map Answer.bytes).flatten (log ++ cmds.zip answers) s')
      Breaks (ask (.sendall packet)) s := by
  refine ask_wp .drift h ?_ ?_ Breaks.interrupt
  · intro s₁ _ s' calm effect
    cases effect with
    | sent sent =>
      cases sent with
      | @whole n _ _ cmds sock split serves =>
        by_cases opened : n.stream = .opened
        · obtain ⟨none, whole⟩ := calm.quiet n sock opened
          cases serves with
          | gone gone =>
            refine .inl fun m same _ => ?_
            cases same
            exact ⟨none, whole⟩
          | answers answers length =>
            refine .inr ⟨cmds, answers, split, length, ⟨_, rfl, opened, whole, ?_⟩, ?_⟩
            · rw [none]
              exact List.prefix_refl _
            · rw [calm.served]
          | confused unread torn => cases whole.symm.trans torn
        · refine .inl fun m same opened' => ?_
          cases same
          cases serves with
          | gone gone => exact absurd opened' opened
          | answers answers length => exact absurd opened' opened
          | confused unread torn => exact absurd opened' opened
  · intro s₁ e s' calm effect
    cases effect with
    | notSent torn => exact .os s'
    | sentNone sock => exact ⟨.inr calm.quiet, nofun⟩

/-- Nothing but an interruption, on a quiet connection. -/
structure Interrupted (e : Raised) (s : State) : Prop where
  raised : e = .interrupt
  quiet : Quiet s

/-- Drift serves nothing. -/
lemma served_drift {s s' : State} (h : s.served = log) (d : Drifts s s') : s'.served = log := by
  cases d with
  | gone unread sock front => exact h

/-- An interruption in a quiet state. -/
lemma Interrupted.here : ∀ s, Quiet s → Interrupted .interrupt s := fun _ quiet => ⟨rfl, quiet⟩

/-- A failure to close is ignored. -/
lemma ignoringOs_wp {p : Method Unit}
    (closes : wp (fun _ s' => s'.served = log) (fun e s' => (e = .os ∧ s'.served = log) ∨
      Interrupted e s') p s) :
    wp (fun _ s' => s'.served = log) Interrupted (ignoringOs p) s := by
  refine (World.wp_handle _ _).2 (World.wp_mono closes (fun _ _ served => served) ?_)
  rintro e s' (⟨rfl, served⟩ | ⟨rfl, quiet⟩)
  · exact served
  · exact ⟨rfl, quiet⟩

/-- Closing the stream serves nothing. -/
lemma closeStream_wp (h : s.served = log) :
    wp (fun _ s' => s'.served = log) Interrupted closeStream s := by
  refine (World.wp_bind _ _).2
    (ask_wp served_drift h ?_ (fun _ _ _ _ effect => nomatch effect) Interrupted.here)
  intro s₁ b s' known effect
  cases effect with
  | hasStream =>
    split
    · refine ignoringOs_wp (ask_wp served_drift known ?_ ?_ fun s quiet => .inr ⟨rfl, quiet⟩)
      · intro s₁ _ s' known effect
        cases effect with
        | streamClosed sock => exact known
      · intro s₁ e s' known effect
        cases effect with
        | streamNotClosed => exact .inl ⟨rfl, known⟩
    · exact known

/-- Closing the socket serves nothing. -/
lemma closeSock_wp (h : s.served = log) :
    wp (fun _ s' => s'.served = log) Interrupted closeSock s := by
  refine (World.wp_bind _ _).2
    (ask_wp served_drift h ?_ (fun _ _ _ _ effect => nomatch effect) Interrupted.here)
  intro s₁ b s' known effect
  cases effect with
  | hasSock =>
    split
    · refine ignoringOs_wp (ask_wp served_drift known ?_ ?_ fun s quiet => .inr ⟨rfl, quiet⟩)
      · intro s₁ _ s' known effect
        cases effect with
        | sockClosed => exact known
      · intro s₁ e s' known effect
        cases effect with
        | sockNotClosed => exact .inl ⟨rfl, known⟩
    · exact known

/-- `close` leaves no socket, whatever it finds. -/
lemma close_wp (h : s.served = log) : wp (fun _ s' => Dropped log s') Interrupted close s := by
  refine (World.wp_bind _ _).2 (World.wp_mono (closeStream_wp h) (fun _ s₁ known => ?_)
    fun _ _ e => e)
  refine (World.wp_bind _ _).2 (World.wp_mono (closeSock_wp known) (fun _ s₂ known => ?_)
    fun _ _ e => e)
  refine (World.wp_bind _ _).2 (ask_wp served_drift known (fun s₃ _ s' known effect => ?_)
    (fun _ _ _ _ effect => nomatch effect) Interrupted.here)
  cases effect with
  | dropStream =>
    have dropped : s₃.served = log := known
    refine ask_wp served_drift dropped (fun s₄ _ s' known effect => ?_)
      (fun _ _ _ _ effect => nomatch effect) Interrupted.here
    cases effect with
    | dropSock => exact ⟨rfl, known⟩

/-- A failed `try` block of `pipeline`. -/
lemma exchangeFailed_wp {e : Raised} (h : Breaks e s) {Q : List Reply → State → Prop} :
    wp Q Fails (exchangeFailed e) s := by
  unfold exchangeFailed
  split
  · refine (World.wp_bind _ _).2 (World.wp_mono (close_wp rfl) (fun _ s' dropped => ?_) ?_)
    · exact ⟨dropped.calm.quiet, fun _ _ => dropped.sock⟩
    · rintro e s' ⟨rfl, quiet⟩
      exact ⟨quiet, nofun⟩
  · rename_i other
    exact ⟨h.quiet.resolve_left other, fun cause same => absurd same (h.first cause)⟩

/-- What is computed without the connection. -/
lemma ofExcept_wp {r : Except Exn α} {Q : α → State → Prop} {E : Raised → State → Prop}
    (ok : ∀ a, r = .ok a → Q a s) (error : ∀ e, E (.py e) s) :
    wp Q E (.ofExcept (r.mapError .py)) s := by
  cases r with
  | ok a => exact ok a rfl
  | error e => exact error e

/-- A protocol error is a Redis error. -/
lemma Raised.isRedis_of_isProtocol {e : Raised} (h : e.isProtocol = true) : e.isRedis = true := by
  cases e <;> first | rfl | cases h

/-- A failed `try` block of `connect`. -/
lemma connectFailed_wp {e : Raised} (h : Breaks e s) {Q : Unit → State → Prop} :
    wp Q Fails (connectFailed e) s := by
  unfold connectFailed
  split
  · refine (World.wp_bind _ _).2 (World.wp_mono (close_wp rfl) (fun _ s' dropped => ?_) ?_)
    · split
      · exact ⟨dropped.calm.quiet, fun _ _ => dropped.sock⟩
      · exact ⟨dropped.calm.quiet, fun _ _ => dropped.sock⟩
    · rintro e s' ⟨rfl, quiet⟩
      exact ⟨quiet, nofun⟩
  · rename_i other
    refine ⟨h.quiet.resolve_left fun handled => other ?_,
      fun cause same => absurd same (h.first cause)⟩
    rw [Bool.or_eq_true] at handled ⊢
    exact handled.imp id Raised.isRedis_of_isProtocol

/-- Raising the errors among replies. -/
lemma raiseErrors_wp (rs : List Reply) (h : Calm log s) :
    wp (fun _ s' => Calm log s') Fails (raiseErrors rs) s := by
  induction rs with
  | nil => exact h
  | cons r rs ih =>
    cases r with
    | error m => exact ⟨h.quiet, nofun⟩
    | bytes b => exact ih
    | int n => exact ih
    | none => exact ih
    | list items => exact ih

end Calls

/-! ### The methods as wholes -/

section Methods
variable [Interpreter] {log : List (List Bytes × Answer)} {s : State}

/-- The bytes of arguments are those of their items. -/
lemma encodeArgs_items {args : List Arg} {b : Bytes} (h : encodeArgs args = .ok b) :
    ∃ items, args.mapM Arg.item = .ok items ∧ b = commandBytes items := by
  cases names : args.mapM Arg.item with
  | ok items => exact ⟨items, rfl, encodeArgs_inv names h⟩
  | error e =>
    rw [encodeArgs, names] at h
    split at h
    · cases h
    · cases h

/-- The packet of a pipeline is its commands one after the other. -/
lemma packet_items {commands : List (List Arg)} {p : Bytes} (h : packet commands = .ok p) :
    ∃ items, commands.mapM (List.mapM Arg.item) = .ok items ∧
      p = (items.map commandBytes).flatten := by
  obtain ⟨parts, encodes, h⟩ := bind_ok.1 h
  obtain ⟨items, itemized, rfl⟩ := mapM_factors (fun args b => encodeArgs_items) encodes
  split at h
  · cases h
  · cases h
    exact ⟨items, itemized, rfl⟩

/-- The replies are those that the server gave to exactly these commands. -/
structure Answers (commands : List (List Arg)) (log : List (List Bytes × Answer)) (rs : List Reply)
    (log' : List (List Bytes × Answer)) : Prop where
  own : ∃ items answers, commands.mapM (List.mapM Arg.item) = .ok items ∧
    answers.length = items.length ∧ log' = log ++ items.zip answers ∧
      answers.map Answer.value = rs.map some

/-- An exchange answers its own commands. -/
lemma exchange_wp {commands : List (List Arg)} (some_ : commands ≠ []) (h : Calm log s) :
    wp (fun rs s' => ∃ log', Answers commands log rs log' ∧ Calm log' s') Breaks
      (exchange commands) s := by
  refine (World.wp_bind _ _).2 (ofExcept_wp (fun p packed => ?_) fun e => ⟨.inr h.quiet, nofun⟩)
  obtain ⟨items, itemized, rfl⟩ := packet_items packed
  have length : items.length = commands.length := (mapM_eq_ok itemized).length_eq.symm
  refine (World.wp_bind _ _).2 (ask_wp .drift h (fun s₁ a s₂ calm effect => ?_)
    (fun _ _ _ _ effect => nomatch effect) Breaks.interrupt)
  have calm : Calm log s₂ := by
    cases effect with
    | attempted => exact ⟨calm.quiet, calm.served⟩
  refine (World.wp_bind _ _).2 (World.wp_mono (sendall_wp calm) (fun _ s₃ sent => ?_)
    fun _ _ e => e)
  rcases sent with quiet | ⟨cmds, answers, split, len, awaits⟩
  · obtain ⟨c, cs, rfl⟩ := List.exists_cons_of_ne_nil some_
    exact World.wp_mono (replies_quiet_wp quiet) (fun _ _ never => never.elim) fun _ _ e => e
  · have same : items = cmds := command_delimited.flatten commandBytes_ne_nil split
    subst same
    rw [← length, ← len]
    refine World.wp_mono (replies_wp awaits) ?_ fun _ _ e => e
    rintro rs s₄ ⟨values, awaits⟩
    exact ⟨_, ⟨items, answers, itemized, len, rfl, values⟩, awaits.calm⟩

/-- Authenticating leaves a calm connection. -/
lemma authenticate_wp {password : Str} (h : Calm log s) :
    wp (fun _ s' => ∃ auth, Calm (log ++ auth) s') Breaks (authenticate password) s := by
  refine (World.wp_bind _ _).2 (ofExcept_wp (fun p packed => ?_) fun e => ⟨.inr h.quiet, nofun⟩)
  obtain ⟨items, _, rfl⟩ := encodeArgs_items packed
  refine (World.wp_bind _ _).2 (World.wp_mono (sendall_wp h) (fun _ s₁ sent => ?_) fun _ _ e => e)
  rcases sent with quiet | ⟨cmds, answers, split, len, awaits⟩
  · refine (World.wp_bind _ _).2 (World.wp_mono (read_quiet_wp quiet) (fun _ _ never => never.elim)
      fun _ _ e => e)
  · have one : [items] = cmds := by
      refine command_delimited.flatten commandBytes_ne_nil ((List.append_nil _).trans split)
    subst one
    obtain ⟨a, rfl⟩ := List.length_eq_one_iff.1 len
    refine (World.wp_bind _ _).2 (World.wp_mono (read_wp (r := []) (a := a) awaits) ?_
      fun _ _ e => e)
    rintro v s₂ ⟨_, awaits⟩
    split
    · exact ⟨.inr awaits.calm.quiet, nofun⟩
    · exact ⟨_, awaits.calm⟩
    · exact ⟨.inl rfl, nofun⟩

/-- Opening the socket leaves a calm connection. -/
lemma openSocket_wp {password : Str} (h : Dropped log s) :
    wp (fun _ s' => ∃ auth, Calm (log ++ auth) s') Breaks (openSocket password) s := by
  refine (World.wp_bind _ _).2 (ask_wp .drift h (fun s₁ _ s₂ dropped effect => ?_)
    (fun s₁ e s₂ _ effect => ?_) Breaks.interrupt)
  · have fresh : Fresh log s₂ := by
      cases effect with
      | created => exact ⟨⟨_, rfl, rfl, rfl⟩, dropped.served⟩
    refine (World.wp_bind _ _).2 (ask_wp .drift fresh (fun s₃ _ s₄ fresh effect => ?_)
      (fun s₃ e s₄ _ effect => ?_) Breaks.interrupt)
    · have fresh : Fresh log s₄ := by
        cases effect with
        | noDelay => exact fresh
      refine (World.wp_bind _ _).2 (ask_wp .drift fresh (fun s₅ _ s₆ fresh effect => ?_)
        (fun s₅ e s₆ fresh effect => ?_) Breaks.interrupt)
      · have fresh : Fresh log s₆ := by
          cases effect with
          | makefile sock =>
            obtain ⟨m, same, none, whole⟩ := fresh.sock
            cases sock.symm.trans same
            exact ⟨⟨_, rfl, none, whole⟩, fresh.served⟩
        split
        · exact authenticate_wp fresh.calm
        · exact ⟨[], by rw [List.append_nil]; exact fresh.calm⟩
      · cases effect with
        | makefileNone sock => exact ⟨.inr fresh.calm.quiet, nofun⟩
    · cases effect with
      | noDelayFails => exact .os _
  · cases effect with
    | notCreated => exact .os _

/-- Connecting leaves a calm connection. -/
lemma connect_wp {password : Str} (h : Calm log s) :
    wp (fun _ s' => ∃ auth, Calm (log ++ auth) s') Fails (connect password) s := by
  refine (World.wp_bind _ _).2 (ask_wp .drift h (fun s₁ b s₂ calm effect => ?_)
    (fun _ _ _ _ effect => nomatch effect) fun s quiet => ⟨quiet, nofun⟩)
  cases effect with
  | hasSock =>
    split
    · exact ⟨[], by rw [List.append_nil]; exact calm⟩
    · rename_i absent
      have dropped : Dropped log s₁ := ⟨by simpa using absent, calm.served⟩
      exact (World.wp_handle _ _).2
        (World.wp_mono (openSocket_wp dropped) (fun _ _ connected => connected)
        fun e s' breaks => connectFailed_wp breaks)

/-- A pipeline returns the replies that the server gave to its commands, and leaves the connection
quiet. -/
lemma pipeline_wp {password : Str} {commands : List (List Arg)} {raising : Bool} (h : Calm log s) :
    wp (fun rs s' => ∃ auth log', Answers commands (log ++ auth) rs log' ∧ Calm log' s') Fails
      (pipeline password commands raising) s := by
  unfold pipeline
  split
  · rename_i empty
    subst empty
    exact ⟨[], log, ⟨[], [], rfl, rfl, by simp, rfl⟩, h⟩
  · rename_i some_
    split
    · exact ⟨h.quiet, nofun⟩
    · refine (World.wp_bind _ _).2 (ask_wp .drift h (fun s₁ _ s₂ calm effect => ?_)
        (fun _ _ _ _ effect => nomatch effect) fun s quiet => ⟨quiet, nofun⟩)
      have calm : Calm log s₂ := by
        cases effect with
        | attempted => exact ⟨calm.quiet, calm.served⟩
      refine (World.wp_bind _ _).2 (World.wp_mono (connect_wp calm) ?_ fun _ _ e => e)
      rintro _ s₃ ⟨auth, calm⟩
      refine (World.wp_bind _ _).2
        ((World.wp_handle _ _).2 (World.wp_mono (exchange_wp some_ calm) ?_
        fun e s' breaks => exchangeFailed_wp breaks))
      rintro rs s₄ ⟨log', own, calm⟩
      cases raising with
      | false => exact ⟨auth, log', own, calm⟩
      | true =>
        refine (World.wp_bind _ _).2 (World.wp_mono (raiseErrors_wp rs calm) (fun _ s₅ calm => ?_)
          fun _ _ e => e)
        exact ⟨auth, log', own, calm⟩

/-- What a call on a connection leaves: it returned the replies that the server gave to its own
commands, or it raised, and after a failure on the wire there is no socket. -/
structure Own (c : Command) (before : State) (r : Except Raised (List Reply)) (after : State) :
    Prop where
  replies : ∀ rs, r = .ok rs → ∃ auth, Answers c.commands (before.served ++ auth) rs after.served
  dropped : ∀ cause, r = .error (.transport cause) → after.sock = none

/-- A call that returned its own replies. -/
lemma Own.ok {c : Command} {before after : State} {rs : List Reply} {l : List (List Bytes × Answer)}
    (h : Answers c.commands (before.served ++ l) rs after.served) :
    Own c before (.ok rs) after := by
  refine ⟨?_, nofun⟩
  rintro rs ⟨⟩
  exact ⟨l, h⟩

/-- A call that failed. -/
lemma Own.error {c : Command} {before after : State} {e : Raised} (h : Fails e after) :
    Own c before (.error e) after := by
  refine ⟨nofun, ?_⟩
  rintro cause ⟨⟩
  exact h.dropped cause rfl

/-- Every command ends with its own replies. -/
lemma Command.code_wp (password : Str) (c : Command) (h : Quiet s) :
    wp (fun rs s' => Quiet s' ∧ Own c s (.ok rs) s') (fun e s' => Quiet s' ∧ Own c s (.error e) s')
      (c.code password) s := by
  have fails : ∀ e s', Fails e s' → Quiet s' ∧ Own c s (.error e) s' :=
    fun e s' f => ⟨f.quiet, .error f⟩
  have calm : Calm s.served s := ⟨h, rfl⟩
  cases c with
  | pipeline commands raising =>
    refine World.wp_mono (pipeline_wp calm) ?_ fails
    rintro rs s' ⟨auth, log', own, calm⟩
    exact ⟨calm.quiet, .ok (l := auth) (calm.served ▸ own)⟩
  | execute args =>
    refine (World.wp_bind _ _).2 ((World.wp_bind _ _).2 (World.wp_mono (pipeline_wp calm) ?_ fails))
    rintro rs s' ⟨auth, log', own, calm⟩
    obtain ⟨items, answers, itemized, len, log, values⟩ := own.own
    have one : rs.length = 1 := by
      have length := (mapM_eq_ok itemized).length_eq
      have same := congrArg List.length values
      rw [List.length_map, List.length_map] at same
      exact same.symm.trans (len.trans length.symm)
    obtain ⟨r, rfl⟩ := List.length_eq_one_iff.1 one
    exact ⟨calm.quiet, .ok (l := auth) (calm.served ▸ own)⟩
  | close =>
    refine (World.wp_bind _ _).2 (World.wp_mono (close_wp rfl) (fun _ s' dropped => ?_) ?_)
    · exact ⟨dropped.calm.quiet, .ok (l := []) ⟨[], [], rfl, rfl, by simp [dropped.served], rfl⟩⟩
    · rintro e s' ⟨rfl, quiet⟩
      exact fails _ s' ⟨quiet, nofun⟩

/-- Every command keeps what it promises. -/
lemma verified (password : Str) :
    Verified (server Quiet) (Command.code password) Quiet (fun _ => True) Own where
  begins := fun _ => trivial
  code := fun c s quiet => c.code_wp password quiet
  idle := fun quiet drifts => quiet.drift drifts
  always := fun _ _ => trivial
  drifts := by
    rintro c b r s s' own ⟨⟩
    refine ⟨own.replies, fun cause failed => ?_⟩
    rename_i sock _
    cases sock.symm.trans (own.dropped cause failed)
  killed := by
    rintro s s' _ rfl
    exact fun _ sock _ => nomatch sock

/-- Where interruptions strike quiet connections only, every call that returns has the replies to
its own commands, a call that fails on the wire drops its socket, and nothing is left unread between
calls. -/
theorem in_sync {password : Str} {s : Config (server Quiet) Command (List Reply)}
    (reach : Reachable (Command.code password) State.init s) :
    (s.running = none → Quiet s.state) ∧ ∀ e ∈ s.log, Own e.command e.before e.result e.after := by
  have sound := (verified password).sound State.init_quiet reach
  exact ⟨sound.idle, sound.log⟩

end Methods

/-! ### Runs -/

/-- What decides how a call is answered: nothing, an interruption before it, a reply that does not
come in time, or the answers of the server. -/
inductive Choice where
  | go
  | strike
  | late
  | serve (cmds : List (List Bytes)) (answers : List Answer)

/-- A server that answers as it is told. -/
def respond (x : Call) (s : State) (c : Choice) : Except Raised x.Result × State :=
  match x with
  | .hasSock => (.ok s.sock.isSome, s)
  | .hasStream => (.ok (s.sock.any fun n => decide (n.stream ≠ .absent)), s)
  | .createConnection => (.ok (), { s with sock := some ⟨.absent, [], false, false⟩ })
  | .setNoDelay => (.ok (), s)
  | .makefile => match s.sock with
    | some n => (.ok (), { s with sock := some { n with stream := .opened } })
    | none => (.error (.py .attributeError), s)
  | .attempted b => (.ok (), { s with sendAttempted := b })
  | .sendall packet => match s.sock, c with
    | none, _ => (.error (.py .attributeError), s)
    | some n, .serve cmds answers =>
      if packet = (cmds.map fun items => (command items).serialize).flatten ∧
        answers.length = cmds.length then
        (.ok (), { s with
          sock := some { n with unread := n.unread ++ (answers.map Answer.bytes).flatten }
          served := s.served ++ cmds.zip answers })
      else (.error .os, { s with
        sock := some { n with unread := n.unread ++ [], torn := true }
        served := s.served ++ [] })
    | some n, _ => (.error .os, { s with
      sock := some { n with unread := n.unread ++ [], torn := true }
      served := s.served ++ [] })
  | .readReply => match s.sock with
    | some n => match n.stream with
      | .opened => match c, readReply 33 n.unread with
        | .late, _ => (.error .os, { s with sock := some { n with unread := n.unread } })
        | _, .ok (v, rest) => (.ok v, { s with sock := some { n with unread := rest } })
        | _, .error f => (.error f.raised, { s with sock := some { n with unread := n.unread } })
      | .closed => (.error (.py (.valueError "I/O operation on closed file")), s)
      | .absent => (.error (.py .attributeError), s)
    | none => (.error (.py .attributeError), s)
  | .closeStream => match s.sock with
    | some n => (.ok (), { s with sock := some { n with stream := .closed } })
    | none => (.error .os, s)
  | .closeSock => (.ok (), s)
  | .dropStream => (.ok (), { s with sock := s.sock.map ({ · with stream := .absent }) })
  | .dropSock => (.ok (), { s with sock := none })

/-- Nothing of a packet arrives. -/
lemma Torn.nothing {packet : Bytes} {s : State} {n : Session} (sock : s.sock = some n) :
    Torn packet s { s with
      sock := some { n with unread := n.unread ++ [], torn := true }
      served := s.served ++ [] } :=
  .part [] packet sock rfl (.answers [] rfl)

/-- The server of the example has the effects it shows. -/
lemma respond_effect (x : Call) (s : State) (c : Choice) :
    Effect x s (respond x s c).1 (respond x s c).2 := by
  cases x with
  | hasSock => exact .hasSock s
  | hasStream => exact .hasStream s
  | createConnection => exact .created s
  | setNoDelay => exact .noDelay s
  | makefile =>
    unfold respond
    dsimp only
    split
    · exact .makefile ‹_›
    · exact .makefileNone ‹_›
  | attempted b => exact .attempted s b
  | sendall packet =>
    unfold respond
    dsimp only
    split
    · exact .sentNone ‹_›
    · rename_i n cmds answers sock
      split
      · rename_i h
        exact .sent (.whole cmds sock h.1 (.answers answers h.2))
      · exact .notSent (.nothing sock)
    · exact .notSent (.nothing ‹_›)
  | readReply =>
    unfold respond
    dsimp only
    split
    · rename_i n sock
      split
      · rename_i opened
        split
        · exact .timedOut sock opened (.part n.unread sock (List.suffix_refl _))
        · exact .read sock opened ‹_›
        · exact .readFails sock opened ‹_› (.part n.unread sock (List.suffix_refl _))
      · exact .readClosed sock ‹_›
      · refine .readNone fun m same => ?_
        cases sock.symm.trans same
        assumption
    · rename_i sock
      exact .readNone fun m same => (nomatch sock.symm.trans same)
  | closeStream =>
    unfold respond
    dsimp only
    split
    · exact .streamClosed ‹_›
    · exact .streamNotClosed s
  | closeSock => exact .sockClosed s
  | dropStream => exact .dropStream s
  | dropSock => exact .dropSock s

/-- The first choice of a script decides a call; an interruption strikes if it may. -/
def follow (may : Bool) (x : Call) (s : State) :
    List Choice → Except Raised x.Result × State × List Choice
  | .strike :: script => if may then (.error .interrupt, s, script) else
    ((respond x s .strike).1, (respond x s .strike).2, script)
  | c :: script => ((respond x s c).1, (respond x s c).2, script)
  | [] => ((respond x s .go).1, (respond x s .go).2, [])

/-- The server of the example does what a server may. -/
lemma follow_does {allowed : State → Prop} {may : Bool} (h : may = true → ∀ s, allowed s)
    (x : Call) (s : State)
    (script : List Choice) : Does allowed x s (follow may x s script).1
    (follow may x s script).2.1 := by
  unfold follow
  split
  · split
    · exact .interrupt (.before x s) (h ‹_› s)
    · exact .effect (respond_effect ..)
  · exact .effect (respond_effect ..)
  · exact .effect (respond_effect ..)

/-- Surroundings that follow a script. -/
def scripted {allowed : State → Prop} (may : Bool) (h : may = true → ∀ s, allowed s) :
    Oracle (server allowed) (List Choice) where
  answer := follow may
  does := follow_does h

section Runs
attribute [local instance] reference

/-- `GET` of a key with one letter. -/
def get (key : UInt8) : Command := .pipeline [[.bytes [71, 69, 84], .bytes [key]]] true

/-- The server answers with the key. -/
def echo (key : UInt8) (plain : 10 ∉ [key]) : Choice :=
  .serve [[[71, 69, 84], [key]]] [.reply (.simple [key]) (.simple plain (by simp))]

/-- The reply to the first command is not there in time, and the second goes over a new
connection. -/
def timedOut : List Choice :=
  [.go, .go, .go, .go, .go, .go, echo 97 (by decide), .late, .go, .go, .go, .go, .go, .go, .go, .go,
    .go, .go, .go, .go, echo 98 (by decide)]

def abandoned : List (Ended (server Quiet) Command (List Reply)) :=
  ((@scripted Quiet false (by simp)).runAll (Command.code []) [get 97,
    get 98] State.init timedOut).1

/-- `in_sync` for a command that is abandoned and one that follows: the first has raised and dropped
its socket, and the second has its own reply though the first one is answered too. -/
theorem in_sync_abandoned : (∀ e ∈ abandoned, Own e.command e.before e.result e.after) ∧
    abandoned.map (fun e => (e.result.isOk, e.after.sock.isSome, e.after.served.map Prod.fst)) =
      [(false, false, [[[71, 69, 84], [97]]]),
        (true, true, [[[71, 69, 84], [97]], [[71, 69, 84], [98]]])] := by
  have fresh : Reachable (W := server Quiet) (Command.code []) State.init ⟨State.init, none, []⟩ :=
    .init
  have reach :=
    Oracle.runAll_reachable (O := @scripted Quiet false (by simp)) [get 97, get 98] timedOut fresh
  exact ⟨fun e m => (in_sync reach).2 e (List.mem_append_right _ m), by decide⟩

/-- The first command is interrupted before its reply is read, and the second returns that reply. -/
def interrupted : List Choice :=
  [.go, .go, .go, .go, .go, .go, echo 97 (by decide), .strike, .go, .go, .go, echo 98 (by decide)]

/-- An interruption between request and reply mixes them up. -/
theorem interrupted_out_of_sync :
    ¬∀ (password : Str) (s : Config (server fun _ => True) Command (List Reply)),
      Reachable (Command.code password) State.init s →
        ∀ e ∈ s.log, Own e.command e.before e.result e.after := by
  intro claimed
  have fresh : Reachable (W := server fun _ => True) (Command.code []) State.init ⟨State.init,
    none, []⟩ := .init
  have reach :=
    Oracle.runAll_reachable (O := scripted true fun _ _ => trivial) [get 97,
      get 98] interrupted fresh
  have own :=
    claimed _ _ reach _ (List.mem_append_right _ (List.mem_cons_of_mem _ List.mem_cons_self))
  obtain ⟨auth, answers⟩ := own.replies [.bytes [97]] rfl
  obtain ⟨items, answers, _, len, log, values⟩ := answers.own
  have one : answers.length = 1 := by
    have same := congrArg List.length values
    rwa [List.length_map, List.length_map] at same
  obtain ⟨x, rfl⟩ := List.length_eq_one_iff.1 one
  obtain ⟨i, rfl⟩ := List.length_eq_one_iff.1 (len.symm.trans one)
  -- The server's answer to the second command is not the reply that it returned.
  have last := congrArg (List.map Prod.snd) log
  rw [List.map_append] at last
  have served := congrArg (List.map Answer.value ·.getLast?.toList) last
  rw [List.zip_cons_cons, List.map_cons, List.zip_nil_left, List.map_nil,
    List.getLast?_concat] at served
  cases served.trans values

end Runs

end DbLab.Redis
