import DbLab.Proc.Program
import DbLab.Redis.Framing

/-!
# `Connection` (`resp.py`)

The programs of a connection and the server at its other end. A server answers the commands that
arrive in whole, in order, with a reply or with something malformed, and may be gone at any time.
Every call of a program may fail, and an interruption may be raised inside it, before, after or in
the middle of its effect.
-/

namespace DbLab.Redis
open DbLab.Py DbLab.Data DbLab.Proc

/-- What a method of `Connection` raises. -/
inductive Raised where
  | py (e : Exn)
  | os
  | eof (message : String)
  | protocol (message : String)
  | unsupported (kind : Bytes)
  | server (message : Str)
  | transport (cause : Raised)
  | interrupt

/-- What `read_reply` raises, as an exception of the connection. -/
def Fault.raised : Fault → Raised
  | .protocol m => .protocol m
  | .unsupported k => .unsupported k
  | .eof m => .eof m
  | .value e => .py e

/-- `isinstance(exc, RedisError)` -/
def Raised.isRedis : Raised → Bool
  | .protocol _ | .unsupported _ | .server _ | .transport _ => true
  | _ => false

/-- `except (OSError, EOFError, ValueError)` -/
def Raised.isBroken : Raised → Bool
  | .os | .eof _ => true
  | .py e => e.isValueError
  | _ => false

/-- `except ProtocolError` -/
def Raised.isProtocol : Raised → Bool
  | .protocol _ | .unsupported _ => true
  | _ => false

/-! ### The wire -/

/-- What a server sends for a command: a reply, or something that is none, however much of it
arrives. -/
inductive Answer where
  | reply (w : Wire) (fits : w.Fits 32)
  | malformed (b : Bytes) (bad : ∀ q, q <+: b ∨ b <+: q → ∃ e, readReply 33 q = .error e)

def Answer.bytes : Answer → Bytes
  | .reply w _ => w.serialize
  | .malformed b _ => b

/-- The reader `self.stream`. -/
inductive Reading where
  | absent
  | opened
  | closed
deriving DecidableEq

/-- A socket: what has arrived or will arrive and is not read, whether a command was cut off while
it was sent, and whether the server is gone. -/
structure Session where
  stream : Reading
  unread : Bytes
  torn : Bool
  gone : Bool

/-- The attributes of a connection, and all commands it had answered. -/
structure State where
  sock : Option Session
  sendAttempted : Bool
  served : List (List Bytes × Answer)

/-- A connection as `__init__` leaves it. -/
def State.init : State := ⟨none, false, []⟩

inductive Call where
  | hasSock
  | hasStream
  | createConnection
  | setNoDelay
  | makefile
  | attempted (b : Bool)
  | sendall (packet : Bytes)
  | readReply
  | closeStream
  | closeSock
  | dropStream
  | dropSock

abbrev Call.Result : Call → Type
  | .hasSock | .hasStream => Bool
  | .readReply => Reply
  | _ => Unit

def calls : Interface := ⟨Call, Call.Result⟩

/-- The server receives `cmds` in whole and answers them, if it is still there. -/
inductive Serves (cmds : List (List Bytes)) (n : Session) (served : List (List Bytes × Answer)) :
    Session → List (List Bytes × Answer) → Prop where
  | gone (h : n.gone = true) : Serves cmds n served n served
  | answers (answers : List Answer) (length : answers.length = cmds.length) :
    Serves cmds n served { n with unread := n.unread ++ (answers.map Answer.bytes).flatten }
      (served ++ cmds.zip answers)
  | confused (unread : Bytes) (h : n.torn = true) : Serves cmds n served { n with unread } served

/-- A packet arrives in whole. -/
inductive Sent (packet : Bytes) : State → State → Prop where
  | whole {s n n' served'} (cmds : List (List Bytes)) (sock : s.sock = some n)
      (split : packet = (cmds.map fun items => (command items).serialize).flatten)
      (serves : Serves cmds n s.served n' served') :
    Sent packet s { s with sock := some n', served := served' }

/-- Only a part of a packet arrives. -/
inductive Torn (packet : Bytes) : State → State → Prop where
  | part {s n n' served'} (cmds : List (List Bytes)) (rest : Bytes) (sock : s.sock = some n)
      (split : packet = (cmds.map fun items => (command items).serialize).flatten ++ rest)
      (serves : Serves cmds n s.served n' served') :
    Torn packet s { s with sock := some { n' with torn := true }, served := served' }

/-- A reader that fails or is interrupted may have taken any part of what there is. -/
inductive Skips : State → State → Prop where
  | part {s n} (unread : Bytes) (sock : s.sock = some n) (rest : unread <:+ n.unread) :
    Skips s { s with sock := some { n with unread } }

/-- The answers to a call that is not interrupted. -/
inductive Effect : (x : Call) → State → Except Raised x.Result → State → Prop where
  | hasSock (s) : Effect .hasSock s (.ok s.sock.isSome) s
  | hasStream (s) : Effect .hasStream s (.ok (s.sock.any fun n => decide (n.stream ≠ .absent))) s
  | created (s) : Effect .createConnection s (.ok ())
      { s with sock := some ⟨.absent, [], false, false⟩ }
  | notCreated (s) : Effect .createConnection s (.error .os) s
  | noDelay (s) : Effect .setNoDelay s (.ok ()) s
  | noDelayFails (s) : Effect .setNoDelay s (.error .os) s
  | makefile {s n} (sock : s.sock = some n) :
    Effect .makefile s (.ok ()) { s with sock := some { n with stream := .opened } }
  | makefileNone {s} (sock : s.sock = none) : Effect .makefile s (.error (.py .attributeError)) s
  | attempted (s) (b : Bool) : Effect (.attempted b) s (.ok ()) { s with sendAttempted := b }
  | sent {packet s s'} (h : Sent packet s s') : Effect (.sendall packet) s (.ok ()) s'
  | notSent {packet s s'} (h : Torn packet s s') : Effect (.sendall packet) s (.error .os) s'
  | sentNone {packet s} (sock : s.sock = none) : Effect (.sendall packet) s
      (.error (.py .attributeError)) s
  | read {s n v rest} (sock : s.sock = some n) (stream : n.stream = .opened)
      (reads : readReply 33 n.unread = .ok (v, rest)) :
    Effect .readReply s (.ok v) { s with sock := some { n with unread := rest } }
  | readFails {s s' n f} (sock : s.sock = some n) (stream : n.stream = .opened)
      (fails : readReply 33 n.unread = .error f) (skips : Skips s s') : Effect .readReply s
        (.error f.raised) s'
  | timedOut {s s' n} (sock : s.sock = some n) (stream : n.stream = .opened) (skips : Skips s s') :
    Effect .readReply s (.error .os) s'
  | readClosed {s n} (sock : s.sock = some n) (stream : n.stream = .closed) :
    Effect .readReply s (.error (.py (.valueError "I/O operation on closed file"))) s
  | readNone {s} (stream : ∀ n, s.sock = some n → n.stream = .absent) :
    Effect .readReply s (.error (.py .attributeError)) s
  | streamClosed {s n} (sock : s.sock = some n) :
    Effect .closeStream s (.ok ()) { s with sock := some { n with stream := .closed } }
  | streamNotClosed (s) : Effect .closeStream s (.error .os) s
  | sockClosed (s) : Effect .closeSock s (.ok ()) s
  | sockNotClosed (s) : Effect .closeSock s (.error .os) s
  | dropStream (s) : Effect .dropStream s (.ok ())
      { s with sock := s.sock.map ({ · with stream := .absent }) }
  | dropSock (s) : Effect .dropSock s (.ok ()) { s with sock := none }

/-- Where an interruption may strike: before a call, in the middle of it, or after it. -/
inductive Strikes : (x : Call) → State → State → Prop where
  | before (x s) : Strikes x s s
  | sending {packet s s'} (h : Torn packet s s') : Strikes (.sendall packet) s s'
  | reading {s s'} (h : Skips s s') : Strikes .readReply s s'
  | after {x s r s'} (h : Effect x s r s') : Strikes x s s'

/-- A call answers, or an interruption is raised in a state in which one is allowed. -/
inductive Does (allowed : State → Prop) (x : Call) :
    State → Except Raised x.Result → State → Prop where
  | effect {s r s'} (h : Effect x s r s') : Does allowed x s r s'
  | interrupt {s s'} (h : Strikes x s s') (here : allowed s') : Does allowed x s
      (.error .interrupt) s'

/-- The server goes, and a part of what it sent is lost. -/
inductive Drifts : State → State → Prop where
  | gone {s n} (unread : Bytes) (sock : s.sock = some n) (front : unread <+: n.unread) :
    Drifts s { s with sock := some { n with unread, gone := true } }

/-- The surroundings of a connection. Interruptions strike only in states that are `allowed`. -/
def server (allowed : State → Prop) : World calls Raised where
  State := State
  does := Does allowed
  drifts := Drifts
  killed := fun s s' => s' = { s with sock := none, sendAttempted := false }

/-! ### The methods -/

section Methods
variable [Interpreter]

abbrev Method (α : Type) := Prog calls Raised α

def ask (x : Call) : Method x.Result := Prog.ask (I := calls) x

/-- `try: … except OSError: pass` -/
def ignoringOs (p : Method Unit) : Method Unit :=
  tryCatch p fun e => match e with
    | .os => pure ()
    | e => throw e

/-- `if self.stream is not None` -/
def closeStream : Method Unit := do
  if ← ask .hasStream then ignoringOs (ask .closeStream) else pure ()

/-- `if self.sock is not None` -/
def closeSock : Method Unit := do
  if ← ask .hasSock then ignoringOs (ask .closeSock) else pure ()

def close : Method Unit := do
  closeStream
  closeSock
  ask .dropStream
  ask .dropSock

/-- A result of `encode`. -/
def encoded (args : List Arg) : Method Bytes := .ofExcept ((encodeArgs args).mapError .py)

/-- `AUTH` on a new connection. -/
def authenticate (password : Str) : Method Unit := do
  let packet ← encoded [.value (.str (str "AUTH")), .value (.str password)]
  ask (.sendall packet)
  match ← ask .readReply with
  | .error m => throw (.server m)
  | .bytes [79, 75] => pure ()
  | _ => throw (.protocol "AUTH did not return OK")

/-- The `try` block of `connect`. -/
def openSocket (password : Str) : Method Unit := do
  ask .createConnection
  ask .setNoDelay
  ask .makefile
  if password ≠ [] then authenticate password

def connectFailed (e : Raised) : Method Unit :=
  if e.isBroken || e.isRedis then do
    close
    if e.isRedis then throw e else throw (.transport e)
  else throw e

def connect (password : Str) : Method Unit := do
  if ← ask .hasSock then pure () else tryCatch (openSocket password) connectFailed

/-- One `read_reply` for each command. -/
def replies : Nat → Method (List Reply)
  | 0 => pure []
  | n + 1 => do
    let r ← ask .readReply
    let rs ← replies n
    pure (r :: rs)

/-- The first error reply is raised. -/
def raiseErrors : List Reply → Method Unit
  | [] => pure ()
  | .error m :: _ => throw (.server m)
  | _ :: rs => raiseErrors rs

/-- The packet of a pipeline. -/
def packet (commands : List (List Arg)) : Except Exn Bytes := do
  let parts ← commands.mapM encodeArgs
  if 4 * 1024 * 1024 < parts.flatten.length then
    throw (.valueError "Pipeline request limit is 4MiB")
  else pure parts.flatten

/-- The `try` block of `pipeline`. -/
def exchange (commands : List (List Arg)) : Method (List Reply) := do
  let packet ← .ofExcept ((packet commands).mapError .py)
  ask (.attempted true)
  ask (.sendall packet)
  replies commands.length

def exchangeFailed (e : Raised) : Method (List Reply) :=
  if e.isBroken || e.isProtocol then do
    close
    throw (.transport e)
  else throw e

/-- `pipeline(commands, raise_errors)` -/
def pipeline (password : Str) (commands : List (List Arg)) (raising : Bool) : Method (List Reply) :=
  do
  if commands = [] then pure []
  else if 1024 < commands.length then throw (.py (.valueError "Pipeline limit is 1024 commands"))
  else
    ask (.attempted false)
    connect password
    let rs ← tryCatch (exchange commands) exchangeFailed
    if raising then raiseErrors rs
    pure rs

/-- `execute(*args)` -/
def execute (password : Str) (args : List Arg) : Method Reply := do
  match ← pipeline password [args] true with
  | r :: _ => pure r
  | [] => throw (.py .indexError)

/-- What is called on a connection. -/
inductive Command where
  | pipeline (commands : List (List Arg)) (raising : Bool)
  | execute (args : List Arg)
  | close

/-- The commands that a call has answered. -/
def Command.commands : Command → List (List Arg)
  | .pipeline commands _ => commands
  | .execute args => [args]
  | .close => []

/-- A call on a connection, with its replies: those of `pipeline`, or the one of `execute`. -/
def Command.code (password : Str) : Command → Method (List Reply)
  | .pipeline commands raising => Redis.pipeline password commands raising
  | .execute args => do
    let r ← Redis.execute password args
    pure [r]
  | .close => do
    Redis.close
    pure []

end Methods

end DbLab.Redis
