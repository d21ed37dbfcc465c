import DbLab.Data.Framing
import DbLab.Py.Int
import DbLab.Py.Value

/-!
# RESP2 (`resp.py`)

`encode` writes a command and `read_reply` reads a reply off the stream of a connection. A reader
that raises leaves the stream wherever it stood.
-/

namespace DbLab.Redis
open DbLab.Py DbLab.Data

/-- What `read_reply` raises. -/
inductive Fault where
  | protocol (message : String)
  | unsupported (kind : Bytes)
  | eof (message : String)
  | value (e : Exn)
deriving DecidableEq

/-- What `read_reply` returns; an error reply is a `ServerError` among the values. -/
inductive Reply where
  | bytes (b : Bytes)
  | error (message : Str)
  | int (n : Int)
  | none
  | list (items : List Reply)

abbrev Stream := Reader UInt8 Fault

def crlf : Bytes := [13, 10]

/-- The front of a stream up to and including the first newline, but at most `n` bytes, and the
rest. -/
def takeLine : Nat → Bytes → Bytes × Bytes
  | 0, r => ([], r)
  | _, [] => ([], [])
  | n + 1, b :: r => if b = 10 then ([b], r) else (b :: (takeLine n r).1, (takeLine n r).2)

/-- `stream.readline(n)` -/
def readline (n : Nat) : Stream Bytes := fun s => .ok (takeLine n s)

/-- `stream.read(n)` -/
def read (n : Nat) : Stream Bytes := fun s => .ok (s.take n, s.drop n)

/-- `int(data)` -/
def number (data : Bytes) : Stream Int :=
  match intOfBytes data with
  | .ok n => pure n
  | .error e => throw (.value e)

/-- The type byte of a line and what is between that and the line end. -/
def splitLine (line : Bytes) : Stream (Bytes × Bytes) :=
  if line = [] then throw (.eof "Redis closed the connection")
  else if 65536 < line.length ∨ ¬crlf.isSuffixOf line then throw (.protocol "Invalid RESP line")
  else pure (line.take 1, (line.take (line.length - 2)).drop 1)

/-- The first line of a reply. -/
def header : Stream (Bytes × Bytes) := do
  let line ← readline 65537
  splitLine line

/-- The end of a bulk string. -/
def bulkEnd (size : Nat) (value : Bytes) : Stream Reply :=
  if value.length ≠ size then throw (.protocol "Truncated bulk reply")
  else do
    let stop ← read 2
    if stop ≠ crlf then throw (.protocol "Truncated bulk reply") else pure (.bytes value)

/-- What follows the first line of a bulk string. -/
def bulk (size : Nat) : Stream Reply := do
  let value ← read size
  bulkEnd size value

/-- A bulk string or an array of the given size. -/
def sized (item : Stream Reply) (kind : Bytes) (size : Int) : Stream Reply :=
  if size = -1 then pure .none
  else if size < 0 then throw (.protocol "Negative RESP length")
  else if kind = [36] then
    if 128 * 1024 * 1024 < size then throw (.protocol "Bulk reply exceeds lab limit")
      else bulk size.toNat
  else if 1000000 < size then throw (.protocol "Array exceeds lab limit")
  else .list <$> Reader.times item size.toNat

/-- A reply behind its first line. -/
def body (item : Stream Reply) (kind data : Bytes) : Stream Reply :=
  if kind = [43] then pure (.bytes data)
  else if kind = [45] then pure (.error (decodeReplace data))
  else if kind = [58] then .int <$> number data
  else if kind = [36] ∨ kind = [42] then do
    let size ← number data
    sized item kind size
  else throw (.unsupported kind)

/-- `read_reply(stream, depth)`, with `levels` left up to depth 33. -/
def readReply : Nat → Stream Reply
  | 0 => throw (.protocol "Excessive RESP nesting")
  | levels + 1 => do
    let (kind, data) ← header
    body (readReply levels) kind data

/-! ### Commands -/

section Commands
variable [Interpreter]

/-- An argument of a command. -/
inductive Arg where
  | bytes (b : Bytes)
  | value (v : Value)

/-- The bytes of an argument: `str(arg).encode()` for text and numbers. -/
def Arg.item : Arg → Except Exn Bytes
  | .bytes b => .ok b
  | .value (.str s) => encode s
  | .value (.int n) => do encode (← intRepr n)
  | .value (.float x) => encode (Interpreter.repr x)
  | .value (.bool b) => encode (str (if b then "True" else "False"))
  | .value _ => .error .typeError

def part (item : Bytes) : Bytes := 36 :: decimal item.length ++ crlf ++ item ++ crlf

/-- `encode(args)` -/
def encodeArgs (args : List Arg) : Except Exn Bytes := do
  if args = [] then throw (.valueError "Empty Redis command")
  else
    let items ← args.mapM Arg.item
    pure (42 :: decimal items.length ++ crlf ++ (items.map part).flatten)

end Commands

end DbLab.Redis
