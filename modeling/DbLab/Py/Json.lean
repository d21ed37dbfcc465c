import DbLab.Py.Value

/-!
# JSON text

`json.dumps(..., ensure_ascii=False)` and `json.loads`. The writer has the options the modelled code
passes (`separators`, `sort_keys`, `allow_nan`); the reader has the two hooks it passes
(`object_pairs_hook`, `parse_constant`) and the interpreter's recursion limit.
-/

namespace DbLab.Py

/-- `sys.get_int_max_str_digits()`: longer integers are refused in both directions. -/
def maxStrDigits : Nat := 4300

def digitChars (n : Nat) : Str :=
  if n = 0 then [48] else (Nat.digits 10 n).reverse.map (48 + ·)

/-- `int.__repr__` -/
def intRepr (n : Int) : Except Exn Str :=
  let ds := digitChars n.natAbs
  if maxStrDigits < ds.length then
    .error (.valueError "Exceeds the limit for integer string conversion")
  else .ok (if n < 0 then 45 :: ds else ds)

def hexDigit (n : Nat) : Nat := if n < 10 then 48 + n else 87 + n

/-- One character of a JSON string; only quotes, backslashes and control characters are escaped. -/
def escapeChar (c : Nat) : Str :=
  if c = 34 then str "\\\""
  else if c = 92 then str "\\\\"
  else if c = 10 then str "\\n"
  else if c = 13 then str "\\r"
  else if c = 9 then str "\\t"
  else if c = 12 then str "\\f"
  else if c = 8 then str "\\b"
  else if c < 32 then str "\\u00" ++ [hexDigit (c / 16), hexDigit (c % 16)]
  else [c]

def quote (s : Str) : Str := 34 :: (s.flatMap escapeChar ++ [34])

/-- The order of `sort_keys`: code point by code point. -/
def strLe : Str → Str → Bool
  | [], _ => true
  | _ :: _, [] => false
  | a :: s, b :: t => a < b || (a = b && strLe s t)

def insertByKey {V : Type} (e : Str × V) : List (Str × V) → List (Str × V)
  | [] => [e]
  | e' :: ms => if strLe e.1 e'.1 then e :: e' :: ms else e' :: insertByKey e ms

def sortByKey {V : Type} : List (Str × V) → List (Str × V)
  | [] => []
  | e :: ms => insertByKey e (sortByKey ms)

/-- The options of `json.dumps`: `compact` is `separators=(",", ":")`. -/
structure Dump where
  compact : Bool := false
  sortKeys : Bool := false
  allowNan : Bool := true

def Dump.itemSep (o : Dump) : Str := if o.compact then [44] else [44, 32]
def Dump.keySep (o : Dump) : Str := if o.compact then [58] else [58, 32]
def Dump.order {V : Type} (o : Dump) (ms : List (Str × V)) : List (Str × V) :=
  if o.sortKeys then sortByKey ms else ms

variable [Interpreter]

/-- `d[k] = v` on a dictionary with string keys: a key that is already there keeps its place. -/
def insertKey {V : Type} (k : Str) (v : V) : List (Str × V) → List (Str × V)
  | [] => [(k, v)]
  | e :: ms => if e.1 = k then (k, v) :: ms else e :: insertKey k v ms

/-- `dict(pairs)` -/
def dictOf (pairs : List (Str × Value)) : Value :=
  .dict (pairs.foldl (fun ms e => insertKey e.1 e.2 ms) [])

def floatRepr (o : Dump) (x : Interpreter.Float) : Except Exn Str :=
  match Interpreter.view x with
  | .finite _ => .ok (Interpreter.repr x)
  | special =>
    if o.allowNan then .ok (match special with
      | .inf false => str "Infinity"
      | .inf true => str "-Infinity"
      | _ => str "NaN")
    else .error (.valueError "Out of range float values are not JSON compliant")

mutual
/-- `json.dumps(v, ensure_ascii=False, ...)` -/
def dumps (o : Dump) : Value → Except Exn Str
  | .null => .ok (str "null")
  | .bool b => .ok (if b then str "true" else str "false")
  | .int n => intRepr n
  | .float x => floatRepr o x
  | .str s => .ok (quote s)
  | .list xs => do return 91 :: (o.itemSep.intercalate (← dumpsList o xs) ++ [93])
  | .dict ms => do
    let ts := o.order (← dumpsDict o ms)
    return 123 :: (o.itemSep.intercalate (ts.map fun t => quote t.1 ++ o.keySep ++ t.2) ++ [125])
def dumpsList (o : Dump) : List Value → Except Exn (List Str)
  | [] => .ok []
  | x :: xs => do return (← dumps o x) :: (← dumpsList o xs)
def dumpsDict (o : Dump) : List (Str × Value) → Except Exn (List (Str × Str))
  | [] => .ok []
  | (k, v) :: ms => do return (k, ← dumps o v) :: (← dumpsDict o ms)
end

/-- `JSONDecodeError` -/
def decodeError : Exn := .valueError "JSONDecodeError"

def whitespace (c : Nat) : Bool := c = 32 || c = 9 || c = 10 || c = 13
def skipWs (s : Str) : Str := s.dropWhile whitespace

def hexVal (c : Nat) : Option Nat :=
  if isDigit c then some (c - 48)
  else if 97 ≤ c ∧ c < 103 then some (c - 87)
  else if 65 ≤ c ∧ c < 71 then some (c - 55)
  else none

def hex4 (a b c d : Nat) : Option Nat :=
  match hexVal a, hexVal b, hexVal c, hexVal d with
  | some a, some b, some c, some d => some (((a * 16 + b) * 16 + c) * 16 + d)
  | _, _, _, _ => none

/-- The character a one-letter escape stands for. -/
def unescape (c : Nat) : Option Nat :=
  if c = 34 ∨ c = 92 ∨ c = 47 then some c
  else if c = 98 then some 8
  else if c = 102 then some 12
  else if c = 110 then some 10
  else if c = 114 then some 13
  else if c = 116 then some 9
  else none

/-- The characters of a string behind its opening quote, each with whether a `\u` escape wrote
it. -/
def scanUnits : Str → Option (List (Nat × Bool) × Str)
  | [] => none
  | c :: r =>
    if c = 34 then some ([], r)
    else if c < 32 then none
    else if c ≠ 92 then (scanUnits r).map fun p => ((c, false) :: p.1, p.2)
    else match r with
      | [] => none
      | e :: r =>
        if e = 117 then match r with
          | a :: b :: c :: d :: r => match hex4 a b c d with
            | some u => (scanUnits r).map fun p => ((u, true) :: p.1, p.2)
            | none => none
          | _ => none
        else match unescape e with
          | some u => (scanUnits r).map fun p => ((u, false) :: p.1, p.2)
          | none => none

/-- An escaped surrogate pair is one code point; a lone surrogate stays. -/
def joinUnits : List (Nat × Bool) → Str
  | (u, esc) :: (l, esc') :: r =>
    if esc && esc' && 0xD800 ≤ u && u < 0xDC00 && 0xDC00 ≤ l && l < 0xE000
    then (0x10000 + (u - 0xD800) * 0x400 + (l - 0xDC00)) :: joinUnits r
    else u :: joinUnits ((l, esc') :: r)
  | [(u, _)] => [u]
  | [] => []

def scanString (s : Str) : Option (Str × Str) :=
  (scanUnits s).map fun p => (joinUnits p.1, p.2)

/-- The integer part of a number, sign included. -/
def scanInt (s : Str) : Option (Str × Str) :=
  let (sign, s) := if s.head? = some 45 then ([45], s.tail) else ([], s)
  match s with
  | [] => none
  | c :: r =>
    if c = 48 then some (sign ++ [48], r)
    else if isDigit c then some (sign ++ c :: r.takeWhile isDigit, r.dropWhile isDigit)
    else none

/-- The fraction of a number, if there is one. -/
def scanFrac : Str → Str × Str
  | c :: r =>
    if c = 46 ∧ r.takeWhile isDigit ≠ [] then (46 :: r.takeWhile isDigit, r.dropWhile isDigit)
    else ([], c :: r)
  | [] => ([], [])

/-- The exponent of a number, if there is one. -/
def scanExp : Str → Str × Str
  | e :: r =>
    let (sign, r') := if r.head? = some 43 ∨ r.head? = some 45 then (r.take 1, r.tail) else ([], r)
    if (e = 101 ∨ e = 69) ∧ r'.takeWhile isDigit ≠ []
    then (e :: sign ++ r'.takeWhile isDigit, r'.dropWhile isDigit)
    else ([], e :: r)
  | [] => ([], [])

/-- `int(text)` for an optional minus sign and digits. -/
def intOf (text : Str) : Except Exn Int :=
  let ds := if text.head? = some 45 then text.tail else text
  if maxStrDigits < ds.length then
    .error (.valueError "Exceeds the limit for integer string conversion")
  else
    let n : Int := ds.foldl (fun a c => a * 10 + ((c - 48 : Nat) : Int)) 0
    .ok (if text.head? = some 45 then -n else n)

def scanNumber (s : Str) : Except Exn (Value × Str) :=
  match scanInt s with
  | none => .error decodeError
  | some (int, r) =>
    let (frac, r) := scanFrac r
    let (exp, r) := scanExp r
    if frac = [] ∧ exp = [] then do return (.int (← intOf int), r)
    else .ok (.float (Interpreter.ofLit (int ++ frac ++ exp)), r)

/-- The hooks of `json.loads`, which may raise exceptions of their own. -/
structure Hooks (ε : Type) where
  raise : Exn → ε
  pairs : List (Str × Value) → Except ε Value
  constant : Str → Except ε Value

/-- No hooks: repeated keys keep their last value, and `NaN` and the infinities are floats. -/
def Hooks.default : Hooks Exn where
  raise e := e
  pairs ms := .ok (dictOf ms)
  constant s := .ok (.float (Interpreter.ofLit s))

variable {ε : Type}

def scanElems (h : Hooks ε) (pv : Str → Except ε (Value × Str)) :
    Nat → Str → Except ε (List Value × Str)
  | 0, _ => .error (h.raise decodeError)
  | n + 1, s => do
    let (v, r) ← pv s
    match skipWs r with
    | [] => .error (h.raise decodeError)
    | c :: r =>
      if c = 93 then return ([v], r)
      else if c = 44 then
        let (vs, r) ← scanElems h pv n (skipWs r)
        return (v :: vs, r)
      else .error (h.raise decodeError)

def scanMembers (h : Hooks ε) (pv : Str → Except ε (Value × Str)) :
    Nat → Str → Except ε (List (Str × Value) × Str)
  | 0, _ => .error (h.raise decodeError)
  | n + 1, s =>
    if s.head? ≠ some 34 then .error (h.raise decodeError)
    else match scanString s.tail with
      | none => .error (h.raise decodeError)
      | some (k, r) =>
        if (skipWs r).head? ≠ some 58 then .error (h.raise decodeError)
        else do
          let (v, r) ← pv (skipWs (skipWs r).tail)
          match skipWs r with
          | [] => .error (h.raise decodeError)
          | c :: r =>
            if c = 125 then return ([(k, v)], r)
            else if c = 44 then
              let (ms, r) ← scanMembers h pv n (skipWs r)
              return ((k, v) :: ms, r)
            else .error (h.raise decodeError)

/-- One value. `limit` is how deep arrays and objects may still nest before `RecursionError`. -/
def scanOnce (h : Hooks ε) : Nat → Str → Except ε (Value × Str)
  | limit, s =>
    match s with
    | [] => .error (h.raise decodeError)
    | c :: r =>
      if c = 34 then match scanString r with
        | some (t, r) => .ok (.str t, r)
        | none => .error (h.raise decodeError)
      else if c = 91 then match limit with
        | 0 => .error (h.raise .recursionError)
        | limit + 1 =>
          if (skipWs r).head? = some 93 then .ok (.list [], (skipWs r).tail)
          else do
            let (vs, r) ← scanElems h (scanOnce h limit) (r.length + 1) (skipWs r)
            return (.list vs, r)
      else if c = 123 then match limit with
        | 0 => .error (h.raise .recursionError)
        | limit + 1 =>
          if (skipWs r).head? = some 125 then do return (← h.pairs [], (skipWs r).tail)
          else do
            let (ms, r) ← scanMembers h (scanOnce h limit) (r.length + 1) (skipWs r)
            return (← h.pairs ms, r)
      else if str "null" <+: s then .ok (.null, s.drop 4)
      else if str "true" <+: s then .ok (.bool true, s.drop 4)
      else if str "false" <+: s then .ok (.bool false, s.drop 5)
      else if str "NaN" <+: s then do return (← h.constant (str "NaN"), s.drop 3)
      else if str "Infinity" <+: s then do return (← h.constant (str "Infinity"), s.drop 8)
      else if str "-Infinity" <+: s then do return (← h.constant (str "-Infinity"), s.drop 9)
      else (scanNumber s).mapError h.raise

/-- `json.loads(s)` for a `str` -/
def loads (h : Hooks ε) (s : Str) : Except ε Value :=
  if s.head? = some 0xFEFF then .error (h.raise decodeError)
  else do
    let (v, r) ← scanOnce h Interpreter.recursionLimit (skipWs s)
    if skipWs r = [] then return v else .error (h.raise decodeError)

end DbLab.Py
