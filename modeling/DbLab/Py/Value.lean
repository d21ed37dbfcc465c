import DbLab.Py.Str

/-!
# Python values

The values `json.loads` can return, with the part of Python's dynamic semantics the modelled code
uses on them: `==`, ordering, arithmetic, subscripts, `dict.get` and dictionaries keyed by arbitrary
hashable values. A boolean is an integer and an integer may equal a float, as in Python.

The float type is the interpreter's: each float has the number it denotes, which fixes every
comparison, and rounding is left open.
-/

namespace DbLab.Py

/-- The number a float denotes. -/
inductive FloatView where
  | nan
  | inf (negative : Bool)
  | finite (q : Rat)
deriving DecidableEq

namespace FloatView

def eq : FloatView → FloatView → Bool
  | .inf a, .inf b => a = b
  | .finite p, .finite q => p = q
  | _, _ => false

def le : FloatView → FloatView → Bool
  | .nan, _ | _, .nan => false
  | .inf true, _ | _, .inf false => true
  | .inf false, _ | _, .inf true => false
  | .finite p, .finite q => p ≤ q

end FloatView

def isDigit (c : Nat) : Bool := 48 ≤ c && c < 58

/-- Digits with no leading zero, behind an optional minus sign. -/
def IntPart (s : Str) : Prop :=
  ∃ sign ds, s = sign ++ ds ∧ (sign = [] ∨ sign = [45]) ∧
    (ds = [48] ∨ ∃ d r, ds = d :: r ∧ d ≠ 48 ∧ isDigit d ∧ ∀ c ∈ r, isDigit c)

def FracPart (s : Str) : Prop :=
  s = [] ∨ ∃ ds, s = 46 :: ds ∧ ds ≠ [] ∧ ∀ c ∈ ds, isDigit c

def ExpPart (s : Str) : Prop :=
  s = [] ∨ ∃ e sign ds, s = e :: (sign ++ ds) ∧ (e = 101 ∨ e = 69) ∧
    (sign = [] ∨ sign = [43] ∨ sign = [45]) ∧ ds ≠ [] ∧ ∀ c ∈ ds, isDigit c

/-- A number with a fraction or an exponent, as JSON writes it. -/
def FloatText (s : Str) : Prop :=
  ∃ i f e, s = i ++ (f ++ e) ∧ IntPart i ∧ FracPart f ∧ ExpPart e ∧ (f ≠ [] ∨ e ≠ [])

/-- What the modelled code takes from its interpreter: floats (with the operations that round left
open, and `repr` giving a text that `float` reads back), `hashlib.sha256(b).hexdigest()` as a
lower-case hexadecimal text, and the nesting depth at which the JSON reader raises
`RecursionError`. -/
class Interpreter where
  Float : Type
  view : Float → FloatView
  ofInt : Int → Option Float
  add : Float → Float → Float
  mul : Float → Float → Float
  neg : Float → Float
  repr : Float → Str
  ofLit : Str → Float
  repr_text : ∀ x q, view x = .finite q → FloatText (repr x)
  ofLit_repr : ∀ x q, view x = .finite q → ofLit (repr x) = x
  sha256 : Bytes → Str
  sha256_hex : ∀ b, ∀ c ∈ sha256 b, isDigit c ∨ (97 ≤ c ∧ c < 103)
  recursionLimit : Nat
  recursionLimit_ge : 64 ≤ recursionLimit

variable [Interpreter]

/-- A Python value made of JSON parts. -/
inductive Value [Interpreter] where
  | null
  | bool (b : Bool)
  | int (n : Int)
  | float (x : Interpreter.Float)
  | str (s : Str)
  | list (xs : List Value)
  | dict (ms : List (Str × Value))

/-- A Python number: `bool` is a subclass of `int`. -/
inductive Num where
  | int (n : Int)
  | float (x : Interpreter.Float)

def Num.toValue : Num → Value
  | .int n => .int n
  | .float x => .float x

/-- The entry of an association list with string keys. -/
def lookup {V : Type} (k : Str) : List (Str × V) → Option V
  | [] => none
  | (k', v) :: ms => if k' = k then some v else lookup k ms

namespace Value

def num? : Value → Option Num
  | .bool b => some (.int (if b then 1 else 0))
  | .int n => some (.int n)
  | .float x => some (.float x)
  | _ => none

/-- `type(v) is int`, which a boolean is not. -/
def isInt : Value → Bool
  | .int _ => true
  | _ => false

/-- `v["k"]` -/
def item (v : Value) (k : String) : Except Exn Value :=
  match v with
  | .dict ms => match lookup (Py.str k) ms with
    | some w => .ok w
    | none => .error .keyError
  | _ => .error .typeError

/-- `v.get("k")` -/
def get (v : Value) (k : String) : Except Exn Value :=
  match v with
  | .dict ms => .ok ((lookup (Py.str k) ms).getD .null)
  | _ => .error .attributeError

/-- A `dict` display with literal keys. -/
def ofFields (fields : List (String × Value)) : Value :=
  .dict (fields.map fun f => (Py.str f.1, f.2))

/-- `n * s` for a sequence `s`; a count below one gives the empty sequence. -/
def replicate {α : Type} (n : Int) (s : List α) : List α :=
  (List.replicate n.toNat s).flatten

/-- Lists and dictionaries are unhashable. -/
def hashable : Value → Bool
  | .list _ | .dict _ => false
  | _ => true

end Value

namespace Num

def view : Num → FloatView
  | .int n => .finite n
  | .float x => Interpreter.view x

def eq (a b : Num) : Bool := a.view.eq b.view
def le (a b : Num) : Bool := a.view.le b.view

def toFloat : Num → Except Exn Interpreter.Float
  | .int n => match Interpreter.ofInt n with
    | some x => .ok x
    | none => .error .overflowError
  | .float x => .ok x

def add : Num → Num → Except Exn Num
  | .int m, .int n => .ok (.int (m + n))
  | a, b => do return .float (Interpreter.add (← a.toFloat) (← b.toFloat))

def mul : Num → Num → Except Exn Num
  | .int m, .int n => .ok (.int (m * n))
  | a, b => do return .float (Interpreter.mul (← a.toFloat) (← b.toFloat))

def neg : Num → Num
  | .int n => .int (-n)
  | .float x => .float (Interpreter.neg x)

end Num

namespace Value

-- Python's `==`: numbers by value across their types, dictionaries without regard to order.
mutual
def eq : Value → Value → Bool
  | .null, w => match w with | .null => true | _ => false
  | .str a, w => match w with | .str b => a = b | _ => false
  | .list xs, w => match w with | .list ys => eqList xs ys | _ => false
  | .dict ms, w => match w with | .dict ns => ms.length = ns.length && eqDict ms ns | _ => false
  | v, w => match v.num?, w.num? with
    | some a, some b => a.eq b
    | _, _ => false
def eqList : List Value → List Value → Bool
  | [], ys => ys.isEmpty
  | x :: xs, ys => match ys with | [] => false | y :: ys => x.eq y && eqList xs ys
def eqDict : List (Str × Value) → List (Str × Value) → Bool
  | [], _ => true
  | (k, v) :: ms, ns =>
    (match lookup k ns with | some w => v.eq w | none => false) && eqDict ms ns
end

def add : Value → Value → Except Exn Value
  | .str a, .str b => .ok (.str (a ++ b))
  | .list a, .list b => .ok (.list (a ++ b))
  | v, w => match v.num?, w.num? with
    | some a, some b => do return (← a.add b).toValue
    | _, _ => .error .typeError

def mul : Value → Value → Except Exn Value
  | v, w => match v.num?, w.num?, v, w with
    | some a, some b, _, _ => do return (← a.mul b).toValue
    | some (.int n), _, _, .str s => .ok (.str (replicate n s))
    | some (.int n), _, _, .list s => .ok (.list (replicate n s))
    | _, some (.int n), .str s, _ => .ok (.str (replicate n s))
    | _, some (.int n), .list s, _ => .ok (.list (replicate n s))
    | _, _, _, _ => .error .typeError

def neg (v : Value) : Except Exn Value :=
  match v.num? with
  | some a => .ok a.neg.toValue
  | none => .error .typeError

/-- `v <= w` where one side is a number. -/
def le (v w : Value) : Except Exn Bool :=
  match v.num?, w.num? with
  | some a, some b => .ok (a.le b)
  | _, _ => .error .typeError

/-- `sum(vs)` -/
def sum (vs : List Value) : Except Exn Value :=
  vs.foldlM add (.int 0)

end Value

/-- A Python `dict` whose keys are any hashable values, in insertion order. -/
abbrev KeyDict (α : Type) := List (Value × α)

namespace KeyDict
variable {α : Type}

def get? (d : KeyDict α) (k : Value) : Option α :=
  (d.find? fun e => e.1.eq k).map Prod.snd

def contains (d : KeyDict α) (k : Value) : Bool :=
  d.any fun e => e.1.eq k

/-- `d[k] = a`: an equal key that is already there keeps its place and its spelling. -/
def set (k : Value) (a : α) : KeyDict α → KeyDict α
  | [] => [(k, a)]
  | e :: d => if e.1.eq k then (e.1, a) :: d else e :: set k a d

/-- One step of `{r[k]: r for r in rows}` -/
def setField (k : String) (d : KeyDict Value) (r : Value) : Except Exn (KeyDict Value) := do
  let key ← r.item k
  if key.hashable then return set key r d else throw .typeError

/-- `{r[k]: r for r in rows}` -/
def byField (k : String) (rows : List Value) : Except Exn (KeyDict Value) :=
  rows.foldlM (setField k) []

end KeyDict

/-- `Counter(xs) == Counter(ys)`, for elements compared by `eq`. A NaN equals no element, so it
never matches. -/
def counterEq {α : Type} (eq : α → α → Bool) (xs ys : List α) : Bool :=
  xs.length = ys.length &&
    xs.all fun x => 0 < xs.countP (eq x) && xs.countP (eq x) = ys.countP (eq x)

end DbLab.Py
