import DbLab.Mvp.Events
import DbLab.Py.Encodings
import DbLab.Py.Canonical

/-!
# The bodies of requests (`http_policy.py`)

`decode_json` is stricter than `json.loads`: no key is repeated, no number is infinite or no number,
all texts are Unicode, and nothing is nested more than sixteen deep. `body_fields` allows an object
certain members only.
-/

namespace DbLab.Mvp.Http
open DbLab.Py

variable [Interpreter]

/-- `pairs` and `nonfinite` -/
def strictHooks : Hooks Exn where
  raise e := e
  pairs ms :=
    if (ms.map Prod.fst).Nodup then .ok (.dict ms) else .error (.valueError "duplicate JSON key")
  constant _ := .error (.valueError "non-finite JSON number")

/-- `if depth > 16: raise ValueError(…)` -/
def within (depth : Nat) (rest : Except Exn Unit) : Except Exn Unit :=
  if 16 < depth then .error (.valueError "JSON nesting limit") else rest

/-- A text in `validate`. -/
def validateStr (depth : Nat) (s : Str) : Except Exn Unit := within depth do
  let _ ← encode s

mutual
/-- `validate(value, depth)` -/
def validate (depth : Nat) : Value → Except Exn Unit
  | .float x => within depth <| match Interpreter.view x with
    | .finite _ => .ok ()
    | _ => .error (.valueError "non-finite JSON number")
  | .str s => validateStr depth s
  | .dict ms => within depth (validateDict depth ms)
  | .list xs => within depth (validateList depth xs)
  | .null => within depth (.ok ())
  | .bool _ => within depth (.ok ())
  | .int _ => within depth (.ok ())
def validateDict (depth : Nat) : List (Str × Value) → Except Exn Unit
  | [] => .ok ()
  | (key, item) :: ms => do
    validateStr (depth + 1) key
    validate (depth + 1) item
    validateDict depth ms
def validateList (depth : Nat) : List Value → Except Exn Unit
  | [] => .ok ()
  | item :: xs => do
    validate (depth + 1) item
    validateList depth xs
end

/-- `except (ValueError, UnicodeError, RecursionError)` -/
def invalidJson (e : Exn) : Raised :=
  if e.isValueError || e = .recursionError then .problem 400 "invalid_json" else .python e

/-- `decode_json(raw)` -/
def decodeJson (raw : Bytes) : Except Raised Value := Except.mapError invalidJson do
  let text ← decode false raw
  let result ← loads strictHooks text
  validate 0 result
  return result

/-- `body_fields(data, allowed)` -/
def bodyFields (data : Value) (allowed : List String) : Except Raised Unit :=
  match data with
  | .dict ms =>
    if ms.any fun e =>
      !named allowed e.1 then .error (.problem 400 "unexpected_request_fields") else .ok ()
  | _ => .error (.problem 400 "json_object_required")

/-! ### What is accepted -/

/-- Members with keys of their own are kept. -/
lemma strictHooks_keeps : strictHooks.Keeps := fun _ distinct => if_pos distinct

omit [Interpreter] in
/-- A text without surrogates is valid. -/
lemma validateStr_ok {depth : Nat} {s : Str} (shallow : depth ≤ 16) (chars : ∀ c ∈ s, Scalar c) :
    validateStr depth s = .ok () := by
  obtain ⟨b, text⟩ := encode_scalar chars
  rw [validateStr, within, if_neg (by omega), text]
  rfl

/-- A dictionary is valid if its keys and members are. -/
lemma validateDict_ok {depth : Nat} {ms : List (Str × Value)} (shallow : depth < 16)
    (chars : ∀ e ∈ ms, ∀ c ∈ e.1, Scalar c)
    (members : ∀ e ∈ ms, validate (depth + 1) e.2 = .ok ()) : validateDict depth ms = .ok () := by
  induction ms with
  | nil => rfl
  | cons e ms ih =>
    obtain ⟨key, item⟩ := e
    have first : validateStr (depth + 1) key = .ok () :=
      validateStr_ok (by omega) (chars _ List.mem_cons_self)
    have second : validate (depth + 1) item = .ok () := members _ List.mem_cons_self
    rw [validateDict, first, ok_bind, second, ok_bind]
    exact ih (fun e m => chars e (.tail _ m)) fun e m => members e (.tail _ m)

/-- A list is valid if its elements are. -/
lemma validateList_ok {depth : Nat} {xs : List Value}
    (elems : ∀ x ∈ xs, validate (depth + 1) x = .ok ()) :
    validateList depth xs = .ok () := by
  induction xs with
  | nil => rfl
  | cons x xs ih =>
    rw [validateList, elems x List.mem_cons_self, ok_bind]
    exact ih fun x m => elems x (.tail _ m)

/-- What can be written, and is nested as deep as allowed, is valid. -/
theorem validate_ok {d depth : Nat} {v : Value} (legible : Legible d v) (shallow : depth + d ≤ 16) :
    validate depth v = .ok () := by
  have here {rest : Except Exn Unit} {depth : Nat} (shallow : depth ≤ 16) : within depth rest =
    rest := if_neg (by omega)
  induction legible generalizing depth with
  | null | bool | int => exact here (by omega)
  | float finite =>
    rw [validate, here (by omega), finite]
  | str chars => exact validateStr_ok (by omega) chars
  | list _ ih =>
    rw [validate, here (by omega)]
    exact validateList_ok fun x m => ih x m (by omega)
  | dict _ chars _ ih =>
    rw [validate, here (by omega)]
    exact validateDict_ok (by omega) chars fun e m => ih e m (by omega)

/-- The bytes of a legible value are read back by the strict reader too. -/
theorem decodeJson_written {d : Nat} {v : Value} (legible : Legible d v)
    (shallow : d ≤ 16) (o : Dump)
    (depth : d ≤ Interpreter.recursionLimit) :
    ∃ t raw, dumps o v = .ok t ∧ encode t = .ok raw ∧ decodeJson raw = .ok (v.reorder o) := by
  obtain ⟨t, text, scalar, read⟩ := legible.loads o strictHooks_keeps depth
  obtain ⟨raw, bytes⟩ := encode_scalar scalar
  refine ⟨t, raw, text, bytes, ?_⟩
  rw [decodeJson, decode_encode bytes, ok_bind, read, ok_bind,
    validate_ok (legible.reorder o) (by omega)]
  rfl

end DbLab.Mvp.Http
