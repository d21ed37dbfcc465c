import DbLab.Py.Equality
import DbLab.Py.RoundTrip

/-!
# Builtins for option values

Truth values, `<`, membership in a tuple of names, `sorted(dict)`, `str`, `math.isfinite` and pure
POSIX paths.
-/

namespace DbLab.Py

/-- `s in names` for a string. -/
def named (names : List String) (s : Str) : Bool := names.any fun n => s = str n

/-- A text is among the names. -/
lemma named_iff {names : List String} {s : Str} :
    named names s = true ↔ ∃ n ∈ names, s = str n := by
  simp [named]

/-- A string is among the names. -/
lemma named_str (names : List String) (n : String) : named names (str n) = decide (n ∈ names) := by
  rw [Bool.eq_iff_iff, named_iff, decide_eq_true_eq]
  constructor
  · rintro ⟨m, mem, e⟩
    exact str_inj.1 e ▸ mem
  · exact fun mem => ⟨n, mem, rfl⟩

def startsWith (w : String) (s : Str) : Bool := (str w).isPrefixOf s

/-- The components of an absolute POSIX path, as `pathlib` keeps them: empty ones and `.` are
dropped. -/
def segments (s : Str) : List Str := (s.splitOn 47).filter fun t => t ≠ [] ∧ t ≠ [46]

/-- `str(Path("/", *parts))` -/
def pathText (parts : List Str) : Str := 47 :: List.intercalate [47] parts

def FloatView.lt (a b : FloatView) : Bool := a.le b && !a.eq b

variable [Interpreter]

abbrev Fields := List (Str × Value)

/-- `ms.get(k, d)` -/
def Fields.getD (ms : Fields) (k : String) (d : Value) : Value := (lookup (str k) ms).getD d

/-- `ms[k]` -/
def Fields.at (ms : Fields) (k : Str) : Except Exn Value :=
  match lookup k ms with
  | some v => .ok v
  | none => .error .keyError

/-- `sorted(ms)`; a key written twice is one key. -/
def Fields.sorted (ms : Fields) : List Str :=
  (sortByKey ((ms.map Prod.fst).dedup.map fun k => (k, ()))).map Prod.fst

/-- Sorting keeps the keys. -/
lemma Fields.mem_sorted {ms : Fields} {k : Str} : k ∈ ms.sorted ↔ k ∈ ms.map Prod.fst := by
  have perm := (sortByKey_perm ((ms.map Prod.fst).dedup.map fun k => (k, ()))).map Prod.fst
  rw [sorted, perm.mem_iff, List.map_map, ← List.mem_dedup (l := ms.map Prod.fst)]
  simp

/-- Sorted keys are distinct. -/
lemma Fields.sorted_nodup (ms : Fields) : ms.sorted.Nodup := by
  have perm := (sortByKey_perm ((ms.map Prod.fst).dedup.map fun k => (k, ()))).map Prod.fst
  rw [sorted, perm.nodup_iff, List.map_map]
  simpa [Function.comp_def] using (ms.map Prod.fst).nodup_dedup

namespace Value

/-- `v in names` -/
def oneOf (names : List String) (v : Value) : Bool := names.any fun n => v.eq (.str (Py.str n))

/-- A value is among the names. -/
lemma oneOf_iff {names : List String} {v : Value} :
    v.oneOf names = true ↔ ∃ n ∈ names, v = .str (Py.str n) := by
  simp [oneOf, eq_str_iff]

def truthy : Value → Bool
  | .null => false
  | .bool b => b
  | .int n => n ≠ 0
  | .float x => Interpreter.view x ≠ .finite 0
  | .str s => !s.isEmpty
  | .list xs => !xs.isEmpty
  | .dict ms => !ms.isEmpty

/-- `v < w` where one side is a number. -/
def lt (v w : Value) : Except Exn Bool :=
  match v.num?, w.num? with
  | some a, some b => .ok (a.view.lt b.view)
  | _, _ => .error .typeError

/-- `lo <= v <= hi` for a number `v`. -/
def within (lo hi : FloatView) (v : Value) : Bool :=
  match v.num? with
  | some a => lo.le a.view && a.view.le hi
  | none => false

/-- `within` for integer bounds. -/
abbrev between (lo hi : Int) (v : Value) : Bool := v.within (.finite lo) (.finite hi)

/-- `type(v) in (int, float)` -/
def isNumber : Value → Bool
  | .int _ | .float _ => true
  | _ => false

/-- `math.isfinite(v)`: an integer is converted first. -/
def isfinite : Value → Except Exn Bool
  | v => match v.num? with
    | some a => do
      match Interpreter.view (← a.toFloat) with
      | .finite _ => return true
      | _ => return false
    | none => .error .typeError

/-- `str(v)` of a number or a string. -/
def text : Value → Except Exn Str
  | .int n => intRepr n
  | .float x => floatRepr ⟨false, false, true⟩ x
  | .str s => .ok s
  | _ => .error .typeError

end Value

end DbLab.Py
