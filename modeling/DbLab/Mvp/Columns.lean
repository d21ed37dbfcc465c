import DbLab.Mvp.Snapshot
import DbLab.Mvp.Orders
import DbLab.Py.DateTime

/-!
# The application tables (`SQL.initialize`)

The columns of `orders` and `outbox` with their types, the cells each can hold, what a driver
returns for a cell and what the server stores for a value. What MariaDB makes of a value that is not
a literal of the column's type is left open, as are its collation and its version.
-/

namespace DbLab.Mvp
open DbLab.Py DbLab.Store

/-- The types of the schema. `ascii` is `VARCHAR CHARACTER SET ascii COLLATE ascii_bin` and `serial`
is `BIGINT AUTO_INCREMENT`. -/
inductive Column where
  | char (size : Nat)
  | varchar (size : Nat)
  | ascii (size : Nat)
  | longtext
  | int
  | bigint
  | serial
  | timestamp
  | nullableTimestamp
deriving DecidableEq

/-- A value of a `TIMESTAMP(3)` column, in UTC. -/
inductive Stamp where
  | zero
  | instant (t : DateTime)
deriving DecidableEq

inductive Cell where
  | text (s : Str)
  | int (n : Int)
  | stamp (t : Stamp)
  | null
deriving DecidableEq

/-- The schema of a table, column by column as in `COLUMNS`. -/
def TableName.types : TableName → List Column
  | orders =>
    [.char 36, .ascii 80, .varchar 100, .int, .bigint, .bigint, .varchar 20, .bigint, .varchar 40]
  | outbox => [.serial, .char 36, .longtext, .timestamp, .nullableTimestamp]

def Moment.parts (m : Moment) : List Nat :=
  [m.year, m.month, m.day, m.hour, m.minute, m.second, m.microsecond]

/-- Whole milliseconds from the first second of the epoch to the last that has 32 bits. -/
def Stamp.storable : Stamp → Bool
  | zero => true
  | .instant t =>
    t.microsecond % 1000 = 0 && strLe [1970, 1, 1, 0, 0, 1, 0] (Moment.parts t.toMoment) &&
      strLe (Moment.parts t.toMoment) [2106, 2, 7, 6, 28, 15, 999000]

def fits (bits : Nat) (n : Int) : Bool := -2 ^ (bits - 1) ≤ n && n < 2 ^ (bits - 1)

/-- Text of `utf8mb4` that fits a column. -/
def textFits (size : Nat) (s : Str) : Bool := s.length ≤ size && s.all fun c => Scalar c

/-- The bytes of a text. -/
def octetLength (s : Str) : Nat :=
  match encode s with
  | .ok b => b.length
  | .error _ => 0

/-- Trailing blanks are not kept by `CHAR`, and do not count where texts are compared. -/
def rstrip (s : Str) : Str := (s.reverse.dropWhile (· = 32)).reverse

/-- The cells a column can hold. -/
def Column.admits : Column → Cell → Bool
  | char size, .text s => textFits size s && rstrip s = s
  | varchar size, .text s => textFits size s
  | ascii size, .text s => s.length ≤ size && s.all (· < 128)
  | longtext, .text s => s.all (fun c => Scalar c) && octetLength s < 2 ^ 32
  | int, .int n => fits 32 n
  | bigint, .int n | serial, .int n => fits 64 n
  | timestamp, .stamp t | nullableTimestamp, .stamp t => t.storable
  | nullableTimestamp, .null => true
  | _, _ => false

/-- What the server reads in a timestamp literal. -/
def Stamp.parse (s : Str) : Option Stamp :=
  if s = str "0000-00-00 00:00:00.000" then some .zero
  else (Moment.parse s).bind fun m =>
    let m := { m with microsecond := m.microsecond - m.microsecond % 1000 }
    if h : m.Valid then some (.instant ⟨m, h⟩) else none

/-- No time from the year 1000 on is written as the zero date. -/
lemma strftime_ne_zero {t : DateTime} (h : 1000 ≤ t.year) :
    t.strftime ≠ str "0000-00-00 00:00:00.000" := by
  intro same
  have parsed := Moment.parse_strftime t.valid h
  rw [same] at parsed
  cases parsed

/-- A time that can be stored has milliseconds and four digits of a year. -/
lemma Stamp.storable_year {t : DateTime} (h : (Stamp.instant t).storable = true) :
    t.microsecond % 1000 = 0 ∧ 1000 ≤ t.year := by
  simp only [storable, Bool.and_eq_true, decide_eq_true_eq] at h
  refine ⟨h.1.1, ?_⟩
  have early := h.1.2
  simp only [Moment.parts, strLe, Bool.or_eq_true, decide_eq_true_eq, Bool.and_eq_true] at early
  omega

/-- A timestamp survives its text. -/
lemma Stamp.parse_strftime {t : DateTime} (h : (Stamp.instant t).storable = true) :
    Stamp.parse t.strftime = some (.instant t) := by
  obtain ⟨whole, year⟩ := Stamp.storable_year h
  have same : ({ t.toMoment with microsecond := t.microsecond - t.microsecond % 1000 } : Moment) =
      t.toMoment := by
    rw [whole, Nat.sub_zero]
  rw [Stamp.parse, if_neg (strftime_ne_zero year), Moment.parse_strftime t.valid year,
    Option.bind_some]
  dsimp only
  rw [same, dif_pos t.valid]

/-- A row of a table: a cell for each column. -/
structure Row (t : TableName) where
  cells : List Cell
  typed : List.Forall₂ (fun c x => c.admits x = true) t.types cells

/-- Rows with the same cells are the same. -/
lemma Row.ext {t : TableName} {r r' : Row t} (h : r.cells = r'.cells) : r = r' := by
  cases r
  cases r'
  cases h
  rfl

variable [Interpreter]

/-- The cell a literal of the column's type stands for. -/
def Column.literal : Column → Value → Option Cell
  | char _, .str s => some (.text (rstrip s))
  | varchar _, .str s | ascii _, .str s | longtext, .str s => some (.text s)
  | int, .int n | bigint, .int n | serial, .int n => some (.int n)
  | serial, .null => some (.int 0)
  | timestamp, .str s | nullableTimestamp, .str s => (Stamp.parse s).map .stamp
  | nullableTimestamp, .null => some .null
  | _, _ => none

/-- A MariaDB server: its version, the weights its collation of `utf8mb4` gives to texts, and what
it does with a value that is no literal of a column's type. -/
class MariaDb where
  version : Str
  version_scalar : ∀ c ∈ version, Scalar c
  weight : Str → List Int
  coerce (c : Column) (v : Value) : Except Failure { x : Cell // c.admits x = true }

/-- What a column stores for a value. -/
def Column.store [MariaDb] (c : Column) (v : Value) :
    Except Failure { x : Cell // c.admits x = true } :=
  match c.literal v with
  | some x => if h : c.admits x = true then .ok ⟨x, h⟩ else MariaDb.coerce c v
  | none => MariaDb.coerce c v

/-- What the driver returns for a cell. -/
inductive Fetched where
  | value (v : Value)
  | datetime (t : DateTime)

/-- The driver has no `datetime` for the zero timestamp and returns its text. -/
def Cell.fetched : Cell → Fetched
  | text s => .value (.str s)
  | int n => .value (.int n)
  | stamp (.instant t) => .datetime t
  | stamp .zero => .value (.str (str "0000-00-00 00:00:00.000"))
  | null => .value .null

/-- `v.strftime(...) if isinstance(v, datetime) else v` -/
def Fetched.exported : Fetched → Value
  | value v => v
  | datetime t => .str t.strftime

/-! ### Cells survive -/

/-- What is exported of a cell is stored as that cell. -/
theorem Column.store_exported [MariaDb] {c : Column} {x : Cell} (h : c.admits x = true) :
    c.store x.fetched.exported = .ok ⟨x, h⟩ := by
  suffices lit : c.literal x.fetched.exported = some x by
    rw [store, lit]
    exact dif_pos h
  cases x with
  | text s =>
    cases c with
    | char size =>
      simp only [admits, Bool.and_eq_true, decide_eq_true_eq] at h
      exact congrArg (fun s => some (Cell.text s)) h.2
    | varchar size | ascii size | longtext => rfl
    | int | bigint | serial | timestamp | nullableTimestamp => cases h
  | int n =>
    cases c with
    | int | bigint | serial => rfl
    | char size | varchar size | ascii size | longtext | timestamp | nullableTimestamp => cases h
  | stamp t =>
    have read : ∀ u : Stamp, u.storable = true → (c = .timestamp ∨ c = .nullableTimestamp) →
        c.literal (Cell.stamp u).fetched.exported = some (.stamp u) := by
      intro u storable stamps
      cases u with
      | zero => rcases stamps with rfl | rfl <;> rfl
      | instant t =>
        rcases stamps with rfl | rfl <;>
          exact congrArg (Option.map _) (Stamp.parse_strftime storable)
    cases c with
    | timestamp => exact read t h (.inl rfl)
    | nullableTimestamp => exact read t h (.inr rfl)
    | char size | varchar size | ascii size | longtext | int | bigint | serial => cases h
  | null =>
    cases c with
    | nullableTimestamp => rfl
    | char size | varchar size | ascii size | longtext | int | bigint | serial | timestamp =>
      cases h

end DbLab.Mvp
