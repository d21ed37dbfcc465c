import DbLab.Py.DateTime
import DbLab.Py.Utf8

/-!
# ISO 8601

Which texts `datetime.fromisoformat` reads: a calendar or week date and, behind any one character, a
time of day with an optional offset. Every other text is a `ValueError`. The text is read in UTF-8,
byte by byte, with a zero behind it; what is not read before the mark of an offset is not looked at.
-/

namespace DbLab.Py.Iso

/-- The number that the next `n` digits stand for, and the text behind them. -/
def digits (n : Nat) (s : Str) : Option (Nat × Str) :=
  if s.length < n then none else (number (s.take n)).map fun v => (v, s.drop n)

/-- Where the date ends. A week date leaves this open; a run of digits behind it belongs to the time
in pairs. -/
def separatorAt (s : Str) : Option Nat :=
  if s.length = 7 then some 7
  else if s[4]? = some 45 then
    if s[5]? = some 87 then
      if s[8]? = some 45 then
        if s.length = 9 then none
        else if (s[10]?).any isDigit then some 8
        else some 10
      else some 8
    else some 10
  else if s[4]? = some 87 then
    let behind := 7 + ((s.drop 7).takeWhile isDigit).length
    if behind < 9 then some behind
    else if behind % 2 = 0 then some 7
    else some 8
  else some 8

def calendarDay (year month day : Nat) : Bool :=
  1 ≤ year && year ≤ 9999 && 1 ≤ month && month ≤ 12 && 1 ≤ day && day ≤ daysIn year month

/-- The weekday of 1 January, counted from Monday. -/
def firstWeekday (year : Nat) : Nat :=
  let y := year - 1
  (y * 365 + y / 4 - y / 100 + y / 400) % 7

def weeksIn (year : Nat) : Nat :=
  if firstWeekday year = 3 ∨ (firstWeekday year = 2 ∧ leapYear year) then 53 else 52

/-- The last two days of the last week of 9999 are days of the year 10000. -/
def weekDay (year week day : Nat) : Bool :=
  1 ≤ year && year ≤ 9999 && 1 ≤ week && week ≤ weeksIn year && 1 ≤ day && day ≤ 7 &&
    !(year = 9999 && week = 52 && 5 < day)

/-- A dash, where dashes separate the parts of the date. -/
def dash (dashed : Bool) (s : Str) : Option Str :=
  if dashed then if s.head? = some 45 then some s.tail else none
  else some s

/-- The date is a whole text. -/
def date (s : Str) : Option Bool := do
  let (year, s) ← digits 4 s
  let dashed := s.head? = some 45
  let s := if dashed then s.tail else s
  if s.head? = some 87 then
    let (week, s) ← digits 2 s.tail
    if s = [] then return weekDay year week 1
    let s ← dash dashed s
    let (day, s) ← digits 1 s
    return s = [] && weekDay year week day
  else
    let (month, s) ← digits 2 s
    let s ← dash dashed s
    let (day, s) ← digits 2 s
    return s = [] && calendarDay year month day

/-- The byte at hand, which is zero behind the text. -/
def byteAt (s : Str) : Nat := s.headD 0

/-- Up to six digits of a second before the end, and whether something follows all digits. The text
at the end is `rest` bytes long. -/
def fraction (rest : Nat) (s : Str) : Option Bool :=
  (digits (min (s.length - rest) 6) s).map fun (_, s) => byteAt (s.dropWhile isDigit) ≠ 0

/-- Pairs of digits, at most `left` of them, and whether something follows. Colons separate all of
them or none; the last character before the end is not looked at. -/
def clockFrom (rest : Nat) : Nat → Option Bool → Str → Option (List Nat × Bool)
  | 0, _, s => (fraction rest s).map fun more => ([], more)
  | left + 1, colons, s => do
    let (v, s) ← digits 2 s
    let c := byteAt s
    let colons := colons.getD (c = 58)
    if s.tail.length ≤ rest then return ([v], c ≠ 0)
    if c = 46 ∨ c = 44 then
      let more ← fraction rest s.tail
      return ([v], more)
    if colons ∧ c ≠ 58 then none
    let (vs, more) ← clockFrom rest left colons (if colons then s.tail else s)
    return (v :: vs, more)

/-- Hours, minutes and seconds, and whether something follows before the end. -/
def clock (rest : Nat) (s : Str) : Option ((Nat × Nat × Nat) × Bool) :=
  (clockFrom rest 3 none s).map fun (vs, more) => ((vs.getD 0 0, vs.getD 1 0, vs.getD 2 0), more)

def zoneMark (c : Nat) : Bool := c = 43 || c = 45 || c = 90

/-- The offset from its mark on, less than a day. -/
def zone (s : Str) : Bool :=
  if byteAt s = 90 then byteAt s.tail = 0
  else (clock 0 s.tail).any fun ((h, m, sec), more) => !more && h * 3600 + m * 60 + sec < 86400

def time (s : Str) : Bool :=
  let offset := s.dropWhile fun c => !zoneMark c
  (clock offset.length s).any fun ((h, m, sec), more) =>
    h < 24 && m < 60 && sec < 60 && if offset = [] then !more else zone offset

/-- Only the separator may be a surrogate. -/
def sanitize (s : Str) : Str :=
  match [7, 8, 10].find? fun i => (s[i]?).any surrogate with
  | some i => s.set i 84
  | none => s

/-- How many bytes the character takes that starts with this one. -/
def width (b : Nat) : Nat :=
  if b < 0x80 then 1 else if b / 16 = 14 then 3 else if b / 16 = 15 then 4 else 2

/-- A date up to the separator and, where the text goes on there, a time behind it. -/
def dateTime (s : Str) : Bool :=
  (separatorAt s).any fun n =>
    (date (s.take n)).any id && (s.drop n = [] || time (s.drop (n + width (byteAt (s.drop n)))))

end Iso

/-- Whether `datetime.fromisoformat(s)` returns. -/
def fromisoformat (s : Str) : Bool :=
  7 ≤ s.length && match encode (Iso.sanitize s) with
    | .ok bytes => Iso.dateTime (bytes.map (·.toNat))
    | .error _ => false

example : fromisoformat (str "2024-02-29T10:20:30.123+00:00") = true := by decide +kernel
example : fromisoformat (str "2023-02-29T10:20:30.123+00:00") = false := by decide +kernel
-- What follows a date is a separator and a time.
example : ["2024-01-01T", "2024-01-101", "2024W0531"].map (fun s => fromisoformat (str s)) =
    [false, false, false] := by
  decide +kernel
-- Before an offset one character more than the pairs of digits is passed over.
example : ["20240101T12456Z", "20240101T12456"].map (fun s => fromisoformat (str s)) =
    [true, false] := by
  decide +kernel

end DbLab.Py
