import MeridianCore.Domain.DateNumbers
import MeridianCore.Ordered.Readings

/-! A time zone's offset from UTC at an instant: the transitions of its file, and the rule that follows the last of them. -/

namespace MeridianCore

namespace Zone

/-- The fields of a change a rule may name. -/
def Change.Fields (month week weekday : Nat) : Prop := (1 ≤ month ∧ month ≤ 12) ∧ (1 ≤ week ∧ week ≤ 5) ∧ weekday ≤ 6

instance (month week weekday : Nat) : Decidable (Change.Fields month week weekday) :=
  inferInstanceAs (Decidable ((1 ≤ month ∧ month ≤ 12) ∧ (1 ≤ week ∧ week ≤ 5) ∧ weekday ≤ 6))

/-- One yearly change, `Mm.w.d/time`: the `w`th `d`ay (0 Sunday; week 5 the last) of month `m`, at `time` seconds past
local midnight. -/
structure Change where
  month : Nat
  week : Nat
  weekday : Nat
  time : Int32
  fields : Change.Fields month week weekday

/-- A POSIX TZ rule: a standard offset, in seconds east of UTC, and, where the zone keeps daylight saving, its offset and
the two changes each year. -/
structure Rule where
  standard : Int32
  daylight : Option (Int32 × Change × Change)

/-- A text as an error says it. -/
def quote (text : List Char) : String := "\"" ++ String.ofList text ++ "\""

/-- A zone abbreviation, `EST` or `<+03>`, consumed. -/
def name (rest : List Char) : Except String (List Char) :=
  match rest with
  | '<' :: quoted =>
    match quoted.dropWhile (· ≠ '>') with
    | _ :: after => .ok after
    | [] => .error "a quoted name is not closed"
  | rest =>
    let after := rest.dropWhile Char.isAlpha
    if rest.length - after.length < 3 then .error (quote rest ++ " begins with no zone name") else .ok after

/-- Decimal digits an integer type's own parser reads, a plus before them or, where it is signed, a minus. -/
def readInteger (signed : Bool) (part : List Char) : Option Int :=
  let (sign, digits) := match part with
    | '+' :: digits => (1, digits)
    | '-' :: digits => if signed then ((-1 : Int), digits) else (1, '-' :: digits)
    | digits => (1, digits)
  if digits.isEmpty then none else (Date.digits digits).map fun value => sign * value

def readI32 (part : List Char) : Option Int32 :=
  ((readInteger true part).filter fun value => decide (-2 ^ 31 ≤ value ∧ value < 2 ^ 31)).map Int32.ofInt

def readU8 (part : List Char) : Option Nat :=
  ((readInteger false part).filter fun value => decide (value < 256)).map Int.toNat

/-- The parts of an offset added up, as many as there are scales. -/
def addParts (text : List Char) : List Int32 → List (List Char) → Int32 → Except String Int32
  | scale :: scales, part :: parts, total =>
    match readI32 part with
    | some value => addParts text scales parts (total + value * scale)
    | none => .error (quote text ++ " is not an offset")
  | _, _, total => .ok total

def seconds (text : List Char) : Except String Int32 := do
  let (sign, digits) := match text with
    | '-' :: digits => ((-1 : Int32), digits)
    | '+' :: digits => (1, digits)
    | digits => (1, digits)
  let total ← addParts text [3600, 60, 1] (digits.splitOn ':') 0
  if digits.isEmpty then .error "an offset is empty" else .ok (sign * total)

/-- A POSIX offset, `[+-]hh[:mm[:ss]]`, in seconds as written (west positive), consumed. -/
def offset (rest : List Char) : Except String (Int32 × List Char) := do
  let (text, after) := rest.span fun c => c.isDigit || c == '+' || c == '-' || c == ':'
  let value ← seconds text
  return (value, after)

/-- A text before the first of a separator, and after it. -/
def splitOnce (separator : Char) (text : List Char) : Option (List Char × List Char) :=
  match text.dropWhile (· ≠ separator) with
  | _ :: after => some (text.takeWhile (· ≠ separator), after)
  | [] => none

/-- One change, `Mm.w.d[/time]`; the other two forms are not read. -/
def change (text : List Char) : Except String Change := do
  let (date, time) ← match splitOnce '/' text with
    | some (date, time) => do
      let time ← seconds time
      pure (date, time)
    | none => pure (text, 7200)
  let form := "the change " ++ quote text ++ " is not in the Mm.w.d form"
  let unread := "the change " ++ quote text ++ " does not read"
  match date with
  | 'M' :: fields =>
    match fields.splitOn '.' with
    | [month, week, weekday] =>
      match readU8 month, readU8 week, readU8 weekday with
      | some month, some week, some weekday =>
        if fields : Change.Fields month week weekday then .ok ⟨month, week, weekday, time, fields⟩ else .error unread
      | _, _, _ => .error unread
    | _ => .error form
  | _ => .error form

def Rule.parse (text : List Char) : Except String Rule := do
  let rest ← name text
  let (west, rest) ← offset rest
  let standard := -west
  if rest.isEmpty then .ok ⟨standard, none⟩
  else
    let rest ← name rest
    let (daylight, rest) ← match rest with
      | ',' :: _ => pure (standard + 3600, rest)
      | _ => do
        let (west, rest) ← offset rest
        pure (-west, rest)
    match rest with
    | ',' :: rest =>
      match splitOnce ',' rest with
      | some (start, end_) =>
        let start ← change start
        let end_ ← change end_
        .ok ⟨standard, some (daylight, start, end_)⟩
      | none => .error ("its rule " ++ quote text ++ " names one change")
    | _ => .error ("its rule " ++ quote text ++ " names no changes")

/-- A day moved back by weeks until it is before the next month: by no more than its clause's week says. -/
def within (nextMonth : Int) : Nat → Int → Int
  | 0, day => day
  | weeks + 1, day => if nextMonth ≤ day then within nextMonth weeks (day - 7) else day

namespace Change

/-- The day after the month, where a date has it. -/
def nextMonth (change : Change) (year : Nat) : Option Int :=
  (if change.month = 12 then Date.fromYmd (year + 1) 1 1 else Date.fromYmd year (change.month + 1) 1).map Date.daysSinceEpoch

/-- The day it comes on in a year. -/
def day (change : Change) (year : Nat) : Int :=
  let first := ((Date.fromYmd year change.month 1).map Date.daysSinceEpoch).getD 0
  -- 1970-01-01 was a Thursday (4, Sunday 0).
  let weekdayOfFirst := (first + 4) % 7
  let day := first + (change.weekday - weekdayOfFirst) % 7 + 7 * (change.week - 1)
  within ((change.nextMonth year).getD (2 ^ 63 - 1)) change.week day

/-- Its local instant in a year, as seconds since the epoch counted as though the local time were UTC. -/
def instant (change : Change) (year : Int) : Int := change.day (max 1 (min year 9999)).toNat * 86400 + change.time.toInt

end Change

namespace Rule

/-- The year of UTC an instant is in, 1970 where no date has it. -/
def yearAt (utc : Int) : Int := ((Date.fromDays (utc / 86400)).map fun date => (date.year : Int)).getD 1970

/-- Whether an instant is in daylight time, by what its year's begins and ends with. -/
def inDaylight (begins ends utc : Int) : Bool :=
  if begins < ends then decide (begins ≤ utc) && decide (utc < ends) else decide (begins ≤ utc) || decide (utc < ends)

/-- The start is given in standard local time, the end in daylight local time. -/
def offsetAt (rule : Rule) (utc : Int) : Int32 :=
  match rule.daylight with
  | none => rule.standard
  | some (daylight, start, end_) =>
    let year := yearAt utc
    let begins := start.instant year - rule.standard.toInt
    let ends := end_.instant year - daylight.toInt
    if inDaylight begins ends utc then daylight else rule.standard

end Rule

end Zone

/-- One zone, as its file gives it: each transition, in seconds since the epoch, and the local time type in force from
it; each type's offset, in seconds east; the type before the first; and the rule for every instant after the last. -/
structure Zone where
  transitions : List (Int × Nat)
  offsets : List Int32
  initial : Nat
  rule : Option Zone.Rule
  ordered : transitions.Pairwise fun a b => a.1 ≤ b.1
  typed : initial < offsets.length ∧ ∀ transition ∈ transitions, transition.2 < offsets.length

namespace Zone

/-- The offset from UTC, in seconds east, at `utc` seconds since the epoch. -/
def offsetAt (zone : Zone) (utc : Int) : Int32 :=
  match zone.transitions.getLast? with
  | some (last, type) =>
    if last ≤ utc then
      match zone.rule with
      | some rule => rule.offsetAt utc
      | none => zone.offsets.getD type 0
    else
      match (zone.transitions.takeWhile fun transition => transition.1 ≤ utc).getLast? with
      | some (_, type) => zone.offsets.getD type 0
      | none => zone.offsets.getD zone.initial 0
  | none =>
    match zone.rule with
    | some rule => rule.offsetAt utc
    | none => zone.offsets.getD zone.initial 0

theorem single_ordered : ([] : List (Int × Nat)).Pairwise fun a b => a.1 ≤ b.1 := .nil

theorem single_typed : 0 < ([0] : List Int32).length ∧
    ∀ transition ∈ ([] : List (Int × Nat)), transition.2 < ([0] : List Int32).length := by
  simp

/-- A zone of one POSIX TZ rule alone, as a file's footer gives it. -/
def ofRule (rule : String) : Except String Zone := do
  let rule ← Rule.parse rule.toList
  return { transitions := [], offsets := [0], initial := 0, rule, ordered := single_ordered, typed := single_typed }

/-- The offset in force at each instant. -/
def east (zone : Zone) (utc : ℤ) : ℤ := (zone.offsetAt utc).toInt

/-- A local wall-clock time, `seconds` past local midnight on `date`, counted as though it were UTC. -/
def reading (date : Date) (seconds : Int) : Int := date.daysSinceEpoch * 86400 + seconds

/-- The instant, in nanoseconds since the epoch, a local wall-clock time names. A time a change skips reads at the offset
before it; one a change repeats, at the first. -/
def instantOf (zone : Zone) (date : Date) (seconds : Int) : Int64 :=
  let local_ := reading date seconds
  let guess := local_ - (zone.offsetAt local_).toInt
  let utc := local_ - (zone.offsetAt guess).toInt
  Int64.ofInt (utc * 1000000000)

/-- The local date and the seconds past local midnight at an instant. -/
def local_ (zone : Zone) (utcNs : Int64) : Option (Date × Int) :=
  let utc := utcNs.toInt / 1000000000
  let read := utc + (zone.offsetAt utc).toInt
  (Date.fromDays (read / 86400)).map fun date => (date, read % 86400)

end Zone

end MeridianCore
