import Mathlib

namespace MeridianCore

namespace Date

def daysIn (year month : Nat) : Nat :=
  if month = 1 ∨ month = 3 ∨ month = 5 ∨ month = 7 ∨ month = 8 ∨ month = 10 ∨ month = 12 then 31
  else if month = 4 ∨ month = 6 ∨ month = 9 ∨ month = 11 then 30
  else if (year % 4 = 0 ∧ year % 100 ≠ 0) ∨ year % 400 = 0 then 29
  else 28

/-- A day that exists, in the years a plain date writes. -/
def Exists (year month day : Nat) : Prop :=
  (1 ≤ year ∧ year ≤ 9999) ∧ (1 ≤ month ∧ month ≤ 12) ∧ 1 ≤ day ∧ day ≤ daysIn year month

instance (year month day : Nat) : Decidable (Exists year month day) :=
  inferInstanceAs (Decidable ((1 ≤ year ∧ year ≤ 9999) ∧ (1 ≤ month ∧ month ≤ 12) ∧ 1 ≤ day ∧ day ≤ daysIn year month))

end Date

structure Date where
  year : Nat
  month : Nat
  day : Nat
  holds : Date.Exists year month day
  deriving DecidableEq

namespace Date

def fromYmd (year month day : Nat) : Option Date :=
  if holds : Exists year month day then some ⟨year, month, day, holds⟩ else none

def digits (part : List Char) : Option Nat :=
  if part.all Char.isDigit then some (part.foldl (fun held digit => held * 10 + (digit.toNat - '0'.toNat)) 0)
  else none

/-- A plain date, `YYYY-MM-DD`. -/
def parse (text : String) : Option Date := do
  let bytes := text.toList
  guard (bytes.length = 10 ∧ bytes[4]? = some '-' ∧ bytes[7]? = some '-')
  let year ← digits (bytes.take 4)
  let month ← digits ((bytes.drop 5).take 2)
  let day ← digits (bytes.drop 8)
  fromYmd year month day

def daysSinceEpoch (date : Date) : Int :=
  let m : Int := date.month
  let y : Int := date.year - (if date.month ≤ 2 then 1 else 0)
  let era := y / 400
  let yoe := y % 400
  let doy := (153 * ((m + 9) % 12) + 2) / 5 + date.day - 1
  era * 146097 + (yoe * 365 + yoe / 4 - yoe / 100 + doy) - 719468

def fromDays (days : Int) : Option Date :=
  let z := days + 719468
  let era := z / 146097
  let doe := z % 146097
  let yoe := (doe - doe / 1460 + doe / 36524 - doe / 146096) / 365
  let doy := doe - (365 * yoe + yoe / 4 - yoe / 100)
  let mp := (5 * doy + 2) / 153
  let d := doy - (153 * mp + 2) / 5 + 1
  let m := if mp < 10 then mp + 3 else mp - 9
  let y := yoe + era * 400 + (if m ≤ 2 then 1 else 0)
  if y < 0 then none else fromYmd y.toNat m.toNat d.toNat

def nsPerDay : Int := 86400 * 1000000000

/-- The UTC date an instant falls on. -/
def ofUtcInstant (ns : Int) : Date :=
  (fromDays (ns / nsPerDay)).getD ⟨1970, 1, 1, by decide⟩

def pad (width value : Nat) : String :=
  let text := toString value
  String.ofList (List.replicate (width - text.length) '0') ++ text

instance : ToString Date where
  toString date := pad 4 date.year ++ "-" ++ pad 2 date.month ++ "-" ++ pad 2 date.day

example : (ofUtcInstant 1757376000000000000).month = 9 := by decide +kernel

end Date

def isDate (text : String) : Bool := (Date.parse text).isSome

end MeridianCore

namespace MeridianCore

/-- A date's place among the dates. -/
def Date.number (date : Date) : Nat := (date.year * 100 + date.month) * 100 + date.day

/-- An expiration window, plain dates inclusive: none on a side for no bound there. -/
structure Window where
  lower : Option Date := none
  upper : Option Date := none
  deriving DecidableEq

namespace Window

/-- Whether the window bounds anything. -/
def isSet (window : Window) : Bool := window.lower.isSome || window.upper.isSome

/-- Whether a series expiring on `date` is in the window. -/
def holds (window : Window) (date : Date) : Bool :=
  (window.lower.all fun lower => lower.number ≤ date.number) &&
    window.upper.all fun upper => date.number ≤ upper.number

/-- Whether every date `other` holds, this holds. -/
def covers (window other : Window) : Bool :=
  let lower := match window.lower, other.lower with
    | none, _ => true
    | some _, none => false
    | some a, some b => decide (a.number ≤ b.number)
  let upper := match window.upper, other.upper with
    | none, _ => true
    | some _, none => false
    | some a, some b => decide (b.number ≤ a.number)
  lower && upper

/-- The least window holding both. -/
def union (window other : Window) : Window where
  lower := match window.lower, other.lower with
    | some a, some b => some (if a.number ≤ b.number then a else b)
    | _, _ => none
  upper := match window.upper, other.upper with
    | some a, some b => some (if a.number ≤ b.number then b else a)
    | _, _ => none

end Window

end MeridianCore
