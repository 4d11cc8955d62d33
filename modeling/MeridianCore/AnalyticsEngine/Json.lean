import MeridianCore.AnalyticsEngine.Exact.Text

namespace MeridianCore.AnalyticsEngine
open Nat (ofDigitChars toDigits)
open Limbs

/-- A JSON value, its numbers whole: a part carries no other. -/
inductive Json where
  | null
  | bool (value : Bool)
  | number (value : Int)
  | string (text : String)
  | array (items : List Json)
  | object (fields : List (String × Json))

namespace Json

def get? (json : Json) (name : String) : Option Json :=
  match json with
  | .object fields => fields.lookup name
  | _ => none

/-- What is under a name, null where nothing is. -/
def get (json : Json) (name : String) : Json := (json.get? name).getD .null

/-- A string's text, empty for any other value. -/
def str (json : Json) : String :=
  match json with
  | .string text => text
  | _ => ""

/-- An array's items, none for any other value. -/
def items (json : Json) : List Json :=
  match json with
  | .array items => items
  | _ => []

def item (json : Json) (index : Nat) : Json := (json.items[index]?).getD .null

def strings (texts : List String) : Json := .array (texts.map .string)

/-- A number's value where a 64-bit signed integer holds it. -/
def asI64 (json : Json) : Option Int64 :=
  match json with
  | .number value => if -(2 ^ 63) ≤ value ∧ value < 2 ^ 63 then some (Int64.ofInt value) else none
  | _ => none

def asU64 (json : Json) : Option UInt64 :=
  match json with
  | .number value => if 0 ≤ value ∧ value < 2 ^ 64 then some (UInt64.ofNat value.toNat) else none
  | _ => none

end Json

/-- A whole number's text. -/
def wholeText (value : Int) : String :=
  String.ofList (if value < 0 then '-' :: toDigits 10 value.natAbs else toDigits 10 value.natAbs)

def digitsOf (digits : List Char) : Option Nat :=
  if digits.isEmpty ∨ ¬ digits.all Char.isDigit then none else some (ofDigitChars 10 digits 0)

def parseI64 (text : String) : Option Int64 :=
  let (negative, digits) := Dec.signOf text.toList
  (digitsOf digits).bind fun size =>
    let value := signedValue negative size
    if -(2 ^ 63) ≤ value ∧ value < 2 ^ 63 then some (Int64.ofInt value) else none

/-- An unsigned number's text takes no minus. -/
def parseU64 (text : String) : Option UInt64 :=
  let (negative, digits) := Dec.signOf text.toList
  if negative then none
  else (digitsOf digits).bind fun size => if size < 2 ^ 64 then some (UInt64.ofNat size) else none

section texts

theorem digitsOf_toDigits (n : Nat) : digitsOf (toDigits 10 n) = some n := by
  have all : (toDigits 10 n).all Char.isDigit = true := List.all_eq_true.mpr fun _ => Limbs.digit_of_toDigits
  rw [digitsOf, if_neg, Nat.ofDigitChars_ten_toDigits]
  rintro (empty | other)
  · exact Nat.toDigits_ne_nil (List.isEmpty_iff.mp empty)
  · exact other all

theorem signOf_toDigits (n : Nat) : Dec.signOf (toDigits 10 n) = (false, toDigits 10 n) := by
  match digits : toDigits 10 n, @Nat.toDigits_ne_nil n 10 with
  | digit :: rest, _ => exact Dec.signOf_digit rest (Limbs.digit_of_toDigits (digits ▸ List.mem_cons_self))

@[simp] theorem parseI64_wholeText (value : Int64) : parseI64 (wholeText value.toInt) = some value := by
  have least := Int64.le_toInt value
  have most := Int64.toInt_lt value
  unfold parseI64 wholeText
  rw [String.toList_ofList]
  by_cases negative : value.toInt < 0
  · have sign : Dec.signOf ('-' :: toDigits 10 value.toInt.natAbs) = (true, toDigits 10 value.toInt.natAbs) := rfl
    have whole : signedValue true value.toInt.natAbs = value.toInt := by
      rw [signedValue_true]
      omega
    rw [if_pos negative, sign]
    dsimp only
    rw [digitsOf_toDigits, Option.bind_some, whole, if_pos ⟨least, most⟩, Int64.ofInt_toInt]
  · have whole : signedValue false value.toInt.natAbs = value.toInt := by
      rw [signedValue_false]
      omega
    rw [if_neg negative, signOf_toDigits]
    dsimp only
    rw [digitsOf_toDigits, Option.bind_some, whole, if_pos ⟨least, most⟩, Int64.ofInt_toInt]

@[simp] theorem parseU64_wholeText (value : UInt64) : parseU64 (wholeText value.toNat) = some value := by
  have above : ¬ ((value.toNat : Int) < 0) := by omega
  unfold parseU64 wholeText
  rw [String.toList_ofList, if_neg above, signOf_toDigits, Int.natAbs_natCast]
  dsimp only
  rw [if_neg (by decide), digitsOf_toDigits, Option.bind_some, if_pos value.toNat_lt, UInt64.ofNat_toNat]

@[simp] theorem asI64_number (value : Int64) : (Json.number value.toInt).asI64 = some value := by
  rw [Json.asI64, if_pos ⟨Int64.le_toInt value, Int64.toInt_lt value⟩, Int64.ofInt_toInt]

@[simp] theorem asU64_number (value : UInt32) : (Json.number value.toNat).asU64 = some (UInt64.ofNat value.toNat) := by
  have most := value.toNat_lt
  rw [Json.asU64, if_pos ⟨by omega, by omega⟩, Int.toNat_natCast]

end texts

/-- Why a part, or a case, does not read. -/
inductive CaseError where
  /-- A text that is not a name a part carries. -/
  | notAName (text : String)
  | notPlainDecimal (text : String)
  /-- A value that is not a decimal's text. -/
  | notDecimalText (json : Json)
  | notAnInteger (what : String)

/-- An exact decimal as a figure holds it: its integer and its scale, whichever form holds the integer. -/
structure Decimal where
  integer : Int
  scale : UInt32
  deriving DecidableEq

namespace Decimal

def ofDec (dec : Dec) : Decimal := ⟨dec.integer.value, dec.scale⟩

/-- The decimal held in the narrowest form. -/
def held (decimal : Decimal) : Dec :=
  ⟨Num.fromBig (Big.signed (decimal.integer < 0) (Big.magnitudeOf decimal.integer.natAbs) (Big.fits_magnitudeOf _)), decimal.scale⟩

def text (decimal : Decimal) : Option String := decimal.held.text

def parse (text : String) : Except CaseError Decimal :=
  match Dec.parse text with
  | .ok dec => .ok (ofDec dec)
  | .error bad => .error (.notPlainDecimal bad.text)

theorem ofDec_held (decimal : Decimal) : ofDec decimal.held = decimal := by
  have whole : decimal.held.integer.value = decimal.integer := by
    rw [held, Num.value_fromBig, Big.value_signed, Big.ofDigits_magnitudeOf]
    by_cases below : decimal.integer < 0
    · rw [decide_eq_true below, signedValue_true]
      omega
    · rw [decide_eq_false below, signedValue_false]
      omega
  rw [ofDec, whole]
  rfl

/-- A decimal's text is written where its scale is within a format's width, and read back as it was. -/
theorem text_iff (decimal : Decimal) :
    (∃ text, decimal.text = some text ∧ parse text = .ok decimal) ↔ decimal.scale.toNat < Dec.maxWidth := by
  constructor
  · rintro ⟨text, written, -⟩
    by_contra wide
    have wide : ¬ decimal.held.scale.toNat < Dec.maxWidth := wide
    have none := Dec.text_plain decimal.held
    rw [if_neg wide] at none
    rw [Decimal.text, none] at written
    cases written
  · intro within
    obtain ⟨text, read, written, ok, integer, scale⟩ := @Dec.parse_text decimal.held within
    refine ⟨text, written, ?_⟩
    have same : ofDec read = ofDec decimal.held := by rw [ofDec, ofDec, integer, scale]
    rw [parse, ok]
    exact congrArg Except.ok (same.trans (ofDec_held decimal))

end Decimal

end MeridianCore.AnalyticsEngine
