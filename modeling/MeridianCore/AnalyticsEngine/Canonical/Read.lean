import MeridianCore.AnalyticsEngine.Canonical.Write

/-! JSON text read: a value, whitespace about it, its strings with any escape and its numbers whole or not. Of a member named twice
the later is kept. -/

namespace MeridianCore.AnalyticsEngine.Canonical

def isSpace (character : Char) : Bool := character = ' ' ∨ character.toNat = 0x9 ∨ character.toNat = 0xA ∨ character.toNat = 0xD

def skip : List Char → List Char
  | [] => []
  | character :: rest => if isSpace character then skip rest else character :: rest

def hexValue (character : Char) : Option Nat :=
  if character.isDigit then some (character.toNat - '0'.toNat)
  else if 'a' ≤ character ∧ character ≤ 'f' then some (character.toNat - 'a'.toNat + 10)
  else if 'A' ≤ character ∧ character ≤ 'F' then some (character.toNat - 'A'.toNat + 10)
  else none

def readHex4 : List Char → Option (Nat × List Char)
  | a :: b :: c :: d :: rest => do
    let a ← hexValue a
    let b ← hexValue b
    let c ← hexValue c
    let d ← hexValue d
    return (a * 4096 + b * 256 + c * 16 + d, rest)
  | _ => none

/-- A code unit's character, with the low unit that follows a high one. -/
def readUnit (text : List Char) : Option (Char × List Char) := do
  let (unit, rest) ← readHex4 text
  if 0xD800 ≤ unit ∧ unit < 0xDC00 then
    match rest with
    | slash :: letter :: rest =>
      if slash = BACKSLASH ∧ letter = 'u' then
        let (low, rest) ← readHex4 rest
        if 0xDC00 ≤ low ∧ low < 0xE000 then return (Char.ofNat (0x10000 + (unit - 0xD800) * 0x400 + (low - 0xDC00)), rest) else none
      else none
    | _ => none
  else if 0xDC00 ≤ unit ∧ unit < 0xE000 then none
  else return (Char.ofNat unit, rest)

/-- What stands after a backslash. -/
def readEscape : List Char → Option (Char × List Char)
  | [] => none
  | letter :: rest =>
    if letter = 'u' then readUnit rest
    else if letter = QUOTE ∨ letter = BACKSLASH ∨ letter = '/' then some (letter, rest)
    else if letter = 'b' then some (Char.ofNat 0x8, rest)
    else if letter = 'f' then some (Char.ofNat 0xC, rest)
    else if letter = 'n' then some (Char.ofNat 0xA, rest)
    else if letter = 'r' then some (Char.ofNat 0xD, rest)
    else if letter = 't' then some (Char.ofNat 0x9, rest)
    else none

/-- A string's characters up to its closing quote, in so many steps. -/
def readCharacters : Nat → List Char → Option (List Char × List Char)
  | 0, _ => none
  | _ + 1, [] => none
  | fuel + 1, character :: rest =>
    if character = QUOTE then some ([], rest)
    else if character = BACKSLASH then do
      let (character, rest) ← readEscape rest
      let (others, rest) ← readCharacters fuel rest
      return (character :: others, rest)
    else if character.toNat < 0x20 then none
    else do
      let (others, rest) ← readCharacters fuel rest
      return (character :: others, rest)

def readString (text : List Char) : Option (String × List Char) :=
  match text with
  | quote :: rest =>
    if quote = QUOTE then (readCharacters (rest.length + 1) rest).map fun (characters, rest) => (String.ofList characters, rest)
    else none
  | [] => none

/-- The digits a text begins with. -/
def readDigits (text : List Char) : List Char × List Char := (text.takeWhile Char.isDigit, text.dropWhile Char.isDigit)

/-- A fraction, or none; nothing where a point has no digit after it. -/
def readFraction : List Char → Option (List Char × List Char)
  | [] => some ([], [])
  | point :: rest =>
    if point = '.' then
      let (digits, after) := readDigits rest
      if digits = [] then none else some (point :: digits, after)
    else some ([], point :: rest)

def readSign : List Char → List Char × List Char
  | [] => ([], [])
  | sign :: rest => if sign = '+' ∨ sign = '-' then ([sign], rest) else ([], sign :: rest)

/-- An exponent, or none; nothing where an `e` has no digit after it. -/
def readExponent : List Char → Option (List Char × List Char)
  | [] => some ([], [])
  | letter :: rest =>
    if letter = 'e' ∨ letter = 'E' then
      let (sign, rest) := readSign rest
      let (digits, after) := readDigits rest
      if digits = [] then none else some (letter :: sign ++ digits, after)
    else some ([], letter :: rest)

def readMinus : List Char → Bool × List Char
  | [] => (false, [])
  | sign :: rest => if sign = '-' then (true, rest) else (false, sign :: rest)

/-- A number: whole where it has no fraction and no exponent, is not minus nought, and 64 bits hold it. -/
def readNumber (text : List Char) : Option (Number × List Char) := do
  let (negative, body) := readMinus text
  let (digits, rest) := readDigits body
  if digits = [] ∨ (digits.head? = some '0' ∧ digits.length ≠ 1) then none
  else
    let (fraction, rest) ← readFraction rest
    let (exponent, rest) ← readExponent rest
    let size := Nat.ofDigitChars 10 digits 0
    let value : Int := if negative then -size else size
    let written := String.ofList ((if negative then ['-'] else []) ++ digits ++ fraction ++ exponent)
    if fraction = [] ∧ exponent = [] ∧ ¬(negative ∧ size = 0) ∧ -(2 ^ 63) ≤ value ∧ value < 2 ^ 64 then
      return (.whole value, rest)
    else return (.float written, rest)

/-- A member put before those after it, unless one of them has its name. -/
def placed (name : String) (value : Value) (members : List (String × Value)) : List (String × Value) :=
  if name ∈ members.map Prod.fst then members else (name, value) :: members

mutual

/-- A value and the text after it, in so many steps. -/
def readValue : Nat → List Char → Option (Value × List Char)
  | 0, _ => none
  | fuel + 1, text =>
    match skip text with
    | [] => none
    | first :: rest =>
      if first = QUOTE then (readString (first :: rest)).map fun (text, rest) => (.string text, rest)
      else if first = '[' then
        match skip rest with
        | [] => none
        | close :: after =>
          if close = ']' then some (.array [], after)
          else (readItems fuel (close :: after)).map fun (items, rest) => (.array items, rest)
      else if first = '{' then
        match skip rest with
        | [] => none
        | close :: after =>
          if close = '}' then some (.object [], after)
          else (readMembers fuel (close :: after)).map fun (members, rest) => (.object members, rest)
      else if "null".toList <+: first :: rest then some (.null, (first :: rest).drop 4)
      else if "true".toList <+: first :: rest then some (.bool true, (first :: rest).drop 4)
      else if "false".toList <+: first :: rest then some (.bool false, (first :: rest).drop 5)
      else (readNumber (first :: rest)).map fun (number, rest) => (.number number, rest)

def readItems : Nat → List Char → Option (List Value × List Char)
  | 0, _ => none
  | fuel + 1, text => do
    let (item, rest) ← readValue fuel text
    match skip rest with
    | [] => none
    | next :: rest =>
      if next = ',' then (readItems fuel rest).map fun (items, rest) => (item :: items, rest)
      else if next = ']' then some ([item], rest)
      else none

def readMembers : Nat → List Char → Option (List (String × Value) × List Char)
  | 0, _ => none
  | fuel + 1, text => do
    let (name, rest) ← readString (skip text)
    match skip rest with
    | [] => none
    | colon :: rest =>
      if colon = ':' then do
        let (value, rest) ← readValue fuel rest
        match skip rest with
        | [] => none
        | next :: rest =>
          if next = ',' then (readMembers fuel rest).map fun (members, rest) => (placed name value members, rest)
          else if next = '}' then some ([(name, value)], rest)
          else none
      else none

end

/-- A JSON text's value. -/
def parse (text : String) : Option Value := do
  let (value, rest) ← readValue (text.length + 1) text.toList
  if skip rest = [] then return value else none

end MeridianCore.AnalyticsEngine.Canonical
