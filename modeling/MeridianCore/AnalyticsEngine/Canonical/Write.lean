import MeridianCore.AnalyticsEngine.Json

/-! Canonical JSON: no fractional number, a whole one bare only where a double holds it exactly, strings with the fewest escapes and
an object's members in the order of their names' UTF-16 code units. -/

namespace MeridianCore.AnalyticsEngine.Canonical

/-- A number: a whole one that 64 bits hold, or a double, by its text. -/
inductive Number where
  | whole (value : Int)
  | float (text : String)
  deriving DecidableEq

/-- A JSON value. An object's members are as a map holds them, each name once. -/
inductive Value where
  | null
  | bool (value : Bool)
  | number (number : Number)
  | string (text : String)
  | array (items : List Value)
  | object (members : List (String × Value))

/-- Why a value has no canonical form. -/
structure NotCanonical where
  text : String
  deriving DecidableEq

/-- The largest whole number written bare, as a double holds it exactly. -/
def EXACT : Nat := 2 ^ 53

def QUOTE : Char := Char.ofNat 0x22

def BACKSLASH : Char := Char.ofNat 0x5C

/-- A code unit's four hex digits. -/
def hex4 (unit : Nat) : List Char :=
  [Nat.digitChar (unit / 4096 % 16), Nat.digitChar (unit / 256 % 16), Nat.digitChar (unit / 16 % 16), Nat.digitChar (unit % 16)]

def escaped (character : Char) : List Char :=
  if character = QUOTE then [BACKSLASH, QUOTE]
  else if character = BACKSLASH then [BACKSLASH, BACKSLASH]
  else if character.toNat = 0x8 then [BACKSLASH, 'b']
  else if character.toNat = 0xC then [BACKSLASH, 'f']
  else if character.toNat = 0xA then [BACKSLASH, 'n']
  else if character.toNat = 0xD then [BACKSLASH, 'r']
  else if character.toNat = 0x9 then [BACKSLASH, 't']
  else if character.toNat < 0x20 then BACKSLASH :: 'u' :: hex4 character.toNat
  else [character]

def isPlain (character : Char) : Bool := ¬(character.toNat < 0x20 ∨ character = QUOTE ∨ character = BACKSLASH)

def writeString (text : String) : List Char :=
  -- Nothing to escape, the common case: written whole.
  if text.toList.all isPlain then QUOTE :: (text.toList ++ [QUOTE])
  else QUOTE :: (text.toList.flatMap escaped ++ [QUOTE])

/-- A character's UTF-16 code units: two past the basic plane. -/
def units (character : Char) : List Nat :=
  if character.toNat < 0x10000 then [character.toNat]
  else [0xD800 + (character.toNat - 0x10000) / 0x400, 0xDC00 + (character.toNat - 0x10000) % 0x400]

def encodeUtf16 (text : String) : List Nat := text.toList.flatMap units

/-- Names in the order of their code units; of names all ASCII the order of their bytes, which is the same. -/
def sortedNames (names : List String) : List String :=
  if names.all fun name => name.toList.all fun character => character.toNat < 0x80 then
    names.insertionSort fun a b => a.toList.map Char.toNat ≤ b.toList.map Char.toNat
  else names.insertionSort fun a b => encodeUtf16 a ≤ encodeUtf16 b

def joined (parts : List (List Char)) : List Char := [','].intercalate parts

def writeNumber : Number → Except NotCanonical (List Char)
  | .whole value =>
    if value.natAbs < EXACT then .ok (wholeText value).toList
    else .error ⟨wholeText value ++ " is past what RFC 8785 writes exactly; write a 64-bit integer as a string"⟩
  | .float text =>
    .error ⟨text ++ " is a float, and canonical JSON here carries none: write a decimal as a string"⟩

/-- An object's member, its value written. -/
def writeMember (written : List (String × Except NotCanonical (List Char))) (name : String) : Except NotCanonical (List Char) := do
  let value ← (written.lookup name).getD (.error ⟨name⟩)
  return writeString name ++ ':' :: value

mutual

def write : Value → Except NotCanonical (List Char)
  | .null => .ok "null".toList
  | .bool true => .ok "true".toList
  | .bool false => .ok "false".toList
  | .number number => writeNumber number
  | .string text => .ok (writeString text)
  | .array items => do
    let parts ← writeItems items
    return '[' :: (joined parts ++ [']'])
  | .object members => do
    let parts ← (sortedNames (members.map Prod.fst)).mapM (writeMember (writeMembers members))
    return '{' :: (joined parts ++ ['}'])

def writeItems : List Value → Except NotCanonical (List (List Char))
  | [] => .ok []
  | item :: rest => do
    let first ← write item
    let rest ← writeItems rest
    return first :: rest

/-- Each member's value written, by its name. -/
def writeMembers : List (String × Value) → List (String × Except NotCanonical (List Char))
  | [] => []
  | (name, value) :: rest => (name, write value) :: writeMembers rest

end

/-- A value as canonical JSON. -/
def canonical (value : Value) : Except NotCanonical String := (write value).map String.ofList

/-- What a JSON value is: an object the value of each name it has. -/
inductive Meaning where
  | null
  | bool (value : Bool)
  | number (number : Number)
  | string (text : String)
  | array (items : List Meaning)
  | object (members : String → Option Meaning)

mutual

def meaning : Value → Meaning
  | .null => .null
  | .bool value => .bool value
  | .number number => .number number
  | .string text => .string text
  | .array items => .array (meaningItems items)
  | .object members => .object (meaningMembers members)

def meaningItems : List Value → List Meaning
  | [] => []
  | item :: rest => meaning item :: meaningItems rest

def meaningMembers : List (String × Value) → String → Option Meaning
  | [], _ => none
  | (member, value) :: rest, name => if name = member then some (meaning value) else meaningMembers rest name

end

mutual

/-- Whether every object in a value has each name once. -/
def Unique : Value → Prop
  | .array items => UniqueItems items
  | .object members => (members.map Prod.fst).Nodup ∧ UniqueMembers members
  | _ => True

def UniqueItems : List Value → Prop
  | [] => True
  | item :: rest => Unique item ∧ UniqueItems rest

def UniqueMembers : List (String × Value) → Prop
  | [] => True
  | (_, value) :: rest => Unique value ∧ UniqueMembers rest

end

example : canonical (.object [("b", .number (.whole 1)), ("a", .array [.bool true, .null, .string "x"])]) =
    .ok (String.ofList ['{', QUOTE, 'a', QUOTE, ':', '[', 't', 'r', 'u', 'e', ',', 'n', 'u', 'l', 'l', ',', QUOTE, 'x', QUOTE, ']', ',',
      QUOTE, 'b', QUOTE, ':', '1', '}']) := by decide +kernel

end MeridianCore.AnalyticsEngine.Canonical
