import MeridianCore.Instruments.Records
import MeridianCore.Ordered.Map
import MeridianCore.Ordered.Tracks

namespace MeridianCore.Instruments

/-- The order a resolve sorts its identifiers in: by scheme, then source, then value. -/
def Asked.before (a b : Asked) : Bool :=
  ((compare a.scheme b.scheme).then ((compare a.source b.source).then (compare a.value b.value))).isLE

/-- The identifiers a resolve carried, in one order whatever order they came in, each once. -/
def identifierSet (members : List Asked) : List Asked :=
  (members.insertionSort fun a b => a.before b = true).destutter (· ≠ ·)

theorem mem_of_identifierSet {members : List Asked} {asked : Asked} (member : asked ∈ identifierSet members) :
    asked ∈ members := by
  have sorted := (List.destutter_sublist _ _).subset member
  exact (List.mem_insertionSort _).mp sorted

/-- A text with its length ahead of it. -/
def lengthed (text : String) : String := toString text.utf8ByteSize ++ ":" ++ text

/-- One string a set: each field with its length ahead of it, so none is read as a separator. -/
def setKey (members : List Asked) : String :=
  members.foldl (fun key member => key ++ lengthed member.scheme ++ lengthed member.source ++ lengthed member.value) ""

/-- What asking for a set's record did. -/
inductive Stood where
  | minted
  | alreadyHeld
  deriving DecidableEq, Inhabited

/-- What writing a record's next version did. -/
inductive Written where
  | stored
  | stale (held : Int)
  | missing
  deriving DecidableEq, Inhabited

/-- What the store keeps. -/
structure Held where
  byId : BTreeMap String Instrument := ∅
  /-- A set's key to the record minted for it. -/
  mintedFor : BTreeMap String String := ∅
  /-- When each record's first version was recorded, its history's oldest. -/
  mintedAtNs : BTreeMap String Int := ∅
  replacements : BTreeMap String String := ∅
  /-- How far the platform's feed was read. -/
  feedCursor : Int := 0
  deriving Inhabited

namespace Held

/-- What replaced an ID, if anything did. -/
def replacementOf (held : Held) : Pointers String := fun id => held.replacements[id]?

/-- Every record held, by ID. -/
def all (held : Held) : List Instrument := held.byId.toList.map (·.2)

/-- Every record this identifier mapped to then. -/
def matching (held : Held) (asked : Asked) (asOfNs : Int) : List Instrument :=
  held.all.filter fun record => record.namedAt asked asOfNs

/-- Every window this identifier has had on any record. -/
def windows (held : Held) (asked : Asked) : List Identifier :=
  held.all.flatMap fun record => record.identifiers.filter fun identifier => identifier.asked = asked

/-- The record minted for a set, the candidate where there was none. -/
def minted (held : Held) (candidate : Instrument) (key : String) : Instrument × Stood :=
  match (held.mintedFor[key]?).bind fun id => held.byId[id]? with
  | some record => (record, .alreadyHeld)
  | none => (candidate, .minted)

def mint (held : Held) (candidate : Instrument) (key : String) : Held :=
  match (held.minted candidate key).2 with
  | .alreadyHeld => held
  | .minted =>
    { held with
      mintedFor := held.mintedFor.insert key candidate.instrumentId
      mintedAtNs := held.mintedAtNs.insert candidate.instrumentId candidate.recordTimeNs
      byId := held.byId.insert candidate.instrumentId candidate }

/-- A record written as its next version, unless it has moved past the one the change was made against. -/
def write (held : Held) (record : Instrument) (expected : Int) : Held × Written :=
  match held.byId[record.instrumentId]? with
  | none => (held, .missing)
  | some kept =>
    if kept.version ≠ expected then (held, .stale kept.version)
    else ({ held with byId := held.byId.insert record.instrumentId record }, .stored)

/-- A replacement recorded; the first one stands. -/
def replace (held : Held) (replacedId replacedBy : String) : Held :=
  if held.replacements[replacedId]?.isSome then held
  else { held with replacements := held.replacements.insert replacedId replacedBy }

end Held

/-- A call on the store that changes it. -/
inductive Call where
  | mint (candidate : Instrument) (key : String)
  | write (record : Instrument) (expected : Int)
  | replace (replacedId replacedBy : String)
  | readTo (sequence : Int)

/-- The store after a call. -/
def Held.call (held : Held) : Call → Held
  | .mint candidate key => held.mint candidate key
  | .write record expected => (held.write record expected).1
  | .replace replacedId replacedBy => held.replace replacedId replacedBy
  | .readTo sequence => { held with feedCursor := sequence }

/-- The store after calls made in their order. -/
def Held.calls (held : Held) (calls : List Call) : Held := calls.foldl Held.call held

/-- How many replacements are followed before stopping. -/
def longestChain : Nat := 8

/-- What an ID has become: itself, unless it was replaced. -/
def current (held : Held) (instrumentId : String) : String :=
  held.replacementOf.follow longestChain [instrumentId] instrumentId

/-- An identifier joining a record: its window opens where the last it had on any record closed, from the
start where none ever did. -/
def windowFor (held : Held) (asked : Asked) : Identifier where
  scheme := asked.scheme
  value := asked.value
  source := asked.source
  validFromNs := ((held.windows asked).filterMap (·.validToNs)).max?.getD 0

/-- The records other than one, as they are now, that carry an identifier at a date. -/
def holders (held : Held) (asked : Asked) (asOfNs : Int) (found : String) : List String :=
  (((held.matching asked asOfNs).map fun record => current held record.instrumentId).filter (· ≠ found)).eraseDups

@[simp] theorem asked_windowFor (held : Held) (asked : Asked) : (windowFor held asked).asked = asked := rfl

@[simp] theorem isOpen_windowFor (held : Held) (asked : Asked) : (windowFor held asked).isOpen = true := rfl

namespace Held
variable {held : Held} {record candidate : Instrument} {key id : String} {expected : Int}

theorem calls_cons (held : Held) (call : Call) (rest : List Call) :
    held.calls (call :: rest) = (held.call call).calls rest := rfl

@[simp] theorem calls_nil (held : Held) : held.calls [] = held := rfl

theorem write_held {kept : Instrument} (found : held.byId[record.instrumentId]? = some kept)
    (same : kept.version = expected) :
    held.write record expected = ({ held with byId := held.byId.insert record.instrumentId record }, .stored) := by
  rw [write, found]
  simp [same]

theorem minted_none (absent : (held.mintedFor[key]?).bind (fun id => held.byId[id]?) = none) :
    held.minted candidate key = (candidate, .minted) := by
  rw [minted, absent]

theorem minted_some (found : (held.mintedFor[key]?).bind (fun id => held.byId[id]?) = some record) :
    held.minted candidate key = (record, .alreadyHeld) := by
  rw [minted, found]

theorem mint_none (absent : (held.mintedFor[key]?).bind (fun id => held.byId[id]?) = none) :
    held.mint candidate key =
      { held with
        mintedFor := held.mintedFor.insert key candidate.instrumentId
        mintedAtNs := held.mintedAtNs.insert candidate.instrumentId candidate.recordTimeNs
        byId := held.byId.insert candidate.instrumentId candidate } := by
  rw [mint, minted_none absent]

theorem mint_some (found : (held.mintedFor[key]?).bind (fun id => held.byId[id]?) = some record) :
    held.mint candidate key = held := by
  rw [mint, minted_some found]

theorem replace_fresh {by_ : String} (fresh : held.replacementOf id = none) :
    held.replace id by_ = { held with replacements := held.replacements.insert id by_ } := by
  rw [replace, show held.replacements[id]? = none from fresh]
  rfl

theorem replace_stands {by_ : String} (replaced : held.replacementOf id ≠ none) : held.replace id by_ = held := by
  have standing : held.replacements[id]?.isSome = true := Option.isSome_iff_ne_none.mpr replaced
  rw [replace, if_pos standing]

end Held

end MeridianCore.Instruments
