import MeridianCore.Bor.Orders.Fold

namespace MeridianCore.Bor

/-- A position's key within its account. -/
structure Key where
  instrument : String
  side : HoldingSide
  sleeve : String
  deriving DecidableEq

namespace Key

instance : Ord Key :=
  ⟨compareLex (compareOn Key.instrument)
    (compareLex (compareOn fun key => key.side.number) (compareOn Key.sleeve))⟩

instance : Std.TransOrd Key :=
  inferInstanceAs (Std.TransCmp (compareLex (compareOn Key.instrument)
    (compareLex (compareOn fun key => key.side.number) (compareOn Key.sleeve))))

instance : Std.LawfulEqOrd Key where
  eq_of_compare {a b} equal := by
    obtain ⟨instrument, rest⟩ := Ordering.then_eq_eq.mp (show Ordering.then _ _ = .eq from equal)
    obtain ⟨side, sleeve⟩ := Ordering.then_eq_eq.mp (show Ordering.then _ _ = .eq from rest)
    have sameInstrument : a.instrument = b.instrument := Std.LawfulEqOrd.eq_of_compare instrument
    have sameSide : a.side = b.side := HoldingSide.number_injective (Std.LawfulEqOrd.eq_of_compare side)
    have sameSleeve : a.sleeve = b.sleeve := Std.LawfulEqOrd.eq_of_compare sleeve
    cases a
    cases b
    simp_all

end Key

/-- The position a line moves. -/
def lineKey (line : MovementLine) : Key := ⟨line.instrumentId, line.side, line.sleeve⟩

/-- What an entry did, as the projection replays it. -/
structure Body where
  lines : List MovementLine := []
  basisAdjustments : List BasisAdjustment := []
  priorHoldingPeriodStarts : List String := []
  /-- The lots whose cost this makes unknown again: a reversal of a stated cost. -/
  restoredUnknownCosts : List String := []
  sources : List OpeningSource := []
  opening : Option OpeningBalance := none
  clearsOpening : Bool := false
  breaks : List Break := []
  resolvedByThis : List String := []
  figures : List AccountFigures := []
  attributes : Option AccountAttributes := none
  tombstones : List (String × HoldingSide) := []
  reverses : String := ""
  eventReference : String := ""
  encumbrances : List (String × HoldingSide × List Encumbrance) := []
  acts : List Act := []
  /-- Its lines are a fill's or a charge's: a cash line may take the account's cash below zero. -/
  trade : Bool := false
  statesWaits : Bool := false
  lifecycleEvents : List LifecycleEvent := []

/-- One entry, numbered; an entry being made has no last sequence yet, and it is zero. -/
structure Entry where
  entryId : String
  accountId : String
  partition : String
  firstSequence : Nat
  lastSequence : Nat
  messageId : String := ""
  idempotencyKey : String := ""
  entryMeta : EntryMeta
  causeInstanceId : String := ""
  body : Body

namespace Body

/-- Whether the entry moves a position. -/
def movesPositions (body : Body) : Bool := body.lines ≠ [] || !body.basisAdjustments.isEmpty

end Body

def isRoll : Act → Bool
  | .valueDateRolled _ _ => true
  | _ => false

/-- An entry as the account's later acts need it. -/
structure EntryIndex where
  entryId : String
  kind : String
  effectiveDate : String
  first : JournalRef
  reversedBy : Option String
  movesPositions : Bool
  reverses : String
  acts : Bool
  rolls : Bool
  deriving DecidableEq

def EntryIndex.of (entry : Entry) (first : JournalRef) : EntryIndex where
  entryId := entry.entryId
  kind := entry.entryMeta.kind
  effectiveDate := entry.entryMeta.effectiveDate
  first := first
  reversedBy := none
  movesPositions := entry.body.movesPositions
  reverses := entry.body.reverses
  acts := !entry.body.acts.isEmpty
  rolls := entry.body.acts.any isRoll

end MeridianCore.Bor
