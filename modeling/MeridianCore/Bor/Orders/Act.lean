import MeridianCore.Bor.Became

namespace MeridianCore.Bor

/-- The factor row a factor was taken from, and where it is provisional the month awaited. -/
structure FactorRow where
  month : String := ""
  version : Nat := 0
  paymentDate : String := ""
  awaited : String := ""
  deriving DecidableEq, Inhabited

/-- One thing the book did on the order path, as an entry keeps it. -/
inductive Act where
  | opened (order : Order) (released : Bool)
  | terms (order : Order)
  | released (orderId : String)
  | releaseRequested (orderId : String)
  | recalled (orderId : String)
  | ended (orderId : String) (state : OrderState)
  | ending (orderId : String) (state : OrderState)
  | condition (orderId : String) (condition : Nat) (set : Bool) (standing : StandingOrderCondition)
  | overridden (orderId : String)
  | checked (orderId : String) (check : Check)
  | changeOpened (request : ChangeRequest)
  | changeOutcome (changeRequestId : String) (outcome : ChangeRequestOutcome)
  | placementOpened (placement : Placement)
  | placementQuoted (placementId : String) (quote : PlacementQuote)
  | quotePicked (placementId quoteId : String)
  | netLinked (orderId netOrderId netAccountId : String)
  | placementRefused (orderId : String)
  | acceptRefused (executionIds : List String)
  | placementReported (report : ReportPlacementRequest)
  | executed (execution : Execution) (sender venueAccountCode venueClientOrderId factorTaken : String)
      (factorRow : FactorRow)
  | factorRevised (executionId factorTaken : String) (factorRow : FactorRow) (lotIds : List String)
  | capacityBackfilled (executionId : String) (capacity : Capacity)
  | notRecordedBackfilled (bookingId : String) (allocationIds : List String)
  | fixedIncomeBackfill (cutoffNs : Int) (done : Bool)
  | accepted (executionIds : List String) (orderId placementId : String) (lineCounts : List Nat)
      (newOrderNote : String)
  | dontKnow (executionIds : List String) (reason : Nat) (text : String)
  | valueDateRolled (roll : ReportValueDateRollRequest) (sender : String)
  | charged (charge : Charge)
  | unplaced (fact : UnplacedFact) (sender : String)
  | placed (unplacedId : String)
  | locateOpened (locate : Locate)
  | locateAnswered (locateRecordId : String) (answer : LocateAnswer)
  | locateUsed (locateRecordId : String) (used : LocateUse)
  | instructed (key : String) (instruction : TradingInstruction)
  | bookingOpened (booking : Booking) (lines : Nat × Nat)
  | bookingHeld (bookingId reason : String)
  | bookingHandedOff (bookingId : String)
  | bookingClosed (bookingId : String)
  | bookingCancelled (bookingId reason : String)
  | bookingReplaced (bookingId : String) (allocations : List Allocation) (effectiveDate reason : String)
      (lines : Nat × Nat)
  | bookingMoved (bookingId reason : String)
  | allocationReceived (bookingId fromAccount : String) (allocation : Allocation) (memberOrderId : String)
      (lines : Nat × Nat) (factor factorMonthAwaited : String)
  | allocationWithdrawn (bookingId allocationId : String)
  | giveUpRecorded (executionId bookingId allocationId : String) (record : GiveUpRecord)
  | sleeveCrossed (cross : SleeveCross)
  | alertRaised (alert : Alert)
  | alertAcknowledged (alertId reason : String)
  | alertCleared (alertId : String)
  | localRecordOrdersSet (allows : Bool)
  | agentOrdersDemoOnlySet (on : Bool)

/-- An order as the book holds it: its terms, and what its journal says. -/
structure OrderHeld where
  order : Order := {}
  released : Bool := false
  releaseRequested : Bool := false
  ended : Option OrderState := none
  /-- A cancel or an expiry waiting on its live placements and children. -/
  ending : Option OrderState := none
  conditions : BTreeMap Nat StandingOrderCondition := ∅
  checks : List Check := []
  overriddenVersion : Option Nat := none
  changeRequests : List String := []
  placements : List String := []
  executions : List String := []
  charges : List String := []
  children : List String := []
  version : Nat := 0
  lastChange : Option JournalRef := none
  openedBy : String := ""
  openedAtNs : Int := 0

structure PlacementHeld where
  placement : Placement := {}
  state : PlacementState := .unspecified
  conditions : BTreeMap Nat StandingPlacementCondition := ∅
  checks : List Check := []
  changeRequests : List String := []
  executions : List String := []
  charges : List String := []
  lastChange : Option JournalRef := none

/-- An execution, the entry that recorded it, and what superseded it. -/
structure ExecutionHeld where
  execution : Execution := {}
  entryId : String := ""
  sender : String := ""
  supersededBy : Option String := none
  venueAccountCode : String := ""
  venueClientOrderId : String := ""
  /-- Where an accept moved its position: the accept's entry, the first of its lines and how many. -/
  acceptedLines : Option (String × Nat × Nat) := none
  factorTaken : String := ""
  factorRow : FactorRow := {}

structure LocateHeld where
  locate : Locate := {}
  uses : List LocateUse := []

structure BookingHeld where
  booking : Booking := {}
  state : BookingState := .unspecified
  heldReason : String := ""
  lines : String × Nat × Nat := ("", 0, 0)
  version : Nat := 0
  heldAlert : String := ""
  bookedAt : Nat := 0

/-- An allocation of another account's booking this account received. -/
structure ReceivedHeld where
  bookingId : String := ""
  fromAccount : String := ""
  allocation : Allocation := {}
  memberOrderId : String := ""
  lines : String × Nat × Nat := ("", 0, 0)
  withdrawn : Bool := false

/-- Two names together, in the order of the first and then of the second. -/
structure TextPair where
  first : String
  second : String
  deriving DecidableEq

namespace TextPair

instance : Ord TextPair := ⟨compareLex (compareOn TextPair.first) (compareOn TextPair.second)⟩

instance : Std.TransOrd TextPair :=
  inferInstanceAs (Std.TransCmp (compareLex (compareOn TextPair.first) (compareOn TextPair.second)))

instance : Std.LawfulEqOrd TextPair where
  eq_of_compare {a b} equal := by
    obtain ⟨first, second⟩ := Ordering.then_eq_eq.mp (show Ordering.then _ _ = .eq from equal)
    have sameFirst : a.first = b.first := Std.LawfulEqOrd.eq_of_compare first
    have sameSecond : a.second = b.second := Std.LawfulEqOrd.eq_of_compare second
    cases a
    cases b
    simp_all

end TextPair

/-- The order path's records in one account's book. -/
structure Ledger where
  orders : BTreeMap String OrderHeld := ∅
  placements : BTreeMap String PlacementHeld := ∅
  executions : BTreeMap String ExecutionHeld := ∅
  charges : BTreeMap String Charge := ∅
  changes : BTreeMap String ChangeRequest := ∅
  unplaced : BTreeMap String UnplacedFact := ∅
  locates : BTreeMap String LocateHeld := ∅
  instructions : BTreeMap String TradingInstruction := ∅
  /-- Each venue fact applied, by the sending instance and the venue's identifiers. -/
  venueFacts : BTreeMap String String := ∅
  unplacedExecutions : BTreeMap String String := ∅
  orderEntries : BTreeMap String (List String) := ∅
  bookings : BTreeMap String BookingHeld := ∅
  /-- By booking and allocation. -/
  received : BTreeMap TextPair ReceivedHeld := ∅
  sleeveCrosses : BTreeMap String SleeveCross := ∅
  alerts : BTreeMap String Alert := ∅
  localRecordOrders : Option Bool := none
  agentOrdersDemoOnly : Option Bool := none
  fixedIncomeBackfill : Option (Int × Bool) := none

/-- The records an entry's acts change, each once, in the order they are numbered. -/
structure Touched where
  orders : List String := []
  placements : List String := []
  executions : List String := []
  unplaced : List String := []
  locates : List String := []
  instructions : List String := []
  bookings : List String := []
  alerts : List String := []
  settings : List String := []

/-- Named once: the list with `id` at its end, unless it is empty or there already. -/
def pushOnce (list : List String) (id : String) : List String :=
  if id ≠ "" ∧ id ∉ list then list ++ [id] else list

/-- A dedup key's parts joined by a separator no identifier holds. -/
def keyOf (parts : List String) : String := String.intercalate "\u001f" parts

end MeridianCore.Bor
