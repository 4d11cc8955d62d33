import MeridianCore.Domain.Exact

namespace MeridianCore

/-- A row's place in its partition's journal, and the one its row last had. -/
structure JournalRef where
  partition : String := ""
  sequence : Nat := 0
  previousSequence : Nat := 0
  deriving DecidableEq, Inhabited

structure Money where
  amount : Option Decimal := none
  currencyCode : String := ""
  instrumentId : String := ""
  deriving DecidableEq, Inhabited

/-- Who acted, carried on each record and never read. -/
abbrev Actor := String

inductive HoldingSide where
  | unspecified
  | long
  | short
  deriving DecidableEq, Inhabited

def HoldingSide.number : HoldingSide → Nat
  | unspecified => 0
  | long => 1
  | short => 2

theorem HoldingSide.number_injective {a b : HoldingSide} (same : a.number = b.number) : a = b := by
  cases a <;> cases b <;> first | rfl | cases same

inductive SettlementBucket where
  | unspecified
  | settled
  | pending
  | notStated
  deriving DecidableEq, Inhabited

structure PendingState where
  failing : Bool := false
  failReason : String := ""
  expectedDate : String := ""
  deriving DecidableEq, Inhabited

inductive LotSource where
  | unspecified
  | openingBalance
  | adjustment
  | execution
  deriving DecidableEq, Inhabited

structure LotTerms where
  unitCost : Option Money := none
  cost : Option Money := none
  acquiredDate : String := ""
  holdingPeriodStart : String := ""
  settlementDate : String := ""
  source : LotSource := .unspecified
  deriving DecidableEq, Inhabited

/-- A pending settlement of a position as an opening balance states it. -/
structure PendingSettlement where
  valueDate : String := ""
  quantity : Option Decimal := none
  state : Option PendingState := none
  deriving DecidableEq, Inhabited

structure OpeningLot where
  quantity : Option Decimal := none
  terms : Option LotTerms := none
  deriving DecidableEq, Inhabited

/-- A position as an opening balance states it. -/
structure OpeningPosition where
  instrumentId : String := ""
  side : HoldingSide := .unspecified
  tradeDateQuantity : Option Decimal := none
  settledQuantity : Option Decimal := none
  pending : List PendingSettlement := []
  lots : List OpeningLot := []
  deriving DecidableEq, Inhabited

/-- One move of one position's bucket, and of the lot it opens or names. -/
structure MovementLine where
  instrumentId : String := ""
  side : HoldingSide := .unspecified
  bucket : SettlementBucket := .unspecified
  valueDate : String := ""
  quantity : Option Decimal := none
  lotId : String := ""
  opensLot : Option LotTerms := none
  pendingState : Option PendingState := none
  sleeve : String := ""
  deriving DecidableEq, Inhabited

structure LotRelief where
  relievedBy : JournalRef
  quantity : Exact
  proceeds : Option Money
  tradeDate : String
  deriving DecidableEq

/-- A lot's quantities are only ever written from an `Exact`, so they are held as one. -/
structure Lot where
  lotId : String
  openQuantity : Exact
  originalQuantity : Exact
  terms : Option LotTerms := none
  openedBy : Option JournalRef := none
  relievedBy : List JournalRef := []
  adjustedBy : List JournalRef := []
  sleeve : String := ""
  reliefs : List LotRelief := []
  factorMonthAwaited : String := ""
  deriving DecidableEq

inductive BasisCost where
  | costChange (change : Money)
  | statedCost (stated : Money)
  deriving DecidableEq

structure BasisAdjustment where
  lotId : String
  cost : Option BasisCost := none
  holdingPeriodStart : String := ""
  deriving DecidableEq

structure Encumbrance where
  kind : Nat := 0
  quantity : Option Decimal := none
  setBy : Option JournalRef := none
  deriving DecidableEq, Inhabited

structure OpeningSource where
  kind : Nat := 0
  name : String := ""
  asOfDate : String := ""
  deriving DecidableEq, Inhabited

structure BreakResolution where
  entries : List JournalRef := []
  explanation : String := ""
  deriving DecidableEq, Inhabited

inductive BreakState where
  | unspecified
  | open
  | resolved
  | closed
  deriving DecidableEq, Inhabited

/-- What a break is of: a position, or a figure of an agreement's. -/
inductive BreakSubject where
  | position (instrumentId : String) (side : HoldingSide)
  | figure (figure instrumentId : String)
  deriving DecidableEq

structure Break where
  breakId : String
  subject : Option BreakSubject := none
  state : BreakState := .unspecified
  resolution : Option BreakResolution := none
  lastChange : Option JournalRef := none
  deriving DecidableEq

structure StatementSegment where
  externalAccountId : String
  segment : String
  deriving DecidableEq

structure AccountFigures where
  businessDate : String
  agreement : Option StatementSegment := none
  lastChange : Option JournalRef := none
  deriving DecidableEq

inductive LotReliefMethod where
  | unspecified
  | firstInFirstOut
  | lastInFirstOut
  | highestCost
  | lowestCost
  | averageCost
  deriving DecidableEq, Inhabited

structure OpeningBalance where
  entryId : String := ""
  asOfDate : String := ""
  sources : List OpeningSource := []
  journal : Option JournalRef := none
  reason : String := ""
  deriving DecidableEq, Inhabited

structure AccountAttributes where
  accountId : String := ""
  baseCurrencyCode : String := ""
  lotReliefDefault : LotReliefMethod := .unspecified
  lastChange : Option JournalRef := none
  openingBalance : Option OpeningBalance := none
  waitsForCompliance : Bool := false
  errorAccount : Bool := false
  allocationAccount : Bool := false
  baseCashInstrumentId : String := ""
  deriving DecidableEq, Inhabited

inductive InstrumentType where
  | unspecified
  | moneyMarketFund
  | binaryEventContract
  | interestRate
  | rateCurve
  | index
  | listedOption
  | future
  | futureOption
  | commodity
  | bond
  | mbsPool
  | tba
  | cmoTranche
  | certificateOfDeposit
  deriving DecidableEq, Inhabited

/-- Whether a type is one of the five debt types. -/
def InstrumentType.isDebt : InstrumentType → Bool
  | bond | mbsPool | tba | cmoTranche | certificateOfDeposit => true
  | _ => false

inductive LifecycleEventKind where
  | unspecified
  | exercise
  | assignment
  | expiry
  | settlementVariation
  | couponReceived
  | redemption
  | paydown
  | accretion
  | tbaAllocation
  | strip
  | reconstitution
  | factorRevision
  deriving DecidableEq, Inhabited

inductive LifecycleEventState where
  | unspecified
  | proposed
  | answered
  | booked
  | superseded
  | claimOpen
  deriving DecidableEq, Inhabited

inductive RedemptionEventKind where
  | unspecified
  | maturity
  | fullCall
  | partialCall
  | put
  | sinkingFund
  deriving DecidableEq, Inhabited

/-- What changed hands on delivery: positive received into the account. -/
structure LifecycleDelivery where
  instrumentId : String := ""
  quantity : Option Decimal := none
  price : Option Money := none
  deriving DecidableEq, Inhabited

structure LifecycleEvent where
  eventId : String := ""
  accountId : String := ""
  instrumentId : String := ""
  kind : LifecycleEventKind := .unspecified
  state : LifecycleEventState := .unspecified
  quantity : Option Decimal := none
  eventDate : String := ""
  deliveries : List LifecycleDelivery := []
  cash : Option Money := none
  settlementPrice : Option Money := none
  externalEventId : String := ""
  answersEventId : String := ""
  proposalBasis : Option Money := none
  /-- The plugin's raw record, kept at the edge and never read. -/
  rawRecord : Option String := none
  lastChange : Option JournalRef := none
  redemptionKind : RedemptionEventKind := .unspecified
  redemptionPrice : Option Decimal := none
  periodStartDate : String := ""
  periodEndDate : String := ""
  recordDate : String := ""
  factor : Option Decimal := none
  priorFactor : Option Decimal := none
  faceChange : Option Decimal := none
  costChange : Option Money := none
  executionId : String := ""
  deriving DecidableEq, Inhabited

/-- What an entry says of itself beside what it did. -/
structure EntryMeta where
  entryId : String := ""
  kind : String := ""
  actor : Option Actor := none
  eventTimeNs : Int := 0
  receivedAtNs : Int := 0
  effectiveDate : String := ""
  reason : String := ""
  breakIds : List String := []
  idempotencyKey : String := ""
  deriving DecidableEq, Inhabited

end MeridianCore
