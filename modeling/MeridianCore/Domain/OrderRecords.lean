import MeridianCore.Domain.Records

namespace MeridianCore

inductive Side where
  | unspecified
  | buy
  | sell
  | sellShort
  | sellShortExempt
  deriving DecidableEq, Inhabited

inductive OrderType where
  | unspecified
  | market
  | limit
  | stop
  | stopLimit
  | requestForQuote
  deriving DecidableEq, Inhabited

inductive TimeInForce where
  | unspecified
  | day
  | goodTillCancelled
  | goodTillDate
  | goodTillTime
  | immediateOrCancel
  | fillOrKill
  | atTheOpen
  | atTheClose
  deriving DecidableEq, Inhabited

inductive OrderState where
  | unspecified
  | proposed
  | refused
  | released
  | working
  | filled
  | cancelled
  | expired
  deriving DecidableEq, Inhabited

inductive PlacementState where
  | unspecified
  | queued
  | sent
  | working
  | doneForDay
  | filled
  | cancelled
  | expired
  | rejected
  deriving DecidableEq, Inhabited

inductive PlacementEvent where
  | unspecified
  | sent
  | acknowledged
  | replaced
  | doneForDay
  | restated
  | suspended
  | triggered
  | cancelled
  | expired
  | rejected
  | outcomeUnknown
  | outcomeResolved
  deriving DecidableEq, Inhabited

inductive OrderCondition where
  | unspecified
  | changeRequested
  | approvalRequired
  | awaitingCheck
  | claimed
  | held
  | paused
  | outcomeUnknown
  | doesNotTieOut
  | lateFact
  deriving DecidableEq, Inhabited

def OrderCondition.number : OrderCondition → Nat
  | unspecified => 0
  | changeRequested => 1
  | approvalRequired => 2
  | awaitingCheck => 3
  | claimed => 4
  | held => 5
  | paused => 6
  | outcomeUnknown => 7
  | doesNotTieOut => 8
  | lateFact => 9

inductive PlacementCondition where
  | unspecified
  | changeRequested
  | outcomeUnknown
  | suspended
  | awaitingTrigger
  | sentOnStaleReference
  deriving DecidableEq, Inhabited

def PlacementCondition.number : PlacementCondition → Nat
  | unspecified => 0
  | changeRequested => 1
  | outcomeUnknown => 2
  | suspended => 3
  | awaitingTrigger => 4
  | sentOnStaleReference => 5

inductive ChangeRequestOutcome where
  | unspecified
  | pending
  | applied
  | rejected
  deriving DecidableEq, Inhabited

inductive OrderChangeKind where
  | unspecified
  | cancel
  | amend
  | recall
  | withdraw
  | quantity
  deriving DecidableEq, Inhabited

inductive PlacementChangeKind where
  | unspecified
  | cancel
  | replace
  deriving DecidableEq, Inhabited

inductive FinalityLevel where
  | unspecified
  | awaitingAcceptance
  | matched
  | included
  | final
  | failed
  deriving DecidableEq, Inhabited

def FinalityLevel.name : FinalityLevel → String
  | unspecified => "FINALITY_LEVEL_UNSPECIFIED"
  | awaitingAcceptance => "FINALITY_LEVEL_AWAITING_ACCEPTANCE"
  | matched => "FINALITY_LEVEL_MATCHED"
  | included => "FINALITY_LEVEL_INCLUDED"
  | final => "FINALITY_LEVEL_FINAL"
  | failed => "FINALITY_LEVEL_FAILED"

inductive ExecutionKind where
  | unspecified
  | venueReported
  | manual
  | fromInventory
  | doneAway
  | fromChildOrders
  | internalCross
  | inferred
  deriving DecidableEq, Inhabited

inductive ExecutionState where
  | unspecified
  | unmatched
  | matched
  | dontKnow
  deriving DecidableEq, Inhabited

inductive OrderLinkKind where
  | unspecified
  | split
  | net
  deriving DecidableEq, Inhabited

inductive OrderOrigin where
  | unspecified
  | telephoned
  | acceptedExecution
  deriving DecidableEq, Inhabited

inductive MultiLegReportingType where
  | unspecified
  | single
  | leg
  | package
  deriving DecidableEq, Inhabited

inductive BookingState where
  | unspecified
  | booked
  | held
  | handedOff
  | closed
  | cancelled
  deriving DecidableEq, Inhabited

inductive AlertKind where
  | unspecified
  | errorAccountBooking
  | bookingHeld
  | compliance
  deriving DecidableEq, Inhabited

inductive AlertState where
  | unspecified
  | raised
  | acknowledged
  | cleared
  deriving DecidableEq, Inhabited

inductive LocateUseKind where
  | unspecified
  | reserve
  | giveBack
  | consume
  deriving DecidableEq, Inhabited

inductive PlacementQuoteOutcome where
  | unspecified
  | open
  | picked
  | accepted
  | expired
  | withdrawn
  | notPicked
  deriving DecidableEq, Inhabited

inductive TieOutReason where
  | unspecified
  | overfill
  | restatement
  deriving DecidableEq, Inhabited

inductive Capacity where
  | unspecified
  | agency
  | principal
  | risklessPrincipal
  | mixed
  deriving DecidableEq, Inhabited

inductive PriceBasis where
  | unspecified
  | perUnit
  | percentOfPar
  | yield
  | spread
  deriving DecidableEq, Inhabited

inductive CrossRateSource where
  | unspecified
  | netStreetRate
  | midAtNetting
  deriving DecidableEq, Inhabited

/-- The user a claim is for, by its subject. -/
inductive ClaimUser where
  | person (subject : String)
  | serviceAccount (subject : String)
  deriving DecidableEq

/-- Who claimed an order: a user, through a plugin's instance. -/
structure Claimant where
  instanceId : String := ""
  user : Option ClaimUser := none
  deriving DecidableEq, Inhabited

structure StandingOrderCondition where
  condition : OrderCondition := .unspecified
  reason : String := ""
  actor : Option Actor := none
  claimant : Option Claimant := none
  tieOutReason : TieOutReason := .unspecified
  deriving DecidableEq, Inhabited

structure StaleReference where
  dataset : String := ""
  ageNs : Int := 0
  ceilingNs : Int := 0
  deriving DecidableEq, Inhabited

structure StandingPlacementCondition where
  condition : PlacementCondition := .unspecified
  reason : String := ""
  actor : Option Actor := none
  unknownReason : Nat := 0
  statusAsReported : Option String := none
  staleReference : Option StaleReference := none
  deriving DecidableEq, Inhabited

/-- A check's verdict as its number: pass, warn, block or refuse. -/
abbrev CheckVerdict := Nat

namespace CheckVerdict

def unspecified : CheckVerdict := 0

def block : CheckVerdict := 3

def refuse : CheckVerdict := 4

/-- Whether the number names a verdict. -/
def known (verdict : CheckVerdict) : Bool := verdict ≤ refuse

end CheckVerdict

structure Check where
  verdict : CheckVerdict := CheckVerdict.unspecified
  orderVersion : Nat := 0
  placementId : String := ""
  rule : String := ""
  note : String := ""
  instanceId : String := ""
  recordedBy : Option Actor := none
  deriving DecidableEq, Inhabited

/-- One account's part of an allocation instruction: an amount, or a share of the whole. -/
structure AllocationLine where
  accountId : String := ""
  quantity : Option Decimal := none
  weight : Option Decimal := none
  sleeve : String := ""
  deriving DecidableEq, Inhabited

structure AllocationInstruction where
  lines : List AllocationLine := []
  deriving DecidableEq, Inhabited

structure OrderChange where
  kind : OrderChangeKind := .unspecified
  quantity : Option Decimal := none
  limitPrice : Option Money := none
  timeInForce : TimeInForce := .unspecified
  allocationInstruction : Option AllocationInstruction := none
  /-- The instructions now, whole, each by its number. -/
  executionInstructions : List Nat := []
  deriving DecidableEq, Inhabited

structure PlacementChange where
  kind : PlacementChangeKind := .unspecified
  quantity : Option Decimal := none
  limitPrice : Option Money := none
  timeInForce : TimeInForce := .unspecified
  deriving DecidableEq, Inhabited

inductive Change where
  | orderChange (change : OrderChange)
  | placementChange (change : PlacementChange)
  deriving DecidableEq

structure ChangeRequest where
  changeRequestId : String := ""
  orderId : String := ""
  placementId : String := ""
  change : Option Change := none
  reason : String := ""
  entry : Option EntryMeta := none
  outcome : ChangeRequestOutcome := .unspecified
  deriving DecidableEq, Inhabited

structure PlacementQuote where
  quoteId : String := ""
  dealerId : String := ""
  price : Option Money := none
  quantity : Option Decimal := none
  outcome : PlacementQuoteOutcome := .unspecified
  deriving DecidableEq, Inhabited

structure PlacementStatus where
  state : PlacementState := .unspecified
  conditions : List StandingPlacementCondition := []
  deriving DecidableEq, Inhabited

inductive PlacementType where
  | unspecified
  | dma
  | algo
  | care
  | rfq
  | manual
  deriving DecidableEq, Inhabited

namespace PlacementType

def ofNumber : Nat → Option PlacementType
  | 0 => some .unspecified
  | 1 => some .dma
  | 2 => some .algo
  | 3 => some .care
  | 4 => some .rfq
  | 5 => some .manual
  | _ => none

def words : PlacementType → String
  | unspecified => "unspecified"
  | dma => "dma"
  | algo => "algo"
  | care => "care"
  | rfq => "rfq"
  | manual => "manual"

end PlacementType

structure StrategyInstruction where
  kind : Nat := 0
  deriving DecidableEq, Inhabited

structure Placement where
  placementId : String := ""
  orderId : String := ""
  accountId : String := ""
  emsInstanceId : String := ""
  connectivityInstanceId : String := ""
  venueAccountCode : String := ""
  quantity : Option Decimal := none
  limitPrice : Option Money := none
  timeInForce : TimeInForce := .unspecified
  strategy : Option StrategyInstruction := none
  destination : String := ""
  placementType : PlacementType := .unspecified
  counterpartyContact : String := ""
  agreedAtNs : Int := 0
  agreedPrecision : Nat := 0
  routedAtNs : Int := 0
  routedPrecision : Nat := 0
  venueOrderId : String := ""
  status : Option PlacementStatus := none
  checks : List Check := []
  rejectionReason : Nat := 0
  rejectionAsReported : Option String := none
  lastChange : Option JournalRef := none
  venueOrderIds : List String := []
  changeRequests : List ChangeRequest := []
  quotes : List PlacementQuote := []
  pickedQuoteId : String := ""
  deriving DecidableEq, Inhabited

structure Finality where
  level : FinalityLevel := .unspecified
  atNs : Int := 0
  deriving DecidableEq, Inhabited

structure Fee where
  kind : Nat := 0
  amount : Option Money := none
  /-- Whether it enters the cost of the lot an allocation opens. -/
  capitalised : Bool := false
  deriving DecidableEq, Inhabited

structure GiveUpRecord where
  answer : Nat := 0
  primeReference : String := ""
  reason : String := ""
  entry : Option EntryMeta := none
  deriving DecidableEq, Inhabited

structure Execution where
  executionId : String := ""
  orderId : String := ""
  placementId : String := ""
  accountId : String := ""
  instrumentId : String := ""
  sleeve : String := ""
  side : Side := .unspecified
  quantity : Option Decimal := none
  price : Option Money := none
  tradeDate : String := ""
  venueExecutionId : String := ""
  kind : ExecutionKind := .unspecified
  finality : Option Finality := none
  fees : List Fee := []
  settlementDate : String := ""
  computedSettlementDate : String := ""
  supersedes : String := ""
  lastChange : Option JournalRef := none
  effectiveDate : String := ""
  state : ExecutionState := .unspecified
  venueOrderId : String := ""
  dkReason : Nat := 0
  dkText : String := ""
  venueClientOrderId : String := ""
  giveUpAnswers : List GiveUpRecord := []
  crossRateSource : CrossRateSource := .unspecified
  multiLegReportingType : MultiLegReportingType := .unspecified
  packageExecutionId : String := ""
  factorUsed : Option Decimal := none
  settlementDateUnknown : Bool := false
  capacity : Capacity := .unspecified
  factorTaken : Option Decimal := none
  factorMonthAwaited : String := ""
  deriving DecidableEq, Inhabited

structure Charge where
  chargeId : String := ""
  placementId : String := ""
  orderId : String := ""
  accountId : String := ""
  fee : Option Fee := none
  tradeDate : String := ""
  settlementDate : String := ""
  deriving DecidableEq, Inhabited

structure OrderLink where
  kind : OrderLinkKind := .unspecified
  parentOrderId : String := ""
  deriving DecidableEq, Inhabited

structure OrderQuantities where
  ordered : Exact
  reportedFilled : Exact
  finalFilled : Exact
  awaitingAcceptance : Exact
  committed : Exact
  idle : Exact
  leaves : Exact
  deriving DecidableEq

structure OrderStatus where
  state : OrderState
  conditions : List StandingOrderCondition
  quantities : OrderQuantities
  deriving DecidableEq

structure Order where
  orderId : String := ""
  accountId : String := ""
  instrumentId : String := ""
  sleeve : String := ""
  side : Side := .unspecified
  quantity : Option Decimal := none
  cashQuantity : Option Money := none
  orderType : OrderType := .unspecified
  limitPrice : Option Money := none
  timeInForce : TimeInForce := .unspecified
  expireDate : String := ""
  expireTimeNs : Int := 0
  lotReliefMethod : LotReliefMethod := .unspecified
  relieveLotIds : List String := []
  allocationInstruction : Option AllocationInstruction := none
  executionInstructions : List Nat := []
  /-- An FX order's other currency: with the instrument, its pair. -/
  quoteCurrency : String := ""
  link : Option OrderLink := none
  origin : OrderOrigin := .unspecified
  venueOrderId : String := ""
  status : Option OrderStatus := none
  checks : List Check := []
  changeRequests : List ChangeRequest := []
  placements : List Placement := []
  executions : List Execution := []
  charges : List Charge := []
  lastChange : Option JournalRef := none
  blockMemberOrderIds : List String := []
  sleeveCrossIds : List String := []
  netMemberOrderIds : List String := []
  deriving DecidableEq, Inhabited

structure RequestOrderChangeRequest where
  orderId : String := ""
  change : Option OrderChange := none
  reason : String := ""
  idempotencyKey : String := ""
  deriving DecidableEq, Inhabited

structure RecordCheckRequest where
  orderId : String := ""
  orderVersion : Nat := 0
  placementId : String := ""
  verdict : CheckVerdict := CheckVerdict.unspecified
  rule : String := ""
  note : String := ""
  idempotencyKey : String := ""
  deriving DecidableEq, Inhabited

inductive ApprovalDecision where
  | unspecified
  | require
  | approve
  | override
  | reject
  deriving DecidableEq, Inhabited

structure DecideApprovalRequest where
  orderId : String := ""
  decision : ApprovalDecision := .unspecified
  reason : String := ""
  idempotencyKey : String := ""
  deriving DecidableEq, Inhabited

structure ReleaseOrderRequest where
  orderId : String := ""
  idempotencyKey : String := ""
  deriving DecidableEq, Inhabited

structure CreatePlacementRequest where
  orderId : String := ""
  connectivityInstanceId : String := ""
  venueAccountCode : String := ""
  quantity : Option Decimal := none
  limitPrice : Option Money := none
  timeInForce : TimeInForce := .unspecified
  strategy : Option StrategyInstruction := none
  destination : String := ""
  emsInstanceId : String := ""
  idempotencyKey : String := ""
  /-- The type's number, where it names one. -/
  placementType : Nat := 0
  counterpartyContact : String := ""
  agreedAtNs : Int := 0
  agreedPrecision : Nat := 0
  staleReference : Option StaleReference := none
  deriving DecidableEq, Inhabited

/-- What the venue did with a placement. -/
structure ReportPlacementRequest where
  placementId : String := ""
  event : PlacementEvent := .unspecified
  venueOrderId : String := ""
  routedAtNs : Int := 0
  routedPrecision : Nat := 0
  rejectionReason : Nat := 0
  rejectionAsReported : Option String := none
  unknownReason : Nat := 0
  statusAsReported : Option String := none
  quantity : Option Decimal := none
  limitPrice : Option Money := none
  deriving DecidableEq, Inhabited

/-- A fill, a correction, a bust or a finality move, as it is sent. -/
structure ReportExecutionRequest where
  placementId : String := ""
  orderId : String := ""
  accountId : String := ""
  venueAccountCode : String := ""
  venueExecutionId : String := ""
  kind : ExecutionKind := .unspecified
  quantity : Option Decimal := none
  price : Option Money := none
  tradeDate : String := ""
  finality : Option Finality := none
  settlementDate : String := ""
  computedSettlementDate : String := ""
  fees : List Fee := []
  supersedes : String := ""
  idempotencyKey : String := ""
  effectiveDate : String := ""
  instrumentId : String := ""
  side : Side := .unspecified
  venueOrderId : String := ""
  venueClientOrderId : String := ""
  crossRateSource : CrossRateSource := .unspecified
  multiLegReportingType : MultiLegReportingType := .unspecified
  packageExecutionId : String := ""
  priceBasis : PriceBasis := .unspecified
  yieldStated : Bool := false
  factorUsed : Option Decimal := none
  settlementDateUnknown : Bool := false
  capacity : Capacity := .unspecified
  specialPrice : Bool := false
  specialPriceReason : String := ""
  deriving DecidableEq, Inhabited

structure ReportValueDateRollRequest where
  accountId : String := ""
  venueAccountCode : String := ""
  pair : List String := []
  fromValueDate : String := ""
  toValueDate : String := ""
  deriving DecidableEq, Inhabited

inductive UnplacedReason where
  | unspecified
  | unknownPlacement
  | unmappedVenueAccount
  | nothingPending
  | unknownExecution
  deriving DecidableEq, Inhabited

structure ReportChargeRequest where
  placementId : String := ""
  fee : Option Fee := none
  tradeDate : String := ""
  settlementDate : String := ""
  deriving DecidableEq, Inhabited

inductive Unplaceable where
  | execution (request : ReportExecutionRequest)
  | placement (request : ReportPlacementRequest)
  | charge (request : ReportChargeRequest)
  | locate
  | valueDateRoll (request : ReportValueDateRollRequest)
  | giveUp
  deriving DecidableEq

structure UnplacedFact where
  unplacedId : String := ""
  accountId : String := ""
  factKind : String := ""
  reason : UnplacedReason := .unspecified
  venueAccountCode : String := ""
  fact : Option Unplaceable := none
  placedBy : Option JournalRef := none
  lastChange : Option JournalRef := none
  deriving DecidableEq, Inhabited

structure LocateAnswer where
  quantityApproved : Option Decimal := none
  expiresAtNs : Int := 0
  locateId : String := ""
  deriving DecidableEq, Inhabited

structure LocateUse where
  kind : LocateUseKind := .unspecified
  quantity : Option Decimal := none
  orderId : String := ""
  deriving DecidableEq, Inhabited

structure Locate where
  locateRecordId : String := ""
  accountId : String := ""
  instrumentId : String := ""
  answer : Option LocateAnswer := none
  locateId : String := ""
  remaining : Option Exact := none
  uses : List LocateUse := []
  lastChange : Option JournalRef := none
  deriving DecidableEq, Inhabited

structure TradingInstruction where
  value : Nat := 0
  setterLevel : Nat := 0
  reason : String := ""
  entry : Option EntryMeta := none
  lastChange : Option JournalRef := none
  deriving DecidableEq, Inhabited

/-- Why an allocation went to an error account, by its number. -/
abbrev ErrorCause := Nat

namespace ErrorCause

def unspecified : ErrorCause := 0

def other : ErrorCause := 5

/-- Whether the number names a cause. -/
def known (cause : ErrorCause) : Bool := cause ≤ other

end ErrorCause

structure Allocation where
  allocationId : String := ""
  accountId : String := ""
  sleeve : String := ""
  quantity : Option Decimal := none
  averagePrice : Option Money := none
  grossAmount : Option Money := none
  fees : List Fee := []
  intendedSettlementDate : String := ""
  relieveLotIds : List String := []
  reason : String := ""
  errorCause : ErrorCause := ErrorCause.unspecified
  errorText : String := ""
  giveUpAnswers : List GiveUpRecord := []
  accruedInterest : Option Money := none
  markup : Option Money := none
  prevailingMarketPrice : Option Money := none
  capacity : Capacity := .unspecified
  deriving DecidableEq, Inhabited

structure Booking where
  bookingId : String := ""
  orderId : String := ""
  accountId : String := ""
  executionIds : List String := []
  allocations : List Allocation := []
  state : BookingState := .unspecified
  heldReason : String := ""
  lastChange : Option JournalRef := none
  deriving DecidableEq, Inhabited

structure BookOrderRequest where
  orderId : String := ""
  executionIds : List String := []
  allocations : List Allocation := []
  handOff : Bool := false
  deriving DecidableEq, Inhabited

structure HandOffBookingRequest where
  bookingId : String := ""
  close : Bool := false
  deriving DecidableEq, Inhabited

inductive BookingCorrectionKind where
  | unspecified
  | cancel
  | replace
  deriving DecidableEq, Inhabited

structure CorrectBookingRequest where
  bookingId : String := ""
  kind : BookingCorrectionKind := .unspecified
  allocations : List Allocation := []
  effectiveDate : String := ""
  reason : String := ""
  deriving DecidableEq, Inhabited

structure SleeveCross where
  sleeveCrossId : String := ""
  accountId : String := ""
  instrumentId : String := ""
  givingSleeve : String := ""
  receivingSleeve : String := ""
  quantity : Option Decimal := none
  crossPrice : Option Money := none
  orderIds : List String := []
  reason : String := ""
  deriving DecidableEq, Inhabited

structure AlertSubject where
  orderId : String := ""
  bookingId : String := ""
  allocationId : String := ""
  deriving DecidableEq, Inhabited

structure Alert where
  alertId : String := ""
  accountId : String := ""
  kind : AlertKind := .unspecified
  state : AlertState := .unspecified
  reason : String := ""
  subject : Option AlertSubject := none
  dueBy : Int := 0
  lastChange : Option JournalRef := none
  deriving DecidableEq, Inhabited

/-- What answers a fact: its records as they stand. -/
structure FactReply where
  execution : Option Execution := none
  order : Option Order := none
  placement : Option Placement := none
  journal : Option JournalRef := none
  unplaced : Option UnplacedFact := none
  deriving DecidableEq, Inhabited

end MeridianCore
