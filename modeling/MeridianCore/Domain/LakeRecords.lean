import MeridianCore.Domain.Records

namespace MeridianCore

/-- An enumeration as the wire carries it: its number, one this version does not know kept. -/
abbrev Enumeration := Int

/-- A message the lake carries and compares whole, as it is encoded. -/
structure Encoded where
  bytes : String := ""
  deriving DecidableEq, Inhabited

structure SubjectRef where
  entityId : String := ""
  role : Enumeration := 0
  deriving DecidableEq, Inhabited

/-- Where a row came from. -/
structure Source where
  instanceId : String := ""
  pluginVersion : String := ""
  dataset : String := ""
  venueId : String := ""
  deriving DecidableEq, Inhabited

structure SourceTime where
  kind : Enumeration := 0
  atNs : Int := 0
  deriving DecidableEq, Inhabited

structure Identifier where
  scheme : String := ""
  value : String := ""
  /-- The namespace a source-scoped identifier belongs to; a ticker's venue. -/
  source : String := ""
  deriving DecidableEq, Inhabited

/-- The envelope of a row. -/
structure ObservationMeta where
  rowKey : String := ""
  subjects : List SubjectRef := []
  source : Option Source := none
  validFromNs : Int := 0
  validUntilNs : Int := 0
  businessDate : String := ""
  sourceTimes : List SourceTime := []
  sentAtNs : Int := 0
  recordedAtNs : Int := 0
  version : Nat := 0
  sequence : Nat := 0
  previousSequence : Nat := 0
  raw : Option Encoded := none
  unconverted : List Encoded := []
  closedDay : Option Encoded := none
  seriesKey : List Identifier := []
  quality : Enumeration := 0
  qualityReasons : List Enumeration := []
  deriving DecidableEq, Inhabited

structure UnitValue where
  value : Option Decimal := none
  unit : Enumeration := 0
  indexBase : String := ""
  ucumCode : String := ""
  deriving DecidableEq, Inhabited

structure RateConvention where
  dayCount : Enumeration := 0
  compounding : Enumeration := 0
  periodsPerYear : Nat := 0
  deriving DecidableEq, Inhabited

structure QuotedYield where
  value : Option UnitValue := none
  convention : Option RateConvention := none
  kind : Enumeration := 0
  toDate : String := ""
  deriving DecidableEq, Inhabited

/-- A price of one kind for one subject. -/
structure Price where
  envelope : Option ObservationMeta := none
  kind : Enumeration := 0
  price : Option Money := none
  basis : Enumeration := 0
  confidence : Option Decimal := none
  yield : Option QuotedYield := none
  spreadBps : Option Decimal := none
  benchmarkInstrumentId : String := ""
  deriving DecidableEq, Inhabited

/-- Open, high, low and close over an interval. -/
structure Bar where
  envelope : Option ObservationMeta := none
  «open» : Option Money := none
  high : Option Money := none
  low : Option Money := none
  close : Option Money := none
  volume : Option Decimal := none
  vwap : Option Money := none
  tradeCount : Option Nat := none
  deriving DecidableEq, Inhabited

/-- The quote in force at a print. -/
structure QuoteAtTrade where
  bid : Option Money := none
  ask : Option Money := none
  bidQuantity : Option Decimal := none
  askQuantity : Option Decimal := none
  sourceTimeNs : Int := 0
  asLastReceived : Bool := false
  deriving DecidableEq, Inhabited

/-- One trade as its source reported it. -/
structure Trade where
  envelope : Option ObservationMeta := none
  price : Option Money := none
  quantity : Option Decimal := none
  attributes : Option Encoded := none
  aggressor : Enumeration := 0
  sourceSequence : Nat := 0
  cancelled : Bool := false
  quoteAtTrade : Option QuoteAtTrade := none
  basis : Enumeration := 0
  yield : Option QuotedYield := none
  spreadBps : Option Decimal := none
  benchmarkInstrumentId : String := ""
  quantityCapped : Bool := false
  deriving DecidableEq, Inhabited

/-- The best bid and offer. -/
structure Quote where
  envelope : Option ObservationMeta := none
  bid : Option Money := none
  ask : Option Money := none
  bidQuantity : Option Decimal := none
  askQuantity : Option Decimal := none
  characteristics : List Enumeration := []
  bidSizeCapped : Bool := false
  askSizeCapped : Bool := false
  basis : Enumeration := 0
  bidYield : Option QuotedYield := none
  bidSpreadBps : Option Decimal := none
  askYield : Option QuotedYield := none
  askSpreadBps : Option Decimal := none
  benchmarkInstrumentId : String := ""
  deriving DecidableEq, Inhabited

/-- An event contract's outcome at one stage. -/
structure Outcome where
  envelope : Option ObservationMeta := none
  determination : Enumeration := 0
  stage : Enumeration := 0
  settlementValue : Option Money := none
  settledAtNs : Int := 0
  determinationAsReported : Option Encoded := none
  challengeEndsAtNs : Int := 0
  deriving DecidableEq, Inhabited

structure Tenor where
  count : Int := 0
  unit : Enumeration := 0
  deriving DecidableEq, Inhabited

structure RatePercentile where
  percentile : Nat := 0
  value : Option Decimal := none
  deriving DecidableEq, Inhabited

/-- A fixing, an average, an index level or a curve point for one referential record. -/
structure Rate where
  envelope : Option ObservationMeta := none
  kind : Enumeration := 0
  value : Option UnitValue := none
  convention : Option RateConvention := none
  tenor : Option Tenor := none
  maturityDate : String := ""
  preliminary : Bool := false
  volume : Option Money := none
  transactionCount : Option Nat := none
  percentiles : List RatePercentile := []
  deriving DecidableEq, Inhabited

/-- One execution's cost against one benchmark. -/
structure ExecutionCost where
  envelope : Option ObservationMeta := none
  executionId : String := ""
  orderId : String := ""
  placementId : String := ""
  accountId : String := ""
  benchmark : Enumeration := 0
  benchmarkPrice : Option Money := none
  benchmarkAtNs : Int := 0
  benchmarkDataset : String := ""
  benchmarkRowKey : String := ""
  fixingId : String := ""
  executionPrice : Option Money := none
  side : Enumeration := 0
  notional : Option Money := none
  costBps : Option Decimal := none
  feesBps : Option Decimal := none
  financingBps : Option Decimal := none
  liquidityIndicator : Enumeration := 0
  venueId : String := ""
  unanswered : Enumeration := 0
  stalenessBoundNs : Int := 0
  timePrecision : Enumeration := 0
  rejectCount : Nat := 0
  timeToFillNs : Int := 0
  deriving DecidableEq, Inhabited

/-- Open interest or a volume per contract per trading date. -/
structure Statistic where
  envelope : Option ObservationMeta := none
  kind : Enumeration := 0
  value : Option UnitValue := none
  deriving DecidableEq, Inhabited

structure TemplateFieldValue where
  path : String := ""
  value : String := ""
  provenance : Option Encoded := none
  deriving DecidableEq, Inhabited

/-- A listed option or future series as its source lists it. -/
structure ListedSeries where
  envelope : Option ObservationMeta := none
  templateId : String := ""
  templateVersion : String := ""
  fields : List TemplateFieldValue := []
  instrumentId : String := ""
  deriving DecidableEq, Inhabited

/-- One value of a signal plugin's own series, naming its rule and inputs. -/
structure DerivedSeries where
  envelope : Option ObservationMeta := none
  series : String := ""
  value : Option UnitValue := none
  rule : Option Encoded := none
  inputs : List Encoded := []
  publishedBy : String := ""
  moneyValue : Option Money := none
  deriving DecidableEq, Inhabited

/-- The object a shock is to. -/
structure ShockTarget where
  subjectId : String := ""
  every : Bool := false
  deriving DecidableEq, Inhabited

/-- A bucketed shock's value at a tenor. -/
structure ShockBucket where
  tenor : Option Tenor := none
  value : Option Decimal := none
  deriving DecidableEq, Inhabited

structure Shock where
  object : Enumeration := 0
  target : Option ShockTarget := none
  form : Enumeration := 0
  unit : Enumeration := 0
  value : Option Decimal := none
  buckets : List ShockBucket := []
  deriving DecidableEq, Inhabited

/-- The shocks applied together. -/
structure Scenario where
  name : String := ""
  shocks : List Shock := []
  deriving DecidableEq, Inhabited

structure ScenarioAxis where
  name : String := ""
  steps : List Scenario := []
  deriving DecidableEq, Inhabited

/-- The axes a set's points are made from. -/
structure ScenarioSet where
  name : String := ""
  axes : List ScenarioAxis := []
  deriving DecidableEq, Inhabited

/-- A scenario or a scenario set a signal plugin saved. -/
structure SavedScenario where
  envelope : Option ObservationMeta := none
  scenario : Option Scenario := none
  scenarioSet : Option ScenarioSet := none
  description : String := ""
  deriving DecidableEq, Inhabited

structure FilingRef where
  accessionNumber : String := ""
  form : String := ""
  deriving DecidableEq, Inhabited

/-- A declared corporate action, as its rule found it in the source. -/
structure CorporateActionAnnounced where
  envelope : Option ObservationMeta := none
  kind : Enumeration := 0
  amountPerShare : Option Money := none
  declaredDate : String := ""
  exDate : String := ""
  recordDate : String := ""
  paymentDate : String := ""
  rule : Option Encoded := none
  filing : Option FilingRef := none
  deriving DecidableEq, Inhabited

/-- A filing as its publisher accepted it, keyed by accession. -/
structure Filing where
  envelope : Option ObservationMeta := none
  filing : Option FilingRef := none
  kind : Enumeration := 0
  items : List String := []
  periodOfReport : String := ""
  filedDate : String := ""
  deriving DecidableEq, Inhabited

structure FactDimension where
  axis : String := ""
  member : String := ""
  deriving DecidableEq, Inhabited

/-- A value a filer reported for a concept and period. -/
structure ReportedFact where
  envelope : Option ObservationMeta := none
  concept : String := ""
  amount : Option Money := none
  value : Option UnitValue := none
  periodStart : String := ""
  periodEnd : String := ""
  dimensions : List FactDimension := []
  filing : Option FilingRef := none
  deriving DecidableEq, Inhabited

/-- A rating agency's action on a rating. -/
structure RatingAction where
  envelope : Option ObservationMeta := none
  rating : String := ""
  ratingClass : String := ""
  action : Enumeration := 0
  deriving DecidableEq, Inhabited

/-- A holder's report of its holdings as of a date. -/
structure HoldingsReport where
  envelope : Option ObservationMeta := none
  kind : Enumeration := 0
  reportDate : String := ""
  complete : Bool := false
  filing : Option FilingRef := none
  deriving DecidableEq, Inhabited

/-- One holding of a holdings report. -/
structure Holding where
  envelope : Option ObservationMeta := none
  reportRowKey : String := ""
  quantity : Option UnitValue := none
  marketValue : Option Money := none
  percentOfClass : Option UnitValue := none
  deriving DecidableEq, Inhabited

/-- One month's factor of an agency pool or a REMIC class as the agency publishes it. -/
structure Factor where
  envelope : Option ObservationMeta := none
  factor : Option Decimal := none
  factorMonth : String := ""
  recordDate : String := ""
  paymentDate : String := ""
  couponRate : Option Decimal := none
  wac : Option Decimal := none
  wam : Option Nat := none
  wala : Option Nat := none
  deriving DecidableEq, Inhabited

end MeridianCore
