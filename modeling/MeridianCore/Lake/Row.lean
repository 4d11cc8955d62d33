import MeridianCore.Domain.Date
import MeridianCore.Domain.Lake

namespace MeridianCore.Lake

/-- One row of the lake under its envelope. -/
inductive Observation where
  | price (row : Price)
  | bar (row : Bar)
  | trade (row : Trade)
  | quote (row : Quote)
  | outcome (row : Outcome)
  | executionCost (row : ExecutionCost)
  | rate (row : Rate)
  | statistic (row : Statistic)
  | series (row : ListedSeries)
  | derived (row : DerivedSeries)
  | scenario (row : SavedScenario)
  | corporateAction (row : CorporateActionAnnounced)
  | filing (row : Filing)
  | reportedFact (row : ReportedFact)
  | ratingAction (row : RatingAction)
  | holdingsReport (row : HoldingsReport)
  | holding (row : Holding)
  | factor (row : Factor)
  deriving DecidableEq, Inhabited

/-- A state's place in the escalation: unspecified reads as valid. -/
def rank (state : Enumeration) : Enumeration := if state = 2 ∨ state = 3 then state else 1

def sameDecimal (a b : Option Decimal) : Bool :=
  let exact : Option Decimal → Option (Option Exact)
    | none => some none
    | some decimal => (Exact.fromWire decimal).toOption.map some
  match exact a, exact b with
  | some none, some none => true
  | some (some a), some (some b) => a.equals b
  | some _, some _ => false
  | _, _ => a = b

def sameMoney (a b : Option Money) : Bool :=
  match a, b with
  | none, none => true
  | some a, some b => a.currencyCode = b.currencyCode && a.instrumentId = b.instrumentId && sameDecimal a.amount b.amount
  | _, _ => false

/-- Two values with their units the same, decimals compared by value. -/
def sameUnitValue (a b : Option UnitValue) : Bool :=
  match a, b with
  | none, none => true
  | some a, some b => sameDecimal a.value b.value && a.unit = b.unit && a.indexBase = b.indexBase && a.ucumCode = b.ucumCode
  | _, _ => false

/-- Two quoted yields the same: the value by its decimal and unit, the convention, the kind and the date
it is to. -/
def sameYield (a b : Option QuotedYield) : Bool :=
  match a, b with
  | none, none => true
  | some a, some b => sameUnitValue a.value b.value && a.convention = b.convention && a.kind = b.kind && a.toDate = b.toDate
  | _, _ => false

def sameQuoteAtTrade (a b : Option QuoteAtTrade) : Bool :=
  match a, b with
  | none, none => true
  | some a, some b =>
    sameMoney a.bid b.bid && sameMoney a.ask b.ask && sameDecimal a.bidQuantity b.bidQuantity &&
      sameDecimal a.askQuantity b.askQuantity && a.sourceTimeNs = b.sourceTimeNs && a.asLastReceived = b.asLastReceived
  | _, _ => false

namespace Observation

def dataType : Observation → DataType
  | price _ => .price
  | bar _ => .bar
  | trade _ => .trade
  | quote _ => .quote
  | outcome _ => .outcome
  | executionCost _ => .executionCost
  | rate _ => .rate
  | statistic _ => .statistic
  | series _ => .series
  | derived _ => .derived
  | scenario _ => .scenario
  | corporateAction _ => .corporateAction
  | filing _ => .filing
  | reportedFact _ => .reportedFact
  | ratingAction _ => .ratingAction
  | holdingsReport _ => .holdingsReport
  | holding _ => .holding
  | factor _ => .factor

/-- The row's envelope, where it has one. -/
def envelope : Observation → Option ObservationMeta
  | price row => row.envelope
  | bar row => row.envelope
  | trade row => row.envelope
  | quote row => row.envelope
  | outcome row => row.envelope
  | executionCost row => row.envelope
  | rate row => row.envelope
  | statistic row => row.envelope
  | series row => row.envelope
  | derived row => row.envelope
  | scenario row => row.envelope
  | corporateAction row => row.envelope
  | filing row => row.envelope
  | reportedFact row => row.envelope
  | ratingAction row => row.envelope
  | holdingsReport row => row.envelope
  | holding row => row.envelope
  | factor row => row.envelope

def about (row : Observation) : ObservationMeta := row.envelope.getD {}

/-- The row under another envelope. -/
def under (envelope : ObservationMeta) : Observation → Observation
  | price row => price { row with envelope := some envelope }
  | bar row => bar { row with envelope := some envelope }
  | trade row => trade { row with envelope := some envelope }
  | quote row => quote { row with envelope := some envelope }
  | outcome row => outcome { row with envelope := some envelope }
  | executionCost row => executionCost { row with envelope := some envelope }
  | rate row => rate { row with envelope := some envelope }
  | statistic row => statistic { row with envelope := some envelope }
  | series row => series { row with envelope := some envelope }
  | derived row => derived { row with envelope := some envelope }
  | scenario row => scenario { row with envelope := some envelope }
  | corporateAction row => corporateAction { row with envelope := some envelope }
  | filing row => filing { row with envelope := some envelope }
  | reportedFact row => reportedFact { row with envelope := some envelope }
  | ratingAction row => ratingAction { row with envelope := some envelope }
  | holdingsReport row => holdingsReport { row with envelope := some envelope }
  | holding row => holding { row with envelope := some envelope }
  | factor row => factor { row with envelope := some envelope }

@[simp] theorem about_under (envelope : ObservationMeta) (row : Observation) : (row.under envelope).about = envelope := by
  cases row <;> rfl

@[simp] theorem dataType_under (envelope : ObservationMeta) (row : Observation) :
    (row.under envelope).dataType = row.dataType := by
  cases row <;> rfl

/-- A price's kind, a rate's, a statistic's, a corporate action's, a filing's, a rating action's action
and a holdings report's; 0 for the other data types. -/
def kind : Observation → Enumeration
  | price row => row.kind
  | rate row => row.kind
  | statistic row => row.kind
  | corporateAction row => row.kind
  | filing row => row.kind
  | ratingAction row => row.action
  | holdingsReport row => row.kind
  | _ => 0

/-- Its series key as one text, empty for a row keyed by no series. -/
def seriesKey (row : Observation) : String := seriesKeyText row.about.seriesKey

/-- A rate's point and convention, a derived value's series; the series too of a row keyed by one. -/
def point (row : Observation) : String :=
  let point := match row with
    | rate row => ratePoint row
    | derived row => row.series
    | _ => ""
  if row.seriesKey = "" then point
  else
    let series := row.seriesKey
    s!"{point}#{series}"

/-- The asset its amounts are in, by cash instrument; a bar's is its close's, and empty for a row with
no amount. -/
def asset : Observation → String
  | price row => assetKey row.price
  | bar row => assetKey (((row.close.or row.open).or row.high).or row.low)
  | trade row => assetKey row.price
  | quote row => quoteAsset row
  | outcome row => assetKey row.settlementValue
  | executionCost row => assetKey row.executionPrice
  | _ => ""

/-- What a read of the latest chooses per besides its subject, dataset, kind, venue and length. -/
def latestKey (row : Observation) : String :=
  let asset := row.asset
  let point := row.point
  s!"{asset}\u001f{point}"

/-- A bar's length; 0 for the other data types. -/
def intervalNs (row : Observation) : Int :=
  match row with
  | bar _ => max (row.about.validUntilNs - row.about.validFromNs) 0
  | _ => 0

/-- Its first subject: what a store keys its subject's sequence by. -/
def subject (row : Observation) : String := ((row.about.subjects.head?).map SubjectRef.entityId).getD ""

def subjects (row : Observation) : List String := row.about.subjects.map SubjectRef.entityId

def dataset (row : Observation) : String := (row.about.source.map Source.dataset).getD ""

def venue (row : Observation) : String := (row.about.source.map Source.venueId).getD ""

/-- What its delivery is conflated per; none for a row every version of which is delivered. -/
def conflationKey (row : Observation) : Option String :=
  let what := match row with
    | price _ => some "price"
    | bar _ => some "bar"
    | quote _ => some "quote"
    | rate _ => some "rate"
    | statistic _ => some "statistic"
    | _ => none
  let start : Int := match row with
    | bar _ => row.about.validFromNs
    | _ => 0
  let date := match row with
    | statistic _ => row.about.businessDate
    | _ => ""
  what.map fun what =>
    let subject := row.subject
    let dataset := row.dataset
    let kind := row.kind
    let venue := row.venue
    let latest := row.latestKey
    s!"{what}\u001f{subject}\u001f{dataset}\u001f{kind}\u001f{venue}\u001f{start}\u001f{date}\u001f{latest}"

/-- What the source says of a row besides its values. -/
structure Envelope where
  rowKey : String
  subjects : List SubjectRef
  dataset : String
  venueId : String
  validFromNs : Int
  validUntilNs : Int
  businessDate : String
  sourceTimes : List SourceTime
  unconverted : List Encoded
  series : String
  rank : Enumeration
  deriving DecidableEq

def stated (about : ObservationMeta) : Envelope where
  rowKey := about.rowKey
  subjects := about.subjects
  dataset := (about.source.getD {}).dataset
  venueId := (about.source.getD {}).venueId
  validFromNs := about.validFromNs
  validUntilNs := about.validUntilNs
  businessDate := about.businessDate
  sourceTimes := about.sourceTimes
  unconverted := about.unconverted
  series := seriesKeyText about.seriesKey
  rank := rank about.quality

/-- Whether two rows of one data type give the same values, decimals compared by value. -/
def sameFields : Observation → Observation → Bool
  | price a, price b =>
    a.kind = b.kind && a.basis = b.basis && sameMoney a.price b.price && sameDecimal a.confidence b.confidence &&
      sameYield a.yield b.yield && sameDecimal a.spreadBps b.spreadBps &&
      a.benchmarkInstrumentId = b.benchmarkInstrumentId
  | bar a, bar b =>
    sameMoney a.open b.open && sameMoney a.high b.high && sameMoney a.low b.low && sameMoney a.close b.close &&
      sameDecimal a.volume b.volume && sameMoney a.vwap b.vwap && a.tradeCount = b.tradeCount
  | trade a, trade b =>
    sameMoney a.price b.price && sameDecimal a.quantity b.quantity && a.attributes = b.attributes &&
      a.aggressor = b.aggressor && a.sourceSequence = b.sourceSequence && a.cancelled = b.cancelled &&
      sameQuoteAtTrade a.quoteAtTrade b.quoteAtTrade && a.basis = b.basis && sameYield a.yield b.yield &&
      sameDecimal a.spreadBps b.spreadBps && a.benchmarkInstrumentId = b.benchmarkInstrumentId &&
      a.quantityCapped = b.quantityCapped
  | quote a, quote b =>
    sameMoney a.bid b.bid && sameMoney a.ask b.ask && sameDecimal a.bidQuantity b.bidQuantity &&
      sameDecimal a.askQuantity b.askQuantity && a.characteristics = b.characteristics &&
      a.bidSizeCapped = b.bidSizeCapped && a.askSizeCapped = b.askSizeCapped && a.basis = b.basis &&
      sameYield a.bidYield b.bidYield && sameYield a.askYield b.askYield &&
      sameDecimal a.bidSpreadBps b.bidSpreadBps && sameDecimal a.askSpreadBps b.askSpreadBps &&
      a.benchmarkInstrumentId = b.benchmarkInstrumentId
  | outcome a, outcome b =>
    a.determination = b.determination && a.stage = b.stage && sameMoney a.settlementValue b.settlementValue &&
      a.settledAtNs = b.settledAtNs && a.determinationAsReported = b.determinationAsReported &&
      a.challengeEndsAtNs = b.challengeEndsAtNs
  | executionCost a, executionCost b =>
    let apart (cost : ExecutionCost) : ExecutionCost := { cost with
      envelope := none, benchmarkPrice := none, executionPrice := none, notional := none
      costBps := none, feesBps := none, financingBps := none }
    sameMoney a.benchmarkPrice b.benchmarkPrice && sameMoney a.executionPrice b.executionPrice &&
      sameMoney a.notional b.notional && sameDecimal a.costBps b.costBps && sameDecimal a.feesBps b.feesBps &&
      sameDecimal a.financingBps b.financingBps && apart a = apart b
  | rate a, rate b =>
    a.kind = b.kind && sameUnitValue (some (a.value.getD {})) (some (b.value.getD {})) &&
      a.value.isSome = b.value.isSome && a.convention = b.convention && a.tenor = b.tenor &&
      a.maturityDate = b.maturityDate && a.preliminary = b.preliminary && sameMoney a.volume b.volume &&
      a.transactionCount = b.transactionCount && a.percentiles.length = b.percentiles.length &&
      (a.percentiles.zip b.percentiles).all fun (x, y) => x.percentile = y.percentile && sameDecimal x.value y.value
  | statistic a, statistic b =>
    a.kind = b.kind && a.value.isSome = b.value.isSome &&
      sameUnitValue (some (a.value.getD {})) (some (b.value.getD {}))
  | series a, series b => a.templateId = b.templateId && a.templateVersion = b.templateVersion && a.fields = b.fields
  | derived a, derived b =>
    a.series = b.series && a.value.isSome = b.value.isSome &&
      sameUnitValue (some (a.value.getD {})) (some (b.value.getD {})) && a.rule = b.rule && a.inputs = b.inputs &&
      a.publishedBy = b.publishedBy && sameMoney a.moneyValue b.moneyValue
  | scenario a, scenario b => a.scenario = b.scenario && a.scenarioSet = b.scenarioSet && a.description = b.description
  | corporateAction a, corporateAction b =>
    a.kind = b.kind && sameMoney a.amountPerShare b.amountPerShare && a.declaredDate = b.declaredDate &&
      a.exDate = b.exDate && a.recordDate = b.recordDate && a.paymentDate = b.paymentDate && a.rule = b.rule &&
      a.filing = b.filing
  | filing a, filing b =>
    a.filing = b.filing && a.kind = b.kind && a.items = b.items && a.periodOfReport = b.periodOfReport &&
      a.filedDate = b.filedDate
  | reportedFact a, reportedFact b =>
    a.concept = b.concept && sameMoney a.amount b.amount && sameUnitValue a.value b.value &&
      a.periodStart = b.periodStart && a.periodEnd = b.periodEnd && a.dimensions = b.dimensions && a.filing = b.filing
  | ratingAction a, ratingAction b => a.rating = b.rating && a.ratingClass = b.ratingClass && a.action = b.action
  | holdingsReport a, holdingsReport b =>
    a.kind = b.kind && a.reportDate = b.reportDate && a.complete = b.complete && a.filing = b.filing
  | holding a, holding b =>
    a.reportRowKey = b.reportRowKey && sameUnitValue a.quantity b.quantity && sameMoney a.marketValue b.marketValue &&
      sameUnitValue a.percentOfClass b.percentOfClass
  | factor a, factor b =>
    sameDecimal a.factor b.factor && a.factorMonth = b.factorMonth && a.recordDate = b.recordDate &&
      a.paymentDate = b.paymentDate && sameDecimal a.couponRate b.couponRate && sameDecimal a.wac b.wac &&
      a.wam = b.wam && a.wala = b.wala
  | _, _ => false

def sameButRaw (a b : Observation) : Bool := decide (stated a.about = stated b.about) && sameFields a b

/-- Whether two rows say the same thing: every value the source gave, decimals compared by value, and
the quality state it was sent with; none of what the lake decides or the sidecar stamps. -/
def sameValue (a b : Observation) : Bool := sameButRaw a b && decide (a.about.raw = b.about.raw)

/-- A fact as it is compared with another filing's: its filing, times and raw reference its own. -/
def restated (fact : ReportedFact) : Observation :=
  reportedFact { fact with
    filing := none
    envelope := some { fact.envelope.getD {} with
      raw := none, sourceTimes := [], validFromNs := 0, validUntilNs := 0 } }

/-- Whether two rows say the same thing but for their raw reference: a rate's confirmation, and a
reported fact a later filing repeats. -/
def confirms (a b : Observation) : Bool :=
  match a, b with
  | reportedFact x, reportedFact y =>
    (decide (x.filing ≠ y.filing) || decide (a.about.raw ≠ b.about.raw)) && sameButRaw (restated x) (restated y)
  | _, _ => decide (a.dataType = .rate) && decide (a.about.raw ≠ b.about.raw) && sameButRaw a b

/-- The fields a reader may not read, removed: each field entry not in `allowed`, an empty set allowing
every field. Answers the entries it removed. -/
def strip (allowed : BTreeSet String) (row : Observation) : Observation × List String :=
  match row with
  | price row => (stripPrice allowed row).map price id
  | bar row => (stripBar allowed row).map bar id
  | trade row => (stripTrade allowed row).map trade id
  | quote row => (stripQuote allowed row).map quote id
  | outcome row => (stripOutcome allowed row).map outcome id
  -- Read within the reader's account scope, never by entitlement.
  | executionCost row => (executionCost row, [])
  | rate row => (stripRate allowed row).map rate id
  | statistic row => (stripStatistic allowed row).map statistic id
  | series row => (stripSeries allowed row).map series id
  -- A signal plugin's own rows, read whole by whoever reads them.
  | derived row => (derived row, [])
  | scenario row => (scenario row, [])
  | corporateAction row => (stripCorporateAction allowed row).map corporateAction id
  | filing row => (stripFiling allowed row).map filing id
  | reportedFact row => (stripReportedFact allowed row).map reportedFact id
  | ratingAction row => (stripRatingAction allowed row).map ratingAction id
  | holdingsReport row => (stripHoldingsReport allowed row).map holdingsReport id
  | holding row => (stripHolding allowed row).map holding id
  | factor row => (stripFactor allowed row).map factor id

end Observation

end MeridianCore.Lake
