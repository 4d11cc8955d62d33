import MeridianCore.AnalyticsEngine.Json
import MeridianCore.Ordered.Map

namespace MeridianCore.AnalyticsEngine
open Limbs

def BASE : String := "SCENARIO_KIND_BASE"
def WHAT_IF : String := "SCENARIO_KIND_WHAT_IF"
def HISTORICAL_DAY : String := "SCENARIO_KIND_HISTORICAL_DAY"
def OUTCOME : String := "SCENARIO_KIND_OUTCOME"
def NONE_OF_THE_NAMED : String := "SCENARIO_KIND_NONE_OF_THE_NAMED"
def EXACT : String := "COMPUTED_AS_EXACT"
def MODEL : String := "COMPUTED_AS_MODEL"
def SCENARIO_POINT : String := "SCENARIO_KIND_SCENARIO_POINT"
def PRICE_MISSING : String := "NOT_EVALUATED_REASON_PRICE_MISSING"
def PRICE_STALE : String := "NOT_EVALUATED_REASON_PRICE_STALE"
def CONVERSION_MISSING : String := "NOT_EVALUATED_REASON_CONVERSION_MISSING"
def NOT_ENTITLED : String := "NOT_EVALUATED_REASON_NOT_ENTITLED"
def LOCAL_RECORD : String := "NOT_EVALUATED_REASON_LOCAL_RECORD"
def IMPLEMENTATION_UNAVAILABLE : String := "NOT_EVALUATED_REASON_IMPLEMENTATION_UNAVAILABLE"
def SCHEME_NOT_HELD : String := "NOT_EVALUATED_REASON_SCHEME_NOT_HELD"
def GROUP_NOT_EXHAUSTIVE : String := "NOT_EVALUATED_REASON_GROUP_NOT_EXHAUSTIVE"
def HISTORY_INSUFFICIENT : String := "NOT_EVALUATED_REASON_HISTORY_INSUFFICIENT"
def COST_MISSING : String := "NOT_EVALUATED_REASON_COST_MISSING"
def BELOW_INTRINSIC : String := "NOT_EVALUATED_REASON_BELOW_INTRINSIC"
def FIT_FAILED : String := "NOT_EVALUATED_REASON_FIT_FAILED"
def INPUT_QUARANTINED : String := "NOT_EVALUATED_REASON_INPUT_QUARANTINED"
def TERMS_INCOMPLETE : String := "NOT_EVALUATED_REASON_TERMS_INCOMPLETE"
def NOT_SUPPORTED : String := "NOT_EVALUATED_REASON_NOT_SUPPORTED"

def DIRECT : String := "CONVERSION_DERIVATION_DIRECT"
def INVERTED : String := "CONVERSION_DERIVATION_INVERTED"

/-- A derivation's place in a tie: direct, then inverted, then crossed. -/
def derivationRank (derivation : String) : Nat :=
  if derivation = DIRECT then 0 else if derivation = INVERTED then 1 else 2

/-- The order scenarios are answered in within one breakdown. -/
def scenarioOrder (kind : String) : Nat :=
  if kind = BASE then 0
  else if kind = WHAT_IF then 1
  else if kind = HISTORICAL_DAY then 2
  else if kind = OUTCOME then 3
  else if kind = NONE_OF_THE_NAMED then 4
  else if kind = SCENARIO_POINT then 5
  else 9

/-- A measure asked: its definition, by version, and how it is broken down. -/
structure MeasureKey where
  definition : String
  version : Int64
  eventGroupId : String
  breakdowns : List String
  deriving DecidableEq

/-- Which scenario a figure is under; a scenario point's saved row, its version and its place on each axis. -/
structure Scenario where
  kind : String
  businessDate : String
  outcomeInstrumentId : String
  scenarioRowKey : String
  scenarioVersion : UInt64
  axisPositions : List UInt32
  deriving DecidableEq

/-- A series' key, as identifiers (scheme, value). -/
abbrev SeriesKey := List (String × String)

structure Figure where
  measure : MeasureKey
  accountId : String
  breakdown : List (String × String)
  scenario : Scenario
  value : Option Decimal
  numerator : Option Decimal
  denominator : Option Decimal
  currencyInstrumentId : String
  computedAs : String
  seriesKey : SeriesKey
  oldestInputSourceNs : Int64
  deriving DecidableEq

/-- A position or a measure not evaluated, and why. -/
structure Unevaluated where
  accountId : String
  instrumentId : String
  measure : MeasureKey
  reason : String
  detail : String
  seriesKey : SeriesKey
  deriving DecidableEq

/-- What an answer read, for its provenance: each price by its instrument, each conversion leg by its ends, its
derivation's rank and its cross. -/
structure Reads where
  datasets : BTreeSet String
  instruments : BTreeSet String
  models : BTreeSet (String × Int64)
  groups : BTreeSet String
  inputPrices : BTreeMap String Json
  legs : BTreeMap (String × String × Nat × String) Json

/-- What one unit, or a measure's preamble, answered. -/
structure Part where
  figures : List Figure
  notEvaluated : List Unevaluated
  reads : Reads
  executionCosts : List Json

section toJson

def pairsJson (left right : String) (pairs : List (String × String)) : Json :=
  .array (pairs.map fun pair => .object [(left, .string pair.1), (right, .string pair.2)])

def MeasureKey.toJson (key : MeasureKey) : Json :=
  .object [("definition", .string key.definition), ("version", .number key.version.toInt),
    ("breakdowns", Json.strings key.breakdowns), ("event_group_id", .string key.eventGroupId)]

/-- A point's row, version and places are written only on a scenario point. -/
def Scenario.toJson (scenario : Scenario) : Json :=
  .object ([("kind", .string scenario.kind), ("business_date", .string scenario.businessDate),
      ("outcome_instrument_id", .string scenario.outcomeInstrumentId)] ++
    if scenario.kind = SCENARIO_POINT then
      [("scenario_row_key", .string scenario.scenarioRowKey),
        ("scenario_version", .string (wholeText scenario.scenarioVersion.toNat)),
        ("axis_positions", .array (scenario.axisPositions.map fun position => .number position.toNat))]
    else [])

/-- A decimal held as its text, null where none is. A text no format is wide enough for panics. -/
def decimalJson : Option Decimal → Option Json
  | none => some .null
  | some decimal => decimal.text.map .string

/-- A series' key is written only where it is held. -/
def seriesFields (key : SeriesKey) : List (String × Json) :=
  if key.isEmpty then [] else [("series_key", pairsJson "scheme" "value" key)]

def Figure.toJson (figure : Figure) : Option Json := do
  let value ← decimalJson figure.value
  let numerator ← decimalJson figure.numerator
  let denominator ← decimalJson figure.denominator
  return .object ([("measure", figure.measure.toJson), ("account_id", .string figure.accountId),
      ("breakdown", pairsJson "breakdown" "value" figure.breakdown), ("scenario_key", figure.scenario.toJson),
      ("currency_instrument_id", .string figure.currencyInstrumentId), ("computed_as", .string figure.computedAs),
      ("value", value), ("numerator", numerator), ("denominator", denominator)] ++ seriesFields figure.seriesKey ++
    if figure.oldestInputSourceNs = 0 then []
    else [("oldest_input_source_ns", .string (wholeText figure.oldestInputSourceNs.toInt))])

def Unevaluated.toJson (row : Unevaluated) : Json :=
  .object ([("account_id", .string row.accountId), ("instrument_id", .string row.instrumentId), ("measure", row.measure.toJson),
    ("reason", .string row.reason), ("detail", .string row.detail)] ++ seriesFields row.seriesKey)

def Reads.toJson (reads : Reads) : Json :=
  .object [("datasets", Json.strings reads.datasets.toList), ("instruments", Json.strings reads.instruments.toList),
    ("models", .array (reads.models.toList.map fun model => .array [.string model.1, .number model.2.toInt])),
    ("groups", Json.strings reads.groups.toList), ("input_prices", .array reads.inputPrices.valuesOf),
    ("legs", .array reads.legs.valuesOf)]

/-- The part as JSON, every decimal at its full exactness. -/
def Part.toJson (part : Part) : Option Json := do
  let figures ← part.figures.mapM Figure.toJson
  return .object [("figures", .array figures), ("not_evaluated", .array (part.notEvaluated.map Unevaluated.toJson)),
    ("reads", part.reads.toJson), ("execution_costs", .array part.executionCosts)]

end toJson

section orderKeys

/-- The order figures are answered in within one measure: by account, breakdown, series and scenario. -/
def Scenario.compare (a b : Scenario) : Ordering :=
  (Ord.compare a.kind b.kind).then <| (Ord.compare a.businessDate b.businessDate).then <|
  (Ord.compare a.outcomeInstrumentId b.outcomeInstrumentId).then <|
  (Ord.compare a.scenarioRowKey b.scenarioRowKey).then <| (Ord.compare a.scenarioVersion b.scenarioVersion).then <|
  Ord.compare a.axisPositions b.axisPositions

def Figure.compare (a b : Figure) : Ordering :=
  (Ord.compare a.accountId b.accountId).then <| (Ord.compare a.breakdown b.breakdown).then <|
  (Ord.compare a.seriesKey b.seriesKey).then <|
  (Ord.compare (scenarioOrder a.scenario.kind) (scenarioOrder b.scenario.kind)).then <|
  Scenario.compare a.scenario b.scenario

def Unevaluated.compare (a b : Unevaluated) : Ordering :=
  (Ord.compare a.accountId b.accountId).then <| (Ord.compare a.instrumentId b.instrumentId).then <|
  (Ord.compare a.seriesKey b.seriesKey).then <| (Ord.compare a.reason b.reason).then <| Ord.compare a.detail b.detail

end orderKeys

namespace Reads

def empty : Reads := ⟨∅, ∅, ∅, ∅, ∅, ∅⟩

/-- What two answers read: a price or a leg both name is the first one's. -/
def absorb (reads other : Reads) : Reads where
  datasets := reads.datasets.insertMany other.datasets.toList
  instruments := reads.instruments.insertMany other.instruments.toList
  models := reads.models.insertMany other.models.toList
  groups := reads.groups.insertMany other.groups.toList
  inputPrices := other.inputPrices.toList.foldl (fun held entry => held.insertIfNew entry.1 entry.2) reads.inputPrices
  legs := other.legs.toList.foldl (fun held entry => held.insertIfNew entry.1 entry.2) reads.legs

end Reads

end MeridianCore.AnalyticsEngine
