import MeridianCore.Domain.LakeRecords
import MeridianCore.Ordered.Map

namespace MeridianCore.Lake

/-- The lake's data types, as a store numbers them. -/
inductive DataType where
  | price
  | bar
  | trade
  | quote
  | outcome
  | executionCost
  | rate
  | statistic
  | series
  | derived
  | scenario
  | corporateAction
  | filing
  | reportedFact
  | ratingAction
  | holdingsReport
  | holding
  | factor
  deriving DecidableEq, Inhabited

/-- By its message's full name, as a priority, a want and a catalogue name it. -/
def DataType.name : DataType → String
  | .price => "meridian.v1.Price"
  | .bar => "meridian.v1.Bar"
  | .trade => "meridian.v1.Trade"
  | .quote => "meridian.v1.Quote"
  | .outcome => "meridian.v1.Outcome"
  | .executionCost => "meridian.v1.ExecutionCost"
  | .rate => "meridian.v1.Rate"
  | .statistic => "meridian.v1.Statistic"
  | .series => "meridian.v1.ListedSeries"
  | .derived => "meridian.v1.DerivedSeries"
  | .scenario => "meridian.v1.SavedScenario"
  | .corporateAction => "meridian.v1.CorporateActionAnnounced"
  | .filing => "meridian.v1.Filing"
  | .reportedFact => "meridian.v1.ReportedFact"
  | .ratingAction => "meridian.v1.RatingAction"
  | .holdingsReport => "meridian.v1.HoldingsReport"
  | .holding => "meridian.v1.Holding"
  | .factor => "meridian.v1.Factor"

def priceFields : List String := [
  "meridian.v1.Price.meta",
  "meridian.v1.Price.kind",
  "meridian.v1.Price.price",
  "meridian.v1.Price.basis",
  "meridian.v1.Price.confidence",
  "meridian.v1.Price.yield",
  "meridian.v1.Price.spread_bps",
  "meridian.v1.Price.benchmark_instrument_id"]

def barFields : List String := [
  "meridian.v1.Bar.meta",
  "meridian.v1.Bar.open",
  "meridian.v1.Bar.high",
  "meridian.v1.Bar.low",
  "meridian.v1.Bar.close",
  "meridian.v1.Bar.volume",
  "meridian.v1.Bar.vwap",
  "meridian.v1.Bar.trade_count"]

def tradeFields : List String := [
  "meridian.v1.Trade.meta",
  "meridian.v1.Trade.price",
  "meridian.v1.Trade.quantity",
  "meridian.v1.Trade.attributes",
  "meridian.v1.Trade.aggressor",
  "meridian.v1.Trade.source_sequence",
  "meridian.v1.Trade.cancelled",
  "meridian.v1.Trade.quote_at_trade",
  "meridian.v1.Trade.basis",
  "meridian.v1.Trade.yield",
  "meridian.v1.Trade.spread_bps",
  "meridian.v1.Trade.benchmark_instrument_id",
  "meridian.v1.Trade.quantity_capped"]

def quoteFields : List String := [
  "meridian.v1.Quote.meta",
  "meridian.v1.Quote.bid",
  "meridian.v1.Quote.ask",
  "meridian.v1.Quote.bid_quantity",
  "meridian.v1.Quote.ask_quantity",
  "meridian.v1.Quote.characteristics",
  "meridian.v1.Quote.bid_size_capped",
  "meridian.v1.Quote.ask_size_capped",
  "meridian.v1.Quote.basis",
  "meridian.v1.Quote.bid_yield",
  "meridian.v1.Quote.bid_spread_bps",
  "meridian.v1.Quote.ask_yield",
  "meridian.v1.Quote.ask_spread_bps",
  "meridian.v1.Quote.benchmark_instrument_id"]

def outcomeFields : List String := [
  "meridian.v1.Outcome.meta",
  "meridian.v1.Outcome.determination",
  "meridian.v1.Outcome.stage",
  "meridian.v1.Outcome.settlement_value",
  "meridian.v1.Outcome.settled_at_ns",
  "meridian.v1.Outcome.determination_as_reported"]

def rateFields : List String := [
  "meridian.v1.Rate.meta",
  "meridian.v1.Rate.kind",
  "meridian.v1.Rate.value",
  "meridian.v1.Rate.convention",
  "meridian.v1.Rate.tenor",
  "meridian.v1.Rate.maturity_date",
  "meridian.v1.Rate.preliminary",
  "meridian.v1.Rate.volume",
  "meridian.v1.Rate.transaction_count",
  "meridian.v1.Rate.percentiles"]

def statisticFields : List String := [
  "meridian.v1.Statistic.meta",
  "meridian.v1.Statistic.kind",
  "meridian.v1.Statistic.value"]

def listedSeriesFields : List String := [
  "meridian.v1.ListedSeries.meta",
  "meridian.v1.ListedSeries.template_id",
  "meridian.v1.ListedSeries.template_version",
  "meridian.v1.ListedSeries.fields",
  "meridian.v1.ListedSeries.instrument_id"]

def derivedSeriesFields : List String := [
  "meridian.v1.DerivedSeries.meta",
  "meridian.v1.DerivedSeries.series",
  "meridian.v1.DerivedSeries.value",
  "meridian.v1.DerivedSeries.rule",
  "meridian.v1.DerivedSeries.inputs",
  "meridian.v1.DerivedSeries.published_by"]

def savedScenarioFields : List String := [
  "meridian.v1.SavedScenario.meta",
  "meridian.v1.SavedScenario.scenario",
  "meridian.v1.SavedScenario.scenario_set",
  "meridian.v1.SavedScenario.description"]

def corporateActionFields : List String := [
  "meridian.v1.CorporateActionAnnounced.meta",
  "meridian.v1.CorporateActionAnnounced.kind",
  "meridian.v1.CorporateActionAnnounced.amount_per_share",
  "meridian.v1.CorporateActionAnnounced.declared_date",
  "meridian.v1.CorporateActionAnnounced.ex_date",
  "meridian.v1.CorporateActionAnnounced.record_date",
  "meridian.v1.CorporateActionAnnounced.payment_date",
  "meridian.v1.CorporateActionAnnounced.rule",
  "meridian.v1.CorporateActionAnnounced.filing"]

def filingFields : List String := [
  "meridian.v1.Filing.meta",
  "meridian.v1.Filing.filing",
  "meridian.v1.Filing.kind",
  "meridian.v1.Filing.items",
  "meridian.v1.Filing.period_of_report",
  "meridian.v1.Filing.filed_date"]

def reportedFactFields : List String := [
  "meridian.v1.ReportedFact.meta",
  "meridian.v1.ReportedFact.concept",
  "meridian.v1.ReportedFact.amount",
  "meridian.v1.ReportedFact.value",
  "meridian.v1.ReportedFact.period_start",
  "meridian.v1.ReportedFact.period_end",
  "meridian.v1.ReportedFact.dimensions",
  "meridian.v1.ReportedFact.filing"]

def ratingActionFields : List String := [
  "meridian.v1.RatingAction.meta",
  "meridian.v1.RatingAction.rating",
  "meridian.v1.RatingAction.rating_class",
  "meridian.v1.RatingAction.action"]

def holdingsReportFields : List String := [
  "meridian.v1.HoldingsReport.meta",
  "meridian.v1.HoldingsReport.kind",
  "meridian.v1.HoldingsReport.report_date",
  "meridian.v1.HoldingsReport.complete",
  "meridian.v1.HoldingsReport.filing"]

def holdingFields : List String := [
  "meridian.v1.Holding.meta",
  "meridian.v1.Holding.report_row_key",
  "meridian.v1.Holding.quantity",
  "meridian.v1.Holding.market_value",
  "meridian.v1.Holding.percent_of_class"]

def factorFields : List String := [
  "meridian.v1.Factor.meta",
  "meridian.v1.Factor.factor",
  "meridian.v1.Factor.factor_month",
  "meridian.v1.Factor.record_date",
  "meridian.v1.Factor.payment_date",
  "meridian.v1.Factor.coupon_rate",
  "meridian.v1.Factor.wac",
  "meridian.v1.Factor.wam",
  "meridian.v1.Factor.wala"]

/-- The dictionary entries of a data type's fields; none for one the lake does not have. -/
def fieldsOf : DataType → List String
  | .price => priceFields
  | .bar => barFields
  | .trade => tradeFields
  | .quote => quoteFields
  | .outcome => outcomeFields
  | .rate => rateFields
  | .statistic => statisticFields
  | .series => listedSeriesFields
  | .derived => derivedSeriesFields
  | .scenario => savedScenarioFields
  | .corporateAction => corporateActionFields
  | .filing => filingFields
  | .reportedFact => reportedFactFields
  | .ratingAction => ratingActionFields
  | .holdingsReport => holdingsReportFields
  | .holding => holdingFields
  | .factor => factorFields
  | .executionCost => []

section Strip

variable {ρ : Type}

/-- The fields a reader may not read removed: each at the places taken whose entry is not in `allowed`,
an empty set allowing every field. Answers the entries removed. -/
def stripAt (fields : List String) (places : List Nat) (clear : Nat → ρ → ρ) (allowed : BTreeSet String) (row : ρ) :
    ρ × List String :=
  if allowed.isEmpty then (row, [])
  else places.foldl (fun held place =>
    let entry := fields.getD place ""
    if allowed.contains entry then held else (clear place held.1, held.2 ++ [entry])) (row, [])

/-- The fields a reader may not read removed, and named. What a row is, its envelope and its kind,
concept, action or report, is never removed. -/
def stripBy (fields : List String) (keep : List Nat) (clear : Nat → ρ → ρ) (allowed : BTreeSet String) (row : ρ) :
    ρ × List String :=
  stripAt fields ((List.range fields.length).filter fun i => i ≠ 0 && i ∉ keep) clear allowed row

end Strip

def clearPrice (i : Nat) (price : Price) : Price :=
  match i with
  | 1 => { price with kind := 0 }
  | 2 => { price with price := none }
  | 3 => { price with basis := 0 }
  | 4 => { price with confidence := none }
  | 5 => { price with yield := none }
  | 6 => { price with spreadBps := none }
  | 7 => { price with benchmarkInstrumentId := "" }
  | _ => price

/-- The fields a reader may not read of a price, removed: each field entry not in `allowed`, an empty set
allowing every field. The envelope is never removed. Answers the entries removed. -/
def stripPrice (allowed : BTreeSet String) (price : Price) : Price × List String :=
  stripAt priceFields [1, 2, 3, 4, 5, 6, 7] clearPrice allowed price

def clearBar (i : Nat) (bar : Bar) : Bar :=
  match i with
  | 1 => { bar with «open» := none }
  | 2 => { bar with high := none }
  | 3 => { bar with low := none }
  | 4 => { bar with close := none }
  | 5 => { bar with volume := none }
  | 6 => { bar with vwap := none }
  | 7 => { bar with tradeCount := none }
  | _ => bar

def stripBar (allowed : BTreeSet String) (bar : Bar) : Bar × List String :=
  stripAt barFields [1, 2, 3, 4, 5, 6, 7] clearBar allowed bar

def clearTrade (i : Nat) (trade : Trade) : Trade :=
  match i with
  | 1 => { trade with price := none }
  | 2 => { trade with quantity := none }
  | 3 => { trade with attributes := none }
  | 4 => { trade with aggressor := 0 }
  | 5 => { trade with sourceSequence := 0 }
  | 6 => { trade with cancelled := false }
  | 7 => { trade with quoteAtTrade := none }
  | 8 => { trade with basis := 0 }
  | 9 => { trade with yield := none }
  | 10 => { trade with spreadBps := none }
  | 11 => { trade with benchmarkInstrumentId := "" }
  | 12 => { trade with quantityCapped := false }
  | _ => trade

def stripTrade (allowed : BTreeSet String) (trade : Trade) : Trade × List String :=
  stripAt tradeFields [1, 2, 3, 4, 5, 6, 7, 8, 9, 10, 11, 12] clearTrade allowed trade

def clearStatistic (i : Nat) (statistic : Statistic) : Statistic :=
  match i with
  | 1 => { statistic with kind := 0 }
  | 2 => { statistic with value := none }
  | _ => statistic

def stripStatistic (allowed : BTreeSet String) (statistic : Statistic) : Statistic × List String :=
  stripAt statisticFields [1, 2] clearStatistic allowed statistic

def clearSeries (i : Nat) (series : ListedSeries) : ListedSeries :=
  match i with
  | 1 => { series with templateId := "" }
  | 2 => { series with templateVersion := "" }
  | 3 => { series with fields := [] }
  | _ => series

/-- Its instrument ID is the lake's own answer, never stripped. -/
def stripSeries (allowed : BTreeSet String) (series : ListedSeries) : ListedSeries × List String :=
  stripAt listedSeriesFields [1, 2, 3] clearSeries allowed series

def clearFactor (i : Nat) (factor : Factor) : Factor :=
  match i with
  | 1 => { factor with factor := none }
  | 2 => { factor with factorMonth := "" }
  | 3 => { factor with recordDate := "" }
  | 4 => { factor with paymentDate := "" }
  | 5 => { factor with couponRate := none }
  | 6 => { factor with wac := none }
  | 7 => { factor with wam := none }
  | 8 => { factor with wala := none }
  | _ => factor

def stripFactor (allowed : BTreeSet String) (factor : Factor) : Factor × List String :=
  stripAt factorFields [1, 2, 3, 4, 5, 6, 7, 8] clearFactor allowed factor

def clearQuote (i : Nat) (quote : Quote) : Quote :=
  match i with
  | 1 => { quote with bid := none }
  | 2 => { quote with ask := none }
  | 3 => { quote with bidQuantity := none }
  | 4 => { quote with askQuantity := none }
  | 5 => { quote with characteristics := [] }
  | 6 => { quote with bidSizeCapped := false }
  | 7 => { quote with askSizeCapped := false }
  | 8 => { quote with basis := 0 }
  | 9 => { quote with bidYield := none }
  | 10 => { quote with bidSpreadBps := none }
  | 11 => { quote with askYield := none }
  | 12 => { quote with askSpreadBps := none }
  | 13 => { quote with benchmarkInstrumentId := "" }
  | _ => quote

def stripQuote (allowed : BTreeSet String) (quote : Quote) : Quote × List String :=
  stripAt quoteFields [1, 2, 3, 4, 5, 6, 7, 8, 9, 10, 11, 12, 13] clearQuote allowed quote

def clearRate (i : Nat) (rate : Rate) : Rate :=
  match i with
  | 1 => { rate with kind := 0 }
  | 2 => { rate with value := none }
  | 3 => { rate with convention := none }
  | 4 => { rate with tenor := none }
  | 5 => { rate with maturityDate := "" }
  | 6 => { rate with preliminary := false }
  | 7 => { rate with volume := none }
  | 8 => { rate with transactionCount := none }
  | 9 => { rate with percentiles := [] }
  | _ => rate

def stripRate (allowed : BTreeSet String) (rate : Rate) : Rate × List String :=
  stripAt rateFields [1, 2, 3, 4, 5, 6, 7, 8, 9] clearRate allowed rate

def clearOutcome (i : Nat) (outcome : Outcome) : Outcome :=
  match i with
  | 1 => { outcome with determination := 0 }
  | 2 => { outcome with stage := 0 }
  | 3 => { outcome with settlementValue := none }
  | 4 => { outcome with settledAtNs := 0 }
  | 5 => { outcome with determinationAsReported := none }
  | _ => outcome

def stripOutcome (allowed : BTreeSet String) (outcome : Outcome) : Outcome × List String :=
  stripAt outcomeFields [1, 2, 3, 4, 5] clearOutcome allowed outcome

def clearCorporateAction (i : Nat) (action : CorporateActionAnnounced) : CorporateActionAnnounced :=
  match i with
  | 2 => { action with amountPerShare := none }
  | 3 => { action with declaredDate := "" }
  | 4 => { action with exDate := "" }
  | 5 => { action with recordDate := "" }
  | 6 => { action with paymentDate := "" }
  | 7 => { action with rule := none }
  | 8 => { action with filing := none }
  | _ => action

/-- Its kind is what the row is, never stripped. -/
def stripCorporateAction (allowed : BTreeSet String) (action : CorporateActionAnnounced) : CorporateActionAnnounced × List String :=
  stripAt corporateActionFields [2, 3, 4, 5, 6, 7, 8] clearCorporateAction allowed action

def clearFiling (i : Nat) (filing : Filing) : Filing :=
  match i with
  | 1 => { filing with filing := none }
  | 3 => { filing with items := [] }
  | 4 => { filing with periodOfReport := "" }
  | _ => { filing with filedDate := "" }

/-- Its kind is what the row is, never stripped. -/
def stripFiling (allowed : BTreeSet String) (filing : Filing) : Filing × List String :=
  stripBy filingFields [2] clearFiling allowed filing

def clearReportedFact (i : Nat) (fact : ReportedFact) : ReportedFact :=
  match i with
  | 2 => { fact with amount := none }
  | 3 => { fact with value := none }
  | 4 => { fact with periodStart := "" }
  | 5 => { fact with periodEnd := "" }
  | 6 => { fact with dimensions := [] }
  | _ => { fact with filing := none }

/-- Its concept is what it is. -/
def stripReportedFact (allowed : BTreeSet String) (fact : ReportedFact) : ReportedFact × List String :=
  stripBy reportedFactFields [1] clearReportedFact allowed fact

def clearRatingAction (i : Nat) (action : RatingAction) : RatingAction :=
  match i with
  | 1 => { action with rating := "" }
  | _ => { action with ratingClass := "" }

/-- Its action is what it is. -/
def stripRatingAction (allowed : BTreeSet String) (action : RatingAction) : RatingAction × List String :=
  stripBy ratingActionFields [3] clearRatingAction allowed action

def clearHoldingsReport (i : Nat) (report : HoldingsReport) : HoldingsReport :=
  match i with
  | 2 => { report with reportDate := "" }
  | 3 => { report with complete := false }
  | _ => { report with filing := none }

/-- Its kind is what it is. -/
def stripHoldingsReport (allowed : BTreeSet String) (report : HoldingsReport) : HoldingsReport × List String :=
  stripBy holdingsReportFields [1] clearHoldingsReport allowed report

def clearHolding (i : Nat) (holding : Holding) : Holding :=
  match i with
  | 2 => { holding with quantity := none }
  | 3 => { holding with marketValue := none }
  | _ => { holding with percentOfClass := none }

/-- The report it belongs to is what it is. -/
def stripHolding (allowed : BTreeSet String) (holding : Holding) : Holding × List String :=
  stripBy holdingFields [1] clearHolding allowed holding

/-- The identifier scheme of an exchange's ticker: a future's, or a future option's, series key. -/
def tickerScheme : String := "ticker"

/-- The identifier scheme of an option's series key. -/
def occOsiScheme : String := "occ_osi"

/-- A series key as one text, each identifier as scheme and value, a ticker's venue after it, in order of
scheme. Empty for a row keyed by no series. -/
def seriesKeyText (key : List Identifier) : String :=
  let parts := key.map fun identifier =>
    if identifier.source = "" then s!"{identifier.scheme}={identifier.value}"
    else s!"{identifier.scheme}={identifier.value}@{identifier.source}"
  String.intercalate "|" (parts.mergeSort fun a b => !decide (b < a))

/-- The asset a row is priced in, by its amount's cash instrument, or its code before the lake resolves
it. Empty for a row with no amount. -/
def assetKey (money : Option Money) : String :=
  match money with
  | some money => if money.instrumentId = "" then money.currencyCode else money.instrumentId
  | none => ""

/-- A rate's tenor or exact maturity, and its convention, as one key. -/
def ratePoint (rate : Rate) : String :=
  let tenor := match rate.tenor with
    | some tenor => s!"{tenor.count}:{tenor.unit}"
    | none => ""
  let convention := match rate.convention with
    | some convention => s!"{convention.dayCount}:{convention.compounding}:{convention.periodsPerYear}"
    | none => ""
  s!"{tenor}|{rate.maturityDate}|{convention}"

/-- A quote's asset: its bid's, or its ask's where the bid side is empty. -/
def quoteAsset (quote : Quote) : String :=
  let bid := assetKey quote.bid
  if bid = "" then assetKey quote.ask else bid

end MeridianCore.Lake
