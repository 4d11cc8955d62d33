import MeridianCore.Lake.Row

namespace MeridianCore.Lake

section Strip

variable {ρ : Type} {fields : List String} {places : List Nat} {clear : Nat → ρ → ρ} {allowed : BTreeSet String}

/-- One place's field, removed where its entry is not allowed. -/
def stripPlace (fields : List String) (clear : Nat → ρ → ρ) (allowed : BTreeSet String) (held : ρ × List String)
    (place : Nat) : ρ × List String :=
  if allowed.contains (fields.getD place "") then held else (clear place held.1, held.2 ++ [fields.getD place ""])

theorem stripAt_eq (restricted : allowed.isEmpty = false) (row : ρ) :
    stripAt fields places clear allowed row = places.foldl (stripPlace fields clear allowed) (row, []) := by
  simp only [stripAt, restricted]
  rfl

/-- The entries named are those taken and not allowed, each as often as it is taken. -/
theorem stripAt_removed (restricted : allowed.isEmpty = false) (row : ρ) :
    (stripAt fields places clear allowed row).2 =
      (places.map (fields.getD · "")).filter (!allowed.contains ·) := by
  rw [stripAt_eq restricted]
  suffices held : ∀ held : ρ × List String, (places.foldl (stripPlace fields clear allowed) held).2 =
      held.2 ++ (places.map (fields.getD · "")).filter (!allowed.contains ·) by
    exact held (row, [])
  induction places with
  | nil => simp
  | cons place rest ih =>
    intro held
    rw [List.foldl_cons, ih, stripPlace, List.map_cons, List.filter_cons]
    cases permitted : allowed.contains (fields.getD place "") with
    | true => rw [if_pos rfl, if_neg (by simp)]
    | false => rw [if_neg (by simp), if_pos (by simp), List.append_assoc, List.singleton_append]

/-- What every place keeps, and the row has, the row stripped has. -/
theorem stripped_keeps {holds : ρ → Bool} (keeps : ∀ place ∈ places, ∀ row, holds row = true → holds (clear place row) = true)
    {held : ρ × List String} (before : holds held.1 = true) :
    holds (places.foldl (stripPlace fields clear allowed) held).1 = true := by
  induction places generalizing held with
  | nil => exact before
  | cons place rest ih =>
    rw [List.foldl_cons]
    refine ih (fun other member => keeps other (List.mem_cons_of_mem _ member)) ?_
    unfold stripPlace
    split
    · exact before
    · exact keeps place List.mem_cons_self _ before

/-- A field of a message: its dictionary entry, and whether a row leaves it at its default. -/
structure Field (ρ : Type) where
  entry : String
  unset : ρ → Bool

/-- A field some place clears, and no place sets. -/
structure Cleared (fields : List String) (places : List Nat) (clear : Nat → ρ → ρ) (field : Field ρ) : Prop where
  cleared : ∃ place ∈ places, fields.getD place "" = field.entry ∧ ∀ row, field.unset (clear place row) = true
  keeps : ∀ place ∈ places, ∀ row, field.unset row = true → field.unset (clear place row) = true

theorem cleared_iff {field : Field ρ} :
    Cleared fields places clear field ↔
      (∃ place ∈ places, fields.getD place "" = field.entry ∧ ∀ row, field.unset (clear place row) = true) ∧
        ∀ place ∈ places, ∀ row, field.unset row = true → field.unset (clear place row) = true :=
  ⟨fun held => ⟨held.cleared, held.keeps⟩, fun held => ⟨held.1, held.2⟩⟩

/-- A field cleared somewhere is at its default once a row is stripped, unless its entry is allowed. -/
theorem Cleared.unset {field : Field ρ} (cleared : Cleared fields places clear field)
    (restricted : allowed.isEmpty = false) (refused : allowed.contains field.entry = false) (row : ρ) :
    field.unset (stripAt fields places clear allowed row).1 = true := by
  obtain ⟨place, member, named, clears⟩ := cleared.cleared
  have keeps := cleared.keeps
  obtain ⟨before, after, split⟩ := List.append_of_mem member
  rw [stripAt_eq restricted, split, List.foldl_append, List.foldl_cons]
  refine stripped_keeps (fun other later => keeps other ?_) ?_
  · rw [split]
    exact List.mem_append_right _ (List.mem_cons_of_mem _ later)
  · rw [stripPlace, named, refused]
    exact clears _

/-- Every field of a message is spared by name, or cleared at some place. -/
def Strips (fields : List String) (places : List Nat) (clear : Nat → ρ → ρ) (shown : List (Field ρ))
    (spared : List String) : Prop :=
  ∀ field ∈ shown, field.entry ∈ spared ∨ Cleared fields places clear field

/-- What a row stripped still shows is an entry allowed or spared. -/
theorem Strips.shows {shown : List (Field ρ)} {spared : List String} (strips : Strips fields places clear shown spared)
    (restricted : allowed.isEmpty = false) {row : ρ} {entry : String}
    (shows : (entry, false) ∈ shown.map fun field => (field.entry, field.unset (stripAt fields places clear allowed row).1)) :
    allowed.contains entry = true ∨ entry ∈ spared := by
  obtain ⟨field, member, said⟩ := List.mem_map.mp shows
  obtain ⟨rfl, set⟩ := Prod.mk.inj said
  rcases strips field member with spares | cleared
  · exact .inr spares
  · left
    by_contra refused
    rw [cleared.unset restricted (Bool.not_eq_true _ ▸ refused)] at set
    cases set

/-- What a row stripped shows, the row showed. -/
theorem Strips.showed {shown : List (Field ρ)} {spared : List String} (strips : Strips fields places clear shown spared)
    {row : ρ} {entry : String} (unspared : entry ∉ spared)
    (shows : (entry, false) ∈ shown.map fun field => (field.entry, field.unset (stripAt fields places clear allowed row).1)) :
    (entry, false) ∈ shown.map fun field => (field.entry, field.unset row) := by
  obtain ⟨field, member, said⟩ := List.mem_map.mp shows
  obtain ⟨rfl, set⟩ := Prod.mk.inj said
  have keeps := ((strips field member).resolve_left unspared).keeps
  refine List.mem_map.mpr ⟨field, member, Prod.ext rfl ?_⟩
  by_contra unset
  have stays : field.unset (stripAt fields places clear allowed row).1 = true := by
    cases every : allowed.isEmpty with
    | true => simpa [stripAt, every] using unset
    | false =>
      rw [stripAt_eq every]
      exact stripped_keeps keeps (Bool.not_eq_false _ ▸ unset)
  rw [stays] at set
  cases set

end Strip

section Shown

def priceShown : List (Field Price) := [
  ⟨"meridian.v1.Price.kind", fun row => row.kind = 0⟩,
  ⟨"meridian.v1.Price.price", fun row => row.price = none⟩,
  ⟨"meridian.v1.Price.basis", fun row => row.basis = 0⟩,
  ⟨"meridian.v1.Price.confidence", fun row => row.confidence = none⟩,
  ⟨"meridian.v1.Price.yield", fun row => row.yield = none⟩,
  ⟨"meridian.v1.Price.spread_bps", fun row => row.spreadBps = none⟩,
  ⟨"meridian.v1.Price.benchmark_instrument_id", fun row => row.benchmarkInstrumentId = ""⟩]

def barShown : List (Field Bar) := [
  ⟨"meridian.v1.Bar.open", fun row => row.open = none⟩,
  ⟨"meridian.v1.Bar.high", fun row => row.high = none⟩,
  ⟨"meridian.v1.Bar.low", fun row => row.low = none⟩,
  ⟨"meridian.v1.Bar.close", fun row => row.close = none⟩,
  ⟨"meridian.v1.Bar.volume", fun row => row.volume = none⟩,
  ⟨"meridian.v1.Bar.vwap", fun row => row.vwap = none⟩,
  ⟨"meridian.v1.Bar.trade_count", fun row => row.tradeCount = none⟩]

def tradeShown : List (Field Trade) := [
  ⟨"meridian.v1.Trade.price", fun row => row.price = none⟩,
  ⟨"meridian.v1.Trade.quantity", fun row => row.quantity = none⟩,
  ⟨"meridian.v1.Trade.attributes", fun row => row.attributes = none⟩,
  ⟨"meridian.v1.Trade.aggressor", fun row => row.aggressor = 0⟩,
  ⟨"meridian.v1.Trade.source_sequence", fun row => row.sourceSequence = 0⟩,
  ⟨"meridian.v1.Trade.cancelled", fun row => row.cancelled = false⟩,
  ⟨"meridian.v1.Trade.quote_at_trade", fun row => row.quoteAtTrade = none⟩,
  ⟨"meridian.v1.Trade.basis", fun row => row.basis = 0⟩,
  ⟨"meridian.v1.Trade.yield", fun row => row.yield = none⟩,
  ⟨"meridian.v1.Trade.spread_bps", fun row => row.spreadBps = none⟩,
  ⟨"meridian.v1.Trade.benchmark_instrument_id", fun row => row.benchmarkInstrumentId = ""⟩,
  ⟨"meridian.v1.Trade.quantity_capped", fun row => row.quantityCapped = false⟩]

def quoteShown : List (Field Quote) := [
  ⟨"meridian.v1.Quote.bid", fun row => row.bid = none⟩,
  ⟨"meridian.v1.Quote.ask", fun row => row.ask = none⟩,
  ⟨"meridian.v1.Quote.bid_quantity", fun row => row.bidQuantity = none⟩,
  ⟨"meridian.v1.Quote.ask_quantity", fun row => row.askQuantity = none⟩,
  ⟨"meridian.v1.Quote.characteristics", fun row => row.characteristics = []⟩,
  ⟨"meridian.v1.Quote.bid_size_capped", fun row => row.bidSizeCapped = false⟩,
  ⟨"meridian.v1.Quote.ask_size_capped", fun row => row.askSizeCapped = false⟩,
  ⟨"meridian.v1.Quote.basis", fun row => row.basis = 0⟩,
  ⟨"meridian.v1.Quote.bid_yield", fun row => row.bidYield = none⟩,
  ⟨"meridian.v1.Quote.bid_spread_bps", fun row => row.bidSpreadBps = none⟩,
  ⟨"meridian.v1.Quote.ask_yield", fun row => row.askYield = none⟩,
  ⟨"meridian.v1.Quote.ask_spread_bps", fun row => row.askSpreadBps = none⟩,
  ⟨"meridian.v1.Quote.benchmark_instrument_id", fun row => row.benchmarkInstrumentId = ""⟩]

def outcomeShown : List (Field Outcome) := [
  ⟨"meridian.v1.Outcome.determination", fun row => row.determination = 0⟩,
  ⟨"meridian.v1.Outcome.stage", fun row => row.stage = 0⟩,
  ⟨"meridian.v1.Outcome.settlement_value", fun row => row.settlementValue = none⟩,
  ⟨"meridian.v1.Outcome.settled_at_ns", fun row => row.settledAtNs = 0⟩,
  ⟨"meridian.v1.Outcome.determination_as_reported", fun row => row.determinationAsReported = none⟩,
  ⟨"meridian.v1.Outcome.challenge_ends_at_ns", fun row => row.challengeEndsAtNs = 0⟩]

def executionCostShown : List (Field ExecutionCost) := [
  ⟨"meridian.v1.ExecutionCost.execution_id", fun row => row.executionId = ""⟩,
  ⟨"meridian.v1.ExecutionCost.order_id", fun row => row.orderId = ""⟩,
  ⟨"meridian.v1.ExecutionCost.placement_id", fun row => row.placementId = ""⟩,
  ⟨"meridian.v1.ExecutionCost.account_id", fun row => row.accountId = ""⟩,
  ⟨"meridian.v1.ExecutionCost.benchmark", fun row => row.benchmark = 0⟩,
  ⟨"meridian.v1.ExecutionCost.benchmark_price", fun row => row.benchmarkPrice = none⟩,
  ⟨"meridian.v1.ExecutionCost.benchmark_at_ns", fun row => row.benchmarkAtNs = 0⟩,
  ⟨"meridian.v1.ExecutionCost.benchmark_dataset", fun row => row.benchmarkDataset = ""⟩,
  ⟨"meridian.v1.ExecutionCost.benchmark_row_key", fun row => row.benchmarkRowKey = ""⟩,
  ⟨"meridian.v1.ExecutionCost.fixing_id", fun row => row.fixingId = ""⟩,
  ⟨"meridian.v1.ExecutionCost.execution_price", fun row => row.executionPrice = none⟩,
  ⟨"meridian.v1.ExecutionCost.side", fun row => row.side = 0⟩,
  ⟨"meridian.v1.ExecutionCost.notional", fun row => row.notional = none⟩,
  ⟨"meridian.v1.ExecutionCost.cost_bps", fun row => row.costBps = none⟩,
  ⟨"meridian.v1.ExecutionCost.fees_bps", fun row => row.feesBps = none⟩,
  ⟨"meridian.v1.ExecutionCost.financing_bps", fun row => row.financingBps = none⟩,
  ⟨"meridian.v1.ExecutionCost.liquidity_indicator", fun row => row.liquidityIndicator = 0⟩,
  ⟨"meridian.v1.ExecutionCost.venue_id", fun row => row.venueId = ""⟩,
  ⟨"meridian.v1.ExecutionCost.unanswered", fun row => row.unanswered = 0⟩,
  ⟨"meridian.v1.ExecutionCost.staleness_bound_ns", fun row => row.stalenessBoundNs = 0⟩,
  ⟨"meridian.v1.ExecutionCost.time_precision", fun row => row.timePrecision = 0⟩,
  ⟨"meridian.v1.ExecutionCost.reject_count", fun row => row.rejectCount = 0⟩,
  ⟨"meridian.v1.ExecutionCost.time_to_fill_ns", fun row => row.timeToFillNs = 0⟩]

def rateShown : List (Field Rate) := [
  ⟨"meridian.v1.Rate.kind", fun row => row.kind = 0⟩,
  ⟨"meridian.v1.Rate.value", fun row => row.value = none⟩,
  ⟨"meridian.v1.Rate.convention", fun row => row.convention = none⟩,
  ⟨"meridian.v1.Rate.tenor", fun row => row.tenor = none⟩,
  ⟨"meridian.v1.Rate.maturity_date", fun row => row.maturityDate = ""⟩,
  ⟨"meridian.v1.Rate.preliminary", fun row => row.preliminary = false⟩,
  ⟨"meridian.v1.Rate.volume", fun row => row.volume = none⟩,
  ⟨"meridian.v1.Rate.transaction_count", fun row => row.transactionCount = none⟩,
  ⟨"meridian.v1.Rate.percentiles", fun row => row.percentiles = []⟩]

def statisticShown : List (Field Statistic) := [
  ⟨"meridian.v1.Statistic.kind", fun row => row.kind = 0⟩,
  ⟨"meridian.v1.Statistic.value", fun row => row.value = none⟩]

def seriesShown : List (Field ListedSeries) := [
  ⟨"meridian.v1.ListedSeries.template_id", fun row => row.templateId = ""⟩,
  ⟨"meridian.v1.ListedSeries.template_version", fun row => row.templateVersion = ""⟩,
  ⟨"meridian.v1.ListedSeries.fields", fun row => row.fields = []⟩,
  ⟨"meridian.v1.ListedSeries.instrument_id", fun row => row.instrumentId = ""⟩]

def derivedShown : List (Field DerivedSeries) := [
  ⟨"meridian.v1.DerivedSeries.series", fun row => row.series = ""⟩,
  ⟨"meridian.v1.DerivedSeries.value", fun row => row.value = none⟩,
  ⟨"meridian.v1.DerivedSeries.rule", fun row => row.rule = none⟩,
  ⟨"meridian.v1.DerivedSeries.inputs", fun row => row.inputs = []⟩,
  ⟨"meridian.v1.DerivedSeries.published_by", fun row => row.publishedBy = ""⟩,
  ⟨"meridian.v1.DerivedSeries.money_value", fun row => row.moneyValue = none⟩]

def scenarioShown : List (Field SavedScenario) := [
  ⟨"meridian.v1.SavedScenario.scenario", fun row => row.scenario = none⟩,
  ⟨"meridian.v1.SavedScenario.scenario_set", fun row => row.scenarioSet = none⟩,
  ⟨"meridian.v1.SavedScenario.description", fun row => row.description = ""⟩]

def corporateActionShown : List (Field CorporateActionAnnounced) := [
  ⟨"meridian.v1.CorporateActionAnnounced.kind", fun row => row.kind = 0⟩,
  ⟨"meridian.v1.CorporateActionAnnounced.amount_per_share", fun row => row.amountPerShare = none⟩,
  ⟨"meridian.v1.CorporateActionAnnounced.declared_date", fun row => row.declaredDate = ""⟩,
  ⟨"meridian.v1.CorporateActionAnnounced.ex_date", fun row => row.exDate = ""⟩,
  ⟨"meridian.v1.CorporateActionAnnounced.record_date", fun row => row.recordDate = ""⟩,
  ⟨"meridian.v1.CorporateActionAnnounced.payment_date", fun row => row.paymentDate = ""⟩,
  ⟨"meridian.v1.CorporateActionAnnounced.rule", fun row => row.rule = none⟩,
  ⟨"meridian.v1.CorporateActionAnnounced.filing", fun row => row.filing = none⟩]

def filingShown : List (Field Filing) := [
  ⟨"meridian.v1.Filing.filing", fun row => row.filing = none⟩,
  ⟨"meridian.v1.Filing.kind", fun row => row.kind = 0⟩,
  ⟨"meridian.v1.Filing.items", fun row => row.items = []⟩,
  ⟨"meridian.v1.Filing.period_of_report", fun row => row.periodOfReport = ""⟩,
  ⟨"meridian.v1.Filing.filed_date", fun row => row.filedDate = ""⟩]

def reportedFactShown : List (Field ReportedFact) := [
  ⟨"meridian.v1.ReportedFact.concept", fun row => row.concept = ""⟩,
  ⟨"meridian.v1.ReportedFact.amount", fun row => row.amount = none⟩,
  ⟨"meridian.v1.ReportedFact.value", fun row => row.value = none⟩,
  ⟨"meridian.v1.ReportedFact.period_start", fun row => row.periodStart = ""⟩,
  ⟨"meridian.v1.ReportedFact.period_end", fun row => row.periodEnd = ""⟩,
  ⟨"meridian.v1.ReportedFact.dimensions", fun row => row.dimensions = []⟩,
  ⟨"meridian.v1.ReportedFact.filing", fun row => row.filing = none⟩]

def ratingActionShown : List (Field RatingAction) := [
  ⟨"meridian.v1.RatingAction.rating", fun row => row.rating = ""⟩,
  ⟨"meridian.v1.RatingAction.rating_class", fun row => row.ratingClass = ""⟩,
  ⟨"meridian.v1.RatingAction.action", fun row => row.action = 0⟩]

def holdingsReportShown : List (Field HoldingsReport) := [
  ⟨"meridian.v1.HoldingsReport.kind", fun row => row.kind = 0⟩,
  ⟨"meridian.v1.HoldingsReport.report_date", fun row => row.reportDate = ""⟩,
  ⟨"meridian.v1.HoldingsReport.complete", fun row => row.complete = false⟩,
  ⟨"meridian.v1.HoldingsReport.filing", fun row => row.filing = none⟩]

def holdingShown : List (Field Holding) := [
  ⟨"meridian.v1.Holding.report_row_key", fun row => row.reportRowKey = ""⟩,
  ⟨"meridian.v1.Holding.quantity", fun row => row.quantity = none⟩,
  ⟨"meridian.v1.Holding.market_value", fun row => row.marketValue = none⟩,
  ⟨"meridian.v1.Holding.percent_of_class", fun row => row.percentOfClass = none⟩]

def factorShown : List (Field Factor) := [
  ⟨"meridian.v1.Factor.factor", fun row => row.factor = none⟩,
  ⟨"meridian.v1.Factor.factor_month", fun row => row.factorMonth = ""⟩,
  ⟨"meridian.v1.Factor.record_date", fun row => row.recordDate = ""⟩,
  ⟨"meridian.v1.Factor.payment_date", fun row => row.paymentDate = ""⟩,
  ⟨"meridian.v1.Factor.coupon_rate", fun row => row.couponRate = none⟩,
  ⟨"meridian.v1.Factor.wac", fun row => row.wac = none⟩,
  ⟨"meridian.v1.Factor.wam", fun row => row.wam = none⟩,
  ⟨"meridian.v1.Factor.wala", fun row => row.wala = none⟩]

/-- The entries never stripped: what a row is, the lake's own answers, and an outcome's challenge deadline,
which its dictionary does not list. -/
def spared : DataType → List String
  | .outcome => ["meridian.v1.Outcome.challenge_ends_at_ns"]
  | .series => ["meridian.v1.ListedSeries.instrument_id"]
  | .corporateAction => ["meridian.v1.CorporateActionAnnounced.kind"]
  | .filing => ["meridian.v1.Filing.kind"]
  | .reportedFact => ["meridian.v1.ReportedFact.concept"]
  | .ratingAction => ["meridian.v1.RatingAction.action"]
  | .holdingsReport => ["meridian.v1.HoldingsReport.kind"]
  | .holding => ["meridian.v1.Holding.report_row_key"]
  | _ => []

theorem price_strips : Strips priceFields [1, 2, 3, 4, 5, 6, 7] clearPrice priceShown [] := by
  intro field member
  revert field
  simp [priceShown, cleared_iff, priceFields, clearPrice]

theorem bar_strips : Strips barFields [1, 2, 3, 4, 5, 6, 7] clearBar barShown [] := by
  intro field member
  revert field
  simp [barShown, cleared_iff, barFields, clearBar]

theorem trade_strips : Strips tradeFields [1, 2, 3, 4, 5, 6, 7, 8, 9, 10, 11, 12] clearTrade tradeShown [] := by
  intro field member
  revert field
  simp [tradeShown, cleared_iff, tradeFields, clearTrade]

theorem quote_strips : Strips quoteFields [1, 2, 3, 4, 5, 6, 7, 8, 9, 10, 11, 12, 13] clearQuote quoteShown [] := by
  intro field member
  revert field
  simp [quoteShown, cleared_iff, quoteFields, clearQuote]

theorem outcome_strips : Strips outcomeFields [1, 2, 3, 4, 5] clearOutcome outcomeShown ["meridian.v1.Outcome.challenge_ends_at_ns"] := by
  intro field member
  revert field
  simp [outcomeShown, cleared_iff, outcomeFields, clearOutcome]

theorem rate_strips : Strips rateFields [1, 2, 3, 4, 5, 6, 7, 8, 9] clearRate rateShown [] := by
  intro field member
  revert field
  simp [rateShown, cleared_iff, rateFields, clearRate]

theorem statistic_strips : Strips statisticFields [1, 2] clearStatistic statisticShown [] := by
  intro field member
  revert field
  simp [statisticShown, cleared_iff, statisticFields, clearStatistic]

theorem series_strips : Strips listedSeriesFields [1, 2, 3] clearSeries seriesShown ["meridian.v1.ListedSeries.instrument_id"] := by
  intro field member
  revert field
  simp [seriesShown, cleared_iff, listedSeriesFields, clearSeries]

theorem corporateAction_strips : Strips corporateActionFields [2, 3, 4, 5, 6, 7, 8] clearCorporateAction corporateActionShown ["meridian.v1.CorporateActionAnnounced.kind"] := by
  intro field member
  revert field
  simp [corporateActionShown, cleared_iff, corporateActionFields, clearCorporateAction]

theorem filing_strips : Strips filingFields [1, 3, 4, 5] clearFiling filingShown ["meridian.v1.Filing.kind"] := by
  intro field member
  revert field
  simp [filingShown, cleared_iff, filingFields, clearFiling]

theorem reportedFact_strips : Strips reportedFactFields [2, 3, 4, 5, 6, 7] clearReportedFact reportedFactShown ["meridian.v1.ReportedFact.concept"] := by
  intro field member
  revert field
  simp [reportedFactShown, cleared_iff, reportedFactFields, clearReportedFact]

theorem ratingAction_strips : Strips ratingActionFields [1, 2] clearRatingAction ratingActionShown ["meridian.v1.RatingAction.action"] := by
  intro field member
  revert field
  simp [ratingActionShown, cleared_iff, ratingActionFields, clearRatingAction]

theorem holdingsReport_strips : Strips holdingsReportFields [2, 3, 4] clearHoldingsReport holdingsReportShown ["meridian.v1.HoldingsReport.kind"] := by
  intro field member
  revert field
  simp [holdingsReportShown, cleared_iff, holdingsReportFields, clearHoldingsReport]

theorem holding_strips : Strips holdingFields [2, 3, 4] clearHolding holdingShown ["meridian.v1.Holding.report_row_key"] := by
  intro field member
  revert field
  simp [holdingShown, cleared_iff, holdingFields, clearHolding]

theorem factor_strips : Strips factorFields [1, 2, 3, 4, 5, 6, 7, 8] clearFactor factorShown [] := by
  intro field member
  revert field
  simp [factorShown, cleared_iff, factorFields, clearFactor]

end Shown

namespace Observation

/-- The fields of a row's message, its envelope apart, each with whether the row leaves it at its
default. -/
def shown : Observation → List (String × Bool)
  | price row => priceShown.map fun field => (field.entry, field.unset row)
  | bar row => barShown.map fun field => (field.entry, field.unset row)
  | trade row => tradeShown.map fun field => (field.entry, field.unset row)
  | quote row => quoteShown.map fun field => (field.entry, field.unset row)
  | outcome row => outcomeShown.map fun field => (field.entry, field.unset row)
  | executionCost row => executionCostShown.map fun field => (field.entry, field.unset row)
  | rate row => rateShown.map fun field => (field.entry, field.unset row)
  | statistic row => statisticShown.map fun field => (field.entry, field.unset row)
  | series row => seriesShown.map fun field => (field.entry, field.unset row)
  | derived row => derivedShown.map fun field => (field.entry, field.unset row)
  | scenario row => scenarioShown.map fun field => (field.entry, field.unset row)
  | corporateAction row => corporateActionShown.map fun field => (field.entry, field.unset row)
  | filing row => filingShown.map fun field => (field.entry, field.unset row)
  | reportedFact row => reportedFactShown.map fun field => (field.entry, field.unset row)
  | ratingAction row => ratingActionShown.map fun field => (field.entry, field.unset row)
  | holdingsReport row => holdingsReportShown.map fun field => (field.entry, field.unset row)
  | holding row => holdingShown.map fun field => (field.entry, field.unset row)
  | factor row => factorShown.map fun field => (field.entry, field.unset row)

/-- Whether a value of the field named reaches who reads the row. -/
def Shows (row : Observation) (entry : String) : Prop := (entry, false) ∈ row.shown

/-- The data types read whole: within the reader's account scope, or a signal plugin's own. -/
def readWhole : DataType → Bool
  | .executionCost | .derived | .scenario => true
  | _ => false

/-- A row stripped shows only what is allowed, and what is never stripped. -/
theorem allowed_of_shows {allowed : BTreeSet String} (restricted : allowed.isEmpty = false) {row : Observation}
    (partly : readWhole row.dataType = false) {entry : String} (shows : (row.strip allowed).1.Shows entry) :
    allowed.contains entry = true ∨ entry ∈ spared row.dataType := by
  cases row with
  | price row => exact price_strips.shows restricted shows
  | bar row => exact bar_strips.shows restricted shows
  | trade row => exact trade_strips.shows restricted shows
  | quote row => exact quote_strips.shows restricted shows
  | outcome row => exact outcome_strips.shows restricted shows
  | rate row => exact rate_strips.shows restricted shows
  | statistic row => exact statistic_strips.shows restricted shows
  | series row => exact series_strips.shows restricted shows
  | corporateAction row => exact corporateAction_strips.shows restricted shows
  | filing row => exact filing_strips.shows restricted shows
  | reportedFact row => exact reportedFact_strips.shows restricted shows
  | ratingAction row => exact ratingAction_strips.shows restricted shows
  | holdingsReport row => exact holdingsReport_strips.shows restricted shows
  | holding row => exact holding_strips.shows restricted shows
  | factor row => exact factor_strips.shows restricted shows
  | executionCost row => cases partly
  | derived row => cases partly
  | scenario row => cases partly

/-- Stripping shows nothing new. -/
theorem shows_of_strip {allowed : BTreeSet String} {row : Observation} {entry : String}
    (unspared : entry ∉ spared row.dataType) (shows : (row.strip allowed).1.Shows entry) : row.Shows entry := by
  cases row with
  | price row => exact price_strips.showed unspared shows
  | bar row => exact bar_strips.showed unspared shows
  | trade row => exact trade_strips.showed unspared shows
  | quote row => exact quote_strips.showed unspared shows
  | outcome row => exact outcome_strips.showed unspared shows
  | rate row => exact rate_strips.showed unspared shows
  | statistic row => exact statistic_strips.showed unspared shows
  | series row => exact series_strips.showed unspared shows
  | corporateAction row => exact corporateAction_strips.showed unspared shows
  | filing row => exact filing_strips.showed unspared shows
  | reportedFact row => exact reportedFact_strips.showed unspared shows
  | ratingAction row => exact ratingAction_strips.showed unspared shows
  | holdingsReport row => exact holdingsReport_strips.showed unspared shows
  | holding row => exact holding_strips.showed unspared shows
  | factor row => exact factor_strips.showed unspared shows
  | executionCost row => exact shows
  | derived row => exact shows
  | scenario row => exact shows

/-- The entries a strip may remove: the dictionary's, the envelope and what is spared apart. -/
def takable (dataType : DataType) : List String :=
  if readWhole dataType then [] else (fieldsOf dataType).tail.filter (· ∉ spared dataType)

theorem takable_nodup (dataType : DataType) : (takable dataType).Nodup := by
  cases dataType <;> decide

/-- The places of a data type's fields that its strip takes. -/
def placesOf : DataType → List Nat
  | .price | .bar => [1, 2, 3, 4, 5, 6, 7]
  | .trade => [1, 2, 3, 4, 5, 6, 7, 8, 9, 10, 11, 12]
  | .quote => [1, 2, 3, 4, 5, 6, 7, 8, 9, 10, 11, 12, 13]
  | .outcome => [1, 2, 3, 4, 5]
  | .rate => [1, 2, 3, 4, 5, 6, 7, 8, 9]
  | .statistic => [1, 2]
  | .series => [1, 2, 3]
  | .corporateAction => [2, 3, 4, 5, 6, 7, 8]
  | .filing => [1, 3, 4, 5]
  | .reportedFact => [2, 3, 4, 5, 6, 7]
  | .ratingAction => [1, 2]
  | .holdingsReport | .holding => [2, 3, 4]
  | .factor => [1, 2, 3, 4, 5, 6, 7, 8]
  | .executionCost | .derived | .scenario => []

/-- The places taken are the places of the entries a strip may remove. -/
theorem places_takable (dataType : DataType) :
    (placesOf dataType).map ((fieldsOf dataType).getD · "") = takable dataType := by
  cases dataType <;> decide

/-- The entries a strip removes are those it may and is not allowed, in the dictionary's order. -/
theorem strip_removed {allowed : BTreeSet String} (restricted : allowed.isEmpty = false) (row : Observation) :
    (row.strip allowed).2 = (takable row.dataType).filter (!allowed.contains ·) := by
  rw [← places_takable]
  cases row with
  | executionCost row => rfl
  | derived row => rfl
  | scenario row => rfl
  | _ row => exact stripAt_removed restricted row

/-- The entries of a data type's fields, its envelope apart. -/
def entriesOf : DataType → List String
  | .price => priceShown.map Field.entry
  | .bar => barShown.map Field.entry
  | .trade => tradeShown.map Field.entry
  | .quote => quoteShown.map Field.entry
  | .outcome => outcomeShown.map Field.entry
  | .executionCost => executionCostShown.map Field.entry
  | .rate => rateShown.map Field.entry
  | .statistic => statisticShown.map Field.entry
  | .series => seriesShown.map Field.entry
  | .derived => derivedShown.map Field.entry
  | .scenario => scenarioShown.map Field.entry
  | .corporateAction => corporateActionShown.map Field.entry
  | .filing => filingShown.map Field.entry
  | .reportedFact => reportedFactShown.map Field.entry
  | .ratingAction => ratingActionShown.map Field.entry
  | .holdingsReport => holdingsReportShown.map Field.entry
  | .holding => holdingShown.map Field.entry
  | .factor => factorShown.map Field.entry

theorem entries_shown (row : Observation) : row.shown.map Prod.fst = entriesOf row.dataType := by
  cases row with
  | _ row =>
    rw [shown, List.map_map]
    rfl

/-- The dictionary lists every field of a message but those spared. -/
theorem takable_of_shown (dataType : DataType) (partly : readWhole dataType = false) :
    ∀ entry ∈ entriesOf dataType, entry ∈ takable dataType ∨ entry ∈ spared dataType := by
  revert partly
  cases dataType <;> decide

end Observation

end MeridianCore.Lake

namespace MeridianCore.Lake

/-- A row stripped as its reader may read it and as its read asked: each field the reader may not read
that the read asked for, or every one where it asked for none, returned to be named; then each field not
asked, unset and not named. -/
def stripFor (allowed asked : BTreeSet String) (dataType : DataType) (row : Observation) : Observation × List String :=
  let stripped := row.strip allowed
  if asked.isEmpty then stripped
  else
    let kept := match (fieldsOf dataType).head? with
      | some meta_ => asked.insert meta_
      | none => asked
    ((stripped.1.strip kept).1, stripped.2.filter (asked.contains ·))

@[simp] theorem Observation.dataType_strip (allowed : BTreeSet String) (row : Observation) :
    (row.strip allowed).1.dataType = row.dataType := by
  cases row <;> rfl

/-- What a read answers of a row shows only what its reader may read, and what is never stripped. -/
theorem allowed_of_stripFor {allowed asked : BTreeSet String} {dataType : DataType} {row : Observation} {entry : String}
    (restricted : allowed.isEmpty = false) (partly : Observation.readWhole row.dataType = false)
    (shows : (stripFor allowed asked dataType row).1.Shows entry) :
    allowed.contains entry = true ∨ entry ∈ spared row.dataType := by
  by_cases unspared : entry ∈ spared row.dataType
  · exact .inr unspared
  · refine Observation.allowed_of_shows restricted partly ?_
    unfold stripFor at shows
    split at shows
    · exact shows
    · refine Observation.shows_of_strip ?_ shows
      rwa [Observation.dataType_strip]

end MeridianCore.Lake
