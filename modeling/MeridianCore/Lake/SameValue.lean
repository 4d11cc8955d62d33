import MeridianCore.Domain.ExactForms
import MeridianCore.Lake.Row
import MeridianCore.Lake.Memory

namespace MeridianCore

/-- The number a decimal states. -/
def Decimal.number (decimal : Decimal) : ℚ := decimal.integer / 10 ^ decimal.scale

/-- One spelling of the number a decimal states, at the least scale that states it. -/
def Decimal.least (decimal : Decimal) : Decimal :=
  ⟨(Exact.trimmedFrom decimal.integer decimal.scale).1, (Exact.trimmedFrom decimal.integer decimal.scale).2⟩

/-- Whether an exact value holds it. -/
def Decimal.held (decimal : Decimal) : Bool := (Exact.fromWire decimal).toOption.isSome

theorem Decimal.number_least (decimal : Decimal) : decimal.least.number = decimal.number :=
  Exact.trimmedFrom_value decimal.integer decimal.scale

theorem Decimal.least_eq_iff {a b : Decimal} : a.least = b.least ↔ a.number = b.number := by
  constructor
  · intro same
    rw [← number_least a, ← number_least b, same]
  · intro same
    rw [← number_least a, ← number_least b] at same
    have equal := Exact.least_unique (Exact.trimmedFrom_least a.integer a.scale)
      (Exact.trimmedFrom_least b.integer b.scale) same
    unfold Decimal.least
    rw [equal]

/-- A decimal as it is compared: by its number where an exact value holds it, else as it is spelled. -/
def Decimal.compared (decimal : Decimal) : Decimal := if decimal.held then decimal.least else decimal

/-- A decimal no exact value holds; the others not told apart. -/
def Decimal.unheld (decimal : Decimal) : Decimal := if decimal.held then ⟨0, 0⟩ else decimal

def Money.spelled (spell : Decimal → Decimal) (money : Money) : Money := { money with amount := money.amount.map spell }

namespace Lake

section Spelled

variable (spell : Decimal → Decimal)

def spelledValue (held : UnitValue) : UnitValue := { held with value := held.value.map spell }

def spelledYield (held : QuotedYield) : QuotedYield := { held with value := held.value.map (spelledValue spell) }

def spelledQuote (held : QuoteAtTrade) : QuoteAtTrade := { held with
  bid := held.bid.map (Money.spelled spell), ask := held.ask.map (Money.spelled spell)
  bidQuantity := held.bidQuantity.map spell, askQuantity := held.askQuantity.map spell }

def spelledPercentile (held : RatePercentile) : RatePercentile := { held with value := held.value.map spell }

def spelledShock (held : Shock) : Shock := { held with
  value := held.value.map spell
  buckets := held.buckets.map fun bucket => { bucket with value := bucket.value.map spell } }

def spelledScenario (held : Scenario) : Scenario := { held with shocks := held.shocks.map (spelledShock spell) }

def spelledSet (held : ScenarioSet) : ScenarioSet := { held with
  axes := held.axes.map fun axis => { axis with steps := axis.steps.map (spelledScenario spell) } }

end Spelled

namespace Observation

/-- A row with its decimals in one spelling and a saved scenario's shocks in another. -/
def spelled (spell shock : Decimal → Decimal) : Observation → Observation
  | price row => price { row with
      price := row.price.map (Money.spelled spell), confidence := row.confidence.map spell
      yield := row.yield.map (spelledYield spell), spreadBps := row.spreadBps.map spell }
  | bar row => bar { row with
      «open» := row.open.map (Money.spelled spell), high := row.high.map (Money.spelled spell)
      low := row.low.map (Money.spelled spell), close := row.close.map (Money.spelled spell)
      volume := row.volume.map spell, vwap := row.vwap.map (Money.spelled spell) }
  | trade row => trade { row with
      price := row.price.map (Money.spelled spell), quantity := row.quantity.map spell
      quoteAtTrade := row.quoteAtTrade.map (spelledQuote spell), yield := row.yield.map (spelledYield spell)
      spreadBps := row.spreadBps.map spell }
  | quote row => quote { row with
      bid := row.bid.map (Money.spelled spell), ask := row.ask.map (Money.spelled spell)
      bidQuantity := row.bidQuantity.map spell, askQuantity := row.askQuantity.map spell
      bidYield := row.bidYield.map (spelledYield spell), askYield := row.askYield.map (spelledYield spell)
      bidSpreadBps := row.bidSpreadBps.map spell, askSpreadBps := row.askSpreadBps.map spell }
  | outcome row => outcome { row with settlementValue := row.settlementValue.map (Money.spelled spell) }
  | executionCost row => executionCost { row with
      benchmarkPrice := row.benchmarkPrice.map (Money.spelled spell)
      executionPrice := row.executionPrice.map (Money.spelled spell), notional := row.notional.map (Money.spelled spell)
      costBps := row.costBps.map spell, feesBps := row.feesBps.map spell, financingBps := row.financingBps.map spell }
  | rate row => rate { row with
      value := row.value.map (spelledValue spell), volume := row.volume.map (Money.spelled spell)
      percentiles := row.percentiles.map (spelledPercentile spell) }
  | statistic row => statistic { row with value := row.value.map (spelledValue spell) }
  | series row => series row
  | derived row => derived { row with
      value := row.value.map (spelledValue spell), moneyValue := row.moneyValue.map (Money.spelled spell) }
  | scenario row => scenario { row with
      scenario := row.scenario.map (spelledScenario shock), scenarioSet := row.scenarioSet.map (spelledSet shock) }
  | corporateAction row => corporateAction { row with amountPerShare := row.amountPerShare.map (Money.spelled spell) }
  | filing row => filing row
  | reportedFact row => reportedFact { row with
      amount := row.amount.map (Money.spelled spell), value := row.value.map (spelledValue spell) }
  | ratingAction row => ratingAction row
  | holdingsReport row => holdingsReport row
  | holding row => holding { row with
      quantity := row.quantity.map (spelledValue spell), marketValue := row.marketValue.map (Money.spelled spell)
      percentOfClass := row.percentOfClass.map (spelledValue spell) }
  | factor row => factor { row with
      factor := row.factor.map spell, couponRate := row.couponRate.map spell, wac := row.wac.map spell }

/-- A row without its envelope, and without the record the lake fills in on a read. -/
def unenveloped (row : Observation) : Observation :=
  match row.under {} with
  | series row => series { row with instrumentId := "" }
  | row => row

/-- What the source gave of a row's envelope: none of what the lake decides or the sidecar stamps, and the
quality state, unspecified reading as valid. -/
def givenMeta (about : ObservationMeta) : ObservationMeta := { about with
  source := some { dataset := (about.source.getD {}).dataset, venueId := (about.source.getD {}).venueId }
  sentAtNs := 0, recordedAtNs := 0, version := 0, sequence := 0, previousSequence := 0, closedDay := none
  quality := rank about.quality, qualityReasons := [] }

/-- Everything the source gave of a row, each decimal as the number it states. -/
def given (row : Observation) : ObservationMeta × Observation :=
  (givenMeta row.about, (row.spelled Decimal.least Decimal.least).unenveloped)

/-- What the source gave but for the row's series key. -/
def givenUnkeyed (row : Observation) : ObservationMeta × Observation :=
  ({ givenMeta row.about with seriesKey := [] }, row.given.2)

/-- The row's decimals that are compared as they are spelled: those no exact value holds, and a saved
scenario's shocks. -/
def asSpelled (row : Observation) : Observation :=
  (row.spelled Decimal.unheld id).unenveloped

/-- Two rows whose comparison tells no spelling from a number and no two series keys by one text: where all
else is the same, their keys of one text are one key, and a decimal compared as it is spelled is spelled
alike. -/
structure ToldByValue (a b : Observation) : Prop where
  key : a.givenUnkeyed = b.givenUnkeyed → a.asSpelled = b.asSpelled → a.seriesKey = b.seriesKey →
    a.about.seriesKey = b.about.seriesKey
  spelling : a.given = b.given → a.asSpelled = b.asSpelled

end Observation

end Lake

end MeridianCore

namespace MeridianCore

/-- What `f` tells apart is what `g` or `h` does. -/
def Splits {α β γ δ : Type*} (f : α → β) (g : α → γ) (h : α → δ) : Prop :=
  ∀ a b, f a = f b ↔ g a = g b ∧ h a = h b

namespace Splits

variable {α β γ δ : Type*} {f : α → β} {g : α → γ} {h : α → δ}

theorem option (splits : Splits f g h) : Splits (Option.map f) (Option.map g) (Option.map h) := by
  intro a b
  cases a <;> cases b <;> simp [splits _ _]

theorem list (splits : Splits f g h) : Splits (List.map f) (List.map g) (List.map h) := by
  intro a b
  induction a generalizing b with
  | nil => cases b <;> simp
  | cons x rest ih =>
    cases b with
    | nil => simp
    | cons y rest' =>
      simp only [List.map_cons, List.cons.injEq, splits x y, ih rest']
      tauto

end Splits

namespace Lake

section Spelled

variable {f g h : Decimal → Decimal} (splits : Splits f g h)

include splits

theorem splits_money : Splits (Money.spelled f) (Money.spelled g) (Money.spelled h) := by
  intro a b
  simp only [Money.spelled, Money.mk.injEq, splits.option a.amount b.amount]
  tauto

theorem splits_value : Splits (spelledValue f) (spelledValue g) (spelledValue h) := by
  intro a b
  simp only [spelledValue, UnitValue.mk.injEq, splits.option a.value b.value]
  tauto

theorem splits_yield : Splits (spelledYield f) (spelledYield g) (spelledYield h) := by
  intro a b
  simp only [spelledYield, QuotedYield.mk.injEq, (splits_value splits).option a.value b.value]
  tauto

theorem splits_quote : Splits (spelledQuote f) (spelledQuote g) (spelledQuote h) := by
  intro a b
  simp only [spelledQuote, QuoteAtTrade.mk.injEq, (splits_money splits).option a.bid b.bid,
    (splits_money splits).option a.ask b.ask, splits.option a.bidQuantity b.bidQuantity,
    splits.option a.askQuantity b.askQuantity]
  tauto

theorem splits_percentile : Splits (spelledPercentile f) (spelledPercentile g) (spelledPercentile h) := by
  intro a b
  simp only [spelledPercentile, RatePercentile.mk.injEq, splits.option a.value b.value]
  tauto

theorem splits_shock : Splits (spelledShock f) (spelledShock g) (spelledShock h) := by
  intro a b
  have bucket : Splits (fun bucket : ShockBucket => { bucket with value := bucket.value.map f })
      (fun bucket => { bucket with value := bucket.value.map g })
      fun bucket => { bucket with value := bucket.value.map h } := by
    intro a b
    simp only [ShockBucket.mk.injEq, splits.option a.value b.value]
    tauto
  simp only [spelledShock, Shock.mk.injEq, splits.option a.value b.value, bucket.list a.buckets b.buckets]
  tauto

theorem splits_scenario : Splits (spelledScenario f) (spelledScenario g) (spelledScenario h) := by
  intro a b
  simp only [spelledScenario, Scenario.mk.injEq, (splits_shock splits).list a.shocks b.shocks]
  tauto

theorem splits_set : Splits (spelledSet f) (spelledSet g) (spelledSet h) := by
  intro a b
  have axis : Splits (fun axis : ScenarioAxis => { axis with steps := axis.steps.map (spelledScenario f) })
      (fun axis => { axis with steps := axis.steps.map (spelledScenario g) })
      fun axis => { axis with steps := axis.steps.map (spelledScenario h) } := by
    intro a b
    simp only [ScenarioAxis.mk.injEq, (splits_scenario splits).list a.steps b.steps]
    tauto
  simp only [spelledSet, ScenarioSet.mk.injEq, axis.list a.axes b.axes]
  tauto

end Spelled

/-- Rows of two data types are told apart in any spelling. -/
theorem unenveloped_spelled_type {a b : Observation} {spell shock : Decimal → Decimal}
    (same : (a.spelled spell shock).unenveloped = (b.spelled spell shock).unenveloped) : a.dataType = b.dataType := by
  have kept (row : Observation) : ((row.spelled spell shock).unenveloped).dataType = row.dataType := by
    cases row <;> rfl
  rw [← kept a, ← kept b, same]

theorem splits_row {f g h f' g' h' : Decimal → Decimal} (splits : Splits f g h) (splits' : Splits f' g' h') :
    Splits (fun row : Observation => (row.spelled f f').unenveloped) (fun row => (row.spelled g g').unenveloped)
      fun row => (row.spelled h h').unenveloped := by
  intro a b
  by_cases type : a.dataType = b.dataType
  · have decimal := splits.option
    have money := (splits_money splits).option
    have value := (splits_value splits).option
    have yield := (splits_yield splits).option
    have quote := (splits_quote splits).option
    have percentiles := (splits_percentile splits).list
    have scenario := (splits_scenario splits').option
    have set := (splits_set splits').option
    cases a <;> cases b <;> first
      | (cases type; done)
      | (simp only [Observation.spelled, Observation.unenveloped, Observation.under, Observation.price.injEq, Price.mk.injEq,
          Observation.bar.injEq, Bar.mk.injEq, Observation.trade.injEq, Trade.mk.injEq, Observation.quote.injEq,
          Quote.mk.injEq, Observation.outcome.injEq, Outcome.mk.injEq, Observation.executionCost.injEq,
          ExecutionCost.mk.injEq, Observation.rate.injEq, Rate.mk.injEq, Observation.statistic.injEq, Statistic.mk.injEq,
          Observation.series.injEq, ListedSeries.mk.injEq, Observation.derived.injEq, DerivedSeries.mk.injEq,
          Observation.scenario.injEq, SavedScenario.mk.injEq, Observation.corporateAction.injEq,
          CorporateActionAnnounced.mk.injEq, Observation.filing.injEq, Filing.mk.injEq, Observation.reportedFact.injEq,
          ReportedFact.mk.injEq, Observation.ratingAction.injEq, RatingAction.mk.injEq,
          Observation.holdingsReport.injEq, HoldingsReport.mk.injEq, Observation.holding.injEq, Holding.mk.injEq,
          Observation.factor.injEq, Factor.mk.injEq, decimal _ _, money _ _, value _ _, yield _ _, quote _ _,
          percentiles _ _, scenario _ _, set _ _]
         tauto)
  · exact iff_of_false (fun same => type (unenveloped_spelled_type same)) fun same => type (unenveloped_spelled_type same.1)

section Compared

theorem trimmedFrom_within (integer : Int) (scale : Nat) : (Exact.trimmedFrom integer scale).2 ≤ scale ∧
    (Exact.trimmedFrom integer scale).1.natAbs ≤ integer.natAbs := by
  induction scale generalizing integer with
  | zero => exact ⟨le_rfl, le_rfl⟩
  | succ scale ih =>
    rw [Exact.trimmedFrom]
    split
    · obtain ⟨places, digits⟩ := ih (integer / 10)
      exact ⟨by omega, by omega⟩
    · exact ⟨le_rfl, le_rfl⟩

theorem held_iff (decimal : Decimal) : decimal.held = true ↔ decimal.scale ≤ places ∧ decimal.integer.natAbs < limit := by
  unfold Decimal.held Exact.fromWire Exact.new
  by_cases places : decimal.scale ≤ places <;> by_cases digits : decimal.integer.natAbs < limit <;>
    simp [places, digits, Except.toOption]

/-- A number's least spelling is held where another of its spellings is. -/
theorem held_least {decimal : Decimal} (held : decimal.held = true) : decimal.least.held = true := by
  rw [held_iff] at held ⊢
  obtain ⟨places, digits⟩ := trimmedFrom_within decimal.integer decimal.scale
  exact ⟨places.trans held.1, digits.trans_lt held.2⟩

theorem splits_compared : Splits Decimal.compared Decimal.least Decimal.unheld := by
  intro a b
  unfold Decimal.compared Decimal.unheld
  by_cases held : a.held = true <;> by_cases held' : b.held = true
  · simp only [held, held', if_true, and_true]
  · simp only [held, held', if_true, if_false, Bool.false_eq_true]
    refine iff_of_false (fun same => held' (same ▸ held_least held)) fun same => held' ?_
    rw [← same.2]
    decide
  · simp only [held, held', if_true, if_false, Bool.false_eq_true]
    refine iff_of_false (fun same => held (same ▸ held_least held')) fun same => held ?_
    rw [same.2]
    decide
  · simp only [held, held', if_false, Bool.false_eq_true]
    exact ⟨fun same => ⟨congrArg Decimal.least same, same⟩, And.right⟩

theorem value_of_fromWire {decimal : Decimal} {exact : Exact} (read : Exact.fromWire decimal = .ok exact) :
    exact.value = decimal.number := by
  unfold Exact.fromWire Exact.new at read
  split at read <;> [split at read; skip] <;> cases read
  rfl

theorem held_of_fromWire {decimal : Decimal} {exact : Exact} (read : Exact.fromWire decimal = .ok exact) :
    decimal.held = true := by
  simp [Decimal.held, read, Except.toOption]

theorem not_held_of_fromWire {decimal : Decimal} {out : OutOfRange} (read : Exact.fromWire decimal = .error out) :
    ¬ decimal.held = true := by
  simp [Decimal.held, read, Except.toOption]

/-- Two decimals are the same where they are compared in one spelling. -/
theorem sameDecimal_iff (a b : Option Decimal) : sameDecimal a b = true ↔ a.map Decimal.compared = b.map Decimal.compared := by
  cases a with
  | none =>
    cases b with
    | none => simp [sameDecimal]
    | some y => cases read : Exact.fromWire y <;> simp [sameDecimal, read, Except.toOption]
  | some x =>
    cases b with
    | none => cases read : Exact.fromWire x <;> simp [sameDecimal, read, Except.toOption]
    | some y =>
      simp only [Option.map_some, Option.some.injEq, splits_compared x y, Decimal.least_eq_iff]
      cases read : Exact.fromWire x with
      | ok exact =>
        have held := held_of_fromWire read
        cases read' : Exact.fromWire y with
        | ok exact' =>
          have held' := held_of_fromWire read'
          have equal : sameDecimal (some x) (some y) = exact.equals exact' := by
            simp [sameDecimal, read, read', Except.toOption]
          rw [equal, Exact.equals, Exact.cmp_value, beq_iff_eq, compare_eq_iff_eq, value_of_fromWire read,
            value_of_fromWire read']
          simp [Decimal.unheld, held, held']
        | error out =>
          have unheld := not_held_of_fromWire read'
          have spelled : sameDecimal (some x) (some y) = decide (x = y) := by
            simp [sameDecimal, read, read', Except.toOption]
          rw [spelled, decide_eq_true_iff]
          refine iff_of_false (fun same => unheld (same ▸ held)) fun same => unheld ?_
          have zero := same.2
          simp only [Decimal.unheld, held, unheld, if_true, if_false, Bool.false_eq_true] at zero
          rw [← zero]
          decide
      | error out =>
        have unheld := not_held_of_fromWire read
        have spelled : sameDecimal (some x) (some y) = decide (x = y) := by
          simp [sameDecimal, read, Except.toOption]
        rw [spelled, decide_eq_true_iff]
        refine ⟨fun same => same ▸ ⟨rfl, rfl⟩, fun same => ?_⟩
        have alike := same.2
        by_cases held' : y.held = true
        · simp only [Decimal.unheld, held', unheld, if_true, if_false, Bool.false_eq_true] at alike
          exact absurd (alike ▸ (by decide : (⟨0, 0⟩ : Decimal).held = true)) unheld
        · simpa only [Decimal.unheld, held', unheld, if_false, Bool.false_eq_true] using alike

theorem sameMoney_iff (a b : Option Money) : sameMoney a b = true ↔
    a.map (Money.spelled Decimal.compared) = b.map (Money.spelled Decimal.compared) := by
  cases a <;> cases b <;> simp [sameMoney, Money.spelled, sameDecimal_iff]
  tauto

theorem sameUnitValue_iff (a b : Option UnitValue) : sameUnitValue a b = true ↔
    a.map (spelledValue Decimal.compared) = b.map (spelledValue Decimal.compared) := by
  cases a <;> cases b <;> simp [sameUnitValue, spelledValue, sameDecimal_iff]
  tauto

/-- A value compared beside whether there is one. -/
theorem sameUnitValue_present (a b : Option UnitValue) :
    (sameUnitValue (some (a.getD {})) (some (b.getD {})) = true ∧ a.isSome = b.isSome) ↔
      a.map (spelledValue Decimal.compared) = b.map (spelledValue Decimal.compared) := by
  rw [sameUnitValue_iff]
  cases a <;> cases b <;> simp

theorem sameYield_iff (a b : Option QuotedYield) : sameYield a b = true ↔
    a.map (spelledYield Decimal.compared) = b.map (spelledYield Decimal.compared) := by
  cases a <;> cases b <;> simp [sameYield, spelledYield, sameUnitValue_iff]
  tauto

theorem sameQuoteAtTrade_iff (a b : Option QuoteAtTrade) : sameQuoteAtTrade a b = true ↔
    a.map (spelledQuote Decimal.compared) = b.map (spelledQuote Decimal.compared) := by
  cases a <;> cases b <;> simp [sameQuoteAtTrade, spelledQuote, sameMoney_iff, sameDecimal_iff]
  tauto

theorem samePercentiles_iff (a b : List RatePercentile) :
    (a.length = b.length ∧ (a.zip b).all (fun (x, y) => x.percentile = y.percentile && sameDecimal x.value y.value) = true) ↔
      a.map (spelledPercentile Decimal.compared) = b.map (spelledPercentile Decimal.compared) := by
  induction a generalizing b with
  | nil => cases b <;> simp
  | cons x rest ih =>
    cases b with
    | nil => simp
    | cons y rest' =>
      simp only [List.map_cons, List.cons.injEq, ← ih rest', spelledPercentile, RatePercentile.mk.injEq, List.length_cons,
        List.zip_cons_cons, List.all_cons, Bool.and_eq_true, decide_eq_true_eq, sameDecimal_iff, Nat.add_right_cancel_iff]
      tauto

theorem spelledShock_id : spelledShock id = id := by
  funext shock
  simp [spelledShock]

theorem spelledScenario_id : spelledScenario id = id := by
  funext scenario
  simp [spelledScenario, spelledShock_id]

theorem spelledSet_id : spelledSet id = id := by
  funext set
  simp [spelledSet, spelledScenario_id]

theorem sameFields_type {a b : Observation} (same : a.sameFields b = true) : a.dataType = b.dataType := by
  unfold Observation.sameFields at same
  split at same <;> first | rfl | cases same

theorem sameRate_iff (a b : Rate) : (Observation.rate a).sameFields (.rate b) = true ↔
    ((Observation.rate a).spelled Decimal.compared id).unenveloped = ((Observation.rate b).spelled Decimal.compared id).unenveloped := by
  have value := sameUnitValue_present a.value b.value
  have percentiles := samePercentiles_iff a.percentiles b.percentiles
  simp only [Observation.sameFields, Observation.spelled, Observation.unenveloped, Observation.under, Bool.and_eq_true,
    decide_eq_true_eq, sameMoney_iff, Observation.rate.injEq, Rate.mk.injEq]
  tauto

theorem sameStatistic_iff (a b : Statistic) : (Observation.statistic a).sameFields (.statistic b) = true ↔
    ((Observation.statistic a).spelled Decimal.compared id).unenveloped =
      ((Observation.statistic b).spelled Decimal.compared id).unenveloped := by
  have value := sameUnitValue_present a.value b.value
  simp only [Observation.sameFields, Observation.spelled, Observation.unenveloped, Observation.under, Bool.and_eq_true,
    decide_eq_true_eq, Observation.statistic.injEq, Statistic.mk.injEq]
  tauto

theorem sameDerived_iff (a b : DerivedSeries) : (Observation.derived a).sameFields (.derived b) = true ↔
    ((Observation.derived a).spelled Decimal.compared id).unenveloped =
      ((Observation.derived b).spelled Decimal.compared id).unenveloped := by
  have value := sameUnitValue_present a.value b.value
  simp only [Observation.sameFields, Observation.spelled, Observation.unenveloped, Observation.under, Bool.and_eq_true,
    decide_eq_true_eq, sameMoney_iff, Observation.derived.injEq, DerivedSeries.mk.injEq]
  tauto

/-- The comparisons of the data types list each field a row of theirs has: two rows compare the same
exactly when they are, spelled as they are compared. -/
theorem sameFields_iff (a b : Observation) : a.sameFields b = true ↔
    (a.spelled Decimal.compared id).unenveloped = (b.spelled Decimal.compared id).unenveloped := by
  by_cases type : a.dataType = b.dataType
  · cases a <;> cases b <;> first
      | (cases type; done)
      | with_reducible exact sameRate_iff _ _
      | with_reducible exact sameStatistic_iff _ _
      | with_reducible exact sameDerived_iff _ _
      | (simp only [Observation.sameFields, Observation.spelled, Observation.unenveloped, Observation.under, Bool.and_eq_true,
          decide_eq_true_eq, sameMoney_iff, sameDecimal_iff, sameUnitValue_iff, sameYield_iff, sameQuoteAtTrade_iff,
          spelledScenario_id, spelledSet_id, Option.map_id, id_eq, Observation.price.injEq, Price.mk.injEq,
          Observation.bar.injEq, Bar.mk.injEq, Observation.trade.injEq, Trade.mk.injEq, Observation.quote.injEq,
          Quote.mk.injEq, Observation.outcome.injEq, Outcome.mk.injEq, Observation.executionCost.injEq,
          ExecutionCost.mk.injEq, Observation.series.injEq, ListedSeries.mk.injEq, Observation.scenario.injEq,
          SavedScenario.mk.injEq, Observation.corporateAction.injEq, CorporateActionAnnounced.mk.injEq,
          Observation.filing.injEq, Filing.mk.injEq, Observation.reportedFact.injEq, ReportedFact.mk.injEq,
          Observation.ratingAction.injEq, RatingAction.mk.injEq, Observation.holdingsReport.injEq,
          HoldingsReport.mk.injEq, Observation.holding.injEq, Holding.mk.injEq, Observation.factor.injEq,
          Factor.mk.injEq]
         tauto)
  · exact iff_of_false (fun same => type (sameFields_type same)) fun same => type (unenveloped_spelled_type same)

end Compared

namespace Observation

/-- What two rows' values are compared by. -/
def comparedBy (row : Observation) : Envelope × Option Encoded × Observation :=
  (stated row.about, row.about.raw, (row.spelled Decimal.compared id).unenveloped)

theorem sameValue_iff (a b : Observation) : a.sameValue b = true ↔ a.comparedBy = b.comparedBy := by
  simp only [sameValue, sameButRaw, Bool.and_eq_true, decide_eq_true_eq, sameFields_iff, comparedBy, Prod.mk.injEq]
  tauto

theorem equivalence_sameValue : Equivalence fun a b : Observation => a.sameValue b = true where
  refl a := (sameValue_iff a a).mpr rfl
  symm same := (sameValue_iff _ _).mpr ((sameValue_iff _ _).mp same).symm
  trans same same' := (sameValue_iff _ _).mpr (((sameValue_iff _ _).mp same).trans ((sameValue_iff _ _).mp same'))

theorem givenMeta_iff (a b : ObservationMeta) : givenMeta a = givenMeta b ↔
    ({ givenMeta a with seriesKey := [] } : ObservationMeta) = { givenMeta b with seriesKey := [] } ∧
      a.seriesKey = b.seriesKey := by
  simp only [givenMeta, ObservationMeta.mk.injEq]
  tauto

/-- What the comparison takes of an envelope is what the source gave of it, its series key as one text. -/
theorem stated_iff (a b : ObservationMeta) : stated a = stated b ∧ a.raw = b.raw ↔
    ({ givenMeta a with seriesKey := [] } : ObservationMeta) = { givenMeta b with seriesKey := [] } ∧
      seriesKeyText a.seriesKey = seriesKeyText b.seriesKey := by
  simp only [stated, givenMeta, ObservationMeta.mk.injEq, Envelope.mk.injEq, Option.some.injEq, Source.mk.injEq]
  tauto

/-- Two rows are the same value exactly when the source gave the same of both, unless the comparison takes
a spelling for a number or a text for a key. -/
theorem sameValue_given_iff (a b : Observation) : (a.sameValue b = true ↔ a.given = b.given) ↔ a.ToldByValue b := by
  have compared : (a.spelled Decimal.compared id).unenveloped = (b.spelled Decimal.compared id).unenveloped ↔
      a.given.2 = b.given.2 ∧ a.asSpelled = b.asSpelled :=
    splits_row splits_compared (fun x y => ⟨fun same => ⟨congrArg Decimal.least same, same⟩, And.right⟩) a b
  have same : a.sameValue b = true ↔ (a.givenUnkeyed = b.givenUnkeyed ∧ a.seriesKey = b.seriesKey) ∧
      a.asSpelled = b.asSpelled := by
    rw [sameValue_iff, comparedBy, comparedBy, Prod.mk.injEq, Prod.mk.injEq, compared, ← and_assoc, stated_iff,
      givenUnkeyed, givenUnkeyed, Prod.mk.injEq]
    exact ⟨fun ⟨⟨meta_, key⟩, values, spelling⟩ => ⟨⟨⟨meta_, values⟩, key⟩, spelling⟩,
      fun ⟨⟨⟨meta_, values⟩, key⟩, spelling⟩ => ⟨⟨meta_, key⟩, values, spelling⟩⟩
  have given : a.given = b.given ↔ a.givenUnkeyed = b.givenUnkeyed ∧ a.about.seriesKey = b.about.seriesKey := by
    rw [Prod.ext_iff, show a.given.1 = b.given.1 ↔ _ from givenMeta_iff a.about b.about, givenUnkeyed, givenUnkeyed,
      Prod.mk.injEq]
    tauto
  rw [same, given]
  constructor
  · intro told
    exact ⟨fun unkeyed spelling text => (told.mp ⟨⟨unkeyed, text⟩, spelling⟩).2,
      fun equal => (told.mpr (given.mp equal)).2⟩
  · intro told
    constructor
    · rintro ⟨⟨unkeyed, text⟩, spelling⟩
      exact ⟨unkeyed, told.key unkeyed spelling text⟩
    · rintro ⟨unkeyed, key⟩
      exact ⟨⟨unkeyed, congrArg seriesKeyText key⟩, told.spelling (given.mpr ⟨unkeyed, key⟩)⟩

end Observation

section Numbering

variable {nowNs : Int} {latest : Observation → Option Observation} {previous : Observation → Nat} {done : Recorded}
  {held row : Observation}

theorem rows_take (done : Recorded) (version : Nat) (row : Observation) : ∃ previousSequence,
    (done.take nowNs previous version row).rows =
      done.rows ++ [row.numbered version (done.head + 1) previousSequence nowNs] :=
  ⟨_, rfl⟩

theorem numberRow_same (earlier : done.earlier latest row = some held) (same : held.sameValue row = true) :
    numberRow nowNs latest previous done row = { done with unchanged := done.unchanged + 1 } := by
  simp [numberRow, earlier, same]

theorem numberRow_differs (earlier : done.earlier latest row = some held) (differs : ¬ held.sameValue row = true) :
    ∃ previousSequence, (numberRow nowNs latest previous done row).rows =
      done.rows ++ [row.numbered (held.about.version + 1) (done.head + 1) previousSequence nowNs] := by
  simp only [numberRow, earlier, differs, if_false, Bool.false_eq_true]
  split
  · exact rows_take { done with unchanged := done.unchanged + 1 } _ _
  · exact rows_take { done with restated := done.restated + 1 } _ _

end Numbering

/-- Sameness of value is an equivalence; it is sameness of what the source gave exactly where two rows are
told apart by value; and there a row equal to the version before it changes nothing but the count, and one
that differs is the next version. -/
theorem told_by_value_iff (held row : Observation) :
    (Equivalence fun a b : Observation => a.sameValue b = true) ∧
    ((held.sameValue row = true ↔ held.given = row.given) ↔ held.ToldByValue row) ∧
    ∀ nowNs latest previous done, done.earlier latest row = some held → held.ToldByValue row →
      (held.given = row.given →
        numberRow nowNs latest previous done row = { done with unchanged := done.unchanged + 1 }) ∧
      (held.given ≠ row.given → ∃ previousSequence, (numberRow nowNs latest previous done row).rows =
        done.rows ++ [row.numbered (held.about.version + 1) (done.head + 1) previousSequence nowNs]) := by
  refine ⟨Observation.equivalence_sameValue, Observation.sameValue_given_iff held row, fun _ _ _ _ earlier told => ?_⟩
  have given := (Observation.sameValue_given_iff held row).mpr told
  exact ⟨fun same => numberRow_same earlier (given.mpr same), fun differs => numberRow_differs earlier (mt given.mp differs)⟩

def spotUp (spelling : Decimal) : Shock where
  object := 1
  target := some { subjectId := "INS-1" }
  form := 1
  unit := 1
  value := some spelling

/-- A saved scenario of one shock, of a spot by ten percent. -/
def tenPercent (spelling : Decimal) : Observation := .scenario {
  envelope := some { rowKey := "tenth", source := some { dataset := "signals:scenarios" } }
  scenario := some { name := "up", shocks := [spotUp spelling] } }

/-- A shock of ten percent stated again as ten and no tenths is another version. -/
theorem ten_spelled_twice : (tenPercent ⟨10, 0⟩).given = (tenPercent ⟨100, 1⟩).given ∧
    ¬ (tenPercent ⟨10, 0⟩).sameValue (tenPercent ⟨100, 1⟩) = true ∧
    ∃ previousSequence, (numberRow 1 (fun _ => some (tenPercent ⟨10, 0⟩)) (fun _ => 0) {} (tenPercent ⟨100, 1⟩)).rows =
      [(tenPercent ⟨100, 1⟩).numbered 1 1 previousSequence 1] := by
  have differs : ¬ (tenPercent ⟨10, 0⟩).sameValue (tenPercent ⟨100, 1⟩) = true := by
    intro same
    have compared := congrArg (fun row => row.2.2) ((Observation.sameValue_iff _ _).mp same)
    revert compared
    decide +kernel
  exact ⟨by decide +kernel, differs, numberRow_differs rfl differs⟩

end Lake

end MeridianCore
