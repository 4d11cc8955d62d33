import MeridianCore.AnalyticsEngine.Answer

namespace MeridianCore.AnalyticsEngine
open Limbs

/-- The enum names a part may carry. -/
def NAMES : List String :=
  [BASE, WHAT_IF, HISTORICAL_DAY, OUTCOME, NONE_OF_THE_NAMED, PRICE_MISSING, PRICE_STALE, CONVERSION_MISSING, NOT_ENTITLED,
    LOCAL_RECORD, IMPLEMENTATION_UNAVAILABLE, SCHEME_NOT_HELD, GROUP_NOT_EXHAUSTIVE, HISTORY_INSUFFICIENT, EXACT, COST_MISSING,
    MODEL, SCENARIO_POINT, BELOW_INTRINSIC, FIT_FAILED, INPUT_QUARANTINED, TERMS_INCOMPLETE]

section fromJson

def name (json : Json) : Except CaseError String :=
  if json.str ∈ NAMES then .ok json.str else .error (.notAName json.str)

def decimal : Json → Except CaseError (Option Decimal)
  | .null => .ok none
  | .string text => (Decimal.parse text).map some
  | other => .error (.notDecimalText other)

def pairsOf (left right : String) (json : Json) : List (String × String) :=
  json.items.map fun item => ((item.get left).str, (item.get right).str)

def stringsOf (json : Json) : List String := json.items.map Json.str

/-- A text under a name, a number's as it is written. -/
def textOf (json : Json) (name : String) : String :=
  match json.get? name with
  | some (.string text) => text
  | some (.number value) => wholeText value
  | _ => ""

def integer (json : Json) (what : String) : Except CaseError Int64 :=
  match json with
  | .null => .ok 0
  | .string text =>
    if text = "" then .ok 0
    else
      match parseI64 text with
      | some value => .ok value
      | none => .error (.notAnInteger what)
  | other =>
    match other.asI64 with
    | some value => .ok value
    | none => .error (.notAnInteger what)

def MeasureKey.fromJson (json : Json) : Except CaseError MeasureKey := do
  let version ←
    match json.get? "version" with
    | none => pure 1
    | some held => integer held "a measure's version"
  return {
    definition := textOf json "definition"
    version := version
    eventGroupId := textOf json "event_group_id"
    breakdowns := stringsOf (json.get "breakdowns") }

/-- A scenario of a kind already read; what is not written is empty. -/
def Scenario.fromJson (kind : String) (json : Json) : Scenario where
  kind := kind
  businessDate := (json.get "business_date").str
  outcomeInstrumentId := (json.get "outcome_instrument_id").str
  scenarioRowKey := (json.get "scenario_row_key").str
  scenarioVersion :=
    match json.get "scenario_version" with
    | .string text => (parseU64 text).getD 0
    | _ => 0
  axisPositions := ((json.get "axis_positions").items.filterMap Json.asU64).map UInt64.toUInt32

/-- A figure as a worker's part states it: a name not on the list for how it is computed is taken as exact. -/
def Figure.fromJson (json : Json) : Except CaseError Figure := do
  let measure ← MeasureKey.fromJson (json.get "measure")
  let kind ← name ((json.get "scenario_key").get "kind")
  let value ← decimal (json.get "value")
  let numerator ← decimal (json.get "numerator")
  let denominator ← decimal (json.get "denominator")
  return {
    measure := measure
    accountId := (json.get "account_id").str
    breakdown := pairsOf "breakdown" "value" (json.get "breakdown")
    scenario := Scenario.fromJson kind (json.get "scenario_key")
    value := value
    numerator := numerator
    denominator := denominator
    currencyInstrumentId := (json.get "currency_instrument_id").str
    computedAs := (name (json.get "computed_as")).toOption.getD EXACT
    seriesKey := pairsOf "scheme" "value" (json.get "series_key")
    oldestInputSourceNs :=
      match json.get "oldest_input_source_ns" with
      | .string text => (parseI64 text).getD 0
      | _ => 0 }

def Unevaluated.fromJson (json : Json) : Except CaseError Unevaluated := do
  let measure ← MeasureKey.fromJson (json.get "measure")
  let reason ← name (json.get "reason")
  return {
    accountId := (json.get "account_id").str
    instrumentId := (json.get "instrument_id").str
    measure := measure
    reason := reason
    detail := (json.get "detail").str
    seriesKey := pairsOf "scheme" "value" (json.get "series_key") }

/-- The key a price is read under. -/
def priceKey (price : Json) : String := (price.get "instrument_id").str

/-- The key a conversion leg is read under. -/
def legKey (leg : Json) : String × String × Nat × String :=
  ((leg.get "from_instrument_id").str, (leg.get "to_instrument_id").str, derivationRank (leg.get "derivation").str,
    (leg.get "via_instrument_id").str)

def Reads.fromJson (json : Json) : Reads where
  datasets := Std.ExtTreeSet.ofList (stringsOf (json.get "datasets"))
  instruments := Std.ExtTreeSet.ofList (stringsOf (json.get "instruments"))
  models := Std.ExtTreeSet.ofList ((json.get "models").items.map fun model => ((model.item 0).str, (model.item 1).asI64.getD 1))
  groups := Std.ExtTreeSet.ofList (stringsOf (json.get "groups"))
  inputPrices := BTreeMap.keyed priceKey (json.get "input_prices").items
  legs := BTreeMap.keyed legKey (json.get "legs").items

def Part.fromJson (json : Json) : Except CaseError Part := do
  let figures ← (json.get "figures").items.mapM Figure.fromJson
  let notEvaluated ← (json.get "not_evaluated").items.mapM Unevaluated.fromJson
  return {
    figures := figures
    notEvaluated := notEvaluated
    reads := Reads.fromJson (json.get "reads")
    executionCosts := (json.get "execution_costs").items }

end fromJson

/-- A part that a wire carries as it is. -/
def Part.Crosses (part : Part) : Prop := ∃ json, part.toJson = some json ∧ Part.fromJson json = .ok part

section carried

/-- A figure a part carries: its names are on the list, a point's row only on a scenario point, and every decimal
within a format's width. -/
structure Figure.Carried (figure : Figure) : Prop where
  kind : figure.scenario.kind ∈ NAMES
  computedAs : figure.computedAs ∈ NAMES
  pointless : figure.scenario.kind ≠ SCENARIO_POINT →
    figure.scenario.scenarioRowKey = "" ∧ figure.scenario.scenarioVersion = 0 ∧ figure.scenario.axisPositions = []
  decimals : ∀ held ∈ [figure.value, figure.numerator, figure.denominator], ∀ decimal : Decimal, held = some decimal →
    decimal.scale.toNat < Dec.maxWidth

/-- A part whose names are on the list and whose prices and legs are each under the key it states itself. -/
structure Part.Carried (part : Part) : Prop where
  figures : ∀ figure ∈ part.figures, figure.Carried
  reasons : ∀ row ∈ part.notEvaluated, row.reason ∈ NAMES
  prices : ∀ (instrument : String) (price : Json), part.reads.inputPrices[instrument]? = some price → priceKey price = instrument
  legs : ∀ (key : String × String × Nat × String) (leg : Json), part.reads.legs[key]? = some leg → legKey leg = key

end carried

section crossing

@[simp] theorem stringsOf_strings (texts : List String) : stringsOf (Json.strings texts) = texts := by
  rw [stringsOf, Json.strings, Json.items, List.map_map]
  exact List.map_id texts

@[simp] theorem pairsOf_pairsJson {left right : String} (apart : left ≠ right) (pairs : List (String × String)) :
    pairsOf left right (pairsJson left right pairs) = pairs := by
  rw [pairsOf, pairsJson, Json.items, List.map_map]
  conv_rhs => rw [← List.map_id pairs]
  refine List.map_congr_left fun pair _ => ?_
  have second : (right == left) = false := beq_false_of_ne (Ne.symm apart)
  simp [Json.get, Json.get?, List.lookup, Json.str, second]

theorem measure_crosses (key : MeasureKey) : MeasureKey.fromJson key.toJson = .ok key := by
  simp [MeasureKey.fromJson, MeasureKey.toJson, Json.get, Json.get?, List.lookup, textOf, integer]

/-- Items written and read back one for one. -/
theorem mapM_crosses_iff {α : Type} {write : α → Option Json} {read : Json → Except CaseError α} (xs : List α) :
    (∃ jsons, xs.mapM write = some jsons ∧ jsons.mapM read = .ok xs) ↔ ∀ x ∈ xs, ∃ json, write x = some json ∧ read json = .ok x := by
  induction xs with
  | nil => exact iff_of_true ⟨[], rfl, rfl⟩ (fun _ member => absurd member List.not_mem_nil)
  | cons x xs ih =>
    rw [List.forall_mem_cons, ← ih]
    constructor
    · rintro ⟨jsons, written, read_⟩
      rw [List.mapM_cons] at written
      cases first : write x with
      | none =>
        rw [first] at written
        cases written
      | some json =>
        cases rest : xs.mapM write with
        | none =>
          rw [first, rest] at written
          cases written
        | some others =>
          rw [first, rest] at written
          obtain rfl := Option.some.inj written
          rw [List.mapM_cons] at read_
          cases firstRead : read json with
          | error bad =>
            rw [firstRead] at read_
            cases read_
          | ok y =>
            cases restRead : others.mapM read with
            | error bad =>
              rw [firstRead, restRead] at read_
              cases read_
            | ok ys =>
              rw [firstRead, restRead] at read_
              obtain ⟨rfl, rfl⟩ := List.cons.inj (Except.ok.inj read_)
              exact ⟨⟨json, rfl, firstRead⟩, others, rfl, restRead⟩
    · rintro ⟨⟨json, first, firstRead⟩, others, rest, restRead⟩
      refine ⟨json :: others, ?_, ?_⟩
      · rw [List.mapM_cons, first, rest]
        rfl
      · rw [List.mapM_cons, firstRead, restRead]
        rfl

/-- A decimal's JSON is written where its scale is within a format's width, and read back as it was. -/
theorem decimal_crosses {held : Option Decimal} {json : Json} (written : decimalJson held = some json) :
    decimal json = .ok held ∧ ∀ d : Decimal, held = some d → d.scale.toNat < Dec.maxWidth := by
  cases held with
  | none =>
    obtain rfl := Option.some.inj written
    exact ⟨rfl, fun _ impossible => by cases impossible⟩
  | some d =>
    obtain ⟨text, textIs, rfl⟩ := Option.map_eq_some_iff.mp written
    have within : d.scale.toNat < Dec.maxWidth := by
      by_contra wide
      have wide : ¬ d.held.scale.toNat < Dec.maxWidth := wide
      have none := Dec.text_plain d.held
      rw [if_neg wide] at none
      rw [Decimal.text, none] at textIs
      cases textIs
    obtain ⟨text', textIs', read⟩ := d.text_iff.mpr within
    rw [textIs] at textIs'
    obtain rfl := Option.some.inj textIs'
    refine ⟨?_, ?_⟩
    · rw [decimal, read]
      rfl
    · intro d' same
      rw [← Option.some.inj same]
      exact within

theorem decimal_written {held : Option Decimal} (within : ∀ d : Decimal, held = some d → d.scale.toNat < Dec.maxWidth) :
    ∃ json, decimalJson held = some json := by
  cases held with
  | none => exact ⟨_, rfl⟩
  | some d =>
    obtain ⟨text, written, -⟩ := d.text_iff.mpr (within d rfl)
    exact ⟨.string text, by rw [decimalJson, written]; rfl⟩

theorem positions_cross (positions : List UInt32) :
    ((positions.map fun position => Json.number position.toNat).filterMap Json.asU64).map UInt64.toUInt32 = positions := by
  have each : (Json.asU64 ∘ fun position : UInt32 => Json.number position.toNat) = fun position => some (UInt64.ofNat position.toNat) := by
    funext position
    rw [Function.comp_apply, asU64_number]
  have back : (UInt64.toUInt32 ∘ fun position : UInt32 => UInt64.ofNat position.toNat) = id := by
    funext position
    have most := position.toNat_lt
    refine UInt32.toNat_inj.mp ?_
    simp only [Function.comp_apply, UInt64.toNat_toUInt32, UInt64.toNat_ofNat', id]
    omega
  rw [List.filterMap_map, each, List.filterMap_eq_map', List.map_map, back, List.map_id]

theorem scenario_crosses_iff (scenario : Scenario) :
    Scenario.fromJson scenario.kind scenario.toJson = scenario ↔ (scenario.kind ≠ SCENARIO_POINT →
      scenario.scenarioRowKey = "" ∧ scenario.scenarioVersion = 0 ∧ scenario.axisPositions = []) := by
  obtain ⟨kind, date, outcome, row, version, positions⟩ := scenario
  have back := positions_cross positions
  by_cases point : kind = SCENARIO_POINT
  · refine iff_of_true ?_ (fun other => absurd point other)
    simp only [Scenario.fromJson, Scenario.toJson, if_pos point, Json.get, Json.get?, List.cons_append, List.nil_append,
      List.lookup, Json.str, Json.items, String.reduceBEq, Option.getD_some, parseU64_wholeText, back]
  · simp only [Scenario.fromJson, Scenario.toJson, if_neg point, Json.get, Json.get?, List.append_nil, List.lookup, Json.str,
      Json.items, String.reduceBEq, Option.getD_some, Option.getD_none, Scenario.mk.injEq, true_and, List.filterMap_nil,
      List.map_nil]
    constructor
    · rintro ⟨rfl, rfl, rfl⟩ -
      exact ⟨rfl, rfl, rfl⟩
    · intro empty
      obtain ⟨rfl, rfl, rfl⟩ := empty point
      exact ⟨rfl, rfl, rfl⟩

/-- A series' key written after fields that do not name it is read back as it was. -/
theorem series_crosses (key : SeriesKey) {before after : List (String × Json)} (absentB : before.lookup "series_key" = none)
    (absentA : after.lookup "series_key" = none) :
    pairsOf "scheme" "value" ((Json.object (before ++ seriesFields key ++ after)).get "series_key") = key := by
  unfold seriesFields
  rw [Json.get, Json.get?, List.lookup_append, List.lookup_append, absentB, absentA]
  split
  · next empty =>
    rw [List.isEmpty_iff.mp empty]
    rfl
  · exact pairsOf_pairsJson (by decide) key

theorem get_field {fields : List (String × Json)} {name : String} {json : Json} (held : fields.lookup name = some json) :
    (Json.object fields).get name = json := by
  rw [Json.get, Json.get?, held]
  rfl

/-- What is under a name among the first fields. -/
theorem get_object {before after : List (String × Json)} {name : String} {json : Json} (held : before.lookup name = some json) :
    (Json.object (before ++ after)).get name = json := by
  rw [Json.get, Json.get?, List.lookup_append, held]
  rfl

theorem name_string (text : String) : name (.string text) = if text ∈ NAMES then .ok text else .error (.notAName text) := rfl

theorem row_crosses_iff (row : Unevaluated) : Unevaluated.fromJson row.toJson = .ok row ↔ row.reason ∈ NAMES := by
  have series := @series_crosses row.seriesKey [("account_id", .string row.accountId), ("instrument_id", .string row.instrumentId),
    ("measure", row.measure.toJson), ("reason", .string row.reason), ("detail", .string row.detail)] [] rfl rfl
  rw [List.append_nil] at series
  have gets (field : String) (json : Json) (held : [("account_id", Json.string row.accountId),
      ("instrument_id", .string row.instrumentId), ("measure", row.measure.toJson), ("reason", .string row.reason),
      ("detail", .string row.detail)].lookup field = some json) : row.toJson.get field = json := get_object held
  unfold Unevaluated.fromJson
  rw [gets "measure" _ rfl, gets "reason" _ rfl, gets "account_id" _ rfl, gets "instrument_id" _ rfl, gets "detail" _ rfl,
    measure_crosses, name_string]
  by_cases named : row.reason ∈ NAMES
  · refine iff_of_true ?_ named
    rw [if_pos named]
    change Except.ok (Unevaluated.mk _ _ _ _ _ _) = Except.ok row
    rw [show pairsOf "scheme" "value" (row.toJson.get "series_key") = row.seriesKey from series]
    rfl
  · refine iff_of_false ?_ named
    rw [if_neg named]
    intro impossible
    cases impossible

/-- The fields of a figure's JSON that are always written. -/
def Figure.fields (figure : Figure) (value numerator denominator : Json) : List (String × Json) :=
  [("measure", figure.measure.toJson), ("account_id", .string figure.accountId),
    ("breakdown", pairsJson "breakdown" "value" figure.breakdown), ("scenario_key", figure.scenario.toJson),
    ("currency_instrument_id", .string figure.currencyInstrumentId), ("computed_as", .string figure.computedAs),
    ("value", value), ("numerator", numerator), ("denominator", denominator)]

theorem figure_read (figure : Figure) {value numerator denominator : Json} (valueIs : decimal value = .ok figure.value)
    (numeratorIs : decimal numerator = .ok figure.numerator) (denominatorIs : decimal denominator = .ok figure.denominator) :
    Figure.fromJson (.object (figure.fields value numerator denominator ++ seriesFields figure.seriesKey ++
      if figure.oldestInputSourceNs = 0 then []
      else [("oldest_input_source_ns", .string (wholeText figure.oldestInputSourceNs.toInt))])) =
        (name (.string figure.scenario.kind)).map fun kind =>
          { figure with
            scenario := Scenario.fromJson kind figure.scenario.toJson
            computedAs := if figure.computedAs ∈ NAMES then figure.computedAs else EXACT } := by
  generalize oldest : (if figure.oldestInputSourceNs = 0 then []
      else [("oldest_input_source_ns", Json.string (wholeText figure.oldestInputSourceNs.toInt))]) = after
  have absent : after.lookup "series_key" = none := by
    rw [← oldest]
    split <;> rfl
  have series := @series_crosses figure.seriesKey (figure.fields value numerator denominator) after rfl absent
  have time : (match (Json.object (figure.fields value numerator denominator ++ seriesFields figure.seriesKey ++ after)).get
      "oldest_input_source_ns" with
      | .string text => (parseI64 text).getD 0
      | _ => 0) = figure.oldestInputSourceNs := by
    have none : (seriesFields figure.seriesKey).lookup "oldest_input_source_ns" = none := by
      unfold seriesFields
      split <;> rfl
    have first : (figure.fields value numerator denominator).lookup "oldest_input_source_ns" = Option.none := rfl
    rw [Json.get, Json.get?, List.lookup_append, List.lookup_append, none, first, ← oldest]
    by_cases zero : figure.oldestInputSourceNs = 0
    · rw [if_pos zero]
      exact zero.symm
    · rw [if_neg zero]
      change (parseI64 (wholeText figure.oldestInputSourceNs.toInt)).getD 0 = _
      rw [parseI64_wholeText]
      rfl
  have gets (field : String) (json : Json) (held : (figure.fields value numerator denominator).lookup field = some json) :
      (Json.object (figure.fields value numerator denominator ++ seriesFields figure.seriesKey ++ after)).get field = json := by
    rw [List.append_assoc]
    exact get_object held
  have kind : figure.scenario.toJson.get "kind" = .string figure.scenario.kind := get_object rfl
  have as : (name (.string figure.computedAs)).toOption.getD EXACT = if figure.computedAs ∈ NAMES then figure.computedAs else EXACT := by
    rw [name_string]
    split <;> rfl
  have breakdown := @pairsOf_pairsJson "breakdown" "value" (by decide) figure.breakdown
  unfold Figure.fromJson
  rw [gets "measure" _ rfl, gets "scenario_key" _ rfl, gets "value" _ rfl, gets "numerator" _ rfl, gets "denominator" _ rfl,
    gets "account_id" _ rfl, gets "breakdown" _ rfl, gets "currency_instrument_id" _ rfl, gets "computed_as" _ rfl, series,
    measure_crosses, kind, valueIs, numeratorIs, denominatorIs, as, breakdown, time]
  cases name (.string figure.scenario.kind) <;> rfl

theorem figure_crosses_iff (figure : Figure) :
    (∃ json, figure.toJson = some json ∧ Figure.fromJson json = .ok figure) ↔ figure.Carried := by
  have scenarios := scenario_crosses_iff figure.scenario
  constructor
  · rintro ⟨json, written, read⟩
    unfold Figure.toJson at written
    cases value : decimalJson figure.value with
    | none =>
      rw [value] at written
      cases written
    | some v =>
      cases numerator : decimalJson figure.numerator with
      | none =>
        rw [value, numerator] at written
        cases written
      | some n =>
        cases denominator : decimalJson figure.denominator with
        | none =>
          rw [value, numerator, denominator] at written
          cases written
        | some d =>
          rw [value, numerator, denominator] at written
          obtain rfl := Option.some.inj written
          obtain ⟨valueIs, valueIn⟩ := decimal_crosses value
          obtain ⟨numeratorIs, numeratorIn⟩ := decimal_crosses numerator
          obtain ⟨denominatorIs, denominatorIn⟩ := decimal_crosses denominator
          have answer := (figure_read figure valueIs numeratorIs denominatorIs).symm.trans read
          rw [name_string] at answer
          by_cases kind : figure.scenario.kind ∈ NAMES
          · rw [if_pos kind] at answer
            have same := Except.ok.inj answer
            have scenario := congrArg Figure.scenario same
            have computedAs := congrArg Figure.computedAs same
            refine ⟨kind, ?_, scenarios.mp scenario, ?_⟩
            · dsimp only at computedAs
              split at computedAs
              · next named => exact named
              · rw [← computedAs]
                decide
            · intro held member
              simp only [List.mem_cons, List.not_mem_nil, or_false] at member
              rcases member with rfl | rfl | rfl
              · exact valueIn
              · exact numeratorIn
              · exact denominatorIn
          · rw [if_neg kind] at answer
            cases answer
  · intro carried
    obtain ⟨v, value⟩ := decimal_written (carried.decimals figure.value (by simp))
    obtain ⟨n, numerator⟩ := decimal_written (carried.decimals figure.numerator (by simp))
    obtain ⟨d, denominator⟩ := decimal_written (carried.decimals figure.denominator (by simp))
    refine ⟨_, by unfold Figure.toJson; rw [value, numerator, denominator]; rfl, ?_⟩
    refine (figure_read figure (decimal_crosses value).1 (decimal_crosses numerator).1 (decimal_crosses denominator).1).trans ?_
    rw [name_string, if_pos carried.kind, Except.map, if_pos carried.computedAs, scenarios.mpr carried.pointless]

theorem reads_cross_iff (reads : Reads) :
    Reads.fromJson reads.toJson = reads ↔
      (∀ (instrument : String) (price : Json), reads.inputPrices[instrument]? = some price → priceKey price = instrument) ∧
        ∀ (key : String × String × Nat × String) (leg : Json), reads.legs[key]? = some leg → legKey leg = key := by
  obtain ⟨datasets, instruments, models, groups, prices, legs⟩ := reads
  have modelsBack : (models.toList.map fun model => Json.array [.string model.1, .number model.2.toInt]).map
      (fun model => ((model.item 0).str, (model.item 1).asI64.getD 1)) = models.toList := by
    rw [List.map_map]
    conv_rhs => rw [← List.map_id models.toList]
    refine List.map_congr_left fun model _ => ?_
    change ((model.1, (Json.number model.2.toInt).asI64.getD 1) : String × Int64) = model
    rw [asI64_number]
    rfl
  have read : Reads.fromJson (Reads.toJson ⟨datasets, instruments, models, groups, prices, legs⟩) =
      ⟨datasets, instruments, models, groups, BTreeMap.keyed priceKey prices.valuesOf, BTreeMap.keyed legKey legs.valuesOf⟩ := by
    have gets (field : String) (json : Json) (held : [("datasets", Json.strings datasets.toList),
        ("instruments", Json.strings instruments.toList),
        ("models", .array (models.toList.map fun model => .array [.string model.1, .number model.2.toInt])),
        ("groups", Json.strings groups.toList), ("input_prices", .array prices.valuesOf),
        ("legs", .array legs.valuesOf)].lookup field = some json) :
        (Reads.toJson ⟨datasets, instruments, models, groups, prices, legs⟩).get field = json := get_field held
    unfold Reads.fromJson
    rw [gets "datasets" _ rfl, gets "instruments" _ rfl, gets "models" _ rfl, gets "groups" _ rfl, gets "input_prices" _ rfl,
      gets "legs" _ rfl, stringsOf_strings, stringsOf_strings, stringsOf_strings, BTreeSet.ofList_toList,
      BTreeSet.ofList_toList, BTreeSet.ofList_toList]
    simp only [Json.items, modelsBack, BTreeSet.ofList_toList]
  rw [← BTreeMap.keyed_valuesOf_iff, ← BTreeMap.keyed_valuesOf_iff, read, Reads.mk.injEq]
  simp only [true_and]

/-- A part crosses a wire as it is exactly where it is one a part's JSON carries. -/
theorem part_crosses_iff (part : Part) : part.Crosses ↔ part.Carried := by
  have figures := @mapM_crosses_iff Figure Figure.toJson Figure.fromJson part.figures
  have rows := @mapM_crosses_iff Unevaluated (fun row => some row.toJson) Unevaluated.fromJson part.notEvaluated
  have reads := reads_cross_iff part.reads
  have rowsWritten : part.notEvaluated.mapM (fun row => some row.toJson) = some (part.notEvaluated.map Unevaluated.toJson) :=
    List.mapM_pure
  have rowsCross : (∀ row ∈ part.notEvaluated, ∃ json, some row.toJson = some json ∧ Unevaluated.fromJson json = .ok row) ↔
      ∀ row ∈ part.notEvaluated, row.reason ∈ NAMES := by
    refine forall₂_congr fun row _ => ?_
    rw [← row_crosses_iff]
    constructor
    · rintro ⟨json, written, read⟩
      rwa [Option.some.inj written]
    · intro read
      exact ⟨_, rfl, read⟩
  simp only [figure_crosses_iff] at figures
  constructor
  · rintro ⟨json, written, read⟩
    unfold Part.toJson at written
    cases figuresWritten : part.figures.mapM Figure.toJson with
    | none =>
      rw [figuresWritten] at written
      cases written
    | some figuresJson =>
      rw [figuresWritten] at written
      obtain rfl := Option.some.inj written
      have gets (field : String) (json : Json) (held : [("figures", Json.array figuresJson),
          ("not_evaluated", .array (part.notEvaluated.map Unevaluated.toJson)), ("reads", part.reads.toJson),
          ("execution_costs", .array part.executionCosts)].lookup field = some json) := @get_field _ field json held
      unfold Part.fromJson at read
      rw [gets "figures" _ rfl, gets "not_evaluated" _ rfl, gets "reads" _ rfl, gets "execution_costs" _ rfl] at read
      simp only [Json.items] at read
      cases figuresRead : figuresJson.mapM Figure.fromJson with
      | error bad =>
        rw [figuresRead] at read
        cases read
      | ok figuresBack =>
        cases rowsRead : (part.notEvaluated.map Unevaluated.toJson).mapM Unevaluated.fromJson with
        | error bad =>
          rw [figuresRead, rowsRead] at read
          cases read
        | ok rowsBack =>
          rw [figuresRead, rowsRead] at read
          have same := Except.ok.inj read
          have sameFigures := congrArg Part.figures same
          have sameRows := congrArg Part.notEvaluated same
          have sameReads := reads.mp (congrArg Part.reads same)
          dsimp only at sameFigures sameRows
          subst sameFigures sameRows
          exact ⟨figures.mp ⟨_, figuresWritten, figuresRead⟩, rowsCross.mp (rows.mp ⟨_, rowsWritten, rowsRead⟩), sameReads.1,
            sameReads.2⟩
  · intro carried
    obtain ⟨figuresJson, figuresWritten, figuresRead⟩ := figures.mpr carried.figures
    obtain ⟨rowsJson, written, rowsRead⟩ := rows.mpr (rowsCross.mpr carried.reasons)
    rw [rowsWritten] at written
    obtain rfl := Option.some.inj written
    have gets (field : String) (json : Json) (held : [("figures", Json.array figuresJson),
        ("not_evaluated", .array (part.notEvaluated.map Unevaluated.toJson)), ("reads", part.reads.toJson),
        ("execution_costs", .array part.executionCosts)].lookup field = some json) := @get_field _ field json held
    refine ⟨_, by unfold Part.toJson; rw [figuresWritten]; rfl, ?_⟩
    unfold Part.fromJson
    rw [gets "figures" _ rfl, gets "not_evaluated" _ rfl, gets "reads" _ rfl, gets "execution_costs" _ rfl]
    simp only [Json.items]
    rw [figuresRead, rowsRead, reads.mpr ⟨carried.prices, carried.legs⟩]
    rfl

end crossing

end MeridianCore.AnalyticsEngine
