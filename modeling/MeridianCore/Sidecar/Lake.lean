import MeridianCore.Lake.Row

namespace MeridianCore.Sidecar

open MeridianCore.Lake

/-- A lake row's payload, by its type: an event carries one row, or none. -/
inductive Payload where
  | prices (price : Option Price)
  | bars (bar : Option Bar)
  | trades (trade : Option Trade)
  | corporateActions (action : Option CorporateActionAnnounced)
  | filings (filing : Option Filing)
  | factors (factor : Option Factor)
  | outcomes (outcome : Option Outcome)
  | quotes (quote : Option Quote)
  | rates (rate : Option Rate)
  | statistics (statistic : Option Statistic)
  /-- A dataset's liveness at a venue. -/
  | liveness (dataset venueId : String)
  | series (series : Option ListedSeries)
  | observationsWanted (wantId dataset : String)
  | wantWithdrawn (wantId dataset : String)
  deriving DecidableEq

/-- The row a payload carries. -/
def Payload.row : Payload → Option Observation
  | .prices row => row.map .price
  | .bars row => row.map .bar
  | .trades row => row.map .trade
  | .corporateActions row => row.map .corporateAction
  | .filings row => row.map .filing
  | .factors row => row.map .factor
  | .outcomes row => row.map .outcome
  | .quotes row => row.map .quote
  | .rates row => row.map .rate
  | .statistics row => row.map .statistic
  | .series row => row.map .series
  | .liveness _ _ | .observationsWanted _ _ | .wantWithdrawn _ _ => none

/-- What a lake row says of itself, as the receive decides by it. -/
structure Said where
  dataset : String
  subjects : List String
  /-- The latest value first under load, per this key; none for a row never conflated. -/
  key : Option String
  isWant : Bool
  /-- Its series key, empty for a row keyed by none. -/
  series : List Identifier
  deriving DecidableEq

/-- A row's series key as a key's last part. -/
def seriesSaid (about : Option ObservationMeta) : String :=
  let series := match about with
    | some about => seriesKeyText about.seriesKey
    | none => ""
  if series = "" then series else s!"|#{series}"

def seriesText (about : Option ObservationMeta) : List Identifier :=
  match about with
  | some about => about.seriesKey
  | none => []

/-- The envelope's dictionary entry of a lake row's message, which a subscription's fields always keep. -/
def metaEntry (payload : Payload) : Option String :=
  let dataType : Option DataType := match payload with
    | .prices _ => some .price
    | .bars _ => some .bar
    | .trades _ => some .trade
    | .quotes _ => some .quote
    | .outcomes _ => some .outcome
    | .rates _ => some .rate
    | .statistics _ => some .statistic
    | .series _ => some .series
    | .filings _ => some .filing
    | .corporateActions _ => some .corporateAction
    | .factors _ => some .factor
    | _ => none
  dataType.bind fun dataType => (fieldsOf dataType).head?

/-- A row's dataset, subjects and venue. -/
def metaSaid (about : Option ObservationMeta) : String × List String × String :=
  let about := about.getD {}
  let source := about.source.getD {}
  (source.dataset, about.subjects.map SubjectRef.entityId, source.venueId)

def firstOf (subjects : List String) : String := subjects.head?.getD ""

/-- A row never conflated, narrowed to the subjects a receive names. -/
def saidEach (about : Option ObservationMeta) (series : List Identifier) : Said :=
  let (dataset, subjects, _) := metaSaid about
  { dataset, subjects, key := none, isWant := false, series }

/-- A lake row's payload read for what the receive decides by; none for a payload of no lake row. -/
def said : Payload → Option Said
  | .prices price => price.map fun price =>
    let (dataset, subjects, venue) := metaSaid price.envelope
    let asset := assetKey price.price
    let series := seriesSaid price.envelope
    let first := firstOf subjects
    let kind := price.kind
    { dataset, subjects, isWant := false, series := seriesText price.envelope
      key := some s!"price|{first}|{dataset}|{kind}|{venue}|{asset}{series}" }
  | .bars bar => bar.map fun bar =>
    let start : Int := match bar.envelope with
      | some about => about.validFromNs
      | none => 0
    let (dataset, subjects, venue) := metaSaid bar.envelope
    let series := seriesSaid bar.envelope
    let first := firstOf subjects
    { dataset, subjects, isWant := false, series := seriesText bar.envelope
      key := some s!"bar|{first}|{dataset}|{venue}|{start}{series}" }
  | .trades trade => trade.map fun trade => saidEach trade.envelope (seriesText trade.envelope)
  | .corporateActions action => action.map fun action => saidEach action.envelope []
  | .filings filing => filing.map fun filing => saidEach filing.envelope []
  | .factors factor => factor.map fun factor => saidEach factor.envelope []
  -- Every version of an outcome, never conflated.
  | .outcomes outcome => outcome.map fun outcome => saidEach outcome.envelope []
  | .quotes quote => quote.map fun quote =>
    let (dataset, subjects, venue) := metaSaid quote.envelope
    let asset := quoteAsset quote
    let series := seriesSaid quote.envelope
    let first := firstOf subjects
    { dataset, subjects, isWant := false, series := seriesText quote.envelope
      key := some s!"quote|{first}|{dataset}|{venue}|{asset}{series}" }
  | .rates rate => rate.map fun rate =>
    let (dataset, subjects, _) := metaSaid rate.envelope
    let first := firstOf subjects
    let kind := rate.kind
    let point := ratePoint rate
    { dataset, subjects, isWant := false, series := []
      key := some s!"rate|{first}|{dataset}|{kind}|{point}" }
  | .statistics statistic => statistic.map fun statistic =>
    let (dataset, subjects, _) := metaSaid statistic.envelope
    let date := match statistic.envelope with
      | some about => about.businessDate
      | none => ""
    let series := seriesSaid statistic.envelope
    let first := firstOf subjects
    let kind := statistic.kind
    { dataset, subjects, isWant := false, series := seriesText statistic.envelope
      key := some s!"statistic|{first}|{dataset}|{kind}|{date}{series}" }
  -- A dataset's liveness, about no subject.
  | .liveness dataset venueId => some
    { dataset, subjects := [], isWant := false, series := [], key := some s!"liveness|{dataset}|{venueId}" }
  | .series series => series.map fun row =>
    let (dataset, subjects, _) := metaSaid row.envelope
    let series := seriesSaid row.envelope
    let first := firstOf subjects
    { dataset, subjects, isWant := false, series := seriesText row.envelope
      key := some s!"series|{first}|{dataset}{series}" }
  | .observationsWanted wantId dataset => some
    { dataset, subjects := [], isWant := true, series := [], key := some s!"want|{wantId}" }
  | .wantWithdrawn wantId dataset => some
    { dataset, subjects := [], isWant := true, series := [], key := some s!"want|{wantId}" }

/-- A recorded row with the fields its reader may not read removed; the payload as it came for any
other. -/
def stripped (allowed : BTreeSet String) (payload : Payload) : Payload :=
  if allowed.isEmpty then payload
  else
    match payload with
    | .prices price => .prices (price.map fun price => (stripPrice allowed price).1)
    | .bars bar => .bars (bar.map fun bar => (stripBar allowed bar).1)
    | .trades trade => .trades (trade.map fun trade => (stripTrade allowed trade).1)
    | .outcomes outcome => .outcomes (outcome.map fun outcome => (stripOutcome allowed outcome).1)
    | .quotes quote => .quotes (quote.map fun quote => (stripQuote allowed quote).1)
    | .rates rate => .rates (rate.map fun rate => (stripRate allowed rate).1)
    | .corporateActions action => .corporateActions (action.map fun action => (stripCorporateAction allowed action).1)
    | .factors factor => .factors (factor.map fun factor => (stripFactor allowed factor).1)
    | .filings filing => .filings (filing.map fun filing => (stripFiling allowed filing).1)
    | .statistics statistic => .statistics (statistic.map fun statistic => (stripStatistic allowed statistic).1)
    | .series series => .series (series.map fun series => (stripSeries allowed series).1)
    | other => other

/-- A payload's row is stripped as a read's is. -/
theorem row_stripped (allowed : BTreeSet String) (payload : Payload) :
    (stripped allowed payload).row = payload.row.map fun row => (row.strip allowed).1 := by
  unfold stripped
  split
  · next every =>
    cases payload with
    | liveness | observationsWanted | wantWithdrawn => rfl
    | _ row =>
      cases row with
      | none => rfl
      | some row => simp [Payload.row, Observation.strip, stripPrice, stripBar, stripTrade, stripOutcome, stripQuote,
          stripRate, stripCorporateAction, stripFactor, stripFiling, stripStatistic, stripSeries, stripBy, stripAt, every]
  · cases payload with
    | liveness | observationsWanted | wantWithdrawn => rfl
    | _ row => cases row <;> rfl

end MeridianCore.Sidecar
