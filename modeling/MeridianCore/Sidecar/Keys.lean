import MeridianCore.Domain.Text
import MeridianCore.Sidecar.Lake

namespace MeridianCore.Sidecar

open MeridianCore.Lake

/-- The payload a row recorded is published as; none for a row never published. -/
def publishedAs : Observation → Option Payload
  | .price row => some (.prices (some row))
  | .bar row => some (.bars (some row))
  | .trade row => some (.trades (some row))
  | .quote row => some (.quotes (some row))
  | .outcome row => some (.outcomes (some row))
  | .rate row => some (.rates (some row))
  | .statistic row => some (.statistics (some row))
  | .series row => some (.series (some row))
  | .corporateAction row => some (.corporateActions (some row))
  | .filing row => some (.filings (some row))
  | .factor row => some (.factors (some row))
  -- Read within each reader's scope, and never heard.
  | .executionCost _ | .derived _ | .scenario _ => none
  | .reportedFact _ | .ratingAction _ | .holdingsReport _ | .holding _ => none

/-- The key every sidecar conflates a row's deliveries under. -/
def sidecarKey (row : Observation) : Option String := ((publishedAs row).bind said).bind Said.key

/-- The data type a conflated row's key begins with. -/
def conflatedAs : Observation → Option String
  | .price _ => some "price"
  | .bar _ => some "bar"
  | .quote _ => some "quote"
  | .rate _ => some "rate"
  | .statistic _ => some "statistic"
  | _ => none

/-- A bar's start, which its key holds; 0 for the other data types. -/
def startOf : Observation → Int
  | .bar row => (Observation.bar row).about.validFromNs
  | _ => 0

/-- A statistic's trading date, which its key holds. -/
def dateOf : Observation → String
  | .statistic row => (Observation.statistic row).about.businessDate
  | _ => ""

theorem conflationKey_eq (row : Observation) : row.conflationKey = (conflatedAs row).map fun what =>
    what ++ "\u001f" ++ row.subject ++ "\u001f" ++ row.dataset ++ "\u001f" ++ toString row.kind ++ "\u001f" ++
      row.venue ++ "\u001f" ++ toString (startOf row) ++ "\u001f" ++ dateOf row ++ "\u001f" ++
      (row.asset ++ "\u001f" ++ row.point) := by
  cases row <;> rfl

/-- A sidecar's key of a row, by the parts of its conflation key. -/
def sidecarText (what subject dataset kind venue start date asset point : String) : String :=
  let series := if point = "" then "" else "|" ++ point
  if what = "price" then
    "price|" ++ subject ++ "|" ++ dataset ++ "|" ++ kind ++ "|" ++ venue ++ "|" ++ asset ++ series
  else if what = "bar" then "bar|" ++ subject ++ "|" ++ dataset ++ "|" ++ venue ++ "|" ++ start ++ series
  else if what = "quote" then "quote|" ++ subject ++ "|" ++ dataset ++ "|" ++ venue ++ "|" ++ asset ++ series
  else if what = "rate" then "rate|" ++ subject ++ "|" ++ dataset ++ "|" ++ kind ++ "|" ++ point
  else "statistic|" ++ subject ++ "|" ++ dataset ++ "|" ++ kind ++ "|" ++ date ++ series

/-- What a row recorded holds: no key separator in its texts, and a rate keyed by no series. -/
structure Plain (row : Observation) : Prop where
  subject : Free '\u001f' row.subject
  dataset : Free '\u001f' row.dataset
  venue : Free '\u001f' row.venue
  date : Free '\u001f' (dateOf row)
  asset : Free '\u001f' row.asset
  series : row.dataType = .rate → row.about.seriesKey = []

theorem metaSaid_eq (row : Observation) : metaSaid row.envelope = (row.dataset, row.subjects, row.venue) := by
  unfold metaSaid Observation.dataset Observation.subjects Observation.venue Observation.about
  cases source : (row.envelope.getD {}).source <;> simp [source]

theorem firstOf_subjects (row : Observation) : firstOf row.subjects = row.subject := by
  unfold firstOf Observation.subjects Observation.subject
  rw [List.head?_map]

theorem seriesKeyText_nil : seriesKeyText [] = "" := by
  simp [seriesKeyText, String.intercalate]

theorem seriesSaid_eq (row : Observation) :
    seriesSaid row.envelope = if row.seriesKey = "" then "" else "|#" ++ row.seriesKey := by
  unfold Observation.seriesKey Observation.about seriesSaid
  cases row.envelope with
  | none => simp [seriesKeyText_nil]
  | some about =>
    dsimp only [Option.getD_some]
    split
    · next bare => exact bare
    · rfl

/-- A row keyed by nothing but its series has it for its point. -/
theorem point_eq {row : Observation} (other : row.dataType ≠ .rate) (other' : row.dataType ≠ .derived) :
    row.point = if row.seriesKey = "" then "" else "#" ++ row.seriesKey := by
  unfold Observation.point
  cases row <;> first | rfl | exact absurd rfl other | exact absurd rfl other'

/-- The series' part of both keys. -/
theorem series_part (row : Observation) (other : row.dataType ≠ .rate) (other' : row.dataType ≠ .derived) :
    (if row.point = "" then "" else "|" ++ row.point) = seriesSaid row.envelope := by
  rw [point_eq other other', seriesSaid_eq]
  by_cases bare : row.seriesKey = ""
  · simp [bare]
  · rw [if_neg bare, if_neg bare, if_neg]
    · rw [← String.append_assoc]
      rfl
    · intro empty
      have listed := congrArg String.toList empty
      simp at listed

/-- A sidecar's key is a text of the parts of a row's conflation key. -/
theorem sidecarKey_eq {row : Observation} (plain : Plain row) (keyed : (conflatedAs row).isSome) :
    sidecarKey row = (conflatedAs row).map fun what => sidecarText what row.subject row.dataset (toString row.kind)
      row.venue (toString (startOf row)) (dateOf row) row.asset row.point := by
  have about := metaSaid_eq row
  have first := firstOf_subjects row
  cases row with
  | price price =>
    have series := series_part (.price price) (by simp [Observation.dataType]) (by simp [Observation.dataType])
    simp only [Observation.envelope] at about series
    simp only [sidecarKey, publishedAs, said, conflatedAs, Option.bind_some, Option.map_some, about, first, sidecarText,
      series]
    rfl
  | bar bar =>
    have series := series_part (.bar bar) (by simp [Observation.dataType]) (by simp [Observation.dataType])
    simp only [Observation.envelope] at about series
    simp only [sidecarKey, publishedAs, said, conflatedAs, Option.bind_some, Option.map_some, about, first, sidecarText,
      series]
    cases held : bar.envelope <;> simp only [startOf, Observation.about, Observation.envelope, held] <;> rfl
  | quote quote =>
    have series := series_part (.quote quote) (by simp [Observation.dataType]) (by simp [Observation.dataType])
    simp only [Observation.envelope] at about series
    simp only [sidecarKey, publishedAs, said, conflatedAs, Option.bind_some, Option.map_some, about, first, sidecarText,
      series]
    rfl
  | rate rate =>
    have bare : (Observation.rate rate).point = ratePoint rate := by
      have key : (Observation.rate rate).seriesKey = "" := by
        unfold Observation.seriesKey
        rw [plain.series rfl, seriesKeyText_nil]
      simp only [Observation.point, key, if_pos]
    simp only [Observation.envelope] at about
    simp only [sidecarKey, publishedAs, said, conflatedAs, Option.bind_some, Option.map_some, about, first, sidecarText,
      bare]
    rfl
  | statistic statistic =>
    have series := series_part (.statistic statistic) (by simp [Observation.dataType])
      (by simp [Observation.dataType])
    simp only [Observation.envelope] at about series
    simp only [sidecarKey, publishedAs, said, conflatedAs, Option.bind_some, Option.map_some, about, first, sidecarText,
      series]
    cases held : statistic.envelope <;> simp only [dateOf, Observation.about, Observation.envelope, held] <;> rfl
  | _ => cases keyed

theorem split_text {a a' b b' : String} (free : Free '\u001f' a) (free' : Free '\u001f' a')
    (same : a ++ ("\u001f" ++ b) = a' ++ ("\u001f" ++ b')) : a = a' ∧ b = b' := by
  have listed := congrArg String.toList same
  rw [String.toList_append, String.toList_append, String.toList_append, String.toList_append] at listed
  have parts := split_of_separator free free' listed
  exact ⟨String.toList_inj.mp parts.1, String.toList_inj.mp parts.2⟩

/-- Two rows of one conflation key share the key every sidecar conflates under. -/
theorem sidecarKey_of_conflationKey {a b : Observation} (plain : Plain a) (plain' : Plain b)
    (keyed : a.conflationKey.isSome) (same : a.conflationKey = b.conflationKey) :
    sidecarKey a = sidecarKey b ∧ (sidecarKey a).isSome := by
  have keyed' := keyed
  rw [same] at keyed'
  rw [conflationKey_eq, Option.isSome_map] at keyed keyed'
  rw [sidecarKey_eq plain keyed, sidecarKey_eq plain' keyed']
  rw [conflationKey_eq, conflationKey_eq] at same
  obtain ⟨what, as⟩ := Option.isSome_iff_exists.mp keyed
  obtain ⟨what', as'⟩ := Option.isSome_iff_exists.mp keyed'
  rw [as, as', Option.map_some, Option.map_some, Option.some.injEq] at same
  rw [as, as', Option.map_some, Option.map_some]
  have named : ∀ {row : Observation} {what : String}, conflatedAs row = some what → Free '\u001f' what := by
    intro row what as
    cases row <;> cases as <;> exact fun member => by simp at member
  simp only [String.append_assoc] at same
  obtain ⟨rfl, rest⟩ := split_text (named as) (named as') same
  obtain ⟨subject, rest⟩ := split_text plain.subject plain'.subject rest
  obtain ⟨dataset, rest⟩ := split_text plain.dataset plain'.dataset rest
  obtain ⟨kind, rest⟩ := split_text (free_int (by decide) (by decide) _) (free_int (by decide) (by decide) _) rest
  obtain ⟨venue, rest⟩ := split_text plain.venue plain'.venue rest
  obtain ⟨start, rest⟩ := split_text (free_int (by decide) (by decide) _) (free_int (by decide) (by decide) _) rest
  obtain ⟨date, rest⟩ := split_text plain.date plain'.date rest
  obtain ⟨asset, point⟩ := split_text plain.asset plain'.asset rest
  rw [subject, dataset, kind, venue, start, date, asset, point]
  exact ⟨rfl, rfl⟩

end MeridianCore.Sidecar
