import MeridianCore.Instruments.Calendars
import MeridianCore.Ordered.Counted

/-! What a date worked out from the kept calendars says: it is counted and stepped to over days the calendars cover alone, on the
rule in force. -/

namespace MeridianCore.Calendars

namespace CalendarSet

/-- What a set of calendars knows of a day, by its count since the epoch. -/
def marks (set : CalendarSet) : Marks := fun point =>
  (Date.fromDays point).bind fun date => (set.standing date).toOption.map fun standing => decide (standing = .good)

variable {set : CalendarSet} {date : Date} {standing : Standing}

theorem marks_of_standing (known : set.standing date = .ok standing) :
    set.marks date.daysSinceEpoch = some (decide (standing = .good)) := by
  rw [marks, Date.fromDays_daysSinceEpoch, Option.bind_some, known]
  rfl

end CalendarSet

section Walks

variable {set : CalendarSet} {date found later : Date} {direction count lag : Int}

theorem bind_ok {ε α β : Type} {one : Except ε α} {next : α → Except ε β} {answer : β} :
    (one >>= next) = .ok answer ↔ ∃ a, one = .ok a ∧ next a = .ok answer := by
  cases one with
  | error stop =>
    constructor
    · intro answered
      cases answered
    · rintro ⟨a, answered, -⟩
      cases answered
  | ok a =>
    constructor
    · exact fun answered => ⟨a, rfl, answered⟩
    · rintro ⟨_, ⟨⟩, answered⟩
      exact answered

theorem shift_ok : shift date direction = .ok later ↔ later.daysSinceEpoch = date.daysSinceEpoch + direction := by
  unfold shift
  constructor
  · intro shifted
    split at shifted
    · next there =>
      cases shifted
      exact Date.fromDays_eq_some_iff.mp there
    · cases shifted
  · intro same
    rw [Date.fromDays_eq_some_iff.mpr same]

theorem stepWithin_ok {fuel : Nat} (stepped : stepWithin set direction fuel date = .ok found) :
    set.marks.Nearest direction date.daysSinceEpoch found.daysSinceEpoch := by
  induction fuel generalizing date with
  | zero => cases stepped
  | succ fuel ih =>
    rw [stepWithin] at stepped
    obtain ⟨standing, known, stepped⟩ := bind_ok.mp stepped
    have mark := CalendarSet.marks_of_standing known
    split at stepped
    · next good =>
      cases stepped
      exact Marks.Nearest.here (by rw [mark, good]; rfl)
    · next notGood =>
      obtain ⟨next, shifted, stepped⟩ := bind_ok.mp stepped
      have further := ih stepped
      rw [shift_ok.mp shifted] at further
      exact Marks.Nearest.past (by rw [mark, decide_eq_false notGood]) further

theorem countWithin_ok {fuel : Nat} {counted : Int} (reached : countWithin set count fuel date counted = .ok found)
    (left : counted < count) : set.marks.Nth date.daysSinceEpoch (count - counted).toNat found.daysSinceEpoch := by
  induction fuel generalizing date counted with
  | zero => cases reached
  | succ fuel ih =>
    rw [countWithin] at reached
    obtain ⟨next, shifted, reached⟩ := bind_ok.mp reached
    obtain ⟨standing, known, reached⟩ := bind_ok.mp reached
    have at_ := shift_ok.mp shifted
    have mark := CalendarSet.marks_of_standing known
    rw [at_] at mark
    split at reached
    · next good =>
      rw [good] at mark
      split at reached
      · next last =>
        cases reached
        have one : (count - counted).toNat = 1 := by omega
        rw [one, at_]
        exact Marks.Nth.one mark
      · next more =>
        have further := ih reached (by omega)
        rw [at_] at further
        have fewer : (count - counted).toNat = (count - (counted + 1)).toNat + 1 := by omega
        rw [fewer]
        exact further.after_good mark
    · next notGood =>
      have further := ih reached left
      rw [at_] at further
      rw [decide_eq_false notGood] at mark
      exact further.after_closed mark

/-- A date a lag's good days after another; for no lag, the first good day from it on. -/
def Settles (marks : Marks) (from_ : Date) (lag : Int) (to_ : Date) : Prop :=
  if lag ≤ 0 then marks.Nearest 1 from_.daysSinceEpoch to_.daysSinceEpoch
  else marks.Nth from_.daysSinceEpoch lag.toNat to_.daysSinceEpoch

theorem countForward_ok (counted : countForward set date lag = .ok found) : Settles set.marks date lag found := by
  unfold countForward at counted
  unfold Settles
  split at counted
  · next none' =>
    rw [if_pos none']
    exact stepWithin_ok counted
  · next some' =>
    rw [if_neg some']
    have reached := countWithin_ok counted (not_le.mp some')
    rwa [sub_zero] at reached

theorem Settles.le {marks : Marks} (settles : Settles marks date lag found) : date ≤ found := by
  rw [← Date.daysSinceEpoch_le_iff]
  unfold Settles at settles
  split at settles
  · exact settles.first.1
  · exact settles.after.le

/-- From no earlier a date, the same lag ends no earlier. -/
theorem Settles.mono {marks : Marks} {date' found' : Date} (first : Settles marks date lag found)
    (second : Settles marks date' lag found') (le : date ≤ date') : found ≤ found' := by
  rw [← Date.daysSinceEpoch_le_iff] at le ⊢
  unfold Settles at first second
  split at first
  · next none' =>
    rw [if_pos none'] at second
    exact first.mono second le
  · next some' =>
    rw [if_neg some'] at second
    exact first.mono second le

end Walks

section Rules

variable {α κ : Type} [LinearOrder κ] {key : α → κ} {values : List α} {value : α}

theorem maxByKey_snoc (before : List α) (last : α) :
    maxByKey key (before ++ [last]) = keepGreatest key (maxByKey key before) last := by
  rw [maxByKey, List.foldl_append]
  rfl

/-- The value found is among them, and no other's key is greater. -/
theorem maxByKey_ok (found : maxByKey key values = some value) : value ∈ values ∧ ∀ other ∈ values, key other ≤ key value := by
  induction values using List.reverseRecOn generalizing value with
  | nil => cases found
  | append_singleton before last ih =>
    rw [maxByKey_snoc] at found
    cases held : maxByKey key before with
    | none =>
      rw [held] at found
      obtain rfl := Option.some.inj found
      have first : before = [] := by
        rcases List.eq_nil_or_concat before with none' | ⟨earlier, other, rfl⟩
        · exact none'
        · rw [List.concat_eq_append, maxByKey_snoc] at held
          unfold keepGreatest at held
          split at held
          · cases held
          · split at held <;> cases held
      rw [first]
      simp
    | some standing =>
      rw [held] at found
      unfold keepGreatest at found
      dsimp only at found
      obtain ⟨among, above⟩ := ih held
      have standing_le : key standing ≤ key value ∧ value ∈ before ++ [last] ∧ key last ≤ key value := by
        split at found
        · next less =>
          obtain rfl := Option.some.inj found
          exact ⟨le_rfl, List.mem_append_left _ among, less.le⟩
        · next notLess =>
          obtain rfl := Option.some.inj found
          exact ⟨not_lt.mp notLess, by simp, le_rfl⟩
      refine ⟨standing_le.2.1, fun other member => ?_⟩
      rcases List.mem_append.mp member with earlier | same
      · exact (above other earlier).trans standing_le.1
      · rw [List.mem_singleton.mp same]
        exact standing_le.2.2

end Rules

/-- A rule's version in force for a date: one held, in effect by then, of no lower a number than any other of its rule. -/
structure InForce (held : Held) (kind : DateRuleKind) (date : Option Date) (matching : DateRuleVersion → Bool)
    (rule : DateRuleVersion) : Prop where
  among : rule ∈ held.rules.map Prod.fst
  own : rule.kind = kind
  fits : matching rule = true
  effect : Held.inEffect date rule = true
  highest : ∀ other ∈ held.rules.map Prod.fst, other.kind = kind → matching other = true → Held.inEffect date other = true →
    other.version ≤ rule.version

theorem inForce_of_rule {held : Held} {kind : DateRuleKind} {date : Option Date} {matching : DateRuleVersion → Bool}
    {rule : DateRuleVersion} (found : held.rule kind date matching = some rule) : InForce held kind date matching rule := by
  obtain ⟨among, above⟩ := maxByKey_ok found
  rw [List.mem_filter, List.mem_filter, Bool.and_eq_true, beq_iff_eq] at among
  obtain ⟨⟨among, own, matches_⟩, effect⟩ := among
  refine ⟨among, own, matches_, effect, fun other member kind' matches' effect' => above other ?_⟩
  rw [List.mem_filter, List.mem_filter, Bool.and_eq_true, beq_iff_eq]
  exact ⟨⟨member, kind', matches'⟩, effect'⟩

section Spot

variable {held : Held} {rule : SpotDateRule} {counting spot : CalendarSet} {trade trade' date date' : Date} {lag : Int}

/-- The counting calendars one currency's spot is counted on: its own, and those that name no currency. -/
def ownCalendars (counting : CalendarSet) (currency : String) : CalendarSet :=
  ⟨counting.calendars.filter fun calendar => calendar.instrumentId == currency || calendar.instrumentId.isEmpty⟩

def countedIn (counting : CalendarSet) (currency : String) : Bool :=
  counting.calendars.any fun calendar => calendar.instrumentId == currency

/-- The later of the currencies' spots, each counted on its own calendars. -/
structure LatestSpot (counting : CalendarSet) (trade : Date) (lag : Int) (currencies : List String) (later : Date) : Prop where
  reached : ∃ currency ∈ currencies, countedIn counting currency = true ∧
    Settles (ownCalendars counting currency).marks trade lag later
  each : ∀ currency ∈ currencies, countedIn counting currency = true →
    ∃ own, Settles (ownCalendars counting currency).marks trade lag own ∧ own ≤ later

/-- The later of the spots so far, none where no currency's has been counted. -/
def LatestSoFar (counting : CalendarSet) (trade : Date) (lag : Int) (currencies : List String) : Option Date → Prop
  | none => ∀ currency ∈ currencies, countedIn counting currency = false
  | some later => LatestSpot counting trade lag currencies later

theorem laterSpot_ok {currencies : List String} {currency : String} {later next : Option Date}
    (soFar : LatestSoFar counting trade lag currencies later) (taken : laterSpot counting trade lag later currency = .ok next) :
    LatestSoFar counting trade lag (currencies ++ [currency]) next := by
  unfold laterSpot at taken
  split at taken
  · next counted =>
    obtain ⟨own, settled, taken⟩ := bind_ok.mp taken
    cases taken
    have settles : Settles (ownCalendars counting currency).marks trade lag own := countForward_ok settled
    cases later with
    | none =>
      refine ⟨⟨currency, by simp, counted, settles⟩, fun other among counted' => ?_⟩
      rcases List.mem_append.mp among with earlier | same
      · rw [soFar other earlier] at counted'
        cases counted'
      · rw [List.mem_singleton.mp same]
        exact ⟨own, settles, le_rfl⟩
    | some later =>
      refine ⟨?_, fun other among counted' => ?_⟩
      · dsimp only
        rcases le_total later own with le | le
        · rw [max_eq_right le]
          exact ⟨currency, by simp, counted, settles⟩
        · rw [max_eq_left le]
          obtain ⟨first, among, counted', settles'⟩ := soFar.reached
          exact ⟨first, List.mem_append_left _ among, counted', settles'⟩
      · rcases List.mem_append.mp among with earlier | same
        · obtain ⟨first, settles', le⟩ := soFar.each other earlier counted'
          exact ⟨first, settles', le.trans (le_max_left later own)⟩
        · rw [List.mem_singleton.mp same]
          exact ⟨own, settles, le_max_right later own⟩
  · next notCounted =>
    cases taken
    rw [Bool.not_eq_true] at notCounted
    cases later with
    | none =>
      intro other among
      rcases List.mem_append.mp among with earlier | same
      · exact soFar other earlier
      · rw [List.mem_singleton.mp same]
        exact notCounted
    | some later =>
      obtain ⟨first, among, counted', settles'⟩ := soFar.reached
      refine ⟨⟨first, List.mem_append_left _ among, counted', settles'⟩, fun other among counted' => ?_⟩
      rcases List.mem_append.mp among with earlier | same
      · exact soFar.each other earlier counted'
      · rw [List.mem_singleton.mp same] at counted'
        exact absurd (notCounted.symm.trans counted') Bool.false_ne_true

theorem latestSpot_ok {currencies : List String} {later : Option Date}
    (taken : currencies.foldlM (laterSpot counting trade lag) none = .ok later) :
    LatestSoFar counting trade lag currencies later := by
  have run (before after : List String) (start : Option Date) (soFar : LatestSoFar counting trade lag before start)
      (taken : after.foldlM (laterSpot counting trade lag) start = .ok later) :
      LatestSoFar counting trade lag (before ++ after) later := by
    induction after generalizing before start with
    | nil =>
      cases taken
      rwa [List.append_nil]
    | cons currency rest ih =>
      rw [List.foldlM_cons] at taken
      obtain ⟨next, one, taken⟩ := bind_ok.mp taken
      have further := ih (before ++ [currency]) next (laterSpot_ok soFar one) taken
      rwa [List.append_assoc] at further
  have none' : LatestSoFar counting trade lag [] none := by
    intro currency among
    cases among
  exact run [] currencies none none' taken

/-- The same currencies counted from no earlier a date end no earlier. -/
theorem LatestSpot.mono {currencies : List String} {later later' : Date} (first : LatestSpot counting trade lag currencies later)
    (second : LatestSpot counting trade' lag currencies later') (le : trade ≤ trade') : later ≤ later' := by
  obtain ⟨currency, among, counted, settles⟩ := first.reached
  obtain ⟨own, settles', below⟩ := second.each currency among counted
  exact (settles.mono settles' le).trans below

/-- The counting calendars and the spot ones not among them. -/
def bothSets (counting spot : CalendarSet) : CalendarSet :=
  ⟨spot.calendars.foldl (fun both calendar =>
    if both.any fun held => held.calendarId == calendar.calendarId then both else both ++ [calendar]) counting.calendars⟩

/-- Whether a pair's lag is counted on each currency's own calendars. -/
def countsEach (rule : SpotDateRule) (counting : CalendarSet) : Prop :=
  rule.countingMode = .eachCurrency ∧ ∃ currency ∈ rule.pair, countedIn counting currency = true

/-- A pair's spot date from a trade date: the lag counted, jointly or each currency on its own and the later taken, then the
first good day from there on. -/
inductive SpotOn (rule : SpotDateRule) (counting spot : CalendarSet) (trade date : Date) : Prop where
  | jointly (counted : Date) (joint : ¬ countsEach rule counting) (settles : Settles counting.marks trade rule.lagDays counted)
      (rolled : spot.marks.Nearest 1 counted.daysSinceEpoch date.daysSinceEpoch)
  | each (later : Date) (each : countsEach rule counting) (latest : LatestSpot counting trade rule.lagDays rule.pair later)
      (rolled : (bothSets counting spot).marks.Nearest 1 later.daysSinceEpoch date.daysSinceEpoch)

theorem spotFrom_ok {refs : List CalendarRef} (answered : spotFrom held rule trade = .ok (date, refs)) :
    ∃ counting spot, CalendarSet.of held rule.countingCalendars = .ok counting ∧
      CalendarSet.of held rule.spotCalendars = .ok spot ∧ SpotOn rule counting spot trade date ∧
      refs = addingRefs counting.refs spot.refs := by
  unfold spotFrom at answered
  obtain ⟨counting, countingHeld, answered⟩ := bind_ok.mp answered
  obtain ⟨spot, spotHeld, answered⟩ := bind_ok.mp answered
  obtain ⟨own, each, answered⟩ := bind_ok.mp answered
  refine ⟨counting, spot, countingHeld, spotHeld, ?_⟩
  unfold eachCurrency at each
  have joint {counted : Date} (notEach : ¬ countsEach rule counting) (settled : countForward counting trade rule.lagDays = .ok counted)
      (stepped : step spot counted 1 = .ok date) : SpotOn rule counting spot trade date :=
    .jointly counted notEach (countForward_ok settled) (stepWithin_ok stepped)
  split at each
  · next mode =>
    cases each
    obtain ⟨counted, settled, answered⟩ := bind_ok.mp answered
    obtain ⟨found, stepped, answered⟩ := bind_ok.mp answered
    cases answered
    exact ⟨joint (fun counts => mode counts.1) settled stepped, rfl⟩
  · next mode =>
    obtain ⟨later, latest, each⟩ := bind_ok.mp each
    have soFar := latestSpot_ok latest
    cases later with
    | none =>
      cases each
      obtain ⟨counted, settled, answered⟩ := bind_ok.mp answered
      obtain ⟨found, stepped, answered⟩ := bind_ok.mp answered
      cases answered
      refine ⟨joint (fun counts => ?_) settled stepped, rfl⟩
      obtain ⟨-, currency, among, counted'⟩ := counts
      rw [soFar currency among] at counted'
      cases counted'
    | some later =>
      obtain ⟨found, stepped, each⟩ := bind_ok.mp each
      cases each
      cases answered
      obtain ⟨currency, among, counted, -⟩ := soFar.reached
      exact ⟨.each later ⟨not_not.mp mode, currency, among, counted⟩ soFar (stepWithin_ok stepped), rfl⟩

/-- Under one rule, a later trade date has no earlier a spot. -/
theorem SpotOn.mono (first : SpotOn rule counting spot trade date) (second : SpotOn rule counting spot trade' date')
    (le : trade ≤ trade') : date ≤ date' := by
  rw [← Date.daysSinceEpoch_le_iff]
  cases first with
  | jointly counted joint settles rolled =>
    cases second with
    | jointly counted' joint' settles' rolled' =>
      exact rolled.mono rolled' (Date.daysSinceEpoch_le_iff.mpr (settles.mono settles' le))
    | each later each latest rolled' => exact absurd each joint
  | each later each latest rolled =>
    cases second with
    | jointly counted' joint' settles' rolled' => exact absurd each joint'
    | each later' each' latest' rolled' =>
      exact rolled.mono rolled' (Date.daysSinceEpoch_le_iff.mpr (latest.mono latest' le))

theorem SpotOn.le (spotOn : SpotOn rule counting spot trade date) : trade ≤ date := by
  cases spotOn with
  | jointly counted joint settles rolled =>
    exact settles.le.trans (Date.daysSinceEpoch_le_iff.mp rolled.first.1)
  | each later each latest rolled =>
    obtain ⟨currency, among, counted, settles⟩ := latest.reached
    exact settles.le.trans (Date.daysSinceEpoch_le_iff.mp rolled.first.1)

end Spot

/-- A calendar of one year, its weekends and one holiday. -/
def oneYear : CalendarRecord where
  calendarId := "US"
  weekends := [⟨[.saturday, .sunday], "2000-01-01"⟩]
  days := [⟨"2026-07-03", .closed⟩]
  coverage := some ⟨"2026-01-01", "2026-12-31"⟩
  version := 1

def twoDaysOut : SpotDateRule where
  pair := ["EUR", "USD"]
  lagDays := 2
  countingCalendars := ["US"]
  spotCalendars := ["US"]
  effectiveFromDate := "2020-01-01"

/-- A day's settlement in one market and a pair's spot two days out, both counted on that calendar. -/
def bothRules : List KeptDateRule :=
  [⟨⟨.settlement, "US", 1, some (.settlement ⟨"US", 1, "", 1, ["US"], "2024-05-28"⟩)⟩, 5⟩,
    ⟨⟨.spot, "EUR/USD", 1, some (.spot twoDaysOut)⟩, 5⟩]

def heldOneYear : Held := Held.asOf [⟨oneYear, 5⟩] bothRules 0

def inMarket (_ : String) : Option Market := some { assetClass := 1, countryCode := "US" }

def noZone (_ : String) : Except String Zone := .error "no zone"

/-- What a read answers with its date computed, as far as it is looked at. -/
def answersOn (date : String) (read : Except String Answered) : Bool :=
  read.toOption.any fun answer => answer.reply.outcome == .computed && answer.reply.date == date

theorem answers_of (date : String) (read : Except String Answered) (answers : answersOn date read = true) :
    ∃ answer, read = .ok answer ∧ answer.reply.outcome = .computed ∧ answer.reply.date = date := by
  cases read with
  | error why => cases answers
  | ok answer =>
    unfold answersOn at answers
    have both : (answer.reply.outcome == .computed && answer.reply.date == date) = true := answers
    rw [Bool.and_eq_true, beq_iff_eq, beq_iff_eq] at both
    exact ⟨answer, rfl, both⟩

section Specified

variable {held : Held} {market : String → Option Market} {load : String → Except String Zone} {nowNs : Int} {answer : Answered}

theorem guard_ok {c : Prop} [Decidable c] {why : String} {next : Unit → Except String Answered} :
    (if c then (throw why : Except String Unit) >>= next else next ()) = .ok answer ↔ ¬ c ∧ next () = .ok answer := by
  by_cases holds : c
  · rw [if_pos holds]
    refine ⟨fun refused => ?_, fun held => absurd holds held.1⟩
    cases refused
  · rw [if_neg holds]
    exact ⟨fun answered => ⟨holds, answered⟩, fun held => held.2⟩

theorem dateField_ok {field text : String} {date : Date} (read : dateField field text = .ok date) : Date.parse text = some date := by
  unfold dateField at read
  split at read
  · cases read
  · split at read
    · next found =>
      rw [found, Except.ok.inj read]
    · cases read

theorem computed_of_answering {worked : Except Stop (Date × DateBasis)} {basis : DateBasis}
    (done : (answering worked basis nowNs).reply.outcome = .computed) : ∃ date basis', worked = .ok (date, basis') ∧
      answering worked basis nowNs = computed date basis' := by
  cases worked with
  | error stop => cases stop <;> cases done
  | ok dated => exact ⟨dated.1, dated.2, rfl, rfl⟩

theorem maxByKey_none {α κ : Type} [LinearOrder κ] {key : α → κ} {values : List α} (none' : maxByKey key values = none) :
    values = [] := by
  rcases List.eq_nil_or_concat values with empty | ⟨earlier, other, rfl⟩
  · exact empty
  · rw [List.concat_eq_append, maxByKey_snoc] at none'
    unfold keepGreatest at none'
    split at none'
    · cases none'
    · split at none' <;> cases none'

/-- Of a market's settlement rules in effect on a trade date, the venue's own where it has one, and the market's otherwise. -/
structure MarketRule (held : Held) (place : Market) (trade : Date) (rule : DateRuleVersion) : Prop where
  inForce : ∃ venue, (venue = place.venueId ∨ venue = "") ∧ InForce held .settlement (some trade) (settles place venue) rule
  own : place.venueId ≠ "" → (∃ other ∈ held.rules.map Prod.fst, other.kind = .settlement ∧ settles place place.venueId other = true ∧
    Held.inEffect (some trade) other = true) → InForce held .settlement (some trade) (settles place place.venueId) rule

theorem marketRule_of {place : Market} {trade : Date} {rule : DateRuleVersion}
    (found : settlementRule held place trade = some rule) : MarketRule held place trade rule := by
  unfold settlementRule at found
  dsimp only at found
  by_cases venue : place.venueId.isEmpty = true
  · rw [if_pos venue, Option.none_or] at found
    refine ⟨⟨"", .inr rfl, inForce_of_rule found⟩, fun named => absurd (String.isEmpty_iff.mp venue) named⟩
  · rw [if_neg venue] at found
    cases own : held.rule .settlement (some trade) (settles place place.venueId) with
    | some other =>
      rw [own, Option.some_or] at found
      obtain rfl := Option.some.inj found
      exact ⟨⟨place.venueId, .inl rfl, inForce_of_rule own⟩, fun _ _ => inForce_of_rule own⟩
    | none =>
      rw [own, Option.none_or] at found
      refine ⟨⟨"", .inr rfl, inForce_of_rule found⟩, fun _ held => ?_⟩
      obtain ⟨other, among, kind, fits, effect⟩ := held
      have empty := maxByKey_none own
      have member : other ∈ ((held.rules.map Prod.fst).filter fun rule =>
          rule.kind == .settlement && settles place place.venueId rule).filter (Held.inEffect (some trade)) := by
        rw [List.mem_filter, List.mem_filter, Bool.and_eq_true, beq_iff_eq]
        exact ⟨⟨among, kind, fits⟩, effect⟩
      rw [empty] at member
      cases member

/-- A computed settlement date is the lag's good days after the trade date, every day on the way covered by every counting
calendar, on the market's rule in force that day. -/
theorem settlement_computed {asked : SettlementDateInputs}
    (answered : compute held (some (.settlement asked)) market load nowNs = .ok answer) (done : answer.reply.outcome = .computed) :
    ∃ place trade rule parameters set date, market asked.instrumentId = some place ∧ Date.parse asked.tradeDate = some trade ∧
      MarketRule held place trade rule ∧ rule.parameters = some (.settlement parameters) ∧
      CalendarSet.of held parameters.countingCalendars = .ok set ∧ Settles set.marks trade parameters.lagDays date ∧
      answer = computed date { rule := some (ruleRef rule), calendars := set.refs } := by
  unfold compute at answered
  obtain ⟨-, answered⟩ := guard_ok.mp answered
  obtain ⟨trade, read, answered⟩ := bind_ok.mp answered
  cases known : market asked.instrumentId with
  | none =>
    rw [known] at answered
    cases answered
  | some place =>
    rw [known] at answered
    obtain rfl := Except.ok.inj answered
    unfold settlementRead at done ⊢
    dsimp only at done ⊢
    split at done
    · cases done
    · next placed =>
      rw [if_neg placed]
      cases found : settlementRule held place trade with
      | none =>
        rw [found] at done
        cases done
      | some rule =>
        rw [found] at done
        dsimp only at done ⊢
        cases stated : rule.parameters with
        | none =>
          rw [stated] at done
          cases done
        | some parameters =>
          cases parameters with
          | spot other =>
            rw [stated] at done
            cases done
          | settlement parameters =>
            rw [stated] at done
            dsimp only at done ⊢
            unfold settle at done ⊢
            dsimp only at done ⊢
            cases gathered : CalendarSet.of held parameters.countingCalendars with
            | error stop =>
              rw [gathered] at done
              cases stop <;> cases done
            | ok set =>
              rw [gathered] at done
              obtain ⟨date, basis, worked, same⟩ := computed_of_answering done
              dsimp only at worked ⊢
              cases counted : countForward set trade parameters.lagDays with
              | error stop =>
                rw [counted] at worked
                cases worked
              | ok settled =>
                rw [counted] at worked
                obtain ⟨rfl, rfl⟩ := Prod.mk.inj (Except.ok.inj worked)
                rw [counted] at same
                exact ⟨place, trade, rule, parameters, set, settled, rfl, dateField_ok read, marketRule_of found, stated, gathered,
                  countForward_ok counted, same⟩

theorem settlement_computed_holiday : ∃ place trade rule parameters set date, inMarket "INS-1" = some place ∧
    Date.parse "2026-07-02" = some trade ∧ MarketRule heldOneYear place trade rule ∧ rule.parameters = some (.settlement parameters) ∧
    CalendarSet.of heldOneYear parameters.countingCalendars = .ok set ∧ Settles set.marks trade parameters.lagDays date ∧
    toString date = "2026-07-06" := by
  obtain ⟨answer, answered, done, stated⟩ := answers_of "2026-07-06"
    (compute heldOneYear (some (.settlement ⟨"INS-1", "2026-07-02"⟩)) inMarket noZone 9) (by decide +kernel)
  obtain ⟨place, trade, rule, parameters, set, date, found, read, inForce, own, gathered, settles, rfl⟩ :=
    settlement_computed answered done
  exact ⟨place, trade, rule, parameters, set, date, found, read, inForce, own, gathered, settles, stated⟩

theorem onSpotRule_computed {pair : List String} {trade : Date} {work : SpotDateRule → Except Stop (Date × List CalendarRef)}
    (done : (onSpotRule held pair trade nowNs work).reply.outcome = .computed) :
    ∃ rule parameters date refs, held.rule .spot (some trade) (forPair pair) = some rule ∧ rule.parameters = some (.spot parameters) ∧
      work parameters = .ok (date, refs) ∧
      onSpotRule held pair trade nowNs work = computed date { rule := some (ruleRef rule), calendars := refs } := by
  unfold onSpotRule at done ⊢
  cases found : held.rule .spot (some trade) (forPair pair) with
  | none =>
    rw [found] at done
    cases done
  | some rule =>
    rw [found] at done
    dsimp only at done ⊢
    cases stated : rule.parameters with
    | none =>
      rw [stated] at done
      cases done
    | some parameters =>
      cases parameters with
      | settlement other =>
        rw [stated] at done
        cases done
      | spot parameters =>
        rw [stated] at done
        obtain ⟨date, basis, worked, same⟩ := computed_of_answering done
        cases given : work parameters with
        | error stop =>
          rw [given] at worked
          cases worked
        | ok dated =>
          rw [given] at worked
          obtain ⟨rfl, rfl⟩ := Prod.mk.inj (Except.ok.inj worked)
          rw [given] at same
          exact ⟨rule, parameters, dated.1, dated.2, rfl, stated, given, by dsimp only; rw [given]; exact same⟩

/-- The trade date a spot read is worked from: the one given, or the one the rule in force on a moment's UTC date reads it as. -/
inductive TradeDateOf (held : Held) (load : String → Except String Zone) (asked : SpotDateInputs) (trade : Date) : Prop where
  | given (read : Date.parse asked.tradeDate = some trade) (noMoment : asked.atNs = 0)
  | moment (first : DateRuleVersion) (parameters : SpotDateRule) (notGiven : asked.tradeDate = "")
      (inForce : InForce held .spot (Date.fromDays (asked.atNs.toInt / 86400000000000)) (forPair asked.pair) first)
      (stated : first.parameters = some (.spot parameters)) (read : tradeDateAt held parameters asked.atNs load = .ok trade)

theorem spotRead_computed {asked : SpotDateInputs} {given : Option Date}
    (answered : spotRead held asked given load nowNs = .ok answer) (done : answer.reply.outcome = .computed) :
    ∃ trade, (given = some trade ∨ given = none ∧ ∃ first parameters,
        InForce held .spot (Date.fromDays (asked.atNs.toInt / 86400000000000)) (forPair asked.pair) first ∧
        first.parameters = some (.spot parameters) ∧ tradeDateAt held parameters asked.atNs load = .ok trade) ∧
      answer = onSpotRule held asked.pair trade nowNs fun rule => spotFrom held rule trade := by
  unfold spotRead at answered
  cases given with
  | some trade => exact ⟨trade, .inl rfl, (Except.ok.inj answered).symm⟩
  | none =>
    dsimp only at answered
    cases found : held.rule .spot (Date.fromDays (asked.atNs.toInt / 86400000000000)) (forPair asked.pair) with
    | none =>
      rw [found] at answered
      rw [← Except.ok.inj answered] at done
      cases done
    | some first =>
      rw [found] at answered
      dsimp only at answered
      cases stated : first.parameters with
      | none =>
        rw [stated] at answered
        rw [← Except.ok.inj answered] at done
        cases done
      | some parameters =>
        cases parameters with
        | settlement other =>
          rw [stated] at answered
          rw [← Except.ok.inj answered] at done
          cases done
        | spot parameters =>
          rw [stated] at answered
          dsimp only at answered
          cases read : tradeDateAt held parameters asked.atNs load with
          | error why =>
            rw [read] at answered
            cases answered
          | ok trade =>
            rw [read] at answered
            exact ⟨trade, .inr ⟨rfl, first, parameters, inForce_of_rule found, stated, read⟩, (Except.ok.inj answered).symm⟩

theorem spot_fields {asked : SpotDateInputs} (answered : compute held (some (.spot asked)) market load nowNs = .ok answer) :
    ∃ given, spotRead held asked given load nowNs = .ok answer ∧
      (∀ trade, given = some trade → Date.parse asked.tradeDate = some trade ∧ asked.atNs = 0) ∧
      (given = none → asked.tradeDate = "") := by
  unfold compute at answered
  obtain ⟨-, -, answered⟩ := bind_ok.mp answered
  dsimp only at answered
  split at answered
  · next empty =>
    obtain ⟨given, read, answered⟩ := bind_ok.mp answered
    obtain rfl := Except.ok.inj read
    obtain ⟨-, answered⟩ := guard_ok.mp answered
    refine ⟨none, answered, fun trade same => ?_, fun _ => String.isEmpty_iff.mp empty⟩
    cases same
  · next stated =>
    obtain ⟨given, read, answered⟩ := bind_ok.mp answered
    obtain ⟨onlyOne, answered⟩ := guard_ok.mp answered
    cases parsed : dateField "spot.trade_date" asked.tradeDate with
    | error why =>
      rw [parsed] at read
      cases read
    | ok trade =>
      rw [parsed] at read
      obtain rfl := Except.ok.inj read
      refine ⟨some trade, answered, fun trade' same => ?_, fun none' => ?_⟩
      · obtain rfl := Option.some.inj same
        refine ⟨dateField_ok parsed, ?_⟩
        by_contra moment
        exact onlyOne (by rw [decide_eq_true moment]; rfl)
      · cases none'

end Specified

end MeridianCore.Calendars
