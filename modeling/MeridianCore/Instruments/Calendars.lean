import MeridianCore.Domain.DateNumbers
import MeridianCore.Domain.Zone
import MeridianCore.Domain.Text
import MeridianCore.Ordered.Latest

/-! The settlement calendars and date rules kept, every version dated, and the one way a date is worked out from them. -/

namespace MeridianCore.Calendars

inductive CalendarDayKind where
  | unspecified
  | closed
  | open_
  deriving DecidableEq

inductive Weekday where
  | unspecified
  | monday
  | tuesday
  | wednesday
  | thursday
  | friday
  | saturday
  | sunday
  deriving DecidableEq

structure CalendarWeekend where
  weekdays : List Weekday
  validFromDate : String
  deriving DecidableEq

structure CalendarDay where
  date : String
  kind : CalendarDayKind
  deriving DecidableEq

structure CalendarCoverage where
  fromDate : String
  toDate : String
  deriving DecidableEq

structure CalendarRecord where
  calendarId : String
  instrumentId : String := ""
  weekends : List CalendarWeekend := []
  days : List CalendarDay := []
  coverage : Option CalendarCoverage := none
  version : Int := 0
  deriving DecidableEq

structure KeptCalendar where
  record : CalendarRecord
  keptAtNs : Int

inductive DateRuleKind where
  | unspecified
  | settlement
  | spot
  deriving DecidableEq

inductive BusinessDayConvention where
  | unspecified
  | following
  | modifiedFollowing
  | preceding
  | none
  deriving DecidableEq

inductive SpotCountingMode where
  | unspecified
  | joint
  | eachCurrency
  deriving DecidableEq

structure SettlementDateRule where
  countryCode : String
  assetClass : Int
  /-- Empty for the market's rule. -/
  venueId : String
  lagDays : Int
  countingCalendars : List String
  effectiveFromDate : String

structure DayCut where
  localTime : String
  timeZone : String

/-- A convention of a number the schema does not define is none. -/
structure TenorDateRule where
  convention : Option BusinessDayConvention := some .unspecified
  endOfMonth : Bool := false

structure SpotDateRule where
  pair : List String
  lagDays : Int
  countingCalendars : List String
  spotCalendars : List String
  cut : Option DayCut := Option.none
  tenorRule : Option TenorDateRule := Option.none
  effectiveFromDate : String
  countingMode : SpotCountingMode := .unspecified

inductive Parameters where
  | settlement (rule : SettlementDateRule)
  | spot (rule : SpotDateRule)

structure DateRuleVersion where
  kind : DateRuleKind
  subject : String
  version : Int
  parameters : Option Parameters

structure KeptDateRule where
  rule : DateRuleVersion
  keptAtNs : Int

/-- The value held, or one of no lower a key. -/
def keepGreatest [LinearOrder κ] (key : α → κ) (held : Option α) (value : α) : Option α :=
  match held with
  | Option.none => some value
  | some other => if key value < key other then some other else some value

/-- The value of the greatest key, the last of those that tie. -/
def maxByKey [LinearOrder κ] (key : α → κ) (values : List α) : Option α := values.foldl (keepGreatest key) Option.none

def effectiveFrom (rule : DateRuleVersion) : Option Date :=
  match rule.parameters with
  | some (.settlement held) => Date.parse held.effectiveFromDate
  | some (.spot held) => Date.parse held.effectiveFromDate
  | Option.none => Option.none

/-- What the store holds, as of a recorded time. -/
structure Held where
  calendars : BTreeMap String CalendarRecord
  rules : List (DateRuleVersion × Int)
  keyed : ∀ (id : String) (record : CalendarRecord), calendars[id]? = some record → record.calendarId = id

namespace Held

/-- The versions kept by a recorded time, the latest held when it is zero. -/
def asOf (calendars : List KeptCalendar) (rules : List KeptDateRule) (asOfNs : Int) : Held :=
  let known (keptAt : Int) : Bool := asOfNs == 0 || decide (keptAt ≤ asOfNs)
  { calendars := latestBy CalendarRecord.calendarId CalendarRecord.version
      ((calendars.filter fun kept => known kept.keptAtNs).map KeptCalendar.record)
    rules := (rules.filter fun kept => known kept.keptAtNs).map fun kept => (kept.rule, kept.keptAtNs)
    keyed := fun _ _ held => (latestBy.found held).2.1 }

/-- A version whose date of effect is on or before a date; one of no date read is in effect on every date. -/
def inEffect (date : Option Date) (rule : DateRuleVersion) : Bool :=
  match date, effectiveFrom rule with
  | some date, some from_ => decide (from_ ≤ date)
  | _, _ => true

/-- A rule's version in force for a date: the highest of those in effect of each rule that matches. -/
def rule (held : Held) (kind : DateRuleKind) (date : Option Date) (matching : DateRuleVersion → Bool) : Option DateRuleVersion :=
  maxByKey DateRuleVersion.version
    (((held.rules.map Prod.fst).filter fun rule => rule.kind == kind && matching rule).filter (inEffect date))

end Held

/-- Why a date could not be worked out: a calendar the store does not hold, or a day a calendar does not cover. -/
inductive Stop where
  | notHeld (id : String)
  | outside
  deriving DecidableEq

inductive Standing where
  | good
  | closed
  deriving DecidableEq

def weekday (date : Date) : Weekday :=
  -- 1970-01-01 was a Thursday.
  match (date.daysSinceEpoch + 3) % 7 with
  | 0 => .monday
  | 1 => .tuesday
  | 2 => .wednesday
  | 3 => .thursday
  | 4 => .friday
  | 5 => .saturday
  | _ => .sunday

/-- The weekend a calendar dates last by a day. -/
def weekendOn (calendar : CalendarRecord) (date : Date) : Option CalendarWeekend :=
  (maxByKey Prod.fst (calendar.weekends.filterMap fun weekend =>
    ((Date.parse weekend.validFromDate).filter fun from_ => decide (from_ ≤ date)).map fun from_ => (from_, weekend))).map Prod.snd

/-- A day's standing by the weekend in force then; before any weekend a calendar dates, not known. -/
def byWeekend (calendar : CalendarRecord) (date : Date) : Except Stop Standing :=
  match weekendOn calendar date with
  | some weekend => .ok (if weekday date ∈ weekend.weekdays then .closed else .good)
  | Option.none => .error .outside

/-- One calendar's word on a day: closed or open as listed, else by its weekend in force then; outside its coverage, not
known. -/
def dayOn (calendar : CalendarRecord) (date : Date) : Except Stop Standing :=
  match calendar.coverage with
  | Option.none => .error .outside
  | some coverage =>
    match Date.parse coverage.fromDate, Date.parse coverage.toDate with
    | some from_, some to_ =>
      if date < from_ ∨ to_ < date then .error .outside
      else
        match calendar.days.find? fun day => day.date == toString date with
        | some day =>
          match day.kind with
          | .closed => .ok .closed
          | .open_ => .ok .good
          | .unspecified => byWeekend calendar date
        | Option.none => byWeekend calendar date
    | _, _ => .error .outside

structure CalendarRef where
  calendarId : String
  version : Int
  deriving DecidableEq

/-- The calendars a date is worked on. -/
structure CalendarSet where
  calendars : List CalendarRecord

namespace CalendarSet

/-- A calendar added under an identifier, once. -/
def adding (held : Held) (calendars : List CalendarRecord) (id : String) : Except Stop (List CalendarRecord) :=
  match held.calendars[id]? with
  | Option.none => .error (.notHeld id)
  | some record => .ok (if calendars.any fun held => held.calendarId == id then calendars else calendars ++ [record])

def «of» (held : Held) (ids : List String) : Except Stop CalendarSet := do
  let calendars ← ids.foldlM (adding held) []
  return ⟨calendars⟩

/-- Good only if good in every calendar; not known if any does not cover it. -/
def standing (set : CalendarSet) (date : Date) : Except Stop Standing :=
  set.calendars.foldlM (fun standing calendar => do
    let own ← dayOn calendar date
    return if own = .closed then .closed else standing) .good

def refs (set : CalendarSet) : List CalendarRef :=
  set.calendars.map fun calendar => ⟨calendar.calendarId, calendar.version⟩

end CalendarSet

/-- The most days a count or a roll walks before it says the calendars do not cover the way. -/
def walkMost : Nat := 3660

def shift (date : Date) (days : Int) : Except Stop Date :=
  match Date.fromDays (date.daysSinceEpoch + days) with
  | some date => .ok date
  | Option.none => .error .outside

def stepWithin (set : CalendarSet) (direction : Int) : Nat → Date → Except Stop Date
  | 0, _ => .error .outside
  | more + 1, date => do
    if (← set.standing date) = .good then return date
    let date ← shift date direction
    stepWithin set direction more date

def step (set : CalendarSet) (from_ : Date) (direction : Int) : Except Stop Date := stepWithin set direction walkMost from_

def countWithin (set : CalendarSet) (count : Int) : Nat → Date → Int → Except Stop Date
  | 0, _, _ => .error .outside
  | more + 1, date, counted => do
    let date ← shift date 1
    if (← set.standing date) = .good then
      if counted + 1 = count then return date
      countWithin set count more date (counted + 1)
    else countWithin set count more date counted

/-- A date rolled by a convention on a set of calendars. -/
def roll (set : CalendarSet) (date : Date) (convention : BusinessDayConvention) : Except Stop Date :=
  match convention with
  | .following | .unspecified => step set date 1
  | .preceding => step set date (-1)
  | .modifiedFollowing => do
    let following ← step set date 1
    if following.month = date.month then return following
    step set date (-1)
  | .none => do
    let _ ← set.standing date
    return date

/-- `count` business days after a date, each day counted only if good; the date itself, rolled forward, for none. -/
def countForward (set : CalendarSet) (from_ : Date) (count : Int) : Except Stop Date :=
  if count ≤ 0 then roll set from_ .following else countWithin set count walkMost from_ 0

def daysInMonth (year month : Nat) : Nat :=
  ([31, 30, 29, 28].find? fun day => (Date.fromYmd year month day).isSome).getD 28

/-- `months` months after a date, its day kept where the month has it and the month's last day otherwise. -/
def addMonths (date : Date) (months : Int) : Except Stop Date :=
  let index : Int := date.year * 12 + date.month - 1 + months
  let year := index / 12
  if 0 ≤ year ∧ year < 2 ^ 16 then
    let month := (index % 12 + 1).toNat
    match Date.fromYmd year.toNat month (min date.day (daysInMonth year.toNat month)) with
    | some date => .ok date
    | Option.none => .error .outside
  else .error .outside

/-- The last business day of a date's month. -/
def monthEnd (set : CalendarSet) (date : Date) : Except Stop Date :=
  match Date.fromYmd date.year date.month (daysInMonth date.year date.month) with
  | some last => step set last (-1)
  | Option.none => .error .outside

/-- A pair, its two cash instruments in either order, as a rule's subject names it. -/
def samePair : List String → List String → Bool
  | [a, b], [c, d] => (a == c && b == d) || (a == d && b == c)
  | _, _ => false

/-- What a date read needs of an instrument the store holds: its asset class, and its market's country and venue. -/
structure Market where
  assetClass : Int := 0
  countryCode : String := ""
  venueId : String := ""

inductive DateOutcome where
  | unspecified
  | computed
  | calendarNotHeld
  | outsideCoverage
  | ruleNotHeld
  deriving DecidableEq

structure DateRuleRef where
  kind : DateRuleKind
  subject : String
  version : Int
  deriving DecidableEq

structure DateBasis where
  rule : Option DateRuleRef := Option.none
  calendars : List CalendarRef := []
  deriving DecidableEq

structure CalendarSubject where
  calendarId : String := ""
  countryCode : String := ""
  assetClass : Int := 0
  pair : List String := []
  deriving DecidableEq

structure MissingCalendarDetectedEvent where
  subject : CalendarSubject
  kind : DateRuleKind
  observedAtNs : Int
  deriving DecidableEq

structure ComputeDateReply where
  date : String := ""
  outcome : DateOutcome
  basis : DateBasis
  businessDay : Bool := false
  deriving DecidableEq

/-- What a date read answers, and the miss it reports, if any. -/
structure Answered where
  reply : ComputeDateReply
  missing : Option MissingCalendarDetectedEvent := Option.none
  deriving DecidableEq

def stopped (stop : Stop) (basis : DateBasis) (nowNs : Int) : Answered :=
  match stop with
  | .outside => { reply := { outcome := .outsideCoverage, basis } }
  | .notHeld calendarId =>
    { reply := { outcome := .calendarNotHeld, basis }, missing := some ⟨{ calendarId }, .unspecified, nowNs⟩ }

def ruleNotHeld (subject : CalendarSubject) (kind : DateRuleKind) (nowNs : Int) : Answered :=
  { reply := { outcome := .ruleNotHeld, basis := {} }, missing := some ⟨subject, kind, nowNs⟩ }

def computed (date : Date) (basis : DateBasis) : Answered := { reply := { date := toString date, outcome := .computed, basis } }

/-- A date answered, or why there is none. -/
def answering (worked : Except Stop (Date × DateBasis)) (basis : DateBasis) (nowNs : Int) : Answered :=
  match worked with
  | .ok (date, basis) => computed date basis
  | .error stop => stopped stop basis nowNs

def ruleRef (rule : DateRuleVersion) : DateRuleRef := ⟨rule.kind, rule.subject, rule.version⟩

def dateField (field text : String) : Except String Date :=
  if text.isEmpty then .error (field ++ ": is required, a date YYYY-MM-DD")
  else
    match Date.parse text with
    | some date => .ok date
    | Option.none => .error (field ++ ": " ++ Zone.quote text.toList ++ " is not a date that exists")

def pairField (field : String) (pair : List String) : Except String Unit :=
  match pair with
  | [a, b] =>
    if (Text.trim a).isEmpty ∨ (Text.trim b).isEmpty ∨ a = b then
      .error (field ++ ": names a pair by its two cash instruments' IDs, two and different")
    else .ok ()
  | _ => .error (field ++ ": names a pair by its two cash instruments' IDs, two and different")

def calendarsField (field : String) (calendars : List String) : Except String Unit :=
  if calendars.isEmpty ∨ calendars.any fun id => (Text.trim id).isEmpty then
    .error (field ++ ": names at least one calendar by its ID")
  else .ok ()

/-- A cut's hours and minutes. -/
def cutTime (localTime : String) : Option (Int × Int) :=
  match Zone.splitOnce ':' localTime.toList with
  | some (hours, minutes) =>
    match Zone.readInteger true hours, Zone.readInteger true minutes with
    | some h, some m => if (0 ≤ h ∧ h < 24) ∧ 0 ≤ m ∧ m < 60 then some (h, m) else Option.none
    | _, _ => Option.none
  | Option.none => Option.none

/-- Whether a date is a weekend day of the pair: on any of the rule's counting or spot calendars held, by the weekend in
force then, whatever the calendar lists for the day itself. -/
def pairWeekend (held : Held) (rule : SpotDateRule) (date : Date) : Bool :=
  ((rule.countingCalendars ++ rule.spotCalendars).filterMap fun id => held.calendars[id]?).any fun calendar =>
    (weekendOn calendar date).any fun weekend => decide (weekday date ∈ weekend.weekdays)

/-- A trade date rolled forward past the pair's weekend days, a week of them at most. -/
def pastWeekend (held : Held) (rule : SpotDateRule) : Nat → Date → Option Date
  | 0, trade => some trade
  | more + 1, trade =>
    if pairWeekend held rule trade then (Date.fromDays (trade.daysSinceEpoch + 1)).bind (pastWeekend held rule more)
    else some trade

/-- The trade date of an execution at a moment: its date in the cut's zone, and the next day at or after the cut, then
rolled forward past the pair's weekend days. -/
def tradeDateAt (held : Held) (rule : SpotDateRule) (atNs : Int64) (load : String → Except String Zone) : Except String Date :=
  let outside := "spot.at_ns: is outside the dates a calendar names"
  match rule.cut.filter fun cut => !cut.timeZone.isEmpty with
  | Option.none => .error ("spot.at_ns: the spot-date rule for " ++ "/".intercalate rule.pair ++
      " names no cut, so no moment is read as a trade date; give spot.trade_date")
  | some cut =>
    match cutTime cut.localTime with
    | Option.none => .error ("spot.at_ns: the rule's cut " ++ Zone.quote cut.localTime.toList ++ " does not read")
    | some (hours, minutes) =>
      match load cut.timeZone with
      | .error why => .error ("spot.at_ns: " ++ why)
      | .ok zone =>
        match zone.local_ atNs with
        | Option.none => .error outside
        | some (date, seconds) =>
          match if hours * 3600 + minutes * 60 ≤ seconds then Date.fromDays (date.daysSinceEpoch + 1) else some date with
          | Option.none => .error outside
          | some trade =>
            match pastWeekend held rule 7 trade with
            | Option.none => .error outside
            | some trade => .ok trade

/-- Each currency's spot on the counting calendars that are its own, or name no currency, the later of them. -/
def laterSpot (counting : CalendarSet) (trade : Date) (lag : Int) (later : Option Date) (currency : String) :
    Except Stop (Option Date) :=
  if counting.calendars.any fun calendar => calendar.instrumentId == currency then do
    let own : CalendarSet :=
      ⟨counting.calendars.filter fun calendar => calendar.instrumentId == currency || calendar.instrumentId.isEmpty⟩
    let date ← countForward own trade lag
    return some (match later with
      | some held => max held date
      | Option.none => date)
  else .ok later

/-- A cross's spot counted per currency, the later of them rolled forward to a day good on every counting and spot calendar.
None for a rule counting jointly, or one whose counting calendars name neither currency. -/
def eachCurrency (rule : SpotDateRule) (counting spot : CalendarSet) (trade : Date) (lag : Int) : Except Stop (Option Date) :=
  if rule.countingMode ≠ .eachCurrency then .ok Option.none
  else do
    match ← rule.pair.foldlM (laterSpot counting trade lag) Option.none with
    | Option.none => return Option.none
    | some later =>
      let both : CalendarSet := ⟨spot.calendars.foldl (fun both calendar =>
        if both.any fun held => held.calendarId == calendar.calendarId then both else both ++ [calendar]) counting.calendars⟩
      let date ← step both later 1
      return some date

/-- References with those of another set not among them. -/
def addingRefs (refs more : List CalendarRef) : List CalendarRef :=
  more.foldl (fun refs held => if held ∈ refs then refs else refs ++ [held]) refs

/-- A pair's spot date from a trade date: counted by the lag on the counting calendars, jointly or each currency on its own,
then rolled forward to a day good on the spot calendars. -/
def spotFrom (held : Held) (rule : SpotDateRule) (trade : Date) : Except Stop (Date × List CalendarRef) := do
  let counting ← CalendarSet.of held rule.countingCalendars
  let spot ← CalendarSet.of held rule.spotCalendars
  let date ← match ← eachCurrency rule counting spot trade rule.lagDays with
    | some date => pure date
    | Option.none => do
      let counted ← countForward counting trade rule.lagDays
      step spot counted 1
  return (date, addingRefs counting.refs spot.refs)

inductive TenorUnit where
  | unspecified
  | day
  | week
  | month
  | year
  | overnight
  | tomNext
  | spotNext
  deriving DecidableEq

/-- A spot date moved by months: a month-end spot lands on the target month's last business day under the end-of-month rule. -/
def byMonths (calendars : CalendarSet) (tenorRule : TenorDateRule) (convention : BusinessDayConvention) (spot : Date) (months : Int) :
    Except Stop Date := do
  let target ← addMonths spot months
  if tenorRule.endOfMonth then
    let ends ← monthEnd calendars spot
    if ends = spot then monthEnd calendars target else roll calendars target convention
  else roll calendars target convention

/-- A tenor date from a trade date, computed from spot. The short dates count single business days from the trade date, the
next day and spot. -/
def tenorFrom (held : Held) (rule : SpotDateRule) (trade : Date) (unit : TenorUnit) (count : Int) :
    Except Stop (Date × List CalendarRef) := do
  let (spot, refs) ← spotFrom held rule trade
  let ids := rule.spotCalendars.foldl (fun ids id => if id ∈ ids then ids else ids ++ [id]) rule.countingCalendars
  let both ← CalendarSet.of held ids
  let calendars ← CalendarSet.of held rule.spotCalendars
  let tenorRule := rule.tenorRule.getD {}
  let convention := tenorRule.convention.getD .modifiedFollowing
  let date ← match unit with
    | .overnight => countForward both trade 1
    | .tomNext => do
      let tom ← countForward both trade 1
      countForward both tom 1
    | .spotNext => countForward both spot 1
    | .day => do
      let shifted ← shift spot count
      roll calendars shifted convention
    | .week => do
      let shifted ← shift spot (7 * count)
      roll calendars shifted convention
    | .month => byMonths calendars tenorRule convention spot count
    | .year => byMonths calendars tenorRule convention spot (12 * count)
    | .unspecified => .error .outside
  return (date, addingRefs refs both.refs)

structure SettlementDateInputs where
  instrumentId : String
  tradeDate : String

structure SpotDateInputs where
  pair : List String
  tradeDate : String := ""
  atNs : Int64 := 0

structure TenorDateInputs where
  pair : List String
  tradeDate : String
  /-- The tenor's count and its unit, none where the number names none. -/
  tenor : Option (Int × Option TenorUnit)

structure RollInputs where
  date : String
  convention : Option BusinessDayConvention
  calendars : List String

structure BusinessDayInputs where
  date : String
  calendars : List String

inductive Inputs where
  | settlement (asked : SettlementDateInputs)
  | spot (asked : SpotDateInputs)
  | tenor (asked : TenorDateInputs)
  | roll (asked : RollInputs)
  | businessDay (asked : BusinessDayInputs)

/-- Whether a rule is a market's for settlement, a venue's own where one is named. -/
def settles (market : Market) (venue : String) (rule : DateRuleVersion) : Bool :=
  match rule.parameters with
  | some (.settlement held) => held.countryCode == market.countryCode && held.assetClass == market.assetClass && held.venueId == venue
  | _ => false

/-- A venue's override where it differs, else the market's rule. -/
def settlementRule (held : Held) (market : Market) (trade : Date) : Option DateRuleVersion :=
  let own := if market.venueId.isEmpty then Option.none else held.rule .settlement (some trade) (settles market market.venueId)
  own.or (held.rule .settlement (some trade) (settles market ""))

def forPair (pair : List String) (rule : DateRuleVersion) : Bool :=
  match rule.parameters with
  | some (.spot held) => samePair held.pair pair
  | _ => false

def settle (held : Held) (rule : DateRuleVersion) (parameters : SettlementDateRule) (trade : Date) (nowNs : Int) : Answered :=
  let basis : DateBasis := { rule := some (ruleRef rule) }
  match CalendarSet.of held parameters.countingCalendars with
  | .error stop => stopped stop basis nowNs
  | .ok set => answering ((countForward set trade parameters.lagDays).map fun date => (date, { basis with calendars := set.refs }))
      { basis with calendars := set.refs } nowNs

/-- A date of a pair's spot rule, in force on a trade date. -/
def onSpotRule (held : Held) (pair : List String) (trade : Date) (nowNs : Int)
    (work : SpotDateRule → Except Stop (Date × List CalendarRef)) : Answered :=
  match held.rule .spot (some trade) (forPair pair) with
  | some rule =>
    match rule.parameters with
    | some (.spot parameters) =>
      let basis : DateBasis := { rule := some (ruleRef rule) }
      answering ((work parameters).map fun (date, calendars) => (date, { basis with calendars })) basis nowNs
    | _ => ruleNotHeld { pair } .spot nowNs
  | Option.none => ruleNotHeld { pair } .spot nowNs

/-- Whether a day is good on the calendars named. -/
def businessDayRead (held : Held) (asked : BusinessDayInputs) (date : Date) (nowNs : Int) : Answered :=
  match CalendarSet.of held asked.calendars with
  | .error stop => stopped stop {} nowNs
  | .ok set =>
    match set.standing date with
    | .ok standing =>
      let answer := computed date { calendars := set.refs }
      { answer with reply := { answer.reply with businessDay := standing == .good } }
    | .error stop => stopped stop { calendars := set.refs } nowNs

def rollRead (held : Held) (asked : RollInputs) (date : Date) (convention : BusinessDayConvention) (nowNs : Int) : Answered :=
  match CalendarSet.of held asked.calendars with
  | .error stop => stopped stop {} nowNs
  | .ok set => answering ((roll set date convention).map fun date => (date, { calendars := set.refs })) { calendars := set.refs } nowNs

/-- An instrument's settlement date, on its market's rule. -/
def settlementRead (held : Held) (market : Market) (trade : Date) (nowNs : Int) : Answered :=
  let subject : CalendarSubject := { countryCode := market.countryCode, assetClass := market.assetClass }
  -- Its market is not known: no rule can be named for it, and nothing is guessed.
  if market.countryCode.isEmpty ∨ market.assetClass = 0 then ruleNotHeld subject .settlement nowNs
  else
    match settlementRule held market trade with
    | some rule =>
      match rule.parameters with
      | some (.settlement parameters) => settle held rule parameters trade nowNs
      | _ => ruleNotHeld subject .settlement nowNs
    | Option.none => ruleNotHeld subject .settlement nowNs

/-- A pair's spot date, from the trade date given or from an execution's moment: the rule in force on the moment's UTC date reads
its cut, and the trade date through the cut then chooses again. -/
def spotRead (held : Held) (asked : SpotDateInputs) (given : Option Date) (load : String → Except String Zone) (nowNs : Int) :
    Except String Answered :=
  match given with
  | some trade => .ok (onSpotRule held asked.pair trade nowNs fun rule => spotFrom held rule trade)
  | Option.none =>
    match held.rule .spot (Date.fromDays (asked.atNs.toInt / 86400000000000)) (forPair asked.pair) with
    | some rule =>
      match rule.parameters with
      | some (.spot parameters) =>
        (tradeDateAt held parameters asked.atNs load).map fun trade =>
          onSpotRule held asked.pair trade nowNs fun rule => spotFrom held rule trade
      | _ => .ok (ruleNotHeld { pair := asked.pair } .spot nowNs)
    | Option.none => .ok (ruleNotHeld { pair := asked.pair } .spot nowNs)

/-- One way to work out a date. A malformed input is refused, naming its field; anything else is answered, with its basis, or
with why there is none and the miss to report. -/
def compute (held : Held) (inputs : Option Inputs) (market : String → Option Market) (load : String → Except String Zone)
    (nowNs : Int) : Except String Answered :=
  match inputs with
  | Option.none => .error "inputs: names one question: settlement, spot, tenor, roll or business_day"
  | some (.businessDay asked) => do
    let date ← dateField "business_day.date" asked.date
    calendarsField "business_day.calendars" asked.calendars
    return businessDayRead held asked date nowNs
  | some (.roll asked) => do
    let date ← dateField "roll.date" asked.date
    calendarsField "roll.calendars" asked.calendars
    match asked.convention.filter (· ≠ .unspecified) with
    | Option.none => .error "roll.convention: names how the date rolls"
    | some convention => return rollRead held asked date convention nowNs
  | some (.settlement asked) => do
    if (Text.trim asked.instrumentId).isEmpty then throw "settlement.instrument_id: names the instrument"
    let trade ← dateField "settlement.trade_date" asked.tradeDate
    match market asked.instrumentId with
    | Option.none => .error ("settlement.instrument_id: " ++ asked.instrumentId ++ " is no record this deployment holds")
    | some market => return settlementRead held market trade nowNs
  | some (.spot asked) => do
    pairField "spot.pair" asked.pair
    let given ← if asked.tradeDate.isEmpty then pure Option.none else (dateField "spot.trade_date" asked.tradeDate).map some
    if given.isSome = decide (asked.atNs ≠ 0) then
      throw "spot.trade_date: give a trade date or an execution's moment (spot.at_ns), one of the two"
    spotRead held asked given load nowNs
  | some (.tenor asked) => do
    pairField "tenor.pair" asked.pair
    let trade ← dateField "tenor.trade_date" asked.tradeDate
    match asked.tenor with
    | Option.none => .error "tenor.tenor: names the tenor"
    | some (count, named) =>
      match named.filter (· ≠ .unspecified) with
      | Option.none => .error "tenor.tenor.unit: names the tenor's unit"
      | some unit =>
        let short := decide (unit = .overnight ∨ unit = .tomNext ∨ unit = .spotNext)
        if (short = true ∧ 1 < count) ∨ (short = false ∧ count < 1) then
          throw ("tenor.tenor.count: is " ++ toString count ++ "; a day, week, month or year tenor counts 1 or more, and overnight, " ++
            "tom-next and spot-next count 1")
        return onSpotRule held asked.pair trade nowNs fun rule => tenorFrom held rule trade unit count

end MeridianCore.Calendars
