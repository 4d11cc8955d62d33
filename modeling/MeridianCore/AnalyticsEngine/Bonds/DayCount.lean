import MeridianCore.Domain.DateOrder

/-! Dates as a debt record's terms move them: months added with a coupon schedule's end-of-month rule, and business
days on the record's payment calendar. -/

namespace MeridianCore.AnalyticsEngine.Bonds

/-- Whether a date is its month's last day. -/
def isMonthEnd (date : Date) : Bool := date.day == Date.daysIn date.year date.month

/-- The months before a date's own, from the year nought on. -/
def monthIndex (date : Date) : Int := (date.year : Int) * 12 + date.month - 1

/-- The year of a month, one where it is none the field holds. -/
def yearOf (index : Int) : Nat := if 0 ≤ index / 12 ∧ index / 12 ≤ 65535 then (index / 12).toNat else 1

def monthOf (index : Int) : Nat := (index % 12 + 1).toNat

/-- The day of a month a date is moved to: its own where the month has it, the month's last where it does not, or
always where `endOfMonth` holds. -/
def dayIn (date : Date) (endOfMonth : Bool) (index : Int) : Nat :=
  let last := Date.daysIn (yearOf index) (monthOf index)
  if endOfMonth then last else min date.day last

/-- `date` moved by `months`: itself where the calendar has no such month. -/
def addMonths (date : Date) (months : Int) (endOfMonth : Bool) : Date :=
  let index := monthIndex date + months
  (Date.fromYmd (yearOf index) (monthOf index) (dayIn date endOfMonth index)).getD date

/-- Calendar days from `start` to `stop`. -/
def days (start stop : Date) : Int := stop.daysSinceEpoch - start.daysSinceEpoch

/-- The date `n` calendar days on. -/
def plusDays (date : Date) (n : Int) : Date := (Date.fromDays (date.daysSinceEpoch + n)).getD date

/-- Monday one to Sunday seven. -/
def weekday (date : Date) : Int := (date.daysSinceEpoch + 3) % 7 + 1

/-- How a date rolls on a calendar. -/
inductive Roll where
  | following
  | modifiedFollowing
  | preceding
  | unadjusted
  deriving DecidableEq

/-- A payment calendar: its holidays, weekends always closed. -/
structure Calendar where
  holidays : List Date := []

namespace Calendar

def isBusiness (calendar : Calendar) (date : Date) : Bool := weekday date ≤ 5 && !calendar.holidays.contains date

/-- The first business day stepping so many days at a time from a date, in so many steps. -/
def step (calendar : Calendar) (by_ : Int) : Nat → Date → Option Date
  | 0, _ => none
  | fuel + 1, at_ => if calendar.isBusiness at_ then some at_ else step calendar by_ fuel (plusDays at_ by_)

/-- `date` rolled, in so many steps each way. -/
def adjust (calendar : Calendar) (fuel : Nat) (date : Date) (roll : Roll) : Option Date :=
  match roll with
  | .unadjusted => some date
  | .following => calendar.step 1 fuel date
  | .preceding => calendar.step (-1) fuel date
  | .modifiedFollowing => do
    let on ← calendar.step 1 fuel date
    if on.month = date.month then return on else calendar.step (-1) fuel date

end Calendar

/-- A month the calendar has, of a year from one to 9999. -/
def InCalendar (index : Int) : Prop := 12 ≤ index ∧ index < 120000

instance (index : Int) : Decidable (InCalendar index) := inferInstanceAs (Decidable (12 ≤ index ∧ index < 120000))

section
variable {date a b : Date} {months index : Int} {endOfMonth : Bool}

theorem inCalendar_monthIndex (date : Date) : InCalendar (monthIndex date) := by
  have years := date.holds.1
  have months := date.holds.2.1
  unfold InCalendar monthIndex
  omega

theorem monthOf_range (index : Int) : 1 ≤ monthOf index ∧ monthOf index ≤ 12 := by
  unfold monthOf
  omega

theorem yearOf_eq (inside : InCalendar index) : (yearOf index : Int) = index / 12 ∧ 1 ≤ yearOf index ∧ yearOf index ≤ 9999 := by
  unfold InCalendar at inside
  unfold yearOf
  rw [if_pos (by omega)]
  omega

theorem dayIn_range (date : Date) (endOfMonth : Bool) (index : Int) :
    1 ≤ dayIn date endOfMonth index ∧ dayIn date endOfMonth index ≤ Date.daysIn (yearOf index) (monthOf index) := by
  have least := Date.daysIn_le (yearOf index) (monthOf index)
  have own := date.holds.2.2.1
  unfold dayIn
  dsimp only
  split_ifs
  · omega
  · omega

/-- A date moved inside the calendar is on its month, and on the day the rule gives. -/
theorem addMonths_fields (inside : InCalendar (monthIndex date + months)) :
    (addMonths date months endOfMonth).year = yearOf (monthIndex date + months) ∧
      (addMonths date months endOfMonth).month = monthOf (monthIndex date + months) ∧
      (addMonths date months endOfMonth).day = dayIn date endOfMonth (monthIndex date + months) := by
  have holds : Date.Exists (yearOf (monthIndex date + months)) (monthOf (monthIndex date + months))
      (dayIn date endOfMonth (monthIndex date + months)) :=
    ⟨(yearOf_eq inside).2, monthOf_range _, dayIn_range _ _ _⟩
  unfold addMonths Date.fromYmd
  dsimp only
  rw [dif_pos holds]
  exact ⟨rfl, rfl, rfl⟩

theorem monthIndex_addMonths (inside : InCalendar (monthIndex date + months)) :
    monthIndex (addMonths date months endOfMonth) = monthIndex date + months := by
  obtain ⟨year, month, -⟩ := @addMonths_fields date months endOfMonth inside
  have years := yearOf_eq inside
  unfold monthIndex at *
  rw [year, month]
  unfold monthOf
  omega

/-- A date moved out of the calendar by no more than a year is where it was. -/
theorem addMonths_outside (outside : ¬ InCalendar (monthIndex date + months)) (low : 0 ≤ monthIndex date + months)
    (high : monthIndex date + months < 786432) : addMonths date months endOfMonth = date := by
  unfold addMonths Date.fromYmd
  dsimp only
  rw [dif_neg]
  · rfl
  · rintro ⟨⟨least, most⟩, -⟩
    unfold InCalendar at outside
    unfold yearOf at least most
    split_ifs at least most <;> omega

/-- Dates of earlier months are earlier. -/
theorem lt_of_monthIndex (below : monthIndex a < monthIndex b) : a < b := by
  rw [Date.lt_iff]
  have months := a.holds.2.1
  have months' := b.holds.2.1
  unfold monthIndex at below
  omega

/-- Dates of one month are in the order of their days. -/
theorem lt_iff_of_monthIndex (same : monthIndex a = monthIndex b) : a < b ↔ a.day < b.day := by
  rw [Date.lt_iff]
  have months := a.holds.2.1
  have months' := b.holds.2.1
  unfold monthIndex at same
  omega

theorem eq_of_monthIndex (same : monthIndex a = monthIndex b) (day : a.day = b.day) : a = b := by
  refine Date.fields_injective ?_
  have months := a.holds.2.1
  have months' := b.holds.2.1
  unfold monthIndex at same
  have year : a.year = b.year := by omega
  have month : a.month = b.month := by omega
  rw [Date.fields, Date.fields, year, month, day]

theorem days_pos_iff : 0 < days a b ↔ a < b := by
  rw [days, sub_pos, Date.daysSinceEpoch_lt_iff]

theorem days_nonneg_iff : 0 ≤ days a b ↔ a ≤ b := by
  rw [days, sub_nonneg, Date.daysSinceEpoch_le_iff]

@[simp] theorem days_self (date : Date) : days date date = 0 := by simp [days]

theorem days_add (a b c : Date) : days a b + days b c = days a c := by
  unfold days
  omega

end

end MeridianCore.AnalyticsEngine.Bonds

/-! Day counts, exact: each a period's year fraction. -/

namespace MeridianCore.AnalyticsEngine.Bonds

/-- A day count by its contract value's name. -/
inductive DayCount where
  | thirty360BondBasis
  | thirty360Sia
  | thirty360M
  | thirtyE360
  | thirtyE360Isda
  | thirtyEPlus360
  | act360
  | act364
  | act365Fixed
  | act365L
  | nl360
  | nl365
  | actActIcma
  | actActIsda
  | oneOne
  deriving DecidableEq

/-- `n / d`, exact. -/
def ratio (n d : Int) : ℚ := n / d

/-- The twenty-ninth of a February after `start` and up to and including `stop`. -/
def leapDay (start stop : Date) (year : Nat) : Bool :=
  match Date.fromYmd year 2 29 with
  | some leap => start < leap && leap ≤ stop
  | none => false

/-- February 29ths after `start` up to and including `stop`. -/
def leapDays (start stop : Date) : Nat :=
  (List.range' start.year (stop.year + 1 - start.year)).countP (leapDay start stop)

/-- The days of a year of twelve 30-day months between two of its dates. -/
def thirty (y₁ m₁ d₁ y₂ m₂ d₂ : Int) : Int := 360 * (y₂ - y₁) + 30 * (m₂ - m₁) + (d₂ - d₁)

def februaryEnd (date : Date) : Bool := date.month == 2 && isMonthEnd date

namespace DayCount

/-- Whether the count is one of the 30/360 family. -/
def isThirty : DayCount → Bool
  | thirty360BondBasis | thirty360Sia | thirty360M | thirtyE360 | thirtyE360Isda | thirtyEPlus360 => true
  | _ => false

/-- The days from `start` to `stop` as the count counts them; `maturity` is the bond's, for 30E/360 (ISDA)'s February
rule. -/
def days (count : DayCount) (start stop : Date) (maturity : Option Date) : Int :=
  let y₁ : Int := start.year
  let m₁ : Int := start.month
  let d₁ : Int := start.day
  let y₂ : Int := stop.year
  let m₂ : Int := stop.month
  let d₂ : Int := stop.day
  match count with
  | thirty360BondBasis | thirty360M =>
    let d₁ := if d₁ = 31 then 30 else d₁
    let d₂ := if d₂ = 31 ∧ d₁ = 30 then 30 else d₂
    thirty y₁ m₁ d₁ y₂ m₂ d₂
  | thirty360Sia =>
    let d₂ := if februaryEnd start ∧ februaryEnd stop then 30 else d₂
    let d₁ := if februaryEnd start then 30 else d₁
    let d₂ := if d₂ = 31 ∧ 30 ≤ d₁ then 30 else d₂
    let d₁ := if d₁ = 31 then 30 else d₁
    thirty y₁ m₁ d₁ y₂ m₂ d₂
  | thirtyE360 => thirty y₁ m₁ (min d₁ 30) y₂ m₂ (min d₂ 30)
  | thirtyE360Isda =>
    let d₁ := if isMonthEnd start then 30 else d₁
    let d₂ := if isMonthEnd stop ∧ ¬ (some stop = maturity ∧ stop.month = 2) then 30 else d₂
    thirty y₁ m₁ d₁ y₂ m₂ d₂
  | thirtyEPlus360 =>
    let d₁ := if d₁ = 31 then 30 else d₁
    if d₂ = 31 then
      -- The first of the next month stands for a month's thirty-first.
      if m₂ = 12 then thirty y₁ m₁ d₁ (y₂ + 1) 1 1 else thirty y₁ m₁ d₁ y₂ (m₂ + 1) 1
    else thirty y₁ m₁ d₁ y₂ m₂ d₂
  | nl360 | nl365 => Bonds.days start stop - leapDays start stop
  | _ => Bonds.days start stop

/-- Actual/actual (ISDA)'s fraction, by calendar year: so many years begun, from a date to another. -/
def isda : Nat → Date → Date → ℚ
  | 0, _, _ => 0
  | years + 1, at_, stop =>
    if at_ < stop then
      let yearEnd := (Date.fromYmd (at_.year + 1) 1 1).getD stop
      let until_ := if yearEnd < stop then yearEnd else stop
      let basis := if Date.daysIn at_.year 2 = 29 then 366 else 365
      ratio (Bonds.days at_ until_) basis + isda years until_ stop
    else 0

/-- The year fraction from `start` to `stop`, exact: `period` the regular coupon period the days fall in and the
payments a year, `maturity` the bond's. -/
def fraction (count : DayCount) (start stop : Date) (period : Option (Date × Date × Nat)) (maturity : Option Date) : ℚ :=
  let n := count.days start stop maturity
  match count with
  | oneOne => ratio 1 1
  | act360 | nl360 => ratio n 360
  | act364 => ratio n 364
  | act365Fixed | nl365 => ratio n 365
  | act365L =>
    let leap := match period with
      | some (_, _, 1) => decide (0 < leapDays start stop)
      | _ => Date.daysIn stop.year 2 == 29
    ratio n (if leap then 366 else 365)
  | actActIcma =>
    match period with
    | some (from_, to_, frequency) =>
      if 0 < frequency then ratio n (Bonds.days from_ to_ * frequency) else ratio n 365
    | none => ratio n 365
  | actActIsda => isda (stop.year + 1 - start.year) start stop
  | _ => ratio n 360

end DayCount

end MeridianCore.AnalyticsEngine.Bonds
