import MeridianCore.AnalyticsEngine.Bonds.DayCount

/-! A debt record's schedule and cash flows. The coupon dates run back from maturity by the frequency's months, each
reckoned from maturity, down to the first coupon date. A loop of the source that may not end is given so many steps,
and answers nothing where they run out. -/

namespace MeridianCore.AnalyticsEngine.Bonds

/-- One coupon period: its accrual dates, its payment date rolled, its annual rate in percent and its coupon per 100 of
face. -/
structure Period where
  start : Date
  stop : Date
  paid : Date
  rate : ℚ
  coupon : ℚ
  /-- Whether it is a whole regular period. -/
  regular : Bool

/-- A fixed, step or zero coupon schedule. -/
structure Schedule where
  periods : List Period
  maturity : Date
  frequency : UInt32
  dayCount : DayCount
  endOfMonth : Bool
  accruesFrom : Date

/-- What a schedule is built from. -/
structure Shape where
  accruesFrom : Date
  firstCoupon : Option Date
  maturity : Date
  frequency : UInt32
  dayCount : DayCount
  endOfMonth : Bool
  /-- The annual rate in percent; each step a rate from its date. -/
  rate : ℚ
  steps : List (Date × ℚ) := []
  calendar : Calendar := {}
  roll : Roll

/-- The months between regular coupon dates: the frequency read as a signed number, as the code casts it. -/
def months (frequency : UInt32) : Int := (12 : Int).tdiv (BitVec.toInt (max frequency 1).toBitVec)

namespace Shape

def regular (shape : Shape) (k : Nat) : Date :=
  addMonths shape.maturity (-k * months shape.frequency) shape.endOfMonth

/-- The step in force from a date: the last of the latest that are. -/
def stepAt (start : Date) (held : Option (Date × ℚ)) (step : Date × ℚ) : Option (Date × ℚ) :=
  if step.1 ≤ start then
    match held with
    | some before => if before.1 ≤ step.1 then some step else some before
    | none => some step
  else held

/-- The rate in force over a period from `start`. -/
def rateAt (shape : Shape) (start : Date) : ℚ :=
  ((shape.steps.foldl (stepAt start) none).map Prod.snd).getD shape.rate

/-- The regular dates from the `k`th back that are after the floor and the accrual's start, pushed in turn. -/
def regularEnds (shape : Shape) (floor : Date) : Nat → Nat → List Date → Option (List Date)
  | 0, _, _ => none
  | fuel + 1, k, ends =>
    let date := shape.regular k
    if date ≤ floor ∨ date ≤ shape.accruesFrom then some ends
    else shape.regularEnds floor fuel (k + 1) (ends ++ [date])

/-- The ends of a schedule's periods, in order. -/
def ends (shape : Shape) (fuel : Nat) : Option (List Date) :=
  if 0 < shape.frequency then do
    let floor := shape.firstCoupon.getD shape.accruesFrom
    let ends ← shape.regularEnds floor fuel 0 []
    let ends := match shape.firstCoupon with
      | some first => if shape.accruesFrom < first ∧ first ∉ ends then ends ++ [first] else ends
      | none => ends
    return ends.insertionSort (· ≤ ·)
  -- Paid at maturity: one period, dated to maturity.
  else if shape.accruesFrom < shape.maturity then some [shape.maturity]
  else some []

/-- The first regular date back, from the `k`th, that is not after `stop`. -/
def backTo (shape : Shape) (stop : Date) : Nat → Nat → Option Nat
  | 0, _ => none
  | fuel + 1, k => if stop < shape.regular k then shape.backTo stop fuel (k + 1) else some k

/-- The regular date before `stop` on the maturity's schedule. -/
def regularBack (shape : Shape) (fuel : Nat) (stop : Date) : Option Date := do
  let k ← shape.backTo stop fuel 0
  if shape.regular k = stop then return shape.regular (k + 1)
  else return addMonths stop (-months shape.frequency) shape.endOfMonth

/-- Whether a whole regular period pays exactly the rate over the frequency. -/
def wholePeriodPaysRateOverFrequency (shape : Shape) : Bool :=
  shape.dayCount == .actActIcma || shape.dayCount.isThirty

/-- The part of a quasi-coupon period that falls between two dates, as a fraction of a year. -/
def overlap (shape : Shape) (from_ to_ start stop : Date) : ℚ :=
  let lo := if from_ < start then start else from_
  let hi := if stop < to_ then stop else to_
  if lo < hi then ratio (days lo hi) (days start stop * shape.frequency.toNat) else 0

/-- The quasi-coupon periods back from a date, so many at most, the parts of them between two dates summed. -/
def quasi (shape : Shape) (from_ to_ : Date) : Nat → Date → ℚ → ℚ
  | 0, _, total => total
  | guard + 1, stop, total =>
    if from_ < stop then
      let start := addMonths stop (-months shape.frequency) shape.endOfMonth
      shape.quasi from_ to_ guard start (total + shape.overlap from_ to_ start stop)
    else total

/-- The year fraction from `from_` to `to_` within the period ending `anchor`: on actual/actual (ICMA) summed over the
quasi-coupon periods ending at `anchor`, the day count's own fraction otherwise. -/
def fraction (shape : Shape) (from_ to_ anchor : Date) : ℚ :=
  if shape.dayCount ≠ .actActIcma ∨ shape.frequency = 0 then
    shape.dayCount.fraction from_ to_ none (some shape.maturity)
  else shape.quasi from_ to_ 1000 anchor 0

/-- The period from `start` to `stop`. -/
def period (shape : Shape) (fuel : Nat) (start stop : Date) : Option Period := do
  let rate := shape.rateAt start
  let regular ← if 0 < shape.frequency then (shape.regularBack fuel stop).map (· == start) else some false
  let paid ← shape.calendar.adjust fuel stop shape.roll
  return {
    start
    stop
    paid
    rate
    coupon :=
      if rate = 0 then 0
      else if regular && shape.wholePeriodPaysRateOverFrequency then rate / shape.frequency.toNat
      else rate * shape.fraction start stop stop
    regular }

/-- A period to each end, each from where the one before it ends. -/
def periodsFrom (shape : Shape) (fuel : Nat) : Date → List Date → Option (List Period)
  | _, [] => some []
  | start, stop :: rest => do
    let period ← shape.period fuel start stop
    let later ← shape.periodsFrom fuel stop rest
    return period :: later

/-- The schedule, each of the source's loops given so many steps. -/
def build (shape : Shape) (fuel : Nat) : Option Schedule := do
  let ends ← shape.ends fuel
  let periods ← shape.periodsFrom fuel shape.accruesFrom ends
  return {
    periods
    maturity := shape.maturity
    frequency := shape.frequency
    dayCount := shape.dayCount
    endOfMonth := shape.endOfMonth
    accruesFrom := shape.accruesFrom }

end Shape

/-- The period a settlement date falls in, on or after its start and before its end. -/
def Schedule.periodAt (schedule : Schedule) (settle : Date) : Option Period :=
  schedule.periods.find? fun period => period.start ≤ settle && settle < period.stop

/-- Accrued interest per 100 of face at `settle`, exact. -/
def accrued (shape : Shape) (schedule : Schedule) (settle : Date) : ℚ :=
  match schedule.periodAt settle with
  | none => 0
  | some period =>
    if period.coupon = 0 then 0
    else if period.regular && shape.wholePeriodPaysRateOverFrequency then
      -- A whole period's coupon times the part of the period run, as the day count counts it.
      let run := shape.dayCount.days period.start settle (some shape.maturity)
      let whole := if shape.dayCount.isThirty then 360 / max (shape.frequency.toNat : Int) 1
        else days period.start period.stop
      period.coupon * ratio run whole
    else period.rate * shape.fraction period.start settle period.stop

/-- One cash flow per 100 of face: its date, unadjusted, and amount. -/
structure Flow where
  date : Date
  amount : ℚ

/-- The coupons after `settle` and by `on`, and of a period cut short at `on` its interest to that date. -/
def interestTo (shape : Shape) (settle on : Date) : List Period → List Flow
  | [] => []
  | period :: rest =>
    if period.stop ≤ settle then interestTo shape settle on rest
    else if period.stop ≤ on then
      if period.coupon ≠ 0 then ⟨period.stop, period.coupon⟩ :: interestTo shape settle on rest
      else interestTo shape settle on rest
    else if period.start < on then
      let part := period.rate * shape.fraction period.start on period.stop
      if part ≠ 0 then [⟨on, part⟩] else []
    else []

/-- The price added to what is paid on its date, or paid on it. -/
def withPrice (on : Date) (price : ℚ) : List Flow → List Flow
  | [] => [⟨on, price⟩]
  | [last] => if last.date = on then [⟨on, last.amount + price⟩] else [last, ⟨on, price⟩]
  | flow :: next :: rest => flow :: withPrice on price (next :: rest)

/-- The flows after `settle` to a redemption on `on` at `price` per 100. -/
def flowsTo (shape : Shape) (schedule : Schedule) (settle on : Date) (price : ℚ) : List Flow :=
  withPrice on price (interestTo shape settle on schedule.periods)

end MeridianCore.AnalyticsEngine.Bonds
