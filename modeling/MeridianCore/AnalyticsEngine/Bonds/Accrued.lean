import MeridianCore.AnalyticsEngine.Bonds.ActualDays
import MeridianCore.AnalyticsEngine.Bonds.Partition
import MeridianCore.AnalyticsEngine.Bonds.Flows

/-! Accrued interest on the counts of actual days: from nothing at a period's start to its coupon at its end, and the
interest of a redemption inside it. The coupon, the accrued interest and the redemption's part are three computations; when
they are parts of one amount is decided by the sign of the rate, 365L's leap years and the regular date a whole period on
actual/actual (ICMA) starts on. -/

namespace MeridianCore.AnalyticsEngine.Bonds

variable {shape : Shape} {schedule : Schedule} {period : Period} {a b d start stop anchor : Date} {fuel : Nat}

namespace Shape

theorem positive_of_back (earlier : shape.back stop < stop) : 0 < months shape.frequency := by
  by_contra still
  exact absurd (le_back (not_lt.mp still) stop) (not_le.mpr earlier)

/-- Inside the last quasi-coupon period a fraction is its days over that period's. -/
theorem fraction_last (icma : shape.dayCount = .actActIcma) (paid : 0 < shape.frequency) (earlier : shape.back stop < stop)
    (first : shape.back stop ≤ a) (before : a ≤ b) (last : b ≤ stop) :
    shape.fraction a b stop = (days a b : ℚ) / (days (shape.back stop) stop * shape.frequency.toNat) := by
  have positive := positive_of_back earlier
  have rest : ∀ k ∈ Finset.range 1000, k ≠ 0 →
      shape.overlap a b (shape.stepped stop (k + 1)) (shape.stepped stop k) = 0 := by
    intro k _ later
    have back : shape.stepped stop 1 = shape.back stop := rfl
    exact overlap_after before ((stepped_le positive (Nat.one_le_iff_ne_zero.mpr later)).trans (back ▸ first))
  rw [fraction_icma icma paid before, Finset.sum_eq_single_of_mem 0 (by simp) rest]
  change shape.overlap a b (shape.back stop) stop = _
  rw [overlap_eq before, inside, inside, min_eq_right (before.trans last), min_eq_right last, max_eq_right first,
    max_eq_right (first.trans before), ratio]
  push_cast
  rfl

theorem fraction_self (actual : shape.dayCount.isActual = true) (date anchor : Date) : shape.fraction date date anchor = 0 := by
  by_cases count : shape.dayCount = .act365L
  · rw [fraction_365L count, days_self]
    simp [ratio]
  · have twice : shape.fraction date date anchor + shape.fraction date date anchor = shape.fraction date date anchor :=
      (fraction_steps actual count (le_refl date) (le_refl date)).1
    linarith

/-- On an actual count a fraction from a period's start grows, where no leap year begins far into a period on 365L. -/
theorem fraction_mono (actual : shape.dayCount.isActual = true) (near : shape.dayCount = .act365L → LeapNear start stop)
    (early : start ≤ a) (before : a ≤ b) (late : b ≤ stop) :
    shape.fraction start a anchor ≤ shape.fraction start b anchor := by
  by_cases count : shape.dayCount = .act365L
  · rw [fraction_365L count, fraction_365L count]
    exact ratio_yearDays_mono (near count) early before late
  · have whole : shape.fraction start a anchor + shape.fraction a b anchor = shape.fraction start b anchor :=
      (fraction_steps actual count early before).1
    have rest : 0 ≤ shape.fraction a b anchor := (fraction_steps actual count before le_rfl).2
    linarith

theorem fraction_nonneg (actual : shape.dayCount.isActual = true) (before : a ≤ b) : 0 ≤ shape.fraction a b anchor := by
  by_cases count : shape.dayCount = .act365L
  · rw [fraction_365L count]
    rcases before.eq_or_lt with rfl | below
    · rw [days_self]
      simp [ratio]
    · exact (ratio_year_pos below _).le
  · exact (fraction_steps actual count before le_rfl).2

/-- A month's last day is where a schedule that keeps to month ends has its regular dates, or the calendar has none. -/
theorem regular_late (keeps : shape.endOfMonth = true) (k : Nat) :
    shape.regular k = shape.maturity ∨ 28 ≤ (shape.regular k).day := by
  unfold regular addMonths
  dsimp only
  rw [keeps]
  cases made : Date.fromYmd (yearOf (monthIndex shape.maturity + -k * months shape.frequency))
      (monthOf (monthIndex shape.maturity + -k * months shape.frequency))
      (dayIn shape.maturity true (monthIndex shape.maturity + -k * months shape.frequency)) with
  | none => exact .inl rfl
  | some date =>
    rw [Option.getD_some, (fromYmd_fields made).2.2, dayIn, if_pos rfl]
    exact .inr (Date.daysIn_le _ _).1

/-- Every month has its first twenty-eight days. -/
theorem exists_onDay (date : Date) (day : Nat) (least : 1 ≤ day) (most : day ≤ 28) :
    ∃ other : Date, monthIndex other = monthIndex date ∧ other.day = day :=
  ⟨⟨date.year, date.month, day, date.holds.1, date.holds.2.1, least, most.trans (Date.daysIn_le _ _).1⟩, rfl, rfl⟩

/-- A date a month's step leads back to from another is not the day before it, unless the schedule keeps to month ends and
the other is a month's first. -/
theorem exists_between (earlier : shape.back stop < stop) (apart : ¬ (shape.endOfMonth = true ∧ stop.day = 1)) :
    ∃ d, shape.back stop < d ∧ d < stop := by
  have inside : InCalendar (monthIndex stop + -months shape.frequency) := by
    by_contra outside
    exact absurd (back_outside outside) earlier.ne
  have positive := positive_of_back earlier
  have month : monthIndex (shape.back stop) = monthIndex stop + -months shape.frequency := monthIndex_addMonths inside
  by_cases first : stop.day = 1
  · have own : shape.endOfMonth = false := Bool.eq_false_iff.mpr fun keeps => apart ⟨keeps, first⟩
    have day : (shape.back stop).day = 1 := by
      have least := Date.daysIn_le (yearOf (monthIndex stop + -months shape.frequency))
        (monthOf (monthIndex stop + -months shape.frequency))
      rw [back, (addMonths_fields inside).2.2, dayIn, own, if_neg Bool.false_ne_true, first]
      omega
    obtain ⟨second, held, two⟩ := exists_onDay (shape.back stop) 2 (by decide) (by decide)
    refine ⟨second, ?_, lt_of_monthIndex (by omega)⟩
    rw [lt_iff_of_monthIndex held.symm, day, two]
    exact Nat.one_lt_two
  · obtain ⟨one, held, day⟩ := exists_onDay stop 1 le_rfl (by decide)
    refine ⟨one, lt_of_monthIndex (by omega), ?_⟩
    have least := stop.holds.2.2.1
    rw [lt_iff_of_monthIndex held, day]
    omega

/-- A whole period does not end on a month's first on a schedule that keeps to month ends, but where it starts on the
quasi-coupon date before. -/
theorem back_of_first (regular : shape.regularBack fuel stop = some start) (keeps : shape.endOfMonth = true) (day : stop.day = 1)
    (earlier : shape.back stop < stop) : shape.back stop = start := by
  obtain ⟨k, searched, held⟩ := Option.bind_eq_some_iff.mp regular
  by_cases same : shape.regular k = stop
  · rw [backTo_eq] at searched
    obtain ⟨n, first, moved⟩ := firstStop_of_search searched
    rw [iterate_succ_zero] at moved
    subst moved
    have inside : InCalendar (monthIndex stop + -months shape.frequency) := by
      by_contra outside
      exact absurd (back_outside outside) earlier.ne
    have matures : shape.maturity = stop := by
      rcases shape.regular_late keeps n with at_ | late
      · exact at_.symm.trans same
      · rw [same] at late
        omega
    have index : shape.gridIndex 1 = monthIndex stop + -months shape.frequency := by
      rw [gridIndex, matures]
      simp
    have month : monthIndex (shape.regular 1) < monthIndex stop := by
      have positive := positive_of_back earlier
      rw [monthIndex_regular (index ▸ inside), index]
      omega
    have some' : n ≠ 0 := by
      rintro rfl
      have least := Date.daysIn_le shape.maturity.year shape.maturity.month
      have zero := shape.day_regular_zero
      rw [same, if_pos keeps] at zero
      omega
    rcases (Nat.one_le_iff_ne_zero.mpr some').eq_or_lt with rfl | more
    · rw [same] at month
      exact absurd month (lt_irrefl _)
    · have passed := first.2 1 more
      rw [iterate_succ_zero, decide_eq_false_iff_not, not_le] at passed
      exact absurd (lt_of_monthIndex month) passed.not_gt
  · rw [if_neg same] at held
    exact Option.some.inj held

end Shape

/-- Whether a period is a whole one whose coupon is the rate over the frequency, on actual/actual (ICMA). -/
def Whole (shape : Shape) (period : Period) : Prop := shape.dayCount = .actActIcma ∧ period.regular = true

instance (shape : Shape) (period : Period) : Decidable (Whole shape period) :=
  inferInstanceAs (Decidable (_ ∧ _))

theorem whole_iff (actual : shape.dayCount.isActual = true) (period : Period) :
    (period.regular && shape.wholePeriodPaysRateOverFrequency) = true ↔ Whole shape period := by
  have other : shape.dayCount.isThirty = false := by
    cases count : shape.dayCount <;> rw [count] at actual <;> first | rfl | exact absurd actual Bool.false_ne_true
  rw [Shape.wholePeriodPaysRateOverFrequency, other, Bool.or_false, Bool.and_eq_true, beq_iff_eq, and_comm]
  rfl

/-- The interest accrued in a period at a date of it. -/
def accruedIn (shape : Shape) (period : Period) (date : Date) : ℚ :=
  if period.coupon = 0 then 0
  else if Whole shape period then period.coupon * ratio (days period.start date) (days period.start period.stop)
  else partTo shape date period

theorem accrued_eq (actual : shape.dayCount.isActual = true) (built : shape.build fuel = some schedule)
    (member : period ∈ schedule.periods) (starts : period.start ≤ d) (ends : d < period.stop) :
    accrued shape schedule d = accruedIn shape period d := by
  rw [accrued, periodAt_of_mem built member starts ends, accruedIn]
  dsimp only
  by_cases nothing : period.coupon = 0
  · rw [if_pos nothing, if_pos nothing]
  · rw [if_neg nothing, if_neg nothing]
    by_cases whole : Whole shape period
    · have count := whole.1
      rw [if_pos ((whole_iff actual period).mpr whole), if_pos whole, count]
      rfl
    · rw [if_neg (mt (whole_iff actual period).mp whole), if_neg whole]
      rfl

/-- A period of a schedule as it was built: its coupon, and where it starts if it is regular. -/
theorem period_of_build (built : shape.build fuel = some schedule) (member : period ∈ schedule.periods) :
    period.coupon = shape.couponOf period.start period.stop period.regular ∧ period.rate = shape.rateAt period.start ∧
      shape.marked fuel period.start period.stop = some period.regular := by
  obtain ⟨ends, -, made⟩ := Shape.build_some built
  obtain ⟨-, -, own⟩ := Shape.periodsFrom_some made
  obtain ⟨-, -, rate, coupon, marked, -⟩ := Shape.period_made (own period member)
  exact ⟨coupon, rate, marked⟩

theorem Whole.paid (built : shape.build fuel = some schedule) (member : period ∈ schedule.periods) (whole : Whole shape period) :
    0 < shape.frequency := by
  obtain ⟨-, -, marked⟩ := period_of_build built member
  by_contra unpaid
  rw [Shape.marked, if_neg unpaid, whole.2] at marked
  cases marked

/-- The days of a whole period run over its own, of its coupon. -/
theorem accruedIn_whole (whole : Whole shape period) (date : Date) : accruedIn shape period date =
    period.coupon * ((days period.start date : ℚ) / days period.start period.stop) := by
  rw [accruedIn, if_pos whole]
  split_ifs with nothing
  · rw [nothing, zero_mul]
  · rfl

/-- The coupon of a period on an actual count. -/
theorem coupon_eq (actual : shape.dayCount.isActual = true) (built : shape.build fuel = some schedule)
    (member : period ∈ schedule.periods) : period.coupon =
      if Whole shape period then period.rate / shape.frequency.toNat else partTo shape period.stop period := by
  obtain ⟨coupon, rate, -⟩ := period_of_build built member
  rw [coupon, Shape.couponOf, ← rate, partTo]
  by_cases nothing : period.rate = 0
  · rw [if_pos nothing, nothing]
    simp
  · rw [if_neg nothing]
    by_cases whole : Whole shape period
    · rw [if_pos ((whole_iff actual period).mpr whole), if_pos whole]
    · rw [if_neg (mt (whole_iff actual period).mp whole), if_neg whole]

/-- Accrued interest runs from nothing to the coupon, and a redemption inside the period pays what has accrued. -/
structure Accrues (shape : Shape) (schedule : Schedule) (period : Period) : Prop where
  starts : accrued shape schedule period.start = 0
  grows : ∀ s d, period.start ≤ s → s ≤ d → d < period.stop → accrued shape schedule s ≤ accrued shape schedule d
  bounded : ∀ d, period.start ≤ d → d < period.stop → accrued shape schedule d ≤ period.coupon
  redeemed : ∀ settle d price, period.start ≤ settle → settle ≤ d → d < period.stop →
    ((flowsTo shape schedule settle d price).map Flow.amount).sum = accrued shape schedule d + price

/-- What a period on an actual count needs for its interest to accrue so: no rate, no part of a year in it, or a rate above
nothing, no leap year far into it on 365L, and, a regular one on actual/actual (ICMA) with a date inside it, a start on the
quasi-coupon date before its end. -/
def Accruable (shape : Shape) (period : Period) : Prop :=
  period.rate = 0 ∨ (¬ Whole shape period ∧ shape.Idle period.start period.stop) ∨
    (0 < period.rate ∧ (shape.dayCount = .act365L → LeapNear period.start period.stop) ∧
      (Whole shape period → ∀ d, period.start < d → d < period.stop → shape.back period.stop = period.start))

section
variable (actual : shape.dayCount.isActual = true) (built : shape.build fuel = some schedule)
  (member : period ∈ schedule.periods) (before : period.start < period.stop)
include actual built member before

/-- How a period accrues, in its own terms. -/
theorem accrues_iff : Accrues shape schedule period ↔ accruedIn shape period period.start = 0 ∧
    (∀ s d, period.start ≤ s → s ≤ d → d < period.stop → accruedIn shape period s ≤ accruedIn shape period d) ∧
    (∀ d, period.start ≤ d → d < period.stop → accruedIn shape period d ≤ period.coupon) ∧
    ∀ d, period.start < d → d < period.stop → partTo shape d period = accruedIn shape period d := by
  have same : ∀ d, period.start ≤ d → d < period.stop → accrued shape schedule d = accruedIn shape period d :=
    fun d starts ends => accrued_eq actual built member starts ends
  constructor
  · rintro ⟨starts, grows, bounded, redeemed⟩
    refine ⟨?_, fun s d early le late => ?_, fun d early late => ?_, fun d early late => ?_⟩
    · rw [← same _ le_rfl before, starts]
    · rw [← same s early (le.trans_lt late), ← same d (early.trans le) late]
      exact grows s d early le late
    · rw [← same d early late]
      exact bounded d early late
    · have paid := redeemed period.start d 0 le_rfl early.le late
      rw [flowsTo_inside built member le_rfl early.le late, if_pos early, same d early.le late, add_left_inj] at paid
      exact paid
  · rintro ⟨starts, grows, bounded, redeemed⟩
    refine ⟨?_, fun s d early le late => ?_, fun d early late => ?_, fun settle d price early le late => ?_⟩
    · rw [same _ le_rfl before, starts]
    · rw [same s early (le.trans_lt late), same d (early.trans le) late]
      exact grows s d early le late
    · rw [same d early late]
      exact bounded d early late
    · rw [flowsTo_inside built member early le late, same d (early.trans le) late, add_left_inj]
      rcases (early.trans le).eq_or_lt with first | later
      · rw [if_neg (first ▸ lt_irrefl _), ← first, starts]
      · rw [if_pos later]
        exact redeemed d later late

/-- A period pays no coupon where it has no rate or runs no part of a year. -/
theorem coupon_eq_zero_iff :
    period.coupon = 0 ↔ period.rate = 0 ∨ (¬ Whole shape period ∧ shape.Idle period.start period.stop) := by
  rw [coupon_eq actual built member]
  by_cases whole : Whole shape period
  · have count : (shape.frequency.toNat : ℚ) ≠ 0 := by
      exact_mod_cast (UInt32.lt_iff_toNat_lt.mp (Whole.paid built member whole)).ne'
    rw [if_pos whole, div_eq_zero_iff, or_iff_left count]
    simp [whole]
  · rw [if_neg whole, partTo, mul_eq_zero, Shape.fraction_zero_iff actual before]
    simp [whole]

/-- The coupon of a period with a rate above nothing is no less than nothing, and above it where it is any. -/
theorem coupon_sign (some' : period.coupon ≠ 0) : 0 < period.coupon ↔ 0 < period.rate := by
  have part : 0 ≤ shape.fraction period.start period.stop period.stop := Shape.fraction_nonneg actual before.le
  rw [coupon_eq actual built member] at some' ⊢
  by_cases whole : Whole shape period
  · have count : (0 : ℚ) < shape.frequency.toNat := by
      exact_mod_cast UInt32.lt_iff_toNat_lt.mp (Whole.paid built member whole)
    rw [if_pos whole, div_pos_iff_of_pos_right count]
  · rw [if_neg whole, partTo] at *
    have positive : 0 < shape.fraction period.start period.stop period.stop :=
      part.lt_of_ne (right_ne_zero_of_mul some').symm
    exact mul_pos_iff_of_pos_right positive

/-- A period that pays no coupon accrues nothing, and a redemption inside it pays nothing of it. -/
theorem partTo_of_nothing (nothing : period.coupon = 0) (early : period.start ≤ d) (late : d ≤ period.stop) :
    partTo shape d period = 0 := by
  rcases (coupon_eq_zero_iff actual built member before).mp nothing with none' | ⟨-, idle⟩
  · rw [partTo, none', zero_mul]
  · have whole := (Shape.fraction_zero_iff actual before).mpr idle
    by_cases count : shape.dayCount = .act365L
    · rw [Shape.fraction_365L count] at whole
      exact absurd whole (ratio_year_pos before _).ne'
    · have first : shape.fraction period.start d period.stop + shape.fraction d period.stop period.stop =
          shape.fraction period.start period.stop period.stop ∧ 0 ≤ shape.fraction period.start d period.stop :=
        Shape.fraction_steps actual count early late
      have rest : 0 ≤ shape.fraction d period.stop period.stop := (Shape.fraction_steps actual count late le_rfl).2
      have none' : shape.fraction period.start d period.stop = 0 := by linarith [first.1, first.2]
      rw [partTo, none', mul_zero]

/-- A redemption inside a whole period that starts on the quasi-coupon date before its end pays what has accrued. -/
theorem partTo_whole (whole : Whole shape period) (starts : shape.back period.stop = period.start)
    (early : period.start ≤ d) (late : d ≤ period.stop) : partTo shape d period = accruedIn shape period d := by
  have earlier : shape.back period.stop < period.stop := starts ▸ before
  rw [accruedIn_whole whole, coupon_eq actual built member, if_pos whole, partTo,
    Shape.fraction_last whole.1 (Whole.paid built member whole) earlier starts.le early late, starts,
    mul_comm (days period.start period.stop : ℚ), ← div_div, div_mul_div_comm, mul_div_assoc, div_div]

theorem accrues_of_accruable (accruable : Accruable shape period) : Accrues shape schedule period := by
  rw [accrues_iff actual built member before]
  by_cases nothing : period.coupon = 0
  · have none' : ∀ d, accruedIn shape period d = 0 := fun d => if_pos nothing
    refine ⟨none' _, fun s d _ _ _ => ?_, fun d _ _ => ?_, fun d early late => ?_⟩
    · rw [none', none']
    · rw [none', nothing]
    · rw [none']
      exact partTo_of_nothing actual built member before nothing early.le late.le
  · have rate : 0 < period.rate ∧ (shape.dayCount = .act365L → LeapNear period.start period.stop) ∧
        (Whole shape period → ∀ d, period.start < d → d < period.stop → shape.back period.stop = period.start) := by
      rcases accruable with none' | idle | rate
      · exact absurd ((coupon_eq_zero_iff actual built member before).mpr (.inl none')) nothing
      · exact absurd ((coupon_eq_zero_iff actual built member before).mpr (.inr idle)) nothing
      · exact rate
    obtain ⟨positive, near, starts⟩ := rate
    have coupon := (coupon_sign actual built member before nothing).mpr positive
    by_cases whole : Whole shape period
    · have own := accruedIn_whole whole
      have length : (0 : ℚ) < days period.start period.stop := by exact_mod_cast days_pos_iff.mpr before
      refine ⟨?_, fun s d early le late => ?_, fun d early late => ?_, fun d early late => ?_⟩
      · rw [own, days_self]
        simp
      · have run : (days period.start s : ℚ) ≤ days period.start d := by exact_mod_cast days_mono_right le
        rw [own, own]
        gcongr
      · have run : (days period.start d : ℚ) ≤ days period.start period.stop := by exact_mod_cast days_mono_right late.le
        rw [own]
        exact mul_le_of_le_one_right coupon.le ((div_le_one length).mpr run)
      · exact partTo_whole actual built member before whole (starts whole d early late) early.le late.le
    · have own : ∀ d, accruedIn shape period d = partTo shape d period := fun d => by
        rw [accruedIn, if_neg nothing, if_neg whole]
      have last : period.coupon = partTo shape period.stop period := by
        rw [coupon_eq actual built member, if_neg whole]
      refine ⟨?_, fun s d early le late => ?_, fun d early late => ?_, fun d early late => (own d).symm⟩
      · rw [own, partTo, Shape.fraction_self actual, mul_zero]
      · rw [own, own]
        exact mul_le_mul_of_nonneg_left (Shape.fraction_mono actual near early le late.le) positive.le
      · rw [own, last]
        exact mul_le_mul_of_nonneg_left (Shape.fraction_mono actual near early late.le le_rfl) positive.le

/-- Where interest that accrues so is the period's rate over a fraction of a year, the fraction grows to the period's end. -/
theorem Accrues.fraction_le (accrues : Accrues shape schedule period) (apart : ¬ Whole shape period) (some' : period.coupon ≠ 0)
    (positive : 0 < period.rate) (early : period.start ≤ a) (less : a < b) (late : b ≤ period.stop) :
    shape.fraction period.start a period.stop ≤ shape.fraction period.start b period.stop := by
  obtain ⟨-, grows, bounded, -⟩ := (accrues_iff actual built member before).mp accrues
  have own : ∀ d, accruedIn shape period d = partTo shape d period := fun d => by
    rw [accruedIn, if_neg some', if_neg apart]
  refine le_of_mul_le_mul_left ?_ positive
  rcases late.eq_or_lt with rfl | below
  · have last := bounded a early less
    rwa [own, coupon_eq actual built member, if_neg apart] at last
  · have more := grows a b early less.le below
    rwa [own, own] at more

/-- On 365L it grows so only where no leap year begins far into the period. -/
theorem leapNear_of_accrues (accrues : Accrues shape schedule period) (some' : period.coupon ≠ 0) (positive : 0 < period.rate)
    (count : shape.dayCount = .act365L) : LeapNear period.start period.stop := by
  intro first month day leap after late
  by_contra many
  obtain ⟨eve, one, common⟩ := exists_eve month day leap
  have whole := days_add period.start eve first
  have less : eve < first := days_pos_iff.mp (by omega)
  have early : period.start ≤ eve := days_nonneg_iff.mp (by omega)
  have apart : ¬ Whole shape period := by
    rintro ⟨icma, -⟩
    rw [count] at icma
    cases icma
  have grows := accrues.fraction_le actual built member before apart some' positive early less late
  rw [Shape.fraction_365L count, Shape.fraction_365L count, yearDays_leap, yearDays_leap, if_neg common, if_pos leap, ratio, ratio]
    at grows
  have run : (days period.start eve : ℚ) = days period.start first - 1 := by
    exact_mod_cast (by omega : days period.start eve = days period.start first - 1)
  have far : (366 : ℚ) < days period.start first := by exact_mod_cast (not_le.mp many)
  push_cast at grows
  rw [div_le_div_iff₀ (by norm_num) (by norm_num), run] at grows
  linarith

/-- On actual/actual (ICMA) a redemption inside a whole period pays what has accrued only where the period starts on the
quasi-coupon date before its end. -/
theorem back_of_accrues (accrues : Accrues shape schedule period) (positive : 0 < period.rate) (whole : Whole shape period)
    (later : period.start < d) (earlier : d < period.stop) : shape.back period.stop = period.start := by
  have paid := Whole.paid built member whole
  have count : (0 : ℚ) < shape.frequency.toNat := by exact_mod_cast UInt32.lt_iff_toNat_lt.mp paid
  have length : (0 : ℚ) < days period.start period.stop := by exact_mod_cast days_pos_iff.mpr before
  have steady : shape.dayCount ≠ .act365L := by
    rw [whole.1]
    decide
  obtain ⟨-, -, -, redeemed⟩ := (accrues_iff actual built member before).mp accrues
  -- What the redemption pays is the days run over the period's own.
  have part : ∀ d, period.start < d → d < period.stop → shape.fraction period.start d period.stop =
      (days period.start d : ℚ) / (days period.start period.stop * shape.frequency.toNat) := by
    intro d later earlier
    have same := redeemed d later earlier
    rw [accruedIn_whole whole, coupon_eq actual built member, if_pos whole, partTo, div_mul_div_comm,
      mul_div_assoc, mul_right_inj' positive.ne', mul_comm (shape.frequency.toNat : ℚ)] at same
    exact same
  by_contra apart
  rcases le_or_gt period.stop (shape.back period.stop) with late | back
  · have whole' := (Shape.fraction_icma_zero_iff whole.1 paid before).mpr late
    have first : shape.fraction period.start d period.stop + shape.fraction d period.stop period.stop =
        shape.fraction period.start period.stop period.stop ∧ 0 ≤ shape.fraction period.start d period.stop :=
      Shape.fraction_steps actual steady later.le earlier.le
    have rest : 0 ≤ shape.fraction d period.stop period.stop := (Shape.fraction_steps actual steady earlier.le le_rfl).2
    have run : (0 : ℚ) < days period.start d := by exact_mod_cast days_pos_iff.mpr later
    have some' : 0 < shape.fraction period.start d period.stop := by
      rw [part d later earlier]
      exact div_pos run (mul_pos length count)
    linarith [first.1]
  · -- Days over the quasi-coupon period's are days over the period's own where the two are one length.
    have equal : ∀ a b, a < b → (days a b : ℚ) / (days (shape.back period.stop) period.stop * shape.frequency.toNat) =
        (days a b : ℚ) / (days period.start period.stop * shape.frequency.toNat) → shape.back period.stop = period.start := by
      intro a b less same
      have run : (days a b : ℚ) ≠ 0 := by exact_mod_cast (days_pos_iff.mpr less).ne'
      have whole' : (days (shape.back period.stop) period.stop : ℚ) = days period.start period.stop := by
        rw [div_eq_mul_inv, div_eq_mul_inv, mul_right_inj' run, inv_inj] at same
        exact mul_right_cancel₀ count.ne' same
      have days' : days (shape.back period.stop) period.stop = days period.start period.stop := by exact_mod_cast whole'
      refine Date.daysSinceEpoch_injective ?_
      unfold days at days'
      omega
    rcases lt_or_gt_of_ne apart with before' | after
    · refine apart (equal _ _ later ?_)
      rw [← part d later earlier, Shape.fraction_last whole.1 paid back before'.le later.le earlier.le]
    · obtain ⟨-, -, marked⟩ := period_of_build built member
      rw [Shape.marked, if_pos paid, whole.2] at marked
      obtain ⟨start, found, same⟩ := Option.map_eq_some_iff.mp marked
      rw [beq_iff_eq] at same
      subst same
      obtain ⟨between, less, more⟩ := Shape.exists_between back fun first =>
        apart (Shape.back_of_first found first.1 first.2 back)
      refine apart (equal _ _ less ?_)
      have split : shape.fraction period.start (shape.back period.stop) period.stop +
          shape.fraction (shape.back period.stop) between period.stop = shape.fraction period.start between period.stop :=
        (Shape.fraction_steps actual steady after.le less.le).1
      have run := days_add period.start (shape.back period.stop) between
      have run' : (days (shape.back period.stop) between : ℚ) = days period.start between - days period.start (shape.back period.stop) := by
        exact_mod_cast (by omega)
      rw [part _ after back, part _ (after.trans less) more,
        Shape.fraction_last whole.1 paid back le_rfl less.le more.le] at split
      rw [eq_sub_of_add_eq' split, ← sub_div, ← run']

theorem accruable_of_accrues (accrues : Accrues shape schedule period) : Accruable shape period := by
  by_cases nothing : period.coupon = 0
  · rcases (coupon_eq_zero_iff actual built member before).mp nothing with none' | idle
    · exact .inl none'
    · exact .inr (.inl idle)
  · have least := accrues.bounded period.start le_rfl before
    rw [accrues.starts] at least
    have positive := (coupon_sign actual built member before nothing).mp (least.lt_of_ne (Ne.symm nothing))
    refine .inr (.inr ⟨positive, ?_, fun whole d later earlier => ?_⟩)
    · exact leapNear_of_accrues actual built member before accrues nothing positive
    · exact back_of_accrues actual built member before accrues positive whole later earlier

end

/-- What every redemption of a schedule pays: the coupons of the periods ended by it, the interest of the one it cuts, and
the price. -/
def SumsUp (shape : Shape) (schedule : Schedule) : Prop :=
  ∀ settle on price, ((flowsTo shape schedule settle on price).map Flow.amount).sum =
    ((schedule.periods.filter (Period.pays settle on)).map Period.coupon).sum +
      ((schedule.periods.filter (Period.cuts settle on)).map (partTo shape on)).sum + price

/-- Redemptions pay what they should on any day count; on one of actual days a period's interest runs from nothing to its
coupon, and redemptions inside it pay what has accrued, exactly where the period is accruable. -/
theorem interest_iff (built : shape.build fuel = some schedule) : SumsUp shape schedule ∧
    (shape.dayCount.isActual = true → ∀ period ∈ schedule.periods, period.start < period.stop →
      (Accrues shape schedule period ↔ Accruable shape period)) := by
  refine ⟨flowsTo_sum built, fun actual period member before => ⟨?_, ?_⟩⟩
  · exact accruable_of_accrues actual built member before
  · exact accrues_of_accruable actual built member before

/-- A semiannual bond of the thirty-first that does not keep to month ends. -/
def augustEnd : Shape where
  accruesFrom := ⟨2024, 8, 31, by decide⟩
  firstCoupon := none
  maturity := ⟨2030, 8, 31, Shape.august_ends⟩
  frequency := 2
  dayCount := .actActIcma
  endOfMonth := false
  rate := 5
  roll := .unadjusted

theorem augustEnd_interest : ∃ schedule, augustEnd.build 20 = some schedule ∧ SumsUp augustEnd schedule ∧
    ∀ period ∈ schedule.periods, period.start < period.stop →
      (Accrues augustEnd schedule period ↔ Accruable augustEnd period) := by
  have some' : (augustEnd.build 20).isSome = true := by decide +kernel
  obtain ⟨schedule, built⟩ := Option.isSome_iff_exists.mp some'
  obtain ⟨sums, each⟩ := interest_iff built
  exact ⟨schedule, built, sums, each rfl⟩

/-- Its period to a February accrues by that period's days, and a redemption inside it is paid by those of a quasi-coupon
period three days longer. -/
theorem augustEnd_cut : ∃ schedule, augustEnd.build 20 = some schedule ∧
    ∃ period ∈ schedule.periods, period.start < period.stop ∧ ¬ Accrues augustEnd schedule period := by
  have cut : (augustEnd.build 20).any (fun schedule => schedule.periods.any fun period =>
      decide (period.start < period.stop ∧ period.start ≤ ⟨2024, 11, 30, by decide⟩ ∧ ⟨2024, 11, 30, by decide⟩ < period.stop ∧
        ((flowsTo augustEnd schedule period.start ⟨2024, 11, 30, by decide⟩ 100).map Flow.amount).sum ≠
          accrued augustEnd schedule ⟨2024, 11, 30, by decide⟩ + 100)) = true := by
    decide +kernel
  obtain ⟨schedule, built, held⟩ : ∃ schedule, augustEnd.build 20 = some schedule ∧ _ := (Option.any_eq_true _ _).mp cut
  obtain ⟨period, member, apart⟩ := List.any_eq_true.mp held
  obtain ⟨before, starts, ends, apart⟩ := of_decide_eq_true apart
  exact ⟨schedule, built, period, member, before, fun accrues => apart (accrues.redeemed _ _ _ le_rfl starts ends)⟩

end MeridianCore.AnalyticsEngine.Bonds
