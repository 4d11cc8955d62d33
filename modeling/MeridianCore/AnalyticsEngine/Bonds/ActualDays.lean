import MeridianCore.AnalyticsEngine.Bonds.QuasiCoupons

/-! The day counts that count actual days. Their fractions of a year, all but 365L's, add up across any date and are never
negative; 365L's basis is of the year of the date asked, and it steps back where a leap year begins more than 366 days
on. -/

namespace MeridianCore.AnalyticsEngine.Bonds

variable {a b c start stop : Date}

theorem leapDay_iff {year : Nat} :
    leapDay a b year = true ↔ ∃ leap, Date.fromYmd year 2 29 = some leap ∧ a < leap ∧ leap ≤ b := by
  unfold leapDay
  cases Date.fromYmd year 2 29 <;> simp

theorem fromYmd_fields {year month day : Nat} {date : Date} (made : Date.fromYmd year month day = some date) :
    date.year = year ∧ date.month = month ∧ date.day = day := by
  unfold Date.fromYmd at made
  split at made
  · cases made
    exact ⟨rfl, rfl, rfl⟩
  · cases made

/-- The years with a February 29th after a date and up to another. -/
def leapYears (a b : Date) : Finset Nat := (Finset.range 10000).filter fun year => leapDay a b year = true

theorem leapDays_eq (a b : Date) : leapDays a b = (leapYears a b).card := by
  have once : ((List.range' a.year (b.year + 1 - a.year)).filter (leapDay a b)).Nodup := List.Nodup.filter _ List.nodup_range'
  rw [leapDays, List.countP_eq_length_filter, ← List.toFinset_card_of_nodup once]
  refine congrArg Finset.card (Finset.ext fun year => ?_)
  rw [List.mem_toFinset, List.mem_filter, List.mem_range'_1, leapYears, Finset.mem_filter, Finset.mem_range]
  refine and_congr_left fun held => ?_
  obtain ⟨leap, made, after, late⟩ := leapDay_iff.mp held
  obtain ⟨same, -, -⟩ := fromYmd_fields made
  have early := Date.le_iff.mp after.le
  have later := Date.le_iff.mp late
  have most := leap.holds.1.2
  omega

/-- The February 29ths on either side of a date are those across it. -/
theorem leapDays_add (early : a ≤ b) (late : b ≤ c) : leapDays a b + leapDays b c = leapDays a c := by
  have apart : Disjoint (leapYears a b) (leapYears b c) := by
    rw [Finset.disjoint_left]
    intro year first second
    obtain ⟨leap, made, -, before⟩ := leapDay_iff.mp (Finset.mem_filter.mp first).2
    obtain ⟨leap', made', after, -⟩ := leapDay_iff.mp (Finset.mem_filter.mp second).2
    obtain rfl := Option.some.inj (made.symm.trans made')
    exact absurd before after.not_ge
  rw [leapDays_eq, leapDays_eq, leapDays_eq, ← Finset.card_union_of_disjoint apart]
  refine congrArg Finset.card (Finset.ext fun year => ?_)
  rw [Finset.mem_union, leapYears, leapYears, leapYears, Finset.mem_filter, Finset.mem_filter, Finset.mem_filter, ← and_or_left,
    leapDay_iff, leapDay_iff, leapDay_iff]
  refine and_congr_right fun _ => ?_
  constructor
  · rintro (⟨leap, made, after, before⟩ | ⟨leap, made, after, before⟩)
    · exact ⟨leap, made, after, before.trans late⟩
    · exact ⟨leap, made, early.trans_lt after, before⟩
  · rintro ⟨leap, made, after, before⟩
    rcases le_or_gt leap b with first | second
    · exact .inl ⟨leap, made, after, first⟩
    · exact .inr ⟨leap, made, second, before⟩

/-- There are no more February 29ths between two dates than days. -/
theorem leapDays_le (before : a ≤ b) : (leapDays a b : Int) ≤ days a b := by
  let count (year : Nat) : Int := ((Date.fromYmd year 2 29).map Date.daysSinceEpoch).getD 0
  have bound : (leapYears a b).card ≤ (Finset.Ioc a.daysSinceEpoch b.daysSinceEpoch).card := by
    refine Finset.card_le_card_of_injOn count (fun year held => ?_) fun year held year' held' same => ?_
    · obtain ⟨leap, made, after, late⟩ := leapDay_iff.mp (Finset.mem_filter.mp held).2
      have counted : count year = leap.daysSinceEpoch := by simp [count, made]
      rw [counted, Finset.coe_Ioc, Set.mem_Ioc, Date.daysSinceEpoch_lt_iff, Date.daysSinceEpoch_le_iff]
      exact ⟨after, late⟩
    · obtain ⟨leap, made, -, -⟩ := leapDay_iff.mp (Finset.mem_filter.mp held).2
      obtain ⟨leap', made', -, -⟩ := leapDay_iff.mp (Finset.mem_filter.mp held').2
      have equal : leap = leap' := Date.daysSinceEpoch_injective (by simpa [count, made, made'] using same)
      rw [← (fromYmd_fields made).1, ← (fromYmd_fields made').1, equal]
  rw [Int.card_Ioc] at bound
  have positive := days_nonneg_iff.mpr before
  rw [leapDays_eq]
  unfold days at *
  omega

/-- The days to a year's first. -/
def newYear (year : Nat) : Int := Date.daysBefore ((year : Int) - 1) - 719162

/-- The days of a year. -/
def yearDays (year : Nat) : Int := if Date.daysIn year 2 = 29 then 366 else 365

theorem newYear_succ (year : Nat) : newYear (year + 1) = newYear year + yearDays year := by
  have long := Date.daysBefore_succ year
  unfold newYear yearDays
  rw [Date.daysIn_february]
  push_cast
  rw [add_sub_cancel_right, long]
  split_ifs <;> omega

theorem yearDays_pos (year : Nat) : 0 < yearDays year := by
  unfold yearDays
  split_ifs <;> decide

theorem daysSinceEpoch_newYear {year : Nat} {date : Date} (made : Date.fromYmd year 1 1 = some date) :
    date.daysSinceEpoch = newYear year := by
  obtain ⟨year_, month, day⟩ := fromYmd_fields made
  rw [Date.daysSinceEpoch_march, Date.marchYear, Date.marchMonth, year_, month, day, newYear]
  unfold Date.marchDays
  norm_num
  omega

/-- The years to a date, the part of its own as its days are of it. -/
def passed (date : Date) : ℚ := date.year + (date.daysSinceEpoch - newYear date.year : Int) / yearDays date.year

theorem isda_self (years : Nat) (date : Date) : DayCount.isda years date date = 0 := by
  cases years with
  | zero => rfl
  | succ years => rw [DayCount.isda, if_neg (lt_irrefl _)]

theorem passed_newYear {year : Nat} {date : Date} (made : Date.fromYmd year 1 1 = some date) : passed date = year := by
  rw [passed, daysSinceEpoch_newYear made, (fromYmd_fields made).1]
  simp

/-- Actual/actual (ISDA)'s fraction is the years passed from one date to the other. -/
theorem isda_eq {years : Nat} (before : a ≤ b) (enough : b.year + 1 - a.year ≤ years) :
    DayCount.isda years a b = passed b - passed a := by
  induction years generalizing a with
  | zero =>
    have early := Date.le_iff.mp before
    omega
  | succ years ih =>
    rw [DayCount.isda]
    split
    · next below =>
      dsimp only
      have positive : (yearDays a.year : ℚ) ≠ 0 := by exact_mod_cast (yearDays_pos a.year).ne'
      have basis : (if Date.daysIn a.year 2 = 29 then (366 : Int) else 365) = yearDays a.year := rfl
      rw [basis, ratio]
      by_cases same : a.year = b.year
      · have until_ : (if (Date.fromYmd (a.year + 1) 1 1).getD b < b then (Date.fromYmd (a.year + 1) 1 1).getD b else b) = b := by
          cases made : Date.fromYmd (a.year + 1) 1 1 with
          | none => exact ite_self b
          | some next =>
            refine if_neg fun early => ?_
            have year := (fromYmd_fields made).1
            have order := Date.lt_iff.mp early
            rw [Option.getD_some] at order
            omega
        rw [until_, isda_self, add_zero, passed, passed, ← same, add_sub_add_left_eq_sub, ← sub_div]
        congr 1
        unfold days
        push_cast
        ring
      · have order := Date.le_iff.mp before
        have most := b.holds.1.2
        obtain ⟨next, made⟩ : ∃ next, Date.fromYmd (a.year + 1) 1 1 = some next :=
          ⟨_, dif_pos ⟨⟨by omega, by omega⟩, ⟨le_rfl, by decide⟩, le_rfl,
            le_trans (by decide) (Date.daysIn_le _ _).1⟩⟩
        have year := (fromYmd_fields made).1
        have late : next ≤ b := by
          have fields := fromYmd_fields made
          have month := b.holds.2.1.1
          have day := b.holds.2.2.1
          rw [Date.le_iff]
          omega
        have until_ : (if (Date.fromYmd (a.year + 1) 1 1).getD b < b then (Date.fromYmd (a.year + 1) 1 1).getD b else b) = next := by
          rw [made, Option.getD_some]
          split
          · rfl
          · next reached => exact le_antisymm (not_lt.mp reached) late
        rw [until_, ih late (by omega), passed_newYear made, passed.eq_def a]
        have run : (days a next : ℚ) = yearDays a.year - (a.daysSinceEpoch - newYear a.year : Int) := by
          have whole := newYear_succ a.year
          have start := daysSinceEpoch_newYear made
          unfold days
          push_cast
          rw [start, whole]
          push_cast
          ring
        rw [run, sub_div, div_self positive]
        push_cast
        ring
    · next reached =>
      rw [le_antisymm before (not_lt.mp reached), sub_self]

/-- Where a step of actual/actual (ISDA) ends, at the year's end or before. -/
def untilOf (a b : Date) : Date :=
  if (Date.fromYmd (a.year + 1) 1 1).getD b < b then (Date.fromYmd (a.year + 1) 1 1).getD b else b

theorem untilOf_gt (before : a < b) : a < untilOf a b := by
  unfold untilOf
  split
  · cases made : Date.fromYmd (a.year + 1) 1 1 with
    | none => exact before
    | some next =>
      have year := (fromYmd_fields made).1
      rw [Option.getD_some, Date.lt_iff]
      omega
  · exact before

theorem isda_succ (years : Nat) (before : a < b) : DayCount.isda (years + 1) a b =
    ratio (days a (untilOf a b)) (yearDays a.year) + DayCount.isda years (untilOf a b) b := by
  rw [DayCount.isda, if_pos before]
  rfl

theorem ratio_year_pos (before : a < b) (year : Nat) : 0 < ratio (days a b) (yearDays year) := by
  have run : (0 : ℚ) < days a b := by exact_mod_cast days_pos_iff.mpr before
  have whole : (0 : ℚ) < yearDays year := by exact_mod_cast yearDays_pos year
  exact div_pos run whole

theorem isda_nonneg (years : Nat) (a b : Date) : 0 ≤ DayCount.isda years a b := by
  induction years generalizing a with
  | zero => exact le_rfl
  | succ years ih =>
    by_cases before : a < b
    · rw [isda_succ years before]
      exact add_nonneg (ratio_year_pos (untilOf_gt before) _).le (ih _)
    · rw [DayCount.isda, if_neg before]

/-- Dates in order are so by the years passed. -/
theorem passed_lt (before : a < b) : passed a < passed b := by
  have order := Date.lt_iff.mp before
  obtain ⟨years, enough⟩ : ∃ years, b.year + 1 - a.year = years + 1 := ⟨b.year - a.year, by omega⟩
  have whole := isda_eq before.le (enough ▸ le_rfl : b.year + 1 - a.year ≤ years + 1)
  rw [isda_succ years before] at whole
  have positive := add_pos_of_pos_of_nonneg (ratio_year_pos (untilOf_gt before) a.year) (isda_nonneg years (untilOf a b) b)
  rw [whole] at positive
  exact sub_pos.mp positive

/-- Whether no leap year begins in a period more than 366 days after it starts. -/
def LeapNear (start stop : Date) : Prop := ∀ first : Date, first.month = 1 → first.day = 1 → Date.Leap first.year →
  start < first → first ≤ stop → days start first ≤ 366

theorem yearDays_leap {year : Nat} : yearDays year = if Date.Leap year then 366 else 365 := by
  rw [yearDays, Date.daysIn_february]
  split_ifs <;> simp_all

theorem days_mono_right (before : b ≤ c) : days a b ≤ days a c := by
  have order := days_nonneg_iff.mpr before
  have whole := days_add a b c
  omega

/-- Days over the days of the year they end in grow with them, where no leap year begins far on. -/
theorem ratio_yearDays_mono (near : LeapNear start stop) (early : start ≤ a) (before : a ≤ b) (late : b ≤ stop) :
    ratio (days start a) (yearDays a.year) ≤ ratio (days start b) (yearDays b.year) := by
  have run := days_mono_right (a := start) before
  have none' := days_nonneg_iff.mpr early
  unfold ratio
  rw [yearDays_leap, yearDays_leap]
  by_cases leap : Date.Leap b.year
  · rw [if_pos leap]
    by_cases same : Date.Leap a.year
    · rw [if_pos same]
      have more : (days start a : ℚ) ≤ days start b := by exact_mod_cast run
      exact div_le_div_of_nonneg_right more (by norm_num)
    · rw [if_neg same]
      have fields := Date.le_iff.mp before
      have apart : a.year < b.year := by
        rcases Nat.lt_or_ge a.year b.year with below | above
        · exact below
        · have equal : a.year = b.year := by omega
          exact absurd (equal ▸ leap) same
      obtain ⟨first, made⟩ : ∃ first, Date.fromYmd b.year 1 1 = some first :=
        ⟨_, dif_pos ⟨b.holds.1, ⟨le_rfl, by decide⟩, le_rfl, le_trans (by decide) (Date.daysIn_le _ _).1⟩⟩
      obtain ⟨year, month, day⟩ := fromYmd_fields made
      have after : a < first := by
        rw [Date.lt_iff]
        omega
      have reached : first ≤ b := by
        have months := b.holds.2.1.1
        have days := b.holds.2.2.1
        rw [Date.le_iff]
        omega
      have few := near first month day (year ▸ leap) (early.trans_lt after) (reached.trans late)
      have one := days_pos_iff.mpr after
      have two := days_nonneg_iff.mpr reached
      have whole := days_add start a first
      have rest := days_add start first b
      have most : days start a ≤ 365 := by omega
      have more : (days start a : ℚ) + 1 ≤ days start b := by exact_mod_cast (by omega : days start a + 1 ≤ days start b)
      have bound : (days start a : ℚ) ≤ 365 := by exact_mod_cast most
      push_cast
      rw [div_le_div_iff₀ (by norm_num) (by norm_num)]
      linarith
  · rw [if_neg leap]
    have more : (days start a : ℚ) ≤ days start b := by exact_mod_cast run
    have none'' : (0 : ℚ) ≤ days start a := by exact_mod_cast none'
    split_ifs
    · push_cast
      rw [div_le_div_iff₀ (by norm_num) (by norm_num)]
      linarith
    · exact div_le_div_of_nonneg_right more (by norm_num)

/-- The day before a leap year begins. -/
theorem exists_eve {first : Date} (month : first.month = 1) (day : first.day = 1) (leap : Date.Leap first.year) :
    ∃ eve : Date, days eve first = 1 ∧ ¬ Date.Leap eve.year := by
  have years := first.holds.1
  have late : 4 ≤ first.year := by
    unfold Date.Leap at leap
    omega
  obtain ⟨eve, made⟩ : ∃ eve, Date.fromYmd (first.year - 1) 12 31 = some eve :=
    ⟨_, dif_pos ⟨⟨by omega, by omega⟩, ⟨by decide, le_rfl⟩, by decide, le_rfl⟩⟩
  obtain ⟨year', month', day'⟩ := fromYmd_fields made
  refine ⟨eve, ?_, ?_⟩
  · have years' : eve.marchYear = first.marchYear := by
      unfold Date.marchYear
      rw [month, month', year']
      norm_num
      omega
    rw [days, Date.daysSinceEpoch_march, Date.daysSinceEpoch_march, years', Date.marchMonth, Date.marchMonth, month, month', day,
      day']
    unfold Date.marchDays
    norm_num
    omega
  · rw [year']
    unfold Date.Leap at *
    omega

/-- The counts of actual days. -/
def DayCount.isActual : DayCount → Bool
  | act360 | act364 | act365Fixed | act365L | nl360 | nl365 | actActIcma | actActIsda => true
  | _ => false

namespace DayCount

variable {count : DayCount} {maturity : Option Date}

/-- The days an actual count counts on either side of a date are those it counts across it. -/
theorem days_add_of_actual (actual : count.isActual = true) (early : a ≤ b) (late : b ≤ c) :
    count.days a b maturity + count.days b c maturity = count.days a c maturity := by
  have counted := leapDays_add early late
  have run := Bonds.days_add a b c
  cases count <;> first | exact absurd actual Bool.false_ne_true | (simp only [DayCount.days]; omega)

theorem days_nonneg_of_actual (actual : count.isActual = true) (before : a ≤ b) : 0 ≤ count.days a b maturity := by
  have counted := leapDays_le before
  have run := days_nonneg_iff.mpr before
  cases count <;> first | exact absurd actual Bool.false_ne_true | (simp only [DayCount.days]; omega)

/-- The days of a year an actual count divides by, where they are the same for every date. -/
def basis : DayCount → Option Int
  | act360 | nl360 => some 360
  | act364 => some 364
  | act365Fixed | nl365 | actActIcma => some 365
  | _ => none

theorem basis_pos {days : Int} (held : count.basis = some days) : 0 < days := by
  cases count <;> first | (obtain rfl := Option.some.inj held; decide) | exact nomatch held

theorem fraction_basis {days : Int} (held : count.basis = some days) :
    count.fraction a b none maturity = ratio (count.days a b maturity) days := by
  cases count <;> first | (obtain rfl := Option.some.inj held; rfl) | exact nomatch held

end DayCount

namespace Shape

variable {shape : Shape} {anchor : Date}

theorem fraction_plain (plain : shape.dayCount ≠ .actActIcma ∨ shape.frequency = 0) :
    shape.fraction a b anchor = shape.dayCount.fraction a b none (some shape.maturity) := if_pos plain

/-- An actual count is by quasi-coupon periods, by calendar years, by the year of the date asked or by one basis. -/
theorem counted_cases (actual : shape.dayCount.isActual = true) :
    (shape.dayCount = .actActIcma ∧ 0 < shape.frequency) ∨ shape.dayCount = .actActIsda ∨ shape.dayCount = .act365L ∨
      ((shape.dayCount ≠ .actActIcma ∨ shape.frequency = 0) ∧ ∃ days, shape.dayCount.basis = some days) := by
  by_cases paid : 0 < shape.frequency
  · cases count : shape.dayCount <;> rw [count] at actual <;> simp_all [DayCount.isActual, DayCount.basis]
  · have zero : shape.frequency = 0 := by
      by_contra some'
      exact paid (UInt32.pos_iff_ne_zero.mpr some')
    cases count : shape.dayCount <;> rw [count] at actual <;> simp_all [DayCount.isActual, DayCount.basis]

theorem fraction_isda (isda : shape.dayCount = .actActIsda) (before : a ≤ b) :
    shape.fraction a b anchor = passed b - passed a := by
  rw [fraction_plain (.inl (by rw [isda]; decide)), isda]
  exact isda_eq before le_rfl

theorem fraction_365L (count : shape.dayCount = .act365L) : shape.fraction a b anchor = ratio (days a b) (yearDays b.year) := by
  rw [fraction_plain (.inl (by rw [count]; decide)), count]
  have leap : (Date.daysIn b.year 2 == 29) = decide (Date.daysIn b.year 2 = 29) := rfl
  simp only [DayCount.fraction, leap, decide_eq_true_eq]
  rfl

/-- On an actual count but 365L, fractions on either side of a date add up to what they are across it, and none is
negative. -/
theorem fraction_steps (actual : shape.dayCount.isActual = true) (steady : shape.dayCount ≠ .act365L) (early : a ≤ b)
    (late : b ≤ c) : shape.fraction a b anchor + shape.fraction b c anchor = shape.fraction a c anchor ∧
      0 ≤ shape.fraction a b anchor := by
  rcases counted_cases actual with ⟨icma, paid⟩ | isda | count | ⟨plain, days, basis⟩
  · exact ⟨fraction_icma_add icma paid early late, fraction_icma_nonneg icma paid early⟩
  · rw [fraction_isda isda early, fraction_isda isda late, fraction_isda isda (early.trans late)]
    refine ⟨by ring, sub_nonneg.mpr ?_⟩
    rcases early.eq_or_lt with rfl | below
    · exact le_rfl
    · exact (passed_lt below).le
  · exact absurd count steady
  · rw [fraction_plain plain, fraction_plain plain, fraction_plain plain, DayCount.fraction_basis basis,
      DayCount.fraction_basis basis, DayCount.fraction_basis basis, ← DayCount.days_add_of_actual actual early late, ratio, ratio,
      ratio]
    have none' : (0 : ℚ) ≤ shape.dayCount.days a b (some shape.maturity) := by
      exact_mod_cast DayCount.days_nonneg_of_actual actual early
    have whole : (0 : ℚ) < days := by exact_mod_cast DayCount.basis_pos basis
    refine ⟨?_, div_nonneg none' whole.le⟩
    push_cast
    rw [add_div]

/-- Whether a period runs no part of a year: its days are all left out, or no quasi-coupon date is before its end. -/
def Idle (shape : Shape) (start stop : Date) : Prop :=
  shape.dayCount.days start stop (some shape.maturity) = 0 ∨
    (shape.dayCount = .actActIcma ∧ 0 < shape.frequency ∧ stop ≤ shape.back stop)

theorem overlap_pos (paid : 0 < shape.frequency) (before : start < stop) (earlier : shape.back stop < stop) :
    0 < shape.overlap start stop (shape.back stop) stop := by
  have run : (0 : ℚ) < days (inside (shape.back stop) stop start) (inside (shape.back stop) stop stop) := by
    have last : inside (shape.back stop) stop stop = stop := by rw [inside, min_self, max_eq_right earlier.le]
    have first : inside (shape.back stop) stop start < stop := by
      rw [inside, min_eq_right before.le]
      exact max_lt earlier before
    rw [last]
    exact_mod_cast days_pos_iff.mpr first
  have whole : (0 : ℚ) < (days (shape.back stop) stop * shape.frequency.toNat : Int) := by
    have length := days_pos_iff.mpr earlier
    have count : (0 : Int) < shape.frequency.toNat := by exact_mod_cast UInt32.lt_iff_toNat_lt.mp paid
    exact_mod_cast mul_pos length count
  rw [overlap_eq before.le, ratio]
  exact div_pos run whole

theorem fraction_icma_zero_iff (icma : shape.dayCount = .actActIcma) (paid : 0 < shape.frequency) (before : start < stop) :
    shape.fraction start stop stop = 0 ↔ stop ≤ shape.back stop := by
  rw [fraction_icma icma paid before.le, Finset.sum_eq_zero_iff_of_nonneg fun k _ => overlap_nonneg before.le]
  constructor
  · intro all
    by_contra earlier
    have first := all 0 (by simp)
    exact absurd first (overlap_pos paid before (not_le.mp earlier)).ne'
  · intro late k _
    refine overlap_empty before.le ?_
    by_cases positive : 0 < months shape.frequency
    · have stays : shape.back stop = stop := le_antisymm (back_le positive stop) late
      have still : ∀ i, shape.stepped stop i = stop := fun i => Function.iterate_fixed stays i
      rw [still, still]
    · rw [stepped_succ]
      exact le_back (not_lt.mp positive) _

theorem days_pos_of_lt (before : start < stop) (plain : shape.dayCount = .actActIcma ∨ shape.dayCount = .actActIsda ∨
    shape.dayCount = .act365L) : 0 < shape.dayCount.days start stop (some shape.maturity) := by
  have run := days_pos_iff.mpr before
  rcases plain with count | count | count <;> rw [count] <;> exact run

/-- A whole period on an actual count is no part of a year where it runs none. -/
theorem fraction_zero_iff (actual : shape.dayCount.isActual = true) (before : start < stop) :
    shape.fraction start stop stop = 0 ↔ shape.Idle start stop := by
  unfold Idle
  rcases counted_cases actual with ⟨icma, paid⟩ | isda | count | ⟨plain, days, basis⟩
  · have some' := days_pos_of_lt before (.inl icma)
    rw [fraction_icma_zero_iff icma paid before, or_iff_right some'.ne', and_iff_right icma, and_iff_right paid]
  · have some' := days_pos_of_lt before (.inr (.inl isda))
    have apart : shape.dayCount ≠ .actActIcma := by
      rw [isda]
      decide
    rw [fraction_isda isda before.le, sub_eq_zero]
    simp [(passed_lt before).ne', some'.ne', apart]
  · have some' := days_pos_of_lt before (.inr (.inr count))
    have apart : shape.dayCount ≠ .actActIcma := by
      rw [count]
      decide
    rw [fraction_365L count]
    simp [(ratio_year_pos before stop.year).ne', some'.ne', apart]
  · have whole : (days : ℚ) ≠ 0 := by exact_mod_cast (DayCount.basis_pos basis).ne'
    have apart : ¬ (shape.dayCount = .actActIcma ∧ 0 < shape.frequency ∧ stop ≤ shape.back stop) := by
      rintro ⟨icma, paid, -⟩
      rcases plain with other | zero
      · exact other icma
      · exact UInt32.pos_iff_ne_zero.mp paid zero
    rw [fraction_plain plain, DayCount.fraction_basis basis, ratio, div_eq_zero_iff, or_iff_left whole, or_iff_left apart]
    exact_mod_cast Iff.rfl

end Shape

end MeridianCore.AnalyticsEngine.Bonds
