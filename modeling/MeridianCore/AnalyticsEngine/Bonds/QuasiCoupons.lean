import MeridianCore.AnalyticsEngine.Bonds.Grid

/-! Actual/actual (ICMA)'s quasi-coupon periods. They are stepped back one from the last rather than each from maturity,
so a day of the month that a short month cut does not come back; the parts of them between two dates add up whatever
dates they are. -/

namespace MeridianCore.AnalyticsEngine.Bonds.Shape

variable {shape : Shape} {a b c start stop date anchor first from_ : Date} {j k n : Nat}

/-- The quasi-coupon date before a date. -/
def back (shape : Shape) (stop : Date) : Date := addMonths stop (-months shape.frequency) shape.endOfMonth

/-- The `k`th quasi-coupon date back from a date. -/
def stepped (shape : Shape) (anchor : Date) (k : Nat) : Date := shape.back^[k] anchor

theorem stepped_succ (anchor : Date) (k : Nat) : shape.stepped anchor (k + 1) = shape.back (shape.stepped anchor k) :=
  Function.iterate_succ_apply' _ _ _

theorem back_outside (outside : ¬ InCalendar (monthIndex stop + -months shape.frequency)) : shape.back stop = stop := by
  have range := months_range shape.frequency
  have inside := inCalendar_monthIndex stop
  unfold InCalendar at inside
  exact addMonths_outside outside (by omega) (by omega)

theorem back_le (positive : 0 < months shape.frequency) (stop : Date) : shape.back stop ≤ stop := by
  by_cases inside : InCalendar (monthIndex stop + -months shape.frequency)
  · refine (lt_of_monthIndex ?_).le
    rw [back, monthIndex_addMonths inside]
    omega
  · exact (back_outside inside).le

/-- Where the frequency steps no months back, no quasi-coupon date is before the one it is stepped from. -/
theorem le_back (none' : months shape.frequency ≤ 0) (stop : Date) : stop ≤ shape.back stop := by
  by_cases inside : InCalendar (monthIndex stop + -months shape.frequency)
  · have moved : monthIndex (shape.back stop) = monthIndex stop + -months shape.frequency := monthIndex_addMonths inside
    rcases none'.lt_or_eq with negative | still
    · exact (lt_of_monthIndex (by omega)).le
    · have same : monthIndex stop + -months shape.frequency = monthIndex stop := by omega
      rw [← not_lt, lt_iff_of_monthIndex (moved.trans same), not_lt, back, (addMonths_fields inside).2.2, same, dayIn,
        Shape.daysIn_monthIndex]
      have most := stop.holds.2.2.2
      split_ifs
      · exact most
      · exact le_min le_rfl most
  · exact (back_outside inside).ge

theorem stepped_le (positive : 0 < months shape.frequency) (before : j ≤ k) :
    shape.stepped anchor k ≤ shape.stepped anchor j := by
  induction k, before using Nat.le_induction with
  | base => exact le_rfl
  | succ k _ ih =>
    rw [stepped_succ]
    exact (back_le positive _).trans ih

/-- A date brought inside two others. -/
def inside (start stop date : Date) : Date := max start (min stop date)

theorem inside_mono (start stop : Date) (before : a ≤ b) : inside start stop a ≤ inside start stop b :=
  max_le_max_left _ (min_le_min_left _ before)

theorem inside_empty (empty : stop ≤ start) (date : Date) : inside start stop date = start :=
  max_eq_left ((min_le_left _ _).trans empty)

/-- The part of a quasi-coupon period between two dates is its days from one to the other, each brought inside it. -/
theorem overlap_eq (before : a ≤ b) : shape.overlap a b start stop =
    ratio (days (inside start stop a) (inside start stop b)) (days start stop * shape.frequency.toNat) := by
  have lo : (if a < start then start else a) = max start a := by
    rw [max_def]
    split_ifs <;> order
  have hi : (if stop < b then stop else b) = min stop b := by
    rw [min_def]
    split_ifs <;> order
  unfold overlap
  dsimp only
  rw [lo, hi]
  split
  · next held =>
    have first : inside start stop a = max start a := by
      unfold inside
      rw [min_eq_right ((le_max_right _ _).trans (held.le.trans (min_le_left _ _)))]
    have last : inside start stop b = min stop b := max_eq_right ((le_max_left _ _).trans held.le)
    rw [first, last]
  · next empty =>
    have same : inside start stop a = inside start stop b := by
      refine le_antisymm (inside_mono _ _ before) ?_
      rcases le_max_iff.mp (not_lt.mp empty) with low | low
      · exact max_le (le_max_left _ _) (low.trans (le_max_left _ _))
      · exact max_le_max_left _ (le_min (min_le_left _ _) low)
    rw [same, days_self]
    simp [ratio]

/-- The parts of a quasi-coupon period on either side of a date are the part across it. -/
theorem overlap_add (early : a ≤ b) (late : b ≤ c) :
    shape.overlap a b start stop + shape.overlap b c start stop = shape.overlap a c start stop := by
  rw [overlap_eq early, overlap_eq late, overlap_eq (early.trans late),
    ← days_add (inside start stop a) (inside start stop b) (inside start stop c)]
  unfold ratio
  push_cast
  rw [← add_div]

theorem overlap_nonneg (before : a ≤ b) : 0 ≤ shape.overlap a b start stop := by
  rw [overlap_eq before, ratio]
  have part : (0 : ℚ) ≤ days (inside start stop a) (inside start stop b) := by
    exact_mod_cast days_nonneg_iff.mpr (inside_mono _ _ before)
  by_cases positive : start ≤ stop
  · have whole : (0 : ℚ) ≤ (days start stop * shape.frequency.toNat : Int) := by
      have length := days_nonneg_iff.mpr positive
      exact_mod_cast mul_nonneg length (Int.natCast_nonneg _)
    exact div_nonneg part whole
  · rw [inside_empty (not_le.mp positive).le, inside_empty (not_le.mp positive).le, days_self]
    simp

theorem overlap_empty (before : a ≤ b) (empty : stop ≤ start) : shape.overlap a b start stop = 0 := by
  rw [overlap_eq before, inside_empty empty, inside_empty empty, days_self]
  simp [ratio]

/-- No part of a quasi-coupon period is after a date it ends by. -/
theorem overlap_after (before : a ≤ b) (ended : stop ≤ a) : shape.overlap a b start stop = 0 := by
  rw [overlap_eq before, inside, inside, min_eq_left ended, min_eq_left (ended.trans before), days_self]
  simp [ratio]

/-- The quasi-coupon periods' parts between two dates: the loop leaves out those that end by the first. -/
theorem quasi_eq (before : a ≤ b) (guard : Nat) (stop : Date) (total : ℚ) : shape.quasi a b guard stop total =
    total + ∑ k ∈ Finset.range guard, shape.overlap a b (shape.stepped stop (k + 1)) (shape.stepped stop k) := by
  induction guard generalizing stop total with
  | zero => simp [quasi]
  | succ guard ih =>
    rw [quasi]
    split
    · rw [Finset.sum_range_succ', ih]
      have parts : ∀ k, shape.stepped (addMonths stop (-months shape.frequency) shape.endOfMonth) k =
          shape.stepped stop (k + 1) := fun k => (Function.iterate_succ_apply _ _ _).symm
      simp only [parts]
      change total + shape.overlap a b (shape.back stop) stop + _ = _
      rw [add_assoc, add_comm (shape.overlap a b (shape.back stop) stop)]
      rfl
    · next ended =>
      rw [Finset.sum_eq_zero, add_zero]
      intro k _
      by_cases positive : 0 < months shape.frequency
      · exact overlap_after before ((stepped_le positive (Nat.zero_le k)).trans (not_lt.mp ended))
      · rw [stepped_succ]
        exact overlap_empty before (le_back (not_lt.mp positive) _)

/-- On actual/actual (ICMA), a fraction of a year is the parts of a thousand quasi-coupon periods. -/
theorem fraction_icma (icma : shape.dayCount = .actActIcma) (paid : 0 < shape.frequency) (before : a ≤ b) :
    shape.fraction a b anchor = ∑ k ∈ Finset.range 1000,
      shape.overlap a b (shape.stepped anchor (k + 1)) (shape.stepped anchor k) := by
  rw [fraction, if_neg (by simp [icma, UInt32.pos_iff_ne_zero.mp paid]), quasi_eq before, zero_add]

/-- On either side of a date they add up to what they are across it. -/
theorem fraction_icma_add (icma : shape.dayCount = .actActIcma) (paid : 0 < shape.frequency) (early : a ≤ b) (late : b ≤ c) :
    shape.fraction a b anchor + shape.fraction b c anchor = shape.fraction a c anchor := by
  rw [fraction_icma icma paid early, fraction_icma icma paid late, fraction_icma icma paid (early.trans late),
    ← Finset.sum_add_distrib]
  exact Finset.sum_congr rfl fun k _ => overlap_add early late

theorem fraction_icma_nonneg (icma : shape.dayCount = .actActIcma) (paid : 0 < shape.frequency) (before : a ≤ b) :
    0 ≤ shape.fraction a b anchor := by
  rw [fraction_icma icma paid before]
  exact Finset.sum_nonneg fun k _ => overlap_nonneg before

/-- A quasi-coupon period that falls between two dates is a whole one. -/
theorem overlap_whole (early : a ≤ start) (positive : start < stop) (late : stop ≤ b) :
    shape.overlap a b start stop = 1 / shape.frequency.toNat := by
  have length : (days start stop : ℚ) ≠ 0 := by exact_mod_cast (days_pos_iff.mpr positive).ne'
  rw [overlap_eq (early.trans (positive.le.trans late)), inside, inside, min_eq_right (early.trans positive.le), max_eq_left early,
    min_eq_left late, max_eq_right positive.le, ratio]
  push_cast
  rw [← div_div, div_self length]

/-- A quasi-coupon period cut at a date inside it is a whole one only where the date is its first. -/
theorem overlap_cut_iff (paid : 0 < shape.frequency) (early : start ≤ a) (positive : a < stop) (late : stop ≤ b) :
    shape.overlap a b start stop = 1 / shape.frequency.toNat ↔ a = start := by
  have length : (days start stop : ℚ) ≠ 0 := by exact_mod_cast (days_pos_iff.mpr (early.trans_lt positive)).ne'
  have count : (shape.frequency.toNat : ℚ) ≠ 0 := by exact_mod_cast (UInt32.lt_iff_toNat_lt.mp paid).ne'
  rw [overlap_eq (positive.le.trans late), inside, inside, min_eq_right positive.le, max_eq_right early,
    min_eq_left late, max_eq_right (early.trans positive.le), ratio]
  push_cast
  rw [← div_div, div_left_inj' count, div_eq_one_iff_eq length]
  constructor
  · intro same
    refine Date.daysSinceEpoch_injective ?_
    have whole : days a stop = days start stop := by exact_mod_cast same
    unfold days at whole
    omega
  · rintro rfl
    rfl

/-- Quasi-coupon dates stepped from a regular date are in the months of the regular dates before it. -/
theorem monthIndex_stepped (on : shape.OnGrid j first) (positive : 0 < months shape.frequency)
    (held : InCalendar (shape.gridIndex (j + n))) (le : k ≤ n) :
    monthIndex (shape.stepped first k) = shape.gridIndex (j + k) := by
  induction k with
  | zero => exact on.at_ ▸ monthIndex_regular on.inside
  | succ k ih =>
    have next : monthIndex (shape.stepped first k) + -months shape.frequency = shape.gridIndex (j + (k + 1)) := by
      rw [ih (by omega), ← Nat.add_assoc, gridIndex_succ, sub_eq_add_neg]
    rw [stepped_succ, back, monthIndex_addMonths, next]
    rw [next]
    exact inside_of_le positive held (by omega)

/-- The day of a quasi-coupon date is the one before it's, cut by its own month. -/
theorem day_stepped_succ (on : shape.OnGrid j first) (positive : 0 < months shape.frequency)
    (held : InCalendar (shape.gridIndex (j + n))) (below : k < n) :
    (shape.stepped first (k + 1)).day = dayIn (shape.stepped first k) shape.endOfMonth (shape.gridIndex (j + (k + 1))) := by
  have next : monthIndex (shape.stepped first k) + -months shape.frequency = shape.gridIndex (j + (k + 1)) := by
    rw [monthIndex_stepped on positive held below.le, ← Nat.add_assoc, gridIndex_succ, sub_eq_add_neg]
  have moved : InCalendar (monthIndex (shape.stepped first k) + -months shape.frequency) := by
    rw [next]
    exact inside_of_le positive held (by omega)
  rw [stepped_succ, back, (addMonths_fields moved).2.2, next]

/-- A schedule that keeps to month ends has its quasi-coupon dates at them. -/
theorem day_stepped (on : shape.OnGrid j first) (positive : 0 < months shape.frequency)
    (held : InCalendar (shape.gridIndex (j + n))) (le : k ≤ n) (keeps : shape.endOfMonth = true) :
    (shape.stepped first k).day = (shape.regular (j + k)).day := by
  cases k with
  | zero => exact congrArg Date.day on.at_.symm
  | succ k =>
    rw [day_regular (inside_of_le positive held (by omega)), day_stepped_succ on positive held (by omega), dayIn, dayIn,
      if_pos keeps, if_pos keeps]

/-- On any other a quasi-coupon date keeps a day that none of the regular dates it was stepped through is before. -/
theorem le_day_stepped_iff (on : shape.OnGrid j first) (positive : 0 < months shape.frequency)
    (held : InCalendar (shape.gridIndex (j + n))) (le : k ≤ n) (own : shape.endOfMonth = false) (day : Nat) :
    day ≤ (shape.stepped first k).day ↔ ∀ i ≤ k, day ≤ (shape.regular (j + i)).day := by
  induction k with
  | zero =>
    have zero : shape.stepped first 0 = shape.regular j := on.at_.symm
    rw [zero]
    exact ⟨fun small i first => by rwa [Nat.le_zero.mp first], fun all => all 0 le_rfl⟩
  | succ k ih =>
    have apart : ∀ i ≤ n, day ≤ (shape.regular (j + i)).day ↔ day ≤ shape.maturity.day ∧
        day ≤ Date.daysIn (yearOf (shape.gridIndex (j + i))) (monthOf (shape.gridIndex (j + i))) := by
      intro i le
      rw [day_regular (inside_of_le positive held (by omega)), dayIn, own, if_neg Bool.false_ne_true, le_min_iff]
    rw [day_stepped_succ on positive held (by omega), dayIn, own, if_neg Bool.false_ne_true, le_min_iff, ih (by omega)]
    constructor
    · rintro ⟨before, now⟩ i le'
      rcases Nat.le_succ_iff.mp le' with earlier | rfl
      · exact before i earlier
      · exact (apart (k + 1) le).mpr ⟨((apart 0 (by omega)).mp (before 0 (by omega))).1, now⟩
    · exact fun all => ⟨fun i le' => all i (by omega), ((apart (k + 1) le).mp (all (k + 1) le_rfl)).2⟩

/-- Whether no regular date between a first period's end and its start is cut to a day before its start's. -/
def Uncut (shape : Shape) (j n : Nat) (from_ : Date) : Prop :=
  shape.endOfMonth = true ∨ ∀ i < n, from_.day ≤ (shape.regular (j + i)).day

/-- Where the last quasi-coupon period starts: no later than the first period, and on the same day where none is cut. -/
theorem stepped_last (on : shape.OnGrid j first) (positive : 0 < months shape.frequency)
    (starts : shape.OnGrid (j + n) from_) : shape.stepped first n ≤ from_ ∧
      (from_ = shape.stepped first n ↔ shape.Uncut j n from_) := by
  have month : monthIndex (shape.stepped first n) = monthIndex from_ := by
    rw [monthIndex_stepped on positive starts.inside le_rfl, ← starts.at_, monthIndex_regular starts.inside]
  have equal : from_ = shape.stepped first n ↔ from_.day = (shape.stepped first n).day :=
    ⟨congrArg Date.day, fun day => eq_of_monthIndex month.symm day⟩
  rw [equal, ← not_lt, lt_iff_of_monthIndex month.symm, not_lt]
  cases keeps : shape.endOfMonth with
  | true =>
    have day := day_stepped on positive starts.inside le_rfl keeps
    rw [starts.at_] at day
    exact ⟨day.le, ⟨fun _ => .inl keeps, fun _ => day.symm⟩⟩
  | false =>
    have bound := le_day_stepped_iff on positive starts.inside le_rfl keeps
    have least := (bound (shape.stepped first n).day).mp le_rfl n le_rfl
    rw [starts.at_] at least
    refine ⟨least, fun same => .inr fun i below => ?_, ?_⟩
    · exact (bound from_.day).mp same.le i below.le
    · rintro (ends | uncut)
      · exact absurd ends (by rw [keeps]; exact Bool.false_ne_true)
      · refine le_antisymm ((bound from_.day).mpr fun i le => ?_) least
        rcases le.eq_or_lt with rfl | below
        · exact (congrArg Date.day starts.at_).ge
        · exact uncut i below

/-- A regular date further back that is earlier: the frequency steps back. -/
theorem positive_of_lt (on : shape.OnGrid j first) (starts : shape.OnGrid (j + n) from_) (before : from_ < first) :
    0 < months shape.frequency := by
  by_contra still
  have months : shape.gridIndex j ≤ shape.gridIndex (j + n) := by
    have count : (0 : Int) ≤ n := Int.natCast_nonneg n
    unfold gridIndex
    push_cast
    nlinarith
  rw [← on.at_, ← starts.at_] at before
  rcases months.lt_or_eq with later | same
  · refine absurd before (lt_of_monthIndex ?_).not_gt
    rwa [monthIndex_regular on.inside, monthIndex_regular starts.inside]
  · have equal : shape.regular (j + n) = shape.regular j := by
      refine eq_of_monthIndex ?_ ?_
      · rw [monthIndex_regular on.inside, monthIndex_regular starts.inside, same]
      · rw [day_regular on.inside, day_regular starts.inside, same]
    exact absurd before (equal ▸ lt_irrefl _)

/-- Each quasi-coupon period of a first period but the one it starts in is a whole one. -/
theorem overlap_stepped (ends : shape.OnGrid j first) (positive : 0 < months shape.frequency)
    (starts : shape.OnGrid (j + n) from_) (below : k + 1 < n) :
    shape.overlap from_ first (shape.stepped first (k + 1)) (shape.stepped first k) = 1 / shape.frequency.toNat := by
  have index : ∀ i, shape.gridIndex (j + (i + 1)) = shape.gridIndex (j + i) - months shape.frequency := fun i => by
    rw [← Nat.add_assoc, gridIndex_succ]
  have early : from_ < shape.stepped first (k + 1) := by
    rw [← starts.at_]
    refine lt_of_monthIndex ?_
    rw [monthIndex_regular starts.inside, monthIndex_stepped ends positive starts.inside below.le, gridIndex, gridIndex]
    have more : ((k : Int) + 1) + 1 ≤ n := by exact_mod_cast below
    push_cast
    nlinarith
  refine overlap_whole early.le (lt_of_monthIndex ?_) (stepped_le positive (Nat.zero_le k))
  rw [monthIndex_stepped ends positive starts.inside below.le, monthIndex_stepped ends positive starts.inside (by omega), index]
  omega

/-- The quasi-coupon periods of a first period: as many as it has, the one it starts in by itself. -/
theorem fraction_first (icma : shape.dayCount = .actActIcma) (paid : 0 < shape.frequency) (ends : shape.OnGrid j first)
    (starts : shape.OnGrid (j + (n + 1)) from_) (before : from_ < first) (few : n < 1000) :
    shape.fraction from_ first first = n / shape.frequency.toNat +
      shape.overlap from_ first (shape.stepped first (n + 1)) (shape.stepped first n) := by
  have positive := positive_of_lt ends starts before
  have rest : ∀ k ∈ Finset.range 1000, k ∉ Finset.range (n + 1) →
      shape.overlap from_ first (shape.stepped first (k + 1)) (shape.stepped first k) = 0 := by
    intro k _ late
    rw [Finset.mem_range, not_lt] at late
    exact overlap_after before.le ((stepped_le positive late).trans (stepped_last ends positive starts).1)
  rw [fraction_icma icma paid before.le, ← Finset.sum_subset (Finset.range_mono few) rest, Finset.sum_range_succ,
    Finset.sum_congr rfl fun k below => overlap_stepped ends positive starts (by
      rw [Finset.mem_range] at below
      omega), Finset.sum_const, Finset.card_range, nsmul_eq_mul, mul_one_div]

/-- A first period longer than the loop's guard counts as much as the guard lets it. -/
theorem fraction_guarded (icma : shape.dayCount = .actActIcma) (paid : 0 < shape.frequency) (ends : shape.OnGrid j first)
    (starts : shape.OnGrid (j + n) from_) (before : from_ < first) (many : 1000 < n) :
    shape.fraction from_ first first = 1000 / shape.frequency.toNat := by
  have positive := positive_of_lt ends starts before
  rw [fraction_icma icma paid before.le, Finset.sum_congr rfl fun k below => overlap_stepped ends positive starts (by
      rw [Finset.mem_range] at below
      omega), Finset.sum_const, Finset.card_range, nsmul_eq_mul, mul_one_div]
  norm_num

/-- A first period of so many regular ones counts as them exactly where it is within the loop's guard and no quasi-coupon
date is cut. -/
theorem fraction_first_iff (icma : shape.dayCount = .actActIcma) (paid : 0 < shape.frequency) (ends : shape.OnGrid j first)
    (starts : shape.OnGrid (j + n) from_) (before : from_ < first) :
    shape.fraction from_ first first = n / shape.frequency.toNat ↔ n ≤ 1000 ∧ shape.Uncut j n from_ := by
  have count : (shape.frequency.toNat : ℚ) ≠ 0 := by exact_mod_cast (UInt32.lt_iff_toNat_lt.mp paid).ne'
  have positive := positive_of_lt ends starts before
  by_cases few : n ≤ 1000
  · obtain ⟨m, rfl⟩ : ∃ m, n = m + 1 := by
      cases n with
      | zero => exact absurd before (by rw [← ends.at_, ← starts.at_]; exact lt_irrefl _)
      | succ m => exact ⟨m, rfl⟩
    obtain ⟨early, same⟩ := stepped_last ends positive starts
    have held : from_ < shape.stepped first m := by
      rw [← starts.at_]
      refine lt_of_monthIndex ?_
      rw [monthIndex_regular starts.inside, monthIndex_stepped ends positive starts.inside (Nat.le_succ m), ← Nat.add_assoc,
        gridIndex_succ]
      omega
    have late : shape.stepped first m ≤ first := stepped_le positive (Nat.zero_le m)
    rw [fraction_first icma paid ends starts before few, and_iff_right few, ← same, ← overlap_cut_iff paid early held late,
      Nat.cast_succ, add_div, add_right_inj]
  · rw [fraction_guarded icma paid ends starts before (not_le.mp few), div_left_inj' count]
    refine ⟨fun same => ?_, fun held => absurd held.1 few⟩
    have equal : 1000 = n := by exact_mod_cast same
    exact absurd equal.ge few

/-- A first period's fraction of a year is that of the regular periods it is made of, and is made up of its parts on either
side of any date in it, exactly where it is within the loop's guard and no quasi-coupon date is cut. -/
theorem quasi_coupons_iff (icma : shape.dayCount = .actActIcma) (paid : 0 < shape.frequency) (ends : shape.OnGrid j first)
    (starts : shape.OnGrid (j + n) from_) (before : from_ < first) :
    (shape.fraction from_ first first = n / shape.frequency.toNat ∧ ∀ d, from_ ≤ d → d ≤ first →
      shape.fraction from_ d first + shape.fraction d first first = shape.fraction from_ first first) ↔
      n ≤ 1000 ∧ shape.Uncut j n from_ := by
  rw [← fraction_first_iff icma paid ends starts before]
  exact and_iff_left fun d early late => fraction_icma_add icma paid early late

/-- A semiannual bond of the fifteenth, its first period a year long. -/
def longFirst : Shape where
  accruesFrom := ⟨2024, 8, 15, by decide⟩
  firstCoupon := some ⟨2025, 8, 15, by decide⟩
  maturity := ⟨2030, 8, 15, by decide⟩
  frequency := 2
  dayCount := .actActIcma
  endOfMonth := false
  rate := 5
  roll := .following

theorem longFirst_counted : longFirst.fraction ⟨2024, 8, 15, by decide⟩ ⟨2025, 8, 15, by decide⟩ ⟨2025, 8, 15, by decide⟩ = 2 / 2 ∧
    ∀ d, ⟨2024, 8, 15, by decide⟩ ≤ d → d ≤ ⟨2025, 8, 15, by decide⟩ →
      longFirst.fraction ⟨2024, 8, 15, by decide⟩ d ⟨2025, 8, 15, by decide⟩ +
        longFirst.fraction d ⟨2025, 8, 15, by decide⟩ ⟨2025, 8, 15, by decide⟩ =
        longFirst.fraction ⟨2024, 8, 15, by decide⟩ ⟨2025, 8, 15, by decide⟩ ⟨2025, 8, 15, by decide⟩ := by
  have ends : longFirst.OnGrid 10 ⟨2025, 8, 15, by decide⟩ := ⟨by decide +kernel, by decide +kernel⟩
  have starts : longFirst.OnGrid (10 + 2) ⟨2024, 8, 15, by decide⟩ := ⟨by decide +kernel, by decide +kernel⟩
  exact (quasi_coupons_iff rfl (by decide) ends starts (by decide +kernel)).mpr ⟨by decide, .inr (by decide +kernel)⟩

/-- A semiannual bond of the thirty-first, its first period a year from a leap day. -/
def leapFirst : Shape where
  accruesFrom := ⟨2024, 2, 29, by decide⟩
  firstCoupon := some ⟨2025, 2, 28, by decide⟩
  maturity := ⟨2030, 8, 31, by decide⟩
  frequency := 2
  dayCount := .actActIcma
  endOfMonth := false
  rate := 5
  roll := .following

/-- Its quasi-coupon dates are stepped from the twenty-eighth, so the year from the twenty-ninth is a day short. -/
theorem leapFirst_short : leapFirst.OnGrid 11 ⟨2025, 2, 28, by decide⟩ ∧ leapFirst.OnGrid (11 + 2) ⟨2024, 2, 29, by decide⟩ ∧
    leapFirst.fraction ⟨2024, 2, 29, by decide⟩ ⟨2025, 2, 28, by decide⟩ ⟨2025, 2, 28, by decide⟩ ≠ 2 / 2 := by
  refine ⟨⟨by decide +kernel, by decide +kernel⟩, ⟨by decide +kernel, by decide +kernel⟩, ?_⟩
  decide +kernel

end MeridianCore.AnalyticsEngine.Bonds.Shape
