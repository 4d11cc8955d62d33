import MeridianCore.AnalyticsEngine.Bonds.Schedule

/-! The regular dates of a schedule: where they fall, in what order, and where the calendar runs out of them. -/

namespace MeridianCore.AnalyticsEngine.Bonds

theorem months_range (frequency : UInt32) : -12 ≤ months frequency ∧ months frequency ≤ 12 := by
  have size : (months frequency).natAbs ≤ 12 := by
    rw [months, Int.natAbs_tdiv]
    exact Nat.div_le_self _ _
  omega

namespace Shape

variable {shape : Shape} {j k n : Nat} {date : Date}

/-- The month of the `k`th regular date back. -/
def gridIndex (shape : Shape) (k : Nat) : Int := monthIndex shape.maturity + -k * months shape.frequency

/-- A regular date of the calendar: the `k`th back from maturity. -/
structure OnGrid (shape : Shape) (k : Nat) (date : Date) : Prop where
  inside : InCalendar (shape.gridIndex k)
  at_ : shape.regular k = date

theorem gridIndex_zero (shape : Shape) : shape.gridIndex 0 = monthIndex shape.maturity := by
  unfold gridIndex
  simp

theorem gridIndex_succ (shape : Shape) (k : Nat) : shape.gridIndex (k + 1) = shape.gridIndex k - months shape.frequency := by
  unfold gridIndex
  push_cast
  ring

theorem inside_zero (shape : Shape) : InCalendar (shape.gridIndex 0) := by
  rw [gridIndex_zero]
  exact inCalendar_monthIndex _

theorem monthIndex_regular (inside : InCalendar (shape.gridIndex k)) : monthIndex (shape.regular k) = shape.gridIndex k :=
  monthIndex_addMonths inside

theorem day_regular (inside : InCalendar (shape.gridIndex k)) :
    (shape.regular k).day = dayIn shape.maturity shape.endOfMonth (shape.gridIndex k) :=
  (addMonths_fields inside).2.2

/-- A month's last day, by its index. -/
theorem daysIn_monthIndex (date : Date) :
    Date.daysIn (yearOf (monthIndex date)) (monthOf (monthIndex date)) = Date.daysIn date.year date.month := by
  have years := yearOf_eq (inCalendar_monthIndex date)
  have range := date.holds.2.1
  have year : yearOf (monthIndex date) = date.year := by
    unfold monthIndex at *
    omega
  have month : monthOf (monthIndex date) = date.month := by
    unfold monthOf monthIndex
    omega
  rw [year, month]

/-- The schedule's last date is in maturity's month, on its day or, where the schedule keeps to month ends, its last. -/
theorem day_regular_zero (shape : Shape) : (shape.regular 0).day =
    if shape.endOfMonth then Date.daysIn shape.maturity.year shape.maturity.month else shape.maturity.day := by
  rw [day_regular shape.inside_zero, gridIndex_zero, dayIn, daysIn_monthIndex]
  have most := shape.maturity.holds.2.2.2
  split_ifs
  · rfl
  · exact min_eq_left most

theorem monthIndex_regular_zero (shape : Shape) : monthIndex (shape.regular 0) = monthIndex shape.maturity :=
  (monthIndex_regular shape.inside_zero).trans shape.gridIndex_zero

theorem maturity_le_regular_zero (shape : Shape) : shape.maturity ≤ shape.regular 0 := by
  rw [← not_lt, lt_iff_of_monthIndex shape.monthIndex_regular_zero, day_regular_zero]
  have most := shape.maturity.holds.2.2.2
  split_ifs <;> omega

/-- The schedule ends at maturity where maturity is on the day its rule keeps. -/
theorem regular_zero_iff : shape.regular 0 = shape.maturity ↔ (shape.endOfMonth = true → isMonthEnd shape.maturity = true) := by
  rw [isMonthEnd, beq_iff_eq]
  constructor
  · intro same keeps
    have day := shape.day_regular_zero
    rw [if_pos keeps, same] at day
    exact day
  · intro end_
    refine eq_of_monthIndex shape.monthIndex_regular_zero ?_
    rw [day_regular_zero]
    split_ifs with keeps
    · exact (end_ keeps).symm
    · rfl

/-- Regular dates go back in time as they are counted. -/
theorem regular_lt (positive : 0 < months shape.frequency) (insideJ : InCalendar (shape.gridIndex j))
    (insideK : InCalendar (shape.gridIndex k)) (before : j < k) : shape.regular k < shape.regular j := by
  refine lt_of_monthIndex ?_
  rw [monthIndex_regular insideJ, monthIndex_regular insideK, gridIndex, gridIndex]
  have more : (j : Int) + 1 ≤ k := by exact_mod_cast before
  nlinarith

/-- A regular date before one of the calendar's is of the calendar. -/
theorem inside_of_le (positive : 0 < months shape.frequency) (inside : InCalendar (shape.gridIndex k)) (before : j ≤ k) :
    InCalendar (shape.gridIndex j) := by
  have most := inCalendar_monthIndex shape.maturity
  unfold InCalendar gridIndex at *
  have more : (j : Int) ≤ k := by exact_mod_cast before
  have none' : (0 : Int) ≤ j := Int.natCast_nonneg j
  constructor
  · nlinarith
  · nlinarith

/-- Where the frequency steps no months back, no regular date is before maturity. -/
theorem maturity_le_regular (none' : months shape.frequency ≤ 0) (inside : InCalendar (shape.gridIndex k)) :
    shape.maturity ≤ shape.regular k := by
  have later : shape.gridIndex 0 ≤ shape.gridIndex k := by
    rw [gridIndex_zero, gridIndex]
    have count : (0 : Int) ≤ k := Int.natCast_nonneg k
    nlinarith
  rcases later.lt_or_eq with later | same
  · refine (lt_of_monthIndex ?_).le
    rwa [monthIndex_regular inside, ← gridIndex_zero]
  · have equal : shape.regular k = shape.regular 0 := by
      refine eq_of_monthIndex ?_ ?_
      · rw [monthIndex_regular inside, monthIndex_regular shape.inside_zero, same]
      · rw [day_regular inside, day_regular shape.inside_zero, same]
    rw [equal]
    exact shape.maturity_le_regular_zero

/-- The first date past the calendar is maturity again. -/
theorem regular_outside (inside : InCalendar (shape.gridIndex k)) (outside : ¬ InCalendar (shape.gridIndex (k + 1))) :
    shape.regular (k + 1) = shape.maturity := by
  have step := months_range shape.frequency
  have next := shape.gridIndex_succ k
  unfold InCalendar at inside
  exact addMonths_outside outside (by change 0 ≤ shape.gridIndex (k + 1); omega)
    (by change shape.gridIndex (k + 1) < _; omega)

/-- Dates counted past the calendar pass through maturity. -/
theorem exists_outside (outside : ¬ InCalendar (shape.gridIndex k)) :
    ∃ j, j < k ∧ (∀ i ≤ j, InCalendar (shape.gridIndex i)) ∧ shape.regular (j + 1) = shape.maturity := by
  have some' : ∃ k, ¬ InCalendar (shape.gridIndex k) := ⟨k, outside⟩
  classical
  have first := Nat.find_spec some'
  have least := Nat.find_min' some' outside
  cases found : Nat.find some' with
  | zero =>
    rw [found] at first
    exact absurd shape.inside_zero first
  | succ j =>
    rw [found] at first least
    have inside : ∀ i ≤ j, InCalendar (shape.gridIndex i) := fun i le =>
      not_not.mp (Nat.find_min some' (by omega))
    exact ⟨j, least, inside, regular_outside (inside j le_rfl) first⟩

end Shape

end MeridianCore.AnalyticsEngine.Bonds
