import MeridianCore.Domain.Date

/-! Dates in their order, and the days counted between them. A date is ordered by its year, then its month, then its
day; the days since the epoch keep that order, so what lies between two dates is counted by their difference. -/

namespace MeridianCore.Date

/-- A date's year, month and day, in the order they are compared. -/
def fields (date : Date) : ℕ ×ₗ ℕ ×ₗ ℕ := toLex (date.year, toLex (date.month, date.day))

theorem fields_injective : Function.Injective fields := by
  intro a b same
  obtain ⟨year, month, day, holds⟩ := a
  obtain ⟨year', month', day', holds'⟩ := b
  simp only [fields, EmbeddingLike.apply_eq_iff_eq, Prod.mk.injEq] at same
  obtain ⟨rfl, rfl, rfl⟩ := same
  rfl

instance : LinearOrder Date := LinearOrder.lift' fields fields_injective

variable {a b : Date}

theorem lt_iff : a < b ↔ a.year < b.year ∨ (a.year = b.year ∧
    (a.month < b.month ∨ (a.month = b.month ∧ a.day < b.day))) := by
  change fields a < fields b ↔ _
  rw [fields, fields, Prod.Lex.toLex_lt_toLex, Prod.Lex.toLex_lt_toLex]

theorem le_iff : a ≤ b ↔ a.year < b.year ∨ (a.year = b.year ∧
    (a.month < b.month ∨ (a.month = b.month ∧ a.day ≤ b.day))) := by
  rw [le_iff_lt_or_eq, lt_iff]
  constructor
  · rintro (below | rfl)
    · omega
    · exact .inr ⟨rfl, .inr ⟨rfl, le_rfl⟩⟩
  · intro below
    by_cases same : a = b
    · exact .inr same
    · refine .inl ?_
      have apart : ¬ (a.year = b.year ∧ a.month = b.month ∧ a.day = b.day) := by
        rintro ⟨years, months, days⟩
        exact same (fields_injective (by rw [fields, fields, years, months, days]))
      omega

/-- A leap year, February's twenty-ninth in it. -/
def Leap (year : Nat) : Prop := (year % 4 = 0 ∧ year % 100 ≠ 0) ∨ year % 400 = 0

instance (year : Nat) : Decidable (Leap year) :=
  inferInstanceAs (Decidable ((year % 4 = 0 ∧ year % 100 ≠ 0) ∨ year % 400 = 0))

theorem daysIn_february (year : Nat) : daysIn year 2 = if Leap year then 29 else 28 := rfl

theorem daysIn_le (year month : Nat) : 28 ≤ daysIn year month ∧ daysIn year month ≤ 31 := by
  unfold daysIn
  split_ifs <;> omega

/-- The year a date is counted in, its first month March. -/
def marchYear (date : Date) : Int := date.year - (if date.month ≤ 2 then 1 else 0)

/-- The month a date is counted in, March the first. -/
def marchMonth (date : Date) : Int := ((date.month : Int) + 9) % 12

/-- The days of a year counted from March before each of its months. -/
def marchDays (month : Int) : Int := (153 * month + 2) / 5

theorem daysSinceEpoch_eq (date : Date) : date.daysSinceEpoch =
    365 * date.marchYear + date.marchYear / 4 - date.marchYear / 100 + date.marchYear / 400 +
      marchDays date.marchMonth + date.day - 719469 := by
  unfold daysSinceEpoch marchYear marchMonth marchDays
  dsimp only
  generalize (date.year : Int) - (if date.month ≤ 2 then 1 else 0) = year
  omega

/-- A day counts to no more than its month has, as counted from March: of the last, February, what is left of the year. -/
theorem day_le (date : Date) :
    (date.marchMonth = 11 ∧ (date.day : Int) ≤ 28 + if Leap date.year then 1 else 0) ∨
      (date.marchMonth < 11 ∧ (date.day : Int) ≤ marchDays (date.marchMonth + 1) - marchDays date.marchMonth) := by
  obtain ⟨year, month, day, ⟨years, months, days⟩⟩ := date
  unfold marchMonth marchDays
  dsimp only at *
  obtain ⟨-, most⟩ := days
  have cases : month = 1 ∨ month = 2 ∨ month = 3 ∨ month = 4 ∨ month = 5 ∨ month = 6 ∨ month = 7 ∨ month = 8 ∨ month = 9 ∨
      month = 10 ∨ month = 11 ∨ month = 12 := by omega
  rcases cases with rfl | rfl | rfl | rfl | rfl | rfl | rfl | rfl | rfl | rfl | rfl | rfl
  case inr.inl =>
    rw [daysIn_february] at most
    refine .inl ⟨by decide, ?_⟩
    split_ifs at * <;> omega
  all_goals
    simp only [daysIn] at most
    norm_num at most
    refine .inr ⟨by decide, ?_⟩
    norm_num
    omega

/-- The days before a year counted from March. -/
def daysBefore (year : Int) : Int := 365 * year + year / 4 - year / 100 + year / 400

theorem daysBefore_mono {y z : Int} (before : y ≤ z) : daysBefore y ≤ daysBefore z := by
  unfold daysBefore
  omega

/-- A year counted from March has a day more where the February it ends with has. -/
theorem daysBefore_succ (year : Nat) : daysBefore year = daysBefore ((year : Int) - 1) + 365 + if Leap year then 1 else 0 := by
  unfold daysBefore Leap
  split_ifs <;> omega

theorem daysSinceEpoch_march (date : Date) : date.daysSinceEpoch =
    daysBefore date.marchYear + marchDays date.marchMonth + date.day - 719469 := by
  rw [daysSinceEpoch_eq, daysBefore]

theorem marchMonth_range (date : Date) : 0 ≤ date.marchMonth ∧ date.marchMonth ≤ 11 := by
  unfold marchMonth
  omega

/-- Dates in order are in order counted from March. -/
theorem march_lt (below : a < b) : a.marchYear < b.marchYear ∨ (a.marchYear = b.marchYear ∧
    (a.marchMonth < b.marchMonth ∨ (a.marchMonth = b.marchMonth ∧ a.day < b.day))) := by
  rw [lt_iff] at below
  obtain ⟨_, _, _, ⟨_, ⟨_, _⟩, _⟩⟩ := a
  obtain ⟨_, _, _, ⟨_, ⟨_, _⟩, _⟩⟩ := b
  unfold marchYear marchMonth
  dsimp only at *
  split_ifs <;> omega

/-- What is left of a year counted from March is no more than the year has. -/
theorem dayOfMarchYear_le (date : Date) :
    daysBefore date.marchYear + marchDays date.marchMonth + date.day ≤ daysBefore (date.marchYear + 1) := by
  rcases day_le date with ⟨february, most⟩ | ⟨earlier, most⟩
  · have year : date.marchYear = (date.year : Int) - 1 := by
      have range := date.holds.2.1
      unfold marchMonth at february
      unfold marchYear
      split_ifs <;> omega
    have long := daysBefore_succ date.year
    rw [february, year, sub_add_cancel, marchDays]
    omega
  · have step : daysBefore date.marchYear + 365 ≤ daysBefore (date.marchYear + 1) := by
      unfold daysBefore
      omega
    have start := marchMonth_range date
    unfold marchDays at *
    omega

/-- The days since the epoch keep the order of dates. -/
theorem daysSinceEpoch_lt (below : a < b) : a.daysSinceEpoch < b.daysSinceEpoch := by
  rw [daysSinceEpoch_march, daysSinceEpoch_march]
  have first := a.holds.2.2.1
  have first' := b.holds.2.2.1
  have startB := marchMonth_range b
  rcases march_lt below with years | ⟨years, months | ⟨months, days⟩⟩
  · have whole := dayOfMarchYear_le a
    have later := daysBefore_mono (show a.marchYear + 1 ≤ b.marchYear by omega)
    have none' : 0 ≤ marchDays b.marchMonth := by
      unfold marchDays
      omega
    omega
  · rcases day_le a with ⟨february, -⟩ | ⟨-, most⟩
    · omega
    · have later : marchDays (a.marchMonth + 1) ≤ marchDays b.marchMonth := by
        unfold marchDays
        omega
      rw [years]
      omega
  · rw [years, months]
    omega

theorem daysSinceEpoch_lt_iff : a.daysSinceEpoch < b.daysSinceEpoch ↔ a < b := by
  constructor
  · intro below
    rcases lt_trichotomy a b with order | rfl | order
    · exact order
    · exact absurd below (lt_irrefl _)
    · exact absurd (daysSinceEpoch_lt order) (not_lt.mpr below.le)
  · exact daysSinceEpoch_lt

theorem daysSinceEpoch_le_iff : a.daysSinceEpoch ≤ b.daysSinceEpoch ↔ a ≤ b := by
  rw [← not_lt, ← not_lt, daysSinceEpoch_lt_iff]

theorem daysSinceEpoch_injective : Function.Injective daysSinceEpoch := fun a b same =>
  le_antisymm (daysSinceEpoch_le_iff.mp same.le) (daysSinceEpoch_le_iff.mp same.ge)

end MeridianCore.Date
