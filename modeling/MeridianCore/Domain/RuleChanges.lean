import MeridianCore.Domain.LocalTime

/-! When a zone's rule changes: the day a clause names in a year, and the instants at which what the rule answers changes. -/

namespace MeridianCore

namespace Date

variable {a b : Date}

theorem days_in_month (years : a.year = b.year) (months : a.month = b.month) :
    a.daysSinceEpoch - b.daysSinceEpoch = (a.day : ℤ) - b.day := by
  have marchYears : a.marchYear = b.marchYear := by rw [marchYear, marchYear, years, months]
  have marchMonths : a.marchMonth = b.marchMonth := by rw [marchMonth, marchMonth, months]
  rw [daysSinceEpoch_march, daysSinceEpoch_march, marchYears, marchMonths]
  omega

/-- The first of a month is as many days after the first of the month before as that month has. -/
theorem first_of_next (first : a.day = 1) (next : b.day = 1)
    (follows : (a.month ≠ 12 ∧ b.year = a.year ∧ b.month = a.month + 1) ∨ (a.month = 12 ∧ b.year = a.year + 1 ∧ b.month = 1)) :
    b.daysSinceEpoch = a.daysSinceEpoch + daysIn a.year a.month := by
  rw [daysSinceEpoch_march, daysSinceEpoch_march, marchYear, marchYear, marchMonth, marchMonth, first, next]
  have months := a.holds.2.1
  have leap := daysBefore_succ a.year
  generalize a.year = year at *
  rcases follows with ⟨some', years, month⟩ | ⟨twelve, years, month⟩
  · rw [years, month]
    have cases : a.month = 1 ∨ a.month = 2 ∨ a.month = 3 ∨ a.month = 4 ∨ a.month = 5 ∨ a.month = 6 ∨ a.month = 7 ∨ a.month = 8 ∨
        a.month = 9 ∨ a.month = 10 ∨ a.month = 11 := by omega
    rcases cases with same | same | same | same | same | same | same | same | same | same | same
    case inr.inl =>
      rw [same, daysIn_february]
      norm_num [marchDays]
      split_ifs at leap ⊢ <;> omega
    all_goals
      rw [same]
      norm_num [marchDays, daysIn]
      omega
  · rw [years, month, twelve]
    norm_num [marchDays, daysIn]
    omega

/-- The second a year of UTC starts at. -/
def startOf (year : ℤ) : ℤ := (daysBefore (year - 1) - 719162) * 86400

theorem startOf_first (first : a.month = 1 ∧ a.day = 1) : a.daysSinceEpoch * 86400 = startOf a.year := by
  rw [daysSinceEpoch_march, marchYear, marchMonth, first.1, first.2, startOf]
  norm_num [marchDays]
  ring

theorem startOf_succ (year : ℤ) : startOf (year + 1) = startOf year + 365 * 86400 ∨ startOf (year + 1) = startOf year + 366 * 86400 := by
  unfold startOf daysBefore
  omega

theorem startOf_mono {y z : ℤ} (before : y ≤ z) : startOf y ≤ startOf z := by
  have days := daysBefore_mono (show y - 1 ≤ z - 1 by omega)
  unfold startOf
  omega

/-- A date's year of UTC is the one it is in. -/
theorem startOf_le (date : Date) : startOf date.year ≤ date.daysSinceEpoch * 86400 ∧
    date.daysSinceEpoch * 86400 < startOf (date.year + 1) := by
  obtain ⟨years, months, days⟩ := date.holds
  obtain ⟨first, isFirst⟩ : ∃ first : Date, first.year = date.year ∧ first.month = 1 ∧ first.day = 1 :=
    ⟨⟨date.year, 1, 1, years, by decide, by decide, le_trans (by decide) (daysIn_le _ _).1⟩, rfl, rfl, rfl⟩
  obtain ⟨last, isLast⟩ : ∃ last : Date, last.year = date.year ∧ last.month = 12 ∧ last.day = 31 :=
    ⟨⟨date.year, 12, 31, years, by decide, by decide, le_refl 31⟩, rfl, rfl, rfl⟩
  have longest := (daysIn_le date.year date.month).2
  have low : first ≤ date := by
    rw [le_iff]
    omega
  have high : date ≤ last := by
    rw [le_iff]
    omega
  have start := startOf_first isFirst.2
  have end_ : last.daysSinceEpoch * 86400 + 86400 = startOf (date.year + 1) := by
    rw [daysSinceEpoch_march, marchYear, marchMonth, isLast.1, isLast.2.1, isLast.2.2, startOf]
    norm_num [marchDays]
    ring
  rw [isFirst.1] at start
  have low := daysSinceEpoch_le_iff.mpr low
  have high := daysSinceEpoch_le_iff.mpr high
  constructor <;> omega

/-- The first of a month neither the year's first nor its last is a month in from each end of the year. -/
theorem startOf_month (first : a.day = 1) (months : 2 ≤ a.month ∧ a.month ≤ 11) :
    startOf a.year + 31 * 86400 ≤ a.daysSinceEpoch * 86400 ∧ a.daysSinceEpoch * 86400 + 61 * 86400 ≤ startOf (a.year + 1) := by
  have leap := daysBefore_succ a.year
  rw [daysSinceEpoch_march, marchYear, marchMonth, first, startOf, startOf, add_sub_cancel_right]
  generalize a.year = year at *
  have cases : a.month = 2 ∨ a.month = 3 ∨ a.month = 4 ∨ a.month = 5 ∨ a.month = 6 ∨ a.month = 7 ∨ a.month = 8 ∨
      a.month = 9 ∨ a.month = 10 ∨ a.month = 11 := by omega
  rcases cases with same | same | same | same | same | same | same | same | same | same
  all_goals
    rw [same]
    norm_num [marchDays]
    split at leap <;> omega

/-- The firsts of months two apart, at least, are eight weeks apart and more. -/
theorem months_apart (firsts : a.day = 1 ∧ b.day = 1) (years : a.year = b.year) (apart : a.month + 2 ≤ b.month) :
    a.daysSinceEpoch + 59 ≤ b.daysSinceEpoch := by
  have months := And.intro a.holds.2.1 b.holds.2.1
  have leap := daysBefore_succ b.year
  rw [daysSinceEpoch_march, daysSinceEpoch_march, marchYear, marchYear, marchMonth, marchMonth, firsts.1, firsts.2, years]
  generalize b.year = year at *
  have whole : daysBefore (year - 0) = daysBefore year := by rw [sub_zero]
  generalize a.month = m at *
  generalize b.month = n at *
  unfold marchDays
  split at leap <;> split <;> split <;> omega

end Date

namespace Zone

namespace Change

variable {change : Change} {date : Date} {year : ℕ}

/-- The day a clause names in its year: a day of its month and its weekday, in its week of the month, or the last where
it says the fifth. -/
structure Names (change : Change) (date : Date) : Prop where
  month : date.month = change.month
  weekday : (date.daysSinceEpoch + 4) % 7 = change.weekday
  week : if change.week = 5 then Date.daysIn date.year date.month < date.day + 7
    else 7 * (change.week - 1) < date.day ∧ date.day ≤ 7 * change.week

/-- A last week of the last December a date has, of a weekday it has four of. -/
def Past (change : Change) (year : ℕ) : Prop :=
  year = 9999 ∧ change.month = 12 ∧ change.week = 5 ∧ ¬ (3 ≤ change.weekday ∧ change.weekday ≤ 5)

/-- The first of the clause's month, and the first of the month after it. -/
theorem month_of (change : Change) (years : 1 ≤ year ∧ year ≤ 9999) :
    ∃ first : Date, first.year = year ∧ first.month = change.month ∧ first.day = 1 ∧
      Date.fromYmd year change.month 1 = some first ∧
      change.nextMonth year = if year = 9999 ∧ change.month = 12 then none
        else some (first.daysSinceEpoch + Date.daysIn year change.month) := by
  have months := change.fields.1
  have holds : Date.Exists year change.month 1 := ⟨years, months, le_refl 1, le_trans (by decide) (Date.daysIn_le _ _).1⟩
  refine ⟨⟨year, change.month, 1, holds⟩, rfl, rfl, rfl, dif_pos holds, ?_⟩
  unfold nextMonth
  by_cases twelve : change.month = 12
  · rw [if_pos twelve]
    by_cases last : year = 9999
    · rw [if_pos ⟨last, twelve⟩, last]
      rfl
    · have next : Date.Exists (year + 1) 1 1 := ⟨by omega, by decide, by decide, le_trans (by decide) (Date.daysIn_le _ _).1⟩
      rw [if_neg fun both => last both.1, Date.fromYmd, dif_pos next, Option.map_some]
      exact congrArg some (Date.first_of_next rfl rfl (.inr ⟨twelve, rfl, rfl⟩))
  · have next : Date.Exists year (change.month + 1) 1 :=
      ⟨years, by omega, by decide, le_trans (by decide) (Date.daysIn_le _ _).1⟩
    rw [if_neg twelve, if_neg fun both => twelve both.2, Date.fromYmd, dif_pos next, Option.map_some]
    exact congrArg some (Date.first_of_next rfl rfl (.inl ⟨twelve, rfl, rfl⟩))

/-- Of a day less than a week past the month's days, a week back is enough. -/
theorem within_eq {nextMonth day : ℤ} {weeks : ℕ} (some' : 0 < weeks) (near : day < nextMonth + 7) :
    within nextMonth weeks day = if nextMonth ≤ day then day - 7 else day := by
  obtain ⟨weeks, rfl⟩ := Nat.exists_eq_succ_of_ne_zero some'.ne'
  rw [within]
  split
  · cases weeks with
    | zero => rfl
    | succ weeks => rw [within, if_neg (by omega)]
  · rfl

/-- The day computed, of the first of the month: on the weekday, at most five weeks on. -/
theorem day_eq {first : Date} (found : Date.fromYmd year change.month 1 = some first)
    (next : change.nextMonth year = if year = 9999 ∧ change.month = 12 then none
      else some (first.daysSinceEpoch + Date.daysIn year change.month)) :
    change.day year = let day := first.daysSinceEpoch + ((change.weekday : ℤ) - (first.daysSinceEpoch + 4) % 7) % 7 +
        7 * (change.week - 1)
      if ¬ (year = 9999 ∧ change.month = 12) ∧ first.daysSinceEpoch + Date.daysIn year change.month ≤ day then day - 7 else day := by
  have weeks := change.fields.2.1
  have long := Date.daysIn_le year change.month
  have range := Date.range_of_date first
  unfold day
  dsimp only
  rw [found, next, Option.map_some, Option.getD_some]
  generalize first.daysSinceEpoch = start at *
  by_cases last : year = 9999 ∧ change.month = 12
  · rw [if_pos last, Option.getD_none, within_eq (by omega) (by omega), if_neg (by omega), if_neg fun both => both.1 last]
  · rw [if_neg last, Option.getD_some, within_eq (by omega) (by omega)]
    simp only [last, not_false_eq_true, true_and]

theorem day_range (years : 1 ≤ year ∧ year ≤ 9999) : ∃ first : Date, first.year = year ∧ first.month = change.month ∧
    first.day = 1 ∧ first.daysSinceEpoch ≤ change.day year ∧ change.day year ≤ first.daysSinceEpoch + 34 ∧
    (change.day year + 4) % 7 = change.weekday := by
  obtain ⟨first, isYear, isMonth, isFirst, found, next⟩ := month_of change years
  have weeks := change.fields.2
  have long := Date.daysIn_le year change.month
  refine ⟨first, isYear, isMonth, isFirst, ?_⟩
  rw [day_eq found next]
  dsimp only
  split <;> omega

/-- A clause's day, as it is computed, is the one it names, but past the last December. -/
theorem day_eq_iff (names : change.Names date) : change.day date.year = date.daysSinceEpoch ↔ ¬ change.Past date.year := by
  obtain ⟨month, weekday, week⟩ := names
  obtain ⟨first, isYear, isMonth, isFirst, found, next⟩ := month_of change date.holds.1
  have apart := Date.days_in_month isYear.symm (month.trans isMonth.symm)
  have weeks := change.fields.2
  have inside := date.holds.2.2
  rw [month] at inside week
  have long := Date.daysIn_le date.year change.month
  rw [day_eq found next]
  dsimp only
  unfold Past
  rw [isFirst] at apart
  by_cases last : date.year = 9999 ∧ change.month = 12
  · have start : first.daysSinceEpoch = 2932866 := by
      rw [Date.daysSinceEpoch_march, Date.marchYear, Date.marchMonth, isYear, isMonth, isFirst, last.1, last.2]
      norm_num [Date.marchDays, Date.daysBefore]
    have most : Date.daysIn date.year change.month = 31 := by
      rw [last.1, last.2]
      rfl
    rw [if_neg fun both => both.1 last]
    rw [most] at week inside
    rw [start] at apart ⊢
    clear found next long start most
    split at week <;> omega
  · rw [iff_true_right fun past => last ⟨past.1, past.2.1⟩]
    simp only [last, not_false_eq_true, true_and]
    generalize Date.daysIn date.year change.month = most at inside week long ⊢
    clear found next last
    split at week <;> split <;> omega

/-- A last week of the last December has a day of each weekday, of those it has four of before its last three. -/
theorem exists_last (past : change.Past 9999) : ∃ date : Date, date.year = 9999 ∧ change.Names date := by
  obtain ⟨-, month, week, weekday⟩ := past
  have weekdays := change.fields.2.2
  have days : ∃ day : ℕ, 25 ≤ day ∧ day ≤ 28 ∧ (2932865 + (day : ℤ) + 4) % 7 = change.weekday := by
    have cases : change.weekday = 0 ∨ change.weekday = 1 ∨ change.weekday = 2 ∨ change.weekday = 6 := by omega
    rcases cases with same | same | same | same <;> rw [same]
    · exact ⟨26, by decide⟩
    · exact ⟨27, by decide⟩
    · exact ⟨28, by decide⟩
    · exact ⟨25, by decide⟩
  obtain ⟨day, least, most, named⟩ := days
  have holds : Date.Exists 9999 12 day := ⟨by decide, by decide, by omega, le_trans most (Date.daysIn_le _ _).1⟩
  refine ⟨⟨9999, 12, day, holds⟩, rfl, month.symm, ?_, ?_⟩
  · rw [← named, Date.daysSinceEpoch_march, Date.marchYear, Date.marchMonth]
    norm_num [Date.marchDays, Date.daysBefore]
    omega
  · rw [if_pos week]
    exact show 31 < day + 7 by omega

end Change

open Date (startOf startOf_succ startOf_mono startOf_le)

namespace Rule

variable {y z u : ℤ}

/-- An instant of the years dates have is in the year it is between the starts of. -/
theorem yearAt_eq (years : 1 ≤ y ∧ y ≤ 9999) (inside : startOf y ≤ u ∧ u < startOf (y + 1)) : yearAt u = y := by
  have least : startOf 1 = -719162 * 86400 := by decide
  have most : startOf 10000 = 2932897 * 86400 := by decide
  have low := startOf_mono years.1
  have high := startOf_mono (show y + 1 ≤ 10000 by omega)
  obtain ⟨date, found⟩ := Date.exists_of_range (show -719162 ≤ u / 86400 by omega) (by omega)
  have days := Date.daysSinceEpoch_of_fromDays found
  obtain ⟨start, next⟩ := startOf_le date
  rw [yearAt, found, Option.map_some, Option.getD_some]
  have whole : ∃ k, startOf y = k * 86400 := ⟨_, rfl⟩
  have whole' : ∃ k, startOf (y + 1) = k * 86400 := ⟨_, rfl⟩
  obtain ⟨k, first⟩ := whole
  obtain ⟨l, last⟩ := whole'
  rcases lt_trichotomy (date.year : ℤ) y with before | same | after
  · have later := startOf_mono (show (date.year : ℤ) + 1 ≤ y by omega)
    omega
  · exact same
  · have later := startOf_mono (show y + 1 ≤ (date.year : ℤ) by omega)
    omega

theorem yearAt_out (out : u < startOf 1 ∨ startOf 10000 ≤ u) : yearAt u = 1970 := by
  have least : startOf 1 = -719162 * 86400 := by decide
  have most : startOf 10000 = 2932897 * 86400 := by decide
  rw [least, most] at out
  cases found : Date.fromDays (u / 86400) with
  | none => rw [yearAt, found]; rfl
  | some date =>
    have range := Date.range_of_date date
    rw [Date.daysSinceEpoch_of_fromDays found] at range
    omega

/-- An instant is in a year dates have, or in none. -/
theorem year_cases (u : ℤ) : (u < startOf 1 ∨ startOf 10000 ≤ u) ∨ ∃ y, (1 ≤ y ∧ y ≤ 9999) ∧ startOf y ≤ u ∧ u < startOf (y + 1) := by
  by_cases out : u < startOf 1 ∨ startOf 10000 ≤ u
  · exact .inl out
  · right
    push Not at out
    have some' : ∃ y, (1 : ℤ) ≤ y ∧ startOf y ≤ u := ⟨1, le_refl 1, out.1⟩
    obtain ⟨greatest, ⟨least, start⟩, most⟩ := Int.exists_greatest_of_bdd (P := fun y => 1 ≤ y ∧ startOf y ≤ u)
      ⟨9999, fun y held => by
        by_contra more
        have later := startOf_mono (show 10000 ≤ y by omega)
        omega⟩ some'
    refine ⟨greatest, ⟨least, ?_⟩, start, ?_⟩
    · by_contra more
      have later := startOf_mono (show 10000 ≤ greatest by omega)
      omega
    · by_contra later
      have next := most (greatest + 1) ⟨by omega, not_lt.mp later⟩
      omega

/-- An instant of each year, from each to the next so many weeks, the epoch's in the years dates have. -/
structure Yearly (mark : ℤ → ℤ) : Prop where
  weeks : ∀ y, 1 ≤ y → y < 9999 → ∃ k, 48 ≤ k ∧ k ≤ 57 ∧ mark (y + 1) = mark y + 604800 * k
  epoch : startOf 1 < mark 1970 ∧ mark 1970 < startOf 10000

theorem Yearly.lt {mark : ℤ → ℤ} (yearly : Yearly mark) (least : 1 ≤ y) (before : y < z) (most : z ≤ 9999) : mark y < mark z := by
  induction z, (show y + 1 ≤ z by omega) using Int.leInduction with
  | base =>
    obtain ⟨k, more, -, next⟩ := yearly.weeks y least (by omega)
    omega
  | succ z after ih =>
    have earlier := ih (by omega) (by omega)
    obtain ⟨k, more, -, next⟩ := yearly.weeks z (by omega) (by omega)
    omega

theorem Yearly.inj {mark : ℤ → ℤ} (yearly : Yearly mark) (yearsY : 1 ≤ y ∧ y ≤ 9999) (yearsZ : 1 ≤ z ∧ z ≤ 9999)
    (same : mark y = mark z) : y = z := by
  rcases lt_trichotomy y z with before | same' | after
  · have less := yearly.lt yearsY.1 before yearsZ.2
    omega
  · exact same'
  · have less := yearly.lt yearsZ.1 after yearsY.2
    omega

/-- No two starts of years are so many weeks apart. -/
theorem starts_apart {k : ℤ} (few : 48 ≤ k ∧ k ≤ 57) : startOf z ≠ startOf y + 604800 * k := by
  intro same
  rcases lt_trichotomy z (y + 1) with less | next | more
  · have before := startOf_mono (show z ≤ y by omega)
    omega
  · subst next
    rcases startOf_succ y with year | year <;> omega
  · have after := startOf_mono (show y + 1 + 1 ≤ z by omega)
    rcases startOf_succ y with first | first <;> rcases startOf_succ (y + 1) with second | second <;> omega

/-- Where a change comes at each year's mark, and in a year none but at its mark, each mark is in its year. -/
theorem Yearly.inside {mark : ℤ → ℤ} (yearly : Yearly mark) {state : ℤ → Bool}
    (changes : ∀ y, 1 ≤ y → y ≤ 9999 → state (mark y) = true ∧ state (mark y - 1) = false)
    (alone : ∀ u, yearAt u = yearAt (u - 1) → state u = true → state (u - 1) = false → u = mark (yearAt u))
    (years : 1 ≤ y ∧ y ≤ 9999) : startOf y ≤ mark y ∧ mark y ≤ startOf (y + 1) := by
  have placed (w : ℤ) (years : 1 ≤ w ∧ w ≤ 9999) :
      (startOf w < mark w ∧ mark w < startOf (w + 1)) ∨ ∃ z, mark w = startOf z := by
    obtain ⟨now, ago⟩ := changes w years.1 years.2
    have away (same : yearAt (mark w) = 1970 ∧ yearAt (mark w - 1) = 1970) (out : mark w < startOf 1 ∨ startOf 10000 < mark w) : False := by
      have epoch := alone (mark w) (same.1.trans same.2.symm) now ago
      rw [same.1] at epoch
      have held := yearly.epoch
      omega
    rcases year_cases (mark w) with (before | after) | ⟨z, yearsZ, low, high⟩
    · exact (away ⟨yearAt_out (.inl before), yearAt_out (.inl (by omega))⟩ (.inl before)).elim
    · rcases after.eq_or_lt with edge | beyond
      · exact .inr ⟨10000, edge.symm⟩
      · exact (away ⟨yearAt_out (.inr after), yearAt_out (.inr (by omega))⟩ (.inr beyond)).elim
    · rcases low.eq_or_lt with edge | later
      · exact .inr ⟨z, edge.symm⟩
      · left
        have year := yearAt_eq yearsZ ⟨low, high⟩
        have same := alone (mark w) (year.trans (yearAt_eq yearsZ (u := mark w - 1) ⟨by omega, by omega⟩).symm) now ago
        rw [year] at same
        have it := yearly.inj years yearsZ same
        subst it
        exact ⟨later, high⟩
  rcases placed y years with within | ⟨z, edge⟩
  · exact ⟨within.1.le, within.2.le⟩
  · rcases lt_or_ge z y with before | later
    · -- The mark of the year before is a year's start too, or in its own year, and is neither.
      have early : 1 < y := by
        by_contra first
        have one : y = 1 := by omega
        subst one
        have earlier := startOf_mono (show z ≤ 0 by omega)
        have zero := startOf_succ 0
        obtain ⟨now, ago⟩ := changes 1 years.1 years.2
        have year := yearAt_out (u := mark 1) (.inl (by norm_num at zero; omega))
        have epoch := alone (mark 1) (year.trans (yearAt_out (.inl (by norm_num at zero; omega))).symm) now ago
        rw [year] at epoch
        have held := yearly.epoch
        norm_num at zero
        omega
      obtain ⟨k, few, most, next⟩ := yearly.weeks (y - 1) (by omega) (by omega)
      rw [sub_add_cancel] at next
      rcases placed (y - 1) (by omega) with within | ⟨z', edge'⟩
      · have start := startOf_mono (show z ≤ y - 1 by omega)
        omega
      · exact absurd (by omega) (starts_apart (z := z) (y := z') ⟨few, most⟩)
    · rcases lt_or_ge (y + 1) z with after | near
      · by_cases last : y = 9999
        · -- Past every date, where the rule answers as in the epoch's year.
          subst last
          have beyond := startOf_mono (show 10001 ≤ z by omega)
          have length := startOf_succ 10000
          norm_num at length
          obtain ⟨now, ago⟩ := changes 9999 years.1 years.2
          have year : yearAt (mark 9999) = 1970 := yearAt_out (.inr (by omega))
          have epoch := alone (mark 9999) (year.trans (yearAt_out (.inr (by omega))).symm) now ago
          rw [year] at epoch
          have same := yearly.inj years (z := 1970) (by decide) epoch
          omega
        · obtain ⟨k, few, most, next⟩ := yearly.weeks y years.1 (by omega)
          rcases placed (y + 1) (by omega) with within | ⟨z', edge'⟩
          · have start := startOf_mono (show y + 1 + 1 ≤ z by omega)
            omega
          · exact absurd (by omega) (starts_apart (z := z') (y := z) ⟨few, most⟩)
      · rw [edge]
        exact ⟨startOf_mono later, startOf_mono near⟩

/-- Whether a rule is in daylight time at an instant, its changes at each year's marks. -/
def marked (begins ends : ℤ → ℤ) (utc : ℤ) : Bool := inDaylight (begins (yearAt utc)) (ends (yearAt utc)) utc

/-- The changes come at each year's marks, and at no other instant. -/
structure AtMarks (begins ends : ℤ → ℤ) (state : ℤ → Bool) : Prop where
  begin_ : ∀ y, 1 ≤ y → y ≤ 9999 → state (begins y) = true ∧ state (begins y - 1) = false
  end_ : ∀ y, 1 ≤ y → y ≤ 9999 → state (ends y) = false ∧ state (ends y - 1) = true
  only : ∀ u, state u ≠ state (u - 1) → ∃ y, (1 ≤ y ∧ y ≤ 9999) ∧ (u = begins y ∨ u = ends y)

/-- Each mark is in its own year, its last instant's end included, none begins as another ends, and every year's come in
one order. -/
structure InOrder (begins ends : ℤ → ℤ) : Prop where
  begin_ : ∀ y, 1 ≤ y → y ≤ 9999 → startOf y ≤ begins y ∧ begins y ≤ startOf (y + 1)
  end_ : ∀ y, 1 ≤ y → y ≤ 9999 → startOf y ≤ ends y ∧ ends y ≤ startOf (y + 1)
  apart : ∀ y z, 1 ≤ y → y ≤ 9999 → 1 ≤ z → z ≤ 9999 → begins y ≠ ends z
  alike : ∀ y, 1 ≤ y → y < 9999 → (begins y < ends y ↔ begins (y + 1) < ends (y + 1))

section marks
variable {begins ends : ℤ → ℤ} {state : ℤ → Bool}

/-- Between an instant out of it and a later one in it, one it comes at. -/
theorem exists_turn {a b : ℤ} (before : a ≤ b) (out : state a = false) (within : state b = true) :
    ∃ u, a < u ∧ u ≤ b ∧ state u = true ∧ state (u - 1) = false := by
  induction b, before using Int.leInduction with
  | base =>
    rw [out] at within
    exact absurd within Bool.false_ne_true
  | succ b before ih =>
    cases now : state b with
    | false =>
      refine ⟨b + 1, by omega, le_refl _, within, ?_⟩
      rwa [add_sub_cancel_right]
    | true =>
      obtain ⟨u, after, most, turn⟩ := ih now
      exact ⟨u, after, by omega, turn⟩

/-- The order of every year's marks is the first's. -/
theorem InOrder.alike_first (ordered : InOrder begins ends) (years : 1 ≤ y ∧ y ≤ 9999) :
    begins y < ends y ↔ begins 1 < ends 1 := by
  obtain ⟨least, most⟩ := years
  induction y, least using Int.leInduction with
  | base => rfl
  | succ y least ih => exact (ordered.alike y least (by omega)).symm.trans (ih (by omega))

theorem InOrder.swap (ordered : InOrder begins ends) : InOrder ends begins where
  begin_ := ordered.end_
  end_ := ordered.begin_
  apart y z least most least' most' same := ordered.apart z y least' most' least most same.symm
  alike y least most := by
    have now := ordered.apart y y least most.le least most.le
    have next := ordered.apart (y + 1) (y + 1) (by omega) (by omega) (by omega) (by omega)
    have alike := ordered.alike y least most
    omega

/-- Out of daylight time is in the time that begins as it ends and ends as it begins. -/
theorem marked_swap (apart : ∀ y, 1 ≤ y → y ≤ 9999 → begins y ≠ ends y) (u : ℤ) : marked ends begins u = !marked begins ends u := by
  have years : 1 ≤ yearAt u ∧ yearAt u ≤ 9999 := by
    rcases year_cases u with out | ⟨y, years, inside⟩
    · rw [yearAt_out out]
      decide
    · rwa [yearAt_eq years inside]
  have differ := apart _ years.1 years.2
  unfold marked inDaylight
  rw [Bool.eq_iff_iff]
  rcases lt_or_gt_of_ne differ with before | after
  · rw [if_pos before, if_neg before.le.not_gt]
    simp only [Bool.or_eq_true, Bool.not_eq_true', Bool.and_eq_false_iff, decide_eq_true_eq, decide_eq_false_iff_not]
    omega
  · rw [if_neg after.le.not_gt, if_pos after]
    simp only [Bool.and_eq_true, Bool.not_eq_true', Bool.or_eq_false_iff, decide_eq_true_eq, decide_eq_false_iff_not]
    omega

theorem AtMarks.swap (at_ : AtMarks begins ends state) : AtMarks ends begins fun u => !state u where
  begin_ y least most := by
    obtain ⟨now, ago⟩ := at_.end_ y least most
    exact ⟨congrArg not now, congrArg not ago⟩
  end_ y least most := by
    obtain ⟨now, ago⟩ := at_.begin_ y least most
    exact ⟨congrArg not now, congrArg not ago⟩
  only u differ := by
    obtain ⟨y, years, mark⟩ := at_.only u fun same => differ (congrArg not same)
    exact ⟨y, years, mark.symm⟩

/-- Where each year's daylight time begins before it ends, and in its year, it is every year's. -/
theorem InOrder.marked_iff (ordered : InOrder begins ends) (before : begins 1 < ends 1) (u : ℤ) :
    marked begins ends u = true ↔ ∃ y, (1 ≤ y ∧ y ≤ 9999) ∧ begins y ≤ u ∧ u < ends y := by
  have inYear (y : ℤ) (years : 1 ≤ y ∧ y ≤ 9999) (same : yearAt u = y) :
      marked begins ends u = true ↔ begins y ≤ u ∧ u < ends y := by
    rw [marked, same, inDaylight, if_pos ((ordered.alike_first years).mpr before), Bool.and_eq_true, decide_eq_true_eq, decide_eq_true_eq]
  constructor
  · intro held
    rcases year_cases u with out | ⟨y, years, inside⟩
    · exact ⟨1970, by decide, (inYear 1970 (by decide) (yearAt_out out)).mp held⟩
    · exact ⟨y, years, (inYear y years (yearAt_eq years inside)).mp held⟩
  · rintro ⟨y, years, after, before⟩
    have begin_ := ordered.begin_ y years.1 years.2
    have end_ := ordered.end_ y years.1 years.2
    exact (inYear y years (yearAt_eq years ⟨by omega, by omega⟩)).mpr ⟨after, before⟩

theorem InOrder.atMarks_of_before (ordered : InOrder begins ends) (before : begins 1 < ends 1) :
    AtMarks begins ends (marked begins ends) := by
  have order {y : ℤ} (years : 1 ≤ y ∧ y ≤ 9999) : begins y < ends y := (ordered.alike_first years).mpr before
  have held := ordered.marked_iff before
  refine ⟨fun y least most => ⟨(held _).mpr ⟨y, ⟨least, most⟩, le_refl _, order ⟨least, most⟩⟩, ?_⟩,
    fun y least most => ⟨?_, (held _).mpr ⟨y, ⟨least, most⟩, ?_, sub_one_lt _⟩⟩, fun u differ => ?_⟩
  · -- A year in daylight time just before this one's begins ends no earlier than it begins.
    rw [Bool.eq_false_iff]
    intro ago
    obtain ⟨z, years, after, before⟩ := (held _).mp ago
    have apart := ordered.apart y z least most years.1 years.2
    rcases lt_or_ge z y with earlier | later
    · have end_ := ordered.end_ z years.1 years.2
      have begin_ := ordered.begin_ y least most
      have start := startOf_mono (show z + 1 ≤ y by omega)
      omega
    · rcases later.eq_or_lt with same | later
      · subst same
        omega
      · have begin_ := ordered.begin_ z years.1 years.2
        have end_ := ordered.begin_ y least most
        have start := startOf_mono (show y + 1 ≤ z by omega)
        omega
  · rw [Bool.eq_false_iff]
    intro now
    obtain ⟨z, years, after, before⟩ := (held _).mp now
    have apart := ordered.apart z y years.1 years.2 least most
    rcases lt_or_ge y z with later | earlier
    · have end_ := ordered.end_ y least most
      have begin_ := ordered.begin_ z years.1 years.2
      have start := startOf_mono (show y + 1 ≤ z by omega)
      omega
    · rcases earlier.eq_or_lt with same | earlier
      · subst same
        omega
      · have end_ := ordered.end_ z years.1 years.2
        have start := startOf_mono (show z + 1 ≤ y by omega)
        have end' := ordered.end_ y least most
        omega
  · have less := order ⟨least, most⟩
    omega
  · cases now : marked begins ends u with
    | true =>
      obtain ⟨y, years, after, before⟩ := (held u).mp now
      refine ⟨y, years, .inl ?_⟩
      by_contra later
      exact differ (now.trans ((held (u - 1)).mpr ⟨y, years, by omega, by omega⟩).symm)
    | false =>
      have ago : marked begins ends (u - 1) = true := by
        cases ago : marked begins ends (u - 1) with
        | true => rfl
        | false => exact absurd (now.trans ago.symm) differ
      obtain ⟨y, years, after, before⟩ := (held (u - 1)).mp ago
      refine ⟨y, years, .inr ?_⟩
      by_contra later
      exact Bool.false_ne_true (now.symm.trans ((held u).mpr ⟨y, years, by omega, by omega⟩))

theorem InOrder.atMarks (ordered : InOrder begins ends) : AtMarks begins ends (marked begins ends) := by
  by_cases before : begins 1 < ends 1
  · exact ordered.atMarks_of_before before
  · -- Standard time is between an end and a begin of one year, as daylight time would be.
    have apart (y : ℤ) (least : 1 ≤ y) (most : y ≤ 9999) := ordered.apart y y least most least most
    have first := apart 1 (le_refl 1) (by decide)
    have swapped := (ordered.swap.atMarks_of_before (by omega)).swap
    have same : (fun u => !marked ends begins u) = marked begins ends := by
      funext u
      rw [marked_swap apart, Bool.not_not]
    rwa [same] at swapped

/-- In one year the rule comes into daylight time at the year's begin alone, and out of it at its end alone. -/
theorem marked_turn (year : yearAt u = yearAt (u - 1)) :
    (marked begins ends u = true → marked begins ends (u - 1) = false → u = begins (yearAt u)) ∧
      (marked begins ends u = false → marked begins ends (u - 1) = true → u = ends (yearAt u)) := by
  unfold marked inDaylight
  rw [← year]
  generalize begins (yearAt u) = b
  generalize ends (yearAt u) = e
  split
  · simp only [Bool.and_eq_true, Bool.and_eq_false_iff, decide_eq_true_eq, decide_eq_false_iff_not]
    omega
  · simp only [Bool.or_eq_true, Bool.or_eq_false_iff, decide_eq_true_eq, decide_eq_false_iff_not]
    omega

/-- A year whose daylight time begins before it ends is not followed by one whose ends before it begins. -/
theorem AtMarks.alike_of (at_ : AtMarks begins ends state) (yearly : Yearly begins) (late : Yearly ends)
    (years : 1 ≤ y ∧ y < 9999) (before : begins y < ends y) : ¬ ends (y + 1) < begins (y + 1) := by
  intro after
  have now := (at_.end_ y years.1 years.2.le).1
  have next := (at_.end_ (y + 1) (by omega) (by omega)).2
  have less := late.lt years.1 (lt_add_one y) (by omega)
  obtain ⟨u, later, most, turn⟩ := exists_turn (show ends y ≤ ends (y + 1) - 1 by omega) now next
  obtain ⟨w, yearsW, mark⟩ := at_.only u (by rw [turn.1, turn.2]; decide)
  rcases mark with rfl | rfl
  · have after' : y < w := by
      by_contra earlier
      rcases (not_lt.mp earlier).eq_or_lt with same | earlier
      · subst same
        omega
      · have lower := yearly.lt yearsW.1 earlier years.2.le
        omega
    have before' : w < y + 1 := by
      by_contra later'
      rcases (not_lt.mp later').eq_or_lt with same | later'
      · subst same
        omega
      · have upper := yearly.lt (by omega) later' yearsW.2
        omega
    omega
  · have out := (at_.end_ w yearsW.1 yearsW.2).1
    rw [turn.1] at out
    exact Bool.false_ne_true out.symm

/-- The changes come at the marks exactly where the marks are in order. -/
theorem atMarks_iff (yearly : Yearly begins) (late : Yearly ends) :
    AtMarks begins ends (marked begins ends) ↔ InOrder begins ends := by
  constructor
  · intro at_
    have apart (y z : ℤ) (least : 1 ≤ y) (most : y ≤ 9999) (least' : 1 ≤ z) (most' : z ≤ 9999) : begins y ≠ ends z := by
      intro same
      have now := (at_.begin_ y least most).1
      rw [same, (at_.end_ z least' most').1] at now
      exact Bool.false_ne_true now
    have swapped := at_.swap
    refine ⟨fun y least most => yearly.inside at_.begin_ (fun u year now ago => (marked_turn year).1 now ago) ⟨least, most⟩,
      fun y least most => @Yearly.inside y ends late (fun u => !marked begins ends u) swapped.begin_ (fun u year now ago => (@marked_turn u begins ends year).2 ?_ ?_) ⟨least, most⟩, apart,
      fun y least most => ?_⟩
    · rwa [Bool.not_eq_true'] at now
    · rwa [Bool.not_eq_false'] at ago
    · have now := apart y y least most.le least most.le
      have next := apart (y + 1) (y + 1) (by omega) (by omega) (by omega) (by omega)
      have first := at_.alike_of yearly late ⟨least, most⟩
      have second := swapped.alike_of late yearly ⟨least, most⟩
      omega
  · exact InOrder.atMarks

end marks

/-- The instants a rule's two clauses come to in a year: the first said in standard time, the second in daylight time. -/
def begins (rule : Rule) (start : Change) (year : ℤ) : ℤ := start.instant year - rule.standard.toInt

def ends (daylight : Int32) (end_ : Change) (year : ℤ) : ℤ := end_.instant year - daylight.toInt

/-- The rule's offset changes at its clauses' instants, to daylight time and from it, and at no other; and the day each
clause's instant is on is the one it names. -/
structure ChangesAsNamed (rule : Rule) (daylight : Int32) (start end_ : Change) : Prop where
  begin_ : ∀ y, 1 ≤ y → y ≤ 9999 → rule.offsetAt (rule.begins start y) = daylight ∧ rule.offsetAt (rule.begins start y - 1) = rule.standard
  ended : ∀ y, 1 ≤ y → y ≤ 9999 → rule.offsetAt (ends daylight end_ y) = rule.standard ∧ rule.offsetAt (ends daylight end_ y - 1) = daylight
  only : ∀ u, rule.offsetAt u ≠ rule.offsetAt (u - 1) →
    ∃ y, (1 ≤ y ∧ y ≤ 9999) ∧ (u = rule.begins start y ∨ u = ends daylight end_ y)
  days : ∀ change, change = start ∨ change = end_ → ∀ date, change.Names date →
    change.instant date.year = date.daysSinceEpoch * 86400 + change.time.toInt

theorem offsetAt_marked {rule : Rule} {daylight : Int32} {start end_ : Change} (kept : rule.daylight = some (daylight, start, end_))
    (utc : ℤ) : rule.offsetAt utc = if marked (rule.begins start) (ends daylight end_) utc then daylight else rule.standard := by
  rw [offsetAt, kept]
  rfl

/-- A clause's instants are so many weeks from each year to the next, and the epoch's in the years dates have. -/
theorem yearly_instant (change : Change) (offset : Int32) : Yearly fun year => change.instant year - offset.toInt := by
  constructor
  · intro y first last
    obtain ⟨n, rfl⟩ : ∃ n : ℕ, y = n := ⟨y.toNat, by omega⟩
    obtain ⟨a, yearA, monthA, dayA, lowA, highA, weekA⟩ := @Change.day_range change n (by omega)
    obtain ⟨b, yearB, monthB, dayB, lowB, highB, weekB⟩ := @Change.day_range change (n + 1) (by omega)
    have years : a.daysSinceEpoch + 365 ≤ b.daysSinceEpoch ∧ b.daysSinceEpoch ≤ a.daysSinceEpoch + 366 := by
      rw [Date.daysSinceEpoch_march, Date.daysSinceEpoch_march, Date.marchYear, Date.marchYear, Date.marchMonth, Date.marchMonth,
        yearA, yearB, monthA, monthB, dayA, dayB]
      unfold Date.daysBefore
      split <;> omega
    have now : max 1 (min (n : ℤ) 9999) = n := by omega
    have next : max 1 (min ((n : ℤ) + 1) 9999) = n + 1 := by
      rw [min_eq_left (by omega), max_eq_right (by omega)]
    refine ⟨(change.day (n + 1) - change.day n) / 7, by omega, by omega, ?_⟩
    unfold Change.instant
    rw [now, next, Int.toNat_natCast, Int.toNat_natCast_add_one]
    omega
  · obtain ⟨a, yearA, monthA, dayA, lowA, highA, -⟩ := @Change.day_range change 1970 (by decide)
    have least : startOf 1 = -719162 * 86400 := by decide
    have most : startOf 10000 = 2932897 * 86400 := by decide
    have time := And.intro change.time.le_toInt change.time.toInt_lt
    have east := And.intro offset.le_toInt offset.toInt_lt
    have near := startOf_le a
    have first : startOf 1970 = 0 := by decide
    have next : startOf (1970 + 1) = 31536000 := by decide
    have year : change.instant 1970 = change.day 1970 * 86400 + change.time.toInt := rfl
    rw [yearA] at near
    norm_num at near first next time east
    rw [year, least, most]
    omega

/-- A clause's day is the one it names in every year, but where it may name the last week of the last December. -/
theorem days_iff (change : Change) : (∀ date : Date, change.Names date →
    change.instant date.year = date.daysSinceEpoch * 86400 + change.time.toInt) ↔ ¬ change.Past 9999 := by
  have year (date : Date) : change.instant date.year = change.day date.year * 86400 + change.time.toInt := by
    have years := date.holds.1
    unfold Change.instant
    rw [show (max 1 (min (date.year : ℤ) 9999)).toNat = date.year by omega]
  constructor
  · intro each past
    obtain ⟨date, last, named⟩ := Change.exists_last past
    have same := each date named
    rw [year] at same
    refine (Change.day_eq_iff named).mp (by omega) ?_
    rw [last]
    exact past
  · intro never date named
    rw [year, (Change.day_eq_iff named).mpr fun past => never (past.1 ▸ past)]

/-- Clauses of months two apart, neither January nor December, and no more than ten days off their local midnights in UTC,
come in order. -/
theorem inOrder_of_months {rule : Rule} {daylight : Int32} {start end_ : Change}
    (months : (2 ≤ start.month ∧ start.month ≤ 11) ∧ 2 ≤ end_.month ∧ end_.month ≤ 11)
    (apart : start.month + 2 ≤ end_.month ∨ end_.month + 2 ≤ start.month)
    (near : |start.time.toInt - rule.standard.toInt| ≤ 864000 ∧ |end_.time.toInt - daylight.toInt| ≤ 864000) :
    InOrder (rule.begins start) (ends daylight end_) := by
  rw [abs_le, abs_le] at near
  have placed {y : ℤ} (least : 1 ≤ y) (most : y ≤ 9999) :
      (startOf y < rule.begins start y ∧ rule.begins start y < startOf (y + 1)) ∧
        (startOf y < ends daylight end_ y ∧ ends daylight end_ y < startOf (y + 1)) ∧
          if start.month < end_.month then rule.begins start y < ends daylight end_ y else ends daylight end_ y < rule.begins start y := by
    obtain ⟨n, rfl⟩ : ∃ n : ℕ, y = n := ⟨y.toNat, by omega⟩
    obtain ⟨a, yearA, monthA, dayA, lowA, highA, -⟩ := @Change.day_range start n (by omega)
    obtain ⟨b, yearB, monthB, dayB, lowB, highB, -⟩ := @Change.day_range end_ n (by omega)
    have insideA := Date.startOf_month dayA (monthA ▸ months.1)
    have insideB := Date.startOf_month dayB (monthB ▸ months.2)
    have now : max 1 (min (n : ℤ) 9999) = n := by omega
    have one : rule.begins start n = start.day n * 86400 + start.time.toInt - rule.standard.toInt := by
      rw [begins, Change.instant, now, Int.toNat_natCast]
    have two : ends daylight end_ n = end_.day n * 86400 + end_.time.toInt - daylight.toInt := by
      rw [ends, Change.instant, now, Int.toNat_natCast]
    rw [yearA] at insideA
    rw [yearB] at insideB
    refine ⟨by omega, by omega, ?_⟩
    split
    · have far := Date.months_apart ⟨dayA, dayB⟩ (yearA.trans yearB.symm) (by omega)
      omega
    · have far := Date.months_apart ⟨dayB, dayA⟩ (yearB.trans yearA.symm) (by omega)
      omega
  refine ⟨fun y least most => ⟨(placed least most).1.1.le, (placed least most).1.2.le⟩,
    fun y least most => ⟨(placed least most).2.1.1.le, (placed least most).2.1.2.le⟩, fun y z least most least' most' same => ?_,
    fun y least most => ?_⟩
  · obtain ⟨first, -, -⟩ := placed least most
    obtain ⟨-, second, -⟩ := placed least' most'
    rcases lt_trichotomy y z with before | rfl | after
    · have start' := startOf_mono (show y + 1 ≤ z by omega)
      omega
    · have order := (placed least most).2.2
      split at order <;> omega
    · have start' := startOf_mono (show z + 1 ≤ y by omega)
      omega
  · have now := (placed least most.le).2.2
    have next := (placed (show 1 ≤ y + 1 by omega) (by omega)).2.2
    split at now <;> simp only [*, if_true, if_false] at next <;> omega

/-- A rule's changes are as its clauses name them exactly where it has none, or they come in order, and neither clause names
the last week of the last December of a weekday that has four there. -/
theorem changesAsNamed_iff {rule : Rule} {daylight : Int32} {start end_ : Change} (kept : rule.daylight = some (daylight, start, end_)) :
    rule.ChangesAsNamed daylight start end_ ↔
      (rule.standard = daylight ∨ InOrder (rule.begins start) (ends daylight end_)) ∧ ¬ start.Past 9999 ∧ ¬ end_.Past 9999 := by
  have offset := offsetAt_marked kept
  have each : (∀ change, change = start ∨ change = end_ → ∀ date : Date, change.Names date →
      change.instant date.year = date.daysSinceEpoch * 86400 + change.time.toInt) ↔ ¬ start.Past 9999 ∧ ¬ end_.Past 9999 := by
    rw [← days_iff, ← days_iff]
    exact ⟨fun all => ⟨all start (.inl rfl), all end_ (.inr rfl)⟩, fun both change which => by
      rcases which with rfl | rfl
      · exact both.1
      · exact both.2⟩
  by_cases same : rule.standard = daylight
  · have flat (utc : ℤ) : rule.offsetAt utc = daylight := by
      rw [offset, same, ite_self]
    constructor
    · exact fun named => ⟨.inl same, each.mp named.days⟩
    · rintro ⟨-, days⟩
      exact ⟨fun y _ _ => ⟨flat _, (flat _).trans same.symm⟩, fun y _ _ => ⟨(flat _).trans same.symm, flat _⟩,
        fun u differ => absurd ((flat _).trans (flat _).symm) differ, each.mpr days⟩
  · have inside (utc : ℤ) : rule.offsetAt utc = daylight ↔ marked (rule.begins start) (ends daylight end_) utc = true := by
      rw [offset]
      split
      · next held => exact iff_of_true rfl held
      · next out => exact iff_of_false same out
    have outside (utc : ℤ) : rule.offsetAt utc = rule.standard ↔ marked (rule.begins start) (ends daylight end_) utc = false := by
      rw [offset]
      split
      · next held => exact iff_of_false (fun alike => same alike.symm) (by rw [held]; decide)
      · next out => exact iff_of_true rfl (Bool.eq_false_iff.mpr out)
    have turns (utc : ℤ) : rule.offsetAt utc ≠ rule.offsetAt (utc - 1) ↔
        marked (rule.begins start) (ends daylight end_) utc ≠ marked (rule.begins start) (ends daylight end_) (utc - 1) := by
      rw [offset, offset]
      cases marked (rule.begins start) (ends daylight end_) utc <;>
        cases marked (rule.begins start) (ends daylight end_) (utc - 1) <;> simp [same, Ne.symm same]
    have marks := atMarks_iff (yearly_instant start rule.standard) (yearly_instant end_ daylight)
    rw [or_iff_right same, ← each]
    constructor
    · intro named
      refine ⟨marks.mp ⟨fun y least most => ?_, fun y least most => ?_, fun u differ => named.only u ((turns u).mpr differ)⟩, named.days⟩
      · exact ⟨(inside _).mp (named.begin_ y least most).1, (outside _).mp (named.begin_ y least most).2⟩
      · exact ⟨(outside _).mp (named.ended y least most).1, (inside _).mp (named.ended y least most).2⟩
    · rintro ⟨ordered, days⟩
      have at_ := marks.mpr ordered
      refine ⟨fun y least most => ?_, fun y least most => ?_, fun u differ => at_.only u ((turns u).mp differ), days⟩
      · exact ⟨(inside _).mpr (at_.begin_ y least most).1, (outside _).mpr (at_.begin_ y least most).2⟩
      · exact ⟨(outside _).mpr (at_.end_ y least most).1, (inside _).mpr (at_.end_ y least most).2⟩

end Rule

variable {zone : Zone} {date : Date} {seconds : ℤ}

/-- Of every zone a local time names its instant exactly where the instant is held and the offset looked up last is the one
it is at: near one change at most, where none that skips the time is later than it, and none that repeats it no later. And
of every rule the changes fall as its clauses name exactly where these come in order. -/
theorem local_time_named (inside : 0 ≤ seconds ∧ seconds < 86400) :
    (zone.NamesInstant date seconds ↔ ∀ v, Named zone.east (reading date seconds) v →
      HeldNs v ∧ zone.east (reading date seconds - zone.east (reading date seconds)) = reading date seconds - v) ∧
    (∀ reach t before after, Alone zone.east (reading date seconds) reach t before after →
      (zone.NamesInstant date seconds ↔ (∀ v, Named zone.east (reading date seconds) v → HeldNs v) ∧
        ¬ (t + before ≤ reading date seconds ∧ reading date seconds < t + after ∧ reading date seconds < t) ∧
          ¬ (t + after ≤ reading date seconds ∧ reading date seconds < t + before ∧ t ≤ reading date seconds))) ∧
    ∀ (rule : Rule) daylight start end_, rule.daylight = some (daylight, start, end_) →
      (rule.ChangesAsNamed daylight start end_ ↔
        (rule.standard = daylight ∨ Rule.InOrder (rule.begins start) (Rule.ends daylight end_)) ∧
          ¬ start.Past 9999 ∧ ¬ end_.Past 9999) := by
  refine ⟨?_, fun reach t before after alone => namesInstant_alone_iff inside alone,
    fun rule daylight start end_ kept => Rule.changesAsNamed_iff kept⟩
  rw [namesInstant_iff inside]
  exact forall₂_congr fun v _ => and_congr_right fun _ => looked_eq_iff

/-- The east of North America's rule: five hours west, and four from the second Sunday of March to the first of November. -/
def newYork : Rule := ⟨-18000, some (-14400, ⟨3, 2, 0, 7200, by decide⟩, ⟨11, 1, 0, 7200, by decide⟩)⟩

def inNewYork : Zone := { transitions := [], offsets := [0], initial := 0, rule := newYork, ordered := single_ordered, typed := single_typed }

theorem newYork_read : ofRule "EST5EDT,M3.2.0,M11.1.0" = .ok inNewYork := by rfl

theorem inNewYork_east {v : ℤ} (year : 1767225600 ≤ v ∧ v < 1798761600) :
    inNewYork.east v = if 1772953200 ≤ v ∧ v < 1793512800 then -14400 else -18000 := by
  have start : startOf 2026 = 1767225600 := by decide
  have next : startOf (2026 + 1) = 1798761600 := by decide
  have same := Rule.yearAt_eq (u := v) (y := 2026) (by decide) (by rwa [start, next])
  have begins : newYork.begins ⟨3, 2, 0, 7200, by decide⟩ 2026 = 1772953200 := by decide +kernel
  have ends : Rule.ends (-14400) ⟨11, 1, 0, 7200, by decide⟩ 2026 = 1793512800 := by decide +kernel
  have offset : inNewYork.offsetAt v = newYork.offsetAt v := rfl
  rw [east, offset, Rule.offsetAt_marked rfl, Rule.marked, same, begins, ends, Rule.inDaylight,
    if_pos (show (1772953200 : ℤ) < 1793512800 by decide)]
  simp only [Bool.and_eq_true, decide_eq_true_eq]
  split <;> rfl

/-- Within five hours of a time of the year, of the changes one at most. -/
theorem inNewYork_alone {r t before after : ℤ} (year : 1767243600 ≤ r ∧ r < 1798743600) (bounds : |before| ≤ 18000 ∧ |after| ≤ 18000)
    (changes : ∀ v, |v - r| ≤ 18000 → (if 1772953200 ≤ v ∧ v < 1793512800 then -14400 else -18000) = if v < t then before else after) :
    Alone inNewYork.east r 18000 t before after := by
  refine ⟨fun v => ?_, bounds, fun v near => ?_⟩
  · have offset : inNewYork.offsetAt v = newYork.offsetAt v := rfl
    rw [east, offset, Rule.offsetAt_marked rfl]
    split <;> decide
  · have close := abs_le.mp near
    rw [inNewYork_east ⟨by omega, by omega⟩, changes v near]

/-- Half past two the morning clocks go on an hour at two: read an hour before the instant it names. -/
theorem skipped_reads_early : ∃ zone, ofRule "EST5EDT,M3.2.0,M11.1.0" = .ok zone ∧
    ¬ zone.NamesInstant ⟨2026, 3, 8, by decide⟩ 9000 := by
  refine ⟨inNewYork, newYork_read, ?_⟩
  have read : reading ⟨2026, 3, 8, by decide⟩ 9000 = 1772937000 := by decide +kernel
  have alone : Alone inNewYork.east (reading ⟨2026, 3, 8, by decide⟩ 9000) 18000 1772953200 (-18000) (-14400) := by
    rw [read]
    refine inNewYork_alone (by decide) (by decide) fun v near => ?_
    have close := abs_le.mp near
    split <;> split <;> omega
  intro named
  have out := ((namesInstant_alone_iff (by decide) alone).mp named).2.1
  rw [read] at out
  exact out (by decide)

/-- Half past one the morning clocks go back an hour at two is the first of its two; and the rule's changes are as named. -/
theorem repeated_reads_first : inNewYork.NamesInstant ⟨2026, 11, 1, by decide⟩ 5400 ∧
    newYork.ChangesAsNamed (-14400) ⟨3, 2, 0, 7200, by decide⟩ ⟨11, 1, 0, 7200, by decide⟩ := by
  have read : reading ⟨2026, 11, 1, by decide⟩ 5400 = 1793496600 := by decide +kernel
  have alone : Alone inNewYork.east (reading ⟨2026, 11, 1, by decide⟩ 5400) 18000 1793512800 (-14400) (-18000) := by
    rw [read]
    refine inNewYork_alone (by decide) (by decide) fun v near => ?_
    have close := abs_le.mp near
    split <;> split <;> omega
  have both := @local_time_named inNewYork ⟨2026, 11, 1, by decide⟩ 5400 (by decide)
  refine ⟨(both.2.1 _ _ _ _ alone).mpr ⟨fun v named => ?_, ?_⟩, (both.2.2 newYork _ _ _ rfl).mpr ⟨.inr ?_,
    fun past => absurd past.2.1 (by decide), fun past => absurd past.2.1 (by decide)⟩⟩
  · have close := abs_le.mp (named.near alone.bounded)
    rw [read] at close
    unfold HeldNs
    norm_num
    omega
  · rw [read]
    decide
  · exact Rule.inOrder_of_months (by decide) (by decide) (by decide)

end Zone

end MeridianCore
