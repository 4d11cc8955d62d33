import MeridianCore.AnalyticsEngine.Bonds.Partition
import MeridianCore.Domain.DateNumbers

/-! Where a date rolls, and the business days counted after one. Stepping a day at a time comes to every date on its side, and
past the calendar's end stays there; so a roll finds the nearest business day of its side exactly where there is one. -/

namespace MeridianCore.AnalyticsEngine.Bonds

section steps
variable {date a b : Date} {by_ : Int} {n m : Nat}

theorem plusDays_value (least : -719162 ≤ date.daysSinceEpoch + by_) (most : date.daysSinceEpoch + by_ ≤ 2932896) :
    (plusDays date by_).daysSinceEpoch = date.daysSinceEpoch + by_ := by
  obtain ⟨moved, found⟩ := Date.exists_of_range least most
  rw [plusDays, found, Option.getD_some]
  exact Date.daysSinceEpoch_of_fromDays found

theorem plusDays_last : plusDays Date.last 1 = Date.last := by
  have none' : Date.fromDays (Date.last.daysSinceEpoch + 1) = none := by
    refine Option.eq_none_iff_forall_ne_some.mpr fun moved found => ?_
    have past := Date.daysSinceEpoch_of_fromDays found
    have within := Date.daysSinceEpoch_le_iff.mpr (Date.le_last moved)
    omega
  rw [plusDays, none', Option.getD_none]

theorem plusDays_first : plusDays Date.first (-1) = Date.first := by
  have none' : Date.fromDays (Date.first.daysSinceEpoch + -1) = none := by
    refine Option.eq_none_iff_forall_ne_some.mpr fun moved found => ?_
    have past := Date.daysSinceEpoch_of_fromDays found
    have within := Date.daysSinceEpoch_le_iff.mpr (Date.first_le moved)
    omega
  rw [plusDays, none', Option.getD_none]

/-- A day forward is never back, and a day back never forward. -/
theorem le_plusDays (date : Date) : date ≤ plusDays date 1 := by
  rcases eq_or_lt_of_le (Date.le_last date) with rfl | before
  · rw [plusDays_last]
  · have room := Date.daysSinceEpoch_lt_iff.mpr before
    have most : Date.last.daysSinceEpoch = 2932896 := by decide
    have least := (Date.range_of_date date).1
    rw [← Date.daysSinceEpoch_le_iff, plusDays_value (by omega) (by omega)]
    omega

theorem plusDays_le (date : Date) : plusDays date (-1) ≤ date := by
  rcases eq_or_lt_of_le (Date.first_le date) with rfl | after
  · rw [plusDays_first]
  · have room := Date.daysSinceEpoch_lt_iff.mpr after
    have least : Date.first.daysSinceEpoch = -719162 := by decide
    have most := (Date.range_of_date date).2
    rw [← Date.daysSinceEpoch_le_iff, plusDays_value (by omega) (by omega)]
    omega

/-- Days forward, one at a time, come to each later date. -/
theorem forward_eq (later : a ≤ b) (count : b.daysSinceEpoch = a.daysSinceEpoch + n) : (plusDays · 1)^[n] a = b := by
  induction n generalizing a with
  | zero => exact Date.daysSinceEpoch_injective (by simpa using count.symm)
  | succ n ih =>
    have least := (Date.range_of_date a).1
    have most := (Date.range_of_date b).2
    push_cast at count
    have moved := plusDays_value (show -719162 ≤ a.daysSinceEpoch + 1 by omega) (by omega)
    rw [Function.iterate_succ_apply]
    exact ih (Date.daysSinceEpoch_le_iff.mp (by omega)) (by omega)

/-- Days back, one at a time, come to each earlier date. -/
theorem back_eq (earlier : b ≤ a) (count : b.daysSinceEpoch = a.daysSinceEpoch - n) : (plusDays · (-1))^[n] a = b := by
  induction n generalizing a with
  | zero => exact Date.daysSinceEpoch_injective (by simpa using count.symm)
  | succ n ih =>
    have least := (Date.range_of_date b).1
    have most := (Date.range_of_date a).2
    push_cast at count
    have moved := plusDays_value (show -719162 ≤ a.daysSinceEpoch + -1 by omega) (by omega)
    rw [Function.iterate_succ_apply]
    exact ih (Date.daysSinceEpoch_le_iff.mp (by omega)) (by omega)

theorem le_forward (n : Nat) (date : Date) : date ≤ (plusDays · 1)^[n] date := by
  induction n generalizing date with
  | zero => exact le_rfl
  | succ n ih =>
    rw [Function.iterate_succ_apply]
    exact (le_plusDays date).trans (ih _)

theorem back_le (n : Nat) (date : Date) : (plusDays · (-1))^[n] date ≤ date := by
  induction n generalizing date with
  | zero => exact le_rfl
  | succ n ih =>
    rw [Function.iterate_succ_apply]
    exact (ih _).trans (plusDays_le date)

end steps

namespace Calendar
variable {calendar : Calendar} {date rolled d : Date} {roll : Roll} {n : Nat}

/-- The nearest business day no earlier than a date. -/
def NextBusiness (calendar : Calendar) (date rolled : Date) : Prop :=
  IsLeast {d | date ≤ d ∧ calendar.isBusiness d = true} rolled

/-- The nearest business day no later than a date. -/
def LastBusiness (calendar : Calendar) (date rolled : Date) : Prop :=
  IsGreatest {d | d ≤ date ∧ calendar.isBusiness d = true} rolled

theorem nextBusiness_of_first (first : FirstStop calendar.isBusiness (plusDays · 1) date n) :
    calendar.NextBusiness date ((plusDays · 1)^[n] date) := by
  refine ⟨⟨le_forward n date, first.1⟩, ?_⟩
  rintro d ⟨later, business⟩
  have number := Date.daysSinceEpoch_le_iff.mpr later
  obtain ⟨m, count⟩ : ∃ m : Nat, d.daysSinceEpoch = date.daysSinceEpoch + m :=
    ⟨(d.daysSinceEpoch - date.daysSinceEpoch).toNat, by omega⟩
  have reached := forward_eq later count
  have le : n ≤ m := by
    by_contra early
    have closed := first.2 m (not_le.mp early)
    rw [reached, business] at closed
    cases closed
  obtain ⟨more, rfl⟩ := Nat.exists_eq_add_of_le' le
  rw [Function.iterate_add_apply] at reached
  exact reached ▸ le_forward more _

theorem lastBusiness_of_first (first : FirstStop calendar.isBusiness (plusDays · (-1)) date n) :
    calendar.LastBusiness date ((plusDays · (-1))^[n] date) := by
  refine ⟨⟨back_le n date, first.1⟩, ?_⟩
  rintro d ⟨earlier, business⟩
  have number := Date.daysSinceEpoch_le_iff.mpr earlier
  obtain ⟨m, count⟩ : ∃ m : Nat, d.daysSinceEpoch = date.daysSinceEpoch - m :=
    ⟨(date.daysSinceEpoch - d.daysSinceEpoch).toNat, by omega⟩
  have reached := back_eq earlier count
  have le : n ≤ m := by
    by_contra early
    have closed := first.2 m (not_le.mp early)
    rw [reached, business] at closed
    cases closed
  obtain ⟨more, rfl⟩ := Nat.exists_eq_add_of_le' le
  rw [Function.iterate_add_apply] at reached
  exact reached ▸ back_le more _

theorem nextBusiness_of_step {fuel : Nat} (found : calendar.step 1 fuel date = some rolled) : calendar.NextBusiness date rolled := by
  rw [step_eq] at found
  obtain ⟨n, first, rfl⟩ := firstStop_of_search found
  exact nextBusiness_of_first first

theorem lastBusiness_of_step {fuel : Nat} (found : calendar.step (-1) fuel date = some rolled) : calendar.LastBusiness date rolled := by
  rw [step_eq] at found
  obtain ⟨n, first, rfl⟩ := firstStop_of_search found
  exact lastBusiness_of_first first

/-- Stepping forward comes to a business day where there is one. -/
theorem step_next (later : date ≤ d) (business : calendar.isBusiness d = true) :
    ∃ rolled, Answers (fun fuel => calendar.step 1 fuel date) rolled := by
  have number := Date.daysSinceEpoch_le_iff.mpr later
  obtain ⟨n, count⟩ : ∃ n : Nat, d.daysSinceEpoch = date.daysSinceEpoch + n :=
    ⟨(d.daysSinceEpoch - date.daysSinceEpoch).toNat, by omega⟩
  exact step_answers ⟨n, by rw [forward_eq later count, business]⟩

/-- Stepping back comes to a business day where there is one. -/
theorem step_last (earlier : d ≤ date) (business : calendar.isBusiness d = true) :
    ∃ rolled, Answers (fun fuel => calendar.step (-1) fuel date) rolled := by
  have number := Date.daysSinceEpoch_le_iff.mpr earlier
  obtain ⟨n, count⟩ : ∃ n : Nat, d.daysSinceEpoch = date.daysSinceEpoch - n :=
    ⟨(date.daysSinceEpoch - d.daysSinceEpoch).toNat, by omega⟩
  exact step_answers ⟨n, by rw [back_eq earlier count, business]⟩

/-- What a date rolls to, by the convention: for modified following the next business day where it is of the date's month, else
the last one where that is, and one of the two where the month has none. -/
def Nearest (calendar : Calendar) (date : Date) : Roll → Date → Prop
  | .unadjusted, rolled => rolled = date
  | .following, rolled => calendar.NextBusiness date rolled
  | .preceding, rolled => calendar.LastBusiness date rolled
  | .modifiedFollowing, rolled =>
    (calendar.NextBusiness date rolled ∧ monthIndex rolled = monthIndex date) ∨
      (calendar.LastBusiness date rolled ∧ monthIndex rolled = monthIndex date ∧
        ∀ d, date ≤ d → monthIndex d = monthIndex date → calendar.isBusiness d = false) ∨
      ((calendar.NextBusiness date rolled ∨ calendar.LastBusiness date rolled) ∧
        ∀ d, monthIndex d = monthIndex date → calendar.isBusiness d = false)

/-- Whether a date's roll is found: there is a business day on the convention's side. For modified following there is one no
earlier, and the first such is of the date's month, or else of a month of another name, with one no later, or of a month of the
same name in a later year, where the date's month has none. -/
def Reaches (calendar : Calendar) (date : Date) : Roll → Prop
  | .unadjusted => True
  | .following => ∃ d, date ≤ d ∧ calendar.isBusiness d = true
  | .preceding => ∃ d, d ≤ date ∧ calendar.isBusiness d = true
  | .modifiedFollowing => ∃ on, calendar.NextBusiness date on ∧ (monthIndex on = monthIndex date ∨
      (on.month ≠ date.month ∧ ∃ d, d ≤ date ∧ calendar.isBusiness d = true) ∨
      (on.month = date.month ∧ ∀ d, monthIndex d = monthIndex date → calendar.isBusiness d = false))

/-- A date's roll returns, on the business day the convention gives, which rolls to itself. -/
def RollsWell (calendar : Calendar) (date : Date) (roll : Roll) : Prop :=
  ∃ rolled, Answers (fun fuel => calendar.adjust fuel date roll) rolled ∧ calendar.Nearest date roll rolled ∧
    Answers (fun fuel => calendar.adjust fuel rolled roll) rolled

theorem step_business (by_ : Int) (business : calendar.isBusiness date = true) :
    Answers (fun fuel => calendar.step by_ fuel date) date := by
  refine ⟨1, fun fuel some' => ?_⟩
  obtain ⟨fuel, rfl⟩ : ∃ k, fuel = k + 1 := ⟨fuel - 1, by omega⟩
  dsimp only
  rw [step, if_pos business]

theorem adjust_business (roll : Roll) (business : calendar.isBusiness date = true) :
    Answers (fun fuel => calendar.adjust fuel date roll) date := by
  cases roll with
  | unadjusted => exact Answers.pure date
  | following => exact step_business 1 business
  | preceding => exact step_business (-1) business
  | modifiedFollowing =>
    refine (step_business 1 business).bind ?_
    simp only [if_pos]
    exact Answers.pure date

theorem month_of_monthIndex {a b : Date} (same : monthIndex a = monthIndex b) : a.month = b.month := by
  have months := a.holds.2.1
  have months' := b.holds.2.1
  unfold monthIndex at same
  omega

theorem monthIndex_le {a b : Date} (before : a ≤ b) : monthIndex a ≤ monthIndex b := by
  by_contra above
  exact absurd before (not_le.mpr (lt_of_monthIndex (not_le.mp above)))

/-- The last business day is of the date's month where the month has one no later. -/
theorem LastBusiness.month (last : calendar.LastBusiness date rolled) (earlier : d ≤ date) (month : monthIndex d = monthIndex date)
    (business : calendar.isBusiness d = true) : monthIndex rolled = monthIndex date := by
  have above := monthIndex_le (last.2 ⟨earlier, business⟩)
  have below := monthIndex_le last.1.1
  omega

/-- No day of a month from a date on is a business day where the next one is of another month. -/
theorem NextBusiness.closed (next : calendar.NextBusiness date rolled) (other : monthIndex rolled ≠ monthIndex date)
    (later : date ≤ d) (month : monthIndex d = monthIndex date) : calendar.isBusiness d = false := by
  by_contra open_
  have above := monthIndex_le (next.2 ⟨later, Bool.not_eq_false _ ▸ open_⟩)
  have below := monthIndex_le next.1.1
  omega

theorem Nearest.business (nearest : calendar.Nearest date roll rolled) (rolls : roll ≠ .unadjusted) :
    calendar.isBusiness rolled = true := by
  cases roll with
  | unadjusted => exact absurd rfl rolls
  | following => exact nearest.1.2
  | preceding => exact nearest.1.2
  | modifiedFollowing =>
    rcases nearest with ⟨next, -⟩ | ⟨last, -⟩ | ⟨next | last, -⟩
    · exact next.1.2
    · exact last.1.2
    · exact next.1.2
    · exact last.1.2

/-- A roll that returns rolls to itself, where it is on a business day. -/
theorem rollsWell_of_nearest (adjusted : Answers (fun fuel => calendar.adjust fuel date roll) rolled)
    (nearest : calendar.Nearest date roll rolled) : calendar.RollsWell date roll := by
  refine ⟨rolled, adjusted, nearest, ?_⟩
  by_cases rolls : roll = .unadjusted
  · subst rolls
    exact Answers.pure rolled
  · exact adjust_business roll (nearest.business rolls)

theorem next_answers (later : date ≤ d) (business : calendar.isBusiness d = true) :
    ∃ rolled, Answers (fun fuel => calendar.step 1 fuel date) rolled ∧ calendar.NextBusiness date rolled := by
  obtain ⟨rolled, stepped⟩ := step_next later business
  obtain ⟨fuel, found⟩ := stepped.exists_
  exact ⟨rolled, stepped, nextBusiness_of_step found⟩

theorem last_answers (earlier : d ≤ date) (business : calendar.isBusiness d = true) :
    ∃ rolled, Answers (fun fuel => calendar.step (-1) fuel date) rolled ∧ calendar.LastBusiness date rolled := by
  obtain ⟨rolled, stepped⟩ := step_last earlier business
  obtain ⟨fuel, found⟩ := stepped.exists_
  exact ⟨rolled, stepped, lastBusiness_of_step found⟩

/-- Modified following, its first step forward taken. -/
theorem modified_answers {on : Date} (forward : Answers (fun fuel => calendar.step 1 fuel date) on)
    (rest : Answers (fun fuel => if on.month = date.month then some on else calendar.step (-1) fuel date) rolled) :
    Answers (fun fuel => calendar.adjust fuel date .modifiedFollowing) rolled := forward.bind rest

theorem reaches_of_modified (rolls : calendar.RollsWell date .modifiedFollowing) : calendar.Reaches date .modifiedFollowing := by
  obtain ⟨rolled, adjusted, nearest, -⟩ := rolls
  obtain ⟨fuel, found⟩ := adjusted.exists_
  obtain ⟨on, forward, rest⟩ := Option.bind_eq_some_iff.mp found
  have next := nextBusiness_of_step forward
  refine ⟨on, next, ?_⟩
  by_cases name : on.month = date.month
  · rw [if_pos name] at rest
    obtain rfl := Option.some.inj rest
    rcases nearest with ⟨-, month⟩ | ⟨-, month, -⟩ | ⟨-, closed⟩
    · exact .inl month
    · exact .inl month
    · exact .inr (.inr ⟨name, closed⟩)
  · rw [if_neg name] at rest
    have last := lastBusiness_of_step rest
    exact .inr (.inl ⟨name, rolled, last.1.1, last.1.2⟩)

theorem modified_of_reaches (reaches : calendar.Reaches date .modifiedFollowing) : calendar.RollsWell date .modifiedFollowing := by
  obtain ⟨on, next, way⟩ := reaches
  obtain ⟨on', forward, next'⟩ := next_answers next.1.1 next.1.2
  obtain rfl := next.unique next'
  rcases way with month | ⟨name, d, earlier, business⟩ | ⟨name, closed⟩
  · refine rollsWell_of_nearest (modified_answers forward ?_) (.inl ⟨next, month⟩)
    simp only [if_pos (month_of_monthIndex month)]
    exact Answers.pure on
  · obtain ⟨rolled, back, last⟩ := last_answers earlier business
    have other : monthIndex on ≠ monthIndex date := fun same => name (month_of_monthIndex same)
    have adjusted : Answers (fun fuel => calendar.adjust fuel date .modifiedFollowing) rolled := by
      refine modified_answers forward ?_
      simp only [if_neg name]
      exact back
    refine rollsWell_of_nearest adjusted ?_
    by_cases month : monthIndex rolled = monthIndex date
    · exact .inr (.inl ⟨last, month, fun d later same => next.closed other later same⟩)
    · refine .inr (.inr ⟨.inr last, fun d same => ?_⟩)
      rcases le_total date d with later | before
      · exact next.closed other later same
      · by_contra open_
        exact month (last.month before same (Bool.not_eq_false _ ▸ open_))
  · refine rollsWell_of_nearest (modified_answers forward ?_) (.inr (.inr ⟨.inl next, closed⟩))
    simp only [if_pos name]
    exact Answers.pure on

/-- A date's roll returns the business day the convention gives exactly where there is one on the convention's side. -/
theorem rollsWell_iff : calendar.RollsWell date roll ↔ calendar.Reaches date roll := by
  cases roll with
  | unadjusted => exact ⟨fun _ => trivial, fun _ => rollsWell_of_nearest (Answers.pure date) rfl⟩
  | following =>
    constructor
    · rintro ⟨rolled, -, nearest, -⟩
      exact ⟨rolled, nearest.1⟩
    · rintro ⟨d, later, business⟩
      obtain ⟨rolled, stepped, next⟩ := next_answers later business
      exact rollsWell_of_nearest stepped next
  | preceding =>
    constructor
    · rintro ⟨rolled, -, nearest, -⟩
      exact ⟨rolled, nearest.1⟩
    · rintro ⟨d, earlier, business⟩
      obtain ⟨rolled, stepped, last⟩ := last_answers earlier business
      exact rollsWell_of_nearest stepped last
  | modifiedFollowing => exact ⟨reaches_of_modified, modified_of_reaches⟩

/-- The `left`th business day after a date, in so many steps. -/
def businessDaysAfter (calendar : Calendar) : Nat → Date → Nat → Option Date
  | _, at_, 0 => some at_
  | 0, _, _ + 1 => none
  | fuel + 1, at_, left + 1 =>
    let at_ := plusDays at_ 1
    businessDaysAfter calendar fuel at_ (if calendar.isBusiness at_ then left else left + 1)

/-- The business days after a date. -/
def after (calendar : Calendar) (date : Date) : Set Date := {d | date < d ∧ calendar.isBusiness d = true}

/-- The `n`th business day after a date: the date itself for none, and else the one with all but one of them between. -/
def Nth (calendar : Calendar) (date : Date) : Nat → Date → Prop
  | 0, found => found = date
  | n + 1, found => found ∈ calendar.after date ∧ (calendar.after date ∩ Set.Iio found).ncard = n

def CountsWell (calendar : Calendar) (date : Date) (n : Nat) : Prop :=
  ∃ found, Answers (fun fuel => calendar.businessDaysAfter fuel date n) found ∧ calendar.Nth date n found

instance : Finite Date := by
  refine Finite.of_injective (fun date : Date => (⟨date.daysSinceEpoch, Date.range_of_date date⟩ : Set.Icc (-719162 : Int) 2932896)) ?_
  intro a b same
  exact Date.daysSinceEpoch_injective (congrArg Subtype.val same)

theorem le_of_nth (counts : calendar.Nth date n d) : n ≤ (calendar.after date).ncard := by
  cases n with
  | zero => exact Nat.zero_le _
  | succ n =>
    obtain ⟨member, count⟩ := counts
    have apart : d ∉ calendar.after date ∩ Set.Iio d := fun inside => lt_irrefl d inside.2
    have both : insert d (calendar.after date ∩ Set.Iio d) ⊆ calendar.after date := Set.insert_subset member Set.inter_subset_left
    have more := Set.ncard_le_ncard both
    rwa [Set.ncard_insert_of_notMem apart, count] at more

theorem plusDays_le_iff (before : date < Date.last) : plusDays date 1 ≤ d ↔ date < d := by
  have room := Date.daysSinceEpoch_lt_iff.mpr before
  have least := (Date.range_of_date date).1
  have most := (Date.range_of_date Date.last).2
  rw [← Date.daysSinceEpoch_le_iff, ← Date.daysSinceEpoch_lt_iff, plusDays_value (by omega) (by omega)]
  omega

/-- The business days after a date are the next day, where it is one, and those after it. -/
theorem after_business (before : date < Date.last) (business : calendar.isBusiness (plusDays date 1) = true) :
    calendar.after date = insert (plusDays date 1) (calendar.after (plusDays date 1)) := by
  ext d
  unfold after
  rw [Set.mem_insert_iff, Set.mem_setOf_eq, Set.mem_setOf_eq, ← plusDays_le_iff before, le_iff_eq_or_lt]
  constructor
  · rintro ⟨rfl | later, open_⟩
    · exact .inl rfl
    · exact .inr ⟨later, open_⟩
  · rintro (rfl | ⟨later, open_⟩)
    · exact ⟨.inl rfl, business⟩
    · exact ⟨.inr later, open_⟩

theorem after_closed (before : date < Date.last) (closed : calendar.isBusiness (plusDays date 1) = false) :
    calendar.after date = calendar.after (plusDays date 1) := by
  ext d
  unfold after
  rw [Set.mem_setOf_eq, Set.mem_setOf_eq, ← plusDays_le_iff before, le_iff_eq_or_lt]
  constructor
  · rintro ⟨rfl | later, open_⟩
    · rw [closed] at open_
      cases open_
    · exact ⟨later, open_⟩
  · rintro ⟨later, open_⟩
    exact ⟨.inr later, open_⟩

/-- The count after a date is one less after the next day, where that is a business day. -/
theorem nth_business (before : date < Date.last) (business : calendar.isBusiness (plusDays date 1) = true)
    (counts : calendar.Nth (plusDays date 1) n d) : calendar.Nth date (n + 1) d := by
  have inside : plusDays date 1 ∈ calendar.after date := ⟨(plusDays_le_iff before).mp le_rfl, business⟩
  cases n with
  | zero =>
    obtain rfl : d = plusDays date 1 := counts
    refine ⟨inside, ?_⟩
    rw [Set.ncard_eq_zero]
    ext other
    constructor
    · rintro ⟨⟨later, -⟩, early⟩
      exact absurd ((plusDays_le_iff before).mpr later) (not_le.mpr early)
    · exact fun none' => none'.elim
  | succ n =>
    obtain ⟨⟨later, open_⟩, count⟩ := counts
    have whole : calendar.after date ∩ Set.Iio d = insert (plusDays date 1) (calendar.after (plusDays date 1) ∩ Set.Iio d) := by
      rw [after_business before business, Set.insert_inter_of_mem (Set.mem_Iio.mpr later)]
    have apart : plusDays date 1 ∉ calendar.after (plusDays date 1) ∩ Set.Iio d := fun both =>
      lt_irrefl (plusDays date 1) both.1.1
    refine ⟨⟨inside.1.trans later, open_⟩, ?_⟩
    rw [whole, Set.ncard_insert_of_notMem apart, count]

theorem nth_closed (before : date < Date.last) (closed : calendar.isBusiness (plusDays date 1) = false)
    (counts : calendar.Nth (plusDays date 1) (n + 1) d) : calendar.Nth date (n + 1) d := by
  unfold Nth at *
  rwa [after_closed before closed]

theorem businessDaysAfter_succ (moved : Answers (fun fuel => calendar.businessDaysAfter fuel (plusDays date 1)
    (if calendar.isBusiness (plusDays date 1) then n else n + 1)) d) :
    Answers (fun fuel => calendar.businessDaysAfter fuel date (n + 1)) d := by
  obtain ⟨enough, holds⟩ := moved
  refine ⟨enough + 1, fun fuel more => ?_⟩
  obtain ⟨fuel, rfl⟩ : ∃ k, fuel = k + 1 := ⟨fuel - 1, by omega⟩
  exact holds fuel (by omega)

/-- The count returns where there are as many business days after the date. -/
theorem countsWell_of_le (remaining : Nat) (left : Date.last.daysSinceEpoch - date.daysSinceEpoch = remaining)
    (enough : n ≤ (calendar.after date).ncard) : calendar.CountsWell date n := by
  induction remaining generalizing date n with
  | zero =>
    obtain rfl : date = Date.last := Date.daysSinceEpoch_injective (by omega)
    have none' : calendar.after Date.last = ∅ :=
      Set.eq_empty_of_forall_notMem fun d later => absurd (Date.le_last d) (not_le.mpr later.1)
    rw [none', Set.ncard_empty, Nat.le_zero] at enough
    subst enough
    exact ⟨Date.last, ⟨0, fun fuel _ => by cases fuel <;> rfl⟩, rfl⟩
  | succ remaining ih =>
    cases n with
    | zero => exact ⟨date, ⟨0, fun fuel _ => by cases fuel <;> rfl⟩, rfl⟩
    | succ n =>
      have before : date < Date.last := Date.daysSinceEpoch_lt_iff.mp (by omega)
      have least := (Date.range_of_date date).1
      have most := (Date.range_of_date Date.last).2
      have moved := plusDays_value (show -719162 ≤ date.daysSinceEpoch + 1 by omega) (by omega)
      cases open_ : calendar.isBusiness (plusDays date 1) with
      | true =>
        have apart : plusDays date 1 ∉ calendar.after (plusDays date 1) := fun inside => lt_irrefl _ inside.1
        rw [after_business before open_, Set.ncard_insert_of_notMem apart] at enough
        obtain ⟨found, answered, counts⟩ := ih (by omega) (Nat.le_of_succ_le_succ enough)
        refine ⟨found, businessDaysAfter_succ ?_, nth_business before open_ counts⟩
        simpa only [open_, if_pos] using answered
      | false =>
        rw [after_closed before open_] at enough
        obtain ⟨found, answered, counts⟩ := ih (by omega) enough
        refine ⟨found, businessDaysAfter_succ ?_, nth_closed before open_ counts⟩
        simpa only [open_, Bool.false_eq_true, if_false] using answered

theorem countsWell_iff : calendar.CountsWell date n ↔ n ≤ (calendar.after date).ncard := by
  constructor
  · rintro ⟨found, -, counts⟩
    exact le_of_nth counts
  · intro enough
    have below := Date.daysSinceEpoch_le_iff.mpr (Date.le_last date)
    exact countsWell_of_le (Date.last.daysSinceEpoch - date.daysSinceEpoch).toNat (by omega) enough

/-- A date rolls, and business days are counted after it, exactly where the calendar has the days. -/
theorem rolls_and_counts_iff (calendar : Calendar) (date : Date) (roll : Roll) (n : Nat) :
    (calendar.RollsWell date roll ↔ calendar.Reaches date roll) ∧
      (calendar.CountsWell date n ↔ n ≤ (calendar.after date).ncard) := ⟨rollsWell_iff, countsWell_iff⟩

/-- The calendar's last day closed, nothing rolls on past it; and open, it is counted again as the day after itself. -/
theorem last_stays : ¬ RollsWell { holidays := [Date.last] } Date.last .following ∧
    businessDaysAfter {} 2 Date.last 2 = some Date.last ∧ ¬ CountsWell {} Date.last 2 := by
  refine ⟨fun rolls => ?_, by decide +kernel, fun counts => ?_⟩
  · obtain ⟨d, later, open_⟩ := rollsWell_iff.mp rolls
    obtain rfl : d = Date.last := le_antisymm (Date.le_last d) later
    revert open_
    decide +kernel
  · have none' : after {} Date.last = ∅ :=
      Set.eq_empty_of_forall_notMem fun d later => absurd (Date.le_last d) (not_le.mpr later.1)
    have enough := countsWell_iff.mp counts
    rw [none', Set.ncard_empty] at enough
    cases enough

end Calendar

end MeridianCore.AnalyticsEngine.Bonds
