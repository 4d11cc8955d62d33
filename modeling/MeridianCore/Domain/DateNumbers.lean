import MeridianCore.Domain.DateOrder
import MeridianCore.Limbs.Decimal

/-! Dates and their day numbers. The year of an era a day is in, as the code computes it, is the one whose first day is no later
and whose next year's first day is later; so each day number of the years a date writes is one date's, and no other number is. -/

namespace MeridianCore.Date

/-- The date of a day number held in 64 bits: nothing, not even that there is none, where the offset's sum is past them. -/
def fromDays64 (days : Int64) : Option (Option Date) :=
  if days.toInt + 719468 < 2 ^ 63 then some (fromDays days.toInt) else none

/-- The day after, if there is one. -/
def next (date : Date) : Option Date := fromDays (date.daysSinceEpoch + 1)

/-- The year of an era of four hundred a day of it is in, as the code computes it. -/
def yearOfEra (doe : Int) : Int := (doe - doe / 1460 + doe / 36524 - doe / 146096) / 365

/-- The year counted from March a day is in, its days counted from the first March. -/
def marchYearOf (z : Int) : Int := yearOfEra (z % 146097) + z / 146097 * 400

/-- The month counted from March of a day of a year, and what the date writes of it and of its year. -/
def marchMonthOf (doy : Int) : Int := (5 * doy + 2) / 153

def writtenMonth (mp : Int) : Int := if mp < 10 then mp + 3 else mp - 9

def writtenYear (year mp : Int) : Int := year + if writtenMonth mp ≤ 2 then 1 else 0

/-- A day of an era by its century, its four years, its year and its day: the last year of a four has a day more, but for the
last of a century that is not the era's. -/
structure DayOfEra (doe c q r t : Int) : Prop where
  century : 0 ≤ c ∧ c ≤ 3
  four : 0 ≤ q ∧ q ≤ 24
  year : 0 ≤ r ∧ r ≤ 3
  sum : doe = 36524 * c + 1461 * q + 365 * r + t
  least : 0 ≤ t
  most : t ≤ 364 ∨ (t = 365 ∧ r = 3 ∧ (q < 24 ∨ c = 3))

section
variable {a b date : Date} {doe doy z c q r t day : Int}

theorem exists_dayOfEra (least : 0 ≤ doe) (most : doe < 146097) : ∃ c q r t, DayOfEra doe c q r t := by
  obtain ⟨c, rest, century, same, low, high⟩ : ∃ c rest : Int, (0 ≤ c ∧ c ≤ 3) ∧ doe = 36524 * c + rest ∧ 0 ≤ rest ∧
      (rest < 36524 ∨ (c = 3 ∧ rest = 36524)) := by
    refine ⟨min (doe / 36524) 3, doe - 36524 * min (doe / 36524) 3, ?_, ?_, ?_, ?_⟩ <;> omega
  obtain ⟨q, left, four, same', low', high'⟩ : ∃ q left : Int, (0 ≤ q ∧ q ≤ 24) ∧ rest = 1461 * q + left ∧ 0 ≤ left ∧
      left < 1461 := by
    refine ⟨rest / 1461, rest % 1461, ?_, ?_, ?_, ?_⟩ <;> omega
  refine ⟨c, q, min (left / 365) 3, left - 365 * min (left / 365) 3, century, four, ?_, ?_, ?_, ?_⟩ <;> omega

theorem DayOfEra.year_eq (day : DayOfEra doe c q r t) : yearOfEra doe = 100 * c + 4 * q + r := by
  obtain ⟨century, four, year, sum, least, most⟩ := day
  have whole : doe / 36524 - doe / 146096 = c := by
    by_cases last : doe = 146096
    · rw [last]
      omega
    · have below : doe < 36524 * (c + 1) := by omega
      have inEra : doe / 146096 = 0 := by omega
      have inCentury : doe / 36524 = c := by omega
      omega
  have fours : (doe / 1460 = 25 * c + q ∧ 24 * c + q + 365 * r + t < 1460) ∨
      (doe / 1460 = 25 * c + q + 1 ∧ 1460 ≤ 24 * c + q + 365 * r + t) := by
    omega
  unfold yearOfEra
  omega

/-- The days before a year of an era. -/
theorem daysBefore_era (century : 0 ≤ c ∧ c ≤ 3) (four : 0 ≤ q ∧ q ≤ 24) (year : 0 ≤ r ∧ r ≤ 3) :
    daysBefore (100 * c + 4 * q + r) = 36524 * c + 1461 * q + 365 * r := by
  obtain ⟨low, high⟩ := century
  unfold daysBefore
  interval_cases c <;> omega

theorem daysBefore_era_succ (century : 0 ≤ c ∧ c ≤ 3) (four : 0 ≤ q ∧ q ≤ 24) (year : 0 ≤ r ∧ r ≤ 3) :
    daysBefore (100 * c + 4 * q + r + 1) =
      36524 * c + 1461 * q + 365 * (r + 1) + if r = 3 ∧ (q < 24 ∨ c = 3) then 1 else 0 := by
  obtain ⟨low, high⟩ := century
  unfold daysBefore
  interval_cases c <;> split_ifs <;> omega

theorem daysBefore_eras (year era : Int) : daysBefore (year + era * 400) = daysBefore year + 146097 * era := by
  unfold daysBefore
  omega

/-- A day is in its year: no earlier than the year's first day and earlier than the next one's. -/
theorem marchYearOf_spec (z : Int) : daysBefore (marchYearOf z) ≤ z ∧ z < daysBefore (marchYearOf z + 1) := by
  have split : z = z % 146097 + 146097 * (z / 146097) := by omega
  obtain ⟨c, q, r, t, day⟩ := exists_dayOfEra (show 0 ≤ z % 146097 by omega) (by omega)
  have year := day.year_eq
  obtain ⟨century, four, ofFour, sum, least, most⟩ := day
  have before := daysBefore_era century four ofFour
  have after := daysBefore_era_succ century four ofFour
  have next : marchYearOf z + 1 = 100 * c + 4 * q + r + 1 + z / 146097 * 400 := by
    rw [marchYearOf, year]
    ring
  rw [next, daysBefore_eras, marchYearOf, year, daysBefore_eras, before, after]
  constructor
  · omega
  · split_ifs <;> omega

/-- What is left of a day number past its year's first day. -/
def dayOfYear (z : Int) : Int := z - daysBefore (marchYearOf z)

/-- The date of a day number by the year counted from March it is in, and what is left of it. -/
theorem fromDays_eq (days : Int) : fromDays days =
    let year := marchYearOf (days + 719468)
    let doy := dayOfYear (days + 719468)
    let mp := marchMonthOf doy
    if writtenYear year mp < 0 then none
    else fromYmd (writtenYear year mp).toNat (writtenMonth mp).toNat (doy - marchDays mp + 1).toNat := by
  have left : ∀ z : Int, z % 146097 - (365 * yearOfEra (z % 146097) + yearOfEra (z % 146097) / 4 - yearOfEra (z % 146097) / 100) =
      dayOfYear z := by
    intro z
    have range : 0 ≤ yearOfEra (z % 146097) ∧ yearOfEra (z % 146097) ≤ 399 := by
      obtain ⟨c, q, r, t, day⟩ := exists_dayOfEra (show 0 ≤ z % 146097 by omega) (by omega)
      rw [day.year_eq]
      obtain ⟨century, four, year, -⟩ := day
      omega
    rw [dayOfYear, marchYearOf, daysBefore_eras, daysBefore]
    omega
  dsimp only
  rw [← left]
  rfl

/-- A day is one of its year's, which has a day more where the February it ends with has. -/
theorem dayOfYear_range (z : Int) : 0 ≤ dayOfYear z ∧ dayOfYear z ≤ 365 ∧
    (dayOfYear z = 365 → 0 ≤ marchYearOf z → Leap (marchYearOf z + 1).toNat) := by
  obtain ⟨low, high⟩ := marchYearOf_spec z
  unfold dayOfYear Leap
  generalize marchYearOf z = year at *
  unfold daysBefore at *
  omega

/-- A day of a year is one of its month's, counted from March. -/
theorem marchMonthOf_range (low : 0 ≤ doy) (high : doy ≤ 365) : 0 ≤ marchMonthOf doy ∧ marchMonthOf doy ≤ 11 ∧
    1 ≤ doy - marchDays (marchMonthOf doy) + 1 ∧
    doy - marchDays (marchMonthOf doy) < marchDays (marchMonthOf doy + 1) - marchDays (marchMonthOf doy) := by
  unfold marchDays marchMonthOf
  omega

/-- The day number of a date by the year and month it is counted in from March. -/
theorem daysSinceEpoch_written {year mp d : Int} (exists_ : Exists (writtenYear year mp).toNat (writtenMonth mp).toNat d.toNat)
    (start : 0 ≤ mp) (last : mp ≤ 11) (some' : 0 ≤ writtenYear year mp) (first : 1 ≤ d) :
    (⟨(writtenYear year mp).toNat, (writtenMonth mp).toNat, d.toNat, exists_⟩ : Date).daysSinceEpoch =
      daysBefore year + marchDays mp + d - 719469 := by
  have inYear : marchYear ⟨(writtenYear year mp).toNat, (writtenMonth mp).toNat, d.toNat, exists_⟩ = year := by
    unfold marchYear writtenYear writtenMonth at *
    dsimp only
    split_ifs at * <;> omega
  have inMonth : marchMonth ⟨(writtenYear year mp).toNat, (writtenMonth mp).toNat, d.toNat, exists_⟩ = mp := by
    unfold marchMonth writtenMonth
    dsimp only
    split_ifs <;> omega
  rw [daysSinceEpoch_march, inYear, inMonth]
  dsimp only
  omega

/-- The date of a day number is the day of that number. -/
theorem daysSinceEpoch_of_fromDays {days : Int} (found : fromDays days = some date) : date.daysSinceEpoch = days := by
  rw [fromDays_eq] at found
  dsimp only at found
  obtain ⟨low, high, -⟩ := dayOfYear_range (days + 719468)
  obtain ⟨start, last, first, -⟩ := marchMonthOf_range low high
  split at found
  · cases found
  · next some' =>
    unfold fromYmd at found
    split at found
    · next exists_ =>
      cases found
      rw [daysSinceEpoch_written exists_ start last (not_lt.mp some') first, dayOfYear]
      omega
    · cases found

/-- A year counted from March is written as one of the years a date writes, where its day is. -/
theorem writtenYear_range {days : Int} (least : -719162 ≤ days) (most : days ≤ 2932896) :
    0 ≤ marchYearOf (days + 719468) ∧
      1 ≤ writtenYear (marchYearOf (days + 719468)) (marchMonthOf (dayOfYear (days + 719468))) ∧
      writtenYear (marchYearOf (days + 719468)) (marchMonthOf (dayOfYear (days + 719468))) ≤ 9999 := by
  obtain ⟨before, after⟩ := marchYearOf_spec (days + 719468)
  obtain ⟨low, high, -⟩ := dayOfYear_range (days + 719468)
  obtain ⟨start, last, -⟩ := marchMonthOf_range low high
  have doy : dayOfYear (days + 719468) = days + 719468 - daysBefore (marchYearOf (days + 719468)) := rfl
  generalize dayOfYear (days + 719468) = doy' at *
  generalize marchYearOf (days + 719468) = year at *
  have some' : 0 ≤ year := by
    by_contra negative
    have none' := daysBefore_mono (show year + 1 ≤ 0 by omega)
    unfold daysBefore at *
    omega
  have short : year ≤ 9999 := by
    by_contra past
    have whole := daysBefore_mono (show 10000 ≤ year by omega)
    have last : daysBefore 10000 = 3652425 := by decide
    omega
  refine ⟨some', ?_, ?_⟩
  · by_cases zero : year = 0
    · have none' : daysBefore 0 = 0 := by decide
      rw [zero, none'] at doy
      unfold writtenYear writtenMonth marchMonthOf
      split_ifs <;> omega
    · unfold writtenYear
      split_ifs <;> omega
  · by_cases full : year = 9999
    · have all : daysBefore 9999 = 3652059 := by decide
      rw [full, all] at doy
      unfold writtenYear writtenMonth marchMonthOf
      split_ifs <;> omega
    · unfold writtenYear
      split_ifs <;> omega

/-- A day of a month counted from March is one the month has. -/
theorem dayOfMonth_le {year mp : Int} (start : 0 ≤ mp) (last : mp ≤ 11) (some' : 0 ≤ year) (low : 1 ≤ doy - marchDays mp + 1)
    (within : doy - marchDays mp < marchDays (mp + 1) - marchDays mp) (high : doy ≤ 365)
    (leap : doy = 365 → Leap (year + 1).toNat) :
    (doy - marchDays mp + 1).toNat ≤ daysIn (writtenYear year mp).toNat (writtenMonth mp).toNat := by
  unfold writtenYear writtenMonth
  unfold marchDays at *
  interval_cases mp
  case «11» =>
    have february : daysIn (year + 1).toNat (Int.toNat 2) = if Leap (year + 1).toNat then 29 else 28 := daysIn_february _
    norm_num at *
    rw [february]
    split_ifs with long
    · omega
    · have short : doy ≠ 365 := fun full => long (leap full)
      omega
  all_goals
    norm_num [daysIn] at *
    omega

/-- A day number of the years a date writes is a date's. -/
theorem exists_of_range {days : Int} (least : -719162 ≤ days) (most : days ≤ 2932896) : ∃ date, fromDays days = some date := by
  obtain ⟨low, high, leap⟩ := dayOfYear_range (days + 719468)
  obtain ⟨start, last, first, within⟩ := marchMonthOf_range low high
  obtain ⟨some', years⟩ := writtenYear_range least most
  rw [fromDays_eq]
  dsimp only
  rw [if_neg (by omega), fromYmd, dif_pos]
  · exact ⟨_, rfl⟩
  · refine ⟨by omega, ?_, by omega, dayOfMonth_le start last some' first within high (leap · some')⟩
    unfold writtenMonth
    split_ifs <;> omega

/-- The first date and the last. -/
def first : Date := ⟨1, 1, 1, by decide⟩

def last : Date := ⟨9999, 12, 31, by decide⟩

theorem first_le (date : Date) : first ≤ date := by
  obtain ⟨years, months, days, -⟩ := date.holds
  rw [le_iff, first]
  dsimp only
  omega

theorem le_last (date : Date) : date ≤ last := by
  obtain ⟨years, months, -, days⟩ := date.holds
  have longest := (daysIn_le date.year date.month).2
  rw [le_iff, last]
  dsimp only
  omega

theorem range_of_date (date : Date) : -719162 ≤ date.daysSinceEpoch ∧ date.daysSinceEpoch ≤ 2932896 := by
  have least : first.daysSinceEpoch = -719162 := by decide
  have most : last.daysSinceEpoch = 2932896 := by decide
  exact ⟨least ▸ daysSinceEpoch_le_iff.mpr (first_le date), most ▸ daysSinceEpoch_le_iff.mpr (le_last date)⟩

theorem fromDays_daysSinceEpoch (date : Date) : fromDays date.daysSinceEpoch = some date := by
  obtain ⟨found, same⟩ := exists_of_range (range_of_date date).1 (range_of_date date).2
  rw [same, daysSinceEpoch_injective (daysSinceEpoch_of_fromDays same)]

/-- The date of a day number is the one of that number, and there is none outside the years a date writes. -/
theorem fromDays_eq_some_iff {days : Int} : fromDays days = some date ↔ date.daysSinceEpoch = days := by
  constructor
  · exact daysSinceEpoch_of_fromDays
  · rintro rfl
    exact fromDays_daysSinceEpoch date

theorem fromDays_isSome_iff {days : Int} :
    (fromDays days).isSome ↔ first.daysSinceEpoch ≤ days ∧ days ≤ last.daysSinceEpoch := by
  have least : first.daysSinceEpoch = -719162 := by decide
  have most : last.daysSinceEpoch = 2932896 := by decide
  rw [least, most, Option.isSome_iff_exists]
  constructor
  · rintro ⟨date, found⟩
    exact daysSinceEpoch_of_fromDays found ▸ range_of_date date
  · exact fun range => exists_of_range range.1 range.2

/-- The day after a date is the earliest of those past it. -/
theorem next_eq_some_iff : next a = some b ↔ IsLeast {date | a < date} b := by
  rw [next, fromDays_eq_some_iff]
  constructor
  · intro after
    refine ⟨daysSinceEpoch_lt_iff.mp (by omega), fun date later => daysSinceEpoch_le_iff.mp ?_⟩
    have more := daysSinceEpoch_lt_iff.mpr later
    omega
  · rintro ⟨later, least⟩
    have more := daysSinceEpoch_lt_iff.mpr later
    obtain ⟨date, found⟩ := exists_of_range (show -719162 ≤ a.daysSinceEpoch + 1 by linarith [(range_of_date a).1])
      (by linarith [(range_of_date b).2])
    have number := daysSinceEpoch_of_fromDays found
    have before := daysSinceEpoch_le_iff.mpr (least (daysSinceEpoch_lt_iff.mp (show a.daysSinceEpoch < date.daysSinceEpoch by omega)))
    omega

end

end MeridianCore.Date

/-! A date's text: each field's digits to its whole width. What is read back is the date, and no other text is read as it. -/

namespace MeridianCore.Date
open Limbs (padded)
open Nat (toDigits ofDigitChars)

section
variable {date : Date} {width value : Nat} {part : List Char} {text : String}

theorem pad_toList (width value : Nat) : (pad width value).toList = padded width value := by
  have written : (toString value).toList = toDigits 10 value := Nat.toList_repr
  have length : (toString value).length = (toDigits 10 value).length := by rw [← written, String.length_toList]
  unfold pad padded List.leftpad
  dsimp only
  rw [String.toList_append, String.toList_ofList, written, length]

theorem padded_length (some' : 0 < width) (below : value < 10 ^ width) : (padded width value).length = width := by
  have short := (Nat.length_toDigits_le_iff (b := 10) (n := value) (by decide) some').mpr below
  rw [padded, List.length_leftpad]
  exact max_eq_left short

theorem digits_eq (part : List Char) : digits part = if part.all Char.isDigit then some (ofDigitChars 10 part 0) else none := by
  unfold digits ofDigitChars
  congr 2
  refine congrArg (fun step => List.foldl step 0 part) ?_
  funext held digit
  rw [Nat.mul_comm]

/-- A number's digits to a width are read as it. -/
theorem digits_padded (width value : Nat) : digits (padded width value) = some value := by
  have all : (padded width value).all Char.isDigit = true := by
    rw [padded, List.leftpad, List.all_append, Bool.and_eq_true, List.all_eq_true, List.all_eq_true]
    refine ⟨fun digit member => ?_, fun digit member => Limbs.digit_of_toDigits member⟩
    rw [List.eq_of_mem_replicate member]
    rfl
  rw [digits_eq, if_pos all, padded, Limbs.ofDigitChars_leftpad, Nat.ofDigitChars_ten_toDigits]

/-- Digits are their number's, to their width. -/
theorem padded_ofDigitChars (all : part.all Char.isDigit = true) (some' : part ≠ []) :
    padded part.length (ofDigitChars 10 part 0) = part := by
  induction part using List.reverseRecOn with
  | nil => exact absurd rfl some'
  | append_singleton rest digit ih =>
    rw [List.all_append, Bool.and_eq_true] at all
    obtain ⟨earlier, last⟩ := all
    obtain ⟨below, same⟩ := Limbs.digitChar_of_isDigit (List.all_eq_true.mp last digit List.mem_cons_self)
    have value : ofDigitChars 10 (rest ++ [digit]) 0 = 10 * ofDigitChars 10 rest 0 + (digit.toNat - '0'.toNat) := by
      rw [Nat.ofDigitChars_append, Nat.ofDigitChars_cons, Nat.ofDigitChars_nil]
    rw [value, List.length_append, List.length_singleton]
    match rest, ih earlier with
    | [], _ =>
      rw [Nat.ofDigitChars_nil, Nat.mul_zero, Nat.zero_add, padded, Nat.toDigits_of_lt_base below, same]
      rfl
    | first :: others, ih =>
      rw [List.length_cons, Limbs.padded_digit below, same, ← List.length_cons, ih (List.cons_ne_nil _ _)]

theorem digits_eq_some (read : digits part = some value) (some' : part ≠ []) : part = padded part.length value := by
  rw [digits_eq] at read
  split at read
  · next all =>
    rw [← Option.some.inj read, padded_ofDigitChars all some']
  · cases read

/-- A text of three fields, of four characters, two and two. -/
def Fields (text : String) (year month day : List Char) : Prop :=
  text.toList = year ++ '-' :: (month ++ '-' :: day) ∧ year.length = 4 ∧ month.length = 2 ∧ day.length = 2

/-- A text is read by its three fields. -/
theorem parse_fields {year month day : List Char} (fields : Fields text year month day) : parse text = (do
    let year ← digits year
    let month ← digits month
    let day ← digits day
    fromYmd year month day) := by
  obtain ⟨listed, four, two, last⟩ := fields
  match year, month, day with
  | [a, b, c, d], [e, f], [g, h] =>
    unfold parse
    rw [listed]
    rfl

theorem fields_of_parse (read : parse text = some date) : ∃ year month day, Fields text year month day := by
  unfold parse at read
  obtain ⟨_, guarded, _⟩ := Option.bind_eq_some_iff.mp read
  obtain ⟨ten, first, second⟩ : text.toList.length = 10 ∧ text.toList[4]? = some '-' ∧ text.toList[7]? = some '-' := by
    by_contra other
    rw [guard, if_neg other] at guarded
    cases guarded
  match listed : text.toList, ten with
  | [a, b, c, d, e, f, g, h, i, j], _ =>
    rw [listed] at first second
    cases first
    cases second
    exact ⟨[a, b, c, d], [f, g], [i, j], listed, rfl, rfl, rfl⟩

theorem toString_fields (date : Date) :
    Fields (toString date) (padded 4 date.year) (padded 2 date.month) (padded 2 date.day) := by
  obtain ⟨⟨-, years⟩, ⟨-, months⟩, -, days⟩ := date.holds
  have longest := (daysIn_le date.year date.month).2
  refine ⟨?_, padded_length (by decide) (by omega), padded_length (by decide) (by omega), padded_length (by decide) (by omega)⟩
  change (pad 4 date.year ++ "-" ++ pad 2 date.month ++ "-" ++ pad 2 date.day).toList = _
  simp only [String.toList_append, pad_toList, List.append_assoc]
  rfl

/-- A date's text is read as it. -/
theorem parse_toString (date : Date) : parse (toString date) = some date := by
  rw [parse_fields (toString_fields date), digits_padded, digits_padded, digits_padded]
  exact dif_pos date.holds

/-- And no other text is. -/
theorem toString_of_parse (read : parse text = some date) : toString date = text := by
  obtain ⟨year, month, day, fields⟩ := fields_of_parse read
  rw [parse_fields fields] at read
  obtain ⟨year', years, read⟩ := Option.bind_eq_some_iff.mp read
  obtain ⟨month', months, read⟩ := Option.bind_eq_some_iff.mp read
  obtain ⟨day', days, read⟩ := Option.bind_eq_some_iff.mp read
  obtain ⟨listed, four, two, last⟩ := fields
  have some' : ∀ {part : List Char} {n : Nat}, part.length = n + 1 → part ≠ [] := fun length none' => by
    rw [none'] at length
    cases length
  unfold fromYmd at read
  split at read
  · cases read
    refine String.toList_injective ?_
    rw [(toString_fields _).1, listed, digits_eq_some years (some' four), digits_eq_some months (some' two),
      digits_eq_some days (some' last), four, two, last]
  · cases read

/-- What a day number held in 64 bits answers: the date of that number where it is one of the years a date writes, that there is
none where it is not, and no overflow. -/
def Numbered (days : Int64) : Prop := ∃ found, fromDays64 days = some found ∧
  (∀ date, found = some date ↔ date.daysSinceEpoch = days.toInt) ∧
  (found.isSome ↔ first.daysSinceEpoch ≤ days.toInt ∧ days.toInt ≤ last.daysSinceEpoch)

theorem numbered_iff {days : Int64} : Numbered days ↔ days.toInt < 2 ^ 63 - 719468 := by
  unfold Numbered fromDays64
  constructor
  · rintro ⟨found, read, -⟩
    split at read
    · omega
    · cases read
  · intro below
    rw [if_pos (by omega)]
    exact ⟨_, rfl, fun date => fromDays_eq_some_iff, fromDays_isSome_iff⟩

theorem fromDays64_daysSinceEpoch (date : Date) : fromDays64 (Int64.ofInt date.daysSinceEpoch) = some (some date) := by
  obtain ⟨least, most⟩ := range_of_date date
  have held : (Int64.ofInt date.daysSinceEpoch).toInt = date.daysSinceEpoch :=
    Int64.toInt_ofInt_of_le (by omega) (by omega)
  rw [fromDays64, held, if_pos (by omega), fromDays_daysSinceEpoch]

/-- Dates, their day numbers and their texts are one order, but for the day numbers whose offset is past 64 bits. -/
theorem dates_numbered_iff (days : Int64) (a b : Date) (text : String) :
    (Numbered days ↔ days.toInt < 2 ^ 63 - 719468) ∧
      fromDays64 (Int64.ofInt a.daysSinceEpoch) = some (some a) ∧
      (a < b ↔ a.daysSinceEpoch < b.daysSinceEpoch) ∧
      (next a = some b ↔ IsLeast {date | a < date} b) ∧
      (parse text = some a ↔ text = toString a) := by
  refine ⟨numbered_iff, fromDays64_daysSinceEpoch a, daysSinceEpoch_lt_iff.symm, next_eq_some_iff, ?_⟩
  constructor
  · exact fun read => (toString_of_parse read).symm
  · rintro rfl
    exact parse_toString a

theorem greatest_overflows : fromDays64 Int64.maxValue = none ∧ ¬ Numbered Int64.maxValue := by
  refine ⟨by decide, fun numbered => absurd (numbered_iff.mp numbered) (by decide)⟩

end

end MeridianCore.Date
