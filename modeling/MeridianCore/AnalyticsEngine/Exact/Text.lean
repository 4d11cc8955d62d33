import MeridianCore.AnalyticsEngine.Exact.Dec

namespace MeridianCore.AnalyticsEngine.Dec
open Nat (ofDigitChars)
open Limbs

/-- A plain decimal's text in its parts: whether it is negative, and its digits before and past its point. -/
def plain (text : String) : Option (Bool × List Char × List Char) :=
  let (negative, body) := signOf text.toList
  let (whole, places) := splitOnce body
  if (whole ≠ [] ∨ places ≠ []) ∧ whole.all Char.isDigit ∧ places.all Char.isDigit ∧ ('.' ∈ body → places ≠ []) then
    some (negative, whole, places)
  else none

/-- The integer a plain decimal's digits make. -/
def digitsValue (parts : Bool × List Char × List Char) : Int :=
  signedValue parts.1 (ofDigitChars 10 (parts.2.1 ++ parts.2.2) 0)

/-- The rational a plain decimal's text denotes, where it is one. -/
def denoted (text : String) : Option ℚ := (plain text).map fun parts => (digitsValue parts : ℚ) / 10 ^ parts.2.2.length

/-- The digits a plain decimal's text has past its point. -/
def placesOf (text : String) : Nat := (splitOnce (signOf text.toList).2).2.length

section digits
variable {digits : List Char}

/-- Digits read to a number in the form that holds them. -/
theorem read_digits (some : digits ≠ []) (all : digits.all Char.isDigit = true) :
    ∃ integer : Num, (if digits.length ≤ 38 then (I128.checked (ofDigitChars 10 digits 0 : Nat)).map Num.small
      else (Big.fromDigits digits).map Num.fromBig) = Option.some integer ∧
        integer.value = (ofDigitChars 10 digits 0 : Nat) := by
  split
  · next short =>
    have below := ofDigitChars_lt all
    have most : ofDigitChars 10 digits 0 < 2 ^ 127 :=
      lt_of_lt_of_le below (le_trans (Nat.pow_le_pow_right (by decide) short) (by decide))
    refine ⟨.small ⟨(ofDigitChars 10 digits 0 : Nat), by omega, by omega⟩, ?_, rfl⟩
    rw [I128.checked, dif_pos ⟨by omega, by omega⟩]
    rfl
  · obtain ⟨big, read, value⟩ := Big.fromDigits_eq some all
    exact ⟨Num.fromBig big, by rw [read]; rfl, by rw [Num.value_fromBig, value]⟩

end digits

theorem length_of_plain {text : String} {parts : Bool × List Char × List Char} (is : plain text = some parts) :
    parts.2.2.length = placesOf text := by
  unfold plain at is
  unfold placesOf
  dsimp only at is
  split at is
  · rw [← Option.some.inj is]
  · cases is

/-- A text is read where it is a plain decimal's: its digits, at the scale its places count to in 32 bits. -/
theorem parse_plain (text : String) :
    match plain text with
    | none => ∃ bad, parse text = .error bad
    | some parts => ∃ dec, parse text = .ok dec ∧ dec.integer.value = digitsValue parts ∧ dec.scale = UInt32.ofNat parts.2.2.length := by
  unfold parse plain
  generalize signOf text.toList = signed
  obtain ⟨negative, body⟩ := signed
  dsimp only
  generalize splitOnce body = cut
  obtain ⟨whole, places⟩ := cut
  dsimp only
  by_cases is : (whole ≠ [] ∨ places ≠ []) ∧ whole.all Char.isDigit ∧ places.all Char.isDigit ∧ ('.' ∈ body → places ≠ [])
  · have read : ¬ ((whole.isEmpty ∧ places.isEmpty) ∨ ¬ whole.all Char.isDigit ∨ ¬ places.all Char.isDigit ∨
        (body.contains '.' ∧ places.isEmpty)) := by
      simp only [List.isEmpty_iff, List.contains_iff_mem]
      tauto
    have some_ : whole ++ places ≠ [] := by
      intro empty
      obtain ⟨noWhole, noPlaces⟩ := List.append_eq_nil_iff.mp empty
      rcases is.1 with some_ | some_
      · exact some_ noWhole
      · exact some_ noPlaces
    have all : (whole ++ places).all Char.isDigit = true := by rw [List.all_append, is.2.1, is.2.2.1]; rfl
    obtain ⟨integer, held, value⟩ := read_digits some_ all
    rw [if_neg read, if_neg (fun empty => some_ (List.isEmpty_iff.mp empty)), if_pos is, held]
    refine ⟨_, rfl, ?_, rfl⟩
    rw [digitsValue]
    cases negative
    · exact value
    · exact (Num.value_negated integer).trans (by rw [value, signedValue_true])
  · have refused : (whole.isEmpty ∧ places.isEmpty) ∨ ¬ whole.all Char.isDigit ∨ ¬ places.all Char.isDigit ∨
        (body.contains '.' ∧ places.isEmpty) := by
      simp only [List.isEmpty_iff, List.contains_iff_mem]
      tauto
    rw [if_pos refused, if_neg is]
    exact ⟨_, rfl⟩

/-- A text is read where it denotes a rational, to that rational where its places count within 32 bits. -/
theorem parse_spec (text : String) :
    ((∃ bad, parse text = .error bad) ∧ denoted text = none) ∨
      ∃ dec q, parse text = .ok dec ∧ denoted text = some q ∧ (dec.value = q ↔ placesOf text < 2 ^ 32 ∨ q = 0) := by
  have read := parse_plain text
  unfold denoted
  cases is : plain text with
  | none =>
    rw [is] at read
    exact Or.inl ⟨read, rfl⟩
  | some parts =>
    rw [is] at read
    obtain ⟨dec, ok, integer, scale⟩ := read
    refine Or.inr ⟨dec, _, ok, rfl, ?_⟩
    rw [← length_of_plain is, value, integer, scale, UInt32.toNat_ofNat', scaled_iff, div_eq_zero_iff,
      or_iff_left (ten_pow_ne _), Int.cast_eq_zero]

/-- Digits on both sides of one point are cut where they were joined. -/
theorem splitOnce_point {whole : List Char} (places : List Char) (all : ∀ digit ∈ whole, digit.isDigit = true) :
    splitOnce (whole ++ '.' :: places) = (whole, places) := by
  have pass : ∀ digit ∈ whole, decide (digit ≠ '.') = true := by
    intro digit member
    have is := all digit member
    refine decide_eq_true ?_
    rintro rfl
    cases is
  rw [splitOnce, List.span_eq_takeWhile_dropWhile]
  dsimp only
  rw [List.takeWhile_append_of_pos pass, List.dropWhile_append_of_pos pass]
  simp

theorem splitOnce_digits {digits : List Char} (all : ∀ digit ∈ digits, digit.isDigit = true) : splitOnce digits = (digits, []) := by
  have pass : ∀ digit ∈ digits, decide (digit ≠ '.') = true := by
    intro digit member
    have is := all digit member
    refine decide_eq_true ?_
    rintro rfl
    cases is
  rw [splitOnce, List.span_eq_takeWhile_dropWhile]
  dsimp only
  rw [List.takeWhile_eq_self_iff.mpr pass, List.dropWhile_eq_nil_iff.mpr pass]
  rfl

theorem signOf_digit {digit : Char} (rest : List Char) (is : digit.isDigit = true) : signOf (digit :: rest) = (false, digit :: rest) := by
  unfold signOf
  split
  · next same =>
    obtain ⟨rfl, -⟩ := List.cons.inj same
    cases is
  · next same =>
    obtain ⟨rfl, -⟩ := List.cons.inj same
    cases is
  · rfl

/-- A sign and a body of digits are read back in their parts. -/
theorem plain_written {body whole places : List Char} (below : Bool) (cut : splitOnce body = (whole, places))
    (first : ∃ digit rest, body = digit :: rest ∧ digit.isDigit = true) (some : whole ≠ []) (allW : ∀ digit ∈ whole, digit.isDigit = true)
    (allP : ∀ digit ∈ places, digit.isDigit = true) (point : '.' ∈ body → places ≠ []) :
    plain (String.ofList (if below then '-' :: body else body)) = Option.some (below, whole, places) := by
  have signed : signOf (if below then '-' :: body else body) = (below, body) := by
    obtain ⟨digit, rest, rfl, is⟩ := first
    cases below
    · exact signOf_digit rest is
    · rfl
  unfold plain
  rw [String.toList_ofList, signed]
  dsimp only
  rw [cut]
  dsimp only
  rw [if_pos ⟨Or.inl some, List.all_eq_true.mpr allW, List.all_eq_true.mpr allP, point⟩]

/-- A text is written where its scale is within a format's width: the integer's digits, as many past the point as
the scale. -/
theorem text_plain (dec : Dec) :
    if dec.scale.toNat < maxWidth then
      ∃ text parts, dec.text = some text ∧ plain text = some parts ∧ digitsValue parts = dec.integer.value ∧
        parts.2.2.length = dec.scale.toNat
    else dec.text = none := by
  have digits : ∀ digit ∈ Nat.toDigits 10 dec.integer.value.natAbs, digit.isDigit = true := fun _ => digit_of_toDigits
  have read : ofDigitChars 10 (Nat.toDigits 10 dec.integer.value.natAbs) 0 = dec.integer.value.natAbs := Nat.ofDigitChars_ten_toDigits
  have some_ : Nat.toDigits 10 dec.integer.value.natAbs ≠ [] := Nat.toDigits_ne_nil
  have sign : signedValue (decide (dec.signum < 0)) dec.integer.value.natAbs = dec.integer.value := by
    have below : dec.signum < 0 ↔ dec.integer.value < 0 := by
      rw [signum, Num.signum_eq, Int.sign_neg_iff]
    by_cases negative : dec.integer.value < 0
    · rw [decide_eq_true (below.mpr negative), signedValue_true]
      omega
    · rw [decide_eq_false (mt below.mp negative), signedValue_false]
      omega
  unfold text
  rw [Num.magnitudeDigits_eq]
  generalize Nat.toDigits 10 dec.integer.value.natAbs = written at digits read some_
  dsimp only
  by_cases none : dec.scale.toNat = 0
  · have is := plain_written (decide (dec.signum < 0)) (splitOnce_digits digits)
      (by cases written with
        | nil => exact absurd rfl some_
        | cons digit rest => exact ⟨digit, rest, rfl, digits digit List.mem_cons_self⟩)
      some_ digits (fun _ member => absurd member List.not_mem_nil) (fun point => by cases digits '.' point)
    rw [if_pos (by rw [none]; decide), if_pos none]
    simp only [decide_eq_true_eq] at is
    refine ⟨_, _, rfl, is, ?_, none.symm⟩
    rw [digitsValue, List.append_nil, read, sign]
  · rw [if_neg none]
    by_cases wide : dec.scale.toNat < maxWidth
    · rw [if_pos wide, if_neg (by omega)]
      have padded : ∀ digit ∈ List.leftpad (dec.scale.toNat + 1) '0' written, digit.isDigit = true := by
        intro digit member
        rcases List.mem_append.mp member with member | member
        · rw [List.eq_of_mem_replicate member]
          rfl
        · exact digits digit member
      have value_ := ofDigitChars_leftpad (dec.scale.toNat + 1) written
      rw [read] at value_
      have long : dec.scale.toNat + 1 ≤ (List.leftpad (dec.scale.toNat + 1) '0' written).length := by
        rw [List.length_leftpad]
        exact Nat.le_max_left ..
      generalize List.leftpad (dec.scale.toNat + 1) '0' written = body at padded value_ long
      have allW : ∀ digit ∈ body.take (body.length - dec.scale.toNat), digit.isDigit = true := fun digit member =>
        padded digit (List.mem_of_mem_take member)
      have someW : body.take (body.length - dec.scale.toNat) ≠ [] := by
        intro empty
        have length := congrArg List.length empty
        rw [List.length_take, List.length_nil] at length
        omega
      have places : (body.drop (body.length - dec.scale.toNat)).length = dec.scale.toNat := by
        rw [List.length_drop]
        omega
      have is := plain_written (decide (dec.signum < 0)) (splitOnce_point (body.drop (body.length - dec.scale.toNat)) allW)
        (by
          match take : body.take (body.length - dec.scale.toNat), someW with
          | digit :: rest, _ => exact ⟨digit, _, rfl, allW digit (take ▸ List.mem_cons_self)⟩)
        someW allW (fun digit member => padded digit (List.mem_of_mem_drop member))
        (fun _ empty => none (places.symm.trans (by rw [empty]; rfl)))
      simp only [decide_eq_true_eq] at is
      refine ⟨_, _, rfl, is, ?_, places⟩
      rw [digitsValue, List.take_append_drop, value_, sign]
    · rw [if_neg wide, if_pos (by omega)]
      rfl

/-- What a text is written from it denotes. -/
theorem text_spec (dec : Dec) :
    if dec.scale.toNat < maxWidth then ∃ text, dec.text = some text ∧ denoted text = some dec.value else dec.text = none := by
  have written := text_plain dec
  split
  · next within =>
    rw [if_pos within] at written
    obtain ⟨text, parts, ok, is, integer, places⟩ := written
    refine ⟨text, ok, ?_⟩
    rw [denoted, is, Option.map_some, integer, places, value]
  · next wide =>
    rw [if_neg wide] at written
    exact written

/-- A text written is read back to the same integer at the same scale. -/
theorem parse_text {dec : Dec} (within : dec.scale.toNat < maxWidth) :
    ∃ text read, dec.text = some text ∧ parse text = .ok read ∧ read.integer.value = dec.integer.value ∧ read.scale = dec.scale := by
  have written := text_plain dec
  rw [if_pos within] at written
  obtain ⟨text, parts, ok, is, integer, places⟩ := written
  have parsed := parse_plain text
  rw [is] at parsed
  obtain ⟨read, readOk, readInteger, readScale⟩ := parsed
  refine ⟨text, read, ok, readOk, readInteger.trans integer, ?_⟩
  rw [readScale, places, UInt32.ofNat_toNat]

end MeridianCore.AnalyticsEngine.Dec
