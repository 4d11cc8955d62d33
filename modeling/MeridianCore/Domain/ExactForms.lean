import MeridianCore.Domain.Exact
import MeridianCore.Limbs.Decimal
import MeridianCore.Limbs.Words

/-! The forms an exact decimal is written in: the two halves of its integer on the wire, what it hashes as, and its
text. -/

namespace MeridianCore.Exact
open Limbs

/-- An exact decimal as the wire carries it: its integer's high and low 64 bits, and its scale. -/
structure Halves where
  high : BitVec 64
  low : BitVec 64
  scale : Nat
  deriving DecidableEq

/-- To the wire, with the scale it was stated with. -/
def halves (value : Exact) : Halves where
  high := ((BitVec.ofInt 128 value.integer).sshiftRight 64).setWidth 64
  low := (BitVec.ofInt 128 value.integer).setWidth 64
  scale := value.scale

/-- The integer two halves make: the high one's bits, its sign with them, over the low one's. -/
def Halves.integer (wire : Halves) : Int :=
  (((wire.high.signExtend 128) <<< 64) ||| wire.low.setWidth 128).toInt

/-- From the wire: the integer's two halves put back together. -/
def fromHalves (wire : Halves) : Except OutOfRange Exact := fromWire ⟨wire.integer, wire.scale⟩

/-- An integer without the zeros it ends in, and the scale without as many places. -/
def trimmedFrom (integer : Int) : Nat → Int × Nat
  | 0 => (integer, 0)
  | scale + 1 => if integer % 10 = 0 then trimmedFrom (integer / 10) scale else (integer, scale + 1)

/-- The same number at the least scale that states it. -/
def trimmed (value : Exact) : Int × Nat := trimmedFrom value.integer value.scale

/-- What a hasher takes of a value. -/
def hash {σ : Type} (take : σ → Int × Nat → σ) (state : σ) (value : Exact) : σ := take state value.trimmed

/-- A plain decimal's text in its parts. -/
structure Written where
  negative : Bool
  whole : List Char
  fraction : List Char

namespace Written

/-- The text the parts make. -/
def text (written : Written) : List Char :=
  (if written.negative then ['-'] else []) ++ written.whole ++
    (if written.fraction = [] then [] else '.' :: written.fraction)

/-- Digits before the point, one at least, and digits past it. -/
def Plain (written : Written) : Prop :=
  written.whole ≠ [] ∧ written.whole.all Char.isDigit = true ∧ written.fraction.all Char.isDigit = true

/-- The number written. -/
def number (written : Written) : ℚ :=
  (if written.negative then -1 else 1) * ((Nat.ofDigitChars 10 written.whole 0 : ℚ) +
    (Nat.ofDigitChars 10 written.fraction 0 : ℚ) / 10 ^ written.fraction.length)

end Written

section wire

/-- The two halves of 128 bits, put back together. -/
theorem join_split (bits : BitVec 128) :
    ((((bits.sshiftRight 64).setWidth 64).signExtend 128) <<< 64) ||| ((bits.setWidth 64).setWidth 128) = bits := by
  ext place low
  by_cases under : place < 64
  · simp [under, BitVec.getLsbD_eq_getElem low]
  · have high : place - 64 < 64 := by omega
    have inside : ¬ 128 ≤ place - 64 := by omega
    have back : 64 + (place - 64) = place := by omega
    simp [BitVec.getElem_signExtend, under, high, BitVec.getLsbD_sshiftRight, back, inside, low,
      BitVec.getLsbD_eq_getElem low]

theorem toInt_ofInt_digits {integer : Int} (digits : integer.natAbs < limit) :
    (BitVec.ofInt 128 integer).toInt = integer := by
  have bound : integer.natAbs < 100000000000000000000000000000000000000 := digits
  rw [BitVec.toInt_ofInt]
  exact Int.bmod_eq_of_le (by omega) (by omega)

/-- What crosses the wire is read back as it was stated. -/
theorem fromHalves_halves (value : Exact) : fromHalves value.halves = .ok value := by
  have integer : value.halves.integer = value.integer := by
    rw [Halves.integer, halves]
    dsimp only
    rw [join_split, toInt_ofInt_digits value.digits]
  rw [fromHalves, integer]
  exact fromWire_toWire value

end wire

section trimmed
variable {integer : Int} {scale : Nat}

theorem trimmedFrom_value (integer : Int) (scale : Nat) :
    ((trimmedFrom integer scale).1 : ℚ) / 10 ^ (trimmedFrom integer scale).2 = integer / 10 ^ scale := by
  induction scale generalizing integer with
  | zero => rfl
  | succ scale ih =>
    rw [trimmedFrom]
    split
    · next zero =>
      have whole : integer = integer / 10 * 10 := by omega
      rw [ih, pow_succ]
      conv_rhs => rw [whole]
      push_cast
      rw [mul_div_mul_right _ _ (by norm_num)]
    · rfl

theorem trimmedFrom_least (integer : Int) (scale : Nat) :
    (trimmedFrom integer scale).2 = 0 ∨ (trimmedFrom integer scale).1 % 10 ≠ 0 := by
  induction scale generalizing integer with
  | zero => exact .inl rfl
  | succ scale ih =>
    rw [trimmedFrom]
    split
    · exact ih (integer / 10)
    · next some' => exact .inr some'

/-- A number at the least scale that states it is stated at no other. -/
theorem least_unique {a b : Int × Nat} (leastA : a.2 = 0 ∨ a.1 % 10 ≠ 0) (leastB : b.2 = 0 ∨ b.1 % 10 ≠ 0)
    (same : (a.1 : ℚ) / 10 ^ a.2 = b.1 / 10 ^ b.2) : a = b := by
  have further {c d : Int × Nat} (least : d.2 = 0 ∨ d.1 % 10 ≠ 0)
      (equal : (c.1 : ℚ) / 10 ^ c.2 = d.1 / 10 ^ d.2) : d.2 ≤ c.2 := by
    by_contra more
    obtain ⟨extra, scale⟩ : ∃ extra, d.2 = c.2 + (extra + 1) := ⟨d.2 - c.2 - 1, by omega⟩
    have positive : (10 : ℚ) ^ c.2 ≠ 0 := by positivity
    rw [scale, pow_add] at equal
    have scaled : (c.1 : ℚ) * 10 ^ (extra + 1) = d.1 := by
      field_simp at equal
      linarith
    have whole : d.1 = c.1 * 10 ^ extra * 10 := by
      rw [mul_assoc, ← pow_succ]
      exact_mod_cast scaled.symm
    rcases least with none' | some'
    · omega
    · exact some' (by omega)
  have scales : a.2 = b.2 := Nat.le_antisymm (further leastA same.symm) (further leastB same)
  rw [scales] at same
  have positive : (10 : ℚ) ^ b.2 ≠ 0 := by positivity
  have equal : (a.1 : ℚ) = b.1 := by
    rwa [div_left_inj' positive] at same
  exact Prod.ext (by exact_mod_cast equal) scales

/-- Equal values are one number at its least scale. -/
theorem trimmed_of_value {a b : Exact} (same : a.value = b.value) : a.trimmed = b.trimmed :=
  least_unique (trimmedFrom_least _ _) (trimmedFrom_least _ _)
    ((trimmedFrom_value a.integer a.scale).trans (same.trans (trimmedFrom_value b.integer b.scale).symm))

end trimmed

theorem cmp_value (a b : Exact) : cmp a b = compare a.value b.value := by
  rw [cmp_eq_compare]
  rcases lt_trichotomy a.value b.value with below | same | above
  · rw [compare_lt_iff_lt.mpr below, compare_lt_iff_lt.mpr ((units_lt_iff a b).mpr below)]
  · have units : a.units = b.units := by
      have scaled := value_units a
      rw [same, value_units b] at scaled
      exact_mod_cast scaled.symm
    rw [compare_eq_iff_eq.mpr same, compare_eq_iff_eq.mpr units]
  · rw [compare_gt_iff_gt.mpr above, compare_gt_iff_gt.mpr ((units_lt_iff b a).mpr above)]

section text
variable {written : Written} {text : String} {value : Exact}

theorem point_apart {digits : List Char} (all : digits.all Char.isDigit = true) : ∀ digit ∈ digits, decide (digit ≠ '.') = true := by
  intro digit member
  have is := List.all_eq_true.mp all digit member
  refine decide_eq_true ?_
  rintro rfl
  cases is

/-- The sign a text starts with, and what comes after it. -/
def signOf (text : List Char) : Bool × List Char :=
  match text with
  | '-' :: rest => (true, rest)
  | rest => (false, rest)

theorem signOf_eq (text : List Char) : text = (if (signOf text).1 then ['-'] else []) ++ (signOf text).2 := by
  unfold signOf
  split <;> rfl

theorem signOf_written (plain : written.Plain) : signOf written.text =
    (written.negative, written.whole ++ if written.fraction = [] then [] else '.' :: written.fraction) := by
  obtain ⟨some', all, -⟩ := plain
  rw [Written.text, List.append_assoc]
  generalize (if written.fraction = [] then [] else '.' :: written.fraction) = rest
  cases written.negative with
  | true => rfl
  | false =>
    match whole : written.whole, some' with
    | digit :: more, _ =>
      rw [whole, List.all_cons, Bool.and_eq_true] at all
      unfold signOf
      split
      · next same =>
        obtain ⟨rfl, -⟩ := List.cons.inj same
        cases all.1
      · rfl

/-- A body cut at its first point: what comes before it, and what comes past it. -/
theorem cut_written (plain : written.Plain) :
    let body := written.whole ++ if written.fraction = [] then [] else '.' :: written.fraction
    body.takeWhile (· ≠ '.') = written.whole ∧ (body.dropWhile (· ≠ '.')).drop 1 = written.fraction ∧
      ('.' ∈ body ↔ written.fraction ≠ []) := by
  have pass := point_apart plain.2.1
  have clear : '.' ∉ written.whole := fun member => by cases List.all_eq_true.mp plain.2.1 _ member
  dsimp only
  rw [List.takeWhile_append_of_pos pass, List.dropWhile_append_of_pos pass]
  by_cases none' : written.fraction = []
  · simp [none', clear]
  · simp [none']

/-- Any body is what comes before its first point, and what comes past it where it has one. -/
theorem body_cut (body : List Char) :
    body = body.takeWhile (· ≠ '.') ++ (if '.' ∈ body then '.' :: (body.dropWhile (· ≠ '.')).drop 1 else []) := by
  have joined := @List.takeWhile_append_dropWhile _ (· ≠ '.') body
  cases past : body.dropWhile (· ≠ '.') with
  | nil =>
    have clear : '.' ∉ body := fun member => by
      simpa using List.dropWhile_eq_nil_iff.mp past '.' member
    rw [past, List.append_nil] at joined
    rw [if_neg clear, List.append_nil, joined]
  | cons first rest =>
    have point : first = '.' := by
      have head := List.head?_dropWhile_not (· ≠ '.') body
      rw [past] at head
      simpa using head
    have member : '.' ∈ body := by
      refine (List.dropWhile_sublist (· ≠ '.')).subset ?_
      rw [past, point]
      exact List.mem_cons_self
    rw [past, point] at joined
    rw [if_pos member, List.drop_one, List.tail_cons, joined]

/-- How a text is read, by its sign and what comes after it. -/
theorem parse_eq (text : String) : parse text =
    (let unsigned := (signOf text.toList).2
     let whole := unsigned.takeWhile (· ≠ '.')
     let fraction := (unsigned.dropWhile (· ≠ '.')).drop 1
     if whole = [] ∨ ¬ whole.all Char.isDigit ∨ ¬ fraction.all Char.isDigit ∨ ('.' ∈ unsigned ∧ fraction = []) then
       .error (.notDecimal text)
     else if places < fraction.length then .error (.scale fraction.length)
     else if 38 < ((whole ++ fraction).dropWhile (· = '0')).length then .error .digits
     else new (signedValue (signOf text.toList).1 (Nat.ofDigitChars 10 (whole ++ fraction) 0)) fraction.length) := by
  unfold parse
  have magnitude (digits : List Char) :
      digits.foldl (fun held digit => held * 10 + (digit.toNat - '0'.toNat)) 0 = Nat.ofDigitChars 10 digits 0 := by
    rw [Nat.ofDigitChars_eq_foldl]
    congr 1
    funext held digit
    rw [Nat.mul_comm]
  simp only [magnitude, ofDigitChars_significant]
  rfl

/-- A text is read where it is a plain decimal's inside what the wire carries: its digits, at the scale of its places. -/
theorem parse_iff : parse text = .ok value ↔ ∃ written : Written, text.toList = written.text ∧ written.Plain ∧
    value.scale = written.fraction.length ∧
      value.integer = signedValue written.negative (Nat.ofDigitChars 10 (written.whole ++ written.fraction) 0) := by
  rw [parse_eq]
  dsimp only
  constructor
  · intro read
    split at read
    · cases read
    next plain =>
    simp only [not_or, not_not, not_and] at plain
    obtain ⟨some', whole, fraction, point⟩ := plain
    split at read
    · cases read
    split at read
    · cases read
    obtain ⟨integer, scale⟩ := new_ok read
    refine ⟨⟨_, _, _⟩, ?_, ⟨some', whole, fraction⟩, scale, integer⟩
    rw [Written.text, List.append_assoc]
    conv_lhs => rw [signOf_eq text.toList, body_cut (signOf text.toList).2]
    by_cases member : '.' ∈ (signOf text.toList).2
    · rw [if_pos member, if_neg (point member)]
    · have none' : ((signOf text.toList).2.dropWhile (· ≠ '.')).drop 1 = [] := by
        have all : ∀ c ∈ (signOf text.toList).2, decide (c ≠ '.') = true := fun c held =>
          decide_eq_true fun same => member (same ▸ held)
        rw [List.dropWhile_eq_nil_iff.mpr all, List.drop_nil]
      rw [if_neg member, if_pos none']
  · rintro ⟨written, is, plain, scale, integer⟩
    obtain ⟨before, past, point⟩ := cut_written plain
    rw [is, signOf_written plain, before, past]
    have all : (written.whole ++ written.fraction).all Char.isDigit = true := by
      rw [List.all_append, plain.2.1, plain.2.2]
      rfl
    have below : Nat.ofDigitChars 10 (written.whole ++ written.fraction) 0 < 10 ^ 38 := by
      have digits := value.digits
      rw [integer, natAbs_signedValue] at digits
      exact digits
    rw [if_neg, if_neg (by rw [← scale]; exact not_lt.mpr value.scale_le),
      if_neg (not_lt.mpr (length_significant_le all below)), ← integer, ← scale]
    · unfold new
      rw [dif_pos value.scale_le, dif_pos value.digits]
    · rintro (empty | notWhole | notFraction | ⟨member, none'⟩)
      · exact plain.1 empty
      · exact notWhole plain.2.1
      · exact notFraction plain.2.2
      · exact point.mp member none'

/-- A value is written as a plain decimal of its digits. -/
theorem text_written (value : Exact) : ∃ written : Written, value.text.toList = written.text ∧ written.Plain ∧
    value.scale = written.fraction.length ∧
      value.integer = signedValue written.negative (Nat.ofDigitChars 10 (written.whole ++ written.fraction) 0) := by
  have sign : value.integer = signedValue (decide (value.integer < 0)) value.integer.natAbs := by
    by_cases below : value.integer < 0
    · rw [decide_eq_true below, signedValue_true]
      omega
    · rw [decide_eq_false below, signedValue_false]
      omega
  have signed : (if value.integer < 0 then "-" else "").toList = if decide (value.integer < 0) = true then ['-'] else [] := by
    by_cases below : value.integer < 0
    · simp [below]
    · simp [below]
  have digits : (Nat.toDigits 10 value.integer.natAbs).all Char.isDigit = true :=
    List.all_eq_true.mpr fun _ => digit_of_toDigits
  have read : Nat.ofDigitChars 10 (Nat.toDigits 10 value.integer.natAbs) 0 = value.integer.natAbs := Nat.ofDigitChars_ten_toDigits
  by_cases none' : value.scale = 0
  · refine ⟨⟨decide (value.integer < 0), Nat.toDigits 10 value.integer.natAbs, []⟩, ?_, ⟨Nat.toDigits_ne_nil, digits, rfl⟩,
      none', ?_⟩
    · rw [text, if_pos none', String.toList_append, signed, Written.text]
      simp
    · rw [List.append_nil, read]
      exact sign
  · have padded : (String.ofList (List.replicate (value.scale + 1 - (toString value.integer.natAbs).length) '0') ++
        toString value.integer.natAbs).toList = List.leftpad (value.scale + 1) '0' (Nat.toDigits 10 value.integer.natAbs) := by
      rw [List.leftpad, String.toList_append, String.toList_ofList]
      simp [← String.length_toList]
    have all : (List.leftpad (value.scale + 1) '0' (Nat.toDigits 10 value.integer.natAbs)).all Char.isDigit = true := by
      rw [List.leftpad, List.all_append, digits]
      simp
    have kept := ofDigitChars_leftpad (value.scale + 1) (Nat.toDigits 10 value.integer.natAbs)
    rw [read] at kept
    have long : value.scale + 1 ≤ (List.leftpad (value.scale + 1) '0' (Nat.toDigits 10 value.integer.natAbs)).length := by
      rw [List.length_leftpad]
      exact Nat.le_max_left _ _
    rw [text, if_neg none']
    dsimp only
    generalize String.ofList (List.replicate (value.scale + 1 - (toString value.integer.natAbs).length) '0') ++
        toString value.integer.natAbs = written at padded
    generalize List.leftpad (value.scale + 1) '0' (Nat.toDigits 10 value.integer.natAbs) = body at padded all kept long
    have length : written.length = body.length := by rw [← padded, String.length_toList]
    have fraction : (body.drop (body.length - value.scale)).length = value.scale := by
      rw [List.length_drop]
      omega
    refine ⟨⟨decide (value.integer < 0), body.take (body.length - value.scale), body.drop (body.length - value.scale)⟩, ?_,
      ⟨?_, ?_, ?_⟩, fraction.symm, ?_⟩
    · have some' : body.drop (body.length - value.scale) ≠ [] := fun empty => by
        rw [empty] at fraction
        exact none' fraction.symm
      rw [Written.text, if_neg some', ← signed, length, ← padded]
      simp
    · intro empty
      have taken := congrArg List.length empty
      rw [List.length_take, List.length_nil] at taken
      omega
    · exact List.all_eq_true.mpr fun digit member => List.all_eq_true.mp all digit (List.mem_of_mem_take member)
    · exact List.all_eq_true.mpr fun digit member => List.all_eq_true.mp all digit (List.mem_of_mem_drop member)
    · rw [List.take_append_drop, kept]
      exact sign

/-- What is written is read back as it was stated. -/
theorem parse_text (value : Exact) : parse value.text = .ok value := parse_iff.mpr (text_written value)

/-- A text that is read is the number written, at as many places as are written. -/
theorem number_of_parse (read : parse text = .ok value) : ∃ written : Written, text.toList = written.text ∧ written.Plain ∧
    value.value = written.number ∧ value.scale = written.fraction.length := by
  obtain ⟨written, is, plain, scale, integer⟩ := parse_iff.mp read
  refine ⟨written, is, plain, ?_, scale⟩
  have positive : (10 : ℚ) ^ written.fraction.length ≠ 0 := by positivity
  rw [Exact.value, scale, integer, Nat.ofDigitChars_append, Nat.ofDigitChars_eq_ofDigitChars_zero, Written.number]
  cases written.negative with
  | true =>
    rw [signedValue_true, if_pos rfl]
    push_cast
    field_simp
  | false =>
    rw [signedValue_false, if_neg Bool.false_ne_true]
    push_cast
    field_simp

end text

/-- A number in an order, with the forms it is written in: its comparison is that of the numbers and so a total order,
what is equal hashes alike, and each form is read back as it was stated. -/
structure OrderedNumber : Prop where
  order : ∀ a b, cmp a b = compare a.value b.value
  swapped : ∀ a b, cmp b a = (cmp a b).swap
  transitive : ∀ a b c, (cmp a b).isLE → (cmp b c).isLE → (cmp a c).isLE
  hashed : ∀ (σ : Type) (take : σ → Int × Nat → σ) (state : σ) a b, a.equals b = true → hash take state a = hash take state b
  wire : ∀ value, fromHalves value.halves = .ok value
  written : ∀ value, parse value.text = .ok value
  read : ∀ text value, parse text = .ok value → ∃ written : Written, text.toList = written.text ∧ written.Plain ∧
    value.value = written.number ∧ value.scale = written.fraction.length

theorem exact_orderedNumber : OrderedNumber where
  order := cmp_value
  swapped a b := by rw [cmp_value, cmp_value, Std.OrientedOrd.eq_swap]
  transitive a b c first second := by
    rw [cmp_value] at first second ⊢
    exact Std.TransCmp.isLE_trans first second
  hashed σ take state a b equal := by
    rw [equals, cmp_value, beq_iff_eq, compare_eq_iff_eq] at equal
    rw [hash, hash, trimmed_of_value equal]
  wire := fromHalves_halves
  written := parse_text
  read text value := number_of_parse

example : cmp ⟨15, 1, by decide, by decide⟩ ⟨150, 2, by decide, by decide⟩ = .eq := by decide

end MeridianCore.Exact
