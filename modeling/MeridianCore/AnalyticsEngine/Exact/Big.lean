import MeridianCore.AnalyticsEngine.Exact.Magnitude
import MeridianCore.Limbs.Decimal
import MeridianCore.Limbs.Words

namespace MeridianCore.AnalyticsEngine
open Nat (ofDigits ofDigitChars)
open Limbs

/-- An integer of 128 bits. -/
structure I128 where
  value : Int
  least : -(2 ^ 127) ≤ value
  most : value < 2 ^ 127
  deriving DecidableEq

/-- An integer where 128 bits hold it: what a checked operation answers. -/
def I128.checked (value : Int) : Option I128 :=
  if held : -(2 ^ 127) ≤ value ∧ value < 2 ^ 127 then some ⟨value, held.1, held.2⟩ else none

theorem I128.value_of_checked {value : Int} {held : I128} (some : I128.checked value = some held) : held.value = value := by
  unfold checked at some
  split at some
  · rw [← Option.some.inj some]
  · cases some

/-- A signed integer of any size: its sign and its magnitude in 32-bit limbs, least significant first, with no
high zero limb, so zero is the empty magnitude and is never negative. -/
structure Big where
  negative : Bool
  magnitude : List Nat
  fits : Fits Big.base magnitude
  trimmed : Trimmed magnitude
  unsigned : magnitude = [] → negative = false
  deriving DecidableEq

namespace Big

/-- What its limbs come to. -/
def size (big : Big) : Nat := ofDigits base big.magnitude

/-- The integer it is. -/
def value (big : Big) : Int := signedValue big.negative big.size

/-- A sign and a magnitude, its high zeros dropped, zero never negative. -/
def signed (negative : Bool) (magnitude : List Nat) (fits : Fits base magnitude) : Big where
  negative := negative && !(trim magnitude).isEmpty
  magnitude := trim magnitude
  fits := fits_trim fits
  trimmed := trimmed_trim magnitude
  unsigned empty := by simp [empty]

def zero : Big := ⟨false, [], fits_nil, by simp [Trimmed], fun _ => rfl⟩

def fromI128 (value : I128) : Big where
  negative := decide (value.value < 0)
  magnitude := magnitudeOf value.value.natAbs
  fits := fits_magnitudeOf _
  trimmed := trimmed_magnitudeOf _
  unsigned empty := by
    have none := ofDigits_magnitudeOf value.value.natAbs
    rw [empty, Nat.ofDigits_nil] at none
    simp [Int.natAbs_eq_zero.mp none.symm]

def fromU128 (value : Nat) : Big where
  negative := false
  magnitude := magnitudeOf value
  fits := fits_magnitudeOf _
  trimmed := trimmed_magnitudeOf _
  unsigned _ := rfl

def isZero (big : Big) : Bool := big.magnitude.isEmpty

def signum (big : Big) : Int := if big.isZero then 0 else if big.negative then -1 else 1

def isOdd (big : Big) : Bool :=
  match big.magnitude with
  | limb :: _ => limb % 2 == 1
  | [] => false

/-- The value as an i128, where it fits. -/
def toI128 (big : Big) : Option I128 :=
  if 4 < big.magnitude.length then none
  else
    let magnitude := joinWords 32 big.magnitude
    if big.negative then
      if within : magnitude ≤ 2 ^ 127 then some ⟨-(magnitude : Int), by omega, by omega⟩ else none
    else if within : magnitude < 2 ^ 127 then some ⟨magnitude, by omega, by omega⟩
    else none

def negated (big : Big) : Big := signed (!big.negative) big.magnitude big.fits

def abs (big : Big) : Big := signed false big.magnitude big.fits

def add (big other : Big) : Big :=
  if big.negative = other.negative then
    signed big.negative (addMagnitudes big.magnitude other.magnitude) (addMagnitudes_spec big.fits other.fits).1
  else
    match compareMagnitudes big.magnitude other.magnitude with
    | .eq => zero
    | .gt => signed big.negative (subtractMagnitudes big.magnitude other.magnitude) (fits_subtractMagnitudes big.fits other.fits)
    | .lt =>
      signed other.negative (subtractMagnitudes other.magnitude big.magnitude) (fits_subtractMagnitudes other.fits big.fits)

def sub (big other : Big) : Big := big.add other.negated

def mul (big other : Big) : Big :=
  signed (big.negative != other.negative) (multiplyMagnitudes big.magnitude other.magnitude)
    (multiplyMagnitudes_spec big.fits other.fits).1

def mulSmall (big : Big) (factor : Nat) : Big := big.mul (fromU128 factor)

/-- Times 10^n, a factor of 38 places at most at a time. -/
def timesPow10 (out : Big) (left : Nat) : Big :=
  if left = 0 then out else timesPow10 (out.mul (fromU128 (10 ^ min left 38))) (left - min left 38)
termination_by left

def pow10 (n : Nat) : Big := timesPow10 (fromU128 1) n

/-- The quotient's and the remainder's magnitudes. -/
def divided (big divisor : Big) : List Nat × List Nat :=
  if compareMagnitudes big.magnitude divisor.magnitude = .lt then ([], big.magnitude)
  else
    match divisor.magnitude with
    | [limb] =>
      let by_ := divideByLimb big.magnitude limb
      (by_.1, if by_.2 = 0 then [] else [by_.2])
    | _ => divideMagnitudes big.magnitude divisor.magnitude

/-- The chunks of nine decimal digits a magnitude comes to, least significant first. -/
def digitChunks (rest : List Nat) : List Nat :=
  if rest.isEmpty then [] else (divideByLimb rest (10 ^ 9)).2 :: digitChunks (divideByLimb rest (10 ^ 9)).1
termination_by ofDigits base rest + rest.length
decreasing_by
  next some =>
    have longer : 0 < rest.length := List.length_pos_iff.mpr (fun empty => some (List.isEmpty_iff.mpr empty))
    have value := @ofDigits_divideByWord base (10 ^ 9) rest
    have shorter : (trim (divideByWord base (10 ^ 9) rest).1).length ≤ rest.length :=
      le_trans (length_trim _) (le_of_eq (length_divideByWord (10 ^ 9) rest))
    rcases Nat.eq_zero_or_pos (ofDigits base (divideByLimb rest (10 ^ 9)).1) with zero | positive
    · have empty : (divideByLimb rest (10 ^ 9)).1 = [] := eq_nil_of_ofDigits base_pos (trimmed_trim _) zero
      rw [empty]
      simp
      omega
    · rw [divideByLimb, ofDigits_trim] at positive ⊢
      dsimp only
      omega

/-- The decimal digits of the magnitude, "0" for zero. -/
def magnitudeDigits (big : Big) : List Char :=
  if big.isZero then ['0'] else joinChunks 9 (digitChunks big.magnitude)

/-- What eighteen digits at a time, each a number a u64 holds, make onto what is read. -/
def readChunks (out : Big) (digits : List Char) : Big :=
  if digits.isEmpty then out
  else
    let chunk := digits.take 18
    readChunks ((out.mul (fromU128 (10 ^ chunk.length))).add (fromU128 (ofDigitChars 10 chunk 0))) (digits.drop 18)
termination_by digits.length
decreasing_by
  next some =>
    have longer : 0 < digits.length := List.length_pos_iff.mpr (fun empty => some (List.isEmpty_iff.mpr empty))
    simp
    omega

/-- Parse unsigned decimal digits. -/
def fromDigits (digits : List Char) : Option Big :=
  if digits.isEmpty ∨ ¬ digits.all Char.isDigit then none else some (readChunks zero digits)

def cmp (big other : Big) : Ordering :=
  match big.negative, other.negative with
  | false, true => .gt
  | true, false => .lt
  | false, false => compareMagnitudes big.magnitude other.magnitude
  | true, true => compareMagnitudes other.magnitude big.magnitude

section values
variable {a b : Big}

theorem value_signed (negative : Bool) (magnitude : List Nat) (fits : Fits base magnitude) :
    (signed negative magnitude fits).value = signedValue negative (ofDigits base magnitude) := by
  have same : (signed negative magnitude fits).size = ofDigits base magnitude := ofDigits_trim magnitude
  unfold value
  rw [same]
  by_cases empty : trim magnitude = []
  · have none : ofDigits base magnitude = 0 := by rw [← @ofDigits_trim base, empty, Nat.ofDigits_nil]
    rw [none, signedValue_zero, signedValue_zero]
  · have kept : (signed negative magnitude fits).negative = negative := by simp [signed, empty]
    rw [kept]

@[simp] theorem value_zero : zero.value = 0 := rfl

@[simp] theorem value_fromI128 (value : I128) : (fromI128 value).value = value.value := by
  have same : (fromI128 value).size = value.value.natAbs := ofDigits_magnitudeOf _
  unfold Big.value
  rw [same]
  by_cases negative : value.value < 0
  · simp only [fromI128, negative, decide_true, signedValue_true]
    omega
  · simp only [fromI128, negative, decide_false, signedValue_false]
    omega

@[simp] theorem value_fromU128 (value : Nat) : (fromU128 value).value = value := by
  have same : (fromU128 value).size = value := ofDigits_magnitudeOf _
  unfold Big.value
  rw [same]
  rfl

theorem size_eq_natAbs (big : Big) : big.size = big.value.natAbs := (natAbs_signedValue big.negative big.size).symm

theorem size_eq_zero_iff (big : Big) : big.size = 0 ↔ big.magnitude = [] := by
  constructor
  · exact eq_nil_of_ofDigits base_pos big.trimmed
  · intro empty
    rw [size, empty, Nat.ofDigits_nil]

theorem size_unsigned (big : Big) (zero : big.size = 0) : big.negative = false :=
  big.unsigned ((size_eq_zero_iff big).mp zero)

/-- A magnitude of no limb is zero's, and only zero's. -/
theorem isZero_iff (big : Big) : big.isZero = true ↔ big.value = 0 := by
  rw [isZero, List.isEmpty_iff, ← size_eq_zero_iff, value, signedValue_eq_zero_iff]

theorem negative_iff (big : Big) : big.negative = true ↔ big.value < 0 := (signedValue_neg_iff big.size_unsigned).symm

/-- A value is one Big's. -/
theorem value_inj {a b : Big} (same : a.value = b.value) : a = b := by
  have size : a.size = b.size := by rw [size_eq_natAbs, size_eq_natAbs, same]
  have magnitude : a.magnitude = b.magnitude := trimmed_unique one_lt_base a.fits b.fits a.trimmed b.trimmed size
  have negative : a.negative = b.negative := Bool.eq_iff_iff.mpr (by rw [negative_iff, negative_iff, same])
  cases a
  cases b
  cases magnitude
  cases negative
  rfl

theorem signum_eq (big : Big) : big.signum = big.value.sign := by
  rw [value, sign_signedValue big.size_unsigned]
  simp only [signum, isZero, List.isEmpty_iff, size_eq_zero_iff]

theorem isOdd_iff (big : Big) : big.isOdd = true ↔ big.value % 2 = 1 := by
  have even : 2 ∣ base := by decide
  have odd : big.isOdd = true ↔ big.size % 2 = 1 := by
    unfold isOdd size
    cases big.magnitude with
    | nil => simp
    | cons limb rest =>
      obtain ⟨half, whole⟩ := even
      rw [Nat.ofDigits_cons]
      conv_rhs => rw [whole, Nat.mul_assoc, Nat.add_mul_mod_self_left]
      exact beq_iff_eq
  rw [odd, size_eq_natAbs]
  omega

/-- The value fits where it is an i128's. -/
theorem toI128_eq (big : Big) : big.toI128 = I128.checked big.value := by
  have long : 4 < big.magnitude.length → 2 ^ 128 ≤ big.size := by
    intro long
    have some : big.magnitude ≠ [] := by
      intro empty
      rw [empty] at long
      simp at long
    calc
      2 ^ 128 = base ^ 4 := by decide
      _ ≤ base ^ (big.magnitude.length - 1) := Nat.pow_le_pow_right base_pos (by omega)
      _ ≤ big.size := pow_le_ofDigits big.trimmed some
  have joined : joinWords 32 big.magnitude = big.size := joinWords_eq big.fits
  unfold toI128 I128.checked value signedValue
  simp only [joined]
  split
  · next more =>
    have large := long more
    split <;> split <;> first | rfl | omega
  · split
    · split <;> split <;> first | rfl | omega
    · split <;> split <;> first | rfl | omega

@[simp] theorem value_negated (big : Big) : big.negated.value = -big.value := by
  rw [negated, value_signed, signedValue_not]
  rfl

@[simp] theorem value_abs (big : Big) : big.abs.value = |big.value| := by
  rw [abs, value_signed, Int.abs_eq_natAbs, ← size_eq_natAbs]
  rfl

theorem compareMagnitudes_size (a b : Big) : compareMagnitudes a.magnitude b.magnitude = compare a.size b.size :=
  compareMagnitudes_eq one_lt_base a.fits b.fits a.trimmed b.trimmed

theorem cmp_eq (a b : Big) : a.cmp b = compare a.value b.value := by
  rw [value, value, compare_signedValue a.size_unsigned b.size_unsigned]
  unfold cmp
  cases a.negative <;> cases b.negative <;> first | rfl | exact compareMagnitudes_size ..

@[simp] theorem value_add (a b : Big) : (a.add b).value = a.value + b.value := by
  unfold add
  split
  · next same =>
    rw [value_signed, (addMagnitudes_spec a.fits b.fits).2, signedValue_add_same]
    unfold value
    rw [← same]
    rfl
  · next other =>
    have signs : b.negative = !a.negative := by
      cases negativeA : a.negative <;> cases negativeB : b.negative <;> simp_all
    rw [compareMagnitudes_size]
    split
    · next equal =>
      have equal := compare_eq_iff_eq.mp equal
      rw [value_zero, value, value, signs, equal, signedValue_not]
      ring
    · next more =>
      have more := compare_gt_iff_gt.mp more
      have taken := (subtractMagnitudes_spec a.fits b.fits b.trimmed more.le).2
      rw [value_signed, signedValue_add_opposite a.negative taken, ← signs]
      rfl
    · next less =>
      have less := compare_lt_iff_lt.mp less
      have taken := (subtractMagnitudes_spec b.fits a.fits a.trimmed less.le).2
      have signs : a.negative = !b.negative := by rw [signs, Bool.not_not]
      rw [value_signed, signedValue_add_opposite b.negative taken, ← signs, Int.add_comm]
      rfl

@[simp] theorem value_sub (a b : Big) : (a.sub b).value = a.value - b.value := by
  rw [sub, value_add, value_negated]
  ring

@[simp] theorem value_mul (a b : Big) : (a.mul b).value = a.value * b.value := by
  rw [mul, value_signed, (multiplyMagnitudes_spec a.fits b.fits).2, signedValue_mul]
  rfl

@[simp] theorem value_mulSmall (big : Big) (factor : Nat) : (big.mulSmall factor).value = big.value * factor := by
  rw [mulSmall, value_mul, value_fromU128]

theorem value_timesPow10 (out : Big) (left : Nat) : (timesPow10 out left).value = out.value * 10 ^ left := by
  induction left using Nat.strong_induction_on generalizing out with
  | _ left ih =>
    rw [timesPow10]
    split
    · next none => rw [none, pow_zero, mul_one]
    · next some =>
      rw [ih (left - min left 38) (by omega), value_mul, value_fromU128, Nat.cast_pow, Nat.cast_ofNat, mul_assoc, ← pow_add]
      congr 2
      omega

@[simp] theorem value_pow10 (n : Nat) : (pow10 n).value = 10 ^ n := by
  rw [pow10, value_timesPow10, value_fromU128, Nat.cast_one, one_mul]

theorem two_of_longer {divisor : Big} (nonzero : divisor.isZero = false) (longer : ∀ limb, divisor.magnitude = [limb] → False) :
    2 ≤ divisor.magnitude.length := by
  match length : divisor.magnitude with
  | [] =>
    rw [isZero, length] at nonzero
    cases nonzero
  | [limb] => exact absurd length (longer limb)
  | _ :: _ :: _ => simp

theorem longer_of_more {big divisor : Big} (more : ¬ compareMagnitudes big.magnitude divisor.magnitude = .lt) :
    divisor.magnitude.length ≤ big.magnitude.length := by
  by_contra shorter
  have less := ofDigits_lt_of_length one_lt_base big.fits divisor.trimmed (not_le.mp shorter)
  exact more ((compareMagnitudes_size big divisor).trans (compare_lt_iff_lt.mpr less))

theorem divided_spec {divisor : Big} (big : Big) (nonzero : divisor.isZero = false) :
    Fits base (divided big divisor).1 ∧ Fits base (divided big divisor).2 ∧
      ofDigits base (divided big divisor).1 = big.size / divisor.size ∧
      ofDigits base (divided big divisor).2 = big.size % divisor.size := by
  have some : divisor.magnitude ≠ [] := by
    intro empty
    rw [isZero, empty] at nonzero
    cases nonzero
  have positive : 0 < divisor.size := by
    refine Nat.pos_of_ne_zero fun zero => some ?_
    exact eq_nil_of_ofDigits base_pos divisor.trimmed zero
  have compared := compareMagnitudes_size big divisor
  unfold divided
  split
  · next less =>
    have less := compare_lt_iff_lt.mp (compared.symm.trans less)
    exact ⟨fits_nil, big.fits, (Nat.div_eq_of_lt less).symm, (Nat.mod_eq_of_lt less).symm⟩
  · next more =>
    split
    · next limb single =>
      have size : divisor.size = limb := by rw [size, single, Nat.ofDigits_singleton]
      obtain ⟨fitsQ, quotient, remainder⟩ := divideByLimb_spec (size ▸ positive) big.fits
      have belowR : (divideByLimb big.magnitude limb).2 < base := by
        have fitsD := divisor.fits
        rw [single] at fitsD
        rw [remainder]
        exact lt_trans (Nat.mod_lt _ (size ▸ positive)) (fits_cons.mp fitsD).1
      rw [size]
      refine ⟨fitsQ, ?_, quotient, ?_⟩
      · dsimp only
        split
        · exact fits_nil
        · exact fits_cons.mpr ⟨belowR, fits_nil⟩
      · dsimp only
        split
        · next none => rw [Nat.ofDigits_nil, ← none, remainder, Big.size]
        · rw [Nat.ofDigits_singleton, remainder, Big.size]
    · next longer =>
      exact divideMagnitudes_spec big.fits divisor.fits divisor.trimmed (two_of_longer nonzero longer) (longer_of_more more)

end values

/-- The quotient and remainder truncated toward zero, the remainder taking the dividend's sign. -/
def divideTruncated (big divisor : Big) (nonzero : divisor.isZero = false) : Big × Big :=
  let whole := divided_spec big nonzero
  (signed (big.negative != divisor.negative) (divided big divisor).1 whole.1,
    signed big.negative (divided big divisor).2 whole.2.1)

/-- Floor division by a positive divisor: the quotient rounded toward minus infinity, and a remainder in
`0 .. divisor`. -/
def divmodFloor (big divisor : Big) (positive : divisor.negative = false ∧ divisor.isZero = false) : Big × Big :=
  let by_ := divideTruncated big divisor positive.2
  if by_.2.negative then (by_.1.sub (fromU128 1), by_.2.add divisor) else by_

section values

theorem divisor_positive {divisor : Big} (positive : divisor.negative = false ∧ divisor.isZero = false) :
    0 < divisor.value := by
  have some : divisor.value ≠ 0 := by
    intro zero
    rw [(isZero_iff divisor).mpr zero] at positive
    cases positive.2
  have above : ¬ divisor.value < 0 := by
    intro below
    rw [(negative_iff divisor).mpr below] at positive
    cases positive.1
  omega

theorem divmodFloor_spec (big : Big) {divisor : Big} (positive : divisor.negative = false ∧ divisor.isZero = false) :
    (divmodFloor big divisor positive).1.value = big.value / divisor.value ∧
      (divmodFloor big divisor positive).2.value = big.value % divisor.value := by
  have above := divisor_positive positive
  obtain ⟨fitsQ, fitsR, quotient, remainder⟩ := divided_spec big positive.2
  have sizeD : (divisor.size : Int) = divisor.value := by simp [value, positive.1]
  have quotientIs : (divideTruncated big divisor positive.2).1.value =
      if big.negative then -((big.size / divisor.size : Nat) : Int) else (big.size / divisor.size : Nat) := by
    rw [divideTruncated, value_signed, quotient, positive.1, Bool.bne_false]
    rfl
  have remainderIs : (divideTruncated big divisor positive.2).2.value =
      if big.negative then -((big.size % divisor.size : Nat) : Int) else (big.size % divisor.size : Nat) := by
    rw [divideTruncated, value_signed, remainder]
    rfl
  have parts : (big.size : Int) = divisor.value * (big.size / divisor.size : Nat) + (big.size % divisor.size : Nat) := by
    rw [← sizeD]
    exact_mod_cast (Nat.div_add_mod big.size divisor.size).symm
  have small : ((big.size % divisor.size : Nat) : Int) < divisor.value := by
    rw [← sizeD]
    exact_mod_cast Nat.mod_lt big.size (by omega)
  have sign := negative_iff (divideTruncated big divisor positive.2).2
  have bigIs : big.value = if big.negative then -(big.size : Int) else big.size := rfl
  rw [parts] at bigIs
  generalize ((big.size / divisor.size : Nat) : Int) = q at quotientIs parts bigIs
  have least : (0 : Int) ≤ (big.size % divisor.size : Nat) := Int.natCast_nonneg _
  generalize ((big.size % divisor.size : Nat) : Int) = r at remainderIs parts small bigIs least
  rw [eq_comm, @eq_comm _ _ (big.value % divisor.value), Int.ediv_emod_unique above]
  unfold divmodFloor
  dsimp only
  split
  · next below =>
    have below := sign.mp below
    rw [value_sub, value_add, value_fromU128, quotientIs]
    rw [remainderIs] at below ⊢
    cases negative : big.negative <;> simp only [negative, if_true, Bool.false_eq_true, if_false] at below bigIs ⊢
    · omega
    · refine ⟨?_, by omega, by omega⟩
      rw [bigIs]
      push_cast
      ring
  · next unsigned =>
    have unsigned : ¬ (divideTruncated big divisor positive.2).2.value < 0 := fun below => unsigned (sign.mpr below)
    rw [quotientIs]
    rw [remainderIs] at unsigned ⊢
    cases negative : big.negative <;> simp only [negative, if_true, Bool.false_eq_true, if_false] at unsigned bigIs ⊢
    · refine ⟨?_, least, small⟩
      rw [bigIs]
      ring
    · have none : r = 0 := by omega
      refine ⟨?_, by omega, by omega⟩
      rw [bigIs, none]
      ring

/-- The chunks of a magnitude are its digits to the base 10^9, with no high zero. -/
theorem digitChunks_spec {rest : List Nat} (fits : Fits base rest) (trimmed : Trimmed rest) :
    Fits (10 ^ 9) (digitChunks rest) ∧ Trimmed (digitChunks rest) ∧
      ofDigits (10 ^ 9) (digitChunks rest) = ofDigits base rest := by
  induction rest using digitChunks.induct with
  | case1 rest empty =>
    rw [digitChunks, if_pos empty, List.isEmpty_iff.mp empty]
    exact ⟨fits_nil, by simp [Trimmed], rfl⟩
  | case2 rest some ih =>
    obtain ⟨fitsQ, quotient, remainder⟩ := divideByLimb_spec (show 0 < 10 ^ 9 by decide) fits
    obtain ⟨fitsC, trimmedC, value⟩ := ih fitsQ (trimmed_trim _)
    have whole := Nat.mod_add_div (ofDigits base rest) (10 ^ 9)
    rw [digitChunks, if_neg some]
    refine ⟨fits_cons.mpr ⟨?_, fitsC⟩, ?_, ?_⟩
    · rw [remainder]
      exact Nat.mod_lt _ (by decide)
    · unfold Trimmed at trimmedC ⊢
      rw [List.getLast?_cons]
      cases last : (digitChunks (divideByLimb rest (10 ^ 9)).1).getLast? with
      | some chunk =>
        rw [last] at trimmedC
        exact trimmedC
      | none =>
        -- The highest chunk is what is left of a number that is not zero.
        rw [List.getLast?_eq_none_iff.mp last, Nat.ofDigits_nil] at value
        have nonzero : ofDigits base rest ≠ 0 := by
          intro zero
          exact some (List.isEmpty_iff.mpr (eq_nil_of_ofDigits base_pos trimmed zero))
        intro zero
        have zero : (divideByLimb rest (10 ^ 9)).2 = 0 := Option.some.inj zero
        rw [quotient] at value
        rw [remainder] at zero
        omega
    · rw [Nat.ofDigits_cons, value, remainder, quotient]
      exact whole

theorem magnitudeDigits_eq (big : Big) : big.magnitudeDigits = Nat.toDigits 10 big.value.natAbs := by
  rw [← size_eq_natAbs]
  unfold magnitudeDigits
  split
  · next zero =>
    have none : big.size = 0 := by rw [size_eq_natAbs, (isZero_iff big).mp zero, Int.natAbs_zero]
    rw [none, Nat.toDigits_zero]
  · next nonzero =>
    obtain ⟨fits, trimmed, value⟩ := digitChunks_spec big.fits big.trimmed
    have some : digitChunks big.magnitude ≠ [] := by
      rw [digitChunks, if_neg (show ¬ big.magnitude.isEmpty = true from nonzero)]
      exact List.cons_ne_nil _ _
    rw [joinChunks_eq some fits trimmed, value, size]

theorem value_readChunks (out : Big) (digits : List Char) :
    (readChunks out digits).value = out.value * 10 ^ digits.length + (ofDigitChars 10 digits 0 : Nat) := by
  induction out, digits using readChunks.induct with
  | case1 out digits empty =>
    rw [readChunks, if_pos empty, List.isEmpty_iff.mp empty]
    simp
  | case2 out digits some chunk ih =>
    have parts : digits = chunk ++ digits.drop 18 := (List.take_append_drop 18 digits).symm
    rw [readChunks, if_neg some, ih, value_add, value_mul, value_fromU128, value_fromU128]
    conv_rhs => rw [parts, Nat.ofDigitChars_append, Nat.ofDigitChars_eq_ofDigitChars_zero, List.length_append]
    push_cast
    ring

theorem fromDigits_eq {digits : List Char} (nonempty : digits ≠ []) (all : digits.all Char.isDigit = true) :
    ∃ big, fromDigits digits = some big ∧ big.value = (ofDigitChars 10 digits 0 : Nat) := by
  refine ⟨readChunks zero digits, ?_, ?_⟩
  · rw [fromDigits, if_neg]
    rintro (empty | other)
    · exact nonempty (List.isEmpty_iff.mp empty)
    · exact other all
  · rw [value_readChunks, value_zero, zero_mul, zero_add]

end values

end Big

end MeridianCore.AnalyticsEngine
