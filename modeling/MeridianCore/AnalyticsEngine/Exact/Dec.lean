import MeridianCore.AnalyticsEngine.Exact.Num
import MeridianCore.Limbs.Rounding

namespace MeridianCore.AnalyticsEngine
open Nat (ofDigitChars)
open Limbs

/-- An exact decimal: `integer` × 10^-`scale`. -/
structure Dec where
  integer : Num
  scale : UInt32
  deriving DecidableEq

/-- A text that is not a plain decimal. -/
structure NotPlainDecimal where
  text : String
  deriving DecidableEq

/-- `numerator / denominator` rounded half to even to a whole number. -/
def roundQuotient (numerator denominator : Big) (positive : denominator.negative = false ∧ denominator.isZero = false) : Big :=
  let divided := numerator.divmodFloor denominator positive
  let twice := divided.2.mulSmall 2
  match twice.cmp denominator with
  | .gt => divided.1.add (Big.fromU128 1)
  | .eq => if divided.1.isOdd then divided.1.add (Big.fromU128 1) else divided.1
  | .lt => divided.1

theorem Big.positive_iff (big : Big) : (big.negative = false ∧ big.isZero = false) ↔ 0 < big.value := by
  have sign := big.negative_iff
  have zero := big.isZero_iff
  constructor
  · exact Big.divisor_positive
  · intro above
    constructor
    · rw [Bool.eq_false_iff]
      intro negative
      have below := sign.mp negative
      omega
    · rw [Bool.eq_false_iff]
      intro none
      have none := zero.mp none
      omega

theorem Big.pow10_positive (n : Nat) : (Big.pow10 n).negative = false ∧ (Big.pow10 n).isZero = false := by
  rw [Big.positive_iff, Big.value_pow10]
  exact Int.pow_pos (by decide)

/-- An exact rational, its denominator positive. Not reduced. -/
structure Ratio where
  numerator : Big
  denominator : Big
  positive : denominator.negative = false ∧ denominator.isZero = false

namespace Dec

/-- What a format's width may be. -/
def maxWidth : Nat := 2 ^ 16 - 1

/-- A plain decimal's sign and body. -/
def signOf (text : List Char) : Bool × List Char :=
  match text with
  | '-' :: rest => (true, rest)
  | '+' :: rest => (false, rest)
  | rest => (false, rest)

/-- A body cut at its first point. -/
def splitOnce (body : List Char) : List Char × List Char :=
  let cut := body.span (· ≠ '.')
  (cut.1, cut.2.tail)

/-- A plain decimal's text: an optional sign, digits, and optionally a point and more digits. -/
def parse (text : String) : Except NotPlainDecimal Dec :=
  let bad : Except NotPlainDecimal Dec := .error ⟨text⟩
  let (negative, body) := signOf text.toList
  let (whole, places) := splitOnce body
  if (whole.isEmpty ∧ places.isEmpty) ∨ ¬ whole.all Char.isDigit ∨ ¬ places.all Char.isDigit ∨
      (body.contains '.' ∧ places.isEmpty) then bad
  else
    let digits := whole ++ places
    let digits := if digits.isEmpty then ['0'] else digits
    let integer : Option Num :=
      if digits.length ≤ 38 then (I128.checked (ofDigitChars 10 digits 0)).map Num.small
      else (Big.fromDigits digits).map Num.fromBig
    match integer with
    | none => bad
    | some integer => .ok ⟨if negative then integer.negated else integer, UInt32.ofNat places.length⟩

/-- Two integers at the greater of two scales. -/
def aligned (dec other : Dec) : Num × Num × UInt32 :=
  match compare dec.scale.toNat other.scale.toNat with
  | .eq => (dec.integer, other.integer, dec.scale)
  | .lt => (dec.integer.mulPow10 (other.scale - dec.scale).toNat, other.integer, other.scale)
  | .gt => (dec.integer, other.integer.mulPow10 (dec.scale - other.scale).toNat, dec.scale)

def add (dec other : Dec) : Dec :=
  if dec.scale = other.scale then ⟨dec.integer.add other.integer, dec.scale⟩
  else
    let (a, b, scale) := dec.aligned other
    ⟨a.add b, scale⟩

def negated (dec : Dec) : Dec := ⟨dec.integer.negated, dec.scale⟩

def sub (dec other : Dec) : Dec := dec.add other.negated

/-- The scales are added as u32, which wraps. -/
def mul (dec other : Dec) : Dec := ⟨dec.integer.mul other.integer, dec.scale + other.scale⟩

def signum (dec : Dec) : Int := dec.integer.signum

def isZero (dec : Dec) : Bool := dec.integer.isZero

/-- A small integer's quotient by a power of ten, rounded half to even. -/
def roundSmall (value divisor : Int) : Int :=
  let whole := value / divisor
  let twice := 2 * (value % divisor)
  if divisor < twice ∨ twice = divisor ∧ whole % 2 ≠ 0 then whole + 1 else whole

theorem roundSmall_held {value : I128} {drop : Nat} (some : drop ≠ 0) :
    -(2 ^ 127) ≤ roundSmall value.value (10 ^ drop) ∧ roundSmall value.value (10 ^ drop) < 2 ^ 127 := by
  have least := value.least
  have most := value.most
  have ten : (10 : Int) ≤ 10 ^ drop := by
    calc
      (10 : Int) = 10 ^ 1 := (pow_one 10).symm
      _ ≤ 10 ^ drop := pow_le_pow_right₀ (by decide) (by omega)
  have low : -(2 ^ 127) ≤ value.value / 10 ^ drop := by
    rw [Int.le_ediv_iff_mul_le (by omega)]
    nlinarith
  have high : value.value / 10 ^ drop < 2 ^ 126 := by
    rw [Int.ediv_lt_iff_lt_mul (by omega)]
    nlinarith
  unfold roundSmall
  dsimp only
  split <;> constructor <;> omega

theorem toNat_sub {low high : UInt32} (within : low ≤ high) : (high - low).toNat + low.toNat = high.toNat := by
  have less : low.toNat ≤ high.toNat := UInt32.le_iff_toNat_le.mp within
  rw [UInt32.toNat_sub_of_le high low within]
  omega

theorem drop_ne_zero {scale places : UInt32} (more : ¬ scale ≤ places) : (scale - places).toNat ≠ 0 := by
  have less : places.toNat < scale.toNat := by
    rw [UInt32.le_iff_toNat_le] at more
    omega
  have whole := toNat_sub (UInt32.le_iff_toNat_le.mpr less.le)
  omega

/-- Rounded once, half to even, to `scale` places. -/
def roundHalfEven (dec : Dec) (scale : UInt32) : Dec :=
  if within : dec.scale ≤ scale then ⟨dec.integer.mulPow10 (scale - dec.scale).toNat, scale⟩
  else
    let drop := (dec.scale - scale).toNat
    let exactly : Dec :=
      ⟨Num.fromBig (roundQuotient dec.integer.toBig (Big.pow10 drop) (Big.pow10_positive drop)), scale⟩
    match dec.integer with
    | .small value =>
      if drop ≤ 38 then
        have held := @roundSmall_held value drop (drop_ne_zero within)
        ⟨.small ⟨roundSmall value.value (10 ^ drop), held.1, held.2⟩, scale⟩
      else exactly
    | _ => exactly

/-- The decimal's stated text: its sign, its integer digits ("0" if none) and exactly `scale` places; never minus
zero. No format is wider than `maxWidth`: past it the format panics. -/
def text (dec : Dec) : Option String :=
  let digits := dec.integer.magnitudeDigits
  let places := dec.scale.toNat
  let body : Option (List Char) :=
    if places = 0 then some digits
    else if maxWidth < places + 1 then none
    else
      let padded := List.leftpad (places + 1) '0' digits
      some (padded.take (padded.length - places) ++ '.' :: padded.drop (padded.length - places))
  body.map fun body => String.ofList (if dec.signum < 0 then '-' :: body else body)

def toRatio (dec : Dec) : Ratio := ⟨dec.integer.toBig, Big.pow10 dec.scale.toNat, Big.pow10_positive _⟩

def cmp (dec other : Dec) : Ordering :=
  let (a, b, _) := dec.aligned other
  a.cmpNum b

/-- Equality is of values, whatever the scales. -/
def eq (dec other : Dec) : Bool := dec.cmp other == .eq

end Dec

namespace Ratio

/-- Over a denominator of either sign, not zero. -/
def new (numerator denominator : Big) : Option Ratio :=
  if nonzero : denominator.isZero then none
  else if negative : denominator.negative then
    some ⟨numerator.negated, denominator.negated, by
      have below := denominator.negative_iff.mp negative
      rw [Big.positive_iff, Big.value_negated]
      omega⟩
  else some ⟨numerator, denominator, by simpa using negative, by simpa using nonzero⟩

theorem mul_positive {a b : Big} (positiveA : a.negative = false ∧ a.isZero = false)
    (positiveB : b.negative = false ∧ b.isZero = false) : (a.mul b).negative = false ∧ (a.mul b).isZero = false := by
  rw [Big.positive_iff] at positiveA positiveB ⊢
  rw [Big.value_mul]
  exact Int.mul_pos positiveA positiveB

def add (ratio other : Ratio) : Ratio :=
  if ratio.denominator = other.denominator then
    ⟨ratio.numerator.add other.numerator, ratio.denominator, ratio.positive⟩
  else
    ⟨(ratio.numerator.mul other.denominator).add (other.numerator.mul ratio.denominator),
      ratio.denominator.mul other.denominator, mul_positive ratio.positive other.positive⟩

def negated (ratio : Ratio) : Ratio := ⟨ratio.numerator.negated, ratio.denominator, ratio.positive⟩

def sub (ratio other : Ratio) : Ratio := ratio.add other.negated

def mul (ratio other : Ratio) : Ratio :=
  ⟨ratio.numerator.mul other.numerator, ratio.denominator.mul other.denominator, mul_positive ratio.positive other.positive⟩

def div (ratio other : Ratio) : Option Ratio :=
  new (ratio.numerator.mul other.denominator) (ratio.denominator.mul other.numerator)

def signum (ratio : Ratio) : Int := ratio.numerator.signum

/-- Rounded once, half to even, to `scale` places. -/
def roundHalfEven (ratio : Ratio) (scale : UInt32) : Dec :=
  ⟨Num.fromBig (roundQuotient (ratio.numerator.mul (Big.pow10 scale.toNat)) ratio.denominator ratio.positive), scale⟩

def cmp (ratio other : Ratio) : Ordering :=
  (ratio.numerator.mul other.denominator).cmp (other.numerator.mul ratio.denominator)

def eq (ratio other : Ratio) : Bool := ratio.cmp other == .eq

end Ratio

/-- What a quotient rounds to is its exact value's nearest whole number, half to even. -/
theorem value_roundQuotient {numerator denominator : Big} (positive : denominator.negative = false ∧ denominator.isZero = false) :
    (roundQuotient numerator denominator positive).value = halfEven ((numerator.value : ℚ) / denominator.value) := by
  obtain ⟨quotient, remainder⟩ := numerator.divmodFloor_spec positive
  rw [halfEven_div (Big.divisor_positive positive)]
  unfold roundQuotient
  dsimp only
  rw [Big.cmp_eq, Big.value_mulSmall, remainder]
  have odd := Big.isOdd_iff (numerator.divmodFloor denominator positive).1
  rw [quotient] at odd
  split
  · next more =>
    have more := compare_gt_iff_gt.mp more
    rw [if_pos (Or.inl (by push_cast at more; omega)), Big.value_add, quotient, Big.value_fromU128, Nat.cast_one]
  · next tie =>
    have tie := compare_eq_iff_eq.mp tie
    push_cast at tie
    split
    · next up =>
      have up := odd.mp up
      rw [if_pos (Or.inr ⟨by omega, by omega⟩), Big.value_add, quotient, Big.value_fromU128, Nat.cast_one]
    · next down =>
      have down : ¬ numerator.value / denominator.value % 2 = 1 := fun up => down (odd.mpr up)
      rw [if_neg (by omega), quotient]
  · next less =>
    have less := compare_lt_iff_lt.mp less
    push_cast at less
    rw [if_neg (by omega), quotient]

namespace Dec

/-- The rational it is. -/
def value (dec : Dec) : ℚ := dec.integer.value / 10 ^ dec.scale.toNat

theorem ten_pow_ne (n : Nat) : (10 : ℚ) ^ n ≠ 0 := pow_ne_zero n (by norm_num)

theorem aligned_spec (dec other : Dec) :
    (dec.aligned other).1.value = dec.value * 10 ^ (dec.aligned other).2.2.toNat ∧
      (dec.aligned other).2.1.value = other.value * 10 ^ (dec.aligned other).2.2.toNat := by
  have same (dec : Dec) : (dec.integer.value : ℚ) = dec.value * 10 ^ dec.scale.toNat := by
    rw [value, div_mul_cancel₀ _ (ten_pow_ne _)]
  have shifted (dec : Dec) {scale : UInt32} (within : dec.scale ≤ scale) :
      ((dec.integer.mulPow10 (scale - dec.scale).toNat).value : ℚ) = dec.value * 10 ^ scale.toNat := by
    rw [Num.value_mulPow10]
    push_cast
    rw [same dec, mul_assoc, ← pow_add, Nat.add_comm, toNat_sub within]
  unfold aligned
  split
  · next equal =>
    have equal := compare_eq_iff_eq.mp equal
    exact ⟨same dec, by rw [same other, equal]⟩
  · next less => exact ⟨shifted dec (UInt32.le_iff_toNat_le.mpr (compare_lt_iff_lt.mp less).le), same other⟩
  · next more => exact ⟨same dec, shifted other (UInt32.le_iff_toNat_le.mpr (compare_gt_iff_gt.mp more).le)⟩

theorem value_add (dec other : Dec) : (dec.add other).value = dec.value + other.value := by
  unfold add
  split
  · next same =>
    simp only [value, Num.value_add, same]
    push_cast
    ring
  · obtain ⟨left, right⟩ := aligned_spec dec other
    dsimp only
    rw [value, Num.value_add]
    push_cast
    rw [left, right, ← add_mul, mul_div_assoc, div_self (ten_pow_ne _), mul_one]

@[simp] theorem value_negated (dec : Dec) : dec.negated.value = -dec.value := by
  simp only [value, negated, Num.value_negated]
  push_cast
  ring

theorem value_sub (dec other : Dec) : (dec.sub other).value = dec.value - other.value := by
  rw [sub, value_add, value_negated]
  ring

theorem value_eq_zero_iff (dec : Dec) : dec.value = 0 ↔ dec.integer.value = 0 := by
  rw [value, div_eq_zero_iff, or_iff_left (ten_pow_ne _)]
  exact_mod_cast Iff.rfl

/-- A scale cut to 32 bits is the scale where it fits them; only zero is the same at another. -/
theorem scaled_iff (integer : Int) (scale : Nat) :
    (integer : ℚ) / 10 ^ (scale % 2 ^ 32) = integer / 10 ^ scale ↔ scale < 2 ^ 32 ∨ integer = 0 := by
  constructor
  · intro same
    by_contra other
    rw [not_or, not_lt] at other
    obtain ⟨more, some⟩ := other
    have someQ : (integer : ℚ) ≠ 0 := by exact_mod_cast some
    have powers := mul_left_cancel₀ someQ ((div_eq_div_iff (ten_pow_ne _) (ten_pow_ne _)).mp same)
    have powers : (10 : Nat) ^ scale = 10 ^ (scale % 2 ^ 32) := by exact_mod_cast powers
    have scales := Nat.pow_right_injective (show 2 ≤ 10 by decide) powers
    have below := Nat.mod_lt scale (show 0 < 2 ^ 32 by decide)
    omega
  · rintro (within | none)
    · rw [Nat.mod_eq_of_lt within]
    · rw [none, Int.cast_zero, zero_div, zero_div]

/-- A product is exact where its scale is the sum of the two, or where it is zero. -/
theorem value_mul_iff (dec other : Dec) :
    (dec.mul other).value = dec.value * other.value ↔
      dec.scale.toNat + other.scale.toNat < 2 ^ 32 ∨ dec.value = 0 ∨ other.value = 0 := by
  have product : dec.value * other.value =
      ((dec.integer.value * other.integer.value : Int) : ℚ) / 10 ^ (dec.scale.toNat + other.scale.toNat) := by
    simp only [value]
    push_cast
    rw [div_mul_div_comm, pow_add]
  have held : (dec.mul other).value =
      ((dec.integer.value * other.integer.value : Int) : ℚ) / 10 ^ ((dec.scale.toNat + other.scale.toNat) % 2 ^ 32) := by
    rw [value, mul, Num.value_mul, UInt32.toNat_add]
  rw [product, held, value_eq_zero_iff, value_eq_zero_iff, ← Int.mul_eq_zero]
  exact scaled_iff _ _

theorem cmp_eq (dec other : Dec) : dec.cmp other = compare dec.value other.value := by
  obtain ⟨left, right⟩ := aligned_spec dec other
  have positive : (0 : ℚ) < 10 ^ (dec.aligned other).2.2.toNat := by positivity
  exact (Num.cmpNum_eq _ _).trans (compare_scaled positive left right)

theorem roundSmall_eq (value : Int) (drop : Nat) : roundSmall value (10 ^ drop) = halfEven ((value : ℚ) / 10 ^ drop) := by
  have rounded := @halfEven_div value (10 ^ drop) (Int.pow_pos (by decide))
  push_cast at rounded
  exact rounded.symm

/-- Rounding is to the nearest at the scale, an exact half to the even one. -/
theorem value_roundHalfEven (dec : Dec) (scale : UInt32) :
    (dec.roundHalfEven scale).value = (halfEven (dec.value * 10 ^ scale.toNat) : ℚ) / 10 ^ scale.toNat := by
  have whole (n : ℤ) : halfEven n = n := by
    have apart : |(n : ℚ) - n| = 0 := by rw [sub_self, abs_zero]
    refine (eq_halfEven ?_ (fun tie => ?_)).symm
    · rw [apart]
      norm_num
    · rw [apart] at tie
      norm_num at tie
  unfold roundHalfEven
  split
  · next within =>
    have kept : dec.value * 10 ^ scale.toNat = ((dec.integer.value * 10 ^ (scale - dec.scale).toNat : Int) : ℚ) := by
      rw [value, ← toNat_sub within, pow_add, mul_comm (10 ^ _) (10 ^ dec.scale.toNat), ← mul_assoc,
        div_mul_cancel₀ _ (ten_pow_ne _)]
      push_cast
      rfl
    rw [kept, whole, value, Num.value_mulPow10]
  · next more =>
    have within : scale ≤ dec.scale := by
      rw [UInt32.le_iff_toNat_le] at more ⊢
      omega
    have dropped : dec.value * 10 ^ scale.toNat = (dec.integer.value : ℚ) / 10 ^ (dec.scale - scale).toNat := by
      rw [value, ← toNat_sub within, pow_add, div_mul_eq_mul_div, mul_div_mul_right _ _ (ten_pow_ne _)]
    have exactly : ((roundQuotient dec.integer.toBig (Big.pow10 (dec.scale - scale).toNat) (Big.pow10_positive _)).value : ℚ) =
        halfEven ((dec.integer.value : ℚ) / 10 ^ (dec.scale - scale).toNat) := by
      rw [value_roundQuotient, Num.value_toBig, Big.value_pow10]
      push_cast
      rfl
    rw [dropped]
    dsimp only
    split
    · next small held =>
      split
      · rw [value]
        dsimp only [Num.value]
        rw [roundSmall_eq, held]
      · rw [value, Num.value_fromBig, exactly]
    · rw [value, Num.value_fromBig, exactly]

end Dec

namespace Ratio

/-- The rational it is. -/
def value (ratio : Ratio) : ℚ := ratio.numerator.value / ratio.denominator.value

theorem denominator_pos (ratio : Ratio) : (0 : ℚ) < ratio.denominator.value := by
  exact_mod_cast Big.divisor_positive ratio.positive

theorem denominator_ne (ratio : Ratio) : (ratio.denominator.value : ℚ) ≠ 0 := ratio.denominator_pos.ne'

theorem value_new (numerator denominator : Big) :
    (new numerator denominator).map value =
      if denominator.value = 0 then none else some ((numerator.value : ℚ) / denominator.value) := by
  unfold new
  split
  · next none => rw [if_pos ((Big.isZero_iff _).mp none), Option.map_none]
  · next some_ =>
    rw [if_neg (fun none => some_ ((Big.isZero_iff _).mpr none))]
    split
    · simp only [Option.map_some, value, Big.value_negated]
      push_cast
      rw [neg_div_neg_eq]
    · rfl

theorem value_add (ratio other : Ratio) : (ratio.add other).value = ratio.value + other.value := by
  have left := ratio.denominator_ne
  have right := other.denominator_ne
  unfold add
  split
  · next same =>
    simp only [value, Big.value_add, same]
    push_cast
    rw [add_div]
  · simp only [value, Big.value_add, Big.value_mul]
    push_cast
    rw [div_add_div _ _ left right]
    ring

@[simp] theorem value_negated (ratio : Ratio) : ratio.negated.value = -ratio.value := by
  simp only [value, negated, Big.value_negated]
  push_cast
  ring

theorem value_sub (ratio other : Ratio) : (ratio.sub other).value = ratio.value - other.value := by
  rw [sub, value_add, value_negated]
  ring

theorem value_mul (ratio other : Ratio) : (ratio.mul other).value = ratio.value * other.value := by
  simp only [value, mul, Big.value_mul]
  push_cast
  rw [div_mul_div_comm]

theorem value_eq_zero_iff (ratio : Ratio) : ratio.value = 0 ↔ ratio.numerator.value = 0 := by
  rw [value, div_eq_zero_iff, or_iff_left ratio.denominator_ne]
  exact_mod_cast Iff.rfl

theorem value_div (ratio other : Ratio) :
    (ratio.div other).map value = if other.value = 0 then none else some (ratio.value / other.value) := by
  have positive := ratio.denominator_ne
  have zero : (ratio.denominator.mul other.numerator).value = 0 ↔ other.value = 0 := by
    rw [value_eq_zero_iff, Big.value_mul, Int.mul_eq_zero, or_iff_right]
    exact_mod_cast positive
  by_cases none : other.value = 0
  · rw [if_pos none, div, value_new, if_pos (zero.mpr none)]
  · rw [if_neg none, div, value_new, if_neg (mt zero.mp none), value, value, Big.value_mul, Big.value_mul]
    push_cast
    rw [div_div_div_eq]

theorem cmp_eq (ratio other : Ratio) : ratio.cmp other = compare ratio.value other.value := by
  have left := ratio.denominator_ne
  have right := other.denominator_ne
  rw [cmp, Big.cmp_eq]
  refine compare_scaled (mul_pos ratio.denominator_pos other.denominator_pos) ?_ ?_
  · rw [Big.value_mul, value, ← mul_assoc, div_mul_cancel₀ _ left]
    push_cast
    rfl
  · rw [Big.value_mul, value, mul_comm (ratio.denominator.value : ℚ), ← mul_assoc, div_mul_cancel₀ _ right]
    push_cast
    rfl

theorem value_roundHalfEven (ratio : Ratio) (scale : UInt32) :
    (ratio.roundHalfEven scale).value = (halfEven (ratio.value * 10 ^ scale.toNat) : ℚ) / 10 ^ scale.toNat := by
  rw [roundHalfEven, Dec.value, Num.value_fromBig, value_roundQuotient, Big.value_mul, Big.value_pow10, value]
  push_cast
  rw [div_mul_eq_mul_div]

end Ratio

theorem Dec.value_toRatio (dec : Dec) : dec.toRatio.value = dec.value := by
  rw [Ratio.value, toRatio, Num.value_toBig, Big.value_pow10, value]
  push_cast
  rfl

end MeridianCore.AnalyticsEngine
