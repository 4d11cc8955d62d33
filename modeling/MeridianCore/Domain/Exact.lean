import MeridianCore.Ordered.Map

namespace MeridianCore

/-- Why a value cannot be an `Exact`; the caller names the field. -/
inductive OutOfRange where
  | scale (stated : Nat)
  | digits
  | notDecimal (text : String)
  deriving DecidableEq

/-- A sum or a product as an `i128` holds it, refused where it does not. -/
def i128 (value : Int) : Except OutOfRange Int :=
  if -170141183460469231731687303715884105728 ≤ value ∧ value ≤ 170141183460469231731687303715884105727 then
    .ok value
  else .error .digits

def OutOfRange.words : OutOfRange → String
  | .scale stated => s!"has {stated} decimal places, and at most 18 cross the wire"
  | .digits => "has more than 38 digits"
  | .notDecimal text => "\"" ++ text ++ "\" is not a decimal"

/-- The wire's number: the two halves of its integer put back together, and its scale. -/
structure Decimal where
  integer : Int
  scale : Nat
  deriving DecidableEq

/-- The most decimal places a value carries. -/
def places : Nat := 18

/-- The integer's magnitude stays below this. -/
def limit : Nat := 10 ^ 38

/-- An exact decimal: `integer` times ten to the minus `scale`, inside what the wire carries. -/
structure Exact where
  integer : Int
  scale : Nat
  scale_le : scale ≤ places
  digits : integer.natAbs < limit
  deriving DecidableEq

namespace Exact

def zero : Exact := ⟨0, 0, by decide, by decide⟩

def one : Exact := ⟨1, 0, by decide, by decide⟩

instance : Inhabited Exact := ⟨zero⟩

/-- Refused outside the range rather than clamped or rounded. -/
def new (integer : Int) (scale : Nat) : Except OutOfRange Exact :=
  if scaleFits : scale ≤ places then
    if digitsFit : integer.natAbs < limit then .ok ⟨integer, scale, scaleFits, digitsFit⟩
    else .error .digits
  else .error (.scale scale)

def fromWire (decimal : Decimal) : Except OutOfRange Exact := new decimal.integer decimal.scale

def toWire (value : Exact) : Decimal := ⟨value.integer, value.scale⟩

def isZero (value : Exact) : Bool := value.integer == 0

def isNegative (value : Exact) : Bool := decide (value.integer < 0)

/-- The same number with its sign turned. -/
def negated (value : Exact) : Exact :=
  { value with integer := -value.integer, digits := by simpa using value.digits }

/-- The integer of `value` stated at the larger `scale`. -/
def widen (scale : Nat) (value : Exact) : Except OutOfRange Int :=
  i128 (value.integer * (10 ^ (scale - value.scale) : Nat))

/-- The exact sum, at the larger of the two scales; refused, never rounded. -/
def checkedAdd (a b : Exact) : Except OutOfRange Exact := do
  let scale := max a.scale b.scale
  let x ← widen scale a
  let y ← widen scale b
  let sum ← i128 (x + y)
  new sum scale

/-- Whole units and the fraction, each a magnitude, the fraction at eighteen places. -/
def parts (value : Exact) : Nat × Nat :=
  let magnitude := value.integer.natAbs
  let unit := 10 ^ value.scale
  (magnitude / unit, magnitude % unit * 10 ^ (places - value.scale))

/-- The order of the values: equal is numeric, whatever the scales. -/
def cmp (a b : Exact) : Ordering :=
  (compare a.integer.sign b.integer.sign).then
    (let magnitudes := (compare a.parts.1 b.parts.1).then (compare a.parts.2 b.parts.2)
     if a.integer < 0 then magnitudes.swap else magnitudes)

/-- Numeric equality. -/
def equals (a b : Exact) : Bool := cmp a b == .eq

def less (a b : Exact) : Bool := cmp a b == .lt

def atLeast (a b : Exact) : Bool := cmp a b != .lt

/-- As it was stated: its digits, the point `scale` places from the right. -/
def text (value : Exact) : String :=
  let sign := if value.integer < 0 then "-" else ""
  let digits := toString value.integer.natAbs
  if value.scale = 0 then sign ++ digits
  else
    let padded := String.ofList (List.replicate (value.scale + 1 - digits.length) '0') ++ digits
    let whole := padded.length - value.scale
    sign ++ (padded.take whole).toString ++ "." ++ (padded.drop whole).toString

/-- A plain decimal, as a person writes a number; its scale is the number of places written. -/
def parse (text : String) : Except OutOfRange Exact :=
  let (negative, unsigned) := match text.toList with
    | '-' :: rest => (true, rest)
    | rest => (false, rest)
  let whole := unsigned.takeWhile (· ≠ '.')
  let fraction := (unsigned.dropWhile (· ≠ '.')).drop 1
  if whole = [] ∨ ¬ whole.all Char.isDigit ∨ ¬ fraction.all Char.isDigit ∨ ('.' ∈ unsigned ∧ fraction = []) then
    .error (.notDecimal text)
  else if places < fraction.length then .error (.scale fraction.length)
  else
    let significant := (whole ++ fraction).dropWhile (· = '0')
    if 38 < significant.length then .error .digits
    else
      let magnitude := significant.foldl (fun held digit => held * 10 + (digit.toNat - '0'.toNat)) 0
      new (if negative then -(magnitude : Int) else magnitude) fraction.length

instance : ToString Exact := ⟨text⟩

/-- The value counted in the least unit the wire carries, where sums and comparisons are those of
the integers. -/
def units (value : Exact) : Int := value.integer * (10 ^ (places - value.scale) : Nat)

@[simp] theorem units_zero : units zero = 0 := by simp [units, zero]

@[simp] theorem units_negated (value : Exact) : value.negated.units = -value.units := by
  simp [units, negated]

theorem place_pos (n : Nat) : 0 < ((10 ^ n : Nat) : Int) := by positivity

@[simp] theorem isZero_iff (value : Exact) : value.isZero = true ↔ value.units = 0 := by
  simp [isZero, units]

@[simp] theorem isNegative_iff (value : Exact) : value.isNegative = true ↔ value.units < 0 := by
  have positive := place_pos (places - value.scale)
  simp only [isNegative, decide_eq_true_eq, units]
  constructor
  · intro below; exact Int.mul_neg_of_neg_of_pos below positive
  · intro below; exact neg_of_mul_neg_left below positive.le

theorem new_ok {integer : Int} {scale : Nat} {value : Exact} (made : new integer scale = .ok value) :
    value.integer = integer ∧ value.scale = scale := by
  unfold new at made
  split at made
  · split at made
    · cases made; exact ⟨rfl, rfl⟩
    · cases made
  · cases made

@[simp] theorem fromWire_toWire (value : Exact) : fromWire value.toWire = .ok value := by
  obtain ⟨integer, scale, scaleFits, digitsFit⟩ := value
  simp [fromWire, toWire, new, scaleFits, digitsFit]

theorem i128_ok {value held : Int} (done : i128 value = .ok held) : held = value := by
  unfold i128 at done
  split at done
  · exact (Except.ok.inj done).symm
  · cases done

/-- Everything the wire carries an `i128` holds. -/
theorem i128_of_digits {value : Int} (digits : value.natAbs < limit) : i128 value = .ok value := by
  have bound : value.natAbs < 100000000000000000000000000000000000000 := digits
  unfold i128
  rw [if_pos]
  omega

theorem widen_units {scale : Nat} {value : Exact} {widened : Int} (done : widen scale value = .ok widened)
    (low : value.scale ≤ scale) (high : scale ≤ places) :
    widened * (10 ^ (places - scale) : Nat) = value.units := by
  have split : (10 : Nat) ^ (places - value.scale) = 10 ^ (scale - value.scale) * 10 ^ (places - scale) := by
    rw [← pow_add]; congr 1; omega
  rw [i128_ok done, units, split, Nat.cast_mul, mul_assoc]

theorem checkedAdd_ok {a b sum : Exact} (added : checkedAdd a b = .ok sum) :
    sum.units = a.units + b.units ∧ sum.scale = max a.scale b.scale := by
  unfold checkedAdd at added
  cases wideA : widen (max a.scale b.scale) a with
  | error out => simp [wideA, bind, Except.bind] at added
  | ok x =>
    cases wideB : widen (max a.scale b.scale) b with
    | error out => simp [wideA, wideB, bind, Except.bind] at added
    | ok y =>
      cases summed : i128 (x + y) with
      | error out => simp [wideA, wideB, summed, bind, Except.bind] at added
      | ok total =>
        simp only [wideA, wideB, summed, bind, Except.bind] at added
        obtain ⟨integer, scale⟩ := new_ok added
        have bounded : max a.scale b.scale ≤ places := max_le a.scale_le b.scale_le
        refine ⟨?_, scale⟩
        rw [← widen_units wideA (le_max_left _ _) bounded, ← widen_units wideB (le_max_right _ _) bounded,
          ← add_mul, units, integer, scale, i128_ok summed]

/-- Adding nothing leaves the value as it was stated. -/
theorem checkedAdd_zero (a : Exact) : checkedAdd a zero = .ok a := by
  obtain ⟨integer, scale, scaleFits, digitsFit⟩ := a
  have keep : max scale zero.scale = scale := Nat.max_eq_left (Nat.zero_le scale)
  have wideA : widen scale ⟨integer, scale, scaleFits, digitsFit⟩ = .ok integer := by
    rw [widen, Nat.sub_self, Nat.pow_zero, Nat.cast_one, mul_one, i128_of_digits digitsFit]
  have wideB : widen scale zero = .ok 0 := by
    rw [widen, show zero.integer = 0 from rfl, Int.zero_mul]
    rfl
  simp only [checkedAdd, keep, wideA, wideB, bind, Except.bind, Int.add_zero, i128_of_digits digitsFit]
  rw [new, dif_pos scaleFits, dif_pos digitsFit]

theorem parts_units (value : Exact) :
    value.parts.1 * 10 ^ places + value.parts.2 = value.units.natAbs := by
  obtain ⟨integer, scale, scaleFits, digitsFit⟩ := value
  have split : (10 : Nat) ^ places = 10 ^ scale * 10 ^ (places - scale) := by
    rw [← pow_add]; congr 1; omega
  have divided := Nat.div_add_mod integer.natAbs (10 ^ scale)
  have magnitude : (integer * (10 ^ (places - scale) : Nat) : Int).natAbs =
      integer.natAbs * 10 ^ (places - scale) := by
    rw [Int.natAbs_mul, Int.natAbs_natCast]
  simp only [parts, units, magnitude]
  rw [split, ← mul_assoc, ← add_mul, mul_comm (integer.natAbs / _)]
  rw [divided]

theorem parts_fraction_lt (value : Exact) : value.parts.2 < 10 ^ places := by
  obtain ⟨integer, scale, scaleFits, digitsFit⟩ := value
  have split : (10 : Nat) ^ places = 10 ^ scale * 10 ^ (places - scale) := by
    rw [← pow_add]; congr 1; omega
  simp only [parts]
  rw [split]
  exact (Nat.mul_lt_mul_right (by positivity)).mpr (Nat.mod_lt _ (by positivity))

theorem compare_parts (a b : Exact) :
    (compare a.parts.1 b.parts.1).then (compare a.parts.2 b.parts.2) =
      compare a.units.natAbs b.units.natAbs := by
  have boundA := parts_fraction_lt a
  have boundB := parts_fraction_lt b
  rw [← parts_units a, ← parts_units b]
  generalize a.parts.1 = x at *
  generalize a.parts.2 = u at *
  generalize b.parts.1 = y at *
  generalize b.parts.2 = v at *
  rcases lt_trichotomy x y with below | same | above
  · have apart : x * 10 ^ places + u < y * 10 ^ places + v := by nlinarith
    rw [compare_lt_iff_lt.mpr below, compare_lt_iff_lt.mpr apart]
    rfl
  · subst same
    rw [compare_eq_iff_eq.mpr rfl]
    rcases lt_trichotomy u v with below | rfl | above
    · rw [compare_lt_iff_lt.mpr below, compare_lt_iff_lt.mpr (Nat.add_lt_add_left below _)]
      rfl
    · simp
    · rw [compare_gt_iff_gt.mpr above, compare_gt_iff_gt.mpr (Nat.add_lt_add_left above _)]
      rfl
  · have apart : y * 10 ^ places + v < x * 10 ^ places + u := by nlinarith
    rw [compare_gt_iff_gt.mpr above, compare_gt_iff_gt.mpr apart]
    rfl

theorem sign_units (value : Exact) : value.units.sign = value.integer.sign := by
  rw [units, Int.sign_mul, Int.sign_eq_one_of_pos (place_pos (places - value.scale)), mul_one]

/-- The source's comparison is the comparison of the values. -/
theorem cmp_eq_compare (a b : Exact) : cmp a b = compare a.units b.units := by
  have negative : (a.integer < 0) ↔ a.units < 0 := by
    rw [← isNegative_iff]; simp [isNegative]
  unfold cmp
  rw [compare_parts, ← sign_units a, ← sign_units b]
  simp only [negative]
  generalize a.units = x
  generalize b.units = y
  rcases lt_trichotomy x 0 with hx | rfl | hx <;> rcases lt_trichotomy y 0 with hy | rfl | hy
  · rw [Int.sign_eq_neg_one_of_neg hx, Int.sign_eq_neg_one_of_neg hy, if_pos hx]
    rcases lt_trichotomy x y with order | rfl | order
    · rw [compare_gt_iff_gt.mpr (show y.natAbs < x.natAbs by omega), compare_lt_iff_lt.mpr order]; rfl
    · simp
    · rw [compare_lt_iff_lt.mpr (show x.natAbs < y.natAbs by omega), compare_gt_iff_gt.mpr order]; rfl
  · rw [Int.sign_eq_neg_one_of_neg hx, Int.sign_zero, compare_lt_iff_lt.mpr hx]; rfl
  · rw [Int.sign_eq_neg_one_of_neg hx, Int.sign_eq_one_of_pos hy,
      compare_lt_iff_lt.mpr (show x < y by omega)]; rfl
  · rw [Int.sign_eq_neg_one_of_neg hy, Int.sign_zero, compare_gt_iff_gt.mpr hy]; rfl
  · rfl
  · rw [Int.sign_eq_one_of_pos hy, Int.sign_zero, compare_lt_iff_lt.mpr hy]; rfl
  · rw [Int.sign_eq_one_of_pos hx, Int.sign_eq_neg_one_of_neg hy,
      compare_gt_iff_gt.mpr (show y < x by omega)]; rfl
  · rw [Int.sign_eq_one_of_pos hx, Int.sign_zero, compare_gt_iff_gt.mpr hx]; rfl
  · rw [Int.sign_eq_one_of_pos hx, Int.sign_eq_one_of_pos hy, if_neg (by omega)]
    rcases lt_trichotomy x y with order | rfl | order
    · rw [compare_lt_iff_lt.mpr (show x.natAbs < y.natAbs by omega), compare_lt_iff_lt.mpr order]; rfl
    · simp
    · rw [compare_gt_iff_gt.mpr (show y.natAbs < x.natAbs by omega), compare_gt_iff_gt.mpr order]; rfl

@[simp] theorem equals_iff (a b : Exact) : a.equals b = true ↔ a.units = b.units := by
  rw [equals, cmp_eq_compare, beq_iff_eq, compare_eq_iff_eq]

@[simp] theorem less_iff (a b : Exact) : a.less b = true ↔ a.units < b.units := by
  rw [less, cmp_eq_compare, beq_iff_eq, compare_lt_iff_lt]

@[simp] theorem atLeast_iff (a b : Exact) : a.atLeast b = true ↔ b.units ≤ a.units := by
  rw [atLeast, cmp_eq_compare, bne_iff_ne, ne_eq, compare_lt_iff_lt, not_lt]

/-- The number a value states. -/
def value (held : Exact) : ℚ := held.integer / 10 ^ held.scale

theorem value_units (held : Exact) : held.value * 10 ^ places = held.units := by
  have split : (10 : ℚ) ^ places = 10 ^ held.scale * 10 ^ (places - held.scale) := by
    rw [← pow_add, Nat.add_sub_cancel' held.scale_le]
  have positive : (10 : ℚ) ^ held.scale ≠ 0 := by positivity
  rw [value, units, split]
  push_cast
  field_simp

theorem value_of_units (held : Exact) : (held.units : ℚ) / 10 ^ places = held.value := by
  rw [← value_units, mul_div_cancel_right₀ _ (by positivity)]

theorem units_lt_iff (a b : Exact) : a.units < b.units ↔ a.value < b.value := by
  have positive : (0 : ℚ) < 10 ^ places := by positivity
  rw [← @Int.cast_lt ℚ, ← value_units, ← value_units, mul_lt_mul_iff_left₀ positive]

end Exact

end MeridianCore

namespace MeridianCore

/-- A quotient to the nearest whole number, exactly half to the even one. -/
def roundHalfEven (numerator denominator : Nat) : Nat :=
  let whole := numerator / denominator
  let rest := numerator % denominator
  if denominator < 2 * rest ∨ (2 * rest = denominator ∧ whole % 2 = 1) then whole + 1 else whole

/-- A magnitude as a double holds it: 53 significant bits, the nearest, ties to the even one. -/
def nearestDouble (value : ℚ) : ℚ :=
  if value ≤ 0 then 0
  else
    let numerator := value.num.natAbs
    let guess : Int := (numerator.log2 : Int) - (value.den.log2 : Int) - 53
    let exponent := if 2 ^ 53 ≤ value / 2 ^ guess then guess + 1 else guess
    let significand := value / 2 ^ exponent
    (roundHalfEven significand.num.natAbs significand.den : ℚ) * 2 ^ exponent

namespace Exact

def magnitude (value : Exact) : ℚ := (value.integer.natAbs : ℚ) / 10 ^ value.scale

/-- The magnitude of `a / b` computed in doubles and printed to `digits` places, read back. -/
def quotientText (a b : Exact) (digits : Nat) : Except OutOfRange Exact :=
  let quotient := nearestDouble (nearestDouble a.magnitude / nearestDouble b.magnitude)
  let printed := roundHalfEven (quotient.num.natAbs * 10 ^ digits) quotient.den
  let rec trimmed : Nat → Nat → Except OutOfRange Exact
    | printed, 0 => new printed 0
    | printed, scale + 1 => if printed % 10 = 0 then trimmed (printed / 10) scale else new printed (scale + 1)
  trimmed printed digits

example : quotientText ⟨250, 2, by decide, by decide⟩ ⟨25, 3, by decide, by decide⟩ 6 =
    new 100 0 := by decide +kernel

end Exact

end MeridianCore

/-! Where an exact sum is refused. The two operands are widened to the larger scale before they are
added, each inside an `i128`, so the edge at which a widened operand no longer fits is not the edge
at which the sum has more digits than the wire carries. -/

namespace MeridianCore.Exact

/-- The integer of `value` at a scale no smaller than its own. -/
def integerAt (scale : Nat) (value : Exact) : Int :=
  value.integer * (10 ^ (scale - value.scale) : Nat)

def sumScale (a b : Exact) : Nat := max a.scale b.scale

/-- The mathematical sum's integer at the larger of the two scales. -/
def sumInteger (a b : Exact) : Int := integerAt (sumScale a b) a + integerAt (sumScale a b) b

/-- Inside the range of an `i128`. -/
def Wide (value : Int) : Prop := -2 ^ 127 ≤ value ∧ value < 2 ^ 127

/-- The sum is carried whenever its digits fit, refused otherwise, and the same whichever operand
is given first. -/
structure SumsExactly (a b : Exact) : Prop where
  carried : (sumInteger a b).natAbs < limit → ∃ sum, checkedAdd a b = .ok sum ∧
    sum.integer = sumInteger a b ∧ sum.scale = sumScale a b ∧ sum.units = a.units + b.units
  refused : ¬ (sumInteger a b).natAbs < limit → checkedAdd a b = .error .digits
  commutes : checkedAdd a b = checkedAdd b a

theorem sumScale_comm (a b : Exact) : sumScale a b = sumScale b a := Nat.max_comm _ _

theorem sumInteger_comm (a b : Exact) : sumInteger a b = sumInteger b a := by
  unfold sumInteger
  rw [sumScale_comm b a, Int.add_comm]

theorem sumScale_le (a b : Exact) : sumScale a b ≤ places := max_le a.scale_le b.scale_le

theorem i128_of_wide {value : Int} (wide : Wide value) : i128 value = .ok value := by
  unfold Wide at wide
  unfold i128
  rw [if_pos]
  omega

theorem i128_of_not_wide {value : Int} (long : ¬ Wide value) : i128 value = .error .digits := by
  unfold Wide at long
  unfold i128
  rw [if_neg]
  omega

theorem wide_of_digits {value : Int} (digits : value.natAbs < limit) : Wide value := by
  have bound : value.natAbs < 100000000000000000000000000000000000000 := digits
  unfold Wide
  omega

theorem new_of_digits {integer : Int} {scale : Nat} (low : scale ≤ places) (digits : integer.natAbs < limit) :
    new integer scale = .ok ⟨integer, scale, low, digits⟩ := by
  unfold new
  rw [dif_pos low, dif_pos digits]

theorem new_of_not_digits {integer : Int} {scale : Nat} (low : scale ≤ places)
    (long : ¬ integer.natAbs < limit) : new integer scale = .error .digits := by
  unfold new
  rw [dif_pos low, dif_neg long]

/-- Both operands fit once widened: the sum is decided by its own digits. -/
theorem checkedAdd_of_wide {a b : Exact} (wideA : Wide (integerAt (sumScale a b) a))
    (wideB : Wide (integerAt (sumScale a b) b)) :
    checkedAdd a b = new (sumInteger a b) (sumScale a b) := by
  have heldA : widen (sumScale a b) a = .ok (integerAt (sumScale a b) a) := i128_of_wide wideA
  have heldB : widen (sumScale a b) b = .ok (integerAt (sumScale a b) b) := i128_of_wide wideB
  change (do
    let x ← widen (sumScale a b) a
    let y ← widen (sumScale a b) b
    let sum ← i128 (x + y)
    new sum (sumScale a b)) = _
  rw [heldA, heldB]
  change (do
    let sum ← i128 (sumInteger a b)
    new sum (sumScale a b)) = _
  by_cases wide : Wide (sumInteger a b)
  · rw [i128_of_wide wide]
    rfl
  · have long : ¬ (sumInteger a b).natAbs < limit := fun digits => wide (wide_of_digits digits)
    rw [i128_of_not_wide wide, new_of_not_digits (sumScale_le a b) long]
    rfl

/-- One operand too wide: refused before the two are added. -/
theorem checkedAdd_of_not_wide {a b : Exact}
    (long : ¬ (Wide (integerAt (sumScale a b) a) ∧ Wide (integerAt (sumScale a b) b))) :
    checkedAdd a b = .error .digits := by
  change (do
    let x ← widen (sumScale a b) a
    let y ← widen (sumScale a b) b
    let sum ← i128 (x + y)
    new sum (sumScale a b)) = _
  by_cases wideA : Wide (integerAt (sumScale a b) a)
  · have heldA : widen (sumScale a b) a = .ok (integerAt (sumScale a b) a) := i128_of_wide wideA
    have refusedB : widen (sumScale a b) b = .error .digits :=
      i128_of_not_wide fun wideB => long ⟨wideA, wideB⟩
    rw [heldA, refusedB]
    rfl
  · have refusedA : widen (sumScale a b) a = .error .digits := i128_of_not_wide wideA
    rw [refusedA]
    rfl

theorem checkedAdd_comm (a b : Exact) : checkedAdd a b = checkedAdd b a := by
  by_cases wide : Wide (integerAt (sumScale a b) a) ∧ Wide (integerAt (sumScale a b) b)
  · have turned : Wide (integerAt (sumScale b a) b) ∧ Wide (integerAt (sumScale b a) a) := by
      rw [sumScale_comm b a]
      exact wide.symm
    rw [checkedAdd_of_wide wide.1 wide.2, checkedAdd_of_wide turned.1 turned.2, sumInteger_comm,
      sumScale_comm]
  · have turned : ¬ (Wide (integerAt (sumScale b a) b) ∧ Wide (integerAt (sumScale b a) a)) := by
      rw [sumScale_comm b a]
      exact fun both => wide both.symm
    rw [checkedAdd_of_not_wide wide, checkedAdd_of_not_wide turned]

/-- The sum is exact, and refused only for its own digits, exactly where neither widened operand
overflows or the sum is too long anyway. -/
theorem sum_refused_for_digits (a b : Exact) :
    SumsExactly a b ↔
      (sumInteger a b).natAbs < limit →
        Wide (integerAt (sumScale a b) a) ∧ Wide (integerAt (sumScale a b) b) := by
  constructor
  · intro sums digits
    by_contra long
    obtain ⟨sum, added, -⟩ := sums.carried digits
    rw [checkedAdd_of_not_wide long] at added
    cases added
  · intro wide
    refine ⟨fun digits => ?_, fun long => ?_, checkedAdd_comm a b⟩
    · have added : checkedAdd a b = .ok ⟨sumInteger a b, sumScale a b, sumScale_le a b, digits⟩ := by
        rw [checkedAdd_of_wide (wide digits).1 (wide digits).2, new_of_digits (sumScale_le a b) digits]
      exact ⟨_, added, rfl, rfl, (checkedAdd_ok added).1⟩
    · by_cases both : Wide (integerAt (sumScale a b) a) ∧ Wide (integerAt (sumScale a b) b)
      · rw [checkedAdd_of_wide both.1 both.2, new_of_not_digits (sumScale_le a b) long]
      · exact checkedAdd_of_not_wide both

/-- A whole number of twenty-one digits and one of eighteen places that takes most of it back: the
sum has thirty-eight digits, the first operand at eighteen places does not fit an `i128`. -/
theorem carried_sum_refused : ∃ a b : Exact, ¬ SumsExactly a b ∧
    a = ⟨175000000000000000000, 0, by decide, by decide⟩ ∧
    b = ⟨-99000000000000000000000000000000000000, 18, by decide, by decide⟩ := by
  refine ⟨_, _, fun sums => ?_, rfl, rfl⟩
  obtain ⟨sum, added, -⟩ := sums.carried (by decide)
  cases added

end MeridianCore.Exact
