import MeridianCore.AnalyticsEngine.Exact.Wide

namespace MeridianCore.AnalyticsEngine
open Nat (ofDigitChars)
open Limbs

/-- An integer in the narrowest form it fits. -/
inductive Num where
  | small (value : I128)
  | wide (value : Wide)
  | big (value : Big)
  deriving DecidableEq

namespace Num

/-- The integer it is, in whatever form. -/
def value : Num → Int
  | .small value => value.value
  | .wide value => value.value
  | .big value => value.value

def asWide : Num → Option Wide
  | .small value => some (Wide.fromI128 value)
  | .wide value => some value
  | .big _ => none

def toBig : Num → Big
  | .small value => Big.fromI128 value
  | .wide value => value.toBig
  | .big value => value

/-- The first form that holds a result: the fast one, else 256 bits, else any size. -/
def firstHeld (small : Option I128) (wide : Option Wide) (big : Big) : Num :=
  match small, wide with
  | some held, _ => .small held
  | none, some held => .wide held
  | none, none => .big big

/-- The narrowest form of an unbounded value. -/
def fromBig (big : Big) : Num := firstHeld big.toI128 (Wide.fromBig big) big

/-- The fast path: both held small, and the result held too. -/
def checkedSmall (operation : Int → Int → Int) : Num → Num → Option I128
  | .small a, .small b => I128.checked (operation a.value b.value)
  | _, _ => none

def checkedWide (operation : Wide → Wide → Option Wide) (num other : Num) : Option Wide :=
  match num.asWide, other.asWide with
  | some a, some b => operation a b
  | _, _ => none

def add (num other : Num) : Num :=
  firstHeld (checkedSmall (· + ·) num other) (checkedWide Wide.checkedAdd num other) (num.toBig.add other.toBig)

def mul (num other : Num) : Num :=
  firstHeld (checkedSmall (· * ·) num other) (checkedWide Wide.checkedMul num other) (num.toBig.mul other.toBig)

def negated : Num → Num
  | .small value =>
    match I128.checked (-value.value) with
    | some negated => .small negated
    | none => .wide (Wide.fromI128 value).negated
  | .wide value => .wide value.negated
  | .big value => .big value.negated

def signum : Num → Int
  | .small value => value.value.sign
  | .wide value => value.signum
  | .big value => value.signum

def isZero (num : Num) : Bool := num.signum == 0

/-- 10^n for n up to 38, the most an i128 holds. -/
def ten (n : Nat) (within : n ≤ 38) : I128 where
  value := 10 ^ n
  least := le_trans (by decide) (pow_nonneg (by decide) n)
  most := lt_of_le_of_lt (pow_le_pow_right₀ (by decide) within) (by decide)

/-- Times 10^n, 38 places at most at a time. -/
def mulPow10 (out : Num) (left : Nat) : Num :=
  if left = 0 then out else mulPow10 (out.mul (.small (ten (min left 38) (Nat.min_le_right ..)))) (left - min left 38)
termination_by left

def cmpNum (num other : Num) : Ordering :=
  match num, other with
  | .small a, .small b => compare a.value b.value
  | _, _ =>
    match num.asWide, other.asWide with
    | some a, some b => a.cmp b
    | _, _ => num.toBig.cmp other.toBig

/-- The decimal digits of the magnitude. -/
def magnitudeDigits : Num → List Char
  | .small value => Nat.toDigits 10 value.value.natAbs
  | other => other.toBig.magnitudeDigits

section values
variable {a b : Num}

theorem value_asWide {wide : Wide} (held : a.asWide = some wide) : wide.value = a.value := by
  cases a with
  | small value => rw [← Option.some.inj held, Wide.value_fromI128, Num.value]
  | wide value => rw [← Option.some.inj held, Num.value]
  | big value => cases held

@[simp] theorem value_toBig (num : Num) : num.toBig.value = num.value := by
  cases num with
  | small value => exact Big.value_fromI128 value
  | wide value => exact Wide.value_toBig value
  | big value => rfl

/-- A result every form agrees on is the value, whichever form holds it. -/
theorem value_firstHeld {small : Option I128} {wide : Option Wide} {big : Big} {value : Int}
    (small_ : ∀ held, small = some held → held.value = value) (wide_ : ∀ held, wide = some held → held.value = value)
    (big_ : big.value = value) : (firstHeld small wide big).value = value := by
  match small, wide with
  | some held, _ => exact small_ held rfl
  | none, some held => exact wide_ held rfl
  | none, none => exact big_

@[simp] theorem value_fromBig (big : Big) : (fromBig big).value = big.value := by
  refine value_firstHeld ?_ (fun _ held => Wide.value_fromBig held) rfl
  intro held some
  rw [Big.toI128_eq] at some
  exact I128.value_of_checked some

theorem value_checkedSmall {operation : Int → Int → Int} {held : I128} (some : checkedSmall operation a b = some held) :
    held.value = operation a.value b.value := by
  cases a <;> cases b <;> first | cases some | exact I128.value_of_checked some

theorem value_checkedWide {operation : Wide → Wide → Option Wide} {exact_ : Int → Int → Int} {held : Wide}
    (exactly : ∀ a b result, operation a b = some result → result.value = exact_ a.value b.value)
    (some : checkedWide operation a b = some held) : held.value = exact_ a.value b.value := by
  unfold checkedWide at some
  split at some
  · next x y asA asB => rw [← value_asWide asA, ← value_asWide asB, exactly x y held some]
  · cases some

@[simp] theorem value_add (a b : Num) : (a.add b).value = a.value + b.value := by
  refine value_firstHeld (fun _ held => value_checkedSmall held) (fun _ held => ?_) ?_
  · exact value_checkedWide (fun _ _ _ added => Wide.value_checkedAdd added) held
  · rw [Big.value_add, value_toBig, value_toBig]

@[simp] theorem value_mul (a b : Num) : (a.mul b).value = a.value * b.value := by
  refine value_firstHeld (fun _ held => value_checkedSmall held) (fun _ held => ?_) ?_
  · exact value_checkedWide (fun _ _ _ multiplied => Wide.value_checkedMul multiplied) held
  · rw [Big.value_mul, value_toBig, value_toBig]

@[simp] theorem value_negated (num : Num) : num.negated.value = -num.value := by
  cases num with
  | small value =>
    rw [negated]
    split
    · next negated held => exact I128.value_of_checked held
    · exact (Wide.value_negated _).trans (congrArg _ (Wide.value_fromI128 value))
  | wide value => exact Wide.value_negated value
  | big value => exact Big.value_negated value

theorem signum_eq (num : Num) : num.signum = num.value.sign := by
  cases num with
  | small value => rfl
  | wide value => exact Wide.signum_eq value
  | big value => exact Big.signum_eq value

theorem isZero_iff (num : Num) : num.isZero = true ↔ num.value = 0 := by
  rw [isZero, beq_iff_eq, signum_eq, Int.sign_eq_zero_iff_zero]

@[simp] theorem value_mulPow10 (out : Num) (left : Nat) : (mulPow10 out left).value = out.value * 10 ^ left := by
  induction left using Nat.strong_induction_on generalizing out with
  | _ left ih =>
    rw [mulPow10]
    split
    · next none => rw [none, pow_zero, mul_one]
    · next some =>
      have step : (Num.small (ten (min left 38) (Nat.min_le_right ..))).value = 10 ^ min left 38 := rfl
      rw [ih (left - min left 38) (by omega), value_mul, step, mul_assoc, ← pow_add]
      congr 2
      omega

theorem cmpNum_eq (a b : Num) : a.cmpNum b = compare a.value b.value := by
  unfold cmpNum
  split
  · rfl
  · split
    · next x y asA asB => rw [Wide.cmp_eq, value_asWide asA, value_asWide asB]
    · rw [Big.cmp_eq, value_toBig, value_toBig]

/-- The digits are the value's, in whatever form. -/
theorem magnitudeDigits_eq (num : Num) : num.magnitudeDigits = Nat.toDigits 10 num.value.natAbs := by
  cases num with
  | small value => rfl
  | wide value => exact (Big.magnitudeDigits_eq _).trans (by rw [value_toBig])
  | big value => exact Big.magnitudeDigits_eq _

end values

end Num

end MeridianCore.AnalyticsEngine
