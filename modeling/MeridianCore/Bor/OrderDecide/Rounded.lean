import MeridianCore.Bor.OrderDecide.Relief
import MeridianCore.Limbs.Rounding

namespace MeridianCore

/-- Rounding a magnitude is rounding its quotient. -/
theorem roundHalfEven_eq (numerator : Nat) {denominator : Nat} (positive : 0 < denominator) :
    (roundHalfEven numerator denominator : Int) = Limbs.halfEven ((numerator : ℚ) / denominator) := by
  have quotient := @Limbs.halfEven_div numerator denominator (by exact_mod_cast positive)
  push_cast at quotient
  rw [quotient, roundHalfEven, ← Int.natCast_div, ← Int.natCast_mod]
  generalize numerator / denominator = whole
  generalize numerator % denominator = rest
  split <;> split <;> omega

namespace Limbs

/-- A whole number rounds to itself. -/
theorem halfEven_intCast (n : ℤ) : halfEven (n : ℚ) = n :=
  (eq_halfEven (by norm_num) (by norm_num)).symm

theorem halfEven_neg (q : ℚ) : halfEven (-q) = -halfEven q := by
  have distance : |-q - ((-halfEven q : ℤ) : ℚ)| = |q - halfEven q| := by
    rw [← abs_neg]
    push_cast
    congr 1
    ring
  symm
  refine eq_halfEven ?_ fun tie => ?_
  · rw [distance]
    exact abs_sub_halfEven q
  · rw [distance] at tie
    have even := halfEven_tie tie
    omega

end Limbs

namespace Bor

/-- An amount to the cent, half to the even one. -/
def toCents (value : ℚ) : ℚ := Limbs.halfEven (value * 100) / 100

theorem cents_value {field : String} {value rounded : Exact} (answered : numbers.cents field value = .ok rounded) :
    rounded.value = toCents value.value := by
  unfold numbers.cents at answered
  split at answered
  · next short =>
    cases answered
    have whole : value.value * 100 = ((value.integer * 10 ^ (2 - value.scale) : Int) : ℚ) := by
      have split : (100 : ℚ) = 10 ^ (2 - value.scale) * 10 ^ value.scale := by
        rw [← pow_add, Nat.sub_add_cancel short]
        norm_num
      have positive : (10 : ℚ) ^ value.scale ≠ 0 := by positivity
      rw [Exact.value, split]
      push_cast
      field_simp
    rw [toCents, whole, Limbs.halfEven_intCast, ← whole]
    ring
  · next long =>
    obtain ⟨integer, scale⟩ := Exact.new_ok (mapError_ok.mp answered)
    have quotient : value.value * 100 = (value.integer : ℚ) / (10 ^ (value.scale - 2) : Nat) := by
      have split : (10 : ℚ) ^ value.scale = 10 ^ (value.scale - 2) * 100 := by
        rw [show (100 : ℚ) = 10 ^ 2 by norm_num, ← pow_add, Nat.sub_add_cancel (by omega)]
      have positive : (10 : ℚ) ^ (value.scale - 2) ≠ 0 := by positivity
      rw [Exact.value, split]
      push_cast
      field_simp
    have magnitude := roundHalfEven_eq value.integer.natAbs
      (show 0 < 10 ^ (value.scale - 2) from Nat.pow_pos (by decide))
    have same : rounded.integer = Limbs.halfEven ((value.integer : ℚ) / (10 ^ (value.scale - 2) : Nat)) := by
      rw [integer]
      split
      · next below =>
        have negative : (value.integer : ℚ) = -(value.integer.natAbs : ℚ) := by
          have turned : value.integer = -(value.integer.natAbs : Int) := by omega
          exact_mod_cast congrArg (Int.cast : Int → ℚ) turned
        rw [negative, neg_div, Limbs.halfEven_neg, ← magnitude]
      · next above =>
        have positive : (value.integer : ℚ) = (value.integer.natAbs : ℚ) := by
          have kept : (value.integer.natAbs : Int) = value.integer := by omega
          rw [← Int.cast_natCast, kept]
        rw [positive, ← magnitude]
    rw [toCents, quotient, Exact.value, same, scale]
    norm_num

theorem trimmed_value (integer : Int) (scale : Nat) :
    ((trimmed integer scale).1 : ℚ) / 10 ^ (trimmed integer scale).2 = integer / 10 ^ scale := by
  induction scale generalizing integer with
  | zero => rfl
  | succ scale ih =>
    rw [trimmed]
    split
    · next shorter =>
      have whole : integer = integer / 10 * 10 := by omega
      rw [ih, pow_succ]
      conv_rhs => rw [whole]
      push_cast
      rw [mul_div_mul_right _ _ (by norm_num)]
    · rfl

/-- A product is the product. -/
theorem multiply_value {field : String} {a b product : Exact} (answered : multiply field a b = .ok product) :
    product.value = a.value * b.value := by
  unfold multiply at answered
  cases held : i128 (a.integer * b.integer) with
  | error out =>
    rw [held] at answered
    cases answered
  | ok whole =>
    rw [held] at answered
    obtain ⟨integer, scale⟩ := Exact.new_ok (mapError_ok.mp answered)
    have same := trimmed_value whole (a.scale + b.scale)
    rw [← integer, ← scale, Exact.i128_ok held] at same
    rw [Exact.value, same, Exact.value, Exact.value, pow_add]
    push_cast
    rw [mul_div_mul_comm]

end Bor

end MeridianCore
