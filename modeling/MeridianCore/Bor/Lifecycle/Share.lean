import MeridianCore.Bor.Lifecycle.Moves
import MeridianCore.Bor.OrderDecide.Rounded

namespace MeridianCore

/-- A number to so many places, half to the even one. -/
def atPlaces (scale : Nat) (value : ℚ) : ℚ := Limbs.halfEven (value * 10 ^ scale) / 10 ^ scale

/-- Whether a number ends within so many places. -/
def EndsWithin (scale : Nat) (value : ℚ) : Prop := (value * 10 ^ scale).den = 1

instance (scale : Nat) (value : ℚ) : Decidable (EndsWithin scale value) :=
  inferInstanceAs (Decidable ((value * 10 ^ scale).den = 1))

theorem atPlaces_of_ends {scale : Nat} {value : ℚ} (ends : EndsWithin scale value) : atPlaces scale value = value := by
  have whole : ((value * 10 ^ scale).num : ℚ) = value * 10 ^ scale := Rat.coe_int_num_of_den_eq_one ends
  have positive : (10 : ℚ) ^ scale ≠ 0 := by positivity
  rw [atPlaces, ← whole, Limbs.halfEven_intCast, whole]
  field_simp

namespace Bor.Lifecycle

/-- A quotient's magnitude rounded and its sign put back is the quotient rounded. -/
theorem signed_quotient (numerator : Int) {denominator : Int} (nonzero : denominator ≠ 0) :
    (if (decide (numerator < 0) != decide (denominator < 0)) = true then
        -(roundHalfEven numerator.natAbs denominator.natAbs : Int)
      else roundHalfEven numerator.natAbs denominator.natAbs) = Limbs.halfEven ((numerator : ℚ) / denominator) := by
  have positive : 0 < denominator.natAbs := Int.natAbs_pos.mpr nonzero
  have magnitude (value : Int) : (value.natAbs : ℚ) = if value < 0 then -(value : ℚ) else value := by
    rw [← Int.cast_natCast]
    split
    · next below =>
      rw [show (value.natAbs : Int) = -value by omega, Int.cast_neg]
    · next above =>
      rw [show (value.natAbs : Int) = value by omega]
  rw [roundHalfEven_eq numerator.natAbs positive, magnitude, magnitude]
  by_cases top : numerator < 0 <;> by_cases bottom : denominator < 0
  · simp [top, bottom, neg_div_neg_eq]
  · simp [top, bottom, neg_div, Limbs.halfEven_neg]
  · simp [top, bottom, div_neg, Limbs.halfEven_neg]
  · simp [top, bottom]

/-- A share is the exact quotient, half-even at the cost's places, at least two. -/
theorem share_value {field : String} {cost part whole shared : Exact}
    (answered : share field cost part whole = .ok shared) :
    whole.units ≠ 0 ∧ shared.scale = max cost.scale 2 ∧
      shared.value = atPlaces (max cost.scale 2) (cost.value * part.value / whole.value) := by
  unfold share at answered
  obtain ⟨nonzero, answered⟩ := guard_ok.mp answered
  obtain ⟨product, multiplied, answered⟩ := bind_ok.mp answered
  dsimp only at answered
  obtain ⟨numerator, raised, answered⟩ := bind_ok.mp answered
  obtain ⟨denominator, lowered, answered⟩ := bind_ok.mp answered
  obtain ⟨quotient, rounded, answered⟩ := bind_ok.mp answered
  have up {value scaled : Int} {places : Nat} {out : StoreError} (done : (do
      let power ← (i128 (10 ^ places)).mapError fun _ => out
      (i128 (value * power)).mapError fun _ => out) = Except.ok scaled) : scaled = value * 10 ^ places := by
    obtain ⟨power, powered, done⟩ := bind_ok.mp done
    rw [Exact.i128_ok (mapError_ok.mp done), Exact.i128_ok (mapError_ok.mp powered)]
  have top := up raised
  have bottom := up lowered
  have apart : whole.units ≠ 0 := fun zero => nonzero ((Exact.isZero_iff whole).mpr zero)
  have wholeInteger : whole.integer ≠ 0 := by
    intro zero
    rw [Exact.units, zero, Int.zero_mul] at apart
    exact apart rfl
  have below : denominator ≠ 0 := by
    rw [bottom]
    exact Int.mul_ne_zero wholeInteger (by positivity)
  obtain ⟨integer, scale⟩ := Exact.new_ok (mapError_ok.mp answered)
  refine ⟨apart, scale, ?_⟩
  have same : cost.value * part.value / whole.value * 10 ^ max cost.scale 2 = (numerator : ℚ) / denominator := by
    have wholeRat : (whole.integer : ℚ) ≠ 0 := by exact_mod_cast wholeInteger
    rw [← multiply_value multiplied, top, bottom, Exact.value, Exact.value]
    push_cast
    rw [pow_add]
    field_simp
  rw [atPlaces, same, ← signed_quotient numerator below, Exact.value, integer, scale,
    Exact.i128_ok (mapError_ok.mp rounded)]

end Bor.Lifecycle

end MeridianCore
