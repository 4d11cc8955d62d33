import MeridianCore.Bor.OrderDecide.Rounded
import MeridianCore.Domain.Exact

/-! Where an exact product is refused. It is stated at the sum of the two scales, its trailing zeros
taken off only down to the places the wire carries, so a product of many digits is not restated at
fewer places for it to fit. -/

namespace MeridianCore.Bor

/-- A number a whole number of at most 38 digits states at `scale`. -/
def StatedAt (scale : Nat) (value : ℚ) : Prop := ∃ integer : Int, integer.natAbs < limit ∧ value = integer / 10 ^ scale

/-- A number the wire carries at some scale. -/
def Carried (value : ℚ) : Prop := ∃ scale ≤ places, StatedAt scale value

/-- The scale a product is stated at. -/
def productScale (a b : Exact) : Nat := min places (a.scale + b.scale)

/-- A product is answered exactly or refused: what is answered is the product, at its scale; what is not stated at
that scale is refused; and what is, is answered wherever the two integers multiply inside an `i128`. -/
structure MultipliesExactly (field : String) (a b : Exact) : Prop where
  exact : ∀ product, multiply field a b = .ok product → product.value = a.value * b.value ∧ product.scale = productScale a b
  refused : ¬ StatedAt (productScale a b) (a.value * b.value) → ∃ out, multiply field a b = .error out
  answered : StatedAt (productScale a b) (a.value * b.value) → Exact.Wide (a.integer * b.integer) →
    ∃ product, multiply field a b = .ok product

section
variable {field : String} {a b : Exact} {integer : Int} {scale : Nat}

/-- What is left at more places than the wire carries ends in a digit that is not a zero. -/
theorem trimmed_scale (integer : Int) (scale : Nat) :
    (trimmed integer scale).2 = min places scale ∨ (places < (trimmed integer scale).2 ∧ (trimmed integer scale).1 % 10 ≠ 0) := by
  induction scale generalizing integer with
  | zero => exact .inl rfl
  | succ scale ih =>
    rw [trimmed]
    by_cases high : 18 < scale + 1
    · by_cases zero : integer % 10 = 0
      · rw [if_pos ⟨high, zero⟩]
        have same : min places (scale + 1) = min places scale := by
          have bound : places = 18 := rfl
          omega
        rw [same]
        exact ih (integer / 10)
      · rw [if_neg fun both => zero both.2]
        exact .inr ⟨high, zero⟩
    · rw [if_neg fun both => high both.1]
      refine .inl (min_eq_right ?_).symm
      have bound : places = 18 := rfl
      omega

/-- A number stated at fewer places, stated at more, ends in a zero. -/
theorem ends_in_zero {value : ℚ} {more : Nat} (low : scale < more) {fewer : Int} (at_ : value = fewer / 10 ^ scale)
    (also : value = integer / 10 ^ more) : integer % 10 = 0 := by
  obtain ⟨extra, rfl⟩ : ∃ extra, more = scale + (extra + 1) := ⟨more - scale - 1, by omega⟩
  have scaled : (integer : ℚ) = fewer * 10 ^ (extra + 1) := by
    have positive : (10 : ℚ) ^ scale ≠ 0 := by positivity
    rw [at_, pow_add] at also
    field_simp at also
    linarith
  have whole : integer = fewer * 10 ^ extra * 10 := by
    rw [mul_assoc, ← pow_succ]
    exact_mod_cast scaled
  omega

theorem product_value (a b : Exact) : a.value * b.value = ((a.integer * b.integer : Int) : ℚ) / 10 ^ (a.scale + b.scale) := by
  rw [Exact.value, Exact.value, pow_add]
  push_cast
  rw [mul_div_mul_comm]

/-- A product that is answered is one stated at its scale. -/
theorem stated_of_answered {product : Exact} (answered : multiply field a b = .ok product) :
    product.scale = productScale a b ∧ StatedAt (productScale a b) (a.value * b.value) := by
  have value := multiply_value answered
  have scale : product.scale = productScale a b := by
    unfold multiply at answered
    cases held : i128 (a.integer * b.integer) with
    | error out =>
      rw [held] at answered
      cases answered
    | ok whole =>
      rw [held] at answered
      obtain ⟨-, scale⟩ := Exact.new_ok (mapError_ok.mp answered)
      rcases trimmed_scale whole (a.scale + b.scale) with fits | ⟨high, -⟩
      · rw [scale]
        exact fits
      · exact absurd (scale ▸ product.scale_le) (not_le.mpr high)
  exact ⟨scale, product.integer, product.digits, by rw [← value, Exact.value, scale]⟩

/-- A product stated at its scale is answered where the integers multiply inside an `i128`. -/
theorem answered_of_stated (stated : StatedAt (productScale a b) (a.value * b.value))
    (wide : Exact.Wide (a.integer * b.integer)) : ∃ product, multiply field a b = .ok product := by
  obtain ⟨integer, digits, value⟩ := stated
  have same := trimmed_value (a.integer * b.integer) (a.scale + b.scale)
  rw [← product_value] at same
  have scale : (trimmed (a.integer * b.integer) (a.scale + b.scale)).2 = productScale a b := by
    rcases trimmed_scale (a.integer * b.integer) (a.scale + b.scale) with fits | ⟨high, some'⟩
    · exact fits
    · exact absurd (ends_in_zero (lt_of_le_of_lt (min_le_left _ _) high) value same.symm) some'
  have kept : (trimmed (a.integer * b.integer) (a.scale + b.scale)).1 = integer := by
    rw [scale, value] at same
    have positive : (10 : ℚ) ^ productScale a b ≠ 0 := by positivity
    have equal := mul_right_cancel₀ (inv_ne_zero positive) (by simpa only [div_eq_mul_inv] using same)
    exact_mod_cast equal
  have low : productScale a b ≤ places := min_le_left _ _
  refine ⟨⟨integer, productScale a b, low, digits⟩, ?_⟩
  unfold multiply
  rw [Exact.i128_of_wide wide]
  dsimp only
  rw [scale, kept, Exact.new_of_digits low digits]
  rfl

end

/-- Every product is answered exactly or refused. -/
theorem multiply_exact (field : String) (a b : Exact) : MultipliesExactly field a b where
  exact product answered := ⟨multiply_value answered, (stated_of_answered answered).1⟩
  refused apart := by
    cases answered : multiply field a b with
    | error out => exact ⟨out, rfl⟩
    | ok product => exact absurd (stated_of_answered answered).2 apart
  answered := answered_of_stated

/-- A hundred million million million comes of two numbers at nine places each, and is refused. -/
theorem carried_product_refused :
    ¬ ∀ (field : String) (a b : Exact), Carried (a.value * b.value) →
      ∃ product, multiply field a b = .ok product ∧ product.value = a.value * b.value := by
  intro claim
  obtain ⟨product, answered, -⟩ := claim "cash" ⟨10 ^ 20, 9, by decide, by decide⟩ ⟨10 ^ 18, 9, by decide, by decide⟩
    ⟨0, by decide, 10 ^ 20, by decide, by norm_num [Exact.value]⟩
  have refused : (multiply "cash" ⟨10 ^ 20, 9, by decide, by decide⟩ ⟨10 ^ 18, 9, by decide, by decide⟩).toOption = none := by
    decide +kernel
  rw [answered] at refused
  cases refused

end MeridianCore.Bor
