import Mathlib.Data.Rat.Floor
import Mathlib.Algebra.Order.Round
import Mathlib.Tactic.Linarith
import Mathlib.Tactic.FieldSimp
import Mathlib.Tactic.Ring

namespace MeridianCore.Limbs

/-- A rational rounded to a whole number, an exact half to the even one. -/
def halfEven (q : ℚ) : ℤ :=
  if 1 < 2 * (q - ⌊q⌋) ∨ 2 * (q - ⌊q⌋) = 1 ∧ ⌊q⌋ % 2 ≠ 0 then ⌊q⌋ + 1 else ⌊q⌋

variable {q : ℚ}

/-- No whole number is nearer. -/
theorem abs_sub_halfEven (q : ℚ) : |q - halfEven q| ≤ 1 / 2 := by
  have low := Int.floor_le q
  have high := Int.lt_floor_add_one q
  unfold halfEven
  rw [abs_le]
  split
  · next up =>
    have half : 1 ≤ 2 * (q - ⌊q⌋) := by
      rcases up with more | ⟨tie, -⟩
      · exact more.le
      · exact tie.ge
    push_cast
    constructor <;> linarith
  · next down =>
    have half : 2 * (q - ⌊q⌋) ≤ 1 := by
      by_contra more
      exact down (Or.inl (not_le.mp more))
    constructor <;> linarith

/-- Where two are as near, the even one. -/
theorem halfEven_tie (tie : |q - halfEven q| = 1 / 2) : halfEven q % 2 = 0 := by
  have low := Int.floor_le q
  unfold halfEven at tie ⊢
  split
  · next up =>
    rw [if_pos up] at tie
    push_cast at tie
    rcases up with more | ⟨half, odd⟩
    · have high := Int.lt_floor_add_one q
      rw [abs_of_neg (by linarith)] at tie
      linarith
    · omega
  · next down =>
    rw [if_neg down, abs_of_nonneg (by linarith)] at tie
    by_contra odd
    exact down (Or.inr ⟨by linarith, odd⟩)

/-- The nearest whole number, an exact half's the even one, is one only. -/
theorem eq_halfEven {n : ℤ} (near : |q - n| ≤ 1 / 2) (even : |q - n| = 1 / 2 → n % 2 = 0) : n = halfEven q := by
  have near' := abs_sub_halfEven q
  have even' := @halfEven_tie q
  generalize halfEven q = m at near' even'
  have apart : |(n : ℚ) - m| ≤ 1 := by
    calc
      |(n : ℚ) - m| = |(q - m) - (q - n)| := by congr 1; ring
      _ ≤ |q - m| + |q - n| := abs_sub _ _
      _ ≤ 1 := by linarith
  have whole : |n - m| ≤ 1 := by exact_mod_cast apart
  by_contra other
  -- Two different ones are both a half away, so both even, and one apart.
  have one : |n - m| = 1 := by
    have some : 0 < |n - m| := abs_pos.mpr (sub_ne_zero.mpr other)
    omega
  have oneQ : |(n : ℚ) - m| = 1 := by exact_mod_cast one
  have both : |q - n| = 1 / 2 ∧ |q - m| = 1 / 2 := by
    have sum : (1 : ℚ) ≤ |q - m| + |q - n| := by
      calc
        (1 : ℚ) = |(q - m) - (q - n)| := by rw [← oneQ]; congr 1; ring
        _ ≤ |q - m| + |q - n| := abs_sub _ _
    constructor <;> linarith
  have evenN := even both.1
  have evenM := even' both.2
  rcases abs_eq (show (0 : ℤ) ≤ 1 by decide) |>.mp one with up | down <;> omega

theorem floor_div {n d : ℤ} (positive : 0 < d) : ⌊(n : ℚ) / d⌋ = n / d := by
  obtain ⟨d, rfl⟩ := Int.eq_ofNat_of_zero_le positive.le
  exact Rat.floor_intCast_div_natCast n d

theorem sub_floor_div {n d : ℤ} (positive : 0 < d) : (n : ℚ) / d - ⌊(n : ℚ) / d⌋ = ((n % d : ℤ) : ℚ) / d := by
  have wide : (d : ℚ) ≠ 0 := by exact_mod_cast positive.ne'
  have parts : ((n % d : ℤ) : ℚ) + d * (n / d : ℤ) = n := by exact_mod_cast Int.emod_add_mul_ediv n d
  rw [floor_div positive]
  field_simp
  linarith

/-- Half even by quotient and remainder. -/
theorem halfEven_div {n d : ℤ} (positive : 0 < d) :
    halfEven ((n : ℚ) / d) = if d < 2 * (n % d) ∨ 2 * (n % d) = d ∧ n / d % 2 ≠ 0 then n / d + 1 else n / d := by
  have wide : (0 : ℚ) < d := by exact_mod_cast positive
  have more : 1 < 2 * (((n % d : ℤ) : ℚ) / d) ↔ d < 2 * (n % d) := by
    rw [← mul_div_assoc, lt_div_iff₀ wide, one_mul]
    exact_mod_cast Iff.rfl
  have tie : 2 * (((n % d : ℤ) : ℚ) / d) = 1 ↔ 2 * (n % d) = d := by
    rw [← mul_div_assoc, div_eq_one_iff_eq wide.ne']
    exact_mod_cast Iff.rfl
  unfold halfEven
  rw [sub_floor_div positive, floor_div positive]
  simp only [more, tie]

/-- Whole numbers that are two rationals at one positive scale are in their order. -/
theorem compare_scaled {m n : ℤ} {x y scale : ℚ} (positive : 0 < scale) (left : (m : ℚ) = x * scale) (right : (n : ℚ) = y * scale) :
    compare m n = compare x y := by
  have less : m < n ↔ x < y := by
    rw [← mul_lt_mul_iff_left₀ positive, ← left, ← right]
    exact_mod_cast Iff.rfl
  have more : n < m ↔ y < x := by
    rw [← mul_lt_mul_iff_left₀ positive, ← left, ← right]
    exact_mod_cast Iff.rfl
  rcases lt_trichotomy x y with below | same | above
  · rw [compare_lt_iff_lt.mpr below, compare_lt_iff_lt.mpr (less.mpr below)]
  · have equal : m = n := by
      have notLess : ¬ m < n := fun below => (less.mp below).ne same
      have notMore : ¬ n < m := fun above => (more.mp above).ne same.symm
      omega
    rw [compare_eq_iff_eq.mpr same, compare_eq_iff_eq.mpr equal]
  · rw [compare_gt_iff_gt.mpr above, compare_gt_iff_gt.mpr (more.mpr above)]

end MeridianCore.Limbs
