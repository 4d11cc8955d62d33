import MeridianCore.Limbs.Words

namespace MeridianCore.Limbs
open Nat (ofDigits)

/-- A trial digit lowered while it is a base or more, or too great for the divisor's second word, until what
it leaves is a base or more. -/
def lowerTrial (base v1 v2 u0 qhat rhat : Nat) : Nat :=
  if base ≤ qhat ∨ rhat * base + u0 < qhat * v2 then
    if base ≤ rhat + v1 then qhat - 1 else lowerTrial base v1 v2 u0 (qhat - 1) (rhat + v1)
  else qhat
termination_by qhat
decreasing_by
  rename_i lowers more
  rcases lowers with large | great
  · omega
  · have : qhat ≠ 0 := by
      rintro rfl
      simp at great
    omega

/-- A digit times a divisor taken from the words there, and what is still to take above them. -/
def takeProduct (base digit : Nat) : Int → List Nat → List Nat → List Nat × Int
  | k, [], _ => ([], k)
  | k, v :: divisor, words =>
    let product := digit * v
    let t : Int := words.headD 0 - k - (product % base : Nat)
    let above := takeProduct base digit ((product / base : Nat) - t / base) divisor words.tail
    ((t % base).toNat :: above.1, above.2)

/-- One digit of a quotient, and what it leaves of the window: as many words as the divisor and one. -/
def divideStep (base : Nat) (divisor window : List Nat) : Nat × List Nat :=
  let n := divisor.length
  let numerator := window.getD n 0 * base + window.getD (n - 1) 0
  let top := divisor.getD (n - 1) 0
  let qhat := lowerTrial base top (divisor.getD (n - 2) 0) (window.getD (n - 2) 0) (numerator / top) (numerator % top)
  let low := takeProduct base qhat 0 divisor window
  let t : Int := window.getD n 0 - low.2
  if t < 0 then
    let back := addWords base 0 low.1 divisor
    (qhat - 1, back.1 ++ [((t % base).toNat + back.2) % base])
  else (qhat, low.1 ++ [(t % base).toNat])

/-- The quotient's digits from the highest, each of the window the digits above it left; and the last window. -/
def divideSteps (base : Nat) (divisor : List Nat) : List Nat → List Nat × List Nat
  | [] => ([], [])
  | word :: rest =>
    if rest.length < divisor.length then ([], word :: rest)
    else
      let above := divideSteps base divisor rest
      let digit := divideStep base divisor (word :: above.2.take divisor.length)
      (digit.1 :: above.1, digit.2)

variable {base : Nat} {divisor window words : List Nat}

theorem ofDigits_drop (words : List Nat) (i : Nat) :
    ofDigits base (words.drop i) = words.getD i 0 + base * ofDigits base (words.drop (i + 1)) := by
  rw [← ofDigits_headD (words.drop i), List.tail_drop, List.headD_eq_head?_getD, List.head?_drop, List.getD_eq_getElem?_getD]

theorem ofDigits_take_drop {i : Nat} (inside : i ≤ words.length) :
    ofDigits base words = ofDigits base (words.take i) + base ^ i * ofDigits base (words.drop i) := by
  conv_lhs => rw [← List.take_append_drop i words]
  rw [Nat.ofDigits_append, List.length_take, Nat.min_eq_left inside]

theorem Fits.take (fits : Fits base words) (i : Nat) : Fits base (words.take i) :=
  fun word member => fits word (List.mem_of_mem_take member)

theorem Fits.getD (positive : 0 < base) (fits : Fits base words) (i : Nat) : words.getD i 0 < base := by
  rw [List.getD_eq_getElem?_getD]
  cases found : words[i]? with
  | none => exact positive
  | some word => exact fits word (List.mem_of_getElem? found)

section trial
variable {v1 v2 u0 numerator : Nat}

theorem trial_ne_zero {qhat rhat : Nat} (positive : 0 < base) (lowers : base ≤ qhat ∨ rhat * base + u0 < qhat * v2) :
    qhat ≠ 0 := by
  rintro rfl
  rcases lowers with large | great
  · omega
  · simp at great

/-- A digit that is lowered is a base or more, or too great for the words divided. -/
theorem lowered_exceeds {qhat rhat : Nat} (remains : qhat * v1 + rhat = numerator)
    (lowers : base ≤ qhat ∨ rhat * base + u0 < qhat * v2) (small : qhat < base)
    (fits : qhat * (v1 * base + v2) ≤ numerator * base + u0) : False := by
  have great := lowers.resolve_left (by omega)
  have product : qhat * (v1 * base + v2) = qhat * v1 * base + qhat * v2 := by ring
  have whole : numerator * base + u0 = qhat * v1 * base + (rhat * base + u0) := by rw [← remains]; ring
  omega

/-- The trial digit once lowered is the greatest below the base whose product with the divisor's two top words
is no more than the three top words divided. -/
theorem lowerTrial_spec {qhat rhat : Nat} (belowV : v2 < base) (positive : 0 < v1)
    (small : numerator < v1 * base + base) (remains : qhat * v1 + rhat = numerator) :
    lowerTrial base v1 v2 u0 qhat rhat < base ∧
      lowerTrial base v1 v2 u0 qhat rhat * (v1 * base + v2) ≤ numerator * base + u0 ∧
      ∀ digit, digit ≤ qhat → digit < base → digit * (v1 * base + v2) ≤ numerator * base + u0 →
        digit ≤ lowerTrial base v1 v2 u0 qhat rhat := by
  induction qhat, rhat using lowerTrial.induct base v1 v2 u0 with
  | case1 qhat rhat lowers large =>
    rw [lowerTrial, if_pos lowers, if_pos large]
    obtain ⟨digit, rfl⟩ : ∃ digit, qhat = digit + 1 := ⟨qhat - 1, (Nat.succ_pred (trial_ne_zero (by omega) lowers)).symm⟩
    rw [Nat.add_sub_cancel]
    have split : digit * v1 + (rhat + v1) = numerator := by
      rw [← remains]
      ring
    have below : digit < base := by
      refine Nat.lt_of_mul_lt_mul_right (a := v1) ?_
      rw [Nat.mul_comm base]
      omega
    refine ⟨below, ?_, fun other most small fits => ?_⟩
    · have second := Nat.mul_le_mul below.le belowV.le
      have rest := Nat.mul_le_mul_right base large
      calc
        digit * (v1 * base + v2) = digit * v1 * base + digit * v2 := by ring
        _ ≤ digit * v1 * base + (rhat + v1) * base := by omega
        _ = numerator * base := by rw [← split]; ring
        _ ≤ numerator * base + u0 := Nat.le_add_right ..
    · refine Nat.le_of_lt_succ (Nat.lt_of_le_of_ne most ?_)
      rintro rfl
      exact lowered_exceeds remains lowers small fits
  | case2 qhat rhat lowers more ih =>
    rw [lowerTrial, if_pos lowers, if_neg more]
    have positive : qhat ≠ 0 := trial_ne_zero (by omega) lowers
    obtain ⟨digit, rfl⟩ : ∃ digit, qhat = digit + 1 := ⟨qhat - 1, (Nat.succ_pred positive).symm⟩
    rw [Nat.add_sub_cancel] at ih ⊢
    obtain ⟨below, product, greatest⟩ := ih (by rw [← remains]; ring)
    refine ⟨below, product, fun other most small fits => greatest other ?_ small fits⟩
    refine Nat.le_of_lt_succ (Nat.lt_of_le_of_ne most ?_)
    rintro rfl
    exact lowered_exceeds remains lowers small fits
  | case3 qhat rhat holds =>
    rw [lowerTrial, if_neg holds]
    push Not at holds
    refine ⟨holds.1, ?_, fun other most _ _ => most⟩
    calc
      qhat * (v1 * base + v2) = qhat * v1 * base + qhat * v2 := by ring
      _ ≤ qhat * v1 * base + (rhat * base + u0) := Nat.add_le_add_left holds.2 _
      _ = numerator * base + u0 := by rw [← remains]; ring

/-- What is still to take is put onto the next word. -/
theorem takeProduct_spec (positive : 0 < base) (digit : Nat) (k : Int) (shorter : divisor.length ≤ words.length) :
    Fits base (takeProduct base digit k divisor words).1 ∧
      (takeProduct base digit k divisor words).1.length = divisor.length ∧
      ((ofDigits base (takeProduct base digit k divisor words).1 : Nat) : Int) =
        ofDigits base (words.take divisor.length) - digit * ofDigits base divisor - k +
          base ^ divisor.length * (takeProduct base digit k divisor words).2 := by
  induction divisor generalizing k words with
  | nil => simp [takeProduct, ofDigits, fits_nil]
  | cons v divisor ih =>
    cases words with
    | nil => simp at shorter
    | cons word words =>
      simp only [List.length_cons, Nat.add_le_add_iff_right] at shorter
      simp only [takeProduct, List.headD_cons, List.tail_cons, List.length_cons, List.take_succ_cons, Nat.ofDigits_cons,
        pow_succ]
      generalize taken : (word : Int) - k - (digit * v % base : Nat) = t
      obtain ⟨fits, length, value⟩ := @ih words ((digit * v / base : Nat) - t / base) shorter
      have wide : (0 : Int) < base := by exact_mod_cast positive
      have low := Int.emod_nonneg t wide.ne'
      have high := Int.emod_lt_of_pos t wide
      have split := Int.emod_add_mul_ediv t base
      have product : ((digit * v % base : Nat) : Int) + base * (digit * v / base : Nat) = digit * v := by
        exact_mod_cast Nat.mod_add_div (digit * v) base
      refine ⟨fits_cons.mpr ⟨by omega, fits⟩, congrArg Nat.succ length, ?_⟩
      push_cast [Int.toNat_of_nonneg low]
      push_cast at value product taken
      linear_combination base * value + split - product - taken

/-- Of magnitudes by their words from a place up, the trial digit is the quotient or one more, and below the base. -/
theorem lowerTrial_near {V W scale low lowV : Nat} (belowV : v2 < base) (belowU : u0 < base) (positive : 0 < v1)
    (isV : V = lowV + scale * (v1 * base + v2)) (isW : W = low + scale * (numerator * base + u0)) (belowLowV : lowV < scale)
    (belowLow : low < scale) (small : W < V * base) :
    W / V ≤ lowerTrial base v1 v2 u0 (numerator / v1) (numerator % v1) ∧
      lowerTrial base v1 v2 u0 (numerator / v1) (numerator % v1) ≤ W / V + 1 ∧
      lowerTrial base v1 v2 u0 (numerator / v1) (numerator % v1) < base := by
  have large : 0 < V := by
    have product := Nat.mul_pos (show 0 < scale by omega) (Nat.mul_pos positive (show 0 < base by omega))
    rw [isV, Nat.mul_add]
    omega
  have topV : V < scale * (v1 * base + v2 + 1) := by
    rw [isV, Nat.mul_add scale _ 1]
    omega
  have topW : W < scale * (numerator * base + u0 + 1) := by
    rw [isW, Nat.mul_add scale _ 1]
    omega
  have bounded : numerator < v1 * base + base := by
    refine Nat.lt_of_mul_lt_mul_right (a := base) (Nat.lt_of_mul_lt_mul_left (a := scale) ?_)
    calc
      scale * (numerator * base) ≤ W := by rw [isW, Nat.mul_add]; omega
      _ < V * base := small
      _ ≤ scale * (v1 * base + v2 + 1) * base := Nat.mul_le_mul_right base topV.le
      _ ≤ scale * (v1 * base + base) * base := Nat.mul_le_mul_right base (Nat.mul_le_mul_left scale (by omega))
      _ = scale * ((v1 * base + base) * base) := by ring
  obtain ⟨below, product, greatest⟩ := @lowerTrial_spec base v1 v2 u0 numerator _ _ belowV positive bounded
    (Nat.div_add_mod' numerator v1)
  generalize lowerTrial base v1 v2 u0 (numerator / v1) (numerator % v1) = qhat at below product greatest ⊢
  refine ⟨?_, ?_, below⟩
  · have fits : W / V * (v1 * base + v2) ≤ numerator * base + u0 := by
      refine Nat.le_of_lt_succ (Nat.lt_of_mul_lt_mul_left (a := scale) ?_)
      calc
        scale * (W / V * (v1 * base + v2)) = W / V * (scale * (v1 * base + v2)) := by ring
        _ ≤ W / V * V := Nat.mul_le_mul_left _ (by rw [isV]; omega)
        _ ≤ W := Nat.div_mul_le_self W V
        _ < scale * (numerator * base + u0 + 1) := topW
    refine greatest _ ?_ (Nat.div_lt_of_lt_mul small) fits
    rw [Nat.le_div_iff_mul_le positive]
    refine Nat.le_of_lt_succ (Nat.lt_of_mul_lt_mul_right (a := base) ?_)
    calc
      W / V * v1 * base ≤ W / V * (v1 * base + v2) := by rw [Nat.mul_assoc]; exact Nat.mul_le_mul_left _ (by omega)
      _ ≤ numerator * base + u0 := fits
      _ < numerator.succ * base := by rw [Nat.succ_mul]; omega
  · rw [← Nat.sub_le_iff_le_add, Nat.le_div_iff_mul_le large]
    cases qhat with
    | zero => simp
    | succ digit =>
      have short : digit + 1 ≤ v1 * base + v2 := by
        have one := Nat.mul_le_mul_right base (Nat.succ_le_of_lt positive)
        omega
      calc
        (digit + 1 - 1) * V ≤ digit * (scale * (v1 * base + v2 + 1)) := by
          rw [Nat.add_sub_cancel]
          exact Nat.mul_le_mul_left digit topV.le
        _ = scale * (digit * (v1 * base + v2) + digit) := by ring
        _ ≤ scale * (digit * (v1 * base + v2) + (v1 * base + v2)) := Nat.mul_le_mul_left scale (by omega)
        _ = scale * ((digit + 1) * (v1 * base + v2)) := by ring
        _ ≤ scale * (numerator * base + u0) := Nat.mul_le_mul_left scale product
        _ ≤ W := by rw [isW]; omega

end trial

theorem ofDigits_two_top {k : Nat} (length : words.length = k + 2) :
    ofDigits base words = ofDigits base (words.take k) + base ^ k * (words.getD (k + 1) 0 * base + words.getD k 0) := by
  rw [ofDigits_take_drop (show k ≤ words.length by omega), ofDigits_drop words k, ofDigits_drop words (k + 1),
    List.drop_of_length_le (by omega), Nat.ofDigits_nil]
  ring

theorem ofDigits_three_top {k : Nat} (length : words.length = k + 3) :
    ofDigits base words = ofDigits base (words.take k) +
      base ^ k * ((words.getD (k + 2) 0 * base + words.getD (k + 1) 0) * base + words.getD k 0) := by
  rw [ofDigits_take_drop (show k ≤ words.length by omega), ofDigits_drop words k, ofDigits_drop words (k + 1),
    ofDigits_drop words (k + 2), List.drop_of_length_le (by omega), Nat.ofDigits_nil]
  ring

theorem ofDigits_take_lt (large : 1 < base) (fits : Fits base words) {k : Nat} (inside : k ≤ words.length) :
    ofDigits base (words.take k) < base ^ k := by
  have below := ofDigits_lt large (fits.take k)
  rwa [List.length_take, Nat.min_eq_left inside] at below

/-- What a digit leaves of a window: nothing is still to take where the digit is the quotient, and one word
where it is one more. -/
theorem still_to_take {n W V L qhat : Nat} {t : Int} (large : 0 < V) (belowV : V < base ^ n) (belowL : L < base ^ n)
    (left : (L : Int) + (base : Int) ^ n * t = W - qhat * V) (least : W / V ≤ qhat) (most : qhat ≤ W / V + 1) :
    (0 ≤ t ∧ qhat = W / V ∧ t = 0 ∧ L = W % V) ∨ (t < 0 ∧ qhat = W / V + 1 ∧ t = -1 ∧ L + V = W % V + base ^ n) := by
  have division := Nat.div_add_mod W V
  have remainder := Nat.mod_lt W large
  have wide : (0 : Int) < (base : Int) ^ n := by exact_mod_cast (Nat.zero_le V).trans_lt belowV
  have belowL' : (L : Int) < (base : Int) ^ n := by exact_mod_cast belowL
  have belowV' : (V : Int) < (base : Int) ^ n := by exact_mod_cast belowV
  have division' : (V : Int) * (W / V : Nat) + (W % V : Nat) = W := by exact_mod_cast division
  rcases Nat.lt_or_ge qhat (W / V + 1) with same | more
  · obtain rfl : qhat = W / V := by omega
    have rest : (L : Int) + (base : Int) ^ n * t = (W % V : Nat) := by linear_combination left - division'
    have remainder' : ((W % V : Nat) : Int) < V := by exact_mod_cast remainder
    have none : t = 0 := by
      rcases lt_trichotomy t 0 with less | same | more
      · nlinarith
      · exact same
      · nlinarith
    refine Or.inl ⟨none.ge, rfl, none, ?_⟩
    rw [none, mul_zero, add_zero] at rest
    exact_mod_cast rest
  · obtain rfl : qhat = W / V + 1 := by omega
    have rest : (L : Int) + (base : Int) ^ n * t = (W % V : Nat) - V := by
      push_cast at left division' ⊢
      linear_combination left - division'
    have remainder' : ((W % V : Nat) : Int) < V := by exact_mod_cast remainder
    have one : t = -1 := by
      rcases lt_trichotomy t (-1) with less | same | more
      · nlinarith
      · exact same
      · nlinarith
    refine Or.inr ⟨by omega, rfl, one, ?_⟩
    have sum : (L : Int) + V = (W % V : Nat) + (base : Int) ^ n := by
      rw [one] at rest
      linear_combination rest
    exact_mod_cast sum

/-- The trial digit of a window is the quotient or one more, and below the base. -/
theorem trial_near (two : 2 ≤ divisor.length) (fitsD : Fits base divisor) (top : 0 < divisor.getD (divisor.length - 1) 0)
    (fitsW : Fits base window) (length : window.length = divisor.length + 1)
    (small : ofDigits base window < ofDigits base divisor * base) {qhat : Nat}
    (trial : lowerTrial base (divisor.getD (divisor.length - 1) 0) (divisor.getD (divisor.length - 2) 0)
      (window.getD (divisor.length - 2) 0)
      ((window.getD divisor.length 0 * base + window.getD (divisor.length - 1) 0) / divisor.getD (divisor.length - 1) 0)
      ((window.getD divisor.length 0 * base + window.getD (divisor.length - 1) 0) % divisor.getD (divisor.length - 1) 0) =
        qhat) :
    ofDigits base window / ofDigits base divisor ≤ qhat ∧ qhat ≤ ofDigits base window / ofDigits base divisor + 1 ∧
      qhat < base := by
  obtain ⟨k, sized⟩ := Nat.exists_eq_add_of_le' two
  have positive : 0 < base := by
    refine Nat.pos_of_ne_zero ?_
    rintro rfl
    simp at small
  have large : 1 < base := by
    have below := fitsD.getD positive (divisor.length - 1)
    omega
  have isV := @ofDigits_two_top base divisor k sized
  have isW := @ofDigits_three_top base window k (by omega)
  have bounds := lowerTrial_near (fitsD.getD positive k) (fitsW.getD positive k)
    (by simpa [sized] using top) isV isW (ofDigits_take_lt large fitsD (by omega)) (ofDigits_take_lt large fitsW (by omega)) small
  have below : k + 2 - 1 = k + 1 := rfl
  simp only [sized, below, Nat.add_sub_cancel] at trial
  rw [trial] at bounds
  exact bounds

/-- What a digit's product leaves of a window, with what is still to take from its highest word. -/
theorem takeProduct_window (positive : 0 < base) (qhat : Nat) (length : window.length = divisor.length + 1) :
    ((ofDigits base (takeProduct base qhat 0 divisor window).1 : Nat) : Int) +
        (base : Int) ^ divisor.length * (window.getD divisor.length 0 - (takeProduct base qhat 0 divisor window).2) =
      (ofDigits base window : Nat) - qhat * (ofDigits base divisor : Nat) := by
  obtain ⟨-, -, value⟩ := takeProduct_spec positive qhat 0 (show divisor.length ≤ window.length by omega)
  have whole : ofDigits base window =
      ofDigits base (window.take divisor.length) + base ^ divisor.length * window.getD divisor.length 0 := by
    rw [ofDigits_take_drop (show divisor.length ≤ window.length by omega), ofDigits_drop window divisor.length,
      List.drop_of_length_le (by omega), Nat.ofDigits_nil]
    ring
  rw [value, whole]
  push_cast
  ring

/-- A digit one too great is found by what is still to take, and put back. -/
theorem divideStep_spec (two : 2 ≤ divisor.length) (fitsD : Fits base divisor) (top : 0 < divisor.getD (divisor.length - 1) 0)
    (fitsW : Fits base window) (length : window.length = divisor.length + 1)
    (small : ofDigits base window < ofDigits base divisor * base) :
    (divideStep base divisor window).1 = ofDigits base window / ofDigits base divisor ∧
      Fits base (divideStep base divisor window).2 ∧ (divideStep base divisor window).2.length = divisor.length + 1 ∧
      ofDigits base (divideStep base divisor window).2 = ofDigits base window % ofDigits base divisor := by
  have positive : 0 < base := by
    refine Nat.pos_of_ne_zero ?_
    rintro rfl
    simp at small
  have large : 1 < base := by
    have below := fitsD.getD positive (divisor.length - 1)
    omega
  have belowV := ofDigits_lt large fitsD
  unfold divideStep
  dsimp only
  generalize trial : lowerTrial base _ _ _ _ _ = qhat
  obtain ⟨least, most, -⟩ := trial_near two fitsD top fitsW length small trial
  obtain ⟨fitsL, lengthL, -⟩ := takeProduct_spec positive qhat 0 (show divisor.length ≤ window.length by omega)
  have left := takeProduct_window positive qhat length
  generalize takeProduct base qhat 0 divisor window = low at fitsL lengthL left ⊢
  have belowL := ofDigits_lt large fitsL
  rw [lengthL] at belowL
  have nonzero : 0 < ofDigits base divisor := by
    refine Nat.pos_of_ne_zero fun zero => ?_
    rw [zero, Nat.zero_mul] at small
    exact Nat.not_lt_zero _ small
  generalize (window.getD divisor.length 0 - low.2 : Int) = t at left ⊢
  rcases still_to_take nonzero belowV belowL left least most with ⟨unsigned, digit, none, rest⟩ | ⟨negative, digit, one, rest⟩
  · rw [if_neg (not_lt.mpr unsigned)]
    subst none
    refine ⟨digit, ?_, by simp [lengthL], ?_⟩
    · intro word member
      rcases List.mem_append.mp member with member | member
      · exact fitsL word member
      · rw [List.mem_singleton.mp member]
        exact positive
    · simp only [Nat.ofDigits_append, Int.zero_emod, Int.toNat_zero, Nat.ofDigits_singleton, Nat.mul_zero, Nat.add_zero]
      exact rest
  · rw [if_pos negative]
    subst one digit
    have sum := @ofDigits_addWords base 0 low.1 divisor (by omega)
    have backLength := @length_addWords base 0 low.1 divisor
    have fitsBack := fits_addWords positive 0 low.1 divisor
    have bit := carry_addWords positive (Nat.zero_le 1) fitsL fitsD
    have belowBack := ofDigits_lt large fitsBack
    generalize addWords base 0 low.1 divisor = back at sum backLength fitsBack bit belowBack ⊢
    rw [backLength, lengthL] at belowBack
    rw [lengthL, Nat.add_zero, rest] at sum
    have remainder := Nat.mod_lt (ofDigits base window) nonzero
    have carried : back.2 = 1 := by
      rcases Nat.le_one_iff_eq_zero_or_eq_one.mp bit with zero | one
      · rw [zero, Nat.mul_zero, Nat.add_zero] at sum
        omega
      · exact one
    rw [carried, Nat.mul_one] at sum
    have borrowed : ((-1 % (base : Int)).toNat + 1) % base = 0 := by
      have minus : (-1 : Int) % base = base - 1 := by
        rw [← Int.add_emod_right, neg_add_eq_sub]
        exact Int.emod_eq_of_lt (by omega) (by omega)
      rw [minus, show ((base : Int) - 1).toNat + 1 = base by omega, Nat.mod_self]
    rw [carried, borrowed]
    refine ⟨Nat.add_sub_cancel .., ?_, by simp [backLength, lengthL], ?_⟩
    · intro word member
      rcases List.mem_append.mp member with member | member
      · exact fitsBack word member
      · rw [List.mem_singleton.mp member]
        exact positive
    · simp only [Nat.ofDigits_append, Nat.ofDigits_singleton, Nat.mul_zero, Nat.add_zero]
      omega

/-- A digit's window is the next word below what the digits above it left: less than the divisor and a word more. -/
theorem next_window {word : Nat} {rest left : List Nat} (below : word < base) (fitsD : Fits base divisor)
    (nonzero : 0 < ofDigits base divisor) (long : divisor.length ≤ left.length)
    (remainder : ofDigits base left = ofDigits base rest % ofDigits base divisor) :
    ofDigits base (left.take divisor.length) = ofDigits base rest % ofDigits base divisor ∧
      ofDigits base (word :: left.take divisor.length) < ofDigits base divisor * base := by
  have belowR := Nat.mod_lt (ofDigits base rest) nonzero
  have taken : ofDigits base (left.take divisor.length) = ofDigits base rest % ofDigits base divisor := by
    have split := @ofDigits_take_drop base left divisor.length long
    rw [remainder] at split
    have belowV : ofDigits base divisor < base ^ divisor.length := by
      rcases Nat.lt_or_ge 1 base with large | one
      · exact ofDigits_lt large fitsD
      · -- To the base one every word is zero, and so is the divisor.
        have zero : ∀ word ∈ divisor, word = 0 := fun word member => by
          have less := fitsD word member
          omega
        rw [List.eq_replicate_of_mem zero, Nat.ofDigits_replicate_zero] at nonzero
        exact absurd nonzero (lt_irrefl 0)
    have none : ofDigits base (left.drop divisor.length) = 0 := by
      by_contra some
      have whole := Nat.mul_le_mul_left (base ^ divisor.length) (Nat.pos_of_ne_zero some)
      omega
    rw [none, Nat.mul_zero, Nat.add_zero] at split
    exact split.symm
  refine ⟨taken, ?_⟩
  rw [Nat.ofDigits_cons, taken]
  calc
    word + base * (ofDigits base rest % ofDigits base divisor) <
        base * (ofDigits base rest % ofDigits base divisor + 1) := by rw [Nat.mul_add]; omega
    _ ≤ base * ofDigits base divisor := Nat.mul_le_mul_left base belowR
    _ = ofDigits base divisor * base := Nat.mul_comm ..

/-- The digits of the quotient, and the remainder in the last window. -/
theorem divideSteps_spec (two : 2 ≤ divisor.length) (fitsD : Fits base divisor)
    (top : 0 < divisor.getD (divisor.length - 1) 0) (fits : Fits base words) (long : divisor.length ≤ words.length)
    (small : ofDigits base (words.drop (words.length - divisor.length)) < ofDigits base divisor) :
    Fits base (divideSteps base divisor words).1 ∧
      (divideSteps base divisor words).1.length = words.length - divisor.length ∧
      ofDigits base (divideSteps base divisor words).1 = ofDigits base words / ofDigits base divisor ∧
      Fits base (divideSteps base divisor words).2 ∧ divisor.length ≤ (divideSteps base divisor words).2.length ∧
      ofDigits base (divideSteps base divisor words).2 = ofDigits base words % ofDigits base divisor := by
  induction words with
  | nil =>
    rw [List.length_nil] at long
    omega
  | cons word rest ih =>
    rw [divideSteps]
    split
    · next short =>
      have same : (word :: rest).length - divisor.length = 0 := by
        simp at long ⊢
        omega
      rw [same, List.drop_zero] at small
      refine ⟨fits_nil, same.symm, ?_, fits, long, (Nat.mod_eq_of_lt small).symm⟩
      rw [Nat.div_eq_of_lt small]
      rfl
    · next longer =>
      obtain ⟨belowW, fitsR⟩ := fits_cons.mp fits
      have dropped : (word :: rest).length - divisor.length = rest.length - divisor.length + 1 := by
        simp
        omega
      rw [dropped, List.drop_succ_cons] at small
      obtain ⟨fitsQ, lengthQ, quotient, fitsA, lengthA, remainder⟩ := ih fitsR (not_lt.mp longer) small
      generalize divideSteps base divisor rest = above at fitsQ lengthQ quotient fitsA lengthA remainder ⊢
      have nonzero : 0 < ofDigits base divisor := by omega
      obtain ⟨taken, smallW⟩ := next_window belowW fitsD nonzero lengthA remainder
      have window : ofDigits base (word :: above.2.take divisor.length) =
          word + base * (ofDigits base rest % ofDigits base divisor) := by rw [Nat.ofDigits_cons, taken]
      have sized : (word :: above.2.take divisor.length).length = divisor.length + 1 := by simp [lengthA]
      obtain ⟨digit, fitsS, lengthS, left⟩ := divideStep_spec two fitsD top (fits_cons.mpr ⟨belowW, fitsA.take _⟩) sized smallW
      have whole : word + base * ofDigits base rest =
          word + base * (ofDigits base rest % ofDigits base divisor) +
            ofDigits base divisor * (base * (ofDigits base rest / ofDigits base divisor)) := by
        conv_lhs => rw [← Nat.mod_add_div (ofDigits base rest) (ofDigits base divisor)]
        ring
      refine ⟨fits_cons.mpr ⟨?_, fitsQ⟩, ?_, ?_, fitsS, by dsimp only; omega, ?_⟩
      · rw [digit]
        exact Nat.div_lt_of_lt_mul smallW
      · simp only [List.length_cons, lengthQ]
        omega
      · simp only [Nat.ofDigits_cons, digit, quotient]
        rw [taken, whole, Nat.add_mul_div_left _ _ nonzero]
      · dsimp only
        rw [left, window, Nat.ofDigits_cons, whole, Nat.add_mul_mod_self_left]

end MeridianCore.Limbs
