import MeridianCore.AnalyticsEngine.Exact.Big

/-! Long division as the machine does it: in words of 64 bits, each operation answering nothing where it would leave
its word. None does, so what is proved of the division over numbers is true of the machine's. -/

namespace MeridianCore.AnalyticsEngine
open Nat (ofDigits ofDigitChars toDigits)
open Limbs

namespace Big.Machine

/-- What an operation on u64 makes, where it neither overflows nor goes below zero. -/
def u64 (value : Int) : Option Nat := if 0 ≤ value ∧ value < 2 ^ 64 then some value.toNat else none

/-- What an operation on i64 makes, where it does not overflow. -/
def i64 (value : Int) : Option Int := if -2 ^ 63 ≤ value ∧ value < 2 ^ 63 then some value else none

/-- A cast to a limb that is to keep its value. -/
def u32 (value : Nat) : Option Nat := if value < base then some value else none

/-- The loop's condition: a product is made only of a digit below the base. -/
def tooGreat (v2 u0 qhat rhat : Nat) : Option Bool :=
  if base ≤ qhat then some true
  else do
    let product ← u64 (qhat * v2)
    let left ← u64 (rhat * base)
    return decide (left + u0 < product)

/-- The trial digit lowered. -/
def lowerTrial (v1 v2 u0 qhat rhat : Nat) : Option Nat := do
  let great ← tooGreat v2 u0 qhat rhat
  if great then
    match qhat with
    | 0 => none
    | digit + 1 =>
      let rhat ← u64 (rhat + v1)
      if base ≤ rhat then return digit else lowerTrial v1 v2 u0 digit rhat
  else return qhat

/-- A digit times the divisor taken from the limbs there, and the borrow above them. -/
def takeProduct (qhat : Nat) : Int → List Nat → List Nat → Option (List Nat × Int)
  | k, [], _ => some ([], k)
  | k, v :: vn, un => do
    let product ← u64 (qhat * v)
    let less ← i64 (un.headD 0 - k)
    let t ← i64 (less - (product % base : Nat))
    let k ← i64 ((product / base : Nat) - t / base)
    let above ← takeProduct qhat k vn un.tail
    return ((t % base).toNat :: above.1, above.2)

/-- The divisor added back, and the carry above it. -/
def addBack : Nat → List Nat → List Nat → Option (List Nat × Nat)
  | carry, [], _ => some ([], carry)
  | carry, u :: un, vn => do
    let both ← u64 (u + vn.headD 0)
    let sum ← u64 (both + carry)
    let above ← addBack (sum / base) un vn.tail
    return (sum % base :: above.1, above.2)

/-- One digit of a quotient, and what it leaves of the window. -/
def divideStep (vn window : List Nat) : Option (Nat × List Nat) := do
  let n := vn.length
  let top := vn.getD (n - 1) 0
  let numerator ← u64 (window.getD n 0 * base + window.getD (n - 1) 0)
  guard (top ≠ 0)
  let qhat ← lowerTrial top (vn.getD (n - 2) 0) (window.getD (n - 2) 0) (numerator / top) (numerator % top)
  let low ← takeProduct qhat 0 vn window
  let t ← i64 (window.getD n 0 - low.2)
  if t < 0 then
    let qhat ← u64 (qhat - 1)
    let back ← addBack 0 low.1 vn
    let carry ← u32 back.2
    let digit ← u32 qhat
    return (digit, back.1 ++ [((t % base).toNat + carry) % base])
  else
    let digit ← u32 qhat
    return (digit, low.1 ++ [(t % base).toNat])

/-- The quotient's digits from the highest, and the last window. -/
def divideSteps (vn : List Nat) : List Nat → Option (List Nat × List Nat)
  | [] => some ([], [])
  | word :: rest =>
    if rest.length < vn.length then some ([], word :: rest)
    else do
      let above ← divideSteps vn rest
      let digit ← divideStep vn (word :: above.2.take vn.length)
      return (digit.1 :: above.1, digit.2)

def divideMagnitudes (u v : List Nat) : Option (List Nat × List Nat) := do
  let n := v.length
  let shift := leadingZeros (v.getD (n - 1) 0)
  guard (n ≤ u.length ∧ shift < 32)
  let vn := (shiftLeft v shift 0).take n
  let un := (shiftLeft u shift 1).take (u.length + 1)
  let divided ← divideSteps vn un
  let remainder := if shift = 0 then divided.2.take n else (shiftRight shift divided.2).take n
  return (trim divided.1, trim remainder)

/-- The quotient's limbs from the highest, by one limb. -/
def divideByWord (divisor : Nat) : List Nat → Option (List Nat × Nat)
  | [] => some ([], 0)
  | word :: rest => do
    let above ← divideByWord divisor rest
    let current ← u64 (above.2 * base + word)
    guard (divisor ≠ 0)
    let limb ← u32 (current / divisor)
    return (limb :: above.1, current % divisor)

def divideByLimb (a : List Nat) (divisor : Nat) : Option (List Nat × Nat) := do
  let divided ← divideByWord divisor a
  let remainder ← u32 divided.2
  return (trim divided.1, remainder)

/-- The quotient's and the remainder's magnitudes. -/
def divided (big divisor : Big) : Option (List Nat × List Nat) :=
  if compareMagnitudes big.magnitude divisor.magnitude = .lt then some ([], big.magnitude)
  else
    match divisor.magnitude with
    | [limb] => (divideByLimb big.magnitude limb).map fun by_ => (by_.1, if by_.2 = 0 then [] else [by_.2])
    | _ => divideMagnitudes big.magnitude divisor.magnitude

section words

theorem u64_eq {value : Int} {n : Nat} (same : value = n) (below : n < 2 ^ 64) : u64 value = some n := by
  subst same
  rw [u64, if_pos ⟨Int.natCast_nonneg n, by exact_mod_cast below⟩, Int.toNat_natCast]

theorem u64_mul {a b : Nat} (below : a * b < 2 ^ 64) : u64 (a * b) = some (a * b) := u64_eq (Int.natCast_mul a b).symm below

theorem u64_add {a b : Nat} (below : a + b < 2 ^ 64) : u64 (a + b) = some (a + b) := u64_eq (Int.natCast_add a b).symm below

theorem i64_eq {value : Int} (least : -2 ^ 63 ≤ value) (most : value < 2 ^ 63) : i64 value = some value :=
  if_pos ⟨least, most⟩

theorem u32_eq {value : Nat} (below : value < base) : u32 value = some value := if_pos below

theorem base_mul_base : base * base = 2 ^ 64 := by decide

theorem mul_lt {a b : Nat} (belowA : a < base) (belowB : b < base) : a * b < 2 ^ 64 := by
  rw [← base_mul_base]
  exact Nat.mul_lt_mul'' belowA belowB

theorem two_words_lt {a b : Nat} (belowA : a < base) (belowB : b < base) : a * base + b < 2 ^ 64 := by
  have more := Nat.mul_le_mul_right base (Nat.succ_le_of_lt belowA)
  rw [base_mul_base, Nat.succ_mul] at more
  omega

end words

section division
variable {v1 v2 u0 qhat rhat : Nat} {vn un window words : List Nat}

theorem tooGreat_eq (belowV : v2 < base) (belowU : u0 < base) (belowR : rhat < base) :
    tooGreat v2 u0 qhat rhat = some (decide (base ≤ qhat ∨ rhat * base + u0 < qhat * v2)) := by
  unfold tooGreat
  split
  · next large => simp [large]
  · next small =>
    rw [u64_mul (mul_lt (not_le.mp small) belowV), u64_mul (lt_of_le_of_lt (Nat.le_add_right ..) (two_words_lt belowR belowU))]
    simp [small]

/-- The trial digit is lowered without leaving a word. -/
theorem lowerTrial_eq (belowV1 : v1 < base) (belowV2 : v2 < base) (belowU : u0 < base) (belowR : rhat < base) :
    lowerTrial v1 v2 u0 qhat rhat = some (Limbs.lowerTrial base v1 v2 u0 qhat rhat) := by
  have sum (rhat : Nat) (belowR : rhat < base) : u64 (rhat + v1) = some (rhat + v1) :=
    u64_add (lt_trans (Nat.add_lt_add belowR belowV1) (by decide))
  induction qhat, rhat using Limbs.lowerTrial.induct base v1 v2 u0 with
  | case1 qhat rhat lowers large =>
    obtain ⟨digit, rfl⟩ := Nat.exists_eq_succ_of_ne_zero (trial_ne_zero base_pos lowers)
    rw [lowerTrial, tooGreat_eq belowV2 belowU belowR, Limbs.lowerTrial, if_pos lowers, if_pos large]
    simp only [lowers, decide_true, Option.bind_eq_bind, Option.bind_some, if_true, sum rhat belowR, large]
    rfl
  | case2 qhat rhat lowers more ih =>
    obtain ⟨digit, rfl⟩ := Nat.exists_eq_succ_of_ne_zero (trial_ne_zero base_pos lowers)
    rw [lowerTrial, tooGreat_eq belowV2 belowU belowR, Limbs.lowerTrial, if_pos lowers, if_neg more]
    simp only [lowers, decide_true, Option.bind_eq_bind, Option.bind_some, if_true, sum rhat belowR, more, if_false]
    exact ih (not_le.mp more)
  | case3 qhat rhat holds =>
    unfold lowerTrial
    rw [tooGreat_eq belowV2 belowU belowR, Limbs.lowerTrial, if_neg holds]
    simp only [holds, decide_false, Option.bind_eq_bind, Option.bind_some, Bool.false_eq_true, if_false]
    rfl

/-- What is still to take is never less than nothing and never more than the base and one, and so within an i64. -/
theorem takeProduct_eq {k : Int} (below : qhat < base) (fitsV : Fits base vn) (fitsU : Fits base un) (least : 0 ≤ k)
    (most : k ≤ base + 1) : takeProduct qhat k vn un = some (Limbs.takeProduct base qhat k vn un) ∧
      0 ≤ (Limbs.takeProduct base qhat k vn un).2 ∧ (Limbs.takeProduct base qhat k vn un).2 ≤ base + 1 := by
  induction vn generalizing k un with
  | nil => exact ⟨rfl, least, most⟩
  | cons v vn ih =>
    obtain ⟨belowV, fitsV⟩ := fits_cons.mp fitsV
    have belowU := fitsU.headD base_pos
    have wide : (base : Int) = 4294967296 := rfl
    have low : qhat * v % base < base := Nat.mod_lt _ base_pos
    have high : qhat * v / base < base := Nat.div_lt_of_lt_mul (Nat.mul_lt_mul'' below belowV)
    have unsigned := Int.natCast_nonneg (qhat * v / base)
    have product : u64 (qhat * v) = some (qhat * v) := u64_mul (mul_lt below belowV)
    have less : i64 (un.headD 0 - k) = some (un.headD 0 - k) := i64_eq (by omega) (by omega)
    generalize taken : (un.headD 0 : Int) - k - (qhat * v % base : Nat) = t
    have held : i64 t = some t := i64_eq (by omega) (by omega)
    have floor : -2 ≤ t / base ∧ t / base ≤ 0 := by
      rw [wide]
      omega
    have next : i64 ((qhat * v / base : Nat) - t / base) = some ((qhat * v / base : Nat) - t / base) :=
      i64_eq (by omega) (by omega)
    obtain ⟨above, least, most⟩ := @ih un.tail ((qhat * v / base : Nat) - t / base) fitsV fitsU.tail (by omega) (by omega)
    simp only [takeProduct, Limbs.takeProduct, product, Option.bind_eq_bind, Option.bind_some, less, taken, held, next, above]
    exact ⟨rfl, least, most⟩

theorem carry_le {carry u v : Nat} (bit : carry ≤ 1) (belowU : u < base) (belowV : v < base) :
    (u + v + carry) / base ≤ 1 := by
  have wide : base = 4294967296 := rfl
  rw [wide]
  omega

theorem addBack_eq {carry : Nat} (bit : carry ≤ 1) (fitsU : Fits base un) (fitsV : Fits base vn) :
    addBack carry un vn = some (addWords base carry un vn) := by
  induction un generalizing carry vn with
  | nil => rfl
  | cons u un ih =>
    obtain ⟨belowU, fitsU⟩ := fits_cons.mp fitsU
    have belowV := fitsV.headD base_pos
    have wide : base = 4294967296 := rfl
    have both : u64 (u + vn.headD 0) = some (u + vn.headD 0) := u64_add (by omega)
    have sum : u64 ((u + vn.headD 0 : Nat) + carry) = some (u + vn.headD 0 + carry) := u64_add (by omega)
    have above := ih (carry_le bit belowU belowV) fitsU fitsV.tail
    unfold addBack addWords
    rw [both, Option.bind_eq_bind, Option.bind_some, sum, Option.bind_eq_bind, Option.bind_some, above]
    rfl

/-- A digit is put back only where something was to take, and so where it is not zero. -/
theorem divideStep_eq (two : 2 ≤ vn.length) (fitsV : Fits base vn) (top : 0 < vn.getD (vn.length - 1) 0)
    (fitsW : Fits base window) (length : window.length = vn.length + 1)
    (small : ofDigits base window < ofDigits base vn * base) :
    divideStep vn window = some (Limbs.divideStep base vn window) := by
  have numerator : u64 (window.getD vn.length 0 * base + window.getD (vn.length - 1) 0) =
      some (window.getD vn.length 0 * base + window.getD (vn.length - 1) 0) := by
    rw [← Int.natCast_mul]
    exact u64_add (two_words_lt (fitsW.getD base_pos _) (fitsW.getD base_pos _))
  have remainder := lt_trans (Nat.mod_lt (window.getD vn.length 0 * base + window.getD (vn.length - 1) 0) top)
    (fitsV.getD base_pos (vn.length - 1))
  have lowered := @lowerTrial_eq (vn.getD (vn.length - 1) 0) (vn.getD (vn.length - 2) 0) (window.getD (vn.length - 2) 0)
    ((window.getD vn.length 0 * base + window.getD (vn.length - 1) 0) / vn.getD (vn.length - 1) 0) _
    (fitsV.getD base_pos _) (fitsV.getD base_pos _) (fitsW.getD base_pos _) remainder
  unfold divideStep Limbs.divideStep
  dsimp only
  rw [numerator, Option.bind_eq_bind, Option.bind_some, guard, if_pos top.ne', lowered]
  simp only [Option.pure_def, Option.bind_eq_bind, Option.bind_some]
  generalize trial : Limbs.lowerTrial base _ _ _ _ _ = qhat
  obtain ⟨-, -, below⟩ := trial_near two fitsV top fitsW length small trial
  obtain ⟨taken, least, most⟩ := takeProduct_eq below fitsV fitsW (le_refl 0) (by omega)
  obtain ⟨fitsL, lengthL, -⟩ := takeProduct_spec base_pos qhat 0 (show vn.length ≤ window.length by omega)
  have left := takeProduct_window base_pos qhat length
  rw [taken, Option.bind_some]
  generalize Limbs.takeProduct base qhat 0 vn window = low at least most fitsL lengthL left ⊢
  have highest := fitsW.getD base_pos vn.length
  have wide : (base : Int) = 4294967296 := rfl
  have held : i64 (window.getD vn.length 0 - low.2) = some (window.getD vn.length 0 - low.2) := i64_eq (by omega) (by omega)
  rw [held, Option.bind_some]
  generalize (window.getD vn.length 0 - low.2 : Int) = t at left ⊢
  split
  · next negative =>
    have belowL := ofDigits_lt one_lt_base fitsL
    rw [lengthL] at belowL
    have some' : qhat ≠ 0 := by
      rintro rfl
      have power : ((ofDigits base low.1 : Nat) : Int) < (base : Int) ^ vn.length := by exact_mod_cast belowL
      have less := mul_le_mul_of_nonneg_left (show t ≤ -1 by omega) (show 0 ≤ (base : Int) ^ vn.length by positivity)
      rw [Nat.cast_zero, zero_mul, sub_zero] at left
      omega
    have digit : u64 ((qhat : Int) - 1) = some (qhat - 1) := u64_eq (by omega) (by omega)
    rw [digit, Option.bind_some, addBack_eq (Nat.zero_le 1) fitsL fitsV, Option.bind_some,
      u32_eq (lt_of_le_of_lt (carry_addWords base_pos (Nat.zero_le 1) fitsL fitsV) one_lt_base), Option.bind_some,
      u32_eq (show qhat - 1 < base by omega), Option.bind_some]
  · rw [u32_eq below, Option.bind_some]

theorem divideSteps_eq (two : 2 ≤ vn.length) (fitsV : Fits base vn) (top : 0 < vn.getD (vn.length - 1) 0)
    (fits : Fits base words) (long : vn.length ≤ words.length)
    (small : ofDigits base (words.drop (words.length - vn.length)) < ofDigits base vn) :
    divideSteps vn words = some (Limbs.divideSteps base vn words) := by
  induction words with
  | nil => rfl
  | cons word rest ih =>
    rw [divideSteps, Limbs.divideSteps]
    split
    · rfl
    · next longer =>
      obtain ⟨belowW, fitsR⟩ := fits_cons.mp fits
      have dropped : (word :: rest).length - vn.length = rest.length - vn.length + 1 := by
        simp
        omega
      rw [dropped, List.drop_succ_cons] at small
      obtain ⟨-, -, -, fitsA, lengthA, remainder⟩ := divideSteps_spec two fitsV top fitsR (not_lt.mp longer) small
      obtain ⟨-, smallW⟩ := next_window belowW fitsV (by omega) lengthA remainder
      rw [ih fitsR (not_lt.mp longer) small, Option.bind_eq_bind, Option.bind_some,
        divideStep_eq two fitsV top (fits_cons.mpr ⟨belowW, fitsA.take _⟩) (by simp [lengthA]) smallW, Option.bind_eq_bind,
        Option.bind_some]
      rfl

theorem divideMagnitudes_eq {u v : List Nat} (fitsU : Fits base u) (fitsV : Fits base v) (trimmed : Trimmed v)
    (two : 2 ≤ v.length) (longer : v.length ≤ u.length) :
    divideMagnitudes u v = some (Big.divideMagnitudes u v) := by
  have some' : v ≠ [] := by
    rintro rfl
    simp at two
  have whole := normalised fitsU fitsV trimmed some' longer
  unfold divideMagnitudes Big.divideMagnitudes
  dsimp only
  rw [guard, if_pos ⟨longer, whole.inside⟩, divideSteps_eq (by rw [whole.lengthVn]; exact two) whole.fitsVn whole.topVn
    whole.fitsUn (by rw [whole.lengthVn, whole.lengthUn]; omega) whole.small]
  rfl

/-- Of one limb, what is left is below the divisor. -/
theorem divideByWord_eq {divisor : Nat} (positive : 0 < divisor) (below : divisor < base) (fits : Fits base words) :
    divideByWord divisor words = some (Limbs.divideByWord base divisor words) := by
  induction words with
  | nil => rfl
  | cons word rest ih =>
    obtain ⟨belowW, fits⟩ := fits_cons.mp fits
    have remainder := (divideByWord_spec positive fits).2
    have current : u64 ((Limbs.divideByWord base divisor rest).2 * base + word) =
        some ((Limbs.divideByWord base divisor rest).2 * base + word) := by
      rw [← Int.natCast_mul]
      exact u64_add (two_words_lt (lt_trans remainder below) belowW)
    have limb : ((Limbs.divideByWord base divisor rest).2 * base + word) / divisor < base := by
      refine Nat.div_lt_of_lt_mul ?_
      have more := Nat.mul_le_mul_right base (Nat.succ_le_of_lt remainder)
      rw [Nat.succ_mul] at more
      omega
    rw [divideByWord, ih fits, Option.bind_eq_bind, Option.bind_some, current, Option.bind_eq_bind, Option.bind_some, guard,
      if_pos positive.ne', u32_eq limb]
    rfl

theorem divideByLimb_eq {divisor : Nat} (positive : 0 < divisor) (below : divisor < base) (fits : Fits base words) :
    divideByLimb words divisor = some (Big.divideByLimb words divisor) := by
  have remainder := lt_trans (divideByWord_spec positive fits).2 below
  rw [divideByLimb, divideByWord_eq positive below fits, Option.bind_eq_bind, Option.bind_some, u32_eq remainder]
  rfl

/-- Every division by a divisor that is not zero is one the machine makes. -/
theorem divided_eq (big : Big) {divisor : Big} (nonzero : divisor.isZero = false) :
    divided big divisor = some (Big.divided big divisor) := by
  unfold divided Big.divided
  split
  · rfl
  · next more =>
    split
    · next limb single =>
      have fits := divisor.fits
      rw [single] at fits
      have positive : 0 < limb := by
        refine Nat.pos_of_ne_zero ?_
        rintro rfl
        have trimmed := divisor.trimmed
        rw [single] at trimmed
        exact trimmed rfl
      rw [divideByLimb_eq positive (fits_cons.mp fits).1 big.fits]
      simp only [single]
      rfl
    · next longer =>
      have same := divideMagnitudes_eq big.fits divisor.fits divisor.trimmed (two_of_longer nonzero longer) (longer_of_more more)
      first
        | exact same
        | split
          · next limb single => exact (longer limb single).elim
          · exact same

end division

end Big.Machine

namespace Big

/-- Limbs normalized: each below the base, and no high one zero. -/
structure Normal (words : List Nat) : Prop where
  fits : Fits base words
  trimmed : Trimmed words

/-- A magnitude divided by one of two limbs or more, no operation leaving its word. -/
def DividesLong (u v : List Nat) : Prop :=
  ∃ q r, Machine.divideMagnitudes u v = some (q, r) ∧ divideMagnitudes u v = (q, r) ∧ Normal q ∧ Normal r ∧
    ofDigits base u = ofDigits base q * ofDigits base v + ofDigits base r ∧ ofDigits base r < ofDigits base v

/-- A value divided by a positive one, rounded down. -/
def DividesFloor (a b : Big) (positive : b.negative = false ∧ b.isZero = false) : Prop :=
  Machine.divided a b = some (divided a b) ∧
    a.value = (divmodFloor a b positive).1.value * b.value + (divmodFloor a b positive).2.value ∧
    0 ≤ (divmodFloor a b positive).2.value ∧ (divmodFloor a b positive).2.value < b.value

theorem dividesLong {u v : List Nat} (normalU : Normal u) (normalV : Normal v) (two : 2 ≤ v.length)
    (less : ofDigits base v ≤ ofDigits base u) : DividesLong u v := by
  have some' : v ≠ [] := by
    rintro rfl
    simp at two
  have positive : 0 < ofDigits base v := lt_of_lt_of_le (Nat.pow_pos base_pos) (pow_le_ofDigits normalV.trimmed some')
  have longer : v.length ≤ u.length := by
    by_contra shorter
    have more := ofDigits_lt_of_length one_lt_base normalU.fits normalV.trimmed (not_le.mp shorter)
    omega
  obtain ⟨fitsQ, fitsR, quotient, remainder⟩ := divideMagnitudes_spec normalU.fits normalV.fits normalV.trimmed two longer
  refine ⟨(divideMagnitudes u v).1, (divideMagnitudes u v).2, Machine.divideMagnitudes_eq normalU.fits normalV.fits normalV.trimmed two longer, rfl,
    ⟨fitsQ, trimmed_trim _⟩, ⟨fitsR, trimmed_trim _⟩, ?_, ?_⟩
  · calc
      ofDigits base u = ofDigits base v * (ofDigits base u / ofDigits base v) + ofDigits base u % ofDigits base v :=
        (Nat.div_add_mod _ _).symm
      _ = _ := by rw [← quotient, ← remainder, Nat.mul_comm]
  · rw [remainder]
    exact Nat.mod_lt _ positive

theorem dividesFloor (a b : Big) (positive : b.negative = false ∧ b.isZero = false) : DividesFloor a b positive := by
  have above := divisor_positive positive
  obtain ⟨quotient, remainder⟩ := divmodFloor_spec a positive
  refine ⟨Machine.divided_eq a positive.2, ?_, ?_, ?_⟩
  · rw [quotient, remainder, Int.mul_comm]
    exact (Int.mul_ediv_add_emod a.value b.value).symm
  · rw [remainder]
    exact Int.emod_nonneg _ above.ne'
  · rw [remainder]
    exact Int.emod_lt_of_pos _ above

/-- A value's digits are read as its magnitude. -/
theorem fromDigits_magnitudeDigits (big : Big) : fromDigits big.magnitudeDigits = some big.abs := by
  have all : big.magnitudeDigits.all Char.isDigit = true := by
    rw [magnitudeDigits_eq]
    exact List.all_eq_true.mpr fun _ => digit_of_toDigits
  have some' : big.magnitudeDigits ≠ [] := by
    rw [magnitudeDigits_eq]
    exact Nat.toDigits_ne_nil
  obtain ⟨read, found, value⟩ := fromDigits_eq some' all
  rw [found]
  refine congrArg some (value_inj ?_)
  rw [value, value_abs, magnitudeDigits_eq, Nat.ofDigitChars_ten_toDigits, Int.abs_eq_natAbs]

/-- What is read of digits has them for its own, but for the zeros before them. -/
theorem magnitudeDigits_fromDigits {digits : List Char} {big : Big} (read : fromDigits digits = some big) :
    big.negative = false ∧ big.magnitudeDigits = significant digits := by
  have refused : ¬ (digits.isEmpty ∨ ¬ digits.all Char.isDigit) := by
    intro refused
    rw [fromDigits, if_pos refused] at read
    cases read
  push Not at refused
  obtain ⟨found, same, value⟩ := fromDigits_eq (fun empty => refused.1 (List.isEmpty_iff.mpr empty)) refused.2
  rw [read] at same
  cases same
  constructor
  · refine Bool.eq_false_iff.mpr fun negative => ?_
    have below := (negative_iff big).mp negative
    omega
  · rw [magnitudeDigits_eq, value, Int.natAbs_natCast, toDigits_ofDigitChars refused.2]

/-- Long division divides, in words it never leaves; so does floor division; and a value's digits and the reading
of digits undo each other. -/
theorem long_division_divides :
    (∀ u v, Normal u → Normal v → 2 ≤ v.length → ofDigits base v ≤ ofDigits base u → DividesLong u v) ∧
      (∀ a b positive, DividesFloor a b positive) ∧ (∀ big : Big, fromDigits big.magnitudeDigits = some big.abs) ∧
      ∀ digits big, fromDigits digits = some big → big.negative = false ∧ big.magnitudeDigits = significant digits :=
  ⟨fun _ _ normalU normalV two less => dividesLong normalU normalV two less, dividesFloor, fromDigits_magnitudeDigits,
    fun _ _ read => magnitudeDigits_fromDigits read⟩

/-- Here the trial digit is one more than the quotient, and the divisor is added back. -/
theorem long_division_puts_back :
    DividesLong [0, 0, 2 ^ 31, 2 ^ 31 - 1] [1, 0, 2 ^ 31] ∧ fromDigits ['0', '7'] = some (fromU128 7) ∧
      significant ['0', '7'] = ['7'] :=
  ⟨long_division_divides.1 _ _ ⟨by simp [Fits, base], by simp [Trimmed]⟩ ⟨by simp [Fits, base], by simp [Trimmed]⟩ (by decide)
    (by decide +kernel), by decide +kernel, by decide⟩

end Big

end MeridianCore.AnalyticsEngine
