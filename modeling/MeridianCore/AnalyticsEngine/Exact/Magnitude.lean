import MeridianCore.Limbs.Division

namespace MeridianCore.AnalyticsEngine
open Nat (ofDigits)
open Limbs

namespace Big

/-- What a 32-bit limb counts to. -/
def base : Nat := 2 ^ 32

theorem base_pos : 0 < base := by decide

theorem one_lt_base : 1 < base := by decide

/-- A value's limbs. -/
def magnitudeOf (value : Nat) : List Nat := base.digits value

def addMagnitudes (a b : List Nat) : List Nat :=
  let sum := if b.length ≤ a.length then addWords base 0 a b else addWords base 0 b a
  if sum.2 ≠ 0 then sum.1 ++ [sum.2] else sum.1

/-- The difference of a magnitude and one no greater. -/
def subtractMagnitudes (a b : List Nat) : List Nat := trim (subtractWords base 0 a b).1

def multiplyMagnitudes (a b : List Nat) : List Nat :=
  if a.isEmpty ∨ b.isEmpty then [] else trim (multiplyWords base a b (List.replicate b.length 0))

/-- The quotient and remainder by one limb. -/
def divideByLimb (a : List Nat) (divisor : Nat) : List Nat × Nat :=
  let divided := divideByWord base divisor a
  (trim divided.1, divided.2)

/-- A limb's high bits that are zero. -/
def leadingZeros (limb : Nat) : Nat := if limb = 0 then 32 else 31 - limb.log2

/-- Limbs shifted up by fewer bits than a limb has, and what the last one carries. -/
def shiftWords (bits : Nat) : Nat → List Nat → List Nat × Nat
  | carry, [] => ([], carry)
  | carry, x :: rest =>
    let above := shiftWords bits (x >>> (32 - bits)) rest
    (((x <<< bits) % base ||| carry) :: above.1, above.2)

/-- Limbs cut or filled with zeros to a length. -/
def resize (words : List Nat) (length : Nat) : List Nat :=
  words.take length ++ List.replicate (length - words.length) 0

def shiftLeft (a : List Nat) (bits extra : Nat) : List Nat :=
  if bits = 0 then resize a (a.length + extra)
  else
    let shifted := shiftWords bits 0 a
    resize (shifted.1 ++ [shifted.2]) (a.length + max extra 1)

/-- Limbs shifted down by fewer bits than a limb has. -/
def shiftRight (bits : Nat) : List Nat → List Nat
  | [] => []
  | x :: rest => (x >>> bits ||| (rest.headD 0 <<< (32 - bits)) % base) :: shiftRight bits rest

/-- Knuth's algorithm D: the quotient and remainder of `u` by `v`, `v` of two limbs or more and `u >= v`. -/
def divideMagnitudes (u v : List Nat) : List Nat × List Nat :=
  let n := v.length
  let shift := leadingZeros (v.getD (n - 1) 0)
  let vn := (shiftLeft v shift 0).take n
  let un := (shiftLeft u shift 1).take (u.length + 1)
  let divided := divideSteps base vn un
  let remainder := if shift = 0 then divided.2.take n else (shiftRight shift divided.2).take n
  (trim divided.1, trim remainder)

variable {a b words : List Nat}

section values

theorem fits_magnitudeOf (value : Nat) : Fits base (magnitudeOf value) := fun _ member =>
  Nat.digits_lt_base one_lt_base member

theorem ofDigits_magnitudeOf (value : Nat) : ofDigits base (magnitudeOf value) = value := Nat.ofDigits_digits base value

theorem trimmed_magnitudeOf (value : Nat) : Trimmed (magnitudeOf value) := by
  intro last
  have some : magnitudeOf value ≠ [] := by
    intro empty
    rw [empty] at last
    cases last
  have nonzero : value ≠ 0 := by
    rintro rfl
    exact some (Nat.digits_zero base)
  refine Nat.getLast_digit_ne_zero base nonzero ?_
  have same := List.getLast?_eq_getLast_of_ne_nil some
  rw [last] at same
  exact (Option.some.inj same).symm

theorem fits_append_single {word : Nat} (fits : Fits base words) (below : word < base) : Fits base (words ++ [word]) := by
  intro each member
  rcases List.mem_append.mp member with member | member
  · exact fits each member
  · rwa [List.mem_singleton.mp member]

theorem ofDigits_append_single (words : List Nat) (word : Nat) :
    ofDigits base (words ++ [word]) = ofDigits base words + base ^ words.length * word := by
  rw [Nat.ofDigits_append, Nat.ofDigits_singleton]

theorem addMagnitudes_spec (fitsA : Fits base a) (fitsB : Fits base b) :
    Fits base (addMagnitudes a b) ∧ ofDigits base (addMagnitudes a b) = ofDigits base a + ofDigits base b := by
  have added {long short : List Nat} (shorter : short.length ≤ long.length) (fitsL : Fits base long) (fitsS : Fits base short) :
      Fits base (if (addWords base 0 long short).2 ≠ 0 then (addWords base 0 long short).1 ++ [(addWords base 0 long short).2]
          else (addWords base 0 long short).1) ∧
        ofDigits base (if (addWords base 0 long short).2 ≠ 0 then
            (addWords base 0 long short).1 ++ [(addWords base 0 long short).2] else (addWords base 0 long short).1) =
          ofDigits base long + ofDigits base short := by
    have sum := @ofDigits_addWords base 0 long short shorter
    have fits := fits_addWords base_pos 0 long short
    have bit := carry_addWords base_pos (Nat.zero_le 1) fitsL fitsS
    have length := @length_addWords base 0 long short
    split
    · refine ⟨fits_append_single fits (lt_of_le_of_lt bit one_lt_base), ?_⟩
      rw [ofDigits_append_single, length]
      exact sum
    · next none =>
      refine ⟨fits, ?_⟩
      rw [not_not.mp none, Nat.mul_zero, Nat.add_zero, Nat.add_zero] at sum
      exact sum
  unfold addMagnitudes
  dsimp only
  by_cases longer : b.length ≤ a.length
  · simp only [if_pos longer]
    exact added longer fitsA fitsB
  · simp only [if_neg longer]
    rw [Nat.add_comm]
    exact added (by omega) fitsB fitsA

theorem fits_subtractMagnitudes (fitsA : Fits base a) (fitsB : Fits base b) : Fits base (subtractMagnitudes a b) :=
  fits_trim (fits_subtractWords base_pos (Nat.zero_le 1) fitsA fitsB)

theorem subtractMagnitudes_spec (fitsA : Fits base a) (fitsB : Fits base b) (trimmed : Trimmed b)
    (less : ofDigits base b ≤ ofDigits base a) :
    Fits base (subtractMagnitudes a b) ∧
      ofDigits base (subtractMagnitudes a b) + ofDigits base b = ofDigits base a := by
  have shorter : b.length ≤ a.length := by
    by_contra longer
    have more := ofDigits_lt_of_length one_lt_base fitsA trimmed (not_le.mp longer)
    omega
  obtain ⟨fits, last, value⟩ := subtractWords_spec base_pos shorter (Nat.zero_le 1) fitsA fitsB
  have below := ofDigits_lt one_lt_base fits
  rw [length_subtractWords] at below
  have none : (subtractWords base 0 a b).2 = 0 := by
    rcases Nat.le_one_iff_eq_zero_or_eq_one.mp last with zero | one
    · exact zero
    · rw [one, Nat.mul_one] at value
      omega
  refine ⟨fits_trim fits, ?_⟩
  rw [subtractMagnitudes, ofDigits_trim]
  rw [none, Nat.mul_zero, Nat.add_zero, Nat.add_zero] at value
  exact value

theorem fits_replicate (length : Nat) : Fits base (List.replicate length 0) := by
  intro word member
  rw [List.eq_of_mem_replicate member]
  exact base_pos

theorem multiplyMagnitudes_spec (fitsA : Fits base a) (fitsB : Fits base b) :
    Fits base (multiplyMagnitudes a b) ∧ ofDigits base (multiplyMagnitudes a b) = ofDigits base a * ofDigits base b := by
  unfold multiplyMagnitudes
  split
  · next empty =>
    refine ⟨fits_nil, ?_⟩
    rcases empty with empty | empty
    · simp [List.isEmpty_iff.mp empty]
    · simp [List.isEmpty_iff.mp empty]
  · obtain ⟨fits, -, value⟩ := multiplyWords_spec base_pos (List.length_replicate ..) fitsA fitsB (fits_replicate b.length)
    refine ⟨fits_trim fits, ?_⟩
    rw [ofDigits_trim, value, Nat.ofDigits_replicate_zero, Nat.add_zero]

theorem divideByLimb_spec {divisor : Nat} (positive : 0 < divisor) (fits : Fits base a) :
    Fits base (divideByLimb a divisor).1 ∧ ofDigits base (divideByLimb a divisor).1 = ofDigits base a / divisor ∧
      (divideByLimb a divisor).2 = ofDigits base a % divisor := by
  obtain ⟨fitsQ, remainder⟩ := divideByWord_spec positive fits
  have value : (divideByWord base divisor a).2 + divisor * ofDigits base (divideByWord base divisor a).1 = ofDigits base a := by
    rw [Nat.add_comm, Nat.mul_comm]
    exact ofDigits_divideByWord divisor a
  have both := (Nat.div_mod_unique positive).mpr ⟨value, remainder⟩
  refine ⟨fits_trim fitsQ, ?_, both.2.symm⟩
  rw [divideByLimb, ofDigits_trim]
  exact both.1.symm

end values

section shifts
variable {bits : Nat}

/-- A limb and the bits carried into it, joined: they overlap nowhere. -/
theorem shifted_word {x carry : Nat} (inside : bits ≤ 32) (below : x < base) (carried : carry < 2 ^ bits) :
    (x <<< bits) % base ||| carry = (x * 2 ^ bits + carry) % base ∧ x >>> (32 - bits) = (x * 2 ^ bits + carry) / base := by
  have split : base = 2 ^ bits * 2 ^ (32 - bits) := by
    rw [← pow_add, show bits + (32 - bits) = 32 by omega]
    rfl
  have low : (x <<< bits) % base = 2 ^ bits * (x % 2 ^ (32 - bits)) := by
    rw [Nat.shiftLeft_eq, split, Nat.mul_comm x, Nat.mul_mod_mul_left]
  constructor
  · rw [low, ← Nat.two_pow_add_eq_or_of_lt carried, split, Nat.mod_mul, Nat.add_comm (x * 2 ^ bits),
      Nat.add_mul_mod_self_right, Nat.add_mul_div_right _ _ (Nat.two_pow_pos bits), Nat.mod_eq_of_lt carried,
      Nat.div_eq_of_lt carried, Nat.zero_add, Nat.add_comm]
  · rw [Nat.shiftRight_eq_div_pow, split, ← Nat.div_div_eq_div_mul, Nat.add_comm, Nat.add_mul_div_right _ _ (Nat.two_pow_pos bits),
      Nat.div_eq_of_lt carried, Nat.zero_add]

theorem shiftWords_eq {carry : Nat} (inside : bits ≤ 32) (fits : Fits base words) (carried : carry < 2 ^ bits) :
    shiftWords bits carry words = scaleWords base (2 ^ bits) carry words := by
  induction words generalizing carry with
  | nil => rfl
  | cons x rest ih =>
    obtain ⟨below, fits⟩ := fits_cons.mp fits
    obtain ⟨word, carry'⟩ := shifted_word inside below carried
    have next : (x * 2 ^ bits + carry) / base < 2 ^ bits := by
      rw [Nat.div_lt_iff_lt_mul base_pos]
      calc
        x * 2 ^ bits + carry < (x + 1) * 2 ^ bits := by rw [Nat.add_mul]; omega
        _ ≤ base * 2 ^ bits := Nat.mul_le_mul_right _ below
        _ = 2 ^ bits * base := Nat.mul_comm ..
    simp only [shiftWords, scaleWords]
    rw [word, carry', ih fits next]

theorem resize_spec {length : Nat} (fits : Fits base words) (inside : words.length ≤ length) :
    Fits base (resize words length) ∧ (resize words length).length = length ∧
      ofDigits base (resize words length) = ofDigits base words := by
  unfold resize
  rw [List.take_of_length_le inside]
  refine ⟨?_, by simp; omega, by rw [Nat.ofDigits_append, Nat.ofDigits_replicate_zero, Nat.mul_zero, Nat.add_zero]⟩
  intro word member
  rcases List.mem_append.mp member with member | member
  · exact fits word member
  · exact fits_replicate _ word member

/-- The dividend shifted up has one limb more. -/
theorem shiftLeft_dividend (inside : bits < 32) (fits : Fits base a) :
    Fits base ((shiftLeft a bits 1).take (a.length + 1)) ∧ ((shiftLeft a bits 1).take (a.length + 1)).length = a.length + 1 ∧
      ofDigits base ((shiftLeft a bits 1).take (a.length + 1)) = ofDigits base a * 2 ^ bits := by
  unfold shiftLeft
  split
  · next none =>
    obtain ⟨fits, length, value⟩ := resize_spec fits (show a.length ≤ a.length + 1 by omega)
    rw [List.take_of_length_le length.le]
    exact ⟨fits, length, by rw [value, none, pow_zero, Nat.mul_one]⟩
  · have same := @shiftWords_eq a bits 0 inside.le fits (Nat.two_pow_pos bits)
    have value := @ofDigits_scaleWords base (2 ^ bits) 0 a
    have length := @length_scaleWords base (2 ^ bits) 0 a
    have carried := carry_scaleWords (Nat.two_pow_pos bits) fits
    have fitsS := fits_scaleWords base_pos (2 ^ bits) 0 a
    rw [← same] at value length carried fitsS
    have below : (shiftWords bits 0 a).2 < base := lt_trans carried (Nat.pow_lt_pow_right (by decide) inside)
    obtain ⟨fitsR, lengthR, valueR⟩ := resize_spec (fits_append_single fitsS below)
      (show ((shiftWords bits 0 a).1 ++ [(shiftWords bits 0 a).2]).length ≤ a.length + 1 by simp [length])
    dsimp only
    rw [Nat.max_self, List.take_of_length_le lengthR.le]
    refine ⟨fitsR, lengthR, ?_⟩
    rw [valueR, ofDigits_append_single, length]
    exact value

/-- The divisor shifted up by its zero high bits has no limb more. -/
theorem shiftLeft_divisor (inside : bits < 32) (fits : Fits base a) (room : ofDigits base a * 2 ^ bits < base ^ a.length) :
    Fits base ((shiftLeft a bits 0).take a.length) ∧ ((shiftLeft a bits 0).take a.length).length = a.length ∧
      ofDigits base ((shiftLeft a bits 0).take a.length) = ofDigits base a * 2 ^ bits := by
  unfold shiftLeft
  split
  · next none =>
    obtain ⟨fits, length, value⟩ := resize_spec fits (le_refl a.length)
    rw [Nat.add_zero, List.take_of_length_le length.le]
    exact ⟨fits, length, by rw [value, none, pow_zero, Nat.mul_one]⟩
  · have same := @shiftWords_eq a bits 0 inside.le fits (Nat.two_pow_pos bits)
    have value := @ofDigits_scaleWords base (2 ^ bits) 0 a
    have length := @length_scaleWords base (2 ^ bits) 0 a
    have fitsS := fits_scaleWords base_pos (2 ^ bits) 0 a
    rw [← same] at value length fitsS
    have taken : (resize ((shiftWords bits 0 a).1 ++ [(shiftWords bits 0 a).2]) (a.length + max 0 1)).take a.length =
        (shiftWords bits 0 a).1 := by
      unfold resize
      rw [List.take_of_length_le (show _ ≤ a.length + max 0 1 by simp [length]), List.append_assoc,
        List.take_append_of_le_length length.ge, List.take_of_length_le length.le]
    dsimp only
    rw [taken]
    refine ⟨fitsS, length, ?_⟩
    have none : (shiftWords bits 0 a).2 = 0 := by
      by_contra some
      have more := Nat.mul_le_mul_left (base ^ a.length) (Nat.pos_of_ne_zero some)
      omega
    rw [none, Nat.mul_zero, Nat.add_zero, Nat.add_zero] at value
    exact value

/-- A limb's low bits dropped, and those of the limb above it joined. -/
theorem ofDigits_shiftRight (inside : bits < 32) (fits : Fits base words) :
    ofDigits base (shiftRight bits words) = ofDigits base words / 2 ^ bits := by
  induction words with
  | nil => simp [shiftRight]
  | cons x rest ih =>
    obtain ⟨below, fits⟩ := fits_cons.mp fits
    have split : base = 2 ^ bits * 2 ^ (32 - bits) := by
      rw [← pow_add, show bits + (32 - bits) = 32 by omega]
      rfl
    have high : (rest.headD 0 <<< (32 - bits)) % base = 2 ^ (32 - bits) * (rest.headD 0 % 2 ^ bits) := by
      rw [Nat.shiftLeft_eq, split, Nat.mul_comm (2 ^ bits), Nat.mul_comm (rest.headD 0), Nat.mul_mod_mul_left]
    have small : x / 2 ^ bits < 2 ^ (32 - bits) := by
      rw [Nat.div_lt_iff_lt_mul (Nat.two_pow_pos bits), Nat.mul_comm, ← split]
      exact below
    have word : (x >>> bits ||| (rest.headD 0 <<< (32 - bits)) % base) =
        2 ^ (32 - bits) * (rest.headD 0 % 2 ^ bits) + x / 2 ^ bits := by
      rw [high, Nat.shiftRight_eq_div_pow, Nat.or_comm, ← Nat.two_pow_add_eq_or_of_lt small]
    have same : rest.headD 0 % 2 ^ bits = ofDigits base rest % 2 ^ bits := by
      rw [← ofDigits_headD rest, split, Nat.mul_assoc, Nat.add_mul_mod_self_left]
    have whole := Nat.mod_add_div (ofDigits base rest) (2 ^ bits)
    simp only [shiftRight, Nat.ofDigits_cons]
    rw [word, same, ih fits]
    generalize ofDigits base rest = R at whole
    have scaled : base * R = 2 ^ bits * (2 ^ (32 - bits) * R) := by rw [← Nat.mul_assoc, ← split]
    rw [scaled, Nat.add_mul_div_left _ _ (Nat.two_pow_pos bits)]
    linear_combination 2 ^ (32 - bits) * whole + (R / 2 ^ bits) * split

theorem length_shiftRight (bits : Nat) (words : List Nat) : (shiftRight bits words).length = words.length := by
  induction words with
  | nil => rfl
  | cons x rest ih => simp [shiftRight, ih]

theorem fits_shiftRight (fits : Fits base words) : Fits base (shiftRight bits words) := by
  induction words with
  | nil => exact fits_nil
  | cons x rest ih =>
    obtain ⟨below, fits⟩ := fits_cons.mp fits
    refine fits_cons.mpr ⟨?_, ih fits⟩
    refine Nat.or_lt_two_pow ?_ (Nat.mod_lt _ base_pos)
    rw [Nat.shiftRight_eq_div_pow]
    exact lt_of_le_of_lt (Nat.div_le_self ..) below

theorem leadingZeros_lt {limb : Nat} (positive : 0 < limb) (below : limb < base) :
    leadingZeros limb < 32 ∧ (limb + 1) * 2 ^ leadingZeros limb ≤ base := by
  have above : limb < 2 ^ (limb.log2 + 1) := Nat.lt_log2_self
  have within : limb.log2 ≤ 31 := by
    have fits := (Nat.log2_lt (by omega)).mpr below
    omega
  unfold leadingZeros
  rw [if_neg (by omega)]
  have whole : 2 ^ (limb.log2 + 1) * 2 ^ (31 - limb.log2) = base := by
    rw [← pow_add, show limb.log2 + 1 + (31 - limb.log2) = 32 by omega]
    rfl
  refine ⟨by omega, ?_⟩
  rw [← whole]
  exact Nat.mul_le_mul_right _ above

end shifts

/-- A magnitude's highest limb, and those below it. -/
theorem ofDigits_top (fits : Fits base words) (some : words ≠ []) :
    ofDigits base words = ofDigits base (words.take (words.length - 1)) +
        base ^ (words.length - 1) * words.getD (words.length - 1) 0 ∧
      ofDigits base (words.take (words.length - 1)) < base ^ (words.length - 1) := by
  have long := List.length_pos_iff.mpr some
  refine ⟨?_, ofDigits_take_lt one_lt_base fits (Nat.sub_le ..)⟩
  rw [ofDigits_take_drop (Nat.sub_le words.length 1), ofDigits_drop words, List.drop_of_length_le (by omega),
    Nat.ofDigits_nil, Nat.mul_zero, Nat.add_zero]

/-- A dividend and a divisor shifted up until the divisor's highest bit is its highest limb's. -/
structure Normalised (u v vn un : List Nat) (shift : Nat) : Prop where
  inside : shift < 32
  fitsVn : Fits base vn
  lengthVn : vn.length = v.length
  valueVn : ofDigits base vn = ofDigits base v * 2 ^ shift
  fitsUn : Fits base un
  lengthUn : un.length = u.length + 1
  valueUn : ofDigits base un = ofDigits base u * 2 ^ shift
  topVn : 0 < vn.getD (vn.length - 1) 0
  small : ofDigits base (un.drop (un.length - vn.length)) < ofDigits base vn

theorem normalised {u v : List Nat} (fitsU : Fits base u) (fitsV : Fits base v) (trimmed : Trimmed v) (some : v ≠ [])
    (longer : v.length ≤ u.length) :
    Normalised u v ((shiftLeft v (leadingZeros (v.getD (v.length - 1) 0)) 0).take v.length)
      ((shiftLeft u (leadingZeros (v.getD (v.length - 1) 0)) 1).take (u.length + 1)) (leadingZeros (v.getD (v.length - 1) 0)) := by
  have long := List.length_pos_iff.mpr some
  have least : base ^ (v.length - 1) ≤ ofDigits base v := pow_le_ofDigits trimmed some
  obtain ⟨split, low⟩ := ofDigits_top fitsV some
  have top : 0 < v.getD (v.length - 1) 0 := by
    refine Nat.pos_of_ne_zero fun zero => ?_
    rw [zero, Nat.mul_zero] at split
    omega
  obtain ⟨inside, room⟩ := leadingZeros_lt top (fitsV.getD base_pos (v.length - 1))
  have power : base ^ v.length = base ^ (v.length - 1) * base := by
    rw [← pow_succ, Nat.sub_add_cancel (by omega)]
  have within : ofDigits base v * 2 ^ leadingZeros (v.getD (v.length - 1) 0) < base ^ v.length := by
    calc
      _ < base ^ (v.length - 1) * (v.getD (v.length - 1) 0 + 1) * 2 ^ leadingZeros (v.getD (v.length - 1) 0) := by
        refine Nat.mul_lt_mul_of_pos_right ?_ (Nat.two_pow_pos _)
        rw [split, Nat.mul_add, Nat.mul_one]
        omega
      _ ≤ base ^ (v.length - 1) * base := by
        rw [Nat.mul_assoc]
        exact Nat.mul_le_mul_left _ room
      _ = base ^ v.length := power.symm
  generalize leadingZeros (v.getD (v.length - 1) 0) = shift at inside within ⊢
  obtain ⟨fitsVn, lengthVn, valueVn⟩ := shiftLeft_divisor inside fitsV within
  obtain ⟨fitsUn, lengthUn, valueUn⟩ := shiftLeft_dividend inside fitsU
  generalize (shiftLeft v shift 0).take v.length = vn at fitsVn lengthVn valueVn ⊢
  generalize (shiftLeft u shift 1).take (u.length + 1) = un at fitsUn lengthUn valueUn ⊢
  have positive := Nat.two_pow_pos shift
  have leastVn : base ^ (v.length - 1) * 2 ^ shift ≤ ofDigits base vn := by
    rw [valueVn]
    exact Nat.mul_le_mul_right _ least
  refine ⟨inside, fitsVn, lengthVn, valueVn, fitsUn, lengthUn, valueUn, ?_, ?_⟩
  · refine Nat.pos_of_ne_zero fun zero => ?_
    have someVn : vn ≠ [] := by
      rintro rfl
      rw [List.length_nil] at lengthVn
      omega
    obtain ⟨splitVn, lowVn⟩ := ofDigits_top fitsVn someVn
    rw [zero, Nat.mul_zero, Nat.add_zero] at splitVn
    rw [← splitVn, lengthVn] at lowVn
    have one := Nat.mul_le_mul_left (base ^ (v.length - 1)) (Nat.succ_le_of_lt positive)
    omega
  · refine lt_of_lt_of_le (Nat.lt_of_mul_lt_mul_left (a := base ^ (un.length - vn.length)) ?_) leastVn
    have parts := @ofDigits_take_drop base un (un.length - vn.length) (Nat.sub_le ..)
    have most := ofDigits_lt one_lt_base fitsU
    have powers : base ^ u.length = base ^ (un.length - vn.length) * base ^ (v.length - 1) := by
      rw [← pow_add]
      congr 1
      omega
    calc
      _ ≤ ofDigits base u * 2 ^ shift := by omega
      _ < base ^ u.length * 2 ^ shift := Nat.mul_lt_mul_of_pos_right most positive
      _ = base ^ (un.length - vn.length) * (base ^ (v.length - 1) * 2 ^ shift) := by rw [powers, Nat.mul_assoc]

theorem divideMagnitudes_spec {u v : List Nat} (fitsU : Fits base u) (fitsV : Fits base v) (trimmed : Trimmed v)
    (two : 2 ≤ v.length) (longer : v.length ≤ u.length) :
    Fits base (divideMagnitudes u v).1 ∧ Fits base (divideMagnitudes u v).2 ∧
      ofDigits base (divideMagnitudes u v).1 = ofDigits base u / ofDigits base v ∧
      ofDigits base (divideMagnitudes u v).2 = ofDigits base u % ofDigits base v := by
  have some : v ≠ [] := by
    rintro rfl
    simp at two
  have least : base ^ (v.length - 1) ≤ ofDigits base v := pow_le_ofDigits trimmed some
  have whole := normalised fitsU fitsV trimmed some longer
  unfold divideMagnitudes
  dsimp only
  generalize leadingZeros (v.getD (v.length - 1) 0) = shift at whole ⊢
  generalize (shiftLeft v shift 0).take v.length = vn at whole ⊢
  generalize (shiftLeft u shift 1).take (u.length + 1) = un at whole ⊢
  obtain ⟨inside, fitsVn, lengthVn, valueVn, fitsUn, lengthUn, valueUn, topVn, small⟩ := whole
  have positive := Nat.two_pow_pos shift
  obtain ⟨fitsQ, -, quotient, fitsR, lengthR, remainder⟩ :=
    divideSteps_spec (by omega) fitsVn topVn fitsUn (by omega) small
  rw [valueUn, valueVn, Nat.mul_div_mul_right _ _ positive] at quotient
  rw [valueUn, valueVn, Nat.mul_mod_mul_right] at remainder
  generalize divideSteps base vn un = divided at fitsQ quotient fitsR lengthR remainder ⊢
  have belowV := Nat.mod_lt (ofDigits base u) (lt_of_lt_of_le (Nat.pow_pos base_pos) least)
  have belowR : ofDigits base u % ofDigits base v < base ^ v.length := lt_trans belowV (ofDigits_lt one_lt_base fitsV)
  have cut {window : List Nat} (fits : Fits base window) (long : v.length ≤ window.length)
      (value : ofDigits base window = ofDigits base u % ofDigits base v) :
      ofDigits base (window.take v.length) = ofDigits base u % ofDigits base v := by
    have parts := @ofDigits_take_drop base window v.length long
    have none : ofDigits base (window.drop v.length) = 0 := by
      by_contra more
      have whole := Nat.mul_le_mul_left (base ^ v.length) (Nat.pos_of_ne_zero more)
      omega
    rw [none, Nat.mul_zero, Nat.add_zero] at parts
    rw [← parts, value]
  refine ⟨fits_trim fitsQ, fits_trim ?_, by rw [ofDigits_trim, quotient], ?_⟩
  · split
    · exact fitsR.take _
    · exact (fits_shiftRight fitsR).take _
  · rw [ofDigits_trim]
    split
    · next none =>
      rw [none, pow_zero, Nat.mul_one] at remainder
      exact cut fitsR (by omega) remainder
    · refine cut (fits_shiftRight fitsR) (by rw [length_shiftRight]; omega) ?_
      rw [ofDigits_shiftRight inside fitsR, remainder, Nat.mul_div_cancel _ positive]

end Big

end MeridianCore.AnalyticsEngine
