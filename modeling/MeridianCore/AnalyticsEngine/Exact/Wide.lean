import MeridianCore.AnalyticsEngine.Exact.Big

namespace MeridianCore.AnalyticsEngine
open Nat (ofDigits)
open Limbs

namespace Wide

/-- What a 64-bit word counts to. -/
def base : Nat := 2 ^ 64

theorem base_pos : 0 < base := by decide

theorem one_lt_base : 1 < base := by decide

end Wide

/-- A signed 256-bit integer: its sign and its magnitude in four 64-bit words, least significant first. -/
structure Wide where
  negative : Bool
  magnitude : List Nat
  length : magnitude.length = 4
  fits : Fits Wide.base magnitude
  unsigned : ofDigits Wide.base magnitude = 0 → negative = false
  deriving DecidableEq

namespace Wide

def size (wide : Wide) : Nat := ofDigits base wide.magnitude

/-- The integer it is. -/
def value (wide : Wide) : Int := signedValue wide.negative wide.size

def add (a b : List Nat) : Option (List Nat) :=
  let sum := addWords base 0 a b
  if sum.2 = 0 then some sum.1 else none

/-- A word's difference modulo 2^64, and whether it borrows. -/
def overflowingSub (a b : Nat) : Nat × Bool := ((a + base - b) % base, decide (a < b))

/-- The difference of a magnitude and one no greater. -/
def subtract : Bool → List Nat → List Nat → List Nat
  | borrow, x :: a, y :: b =>
    let first := overflowingSub x y
    let second := overflowingSub first.1 borrow.toNat
    second.1 :: subtract (first.2 || second.2) a b
  | _, _, _ => []

/-- The rows of a product, a zero word's left out. -/
def multiplyRows : List Nat → List Nat → List Nat → List Nat
  | [], _, out => out
  | x :: a, b, out =>
    let row := if x = 0 then out ++ [0] else multiplyRow base x 0 b out
    row.headD 0 :: multiplyRows a b row.tail

def multiply (a b : List Nat) : Option (List Nat) :=
  let out := multiplyRows a b (List.replicate 4 0)
  if (out.drop 4).any (· ≠ 0) then none else some (out.take 4)

/-- The words of a magnitude's 32-bit limbs, two to a word. -/
def pairs : List Nat → List Nat
  | [] => []
  | [low] => [low]
  | low :: high :: rest => (low ||| high <<< 32) :: pairs rest

/-- The 32-bit limbs of a magnitude's words. -/
def halves : List Nat → List Nat
  | [] => []
  | word :: rest => word % 2 ^ 32 :: word >>> 32 :: halves rest

variable {a b words : List Nat}

section words

theorem fits_zeros (count : Nat) : Fits base (List.replicate count 0) := fun _ member =>
  List.eq_of_mem_replicate member ▸ base_pos

theorem add_spec {sum : List Nat} (shorter : b.length ≤ a.length) (some : add a b = some sum) :
    sum.length = a.length ∧ Fits base sum ∧ ofDigits base sum = ofDigits base a + ofDigits base b := by
  unfold add at some
  dsimp only at some
  split at some
  · next none =>
    obtain rfl := Option.some.inj some
    have value := @ofDigits_addWords base 0 a b shorter
    rw [none, Nat.mul_zero, Nat.add_zero, Nat.add_zero] at value
    exact ⟨length_addWords 0 a b, fits_addWords base_pos 0 a b, value⟩
  · cases some

theorem overflowingSub_step {x y : Nat} (borrow : Bool) (belowX : x < base) (belowY : y < base) :
    (overflowingSub (overflowingSub x y).1 borrow.toNat).1 =
        (if x < borrow.toNat + y then x + base - (borrow.toNat + y) else x - (borrow.toNat + y)) ∧
      ((overflowingSub x y).2 || (overflowingSub (overflowingSub x y).1 borrow.toNat).2) = decide (x < borrow.toNat + y) := by
  have bit := Bool.toNat_le borrow
  have large : borrow.toNat < base := lt_of_le_of_lt bit one_lt_base
  have first : (x + base - y) % base = if x < y then x + base - y else x - y := by
    split
    · exact Nat.mod_eq_of_lt (by omega)
    · rw [show x + base - y = x - y + base by omega, Nat.add_mod_right, Nat.mod_eq_of_lt (by omega)]
  unfold overflowingSub
  dsimp only
  rw [first]
  by_cases less : x < y
  · simp only [less, if_true, decide_true, Bool.true_or]
    have more : x < borrow.toNat + y := by omega
    simp only [more, if_true, decide_true, and_true]
    rw [show x + base - y + base - borrow.toNat = x + base - (borrow.toNat + y) + base by omega, Nat.add_mod_right,
      Nat.mod_eq_of_lt (by omega)]
  · simp only [less, if_false, decide_false, Bool.false_or]
    by_cases borrows : x < borrow.toNat + y
    · have below : x - y < borrow.toNat := by omega
      simp only [borrows, below, if_true, and_true]
      rw [Nat.mod_eq_of_lt (by omega)]
      omega
    · have above : ¬ x - y < borrow.toNat := by omega
      simp only [borrows, above, if_false, and_true]
      rw [show x - y + base - borrow.toNat = x - (borrow.toNat + y) + base by omega, Nat.add_mod_right,
        Nat.mod_eq_of_lt (by omega)]

theorem length_subtract (borrow : Bool) (length : a.length = b.length) : (subtract borrow a b).length = a.length := by
  induction a generalizing b borrow with
  | nil => cases b <;> rfl
  | cons x a ih =>
    cases b with
    | nil => cases length
    | cons y b => simp [subtract, ih _ (Nat.succ.inj length)]

theorem fits_subtract (borrow : Bool) (a b : List Nat) : Fits base (subtract borrow a b) := by
  induction a generalizing b borrow with
  | nil => cases b <;> exact fits_nil
  | cons x a ih =>
    cases b with
    | nil => exact fits_nil
    | cons y b => exact fits_cons.mpr ⟨Nat.mod_lt _ base_pos, ih _ b⟩

/-- Subtracting in words is long subtraction. -/
theorem subtract_eq (borrow : Bool) (length : a.length = b.length) (fitsA : Fits base a) (fitsB : Fits base b) :
    subtract borrow a b = (subtractWords base borrow.toNat a b).1 := by
  induction a generalizing b borrow with
  | nil => cases b <;> rfl
  | cons x a ih =>
    cases b with
    | nil => cases length
    | cons y b =>
      obtain ⟨belowX, fitsA⟩ := fits_cons.mp fitsA
      obtain ⟨belowY, fitsB⟩ := fits_cons.mp fitsB
      obtain ⟨word, carried⟩ := overflowingSub_step borrow belowX belowY
      rw [subtract, subtractWords]
      dsimp only
      rw [word, carried, ih _ (Nat.succ.inj length) fitsA fitsB, List.headD_cons, List.tail_cons]
      congr 3
      split <;> simp [*]

theorem subtract_spec (length : a.length = b.length) (fitsA : Fits base a) (fitsB : Fits base b)
    (less : ofDigits base b ≤ ofDigits base a) :
    ofDigits base (subtract false a b) + ofDigits base b = ofDigits base a := by
  obtain ⟨fits, last, value⟩ := subtractWords_spec base_pos length.ge (Nat.zero_le 1) fitsA fitsB
  have below := ofDigits_lt one_lt_base fits
  rw [length_subtractWords] at below
  have none : (subtractWords base 0 a b).2 = 0 := by
    rcases Nat.le_one_iff_eq_zero_or_eq_one.mp last with zero | one
    · exact zero
    · rw [one, Nat.mul_one] at value
      omega
  rw [none, Nat.mul_zero, Nat.add_zero, Nat.add_zero] at value
  rw [subtract_eq false length fitsA fitsB]
  exact value

/-- A zero word's row adds nothing. -/
theorem multiplyRow_zero (fits : Fits base words) (length : words.length = b.length) :
    multiplyRow base 0 0 b words = words ++ [0] := by
  induction b generalizing words with
  | nil =>
    rw [List.length_eq_zero_iff.mp length]
    rfl
  | cons y b ih =>
    cases words with
    | nil => cases length
    | cons word words =>
      obtain ⟨below, fits⟩ := fits_cons.mp fits
      rw [multiplyRow]
      dsimp only [List.headD_cons, List.tail_cons]
      rw [Nat.zero_mul, Nat.zero_add, Nat.add_zero, Nat.mod_eq_of_lt below, Nat.div_eq_of_lt below,
        ih fits (Nat.succ.inj length)]
      rfl

theorem multiplyRows_eq {out : List Nat} (length : out.length = b.length) (fitsA : Fits base a) (fitsB : Fits base b)
    (fitsO : Fits base out) : multiplyRows a b out = multiplyWords base a b out := by
  induction a generalizing out with
  | nil => rfl
  | cons x a ih =>
    obtain ⟨belowX, fitsA⟩ := fits_cons.mp fitsA
    have row : (if x = 0 then out ++ [0] else multiplyRow base x 0 b out) = multiplyRow base x 0 b out := by
      split
      · next zero => rw [zero, multiplyRow_zero fitsO length]
      · rfl
    have fitsRow := fits_multiplyRow belowX base_pos fitsB fitsO
    have rowLength := @length_multiplyRow base x 0 b out
    rw [multiplyRows, multiplyWords]
    rw [row, ih (by simp [rowLength]) fitsA fitsRow.tail]

theorem multiply_spec {product : List Nat} (lengthA : a.length = 4) (lengthB : b.length = 4) (fitsA : Fits base a)
    (fitsB : Fits base b) (some : multiply a b = some product) :
    product.length = 4 ∧ Fits base product ∧ ofDigits base product = ofDigits base a * ofDigits base b := by
  have blank := fits_zeros 4
  unfold multiply at some
  dsimp only at some
  rw [multiplyRows_eq (by simp [lengthB]) fitsA fitsB blank] at some
  obtain ⟨fits, length, value⟩ := multiplyWords_spec base_pos (by simp [lengthB]) fitsA fitsB blank
  rw [Nat.ofDigits_replicate_zero, Nat.add_zero] at value
  split at some
  · cases some
  · next none =>
    obtain rfl := Option.some.inj some
    have zero : ofDigits base ((multiplyWords base a b (List.replicate 4 0)).drop 4) = 0 := by
      have all : ∀ word ∈ (multiplyWords base a b (List.replicate 4 0)).drop 4, word = 0 := by
        intro word member
        by_contra other
        exact none (List.any_eq_true.mpr ⟨word, member, by simp [other]⟩)
      rw [List.eq_replicate_of_mem all, Nat.ofDigits_replicate_zero]
    have parts := @ofDigits_take_drop base (multiplyWords base a b (List.replicate 4 0)) 4 (by omega)
    rw [zero, Nat.mul_zero, Nat.add_zero] at parts
    exact ⟨by rw [List.length_take]; omega, fits.take 4, by rw [← parts, value]⟩

theorem pairs_spec (fits : Fits Big.base words) :
    Fits base (pairs words) ∧ ofDigits base (pairs words) = ofDigits Big.base words := by
  have square : base = Big.base * Big.base := by decide
  induction words using pairs.induct with
  | case1 => exact ⟨fits_nil, rfl⟩
  | case2 low =>
    refine ⟨fits_cons.mpr ⟨lt_trans (fits_cons.mp fits).1 (by decide), fits_nil⟩, ?_⟩
    rw [pairs, Nat.ofDigits_singleton, Nat.ofDigits_singleton]
  | case3 low high rest ih =>
    obtain ⟨belowL, fits⟩ := fits_cons.mp fits
    obtain ⟨belowH, fits⟩ := fits_cons.mp fits
    obtain ⟨fitsP, value⟩ := ih fits
    have joined : low ||| high <<< 32 = high * Big.base + low := by
      rw [Nat.lor_comm, ← Nat.shiftLeft_add_eq_or_of_lt belowL, Nat.shiftLeft_eq]
      rfl
    rw [pairs, joined]
    refine ⟨fits_cons.mpr ⟨?_, fitsP⟩, ?_⟩
    · rw [square]
      calc
        high * Big.base + low < (high + 1) * Big.base := by
          rw [Nat.add_mul]
          omega
        _ ≤ Big.base * Big.base := Nat.mul_le_mul_right _ belowH
    · rw [Nat.ofDigits_cons, Nat.ofDigits_cons, Nat.ofDigits_cons, value, square]
      ring

theorem halves_spec (fits : Fits base words) :
    Fits Big.base (halves words) ∧ ofDigits Big.base (halves words) = ofDigits base words := by
  have square : base = Big.base * Big.base := by decide
  induction words with
  | nil => exact ⟨fits_nil, rfl⟩
  | cons word rest ih =>
    obtain ⟨below, fits⟩ := fits_cons.mp fits
    obtain ⟨fitsH, value⟩ := ih fits
    have high : word >>> 32 = word / Big.base := Nat.shiftRight_eq_div_pow word 32
    have parts := Nat.mod_add_div word Big.base
    rw [halves, high, show 2 ^ 32 = Big.base from rfl]
    refine ⟨fits_cons.mpr ⟨Nat.mod_lt _ Big.base_pos, fits_cons.mpr ⟨?_, fitsH⟩⟩, ?_⟩
    · rw [Nat.div_lt_iff_lt_mul Big.base_pos, ← square]
      exact below
    · rw [Nat.ofDigits_cons, Nat.ofDigits_cons, Nat.ofDigits_cons, value, square]
      linear_combination parts

end words

/-- A magnitude that comes to nothing is of zero words. -/
theorem eq_replicate_of_ofDigits (zero : ofDigits base words = 0) : words = List.replicate words.length 0 :=
  List.eq_replicate_of_mem (Nat.digits_zero_of_eq_zero base_pos.ne' zero)

/-- A sign and a magnitude, zero never negative. -/
def signed (negative : Bool) (magnitude : List Nat) (length : magnitude.length = 4) (fits : Fits base magnitude) : Wide where
  negative := negative && decide (magnitude ≠ List.replicate 4 0)
  magnitude := magnitude
  length := length
  fits := fits
  unsigned zero := by
    have same := eq_replicate_of_ofDigits zero
    rw [length] at same
    simp [same]

theorem fits_filled (fits : Fits base words) (count : Nat) : Fits base (words ++ List.replicate count 0) := by
  intro word member
  rcases List.mem_append.mp member with member | member
  · exact fits word member
  · exact fits_zeros count word member

theorem fits_two (low high : Nat) : Fits base [low % 2 ^ 64, high % 2 ^ 64, 0, 0] :=
  fits_cons.mpr ⟨Nat.mod_lt _ base_pos, fits_cons.mpr ⟨Nat.mod_lt _ base_pos, fits_zeros 2⟩⟩

def default : Wide := signed false (List.replicate 4 0) rfl (fits_zeros 4)

def fromI128 (value : I128) : Wide :=
  let magnitude := value.value.natAbs
  signed (decide (value.value < 0)) [magnitude % 2 ^ 64, (magnitude >>> 64) % 2 ^ 64, 0, 0] rfl (fits_two magnitude (magnitude >>> 64))

def isZero (wide : Wide) : Bool := decide (wide.magnitude = List.replicate 4 0)

def toBig (wide : Wide) : Big := Big.signed wide.negative (halves wide.magnitude) (halves_spec wide.fits).1

/-- A value of any size as a Wide, where it fits. -/
def fromBig (big : Big) : Option Wide :=
  let words := pairs big.magnitude
  if within : words.length ≤ 4 then
    some (signed big.negative (words ++ List.replicate (4 - words.length) 0) (by simp; omega)
      (fits_filled (pairs_spec big.fits).1 _))
  else none

def negated (wide : Wide) : Wide := signed (!wide.negative) wide.magnitude wide.length wide.fits

def checkedAdd (wide other : Wide) : Option Wide :=
  if wide.negative = other.negative then
    match sum : add wide.magnitude other.magnitude with
    | some magnitude =>
      have spec := add_spec (by rw [wide.length, other.length]) sum
      some (signed wide.negative magnitude (spec.1.trans wide.length) spec.2.1)
    | none => none
  else
    match compared : compareWords wide.magnitude other.magnitude with
    | .eq => some default
    | .gt =>
      some (signed wide.negative (subtract false wide.magnitude other.magnitude)
        ((length_subtract false (wide.length.trans other.length.symm)).trans wide.length)
        (fits_subtract false wide.magnitude other.magnitude))
    | .lt =>
      some (signed other.negative (subtract false other.magnitude wide.magnitude)
        ((length_subtract false (other.length.trans wide.length.symm)).trans other.length)
        (fits_subtract false other.magnitude wide.magnitude))

def checkedMul (wide other : Wide) : Option Wide :=
  match product : multiply wide.magnitude other.magnitude with
  | some magnitude =>
    have spec := multiply_spec wide.length other.length wide.fits other.fits product
    some (signed (wide.negative != other.negative) magnitude spec.1 spec.2.1)
  | none => none

def signum (wide : Wide) : Int := if wide.isZero then 0 else if wide.negative then -1 else 1

def cmp (wide other : Wide) : Ordering :=
  match wide.negative, other.negative with
  | false, true => .gt
  | true, false => .lt
  | false, false => compareWords wide.magnitude other.magnitude
  | true, true => compareWords other.magnitude wide.magnitude

section values

theorem value_signed (negative : Bool) (magnitude : List Nat) (length : magnitude.length = 4) (fits : Fits base magnitude) :
    (signed negative magnitude length fits).value = signedValue negative (ofDigits base magnitude) := by
  unfold value
  by_cases empty : magnitude = List.replicate 4 0
  · have none : ofDigits base magnitude = 0 := by rw [empty, Nat.ofDigits_replicate_zero]
    have size : (signed negative magnitude length fits).size = 0 := none
    rw [size, none, signedValue_zero, signedValue_zero]
  · have kept : (signed negative magnitude length fits).negative = negative := by
      change (negative && decide (magnitude ≠ List.replicate 4 0)) = negative
      rw [decide_eq_true empty, Bool.and_true]
    rw [kept]
    rfl

@[simp] theorem value_default : default.value = 0 := rfl

theorem size_eq_zero_iff (wide : Wide) : wide.size = 0 ↔ wide.magnitude = List.replicate 4 0 := by
  constructor
  · intro zero
    have same := eq_replicate_of_ofDigits zero
    rwa [wide.length] at same
  · intro empty
    rw [size, empty, Nat.ofDigits_replicate_zero]

theorem size_unsigned (wide : Wide) (zero : wide.size = 0) : wide.negative = false := wide.unsigned zero

theorem signum_eq (wide : Wide) : wide.signum = wide.value.sign := by
  rw [value, sign_signedValue wide.size_unsigned]
  simp only [signum, isZero, decide_eq_true_eq, size_eq_zero_iff]

@[simp] theorem value_fromI128 (value : I128) : (fromI128 value).value = value.value := by
  have least := value.least
  have most := value.most
  have words : ofDigits base [value.value.natAbs % 2 ^ 64, (value.value.natAbs >>> 64) % 2 ^ 64, 0, 0] = value.value.natAbs := by
    have low := Nat.mod_add_div value.value.natAbs (2 ^ 64)
    have high : value.value.natAbs / 2 ^ 64 % 2 ^ 64 = value.value.natAbs / 2 ^ 64 := Nat.mod_eq_of_lt (by omega)
    rw [Nat.shiftRight_eq_div_pow, high]
    simp only [Nat.ofDigits_cons, Nat.ofDigits_nil, base]
    omega
  rw [fromI128, value_signed, words]
  by_cases negative : value.value < 0
  · simp only [negative, decide_true, signedValue_true]
    omega
  · simp only [negative, decide_false, signedValue_false]
    omega

@[simp] theorem value_toBig (wide : Wide) : wide.toBig.value = wide.value := by
  rw [toBig, Big.value_signed, (halves_spec wide.fits).2]
  rfl

theorem value_fromBig {big : Big} {wide : Wide} (some : fromBig big = some wide) : wide.value = big.value := by
  unfold fromBig at some
  dsimp only at some
  split at some
  · next within =>
    rw [← Option.some.inj some, value_signed, Nat.ofDigits_append, Nat.ofDigits_replicate_zero, Nat.mul_zero, Nat.add_zero,
      (pairs_spec big.fits).2]
    rfl
  · cases some

@[simp] theorem value_negated (wide : Wide) : wide.negated.value = -wide.value := by
  rw [negated, value_signed, signedValue_not]
  rfl

theorem compareWords_size (a b : Wide) : compareWords a.magnitude b.magnitude = compare a.size b.size :=
  compareWords_eq (a.length.trans b.length.symm) a.fits b.fits

theorem cmp_eq (a b : Wide) : a.cmp b = compare a.value b.value := by
  rw [value, value, compare_signedValue a.size_unsigned b.size_unsigned]
  unfold cmp
  cases a.negative <;> cases b.negative <;> first | rfl | exact compareWords_size ..

theorem value_checkedAdd {a b sum : Wide} (some : a.checkedAdd b = some sum) : sum.value = a.value + b.value := by
  unfold checkedAdd at some
  split at some
  · next same =>
    split at some
    · next magnitude added =>
      have spec := add_spec (by rw [a.length, b.length]) added
      rw [← Option.some.inj some, value_signed, spec.2.2, signedValue_add_same]
      unfold value
      rw [← same]
      rfl
    · cases some
  · next other =>
    have signs : b.negative = !a.negative := by
      cases negativeA : a.negative <;> cases negativeB : b.negative <;> simp_all
    split at some
    · next equal =>
      rw [compareWords_size] at equal
      have equal := compare_eq_iff_eq.mp equal
      rw [← Option.some.inj some, value_default, value, value, signs, equal, signedValue_not]
      ring
    · next more =>
      rw [compareWords_size] at more
      have more := compare_gt_iff_gt.mp more
      have taken := subtract_spec (a.length.trans b.length.symm) a.fits b.fits more.le
      rw [← Option.some.inj some, value_signed, signedValue_add_opposite a.negative taken, ← signs]
      rfl
    · next less =>
      rw [compareWords_size] at less
      have less := compare_lt_iff_lt.mp less
      have taken := subtract_spec (b.length.trans a.length.symm) b.fits a.fits less.le
      have signs : a.negative = !b.negative := by rw [signs, Bool.not_not]
      rw [← Option.some.inj some, value_signed, signedValue_add_opposite b.negative taken, ← signs, Int.add_comm]
      rfl

theorem value_checkedMul {a b product : Wide} (some : a.checkedMul b = some product) : product.value = a.value * b.value := by
  unfold checkedMul at some
  split at some
  · next magnitude multiplied =>
    have spec := multiply_spec a.length b.length a.fits b.fits multiplied
    rw [← Option.some.inj some, value_signed, spec.2.2, signedValue_mul]
    rfl
  · cases some

end values

end Wide

end MeridianCore.AnalyticsEngine
