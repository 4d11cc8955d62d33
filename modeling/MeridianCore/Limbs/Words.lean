import Mathlib
import Mathlib.Order.Compare
import Mathlib.Data.Int.Order.Basic
import Mathlib.Tactic.Ring

namespace MeridianCore.Limbs

/-- Words of a magnitude in a base, least significant first: each below the base. -/
def Fits (base : Nat) (words : List Nat) : Prop := ∀ word ∈ words, word < base

/-- No high word of it is zero. -/
def Trimmed (words : List Nat) : Prop := words.getLast? ≠ some 0

/-- The words without the high ones that are zero. -/
def trim : List Nat → List Nat
  | [] => []
  | word :: rest =>
    match trim rest with
    | [] => if word = 0 then [] else [word]
    | kept => word :: kept

/-- Words of one length compared from the highest. -/
def compareWords : List Nat → List Nat → Ordering
  | x :: a, y :: b => (compareWords a b).then (compare x y)
  | _, _ => .eq

/-- Magnitudes compared: the longer is the greater. -/
def compareMagnitudes (a b : List Nat) : Ordering :=
  if a.length ≠ b.length then compare a.length b.length else compareWords a b

/-- A magnitude added to one at least as long, word by word, and the last carry. -/
def addWords (base : Nat) : Nat → List Nat → List Nat → List Nat × Nat
  | carry, [], _ => ([], carry)
  | carry, x :: long, short =>
    let sum := x + short.headD 0 + carry
    let rest := addWords base (sum / base) long short.tail
    (sum % base :: rest.1, rest.2)

/-- A magnitude taken from one at least as long, word by word, and the last borrow. -/
def subtractWords (base : Nat) : Nat → List Nat → List Nat → List Nat × Nat
  | borrow, [], _ => ([], borrow)
  | borrow, x :: a, b =>
    let taken := borrow + b.headD 0
    let rest := subtractWords base (if x < taken then 1 else 0) a b.tail
    ((if x < taken then x + base - taken else x - taken) :: rest.1, rest.2)

/-- One word times a magnitude, onto the words there, and the last carry above them. -/
def multiplyRow (base x : Nat) : Nat → List Nat → List Nat → List Nat
  | carry, [], _ => [carry]
  | carry, y :: b, out =>
    let product := x * y + out.headD 0 + carry
    product % base :: multiplyRow base x (product / base) b out.tail

/-- A magnitude times another onto the words there, one row at a time: a row's lowest word is done, and the
next row is onto the words above it. -/
def multiplyWords (base : Nat) : List Nat → List Nat → List Nat → List Nat
  | [], _, out => out
  | x :: a, b, out =>
    let row := multiplyRow base x 0 b out
    row.headD 0 :: multiplyWords base a b row.tail

/-- The quotient and remainder of a magnitude by one word, from the highest word. -/
def divideByWord (base divisor : Nat) : List Nat → List Nat × Nat
  | [] => ([], 0)
  | word :: rest =>
    let above := divideByWord base divisor rest
    let current := above.2 * base + word
    (current / divisor :: above.1, current % divisor)

/-- A magnitude times a word, and the last carry. -/
def scaleWords (base factor : Nat) : Nat → List Nat → List Nat × Nat
  | carry, [] => ([], carry)
  | carry, word :: rest =>
    let product := word * factor + carry
    let above := scaleWords base factor (product / base) rest
    (product % base :: above.1, above.2)

/-- Words of so many bits each put together, each shifted to its place. -/
def joinWords (bits : Nat) : List Nat → Nat
  | [] => 0
  | word :: rest => word ||| joinWords bits rest <<< bits

open Nat (ofDigits)

variable {base : Nat} {a b words : List Nat}

theorem fits_nil : Fits base [] := fun _ member => (List.not_mem_nil member).elim

theorem fits_cons {word : Nat} : Fits base (word :: words) ↔ word < base ∧ Fits base words := List.forall_mem_cons

theorem Fits.tail (fits : Fits base words) : Fits base words.tail :=
  fun word member => fits word (List.mem_of_mem_tail member)

theorem Fits.headD (positive : 0 < base) (fits : Fits base words) : words.headD 0 < base := by
  cases words with
  | nil => exact positive
  | cons word rest => exact fits word List.mem_cons_self

theorem ofDigits_lt (large : 1 < base) (fits : Fits base words) : ofDigits base words < base ^ words.length :=
  Nat.ofDigits_lt_base_pow_length large fits

theorem ofDigits_headD (words : List Nat) : words.headD 0 + base * ofDigits base words.tail = ofDigits base words := by
  cases words with
  | nil => simp [ofDigits]
  | cons word rest => rw [Nat.ofDigits_cons, List.headD_cons, List.tail_cons]

section trim

theorem trim_cons (word : Nat) (rest : List Nat) :
    trim (word :: rest) = if trim rest = [] then if word = 0 then [] else [word] else word :: trim rest := by
  rw [trim]
  split
  · next empty => rw [if_pos empty]
  · next some => rw [if_neg some]

theorem ofDigits_trim (words : List Nat) : ofDigits base (trim words) = ofDigits base words := by
  induction words with
  | nil => rfl
  | cons word rest ih =>
    rw [Nat.ofDigits_cons, ← ih, trim_cons]
    split
    · next empty =>
      rw [empty]
      split
      · next zero => simp [zero]
      · simp [Nat.ofDigits_cons]
    · rw [Nat.ofDigits_cons]

theorem mem_trim {word : Nat} (member : word ∈ trim words) : word ∈ words := by
  induction words with
  | nil => exact member
  | cons first rest ih =>
    rw [trim_cons] at member
    split at member
    · split at member
      · cases member
      · exact List.mem_cons.mpr (Or.inl (List.mem_singleton.mp member))
    · rcases List.mem_cons.mp member with same | member
      · exact List.mem_cons.mpr (Or.inl same)
      · exact List.mem_cons_of_mem _ (ih member)

theorem fits_trim (fits : Fits base words) : Fits base (trim words) := fun word member => fits word (mem_trim member)

theorem length_trim (words : List Nat) : (trim words).length ≤ words.length := by
  induction words with
  | nil => exact le_refl 0
  | cons word rest ih =>
    rw [trim_cons]
    split
    · split <;> simp
    · simp only [List.length_cons]
      omega

theorem joinWords_eq {bits : Nat} (fits : Fits (2 ^ bits) words) : joinWords bits words = ofDigits (2 ^ bits) words := by
  induction words with
  | nil => rfl
  | cons word rest ih =>
    obtain ⟨below, fits⟩ := fits_cons.mp fits
    rw [joinWords, ih fits, Nat.ofDigits_cons, Nat.lor_comm, ← Nat.shiftLeft_add_eq_or_of_lt below, Nat.shiftLeft_eq]
    ring

theorem trimmed_trim (words : List Nat) : Trimmed (trim words) := by
  induction words with
  | nil => simp [trim, Trimmed]
  | cons word rest ih =>
    rw [trim_cons]
    split
    · split
      · simp [Trimmed]
      · next other => simp [Trimmed, other]
    · next some =>
      unfold Trimmed at ih ⊢
      rw [List.getLast?_cons]
      cases last : (trim rest).getLast? with
      | none => exact absurd (List.getLast?_eq_none_iff.mp last) some
      | some value =>
        rw [last] at ih
        exact ih

theorem Trimmed.tail {word : Nat} (trimmed : Trimmed (word :: words)) (some : words ≠ []) : Trimmed words := by
  unfold Trimmed at *
  rw [List.getLast?_cons] at trimmed
  cases last : words.getLast? with
  | none => exact absurd (List.getLast?_eq_none_iff.mp last) some
  | some value =>
    rw [last] at trimmed
    exact trimmed

/-- A magnitude with no high zero is at least the power of the base its length says. -/
theorem pow_le_ofDigits (trimmed : Trimmed words) (some : words ≠ []) :
    base ^ (words.length - 1) ≤ ofDigits base words := by
  induction words with
  | nil => exact absurd rfl some
  | cons word rest ih =>
    rw [Nat.ofDigits_cons]
    by_cases empty : rest = []
    · subst empty
      have nonzero : word ≠ 0 := fun zero => trimmed (by simp [zero])
      simp
      omega
    · have above := ih (trimmed.tail empty) empty
      have longer : (word :: rest).length - 1 = rest.length - 1 + 1 := by
        have := List.length_pos_iff.mpr empty
        simp
        omega
      rw [longer, pow_succ]
      have scaled := Nat.mul_le_mul_left base above
      rw [Nat.mul_comm base (base ^ (rest.length - 1))] at scaled
      omega

/-- A number is one trimmed magnitude's. -/
theorem trimmed_unique (large : 1 < base) (fitsA : Fits base a) (fitsB : Fits base b) (trimmedA : Trimmed a) (trimmedB : Trimmed b)
    (same : ofDigits base a = ofDigits base b) : a = b := by
  have digits {words : List Nat} (fits : Fits base words) (trimmed : Trimmed words) : base.digits (ofDigits base words) = words := by
    refine Nat.digits_ofDigits base large words fits fun some' zero => trimmed ?_
    rw [List.getLast?_eq_getLast_of_ne_nil some', zero]
  rw [← digits fitsA trimmedA, ← digits fitsB trimmedB, same]

theorem eq_nil_of_ofDigits (positive : 0 < base) (trimmed : Trimmed words) (zero : ofDigits base words = 0) : words = [] := by
  by_contra some
  have least : base ^ (words.length - 1) ≤ ofDigits base words := pow_le_ofDigits trimmed some
  rw [zero] at least
  exact absurd (Nat.pow_pos positive) (Nat.not_lt.mpr least)

end trim

section compare

theorem compareWords_eq (length : a.length = b.length) (fitsA : Fits base a) (fitsB : Fits base b) :
    compareWords a b = compare (ofDigits base a) (ofDigits base b) := by
  induction a generalizing b with
  | nil =>
    obtain rfl := List.length_eq_zero_iff.mp length.symm
    rfl
  | cons x a ih =>
    cases b with
    | nil => cases length
    | cons y b =>
      obtain ⟨belowX, fitsA⟩ := fits_cons.mp fitsA
      obtain ⟨belowY, fitsB⟩ := fits_cons.mp fitsB
      rw [compareWords, ih (Nat.succ.inj length) fitsA fitsB, Nat.ofDigits_cons, Nat.ofDigits_cons]
      rcases Nat.lt_trichotomy (ofDigits base a) (ofDigits base b) with less | same | more
      · have apart := Nat.mul_le_mul_left base (Nat.succ_le_of_lt less)
        rw [Nat.mul_succ] at apart
        rw [compare_lt_iff_lt.mpr less, Ordering.lt_then]
        exact (compare_lt_iff_lt.mpr (by omega)).symm
      · rw [same, compare_eq_iff_eq.mpr rfl, Ordering.eq_then]
        rcases Nat.lt_trichotomy x y with less | same | more
        · rw [compare_lt_iff_lt.mpr less]
          exact (compare_lt_iff_lt.mpr (by omega)).symm
        · rw [same, compare_eq_iff_eq.mpr rfl]
          exact (compare_eq_iff_eq.mpr rfl).symm
        · rw [compare_gt_iff_gt.mpr more]
          exact (compare_gt_iff_gt.mpr (by omega)).symm
      · have apart := Nat.mul_le_mul_left base (Nat.succ_le_of_lt more)
        rw [Nat.mul_succ] at apart
        rw [compare_gt_iff_gt.mpr more, Ordering.gt_then]
        exact (compare_gt_iff_gt.mpr (by omega)).symm

theorem ofDigits_lt_of_length (large : 1 < base) (fits : Fits base a) (trimmed : Trimmed b)
    (shorter : a.length < b.length) : ofDigits base a < ofDigits base b := by
  have some : b ≠ [] := by
    rintro rfl
    simp at shorter
  calc
    ofDigits base a < base ^ a.length := ofDigits_lt large fits
    _ ≤ base ^ (b.length - 1) := Nat.pow_le_pow_right (by omega) (by omega)
    _ ≤ ofDigits base b := pow_le_ofDigits trimmed some

theorem compareMagnitudes_eq (large : 1 < base) (fitsA : Fits base a) (fitsB : Fits base b) (trimmedA : Trimmed a)
    (trimmedB : Trimmed b) : compareMagnitudes a b = compare (ofDigits base a) (ofDigits base b) := by
  unfold compareMagnitudes
  split
  · next other =>
    rcases Nat.lt_or_gt_of_ne other with shorter | longer
    · rw [compare_lt_iff_lt.mpr shorter]
      exact (compare_lt_iff_lt.mpr (ofDigits_lt_of_length large fitsA trimmedB shorter)).symm
    · rw [compare_gt_iff_gt.mpr longer]
      exact (compare_gt_iff_gt.mpr (ofDigits_lt_of_length large fitsB trimmedA longer)).symm
  · next same => exact compareWords_eq (not_not.mp same) fitsA fitsB

end compare

section arithmetic

theorem length_addWords (carry : Nat) (long short : List Nat) : (addWords base carry long short).1.length = long.length := by
  induction long generalizing carry short with
  | nil => rfl
  | cons x long ih => simp [addWords, ih]

theorem fits_addWords (positive : 0 < base) (carry : Nat) (long short : List Nat) :
    Fits base (addWords base carry long short).1 := by
  induction long generalizing carry short with
  | nil => exact fits_nil
  | cons x long ih => exact fits_cons.mpr ⟨Nat.mod_lt _ positive, ih _ _⟩

theorem ofDigits_addWords (carry : Nat) {long short : List Nat} (shorter : short.length ≤ long.length) :
    ofDigits base (addWords base carry long short).1 + base ^ long.length * (addWords base carry long short).2 =
      ofDigits base long + ofDigits base short + carry := by
  induction long generalizing carry short with
  | nil =>
    obtain rfl := List.length_eq_zero_iff.mp (Nat.le_zero.mp shorter)
    simp [addWords, ofDigits]
  | cons x long ih =>
    have rest := @ih ((x + short.headD 0 + carry) / base) short.tail (by simp at shorter ⊢; omega)
    have sum := Nat.mod_add_div (x + short.headD 0 + carry) base
    have split := @ofDigits_headD base short
    simp only [addWords, List.length_cons, Nat.ofDigits_cons, pow_succ]
    linear_combination base * rest + sum + split

/-- The last carry of a sum is one at most. -/
theorem carry_addWords {carry : Nat} {long short : List Nat} (positive : 0 < base) (bit : carry ≤ 1) (fitsL : Fits base long)
    (fitsS : Fits base short) : (addWords base carry long short).2 ≤ 1 := by
  induction long generalizing carry short with
  | nil => exact bit
  | cons x long ih =>
    obtain ⟨below, fitsL⟩ := fits_cons.mp fitsL
    have head := fitsS.headD positive
    refine ih ?_ fitsL fitsS.tail
    refine Nat.le_of_lt_succ ((Nat.div_lt_iff_lt_mul positive).mpr ?_)
    omega

theorem length_subtractWords (borrow : Nat) (a b : List Nat) : (subtractWords base borrow a b).1.length = a.length := by
  induction a generalizing borrow b with
  | nil => rfl
  | cons x a ih => simp [subtractWords, ih]

theorem fits_subtractWords {borrow : Nat} (positive : 0 < base) (bit : borrow ≤ 1) (fitsA : Fits base a) (fitsB : Fits base b) :
    Fits base (subtractWords base borrow a b).1 := by
  induction a generalizing borrow b with
  | nil => exact fits_nil
  | cons x a ih =>
    obtain ⟨belowX, fitsA⟩ := fits_cons.mp fitsA
    have belowY := fitsB.headD positive
    refine fits_cons.mpr ⟨?_, ih (by split <;> omega) fitsA fitsB.tail⟩
    split <;> omega

/-- What a difference is, its last borrow standing above it. -/
theorem subtractWords_spec {borrow : Nat} (positive : 0 < base) (shorter : b.length ≤ a.length) (bit : borrow ≤ 1)
    (fitsA : Fits base a) (fitsB : Fits base b) :
    Fits base (subtractWords base borrow a b).1 ∧ (subtractWords base borrow a b).2 ≤ 1 ∧
      ofDigits base (subtractWords base borrow a b).1 + ofDigits base b + borrow =
        ofDigits base a + base ^ a.length * (subtractWords base borrow a b).2 := by
  induction a generalizing borrow b with
  | nil =>
    obtain rfl := List.length_eq_zero_iff.mp (Nat.le_zero.mp shorter)
    simp [subtractWords, ofDigits, fits_nil, bit]
  | cons x a ih =>
    obtain ⟨belowX, fitsA⟩ := fits_cons.mp fitsA
    have belowY := fitsB.headD positive
    have split := @ofDigits_headD base b
    have rest := @ih b.tail (if x < borrow + b.headD 0 then 1 else 0) (by simp at shorter ⊢; omega) (by split <;> omega) fitsA
      fitsB.tail
    obtain ⟨fits, last, value⟩ := rest
    simp only [subtractWords, List.length_cons, Nat.ofDigits_cons, pow_succ]
    refine ⟨fits_cons.mpr ⟨by split <;> omega, fits⟩, last, ?_⟩
    by_cases borrows : x < borrow + b.headD 0
    · simp only [if_pos borrows] at value ⊢
      have digit : x + base - (borrow + b.headD 0) + borrow + b.headD 0 = x + base := by omega
      linear_combination base * value + digit + split.symm
    · simp only [if_neg borrows] at value ⊢
      have digit : x - (borrow + b.headD 0) + borrow + b.headD 0 = x := by omega
      linear_combination base * value + digit + split.symm

theorem length_multiplyRow (x carry : Nat) (b out : List Nat) : (multiplyRow base x carry b out).length = b.length + 1 := by
  induction b generalizing carry out with
  | nil => rfl
  | cons y b ih => simp [multiplyRow, ih]

theorem fits_multiplyRow {x carry : Nat} {out : List Nat} (belowX : x < base) (belowC : carry < base) (fitsB : Fits base b)
    (fitsO : Fits base out) : Fits base (multiplyRow base x carry b out) := by
  have positive : 0 < base := by omega
  induction b generalizing carry out with
  | nil => exact fits_cons.mpr ⟨belowC, fits_nil⟩
  | cons y b ih =>
    obtain ⟨belowY, fitsB⟩ := fits_cons.mp fitsB
    have belowO := fitsO.headD positive
    refine fits_cons.mpr ⟨Nat.mod_lt _ positive, ih ?_ fitsB fitsO.tail⟩
    rw [Nat.div_lt_iff_lt_mul positive]
    have product := Nat.mul_le_mul (Nat.le_sub_one_of_lt belowX) (Nat.le_sub_one_of_lt belowY)
    obtain ⟨less, rfl⟩ := Nat.exists_eq_add_of_lt positive
    simp only [Nat.zero_add, Nat.add_sub_cancel] at *
    nlinarith

theorem ofDigits_multiplyRow {x carry : Nat} {out : List Nat} (shorter : out.length ≤ b.length) :
    ofDigits base (multiplyRow base x carry b out) = x * ofDigits base b + ofDigits base out + carry := by
  induction b generalizing carry out with
  | nil =>
    obtain rfl := List.length_eq_zero_iff.mp (Nat.le_zero.mp shorter)
    simp [multiplyRow, ofDigits]
  | cons y b ih =>
    have rest := @ih ((x * y + out.headD 0 + carry) / base) out.tail (by simp at shorter ⊢; omega)
    have product := Nat.mod_add_div (x * y + out.headD 0 + carry) base
    have split := @ofDigits_headD base out
    simp only [multiplyRow, Nat.ofDigits_cons]
    linear_combination base * rest + product + split

theorem multiplyWords_spec {out : List Nat} (positive : 0 < base) (length : out.length = b.length) (fitsA : Fits base a)
    (fitsB : Fits base b) (fitsO : Fits base out) :
    Fits base (multiplyWords base a b out) ∧ (multiplyWords base a b out).length = a.length + b.length ∧
      ofDigits base (multiplyWords base a b out) = ofDigits base a * ofDigits base b + ofDigits base out := by
  induction a generalizing out with
  | nil => simp [multiplyWords, ofDigits, fitsO, length]
  | cons x a ih =>
    obtain ⟨belowX, fitsA⟩ := fits_cons.mp fitsA
    have fitsRow := fits_multiplyRow belowX positive fitsB fitsO
    have rowLength := @length_multiplyRow base x 0 b out
    have row := @ofDigits_multiplyRow base b x 0 out length.le
    have split := @ofDigits_headD base (multiplyRow base x 0 b out)
    obtain ⟨fits, total, value⟩ := @ih (multiplyRow base x 0 b out).tail (by simp [rowLength]) fitsA fitsRow.tail
    refine ⟨fits_cons.mpr ⟨fitsRow.headD positive, fits⟩, ?_, ?_⟩
    · simp only [multiplyWords, List.length_cons, total]
      omega
    · simp only [multiplyWords, Nat.ofDigits_cons, value]
      linear_combination split + row

theorem length_divideByWord (divisor : Nat) (words : List Nat) : (divideByWord base divisor words).1.length = words.length := by
  induction words with
  | nil => rfl
  | cons word rest ih => simp [divideByWord, ih]

theorem ofDigits_divideByWord (divisor : Nat) (words : List Nat) :
    ofDigits base (divideByWord base divisor words).1 * divisor + (divideByWord base divisor words).2 =
      ofDigits base words := by
  induction words with
  | nil => simp [divideByWord, ofDigits]
  | cons word rest ih =>
    have current := Nat.mod_add_div ((divideByWord base divisor rest).2 * base + word) divisor
    simp only [divideByWord, Nat.ofDigits_cons]
    linear_combination base * ih + current

theorem divideByWord_spec {divisor : Nat} (positive : 0 < divisor) (fits : Fits base words) :
    Fits base (divideByWord base divisor words).1 ∧ (divideByWord base divisor words).2 < divisor := by
  induction words with
  | nil => simp [divideByWord, fits_nil, positive]
  | cons word rest ih =>
    obtain ⟨below, fits⟩ := fits_cons.mp fits
    obtain ⟨fitsQ, remainder⟩ := ih fits
    refine ⟨fits_cons.mpr ⟨?_, fitsQ⟩, Nat.mod_lt _ positive⟩
    rw [Nat.div_lt_iff_lt_mul positive]
    calc
      (divideByWord base divisor rest).2 * base + word < ((divideByWord base divisor rest).2 + 1) * base := by
        rw [Nat.add_mul]
        omega
      _ ≤ divisor * base := Nat.mul_le_mul_right base remainder
      _ = base * divisor := Nat.mul_comm ..

theorem length_scaleWords (factor carry : Nat) (words : List Nat) :
    (scaleWords base factor carry words).1.length = words.length := by
  induction words generalizing carry with
  | nil => rfl
  | cons word rest ih => simp [scaleWords, ih]

theorem fits_scaleWords (positive : 0 < base) (factor carry : Nat) (words : List Nat) :
    Fits base (scaleWords base factor carry words).1 := by
  induction words generalizing carry with
  | nil => exact fits_nil
  | cons word rest ih => exact fits_cons.mpr ⟨Nat.mod_lt _ positive, ih _⟩

theorem ofDigits_scaleWords (factor carry : Nat) (words : List Nat) :
    ofDigits base (scaleWords base factor carry words).1 + base ^ words.length * (scaleWords base factor carry words).2 =
      ofDigits base words * factor + carry := by
  induction words generalizing carry with
  | nil => simp [scaleWords, ofDigits]
  | cons word rest ih =>
    have above := ih ((word * factor + carry) / base)
    have product := Nat.mod_add_div (word * factor + carry) base
    simp only [scaleWords, List.length_cons, Nat.ofDigits_cons, pow_succ]
    linear_combination base * above + product

/-- The last carry of a magnitude times a factor is below the factor. -/
theorem carry_scaleWords {factor carry : Nat} (below : carry < factor) (fits : Fits base words) :
    (scaleWords base factor carry words).2 < factor := by
  induction words generalizing carry with
  | nil => exact below
  | cons word rest ih =>
    obtain ⟨belowW, fits⟩ := fits_cons.mp fits
    refine ih ?_ fits
    rw [Nat.div_lt_iff_lt_mul (by omega)]
    calc
      word * factor + carry < (word + 1) * factor := by rw [Nat.add_mul]; omega
      _ ≤ base * factor := Nat.mul_le_mul_right factor belowW
      _ = factor * base := Nat.mul_comm ..

end arithmetic

end MeridianCore.Limbs

namespace MeridianCore.Limbs

/-- The integer of a sign and a size. -/
def signedValue (negative : Bool) (size : Nat) : Int := if negative then -(size : Int) else size

/-- Signs compared first, then sizes, a negative's turned round. -/
def compareSigned : Bool → Bool → Nat → Nat → Ordering
  | false, true, _, _ => .gt
  | true, false, _, _ => .lt
  | false, false, a, b => compare a b
  | true, true, a, b => compare b a

variable {negative : Bool} {size less more : Nat}

@[simp] theorem signedValue_false (size : Nat) : signedValue false size = size := rfl

@[simp] theorem signedValue_true (size : Nat) : signedValue true size = -(size : Int) := rfl

@[simp] theorem signedValue_zero (negative : Bool) : signedValue negative 0 = 0 := by
  cases negative <;> simp

@[simp] theorem natAbs_signedValue (negative : Bool) (size : Nat) : (signedValue negative size).natAbs = size := by
  cases negative <;> simp

theorem signedValue_not (negative : Bool) (size : Nat) : signedValue (!negative) size = -signedValue negative size := by
  cases negative <;> simp

theorem signedValue_eq_zero_iff : signedValue negative size = 0 ↔ size = 0 := by
  cases negative <;> simp

/-- Where zero is never negative, the sign says whether the integer is. -/
theorem signedValue_neg_iff (unsigned : size = 0 → negative = false) : signedValue negative size < 0 ↔ negative = true := by
  cases negative with
  | false =>
    rw [signedValue_false]
    constructor
    · omega
    · intro impossible
      cases impossible
  | true =>
    have some : size ≠ 0 := by
      intro zero
      cases unsigned zero
    rw [signedValue_true]
    constructor
    · intro _
      rfl
    · omega

theorem sign_signedValue (unsigned : size = 0 → negative = false) :
    (signedValue negative size).sign = if size = 0 then 0 else if negative then -1 else 1 := by
  have sign := signedValue_neg_iff unsigned
  have none := @signedValue_eq_zero_iff negative size
  split
  · next zero => rw [none.mpr zero, Int.sign_zero]
  · next some =>
    split
    · next below => rw [Int.sign_eq_neg_one_of_neg (sign.mpr below)]
    · next above =>
      have least : ¬ signedValue negative size < 0 := fun below => above (sign.mp below)
      rw [Int.sign_eq_one_of_pos (by omega)]

theorem signedValue_add_same (negative : Bool) (a b : Nat) :
    signedValue negative (a + b) = signedValue negative a + signedValue negative b := by
  cases negative
  · simp
  · simp only [signedValue_true]
    push_cast
    ring

/-- Opposite signs: the greater size keeps its sign, less the other. -/
theorem signedValue_add_opposite {left : Nat} (negative : Bool) (taken : left + less = more) :
    signedValue negative left = signedValue negative more + signedValue (!negative) less := by
  cases negative
  · simp only [Bool.not_false, signedValue_false, signedValue_true]
    omega
  · simp only [Bool.not_true, signedValue_false, signedValue_true]
    omega

theorem signedValue_mul (negative other : Bool) (a b : Nat) :
    signedValue (negative != other) (a * b) = signedValue negative a * signedValue other b := by
  cases negative <;> cases other <;> simp

theorem compare_natCast (a b : Nat) : compare (a : Int) (b : Int) = compare a b := by
  rcases Nat.lt_trichotomy a b with below | rfl | above
  · rw [compare_lt_iff_lt.mpr below, compare_lt_iff_lt.mpr (by omega)]
  · rw [compare_eq_iff_eq.mpr rfl, compare_eq_iff_eq.mpr rfl]
  · rw [compare_gt_iff_gt.mpr above, compare_gt_iff_gt.mpr (by omega)]

theorem compare_neg_natCast (a b : Nat) : compare (-(a : Int)) (-(b : Int)) = compare b a := by
  rcases Nat.lt_trichotomy a b with below | rfl | above
  · rw [compare_gt_iff_gt.mpr below, compare_gt_iff_gt.mpr (by omega)]
  · rw [compare_eq_iff_eq.mpr rfl, compare_eq_iff_eq.mpr rfl]
  · rw [compare_lt_iff_lt.mpr above, compare_lt_iff_lt.mpr (by omega)]

theorem compare_signedValue {other : Bool} {a b : Nat} (unsignedA : a = 0 → negative = false) (unsignedB : b = 0 → other = false) :
    compare (signedValue negative a) (signedValue other b) = compareSigned negative other a b := by
  have signA := signedValue_neg_iff unsignedA
  have signB := signedValue_neg_iff unsignedB
  cases negative <;> cases other
  · exact compare_natCast a b
  · have below := signB.mpr rfl
    refine compare_gt_iff_gt.mpr (lt_of_lt_of_le below ?_)
    simp
  · have below := signA.mpr rfl
    refine compare_lt_iff_lt.mpr (lt_of_lt_of_le below ?_)
    simp
  · exact compare_neg_natCast a b

end MeridianCore.Limbs
