import MeridianCore.Limbs.Words

namespace MeridianCore.Limbs
open Nat (toDigits ofDigitChars)

/-- A number's digits, zeros before them to a width. -/
def padded (width value : Nat) : List Char := List.leftpad width '0' (toDigits 10 value)

/-- Chunks of so many digits each, least significant first, written out: the highest one as it is, and each below
it to its whole width. -/
def joinChunks (width : Nat) : List Nat → List Char
  | [] => []
  | [chunk] => toDigits 10 chunk
  | chunk :: next :: rest => joinChunks width (next :: rest) ++ padded width chunk

/-- Digits without the zeros before them; of zeros alone, one. -/
def significant (digits : List Char) : List Char :=
  match digits.dropWhile (· = '0') with
  | [] => ['0']
  | kept => kept

section padding
variable {width high low : Nat}

theorem ofDigitChars_leftpad (width : Nat) (digits : List Char) :
    ofDigitChars 10 (List.leftpad width '0' digits) 0 = ofDigitChars 10 digits 0 := by
  rw [List.leftpad, Nat.ofDigitChars_append, Nat.ofDigitChars_replicate_zero, Nat.mul_zero]

theorem padded_zero (width : Nat) : padded (width + 1) 0 = List.replicate (width + 1) '0' := by
  rw [padded, Nat.toDigits_zero, List.leftpad, List.length_singleton, Nat.add_sub_cancel, ← List.replicate_succ']

/-- One more digit below a padded number's. -/
theorem padded_digit {digit : Nat} (below : digit < 10) (width value : Nat) :
    padded (width + 2) (10 * value + digit) = padded (width + 1) value ++ [Nat.digitChar digit] := by
  have last : toDigits 10 digit = [Nat.digitChar digit] := Nat.toDigits_of_lt_base below
  rcases Nat.eq_zero_or_pos value with rfl | positive
  · rw [padded_zero, Nat.mul_zero, Nat.zero_add, padded, last, List.leftpad]
    rfl
  · rw [padded, ← Nat.toDigits_append_toDigits (by decide) positive below, last, padded, List.leftpad, List.leftpad,
      List.length_append, List.length_singleton, ← List.append_assoc]
    congr 3
    omega

/-- A number's digits are those above a place, then the digits below it to their whole width. -/
theorem toDigits_split (positive : 0 < high) (below : low < 10 ^ (width + 1)) :
    toDigits 10 (10 ^ (width + 1) * high + low) = toDigits 10 high ++ padded (width + 1) low := by
  induction width generalizing low with
  | zero =>
    have digit : low < 10 := by simpa using below
    rw [Nat.zero_add, pow_one, ← Nat.toDigits_append_toDigits (by decide) positive digit, padded, List.leftpad,
      Nat.toDigits_of_lt_base digit]
    rfl
  | succ width ih =>
    have digit := Nat.mod_lt low (show 0 < 10 by decide)
    have above : low / 10 < 10 ^ (width + 1) := by
      rw [Nat.div_lt_iff_lt_mul (by decide), ← pow_succ]
      exact below
    have some : 0 < 10 ^ (width + 1) * high + low / 10 :=
      Nat.add_pos_left (Nat.mul_pos (Nat.pow_pos (by decide)) positive) _
    have whole : 10 ^ (width + 1 + 1) * high + low = 10 * (10 ^ (width + 1) * high + low / 10) + low % 10 := by
      have parts := Nat.div_add_mod low 10
      rw [pow_succ]
      linear_combination parts.symm
    have same : low = 10 * (low / 10) + low % 10 := (Nat.div_add_mod low 10).symm
    rw [whole, ← Nat.toDigits_append_toDigits (by decide) some digit, ih above, List.append_assoc]
    congr 1
    conv_rhs => rw [same]
    rw [padded_digit digit, Nat.toDigits_of_lt_base digit]

/-- Chunks with no high zero, each within its width, are written as the number they make. -/
theorem joinChunks_eq {chunks : List Nat} (some : chunks ≠ []) (fits : Fits (10 ^ (width + 1)) chunks)
    (trimmed : Trimmed chunks) : joinChunks (width + 1) chunks = toDigits 10 (Nat.ofDigits (10 ^ (width + 1)) chunks) := by
  induction chunks with
  | nil => exact absurd rfl some
  | cons chunk rest ih =>
    obtain ⟨below, fits⟩ := fits_cons.mp fits
    cases rest with
    | nil => rw [joinChunks, Nat.ofDigits_singleton]
    | cons next rest =>
      have trimmed := trimmed.tail (List.cons_ne_nil next rest)
      have positive : 0 < Nat.ofDigits (10 ^ (width + 1)) (next :: rest) := by
        refine Nat.pos_of_ne_zero fun zero => ?_
        exact List.cons_ne_nil next rest (eq_nil_of_ofDigits (Nat.pow_pos (by decide)) trimmed zero)
      have whole : Nat.ofDigits (10 ^ (width + 1)) (chunk :: next :: rest) =
          10 ^ (width + 1) * Nat.ofDigits (10 ^ (width + 1)) (next :: rest) + chunk := by
        rw [Nat.ofDigits_cons, Nat.add_comm]
      rw [joinChunks, ih (List.cons_ne_nil next rest) fits trimmed, whole, toDigits_split positive below]

end padding

section reading
variable {digits : List Char}

theorem digit_of_toDigits {digit : Char} {n : Nat} (member : digit ∈ Nat.toDigits 10 n) : digit.isDigit = true :=
  Nat.isDigit_of_mem_toDigits (by decide) (by decide) member

/-- So many digits make a number below the power of ten they count to. -/
theorem ofDigitChars_lt (all : digits.all Char.isDigit = true) : ofDigitChars 10 digits 0 < 10 ^ digits.length := by
  induction digits with
  | nil => simp
  | cons digit rest ih =>
    rw [List.all_cons, Bool.and_eq_true] at all
    have below := ih all.2
    have nine : digit.toNat - '0'.toNat ≤ 9 := by
      have range := Char.isDigit_iff_toNat.mp all.1
      have zero : '0'.toNat = 48 := rfl
      have last : '9'.toNat = 57 := rfl
      omega
    rw [Nat.ofDigitChars_cons, Nat.ofDigitChars_eq_ofDigitChars_zero, List.length_cons, pow_succ, Nat.mul_zero, Nat.zero_add]
    calc
      _ < 10 ^ rest.length * (digit.toNat - '0'.toNat) + 10 ^ rest.length := by omega
      _ ≤ 10 ^ rest.length * 9 + 10 ^ rest.length := by
        have bound := Nat.mul_le_mul_left (10 ^ rest.length) nine
        omega
      _ = 10 ^ rest.length * 10 := by ring

theorem ofDigitChars_lead {digit : Char} (rest : List Char) :
    ofDigitChars 10 (digit :: rest) 0 = 10 ^ rest.length * (digit.toNat - '0'.toNat) + ofDigitChars 10 rest 0 := by
  rw [Nat.ofDigitChars_cons, Nat.ofDigitChars_eq_ofDigitChars_zero, Nat.mul_zero, Nat.zero_add]

/-- Zeros before a number's digits count for nothing. -/
theorem ofDigitChars_significant (digits : List Char) :
    ofDigitChars 10 (digits.dropWhile (· = '0')) 0 = ofDigitChars 10 digits 0 := by
  induction digits with
  | nil => rfl
  | cons digit rest ih =>
    by_cases zero : digit = '0'
    · subst zero
      rw [List.dropWhile_cons_of_pos (by simp), ih, ofDigitChars_lead]
      simp
    · rw [List.dropWhile_cons_of_neg (by simpa using zero)]

theorem digitChar_of_isDigit {digit : Char} (is : digit.isDigit = true) :
    digit.toNat - '0'.toNat < 10 ∧ Nat.digitChar (digit.toNat - '0'.toNat) = digit := by
  obtain ⟨low, high⟩ := Char.isDigit_iff_toNat.mp is
  have zero : '0'.toNat = 48 := rfl
  have nine : '9'.toNat = 57 := rfl
  have below : digit.toNat - '0'.toNat < 10 := by omega
  refine ⟨below, Char.toNat_inj.mp ?_⟩
  rw [Nat.toNat_digitChar_of_lt_ten below]
  omega

/-- Digits with no zero before them make a number that is not zero. -/
theorem ofDigitChars_pos (all : digits.all Char.isDigit = true) (some' : digits ≠ []) (lead : digits.head? ≠ some '0') :
    0 < ofDigitChars 10 digits 0 := by
  cases digits with
  | nil => exact absurd rfl some'
  | cons digit rest =>
    have is := List.all_eq_true.mp all digit List.mem_cons_self
    have range := Char.isDigit_iff_toNat.mp is
    have zero : '0'.toNat = 48 := rfl
    have apart : digit.toNat ≠ 48 := fun same => lead (congrArg some (Char.toNat_inj.mp same))
    rw [ofDigitChars_lead]
    exact Nat.add_pos_left (Nat.mul_pos (Nat.pow_pos (by decide)) (by omega)) _

theorem toDigits_of_lead (all : digits.all Char.isDigit = true) (some' : digits ≠ []) (lead : digits.head? ≠ some '0') :
    toDigits 10 (ofDigitChars 10 digits 0) = digits := by
  induction digits using List.reverseRecOn with
  | nil => exact absurd rfl some'
  | append_singleton rest digit ih =>
    rw [List.all_append, Bool.and_eq_true] at all
    obtain ⟨earlier, last⟩ := all
    obtain ⟨below, same⟩ := digitChar_of_isDigit (List.all_eq_true.mp last digit List.mem_cons_self)
    have value : ofDigitChars 10 (rest ++ [digit]) 0 = 10 * ofDigitChars 10 rest 0 + (digit.toNat - '0'.toNat) := by
      rw [Nat.ofDigitChars_append, Nat.ofDigitChars_cons, Nat.ofDigitChars_nil]
    rw [value]
    cases rest with
    | nil =>
      rw [Nat.ofDigitChars_nil, Nat.mul_zero, Nat.zero_add, Nat.toDigits_of_lt_base below, same]
      rfl
    | cons first others =>
      have lead : (first :: others).head? ≠ some '0' := lead
      rw [← Nat.toDigits_append_toDigits (by decide) (ofDigitChars_pos earlier (List.cons_ne_nil _ _) lead) below,
        ih earlier (List.cons_ne_nil _ _) lead, Nat.toDigits_of_lt_base below, same]

/-- The digits of the number that digits make are those without the zeros before them. -/
theorem toDigits_ofDigitChars (all : digits.all Char.isDigit = true) :
    toDigits 10 (ofDigitChars 10 digits 0) = significant digits := by
  rw [← ofDigitChars_significant]
  have kept := List.all_eq_true.mp all
  have head := List.head?_dropWhile_not (· = '0') digits
  have within := (List.dropWhile_sublist (l := digits) (· = '0')).subset
  unfold significant
  generalize digits.dropWhile (· = '0') = digits' at head within ⊢
  cases digits' with
  | nil => rfl
  | cons digit rest =>
    refine toDigits_of_lead (List.all_eq_true.mpr fun each member => kept each (within member)) (List.cons_ne_nil _ _) ?_
    simpa using head

/-- Digits with no zero before them, that make a number below a power of ten, are no more than it counts to. -/
theorem length_significant_le {most : Nat} (all : digits.all Char.isDigit = true)
    (below : ofDigitChars 10 digits 0 < 10 ^ most) : (digits.dropWhile (· = '0')).length ≤ most := by
  rw [← ofDigitChars_significant] at below
  cases held : digits.dropWhile (· = '0') with
  | nil => exact Nat.zero_le most
  | cons digit rest =>
    have some' : digit ≠ '0' := by
      have head := List.head?_dropWhile_not (· = '0') digits
      rw [held] at head
      simpa using head
    have is : digit.isDigit = true := by
      refine List.all_eq_true.mp all digit ((List.dropWhile_sublist (· = '0')).subset ?_)
      rw [held]
      exact List.mem_cons_self
    have one : 1 ≤ digit.toNat - '0'.toNat := by
      have range := Char.isDigit_iff_toNat.mp is
      have zero : '0'.toNat = 48 := rfl
      have apart : digit.toNat ≠ 48 := fun same => some' (Char.toNat_inj.mp same)
      omega
    rw [held, ofDigitChars_lead] at below
    have least : 10 ^ rest.length < 10 ^ most := by
      have bound := Nat.mul_le_mul_left (10 ^ rest.length) one
      omega
    exact (Nat.pow_lt_pow_iff_right (by decide)).mp least

end reading

end MeridianCore.Limbs
