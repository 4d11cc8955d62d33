import MeridianCore.AnalyticsEngine.Canonical.Read

/-! What is written of strings and numbers is read back: each escape as its character, and a number up to what ends a value. -/

namespace MeridianCore.AnalyticsEngine.Canonical
open Nat (toDigits ofDigitChars)

section
variable {character : Char} {characters rest : List Char} {fuel n : Nat}

theorem skip_cons (none' : isSpace character = false) : skip (character :: rest) = character :: rest := by
  rw [skip, if_neg (by rw [none']; exact Bool.false_ne_true)]

theorem hexValue_digitChar (below : n < 16) : hexValue (Nat.digitChar n) = some n := by
  interval_cases n <;> rfl

/-- Four hex digits are read as the unit they are of. -/
theorem readHex4_hex4 (below : n < 0x10000) : readHex4 (hex4 n ++ rest) = some (n, rest) := by
  change (do
    let a ← hexValue (Nat.digitChar (n / 4096 % 16))
    let b ← hexValue (Nat.digitChar (n / 256 % 16))
    let c ← hexValue (Nat.digitChar (n / 16 % 16))
    let d ← hexValue (Nat.digitChar (n % 16))
    return (a * 4096 + b * 256 + c * 16 + d, rest)) = _
  rw [hexValue_digitChar (Nat.mod_lt _ (by decide)), hexValue_digitChar (Nat.mod_lt _ (by decide)),
    hexValue_digitChar (Nat.mod_lt _ (by decide)), hexValue_digitChar (Nat.mod_lt _ (by decide))]
  change some (_, rest) = _
  congr 2
  omega

/-- A character's escape is read as it. -/
theorem readCharacters_escaped (character : Char) (rest : List Char) (fuel : Nat) :
    readCharacters (fuel + 1) (escaped character ++ rest) =
      (readCharacters fuel rest).map fun (others, after) => (character :: others, after) := by
  have named : ∀ code, character.toNat = code → character = Char.ofNat code := fun code same => by
    rw [← same, Char.ofNat_toNat]
  have after : ∀ escape read, readEscape escape = some (character, read) → readCharacters (fuel + 1) (BACKSLASH :: escape) =
      (readCharacters fuel read).map fun (others, after) => (character :: others, after) := by
    intro escape read found
    rw [readCharacters, if_neg (by decide), if_pos rfl, found]
    cases held : readCharacters fuel read <;> simp [held]
  unfold escaped
  split_ifs with quote slash back feed line carriage tab control
  · subst quote
    exact after _ _ rfl
  · subst slash
    exact after _ _ rfl
  · rw [named _ back]
    exact named _ back ▸ after _ _ (by rw [named _ back]; rfl)
  · exact named _ feed ▸ after _ _ (by rw [named _ feed]; rfl)
  · exact named _ line ▸ after _ _ (by rw [named _ line]; rfl)
  · exact named _ carriage ▸ after _ _ (by rw [named _ carriage]; rfl)
  · exact named _ tab ▸ after _ _ (by rw [named _ tab]; rfl)
  · refine after ('u' :: (hex4 character.toNat ++ rest)) rest ?_
    rw [readEscape, if_pos rfl, readUnit, readHex4_hex4 (by omega)]
    change (if _ then _ else if _ then _ else _) = _
    rw [if_neg (by omega), if_neg (by omega)]
    exact congrArg (fun character => some (character, rest)) (Char.ofNat_toNat character)
  · rw [List.singleton_append, readCharacters, if_neg quote, if_neg slash, if_neg control]
    cases readCharacters fuel rest <;> rfl

theorem readCharacters_flatMap (characters rest : List Char) (more : characters.length < fuel) :
    readCharacters fuel (characters.flatMap escaped ++ QUOTE :: rest) = some (characters, rest) := by
  induction characters generalizing fuel with
  | nil =>
    obtain ⟨fuel, rfl⟩ : ∃ k, fuel = k + 1 := ⟨fuel - 1, by omega⟩
    rw [List.flatMap_nil, List.nil_append, readCharacters, if_pos rfl]
  | cons character others ih =>
    rw [List.length_cons] at more
    obtain ⟨fuel, rfl⟩ : ∃ k, fuel = k + 1 := ⟨fuel - 1, by omega⟩
    rw [List.flatMap_cons, List.append_assoc, readCharacters_escaped, ih (by omega)]
    rfl

theorem escaped_plain (plain : isPlain character = true) : escaped character = [character] := by
  have apart : ¬(character.toNat < 0x20 ∨ character = QUOTE ∨ character = BACKSLASH) := of_decide_eq_true plain
  rw [not_or, not_or, not_lt] at apart
  obtain ⟨above, quote, slash⟩ := apart
  unfold escaped
  rw [if_neg quote, if_neg slash, if_neg (by omega), if_neg (by omega), if_neg (by omega), if_neg (by omega), if_neg (by omega),
    if_neg (by omega)]

/-- A string written whole is as it is with its characters escaped: it has none to escape. -/
theorem writeString_eq (text : String) : writeString text = QUOTE :: (text.toList.flatMap escaped ++ [QUOTE]) := by
  unfold writeString
  split
  · next plain =>
    rw [List.all_eq_true] at plain
    have same : text.toList.flatMap escaped = text.toList.flatMap fun character => [character] :=
      List.flatMap_congr fun character member => escaped_plain (plain character member)
    rw [same, List.flatMap_singleton']
  · rfl

theorem length_flatMap_escaped (characters : List Char) : characters.length ≤ (characters.flatMap escaped).length := by
  rw [List.length_flatMap]
  induction characters with
  | nil => exact Nat.zero_le _
  | cons character rest ih =>
    have some' : 1 ≤ (escaped character).length := by
      unfold escaped
      split_ifs <;> simp
    rw [List.map_cons, List.sum_cons, List.length_cons]
    omega

/-- A string's text is read as it. -/
theorem readString_writeString (text : String) (rest : List Char) : readString (writeString text ++ rest) = some (text, rest) := by
  have long := length_flatMap_escaped text.toList
  have written : writeString text ++ rest = QUOTE :: (text.toList.flatMap escaped ++ QUOTE :: rest) := by
    rw [writeString_eq, List.cons_append, List.append_assoc, List.singleton_append]
  rw [written, readString, if_pos rfl, readCharacters_flatMap _ _ (by rw [List.length_append]; omega)]
  exact congrArg (fun text => some (text, rest)) String.ofList_toList

/-- What ends a value: the text's end, a comma or a close. -/
def Ends (rest : List Char) : Prop := ∀ character ∈ rest.head?, character = ',' ∨ character = ']' ∨ character = '}'

theorem Ends.not_digit (ends : Ends (character :: rest)) : character.isDigit = false := by
  rcases ends character rfl with rfl | rfl | rfl <;> rfl

theorem readDigits_append (all : characters.all Char.isDigit = true) (ends : Ends rest) :
    readDigits (characters ++ rest) = (characters, rest) := by
  have digits := List.all_eq_true.mp all
  unfold readDigits
  rw [List.takeWhile_append_of_pos digits, List.dropWhile_append_of_pos digits]
  cases rest with
  | nil => simp
  | cons character after =>
    have other := ends.not_digit
    simp [other]

theorem readFraction_ends (ends : Ends rest) : readFraction rest = some ([], rest) := by
  cases rest with
  | nil => rfl
  | cons character after => rcases ends character rfl with rfl | rfl | rfl <;> rfl

theorem readExponent_ends (ends : Ends rest) : readExponent rest = some ([], rest) := by
  cases rest with
  | nil => rfl
  | cons character after => rcases ends character rfl with rfl | rfl | rfl <;> rfl

/-- A number's digits begin with a nought only where it is nought. -/
theorem head_toDigits (zero : (toDigits 10 n).head? = some '0') : n = 0 := by
  induction n using Nat.strong_induction_on with
  | _ n ih =>
    by_cases below : n < 10
    · rw [Nat.toDigits_of_lt_base below] at zero
      interval_cases n <;> first | rfl | cases zero
    · rw [Nat.toDigits_of_base_le (by decide) (by omega), List.head?_append] at zero
      have above : (toDigits 10 (n / 10)).head? = some '0' := by
        cases first : (toDigits 10 (n / 10)).head? with
        | none => exact absurd (List.head?_eq_none_iff.mp first) Nat.toDigits_ne_nil
        | some digit =>
          rw [first] at zero
          exact zero
      have none' := ih (n / 10) (by omega) above
      omega

/-- A whole number's text is read as it, where a double holds it. -/
theorem readNumber_wholeText {value : Int} (small : value.natAbs < EXACT) (ends : Ends rest) :
    readNumber ((wholeText value).toList ++ rest) = some (.whole value, rest) := by
  have all : (toDigits 10 value.natAbs).all Char.isDigit = true := List.all_eq_true.mpr fun _ => Limbs.digit_of_toDigits
  have size : ofDigitChars 10 (toDigits 10 value.natAbs) 0 = value.natAbs := Nat.ofDigitChars_ten_toDigits
  have proper : ¬(toDigits 10 value.natAbs = [] ∨
      ((toDigits 10 value.natAbs).head? = some '0' ∧ (toDigits 10 value.natAbs).length ≠ 1)) := by
    rintro (none' | ⟨zero, long⟩)
    · exact Nat.toDigits_ne_nil none'
    · rw [head_toDigits zero] at long
      exact long rfl
  have bound : value.natAbs < 2 ^ 53 := small
  have read : ∀ negative : Bool, (if negative then -(value.natAbs : Int) else value.natAbs) = value → (negative = true → value ≠ 0) →
      readNumber ((if negative then ['-'] else []) ++ toDigits 10 value.natAbs ++ rest) = some (.whole value, rest) := by
    intro negative signed some'
    have sign : readMinus ((if negative then ['-'] else []) ++ toDigits 10 value.natAbs ++ rest) =
        (negative, toDigits 10 value.natAbs ++ rest) := by
      cases negative with
      | true => rfl
      | false =>
        match digits : toDigits 10 value.natAbs, @Nat.toDigits_ne_nil value.natAbs 10 with
        | digit :: others, _ =>
          have is : digit.isDigit = true := Limbs.digit_of_toDigits (digits ▸ List.mem_cons_self)
          have other : digit ≠ '-' := by
            rintro rfl
            cases is
          exact if_neg other
    have whole : ¬(negative = true ∧ ofDigitChars 10 (toDigits 10 value.natAbs) 0 = 0) := by
      rintro ⟨minus, zero⟩
      rw [size] at zero
      exact some' minus (Int.natAbs_eq_zero.mp zero)
    unfold readNumber
    rw [sign]
    dsimp only
    rw [readDigits_append all ends]
    dsimp only
    rw [if_neg proper, readFraction_ends ends]
    dsimp only [bind, Option.bind]
    rw [readExponent_ends ends]
    dsimp only [bind, Option.bind]
    rw [if_pos ⟨rfl, rfl, whole, by rw [size, signed]; omega, by rw [size, signed]; omega⟩, size, signed]
    rfl
  unfold wholeText
  rw [String.toList_ofList]
  split_ifs with negative
  · exact read true (by rw [if_pos rfl]; omega) fun _ => by omega
  · exact read false (by rw [if_neg Bool.false_ne_true]; omega) nofun

end

end MeridianCore.AnalyticsEngine.Canonical
