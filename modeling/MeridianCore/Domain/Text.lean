import Mathlib

namespace MeridianCore

/-- A character with the Unicode property White_Space. -/
def Text.isWhitespace (c : Char) : Bool :=
  (9 ≤ c.toNat && c.toNat ≤ 13) || (0x2000 ≤ c.toNat && c.toNat ≤ 0x200a) ||
    [0x20, 0x85, 0xa0, 0x1680, 0x2028, 0x2029, 0x202f, 0x205f, 0x3000].contains c.toNat

/-- A text without the white space it starts and ends with. -/
def Text.trim (text : String) : String :=
  String.ofList ((text.toList.dropWhile Text.isWhitespace).reverse.dropWhile Text.isWhitespace).reverse

end MeridianCore

namespace MeridianCore

/-- A text a separator is not in. -/
def Free (separator : Char) (text : String) : Prop := separator ∉ text.toList

/-- Two texts up to a separator neither holds are the same, and what follows it is. -/
theorem split_of_separator {separator : Char} {a a' b b' : List Char} (free : separator ∉ a) (free' : separator ∉ a')
    (same : a ++ separator :: b = a' ++ separator :: b') : a = a' ∧ b = b' := by
  induction a generalizing a' with
  | nil =>
    cases a' with
    | nil => exact ⟨rfl, (List.cons.inj same).2⟩
    | cons c rest =>
      simp only [List.nil_append, List.cons_append, List.cons.injEq] at same
      exact absurd (same.1 ▸ List.mem_cons_self) free'
  | cons c rest ih =>
    cases a' with
    | nil =>
      simp only [List.nil_append, List.cons_append, List.cons.injEq] at same
      exact absurd (same.1 ▸ List.mem_cons_self) free
    | cons c' rest' =>
      simp only [List.cons_append, List.cons.injEq] at same
      have parts := ih (fun member => free (List.mem_cons_of_mem _ member))
        (fun member => free' (List.mem_cons_of_mem _ member)) same.2
      exact ⟨by rw [same.1, parts.1], parts.2⟩

theorem free_nat {separator : Char} (digit : separator.isDigit = false) (n : Nat) : Free separator (toString n) := by
  intro member
  have listed : (toString n).toList = Nat.toDigits 10 n := Nat.toList_repr
  rw [listed] at member
  rw [Nat.isDigit_of_mem_toDigits (by decide) (by decide) member] at digit
  cases digit

theorem free_int {separator : Char} (digit : separator.isDigit = false) (sign : separator ≠ '-') (n : Int) :
    Free separator (toString n) := by
  cases n with
  | ofNat n => exact free_nat digit n
  | negSucc n =>
    have said : toString (Int.negSucc n) = "-" ++ toString (n + 1) := rfl
    unfold Free
    rw [said, String.toList_append, List.mem_append, not_or]
    exact ⟨by simpa using sign, free_nat digit (n + 1)⟩

end MeridianCore
