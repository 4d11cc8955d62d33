import Mathlib

/-! Names in segments, and the patterns that take them a segment at a time. -/

namespace MeridianCore.Segmented

/-- A piece of a pattern: exactly one segment whatever it is, every segment from here on and at least one, or this one. -/
inductive Piece (α : Type*) where
  | one
  | tail
  | literal (segment : α)
  deriving DecidableEq

section Delivers

variable {α : Type*} {pattern before rest : List (Piece α)} {name : List α} {segment : α}

/-- A name a pattern takes, the tail only as its last piece. -/
inductive Delivers : List (Piece α) → List α → Prop where
  | done : Delivers [] []
  | one {pattern : List (Piece α)} {name : List α} (segment : α) : Delivers pattern name → Delivers (.one :: pattern) (segment :: name)
  | literal {pattern : List (Piece α)} {name : List α} (segment : α) :
      Delivers pattern name → Delivers (.literal segment :: pattern) (segment :: name)
  | tail (segment : α) (name : List α) : Delivers [.tail] (segment :: name)

theorem delivers_nil : Delivers [] name ↔ name = [] := by
  constructor
  · intro delivers
    cases delivers
    rfl
  · rintro rfl
    exact .done

theorem delivers_one : Delivers (.one :: pattern) name ↔ ∃ segment rest, name = segment :: rest ∧ Delivers pattern rest := by
  constructor
  · intro delivers
    cases delivers with
    | one segment delivers => exact ⟨_, _, rfl, delivers⟩
  · rintro ⟨segment, rest, rfl, delivers⟩
    exact .one segment delivers

theorem delivers_literal : Delivers (.literal segment :: pattern) name ↔ ∃ rest, name = segment :: rest ∧ Delivers pattern rest := by
  constructor
  · intro delivers
    cases delivers with
    | literal _ delivers => exact ⟨_, rfl, delivers⟩
  · rintro ⟨rest, rfl, delivers⟩
    exact .literal segment delivers

theorem delivers_tail : Delivers (.tail :: pattern) name ↔ pattern = [] ∧ name ≠ [] := by
  constructor
  · intro delivers
    cases delivers
    exact ⟨rfl, List.cons_ne_nil _ _⟩
  · rintro ⟨rfl, some'⟩
    obtain ⟨segment, rest, rfl⟩ := List.exists_cons_of_ne_nil some'
    exact .tail segment rest

instance decidableDelivers [DecidableEq α] : (pattern : List (Piece α)) → (name : List α) → Decidable (Delivers pattern name)
  | [], _ => decidable_of_iff' _ delivers_nil
  | .tail :: _, _ => decidable_of_iff' _ delivers_tail
  | .one :: _, [] => isFalse (by simp [delivers_one])
  | .one :: pattern, _ :: rest =>
    have := decidableDelivers pattern rest
    decidable_of_iff (Delivers pattern rest) (by simp [delivers_one])
  | .literal _ :: _, [] => isFalse (by simp [delivers_literal])
  | .literal segment :: pattern, other :: rest =>
    have := decidableDelivers pattern rest
    decidable_of_iff (other = segment ∧ Delivers pattern rest) (by simp [delivers_literal])

/-- What a pattern takes is among what its start and a tail do. -/
theorem Delivers.widened (delivers : Delivers (before ++ rest) name) (more : rest ≠ []) : Delivers (before ++ [.tail]) name := by
  induction before generalizing name with
  | nil =>
    obtain ⟨piece, others, rfl⟩ := List.exists_cons_of_ne_nil more
    cases delivers <;> exact .tail _ _
  | cons piece before ih =>
    cases piece with
    | one =>
      obtain ⟨segment, rest, rfl, later⟩ := delivers_one.mp delivers
      exact .one segment (ih later)
    | literal segment =>
      obtain ⟨rest, rfl, later⟩ := delivers_literal.mp delivers
      exact .literal segment (ih later)
    | tail =>
      obtain ⟨none', -⟩ := delivers_tail.mp delivers
      exact absurd (List.append_eq_nil_iff.mp none').2 more

theorem delivers_literals {names : List α} : Delivers (names.map .literal) name ↔ names = name := by
  induction names generalizing name with
  | nil => exact delivers_nil.trans eq_comm
  | cons first names ih =>
    rw [List.map_cons, delivers_literal]
    constructor
    · rintro ⟨rest, rfl, delivers⟩
      rw [ih.mp delivers]
    · rintro rfl
      exact ⟨names, rfl, ih.mpr rfl⟩

end Delivers

end MeridianCore.Segmented
