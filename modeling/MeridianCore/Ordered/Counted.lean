import Mathlib

/-! Counting along a line whose points are known in part: a point is good, not good or not known. What is counted or
stepped to rests on known points alone. -/

namespace MeridianCore

/-- A line known in part: whether a point is good, where that is known. -/
abbrev Marks := ℤ → Option Bool

namespace Marks

def Known (marks : Marks) (point : ℤ) : Prop := ∃ good, marks point = some good

/-- The good points after one, up to another. -/
noncomputable def goodAfter (marks : Marks) (from_ to_ : ℤ) : Finset ℤ := (Finset.Ioc from_ to_).filter fun point => marks point = some true

/-- The `n`th good point after another, every point counted over known. -/
structure Nth (marks : Marks) (from_ : ℤ) (n : ℕ) (to_ : ℤ) : Prop where
  after : from_ < to_
  known : ∀ point, from_ < point → point ≤ to_ → marks.Known point
  good : marks to_ = some true
  count : (marks.goodAfter from_ to_).card = n

/-- The first good point from one on, a step at a time in a direction, every point passed known not to be good. -/
structure Nearest (marks : Marks) (direction from_ to_ : ℤ) : Prop where
  good : marks to_ = some true
  passed : ∃ steps : ℕ, to_ = from_ + direction * steps ∧ ∀ step < steps, marks (from_ + direction * step) = some false

variable {marks : Marks} {direction a b x y : ℤ} {n : ℕ}

theorem mem_goodAfter {point : ℤ} : point ∈ marks.goodAfter a b ↔ (a < point ∧ point ≤ b) ∧ marks point = some true := by
  rw [goodAfter, Finset.mem_filter, Finset.mem_Ioc]

/-- The same count from no earlier a point ends no earlier. -/
theorem Nth.mono (first : Nth marks a n x) (second : Nth marks b n y) (le : a ≤ b) : x ≤ y := by
  by_contra before
  have counted : marks.goodAfter b y ⊂ marks.goodAfter a x := by
    rw [Finset.ssubset_iff_of_subset]
    · refine ⟨x, mem_goodAfter.mpr ⟨⟨first.after, le_rfl⟩, first.good⟩, fun member => ?_⟩
      have within := (mem_goodAfter.mp member).1.2
      omega
    · intro point member
      obtain ⟨⟨after, upTo⟩, good⟩ := mem_goodAfter.mp member
      exact mem_goodAfter.mpr ⟨⟨by omega, by omega⟩, good⟩
  have fewer := Finset.card_lt_card counted
  rw [first.count, second.count] at fewer
  exact lt_irrefl n fewer

/-- A count is found one good point at a time: past a point not good the count stands, and past a good one it is one less. -/
theorem Nth.after_closed (closed : marks (a + 1) = some false) (counted : Nth marks (a + 1) n x) : Nth marks a n x where
  after := by
    have after := counted.after
    omega
  known := fun point after upTo => by
    rcases eq_or_lt_of_le (show a + 1 ≤ point by omega) with rfl | later
    · exact ⟨false, closed⟩
    · exact counted.known point later upTo
  good := counted.good
  count := by
    rw [← counted.count]
    congr 1
    ext point
    rw [mem_goodAfter, mem_goodAfter]
    constructor
    · rintro ⟨⟨after, upTo⟩, good⟩
      refine ⟨⟨lt_of_le_of_ne (by omega) fun same => ?_, upTo⟩, good⟩
      rw [← same, closed] at good
      cases good
    · rintro ⟨⟨after, upTo⟩, good⟩
      exact ⟨⟨by omega, upTo⟩, good⟩

theorem Nth.one (good : marks (a + 1) = some true) : Nth marks a 1 (a + 1) where
  after := by omega
  known := fun point after upTo => by
    obtain rfl : point = a + 1 := by omega
    exact ⟨true, good⟩
  good := good
  count := by
    rw [Finset.card_eq_one]
    refine ⟨a + 1, ?_⟩
    ext point
    rw [mem_goodAfter, Finset.mem_singleton]
    constructor
    · rintro ⟨⟨after, upTo⟩, -⟩
      omega
    · rintro rfl
      exact ⟨⟨by omega, le_rfl⟩, good⟩

theorem Nth.after_good (good : marks (a + 1) = some true) (counted : Nth marks (a + 1) n x) : Nth marks a (n + 1) x where
  after := by
    have after := counted.after
    omega
  known := fun point after upTo => by
    rcases eq_or_lt_of_le (show a + 1 ≤ point by omega) with rfl | later
    · exact ⟨true, good⟩
    · exact counted.known point later upTo
  good := counted.good
  count := by
    have after := counted.after
    rw [← counted.count, ← Finset.card_insert_of_notMem (a := a + 1) fun member => lt_irrefl _ (mem_goodAfter.mp member).1.1]
    congr 1
    ext point
    rw [Finset.mem_insert, mem_goodAfter, mem_goodAfter]
    constructor
    · rintro ⟨⟨after', upTo⟩, good'⟩
      rcases eq_or_lt_of_le (show a + 1 ≤ point by omega) with rfl | later
      · exact .inl rfl
      · exact .inr ⟨⟨later, upTo⟩, good'⟩
    · rintro (rfl | ⟨⟨after', upTo⟩, good'⟩)
      · exact ⟨⟨by omega, by omega⟩, good⟩
      · exact ⟨⟨by omega, upTo⟩, good'⟩

theorem Nearest.here (good : marks a = some true) : Nearest marks direction a a :=
  ⟨good, 0, by simp, fun step before => absurd before (Nat.not_lt_zero step)⟩

theorem Nearest.past (closed : marks a = some false) (near : Nearest marks direction (a + direction) x) :
    Nearest marks direction a x := by
  obtain ⟨good, steps, reached, passed⟩ := near
  refine ⟨good, steps + 1, by rw [reached]; push_cast; ring, fun step before => ?_⟩
  cases step with
  | zero => simpa using closed
  | succ step =>
    have earlier := passed step (by omega)
    rw [← earlier]
    congr 1
    push_cast
    ring

/-- Stepping on, every point from the start to the end is known, and the end is the first that is good. -/
theorem Nearest.first (near : Nearest marks 1 a x) : a ≤ x ∧ ∀ point, a ≤ point → point < x → marks point = some false := by
  obtain ⟨-, steps, rfl, passed⟩ := near
  refine ⟨by omega, fun point from_ before => ?_⟩
  have earlier := passed (point - a).toNat (by omega)
  rwa [one_mul, Int.toNat_of_nonneg (by omega), add_sub_cancel] at earlier

/-- Stepping on from no earlier a point ends no earlier. -/
theorem Nearest.mono (first : Nearest marks 1 a x) (second : Nearest marks 1 b y) (le : a ≤ b) : x ≤ y := by
  by_contra before
  have closed := first.first.2 y (le.trans second.first.1) (not_le.mp before)
  rw [second.good] at closed
  cases closed

end Marks

end MeridianCore
