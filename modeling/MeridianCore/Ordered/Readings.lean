import Mathlib

/-! A clock some offset off a time, the offset changing with the time. A reading may be the clock's once, more than once
where a change sets it back, or never where a change sets it on. -/

namespace MeridianCore

variable {offset : ℤ → ℤ} {reading reach t v : ℤ}

/-- The clock reads so at `v`. -/
def Reads (offset : ℤ → ℤ) (reading v : ℤ) : Prop := v + offset v = reading

/-- A change at `t` skips the reading: it is no earlier than what the clock would have read, and earlier than what it reads. -/
def Skips (offset : ℤ → ℤ) (reading t : ℤ) : Prop := t + offset (t - 1) ≤ reading ∧ reading < t + offset t

/-- The time a reading names: the first the clock reads so at; and where it never does, the reading less the offset
before the change that skips it. -/
def Named (offset : ℤ → ℤ) (reading v : ℤ) : Prop :=
  IsLeast {v | Reads offset reading v} v ∨
    (∀ w, ¬ Reads offset reading w) ∧ ∃ t, Skips offset reading t ∧ v = reading - offset (t - 1)

/-- The time found by looking twice: at the offset of the reading taken for the time, and of the time that gives. -/
def looked (offset : ℤ → ℤ) (reading : ℤ) : ℤ := reading - offset (reading - offset reading)

/-- No offset is more than the reach, and within reach of a reading the offset changes at `t` alone, if at all. -/
structure Alone (offset : ℤ → ℤ) (reading reach t before after : ℤ) : Prop where
  bounded : ∀ v, |offset v| ≤ reach
  bounds : |before| ≤ reach ∧ |after| ≤ reach
  changes : ∀ v, |v - reading| ≤ reach → offset v = if v < t then before else after

theorem Reads.near (reads : Reads offset reading v) (bounded : ∀ v, |offset v| ≤ reach) : |v - reading| ≤ reach := by
  have bound := bounded v
  unfold Reads at reads
  rw [← reads, abs_le] at *
  constructor <;> omega

theorem Skips.near (skips : Skips offset reading t) (bounded : ∀ v, |offset v| ≤ reach) :
    |t - reading| ≤ reach ∧ |t - 1 - reading| ≤ reach := by
  have before := abs_le.mp (bounded (t - 1))
  have after := abs_le.mp (bounded t)
  obtain ⟨low, high⟩ := skips
  rw [abs_le, abs_le]
  omega

theorem Named.near (named : Named offset reading v) (bounded : ∀ v, |offset v| ≤ reach) : |v - reading| ≤ reach := by
  rcases named with least | ⟨-, t, -, rfl⟩
  · exact Reads.near least.1 bounded
  · have bound := bounded (t - 1)
    rwa [sub_sub_cancel_left, abs_neg]

/-- Every reading names a time, of a clock whose offsets are bounded. -/
theorem exists_named (bounded : ∀ v, |offset v| ≤ reach) (reading : ℤ) : ∃ v, Named offset reading v := by
  by_cases read : ∃ v, Reads offset reading v
  · obtain ⟨v, reads⟩ := read
    have below : ∀ w, Reads offset reading w → reading - reach ≤ w := fun w reads => by
      have near := abs_le.mp (reads.near bounded)
      omega
    obtain ⟨least, reads, first⟩ := Int.exists_least_of_bdd ⟨_, below⟩ ⟨v, reads⟩
    exact ⟨least, .inl ⟨reads, first⟩⟩
  · push Not at read
    have above : ∀ w, w + offset w ≤ reading → w ≤ reading + reach := fun w below => by
      have bound := abs_le.mp (bounded w)
      omega
    have some' : reading - reach + offset (reading - reach) ≤ reading := by
      have bound := abs_le.mp (bounded (reading - reach))
      omega
    obtain ⟨last, below, greatest⟩ := Int.exists_greatest_of_bdd ⟨_, above⟩ ⟨_, some'⟩
    have less : last + offset last < reading := lt_of_le_of_ne below (read last)
    have more : reading < last + 1 + offset (last + 1) := by
      by_contra least
      have most := greatest (last + 1) (not_lt.mp least)
      omega
    refine ⟨reading - offset last, .inr ⟨read, last + 1, ⟨?_, more⟩, ?_⟩⟩
    · rw [add_sub_cancel_right]
      omega
    · rw [add_sub_cancel_right]

/-- What is looked up is the time named exactly where the second look is at its offset. -/
theorem looked_eq_iff : looked offset reading = v ↔ offset (reading - offset reading) = reading - v := by
  unfold looked
  omega

section alone
variable {before after : ℤ}

theorem Alone.reads_iff (alone : Alone offset reading reach t before after) :
    Reads offset reading v ↔ v = reading - before ∧ v < t ∨ v = reading - after ∧ t ≤ v := by
  constructor
  · intro reads
    have near := reads.near alone.bounded
    unfold Reads at reads
    rw [alone.changes v near] at reads
    split at reads <;> omega
  · rintro (⟨rfl, early⟩ | ⟨rfl, late⟩)
    · rw [Reads, alone.changes _ (by rw [sub_sub_cancel_left, abs_neg]; exact alone.bounds.1), if_pos early, sub_add_cancel]
    · rw [Reads, alone.changes _ (by rw [sub_sub_cancel_left, abs_neg]; exact alone.bounds.2), if_neg (not_lt.mpr late),
        sub_add_cancel]

theorem Alone.looked_eq (alone : Alone offset reading reach t before after) :
    looked offset reading = if reading < t then (if reading - before < t then reading - before else reading - after)
      else if reading - after < t then reading - before else reading - after := by
  have positive : 0 ≤ reach := (abs_nonneg before).trans alone.bounds.1
  have first : offset reading = if reading < t then before else after :=
    alone.changes reading (by rwa [sub_self, abs_zero])
  unfold looked
  rw [first]
  split
  · rw [alone.changes _ (by rw [sub_sub_cancel_left, abs_neg]; exact alone.bounds.1)]
    split <;> rfl
  · rw [alone.changes _ (by rw [sub_sub_cancel_left, abs_neg]; exact alone.bounds.2)]
    split <;> rfl

/-- What a reading names within reach of one change: the time before it where the change has not come by then, the time
after it where it has, and where it has skipped the reading the time at the offset before. -/
theorem Alone.named_iff (alone : Alone offset reading reach t before after) :
    Named offset reading v ↔ v = if t ≤ reading - before ∧ t ≤ reading - after then reading - after else reading - before := by
  have read {w : ℤ} := @Alone.reads_iff offset reading reach t w before after alone
  constructor
  · rintro (⟨reads, least⟩ | ⟨never, u, skips, rfl⟩)
    · have reads := read.mp reads
      split
      · omega
      · next early =>
        rcases reads with reads | ⟨rfl, late⟩
        · exact reads.1
        · -- The reading before the change is an earlier one.
          have first := least (read.mpr (.inl ⟨rfl, by omega⟩))
          omega
    · obtain ⟨near, near'⟩ := skips.near alone.bounded
      have change : u = t := by
        have skips := skips
        unfold Skips at skips
        rw [alone.changes _ near, alone.changes _ near'] at skips
        split at skips <;> split at skips <;> omega
      subst change
      rw [alone.changes _ near', if_pos (sub_one_lt u), if_neg]
      rintro ⟨-, late⟩
      exact never _ (read.mpr (.inr ⟨rfl, late⟩))
  · rintro rfl
    split
    · next late =>
      left
      refine ⟨read.mpr (.inr ⟨rfl, late.2⟩), fun w reads => ?_⟩
      rcases read.mp reads with early | same
      · omega
      · exact same.1.ge
    · next early =>
      by_cases before' : reading - before < t
      · left
        refine ⟨read.mpr (.inl ⟨rfl, before'⟩), fun w reads => ?_⟩
        rcases read.mp reads with same | late
        · exact same.1.ge
        · omega
      · right
        have bounds := alone.bounds
        rw [abs_le, abs_le] at bounds
        have at_ := alone.changes t (by rw [abs_le]; omega)
        have ago := alone.changes (t - 1) (by rw [abs_le]; omega)
        rw [if_neg (lt_irrefl t)] at at_
        rw [if_pos (sub_one_lt t)] at ago
        refine ⟨fun w reads => ?_, t, ?_, by rw [ago]⟩
        · have reads := read.mp reads
          omega
        · rw [Skips, at_, ago]
          omega

/-- Looking twice finds the time named but where the change skips the reading and comes later than it, or repeats it
and comes no later. -/
theorem Alone.looked_named_iff (alone : Alone offset reading reach t before after) :
    Named offset reading (looked offset reading) ↔
      ¬ (t ≤ reading - before ∧ reading - after < t ∧ reading < t) ∧
        ¬ (reading - before < t ∧ t ≤ reading - after ∧ t ≤ reading) := by
  rw [alone.named_iff, alone.looked_eq]
  split <;> split <;> split <;> omega

end alone

end MeridianCore
