import Mathlib

/-! A loop given so many steps: it moves until its test holds, and answers where it stopped or nothing where the steps
run out. What it answers with enough steps is the first state of its run where the test holds. -/

namespace MeridianCore

variable {σ α β : Type*}

/-- What a run given steps answers once they are enough. -/
def Answers (run : Nat → Option α) (answer : α) : Prop := ∃ enough, ∀ fuel, enough ≤ fuel → run fuel = some answer

namespace Answers

theorem pure (answer : α) : Answers (fun _ => some answer) answer := ⟨0, fun _ _ => rfl⟩

theorem bind {first : Nat → Option α} {next : Nat → α → Option β} {middle : α} {answer : β} (before : Answers first middle)
    (after : Answers (fun fuel => next fuel middle) answer) : Answers (fun fuel => (first fuel).bind (next fuel)) answer := by
  obtain ⟨enough, holds⟩ := before
  obtain ⟨more, later⟩ := after
  refine ⟨max enough more, fun fuel le => ?_⟩
  dsimp only
  rw [holds fuel (le_trans (le_max_left _ _) le), Option.bind_some]
  exact later fuel (le_trans (le_max_right _ _) le)

theorem congr {run other : Nat → Option α} {answer : α} (answers : Answers run answer) (same : ∀ fuel, other fuel = run fuel) :
    Answers other answer := by
  obtain ⟨enough, holds⟩ := answers
  exact ⟨enough, fun fuel le => (same fuel).trans (holds fuel le)⟩

theorem exists_ {run : Nat → Option α} {answer : α} (answers : Answers run answer) : ∃ fuel, run fuel = some answer := by
  obtain ⟨enough, holds⟩ := answers
  exact ⟨enough, holds enough le_rfl⟩

end Answers

/-- Where a loop stops, moving until its test holds. -/
def search (stops : σ → Bool) (move : σ → σ) : Nat → σ → Option σ
  | 0, _ => none
  | fuel + 1, state => if stops state then some state else search stops move fuel (move state)

/-- The first state of a loop's run where its test holds, so many moves on. -/
def FirstStop (stops : σ → Bool) (move : σ → σ) (state : σ) (n : Nat) : Prop :=
  stops (move^[n] state) = true ∧ ∀ m < n, stops (move^[m] state) = false

section
variable {stops : σ → Bool} {move : σ → σ} {state last : σ} {n fuel : Nat}

theorem firstStop_succ (moves : stops state = false) :
    FirstStop stops move state (n + 1) ↔ FirstStop stops move (move state) n := by
  unfold FirstStop
  rw [Function.iterate_succ_apply]
  refine and_congr_right fun _ => ?_
  constructor
  · intro before m below
    rw [← Function.iterate_succ_apply]
    exact before (m + 1) (by omega)
  · intro before m below
    cases m with
    | zero => exact moves
    | succ m =>
      rw [Function.iterate_succ_apply]
      exact before m (by omega)

/-- A loop with more steps than it makes stops where its test first holds. -/
theorem search_of_firstStop (first : FirstStop stops move state n) (more : n < fuel) :
    search stops move fuel state = some (move^[n] state) := by
  induction n generalizing state fuel with
  | zero =>
    obtain ⟨fuel, rfl⟩ : ∃ k, fuel = k + 1 := ⟨fuel - 1, by omega⟩
    have now : stops state = true := first.1
    rw [search, if_pos now]
    rfl
  | succ n ih =>
    obtain ⟨fuel, rfl⟩ : ∃ k, fuel = k + 1 := ⟨fuel - 1, by omega⟩
    have moves : stops state = false := first.2 0 (by omega)
    rw [search, if_neg (by rw [moves]; exact Bool.false_ne_true), ih ((firstStop_succ moves).mp first) (by omega),
      Function.iterate_succ_apply]

/-- A loop that stopped did where its test first holds. -/
theorem firstStop_of_search (stopped : search stops move fuel state = some last) :
    ∃ n, FirstStop stops move state n ∧ move^[n] state = last := by
  induction fuel generalizing state with
  | zero => cases stopped
  | succ fuel ih =>
    rw [search] at stopped
    cases now : stops state with
    | true =>
      rw [if_pos now] at stopped
      exact ⟨0, ⟨now, fun m below => absurd below (Nat.not_lt_zero m)⟩, Option.some.inj stopped⟩
    | false =>
      rw [if_neg (by rw [now]; exact Bool.false_ne_true)] at stopped
      obtain ⟨n, first, same⟩ := ih stopped
      exact ⟨n + 1, (firstStop_succ now).mpr first, same⟩

theorem search_answers (first : FirstStop stops move state n) :
    Answers (fun fuel => search stops move fuel state) (move^[n] state) :=
  ⟨n + 1, fun _ more => search_of_firstStop first more⟩

/-- A test that holds anywhere on a loop's run holds first somewhere. -/
theorem exists_firstStop (holds : stops (move^[n] state) = true) : ∃ m ≤ n, FirstStop stops move state m := by
  have some' : ∃ m, stops (move^[m] state) = true := ⟨n, holds⟩
  refine ⟨Nat.find some', Nat.find_min' some' holds, Nat.find_spec some', fun m below => ?_⟩
  exact Bool.eq_false_iff.mpr (Nat.find_min some' below)

end

end MeridianCore
