import MeridianCore.Bor.Became
import MeridianCore.Ordered.Within

/-! How far a replacement is followed. Two IDs are compared by the records each became, and each is followed eight
times at most, so two on one chain compare by how far each is from its end. -/

namespace MeridianCore.Bor.Process

open Pointers

variable {process : Process} {n : Nat} {a b v x y k : String}

/-- What each ID the process was told of was replaced by. -/
def replacements (process : Process) : Pointers String := fun a => process.became[a]?

/-- A replacement told of that is kept: an ID replaced by another. -/
def Replaces (call : String × String) : Prop := call.1 ≠ "" ∧ call.2 ≠ "" ∧ call.1 ≠ call.2

instance (call : String × String) : Decidable (Replaces call) :=
  inferInstanceAs (Decidable (call.1 ≠ "" ∧ call.2 ≠ "" ∧ call.1 ≠ call.2))

/-- What a process has learned once it was told of each replacement in order. -/
def told (calls : List (String × String)) : Process := calls.foldl (fun held call => held.record call.1 call.2) {}

/-- What was recorded of an ID last unifies it with what it was replaced by, and two IDs are one exactly where the
replacements followed from each end at one. -/
structure Unifies (calls : List (String × String)) : Prop where
  last : ∀ before replaced replacement after, calls = before ++ (replaced, replacement) :: after →
    Replaces (replaced, replacement) → (∀ call ∈ after, call.1 = replaced → ¬ Replaces call) →
    (told calls).same replaced replacement = true
  ends : ∀ x y, (told calls).same x y = true ↔
    ∃ k, (told calls).replacements.EndsAt x k ∧ (told calls).replacements.EndsAt y k

theorem record_kept (kept : Replaces (a, b)) : (process.record a b).became = process.became.insert a b := by
  obtain ⟨some', other, apart⟩ := kept
  rw [record, if_neg]
  rintro (empty | empty | same)
  · exact some' empty
  · exact other empty
  · exact apart same

theorem record_ignored (ignored : ¬ Replaces (a, b)) : process.record a b = process := by
  rw [record, if_pos]
  by_contra none'
  simp only [not_or] at none'
  exact ignored none'

theorem record_apart {call : String × String} (apart : call.1 = x → ¬ Replaces call) :
    (process.record call.1 call.2).became[x]? = process.became[x]? := by
  by_cases kept : Replaces call
  · have other : ¬ call.1 = x := fun same => apart same kept
    rw [record_kept kept, Std.ExtTreeMap.getElem?_insert, if_neg]
    rwa [Std.LawfulEqCmp.compare_eq_iff_eq]
  · rw [record_ignored kept]

theorem told_apart {calls : List (String × String)} (apart : ∀ call ∈ calls, call.1 = x → ¬ Replaces call) :
    (calls.foldl (fun held call => held.record call.1 call.2) process).became[x]? = process.became[x]? := by
  induction calls generalizing process with
  | nil => rfl
  | cons call rest ih =>
    rw [List.foldl_cons, ih fun later member => apart later (List.mem_cons_of_mem _ member)]
    exact record_apart (apart call List.mem_cons_self)

/-- The last replacement told of an ID is the one held. -/
theorem told_last {before after : List (String × String)} (kept : Replaces (a, b))
    (last : ∀ call ∈ after, call.1 = a → ¬ Replaces call) :
    (told (before ++ (a, b) :: after)).replacements a = some b := by
  rw [replacements, told, List.foldl_append, List.foldl_cons, told_apart last]
  rw [record_kept kept]
  exact Std.ExtTreeMap.getElem?_insert_self

/-- No ID is led back to, so none is held as replaced by itself. -/
theorem replaced_other (unwound : process.replacements.Unwound) (step : process.replacements a = some b) : b ≠ a := by
  intro same
  rw [same] at step
  exact unwound a (.single step)

theorem follow_last (last : process.replacements a = none) : follow process.became n a = a := by
  cases n with
  | zero => rfl
  | succ n =>
    have none' : process.became[a]? = none := last
    rw [follow, none']

theorem follow_step (unwound : process.replacements.Unwound) (step : process.replacements a = some b) :
    follow process.became (n + 1) a = follow process.became n b := by
  have held : process.became[a]? = some b := step
  rw [follow, held]
  exact if_pos (replaced_other unwound step)

/-- An ID as many replacements from its end as are followed comes to its end. -/
theorem follow_ends (unwound : process.replacements.Unwound) (within : process.replacements.EndsWithin n a) :
    process.replacements.EndsAt a (follow process.became n a) := by
  induction n generalizing a with
  | zero => exact endsAt_self within
  | succ n ih =>
    cases step : process.replacements a with
    | none =>
      rw [follow_last step]
      exact endsAt_self step
    | some b =>
      rw [follow_step unwound step]
      exact endsAt_head step (ih (within b step))

/-- An ID further from its end is followed to one short of where what replaced it is. -/
theorem follow_short (unwound : process.replacements.Unwound) (far : ¬ process.replacements.EndsWithin n a) :
    ∃ b v, process.replacements a = some b ∧ process.replacements (follow process.became n a) = some v ∧
      follow process.became n b = v := by
  induction n generalizing a with
  | zero =>
    obtain ⟨b, step⟩ := Option.ne_none_iff_exists'.mp far
    exact ⟨b, b, step, step, rfl⟩
  | succ n ih =>
    have further : ∃ b, process.replacements a = some b ∧ ¬ process.replacements.EndsWithin n b := by
      by_contra none'
      push_neg at none'
      exact far none'
    obtain ⟨b, step, far'⟩ := further
    obtain ⟨c, v, next, short, reached⟩ := ih far'
    refine ⟨b, v, step, ?_, ?_⟩
    · rw [follow_step unwound step]
      exact short
    · rw [follow_step unwound next]
      exact reached

theorem same_iff : process.same x y = true ↔ x = y ∨ process.current x = process.current y := by
  rw [same, Bool.or_eq_true, beq_iff_eq, beq_iff_eq]

/-- Where every ID is eight replacements from its end at most, two are one where they end at one. -/
theorem same_iff_ends (unwound : process.replacements.Unwound)
    (within : ∀ a, process.replacements.EndsWithin 8 a) :
    process.same x y = true ↔ ∃ k, process.replacements.EndsAt x k ∧ process.replacements.EndsAt y k := by
  have endsX := follow_ends unwound (within x)
  have endsY := follow_ends unwound (within y)
  rw [same_iff]
  constructor
  · rintro (rfl | equal)
    · exact ⟨_, endsX, endsX⟩
    · exact ⟨process.current x, endsX, equal ▸ endsY⟩
  · rintro ⟨k, first, second⟩
    exact .inr ((endsAt_unique endsX first).trans (endsAt_unique endsY second).symm)

/-- An ID more than eight replacements from its end is not one with what replaced it. -/
theorem apart_of_far (unwound : process.replacements.Unwound) (far : ¬ process.replacements.EndsWithin 8 a) :
    ∃ b, process.replacements a = some b ∧ process.same a b = false := by
  obtain ⟨b, v, step, short, reached⟩ := follow_short unwound far
  refine ⟨b, step, Bool.eq_false_iff.mpr fun equal => ?_⟩
  rcases same_iff.mp equal with same | same
  · exact replaced_other unwound step same.symm
  · have last : process.current a = v := same.trans reached
    have short' : process.replacements (process.current a) = some v := short
    rw [last] at short'
    exact unwound v (.single short')

/-- Recorded replacements unify what they name exactly where none is more than eight from its end. -/
theorem unifies_iff {calls : List (String × String)} (unwound : (told calls).replacements.Unwound) :
    Unifies calls ↔ ∀ a, (told calls).replacements.EndsWithin 8 a := by
  constructor
  · intro unifies a
    by_contra far
    obtain ⟨b, step, apart⟩ := apart_of_far unwound far
    have from_ : ∀ a b, (told calls).replacements a = some b → a ∈ (told calls).became := fun a b held =>
      Std.ExtTreeMap.mem_iff_isSome_getElem?.mpr (Option.isSome_of_eq_some held)
    obtain ⟨k, ends⟩ := exists_endsAt unwound from_ b
    rw [(unifies.ends a b).mpr ⟨k, endsAt_head step ends, ends⟩] at apart
    cases apart
  · intro within
    refine ⟨?_, fun x y => same_iff_ends unwound within⟩
    rintro before replaced replacement after rfl kept last
    have step := @told_last replaced replacement before after kept last
    have ends := follow_ends unwound (within replacement)
    exact (same_iff_ends unwound within).mpr ⟨_, endsAt_head step ends, ends⟩

/-- Replacements that each name a longer ID, of IDs no longer than `n`, come to an end. -/
theorem within_of_longer (longer : ∀ entry ∈ process.became.toList, entry.1.length < entry.2.length ∧ entry.1.length ≤ n)
    (a : String) : process.replacements.EndsWithin (n + 1) a := by
  have ends (hops : Nat) : ∀ a : String, n < a.length + hops → process.replacements.EndsWithin hops a := by
    induction hops with
    | zero =>
      intro a long
      by_contra some'
      obtain ⟨b, step⟩ := Option.ne_none_iff_exists'.mp some'
      exact absurd (longer (a, b) (BTreeMap.mem_toList.mpr step)).2 (not_le.mpr long)
    | succ hops ih =>
      intro a long b step
      have grows := (longer (a, b) (BTreeMap.mem_toList.mpr step)).1
      exact ih b (by dsimp only at grows; omega)
  exact ends (n + 1) a (by omega)

/-- A record replaced so many times, one after another. -/
def chainOf (count : Nat) : List (String × String) :=
  (List.range count).map fun n => (String.ofList (List.replicate (n + 1) 'I'), String.ofList (List.replicate (n + 2) 'I'))

/-- Three replacements on one chain are unified. -/
theorem three_unified : Unifies (chainOf 3) := by
  have within : ∀ a, (told (chainOf 3)).replacements.EndsWithin 8 a :=
    within_of_longer (by decide +kernel)
  exact (unifies_iff (unwound_of_within within)).mpr within

/-- A record replaced nine times over is not one with what it was replaced by first. -/
theorem ninth_apart : ¬ ∀ calls, (told calls).replacements.Unwound → Unifies calls := by
  intro claim
  have within : ∀ a, (told (chainOf 9)).replacements.EndsWithin 10 a :=
    within_of_longer (by decide +kernel)
  have unified := (claim (chainOf 9) (unwound_of_within within)).last [] "I" "II" (chainOf 9).tail (by decide +kernel)
    (by decide) (by decide +kernel)
  have apart : (told (chainOf 9)).same "I" "II" = false := by decide +kernel
  rw [apart] at unified
  cases unified

end MeridianCore.Bor.Process
