import MeridianCore.Ordered.Tracks

namespace MeridianCore.Pointers
variable {α : Type*} {next : Pointers α} {n m : Nat} {a b e x : α}

/-- Whether so many pointers followed at most come to an end. -/
def EndsWithin (next : Pointers α) : Nat → α → Prop
  | 0, a => next a = none
  | n + 1, a => ∀ b, next a = some b → EndsWithin next n b

theorem endsWithin_last (last : next a = none) : next.EndsWithin n a := by
  cases n with
  | zero => exact last
  | succ n =>
    intro b step
    rw [last] at step
    cases step

theorem EndsWithin.not_cycle (within : next.EndsWithin n a) : ¬ Relation.TransGen next.Step a a := by
  induction n generalizing a with
  | zero =>
    intro cycle
    obtain ⟨b, step, -⟩ := Relation.TransGen.head'_iff.mp cycle
    have last : next a = none := within
    rw [Step, last] at step
    cases step
  | succ n ih =>
    intro cycle
    obtain ⟨b, step, path⟩ := Relation.TransGen.head'_iff.mp cycle
    exact ih (within b step) (Relation.TransGen.tail' path step)

/-- Pointers that all come to an end lead nothing back to itself. -/
theorem unwound_of_within (within : ∀ a, next.EndsWithin n a) : next.Unwound := fun a => (within a).not_cycle

/-- Pointers that end in so many, followed so many times, come to their end. -/
theorem EndsWithin.endsAt_follow [DecidableEq α] {seen : List α} (within : next.EndsWithin n a)
    (unwound : next.Unwound) (behind : ∀ b ∈ seen, next.Leads b a) : next.EndsAt a (next.follow n seen a) := by
  induction n generalizing seen a with
  | zero => exact endsAt_self within
  | succ n ih =>
    unfold follow
    split
    · next last => exact endsAt_self last
    · next b step =>
      have fresh : b ∉ seen := fun held => unwound a (Relation.TransGen.head' step (behind b held))
      rw [if_neg fresh]
      refine endsAt_head step (ih (within b step) fun c member => ?_)
      rcases List.mem_cons.mp member with rfl | earlier
      · exact .refl
      · exact (behind c earlier).tail step

section redirected
variable [DecidableEq α]

/-- What leads not to the element redirected is led as it was. -/
theorem endsWithin_apart (unled : ¬ next.Leads a e) (within : next.EndsWithin n a) :
    (next.redirected e x).EndsWithin n a := by
  have same {c : α} (unled : ¬ next.Leads c e) : next.redirected e x c = next c := by
    have apart : c ≠ e := fun isE => unled (by rw [isE]; exact .refl)
    rw [redirected, if_neg apart]
  induction n generalizing a with
  | zero => exact (same unled).trans within
  | succ n ih =>
    intro b step
    rw [same unled] at step
    exact ih (fun leads => unled (.head step leads)) (within b step)

/-- What leads to the last element redirected ends one further on. -/
theorem endsWithin_through (last : next x = none) (other : x ≠ e) (ending : next e = none) (leads : next.Leads a e)
    (within : next.EndsWithin n a) : (next.redirected e x).EndsWithin (n + 1) a := by
  induction leads using Relation.ReflTransGen.head_induction_on generalizing n with
  | refl =>
    intro b step
    rw [redirected, if_pos rfl] at step
    obtain rfl := Option.some.inj step
    refine endsWithin_last ?_
    rw [redirected, if_neg other]
    exact last
  | @head a c step path ih =>
    cases n with
    | zero =>
      have none_ : next a = none := within
      rw [Step, none_] at step
      cases step
    | succ n =>
      intro b step'
      have apart : a ≠ e := fun isE => by
        rw [isE, Step, ending] at step
        cases step
      rw [redirected, if_neg apart] at step'
      obtain rfl := Option.some.inj (step.symm.trans step')
      exact ih (within c step)

/-- Where what leads to the last element redirected ends in one fewer, all still end in as many. -/
theorem endsWithin_redirected (last : next x = none) (other : x ≠ e) (ending : next e = none)
    (within : ∀ a, next.EndsWithin (n + 1) a) (fewer : ∀ a, next.Leads a e → next.EndsWithin n a) (a : α) :
    (next.redirected e x).EndsWithin (n + 1) a := by
  by_cases leads : next.Leads a e
  · exact endsWithin_through last other ending leads (fewer a leads)
  · exact endsWithin_apart leads (within a)

end redirected

end MeridianCore.Pointers
