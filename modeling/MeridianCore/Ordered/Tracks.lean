import MeridianCore.Ordered.Map

namespace MeridianCore

namespace BTreeMap
open Std

variable {α β : Type} [Ord α] [TransOrd α] [LawfulEqOrd α]

open Classical in
/-- The keys of a map that a relation leads to from one, itself among them. -/
noncomputable def reached (m : BTreeMap α β) (leads : α → α → Prop) (k : α) : Finset α :=
  m.keys.toFinset.filter fun other => Relation.ReflTransGen leads k other

variable {m : BTreeMap α β} {leads : α → α → Prop} {k next : α}

omit [LawfulEqOrd α] in
theorem card_reached_le (m : BTreeMap α β) (leads : α → α → Prop) (k : α) : (m.reached leads k).card ≤ m.size := by
  classical
  unfold reached
  have keys : m.keys.toFinset.card ≤ m.keys.length := m.keys.toFinset_card_le
  rw [ExtTreeMap.length_keys] at keys
  exact (Finset.card_filter_le _ _).trans keys

/-- One step along a relation without cycles reaches fewer keys. -/
theorem card_reached_lt (acyclic : ¬ Relation.TransGen leads k k) (step : leads k next) (held : k ∈ m) :
    (m.reached leads next).card < (m.reached leads k).card := by
  classical
  apply Finset.card_lt_card
  rw [Finset.ssubset_iff_of_subset]
  · refine ⟨k, ?_, ?_⟩
    · simp only [reached, Finset.mem_filter, List.mem_toFinset, ExtTreeMap.mem_keys]
      exact ⟨held, .refl⟩
    · simp only [reached, Finset.mem_filter, not_and]
      exact fun _ back => acyclic (.head' step back)
  · intro other member
    simp only [reached, Finset.mem_filter] at member ⊢
    exact ⟨member.1, .head step member.2⟩

end BTreeMap

end MeridianCore

namespace MeridianCore

/-- Pointers from one element to at most one other. -/
abbrev Pointers (α : Type*) := α → Option α

namespace Pointers
variable {α ι : Type*} {next : Pointers α} {a b c k l : α}

/-- One pointer followed. -/
def Step (next : Pointers α) (a b : α) : Prop := next a = some b

/-- Pointers followed, none or more. -/
def Leads (next : Pointers α) (a b : α) : Prop := Relation.ReflTransGen next.Step a b

/-- Where the pointers from an element end. -/
def EndsAt (next : Pointers α) (a k : α) : Prop := next.Leads a k ∧ next k = none

/-- No element is led back to. -/
def Unwound (next : Pointers α) : Prop := ∀ a, ¬ Relation.TransGen next.Step a a

theorem endsAt_self (last : next a = none) : next.EndsAt a a := ⟨.refl, last⟩

/-- An element with no pointer leads to itself alone. -/
theorem eq_of_leads_last (last : next a = none) (leads : next.Leads a b) : a = b := by
  rcases Relation.ReflTransGen.cases_head leads with same | ⟨after, step, -⟩
  · exact same
  · rw [Step, last] at step
    cases step

theorem endsAt_head (step : next a = some b) (ends : next.EndsAt b k) : next.EndsAt a k :=
  ⟨.head step ends.1, ends.2⟩

theorem endsAt_cases (ends : next.EndsAt a k) : (a = k ∧ next a = none) ∨ ∃ b, next a = some b ∧ next.EndsAt b k := by
  obtain ⟨leads, last⟩ := ends
  rcases Relation.ReflTransGen.cases_head leads with rfl | ⟨b, step, rest⟩
  · exact Or.inl ⟨rfl, last⟩
  · exact Or.inr ⟨b, step, rest, last⟩

/-- An element on the way to the end ends where it all does. -/
theorem endsAt_of_leads (leads : next.Leads a b) (ends : next.EndsAt a k) : next.EndsAt b k := by
  induction leads with
  | refl => exact ends
  | tail path step ih =>
    rcases endsAt_cases ih with ⟨rfl, last⟩ | ⟨other, step', rest⟩
    · rw [Step, last] at step
      cases step
    · obtain rfl := Option.some.inj (step'.symm.trans step)
      exact rest

theorem endsAt_unique (first : next.EndsAt a k) (second : next.EndsAt a l) : k = l := by
  have last := endsAt_of_leads first.1 second
  rcases endsAt_cases last with ⟨same, -⟩ | ⟨other, step, -⟩
  · exact same
  · rw [first.2] at step
    cases step

section
variable {α β : Type} [Ord α] [Std.TransOrd α] [Std.LawfulEqOrd α] {next : Pointers α}

/-- Pointers from the keys of a map, none led back to, end. -/
theorem exists_endsAt {m : BTreeMap α β} (unwound : next.Unwound)
    (from_ : ∀ a b, next a = some b → a ∈ m) (a : α) : ∃ k, next.EndsAt a k := by
  induction size : (m.reached next.Step a).card using Nat.strong_induction_on generalizing a with
  | _ size ih =>
    cases step : next a with
    | none => exact ⟨a, endsAt_self step⟩
    | some b =>
      have fewer := BTreeMap.card_reached_lt (unwound a) step (from_ a b step)
      obtain ⟨k, ends⟩ := ih _ (size ▸ fewer) b rfl
      exact ⟨k, endsAt_head step ends⟩

end

section redirected
variable [DecidableEq α] {e x : α}

/-- One pointer made to lead elsewhere. -/
def redirected (next : Pointers α) (e x : α) : Pointers α := fun a => if a = e then some x else next a

/-- An element no pointer leads from or to. -/
structure Fresh (next : Pointers α) (x : α) : Prop where
  last : next x = none
  unled : ∀ a, next a ≠ some x

theorem redirected_last (fresh : next.Fresh x) (other : x ≠ e) : next.redirected e x x = none := by
  rw [redirected, if_neg other]
  exact fresh.last

omit [DecidableEq α] in
/-- Only a fresh element leads to itself. -/
theorem eq_of_leads_fresh (fresh : next.Fresh x) (leads : next.Leads a x) : a = x := by
  rcases Relation.ReflTransGen.cases_tail leads with same | ⟨before, -, step⟩
  · exact same.symm
  · exact absurd step (fresh.unled before)

/-- What leads to an element other than the one redirected to led there before, or came by it. -/
theorem leads_redirected (fresh : next.Fresh x) (other : x ≠ e) (leads : (next.redirected e x).Leads a b) :
    (b = x ∧ (a = x ∨ next.Leads a e)) ∨ next.Leads a b := by
  induction leads using Relation.ReflTransGen.head_induction_on with
  | refl => exact Or.inr .refl
  | @head a c step path ih =>
    by_cases same : a = e
    · subst same
      rw [Step, redirected, if_pos rfl] at step
      obtain rfl := Option.some.inj step
      rcases Relation.ReflTransGen.cases_head path with same | ⟨after, step, -⟩
      · exact Or.inl ⟨same.symm, Or.inr .refl⟩
      · rw [Step, redirected_last fresh other] at step
        cases step
    · rw [Step, redirected, if_neg same] at step
      rcases ih with ⟨isX, fromX | leads⟩ | leads
      · exact absurd (fromX ▸ step) (fresh.unled a)
      · exact Or.inl ⟨isX, Or.inr (.head step leads)⟩
      · exact Or.inr (.head step leads)

theorem unwound_redirected (fresh : next.Fresh x) (other : x ≠ e) (unwound : next.Unwound) :
    (next.redirected e x).Unwound := by
  intro a cycle
  obtain ⟨b, step, path⟩ := Relation.TransGen.head'_iff.mp cycle
  rcases leads_redirected fresh other path with ⟨isX, -⟩ | leads
  · rw [isX, Step, redirected_last fresh other] at step
    cases step
  · by_cases same : a = e
    · subst same
      rw [Step, redirected, if_pos rfl] at step
      obtain rfl := Option.some.inj step
      rcases Relation.ReflTransGen.cases_head leads with same | ⟨after, step, -⟩
      · exact other same
      · rw [Step, fresh.last] at step
        cases step
    · rw [Step, redirected, if_neg same] at step
      exact unwound a (Relation.TransGen.head' step leads)

end redirected

section follow
variable [DecidableEq α]

/-- The pointers followed so many times at most, none of those `seen` visited twice. -/
def follow (next : Pointers α) : Nat → List α → α → α
  | 0, _, a => a
  | fuel + 1, seen, a =>
    match next a with
    | none => a
    | some b => if b ∈ seen then a else follow next fuel (b :: seen) b

theorem follow_last {fuel : Nat} {seen : List α} (last : next a = none) : next.follow fuel seen a = a := by
  cases fuel with
  | zero => rfl
  | succ fuel => simp only [follow, last]

/-- Where no element is led back to, pointers followed often enough end. -/
theorem endsAt_follow {α β : Type} [Ord α] [Std.TransOrd α] [Std.LawfulEqOrd α] [DecidableEq α] {next : Pointers α}
    {m : BTreeMap α β} (unwound : next.Unwound) (from_ : ∀ a b, next a = some b → a ∈ m) {fuel : Nat} {seen : List α}
    {a : α} (enough : (m.reached next.Step a).card < fuel) (behind : ∀ b ∈ seen, next.Leads b a) :
    next.EndsAt a (next.follow fuel seen a) := by
  induction fuel generalizing seen a with
  | zero => exact absurd enough (Nat.not_lt_zero _)
  | succ fuel ih =>
    unfold follow
    split
    · next last => exact endsAt_self last
    · next b step =>
      have fresh : b ∉ seen := fun held => unwound a (Relation.TransGen.head' step (behind b held))
      have fewer := BTreeMap.card_reached_lt (unwound a) step (from_ a b step)
      rw [if_neg fresh]
      refine endsAt_head step (ih (by omega) fun c member => ?_)
      rcases List.mem_cons.mp member with rfl | earlier
      · exact .refl
      · exact (behind c earlier).tail step

/-- Pointers the same all along the way from an element are followed alike. -/
theorem follow_congr {after : Pointers α} (same : ∀ b, next.Leads a b → after b = next b) (fuel : Nat) (seen : List α) :
    after.follow fuel seen a = next.follow fuel seen a := by
  induction fuel generalizing seen a with
  | zero => rfl
  | succ fuel ih =>
    unfold follow
    rw [same a .refl]
    split
    · rfl
    · next b step => rw [ih fun c leads => same c (.head step leads)]

/-- Followed oftener than there are elements pointed to, however often. -/
theorem follow_enough {targets : Finset α} (closed : ∀ a b, next a = some b → b ∈ targets) {fuel more : Nat}
    {seen : List α} (enough : (targets.filter (· ∉ seen)).card < fuel) (order : fuel ≤ more) :
    next.follow more seen a = next.follow fuel seen a := by
  induction fuel generalizing more seen a with
  | zero => exact absurd enough (Nat.not_lt_zero _)
  | succ fuel ih =>
    obtain ⟨more, rfl⟩ := Nat.exists_eq_add_of_lt order
    unfold follow
    split
    · rfl
    · next b step =>
      split
      · rfl
      · next fresh =>
        have fewer : (targets.filter (· ∉ b :: seen)).card < (targets.filter (· ∉ seen)).card := by
          apply Finset.card_lt_card
          rw [Finset.ssubset_iff_of_subset]
          · refine ⟨b, Finset.mem_filter.mpr ⟨closed a b step, fresh⟩, fun held => ?_⟩
            exact (Finset.mem_filter.mp held).2 List.mem_cons_self
          · intro other held
            obtain ⟨target, unseen⟩ := Finset.mem_filter.mp held
            exact Finset.mem_filter.mpr ⟨target, fun earlier => unseen (List.mem_cons_of_mem _ earlier)⟩
        exact ih (by omega) (by omega)

/-- Where pointers followed often enough come to. -/
def ComesTo (next : Pointers α) (a b : α) : Prop := ∃ enough, ∀ fuel, enough ≤ fuel → next.follow fuel [] a = b

theorem comesTo_unique (first : next.ComesTo a b) (second : next.ComesTo a c) : b = c := by
  obtain ⟨enough, first⟩ := first
  obtain ⟨other, second⟩ := second
  rw [← first (max enough other) (le_max_left _ _), second _ (le_max_right _ _)]

theorem comesTo_self (last : next a = none) : next.ComesTo a a := ⟨0, fun _ _ => follow_last last⟩

theorem comesTo_follow {targets : Finset α} (closed : ∀ a b, next a = some b → b ∈ targets) {fuel : Nat}
    (enough : targets.card < fuel) : next.ComesTo a (next.follow fuel [] a) := by
  refine ⟨fuel, fun more order => follow_enough closed ?_ order⟩
  exact lt_of_le_of_lt (Finset.card_filter_le _ _) enough

theorem comesTo_congr {after : Pointers α} (same : ∀ c, next.Leads a c → after c = next c) (comes : next.ComesTo a b) :
    after.ComesTo a b := by
  obtain ⟨enough, comes⟩ := comes
  exact ⟨enough, fun fuel order => (follow_congr same fuel []).trans (comes fuel order)⟩

end follow

/-- Elements listed that no two of which lead to one. -/
def Apart (next : Pointers α) (lists : ι → α → Prop) : Prop :=
  ∀ i a j b k, lists i a → lists j b → next.Leads a k → next.Leads b k → i = j ∧ a = b

/-- Elements apart stay so where fewer are listed. -/
theorem Apart.mono {lists fewer : ι → α → Prop} (apart : next.Apart lists) (kept : ∀ i a, fewer i a → lists i a) :
    next.Apart fewer :=
  fun i a j b k first second leadsA leadsB => apart i a j b k (kept i a first) (kept j b second) leadsA leadsB

/-- Elements apart stay so when a pointer is redirected to an element none of them is. -/
theorem Apart.redirected [DecidableEq α] {lists : ι → α → Prop} {e x : α} (apart : next.Apart lists)
    (fresh : next.Fresh x) (other : x ≠ e) (unlisted : ∀ i, ¬ lists i x) : (next.redirected e x).Apart lists := by
  intro i a j b k first second leadsA leadsB
  have listed {i : ι} {a : α} (lists : lists i a) : a ≠ x := by
    rintro rfl
    exact unlisted i lists
  rcases leads_redirected fresh other leadsA with ⟨isX, throughA⟩ | leadsA
  · have viaA := throughA.resolve_left (listed first)
    rcases leads_redirected fresh other leadsB with ⟨-, throughB⟩ | leadsB
    · exact apart i a j b e first second viaA (throughB.resolve_left (listed second))
    · exact absurd (eq_of_leads_fresh fresh (isX ▸ leadsB)) (listed second)
  · rcases leads_redirected fresh other leadsB with ⟨isX, -⟩ | leadsB
    · exact absurd (eq_of_leads_fresh fresh (isX ▸ leadsA)) (listed first)
    · exact apart i a j b k first second leadsA leadsB

end Pointers

/-- Elements each named once, all among others that each weigh nothing below zero, weigh at most as much. -/
theorem sum_le_of_subset {α : Type*} {weight : α → Int} {few many : List α} (nodup : few.Nodup) (subset : few ⊆ many)
    (unsigned : ∀ a ∈ many, 0 ≤ weight a) : (few.map weight).sum ≤ (many.map weight).sum := by
  obtain ⟨among, same, within⟩ := nodup.subperm subset
  rw [← (same.map weight).sum_eq]
  refine List.Sublist.sum_le_sum (within.map weight) fun value member => ?_
  obtain ⟨a, held, rfl⟩ := List.mem_map.mp member
  exact unsigned a held

/-- What elements come to, each weighing what comes of it and nothing where nothing does. -/
theorem sum_filterMap {α β : Type*} {comes : α → Option β} {weight : α → Int} {after : β → Int} {elements : List α}
    (same : ∀ a ∈ elements, weight a = (comes a).elim 0 after) :
    (elements.map weight).sum = ((elements.filterMap comes).map after).sum := by
  induction elements with
  | nil => rfl
  | cons a rest ih =>
    have first := same a List.mem_cons_self
    have others := ih fun b member => same b (List.mem_cons_of_mem _ member)
    rw [List.map_cons, List.sum_cons, others]
    cases come : comes a with
    | none =>
      rw [come] at first
      rw [List.filterMap_cons_none come, first, Option.elim_none, Int.zero_add]
    | some b =>
      rw [come] at first
      rw [List.filterMap_cons_some come, List.map_cons, List.sum_cons, first, Option.elim_some]

theorem sum_flatMap {α β : Type*} {below : α → List β} {weight : β → Int} (elements : List α) :
    ((elements.flatMap below).map weight).sum = (elements.map fun a => ((below a).map weight).sum).sum := by
  induction elements with
  | nil => rfl
  | cons a rest ih => rw [List.flatMap_cons, List.map_append, List.sum_append, ih, List.map_cons, List.sum_cons]

end MeridianCore
