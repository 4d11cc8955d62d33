import Mathlib

namespace MeridianCore

variable {κ : Type*}

/-- A quantity taken from one entry after another, from each what it holds or what is left of it. -/
def allot : List (κ × Int) → Int → List (κ × Int)
  | [], _ => []
  | (key, size) :: rest, quantity =>
    if quantity = 0 then [] else (key, min size quantity) :: allot rest (quantity - min size quantity)

namespace Allot

/-- What the entries hold together. -/
def total (entries : List (κ × Int)) : Int := (entries.map Prod.snd).sum

variable {entries : List (κ × Int)} {quantity : Int} {key other : κ} {size others take : Int}

@[simp] theorem total_nil : total ([] : List (κ × Int)) = 0 := rfl

@[simp] theorem total_cons (key : κ) (size : Int) (rest : List (κ × Int)) :
    total ((key, size) :: rest) = size + total rest := by
  simp [total]

@[simp] theorem allot_zero (entries : List (κ × Int)) : allot entries 0 = [] := by
  cases entries with
  | nil => rfl
  | cons entry rest => simp [allot]

theorem total_nonneg (sizes : ∀ entry ∈ entries, 0 < entry.2) : 0 ≤ total entries := by
  induction entries with
  | nil => exact le_refl 0
  | cons entry rest ih =>
    obtain ⟨head, tails⟩ := List.forall_mem_cons.mp sizes
    have tail := ih tails
    rw [total_cons]
    omega

/-- What is taken is the smaller of what is asked for and what is held. -/
theorem total_allot (sizes : ∀ entry ∈ entries, 0 < entry.2) (asked : 0 ≤ quantity) :
    total (allot entries quantity) = min quantity (total entries) := by
  induction entries generalizing quantity with
  | nil => simp [allot, asked]
  | cons entry rest ih =>
    obtain ⟨head, tails⟩ := List.forall_mem_cons.mp sizes
    have more := total_nonneg tails
    by_cases nothing : quantity = 0
    · subst nothing
      rw [allot_zero, total_nil, total_cons]
      omega
    · rw [allot, if_neg nothing, total_cons, total_cons, ih tails (by omega)]
      omega

/-- No more is taken of an entry than it holds. -/
theorem allot_le (taken : (key, take) ∈ allot entries quantity) : ∃ size, (key, size) ∈ entries ∧ take ≤ size := by
  induction entries generalizing quantity with
  | nil => cases taken
  | cons entry rest ih =>
    by_cases nothing : quantity = 0
    · rw [nothing, allot_zero] at taken
      cases taken
    · rw [allot, if_neg nothing] at taken
      rcases List.mem_cons.mp taken with first | later
      · obtain ⟨rfl, rfl⟩ := Prod.mk.inj first
        exact ⟨entry.2, List.mem_cons_self, min_le_left _ _⟩
      · obtain ⟨size, inRest, within⟩ := ih later
        exact ⟨size, List.mem_cons_of_mem _ inRest, within⟩

theorem allot_pos (sizes : ∀ entry ∈ entries, 0 < entry.2) (asked : 0 ≤ quantity)
    (taken : (key, take) ∈ allot entries quantity) : 0 < take := by
  induction entries generalizing quantity with
  | nil => cases taken
  | cons entry rest ih =>
    obtain ⟨head, tails⟩ := List.forall_mem_cons.mp sizes
    by_cases nothing : quantity = 0
    · rw [nothing, allot_zero] at taken
      cases taken
    · rw [allot, if_neg nothing] at taken
      rcases List.mem_cons.mp taken with first | later
      · obtain ⟨rfl, rfl⟩ := Prod.mk.inj first
        omega
      · exact ih tails (by omega) later

/-- The entries are taken from in their own order. -/
theorem keys_sublist (entries : List (κ × Int)) (quantity : Int) :
    ((allot entries quantity).map Prod.fst).Sublist (entries.map Prod.fst) := by
  induction entries generalizing quantity with
  | nil => exact List.Sublist.refl _
  | cons entry rest ih =>
    by_cases nothing : quantity = 0
    · rw [nothing, allot_zero]
      exact List.nil_sublist _
    · rw [allot, if_neg nothing]
      exact (ih _).cons_cons _

/-- An entry is taken from only once the whole of each entry before it is taken. -/
theorem exhausted (sizes : ∀ entry ∈ entries, 0 < entry.2) (asked : 0 ≤ quantity)
    (distinct : (entries.map Prod.fst).Nodup) (before : [(key, size), (other, others)].Sublist entries)
    (taken : (other, take) ∈ allot entries quantity) : (key, size) ∈ allot entries quantity := by
  induction entries generalizing quantity with
  | nil => cases before
  | cons entry rest ih =>
    obtain ⟨head, tails⟩ := List.forall_mem_cons.mp sizes
    rw [List.map_cons, List.nodup_cons] at distinct
    by_cases nothing : quantity = 0
    · rw [nothing, allot_zero] at taken
      cases taken
    · rw [allot, if_neg nothing] at taken ⊢
      cases before with
      | cons _ inRest =>
        rcases List.mem_cons.mp taken with first | later
        · -- the entry taken from first is not one of the two, whose keys stand later
          obtain ⟨same, -⟩ := Prod.mk.inj first
          have inRest' : other ∈ rest.map Prod.fst :=
            List.mem_map_of_mem (inRest.subset (List.mem_cons_of_mem _ List.mem_cons_self))
          exact absurd (same ▸ inRest') distinct.1
        · exact List.mem_cons_of_mem _ (ih tails (by omega) distinct.2 inRest later)
      | cons_cons _ after =>
        have otherRest : other ∈ rest.map Prod.fst := List.mem_map_of_mem (List.singleton_sublist.mp after)
        rcases List.mem_cons.mp taken with first | later
        · obtain ⟨same, -⟩ := Prod.mk.inj first
          exact absurd (same ▸ otherRest) distinct.1
        · -- something was left after the first entry, so all of it was taken
          have left : quantity - min size quantity ≠ 0 := by
            intro none'
            rw [none', allot_zero] at later
            cases later
          have whole : min size quantity = size := by omega
          rw [whole]
          exact List.mem_cons_self

/-- The whole of the first entries, and nothing of the rest, where that is what is asked for. -/
theorem allot_total (first rest : List (κ × Int)) (sizes : ∀ entry ∈ first, 0 < entry.2) :
    allot (first ++ rest) (total first) = first := by
  induction first with
  | nil => rw [total_nil, allot_zero]
  | cons entry later ih =>
    obtain ⟨head, tails⟩ := List.forall_mem_cons.mp sizes
    have more := total_nonneg tails
    have whole : min entry.2 (entry.2 + total later) = entry.2 := by omega
    rw [List.cons_append, allot, total_cons, if_neg (by omega), whole, add_sub_cancel_left, ih tails]

end Allot

namespace Sorted

variable {α γ : Type*} [LinearOrder γ] {before : α → α → Prop} [DecidableRel before] {rank : α → γ} {entries : List α}
  {a b : α}

/-- Two entries of a list stand in it in one order or the other. -/
theorem pair_sublist (inA : a ∈ entries) (inB : b ∈ entries) (apart : a ≠ b) :
    [a, b].Sublist entries ∨ [b, a].Sublist entries := by
  induction entries with
  | nil => cases inA
  | cons entry rest ih =>
    rcases List.mem_cons.mp inA with rfl | laterA
    · rcases List.mem_cons.mp inB with rfl | laterB
      · exact absurd rfl apart
      · exact .inl ((List.singleton_sublist.mpr laterB).cons_cons a)
    · rcases List.mem_cons.mp inB with rfl | laterB
      · exact .inr ((List.singleton_sublist.mpr laterA).cons_cons b)
      · exact (ih laterA laterB).imp (·.cons entry) (·.cons entry)

section Ranked

variable (ranked : ∀ a b, before a b ↔ rank a ≤ rank b)
include ranked

theorem pairwise_sorted (entries : List α) : (entries.insertionSort before).Pairwise before := by
  haveI : Std.Total before := ⟨fun a b => by rw [ranked, ranked]; exact le_total _ _⟩
  haveI : IsTrans α before := ⟨fun a b c ab bc => by rw [ranked] at *; exact ab.trans bc⟩
  exact List.pairwise_insertionSort before entries

/-- The lesser of two entries comes first once sorted. -/
theorem sorted_of_lt (less : rank a < rank b) (inA : a ∈ entries) (inB : b ∈ entries) :
    [a, b].Sublist (entries.insertionSort before) := by
  have apart : a ≠ b := fun same => (same ▸ less).false
  have sortedA := (List.mem_insertionSort before).mpr inA
  have sortedB := (List.mem_insertionSort before).mpr inB
  refine (pair_sublist sortedA sortedB apart).resolve_right fun reversed => ?_
  have ordered := (pairwise_sorted ranked entries).sublist reversed
  rw [List.pairwise_pair, ranked] at ordered
  exact absurd less ordered.not_gt

/-- Two entries that rank alike keep their order once sorted. -/
theorem sorted_of_eq (alike : rank a = rank b) (inOrder : [a, b].Sublist entries) :
    [a, b].Sublist (entries.insertionSort before) :=
  List.pair_sublist_insertionSort ((ranked a b).mpr alike.le) inOrder

end Ranked

end Sorted

end MeridianCore
