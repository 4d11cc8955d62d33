import Mathlib

namespace MeridianCore

variable {α β : Type*}

/-- What `p` holds of, summed. -/
def sumOf (p : α → Prop) [DecidablePred p] (size : α → Int) (entries : List α) : Int :=
  (entries.map fun entry => if p entry then size entry else 0).sum

section SumOf

variable {p : α → Prop} [DecidablePred p] {size : α → Int}

@[simp] theorem sumOf_nil : sumOf p size [] = 0 := rfl

@[simp] theorem sumOf_cons (entry : α) (rest : List α) :
    sumOf p size (entry :: rest) = (if p entry then size entry else 0) + sumOf p size rest := by
  simp [sumOf]

@[simp] theorem sumOf_append (first rest : List α) : sumOf p size (first ++ rest) = sumOf p size first + sumOf p size rest := by
  simp [sumOf]

theorem sumOf_map (make : β → α) (entries : List β) :
    sumOf p size (entries.map make) = sumOf (fun entry => p (make entry)) (fun entry => size (make entry)) entries := by
  simp [sumOf, Function.comp_def]

theorem sumOf_eq_zero {entries : List α} (nothing : ∀ entry ∈ entries, p entry → size entry = 0) :
    sumOf p size entries = 0 := by
  refine List.sum_eq_zero fun amount among => ?_
  obtain ⟨entry, inEntries, rfl⟩ := List.mem_map.mp among
  split
  · next holds => exact nothing entry inEntries holds
  · rfl

theorem sumOf_neg (entries : List α) : sumOf p (fun entry => -size entry) entries = -sumOf p size entries := by
  induction entries with
  | nil => rfl
  | cons entry rest ih =>
    rw [sumOf_cons, sumOf_cons, ih]
    split <;> omega

theorem sumOf_filter {keep : α → Bool} {entries : List α} (nothing : ∀ entry ∈ entries, keep entry = false → size entry = 0) :
    sumOf p size (entries.filter keep) = sumOf p size entries := by
  induction entries with
  | nil => rfl
  | cons entry rest ih =>
    obtain ⟨first, nothing⟩ := List.forall_mem_cons.mp nothing
    cases kept : keep entry with
    | true => rw [List.filter_cons_of_pos kept, sumOf_cons, sumOf_cons, ih nothing]
    | false =>
      rw [List.filter_cons_of_neg (by rw [kept]; decide), sumOf_cons, ih nothing, first kept]
      split <;> omega

theorem sumOf_congr {q : α → Prop} [DecidablePred q] {other : α → Int} {entries : List α}
    (alike : ∀ entry ∈ entries, (p entry ↔ q entry) ∧ size entry = other entry) :
    sumOf p size entries = sumOf q other entries := by
  refine congrArg List.sum (List.map_congr_left fun entry among => ?_)
  obtain ⟨holds, sizes⟩ := alike entry among
  exact if_congr holds sizes rfl

/-- One entry of a list is all there is under its own name. -/
theorem sumOf_name {κ : Type*} [DecidableEq κ] {name : α → κ} {entries : List α} (distinct : (entries.map name).Nodup)
    {entry : α} (among : entry ∈ entries) : sumOf (fun other => name other = name entry) size entries = size entry := by
  induction entries with
  | nil => cases among
  | cons first rest ih =>
    obtain ⟨new, distinct⟩ := List.nodup_cons.mp distinct
    rw [sumOf_cons]
    rcases List.mem_cons.mp among with rfl | later
    · rw [if_pos rfl, sumOf_eq_zero fun other inRest same => absurd (List.mem_map.mpr ⟨other, inRest, same⟩) new]
      omega
    · rw [if_neg fun same => new (List.mem_map.mpr ⟨entry, later, same.symm⟩), ih distinct later]
      omega

end SumOf

/-- Amounts of one list put on the entries of another, both walked together, each with what is left
of it: what is put where, and the entries left. Nothing where the walk outlasts its fuel. -/
def spread : Nat → List (α × Int) → List (β × Int) → Option (List (α × β × Int) × List (β × Int))
  | _, [], onto => some ([], onto)
  | _, _ :: _, [] => some ([], [])
  | 0, _ :: _, _ :: _ => none
  | fuel + 1, (a, x) :: from', (b, y) :: onto =>
    let take := min x y
    let put := if take = 0 then [] else [(a, b, take)]
    (spread fuel (if x - take = 0 then from' else (a, x - take) :: from')
      (if y - take = 0 then onto else (b, y - take) :: onto)).map fun rest => (put ++ rest.1, rest.2)

namespace Spread

variable {fuel : Nat} {from' : List (α × Int)} {onto rest : List (β × Int)} {put : List (α × β × Int)}

/-- The amounts of the two lists are the same together. -/
def Even (from' : List (α × Int)) (onto : List (β × Int)) : Prop :=
  sumOf (fun _ => True) Prod.snd from' = sumOf (fun _ => True) Prod.snd onto

theorem sumOf_nonneg {p : α → Prop} [DecidablePred p] {size : α → Int} {entries : List α}
    (sizes : ∀ entry ∈ entries, 0 ≤ size entry) : 0 ≤ sumOf p size entries := by
  refine List.sum_nonneg fun amount among => ?_
  obtain ⟨entry, inEntries, rfl⟩ := List.mem_map.mp among
  split
  · exact sizes entry inEntries
  · rfl

/-- One step of the walk: what is left of either entry it takes from is in its own place. -/
theorem sumOf_left {p : α → Prop} [DecidablePred p] (a : α) (left : Int) (later : List (α × Int)) :
    sumOf (fun entry => p entry.1) Prod.snd (if left = 0 then later else (a, left) :: later) =
      (if p a then left else 0) + sumOf (fun entry => p entry.1) Prod.snd later := by
  split
  · next nothing =>
    rw [nothing]
    split <;> omega
  · rw [sumOf_cons]

theorem mem_left {a : α} {left : Int} {later : List (α × Int)} {entry : α × Int}
    (among : entry ∈ if left = 0 then later else (a, left) :: later) : entry = (a, left) ∧ left ≠ 0 ∨ entry ∈ later := by
  split at among
  · exact .inr among
  · next more => exact (List.mem_cons.mp among).imp (⟨·, more⟩) id

/-- What a walk over two lists of the same amount does. -/
structure Spreads (from' : List (α × Int)) (onto : List (β × Int)) (put : List (α × β × Int))
    (rest : List (β × Int)) : Prop where
  /-- Every amount is put somewhere, and every entry filled. -/
  emptied : ∀ (p : α → Prop) [DecidablePred p], sumOf (fun one => p one.1) (fun one => one.2.2) put =
    sumOf (fun entry => p entry.1) Prod.snd from'
  filled : ∀ (p : β → Prop) [DecidablePred p], sumOf (fun one => p one.2.1) (fun one => one.2.2) put =
    sumOf (fun entry => p entry.1) Prod.snd onto
  /-- The entries left are the last ones, of nothing. -/
  left : ∃ front, onto = front ++ rest ∧ ∀ entry ∈ rest, entry.2 = 0
  /-- An entry is put on where it is of anything, and only there. -/
  putOn : ∀ one ∈ put, ∃ entry ∈ onto, entry.1 = one.2.1 ∧ entry.2 ≠ 0
  reached : ∀ entry ∈ onto, entry.2 ≠ 0 → ∃ one ∈ put, one.2.1 = entry.1
  /-- Where no entry of nothing is before one of something, those of nothing are left. -/
  nothings : onto.Pairwise (fun first later => first.2 = 0 → later.2 = 0) → ∀ entry ∈ onto, entry.2 = 0 → entry ∈ rest

theorem spreads_nil (evenly : Even ([] : List (α × Int)) onto) (sizes : ∀ entry ∈ onto, 0 ≤ entry.2) :
    Spreads ([] : List (α × Int)) onto [] onto := by
  have nothing : ∀ entry ∈ onto, entry.2 = 0 := by
    unfold Even at evenly
    induction onto with
    | nil => exact fun _ none' => absurd none' List.not_mem_nil
    | cons entry rest ih =>
      obtain ⟨size, sizes⟩ := List.forall_mem_cons.mp sizes
      have more := sumOf_nonneg (p := fun _ => True) sizes
      rw [sumOf_cons, if_pos trivial, sumOf_nil] at evenly
      refine List.forall_mem_cons.mpr ⟨by omega, ih ?_ sizes⟩
      rw [sumOf_nil]
      omega
  refine ⟨fun _ _ => rfl, fun p _ => (sumOf_eq_zero fun entry among _ => nothing entry among).symm, ⟨[], rfl, nothing⟩,
    fun _ none' => absurd none' List.not_mem_nil, fun entry among some' => absurd (nothing entry among) some',
    fun _ entry among _ => among⟩

theorem not_even_nil {entry : α × Int} (amounts : ∀ one ∈ entry :: from', 0 < one.2) :
    ¬ Even (entry :: from') ([] : List (β × Int)) := by
  obtain ⟨amount, amounts⟩ := List.forall_mem_cons.mp amounts
  have more := sumOf_nonneg (p := fun _ => True) fun one among => (amounts one among).le
  unfold Even
  rw [sumOf_cons, if_pos trivial, sumOf_nil]
  omega

/-- The first entries' smaller amount put, and the rest walked. -/
theorem spreads_step {a : α} {b : β} {x y : Int} (amount : 0 < x) (amounts : ∀ entry ∈ from', 0 < entry.2) (size : 0 ≤ y)
    (evenly : Even ((a, x) :: from') ((b, y) :: onto))
    (later : Spreads (if x - min x y = 0 then from' else (a, x - min x y) :: from')
      (if y - min x y = 0 then onto else (b, y - min x y) :: onto) put rest) :
    Spreads ((a, x) :: from') ((b, y) :: onto) ((if min x y = 0 then [] else [(a, b, min x y)]) ++ put) rest := by
  have take {p : α × β × Int → Prop} [DecidablePred p] :
      sumOf p (fun one => one.2.2) (if min x y = 0 then [] else [(a, b, min x y)]) =
        if p (a, b, min x y) then min x y else 0 := by
    by_cases nothing : min x y = 0
    · rw [if_pos nothing, nothing]
      simp
    · rw [if_neg nothing]
      simp
  refine ⟨fun p _ => ?_, fun p _ => ?_, ?_, fun one among => ?_, fun entry among some' => ?_, fun last entry among nothing => ?_⟩
  · rw [sumOf_append, take, later.emptied p, sumOf_left, sumOf_cons]
    dsimp only
    split <;> omega
  · rw [sumOf_append, take, later.filled p, sumOf_left, sumOf_cons]
    dsimp only
    split <;> omega
  · obtain ⟨front, split', nothing⟩ := later.left
    by_cases used : y - min x y = 0
    · rw [if_pos used] at split'
      exact ⟨(b, y) :: front, by rw [split', List.cons_append], nothing⟩
    · rw [if_neg used] at split'
      -- what is left of the first is something, so it is not among those left
      cases front with
      | nil => exact absurd (nothing _ (split' ▸ List.mem_cons_self)) used
      | cons first front =>
        rw [List.cons_append] at split'
        exact ⟨(b, y) :: front, by rw [(List.cons.inj split').2, List.cons_append], nothing⟩
  · rcases List.mem_append.mp among with first | rest'
    · by_cases nothing : min x y = 0
      · rw [if_pos nothing] at first
        cases first
      · rw [if_neg nothing] at first
        rw [List.mem_singleton.mp first]
        exact ⟨(b, y), List.mem_cons_self, rfl, by dsimp only; omega⟩
    · obtain ⟨entry, among, same, some'⟩ := later.putOn one rest'
      rcases mem_left among with ⟨rfl, -⟩ | others
      · exact ⟨(b, y), List.mem_cons_self, same, by dsimp only at *; omega⟩
      · exact ⟨entry, List.mem_cons_of_mem _ others, same, some'⟩
  · rcases List.mem_cons.mp among with rfl | others
    · dsimp only at some'
      refine ⟨(a, b, min x y), List.mem_append_left _ ?_, rfl⟩
      rw [if_neg (by omega)]
      exact List.mem_singleton_self _
    · have still : entry ∈ if y - min x y = 0 then onto else (b, y - min x y) :: onto := by
        split
        · exact others
        · exact List.mem_cons_of_mem _ others
      obtain ⟨one, inPut, same⟩ := later.reached entry still some'
      exact ⟨one, List.mem_append_right _ inPut, same⟩
  · obtain ⟨first, last⟩ := List.pairwise_cons.mp last
    -- a first entry of nothing would leave only nothings, and there is an amount to put
    have positive : 0 < y := by
      by_contra none'
      have zero : y = 0 := by omega
      have all : sumOf (fun _ => True) Prod.snd onto = 0 := sumOf_eq_zero fun one among _ => first one among zero
      have more := sumOf_nonneg (p := fun _ => True) fun one among => (amounts one among).le
      unfold Even at evenly
      rw [sumOf_cons, sumOf_cons, if_pos trivial, if_pos trivial, all] at evenly
      dsimp only at evenly
      omega
    have others : entry ∈ onto := by
      refine (List.mem_cons.mp among).resolve_left ?_
      rintro rfl
      exact positive.ne' nothing
    refine later.nothings ?_ entry ?_ nothing
    · by_cases used : y - min x y = 0
      · rw [if_pos used]
        exact last
      · rw [if_neg used]
        exact List.pairwise_cons.mpr ⟨fun _ _ zero => absurd zero used, last⟩
    · by_cases used : y - min x y = 0
      · rw [if_pos used]
        exact others
      · rw [if_neg used]
        exact List.mem_cons_of_mem _ others

theorem spreads (walked : spread fuel from' onto = some (put, rest)) (amounts : ∀ entry ∈ from', 0 < entry.2)
    (sizes : ∀ entry ∈ onto, 0 ≤ entry.2) (evenly : Even from' onto) : Spreads from' onto put rest := by
  induction fuel generalizing from' onto put with
  | zero =>
    match from', onto with
    | [], onto =>
      unfold spread at walked
      cases walked
      exact spreads_nil evenly sizes
    | _ :: _, [] => exact absurd evenly (not_even_nil amounts)
    | _ :: _, _ :: _ => cases walked
  | succ fuel ih =>
    match from', onto with
    | [], onto =>
      unfold spread at walked
      cases walked
      exact spreads_nil evenly sizes
    | _ :: _, [] => exact absurd evenly (not_even_nil amounts)
    | (a, x) :: from', (b, y) :: onto =>
      rw [spread] at walked
      obtain ⟨⟨put', rest'⟩, walked', ended⟩ := Option.map_eq_some_iff.mp walked
      cases ended
      obtain ⟨amount, amounts⟩ := List.forall_mem_cons.mp amounts
      obtain ⟨size, sizes⟩ := List.forall_mem_cons.mp sizes
      dsimp only at amount size
      refine spreads_step amount amounts size evenly (ih walked' (fun entry among => ?_) (fun entry among => ?_) ?_)
      · rcases mem_left among with ⟨rfl, more⟩ | later
        · dsimp only
          omega
        · exact amounts entry later
      · rcases mem_left among with ⟨rfl, more⟩ | later
        · dsimp only
          omega
        · exact sizes entry later
      · unfold Even at evenly ⊢
        rw [sumOf_cons, sumOf_cons, if_pos trivial, if_pos trivial] at evenly
        have leftFrom := @sumOf_left _ (fun _ => True) _ a (x - min x y) from'
        have leftOnto := @sumOf_left _ (fun _ => True) _ b (y - min x y) onto
        rw [if_pos trivial] at leftFrom leftOnto
        rw [leftFrom, leftOnto]
        dsimp only at evenly
        omega

end Spread

end MeridianCore
