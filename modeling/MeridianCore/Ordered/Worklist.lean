import MeridianCore.Ordered.Map

namespace MeridianCore.Worklist

variable {α : Type*} [DecidableEq α]

/-- Walks the list from `index`, each entry's `next` added at the end unless it is there already. -/
def close (next : α → Option α) : Nat → List α → Nat → List α
  | 0, list, _ => list
  | fuel + 1, list, index =>
    match list[index]? with
    | none => list
    | some entry =>
      match next entry with
      | some target => close next fuel (if target ∈ list then list else list ++ [target]) (index + 1)
      | none => close next fuel list (index + 1)

theorem subset_close (next : α → Option α) (fuel : Nat) (list : List α) (index : Nat) :
    ∀ entry ∈ list, entry ∈ close next fuel list index := by
  induction fuel generalizing list index with
  | zero => intro entry member; exact member
  | succ fuel ih =>
    intro entry member
    unfold close
    split
    · exact member
    · split
      · apply ih
        split
        · exact member
        · exact List.mem_append_left _ member
      · exact ih _ _ _ member

/-- What is left to visit, and what is left to add. -/
def remaining (pool : Finset α) (list : List α) (index : Nat) : Nat :=
  (list.length - index) + (pool \ list.toFinset).card

theorem remaining_step (pool : Finset α) {list : List α} {index : Nat} (within : index < list.length) :
    remaining pool list (index + 1) < remaining pool list index := by
  unfold remaining
  omega

theorem remaining_push {pool : Finset α} {list : List α} {index : Nat} {target : α}
    (within : index < list.length) (possible : target ∈ pool) (absent : target ∉ list) :
    remaining pool (list ++ [target]) (index + 1) < remaining pool list index := by
  have fewer : (pool \ (list ++ [target]).toFinset).card < (pool \ list.toFinset).card := by
    apply Finset.card_lt_card
    refine ⟨?_, ?_⟩
    · intro entry member
      simp only [Finset.mem_sdiff, List.mem_toFinset, List.mem_append] at member ⊢
      exact ⟨member.1, fun held => member.2 (Or.inl held)⟩
    · intro covers
      have held := covers (Finset.mem_sdiff.mpr ⟨possible, by simpa using absent⟩)
      simp at held
  unfold remaining
  rw [List.length_append, List.length_singleton]
  omega

omit [DecidableEq α] in
theorem closed_of_visited {next : α → Option α} {list : List α} {index : Nat} (done : list.length ≤ index)
    (visited : ∀ i, i < index → ∀ entry target, list[i]? = some entry → next entry = some target → target ∈ list) :
    ∀ entry ∈ list, ∀ target, next entry = some target → target ∈ list := by
  intro entry member target leads
  obtain ⟨i, within, found⟩ := List.mem_iff_getElem.mp member
  exact visited i (by omega) entry target (by rw [List.getElem?_eq_getElem within, found]) leads

/-- With fuel for every visit, whatever a visited entry leads to is in the list at the end. -/
theorem close_closed (next : α → Option α) (pool : Finset α)
    (into : ∀ entry target, next entry = some target → target ∈ pool) (fuel : Nat) (list : List α) (index : Nat)
    (enough : remaining pool list index ≤ fuel)
    (visited : ∀ i, i < index → ∀ entry target, list[i]? = some entry → next entry = some target → target ∈ list) :
    ∀ entry ∈ close next fuel list index, ∀ target, next entry = some target →
      target ∈ close next fuel list index := by
  induction fuel generalizing list index with
  | zero =>
    have done : list.length ≤ index := by unfold remaining at enough; omega
    exact closed_of_visited done visited
  | succ fuel ih =>
    unfold close
    cases found : list[index]? with
    | none =>
      have done : list.length ≤ index := List.getElem?_eq_none_iff.mp found
      exact closed_of_visited done visited
    | some entry =>
      have within : index < list.length := (List.getElem?_eq_some_iff.mp found).1
      cases leads : next entry with
      | none =>
        simp only [leads]
        refine ih list (index + 1) (by have := remaining_step pool within; omega) ?_
        intro i below entry' target found' leads'
        rcases Nat.lt_succ_iff_lt_or_eq.mp below with earlier | rfl
        · exact visited i earlier entry' target found' leads'
        · rw [found] at found'
          rw [← Option.some.inj found', leads] at leads'
          cases leads'
      | some target =>
        by_cases held : target ∈ list
        · simp only [leads, held, if_true]
          refine ih list (index + 1) (by have := remaining_step pool within; omega) ?_
          intro i below entry' target' found' leads'
          rcases Nat.lt_succ_iff_lt_or_eq.mp below with earlier | rfl
          · exact visited i earlier entry' target' found' leads'
          · rw [found] at found'
            rw [← Option.some.inj found', leads] at leads'
            exact Option.some.inj leads' ▸ held
        · simp only [leads, held, if_false]
          refine ih (list ++ [target]) (index + 1)
            (by have := remaining_push within (into entry target leads) held; omega) ?_
          intro i below entry' target' found' leads'
          have inList : i < list.length := by omega
          rw [List.getElem?_append_left inList] at found'
          rcases Nat.lt_succ_iff_lt_or_eq.mp below with earlier | rfl
          · exact List.mem_append_left _ (visited i earlier entry' target' found' leads')
          · rw [found] at found'
            rw [← Option.some.inj found', leads] at leads'
            exact Option.some.inj leads' ▸ List.mem_append_right _ (List.mem_singleton_self _)

end MeridianCore.Worklist
