import MeridianCore.Ordered.Map

namespace MeridianCore
open Std (ExtTreeMap TransOrd LawfulEqOrd)

variable {α κ ρ : Type*} [Ord κ] [TransOrd κ] [LinearOrder ρ] {key : α → κ} {rank : α → ρ}

/-- The value held under a value's key, replaced where the value ranks strictly above it. -/
def keepLatest (key : α → κ) (rank : α → ρ) (held : BTreeMap κ α) (value : α) : BTreeMap κ α :=
  match held[key value]? with
  | some other => if rank other < rank value then held.insert (key value) value else held
  | none => held.insert (key value) value

/-- Each key's value of the greatest rank, the first of those that tie. -/
def latestBy (key : α → κ) (rank : α → ρ) (values : List α) : BTreeMap κ α :=
  values.foldl (keepLatest key rank) ∅

variable [LawfulEqOrd κ]

theorem keepLatest_other {held : BTreeMap κ α} {value : α} {k : κ} (other : key value ≠ k) :
    (keepLatest key rank held value)[k]? = held[k]? := by
  unfold keepLatest
  split
  · split
    · simp [ExtTreeMap.getElem?_insert, other]
    · rfl
  · simp [ExtTreeMap.getElem?_insert, other]

theorem keepLatest_own {held : BTreeMap κ α} {value : α} :
    (keepLatest key rank held value)[key value]? =
      some (match held[key value]? with
        | some other => if rank other < rank value then value else other
        | none => value) := by
  unfold keepLatest
  cases stood : held[key value]? with
  | none => simp
  | some other =>
    by_cases above : rank other < rank value
    · simp [above]
    · simp [above, stood]

namespace latestBy

omit [LawfulEqOrd κ] in
theorem snoc (values : List α) (value : α) :
    latestBy key rank (values ++ [value]) = keepLatest key rank (latestBy key rank values) value := by
  simp [latestBy]

/-- A key some value has is held. -/
theorem held_of_mem (key : α → κ) (rank : α → ρ) {values : List α} {value : α} (member : value ∈ values) :
    ∃ held, (latestBy key rank values)[key value]? = some held := by
  induction values using List.reverseRecOn with
  | nil => cases member
  | append_singleton before last ih =>
    rw [snoc]
    by_cases own : key last = key value
    · rw [← own, keepLatest_own]
      exact ⟨_, rfl⟩
    · rw [keepLatest_other own]
      rcases List.mem_append.mp member with earlier | same
      · exact ih earlier
      · exact absurd (congrArg key (List.mem_singleton.mp same)).symm own

/-- What is held under a key is one of its values, and none of them ranks above it. -/
theorem found {values : List α} {k : κ} {value : α} (held : (latestBy key rank values)[k]? = some value) :
    value ∈ values ∧ key value = k ∧ ∀ other ∈ values, key other = k → rank other ≤ rank value := by
  induction values using List.reverseRecOn generalizing value with
  | nil => simp [latestBy] at held
  | append_singleton before last ih =>
    rw [snoc] at held
    by_cases own : key last = k
    · subst own
      rw [keepLatest_own, Option.some.injEq] at held
      cases stood : (latestBy key rank before)[key last]? with
      | none =>
        simp only [stood] at held
        subst held
        refine ⟨by simp, rfl, fun other member same => ?_⟩
        rcases List.mem_append.mp member with earlier | same'
        · obtain ⟨standing, at_⟩ := held_of_mem key rank earlier
          rw [same, stood] at at_
          cases at_
        · rw [List.mem_singleton.mp same']
      | some standing =>
        have known := ih stood
        simp only [stood] at held
        by_cases above : rank standing < rank last
        · rw [if_pos above] at held
          subst held
          refine ⟨by simp, rfl, fun other member same => ?_⟩
          rcases List.mem_append.mp member with earlier | same'
          · exact (known.2.2 other earlier same).trans above.le
          · rw [List.mem_singleton.mp same']
        · rw [if_neg above] at held
          subst held
          refine ⟨by simp [known.1], known.2.1, fun other member same => ?_⟩
          rcases List.mem_append.mp member with earlier | same'
          · exact known.2.2 other earlier same
          · rw [List.mem_singleton.mp same']
            exact not_lt.mp above
    · rw [keepLatest_other own] at held
      have known := ih held
      refine ⟨by simp [known.1], known.2.1, fun other member same => ?_⟩
      rcases List.mem_append.mp member with earlier | same'
      · exact known.2.2 other earlier same
      · rw [List.mem_singleton.mp same'] at same
        exact absurd same own

/-- Where no two values of a key tie, a key's latest is the one above every other. -/
theorem found_iff {values : List α} {k : κ} {value : α}
    (apart : ∀ a ∈ values, ∀ b ∈ values, key a = key b → rank a = rank b → a = b) :
    (latestBy key rank values)[k]? = some value ↔
      value ∈ values ∧ key value = k ∧ ∀ other ∈ values, key other = k → rank other ≤ rank value := by
  refine ⟨found, ?_⟩
  rintro ⟨member, rfl, above⟩
  obtain ⟨held, at_⟩ := held_of_mem key rank member
  have known := found at_
  have same : held = value :=
    apart held known.1 value member known.2.1 (le_antisymm (above held known.1 known.2.1) (known.2.2 value member rfl))
  rw [at_, same]

theorem mem_valuesOf {values : List α} {value : α} :
    value ∈ (latestBy key rank values).valuesOf ↔ (latestBy key rank values)[key value]? = some value := by
  constructor
  · intro member
    obtain ⟨⟨k, v⟩, entry, rfl⟩ := List.mem_map.mp member
    have at_ := BTreeMap.mem_toList.mp entry
    rw [(found at_).2.1]
    exact at_
  · intro held
    exact List.mem_map.mpr ⟨(key value, value), BTreeMap.mem_toList.mpr held, rfl⟩

theorem nodup_valuesOf (values : List α) : (latestBy key rank values).valuesOf.Nodup := by
  refine List.Nodup.map_on ?_ (BTreeMap.nodup_toList _)
  rintro ⟨k, v⟩ entry ⟨k', v'⟩ entry' same
  have at_ := (found (BTreeMap.mem_toList.mp entry)).2.1
  have at' := (found (BTreeMap.mem_toList.mp entry')).2.1
  dsimp only at same
  subst same
  exact Prod.ext (at_.symm.trans at') rfl

end latestBy

end MeridianCore
