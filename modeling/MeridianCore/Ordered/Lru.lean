import MeridianCore.Ordered.Map

namespace MeridianCore

/-- Values held by key, each with its cost and the tick it was last used at, and the keys by that tick. -/
structure Lru (κ ν : Type*) [Ord κ] where
  held : BTreeMap κ (ν × Nat × Nat) := ∅
  byUse : BTreeMap Nat κ := ∅
  bytes : Nat := 0
  tick : Nat := 0

namespace Lru

variable {κ ν : Type*} [Ord κ] [Std.TransOrd κ] [Std.LawfulEqOrd κ]

section operations

def forget (lru : Lru κ ν) (key : κ) : Lru κ ν :=
  match lru.held[key]? with
  | some (_, size, used) =>
    { lru with held := lru.held.erase key, byUse := lru.byUse.erase used, bytes := lru.bytes - size }
  | none => lru

/-- A value held under a key that is not, used now. -/
def keep (lru : Lru κ ν) (key : κ) (value : ν) (size : Nat) : Lru κ ν where
  held := lru.held.insert key (value, size, lru.tick + 1)
  byUse := lru.byUse.insert (lru.tick + 1) key
  bytes := lru.bytes + size
  tick := lru.tick + 1

/-- A value held used now. -/
def touch (lru : Lru κ ν) (key : κ) (value : ν) (size used : Nat) : Lru κ ν where
  held := lru.held.insert key (value, size, lru.tick + 1)
  byUse := (lru.byUse.erase used).insert (lru.tick + 1) key
  bytes := lru.bytes
  tick := lru.tick + 1

/-- The least recently used first, taken from what is held. -/
def evict (lru : Lru κ ν) (used : Nat) (key : κ) : Lru κ ν :=
  let popped := { lru with byUse := lru.byUse.erase used }
  match lru.held[key]? with
  | some (_, size, _) => { popped with held := lru.held.erase key, bytes := lru.bytes - size }
  | none => popped

/-- The least recently used evicted, so many at most, while what is held is past the bound. -/
def trimWithin (bound : Nat) : Nat → Lru κ ν → Lru κ ν
  | 0, lru => lru
  | fuel + 1, lru =>
    if bound < lru.bytes then
      match lru.byUse.toList.head? with
      | some (used, key) => trimWithin bound fuel (lru.evict used key)
      | none => lru
    else lru

/-- The least recently used evicted while what is held is past the bound. -/
def trim (bound : Nat) (lru : Lru κ ν) : Lru κ ν := trimWithin bound (lru.byUse.size + 1) lru

end operations

/-- Each key held at the one tick it was last used at, and the bytes those of the values held. -/
structure Tidy (lru : Lru κ ν) : Prop where
  uses : ∀ (key : κ) (value : ν) (size used : Nat), lru.held[key]? = some (value, size, used) → lru.byUse[used]? = some key
  keys : ∀ (used : Nat) (key : κ), lru.byUse[used]? = some key → ∃ value size, lru.held[key]? = some (value, size, used)
  bytes : lru.bytes = lru.held.sum fun entry => entry.2.1
  recent : ∀ (used : Nat) (key : κ), lru.byUse[used]? = some key → used ≤ lru.tick

/-- What a later state holds under a key, the earlier held. -/
def Within (later earlier : Lru κ ν) : Prop :=
  ∀ (key : κ) (value : ν) (size used : Nat), later.held[key]? = some (value, size, used) → earlier.held[key]? = some (value, size, used)

variable {lru : Lru κ ν} {key : κ} {value : ν} {size used : Nat}

theorem Within.refl (lru : Lru κ ν) : lru.Within lru := fun _ _ _ _ found => found

theorem tidy_empty : ({} : Lru κ ν).Tidy := by
  refine ⟨?_, ?_, rfl, ?_⟩
  · intro key value size used found
    simp at found
  · intro used key found
    simp at found
  · intro used key found
    simp at found

theorem within_evict (used : Nat) (key : κ) : (lru.evict used key).Within lru := by
  intro other value size at_ found
  unfold evict at found
  dsimp only at found
  split at found
  · rw [Std.ExtTreeMap.getElem?_erase] at found
    split at found
    · cases found
    · exact found
  · exact found

/-- Evicting a key held, or forgetting it, leaves the others as they were. -/
theorem tidy_erase (tidy : lru.Tidy) (found : lru.held[key]? = some (value, size, used)) :
    ({ lru with held := lru.held.erase key, byUse := lru.byUse.erase used, bytes := lru.bytes - size } : Lru κ ν).Tidy := by
  have at_ := tidy.uses key value size used found
  have sum := BTreeMap.sum_eq_erase found fun entry : ν × Nat × Nat => entry.2.1
  refine ⟨?_, ?_, ?_, ?_⟩
  · intro other value' size' used' held
    rw [Std.ExtTreeMap.getElem?_erase] at held ⊢
    by_cases same : key = other
    · simp [same] at held
    · rw [if_neg (by simpa using same)] at held
      have otherUse := tidy.uses other value' size' used' held
      have apart : used ≠ used' := by
        rintro rfl
        exact same (Option.some.inj (at_.symm.trans otherUse))
      rw [if_neg (by simpa using apart)]
      exact otherUse
  · intro used' other held
    rw [Std.ExtTreeMap.getElem?_erase] at held
    by_cases same : used = used'
    · simp [same] at held
    · rw [if_neg (by simpa using same)] at held
      obtain ⟨value', size', otherHeld⟩ := tidy.keys used' other held
      refine ⟨value', size', ?_⟩
      rw [Std.ExtTreeMap.getElem?_erase, if_neg ?_]
      · exact otherHeld
      · intro same'
        obtain rfl := Std.LawfulEqOrd.eq_of_compare same'
        rw [found] at otherHeld
        cases otherHeld
        exact same rfl
  · have total := tidy.bytes.trans sum
    change lru.bytes = size + BTreeMap.sum (lru.held.erase key) (fun entry => entry.2.1) at total
    rw [total]
    exact Nat.add_sub_cancel_left ..
  · intro used' other held
    rw [Std.ExtTreeMap.getElem?_erase] at held
    split at held
    · cases held
    · exact tidy.recent used' other held

theorem tidy_forget (tidy : lru.Tidy) (key : κ) : (lru.forget key).Tidy := by
  unfold forget
  split
  · next value size used found => exact tidy_erase tidy found
  · exact tidy

omit [Std.LawfulEqOrd κ] in
theorem forget_self (lru : Lru κ ν) (key : κ) : (lru.forget key).held[key]? = none := by
  unfold forget
  split
  · exact Std.ExtTreeMap.getElem?_erase_self
  · assumption

theorem forget_other {other : κ} (apart : other ≠ key) : (lru.forget key).held[other]? = lru.held[other]? := by
  unfold forget
  split
  · rw [Std.ExtTreeMap.getElem?_erase, if_neg ?_]
    intro same
    exact apart (Std.LawfulEqOrd.eq_of_compare same).symm
  · rfl

omit [Std.LawfulEqOrd κ] in
theorem unused_next (tidy : lru.Tidy) : lru.byUse[lru.tick + 1]? = none := by
  cases held : lru.byUse[lru.tick + 1]? with
  | none => rfl
  | some key =>
    have bound := tidy.recent _ _ held
    omega

theorem tidy_keep (tidy : lru.Tidy) (absent : lru.held[key]? = none) (value : ν) (size : Nat) :
    (lru.keep key value size).Tidy := by
  have unused := unused_next tidy
  refine ⟨?_, ?_, ?_, ?_⟩
  · intro other value' size' used' held
    simp only [keep, Std.ExtTreeMap.getElem?_insert] at held ⊢
    by_cases same : key = other
    · rw [if_pos (by simpa using same)] at held
      cases held
      simp [same]
    · rw [if_neg (by simpa using same)] at held
      have otherUse := tidy.uses other value' size' used' held
      have apart : lru.tick + 1 ≠ used' := by
        rintro rfl
        rw [unused] at otherUse
        cases otherUse
      rw [if_neg (by simpa using apart)]
      exact otherUse
  · intro used' other held
    simp only [keep, Std.ExtTreeMap.getElem?_insert] at held ⊢
    by_cases same : lru.tick + 1 = used'
    · rw [if_pos (by simpa using same)] at held
      cases held
      exact ⟨value, size, by simp [same]⟩
    · rw [if_neg (by simpa using same)] at held
      obtain ⟨value', size', otherHeld⟩ := tidy.keys used' other held
      refine ⟨value', size', ?_⟩
      rw [if_neg ?_]
      · exact otherHeld
      · intro same'
        obtain rfl := Std.LawfulEqOrd.eq_of_compare same'
        rw [absent] at otherHeld
        cases otherHeld
  · have sum := BTreeMap.sum_insert_of_absent absent (value, size, lru.tick + 1) fun entry : ν × Nat × Nat => entry.2.1
    show lru.bytes + size = _
    rw [keep, sum, tidy.bytes]
    exact Nat.add_comm ..
  · intro used' other held
    simp only [keep, Std.ExtTreeMap.getElem?_insert] at held ⊢
    split at held
    · next same =>
      have := Std.LawfulEqOrd.eq_of_compare same
      omega
    · exact (tidy.recent used' other held).trans (Nat.le_succ _)

/-- A value used again is a value forgotten and kept. -/
theorem touch_eq (tidy : lru.Tidy) (found : lru.held[key]? = some (value, size, used)) :
    lru.touch key value size used = (lru.forget key).keep key value size := by
  have total := (BTreeMap.sum_eq_erase found fun entry : ν × Nat × Nat => entry.2.1)
  rw [← tidy.bytes] at total
  have forgotten : lru.forget key =
      { lru with held := lru.held.erase key, byUse := lru.byUse.erase used, bytes := lru.bytes - size } := by
    unfold forget
    rw [found]
  have held : (lru.held.erase key).insert key (value, size, lru.tick + 1) =
      lru.held.insert key (value, size, lru.tick + 1) := by
    refine Std.ExtTreeMap.ext_getElem? fun other => ?_
    simp only [Std.ExtTreeMap.getElem?_insert, Std.ExtTreeMap.getElem?_erase]
    split <;> rfl
  rw [forgotten]
  simp only [touch, keep, held, Lru.mk.injEq, true_and, and_true]
  change lru.bytes = size + _ at total
  omega

theorem tidy_touch (tidy : lru.Tidy) (found : lru.held[key]? = some (value, size, used)) :
    (lru.touch key value size used).Tidy := by
  rw [touch_eq tidy found]
  exact tidy_keep (tidy_forget tidy key) (forget_self lru key) value size

theorem tidy_evict (tidy : lru.Tidy) (found : lru.byUse[used]? = some key) : (lru.evict used key).Tidy := by
  obtain ⟨value, size, held⟩ := tidy.keys used key found
  unfold evict
  rw [held]
  exact tidy_erase tidy held

omit [Std.LawfulEqOrd κ] in
theorem size_evict (found : lru.byUse[used]? = some key) : (lru.evict used key).byUse.size + 1 = lru.byUse.size := by
  have popped : (lru.evict used key).byUse = lru.byUse.erase used := by
    unfold evict
    dsimp only
    split <;> rfl
  rw [popped, Std.ExtTreeMap.size_erase]
  have member : lru.byUse.contains used = true := by
    rw [Std.ExtTreeMap.contains_eq_isSome_getElem?, found]
    rfl
  rw [if_pos member]
  have positive : 0 < lru.byUse.size := by
    rcases Nat.eq_zero_or_pos lru.byUse.size with zero | positive
    · have empty := Std.ExtTreeMap.eq_empty_iff_size_eq_zero.mpr zero
      rw [empty] at found
      simp at found
    · exact positive
  omega

theorem within_trimWithin (bound fuel : Nat) (lru : Lru κ ν) : (trimWithin bound fuel lru).Within lru := by
  induction fuel generalizing lru with
  | zero => exact .refl lru
  | succ fuel ih =>
    unfold trimWithin
    split
    · split
      · next used key first =>
        intro other value size at_ found
        exact within_evict used key other value size at_ (ih _ other value size at_ found)
      · exact .refl lru
    · exact .refl lru

theorem within_trim (bound : Nat) (lru : Lru κ ν) : (trim bound lru).Within lru :=
  within_trimWithin bound _ lru

/-- Trimming ends within the bound: where it evicted all, nothing is held. -/
theorem tidy_trimWithin {bound fuel : Nat} (tidy : lru.Tidy) (enough : lru.byUse.size < fuel) :
    (trimWithin bound fuel lru).Tidy ∧ (trimWithin bound fuel lru).bytes ≤ bound := by
  induction fuel generalizing lru with
  | zero => omega
  | succ fuel ih =>
    unfold trimWithin
    split
    · next past =>
      split
      · next used key first =>
        have found : lru.byUse[used]? = some key := BTreeMap.mem_toList.mp (List.mem_of_head? first)
        have fewer := size_evict found
        exact ih (tidy_evict tidy found) (by omega)
      · next empty =>
        exfalso
        have none : lru.byUse = ∅ := Std.ExtTreeMap.toList_eq_nil_iff.mp (List.head?_eq_none_iff.mp empty)
        have nothing : lru.held = ∅ := by
          refine Std.ExtTreeMap.ext_getElem? fun key => ?_
          cases held : lru.held[key]? with
          | none => simp
          | some entry =>
            obtain ⟨value, size, used⟩ := entry
            have use := tidy.uses key value size used held
            rw [none] at use
            simp at use
        have bytes := tidy.bytes
        rw [nothing, BTreeMap.sum_empty] at bytes
        omega
    · next inBound => exact ⟨tidy, Nat.le_of_not_lt inBound⟩

theorem tidy_trim {bound : Nat} (tidy : lru.Tidy) : (trim bound lru).Tidy ∧ (trim bound lru).bytes ≤ bound :=
  tidy_trimWithin tidy (Nat.lt_succ_self _)

end Lru

end MeridianCore
