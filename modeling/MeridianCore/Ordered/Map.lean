import Mathlib

namespace MeridianCore

/-- A map iterated in the order of its keys. -/
abbrev BTreeMap (α : Type*) (β : Type*) [Ord α] := Std.ExtTreeMap α β

/-- A set iterated in its own order. -/
abbrev BTreeSet (α : Type*) [Ord α] := Std.ExtTreeSet α

namespace BTreeMap
open Std

variable {α β γ : Type*} [Ord α] [TransOrd α] [LawfulEqOrd α]

instance [DecidableEq β] : DecidableEq (BTreeMap α β) := fun m n =>
  decidable_of_iff ((m == n) = true) ⟨eq_of_beq, fun h => h ▸ beq_self_eq_true m⟩

/-- The first entry, in key order, that `p` holds of. -/
def find? (m : BTreeMap α β) (p : α → β → Bool) : Option (α × β) :=
  m.toList.find? fun entry => p entry.1 entry.2

theorem mem_toList {m : BTreeMap α β} {k : α} {v : β} : (k, v) ∈ m.toList ↔ m[k]? = some v :=
  ExtTreeMap.mem_toList_iff_getElem?_eq_some

theorem nodup_toList (m : BTreeMap α β) : m.toList.Nodup := by
  have distinct := @ExtTreeMap.distinct_keys_toList _ _ _ m _
  refine distinct.imp ?_
  intro a b differ same
  exact differ (same ▸ ReflCmp.compare_self)

theorem toList_insert_perm (m : BTreeMap α β) (k : α) (v : β) :
    (m.insert k v).toList.Perm ((k, v) :: (m.erase k).toList) := by
  have absent : (k, v) ∉ (m.erase k).toList := by
    rw [mem_toList, ExtTreeMap.getElem?_erase_self]
    simp
  refine (List.perm_ext_iff_of_nodup (nodup_toList _)
    (List.nodup_cons.mpr ⟨absent, nodup_toList _⟩)).mpr ?_
  rintro ⟨k', v'⟩
  rw [List.mem_cons, mem_toList, mem_toList, ExtTreeMap.getElem?_insert, ExtTreeMap.getElem?_erase]
  by_cases same : k = k'
  · subst same
    simp [eq_comm]
  · simp [same, Ne.symm same]

theorem toList_perm_erase {m : BTreeMap α β} {k : α} {v : β} (found : m[k]? = some v) :
    m.toList.Perm ((k, v) :: (m.erase k).toList) := by
  have again : m.insert k v = m := by
    refine ExtTreeMap.ext_getElem? fun k' => ?_
    rw [ExtTreeMap.getElem?_insert]
    by_cases same : k = k'
    · subst same; simp [found]
    · simp [same]
  simpa only [again] using toList_insert_perm m k v

/-- An entry of a map, and the others about it. -/
theorem toList_split {m : BTreeMap α β} {k : α} {v : β} (found : m[k]? = some v) :
    ∃ before after, m.toList = before ++ (k, v) :: after ∧
      ∀ entry ∈ before ++ after, m[entry.1]? = some entry.2 ∧ entry.1 ≠ k := by
  obtain ⟨before, after, split⟩ := List.append_of_mem (mem_toList.mpr found)
  refine ⟨before, after, split, fun entry member => ?_⟩
  have nodup := nodup_toList m
  rw [split] at nodup
  have held : m[entry.1]? = some entry.2 := by
    refine mem_toList.mp ?_
    rw [split]
    rcases List.mem_append.mp member with earlier | later
    · exact List.mem_append_left _ earlier
    · exact List.mem_append_right _ (List.mem_cons_of_mem _ later)
  refine ⟨held, fun same => ?_⟩
  rw [same, found] at held
  obtain rfl : entry = (k, v) := Prod.ext same (Option.some.inj held).symm
  exact (List.nodup_middle.mp nodup).notMem member

theorem toList_erase_of_absent {m : BTreeMap α β} {k : α} (absent : m[k]? = none) :
    m.erase k = m := by
  refine ExtTreeMap.ext_getElem? fun k' => ?_
  rw [ExtTreeMap.getElem?_erase]
  by_cases same : k = k'
  · subst same; simp [absent]
  · simp [same]

/-- A sum over the entries of a map. -/
def sum [AddCommMonoid γ] (m : BTreeMap α β) (f : β → γ) : γ :=
  (m.toList.map fun entry => f entry.2).sum

omit [LawfulEqOrd α] in
@[simp] theorem sum_empty [AddCommMonoid γ] (f : β → γ) : sum (∅ : BTreeMap α β) f = 0 := rfl

theorem sum_insert [AddCommMonoid γ] (m : BTreeMap α β) (k : α) (v : β) (f : β → γ) :
    sum (m.insert k v) f = f v + sum (m.erase k) f := by
  unfold sum
  rw [((toList_insert_perm m k v).map _).sum_eq]
  simp

theorem sum_eq_erase [AddCommMonoid γ] {m : BTreeMap α β} {k : α} {v : β} (found : m[k]? = some v)
    (f : β → γ) : sum m f = f v + sum (m.erase k) f := by
  unfold sum
  rw [((toList_perm_erase found).map _).sum_eq]
  simp

theorem sum_insert_of_absent [AddCommMonoid γ] {m : BTreeMap α β} {k : α} (absent : m[k]? = none)
    (v : β) (f : β → γ) : sum (m.insert k v) f = f v + sum m f := by
  rw [sum_insert, toList_erase_of_absent absent]

theorem find?_eq_none {m : BTreeMap α β} {p : α → β → Bool} :
    m.find? p = none ↔ ∀ k v, m[k]? = some v → p k v = false := by
  simp only [find?, List.find?_eq_none, Prod.forall, mem_toList, Bool.not_eq_true]

/-- What `find?` answers is the least key `p` holds at. -/
theorem find?_eq_some {m : BTreeMap α β} {p : α → β → Bool} {k : α} {v : β} :
    m.find? p = some (k, v) ↔
      m[k]? = some v ∧ p k v = true ∧
        ∀ k' v', compare k' k = .lt → m[k']? = some v' → p k' v' = false := by
  have ordered := @ExtTreeMap.ordered_keys_toList _ _ _ m _
  constructor
  · intro h
    obtain ⟨holds, before, after, split, earlier⟩ := List.find?_eq_some_iff_append.mp h
    have member : (k, v) ∈ m.toList := by rw [split]; simp
    refine ⟨mem_toList.mp member, holds, ?_⟩
    intro k' v' less found
    have member' := mem_toList.mpr found
    rw [split] at member' ordered
    rcases List.mem_append.mp member' with inBefore | inRest
    · simpa using earlier _ inBefore
    · rcases List.mem_cons.mp inRest with same | inAfter
      · obtain ⟨rfl, -⟩ := Prod.mk.injEq .. ▸ same
        rw [Std.ReflOrd.compare_self] at less
        cases less
      · have later := (List.pairwise_cons.mp (List.pairwise_append.mp ordered).2.1).1 _ inAfter
        have flipped : compare k' k = .gt := OrientedCmp.gt_of_lt later
        rw [less] at flipped
        cases flipped
  · rintro ⟨found, holds, least⟩
    cases result : m.find? p with
    | none => rw [find?_eq_none.mp result k v found] at holds; cases holds
    | some entry =>
      obtain ⟨k', v'⟩ := entry
      obtain ⟨holds', before, after, split, earlier⟩ := List.find?_eq_some_iff_append.mp result
      have member' : (k', v') ∈ m.toList := by rw [split]; simp
      have found' := mem_toList.mp member'
      cases order : compare k' k with
      | lt => rw [least k' v' order found'] at holds'; cases holds'
      | eq =>
        obtain rfl := LawfulEqCmp.eq_of_compare order
        rw [found] at found'
        rw [Option.some.inj found']
      | gt =>
        have less : compare k k' = .lt := OrientedCmp.lt_of_gt order
        have member := mem_toList.mpr found
        rw [split] at member ordered
        rcases List.mem_append.mp member with inBefore | inRest
        · have no := earlier _ inBefore
          rw [holds] at no
          cases no
        · rcases List.mem_cons.mp inRest with same | inAfter
          · obtain ⟨rfl, -⟩ := Prod.mk.injEq .. ▸ same
            rw [Std.ReflOrd.compare_self] at less
            cases less
          · have later := (List.pairwise_cons.mp (List.pairwise_append.mp ordered).2.1).1 _ inAfter
            simp only [] at later
            rw [order] at later
            cases later

end BTreeMap

end MeridianCore

namespace MeridianCore

/-- Pairs in the order of their first parts, then of their second. -/
instance instOrdPair {α β : Type*} [Ord α] [Ord β] : Ord (α × β) := lexOrd

namespace BTreeMap
open Std

variable {α β : Type*} [Ord α] [TransOrd α] [LawfulEqOrd α]

/-- A map's values, in key order. -/
def valuesOf (m : BTreeMap α β) : List β := m.toList.map Prod.snd

/-- A map of values, each under a key of its own. -/
def keyed (key : β → α) (values : List β) : BTreeMap α β := ExtTreeMap.ofList (values.map fun value => (key value, value))

theorem mem_of_ofList {entries : List (α × β)} {k : α} {v : β}
    (found : (ExtTreeMap.ofList entries : BTreeMap α β)[k]? = some v) : (k, v) ∈ entries := by
  classical
  rw [ExtTreeMap.ofList_eq_insertMany_empty, ExtTreeMap.getElem?_insertMany_list, ExtTreeMap.getElem?_empty, Option.or_none,
    List.findSomeRev?_eq_findSome?_reverse] at found
  obtain ⟨⟨k', v'⟩, member, at_⟩ := List.exists_of_findSome?_eq_some found
  dsimp only at at_
  split at at_
  · next same =>
    obtain rfl := LawfulEqOrd.eq_of_compare same
    rw [Option.some.inj at_] at member
    exact List.mem_reverse.mp member
  · cases at_

theorem ofList_toList (m : BTreeMap α β) : (ExtTreeMap.ofList m.toList : BTreeMap α β) = m := by
  refine ExtTreeMap.ext_getElem? fun k => Option.ext fun v => ?_
  constructor
  · intro found
    exact mem_toList.mp (mem_of_ofList found)
  · intro found
    exact ExtTreeMap.getElem?_ofList_of_mem ReflOrd.compare_self ExtTreeMap.distinct_keys_toList (mem_toList.mpr found)

/-- A map put together again from its values is the map where each value's own key is the one it is under. -/
theorem keyed_valuesOf_iff {key : β → α} (m : BTreeMap α β) :
    keyed key (valuesOf m) = m ↔ ∀ (k : α) (v : β), m[k]? = some v → key v = k := by
  constructor
  · intro same k v found
    rw [← same] at found
    obtain ⟨value, -, entry⟩ := List.mem_map.mp (mem_of_ofList found)
    obtain ⟨rfl, rfl⟩ := Prod.mk.inj entry
    rfl
  · intro own
    have entries : (valuesOf m).map (fun value => (key value, value)) = m.toList := by
      rw [valuesOf, List.map_map]
      conv_rhs => rw [← List.map_id m.toList]
      refine List.map_congr_left ?_
      rintro ⟨k, v⟩ member
      exact Prod.ext (own k v (mem_toList.mp member)) rfl
    rw [keyed, entries, ofList_toList]

end BTreeMap

namespace BTreeSet
open Std

variable {α : Type*} [Ord α] [TransOrd α] [LawfulEqOrd α]

theorem ofList_toList (s : BTreeSet α) : (ExtTreeSet.ofList s.toList : BTreeSet α) = s := by
  classical
  refine ExtTreeSet.ext_mem fun k => ?_
  rw [ExtTreeSet.mem_ofList, List.contains_iff_mem, ExtTreeSet.mem_toList]

end BTreeSet

end MeridianCore

namespace MeridianCore

namespace BTreeMap
open Std

variable {α β γ δ : Type} [Ord α] [TransOrd α] [LawfulEqOrd α]

/-- Two maps that hold the same keys, and read the same under each. -/
def ReadsAlike (reads : β → γ) (a b : BTreeMap α β) : Prop :=
  ∀ k : α, (b[k]?).map reads = (a[k]?).map reads

namespace ReadsAlike

variable {reads : β → γ} {a b c : BTreeMap α β}

omit [LawfulEqOrd α] in
theorem refl (a : BTreeMap α β) : ReadsAlike reads a a := fun _ => rfl

omit [LawfulEqOrd α] in
omit [LawfulEqOrd α] in
theorem trans (first : ReadsAlike reads a b) (second : ReadsAlike reads b c) : ReadsAlike reads a c :=
  fun k => (second k).trans (first k)

omit [LawfulEqOrd α] in
/-- Held under neither, or read the same from both. -/
theorem either (alike : ReadsAlike reads a b) (k : α) :
    (a[k]? = none ∧ b[k]? = none) ∨
      ∃ held later, a[k]? = some held ∧ b[k]? = some later ∧ reads later = reads held := by
  have same := alike k
  cases inA : a[k]? with
  | none =>
    rw [inA] at same
    exact Or.inl ⟨rfl, Option.map_eq_none_iff.mp same⟩
  | some held =>
    rw [inA] at same
    obtain ⟨later, inB, same⟩ := Option.map_eq_some_iff.mp same
    exact Or.inr ⟨held, later, rfl, inB, same⟩

omit [LawfulEqOrd α] in
/-- What is read further from what is read alike. -/
theorem further (alike : ReadsAlike reads a b) (more : γ → δ) : ReadsAlike (fun held => more (reads held)) a b := by
  intro k
  have same := congrArg (Option.map more) (alike k)
  simpa only [Option.map_map, Function.comp_def] using same

omit [LawfulEqOrd α] in
theorem modify (alike : ReadsAlike reads a b) (k : α) {f g : β → β}
    (keeps : ∀ held later, reads later = reads held → reads (g later) = reads (f held)) :
    ReadsAlike reads (a.modify k f) (b.modify k g) := by
  intro other
  rw [ExtTreeMap.getElem?_modify, ExtTreeMap.getElem?_modify]
  split
  · rcases alike.either k with ⟨inA, inB⟩ | ⟨held, later, inA, inB, same⟩
    · rw [inA, inB]
      rfl
    · simp only [inA, inB, Option.map_some, keeps held later same]
  · exact alike other

/-- An entry changed in what is not read. -/
theorem modify_right (alike : ReadsAlike reads a b) (k : α) {g : β → β}
    (keeps : ∀ later, reads (g later) = reads later) : ReadsAlike reads a (b.modify k g) := by
  intro other
  rw [← alike other, ExtTreeMap.getElem?_modify]
  split
  · next equal =>
    obtain rfl := LawfulEqOrd.eq_of_compare equal
    cases b[k]? with
    | none => rfl
    | some later => simp only [Option.map_some, keeps]
  · rfl

omit [LawfulEqOrd α] in
theorem insert (alike : ReadsAlike reads a b) (k : α) {held later : β} (same : reads later = reads held) :
    ReadsAlike reads (a.insert k held) (b.insert k later) := by
  intro other
  rw [ExtTreeMap.getElem?_insert, ExtTreeMap.getElem?_insert]
  split
  · simp only [Option.map_some, same]
  · exact alike other

/-- What is read under every key, as a map of it. -/
theorem map_eq (alike : ReadsAlike reads a b) : b.map (fun _ => reads) = a.map fun _ => reads := by
  refine ExtTreeMap.ext_getElem? fun k => ?_
  rw [ExtTreeMap.getElem?_map, ExtTreeMap.getElem?_map]
  exact alike k

theorem size_eq (alike : ReadsAlike reads a b) : b.size = a.size := by
  have same := congrArg ExtTreeMap.size alike.map_eq
  simpa only [ExtTreeMap.size_map] using same

theorem toList_eq (alike : ReadsAlike reads a b) :
    (b.toList.map Prod.snd).map reads = (a.toList.map Prod.snd).map reads := by
  have same := congrArg (fun m : BTreeMap α γ => m.toList.map Prod.snd) alike.map_eq
  simpa only [ExtTreeMap.toList_map, List.map_map, Function.comp_def] using same

end ReadsAlike

end BTreeMap

end MeridianCore
