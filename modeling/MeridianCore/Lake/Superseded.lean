import MeridianCore.Lake.Latest
import MeridianCore.Lake.Number

namespace MeridianCore.Lake
open Std (ExtTreeMap ExtTreeSet)

/-- The last place of each conflation key so far, and the places a later row supersedes. -/
abbrev Superseding := BTreeMap String Nat × BTreeSet Nat

def supersede (so : Superseding) (entry : Observation × Nat) : Superseding :=
  match entry.1.conflationKey with
  | some key =>
    (so.1.insert key entry.2,
      match so.1[key]? with
      | some earlier => so.2.insert earlier
      | none => so.2)
  | none => so

/-- The rows of one recorded batch that a later row of the same batch supersedes under its conflation key,
by their place in the batch. -/
def supersededInBatch (rows : List Observation) : BTreeSet Nat := (rows.zipIdx.foldl supersede (∅, ∅)).2

/-- A row of a batch that a later one shares its conflation key with: the key, and no row after that one has
it. -/
structure Replaced (rows : List Observation) (i j : Nat) (row last : Observation) : Prop where
  left : rows[i]? = some row
  kept : rows[j]? = some last
  after : i < j
  key : row.conflationKey.isSome ∧ row.conflationKey = last.conflationKey
  final : ∀ (k : Nat) (other : Observation), j < k → rows[k]? = some other → other.conflationKey ≠ last.conflationKey

/-- What the fold knows of the rows it has passed. -/
structure Passed (rows : List Observation) (so : Superseding) : Prop where
  last : ∀ (key : String) (i : Nat), so.1[key]? = some i ↔
    (rows[i]?.bind Observation.conflationKey = some key ∧
      ∀ k, i < k → rows[k]?.bind Observation.conflationKey ≠ some key)
  superseded : ∀ i, i ∈ so.2 ↔ ∃ key j, i < j ∧ rows[i]?.bind Observation.conflationKey = some key ∧
    rows[j]?.bind Observation.conflationKey = some key

theorem keyAt_snoc (rows : List Observation) (row : Observation) (i : Nat) :
    (rows ++ [row])[i]?.bind Observation.conflationKey =
      if i = rows.length then row.conflationKey else rows[i]?.bind Observation.conflationKey := by
  by_cases last : i = rows.length
  · subst last
    simp
  · rw [if_neg last]
    by_cases inside : i < rows.length
    · rw [List.getElem?_append_left inside]
    · rw [List.getElem?_eq_none (by simp; omega), List.getElem?_eq_none (by omega)]

theorem keyAt_lt {rows : List Observation} {i : Nat} {key : String}
    (at_ : rows[i]?.bind Observation.conflationKey = some key) : i < rows.length := by
  by_contra beyond
  rw [List.getElem?_eq_none (by omega)] at at_
  cases at_

/-- Among the places of a key, there is a last. -/
theorem exists_last {rows : List Observation} {key : String} {i : Nat}
    (at_ : rows[i]?.bind Observation.conflationKey = some key) :
    ∃ j, i ≤ j ∧ rows[j]?.bind Observation.conflationKey = some key ∧
      ∀ k, j < k → rows[k]?.bind Observation.conflationKey ≠ some key := by
  induction rows using List.reverseRecOn generalizing i with
  | nil => simp at at_
  | append_singleton before last ih =>
    by_cases own : last.conflationKey = some key
    · refine ⟨before.length, ?_, ?_, ?_⟩
      · have := keyAt_lt at_
        simp only [List.length_append, List.length_singleton] at this
        omega
      · rw [keyAt_snoc, if_pos rfl, own]
      · intro k beyond found
        have := keyAt_lt found
        simp only [List.length_append, List.length_singleton] at this
        omega
    · rw [keyAt_snoc] at at_
      split at at_
      · exact absurd at_ own
      · obtain ⟨j, upto, found, final⟩ := ih at_
        refine ⟨j, upto, ?_, ?_⟩
        · rw [keyAt_snoc, if_neg (keyAt_lt found).ne, found]
        · intro k beyond
          rw [keyAt_snoc]
          split
          · exact own
          · exact final k beyond

theorem Passed.snoc {rows : List Observation} {so : Superseding} (passed : Passed rows so) (row : Observation) :
    Passed (rows ++ [row]) (supersede so (row, rows.length)) := by
  unfold supersede
  dsimp only
  cases own : row.conflationKey with
  | none =>
    constructor
    · intro key i
      rw [passed.last, keyAt_snoc]
      have same : ∀ k : Nat, ((rows ++ [row])[k]?.bind Observation.conflationKey = some key ↔
          rows[k]?.bind Observation.conflationKey = some key) := by
        intro k
        rw [keyAt_snoc, own]
        split
        · next last => simp [last]
        · rfl
      simp only [ne_eq, same]
      split
      · next last => simp [last, own]
      · rfl
    · intro i
      rw [passed.superseded]
      have same : ∀ (k : Nat) key, ((rows ++ [row])[k]?.bind Observation.conflationKey = some key ↔
          rows[k]?.bind Observation.conflationKey = some key) := by
        intro k key
        rw [keyAt_snoc, own]
        split
        · next last => simp [last]
        · rfl
      simp only [same]
  | some mine =>
    constructor
    · intro key i
      dsimp only
      rw [ExtTreeMap.getElem?_insert]
      by_cases same : mine = key
      · subst same
        rw [if_pos (by simp)]
        constructor
        · intro at_
          obtain rfl := Option.some.inj at_
          refine ⟨by rw [keyAt_snoc, if_pos rfl, own], fun k beyond found => ?_⟩
          have := keyAt_lt found
          simp only [List.length_append, List.length_singleton] at this
          omega
        · rintro ⟨at_, final⟩
          have inside := keyAt_lt at_
          simp only [List.length_append, List.length_singleton] at inside
          by_contra other
          have earlier : i < rows.length := by
            have : rows.length ≠ i := fun same => other (by rw [same])
            omega
          exact final rows.length earlier (by rw [keyAt_snoc, if_pos rfl, own])
      · rw [if_neg (by simpa using same), passed.last]
        have same' : ∀ k : Nat, ((rows ++ [row])[k]?.bind Observation.conflationKey = some key ↔
            rows[k]?.bind Observation.conflationKey = some key) := by
          intro k
          rw [keyAt_snoc, own]
          split
          · next last => simp [last, same]
          · rfl
        simp only [ne_eq, same']
    · intro i
      have added : (i ∈ (match so.1[mine]? with
          | some earlier => so.2.insert earlier
          | none => so.2)) ↔ so.1[mine]? = some i ∨ i ∈ so.2 := by
        cases found : so.1[mine]? with
        | none => simp
        | some earlier =>
          rw [ExtTreeSet.mem_insert, Std.LawfulEqOrd.compare_eq_iff_eq, Option.some.injEq]
      dsimp only
      rw [added, passed.last, passed.superseded]
      constructor
      · rintro (⟨at_, -⟩ | ⟨key, j, before, at_, again⟩)
        · have inside := keyAt_lt at_
          refine ⟨mine, rows.length, inside, ?_, ?_⟩
          · rw [keyAt_snoc, if_neg inside.ne, at_]
          · rw [keyAt_snoc, if_pos rfl, own]
        · refine ⟨key, j, before, ?_, ?_⟩
          · rw [keyAt_snoc, if_neg (keyAt_lt at_).ne, at_]
          · rw [keyAt_snoc, if_neg (keyAt_lt again).ne, again]
      · rintro ⟨key, j, before, at_, again⟩
        have bound := keyAt_lt again
        simp only [List.length_append, List.length_singleton] at bound
        rw [keyAt_snoc, if_neg (by omega)] at at_
        rw [keyAt_snoc] at again
        split at again
        · next last =>
          rw [own] at again
          obtain rfl := Option.some.inj again
          obtain ⟨k, upto, found, final⟩ := exists_last at_
          by_cases here : i = k
          · subst here
            exact .inl ⟨found, final⟩
          · exact .inr ⟨mine, k, by omega, at_, found⟩
        · exact .inr ⟨key, j, before, at_, again⟩

theorem passed (rows : List Observation) : Passed rows (rows.zipIdx.foldl supersede (∅, ∅)) := by
  induction rows using List.reverseRecOn with
  | nil => exact ⟨by simp, by simp⟩
  | append_singleton before last ih =>
    rw [List.zipIdx_append, List.foldl_append]
    simpa using ih.snoc last

/-- A row is left out of a batch's publication exactly where a later row of it has its conflation key, and
the last such is published. -/
theorem mem_supersededInBatch {rows : List Observation} {i : Nat} :
    i ∈ supersededInBatch rows ↔ ∃ j row last, Replaced rows i j row last := by
  unfold supersededInBatch
  rw [(passed rows).superseded]
  constructor
  · rintro ⟨key, j, before, at_, again⟩
    obtain ⟨k, upto, found, final⟩ := exists_last again
    obtain ⟨row, row_, key_⟩ := Option.bind_eq_some_iff.mp at_
    obtain ⟨last, last_, same⟩ := Option.bind_eq_some_iff.mp found
    refine ⟨k, row, last, row_, last_, by omega, ⟨by simp [key_], by rw [key_, same]⟩, ?_⟩
    intro m other beyond at_ alike
    exact final m beyond (by rw [at_, Option.bind_some, alike, same])
  · rintro ⟨j, row, last, replaced⟩
    obtain ⟨key, key_⟩ := Option.isSome_iff_exists.mp replaced.key.1
    refine ⟨key, j, replaced.after, ?_, ?_⟩
    · rw [replaced.left, Option.bind_some, key_]
    · rw [replaced.kept, Option.bind_some, ← replaced.key.2, key_]

theorem Replaced.published {rows : List Observation} {i j : Nat} {row last : Observation}
    (replaced : Replaced rows i j row last) : j ∉ supersededInBatch rows := by
  intro superseded
  obtain ⟨k, other, final, again⟩ := mem_supersededInBatch.mp superseded
  have same : last = other := Option.some.inj (replaced.kept.symm.trans again.left)
  exact replaced.final k final again.after again.kept (by rw [same]; exact again.key.2.symm)

end MeridianCore.Lake
