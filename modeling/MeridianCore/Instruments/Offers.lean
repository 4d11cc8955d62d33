import MeridianCore.Instruments.Completed

namespace MeridianCore.Instruments

/-- The record a call writes, under its ID. -/
def Call.record : Call → Option Instrument
  | .mint candidate _ => some candidate
  | .write record _ => some record
  | .replace _ _ | .readTo _ => none

namespace Held
variable {held : Held} {id : String} {record : Instrument} {call : Call}

/-- A call that writes a record leaves the others as they were, and what each became. -/
theorem byId_call_other (apart : ∀ record, call.record = some record → record.instrumentId ≠ id) :
    (held.call call).byId[id]? = held.byId[id]? := by
  cases call with
  | mint candidate key =>
    have different : candidate.instrumentId ≠ id := apart candidate rfl
    cases found : (held.mintedFor[key]?).bind fun id => held.byId[id]? with
    | some kept => rw [Held.call, mint_some found]
    | none =>
      rw [Held.call, mint_none found]
      simp [Std.ExtTreeMap.getElem?_insert, different]
  | write record expected =>
    have different : record.instrumentId ≠ id := apart record rfl
    unfold Held.call Held.write
    dsimp only
    split
    · rfl
    · split
      · rfl
      · simp [Std.ExtTreeMap.getElem?_insert, different]
  | replace replacedId replacedBy =>
    unfold Held.call Held.replace
    dsimp only
    split <;> rfl
  | readTo sequence => rfl

/-- A call that writes a record leaves it so or as it was. -/
theorem byId_call_own (held : Held) (writes : call.record = some record) :
    (held.call call).byId[record.instrumentId]? = some record ∨
      (held.call call).byId[record.instrumentId]? = held.byId[record.instrumentId]? := by
  cases call with
  | mint candidate key =>
    cases writes
    cases found : (held.mintedFor[key]?).bind fun id => held.byId[id]? with
    | some kept => rw [Held.call, mint_some found]; exact Or.inr rfl
    | none => rw [Held.call, mint_none found]; exact Or.inl Std.ExtTreeMap.getElem?_insert_self
  | write written expected =>
    cases writes
    unfold Held.call Held.write
    dsimp only
    split
    · exact Or.inr rfl
    · split
      · exact Or.inr rfl
      · exact Or.inl Std.ExtTreeMap.getElem?_insert_self
  | replace replacedId replacedBy => cases writes
  | readTo sequence => cases writes

theorem byId_write {kept : Instrument} {expected : Int} (found : held.byId[record.instrumentId]? = some kept)
    (same : kept.version = expected) : (held.call (.write record expected)).byId[record.instrumentId]? = some record := by
  rw [Held.call, write_held found same]
  exact Std.ExtTreeMap.getElem?_insert_self

theorem replacementOf_call (writes : call.record.isSome ∨ ∃ sequence, call = .readTo sequence) :
    (held.call call).replacementOf = held.replacementOf := by
  cases call with
  | mint candidate key =>
    cases found : (held.mintedFor[key]?).bind fun id => held.byId[id]? with
    | some kept => rw [Held.call, mint_some found]
    | none => rw [Held.call, mint_none found]; rfl
  | write record expected =>
    unfold Held.call Held.write
    dsimp only
    split
    · rfl
    · split <;> rfl
  | replace replacedId replacedBy => simp [Call.record] at writes
  | readTo sequence => rfl

theorem byId_replace (held : Held) (replacedId replacedBy : String) :
    (held.call (.replace replacedId replacedBy)).byId = held.byId := by
  unfold Held.call Held.replace
  dsimp only
  split <;> rfl

end Held

variable {termAt : TermAt} {held next : Held} {anew : List Offer} {call : Call}

/-- Every record held is under its ID, its offers standing. -/
def Stands (termAt : TermAt) (held : Held) : Prop :=
  ∀ (id : String) (record : Instrument), held.byId[id]? = some record → record.instrumentId = id ∧ Offered termAt record

/-- What calls leave of the offers: they stand, each that stood on a record stands on it, is in force there or was
offered anew, and those of a record replaced on the one it became. -/
structure Keeping (termAt : TermAt) (held next : Held) (anew : List Offer) : Prop where
  stands : Stands termAt next
  keeps : ∀ (id : String) (before : Instrument), held.byId[id]? = some before →
    ∃ after, next.byId[id]? = some after ∧ Keeps termAt before after anew
  moves : ∀ (id by_ : String) (before into : Instrument), held.replacementOf id = none → next.replacementOf id = some by_ →
    held.byId[id]? = some before → next.byId[by_]? = some into → Moves termAt before.offers into anew

/-- A call that mints a record with its offers standing, or writes one that keeps them. -/
def CallKeeps (termAt : TermAt) (held : Held) (anew : List Offer) : Call → Prop
  | .mint candidate _ => held.byId[candidate.instrumentId]? = none ∧ Offered termAt candidate
  | .write record _ => ∃ before, held.byId[record.instrumentId]? = some before ∧ Stepped termAt before record anew
  | .replace _ _ | .readTo _ => False

theorem keeping_refl (stands : Stands termAt held) (anew : List Offer) : Keeping termAt held held anew := by
  refine ⟨stands, fun id before found => ⟨before, found, Keeps.refl before anew⟩, fun id by_ before into bare newly _ _ => ?_⟩
  rw [bare] at newly
  cases newly

theorem CallKeeps.record (keeps : CallKeeps termAt held anew call) : ∃ record, call.record = some record ∧
    Offered termAt record ∧ ∀ before, held.byId[record.instrumentId]? = some before → Keeps termAt before record anew := by
  cases call with
  | mint candidate key =>
    refine ⟨candidate, rfl, keeps.2, fun before found => ?_⟩
    rw [keeps.1] at found
    cases found
  | write record expected =>
    obtain ⟨before, found, stepped⟩ := keeps
    refine ⟨record, rfl, stepped.offered, fun other found' => ?_⟩
    rw [found] at found'
    cases found'
    exact stepped.keeps
  | replace replacedId replacedBy => exact absurd keeps id
  | readTo sequence => exact absurd keeps id

theorem keeping_call (stands : Stands termAt held) (keeps : CallKeeps termAt held anew call) :
    Keeping termAt held (held.call call) anew := by
  obtain ⟨record, writes, offered, kept⟩ := keeps.record
  have same : (held.call call).replacementOf = held.replacementOf :=
    Held.replacementOf_call (Or.inl (by rw [writes]; rfl))
  have own := Held.byId_call_own held writes
  have other {id : String} (apart : record.instrumentId ≠ id) : (held.call call).byId[id]? = held.byId[id]? :=
    Held.byId_call_other fun each written => by
      rw [writes] at written
      cases written
      exact apart
  refine ⟨fun id found written => ?_, fun id before found => ?_, fun id by_ before into bare newly _ _ => ?_⟩
  · by_cases isOwn : record.instrumentId = id
    · subst isOwn
      rcases own with set | unset
      · rw [set] at written
        cases written
        exact ⟨rfl, offered⟩
      · rw [unset] at written
        exact stands _ found written
    · rw [other isOwn] at written
      exact stands id found written
  · by_cases isOwn : record.instrumentId = id
    · subst isOwn
      rcases own with set | unset
      · exact ⟨record, set, kept before found⟩
      · exact ⟨before, unset.trans found, Keeps.refl before anew⟩
    · exact ⟨before, (other isOwn).trans found, Keeps.refl before anew⟩
  · rw [same, bare] at newly
    cases newly

/-- A record written after another, each once. -/
theorem keeping_two {second : Call} {first_ second_ : Instrument} (stands : Stands termAt held)
    (first : CallKeeps termAt held anew call) (writes : call.record = some first_)
    (later : CallKeeps termAt held anew second) (writes' : second.record = some second_)
    (apart : first_.instrumentId ≠ second_.instrumentId) :
    Keeping termAt held ((held.call call).call second) anew := by
  have one := keeping_call stands first
  have untouched : (held.call call).byId[second_.instrumentId]? = held.byId[second_.instrumentId]? :=
    Held.byId_call_other fun each written => by
      rw [writes] at written
      cases written
      exact apart
  have later' : CallKeeps termAt (held.call call) anew second := by
    cases second with
    | mint candidate key =>
      cases writes'
      exact ⟨untouched.trans later.1, later.2⟩
    | write record expected =>
      cases writes'
      obtain ⟨before, found, stepped⟩ := later
      exact ⟨before, untouched.trans found, stepped⟩
    | replace replacedId replacedBy => exact absurd later id
    | readTo sequence => exact absurd later id
  have two := keeping_call one.stands later'
  refine ⟨two.stands, fun id before found => ?_, fun id by_ before into bare newly _ _ => ?_⟩
  · by_cases isFirst : first_.instrumentId = id
    · obtain ⟨after, there, keeps⟩ := one.keeps id before found
      have same : ((held.call call).call second).byId[id]? = (held.call call).byId[id]? :=
        Held.byId_call_other fun each written => by
          rw [writes'] at written
          cases written
          exact fun isSecond => apart (isFirst.trans isSecond.symm)
      exact ⟨after, same.trans there, keeps⟩
    · have same : (held.call call).byId[id]? = held.byId[id]? :=
        Held.byId_call_other fun each written => by
          rw [writes] at written
          cases written
          exact isFirst
      exact two.keeps id before (same.trans found)
  · rw [Held.replacementOf_call (Or.inl (by rw [writes']; rfl)), Held.replacementOf_call (Or.inl (by rw [writes]; rfl)),
      bare] at newly
    cases newly

/-- What an event has the store do: nothing, one record written, or one written, the one it stands for closed, and its
replacement recorded. -/
inductive Shape (termAt : TermAt) (held : Held) (anew : List Offer) : List Call → Prop where
  | none : Shape termAt held anew []
  | one {call : Call} (keeps : CallKeeps termAt held anew call) : Shape termAt held anew [call]
  | replaced {call : Call} {stays gone replaced : Instrument} {expected : Int} {id : String}
      (first : CallKeeps termAt held anew call) (writes : call.record = some stays)
      (written : (held.call call).byId[stays.instrumentId]? = some stays ∨ held.byId[stays.instrumentId]? = none)
      (later : CallKeeps termAt held anew (.write gone expected)) (isGone : gone.instrumentId = id)
      (apart : stays.instrumentId ≠ id) (found : held.byId[id]? = some replaced)
      (moves : Moves termAt replaced.offers stays anew) :
      Shape termAt held anew [call, .write gone expected, .replace id stays.instrumentId]

theorem keeping_replaced {stays gone replaced : Instrument} {expected : Int} {id : String} (stands : Stands termAt held)
    (first : CallKeeps termAt held anew call) (writes : call.record = some stays)
    (written : (held.call call).byId[stays.instrumentId]? = some stays ∨ held.byId[stays.instrumentId]? = none)
    (later : CallKeeps termAt held anew (.write gone expected)) (isGone : gone.instrumentId = id)
    (apart : stays.instrumentId ≠ id) (found : held.byId[id]? = some replaced)
    (moves : Moves termAt replaced.offers stays anew) :
    Keeping termAt held (held.calls [call, .write gone expected, .replace id stays.instrumentId]) anew := by
  have two := keeping_two stands first writes later rfl (isGone ▸ apart)
  have same : (((held.call call).call (.write gone expected)).call (.replace id stays.instrumentId)).byId =
      ((held.call call).call (.write gone expected)).byId := Held.byId_replace _ _ _
  have before : ((held.call call).call (.write gone expected)).replacementOf = held.replacementOf := by
    rw [Held.replacementOf_call (Or.inl rfl), Held.replacementOf_call (Or.inl (by rw [writes]; rfl))]
  refine ⟨fun other record there => two.stands other record (same ▸ there), fun other record there => ?_,
    fun other by_ record into bare newly there into_ => ?_⟩
  · obtain ⟨after, there, keeps⟩ := two.keeps other record there
    exact ⟨after, same.symm ▸ there, keeps⟩
  · -- Only the one ID is replaced, by the record that stays.
    have recorded : other = id ∧ by_ = stays.instrumentId := by
      change (((held.call call).call (.write gone expected)).replace id stays.instrumentId).replacementOf other = some by_ at newly
      unfold Held.replace at newly
      split at newly
      · change ((held.call call).call (.write gone expected)).replacementOf other = some by_ at newly
        rw [before, bare] at newly
        cases newly
      · simp only [Held.replacementOf, Std.ExtTreeMap.getElem?_insert] at newly
        split at newly
        · next isId => exact ⟨(Std.LawfulEqOrd.eq_of_compare isId).symm, (Option.some.inj newly).symm⟩
        · have kept : ((held.call call).call (.write gone expected)).replacementOf other = some by_ := newly
          rw [before, bare] at kept
          cases kept
    obtain ⟨rfl, rfl⟩ := recorded
    rw [found] at there
    cases there
    have untouched : ((held.call call).call (.write gone expected)).byId[stays.instrumentId]? =
        (held.call call).byId[stays.instrumentId]? :=
      Held.byId_call_other fun each written => by
        cases written
        exact fun isStays => apart (isStays.symm.trans isGone)
    have into_ : (held.call call).byId[stays.instrumentId]? = some into := untouched ▸ same ▸ into_
    rcases written with set | absent
    · rw [set] at into_
      cases into_
      exact moves
    · rcases Held.byId_call_own held writes with set | unset
      · rw [set] at into_
        cases into_
        exact moves
      · rw [unset, absent] at into_
        cases into_

end MeridianCore.Instruments
