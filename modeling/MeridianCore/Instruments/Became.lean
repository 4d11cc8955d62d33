import MeridianCore.Instruments.Standing
import MeridianCore.Ordered.Within

namespace MeridianCore.Instruments

variable {termAt : TermAt} {held next : Held} {id by_ : String} {record : Instrument} {call : Call}

/-- Where a record is replaced, no ID it stands for is further from it than leaves a chain followed to its end. -/
def Room (held : Held) (id : String) : Prop :=
  ∀ from_, held.replacementOf.Leads from_ id → held.replacementOf.EndsWithin (longestChain - 1) from_

/-- A record minted for a record of the platform's is the one it names. -/
def Call.keyed : Call → Prop
  | .mint candidate key => ∀ id, key = "ins:" ++ id → candidate.instrumentId = id
  | _ => True

/-- What the records held keep to: each under its ID, those replaced and what replaced them held, every chain short
enough to follow. -/
structure Unwinds (held : Held) : Prop where
  within : ∀ id, held.replacementOf.EndsWithin longestChain id
  replaced : ∀ id by_, held.replacementOf id = some by_ → (held.byId[id]?).isSome
  stays : ∀ id by_, held.replacementOf id = some by_ → (held.byId[by_]?).isSome
  named : ∀ (id : String) record, held.byId[id]? = some record → record.instrumentId = id
  platform : ∀ id minted, held.mintedFor["ins:" ++ id]? = some minted → minted = id

namespace Held

theorem isSome_call (call : Call) (there : (held.byId[id]?).isSome) : ((held.call call).byId[id]?).isSome := by
  cases writes : call.record with
  | none =>
    have same : (held.call call).byId = held.byId := by
      cases call with
      | replace replacedId replacedBy => exact byId_replace held replacedId replacedBy
      | readTo sequence => rfl
      | mint candidate key => cases writes
      | write record expected => cases writes
    rw [same]
    exact there
  | some record =>
    by_cases own : record.instrumentId = id
    · rcases byId_call_own held writes with set | unset
      · rw [← own, set]
        rfl
      · rw [← own, unset, own]
        exact there
    · rw [byId_call_other fun each written => by
        rw [writes] at written
        cases written
        exact own]
      exact there

theorem replacementOf_replace (open_ : held.replacementOf id = none) :
    (held.call (.replace id by_)).replacementOf = held.replacementOf.redirected id by_ := by
  rw [Held.call, replace_fresh open_]
  funext other
  change (held.replacements.insert id by_)[other]? = _
  rw [Std.ExtTreeMap.getElem?_insert, Pointers.redirected]
  by_cases same : other = id
  · subst same
    rw [if_pos Std.ReflCmp.compare_self, if_pos rfl]
  · rw [if_neg (fun equal => same (Std.LawfulEqOrd.eq_of_compare equal).symm), if_neg same]
    rfl

end Held

/-- A record minted or written. -/
theorem Unwinds.write (unwinds : Unwinds held) (writes : call.record = some record) (keyed : call.keyed) :
    Unwinds (held.call call) := by
  have same : (held.call call).replacementOf = held.replacementOf :=
    Held.replacementOf_call (Or.inl (by rw [writes]; rfl))
  refine ⟨fun id => ?_, fun id by_ replaced => ?_, fun id by_ replaced => ?_, fun id other found => ?_,
    fun id minted found => ?_⟩
  · rw [same]
    exact unwinds.within id
  · rw [same] at replaced
    exact Held.isSome_call call (unwinds.replaced id by_ replaced)
  · rw [same] at replaced
    exact Held.isSome_call call (unwinds.stays id by_ replaced)
  · by_cases own : record.instrumentId = id
    · rcases Held.byId_call_own held writes with set | unset
      · rw [← own, set] at found
        cases found
        exact own
      · rw [← own, unset] at found
        exact (unwinds.named _ other found).trans own
    · rw [Held.byId_call_other fun each written => by
        rw [writes] at written
        cases written
        exact own] at found
      exact unwinds.named id other found
  · cases call with
    | mint candidate key =>
      cases before : (held.mintedFor[key]?).bind fun id => held.byId[id]? with
      | some kept =>
        rw [Held.call, Held.mint_some before] at found
        exact unwinds.platform id minted found
      | none =>
        rw [Held.call, Held.mint_none before] at found
        simp only [Std.ExtTreeMap.getElem?_insert] at found
        split at found
        · next isKey =>
          cases found
          exact keyed id (Std.LawfulEqOrd.eq_of_compare isKey)
        · exact unwinds.platform id minted found
    | write written expected =>
      refine unwinds.platform id minted ?_
      rw [← found]
      unfold Held.call Held.write
      dsimp only
      split
      · rfl
      · split <;> rfl
    | replace replacedId replacedBy => cases writes
    | readTo sequence => cases writes

/-- A record replaced by another, neither replaced before, no chain to it too long. -/
theorem Unwinds.replace (unwinds : Unwinds held) (found : (held.byId[id]?).isSome) (there : (held.byId[by_]?).isSome)
    (apart : by_ ≠ id) (open_ : held.replacementOf id = none) (openBy : held.replacementOf by_ = none)
    (room : Room held id) : Unwinds (held.call (.replace id by_)) := by
  have same := Held.byId_replace held id by_
  have redirected : (held.call (.replace id by_)).replacementOf = _ := Held.replacementOf_replace open_
  have pointed {other into : String} (replaced : (held.call (.replace id by_)).replacementOf other = some into) :
      (other = id ∧ into = by_) ∨ held.replacementOf other = some into := by
    rw [redirected, Pointers.redirected] at replaced
    split at replaced
    · next isId => exact Or.inl ⟨isId, (Option.some.inj replaced).symm⟩
    · exact Or.inr replaced
  refine ⟨fun other => ?_, fun other into replaced => ?_, fun other into replaced => ?_, fun other record found => ?_,
    fun other minted found => ?_⟩
  · rw [redirected]
    exact Pointers.endsWithin_redirected openBy apart open_ unwinds.within room other
  · rw [same]
    rcases pointed replaced with ⟨rfl, -⟩ | before
    · exact found
    · exact unwinds.replaced other into before
  · rw [same]
    rcases pointed replaced with ⟨-, rfl⟩ | before
    · exact there
    · exact unwinds.stays other into before
  · rw [same] at found
    exact unwinds.named other record found
  · rw [Held.call, Held.replace_fresh open_] at found
    exact unwinds.platform other minted found

theorem Unwinds.readTo (unwinds : Unwinds held) (sequence : Int) : Unwinds (held.call (.readTo sequence)) :=
  ⟨unwinds.within, unwinds.replaced, unwinds.stays, unwinds.named, unwinds.platform⟩

theorem unwinds_nil : Unwinds {} := by
  refine ⟨fun id => Pointers.endsWithin_last ?_, fun id by_ replaced => ?_, fun id by_ replaced => ?_,
    fun id record found => ?_, fun id minted found => ?_⟩
  · simp [Held.replacementOf]
  · simp [Held.replacementOf] at replaced
  · simp [Held.replacementOf] at replaced
  · simp at found
  · simp at found

/-- What an ID became has one answer: nothing is replaced by what it replaced, every ID leads to a record that was not
replaced, and all on one chain to the same. -/
structure OneAnswer (held : Held) : Prop where
  unwound : held.replacementOf.Unwound
  open_ : ∀ id, held.replacementOf (current held id) = none
  known : ∀ id, (held.byId[id]?).isSome → (held.byId[current held id]?).isSome
  alike : ∀ id other, held.replacementOf.Leads id other → current held other = current held id
  read : ∀ request, (resolveIdentifierReadOnly held request).found = true →
    held.replacementOf (resolveIdentifierReadOnly held request).instrumentId = none

theorem Unwinds.endsAt_current (unwinds : Unwinds held) (id : String) :
    held.replacementOf.EndsAt id (current held id) :=
  (unwinds.within id).endsAt_follow (Pointers.unwound_of_within unwinds.within) fun other member => by
    obtain rfl := List.mem_singleton.mp member
    exact .refl

theorem Unwinds.current_open (unwinds : Unwinds held) (id : String) : held.replacementOf (current held id) = none :=
  (unwinds.endsAt_current id).2

/-- What a set meets is what a record became. -/
theorem open_of_met (unwinds : Unwinds held) {request : ResolveIdentifierRequest} {found : String} {meeting : List Asked}
    (meets : met held request (askedBy request) = some ([found], meeting)) : held.replacementOf found = none := by
  unfold met at meets
  obtain ⟨tier, -, found_⟩ := List.exists_of_findSome?_eq_some meets
  dsimp only at found_
  split at found_
  · cases found_
  · have same := congrArg Prod.fst (Option.some.inj found_)
    have member : found ∈ (metIn held request ((askedBy request).filter fun each => rank each = tier)).1 := by
      rw [same]
      exact List.mem_singleton_self found
    unfold metIn at member
    obtain ⟨record, -, became⟩ := List.mem_map.mp (List.mem_eraseDups.mp member)
    rw [← became]
    exact unwinds.current_open record.instrumentId

theorem Unwinds.oneAnswer (unwinds : Unwinds held) : OneAnswer held := by
  refine ⟨Pointers.unwound_of_within unwinds.within, fun id => (unwinds.endsAt_current id).2, fun id there => ?_,
    fun id other leads => ?_, fun request found => ?_⟩
  · rcases Relation.ReflTransGen.cases_tail (unwinds.endsAt_current id).1 with same | ⟨before, -, step⟩
    · rw [same]
      exact there
    · exact unwinds.stays before _ step
  · exact Pointers.endsAt_unique (unwinds.endsAt_current other)
      (Pointers.endsAt_of_leads leads (unwinds.endsAt_current id))
  · unfold resolveIdentifierReadOnly at found ⊢
    dsimp only at found ⊢
    split at found
    · cases found
    · next asked =>
      rw [if_neg asked]
      split at found
      · cases found
      · next meets => exact open_of_met unwinds meets
      · cases found

/-- How far apart a set's key is from a platform record's: it begins with a length, or with nothing. -/
def Unworded (text : String) : Prop := ∀ c, text.toList.head? = some c → c.isDigit ∨ c = '@'

theorem unworded_append {text more : String} (first : Unworded text) (second : text.toList = [] → Unworded more) :
    Unworded (text ++ more) := by
  intro c begins
  rw [String.toList_append] at begins
  cases chars : text.toList with
  | nil =>
    rw [chars, List.nil_append] at begins
    exact second chars c begins
  | cons d rest =>
    rw [chars] at begins
    exact first c (chars ▸ begins)

theorem unworded_lengthed (text : String) : Unworded (lengthed text) := by
  intro c begins
  have digits : Nat.toDigits 10 text.utf8ByteSize ≠ [] := Nat.toDigits_ne_nil
  unfold lengthed at begins
  rw [String.toList_append, String.toList_append] at begins
  obtain ⟨d, rest, chars⟩ := List.exists_cons_of_ne_nil digits
  have shown : (toString text.utf8ByteSize).toList = Nat.toDigits 10 text.utf8ByteSize := by
    simp [Nat.repr]
  rw [shown, chars] at begins
  obtain rfl := Option.some.inj begins
  exact Or.inl (Nat.isDigit_of_mem_toDigits (by decide) (by decide) (chars ▸ List.mem_cons_self))

theorem unworded_setKey (members : List Asked) : Unworded (setKey members) := by
  unfold setKey
  induction members using List.reverseRecOn with
  | nil => intro c begins; simp at begins
  | append_singleton rest member ih =>
    rw [List.foldl_append, List.foldl_cons, List.foldl_nil]
    exact unworded_append (unworded_append (unworded_append ih fun _ => unworded_lengthed _) fun _ => unworded_lengthed _)
      fun _ => unworded_lengthed _

/-- A key a record is minted for a set under is none of a record of the platform's. -/
theorem mintKey_ne (identifiers : List Identifier) (asked : List Asked) (id : String) :
    mintKey identifiers asked ≠ "ins:" ++ id := by
  have unworded : Unworded (mintKey identifiers asked) := by
    unfold mintKey
    dsimp only
    split
    · refine unworded_append (unworded_append (unworded_setKey _) fun _ c begins => ?_) fun bare => ?_
      · right
        simpa using begins.symm
      · simp at bare
    · exact unworded_setKey _
  intro same
  rw [same] at unworded
  rcases unworded 'i' (by simp) with digit | sign
  · revert digit
    decide
  · revert sign
    decide

end MeridianCore.Instruments
