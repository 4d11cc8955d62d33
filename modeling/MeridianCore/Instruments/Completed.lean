import MeridianCore.Instruments.Kept

namespace MeridianCore.Instruments

/-- Whether a completion's value adds an identifier, where it is of it. -/
def addsTo (asked : Asked) (value : InstrumentValue) : Option Bool :=
  match value.value with
  | some (.identifier identifier) =>
    if askedFromWire identifier = asked then some (identifier.validUntilNs ≤ 0) else none
  | _ => none

/-- Whether the last of a completion's values of an identifier adds it. -/
def lastOf (values : List InstrumentValue) (asked : Asked) : Option Bool := (values.filterMap (addsTo asked)).getLast?

/-- The type a completion's value sets. -/
def typeOf (value : InstrumentValue) : Option String :=
  match value.value with
  | some (.instrumentType kind) => some kind.name
  | _ => none

/-- The type a record ends with once completed. -/
def typeAfter (record : Instrument) (values : List InstrumentValue) : String :=
  (values.filterMap typeOf).getLast?.getD record.instrumentType

/-- Whether a completion leaves an offer in force where it takes it off: one to add an identifier the record carries
or is to, that it adds it; one to end one, that it ends it; and one of a term, that it sets no type under which the
terms state it. -/
def completesOffer (termAt : TermAt) (record : Instrument) (values : List InstrumentValue) (offer : Offer) : Bool :=
  match offer.field with
  | .identifier => offer.identifier.all fun asked =>
    if offer.validUntilNs = 0 then
      (!record.carries asked && lastOf values asked = none) || lastOf values asked = some true
    else lastOf values asked = some false
  | .term => !Brought.meets termAt { kind := typeAfter record values, terms := record.listedTerms } offer
  | _ => true

theorem lastOf_snoc (values : List InstrumentValue) (value : InstrumentValue) (asked : Asked) :
    lastOf (values ++ [value]) asked = (addsTo asked value).or (lastOf values asked) := by
  unfold lastOf
  rw [List.filterMap_append]
  cases adding : addsTo asked value with
  | none => simp [adding]
  | some adds => simp [adding]

theorem typeAfter_snoc (record : Instrument) (values : List InstrumentValue) (value : InstrumentValue) :
    typeAfter record (values ++ [value]) = (typeOf value).getD (typeAfter record values) := by
  unfold typeAfter
  rw [List.filterMap_append]
  cases sets : typeOf value with
  | none => simp [sets]
  | some kind => simp [sets]

/-- What a completion with nothing wrong leaves of a record, some of its values taken so far. -/
structure TookFrom (record : Instrument) (values : List InstrumentValue) (next : Instrument) : Prop where
  holds : ∀ asked, next.holds asked = (lastOf values asked).getD (record.holds asked)
  carries : ∀ asked, next.carries asked = true ↔ record.carries asked = true ∨ (lastOf values asked).isSome = true
  kind : next.instrumentType = typeAfter record values
  terms : next.listedTerms = record.listedTerms
  offers : next.offers = record.offers
  instrumentId : next.instrumentId = record.instrumentId

variable {termAt : TermAt} {held : Held} {record next before : Instrument} {values : List InstrumentValue} {asked : Asked}

theorem tookFrom_nil (record : Instrument) : TookFrom record [] record :=
  ⟨fun _ => rfl, fun _ => by simp [lastOf], rfl, rfl, rfl, rfl⟩

/-- A value that is of no identifier and no type. -/
theorem TookFrom.other (took : TookFrom record values before) {value : InstrumentValue}
    (unnamed : ∀ asked, addsTo asked value = none) (kind : (typeOf value).getD before.instrumentType = next.instrumentType)
    (identifiers : next.identifiers = before.identifiers)
    (rest : next.listedTerms = before.listedTerms ∧ next.offers = before.offers ∧ next.instrumentId = before.instrumentId) :
    TookFrom record (values ++ [value]) next := by
  refine ⟨fun asked => ?_, fun asked => ?_, ?_, rest.1.trans took.terms, rest.2.1.trans took.offers,
    rest.2.2.trans took.instrumentId⟩
  · rw [lastOf_snoc, unnamed asked, Option.none_or, ← took.holds asked]
    unfold Instrument.holds
    rw [identifiers]
  · rw [lastOf_snoc, unnamed asked, Option.none_or, ← took.carries asked]
    unfold Instrument.carries
    rw [identifiers]
  · rw [typeAfter_snoc, ← took.kind, kind]

/-- A value of a field other than an identifier, set. -/
theorem TookFrom.set (took : TookFrom record values before) {value : InstrumentValue} {field : Field} {text : String}
    {completing : Completing} (same : completing.record = before)
    (unnamed : ∀ asked, addsTo asked value = none)
    (kind : typeOf value = if field = .instrumentType then some text else none) :
    TookFrom record (values ++ [value]) (completing.set field text).record := by
  unfold Completing.set
  dsimp only
  rw [same]
  split
  · next equal =>
    refine took.other unnamed ?_ (by rw [same]) ⟨by rw [same], by rw [same], by rw [same]⟩
    rw [kind, same]
    split
    · next isKind =>
      subst isKind
      exact equal.symm
    · rfl
  · refine took.other unnamed ?_ (by simp) ?_
    · rw [kind]
      split
      · next isKind =>
        subst isKind
        rfl
      · next notKind => cases field <;> first | rfl | exact absurd rfl notKind
    · cases field <;> exact ⟨rfl, rfl, rfl⟩

theorem holds_close (record : Instrument) (asked other : Asked) (untilNs : Int) :
    (record.close asked untilNs).holds other = (record.holds other && decide (other ≠ asked)) := by
  unfold Instrument.holds Instrument.close
  rw [List.any_map]
  by_cases same : other = asked
  · subst same
    simp only [ne_eq, not_true_eq_false, decide_false, Bool.and_false, List.any_eq_false]
    intro identifier _
    rw [Function.comp_apply]
    split
    · simp
    · next apart => simpa using apart
  · simp only [ne_eq, same, not_false_eq_true, decide_true, Bool.and_true]
    congr 1
    funext identifier
    rw [Function.comp_apply]
    split
    · next named =>
      have apart : identifier.asked ≠ other := fun isOther =>
        same (isOther.symm.trans (of_decide_eq_true (Bool.and_eq_true_iff.mp named).2))
      simp [apart]
    · rfl

theorem carries_close (record : Instrument) (asked other : Asked) (untilNs : Int) :
    (record.close asked untilNs).carries other = record.carries other := by
  unfold Instrument.carries Instrument.close
  rw [List.any_map]
  congr 1
  funext identifier
  rw [Function.comp_apply]
  split <;> rfl

theorem carries_push (record : Instrument) (identifier : Identifier) (asked : Asked) :
    (record.push identifier).carries asked = (record.carries asked || decide (identifier.asked = asked)) := by
  simp [Instrument.push, Instrument.carries, List.any_append]

/-- An identifier's value taken, nothing wrong with it. -/
theorem TookFrom.identifier (took : TookFrom record values before) {completing : Completing} {source path : String}
    {identifier : WireIdentifier} (same : completing.record = before)
    (right : (completing.takeIdentifier held identifier path).problems = []) :
    TookFrom record (values ++ [{ value := some (.identifier identifier), source }])
      (completing.takeIdentifier held identifier path).record := by
  have named (asked : Asked) : addsTo asked { value := some (.identifier identifier), source } =
      if askedFromWire identifier = asked then some (decide (identifier.validUntilNs ≤ 0)) else none := rfl
  have rest (next : Instrument) (holds : ∀ asked, next.holds asked =
        if askedFromWire identifier = asked then decide (identifier.validUntilNs ≤ 0) else before.holds asked)
      (carries : ∀ asked, next.carries asked = true ↔ askedFromWire identifier = asked ∨ before.carries asked = true)
      (same : ∃ identifiers, next = { before with identifiers }) :
      TookFrom record (values ++ [{ value := some (.identifier identifier), source }]) next := by
    obtain ⟨identifiers, rfl⟩ := same
    refine ⟨fun asked => ?_, fun asked => ?_, ?_, took.terms, took.offers, took.instrumentId⟩
    · rw [lastOf_snoc, named, holds asked]
      split
      · rfl
      · exact took.holds asked
    · rw [lastOf_snoc, named, carries asked, took.carries asked]
      split
      · next isAsked => simp [isAsked]
      · next notAsked => simp [notAsked]
    · rw [typeAfter_snoc]
      exact took.kind
  have unrefused (completing : Completing) (reason : RefusalReason) (field words : String) :
      (completing.problem reason field words).problems ≠ [] := by simp [Completing.problem]
  unfold Completing.takeIdentifier at right ⊢
  dsimp only at right ⊢
  split at right
  · exact absurd right (unrefused _ _ _ _)
  · next stated =>
    rw [if_neg stated]
    split at right
    · next ends =>
      rw [if_pos ends]
      have ended : decide (identifier.validUntilNs ≤ 0) = false := decide_eq_false (not_le.mpr ends)
      unfold Completing.leaves at right ⊢
      rw [same] at right ⊢
      split at right
      · next holding =>
        rw [if_pos holding]
        refine rest _ (fun asked => ?_) (fun asked => ?_) ⟨_, rfl⟩
        · rw [holds_close, ended]
          by_cases isAsked : askedFromWire identifier = asked
          · simp [isAsked]
          · simp [isAsked, Ne.symm isAsked]
        · rw [carries_close]
          refine ⟨Or.inr, ?_⟩
          rintro (rfl | carried)
          · exact carries_of_holds holding
          · exact carried
      · next unheld =>
        rw [if_neg unheld]
        split at right
        · next carried =>
          rw [if_pos carried, same]
          refine rest before (fun asked => ?_) (fun asked => ?_) ⟨before.identifiers, rfl⟩
          · rw [ended]
            split
            · next isAsked => exact isAsked ▸ Bool.eq_false_iff.mpr unheld
            · rfl
          · refine ⟨Or.inr, ?_⟩
            rintro (rfl | carried')
            · exact carried
            · exact carried'
        · exact absurd right (unrefused _ _ _ _)
    · next adds =>
      rw [if_neg adds]
      have added : decide (identifier.validUntilNs ≤ 0) = true := decide_eq_true (not_lt.mp adds)
      unfold Completing.joins at right ⊢
      rw [same] at right ⊢
      split at right
      · next holding =>
        rw [if_pos holding, same]
        refine rest before (fun asked => ?_) (fun asked => ?_) ⟨before.identifiers, rfl⟩
        · rw [added]
          split
          · next isAsked => exact isAsked ▸ holding
          · rfl
        · refine ⟨Or.inr, ?_⟩
          rintro (rfl | carried)
          · exact carries_of_holds holding
          · exact carried
      · next unheld =>
        rw [if_neg unheld]
        dsimp only at right ⊢
        split at right
        · next alone =>
          rw [if_pos alone]
          refine rest _ (fun asked => ?_) (fun asked => ?_) ⟨_, rfl⟩
          · rw [holds_push, added]
            by_cases isAsked : askedFromWire identifier = asked
            · simp [isAsked]
            · simp [isAsked]
          · rw [carries_push, Bool.or_eq_true, asked_windowFor, decide_eq_true_iff]
            exact Or.comm
        · exact absurd right (unrefused _ _ _ _)

namespace Completing
variable {completing : Completing} {place : Nat × InstrumentValue}

@[simp] theorem problems_set (completing : Completing) (field : Field) (text : String) :
    (completing.set field text).problems = completing.problems := by
  unfold set
  dsimp only
  split <;> rfl

theorem problems_problem (completing : Completing) (reason : RefusalReason) (field words : String) :
    (completing.problem reason field words).problems ≠ [] := by
  simp [problem]

/-- Problems found one after another: none only where there are none to find. -/
theorem problems_foldl {α : Type} (elements : List α) (reason : α → RefusalReason) (field words : α → String)
    (right : (elements.foldl (fun completing each => completing.problem (reason each) (field each) (words each))
      completing).problems = []) : elements = [] := by
  induction elements using List.reverseRecOn with
  | nil => rfl
  | append_singleton rest each ih =>
    rw [List.foldl_append, List.foldl_cons, List.foldl_nil] at right
    exact absurd right (problems_problem _ _ _ _)

/-- A completion's value taken with nothing wrong: nothing was before it. -/
theorem problems_take (right : (take held completing place).problems = []) : completing.problems = [] := by
  unfold take at right
  dsimp only at right
  split at right
  · exact absurd right (problems_problem _ _ _ _)
  · split at right
    · exact absurd right (problems_problem _ _ _ _)
    · split at right
      · exact absurd right (problems_problem _ _ _ _)
      · simpa using right
    · split at right
      · simpa using right
      · exact absurd right (problems_problem _ _ _ _)
    · split at right
      · exact absurd right (problems_problem _ _ _ _)
      · simpa using right
    · split at right
      · exact absurd right (problems_problem _ _ _ _)
      · simpa using right
    · split at right
      · simpa using right
      · next stated => exact absurd (problems_foldl _ _ _ _ right) stated
    · simpa using right
    · next wrong named =>
      have none := problems_foldl _ _ _ _ right
      rw [none] at right
      exact right
    · unfold takeIdentifier leaves joins at right
      dsimp only at right
      split at right
      · exact absurd right (problems_problem _ _ _ _)
      · split at right
        · split at right
          · exact right
          · split at right
            · exact right
            · exact absurd right (problems_problem _ _ _ _)
        · split at right
          · exact right
          · split at right
            · exact right
            · exact absurd right (problems_problem _ _ _ _)

/-- A completion's value taken with nothing wrong. -/
theorem tookFrom_take (took : TookFrom record values completing.record) (right : (take held completing place).problems = []) :
    TookFrom record (values ++ [place.2]) (take held completing place).record := by
  obtain ⟨at_, value, source⟩ := place
  unfold take at right ⊢
  dsimp only at right ⊢
  split at right
  · exact absurd right (problems_problem _ _ _ _)
  · next sourced =>
    rw [if_neg sourced]
    split at right
    · exact absurd right (problems_problem _ _ _ _)
    · split at right
      · exact absurd right (problems_problem _ _ _ _)
      · next stated =>
        rw [if_neg stated]
        exact took.set rfl (fun _ => rfl) rfl
    · split at right
      · next code =>
        rw [if_pos code]
        exact took.set rfl (fun _ => rfl) rfl
      · exact absurd right (problems_problem _ _ _ _)
    · split at right
      · exact absurd right (problems_problem _ _ _ _)
      · next stated =>
        rw [if_neg stated]
        exact took.set rfl (fun _ => rfl) rfl
    · split at right
      · exact absurd right (problems_problem _ _ _ _)
      · next stated =>
        rw [if_neg stated]
        exact took.set rfl (fun _ => rfl) rfl
    · split at right
      · next stated =>
        rw [if_pos stated]
        exact took.set rfl (fun _ => rfl) rfl
      · next stated => exact absurd (problems_foldl _ _ _ _ right) stated
    · exact took.set rfl (fun _ => rfl) rfl
    · next wrong =>
      have none := problems_foldl _ _ _ _ right
      rw [none]
      exact took.other (fun _ => rfl) rfl rfl ⟨rfl, rfl, rfl⟩
    · exact took.identifier rfl right

/-- A completion with nothing wrong leaves what its values come to. -/
theorem tookFrom_takeAll (right : (takeAll held record values).problems = []) :
    TookFrom record values (takeAll held record values).record := by
  unfold takeAll at right ⊢
  have parts : values = (values.zipIdx.map fun each => (each.2, each.1)).map (·.2) := by
    simp [List.map_map, Function.comp_def]
  generalize (values.zipIdx.map fun each => (each.2, each.1)) = places at parts right ⊢
  subst parts
  induction places using List.reverseRecOn with
  | nil => exact tookFrom_nil record
  | append_singleton rest place ih =>
    rw [List.foldl_append, List.foldl_cons, List.foldl_nil] at right ⊢
    rw [List.map_append, List.map_cons, List.map_nil]
    exact tookFrom_take (ih (problems_take right)) right

end Completing

/-- A completion that leaves in force what it takes off the offers leaves the others standing. -/
theorem stepped_completed (offered : Offered termAt before) {nowNs : Int}
    (right : (Completing.takeAll held before values).problems = [])
    (completes : ∀ offer ∈ before.offers, completesOffer termAt before values offer = true) :
    Stepped termAt before (completedRecord before (Completing.takeAll held before values).record nowNs) [] := by
  have took := Completing.tookFrom_takeAll right
  generalize (Completing.takeAll held before values).record = next at took ⊢
  have alike : Alike (completedRecord before next nowNs) { next with offers := offersLeft next } :=
    ⟨fun _ => rfl, fun field => by cases field <;> rfl, rfl, rfl⟩
  refine Stepped.of_alike ⟨⟨fun offer member => ?_, fun offer member => ?_, fun offer member other member' => ?_⟩,
    fun offer member => ?_⟩ alike
  · rw [saysInForce_offers]
    obtain ⟨member, left⟩ := List.mem_filter.mp member
    rw [took.offers] at member
    have stood := offered.standing offer member
    cases field : offer.field with
    | identifier =>
      simp only [field, Bool.not_eq_true'] at left
      simp only [saysInForce, field] at stood ⊢
      cases named : offer.identifier with
      | none => rfl
      | some asked =>
        rw [named] at left stood
        simp only [Option.any_some, decide_eq_false_iff_not] at left stood ⊢
        have uncarried : ¬ before.carries asked = true := fun carried => by
          have carries := (took.carries asked).mpr (Or.inl carried)
          rw [left] at carries
          cases carries
        have unheld : next.holds asked = false := by
          cases holds : next.holds asked with
          | false => rfl
          | true =>
            have carries := carries_of_holds holds
            rw [left] at carries
            cases carries
        have bare : before.holds asked = false := by
          cases holds : before.holds asked with
          | false => rfl
          | true => exact absurd (carries_of_holds holds) uncarried
        rw [bare] at stood
        rw [unheld]
        exact stood
    | term =>
      have apart := completes offer member
      simp only [completesOffer, field, Bool.not_eq_true'] at apart
      simp only [saysInForce, Brought.meets, field, took.kind, took.terms] at apart ⊢
      exact apart
    | _ => simpa [saysInForce, field] using left
  · exact offered.sayable offer (took.offers ▸ (List.mem_filter.mp member).1)
  · exact offered.apart offer (took.offers ▸ (List.mem_filter.mp member).1) other
      (took.offers ▸ (List.mem_filter.mp member').1)
  · have among : offer ∈ next.offers := took.offers.symm ▸ member
    have apart := completes offer member
    rw [saysInForce_offers]
    cases field : offer.field with
    | identifier =>
      cases named : offer.identifier with
      | none => exact Or.inl (List.mem_filter.mpr ⟨among, by simp [field, named]⟩)
      | some asked =>
        cases carried : next.carries asked with
        | false => exact Or.inl (List.mem_filter.mpr ⟨among, by simp [field, named, carried]⟩)
        | true =>
          right; left
          simp only [completesOffer, field, named, Option.all_some] at apart
          simp only [saysInForce, field, named, Option.any_some, decide_eq_true_eq]
          have known := (took.carries asked).mp carried
          have holds := took.holds asked
          by_cases adds : offer.validUntilNs = 0
          · simp only [adds, if_true, Bool.or_eq_true, Bool.and_eq_true, Bool.not_eq_true', decide_eq_true_eq] at apart
            rcases apart with ⟨uncarried, unnamed⟩ | last
            · rw [uncarried, unnamed] at known
              simp at known
            · rw [last] at holds
              simp [holds, adds]
          · simp only [adds, if_false, decide_eq_true_eq] at apart
            rw [apart] at holds
            simp [holds, adds]
    | term =>
      have stated := (offered.sayable offer member).term field
      exact Or.inl (List.mem_filter.mpr ⟨among, by simp [field, Instrument.value, Ne.symm stated]⟩)
    | _ =>
      by_cases same : next.value offer.field = offer.value
      · right; left
        simp only [saysInForce, field] at same ⊢
        simpa using same
      · exact Or.inl (List.mem_filter.mpr ⟨among, by simp only [field] at same ⊢; simpa using same⟩)

end MeridianCore.Instruments
