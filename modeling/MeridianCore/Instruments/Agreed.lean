import MeridianCore.Instruments.Standing

namespace MeridianCore.Instruments

/-- Values that fit together, with the identifiers held: the class is its type's, a fund's and a contract's attributes
are on their types, and cash is in the currency its code names. -/
structure Agreed (value : Field → String) (holds : Asked → Prop) : Prop where
  typed : ∀ class_, (InstrumentType.ofText (value .instrumentType)).classOf = some class_ →
    value .assetClass = class_.name
  fund : value .moneyMarketFund ≠ "" → InstrumentType.ofText (value .instrumentType) = .moneyMarketFund
  contract : value .binaryEventContract ≠ "" → InstrumentType.ofText (value .instrumentType) = .binaryEventContract
  cash : value .assetClass = AssetClass.cash.name → value .currency ≠ "" →
    ∀ asked : Asked, asked.scheme = currencyScheme → holds asked → asked.value = value .currency

/-- A record that does not contradict itself. -/
def Consistent (record : Instrument) : Prop := Agreed record.value fun asked => record.holds asked = true

variable {termAt : TermAt} {held : Held} {record next before into replaced kept merged : Instrument} {asked : Asked}
  {master : InstrumentRecord} {nowNs : Int} {offers : List Offer} {values : List InstrumentValue}

/-- Values that fit stay so with no more identifiers held. -/
theorem Agreed.of_same {value after : Field → String} {holds fewer : Asked → Prop} (agreed : Agreed value holds)
    (same : ∀ field, after field = value field)
    (within : ∀ asked : Asked, asked.scheme = currencyScheme → fewer asked → holds asked) : Agreed after fewer := by
  obtain rfl : after = value := funext same
  exact ⟨agreed.typed, agreed.fund, agreed.contract, fun isCash named asked scheme holding =>
    agreed.cash isCash named asked scheme (within asked scheme holding)⟩

theorem Consistent.of_alike (consistent : Consistent record) (alike : Alike next record) : Consistent next :=
  Agreed.of_same consistent alike.values fun asked _ holding => (alike.identifiers asked).symm.trans holding

/-- What a field comes to where the picker's statement is taken: its first of it, where the record has none. -/
def pickedUp (value : Field → String) (offers : List Offer) (field : Field) : String :=
  if value field = "" ∧ field ∈ pickerApplies then
    ((offers.find? fun offer => pickerPerson offer.instanceId ≠ "" && offer.field = field && offer.value ≠ "").map
      (·.value)).getD ""
  else value field

theorem pickedUp_snoc (value : Field → String) (rest : List Offer) (offer : Offer) (field : Field) :
    pickedUp value (rest ++ [offer]) field =
      if pickerPerson offer.instanceId ≠ "" ∧ offer.field = field ∧ field ∈ pickerApplies ∧ pickedUp value rest field = ""
      then offer.value
      else pickedUp value rest field := by
  unfold pickedUp
  by_cases open_ : value field = "" ∧ field ∈ pickerApplies
  · rw [if_pos open_, if_pos open_, List.find?_append]
    cases stated : rest.find? fun offer => pickerPerson offer.instanceId ≠ "" && offer.field = field && offer.value ≠ "" with
    | some first =>
      have said : first.value ≠ "" := by
        have holds := List.find?_some stated
        simp only [Bool.and_eq_true, decide_eq_true_eq] at holds
        exact holds.2
      simp [said]
    | none =>
      by_cases picked : pickerPerson offer.instanceId ≠ "" ∧ offer.field = field
      · by_cases said : offer.value = ""
        · simp [said]
        · simp [picked, said, open_.2]
      · have unpicked : (pickerPerson offer.instanceId ≠ "" && offer.field = field && offer.value ≠ "") = false := by
          simp only [Bool.and_eq_false_iff, decide_eq_false_iff_not]
          exact Or.inl (not_and_or.mp picked)
        rw [if_neg fun all => picked ⟨all.1, all.2.1⟩]
        simp only [Option.none_or, List.find?_cons, List.find?_nil, unpicked, Option.map_none, Option.getD_none]
  · rw [if_neg open_, if_neg open_]
    split
    · next all => exact absurd ⟨all.2.2.2, all.2.2.1⟩ open_
    · rfl

/-- What a picker's statement taken leaves in each field. -/
theorem value_taking (record : Instrument) (offers : List Offer) (field : Field) :
    (offers.foldl Taking.take { record := record }).record.value field = pickedUp record.value offers field := by
  induction offers using List.reverseRecOn with
  | nil => simp +contextual [pickedUp]
  | append_singleton rest offer ih =>
    rw [List.foldl_append, List.foldl_cons, List.foldl_nil, pickedUp_snoc]
    generalize rest.foldl Taking.take { record := record } = taking at ih ⊢
    rw [← ih]
    unfold Taking.take
    split
    · next taken =>
      simp only [applies, Bool.and_eq_true, decide_eq_true_eq, List.contains_iff_mem] at taken
      obtain ⟨⟨picked, among⟩, empty⟩ := taken
      have settable : offer.field ≠ .identifier ∧ offer.field ≠ .term := by
        revert among
        generalize offer.field = other
        revert other
        decide
      dsimp only
      rw [Instrument.value_setValue]
      by_cases own : field = offer.field
      · subst own
        simp [settable, picked, among, empty]
      · rw [if_neg fun all => own all.1, if_neg fun all => own all.2.1.symm]
    · next untaken =>
      dsimp only
      split
      · next all =>
        obtain ⟨picked, rfl, among, empty⟩ := all
        exact absurd (by simp [applies, picked, among, empty]) untaken
      · rfl

theorem value_takeStated (record : Instrument) (offers : List Offer) (field : Field) :
    (takeStated termAt record offers).1.value field = pickedUp record.value offers field := by
  rw [← value_taking]
  unfold takeStated
  dsimp only
  rw [(keptBy_keepOffers _ _).same]
  split <;> cases field <;> rfl

theorem holds_takeStated (record : Instrument) (offers : List Offer) (asked : Asked) :
    (takeStated termAt record offers).1.holds asked = record.holds asked := by
  have taken := (takingOf_foldl offers record).taken.identifiers
  have same : (takeStated termAt record offers).1.identifiers = record.identifiers := by
    unfold takeStated
    dsimp only
    rw [(keptBy_keepOffers _ _).same]
    split
    · exact taken
    · exact taken
  unfold Instrument.holds
  rw [same]

/-- A resolve's statement taken onto a record its identifiers join. -/
theorem consistent_joined {identifiers : List Identifier} {brought : List Asked}
    (among : ∀ identifier ∈ identifiers, identifier.asked ∈ brought)
    (agreed : Agreed (pickedUp record.value offers) fun asked => record.holds asked = true ∨ asked ∈ brought) :
    Consistent (takeStated termAt { record with identifiers := record.identifiers ++ identifiers } offers).1 := by
  refine agreed.of_same (fun field => (value_takeStated _ offers field).trans ?_) fun asked _ holding => ?_
  · have same : Instrument.value { record with identifiers := record.identifiers ++ identifiers } = record.value := by
      funext field
      cases field <;> rfl
    rw [same]
  · rw [holds_takeStated] at holding
    rw [holds_append] at holding
    rcases Bool.or_eq_true_iff.mp holding with held | pushed
    · exact Or.inl held
    · obtain ⟨identifier, member, named⟩ := List.any_eq_true.mp pushed
      exact Or.inr (of_decide_eq_true (Bool.and_eq_true_iff.mp named).2 ▸ among identifier member)

/-- The platform's record kept on the one held under its ID. -/
theorem consistent_platform {asked : List Asked} {missing : List String} {version : Int}
    (agreed : Agreed (pickedUp record.value offers) fun each =>
      record.holds each = true ∨ each ∈ (platformBrought held record asked master).identifiers) :
    Consistent { (takeListedTerms (takeTradingCurrencies (takeStated termAt (joinPlatform held record asked).1
      offers).1 master).1 master).1 with
        oneId := { (takeListedTerms (takeTradingCurrencies (takeStated termAt (joinPlatform held record asked).1
          offers).1 master).1 master).1.oneId with missingFields := missing }
        version := version
        recordTimeNs := nowNs } := by
  have pushes := pushes_joinPlatform held record asked master
  rw [takeListedTerms_eq]
  refine agreed.of_same (fun field => ?_) fun each _ holding => ?_
  · have taken := @value_takeStated termAt (joinPlatform held record asked).1 offers field
    have same : (joinPlatform held record asked).1.value = record.value := funext pushes.value
    rw [same] at taken
    rw [← taken]
    cases field <;> rfl
  · have holding : (takeTradingCurrencies (takeStated termAt (joinPlatform held record asked).1 offers).1 master).1.holds
        each = true := holding
    rw [holds_takeTradingCurrencies, holds_takeStated] at holding
    exact pushes.holds holding

/-- What a field comes to on a record minted from the platform's. -/
def masterStated (master : InstrumentRecord) : Field → String
  | .moneyMarketFund => ""
  | .binaryEventContract => master.binaryEventContract.getD ""
  | field => masterValue master field

theorem value_withMasterValues (record : Instrument) (bare : ∀ field, record.value field = "") (master : InstrumentRecord)
    (field : Field) : (withMasterValues record master).value field = masterValue master field := by
  have sets {fields : List Field} (within : ∀ each ∈ fields, each ∈ resolvedFields) :
      ((fields.map fun each => (each, masterValue master each)).foldl
        (fun record stated => if stated.2 = "" then record else record.setValue stated.1 stated.2) record).value field =
        if field ∈ fields then masterValue master field else "" := by
    induction fields using List.reverseRecOn with
    | nil => simpa using bare field
    | append_singleton rest own ih =>
      have before := ih fun each member => within each (List.mem_append_left _ member)
      have settable := settable_of_resolved (within own (List.mem_append_right _ (List.mem_singleton.mpr rfl)))
      rw [List.map_append, List.foldl_append, List.map_cons, List.map_nil, List.foldl_cons, List.foldl_nil]
      dsimp only
      split
      · next none =>
        rw [before]
        by_cases same : field = own
        · simp [same, none]
        · simp [same]
      · rw [Instrument.value_setValue, before]
        by_cases same : field = own
        · simp [same, settable]
        · simp [same]
  unfold withMasterValues
  rw [masterValues_eq, sets fun _ member => member]
  cases field <;> rfl

theorem identifiers_withMasterValues (record : Instrument) (master : InstrumentRecord) :
    (withMasterValues record master).identifiers = record.identifiers := by
  unfold withMasterValues
  induction masterValues master using List.reverseRecOn with
  | nil => rfl
  | append_singleton rest stated ih =>
    rw [List.foldl_append, List.foldl_cons, List.foldl_nil]
    split
    · exact ih
    · exact (Instrument.identifiers_setValue _ _ _).trans ih

/-- A record that carries only some identifiers holds only those. -/
theorem mem_of_holds {brought : List Asked} (among : ∀ identifier ∈ record.identifiers, identifier.asked ∈ brought)
    (holding : record.holds asked = true) : asked ∈ brought := by
  obtain ⟨identifier, member, named⟩ := List.any_eq_true.mp holding
  exact of_decide_eq_true (Bool.and_eq_true_iff.mp named).2 ▸ among identifier member

theorem asked_of_windows {asked : List Asked} : ∀ identifier ∈ asked.map (windowFor held), identifier.asked ∈ asked := by
  intro identifier member
  obtain ⟨each, among, rfl⟩ := List.mem_map.mp member
  exact among

/-- The platform's record kept from the start. -/
theorem consistent_platformCandidate {asked : List Asked} {template : Option Template} {lacking : List String}
    (agreed : Agreed (pickedUp (masterStated master) offers) (· ∈ platformIdentifiers asked master)) :
    Consistent (platformCandidate termAt held asked master template offers lacking nowNs) := by
  have named (bare : Instrument) (identifiers : bare.identifiers = (platformIdentifiers asked master).map (windowFor held))
      (each : Asked) (holding : (takeTradingCurrencies (withMasterValues bare master) master).1.holds each = true) :
      each ∈ platformIdentifiers asked master := by
    rw [holds_takeTradingCurrencies] at holding
    refine mem_of_holds (fun identifier member => ?_) holding
    rw [identifiers_withMasterValues, identifiers] at member
    exact asked_of_windows identifier member
  have stated (bare : Instrument) (unset : ∀ field, bare.value field = "") (field : Field) :
      (takeTradingCurrencies (withMasterValues bare master) master).1.value field = masterValue master field := by
    rw [← value_withMasterValues bare unset master field]
    cases field <;> rfl
  unfold platformCandidate
  dsimp only
  refine agreed.of_same (fun field => (value_takeStated _ offers field).trans ?_) fun each _ holding => ?_
  · refine congrArg (fun value => pickedUp value offers field) (funext fun other => ?_)
    have same := stated { instrumentId := master.instrumentId
                          identifiers := (platformIdentifiers asked master).map (windowFor held)
                          lifecycleState := "INSTRUMENT_LIFECYCLE_STATE_ACTIVE"
                          listingVenueId := master.listingVenueId
                          version := 1
                          recordTimeNs := nowNs
                          oneId := platformLocal master ((template.map (·.templateId)).getD "")
                            ((template.map (·.templateVersion)).getD "") lacking }
      (fun field => by cases field <;> rfl) other
    rw [takeListedTerms_eq]
    cases contract : master.binaryEventContract with
    | none => cases other <;> simp only [masterStated, contract, Option.getD_none] <;> exact same
    | some text => cases other <;> simp only [masterStated, contract, Option.getD_some] <;> first | exact same | rfl
  · rw [holds_takeStated, takeListedTerms_eq] at holding
    cases contract : master.binaryEventContract with
    | none =>
      rw [contract] at holding
      exact named _ rfl each holding
    | some text =>
      rw [contract] at holding
      exact named _ rfl each holding

/-- A provisional record minted for a set. -/
theorem consistent_mintedCandidate {request : ResolveIdentifierRequest} {asked : List Asked}
    {instanceId instrumentId : String} {template : Option Template} {reason : ProvisionalReason}
    (agreed : Agreed (pickedUp (fun _ => "") (stated request instanceId nowNs)) (· ∈ asked)) :
    Consistent (mintedCandidate termAt held request asked instanceId instrumentId nowNs template reason) := by
  unfold mintedCandidate
  dsimp only
  refine agreed.of_same (fun field => ?_) fun each _ holding => ?_
  · have bare : Instrument.value {
        instrumentId := instrumentId
        identifiers := asked.map (windowFor held)
        lifecycleState := "INSTRUMENT_LIFECYCLE_STATE_ACTIVE"
        version := 1
        recordTimeNs := nowNs } = fun _ => "" := by
      funext field
      cases field <;> rfl
    have taken := @value_takeStated termAt {
        instrumentId := instrumentId
        identifiers := asked.map (windowFor held)
        lifecycleState := "INSTRUMENT_LIFECYCLE_STATE_ACTIVE"
        version := 1
        recordTimeNs := nowNs } (stated request instanceId nowNs) field
    rw [bare] at taken
    rw [← taken]
    cases field <;> rfl
  · have holding : (takeStated termAt _ (stated request instanceId nowNs)).1.holds each = true := holding
    rw [holds_takeStated] at holding
    exact mem_of_holds asked_of_windows holding

/-- What a field comes to where it is filled from values stated elsewhere. -/
def filledIn (value stated : Field → String) (field : Field) : String :=
  if field ∈ resolvedFields ∧ value field = "" then stated field else value field

theorem offerable_of_currency (scheme : asked.scheme = currencyScheme) : asked.offerable := by
  unfold Asked.offerable
  rw [scheme]
  decide

/-- The record a replaced one starts. -/
theorem consistent_resolvedCandidate {lacking : List String}
    (agreed : Agreed (filledIn replaced.value (masterValue master)) fun asked =>
      replaced.holds asked = true ∨ asked ∈ (candidateBrought replaced master).identifiers) :
    Consistent (resolvedCandidate termAt held replaced master lacking nowNs) := by
  have base := rest_resolvedBase held replaced master lacking nowNs
  have holds {asked : Asked} (offerable : asked.offerable) :
      (resolvedBase held replaced master lacking nowNs).holds asked = replaced.holds asked := holds_resolvedBase offerable
  unfold resolvedCandidate
  dsimp only
  generalize resolvedBase held replaced master lacking nowNs = start at base holds ⊢
  have pushes : Pushes start (resolvedNamed held start master) _ :=
    pushes_resolvedNamed fun asked offerable => holds offerable
  rw [masterValues_eq]
  have fills := filled_resolved (platformWords master) nowNs (masterValue master) (resolvedNamed held start master, [])
  generalize (resolvedFields.map fun field => (field, masterValue master field)).foldl
    (fillOrOffer (platformWords master) nowNs) (resolvedNamed held start master, []) = filled at fills ⊢
  have named (field : Field) : (resolvedNamed held start master).value field = replaced.value field :=
    (pushes.value field).trans (base.2.2 field)
  refine agreed.of_same (fun field => ?_) fun asked scheme holding => ?_
  · rw [(keptBy_keepOffers _ _).same]
    have value := fills.value field
    dsimp only at value
    rw [named] at value
    unfold filledIn
    rw [← value]
    unfold venued
    split <;> cases field <;> rfl
  · rw [(keptBy_keepOffers _ _).same] at holding
    have held' : filled.1.holds asked = true := by
      rw [← holding]
      unfold venued
      split <;> rfl
    have pushed : (resolvedNamed held start master).holds asked = true := by
      rw [← held']
      unfold Instrument.holds
      rw [fills.identifiers]
    rcases pushes.holds pushed with before | brought
    · exact Or.inl ((holds (offerable_of_currency scheme)).symm.trans before)
    · exact Or.inr brought

/-- The record held under the platform's ID, joined by the replaced one. -/
theorem consistent_resolvedInto
    (agreed : Agreed (filledIn into.value replaced.value) fun asked =>
      into.holds asked = true ∨ asked ∈ (intoBrought into replaced).identifiers) :
    Consistent (resolvedInto termAt held into replaced nowNs) := by
  obtain ⟨-, -, values⟩ := rest_linked held into replaced
  have link {asked : Asked} (holds : into.holds asked = true) : (linked held into replaced).holds asked = true := by
    unfold linked
    split
    · rw [holds_push, holds, Bool.true_or]
    · exact holds
  have unlink {asked : Asked} (offerable : asked.offerable) : (linked held into replaced).holds asked = into.holds asked :=
    holds_linked offerable
  unfold resolvedInto
  generalize linked held into replaced = start at values link unlink ⊢
  have pushes : Pushes start (joinedBy start replaced) _ := pushes_joinedBy fun asked holds => link holds
  have fills := filled_resolved (resolvedWords replaced) nowNs replaced.value (joinedBy start replaced, replaced.offers)
  dsimp only
  generalize (resolvedFields.map fun field => (field, replaced.value field)).foldl
    (fillOrOffer (resolvedWords replaced) nowNs) (joinedBy start replaced, replaced.offers) = filled at fills ⊢
  have same (field : Field) : (joinedBy start replaced).value field = into.value field :=
    (pushes.value field).trans (values field)
  refine agreed.of_same (fun field => ?_) fun asked scheme holding => ?_
  · rw [(keptBy_keepOffers _ _).same]
    have value := fills.value field
    dsimp only at value
    rw [same] at value
    unfold filledIn
    rw [← value]
    cases field <;> rfl
  · rw [(keptBy_keepOffers _ _).same] at holding
    have pushed : (joinedBy start replaced).holds asked = true := by
      rw [← holding]
      unfold Instrument.holds
      exact congrArg (fun identifiers => List.any identifiers _) fills.identifiers.symm
    rcases pushes.holds pushed with before | brought
    · exact Or.inl ((unlink (offerable_of_currency scheme)).symm.trans before)
    · exact Or.inr brought

/-- What a field comes to where a record is merged into another. -/
def mergedIn (kept merged : Instrument) (take : List Field) (field : Field) : String :=
  if field ∈ mergedFields ∧ takes kept merged take field = true then merged.value field else kept.value field

theorem consistent_mergeStays {take : List Field}
    (agreed : Agreed (mergedIn kept merged take) fun asked =>
      kept.holds asked = true ∨ asked ∈ (mergeBrought kept merged take).identifiers) :
    Consistent (mergeStays termAt kept merged take nowNs) := by
  have pushes : Pushes kept (mergeIdentifiers kept merged) _ := pushes_mergeIdentifiers take
  have fills : MergedIn kept merged take _ mergedFields _ := mergedIn_foldl take (fun field => pushes.value field)
    (fun _ member => member) (by decide)
  unfold mergeStays
  dsimp only
  generalize mergedFields.foldl (mergeField kept merged take) (mergeIdentifiers kept merged) = stays at fills ⊢
  refine agreed.of_same (fun field => ?_) fun asked _ holding => ?_
  · rw [(keptBy_keepOffers _ _).same]
    have value := fills.value field
    rw [pushes.value field] at value
    unfold mergedIn
    rw [← value]
    cases field <;> rfl
  · rw [(keptBy_keepOffers _ _).same] at holding
    refine pushes.holds ?_
    rw [← holding]
    unfold Instrument.holds
    exact congrArg (fun identifiers => List.any identifiers _) fills.identifiers.symm

/-- A record its identifiers are closed on. -/
theorem Consistent.of_closes (consistent : Consistent record) (closes : Closes record next) : Consistent next := by
  obtain ⟨identifiers, same⟩ := closes.rest
  refine Agreed.of_same consistent (fun field => ?_) fun asked _ holding => closes.holds asked holding
  rw [same]
  cases field <;> rfl

/-- The field a completion's value sets, and what to. -/
def setsTo (value : InstrumentValue) : Option (Field × String) :=
  match value.value with
  | some (.assetClass class_) => some (.assetClass, class_.name)
  | some (.currency code) => some (.currency, Text.trim code)
  | some (.description text) => some (.description, Text.trim text)
  | some (.instrumentType kind) => some (.instrumentType, kind.name)
  | some (.moneyMarketFund _ text) => some (.moneyMarketFund, text)
  | some (.binaryEventContract (.ok text)) => some (.binaryEventContract, text)
  | some (.binaryEventContract (.error _)) | some (.identifier _) | none => none

/-- What a field comes to where a completion's values are taken: the last of it. -/
def valueAfter (record : Instrument) (values : List InstrumentValue) (field : Field) : String :=
  (((values.filterMap setsTo).filter fun set => set.1 = field).getLast?.map (·.2)).getD (record.value field)

theorem valueAfter_snoc (record : Instrument) (values : List InstrumentValue) (value : InstrumentValue) (field : Field) :
    valueAfter record (values ++ [value]) field =
      (((setsTo value).filter fun set => set.1 = field).map (·.2)).getD (valueAfter record values field) := by
  unfold valueAfter
  rw [List.filterMap_append, List.filter_append]
  cases sets : setsTo value with
  | none => simp [sets]
  | some set =>
    by_cases own : set.1 = field
    · simp [sets, own, Option.filter]
    · simp [sets, own, Option.filter]

namespace Completing
variable {completing : Completing} {place : Nat × InstrumentValue}

theorem value_set {own : Field} (settable : own ≠ .identifier ∧ own ≠ .term) (text : String) (field : Field) :
    (completing.set own text).record.value field = if own = field then text else completing.record.value field := by
  unfold set
  dsimp only
  split
  · next same =>
    split
    · next own => rw [← own, same]
    · rfl
  · rw [Instrument.value_setValue]
    by_cases same : field = own
    · simp [same, settable]
    · simp [same, Ne.symm same]

theorem value_takeIdentifier (completing : Completing) (held : Held) (identifier : WireIdentifier) (path : String)
    (field : Field) : (completing.takeIdentifier held identifier path).record.value field = completing.record.value field := by
  unfold takeIdentifier leaves joins
  dsimp only
  split
  · rfl
  · split
    · split
      · cases field <;> rfl
      · split <;> rfl
    · split
      · rfl
      · split
        · exact Instrument.value_push _ _ field
        · rfl

/-- What a completion's value taken with nothing wrong leaves in each field. -/
theorem value_take (right : (take held completing place).problems = []) (field : Field) :
    (take held completing place).record.value field =
      (((setsTo place.2).filter fun set => set.1 = field).map (·.2)).getD (completing.record.value field) := by
  have sets {own : Field} (settable : own ≠ .identifier ∧ own ≠ .term) (text : String) :
      (completing.set own text).record.value field =
        (((some (own, text)).filter fun set => set.1 = field).map (·.2)).getD (completing.record.value field) := by
    rw [value_set settable]
    by_cases same : own = field
    · simp [same, Option.filter]
    · simp [same, Option.filter]
  obtain ⟨at_, value, source⟩ := place
  unfold take at right ⊢
  dsimp only at right ⊢
  split at right
  · exact absurd right (problems_problem _ _ _ _)
  · next sourced =>
    rw [if_neg sourced]
    split at right
    · exact absurd right (problems_problem _ _ _ _)
    · split at right
      · exact absurd right (problems_problem _ _ _ _)
      · next stated =>
        rw [if_neg stated]
        exact sets (by decide) _
    · split at right
      · next code =>
        rw [if_pos code]
        exact sets (by decide) _
      · exact absurd right (problems_problem _ _ _ _)
    · split at right
      · exact absurd right (problems_problem _ _ _ _)
      · next stated =>
        rw [if_neg stated]
        exact sets (by decide) _
    · split at right
      · exact absurd right (problems_problem _ _ _ _)
      · next stated =>
        rw [if_neg stated]
        exact sets (by decide) _
    · split at right
      · next stated =>
        rw [if_pos stated]
        exact sets (by decide) _
      · next stated => exact absurd (problems_foldl _ _ _ _ right) stated
    · exact sets (by decide) _
    · next wrong =>
      have none := problems_foldl _ _ _ _ right
      rw [none]
      rfl
    · exact value_takeIdentifier completing held _ _ field

theorem value_takeAll (right : (takeAll held record values).problems = []) (field : Field) :
    (takeAll held record values).record.value field = valueAfter record values field := by
  unfold takeAll at right ⊢
  have parts : values = (values.zipIdx.map fun each => (each.2, each.1)).map (·.2) := by
    simp [List.map_map, Function.comp_def]
  generalize (values.zipIdx.map fun each => (each.2, each.1)) = places at parts right ⊢
  subst parts
  induction places using List.reverseRecOn with
  | nil => rfl
  | append_singleton rest place ih =>
    rw [List.foldl_append, List.foldl_cons, List.foldl_nil] at right ⊢
    rw [List.map_append, List.map_cons, List.map_nil, valueAfter_snoc, value_take right, ih (problems_take right)]

end Completing

/-- A completion leaves cash in the currency each code it holds names. -/
def CashAfter (record : Instrument) (values : List InstrumentValue) : Prop :=
  valueAfter record values .assetClass = AssetClass.cash.name → valueAfter record values .currency ≠ "" →
    ∀ asked : Asked, asked.scheme = currencyScheme → (lastOf values asked).getD (record.holds asked) = true →
      asked.value = valueAfter record values .currency

/-- A completion with nothing wrong, of a record its own check reads all of. -/
theorem consistent_completed {completion : InstrumentCompletion}
    (right : completionProblems (Completing.takeAll held before completion.values) completion = [])
    (cash : CashAfter before completion.values) :
    Consistent (completedRecord before (Completing.takeAll held before completion.values).record nowNs) := by
  simp only [completionProblems, List.append_eq_nil_iff] at right
  obtain ⟨⟨⟨taken, kinds⟩, -⟩, -⟩ := right
  have took := Completing.tookFrom_takeAll taken
  have value := Completing.value_takeAll taken
  generalize (Completing.takeAll held before completion.values).record = next at took value kinds ⊢
  have alike : Agreed next.value fun asked => next.holds asked = true := by
    simp only [kindProblems, List.append_eq_nil_iff] at kinds
    obtain ⟨⟨typed, fund⟩, contract⟩ := kinds
    refine ⟨fun class_ under => ?_, fun attributes => ?_, fun attributes => ?_, fun isCash named asked scheme holding => ?_⟩
    · have under : (InstrumentType.ofText next.instrumentType).classOf = some class_ := under
      rw [under] at typed
      dsimp only at typed
      split at typed
      · next same => exact same
      · cases typed
    · by_contra other
      rw [if_pos ⟨attributes, other⟩] at fund
      cases fund
    · by_contra other
      rw [if_pos ⟨attributes, other⟩] at contract
      cases contract
    · rw [value] at isCash named ⊢
      rw [took.holds] at holding
      exact cash isCash named asked scheme holding
  exact Agreed.of_same alike (fun field => by cases field <;> rfl) fun _ _ holding => holding

end MeridianCore.Instruments
