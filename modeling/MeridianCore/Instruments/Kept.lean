import MeridianCore.Instruments.Offered
import MeridianCore.Instruments.Deployment

namespace MeridianCore.Instruments

variable {termAt : TermAt} {held : Held} {record before next into replaced kept merged : Instrument} {asked : Asked}
  {master : InstrumentRecord} {nowNs : Int} {offers : List Offer}

/-- Identifiers put on a record, those open among some. -/
structure Pushes (record next : Instrument) (among : List Asked) : Prop where
  same : ∃ added, next = { record with identifiers := record.identifiers ++ added } ∧
    ∀ identifier ∈ added, identifier.isOpen = true → identifier.asked ∈ among

theorem Pushes.refl (record : Instrument) (among : List Asked) : Pushes record record among :=
  ⟨[], by simp, fun _ member => absurd member List.not_mem_nil⟩

theorem Pushes.push {among : List Asked} (pushes : Pushes record next among) {identifier : Identifier}
    (named : identifier.isOpen = true → identifier.asked ∈ among) : Pushes record (next.push identifier) among := by
  obtain ⟨added, rfl, each⟩ := pushes.same
  refine ⟨added ++ [identifier], by simp [Instrument.push], fun other member => ?_⟩
  rcases List.mem_append.mp member with earlier | own
  · exact each other earlier
  · rw [List.mem_singleton.mp own]
    exact named

theorem holds_append (record : Instrument) (added : List Identifier) (asked : Asked) :
    ({ record with identifiers := record.identifiers ++ added } : Instrument).holds asked =
      (record.holds asked || added.any fun each => each.isOpen && decide (each.asked = asked)) := by
  simp [Instrument.holds, List.any_append]

theorem Pushes.holds {among : List Asked} (pushes : Pushes record next among) (holds : next.holds asked = true) :
    record.holds asked = true ∨ asked ∈ among := by
  obtain ⟨added, rfl, each⟩ := pushes.same
  rw [holds_append] at holds
  rcases Bool.or_eq_true_iff.mp holds with held | pushed
  · exact Or.inl held
  · obtain ⟨identifier, member, named⟩ := List.any_eq_true.mp pushed
    obtain ⟨isOpen, named⟩ := Bool.and_eq_true_iff.mp named
    exact Or.inr (of_decide_eq_true named ▸ each identifier member isOpen)

theorem Pushes.keeps {among : List Asked} (pushes : Pushes record next among) (holds : record.holds asked = true) :
    next.holds asked = true := by
  obtain ⟨added, rfl, -⟩ := pushes.same
  rw [holds_append, holds, Bool.true_or]

theorem Pushes.value {among : List Asked} (pushes : Pushes record next among) (field : Field) :
    next.value field = record.value field := by
  obtain ⟨added, rfl, -⟩ := pushes.same
  cases field <;> rfl

theorem Pushes.rest {among : List Asked} (pushes : Pushes record next among) :
    next.offers = record.offers ∧ next.listedTerms = record.listedTerms ∧ next.instrumentType = record.instrumentType ∧
      next.instrumentId = record.instrumentId := by
  obtain ⟨added, rfl, -⟩ := pushes.same
  exact ⟨rfl, rfl, rfl, rfl⟩

/-- Pushing each of some identifiers unless something is so of it. -/
theorem pushes_foldl {α : Type} {among : List Asked} (skips : Instrument → α → Prop)
    [∀ record each, Decidable (skips record each)] (identifier : α → Identifier) (elements : List α)
    (named : ∀ each ∈ elements, ∀ next, Pushes record next among → ¬ skips next each →
      (identifier each).isOpen = true → (identifier each).asked ∈ among) :
    Pushes record (elements.foldl (fun next each => if skips next each then next else next.push (identifier each)) record)
      among := by
  induction elements using List.reverseRecOn with
  | nil => exact .refl record among
  | append_singleton rest each ih =>
    have before := ih fun other member => named other (List.mem_append_left _ member)
    rw [List.foldl_append, List.foldl_cons, List.foldl_nil]
    split
    · exact before
    · next joins => exact before.push (named each (List.mem_append_right _ (List.mem_singleton.mpr rfl)) _ before joins)

/-- A record that only more identifiers are pushed on brings those. -/
theorem Pushes.brings {brought : Brought} (pushes : Pushes record next brought.identifiers)
    (kind : record.instrumentType = brought.kind) (terms : record.listedTerms = brought.terms) :
    Brings record next brought where
  joined _ _ holds := pushes.holds holds
  kept _ _ holds := pushes.keeps holds
  values field := Or.inl (pushes.value field)
  kind := pushes.rest.2.2.1.trans kind
  terms := pushes.rest.2.1.trans terms

@[simp] theorem holds_takeTradingCurrencies (record : Instrument) (master : InstrumentRecord) (asked : Asked) :
    (takeTradingCurrencies record master).1.holds asked = record.holds asked := by
  have each (identifier : Identifier) :
      (takeTradingCurrency master identifier).isOpen = identifier.isOpen ∧
        (takeTradingCurrency master identifier).asked = identifier.asked := by
    unfold takeTradingCurrency
    split <;> exact ⟨rfl, rfl⟩
  unfold Instrument.holds takeTradingCurrencies
  rw [List.any_map]
  congr 1
  funext identifier
  simp only [Function.comp_apply, each]

/-- The terms a record ends with where it takes the platform's. -/
def termsAfter (record : Instrument) (master : InstrumentRecord) : String :=
  if master.terms = "" then record.listedTerms else master.terms

theorem takeListedTerms_eq (record : Instrument) (master : InstrumentRecord) :
    (takeListedTerms record master).1 = { record with listedTerms := termsAfter record master } := by
  unfold takeListedTerms termsAfter
  split
  · next same =>
    rcases same with none | same
    · simp [none]
    · by_cases none : master.terms = "" <;> simp [none, same]
  · next differs =>
    push Not at differs
    simp [differs.1]

/-- What a record ends with where a value is filled or offered. -/
theorem value_fillOrOffer (source : String) (nowNs : Int) (filling : Instrument × List Offer) {stated : Field × String}
    (settable : stated.1 ≠ .identifier ∧ stated.1 ≠ .term) (field : Field) :
    (fillOrOffer source nowNs filling stated).1.value field =
      if field = stated.1 ∧ filling.1.value field = "" then stated.2 else filling.1.value field := by
  unfold fillOrOffer
  split
  · next none =>
    split
    · next same => rw [none, same.2]
    · rfl
  · split
    · next empty =>
      rw [Instrument.value_setValue]
      by_cases same : field = stated.1
      · simp [same, settable, empty]
      · simp [same]
    · next held =>
      have unset : ¬ (field = stated.1 ∧ filling.1.value field = "") := by
        rintro ⟨rfl, empty⟩
        exact held empty
      rw [if_neg unset]
      split <;> rfl

/-- What filling leaves as it was. -/
theorem rest_fillOrOffer (source : String) (nowNs : Int) (filling : Instrument × List Offer) (stated : Field × String) :
    (fillOrOffer source nowNs filling stated).1.identifiers = filling.1.identifiers ∧
      (fillOrOffer source nowNs filling stated).1.offers = filling.1.offers ∧
      (fillOrOffer source nowNs filling stated).1.listedTerms = filling.1.listedTerms ∧
      (fillOrOffer source nowNs filling stated).1.instrumentId = filling.1.instrumentId := by
  unfold fillOrOffer
  split
  · exact ⟨rfl, rfl, rfl, rfl⟩
  · split
    · cases stated.1 <;> exact ⟨rfl, rfl, rfl, rfl⟩
    · split <;> exact ⟨rfl, rfl, rfl, rfl⟩

/-- A value of a platform record's, by field. -/
def masterValue (master : InstrumentRecord) : Field → String
  | .assetClass => master.assetClass.name
  | .currency => Text.trim master.currency
  | .description => Text.trim master.description
  | .instrumentType => master.instrumentType.name
  | _ => ""

theorem masterValues_eq (master : InstrumentRecord) :
    masterValues master = resolvedFields.map fun field => (field, masterValue master field) := rfl

/-- What a record's values stated elsewhere are offered as, where they differ. -/
def statedOffers (source : String) (nowNs : Int) (stated : Field → String) : List Offer :=
  resolvedFields.map fun field => { field := field, value := stated field, source := source, offeredAtNs := nowNs }

theorem settable_of_resolved {field : Field} (resolves : field ∈ resolvedFields) :
    field ≠ .identifier ∧ field ≠ .term := by
  revert field
  decide

/-- What values stated elsewhere leave of a record, filled in part of their fields so far. -/
structure Filled (source : String) (nowNs : Int) (stated : Field → String) (start : Instrument × List Offer)
    (fields : List Field) (filled : Instrument × List Offer) : Prop where
  value : ∀ field, filled.1.value field =
    if field ∈ fields ∧ start.1.value field = "" then stated field else start.1.value field
  identifiers : filled.1.identifiers = start.1.identifiers
  offers : filled.1.offers = start.1.offers
  terms : filled.1.listedTerms = start.1.listedTerms
  instrumentId : filled.1.instrumentId = start.1.instrumentId
  later : ∃ more, filled.2 = start.2 ++ more ∧ ∀ offer ∈ more, offer ∈ statedOffers source nowNs stated

theorem filled_foldl (source : String) (nowNs : Int) (stated : Field → String) (start : Instrument × List Offer)
    {fields : List Field} (within : ∀ field ∈ fields, field ∈ resolvedFields) (once : fields.Nodup) :
    Filled source nowNs stated start fields
      ((fields.map fun field => (field, stated field)).foldl (fillOrOffer source nowNs) start) := by
  induction fields using List.reverseRecOn with
  | nil =>
    exact ⟨fun field => by simp, rfl, rfl, rfl, rfl, [], by simp, fun _ member => absurd member List.not_mem_nil⟩
  | append_singleton rest field ih =>
    have before := ih (fun other member => within other (List.mem_append_left _ member)) (List.nodup_append.mp once).1
    have own := within field (List.mem_append_right _ (List.mem_singleton.mpr rfl))
    have apart : field ∉ rest := fun member =>
      (List.nodup_append.mp once).2.2 field member field (List.mem_singleton.mpr rfl) rfl
    rw [List.map_append, List.foldl_append, List.map_cons, List.map_nil, List.foldl_cons, List.foldl_nil]
    generalize (rest.map fun field => (field, stated field)).foldl (fillOrOffer source nowNs) start = filling at before ⊢
    obtain ⟨identifiers, standing, terms, instrumentId⟩ := rest_fillOrOffer source nowNs filling (field, stated field)
    obtain ⟨more, same, each⟩ := before.later
    have next : ∃ further, (fillOrOffer source nowNs filling (field, stated field)).2 = filling.2 ++ further ∧
        ∀ offer ∈ further, offer ∈ statedOffers source nowNs stated := by
      unfold fillOrOffer
      split
      · exact ⟨[], by simp, fun _ member => absurd member List.not_mem_nil⟩
      · split
        · exact ⟨[], by simp, fun _ member => absurd member List.not_mem_nil⟩
        · split
          · exact ⟨[], by simp, fun _ member => absurd member List.not_mem_nil⟩
          · refine ⟨_, rfl, fun offer member => ?_⟩
            rw [List.mem_singleton.mp member]
            exact List.mem_map.mpr ⟨field, own, rfl⟩
    obtain ⟨further, grown, others⟩ := next
    refine ⟨fun other => ?_, identifiers.trans before.identifiers, standing.trans before.offers,
      terms.trans before.terms, instrumentId.trans before.instrumentId, more ++ further,
      by rw [grown, same, List.append_assoc], fun offer member => ?_⟩
    · rw [value_fillOrOffer source nowNs filling (settable_of_resolved own) other, before.value other]
      by_cases equal : other = field
      · subst equal
        simp [apart]
      · simp [equal]
    · rcases List.mem_append.mp member with earlier | later
      · exact each offer earlier
      · exact others offer later

theorem filled_resolved (source : String) (nowNs : Int) (stated : Field → String) (start : Instrument × List Offer) :
    Filled source nowNs stated start resolvedFields
      ((resolvedFields.map fun field => (field, stated field)).foldl (fillOrOffer source nowNs) start) :=
  filled_foldl source nowNs stated start (fun _ member => member) (by decide)

/-- A record's next version: its offers stand, and each that stood stands, is in force or was offered anew. -/
structure Stepped (termAt : TermAt) (before next : Instrument) (anew : List Offer) : Prop where
  offered : Offered termAt next
  keeps : Keeps termAt before next anew

/-- A next version alike but in what no offer is told of. -/
theorem Stepped.of_alike {anew : List Offer} (stepped : Stepped termAt before record anew) (alike : Alike next record) :
    Stepped termAt before next anew :=
  ⟨stepped.offered.of_alike alike, stepped.keeps.of_alike alike⟩

/-- A record marked, and nothing an offer is told of changed. -/
theorem stepped_marked (offered : Offered termAt record) (alike : Alike next record) (anew : List Offer) :
    Stepped termAt record next anew :=
  ⟨offered.of_alike alike, (Keeps.refl record anew).of_alike alike⟩

theorem Keeps.of_offers {anew : List Offer} (keeps : Keeps termAt record next anew) (same : record.offers = before.offers) :
    Keeps termAt before next anew := fun offer member => keeps offer (same ▸ member)

/-- What a resolve joins to a record. -/
def joinBrought (record : Instrument) (asked : List Asked) (asOfNs : Int) : Brought where
  identifiers := joining record asked asOfNs
  kind := record.instrumentType
  terms := record.listedTerms

theorem stepped_joined (offered : Offered termAt record) (sayable : ∀ offer ∈ offers, Sayable offer) {asked : List Asked}
    {asOfNs : Int} (unoffered : Unoffered termAt record (joinBrought record asked asOfNs)) :
    Stepped termAt record (takeStated termAt { record with
      identifiers := record.identifiers ++ (joining record asked asOfNs).map (windowFor held) } offers).1 offers := by
  have pushes : Pushes record { record with
      identifiers := record.identifiers ++ (joining record asked asOfNs).map (windowFor held) }
        (joinBrought record asked asOfNs).identifiers := by
    refine ⟨_, rfl, fun identifier member _ => ?_⟩
    obtain ⟨each, among, rfl⟩ := List.mem_map.mp member
    exact among
  have named := offered.brings unoffered (pushes.brings rfl rfl) rfl
  have taken := statedOn_takeStated named sayable
  exact ⟨taken.offered, taken.keeps.of_offers rfl⟩

/-- An offer of one of a record's own values. -/
theorem sayable_of_resolved {offer : Offer} (field : offer.field ∈ resolvedFields) : Sayable offer := by
  obtain ⟨named, term⟩ := settable_of_resolved field
  exact ⟨fun same => absurd same named, fun same => absurd same term⟩

theorem field_of_stated {request : ResolveIdentifierRequest} {instanceId : String} {nowNs : Int} :
    ∀ offer ∈ stated request instanceId nowNs, offer.field ∈ resolvedFields := by
  intro offer member
  unfold stated at member
  simp only [List.mem_append, List.mem_ite_nil_right, List.mem_singleton] at member
  rcases member with ((⟨-, rfl⟩ | ⟨-, rfl⟩) | ⟨-, rfl⟩) | ⟨-, rfl⟩
  · simp [resolvedFields]
  · split <;> simp [resolvedFields]
  · simp [resolvedFields]
  · simp [resolvedFields]

/-- What the platform's record brings onto the record held under its ID. -/
def platformBrought (held : Held) (record : Instrument) (asked : List Asked) (master : InstrumentRecord) : Brought where
  identifiers := asked.filter fun each => !record.holds each && (holdersElsewhere held each record.instrumentId).isEmpty
  kind := record.instrumentType
  terms := termsAfter record master

theorem pushes_joinPlatform (held : Held) (record : Instrument) (asked : List Asked) (master : InstrumentRecord) :
    Pushes record (joinPlatform held record asked).1 (platformBrought held record asked master).identifiers := by
  have first (elements : List Asked) (start : Instrument × Bool) :
      (elements.foldl (fun joined identifier =>
        if joined.1.holds identifier ∨ holdersElsewhere held identifier joined.1.instrumentId ≠ [] then joined
        else (joined.1.push (windowFor held identifier), true)) start).1 =
      elements.foldl (fun next each =>
        if next.holds each ∨ holdersElsewhere held each next.instrumentId ≠ [] then next
        else next.push (windowFor held each)) start.1 := by
    induction elements generalizing start with
    | nil => rfl
    | cons each rest ih =>
      rw [List.foldl_cons, List.foldl_cons, ih]
      congr 1
      split <;> rfl
  unfold joinPlatform
  rw [first]
  refine pushes_foldl (fun next each => next.holds each ∨ holdersElsewhere held each next.instrumentId ≠ [])
    (windowFor held) asked fun each member next before joins _ => ?_
  push Not at joins
  rw [before.rest.2.2.2] at joins
  refine List.mem_filter.mpr ⟨member, ?_⟩
  cases holds : record.holds each with
  | true => exact absurd (before.keeps holds) joins.1
  | false => simp [holds, joins.2]

/-- What brings no terms leaves an offer of one as it stood. -/
theorem Unoffered.bare {brought : Brought} (offered : Offered termAt record) (unoffered : Unoffered termAt record brought) :
    Unoffered termAt record { brought with kind := record.instrumentType, terms := record.listedTerms } := by
  intro offer member
  have stood := offered.standing offer member
  have apart := unoffered offer member
  cases field : offer.field with
  | term => simpa only [Brought.meets, saysInForce, field] using stood
  | _ => simpa only [Brought.meets, field] using apart

theorem stepped_platform (offered : Offered termAt record) (fields : ∀ offer ∈ offers, offer.field ∈ resolvedFields)
    {asked : List Asked} (unoffered : Unoffered termAt record (platformBrought held record asked master)) :
    Stepped termAt record (takeListedTerms (takeTradingCurrencies (takeStated termAt (joinPlatform held record asked).1
      offers).1 master).1 master).1 offers := by
  have pushes := pushes_joinPlatform held record asked master
  have joins : Brings record (joinPlatform held record asked).1
      { platformBrought held record asked master with kind := record.instrumentType, terms := record.listedTerms } :=
    Pushes.brings pushes rfl rfl
  have joined := offered.brings (unoffered.bare offered) joins pushes.rest.1
  have taken := statedOn_takeStated joined fun offer member => sayable_of_resolved (fields offer member)
  generalize (takeStated termAt (joinPlatform held record asked).1 offers).1 = next at taken ⊢
  have terms : termsAfter (takeTradingCurrencies next master).1 master = termsAfter record master := by
    unfold termsAfter
    exact congrArg (fun terms => if master.terms = "" then terms else master.terms) (taken.terms.trans pushes.rest.2.1)
  have kind : next.instrumentType = record.instrumentType := taken.kind.trans pushes.rest.2.2.1
  rw [takeListedTerms_eq, terms]
  -- The terms are taken last, and nothing that stands offered is what they state.
  have brings : Brings next { (takeTradingCurrencies next master).1 with listedTerms := termsAfter record master }
      { kind := record.instrumentType, terms := termsAfter record master } := by
    refine ⟨fun each _ holds => Or.inl ?_, fun each _ holds => ?_, fun field => Or.inl ?_, kind, rfl⟩
    · exact (holds_takeTradingCurrencies next master each).symm.trans holds
    · exact (holds_takeTradingCurrencies next master each).trans holds
    · cases field <;> rfl
  refine ⟨taken.offered.brings (fun offer member => ?_) brings rfl, fun offer member => ?_⟩
  · cases field : offer.field with
    | identifier => simp [Brought.meets, field]
    | term =>
      rcases taken.came offer member with before | new
      · have apart := unoffered offer (pushes.rest.1 ▸ before)
        simp only [Brought.meets, field] at apart ⊢
        exact apart
      · exact absurd field (settable_of_resolved (fields offer new)).2
    | _ => simp [Brought.meets, field]
  · rcases taken.keeps offer (pushes.rest.1 ▸ member) with stays | inForce | new
    · exact Or.inl stays
    · refine Or.inr (Or.inl ?_)
      cases field : offer.field with
      | identifier =>
        have holds (each : Asked) : Instrument.holds { (takeTradingCurrencies next master).1 with
            listedTerms := termsAfter record master } each = next.holds each := holds_takeTradingCurrencies next master each
        simpa only [saysInForce, field, holds] using inForce
      | term =>
        have stood := offered.standing offer member
        simp only [saysInForce, field, kind, taken.terms.trans pushes.rest.2.1] at inForce stood
        rw [inForce] at stood
        cases stood
      | _ =>
        simp only [saysInForce, field] at inForce ⊢
        exact inForce
    · exact Or.inr (Or.inr new)

/-- A record no offer is on. -/
theorem offered_bare (none : record.offers = []) : Offered termAt record := by
  refine ⟨?_, ?_, ?_⟩ <;> intro offer member <;> rw [none] at member <;> exact absurd member List.not_mem_nil

theorem offers_withMasterValues (record : Instrument) (master : InstrumentRecord) :
    (withMasterValues record master).offers = record.offers := by
  unfold withMasterValues
  induction masterValues master using List.reverseRecOn with
  | nil => rfl
  | append_singleton rest stated ih =>
    rw [List.foldl_append, List.foldl_cons, List.foldl_nil]
    split
    · exact ih
    · cases stated.1 <;> exact ih

theorem offered_platformCandidate (asked : List Asked) (template : Option Template)
    (fields : ∀ offer ∈ offers, offer.field ∈ resolvedFields) (lacking : List String) :
    Offered termAt (platformCandidate termAt held asked master template offers lacking nowNs) := by
  unfold platformCandidate
  dsimp only
  refine (statedOn_takeStated (offered_bare ?_) fun offer member => sayable_of_resolved (fields offer member)).offered
  cases master.binaryEventContract <;> rw [takeListedTerms_eq] <;> exact offers_withMasterValues _ _

theorem offered_mintedCandidate (request : ResolveIdentifierRequest) (asked : List Asked) (instanceId instrumentId : String)
    (template : Option Template) (reason : ProvisionalReason) :
    Offered termAt (mintedCandidate termAt held request asked instanceId instrumentId nowNs template reason) := by
  unfold mintedCandidate
  dsimp only
  have bare : Offered termAt ({
      instrumentId := instrumentId
      identifiers := asked.map (windowFor held)
      lifecycleState := "INSTRUMENT_LIFECYCLE_STATE_ACTIVE"
      version := 1
      recordTimeNs := nowNs } : Instrument) := offered_bare rfl
  have taken := statedOn_takeStated bare fun offer member =>
    sayable_of_resolved (@field_of_stated request instanceId nowNs offer member)
  exact taken.offered.of_alike ⟨fun _ => rfl, fun field => by cases field <;> rfl, rfl, rfl⟩

/-- The values stated elsewhere that a record has none of. -/
def filledValues (record : Instrument) (stated : Field → String) : List (Field × String) :=
  (resolvedFields.filter fun field => record.value field = "").map fun field => (field, stated field)

/-- The type a record ends with where it takes another's having none. -/
def kindAfter (record : Instrument) (stated : Field → String) : String :=
  if record.instrumentType = "" then stated .instrumentType else record.instrumentType

/-- What filling leaves of the values brings those. -/
theorem Filled.value_cases {source : String} {stated : Field → String} {start filled : Instrument × List Offer}
    (fills : Filled source nowNs stated start resolvedFields filled) (field : Field) :
    filled.1.value field = start.1.value field ∨ (field, filled.1.value field) ∈ filledValues start.1 stated := by
  rw [fills.value field]
  split
  · next empty => exact Or.inr (List.mem_map.mpr ⟨field, List.mem_filter.mpr ⟨empty.1, by simp [empty.2]⟩, rfl⟩)
  · exact Or.inl rfl

theorem Filled.kind {source : String} {stated : Field → String} {start filled : Instrument × List Offer}
    (fills : Filled source nowNs stated start resolvedFields filled) :
    filled.1.instrumentType = kindAfter start.1 stated := by
  have value := fills.value .instrumentType
  simpa [resolvedFields, kindAfter, Instrument.value] using value

theorem sayable_stated {source : String} {stated : Field → String} :
    ∀ offer ∈ statedOffers source nowNs stated, Sayable offer := by
  intro offer member
  obtain ⟨field, among, rfl⟩ := List.mem_map.mp member
  exact sayable_of_resolved among

/-- What the platform's record brings onto one that starts from the record it replaces. -/
def candidateBrought (replaced : Instrument) (master : InstrumentRecord) : Brought where
  identifiers := (masterIdentifiers master).filter fun each => !replaced.holds each
  values := filledValues replaced (masterValue master)
  kind := kindAfter replaced (masterValue master)
  terms := termsAfter replaced master

/-- What the replaced record brings onto the record held under the platform's ID. -/
def intoBrought (into replaced : Instrument) : Brought where
  identifiers := (replaced.heldNow.map (·.asked)).filter fun each => !into.holds each
  values := filledValues into replaced.value
  kind := kindAfter into replaced.value
  terms := into.listedTerms

theorem holds_heldNow (record : Instrument) (asked : Asked) :
    Instrument.holds { record with identifiers := record.heldNow } asked = record.holds asked := by
  unfold Instrument.holds Instrument.heldNow
  rw [List.any_filter]
  congr 1
  funext identifier
  cases identifier.isOpen <;> rfl

/-- Closing the platform's IDs leaves the others held as they were. -/
theorem holds_closeGlobal (record : Instrument) (nowNs : Int) {asked : Asked} (offerable : asked.offerable) :
    Instrument.holds { record with identifiers := record.identifiers.map (closeGlobal nowNs) } asked = record.holds asked := by
  unfold Instrument.holds
  rw [List.any_map]
  congr 1
  funext identifier
  rw [Function.comp_apply]
  unfold closeGlobal
  split
  · next global =>
    have apart : identifier.asked ≠ asked := fun same => offerable.2 (same ▸ global)
    simp [apart]
  · rfl

theorem holds_push (record : Instrument) (identifier : Identifier) (asked : Asked) :
    (record.push identifier).holds asked = (record.holds asked || (identifier.isOpen && decide (identifier.asked = asked))) := by
  simp [Instrument.push, Instrument.holds, List.any_append]

theorem holds_linked (offerable : asked.offerable) : (linked held record replaced).holds asked = record.holds asked := by
  unfold linked
  split
  · have apart : (localLink held replaced).asked ≠ asked := fun same =>
      offerable.1 ((congrArg (·.scheme) same.symm).trans rfl)
    rw [holds_push]
    simp [apart]
  · rfl

theorem rest_linked (held : Held) (record replaced : Instrument) :
    (linked held record replaced).offers = record.offers ∧ (linked held record replaced).listedTerms = record.listedTerms ∧
      (∀ field, (linked held record replaced).value field = record.value field) := by
  unfold linked
  split
  · exact ⟨rfl, rfl, fun field => Instrument.value_push record _ field⟩
  · exact ⟨rfl, rfl, fun _ => rfl⟩

theorem filledValues_congr {stated : Field → String} (same : ∀ field, next.value field = record.value field) :
    filledValues next stated = filledValues record stated := by
  unfold filledValues
  simp only [same]

theorem kindAfter_congr {stated : Field → String} (same : ∀ field, next.value field = record.value field) :
    kindAfter next stated = kindAfter record stated := by
  have kind : next.instrumentType = record.instrumentType := same .instrumentType
  unfold kindAfter
  rw [kind]

theorem holds_resolvedBase {lacking : List String} (offerable : asked.offerable) :
    (resolvedBase held replaced master lacking nowNs).holds asked = replaced.holds asked := by
  unfold resolvedBase
  dsimp only
  rw [holds_linked offerable, holds_closeGlobal _ _ offerable, takeListedTerms_eq]
  exact (holds_takeTradingCurrencies _ master asked).trans (holds_heldNow replaced asked)

theorem rest_resolvedBase (held : Held) (replaced : Instrument) (master : InstrumentRecord) (lacking : List String)
    (nowNs : Int) :
    (resolvedBase held replaced master lacking nowNs).offers = replaced.offers ∧
      (resolvedBase held replaced master lacking nowNs).listedTerms = termsAfter replaced master ∧
      (∀ field, (resolvedBase held replaced master lacking nowNs).value field = replaced.value field) := by
  unfold resolvedBase
  dsimp only
  obtain ⟨offers, terms, values⟩ := rest_linked held
    { (takeListedTerms (takeTradingCurrencies (travelling replaced master lacking nowNs) master).1 master).1 with
      identifiers := (takeListedTerms (takeTradingCurrencies (travelling replaced master lacking nowNs) master).1
        master).1.identifiers.map (closeGlobal nowNs) } replaced
  rw [takeListedTerms_eq] at offers terms values ⊢
  refine ⟨offers, terms, fun field => (values field).trans ?_⟩
  cases field <;> rfl

theorem carries_of_holds (holds : record.holds asked = true) : record.carries asked = true := by
  obtain ⟨identifier, member, named⟩ := List.any_eq_true.mp holds
  exact List.any_eq_true.mpr ⟨identifier, member, (Bool.and_eq_true_iff.mp named).2⟩

theorem offerable_of_master (member : asked ∈ masterIdentifiers master) : asked.offerable := by
  have named := (List.mem_filter.mp member).2
  simpa [Asked.offerable] using named

theorem pushes_resolvedNamed {base : Instrument} (holds : ∀ asked : Asked, asked.offerable → base.holds asked = replaced.holds asked) :
    Pushes base (resolvedNamed held base master) (candidateBrought replaced master).identifiers := by
  refine pushes_foldl (fun next each => next.carries each = true) (windowFor held) (masterIdentifiers master)
    fun each member next before uncarried _ => List.mem_filter.mpr ⟨member, ?_⟩
  cases held : replaced.holds each with
  | false => simp [held]
  | true =>
    have based := (holds each (offerable_of_master member)).trans held
    exact absurd (carries_of_holds (before.keeps based)) uncarried

/-- The record a replaced one starts, its offers standing, and each of the replaced one's among them. -/
theorem stepped_resolvedCandidate (offered : Offered termAt replaced)
    (unoffered : Unoffered termAt replaced (candidateBrought replaced master)) (lacking : List String) :
    Offered termAt (resolvedCandidate termAt held replaced master lacking nowNs) ∧
      Moves termAt replaced.offers (resolvedCandidate termAt held replaced master lacking nowNs)
        (statedOffers (platformWords master) nowNs (masterValue master)) := by
  have base := rest_resolvedBase held replaced master lacking nowNs
  have holds {asked : Asked} (offerable : asked.offerable) :
      (resolvedBase held replaced master lacking nowNs).holds asked = replaced.holds asked := holds_resolvedBase offerable
  unfold resolvedCandidate
  rw [masterValues_eq]
  generalize resolvedBase held replaced master lacking nowNs = start at base holds ⊢
  obtain ⟨offers, terms, values⟩ := base
  have pushes : Pushes start (resolvedNamed held start master) _ := pushes_resolvedNamed fun asked offerable => holds offerable
  have fills := filled_resolved (platformWords master) nowNs (masterValue master) (resolvedNamed held start master, [])
  dsimp only
  generalize (resolvedFields.map fun field => (field, masterValue master field)).foldl
    (fillOrOffer (platformWords master) nowNs) (resolvedNamed held start master, []) = filled at fills ⊢
  have same (field : Field) : (resolvedNamed held start master).value field = replaced.value field :=
    (pushes.value field).trans (values field)
  have venue : Alike (venued filled.1 master) filled.1 := by
    unfold venued
    split
    · exact ⟨fun _ => rfl, fun field => by cases field <;> rfl, rfl, rfl⟩
    · exact ⟨fun _ => rfl, fun _ => rfl, rfl, rfl⟩
  have held' (asked : Asked) : filled.1.holds asked = (resolvedNamed held start master).holds asked := by
    unfold Instrument.holds
    rw [fills.identifiers]
  have brings : Brings replaced filled.1 (candidateBrought replaced master) := by
    refine ⟨fun asked offerable holding => ?_, fun asked offerable holding => ?_, fun field => ?_, ?_, ?_⟩
    · rw [held'] at holding
      rcases pushes.holds holding with before | pushed
      · exact Or.inl ((holds offerable).symm.trans before)
      · exact Or.inr pushed
    · rw [held']
      exact pushes.keeps ((holds offerable).trans holding)
    · rcases fills.value_cases field with before | set
      · exact Or.inl (before.trans (same field))
      · rw [filledValues_congr same] at set
        exact Or.inr set
    · exact fills.kind.trans (kindAfter_congr same)
    · exact fills.terms.trans (pushes.rest.2.1.trans terms)
  have stands : filled.1.offers = replaced.offers := fills.offers.trans (pushes.rest.1.trans offers)
  have before := (offered.brings unoffered brings stands).of_alike venue
  obtain ⟨more, offering, each⟩ := fills.later
  rw [List.nil_append] at offering
  refine ⟨offered_keepOffers before fun offer member => sayable_stated offer (each offer (offering ▸ member)),
    fun offer member => ?_⟩
  rcases (keptBy_keepOffers (venued filled.1 master) filled.2).stays offer (venue.offers.symm ▸ stands.symm ▸ member) with
    stays | ⟨new, among, replaces⟩
  · exact Or.inl ⟨offer, stays, sameAs_refl offer⟩
  · exact Or.inr (Or.inr ⟨new, each new (offering ▸ among), offer, sameAs_refl offer, renews_of_replaces replaces⟩)

/-- No offer moved to a record takes the place of another that stands there, unless it is the same. -/
def Quiet (record : Instrument) (moved : List Offer) : Prop :=
  ∀ held ∈ record.offers, ∀ offer ∈ moved, replacesOffer offer held = true → held.sameAs offer = true

/-- Offers moved to a record and others made anew leave all that stood but what is offered anew. -/
theorem keeps_moved {moved more : List Offer} (from_ : Offered termAt replaced) (same : moved = replaced.offers)
    (quiet : Quiet record moved) :
    Keeps termAt record (keepOffers termAt record (moved ++ more)).1 more ∧
      Moves termAt moved (keepOffers termAt record (moved ++ more)).1 more := by
  have still : ∀ held ∈ record.offers ++ moved, ∀ offer ∈ moved, replacesOffer offer held = true →
      held.sameAs offer = true := by
    intro held member offer among replaces
    rcases List.mem_append.mp member with stood | other
    · exact quiet held stood offer among replaces
    · rw [same] at other among
      rw [from_.apart held other offer among replaces]
      exact sameAs_refl held
  obtain ⟨stay, move⟩ := @moves_foldl termAt moved (record, false) still
  have kept : KeptBy termAt _ more _ := keptBy_foldl more (moved.foldl (keepOffer termAt) (record, false))
  have first : KeptBy termAt record moved _ := keptBy_foldl moved (record, false)
  unfold keepOffers
  rw [List.foldl_append]
  generalize moved.foldl (keepOffer termAt) (record, false) = middle at stay move kept first ⊢
  refine ⟨fun offer member => ?_, fun offer member => ?_⟩
  · rcases kept.stays offer (stay offer member) with stays | ⟨new, among, replaces⟩
    · exact Or.inl stays
    · exact Or.inr (Or.inr ⟨new, among, renews_of_replaces replaces⟩)
  · rcases move offer member with ⟨held, stood, alike⟩ | inForce
    · rcases kept.stays held stood with stays | ⟨new, among, replaces⟩
      · exact Or.inl ⟨held, stays, alike⟩
      · exact Or.inr (Or.inr ⟨new, among, held, alike, renews_of_replaces replaces⟩)
    · right; left
      rw [kept.same, saysInForce_offers, first.same, saysInForce_offers]
      exact inForce

theorem pushes_joinedBy {base : Instrument} (holds : ∀ asked, into.holds asked = true → base.holds asked = true) :
    Pushes base (joinedBy base replaced) (intoBrought into replaced).identifiers := by
  refine pushes_foldl (fun next each => each.scheme = globalId ∨ next.holds each.asked = true) id replaced.heldNow
    fun each member next before apart _ => List.mem_filter.mpr ⟨List.mem_map_of_mem member, ?_⟩
  push Not at apart
  cases held : into.holds each.asked with
  | false => simp [held]
  | true => exact absurd (before.keeps (holds _ held)) apart.2

/-- The record held under the platform's ID once the replaced one joined it. -/
theorem stepped_resolvedInto (offered : Offered termAt into) (from_ : Offered termAt replaced)
    (unoffered : Unoffered termAt into (intoBrought into replaced)) (quiet : Quiet into replaced.offers) :
    Stepped termAt into (resolvedInto termAt held into replaced nowNs)
        (statedOffers (resolvedWords replaced) nowNs replaced.value) ∧
      Moves termAt replaced.offers (resolvedInto termAt held into replaced nowNs)
        (statedOffers (resolvedWords replaced) nowNs replaced.value) := by
  obtain ⟨offers, terms, values⟩ := rest_linked held into replaced
  have link {asked : Asked} (holds : into.holds asked = true) : (linked held into replaced).holds asked = true := by
    unfold linked
    split
    · rw [holds_push, holds, Bool.true_or]
    · exact holds
  have unlink {asked : Asked} (offerable : asked.offerable) : (linked held into replaced).holds asked = into.holds asked :=
    holds_linked offerable
  unfold resolvedInto
  generalize linked held into replaced = start at offers terms values link unlink ⊢
  have pushes : Pushes start (joinedBy start replaced) _ := pushes_joinedBy fun asked holds => link holds
  have fills := filled_resolved (resolvedWords replaced) nowNs replaced.value (joinedBy start replaced, replaced.offers)
  dsimp only
  generalize (resolvedFields.map fun field => (field, replaced.value field)).foldl
    (fillOrOffer (resolvedWords replaced) nowNs) (joinedBy start replaced, replaced.offers) = filled at fills ⊢
  have same (field : Field) : (joinedBy start replaced).value field = into.value field :=
    (pushes.value field).trans (values field)
  have held' (asked : Asked) : filled.1.holds asked = (joinedBy start replaced).holds asked := by
    unfold Instrument.holds
    rw [fills.identifiers]
  have brings : Brings into filled.1 (intoBrought into replaced) := by
    refine ⟨fun asked offerable holding => ?_, fun asked offerable holding => ?_, fun field => ?_, ?_, ?_⟩
    · rw [held'] at holding
      rcases pushes.holds holding with before | pushed
      · exact Or.inl ((unlink offerable).symm.trans before)
      · exact Or.inr pushed
    · rw [held']
      exact pushes.keeps (link holding)
    · rcases fills.value_cases field with before | set
      · exact Or.inl (before.trans (same field))
      · rw [filledValues_congr same] at set
        exact Or.inr set
    · exact fills.kind.trans (kindAfter_congr same)
    · exact fills.terms.trans (pushes.rest.2.1.trans terms)
  have stands : filled.1.offers = into.offers := fills.offers.trans (pushes.rest.1.trans offers)
  have before := offered.brings unoffered brings stands
  obtain ⟨more, offering, each⟩ := fills.later
  have quiet' : Quiet filled.1 replaced.offers := fun held member => quiet held (stands ▸ member)
  obtain ⟨keeps, moves⟩ := keeps_moved from_ rfl quiet'
  have alike : Alike { (keepOffers termAt filled.1 filled.2).1 with version := into.version + 1, recordTimeNs := nowNs }
      (keepOffers termAt filled.1 filled.2).1 := ⟨fun _ => rfl, fun field => by cases field <;> rfl, rfl, rfl⟩
  have sayable : ∀ offer ∈ filled.2, Sayable offer := by
    intro offer member
    rw [offering] at member
    rcases List.mem_append.mp member with moved | new
    · exact from_.sayable offer moved
    · exact sayable_stated offer (each offer new)
  rw [← offering] at keeps moves
  refine ⟨⟨(offered_keepOffers before sayable).of_alike alike, fun offer member => ?_⟩, fun offer member => ?_⟩
  · rcases keeps offer (stands.symm ▸ member) with stays | inForce | ⟨new, among, renewed⟩
    · exact Or.inl stays
    · exact Or.inr (Or.inl ((alike.saysInForce offer).trans inForce))
    · exact Or.inr (Or.inr ⟨new, each new among, renewed⟩)
  · rcases moves offer member with stands | inForce | ⟨new, among, renewed⟩
    · exact Or.inl stands
    · exact Or.inr (Or.inl ((alike.saysInForce offer).trans inForce))
    · exact Or.inr (Or.inr ⟨new, each new among, renewed⟩)

/-- What closing identifiers leaves of a record. -/
structure Closes (record next : Instrument) : Prop where
  holds : ∀ asked, next.holds asked = true → record.holds asked = true
  rest : ∃ identifiers, next = { record with identifiers }

theorem closes_close (record : Instrument) (asked : Asked) (untilNs : Int) : Closes record (record.close asked untilNs) := by
  refine ⟨fun other holding => ?_, _, rfl⟩
  obtain ⟨identifier, member, named⟩ := List.any_eq_true.mp holding
  obtain ⟨before, among, rfl⟩ := List.mem_map.mp member
  split at named
  · simp at named
  · exact List.any_eq_true.mpr ⟨before, among, named⟩

theorem Closes.trans {middle : Instrument} (first : Closes record middle) (second : Closes middle next) :
    Closes record next := by
  obtain ⟨_, rfl⟩ := first.rest
  obtain ⟨identifiers, rfl⟩ := second.rest
  exact ⟨fun asked holding => first.holds asked (second.holds asked holding), identifiers, rfl⟩

theorem closes_closedAll (record : Instrument) (nowNs : Int) : Closes record (closedAll record nowNs) := by
  unfold closedAll
  suffices closes : ∀ (identifiers : List Identifier) (start : Instrument), Closes record start →
      Closes record (identifiers.foldl (fun gone identifier => gone.close identifier.asked nowNs) start) from
    closes record.heldNow record ⟨fun _ holding => holding, record.identifiers, rfl⟩
  intro identifiers
  induction identifiers with
  | nil => exact fun _ closes => closes
  | cons identifier rest ih => exact fun start closes => ih _ (closes.trans (closes_close start identifier.asked nowNs))

/-- A record none of whose offers is to end an identifier keeps them standing as its identifiers leave it. -/
theorem stepped_closed (offered : Offered termAt record) (endless : Endless record) (closes : Closes record next)
    (anew : List Offer) : Stepped termAt record next anew := by
  obtain ⟨identifiers, rfl⟩ := closes.rest
  refine ⟨⟨fun offer member => ?_, offered.sayable, offered.apart⟩, fun _ member => Or.inl member⟩
  have stood := offered.standing offer member
  cases field : offer.field with
  | identifier =>
    simp only [saysInForce, field] at stood ⊢
    cases named : offer.identifier with
    | none => rfl
    | some asked =>
      rw [named] at stood
      have adds := endless offer member field (by rw [named]; rfl)
      simp only [Option.any_some, adds, eq_iff_iff, iff_true, decide_eq_false_iff_not] at stood ⊢
      exact fun holding => stood (closes.holds asked holding)
  | term => simpa only [saysInForce, field] using stood
  | _ =>
    simp only [saysInForce, field] at stood ⊢
    exact stood

theorem stepped_resolvedGone (offered : Offered termAt replaced) (endless : Endless replaced) (anew : List Offer) :
    Stepped termAt replaced (resolvedGone replaced nowNs) anew :=
  (stepped_closed offered endless (closes_closedAll replaced nowNs) anew).of_alike
    ⟨fun _ => rfl, fun field => by cases field <;> rfl, rfl, rfl⟩

theorem stepped_mergeGone (offered : Offered termAt merged) (endless : Endless merged) (anew : List Offer) :
    Stepped termAt merged (mergeGone merged nowNs) anew :=
  (stepped_closed offered endless (closes_closedAll merged nowNs) anew).of_alike
    ⟨fun _ => rfl, fun field => by cases field <;> rfl, rfl, rfl⟩

/-- Whether a merge fills a field from the merged record. -/
def takes (kept merged : Instrument) (take : List Field) (field : Field) : Bool :=
  merged.value field ≠ "" && (kept.value field = "" || take.contains field)

/-- What a merge brings onto the record that stays. -/
def mergeBrought (kept merged : Instrument) (take : List Field) : Brought where
  identifiers := (merged.heldNow.map (·.asked)).filter fun each => !kept.holds each
  values := (mergedFields.filter (takes kept merged take)).map fun field => (field, merged.value field)
  kind := if takes kept merged take .instrumentType then merged.instrumentType else kept.instrumentType
  terms := kept.listedTerms

theorem mergeField_eq (kept merged : Instrument) (take : List Field) (stays : Instrument) (field : Field)
    (same : stays.value field = kept.value field) (settable : field ≠ .identifier ∧ field ≠ .term) (other : Field) :
    (mergeField kept merged take stays field).value other =
      if other = field ∧ takes kept merged take field = true then merged.value field else stays.value other := by
  unfold mergeField takes
  dsimp only
  by_cases equal : other = field
  · subst equal
    by_cases none : merged.value other = ""
    · simp [none]
    · by_cases alike : kept.value other = merged.value other
      · by_cases taking : (kept.value other = "" ∨ other ∈ take)
        · simp [none, alike, same.trans alike, taking]
        · simp [none, alike, same.trans alike]
      · by_cases empty : kept.value other = ""
        · simp [none, alike, empty, Instrument.value_setValue, settable]
        · by_cases taken : other ∈ take
          · simp [none, alike, empty, taken, Instrument.value_setValue, settable]
          · simp [none, alike, empty, taken]
  · simp only [equal, false_and, if_false]
    split
    · rfl
    · split
      · rfl
      · rw [Instrument.value_setValue]
        simp [equal]

theorem rest_mergeField (kept merged : Instrument) (take : List Field) (stays : Instrument) (field : Field) :
    (mergeField kept merged take stays field).identifiers = stays.identifiers ∧
      (mergeField kept merged take stays field).offers = stays.offers ∧
      (mergeField kept merged take stays field).listedTerms = stays.listedTerms ∧
      (mergeField kept merged take stays field).instrumentId = stays.instrumentId := by
  unfold mergeField
  dsimp only
  split
  · exact ⟨rfl, rfl, rfl, rfl⟩
  · split
    · exact ⟨rfl, rfl, rfl, rfl⟩
    · cases field <;> exact ⟨rfl, rfl, rfl, rfl⟩

/-- What a merge leaves of the record that stays, some of its fields filled so far. -/
structure MergedIn (kept merged : Instrument) (take : List Field) (start : Instrument) (fields : List Field)
    (stays : Instrument) : Prop where
  value : ∀ field, stays.value field =
    if field ∈ fields ∧ takes kept merged take field = true then merged.value field else start.value field
  identifiers : stays.identifiers = start.identifiers
  offers : stays.offers = start.offers
  terms : stays.listedTerms = start.listedTerms
  instrumentId : stays.instrumentId = start.instrumentId

theorem mergedIn_foldl (take : List Field) {start : Instrument} (same : ∀ field, start.value field = kept.value field)
    {fields : List Field} (within : ∀ field ∈ fields, field ∈ mergedFields) (once : fields.Nodup) :
    MergedIn kept merged take start fields (fields.foldl (mergeField kept merged take) start) := by
  induction fields using List.reverseRecOn with
  | nil => exact ⟨fun field => by simp, rfl, rfl, rfl, rfl⟩
  | append_singleton rest field ih =>
    have before := ih (fun other member => within other (List.mem_append_left _ member)) (List.nodup_append.mp once).1
    have own := within field (List.mem_append_right _ (List.mem_singleton.mpr rfl))
    have apart : field ∉ rest := fun member =>
      (List.nodup_append.mp once).2.2 field member field (List.mem_singleton.mpr rfl) rfl
    have settable : field ≠ .identifier ∧ field ≠ .term := by
      revert own
      clear * -
      revert field
      decide
    rw [List.foldl_append, List.foldl_cons, List.foldl_nil]
    generalize rest.foldl (mergeField kept merged take) start = stays at before ⊢
    have unset : stays.value field = kept.value field := by
      rw [before.value field]
      simp [apart, same]
    obtain ⟨identifiers, offers, terms, instrumentId⟩ := rest_mergeField kept merged take stays field
    refine ⟨fun other => ?_, identifiers.trans before.identifiers, offers.trans before.offers, terms.trans before.terms,
      instrumentId.trans before.instrumentId⟩
    rw [mergeField_eq kept merged take stays field unset settable other, before.value other]
    by_cases equal : other = field
    · subst equal
      simp [apart]
    · simp [equal]

theorem pushes_mergeIdentifiers (take : List Field) :
    Pushes kept (mergeIdentifiers kept merged) (mergeBrought kept merged take).identifiers := by
  refine pushes_foldl (fun next each => next.holds each.asked = true) id merged.heldNow
    fun each member next before apart _ => List.mem_filter.mpr ⟨List.mem_map_of_mem member, ?_⟩
  cases held : kept.holds each.asked with
  | false => simp [held]
  | true => exact absurd (before.keeps held) apart

theorem stepped_mergeStays (offered : Offered termAt kept) (from_ : Offered termAt merged) {take : List Field}
    (unoffered : Unoffered termAt kept (mergeBrought kept merged take)) (quiet : Quiet kept merged.offers) :
    Stepped termAt kept (mergeStays termAt kept merged take nowNs) [] ∧
      Moves termAt merged.offers (mergeStays termAt kept merged take nowNs) [] := by
  have pushes : Pushes kept (mergeIdentifiers kept merged) _ := pushes_mergeIdentifiers take
  have fills : MergedIn kept merged take _ mergedFields _ := mergedIn_foldl take (fun field => pushes.value field)
    (fun _ member => member) (by decide)
  unfold mergeStays
  dsimp only
  generalize mergedFields.foldl (mergeField kept merged take) (mergeIdentifiers kept merged) = stays at fills ⊢
  have holds (asked : Asked) : stays.holds asked = (mergeIdentifiers kept merged).holds asked := by
    unfold Instrument.holds
    rw [fills.identifiers]
  have brings : Brings kept stays (mergeBrought kept merged take) := by
    refine ⟨fun asked _ holding => ?_, fun asked _ holding => ?_, fun field => ?_, ?_, ?_⟩
    · rw [holds] at holding
      exact pushes.holds holding
    · rw [holds]
      exact pushes.keeps holding
    · rw [fills.value field]
      split
      · next taken => exact Or.inr (List.mem_map.mpr ⟨field, List.mem_filter.mpr taken, rfl⟩)
      · exact Or.inl (pushes.value field)
    · have kind : stays.value .instrumentType = _ := fills.value .instrumentType
      rw [pushes.value .instrumentType] at kind
      simpa [mergedFields, Instrument.value, mergeBrought] using kind
    · exact fills.terms.trans pushes.rest.2.1
  have stands : stays.offers = kept.offers := fills.offers.trans pushes.rest.1
  have before := offered.brings unoffered brings stands
  have alike : Alike { (keepOffers termAt stays merged.offers).1 with version := kept.version + 1, recordTimeNs := nowNs }
      (keepOffers termAt stays merged.offers).1 := ⟨fun _ => rfl, fun field => by cases field <;> rfl, rfl, rfl⟩
  have quiet' : Quiet stays merged.offers := fun held member => quiet held (stands ▸ member)
  obtain ⟨keeps, moves⟩ := keeps_moved from_ rfl quiet'
  rw [List.append_nil] at keeps moves
  refine ⟨⟨(offered_keepOffers before from_.sayable).of_alike alike, (keeps.of_offers stands).of_alike alike⟩,
    fun offer member => ?_⟩
  rcases moves offer member with stands | inForce | renewed
  · exact Or.inl stands
  · exact Or.inr (Or.inl ((alike.saysInForce offer).trans inForce))
  · exact Or.inr (Or.inr renewed)

/-- Offers kept on a record, and nothing else of it that an offer is told of. -/
theorem stepped_kept (offered : Offered termAt record) (sayable : ∀ offer ∈ offers, Sayable offer)
    (alike : Alike next (keepOffers termAt record offers).1) : Stepped termAt record next offers :=
  ⟨(offered_keepOffers offered sayable).of_alike alike, (keeps_keepOffers record offers).of_alike alike⟩

theorem sayable_of_valued {offer : Offer} (named : offer.field ≠ .identifier) (term : offer.field ≠ .term) :
    Sayable offer := ⟨fun same => absurd same named, fun same => absurd same term⟩

theorem sayable_identifierOffers {offer : Offer} {identifier : WireIdentifier} :
    ∀ each ∈ identifierOffers record offer identifier, Sayable each := by
  intro each member
  unfold identifierOffers at member
  dsimp only at member
  have named {asked : Asked} (among : asked.source = "" ∧ asked.scheme ∈ openSchemes ∧ asked.scheme ≠ globalId) :
      asked.scheme ≠ localScheme ∧ asked.scheme ≠ globalId := by
    refine ⟨fun same => ?_, among.2.2⟩
    have listed := among.2.1
    rw [same] at listed
    revert listed
    decide
  split at member
  · next among =>
    split at member
    · split at member
      · obtain rfl := List.mem_singleton.mp member
        exact ⟨fun _ asked same => Option.some.inj same ▸ named among, fun same => by cases same⟩
      · exact absurd member List.not_mem_nil
    · obtain rfl := List.mem_singleton.mp member
      exact ⟨fun _ asked same => Option.some.inj same ▸ named among, fun same => by cases same⟩
  · exact absurd member List.not_mem_nil

theorem sayable_answerOffers (record : Instrument) (answer : InstrumentRecord) (contract : Option String) (nowNs : Int) :
    ∀ offer ∈ answerOffers record answer contract nowNs, Sayable offer := by
  intro offer member
  unfold answerOffers at member
  simp only [List.mem_append, List.mem_ite_nil_right, List.mem_singleton] at member
  rcases member with ((((⟨-, rfl⟩ | ⟨-, rfl⟩) | ⟨-, rfl⟩) | ⟨-, rfl⟩) | ⟨-, named⟩) | identifiers
  · exact sayable_of_valued (by simp) (by simp)
  · exact sayable_of_valued (by simp) (by simp)
  · exact sayable_of_valued (by simp) (by simp)
  · exact sayable_of_valued (by simp) (by simp)
  · obtain ⟨text, -, rfl⟩ := List.mem_map.mp named
    exact sayable_of_valued (by simp) (by simp)
  · obtain ⟨identifier, -, offering⟩ := List.mem_flatMap.mp identifiers
    exact sayable_identifierOffers offer offering

theorem templateOffer_spec {instanceId : String} {field : TemplateField} {offer : Offer}
    (read : templateOffer instanceId nowNs field = some offer) : Sayable offer ∧ offer.instanceId = instanceId := by
  unfold templateOffer at read
  dsimp only at read
  split at read
  · cases read
  · split at read
    · cases read
    · next said =>
      cases read
      exact ⟨⟨fun same => (by cases same), fun _ => said⟩, rfl⟩
  · next target notTerm found =>
    cases read
    refine ⟨sayable_of_valued (fun same => ?_) fun same => notTerm same, rfl⟩
    dsimp only at same
    subst same
    unfold templateTarget at found
    split at found <;> try cases found
    split at found <;> try cases found
    split at found <;> try cases found
    split at found <;> try cases found
    split at found <;> cases found

/-- A plugin's offer of a template's fields: each that stood stands, or was offered anew, its group's rows together. -/
theorem stepped_template (offered : Offered termAt record) (instanceId : String) (fields : List TemplateField)
    (repeated : List String)
    (alike : Alike next (keepOffers termAt { record with
      offers := record.offers.filter fun held =>
        !droppedRow instanceId repeated (fields.filterMap (templateOffer instanceId nowNs)) held }
      (fields.filterMap (templateOffer instanceId nowNs))).1) :
    Stepped termAt record next (fields.filterMap (templateOffer instanceId nowNs)) := by
  have each : ∀ offer ∈ fields.filterMap (templateOffer instanceId nowNs), Sayable offer ∧ offer.instanceId = instanceId := by
    intro offer member
    obtain ⟨field, -, read⟩ := List.mem_filterMap.mp member
    exact templateOffer_spec read
  generalize fields.filterMap (templateOffer instanceId nowNs) = offering at each alike ⊢
  have left : Offered termAt { record with
      offers := record.offers.filter fun held => !droppedRow instanceId repeated offering held } := by
    refine ⟨fun offer member => ?_, fun offer member => ?_, fun offer member other member' => ?_⟩
    · rw [saysInForce_offers]
      exact offered.standing offer (List.mem_filter.mp member).1
    · exact offered.sayable offer (List.mem_filter.mp member).1
    · exact offered.apart offer (List.mem_filter.mp member).1 other (List.mem_filter.mp member').1
  have kept := stepped_kept left (fun offer member => (each offer member).1) alike
  refine ⟨kept.offered, fun offer member => ?_⟩
  cases dropped : droppedRow instanceId repeated offering offer with
  | false => exact kept.keeps offer (List.mem_filter.mpr ⟨member, by simp [dropped]⟩)
  | true =>
    obtain ⟨owned, grouped⟩ := Bool.and_eq_true_iff.mp dropped
    obtain ⟨term, instance_⟩ := Bool.and_eq_true_iff.mp owned
    obtain ⟨new, among, row⟩ := List.any_eq_true.mp grouped
    refine Or.inr (Or.inr ⟨new, among, ?_⟩)
    have same : offer.instanceId = new.instanceId :=
      (of_decide_eq_true instance_).trans (each new among).2.symm
    simp only [Bool.and_eq_true, decide_eq_true_eq] at row
    simp [renews, regroups, row.1.1.1, row.1.2, same, of_decide_eq_true term]

end MeridianCore.Instruments
