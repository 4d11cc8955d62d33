import MeridianCore.Instruments.Merge

namespace MeridianCore.Instruments

/-- Whether an offer takes the place of another: of the same field, at the same path, from the same source. -/
def replacesOffer (offer held : Offer) : Bool :=
  offer.field ≠ .identifier && (held.field = offer.field && held.path = offer.path && held.instanceId = offer.instanceId &&
    (offer.instanceId ≠ "" || held.source = offer.source))

/-- Whether an offer of a term is of a row of the group another is of, from the same source. -/
def regroups (offer held : Offer) : Bool :=
  offer.field = .term && held.field = .term && held.instanceId = offer.instanceId &&
    begins held.path (topOf offer.path ++ "[")

/-- Whether an offer offers anew what another did. -/
def renews (offer held : Offer) : Bool := replacesOffer offer held || regroups offer held

/-- What an offer can be of: an identifier in a scheme the platform's are offered in, a term that states something. -/
structure Sayable (offer : Offer) : Prop where
  identifier : offer.field = .identifier → ∀ asked, offer.identifier = some asked →
    asked.scheme ≠ localScheme ∧ asked.scheme ≠ globalId
  term : offer.field = .term → offer.value ≠ ""

/-- No offer on a record is of what is in force, and none is in the place of another. -/
structure Offered (termAt : TermAt) (record : Instrument) : Prop where
  standing : ∀ offer ∈ record.offers, saysInForce termAt record offer = false
  sayable : ∀ offer ∈ record.offers, Sayable offer
  apart : ∀ offer ∈ record.offers, ∀ other ∈ record.offers, replacesOffer other offer = true → other = offer

/-- Every offer that stood on a record stands on it as it is next, or is in force there, or was offered anew. -/
def Keeps (termAt : TermAt) (before next : Instrument) (anew : List Offer) : Prop :=
  ∀ offer ∈ before.offers,
    offer ∈ next.offers ∨ saysInForce termAt next offer = true ∨ ∃ new ∈ anew, renews new offer = true

/-- Every offer moved to a record stands there, or is in force there, or was offered anew. -/
def Moves (termAt : TermAt) (offers : List Offer) (next : Instrument) (anew : List Offer) : Prop :=
  ∀ offer ∈ offers,
    (∃ held ∈ next.offers, held.sameAs offer = true) ∨ saysInForce termAt next offer = true ∨
      ∃ new ∈ anew, ∃ held, held.sameAs offer = true ∧ renews new held = true

variable {termAt : TermAt} {record before next : Instrument} {offer held other : Offer} {offers anew : List Offer}

theorem sameAs_refl (offer : Offer) : offer.sameAs offer = true := by
  simp [Offer.sameAs]

theorem renews_of_replaces (replaces : replacesOffer offer held = true) : renews offer held = true := by
  rw [renews, replaces, Bool.true_or]

theorem replacesOffer_symm (replaces : replacesOffer offer held = true) : replacesOffer held offer = true := by
  simp only [replacesOffer, Bool.and_eq_true, Bool.or_eq_true, decide_eq_true_eq] at replaces ⊢
  obtain ⟨named, ⟨⟨field, path⟩, inst⟩, source⟩ := replaces
  refine ⟨field ▸ named, ⟨⟨field.symm, path.symm⟩, inst.symm⟩, ?_⟩
  rcases source with plugin | words
  · exact Or.inl (inst ▸ plugin)
  · exact Or.inr words.symm

@[simp] theorem saysInForce_offers (standing : List Offer) :
    saysInForce termAt { record with offers := standing } offer = saysInForce termAt record offer := by
  unfold saysInForce
  cases offer.field <;> rfl

/-- What an offer tells of two records whose identifiers, values and terms are alike. -/
theorem saysInForce_congr (identifiers : ∀ asked, next.holds asked = record.holds asked)
    (values : ∀ field, next.value field = record.value field) (terms : next.listedTerms = record.listedTerms) :
    saysInForce termAt next offer = saysInForce termAt record offer := by
  have kind : next.instrumentType = record.instrumentType := values .instrumentType
  unfold saysInForce
  split
  · simp only [identifiers]
  · simp only [kind, terms]
  · rw [values]

/-- An offer kept: nothing where it is in force or stands, else put in place of what it replaces. -/
theorem keepOffer_cases (kept : Instrument × Bool) (offer : Offer) :
    (keepOffer termAt kept offer = kept ∧
      (saysInForce termAt kept.1 offer = true ∨ ∃ held ∈ kept.1.offers, held.sameAs offer = true)) ∨
    (keepOffer termAt kept offer =
        ({ kept.1 with offers := (kept.1.offers.filter fun held => !replacesOffer offer held) ++ [offer] }, true) ∧
      saysInForce termAt kept.1 offer = false ∧ ∀ held ∈ kept.1.offers, held.sameAs offer = false) := by
  unfold keepOffer
  split
  · next skipped =>
    refine Or.inl ⟨rfl, ?_⟩
    rcases Bool.or_eq_true_iff.mp skipped with inForce | stands
    · exact Or.inl inForce
    · exact Or.inr (List.any_eq_true.mp stands)
  · next kept' =>
    obtain ⟨unforced, unlike⟩ := Bool.or_eq_false_iff.mp (Bool.not_eq_true _ ▸ kept')
    refine Or.inr ⟨?_, unforced, fun held member => ?_⟩
    · have same : (if offer.field ≠ .identifier then
          kept.1.offers.filter fun held =>
            !(held.field = offer.field && held.path = offer.path && held.instanceId = offer.instanceId &&
              (offer.instanceId ≠ "" || held.source = offer.source))
          else kept.1.offers) = kept.1.offers.filter fun held => !replacesOffer offer held := by
        by_cases named : offer.field = .identifier
        · simp [replacesOffer, named]
        · simp [replacesOffer, named]
      rw [same]
    · exact Bool.eq_false_iff.mpr fun alike => List.any_eq_false.mp unlike held member alike

/-- What keeping offers leaves, over any number of them. -/
structure KeptBy (termAt : TermAt) (record : Instrument) (offers : List Offer) (next : Instrument) : Prop where
  same : next = { record with offers := next.offers }
  stays : ∀ offer ∈ record.offers, offer ∈ next.offers ∨ ∃ new ∈ offers, replacesOffer new offer = true
  came : ∀ offer ∈ next.offers, offer ∈ record.offers ∨ (offer ∈ offers ∧ saysInForce termAt record offer = false)
  apart : (∀ offer ∈ record.offers, ∀ other ∈ record.offers, replacesOffer other offer = true → other = offer) →
    ∀ offer ∈ next.offers, ∀ other ∈ next.offers, replacesOffer other offer = true → other = offer

theorem keptBy_foldl (offers : List Offer) (kept : Instrument × Bool) :
    KeptBy termAt kept.1 offers (offers.foldl (keepOffer termAt) kept).1 := by
  induction offers generalizing kept with
  | nil => exact ⟨rfl, fun _ member => Or.inl member, fun _ member => Or.inl member, fun apart => apart⟩
  | cons offer rest ih =>
    rw [List.foldl_cons]
    rcases keepOffer_cases kept offer with ⟨same, -⟩ | ⟨same, unforced, -⟩
    · rw [same]
      have after := ih kept
      refine ⟨after.same, fun held member => ?_, fun held member => ?_, after.apart⟩
      · rcases after.stays held member with stays | ⟨new, among, replaces⟩
        · exact Or.inl stays
        · exact Or.inr ⟨new, List.mem_cons_of_mem _ among, replaces⟩
      · rcases after.came held member with before | ⟨among, unforced⟩
        · exact Or.inl before
        · exact Or.inr ⟨List.mem_cons_of_mem _ among, unforced⟩
    · rw [same]
      have after := ih
        ({ kept.1 with offers := (kept.1.offers.filter fun held => !replacesOffer offer held) ++ [offer] }, true)
      refine ⟨after.same, fun held member => ?_, fun held member => ?_, fun apart => after.apart ?_⟩
      · cases replaces : replacesOffer offer held with
        | true => exact Or.inr ⟨offer, List.mem_cons_self, replaces⟩
        | false =>
          have left : held ∈ (kept.1.offers.filter fun held => !replacesOffer offer held) ++ [offer] :=
            List.mem_append_left _ (List.mem_filter.mpr ⟨member, by simp [replaces]⟩)
          rcases after.stays held left with stays | ⟨new, among, replaces⟩
          · exact Or.inl stays
          · exact Or.inr ⟨new, List.mem_cons_of_mem _ among, replaces⟩
      · rcases after.came held member with before | ⟨among, unforced⟩
        · rcases List.mem_append.mp before with earlier | own
          · exact Or.inl (List.mem_filter.mp earlier).1
          · rw [List.mem_singleton.mp own]
            exact Or.inr ⟨List.mem_cons_self, unforced⟩
        · exact Or.inr ⟨List.mem_cons_of_mem _ among, by simpa using unforced⟩
      · intro held member other member' replaces
        rcases List.mem_append.mp member with earlier | own
        · rcases List.mem_append.mp member' with earlier' | own'
          · exact apart held (List.mem_filter.mp earlier).1 other (List.mem_filter.mp earlier').1 replaces
          · rw [List.mem_singleton.mp own'] at replaces
            have left := (List.mem_filter.mp earlier).2
            rw [replaces] at left
            cases left
        · rcases List.mem_append.mp member' with earlier' | own'
          · rw [List.mem_singleton.mp own] at replaces
            have left := (List.mem_filter.mp earlier').2
            rw [replacesOffer_symm replaces] at left
            cases left
          · rw [List.mem_singleton.mp own, List.mem_singleton.mp own']

theorem keptBy_keepOffers (record : Instrument) (offers : List Offer) :
    KeptBy termAt record offers (keepOffers termAt record offers).1 := keptBy_foldl offers (record, false)

/-- Offers none of which takes another's place leave all that stood, and each stands or is in force. -/
theorem moves_foldl (offers : List Offer) (kept : Instrument × Bool)
    (quiet : ∀ held ∈ kept.1.offers ++ offers, ∀ offer ∈ offers, replacesOffer offer held = true →
      held.sameAs offer = true) :
    (∀ held ∈ kept.1.offers, held ∈ (offers.foldl (keepOffer termAt) kept).1.offers) ∧
      ∀ offer ∈ offers, (∃ held ∈ (offers.foldl (keepOffer termAt) kept).1.offers, held.sameAs offer = true) ∨
        saysInForce termAt kept.1 offer = true := by
  induction offers generalizing kept with
  | nil => exact ⟨fun _ member => member, fun _ member => absurd member List.not_mem_nil⟩
  | cons offer rest ih =>
    rw [List.foldl_cons]
    rcases keepOffer_cases kept offer with ⟨same, skipped⟩ | ⟨same, unforced, unlike⟩
    · rw [same]
      obtain ⟨stay, move⟩ := ih kept fun held member new among =>
        quiet held (by grind) new (List.mem_cons_of_mem _ among)
      refine ⟨stay, fun other member => ?_⟩
      rcases List.mem_cons.mp member with rfl | later
      · rcases skipped with inForce | ⟨held, stands, alike⟩
        · exact Or.inr inForce
        · exact Or.inl ⟨held, stay held stands, alike⟩
      · exact move other later
    · have left : (kept.1.offers.filter fun held => !replacesOffer offer held) = kept.1.offers := by
        refine List.filter_eq_self.mpr fun held member => ?_
        cases replaces : replacesOffer offer held with
        | false => rfl
        | true =>
          have alike := quiet held (List.mem_append_left _ member) offer List.mem_cons_self replaces
          rw [unlike held member] at alike
          cases alike
      rw [same, left]
      obtain ⟨stay, move⟩ := ih ({ kept.1 with offers := kept.1.offers ++ [offer] }, true) fun held member new among =>
        quiet held (by grind) new (List.mem_cons_of_mem _ among)
      refine ⟨fun held member => stay held (List.mem_append_left _ member), fun other member => ?_⟩
      rcases List.mem_cons.mp member with rfl | later
      · exact Or.inl ⟨other, stay other (List.mem_append_right _ (List.mem_singleton.mpr rfl)), sameAs_refl other⟩
      · simpa using move other later

theorem offered_keepOffers (offered : Offered termAt record) (sayable : ∀ offer ∈ offers, Sayable offer) :
    Offered termAt (keepOffers termAt record offers).1 := by
  have kept : KeptBy termAt record offers _ := keptBy_keepOffers record offers
  have alike (offer : Offer) : saysInForce termAt (keepOffers termAt record offers).1 offer = saysInForce termAt record offer := by
    rw [kept.same]
    exact saysInForce_offers _
  refine ⟨fun offer member => ?_, fun offer member => ?_, kept.apart offered.apart⟩
  · rw [alike]
    rcases kept.came offer member with before | ⟨-, unforced⟩
    · exact offered.standing offer before
    · exact unforced
  · rcases kept.came offer member with before | ⟨among, -⟩
    · exact offered.sayable offer before
    · exact sayable offer among

theorem keeps_keepOffers (record : Instrument) (offers : List Offer) :
    Keeps termAt record (keepOffers termAt record offers).1 offers := by
  intro offer member
  rcases (keptBy_keepOffers record offers).stays offer member with stays | ⟨new, among, replaces⟩
  · exact Or.inl stays
  · exact Or.inr (Or.inr ⟨new, among, renews_of_replaces replaces⟩)

theorem Keeps.refl (record : Instrument) (anew : List Offer) : Keeps termAt record record anew :=
  fun _ member => Or.inl member

/-- A record whose identifiers, values, terms and offers are another's. -/
structure Alike (next record : Instrument) : Prop where
  identifiers : ∀ asked, next.holds asked = record.holds asked
  values : ∀ field, next.value field = record.value field
  terms : next.listedTerms = record.listedTerms
  offers : next.offers = record.offers

theorem Alike.saysInForce (alike : Alike next record) (offer : Offer) :
    saysInForce termAt next offer = saysInForce termAt record offer :=
  saysInForce_congr alike.identifiers alike.values alike.terms

theorem Offered.of_alike (offered : Offered termAt record) (alike : Alike next record) : Offered termAt next := by
  refine ⟨fun offer member => ?_, fun offer member => ?_, ?_⟩
  · rw [alike.saysInForce]
    exact offered.standing offer (alike.offers ▸ member)
  · exact offered.sayable offer (alike.offers ▸ member)
  · rw [alike.offers]
    exact offered.apart

theorem Keeps.of_alike (keeps : Keeps termAt before record anew) (alike : Alike next record) :
    Keeps termAt before next anew := by
  intro offer member
  rcases keeps offer member with stays | inForce | replaced
  · exact Or.inl (alike.offers.symm ▸ stays)
  · exact Or.inr (Or.inl ((alike.saysInForce offer).trans inForce))
  · exact Or.inr (Or.inr replaced)

/-- A record with its class, its currency or its description set. -/
structure TakenFrom (record next : Instrument) : Prop where
  identifiers : next.identifiers = record.identifiers
  kind : next.instrumentType = record.instrumentType
  terms : next.listedTerms = record.listedTerms
  offers : next.offers = record.offers
  instrumentId : next.instrumentId = record.instrumentId

theorem takenFrom_setValue (record : Instrument) {field : Field} (applies : field ∈ pickerApplies) (text : String) :
    TakenFrom record (record.setValue field text) := by
  simp only [pickerApplies, List.mem_cons, List.not_mem_nil, or_false] at applies
  rcases applies with rfl | rfl | rfl <;> exact ⟨rfl, rfl, rfl, rfl, rfl⟩

theorem TakenFrom.trans {middle : Instrument} (first : TakenFrom record middle) (second : TakenFrom middle next) :
    TakenFrom record next :=
  ⟨second.identifiers.trans first.identifiers, second.kind.trans first.kind, second.terms.trans first.terms,
    second.offers.trans first.offers, second.instrumentId.trans first.instrumentId⟩

/-- What a resolve stated, taken: the picker's fields set, the rest left to be offered. -/
structure TakingOf (record : Instrument) (offers : List Offer) (taking : Taking) : Prop where
  taken : TakenFrom record taking.record
  offered : ∀ offer ∈ taking.offered, offer ∈ offers
  unapplied : taking.applied = [] → taking.record = record

theorem takingOf_foldl (offers : List Offer) (record : Instrument) :
    TakingOf record offers (offers.foldl Taking.take { record := record }) := by
  induction offers using List.reverseRecOn with
  | nil => exact ⟨⟨rfl, rfl, rfl, rfl, rfl⟩, fun _ member => member, fun _ => rfl⟩
  | append_singleton before offer ih =>
    rw [List.foldl_append, List.foldl_cons, List.foldl_nil]
    generalize before.foldl Taking.take { record := record } = taking at ih ⊢
    unfold Taking.take
    split
    · next applies =>
      have field : offer.field ∈ pickerApplies := by
        simp only [Instruments.applies, Bool.and_eq_true] at applies
        exact List.contains_iff_mem.mp applies.1.2
      refine ⟨ih.taken.trans (takenFrom_setValue _ field _), fun other member => ?_, fun none => ?_⟩
      · exact List.mem_append_left _ (ih.offered other member)
      · exact absurd none (List.append_ne_nil_of_right_ne_nil _ (List.cons_ne_nil _ _))
    · refine ⟨ih.taken, fun other member => ?_, ih.unapplied⟩
      rcases List.mem_append.mp member with earlier | own
      · exact List.mem_append_left _ (ih.offered other earlier)
      · exact List.mem_append_right _ own

/-- An offer of an identifier or a term is told of the same by what the picker's statement set. -/
theorem TakenFrom.saysInForce (taken : TakenFrom record next) (named : offer.field = .identifier ∨ offer.field = .term) :
    saysInForce termAt next offer = saysInForce termAt record offer := by
  have holds (asked : Asked) : next.holds asked = record.holds asked := by
    unfold Instrument.holds
    rw [taken.identifiers]
  unfold Instruments.saysInForce
  rcases named with identifier | term
  · simp only [identifier, holds]
  · simp only [term, taken.kind, taken.terms]

/-- A record a resolve's statement was taken onto: its offers stand, and each that stood stands or is in force. -/
structure StatedOn (termAt : TermAt) (record : Instrument) (offers : List Offer) (next : Instrument) : Prop where
  offered : Offered termAt next
  keeps : Keeps termAt record next offers
  identifiers : next.identifiers = record.identifiers
  kind : next.instrumentType = record.instrumentType
  terms : next.listedTerms = record.listedTerms
  came : ∀ offer ∈ next.offers, offer ∈ record.offers ∨ offer ∈ offers

theorem statedOn_takeStated (offered : Offered termAt record) (sayable : ∀ offer ∈ offers, Sayable offer) :
    StatedOn termAt record offers (takeStated termAt record offers).1 := by
  unfold takeStated
  dsimp only
  have taking := takingOf_foldl offers record
  generalize offers.foldl Taking.take { record := record } = taken at taking ⊢
  -- What is left after what is now in force is cleared.
  have cleared : ∃ standing, (if taken.applied ≠ [] then
        { taken.record with
          offers := taken.record.offers.filter fun held =>
            held.field = .identifier || taken.record.value held.field ≠ held.value }
      else taken.record) = { taken.record with offers := standing } ∧
      (∀ offer ∈ standing, offer ∈ record.offers ∧ saysInForce termAt taken.record offer = false) ∧
      ∀ offer ∈ record.offers, offer ∈ standing ∨ saysInForce termAt taken.record offer = true := by
    split
    · refine ⟨_, rfl, fun offer member => ?_, fun offer member => ?_⟩
      · obtain ⟨member, differs⟩ := List.mem_filter.mp member
        rw [taking.taken.offers] at member
        refine ⟨member, ?_⟩
        cases field : offer.field with
        | identifier => rw [taking.taken.saysInForce (Or.inl field)]; exact offered.standing offer member
        | term => rw [taking.taken.saysInForce (Or.inr field)]; exact offered.standing offer member
        | _ => simpa [saysInForce, field] using differs
      · by_cases left : (decide (offer.field = .identifier) || decide (taken.record.value offer.field ≠ offer.value)) = true
        · exact Or.inl (List.mem_filter.mpr ⟨taking.taken.offers ▸ member, left⟩)
        · right
          have notTerm : offer.field ≠ .term := fun term => by
            have said := (offered.sayable offer member).term term
            simp [term, Instrument.value, said.symm] at left
          cases field : offer.field <;> simp_all [saysInForce]
    · next none =>
      have same := taking.unapplied (not_not.mp none)
      rw [same]
      exact ⟨record.offers, rfl, fun offer member => ⟨member, offered.standing offer member⟩, fun _ member => Or.inl member⟩
  obtain ⟨standing, same, stands, kept⟩ := cleared
  rw [same]
  have base : Offered termAt { taken.record with offers := standing } := by
    refine ⟨fun offer member => ?_, fun offer member => ?_, fun offer member other member' => ?_⟩
    · rw [saysInForce_offers]
      exact (stands offer member).2
    · exact offered.sayable offer (stands offer member).1
    · exact offered.apart offer (stands offer member).1 other (stands other member').1
  have after : KeptBy termAt _ _ _ := keptBy_keepOffers { taken.record with offers := standing } taken.offered
  refine ⟨offered_keepOffers base fun offer member => sayable offer (taking.offered offer member), ?_, ?_, ?_, ?_,
    fun offer member => ?_⟩
  · intro offer member
    rcases kept offer member with stays | inForce
    · rcases after.stays offer stays with stays | ⟨new, among, replaces⟩
      · exact Or.inl stays
      · exact Or.inr (Or.inr ⟨new, taking.offered new among, renews_of_replaces replaces⟩)
    · right; left
      rw [after.same, saysInForce_offers, saysInForce_offers]
      exact inForce
  · rw [after.same]; exact taking.taken.identifiers
  · rw [after.same]; exact taking.taken.kind
  · rw [after.same]; exact taking.taken.terms
  · rcases after.came offer member with before | ⟨among, -⟩
    · exact Or.inl (stands offer before).1
    · exact Or.inr (taking.offered offer among)

theorem instrumentId_takeStated (record : Instrument) (offers : List Offer) :
    (takeStated termAt record offers).1.instrumentId = record.instrumentId := by
  have taking := (takingOf_foldl offers record).taken.instrumentId
  unfold takeStated
  dsimp only
  rw [(keptBy_keepOffers _ _).same]
  split
  · exact taking
  · exact taking

end MeridianCore.Instruments

namespace MeridianCore.Instruments

/-- What a step puts in force on a record: identifiers joined, values set, and the type and the terms it ends
with. -/
structure Brought where
  identifiers : List Asked := []
  values : List (Field × String) := []
  kind : String
  terms : String

/-- Whether what is brought onto a record is what an offer on it is of. -/
def Brought.meets (termAt : TermAt) (brought : Brought) (offer : Offer) : Bool :=
  match offer.field with
  | .identifier => offer.validUntilNs = 0 && offer.identifier.any fun asked => brought.identifiers.contains asked
  | .term =>
    (InstrumentType.read brought.kind).any fun kind => termAt kind brought.terms offer.path = some offer.value
  | field => brought.values.contains (field, offer.value)

/-- Nothing is brought onto a record that stands offered on it. -/
def Unoffered (termAt : TermAt) (record : Instrument) (brought : Brought) : Prop :=
  ∀ offer ∈ record.offers, brought.meets termAt offer = false

/-- No offer on a record is to end an identifier. -/
def Endless (record : Instrument) : Prop :=
  ∀ offer ∈ record.offers, offer.field = .identifier → offer.identifier.isSome → offer.validUntilNs = 0

/-- An identifier an offer can be of. -/
def Asked.offerable (asked : Asked) : Prop := asked.scheme ≠ localScheme ∧ asked.scheme ≠ globalId

variable {termAt : TermAt} {record before next : Instrument} {offer : Offer} {brought : Brought}

/-- What a step leaves of a record, but for what it brings. -/
structure Brings (record next : Instrument) (brought : Brought) : Prop where
  joined : ∀ asked : Asked, asked.offerable → next.holds asked = true → record.holds asked = true ∨ asked ∈ brought.identifiers
  kept : ∀ asked : Asked, asked.offerable → record.holds asked = true → next.holds asked = true
  values : ∀ field, next.value field = record.value field ∨ (field, next.value field) ∈ brought.values
  kind : next.instrumentType = brought.kind
  terms : next.listedTerms = brought.terms

/-- An offer of nothing that is brought stands where it stood. -/
theorem standing_of_brings (offered : Offered termAt record) (unoffered : Unoffered termAt record brought)
    (brings : Brings record next brought) : ∀ offer ∈ record.offers, saysInForce termAt next offer = false := by
  intro offer member
  have stood := offered.standing offer member
  have apart := unoffered offer member
  cases field : offer.field with
  | identifier =>
    simp only [saysInForce, Brought.meets, field] at stood apart ⊢
    cases named : offer.identifier with
    | none => rfl
    | some asked =>
      have offerable := (offered.sayable offer member).identifier field asked named
      rw [named] at stood apart
      simp only [Option.any_some, decide_eq_false_iff_not, Bool.and_eq_false_iff, List.contains_eq_mem] at stood apart ⊢
      by_cases adds : offer.validUntilNs = 0
      · have unheld : ¬ record.holds asked = true := fun holds => stood (by simp [holds, adds])
        rcases apart with ends | unbrought
        · exact absurd adds ends
        · intro told
          have holds : next.holds asked = true := by simpa [adds] using told
          rcases brings.joined asked offerable holds with held | brought
          · exact unheld held
          · exact unbrought brought
      · have holds : record.holds asked = true := by
          cases held : record.holds asked with
          | true => rfl
          | false => exact absurd (by simp [held, adds]) stood
        simp [brings.kept asked offerable holds, adds]
  | term => simpa only [saysInForce, Brought.meets, field, brings.kind, brings.terms] using apart
  | _ =>
    simp only [saysInForce, Brought.meets, field, decide_eq_false_iff_not, List.contains_eq_mem] at stood apart ⊢
    rcases brings.values offer.field with same | set
    · rw [field] at same
      rw [same]
      exact stood
    · rw [field] at set
      intro told
      exact apart (told ▸ set)

/-- A record with nothing brought that stands offered on it has its offers standing. -/
theorem Offered.brings (offered : Offered termAt record) (unoffered : Unoffered termAt record brought)
    (brings : Brings record next brought) (same : next.offers = record.offers) : Offered termAt next := by
  refine ⟨fun offer member => ?_, fun offer member => ?_, ?_⟩
  · exact standing_of_brings offered unoffered brings offer (same ▸ member)
  · exact offered.sayable offer (same ▸ member)
  · rw [same]
    exact offered.apart

end MeridianCore.Instruments
