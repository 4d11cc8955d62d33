import MeridianCore.Instruments.Agreed

namespace MeridianCore.Instruments

variable {termAt : TermAt} {held : Held} {nowNs : Int}

/-- Values fit together on a record that was not replaced. -/
def Fits (held : Held) (id : String) (value : Field → String) (holds : Asked → Prop) : Prop :=
  held.replacementOf id = none → Agreed value holds

/-- What a resolve joins to a record it meets, and what the picker states of it, fit. -/
def JoinsFit (held : Held) (request : ResolveIdentifierRequest) (instanceId : String) (nowNs : Int) : Prop :=
  ∀ found meeting record, met held request (askedBy request) = some ([found], meeting) → held.byId[found]? = some record →
    Fits held found (pickedUp record.value (stated request instanceId nowNs)) fun asked =>
      record.holds asked = true ∨ asked ∈ joining record (askedBy request) request.asOfNs

/-- The platform's record kept, with what the picker states of it, fits; and what a provisional record is stated. -/
def KeepsFit (held : Held) (asking : Asking) (said : PlatformSaid) (nowNs : Int) : Prop :=
  match said with
  | .record master =>
    (∀ record, held.byId[master.instrumentId]? = some record →
      Fits held master.instrumentId (pickedUp record.value (asking.stated nowNs)) fun asked =>
        record.holds asked = true ∨ asked ∈ (platformBrought held record asking.asked master).identifiers) ∧
    (held.byId[master.instrumentId]? = none →
      Agreed (pickedUp (masterStated master) (asking.stated nowNs)) (· ∈ platformIdentifiers asking.asked master))
  | _ => meetsMinimum asking.request = true → Agreed (pickedUp (fun _ => "") (asking.stated nowNs)) (· ∈ asking.asked)

/-- What a record is filled from where it is resolved into another, or starts one, fits. -/
def ResolvesFit (held : Held) (replacedId : String) (master : InstrumentRecord) : Prop :=
  ∀ replaced, held.byId[replacedId]? = some replaced → held.replacementOf replacedId = none →
    replacedId ≠ master.instrumentId →
      (held.byId[master.instrumentId]? = none →
        Agreed (filledIn replaced.value (masterValue master)) fun asked =>
          replaced.holds asked = true ∨ asked ∈ (candidateBrought replaced master).identifiers) ∧
      ∀ into, held.byId[master.instrumentId]? = some into →
        Fits held master.instrumentId (filledIn into.value replaced.value) fun asked =>
          into.holds asked = true ∨ asked ∈ (intoBrought into replaced).identifiers

def AnswersFit (held : Held) (instrumentId : String) (said : PlatformSaid) : Prop :=
  ∀ master record, said = .record master → held.byId[current held instrumentId]? = some record →
    record.oneId.provisional = true → ResolvesFit held (current held instrumentId) master

/-- A completion that changes a record leaves cash in the currency each code it holds names. -/
def CompletesFit (held : Held) (completion : InstrumentCompletion) : Prop :=
  ∀ record, current held completion.instrumentId = completion.instrumentId →
    held.byId[completion.instrumentId]? = some record → record.version = completion.againstVersion →
    completionProblems (Completing.takeAll held record completion.values) completion = [] →
    (Completing.takeAll held record completion.values).changed = true → CashAfter record completion.values

/-- What a merge fills and takes fits. -/
def MergesFit (held : Held) (request : MergeRequest) : Prop :=
  ∀ kept merged, held.byId[request.keptInstrumentId]? = some kept → held.byId[request.mergedInstrumentId]? = some merged →
    request.person ≠ "" → Text.trim request.note ≠ "" → request.keptInstrumentId ≠ request.mergedInstrumentId →
    held.replacementOf request.keptInstrumentId = none → held.replacementOf request.mergedInstrumentId = none →
    kept.version = request.keptVersion → merged.version = request.mergedVersion →
      Agreed (mergedIn kept merged request.takeFromMerged) fun asked =>
        kept.holds asked = true ∨ asked ∈ (mergeBrought kept merged request.takeFromMerged).identifiers

/-- A step whose values, as it fills, states or takes them, fit together. -/
def Concordant (deployment : Deployment) (label : Move) : Prop :=
  match label.event with
  | .resolve request instanceId => JoinsFit deployment.held request instanceId label.nowNs
  | .answerResolve place said _ _ _ =>
    ∀ asking, deployment.waiting[place]? = some asking → KeepsFit deployment.held asking said label.nowNs
  | .lateAnswer place said _ _ _ =>
    ∀ asking, deployment.late[place]? = some asking →
      if (resolveIdentifierReadOnly deployment.held asking.request).found then
        AnswersFit deployment.held (resolveIdentifierReadOnly deployment.held asking.request).instrumentId said
      else ∀ master, said = .record master → KeepsFit deployment.held asking said label.nowNs
  | .answer instrumentId said _ => AnswersFit deployment.held instrumentId said
  | .complete completion => CompletesFit deployment.held completion
  | .merge request => MergesFit deployment.held request
  | .makeLine instrumentId _ => ∀ record, deployment.held.byId[instrumentId]? = some record → isLine record = true →
      ResolvesFit deployment.held instrumentId { instrumentId := record.oneId.migrationAnswer }
  | .feed entry _ => deployment.held.feedCursor < entry.sequence → entry.expired = false → entry.decommissioned = false →
      begins entry.replacedBy "INS-" = true →
      ResolvesFit deployment.held entry.instrumentId { instrumentId := entry.replacedBy }
  | .platformAnswer _ _ _ | .templateFields _ _ _ _ | .bounds _ _ _ | .line _ _ | .holdBack _ => True

/-- Every record held is under its ID, and does not contradict itself where it was not replaced. -/
structure Concords (held : Held) : Prop where
  named : ∀ (id : String) record, held.byId[id]? = some record → record.instrumentId = id
  consistent : ∀ (id : String) record, held.byId[id]? = some record → held.replacementOf id = none → Consistent record

/-- Calls that write no record that contradicts itself, but one replaced. -/
def WritesConsistent (held : Held) (calls : List Call) : Prop :=
  ∀ call ∈ calls, ∀ record, call.record = some record → held.replacementOf record.instrumentId = none → Consistent record

theorem WritesConsistent.none : WritesConsistent held [] := fun _ member => absurd member List.not_mem_nil

theorem WritesConsistent.one {call : Call} {record : Instrument} (writes : call.record = some record)
    (consistent : held.replacementOf record.instrumentId = Option.none → Consistent record) : WritesConsistent held [call] := by
  intro each member other written
  obtain rfl := List.mem_singleton.mp member
  rw [writes] at written
  cases written
  exact consistent

theorem WritesConsistent.append {first second : List Call} (before : WritesConsistent held first)
    (after : WritesConsistent held second) : WritesConsistent held (first ++ second) := by
  intro call member
  rcases List.mem_append.mp member with earlier | later
  · exact before call earlier
  · exact after call later

theorem WritesConsistent.cons {call : Call} {rest : List Call} (before : WritesConsistent held [call])
    (after : WritesConsistent held rest) : WritesConsistent held (call :: rest) := before.append after

theorem open_of_call {call : Call} {id : String} (open_ : (held.call call).replacementOf id = none) :
    held.replacementOf id = none := by
  cases call with
  | replace replacedId replacedBy =>
    by_cases bare : held.replacementOf replacedId = none
    · rw [Held.call, Held.replace_fresh bare] at open_
      change (held.replacements.insert replacedId replacedBy)[id]? = none at open_
      rw [Std.ExtTreeMap.getElem?_insert] at open_
      split at open_
      · cases open_
      · exact open_
    · rw [Held.call, Held.replace_stands bare] at open_
      exact open_
  | mint candidate key => rwa [Held.replacementOf_call (Or.inl rfl)] at open_
  | write record expected => rwa [Held.replacementOf_call (Or.inl rfl)] at open_
  | readTo sequence => exact open_

theorem concords_call (concords : Concords held) {call : Call}
    (writes : ∀ record, call.record = some record → (held.call call).replacementOf record.instrumentId = none →
      Consistent record) : Concords (held.call call) := by
  cases written : call.record with
  | none =>
    have same : (held.call call).byId = held.byId := by
      cases call with
      | replace replacedId replacedBy => exact Held.byId_replace held replacedId replacedBy
      | readTo sequence => rfl
      | mint candidate key => cases written
      | write record expected => cases written
    refine ⟨fun id record found => ?_, fun id record found open_ => ?_⟩
    · exact concords.named id record (same ▸ found)
    · exact concords.consistent id record (same ▸ found) (open_of_call open_)
  | some record =>
    have other {id : String} (apart : record.instrumentId ≠ id) : (held.call call).byId[id]? = held.byId[id]? :=
      Held.byId_call_other fun each same => by
        rw [written] at same
        cases same
        exact apart
    refine ⟨fun id kept found => ?_, fun id kept found open_ => ?_⟩
    · by_cases own : record.instrumentId = id
      · rcases Held.byId_call_own held written with set | unset
        · rw [← own, set] at found
          cases found
          exact own
        · rw [← own, unset, own] at found
          exact concords.named id kept found
      · exact concords.named id kept (other own ▸ found)
    · by_cases own : record.instrumentId = id
      · rcases Held.byId_call_own held written with set | unset
        · rw [← own, set] at found
          cases found
          exact writes _ written (own ▸ open_)
        · rw [← own, unset, own] at found
          exact concords.consistent id kept found (open_of_call open_)
      · exact concords.consistent id kept (other own ▸ found) (open_of_call open_)

/-- However many of such calls the store made, its records fit. -/
theorem concords_calls {calls made : List Call} (concords : Concords held) (writes : WritesConsistent held calls)
    (first : made <+: calls) : Concords (held.calls made) := by
  have within : WritesConsistent held made := fun call member => writes call (first.subset member)
  clear writes first
  have grown : Concords (held.calls made) ∧
      ∀ id, (held.calls made).replacementOf id = none → held.replacementOf id = none := by
    induction made using List.reverseRecOn with
    | nil => exact ⟨concords, fun _ open_ => open_⟩
    | append_singleton rest call ih =>
      obtain ⟨before, open_⟩ := ih fun each member => within each (List.mem_append_left _ member)
      rw [calls_snoc]
      refine ⟨concords_call before fun record written bare => ?_, fun id bare => open_ id (open_of_call bare)⟩
      exact within call (List.mem_append_right _ (List.mem_singleton.mpr rfl)) record written (open_ _ (open_of_call bare))
  exact grown.1

/-- A record marked, or its offers kept. -/
theorem writes_alike {id : String} {before record : Instrument} {expected : Int} (concords : Concords held)
    (found : held.byId[id]? = some before) (same : record.instrumentId = before.instrumentId)
    (alike : ∀ field, record.value field = before.value field) (identifiers : record.identifiers = before.identifiers) :
    WritesConsistent held [.write record expected] := by
  refine .one rfl fun open_ => ?_
  rw [same, concords.named id before found] at open_
  refine Agreed.of_same (concords.consistent id before found open_) alike fun asked _ holding => ?_
  unfold Instrument.holds at holding ⊢
  rw [identifiers] at holding
  exact holding

theorem value_keepOffers (record : Instrument) (offers : List Offer) (field : Field) :
    (keepOffers termAt record offers).1.value field = record.value field := by
  rw [(keptBy_keepOffers record offers).same]
  cases field <;> rfl

theorem identifiers_keepOffers (record : Instrument) (offers : List Offer) :
    (keepOffers termAt record offers).1.identifiers = record.identifiers := by
  rw [(keptBy_keepOffers record offers).same]

theorem writes_resolveMatched (concords : Concords held) {request : ResolveIdentifierRequest} {instanceId : String}
    (fits : JoinsFit held request instanceId nowNs) :
    WritesConsistent held (resolveMatched termAt held request instanceId nowNs).2 := by
  unfold resolveMatched
  dsimp only
  split
  · exact .none
  · split
    · exact .none
    · next found meeting meets =>
      unfold joined
      split
      · exact .none
      · next record holds =>
        dsimp only
        split
        · exact .none
        · split
          · exact .none
          · refine .one rfl fun open_ => ?_
            have named : (takeStated termAt { record with
                identifiers := record.identifiers ++ (joining record (askedBy request) request.asOfNs).map (windowFor held) }
                (stated request instanceId nowNs)).1.instrumentId = found :=
              (instrumentId_takeStated _ _).trans (concords.named found record holds)
            have agreed := fits found meeting record meets holds (named ▸ open_)
            exact (consistent_joined asked_of_windows agreed).of_alike
              ⟨fun _ => rfl, fun field => by cases field <;> rfl, rfl, rfl⟩
    · exact .none

theorem writes_resolveUnmatched (concords : Concords held) {asking : Asking} {instrumentId : String}
    {said : PlatformSaid} {template : Option Template} {lacking : List String} (fits : KeepsFit held asking said nowNs) :
    WritesConsistent held (resolveUnmatched termAt held asking.request asking.asked asking.instanceId instrumentId nowNs
      said template lacking).2 := by
  have minting (short : meetsMinimum asking.request = true → Agreed (pickedUp (fun _ => "") (asking.stated nowNs))
      (· ∈ asking.asked)) (reason : ProvisionalReason) : WritesConsistent held
        (if meetsMinimum asking.request then mint termAt held asking.request asking.asked asking.instanceId instrumentId
          nowNs template reason else (missed .notFound, [])).2 := by
    split
    · next meets =>
      unfold mint
      dsimp only
      split <;> exact .one rfl fun _ => consistent_mintedCandidate (short meets)
    · exact .none
  cases said with
  | record master =>
    unfold resolveUnmatched keepPlatformRecord
    dsimp only
    split
    · next record found =>
      split
      · refine .one rfl fun open_ => ?_
        have named : (takeListedTerms (takeTradingCurrencies (takeStated termAt (joinPlatform held record asking.asked).1
            (stated asking.request asking.instanceId nowNs)).1 master).1 master).1.instrumentId = master.instrumentId := by
          rw [takeListedTerms_eq]
          exact (instrumentId_takeStated _ _).trans
            ((instrumentId_joinPlatform held record asking.asked master).trans (concords.named _ record found))
        exact consistent_platform (fits.1 record found (named ▸ open_))
      · exact .none
    · next absent => exact .one rfl fun _ => consistent_platformCandidate (fits.2 absent)
  | pending => exact minting fits _
  | unreachable => exact minting fits _
  | notAsked => exact minting fits _

theorem writes_resolveTo (concords : Concords held) {replacedId : String} {master : InstrumentRecord}
    {lacking : List String} (fits : ResolvesFit held replacedId master) :
    WritesConsistent held (resolveTo termAt held replacedId master lacking nowNs) := by
  unfold resolveTo
  split
  · exact .none
  · next open_ =>
    push Not at open_
    cases found : held.byId[replacedId]? with
    | none => exact .none
    | some replaced =>
      obtain ⟨fresh, joins⟩ := fits replaced found open_.1 open_.2
      have gone : Consistent (resolvedGone replaced nowNs) :=
        ((concords.consistent _ replaced found open_.1).of_closes (closes_closedAll replaced nowNs)).of_alike
          ⟨fun _ => rfl, fun field => by cases field <;> rfl, rfl, rfl⟩
      have rest : WritesConsistent held [.write (resolvedGone replaced nowNs) replaced.version,
          .replace replacedId master.instrumentId] := by
        refine WritesConsistent.cons (.one rfl fun _ => gone) fun call member record written => ?_
        obtain rfl := List.mem_singleton.mp member
        cases written
      refine WritesConsistent.cons ?_ rest
      cases holds : held.byId[master.instrumentId]? with
      | none => exact .one rfl fun _ => consistent_resolvedCandidate (fresh holds)
      | some into =>
        refine .one rfl fun bare => consistent_resolvedInto (joins into holds ?_)
        rwa [instrumentId_resolvedInto, concords.named _ into holds] at bare

theorem writes_applyAnswer (concords : Concords held) {instrumentId : String} {said : PlatformSaid} {lacking : List String}
    (fits : AnswersFit held instrumentId said) :
    WritesConsistent held (applyAnswer termAt held instrumentId said lacking nowNs) := by
  unfold applyAnswer
  dsimp only
  split
  · exact .none
  · next record found =>
    split
    · exact .none
    · next provisional =>
      cases said with
      | record master => exact writes_resolveTo concords (fits master record rfl found (by simpa using provisional))
      | pending =>
        dsimp only
        split
        · exact .none
        · exact writes_alike concords found rfl (fun field => by cases field <;> rfl) rfl
      | unreachable => exact .none
      | notAsked => exact .none

theorem writes_completeOne {completion : InstrumentCompletion} (fits : CompletesFit held completion) :
    WritesConsistent held (completeOne held completion nowNs).2 := by
  unfold completeOne
  dsimp only
  split
  · exact .none
  · next before holds =>
    split at holds
    · next isCurrent =>
      rw [isCurrent] at holds
      split
      · exact .none
      · next same =>
        split
        · exact .none
        · next unwrong =>
          split
          · next changed =>
            have right := not_not.mp unwrong
            exact .one rfl fun _ => consistent_completed right (fits before isCurrent holds (not_not.mp same) right changed)
          · exact .none
    · cases holds

theorem writes_mergeAs (concords : Concords held) {request : MergeRequest} (fits : MergesFit held request) :
    WritesConsistent held (((mergeAs termAt held request nowNs).toOption).getD []) := by
  unfold mergeAs
  dsimp only
  split
  · exact .none
  · next person =>
    split
    · exact .none
    · next note =>
      split
      · exact .none
      · next open_ =>
        push Not at open_
        obtain ⟨apart, keptBare, mergedBare⟩ := open_
        split
        · next kept merged holdsKept holdsMerged =>
          split
          · exact .none
          · next versions =>
            push Not at versions
            have agreed := fits kept merged holdsKept holdsMerged person note apart keptBare mergedBare versions.1 versions.2
            have gone : Consistent (mergeGone merged nowNs) :=
              ((concords.consistent _ merged holdsMerged mergedBare).of_closes (closes_closedAll merged nowNs)).of_alike
                ⟨fun _ => rfl, fun field => by cases field <;> rfl, rfl, rfl⟩
            refine WritesConsistent.cons (.one rfl fun _ => consistent_mergeStays agreed)
              (WritesConsistent.cons (.one rfl fun _ => gone) fun call member record written => ?_)
            obtain rfl := List.mem_singleton.mp member
            cases written
        · exact .none

theorem writes_followed (concords : Concords held) {entry : FeedEntry} {lacking : List String}
    (fits : entry.expired = false → entry.decommissioned = false → begins entry.replacedBy "INS-" = true →
      ResolvesFit held entry.instrumentId { instrumentId := entry.replacedBy }) :
    WritesConsistent held (followed termAt held entry lacking nowNs) := by
  unfold followed
  split
  · exact .none
  · split
    · unfold expire
      split
      · exact .none
      · next record found =>
        split
        · exact .none
        · exact writes_alike concords found rfl (fun field => by cases field <;> rfl) rfl
    · next living =>
      split
      · unfold decommission
        split
        · exact .none
        · next record found =>
          split
          · exact .none
          · exact writes_alike concords found rfl (fun field => by cases field <;> rfl) rfl
      · next commissioned =>
        split
        · next replaced =>
          exact writes_resolveTo concords (fits (by simpa using living) (by simpa using commissioned) replaced)
        · exact .none

/-- A step whose values fit writes no record that contradicts itself. -/
theorem writes_event {deployment : Deployment} {label : Move} (concords : Concords deployment.held)
    (fits : Concordant deployment label) :
    WritesConsistent deployment.held (deployment.calls termAt label.event label.nowNs) := by
  obtain ⟨event, nowNs, made⟩ := label
  cases event with
  | resolve request instanceId => exact writes_resolveMatched concords fits
  | answerResolve place said instrumentId template lacking =>
    unfold Deployment.calls
    dsimp only
    split
    · next asking waits => exact writes_resolveUnmatched concords (fits asking waits)
    · exact .none
  | lateAnswer place said instrumentId template lacking =>
    unfold Deployment.calls
    dsimp only
    split
    · next asking late =>
      have fits := fits asking late
      unfold lateCalls
      dsimp only
      split at fits
      · next found =>
        rw [if_pos found]
        exact writes_applyAnswer concords fits
      · next missing =>
        rw [if_neg missing]
        cases said with
        | record master => exact writes_resolveUnmatched concords (fits master rfl)
        | pending => exact .none
        | unreachable => exact .none
        | notAsked => exact .none
    · exact .none
  | answer instrumentId said lacking => exact writes_applyAnswer concords fits
  | complete completion => exact writes_completeOne fits
  | merge request => exact writes_mergeAs concords fits
  | platformAnswer forInstrumentId answer contract =>
    change WritesConsistent _ (keepPlatformAnswer termAt _ _ _ _ _)
    unfold keepPlatformAnswer
    dsimp only
    split
    · exact .none
    · next before found =>
      split
      · exact writes_alike concords found (instrumentId_keepOffers _ _)
          (fun field => by rw [← @value_keepOffers termAt before _ field]; cases field <;> rfl)
          (identifiers_keepOffers before _)
      · exact .none
  | templateFields instrumentId instanceId fields repeated =>
    change WritesConsistent _ (offerTemplateFields termAt _ _ _ _ _ _)
    unfold offerTemplateFields
    dsimp only
    split
    · exact .none
    · next before found =>
      split
      · refine writes_alike concords found (instrumentId_keepOffers _ _) (fun field => ?_) (identifiers_keepOffers _ _)
        have kept := @value_keepOffers termAt { before with
          offers := before.offers.filter fun held =>
            !droppedRow instanceId repeated (fields.filterMap (templateOffer instanceId nowNs)) held }
          (fields.filterMap (templateOffer instanceId nowNs)) field
        cases field <;> exact kept
      · exact .none
  | bounds member instanceId contract =>
    change WritesConsistent _ (offerBounds termAt _ _ _ _ _)
    unfold offerBounds
    dsimp only
    split
    · exact .none
    · next before found =>
      split
      · exact .none
      · split
        · exact writes_alike concords found (instrumentId_keepOffers _ _)
            (fun field => by rw [← @value_keepOffers termAt before _ field]; cases field <;> rfl)
            (identifiers_keepOffers before _)
        · exact .none
  | line instrumentId line =>
    change WritesConsistent _ (lineOf _ _ _ _)
    unfold lineOf
    split
    · exact .none
    · next record found => exact writes_alike concords found rfl (fun field => by cases field <;> rfl) rfl
  | holdBack instrumentId =>
    change WritesConsistent _ (holdBack _ _ _)
    unfold holdBack
    split
    · exact .none
    · next record found =>
      split
      · exact .none
      · exact writes_alike concords found rfl (fun field => by cases field <;> rfl) rfl
  | makeLine instrumentId lacking =>
    change WritesConsistent _ (makeLine termAt _ _ _ _)
    unfold makeLine
    split
    · exact .none
    · next record found =>
      split
      · exact .none
      · next open_ =>
        push Not at open_
        exact writes_resolveTo concords (fits record found (by simpa using open_.2))
  | feed entry lacking =>
    change WritesConsistent _ (applyEntry termAt _ _ _ _)
    unfold applyEntry
    split
    · exact .none
    · next unread =>
      refine (writes_followed concords (fits (not_le.mp unread))).append fun call member record written => ?_
      obtain rfl := List.mem_singleton.mp member
      cases written

theorem concords_move {deployment next : Deployment} {label : Move} (concords : Concords deployment.held)
    (fits : Concordant deployment label) (moved : deployment.move termAt label = some next) : Concords next.held := by
  unfold Deployment.move at moved
  split at moved
  · cases moved
    refine concords_calls concords (@writes_event termAt deployment label concords fits) ?_
    unfold Deployment.made
    dsimp only
    split
    · exact List.prefix_refl _
    · exact List.take_prefix _ _
  · cases moved

theorem concords_nil : Concords {} := by
  refine ⟨fun id record found => ?_, fun id record found => ?_⟩
  · simp at found
  · simp at found

/-- A set nothing meets, or the platform's record for it kept: one whose class is its type's, and not cash. -/
def fitsPlainly (deployment : Deployment) : Event → Bool
  | .resolve request _ => !(met deployment.held request (askedBy request)).any fun found => found.1.length = 1
  | .answerResolve place (.record master) _ _ _ =>
    (deployment.waiting[place]?).all (fun asking => pickerPerson asking.instanceId = "") &&
      (deployment.held.byId[master.instrumentId]?).isNone && master.instrumentType.classOf = some master.assetClass &&
      master.assetClass ≠ .cash && master.binaryEventContract.isNone
  | _ => false

theorem pickedUp_unpicked {offers : List Offer} (unpicked : ∀ offer ∈ offers, pickerPerson offer.instanceId = "")
    (value : Field → String) : pickedUp value offers = value := by
  funext field
  unfold pickedUp
  split
  · next open_ =>
    have none_ : (offers.find? fun offer =>
        pickerPerson offer.instanceId ≠ "" && offer.field = field && offer.value ≠ "") = none := by
      refine List.find?_eq_none.mpr fun offer member => ?_
      simp [unpicked offer member]
    rw [none_, open_.1]
    rfl
  · rfl

theorem instanceId_of_stated {request : ResolveIdentifierRequest} {instanceId : String} :
    ∀ offer ∈ stated request instanceId nowNs, offer.instanceId = instanceId := by
  intro offer member
  unfold stated at member
  simp only [List.mem_append, List.mem_ite_nil_right, List.mem_singleton] at member
  rcases member with ((⟨-, rfl⟩ | ⟨-, rfl⟩) | ⟨-, rfl⟩) | ⟨-, rfl⟩
  · rfl
  · split <;> rfl
  · rfl
  · rfl

theorem name_injective {class_ other : AssetClass} (same : class_.name = other.name) : class_ = other := by
  cases class_ <;> cases other <;> first | rfl | exact absurd same (by decide)

theorem concordant_of_plain {deployment : Deployment} {label : Move} (plain : fitsPlainly deployment label.event = true) :
    Concordant deployment label := by
  obtain ⟨event, nowNs, made⟩ := label
  change fitsPlainly deployment event = true at plain
  unfold fitsPlainly at plain
  split at plain
  · next request instanceId =>
    intro found meeting record meets
    rw [meets] at plain
    simp at plain
  · next place master instrumentId template lacking =>
    simp only [Bool.and_eq_true, decide_eq_true_eq] at plain
    obtain ⟨⟨⟨⟨blotter, absent⟩, typed⟩, notCash⟩, bare⟩ := plain
    intro asking waits
    have absent := Option.isNone_iff_eq_none.mp absent
    refine ⟨fun record found => ?_, fun _ => ?_⟩
    · rw [absent] at found
      cases found
    · rw [waits] at blotter
      have unpicked : ∀ offer ∈ asking.stated nowNs, pickerPerson offer.instanceId = "" := fun offer member => by
        rw [instanceId_of_stated offer member]
        exact of_decide_eq_true blotter
      rw [pickedUp_unpicked unpicked]
      refine ⟨fun class_ under => ?_, fun attributes => absurd rfl attributes, fun attributes => ?_, fun isCash => ?_⟩
      · change (InstrumentType.ofText master.instrumentType.name).classOf = some class_ at under
        rw [InstrumentType.ofText_name, typed] at under
        cases under
        rfl
      · refine absurd ?_ attributes
        simp [masterStated, Option.isNone_iff_eq_none.mp bare]
      · exact absurd (name_injective isCash) notCash
  · cases plain

def movePlainly (termAt : TermAt) (deployment : Deployment) (label : Move) : Option Deployment :=
  if fitsPlainly deployment label.event then deployment.move termAt label else none

theorem movePlainly_some {deployment next : Deployment} {label : Move}
    (moved : movePlainly termAt deployment label = some next) :
    Concordant deployment label ∧ deployment.move termAt label = some next := by
  unfold movePlainly at moved
  split at moved
  · next plain => exact ⟨concordant_of_plain plain, moved⟩
  · cases moved

/-- A bond of the platform's, kept for a figi. -/
def bondKept : List Move := [
  { event := .resolve (figiStated "BBG000000002" "Acme 4% 2031") "blotter-1", nowNs := 3 }, {
    nowNs := 4
    event := .answerResolve 0 (.record {
      instrumentId := "INS-1"
      assetClass := .debt
      instrumentType := .bond }) "LCL-2" none [] }]

/-- The bond merged into a record the picker stated to be equity. -/
def bondIntoEquity : List Move :=
  keptAs { figiStated "BBG000000001" "Acme" with statedAssetClass := .equity } "the instrument picker for ann" "LCL-1" ++
    bondKept ++ [{
      nowNs := 5
      event := .merge {
        keptInstrumentId := "LCL-1"
        mergedInstrumentId := "INS-1"
        keptVersion := 1
        mergedVersion := 1
        note := "one security"
        person := "ann" } }]

end MeridianCore.Instruments
