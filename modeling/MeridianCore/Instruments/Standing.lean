import MeridianCore.Instruments.Offers

namespace MeridianCore.Instruments

variable {termAt : TermAt} {held : Held} {anew : List Offer} {nowNs : Int}

/-- However many of an event's calls the store made, its offers are kept. -/
theorem keeping_made (stands : Stands termAt held) {calls made : List Call} (shape : Shape termAt held anew calls)
    (first : made <+: calls) : Keeping termAt held (held.calls made) anew := by
  cases shape with
  | none =>
    obtain rfl := List.prefix_nil.mp first
    exact keeping_refl stands anew
  | one keeps =>
    rcases List.prefix_cons_iff.mp first with rfl | ⟨rest, rfl, more⟩
    · exact keeping_refl stands anew
    · obtain rfl := List.prefix_nil.mp more
      exact keeping_call stands keeps
  | replaced keeps writes written later isGone apart found moves =>
    rcases List.prefix_cons_iff.mp first with rfl | ⟨rest, rfl, second⟩
    · exact keeping_refl stands anew
    · rcases List.prefix_cons_iff.mp second with rfl | ⟨rest, rfl, third⟩
      · exact keeping_call stands keeps
      · rcases List.prefix_cons_iff.mp third with rfl | ⟨rest, rfl, more⟩
        · exact keeping_two stands keeps writes later rfl (isGone ▸ apart)
        · obtain rfl := List.prefix_nil.mp more
          exact keeping_replaced stands keeps writes written later isGone apart found moves

theorem calls_snoc (held : Held) (calls : List Call) (call : Call) : held.calls (calls ++ [call]) = (held.calls calls).call call := by
  simp [Held.calls]

/-- How far the feed was read says nothing of the records. -/
theorem Keeping.readTo {next : Held} (keeping : Keeping termAt held next anew) (sequence : Int) :
    Keeping termAt held (next.call (.readTo sequence)) anew :=
  ⟨keeping.stands, keeping.keeps, keeping.moves⟩

/-- Nothing joins a record that stands offered on it, where a resolve joins what it carried. -/
def JoinsUnoffered (termAt : TermAt) (held : Held) (request : ResolveIdentifierRequest) : Prop :=
  ∀ found meeting record, met held request (askedBy request) = some ([found], meeting) → held.byId[found]? = some record →
    (∀ each ∈ joining record (askedBy request) request.asOfNs, holders held each request.asOfNs found = []) →
      Unoffered termAt record (joinBrought record (askedBy request) request.asOfNs)

/-- Nothing the platform's record brings onto the record held under its ID stands offered there. -/
def KeepsUnoffered (termAt : TermAt) (held : Held) (asked : List Asked) (said : PlatformSaid) : Prop :=
  ∀ master record, said = .record master → held.byId[master.instrumentId]? = some record →
    Unoffered termAt record (platformBrought held record asked master)

/-- Nothing is brought onto the record an ID becomes that stands offered there, no offer moved there takes another's
place, and none is left to end an identifier on the record replaced. -/
def ResolvesUnoffered (termAt : TermAt) (held : Held) (replacedId : String) (master : InstrumentRecord) : Prop :=
  ∀ replaced, held.byId[replacedId]? = some replaced → held.replacementOf replacedId = none →
    replacedId ≠ master.instrumentId → Endless replaced ∧
      (held.byId[master.instrumentId]? = none → Unoffered termAt replaced (candidateBrought replaced master)) ∧
      ∀ into, held.byId[master.instrumentId]? = some into →
        Unoffered termAt into (intoBrought into replaced) ∧ Quiet into replaced.offers

def AnswersUnoffered (termAt : TermAt) (held : Held) (instrumentId : String) (said : PlatformSaid) : Prop :=
  ∀ master record, said = .record master → held.byId[current held instrumentId]? = some record →
    record.oneId.provisional = true → ResolvesUnoffered termAt held (current held instrumentId) master

/-- A completion that changes a record leaves in force what it takes off the offers, and none of a term it puts in
force. -/
def CompletesUnoffered (termAt : TermAt) (held : Held) (completion : InstrumentCompletion) : Prop :=
  ∀ record, current held completion.instrumentId = completion.instrumentId →
    held.byId[completion.instrumentId]? = some record → record.version = completion.againstVersion →
    completionProblems (Completing.takeAll held record completion.values) completion = [] →
    (Completing.takeAll held record completion.values).changed = true →
      ∀ offer ∈ record.offers, completesOffer termAt record completion.values offer = true

/-- Nothing a merge brings onto the record that stays stands offered there, no offer moved there takes another's
place, and none is left to end an identifier on the record merged. -/
def MergesUnoffered (termAt : TermAt) (held : Held) (request : MergeRequest) : Prop :=
  ∀ kept merged, held.byId[request.keptInstrumentId]? = some kept → held.byId[request.mergedInstrumentId]? = some merged →
    request.person ≠ "" → Text.trim request.note ≠ "" → request.keptInstrumentId ≠ request.mergedInstrumentId →
    held.replacementOf request.keptInstrumentId = none → held.replacementOf request.mergedInstrumentId = none →
    kept.version = request.keptVersion → merged.version = request.mergedVersion →
      Unoffered termAt kept (mergeBrought kept merged request.takeFromMerged) ∧ Quiet kept merged.offers ∧ Endless merged

/-- A step that puts in force nothing that stands offered, but where the offer is taken off. -/
def Unforced (termAt : TermAt) (deployment : Deployment) : Event → Prop
  | .resolve request _ => JoinsUnoffered termAt deployment.held request
  | .answerResolve place said _ _ _ =>
    ∀ asking, deployment.waiting[place]? = some asking → KeepsUnoffered termAt deployment.held asking.asked said
  | .lateAnswer place said _ _ _ =>
    ∀ asking, deployment.late[place]? = some asking →
      if (resolveIdentifierReadOnly deployment.held asking.request).found then
        AnswersUnoffered termAt deployment.held (resolveIdentifierReadOnly deployment.held asking.request).instrumentId said
      else KeepsUnoffered termAt deployment.held asking.asked said
  | .answer instrumentId said _ => AnswersUnoffered termAt deployment.held instrumentId said
  | .complete completion => CompletesUnoffered termAt deployment.held completion
  | .merge request => MergesUnoffered termAt deployment.held request
  | .makeLine instrumentId _ => ∀ record, deployment.held.byId[instrumentId]? = some record → isLine record = true →
      ResolvesUnoffered termAt deployment.held instrumentId { instrumentId := record.oneId.migrationAnswer }
  | .feed entry _ => deployment.held.feedCursor < entry.sequence → entry.expired = false → entry.decommissioned = false →
      begins entry.replacedBy "INS-" = true →
      ResolvesUnoffered termAt deployment.held entry.instrumentId { instrumentId := entry.replacedBy }
  | .platformAnswer _ _ _ | .templateFields _ _ _ _ | .bounds _ _ _ | .line _ _ | .holdBack _ => True

/-- What a resolution to the platform's record offers anew on the record the ID becomes. -/
def resolvedAnew (held : Held) (replacedId : String) (master : InstrumentRecord) (nowNs : Int) : List Offer :=
  match held.byId[replacedId]? with
  | none => []
  | some replaced =>
    match held.byId[master.instrumentId]? with
    | none => statedOffers (platformWords master) nowNs (masterValue master)
    | some _ => statedOffers (resolvedWords replaced) nowNs replaced.value

/-- What an answer of the platform's offers anew. -/
def answerAnew (held : Held) (instrumentId : String) (nowNs : Int) : PlatformSaid → List Offer
  | .record master => resolvedAnew held (current held instrumentId) master nowNs
  | .pending | .unreachable | .notAsked => []

def Asking.stated (asking : Asking) (nowNs : Int) : List Offer := Instruments.stated asking.request asking.instanceId nowNs

/-- What a step offers anew. -/
def offeredIn (deployment : Deployment) (nowNs : Int) : Event → List Offer
  | .resolve request instanceId => stated request instanceId nowNs
  | .answerResolve place _ _ _ _ => ((deployment.waiting[place]?).map fun asking => asking.stated nowNs).getD []
  | .lateAnswer place said _ _ _ =>
    match deployment.late[place]? with
    | some asking =>
      if (resolveIdentifierReadOnly deployment.held asking.request).found then
        answerAnew deployment.held (resolveIdentifierReadOnly deployment.held asking.request).instrumentId nowNs said
      else asking.stated nowNs
    | none => []
  | .answer instrumentId said _ => answerAnew deployment.held instrumentId nowNs said
  | .platformAnswer forInstrumentId answer contract =>
    ((deployment.held.byId[current deployment.held forInstrumentId]?).map fun record =>
      answerOffers record answer contract nowNs).getD []
  | .templateFields _ instanceId fields _ => fields.filterMap (templateOffer instanceId nowNs)
  | .bounds _ instanceId contract => [boundsOffer instanceId contract nowNs]
  | .makeLine instrumentId _ =>
    ((deployment.held.byId[instrumentId]?).map fun record =>
      resolvedAnew deployment.held instrumentId { instrumentId := record.oneId.migrationAnswer } nowNs).getD []
  | .feed entry _ => resolvedAnew deployment.held entry.instrumentId { instrumentId := entry.replacedBy } nowNs
  | .complete _ | .merge _ | .line _ _ | .holdBack _ => []

/-- A record written as its next version. -/
theorem shape_write {id : String} {before record : Instrument} {expected : Int} (stands : Stands termAt held)
    (found : held.byId[id]? = some before) (same : record.instrumentId = before.instrumentId)
    (stepped : Stepped termAt before record anew) : Shape termAt held anew [.write record expected] := by
  refine .one ⟨before, ?_, stepped⟩
  rw [same, (stands id before found).1]
  exact found

theorem instrumentId_keepOffers (record : Instrument) (offers : List Offer) :
    (keepOffers termAt record offers).1.instrumentId = record.instrumentId := by
  rw [(keptBy_keepOffers record offers).same]

theorem instrumentId_closedAll (record : Instrument) (nowNs : Int) :
    (closedAll record nowNs).instrumentId = record.instrumentId := by
  obtain ⟨identifiers, same⟩ := (closes_closedAll record nowNs).rest
  rw [same]

theorem instrumentId_withMasterValues (record : Instrument) (master : InstrumentRecord) :
    (withMasterValues record master).instrumentId = record.instrumentId := by
  unfold withMasterValues
  induction masterValues master using List.reverseRecOn with
  | nil => rfl
  | append_singleton rest stated ih =>
    rw [List.foldl_append, List.foldl_cons, List.foldl_nil]
    split
    · exact ih
    · exact (Instrument.instrumentId_setValue _ _ _).trans ih

theorem instrumentId_platformCandidate (held : Held) (asked : List Asked) (master : InstrumentRecord)
    (template : Option Template) (offers : List Offer) (lacking : List String) :
    (platformCandidate termAt held asked master template offers lacking nowNs).instrumentId = master.instrumentId := by
  unfold platformCandidate
  dsimp only
  rw [instrumentId_takeStated]
  cases master.binaryEventContract <;> rw [takeListedTerms_eq] <;> exact instrumentId_withMasterValues _ _

theorem instrumentId_joinPlatform (held : Held) (record : Instrument) (asked : List Asked) (master : InstrumentRecord) :
    (joinPlatform held record asked).1.instrumentId = record.instrumentId :=
  (pushes_joinPlatform held record asked master).rest.2.2.2

theorem shape_resolveMatched (stands : Stands termAt held) {request : ResolveIdentifierRequest} {instanceId : String}
    (unoffered : JoinsUnoffered termAt held request) :
    Shape termAt held (stated request instanceId nowNs) (resolveMatched termAt held request instanceId nowNs).2 := by
  unfold resolveMatched
  dsimp only
  split
  · exact .none
  · split
    · exact .none
    · next found meeting meets =>
      unfold joined
      split
      · exact .none
      · next record holds =>
        dsimp only
        split
        · exact .none
        · next alone =>
          split
          · exact .none
          · have joins := unoffered found meeting record meets holds fun each member => by
              have empty := List.any_eq_false.mp (Bool.not_eq_true _ ▸ alone) each member
              simpa using empty
            have sayable : ∀ offer ∈ stated request instanceId nowNs, Sayable offer := fun offer member =>
              sayable_of_resolved (field_of_stated offer member)
            have stepped := @stepped_joined termAt held record _ (stands found record holds).2 sayable _ _ joins
            exact shape_write stands holds (instrumentId_takeStated _ _) (stepped.of_alike
              ⟨fun _ => rfl, fun field => by cases field <;> rfl, rfl, rfl⟩)
    · exact .none

theorem shape_keepPlatformRecord (stands : Stands termAt held) {asked : List Asked} {master : InstrumentRecord}
    {template : Option Template} {offers : List Offer} {lacking : List String}
    (fields : ∀ offer ∈ offers, offer.field ∈ resolvedFields)
    (unoffered : ∀ record, held.byId[master.instrumentId]? = some record →
      Unoffered termAt record (platformBrought held record asked master)) :
    Shape termAt held offers (keepPlatformRecord termAt held asked master template offers lacking nowNs).2 := by
  unfold keepPlatformRecord
  split
  · next record found =>
    dsimp only
    split
    · have stepped := stepped_platform (stands _ record found).2 fields (unoffered record found)
      refine shape_write stands found ?_ (stepped.of_alike ⟨fun _ => rfl, fun field => by cases field <;> rfl, rfl, rfl⟩)
      dsimp only
      rw [takeListedTerms_eq]
      exact (instrumentId_takeStated _ _).trans (instrumentId_joinPlatform held record asked master)
    · exact .none
  · next absent =>
    dsimp only
    refine .one ⟨?_, offered_platformCandidate asked template fields lacking⟩
    rw [instrumentId_platformCandidate]
    exact absent

theorem shape_mint (instrumentId : String) (absent : held.byId[instrumentId]? = none) (request : ResolveIdentifierRequest)
    (asked : List Asked) (instanceId : String) (template : Option Template) (reason : ProvisionalReason) :
    Shape termAt held anew (mint termAt held request asked instanceId instrumentId nowNs template reason).2 := by
  have same : (mintedCandidate termAt held request asked instanceId instrumentId nowNs template reason).instrumentId =
      instrumentId := instrumentId_takeStated _ _
  have keeps : CallKeeps termAt held anew (.mint
      (mintedCandidate termAt held request asked instanceId instrumentId nowNs template reason)
      (mintKey (mintedCandidate termAt held request asked instanceId instrumentId nowNs template reason).identifiers
        asked)) :=
    ⟨same.symm ▸ absent, offered_mintedCandidate request asked instanceId instrumentId template reason⟩
  unfold mint
  dsimp only
  split <;> exact .one keeps

theorem shape_resolveUnmatched (stands : Stands termAt held) {request : ResolveIdentifierRequest} {asked : List Asked}
    {instanceId instrumentId : String} {said : PlatformSaid} {template : Option Template} {lacking : List String}
    (unoffered : KeepsUnoffered termAt held asked said) (absent : held.byId[instrumentId]? = none) :
    Shape termAt held (stated request instanceId nowNs)
      (resolveUnmatched termAt held request asked instanceId instrumentId nowNs said template lacking).2 := by
  cases said with
  | record master =>
    exact shape_keepPlatformRecord stands field_of_stated fun record found => unoffered master record rfl found
  | _ =>
    unfold resolveUnmatched
    dsimp only
    split
    · exact shape_mint instrumentId absent request asked instanceId template _
    · exact .none

theorem instrumentId_linked (held : Held) (record replaced : Instrument) :
    (linked held record replaced).instrumentId = record.instrumentId := by
  unfold linked
  split <;> rfl

theorem instrumentId_resolvedInto (held : Held) (into replaced : Instrument) (nowNs : Int) :
    (resolvedInto termAt held into replaced nowNs).instrumentId = into.instrumentId := by
  have pushes : Pushes (linked held into replaced) (joinedBy (linked held into replaced) replaced)
      (intoBrought (linked held into replaced) replaced).identifiers := pushes_joinedBy fun _ holds => holds
  have fills := filled_resolved (resolvedWords replaced) nowNs replaced.value
    (joinedBy (linked held into replaced) replaced, replaced.offers)
  calc (resolvedInto termAt held into replaced nowNs).instrumentId
      = _ := instrumentId_keepOffers _ _
    _ = (joinedBy (linked held into replaced) replaced).instrumentId := fills.instrumentId
    _ = (linked held into replaced).instrumentId := pushes.rest.2.2.2
    _ = into.instrumentId := instrumentId_linked held into replaced

theorem instrumentId_resolvedCandidate (held : Held) (replaced : Instrument) (master : InstrumentRecord)
    (lacking : List String) (nowNs : Int) :
    (resolvedCandidate termAt held replaced master lacking nowNs).instrumentId = master.instrumentId := by
  have based : (resolvedBase held replaced master lacking nowNs).instrumentId = master.instrumentId := by
    unfold resolvedBase
    rw [instrumentId_linked, takeListedTerms_eq]
    rfl
  have named : (resolvedNamed held (resolvedBase held replaced master lacking nowNs) master).instrumentId =
      (resolvedBase held replaced master lacking nowNs).instrumentId := by
    have pushes : Pushes (resolvedBase held replaced master lacking nowNs)
        (resolvedNamed held (resolvedBase held replaced master lacking nowNs) master) (masterIdentifiers master) :=
      pushes_foldl (fun next each => next.carries each = true) (windowFor held) (masterIdentifiers master)
        fun each member _ _ _ _ => member
    exact pushes.rest.2.2.2
  have fills := filled_resolved (platformWords master) nowNs (masterValue master)
    (resolvedNamed held (resolvedBase held replaced master lacking nowNs) master, [])
  unfold resolvedCandidate
  dsimp only
  rw [instrumentId_keepOffers, masterValues_eq]
  unfold venued
  split <;> exact fills.instrumentId.trans (named.trans based)

theorem shape_resolveTo (stands : Stands termAt held) {replacedId : String} {master : InstrumentRecord}
    {lacking : List String} (unoffered : ResolvesUnoffered termAt held replacedId master) :
    Shape termAt held (resolvedAnew held replacedId master nowNs)
      (resolveTo termAt held replacedId master lacking nowNs) := by
  unfold resolveTo
  split
  · exact .none
  · next open_ =>
    push Not at open_
    cases found : held.byId[replacedId]? with
    | none => exact .none
    | some replaced =>
      obtain ⟨endless, fresh, joins⟩ := unoffered replaced found open_.1 open_.2
      have isGone : (resolvedGone replaced nowNs).instrumentId = replacedId :=
        (instrumentId_closedAll replaced nowNs).trans (stands replacedId replaced found).1
      have gone (anew : List Offer) : CallKeeps termAt held anew (.write (resolvedGone replaced nowNs) replaced.version) :=
        ⟨replaced, isGone.symm ▸ found, stepped_resolvedGone (stands _ replaced found).2 endless anew⟩
      cases holds : held.byId[master.instrumentId]? with
      | none =>
        have anew : resolvedAnew held replacedId master nowNs =
            statedOffers (platformWords master) nowNs (masterValue master) := by
          simp only [resolvedAnew, found, holds]
        obtain ⟨offered, moves⟩ := @stepped_resolvedCandidate termAt held replaced master nowNs (stands _ replaced found).2
          (fresh holds) lacking
        have named : (resolvedCandidate termAt held replaced master lacking nowNs).instrumentId = _ :=
          instrumentId_resolvedCandidate held replaced master lacking nowNs
        have written : (Call.mint (resolvedCandidate termAt held replaced master lacking nowNs)
            (platformKey master)).record = some (resolvedCandidate termAt held replaced master lacking nowNs) := rfl
        have shape : Shape termAt held (statedOffers (platformWords master) nowNs (masterValue master))
            [.mint (resolvedCandidate termAt held replaced master lacking nowNs) (platformKey master),
              .write (resolvedGone replaced nowNs) replaced.version, _] :=
          .replaced ⟨named.symm ▸ holds, offered⟩ written (Or.inr (named.symm ▸ holds)) (gone _) isGone
          (fun same => open_.2 (same.symm.trans named)) found moves
        rw [named] at shape
        rw [anew]
        exact shape
      | some into =>
        have anew : resolvedAnew held replacedId master nowNs =
            statedOffers (resolvedWords replaced) nowNs replaced.value := by
          simp only [resolvedAnew, found, holds]
        obtain ⟨unforced, quiet⟩ := joins into holds
        obtain ⟨stepped, moves⟩ := @stepped_resolvedInto termAt held into replaced nowNs (stands _ into holds).2
          (stands _ replaced found).2 unforced quiet
        have named : (resolvedInto termAt held into replaced nowNs).instrumentId = master.instrumentId :=
          (instrumentId_resolvedInto held into replaced nowNs).trans (stands _ into holds).1
        have written : (Call.write (resolvedInto termAt held into replaced nowNs) into.version).record =
            some (resolvedInto termAt held into replaced nowNs) := rfl
        have shape : Shape termAt held (statedOffers (resolvedWords replaced) nowNs replaced.value)
            [.write (resolvedInto termAt held into replaced nowNs) into.version,
              .write (resolvedGone replaced nowNs) replaced.version, _] :=
          .replaced ⟨into, named.symm ▸ holds, stepped⟩ written (Or.inl (Held.byId_write (named.symm ▸ holds) rfl)) (gone _) isGone
          (fun same => open_.2 (same.symm.trans named)) found moves
        rw [named] at shape
        rw [anew]
        exact shape

/-- A record marked, its identifiers, values, terms and offers as they were. -/
theorem shape_marked {id : String} {before record : Instrument} {expected : Int} (stands : Stands termAt held)
    (found : held.byId[id]? = some before) (same : record.instrumentId = before.instrumentId)
    (alike : Alike record before) : Shape termAt held anew [.write record expected] :=
  shape_write stands found same (stepped_marked (stands id before found).2 alike anew)

theorem shape_applyAnswer (stands : Stands termAt held) {instrumentId : String} {said : PlatformSaid}
    {lacking : List String} (unoffered : AnswersUnoffered termAt held instrumentId said) :
    Shape termAt held (answerAnew held instrumentId nowNs said)
      (applyAnswer termAt held instrumentId said lacking nowNs) := by
  unfold applyAnswer
  dsimp only
  split
  · exact .none
  · next record found =>
    split
    · exact .none
    · next provisional =>
      cases said with
      | record master =>
        exact shape_resolveTo stands (unoffered master record rfl found (by simpa using provisional))
      | pending =>
        dsimp only
        split
        · exact .none
        · exact shape_marked stands found rfl ⟨fun _ => rfl, fun field => by cases field <;> rfl, rfl, rfl⟩
      | unreachable => exact .none
      | notAsked => exact .none

theorem shape_lateCalls (stands : Stands termAt held) {asking : Asking} {said : PlatformSaid} {instrumentId : String}
    {template : Option Template} {lacking : List String} (absent : held.byId[instrumentId]? = none)
    (unoffered : if (resolveIdentifierReadOnly held asking.request).found then
        AnswersUnoffered termAt held (resolveIdentifierReadOnly held asking.request).instrumentId said
      else KeepsUnoffered termAt held asking.asked said) :
    Shape termAt held
      (if (resolveIdentifierReadOnly held asking.request).found then
        answerAnew held (resolveIdentifierReadOnly held asking.request).instrumentId nowNs said
      else asking.stated nowNs)
      (lateCalls termAt held asking said instrumentId template lacking nowNs) := by
  unfold lateCalls
  dsimp only
  split at unoffered
  · next found =>
    rw [if_pos found, if_pos found]
    exact shape_applyAnswer stands unoffered
  · next missing =>
    rw [if_neg missing, if_neg missing]
    cases said with
    | record master => exact shape_resolveUnmatched stands unoffered absent
    | pending => exact .none
    | unreachable => exact .none
    | notAsked => exact .none

theorem shape_completeOne (stands : Stands termAt held) {completion : InstrumentCompletion}
    (unoffered : CompletesUnoffered termAt held completion) :
    Shape termAt held [] (completeOne held completion nowNs).2 := by
  unfold completeOne
  dsimp only
  split
  · exact .none
  · next before holds =>
    split at holds
    · next isCurrent =>
      rw [isCurrent] at holds
      split
      · exact .none
      · next same =>
        split
        · exact .none
        · next unwrong =>
          have right : completionProblems (Completing.takeAll held before completion.values) completion = [] := by
            simpa using unwrong
          split
          · next changed =>
            have none_ : (Completing.takeAll held before completion.values).problems = [] := by
              simp only [completionProblems, List.append_eq_nil_iff] at right
              exact right.1.1.1
            have took := Completing.tookFrom_takeAll none_
            exact shape_write stands holds took.instrumentId
              (stepped_completed (stands _ before holds).2 none_ (unoffered before isCurrent holds (not_not.mp same) right changed))
          · exact .none
    · cases holds

theorem instrumentId_mergeStays (kept merged : Instrument) (take : List Field) (nowNs : Int) :
    (mergeStays termAt kept merged take nowNs).instrumentId = kept.instrumentId := by
  have pushes : Pushes kept (mergeIdentifiers kept merged) _ := pushes_mergeIdentifiers take
  have fills : MergedIn kept merged take _ mergedFields _ := mergedIn_foldl take (fun field => pushes.value field)
    (fun _ member => member) (by decide)
  exact (instrumentId_keepOffers _ _).trans (fills.instrumentId.trans pushes.rest.2.2.2)

theorem shape_mergeAs (stands : Stands termAt held) {request : MergeRequest}
    (unoffered : MergesUnoffered termAt held request) :
    Shape termAt held [] (((mergeAs termAt held request nowNs).toOption).getD []) := by
  unfold mergeAs
  dsimp only
  split
  · exact .none
  · next person =>
    split
    · exact .none
    · next note =>
      split
      · exact .none
      · next open_ =>
        push Not at open_
        obtain ⟨apart, keptBare, mergedBare⟩ := open_
        split
        · next kept merged holdsKept holdsMerged =>
          split
          · exact .none
          · next versions =>
            push Not at versions
            obtain ⟨unforced, quiet, endless⟩ := unoffered kept merged holdsKept holdsMerged person note apart keptBare
              mergedBare versions.1 versions.2
            obtain ⟨stepped, moves⟩ := @stepped_mergeStays termAt kept merged nowNs (stands _ kept holdsKept).2
              (stands _ merged holdsMerged).2 _ unforced quiet
            have stays : (mergeStays termAt kept merged request.takeFromMerged nowNs).instrumentId =
                request.keptInstrumentId :=
              (instrumentId_mergeStays kept merged request.takeFromMerged nowNs).trans (stands _ kept holdsKept).1
            have gone : (mergeGone merged nowNs).instrumentId = request.mergedInstrumentId :=
              (instrumentId_closedAll merged nowNs).trans (stands _ merged holdsMerged).1
            have written : (Call.write (mergeStays termAt kept merged request.takeFromMerged nowNs) kept.version).record =
                some (mergeStays termAt kept merged request.takeFromMerged nowNs) := rfl
            have shape : Shape termAt held []
                [.write (mergeStays termAt kept merged request.takeFromMerged nowNs) kept.version,
                  .write (mergeGone merged nowNs) merged.version, _] := .replaced
              ⟨kept, stays.symm ▸ holdsKept, stepped⟩ written (Or.inl (Held.byId_write (stays.symm ▸ holdsKept) rfl))
              ⟨merged, gone.symm ▸ holdsMerged, stepped_mergeGone (stands _ merged holdsMerged).2 endless []⟩
              gone (fun same => apart (stays.symm.trans same)) holdsMerged moves
            rw [stays] at shape
            exact shape
        · exact .none

theorem shape_keepPlatformAnswer (stands : Stands termAt held) (forInstrumentId : String) (answer : InstrumentRecord)
    (contract : Option String) :
    Shape termAt held (((held.byId[current held forInstrumentId]?).map fun record =>
        answerOffers record answer contract nowNs).getD [])
      (keepPlatformAnswer termAt held forInstrumentId answer contract nowNs) := by
  unfold keepPlatformAnswer
  dsimp only
  split
  · exact .none
  · next before found =>
    rw [found]
    split
    · refine shape_write stands found (instrumentId_keepOffers _ _) (stepped_kept (stands _ before found).2
        (sayable_answerOffers before answer contract nowNs) ?_)
      exact ⟨fun _ => rfl, fun field => by cases field <;> rfl, rfl, rfl⟩
    · exact .none

theorem shape_offerTemplateFields (stands : Stands termAt held) (instrumentId instanceId : String)
    (fields : List TemplateField) (repeated : List String) :
    Shape termAt held (fields.filterMap (templateOffer instanceId nowNs))
      (offerTemplateFields termAt held instrumentId instanceId fields repeated nowNs) := by
  unfold offerTemplateFields
  dsimp only
  split
  · exact .none
  · next before found =>
    split
    · refine shape_write stands found (instrumentId_keepOffers _ _) (stepped_template (stands _ before found).2
        instanceId fields repeated ?_)
      exact ⟨fun _ => rfl, fun field => by cases field <;> rfl, rfl, rfl⟩
    · exact .none

theorem shape_offerBounds (stands : Stands termAt held) (member instanceId contract : String) :
    Shape termAt held [boundsOffer instanceId contract nowNs] (offerBounds termAt held member instanceId contract nowNs) := by
  unfold offerBounds
  dsimp only
  split
  · exact .none
  · next before found =>
    split
    · exact .none
    · split
      · refine shape_write stands found (instrumentId_keepOffers _ _) (stepped_kept (stands _ before found).2
          (fun offer among => ?_) ⟨fun _ => rfl, fun field => by cases field <;> rfl, rfl, rfl⟩)
        obtain rfl := List.mem_singleton.mp among
        exact sayable_of_valued (by simp [boundsOffer]) (by simp [boundsOffer])
      · exact .none

theorem shape_lineOf (stands : Stands termAt held) (instrumentId : String) (line : Local) :
    Shape termAt held [] (lineOf held instrumentId line nowNs) := by
  unfold lineOf
  split
  · exact .none
  · next record found => exact shape_marked stands found rfl ⟨fun _ => rfl, fun field => by cases field <;> rfl, rfl, rfl⟩

theorem shape_holdBack (stands : Stands termAt held) (instrumentId : String) :
    Shape termAt held [] (holdBack held instrumentId nowNs) := by
  unfold holdBack
  split
  · exact .none
  · next record found =>
    split
    · exact .none
    · exact shape_marked stands found rfl ⟨fun _ => rfl, fun field => by cases field <;> rfl, rfl, rfl⟩

theorem shape_makeLine (stands : Stands termAt held) {instrumentId : String} {lacking : List String}
    (unoffered : ∀ record, held.byId[instrumentId]? = some record → isLine record = true →
      ResolvesUnoffered termAt held instrumentId { instrumentId := record.oneId.migrationAnswer }) :
    Shape termAt held (((held.byId[instrumentId]?).map fun record =>
        resolvedAnew held instrumentId { instrumentId := record.oneId.migrationAnswer } nowNs).getD [])
      (makeLine termAt held instrumentId lacking nowNs) := by
  unfold makeLine
  split
  · exact .none
  · next record found =>
    rw [found]
    split
    · exact .none
    · next open_ =>
      push Not at open_
      exact shape_resolveTo stands (unoffered record found (by simpa using open_.2))

theorem shape_expire (stands : Stands termAt held) (instrumentId : String) :
    Shape termAt held anew (expire held instrumentId nowNs) := by
  unfold expire
  split
  · exact .none
  · next record found =>
    split
    · exact .none
    · exact shape_marked stands found rfl ⟨fun _ => rfl, fun field => by cases field <;> rfl, rfl, rfl⟩

theorem shape_decommission (stands : Stands termAt held) (instrumentId : String) :
    Shape termAt held anew (decommission held instrumentId nowNs) := by
  unfold decommission
  split
  · exact .none
  · next record found =>
    split
    · exact .none
    · exact shape_marked stands found rfl ⟨fun _ => rfl, fun field => by cases field <;> rfl, rfl, rfl⟩

theorem shape_followed (stands : Stands termAt held) {entry : FeedEntry} {lacking : List String}
    (unoffered : entry.expired = false → entry.decommissioned = false → begins entry.replacedBy "INS-" = true →
      ResolvesUnoffered termAt held entry.instrumentId { instrumentId := entry.replacedBy }) :
    Shape termAt held (resolvedAnew held entry.instrumentId { instrumentId := entry.replacedBy } nowNs)
      (followed termAt held entry lacking nowNs) := by
  unfold followed
  split
  · exact .none
  · split
    · exact shape_expire stands entry.instrumentId
    · next living =>
      split
      · exact shape_decommission stands entry.instrumentId
      · next commissioned =>
        split
        · next replaced => exact shape_resolveTo stands (unoffered (by simpa using living) (by simpa using commissioned) replaced)
        · exact .none

/-- However many calls of an event that forces nothing the store made, its offers are kept. -/
theorem keeping_event {deployment : Deployment} {event : Event} (stands : Stands termAt deployment.held)
    (drawn : Deployment.draws deployment.held event = true) (unforced : Unforced termAt deployment event) {made : List Call}
    (first : made <+: deployment.calls termAt event nowNs) :
    Keeping termAt deployment.held (deployment.held.calls made) (offeredIn deployment nowNs event) := by
  cases event with
  | resolve request instanceId => exact keeping_made stands (shape_resolveMatched stands unforced) first
  | answerResolve place said instrumentId template lacking =>
    unfold Deployment.calls at first
    dsimp only at first
    cases waits : deployment.waiting[place]? with
    | none =>
      rw [waits] at first
      exact keeping_made stands .none first
    | some asking =>
      rw [waits] at first
      have absent : deployment.held.byId[instrumentId]? = none :=
        Option.isNone_iff_eq_none.mp (Bool.and_eq_true_iff.mp drawn).2
      have kept := keeping_made stands (shape_resolveUnmatched stands (unforced asking waits) absent) first
      simpa only [offeredIn, waits, Option.map_some, Option.getD_some, Asking.stated] using kept
  | lateAnswer place said instrumentId template lacking =>
    unfold Deployment.calls at first
    dsimp only at first
    cases waits : deployment.late[place]? with
    | none =>
      rw [waits] at first
      exact keeping_made stands .none first
    | some asking =>
      rw [waits] at first
      have absent : deployment.held.byId[instrumentId]? = none :=
        Option.isNone_iff_eq_none.mp (Bool.and_eq_true_iff.mp drawn).2
      have kept := keeping_made stands (shape_lateCalls stands absent (unforced asking waits)) first
      simpa only [offeredIn, waits] using kept
  | answer instrumentId said lacking => exact keeping_made stands (shape_applyAnswer stands unforced) first
  | complete completion => exact keeping_made stands (shape_completeOne stands unforced) first
  | merge request => exact keeping_made stands (shape_mergeAs stands unforced) first
  | platformAnswer forInstrumentId answer contract =>
    exact keeping_made stands (shape_keepPlatformAnswer stands forInstrumentId answer contract) first
  | templateFields instrumentId instanceId fields repeated =>
    exact keeping_made stands (shape_offerTemplateFields stands instrumentId instanceId fields repeated) first
  | bounds member instanceId contract =>
    exact keeping_made stands (shape_offerBounds stands member instanceId contract) first
  | line instrumentId line => exact keeping_made stands (shape_lineOf stands instrumentId line) first
  | holdBack instrumentId => exact keeping_made stands (shape_holdBack stands instrumentId) first
  | makeLine instrumentId lacking => exact keeping_made stands (shape_makeLine stands unforced) first
  | feed entry lacking =>
    change made <+: applyEntry termAt deployment.held entry lacking nowNs at first
    unfold applyEntry at first
    split at first
    · exact keeping_made stands .none first
    · next unread =>
      have shape : Shape termAt deployment.held (offeredIn deployment nowNs (.feed entry lacking))
          (followed termAt deployment.held entry lacking nowNs) := shape_followed stands (unforced (not_le.mp unread))
      rcases List.prefix_concat_iff.mp first with rfl | partly
      · rw [calls_snoc]
        exact (keeping_made stands shape (List.prefix_refl _)).readTo entry.sequence
      · exact keeping_made stands shape partly

/-- A step that forces nothing keeps the offers. -/
theorem keeping_move {deployment next : Deployment} {label : Move} (stands : Stands termAt deployment.held)
    (unforced : Unforced termAt deployment label.event) (moved : deployment.move termAt label = some next) :
    Keeping termAt deployment.held next.held (offeredIn deployment label.nowNs label.event) := by
  unfold Deployment.move at moved
  split at moved
  · next drawn =>
    cases moved
    refine keeping_event stands drawn unforced ?_
    unfold Deployment.made
    dsimp only
    split
    · exact List.prefix_refl _
    · exact List.take_prefix _ _
  · cases moved

theorem stands_nil (termAt : TermAt) : Stands termAt {} := by
  intro id record found
  simp at found

/-- In a run whose steps force nothing the offers of every record stand, and each such step after it keeps them. -/
theorem offers_stand_of_run (termAt : TermAt) {labels : List Move} {deployment : Deployment}
    (run : Run (fun state label next => Unforced termAt state label.event ∧ state.move termAt label = some next)
      {} labels deployment) :
    Stands termAt deployment.held ∧
      ∀ label next, Unforced termAt deployment label.event → deployment.move termAt label = some next →
        Keeping termAt deployment.held next.held (offeredIn deployment label.nowNs label.event) := by
  have stands : Stands termAt deployment.held :=
    run.invariant_of (fun state => Stands termAt state.held) (stands_nil termAt)
      fun _ _ _ stands unforced moved => (keeping_move stands unforced moved).stands
  exact ⟨stands, fun label next unforced moved => keeping_move stands unforced moved⟩

/-- A step that brings nothing onto a record held. -/
def bringsNone (deployment : Deployment) : Event → Bool
  | .resolve request _ => !(met deployment.held request (askedBy request)).any fun found => found.1.length = 1
  | .answerResolve _ .notAsked _ _ _ | .templateFields _ _ _ _ => true
  | _ => false

theorem unforced_of_none {deployment : Deployment} {event : Event} (none_ : bringsNone deployment event = true) :
    Unforced termAt deployment event := by
  unfold bringsNone at none_
  split at none_
  · intro found meeting record meets
    rw [meets] at none_
    simp at none_
  · intro asking _ master record said
    cases said
  · trivial
  · cases none_

def moveBringingNone (termAt : TermAt) (deployment : Deployment) (label : Move) : Option Deployment :=
  if bringsNone deployment label.event then deployment.move termAt label else none

theorem moveBringingNone_some {deployment next : Deployment} {label : Move}
    (moved : moveBringingNone termAt deployment label = some next) :
    Unforced termAt deployment label.event ∧ deployment.move termAt label = some next := by
  unfold moveBringingNone at moved
  split at moved
  · next none_ => exact ⟨unforced_of_none none_, moved⟩
  · cases moved

/-- A figi and the description stated with it. -/
def figiStated (figi described : String) : ResolveIdentifierRequest where
  identifiers := [{ scheme := "figi", value := figi }]
  statedDescription := described
  statedCurrency := "USD"

/-- A set nothing matches, resolved and kept under an ID drawn for it. -/
def keptAs (request : ResolveIdentifierRequest) (instanceId instrumentId : String) : List Move := [
  { event := .resolve request instanceId, nowNs := 1 },
  { event := .answerResolve 0 .notAsked instrumentId none [], nowNs := 2 }]

def describedAs (instrumentId described : String) : Move where
  event := .templateFields instrumentId "blotter-2" [{ path := "description", value := described }] []
  nowNs := 3

/-- A description told of a record in words of its own stands offered. -/
theorem described_stands : ∃ deployment : Deployment,
    Stands (fun _ _ _ => none) deployment.held ∧
      ∃ record, deployment.held.byId["LCL-1"]? = some record ∧ record.offers.any (·.value == "Acme Inc") = true := by
  have computed : ((keptAs (figiStated "BBG000000001" "Acme") "blotter-1" "LCL-1" ++
      [describedAs "LCL-1" "Acme Inc"]).foldlM (moveBringingNone fun _ _ _ => none) {}).any (fun deployment =>
        (deployment.held.byId["LCL-1"]?).any fun record => record.offers.any (·.value == "Acme Inc")) = true := by
    decide +kernel
  obtain ⟨deployment, run, held⟩ := Run.of_any computed
  have run := run.imp fun before label after moved => moveBringingNone_some moved
  exact ⟨deployment, (offers_stand_of_run _ run).1, Option.any_eq_true _ _ |>.mp held⟩

/-- One record kept as a blotter stated it, another as the picker did, and the two merged. -/
def mergedIntoOffered : List Move :=
  keptAs (figiStated "BBG000000001" "Acme") "blotter-1" "LCL-1" ++
    keptAs (figiStated "BBG000000002" "Acme") "the instrument picker for ann" "LCL-2" ++ [{
      nowNs := 3
      event := .merge {
        keptInstrumentId := "LCL-1"
        mergedInstrumentId := "LCL-2"
        keptVersion := 1
        mergedVersion := 1
        note := "one security"
        person := "ann" } }]

/-- A merge fills a description that stands offered on the record that stays, and leaves it offered. -/
theorem merge_leaves_offered :
    ¬ ∀ (termAt : TermAt) (labels : List Move) (deployment : Deployment),
      Run (fun state label next => state.move termAt label = some next) {} labels deployment →
        ∀ (id : String) (record : Instrument), deployment.held.byId[id]? = some record →
          ∀ offer ∈ record.offers, saysInForce termAt record offer = false := by
  intro claim
  have computed : (mergedIntoOffered.foldlM (Deployment.move fun _ _ _ => none) {}).any
      (fun deployment => (deployment.held.byId["LCL-1"]?).any fun record =>
        record.offers.any fun offer => saysInForce (fun _ _ _ => none) record offer) = true := by
    decide +kernel
  obtain ⟨deployment, run, held⟩ := Run.of_any computed
  obtain ⟨record, found, offers⟩ := Option.any_eq_true _ _ |>.mp held
  obtain ⟨offer, member, inForce⟩ := List.any_eq_true.mp offers
  rw [claim _ _ _ run "LCL-1" record found offer member] at inForce
  cases inForce

end MeridianCore.Instruments
