import MeridianCore.Instruments.Became

namespace MeridianCore.Instruments

variable {termAt : TermAt} {held : Held} {nowNs : Int} {strict : Bool}

/-- A record of the platform's an ID becomes is not replaced itself, and the chains to it short enough. -/
def ResolvesOpen (held : Held) (replacedId masterId : String) : Prop :=
  (held.byId[replacedId]?).isSome → held.replacementOf replacedId = none → replacedId ≠ masterId →
    held.replacementOf masterId = none ∧ Room held replacedId

/-- The record of the platform's kept is not replaced. -/
def KeepsOpen (held : Held) (said : PlatformSaid) : Prop :=
  ∀ master, said = .record master → held.replacementOf master.instrumentId = none

def AnswersOpen (held : Held) (instrumentId : String) (said : PlatformSaid) : Prop :=
  ∀ master record, said = .record master → held.byId[current held instrumentId]? = some record →
    record.oneId.provisional = true → ResolvesOpen held (current held instrumentId) master.instrumentId

/-- The chains to a record merged are short enough. -/
def MergesRoom (held : Held) (request : MergeRequest) : Prop :=
  ∀ kept merged, held.byId[request.keptInstrumentId]? = some kept → held.byId[request.mergedInstrumentId]? = some merged →
    request.person ≠ "" → Text.trim request.note ≠ "" → request.keptInstrumentId ≠ request.mergedInstrumentId →
    held.replacementOf request.keptInstrumentId = none → held.replacementOf request.mergedInstrumentId = none →
    kept.version = request.keptVersion → merged.version = request.mergedVersion → Room held request.mergedInstrumentId

/-- An entry of the feed marks no replaced record, and resolves into none. -/
def FollowsOpen (held : Held) (entry : FeedEntry) : Prop :=
  held.feedCursor < entry.sequence → ∀ record, held.byId[entry.instrumentId]? = some record →
    (entry.expired = true → record.lifecycleState ≠ expiredState → held.replacementOf entry.instrumentId = none) ∧
    (entry.expired = false → entry.decommissioned = true → record.oneId.decommissioned = false →
      held.replacementOf entry.instrumentId = none) ∧
    (entry.expired = false → entry.decommissioned = false → begins entry.replacedBy "INS-" = true →
      ResolvesOpen held entry.instrumentId entry.replacedBy)

/-- A step that keeps, marks or resolves into no replaced record, and makes no chain too long to follow. -/
def Onward (deployment : Deployment) : Event → Prop
  | .answerResolve place said _ _ _ => (deployment.waiting[place]?).isSome → KeepsOpen deployment.held said
  | .lateAnswer place said _ _ _ =>
    ∀ asking, deployment.late[place]? = some asking →
      if (resolveIdentifierReadOnly deployment.held asking.request).found then
        AnswersOpen deployment.held (resolveIdentifierReadOnly deployment.held asking.request).instrumentId said
      else KeepsOpen deployment.held said
  | .answer instrumentId said _ => AnswersOpen deployment.held instrumentId said
  | .merge request => MergesRoom deployment.held request
  | .makeLine instrumentId _ => ∀ record, deployment.held.byId[instrumentId]? = some record → isLine record = true →
      ResolvesOpen deployment.held instrumentId record.oneId.migrationAnswer
  | .feed entry _ => FollowsOpen deployment.held entry
  | .resolve _ _ | .complete _ | .platformAnswer _ _ _ | .templateFields _ _ _ _ | .bounds _ _ _ | .line _ _
  | .holdBack _ => True

/-- Whether a step is a resolve, an answer of the platform's or an entry of its feed. -/
def Event.settles : Event → Bool
  | .resolve _ _ | .answerResolve _ _ _ _ _ | .lateAnswer _ _ _ _ _ | .answer _ _ _ | .platformAnswer _ _ _
  | .feed _ _ => true
  | .complete _ | .merge _ | .templateFields _ _ _ _ | .bounds _ _ _ | .line _ _ | .holdBack _ | .makeLine _ _ => false

/-- What an event has the store do: nothing, one record written, or one written, the one it replaces closed and its
replacement recorded; no record written was replaced, where the event is one that settles. -/
inductive Wrote (held : Held) (strict : Bool) : List Call → Prop where
  | none : Wrote held strict []
  | one {call : Call} {record : Instrument} (writes : call.record = some record) (keyed : call.keyed)
      (open_ : strict = true → held.replacementOf record.instrumentId = none) : Wrote held strict [call]
  | replaced {call : Call} {stays gone : Instrument} {expected : Int} {id : String} (writes : call.record = some stays)
      (keyed : call.keyed) (isGone : gone.instrumentId = id) (apart : stays.instrumentId ≠ id)
      (open_ : held.replacementOf id = none) (openBy : held.replacementOf stays.instrumentId = none) (room : Room held id)
      (found : (held.byId[id]?).isSome) (there : ((held.call call).byId[stays.instrumentId]?).isSome) :
      Wrote held strict [call, .write gone expected, .replace id stays.instrumentId]

theorem room_congr {next : Held} {id : String} (same : next.replacementOf = held.replacementOf) (room : Room held id) :
    Room next id := by
  unfold Room
  rw [same]
  exact room

/-- However many of an event's calls the store made, what it keeps to holds. -/
theorem unwinds_made (unwinds : Unwinds held) {calls made : List Call} (wrote : Wrote held strict calls)
    (first : made <+: calls) : Unwinds (held.calls made) := by
  cases wrote with
  | none =>
    obtain rfl := List.prefix_nil.mp first
    exact unwinds
  | one writes keyed open_ =>
    rcases List.prefix_cons_iff.mp first with rfl | ⟨rest, rfl, more⟩
    · exact unwinds
    · obtain rfl := List.prefix_nil.mp more
      exact unwinds.write writes keyed
  | @replaced call stays gone expected id writes keyed isGone apart open_ openBy room found there =>
    rcases List.prefix_cons_iff.mp first with rfl | ⟨rest, rfl, second⟩
    · exact unwinds
    · have one := unwinds.write writes keyed
      rcases List.prefix_cons_iff.mp second with rfl | ⟨rest, rfl, third⟩
      · exact one
      · have two : Unwinds ((held.call call).call (.write gone expected)) := one.write rfl trivial
        rcases List.prefix_cons_iff.mp third with rfl | ⟨rest, rfl, more⟩
        · exact two
        · obtain rfl := List.prefix_nil.mp more
          have same : ((held.call call).call (.write gone expected)).replacementOf = held.replacementOf := by
            rw [Held.replacementOf_call (Or.inl rfl), Held.replacementOf_call (Or.inl (by rw [writes]; rfl))]
          refine two.replace (Held.isSome_call _ (Held.isSome_call call found)) (Held.isSome_call _ there) apart ?_ ?_
            (room_congr same room)
          · rw [same]
            exact open_
          · rw [same]
            exact openBy

/-- An event that settles writes no replaced record. -/
theorem open_of_wrote {calls : List Call} (wrote : Wrote held true calls) :
    ∀ call ∈ calls, ∀ record, call.record = some record → held.replacementOf record.instrumentId = none := by
  intro each member record written
  cases wrote with
  | none => exact absurd member List.not_mem_nil
  | one writes keyed open_ =>
    obtain rfl := List.mem_singleton.mp member
    rw [writes] at written
    cases written
    exact open_ rfl
  | replaced writes keyed isGone apart open_ openBy room found there =>
    rcases List.mem_cons.mp member with rfl | second
    · rw [writes] at written
      cases written
      exact openBy
    · rcases List.mem_cons.mp second with rfl | third
      · cases written
        rw [isGone]
        exact open_
      · obtain rfl := List.mem_singleton.mp third
        cases written

/-- A record written as its next version, under its ID. -/
theorem wrote_write {id : String} {before record : Instrument} {expected : Int} (unwinds : Unwinds held)
    (found : held.byId[id]? = some before) (same : record.instrumentId = before.instrumentId)
    (open_ : strict = true → held.replacementOf id = none) : Wrote held strict [.write record expected] := by
  refine .one rfl trivial fun settles => ?_
  rw [same, unwinds.named id before found]
  exact open_ settles

theorem wrote_resolveMatched (unwinds : Unwinds held) (request : ResolveIdentifierRequest) (instanceId : String) :
    Wrote held strict (resolveMatched termAt held request instanceId nowNs).2 := by
  unfold resolveMatched
  dsimp only
  split
  · exact .none
  · split
    · exact .none
    · next found meeting meets =>
      unfold joined
      split
      · exact .none
      · next record holds =>
        dsimp only
        split
        · exact .none
        · split
          · exact .none
          · exact wrote_write unwinds holds (instrumentId_takeStated _ _) fun _ => open_of_met unwinds meets
    · exact .none

theorem wrote_keepPlatformRecord (unwinds : Unwinds held) {asked : List Asked} {master : InstrumentRecord}
    {template : Option Template} {offers : List Offer} {lacking : List String}
    (open_ : held.replacementOf master.instrumentId = none) :
    Wrote held strict (keepPlatformRecord termAt held asked master template offers lacking nowNs).2 := by
  unfold keepPlatformRecord
  split
  · next record found =>
    dsimp only
    split
    · refine wrote_write unwinds found ?_ fun _ => open_
      dsimp only
      rw [takeListedTerms_eq]
      exact (instrumentId_takeStated _ _).trans (instrumentId_joinPlatform held record asked master)
    · exact .none
  · have named := @instrumentId_platformCandidate termAt nowNs held asked master template offers lacking
    refine .one rfl (fun id same => ?_) fun _ => ?_
    · rw [named]
      exact String.append_right_inj "ins:" |>.mp same
    · rw [named]
      exact open_

/-- An ID none is held under was not replaced. -/
theorem Unwinds.open_of_absent (unwinds : Unwinds held) {id : String} (absent : held.byId[id]? = none) :
    held.replacementOf id = none := by
  cases replaced : held.replacementOf id with
  | none => rfl
  | some by_ =>
    have there := unwinds.replaced id by_ replaced
    rw [absent] at there
    cases there

theorem wrote_mint (unwinds : Unwinds held) {instrumentId : String} (absent : held.byId[instrumentId]? = none)
    (request : ResolveIdentifierRequest) (asked : List Asked) (instanceId : String) (template : Option Template)
    (reason : ProvisionalReason) :
    Wrote held strict (mint termAt held request asked instanceId instrumentId nowNs template reason).2 := by
  have named : (mintedCandidate termAt held request asked instanceId instrumentId nowNs template reason).instrumentId =
      instrumentId := instrumentId_takeStated _ _
  have minting : Wrote held strict [.mint
      (mintedCandidate termAt held request asked instanceId instrumentId nowNs template reason)
      (mintKey (mintedCandidate termAt held request asked instanceId instrumentId nowNs template reason).identifiers
        asked)] := by
    refine .one rfl (fun id same => absurd same (mintKey_ne _ _ id)) fun _ => ?_
    rw [named]
    exact unwinds.open_of_absent absent
  unfold mint
  dsimp only
  split <;> exact minting

theorem wrote_resolveUnmatched (unwinds : Unwinds held) {request : ResolveIdentifierRequest} {asked : List Asked}
    {instanceId instrumentId : String} {said : PlatformSaid} {template : Option Template} {lacking : List String}
    (open_ : KeepsOpen held said) (absent : held.byId[instrumentId]? = none) :
    Wrote held strict
      (resolveUnmatched termAt held request asked instanceId instrumentId nowNs said template lacking).2 := by
  cases said with
  | record master => exact wrote_keepPlatformRecord unwinds (open_ master rfl)
  | _ =>
    unfold resolveUnmatched
    dsimp only
    split
    · exact wrote_mint unwinds absent request asked instanceId template _
    · exact .none

/-- A record of the platform's minted where none is held under its ID is held then. -/
theorem isSome_minted (unwinds : Unwinds held) {candidate : Instrument} {id : String} (named : candidate.instrumentId = id)
    (absent : held.byId[id]? = none) : ((held.call (.mint candidate ("ins:" ++ id))).byId[id]?).isSome := by
  cases before : (held.mintedFor["ins:" ++ id]?).bind fun id => held.byId[id]? with
  | none =>
    rw [Held.call, Held.mint_none before, ← named]
    simp
  | some kept =>
    obtain ⟨minted, forKey, there⟩ := Option.bind_eq_some_iff.mp before
    rw [unwinds.platform id minted forKey, absent] at there
    cases there

theorem wrote_resolveTo (unwinds : Unwinds held) {replacedId : String} {master : InstrumentRecord}
    {lacking : List String} (onward : ResolvesOpen held replacedId master.instrumentId) :
    Wrote held strict (resolveTo termAt held replacedId master lacking nowNs) := by
  unfold resolveTo
  split
  · exact .none
  · next open_ =>
    push Not at open_
    cases found : held.byId[replacedId]? with
    | none => exact .none
    | some replaced =>
      have known : (held.byId[replacedId]?).isSome := by
        rw [found]
        rfl
      obtain ⟨openBy, room⟩ := onward known open_.1 open_.2
      have isGone : (resolvedGone replaced nowNs).instrumentId = replacedId :=
        (instrumentId_closedAll replaced nowNs).trans (unwinds.named replacedId replaced found)
      cases holds : held.byId[master.instrumentId]? with
      | none =>
        have named := @instrumentId_resolvedCandidate termAt held replaced master lacking nowNs
        have written : (Call.mint (resolvedCandidate termAt held replaced master lacking nowNs)
            (platformKey master)).record = some (resolvedCandidate termAt held replaced master lacking nowNs) := rfl
        have wrote : Wrote held strict [_, .write (resolvedGone replaced nowNs) replaced.version, _] := .replaced written
          (fun id same => named.trans (String.append_right_inj "ins:" |>.mp same)) isGone
          (fun same => open_.2 (same.symm.trans named)) open_.1 (named.symm ▸ openBy) room known
          (named.symm ▸ isSome_minted unwinds named holds)
        rw [named] at wrote
        exact wrote
      | some into =>
        have named : (resolvedInto termAt held into replaced nowNs).instrumentId = master.instrumentId :=
          (instrumentId_resolvedInto held into replaced nowNs).trans (unwinds.named _ into holds)
        have there : ((held.call (.write (resolvedInto termAt held into replaced nowNs) into.version)).byId[
            master.instrumentId]?).isSome := Held.isSome_call _ (by rw [holds]; rfl)
        have written : (Call.write (resolvedInto termAt held into replaced nowNs) into.version).record =
            some (resolvedInto termAt held into replaced nowNs) := rfl
        have wrote : Wrote held strict [_, .write (resolvedGone replaced nowNs) replaced.version, _] :=
          .replaced written trivial isGone
          (fun same => open_.2 (same.symm.trans named)) open_.1 (named.symm ▸ openBy) room known (named.symm ▸ there)
        rw [named] at wrote
        exact wrote

theorem wrote_applyAnswer (unwinds : Unwinds held) {instrumentId : String} {said : PlatformSaid} {lacking : List String}
    (onward : AnswersOpen held instrumentId said) :
    Wrote held strict (applyAnswer termAt held instrumentId said lacking nowNs) := by
  unfold applyAnswer
  dsimp only
  split
  · exact .none
  · next record found =>
    split
    · exact .none
    · next provisional =>
      cases said with
      | record master =>
        exact wrote_resolveTo unwinds (onward master record rfl found (by simpa using provisional))
      | pending =>
        dsimp only
        split
        · exact .none
        · exact wrote_write unwinds found rfl fun _ => unwinds.current_open instrumentId
      | unreachable => exact .none
      | notAsked => exact .none

theorem wrote_lateCalls (unwinds : Unwinds held) {asking : Asking} {said : PlatformSaid} {instrumentId : String}
    {template : Option Template} {lacking : List String} (absent : held.byId[instrumentId]? = none)
    (onward : if (resolveIdentifierReadOnly held asking.request).found then
        AnswersOpen held (resolveIdentifierReadOnly held asking.request).instrumentId said
      else KeepsOpen held said) :
    Wrote held strict (lateCalls termAt held asking said instrumentId template lacking nowNs) := by
  unfold lateCalls
  dsimp only
  split at onward
  · next found =>
    rw [if_pos found]
    exact wrote_applyAnswer unwinds onward
  · next missing =>
    rw [if_neg missing]
    cases said with
    | record master => exact wrote_resolveUnmatched unwinds onward absent
    | pending => exact .none
    | unreachable => exact .none
    | notAsked => exact .none

theorem wrote_completeOne (unwinds : Unwinds held) (completion : InstrumentCompletion) :
    Wrote held false (completeOne held completion nowNs).2 := by
  unfold completeOne
  dsimp only
  split
  · exact .none
  · next before holds =>
    split at holds
    · split
      · exact .none
      · split
        · exact .none
        · next unwrong =>
          split
          · have right : (Completing.takeAll held before completion.values).problems = [] := by
              have all := not_not.mp unwrong
              simp only [completionProblems, List.append_eq_nil_iff] at all
              exact all.1.1.1
            exact wrote_write unwinds holds (Completing.tookFrom_takeAll right).instrumentId fun settles => by cases settles
          · exact .none
    · cases holds

theorem wrote_mergeAs (unwinds : Unwinds held) {request : MergeRequest} (onward : MergesRoom held request) :
    Wrote held false (((mergeAs termAt held request nowNs).toOption).getD []) := by
  unfold mergeAs
  dsimp only
  split
  · exact .none
  · next person =>
    split
    · exact .none
    · next note =>
      split
      · exact .none
      · next open_ =>
        push Not at open_
        obtain ⟨apart, keptBare, mergedBare⟩ := open_
        split
        · next kept merged holdsKept holdsMerged =>
          split
          · exact .none
          · next versions =>
            push Not at versions
            have room := onward kept merged holdsKept holdsMerged person note apart keptBare mergedBare versions.1 versions.2
            have stays : (mergeStays termAt kept merged request.takeFromMerged nowNs).instrumentId =
                request.keptInstrumentId :=
              (instrumentId_mergeStays kept merged request.takeFromMerged nowNs).trans (unwinds.named _ kept holdsKept)
            have gone : (mergeGone merged nowNs).instrumentId = request.mergedInstrumentId :=
              (instrumentId_closedAll merged nowNs).trans (unwinds.named _ merged holdsMerged)
            have there : ((held.call (.write (mergeStays termAt kept merged request.takeFromMerged nowNs)
                kept.version)).byId[request.keptInstrumentId]?).isSome := Held.isSome_call _ (by rw [holdsKept]; rfl)
            have known : (held.byId[request.mergedInstrumentId]?).isSome := by
              rw [holdsMerged]
              rfl
            have written : (Call.write (mergeStays termAt kept merged request.takeFromMerged nowNs) kept.version).record =
                some (mergeStays termAt kept merged request.takeFromMerged nowNs) := rfl
            have wrote : Wrote held false [_, .write (mergeGone merged nowNs) merged.version, _] :=
              .replaced written trivial gone (fun same => apart (stays.symm.trans same)) mergedBare
              (stays.symm ▸ keptBare) room known (stays.symm ▸ there)
            rw [stays] at wrote
            exact wrote
        · exact .none

theorem wrote_keepPlatformAnswer (unwinds : Unwinds held) (forInstrumentId : String) (answer : InstrumentRecord)
    (contract : Option String) : Wrote held strict (keepPlatformAnswer termAt held forInstrumentId answer contract nowNs) := by
  unfold keepPlatformAnswer
  dsimp only
  split
  · exact .none
  · next before found =>
    split
    · exact wrote_write unwinds found (instrumentId_keepOffers _ _) fun _ => unwinds.current_open forInstrumentId
    · exact .none

theorem wrote_offerTemplateFields (unwinds : Unwinds held) (instrumentId instanceId : String)
    (fields : List TemplateField) (repeated : List String) :
    Wrote held strict (offerTemplateFields termAt held instrumentId instanceId fields repeated nowNs) := by
  unfold offerTemplateFields
  dsimp only
  split
  · exact .none
  · next before found =>
    split
    · exact wrote_write unwinds found (instrumentId_keepOffers _ _) fun _ => unwinds.current_open instrumentId
    · exact .none

theorem wrote_offerBounds (unwinds : Unwinds held) (member instanceId contract : String) :
    Wrote held false (offerBounds termAt held member instanceId contract nowNs) := by
  unfold offerBounds
  dsimp only
  split
  · exact .none
  · next before found =>
    split
    · exact .none
    · split
      · exact wrote_write unwinds found (instrumentId_keepOffers _ _) fun settles => by cases settles
      · exact .none

theorem wrote_lineOf (unwinds : Unwinds held) (instrumentId : String) (line : Local) :
    Wrote held false (lineOf held instrumentId line nowNs) := by
  unfold lineOf
  split
  · exact .none
  · next record found => exact wrote_write unwinds found rfl fun settles => by cases settles

theorem wrote_holdBack (unwinds : Unwinds held) (instrumentId : String) :
    Wrote held false (holdBack held instrumentId nowNs) := by
  unfold holdBack
  split
  · exact .none
  · next record found =>
    split
    · exact .none
    · exact wrote_write unwinds found rfl fun settles => by cases settles

theorem wrote_makeLine (unwinds : Unwinds held) {instrumentId : String} {lacking : List String}
    (onward : ∀ record, held.byId[instrumentId]? = some record → isLine record = true →
      ResolvesOpen held instrumentId record.oneId.migrationAnswer) :
    Wrote held false (makeLine termAt held instrumentId lacking nowNs) := by
  unfold makeLine
  split
  · exact .none
  · next record found =>
    split
    · exact .none
    · next open_ =>
      push Not at open_
      exact wrote_resolveTo unwinds (onward record found (by simpa using open_.2))

theorem wrote_followed (unwinds : Unwinds held) {entry : FeedEntry} {lacking : List String}
    (unread : held.feedCursor < entry.sequence) (onward : FollowsOpen held entry) :
    Wrote held strict (followed termAt held entry lacking nowNs) := by
  have onward := onward unread
  unfold followed
  split
  · exact .none
  · next known =>
    obtain ⟨record, found⟩ := Option.ne_none_iff_exists'.mp fun absent => known (Option.isNone_iff_eq_none.mpr absent)
    obtain ⟨expires, decommissions, resolves⟩ := onward record found
    split
    · next expired =>
      unfold expire
      rw [found]
      dsimp only
      split
      · exact .none
      · next fresh => exact wrote_write unwinds found rfl fun _ => expires expired fresh
    · next living =>
      have living : entry.expired = false := by simpa using living
      split
      · next decommissioned =>
        unfold decommission
        rw [found]
        dsimp only
        split
        · exact .none
        · next fresh =>
          exact wrote_write unwinds found rfl fun _ => decommissions living decommissioned (by simpa using fresh)
      · next commissioned =>
        split
        · next replaced => exact wrote_resolveTo unwinds (resolves living (by simpa using commissioned) replaced)
        · exact .none

/-- What a step that goes onward has the store do. -/
theorem wrote_event {deployment : Deployment} {event : Event} (unwinds : Unwinds deployment.held)
    (drawn : Deployment.draws deployment.held event = true) (onward : Onward deployment event) :
    ∃ calls more, deployment.calls termAt event nowNs = calls ++ more ∧ Wrote deployment.held event.settles calls ∧
      (more = [] ∨ ∃ sequence, more = [.readTo sequence]) := by
  have alone {calls : List Call} (wrote : Wrote deployment.held event.settles calls) :
      ∃ first more, calls = first ++ more ∧ Wrote deployment.held event.settles first ∧
        (more = [] ∨ ∃ sequence, more = [.readTo sequence]) :=
    ⟨calls, [], (List.append_nil calls).symm, wrote, Or.inl rfl⟩
  have absent {instrumentId : String}
      (drawn : (begins instrumentId localPrefix && (deployment.held.byId[instrumentId]?).isNone) = true) :
      deployment.held.byId[instrumentId]? = none := Option.isNone_iff_eq_none.mp (Bool.and_eq_true_iff.mp drawn).2
  cases event with
  | resolve request instanceId => exact alone (wrote_resolveMatched unwinds request instanceId)
  | answerResolve place said instrumentId template lacking =>
    refine alone ?_
    unfold Deployment.calls
    dsimp only
    split
    · next asking waits => exact wrote_resolveUnmatched unwinds (onward (by rw [waits]; rfl)) (absent drawn)
    · exact .none
  | lateAnswer place said instrumentId template lacking =>
    refine alone ?_
    unfold Deployment.calls
    dsimp only
    split
    · next asking late => exact wrote_lateCalls unwinds (absent drawn) (onward asking late)
    · exact .none
  | answer instrumentId said lacking => exact alone (wrote_applyAnswer unwinds onward)
  | complete completion => exact alone (wrote_completeOne unwinds completion)
  | merge request => exact alone (wrote_mergeAs unwinds onward)
  | platformAnswer forInstrumentId answer contract =>
    exact alone (wrote_keepPlatformAnswer unwinds forInstrumentId answer contract)
  | templateFields instrumentId instanceId fields repeated =>
    exact alone (wrote_offerTemplateFields unwinds instrumentId instanceId fields repeated)
  | bounds member instanceId contract => exact alone (wrote_offerBounds unwinds member instanceId contract)
  | line instrumentId line => exact alone (wrote_lineOf unwinds instrumentId line)
  | holdBack instrumentId => exact alone (wrote_holdBack unwinds instrumentId)
  | makeLine instrumentId lacking => exact alone (wrote_makeLine unwinds onward)
  | feed entry lacking =>
    by_cases read : entry.sequence ≤ deployment.held.feedCursor
    · have none_ : deployment.calls termAt (.feed entry lacking) nowNs = [] := if_pos read
      rw [none_]
      exact alone .none
    · have some_ : deployment.calls termAt (.feed entry lacking) nowNs =
          followed termAt deployment.held entry lacking nowNs ++ [.readTo entry.sequence] := if_neg read
      exact ⟨_, _, some_, wrote_followed unwinds (not_le.mp read) onward, Or.inr ⟨_, rfl⟩⟩

theorem made_within (deployment : Deployment) (label : Move) :
    deployment.made termAt label <+: deployment.calls termAt label.event label.nowNs := by
  unfold Deployment.made
  dsimp only
  split
  · exact List.prefix_refl _
  · exact List.take_prefix _ _

/-- A step that goes onward keeps what the records held keep to. -/
theorem unwinds_move {deployment next : Deployment} {label : Move} (unwinds : Unwinds deployment.held)
    (onward : Onward deployment label.event) (moved : deployment.move termAt label = some next) :
    Unwinds next.held := by
  unfold Deployment.move at moved
  split at moved
  · next drawn =>
    cases moved
    obtain ⟨calls, more, all, wrote, ends⟩ := @wrote_event termAt label.nowNs deployment _ unwinds drawn onward
    have first := @made_within termAt deployment label
    rw [all] at first
    change Unwinds (deployment.held.calls (deployment.made termAt label))
    rcases ends with rfl | ⟨sequence, rfl⟩
    · rw [List.append_nil] at first
      exact unwinds_made unwinds wrote first
    · rcases List.prefix_concat_iff.mp first with whole | partly
      · rw [whole, calls_snoc]
        exact (unwinds_made unwinds wrote (List.prefix_refl _)).readTo sequence
      · exact unwinds_made unwinds wrote partly
  · cases moved

/-- What a step leaves of what was replaced: a resolve, an answer or an entry of the feed writes no record that was, and
none is answered. -/
structure LeavesReplaced (termAt : TermAt) (deployment : Deployment) (label : Move) : Prop where
  writes : label.event.settles = true → ∀ call ∈ deployment.made termAt label, ∀ record, call.record = some record →
    deployment.held.replacementOf record.instrumentId = none
  answers : ∀ reply, deployment.reply termAt label.event label.nowNs = some reply → reply.found = true →
    deployment.held.replacementOf reply.instrumentId = none

theorem answers_joined (unwinds : Unwinds held) {request : ResolveIdentifierRequest} {asked : List Asked}
    {found instanceId : String} (open_ : held.replacementOf found = none)
    (told : (joined termAt held request asked found instanceId nowNs).1.found = true) :
    held.replacementOf (joined termAt held request asked found instanceId nowNs).1.instrumentId = none := by
  unfold joined at told ⊢
  split
  · exact open_
  · next record holds =>
    rw [holds] at told
    dsimp only at told ⊢
    have named := unwinds.named found record holds
    split
    · next others =>
      rw [if_pos others] at told
      cases told
    · have same {taken : Instrument} (same : taken.instrumentId = record.instrumentId) :
          held.replacementOf taken.instrumentId = none := by
        rw [same, named]
        exact open_
      split
      · exact same (instrumentId_takeStated _ _)
      · exact same (instrumentId_takeStated _ _)

theorem answers_resolveMatched (unwinds : Unwinds held) {request : ResolveIdentifierRequest} {instanceId : String}
    {reply : ResolveIdentifierReply} (answers : (resolveMatched termAt held request instanceId nowNs).1 = .answered reply)
    (told : reply.found = true) : held.replacementOf reply.instrumentId = none := by
  unfold resolveMatched at answers
  dsimp only at answers
  split at answers
  · cases answers
    cases told
  · split at answers
    · cases answers
    · next found meeting meets =>
      cases answers
      exact answers_joined unwinds (open_of_met unwinds meets) told
    · cases answers
      cases told

theorem answers_resolveUnmatched (unwinds : Unwinds held) {request : ResolveIdentifierRequest} {asked : List Asked}
    {instanceId instrumentId : String} {said : PlatformSaid} {template : Option Template} {lacking : List String}
    (open_ : KeepsOpen held said) (absent : held.byId[instrumentId]? = none)
    (told : (resolveUnmatched termAt held request asked instanceId instrumentId nowNs said template lacking).1.found = true) :
    held.replacementOf
      (resolveUnmatched termAt held request asked instanceId instrumentId nowNs said template lacking).1.instrumentId =
        none := by
  have minting (reason : ProvisionalReason) : held.replacementOf
      (mint termAt held request asked instanceId instrumentId nowNs template reason).1.instrumentId = none := by
    unfold mint
    dsimp only
    split
    · next record minted =>
      have drawn : record.instrumentId = instrumentId := by
        have same := congrArg (fun stood => stood.1.instrumentId) minted
        cases before : (held.mintedFor[mintKey (mintedCandidate termAt held request asked instanceId instrumentId nowNs
            template reason).identifiers asked]?).bind fun id => held.byId[id]? with
        | none =>
          rw [Held.minted_none before] at same
          exact same.symm.trans (instrumentId_takeStated _ _)
        | some kept =>
          rw [Held.minted_some before] at minted
          cases minted
      change held.replacementOf record.instrumentId = none
      rw [drawn]
      exact unwinds.open_of_absent absent
    · exact unwinds.current_open _
  cases said with
  | record master =>
    have open_ := open_ master rfl
    unfold resolveUnmatched keepPlatformRecord
    dsimp only
    split
    · next record found =>
      have named := unwinds.named _ record found
      split
      · change held.replacementOf (takeListedTerms _ _).1.instrumentId = none
        rw [takeListedTerms_eq]
        change held.replacementOf (takeStated termAt _ _).1.instrumentId = none
        rw [instrumentId_takeStated, instrumentId_joinPlatform held record asked master, named]
        exact open_
      · change held.replacementOf record.instrumentId = none
        rw [named]
        exact open_
    · next missing =>
      change held.replacementOf (held.minted _ (platformKey master)).1.instrumentId = none
      cases before : (held.mintedFor[platformKey master]?).bind fun id => held.byId[id]? with
      | none =>
        rw [Held.minted_none before]
        change held.replacementOf (platformCandidate _ _ _ _ _ _ _ _).instrumentId = none
        rw [instrumentId_platformCandidate]
        exact open_
      | some kept =>
        obtain ⟨minted, forKey, there⟩ := Option.bind_eq_some_iff.mp before
        rw [unwinds.platform _ minted forKey, missing] at there
        cases there
  | _ =>
    unfold resolveUnmatched at told ⊢
    dsimp only at told ⊢
    split
    · exact minting _
    · next short =>
      rw [if_neg short] at told
      cases told

theorem leavesReplaced_move {deployment next : Deployment} {label : Move} (unwinds : Unwinds deployment.held)
    (onward : Onward deployment label.event) (moved : deployment.move termAt label = some next) :
    LeavesReplaced termAt deployment label := by
  unfold Deployment.move at moved
  split at moved
  · next drawn =>
    refine ⟨fun settles call member record writes => ?_, fun reply answers told => ?_⟩
    · obtain ⟨calls, more, all, wrote, ends⟩ := @wrote_event termAt label.nowNs deployment _ unwinds drawn onward
      rw [settles] at wrote
      have within := (@made_within termAt deployment label).subset member
      rw [all] at within
      rcases List.mem_append.mp within with among | after
      · exact open_of_wrote wrote call among record writes
      · rcases ends with rfl | ⟨sequence, rfl⟩
        · exact absurd after List.not_mem_nil
        · obtain rfl := List.mem_singleton.mp after
          cases writes
    · revert answers onward drawn
      cases label.event with
      | resolve request instanceId =>
        intro _ _ answers
        unfold Deployment.reply at answers
        dsimp only at answers
        split at answers
        · next reply' answered =>
          cases answers
          exact answers_resolveMatched unwinds answered told
        · cases answers
      | answerResolve place said instrumentId template lacking =>
        intro onward drawn answers
        obtain ⟨asking, waits, rfl⟩ := Option.map_eq_some_iff.mp answers
        exact answers_resolveUnmatched unwinds (onward (by rw [waits]; rfl))
          (Option.isNone_iff_eq_none.mp (Bool.and_eq_true_iff.mp drawn).2) told
      | _ =>
        intro _ _ answers
        cases answers
  · cases moved

/-- In a run whose steps go onward what an ID became has one answer, and each such step after it leaves what was
replaced. -/
theorem one_answer_of_run (termAt : TermAt) {labels : List Move} {deployment : Deployment}
    (run : Run (fun state label next => Onward state label.event ∧ state.move termAt label = some next)
      {} labels deployment) :
    OneAnswer deployment.held ∧
      ∀ label next, Onward deployment label.event → deployment.move termAt label = some next →
        LeavesReplaced termAt deployment label := by
  have unwinds : Unwinds deployment.held :=
    run.invariant_of (fun state => Unwinds state.held) unwinds_nil
      fun _ _ _ unwinds onward moved => unwinds_move unwinds onward moved
  exact ⟨unwinds.oneAnswer, fun label next onward moved => leavesReplaced_move unwinds onward moved⟩

/-- Nothing was replaced before a merge, and no record of the platform's is kept. -/
def firstReplaced (deployment : Deployment) : Event → Bool
  | .resolve _ _ | .answerResolve _ .notAsked _ _ _ => true
  | .merge _ => deployment.held.replacements.isEmpty
  | _ => false

theorem onward_of_first {deployment : Deployment} {event : Event} (first : firstReplaced deployment event = true) :
    Onward deployment event := by
  unfold firstReplaced at first
  split at first
  · trivial
  · intro _ master said
    cases said
  · have bare (id : String) : deployment.held.replacementOf id = none := by
      unfold Held.replacementOf
      rw [Std.ExtTreeMap.isEmpty_iff.mp first]
      simp
    intro kept merged _ _ _ _ _ _ _ _ _ from_ _
    exact Pointers.endsWithin_last (bare from_)
  · cases first

def moveFirst (termAt : TermAt) (deployment : Deployment) (label : Move) : Option Deployment :=
  if firstReplaced deployment label.event then deployment.move termAt label else none

theorem moveFirst_some {deployment next : Deployment} {label : Move} (moved : moveFirst termAt deployment label = some next) :
    Onward deployment label.event ∧ deployment.move termAt label = some next := by
  unfold moveFirst at moved
  split at moved
  · next first => exact ⟨onward_of_first first, moved⟩
  · cases moved

theorem merged_answers_kept : ∃ deployment : Deployment,
    OneAnswer deployment.held ∧ current deployment.held "LCL-2" = "LCL-1" := by
  have computed : (mergedIntoOffered.foldlM (moveFirst fun _ _ _ => none) {}).any
      (fun deployment => current deployment.held "LCL-2" == "LCL-1") = true := by
    decide +kernel
  obtain ⟨deployment, run, became⟩ := Run.of_any computed
  have run := run.imp fun before label after moved => moveFirst_some moved
  exact ⟨deployment, (one_answer_of_run _ run).1, beq_iff_eq.mp became⟩

/-- The platform's record INS-1 merged into a provisional one, and the provisional one resolved to it after. -/
def resolvedIntoMerged : List Move :=
  keptAs (figiStated "BBG000000001" "Acme") "blotter-1" "LCL-2" ++ [
    { event := .resolve (figiStated "BBG000000002" "Acme") "blotter-1", nowNs := 3 },
    { event := .answerResolve 0 (.record { instrumentId := "INS-1" }) "LCL-3" none [], nowNs := 4 }, {
      nowNs := 5
      event := .merge {
        keptInstrumentId := "LCL-2"
        mergedInstrumentId := "INS-1"
        keptVersion := 1
        mergedVersion := 1
        note := "one security"
        person := "ann" } },
    { event := .answer "LCL-2" (.record { instrumentId := "INS-1" }) [], nowNs := 6 }]

/-- A record resolved to one that was merged into it leaves both replaced. -/
theorem resolved_into_merged :
    ¬ ∀ (termAt : TermAt) (labels : List Move) (deployment : Deployment),
      Run (fun state label next => state.move termAt label = some next) {} labels deployment →
        OneAnswer deployment.held := by
  intro claim
  have computed : (resolvedIntoMerged.foldlM (Deployment.move fun _ _ _ => none) {}).any
      (fun deployment => (deployment.held.replacementOf (current deployment.held "LCL-2")).isSome) = true := by
    decide +kernel
  obtain ⟨deployment, run, replaced⟩ := Run.of_any computed
  rw [(claim _ _ _ run).open_ "LCL-2"] at replaced
  cases replaced

end MeridianCore.Instruments
