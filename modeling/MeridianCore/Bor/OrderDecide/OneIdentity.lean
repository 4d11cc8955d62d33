import MeridianCore.Bor.Orders.FactIndex
import MeridianCore.Bor.OrderDecide.Reported
import MeridianCore.Bor.OrderDecide.Settling

namespace MeridianCore.Bor

/-- What holds of a key that tells a venue's fact. -/
def FactKey (key : String) : Prop := ∃ sender execution, key = venueKey sender execution

/-- An order recorded under the venue's identifier is recorded under no fact's key. -/
theorem recordedOrderKey_ne {venueOrderId key : String} (plain : '\u001f' ∉ venueOrderId.toList) (fact : FactKey key) :
    recordedOrderKey venueOrderId ≠ key := by
  rintro same
  obtain ⟨sender, execution, rfl⟩ := fact
  have one : (recordedOrderKey venueOrderId).toList.count '\u001f' = 1 := by
    have absent := List.count_eq_zero.mpr plain
    simp [recordedOrderKey, keyOf, String.intercalate_cons_cons, absent]
  have many : 3 ≤ (venueKey sender execution).toList.count '\u001f' := by
    simp only [venueKey, keyOf, String.intercalate_cons_cons, String.intercalate_singleton, String.toList_append,
      List.count_append]
    have separator : List.count '\u001f' "\u001f".toList = 1 := by decide
    omega
  rw [← same, one] at many
  omega

namespace FactIndex
variable {index : FactIndex}

/-- An act that tells no fact: it records none, keeps none and claims none. -/
def Bare : Act → Prop
  | .opened _ _ | .executed _ _ _ _ _ _ | .unplaced _ _ | .placed _ => False
  | _ => True

/-- An act of a command that reports no execution. An order it records has an identifier that holds no
separator. -/
def Aside : Act → Prop
  | .opened order _ => '\u001f' ∉ order.venueOrderId.toList
  | .executed _ _ _ _ _ _ => False
  | .unplaced fact _ => ∀ execution, fact.fact ≠ some (.execution execution)
  | _ => True

/-- The same facts told, and whatever was kept kept still. -/
structure SameFacts (before after : FactIndex) : Prop where
  recorded : ∀ key, FactKey key → after.recorded[key]? = before.recorded[key]?
  waiting : after.waiting = before.waiting
  kept : ∀ id, before.kept id → after.kept id

theorem SameFacts.refl (index : FactIndex) : SameFacts index index := ⟨fun _ _ => rfl, rfl, fun _ held => held⟩

theorem SameFacts.trans {a b c : FactIndex} (first : SameFacts a b) (second : SameFacts b c) : SameFacts a c where
  recorded key fact := (second.recorded key fact).trans (first.recorded key fact)
  waiting := second.waiting.trans first.waiting
  kept id held := second.kept id (first.kept id held)

theorem aside_of_bare {act : Act} (bare : Bare act) : Aside act := by
  cases act <;> first | exact bare.elim | trivial

theorem same_aside {act : Act} (aside : Aside act) : SameFacts index (index.after act) := by
  cases act with
  | opened order released =>
    simp only [after]
    split
    · refine ⟨fun key fact => ?_, rfl, fun _ held => held⟩
      have other := recordedOrderKey_ne aside fact
      rw [Std.ExtTreeMap.getElem?_insert]
      simp [other]
    · exact .refl index
  | executed execution sender code client taken row => exact aside.elim
  | unplaced fact sender =>
    refine ⟨fun _ _ => rfl, ?_, fun id held => ?_⟩
    · simp only [after]
      split
      · next execution stated => exact (aside execution stated).elim
      · rfl
    · simp only [after, held, Bool.or_true]
  | _ => exact .refl index

theorem same_asides {acts : List Act} (asides : ∀ act ∈ acts, Aside act) : SameFacts index (index.afterAll acts) := by
  induction acts generalizing index with
  | nil => exact .refl index
  | cons act rest ih =>
    refine (same_aside (asides act List.mem_cons_self)).trans (ih fun other member => ?_)
    exact asides other (List.mem_cons_of_mem _ member)

end FactIndex

namespace Ledger

/-- An execution held stays held. -/
theorem executionAfter_isSome (id : String) {before : Option ExecutionHeld} (act : Act) (held : before.isSome) :
    (executionAfter id before act).isSome := by
  have mapped (change : ExecutionHeld → ExecutionHeld) : (before.map change).isSome := by
    rw [Option.isSome_map]
    exact held
  cases act with
  | executed execution sender code client taken row =>
    simp only [executionAfter]
    split
    · rfl
    · split
      · exact mapped _
      · exact held
  | factorRevised executionId taken row lots =>
    simp only [executionAfter]
    split
    · exact mapped _
    · exact held
  | accepted ids orderId placementId counts note =>
    simp only [executionAfter]
    split
    · exact mapped _
    · exact held
  | dontKnow ids reason text =>
    simp only [executionAfter]
    split
    · exact mapped _
    · exact held
  | capacityBackfilled executionId capacity =>
    simp only [executionAfter]
    split
    · exact mapped _
    · exact held
  | _ => exact held

theorem execution_foldl_isSome (id : String) {acts : List Act} {before : Option ExecutionHeld} (held : before.isSome) :
    (acts.foldl (executionAfter id) before).isSome := by
  induction acts generalizing before with
  | nil => exact held
  | cons act rest ih => exact ih (executionAfter_isSome id act held)

end Ledger

/-- What an entry made leaves of the facts told in its account's book, and of the executions held. -/
theorem facts_of_made {book : Book} {head : Nat} {ctx : Context} {draft : Draft} {act : Made}
    (decided : made book head ctx draft = .ok act) :
    act.held.ledger.facts = book.ledger.facts.afterAll act.entry.body.acts ∧
      act.held.ledger.view = book.ledger.view.afterAll act.entry.body.acts := by
  obtain ⟨applied, -, entry⟩ := made_ok decided
  have acts : act.entry.body.acts = draft.body.acts := by rw [entry]; rfl
  rw [acts]
  exact ⟨Book.facts_of_applied applied, Book.view_of_applied applied⟩

theorem facts_of_finish {book : Book} {head : Nat} {ctx : Context} {plan : Plan} {act : Made}
    (finished : finish book head ctx plan = .ok act) :
    act.held.ledger.facts = book.ledger.facts.afterAll act.entry.body.acts ∧
      act.held.ledger.view = book.ledger.view.afterAll act.entry.body.acts := by
  obtain ⟨more, -, decided⟩ := finish_ok finished
  exact facts_of_made decided

/-- The key `orders::venue_key` tells a reported execution by, where the venue identifies it. -/
def identityOf (sender : String) (request : ReportExecutionRequest) : Option String :=
  if request.venueExecutionId = "" then none
  else some (venueKey sender {
    venueExecutionId := request.venueExecutionId
    finality := request.finality
    supersedes := request.supersedes })

/-- The key an execution kept unplaced is told by, where the venue identifies it. -/
def unplacedKey (sender : String) (request : ReportExecutionRequest) : Option String :=
  if request.venueExecutionId = "" then none else some (keyOf [sender, request.venueExecutionId])

/-- An execution as the request identifies it. -/
structure Names (request : ReportExecutionRequest) (execution : Execution) : Prop where
  venueExecutionId : execution.venueExecutionId = request.venueExecutionId
  finality : execution.finality = request.finality
  supersedes : execution.supersedes = request.supersedes

theorem Names.venueKey {request : ReportExecutionRequest} {execution : Execution} (names : Names request execution)
    (sender : String) : Bor.venueKey sender execution = Bor.venueKey sender {
      venueExecutionId := request.venueExecutionId
      finality := request.finality
      supersedes := request.supersedes } := by
  simp only [Bor.venueKey, finalityOf, names.venueExecutionId, names.finality, names.supersedes]

/-- The acts of a report that records its execution and claims what of it was kept unplaced. -/
inductive Records (book : Book) (ctx : Context) (request : ReportExecutionRequest) : List Act → Prop where
  | intro (execution : Execution) (code client taken : String) (row : FactorRow) (before after : List Act)
      (names : Names request execution) (fresh : notRepeated book ctx.instanceId execution = .ok ())
      (bare : ∀ act ∈ before ++ after, FactIndex.Bare act) :
      Records book ctx request (.executed execution ctx.instanceId code client taken row ::
        (before ++ claimedUnplaced book ctx.instanceId execution ++ after))

/-- The acts of a report kept unplaced. -/
inductive Keeps (book : Book) (ctx : Context) (request : ReportExecutionRequest) : List Act → Prop where
  | intro (fact : UnplacedFact) (after : List Act) (stated : fact.fact = some (.execution request))
      (fresh : ∀ key, unplacedKey ctx.instanceId request = some key →
        (book.ledger.unplacedExecutions[key]?).bind (fun id => book.ledger.unplaced[id]?) = none)
      (bare : ∀ act ∈ after, FactIndex.Bare act) : Keeps book ctx request (.unplaced fact ctx.instanceId :: after)

section report
variable {book : Book} {ctx : Context} {request : ReportExecutionRequest} {bust : Bool} {plan : Plan}

theorem bare_of_settle {acts : List Act} (settles : ∀ act ∈ acts, Ledger.SettleAct act) :
    ∀ act ∈ acts, FactIndex.Bare act := by
  intro act member
  cases settles act member <;> trivial

theorem bare_lateFact {orderId executionId : String} {state : OrderState} :
    ∀ act ∈ lateFact ctx orderId executionId state, FactIndex.Bare act := by
  intro act member
  unfold lateFact at member
  split at member
  · cases List.mem_singleton.mp member
    trivial
  · cases member

theorem bare_afterFacts {orderId why : String} : ∀ act ∈ afterFacts book orderId why, FactIndex.Bare act := by
  intro act member
  obtain ⟨held, -, acted⟩ := List.mem_filterMap.mp member
  unfold afterFact at acted
  split at acted <;> cases acted <;> trivial

theorem bare_heldAlertsFor {acts : List Act} : ∀ act ∈ heldAlertsFor ctx book acts, FactIndex.Bare act := by
  intro act member
  obtain ⟨index, inside, rfl⟩ := List.mem_mapIdx.mp member
  trivial

theorem records_of_placed {orderId placementId : String} {more : List Act}
    (planned : reportPlaced book ctx request bust orderId placementId = .ok plan)
    (settles : ∀ act ∈ more, Ledger.SettleAct act) : Records book ctx request (plan.acts ++ more) := by
  unfold reportPlaced at planned
  obtain ⟨order, -, planned⟩ := bind_ok.mp planned
  obtain ⟨-, -, planned⟩ := bind_ok.mp planned
  obtain ⟨cross, -, planned⟩ := bind_ok.mp planned
  obtain ⟨⟨⟩, fresh, planned⟩ := bind_ok.mp planned
  obtain ⟨state, -, planned⟩ := bind_ok.mp planned
  obtain ⟨lines, -, planned⟩ := bind_ok.mp planned
  obtain rfl := Except.ok.inj planned
  let after := afterFacts book orderId
    (afterBooking (placedExecution book ctx request order orderId placementId cross) bust)
  have whole := Records.intro _ request.venueAccountCode request.venueClientOrderId
    (factorTaken ctx request order.order.instrumentId).1 (factorTaken ctx request order.order.instrumentId).2
    (lateFact ctx orderId (placedExecution book ctx request order orderId placementId cross).executionId state)
    (heldAlertsFor ctx book after ++ after ++ more) ⟨rfl, rfl, rfl⟩ fresh ?_
  · rw [← List.append_assoc, ← List.append_assoc] at whole
    exact whole
  · intro act member
    rcases List.mem_append.mp member with late | member
    · exact bare_lateFact act late
    · rcases List.mem_append.mp member with member | settled
      · rcases List.mem_append.mp member with raised | moved
        · exact bare_heldAlertsFor act raised
        · exact bare_afterFacts act moved
      · exact bare_of_settle settles act settled

theorem records_of_unmatched {more : List Act} (planned : reportUnmatched book ctx request bust = .ok plan)
    (settles : ∀ act ∈ more, Ledger.SettleAct act) : Records book ctx request (plan.acts ++ more) := by
  unfold reportUnmatched at planned
  obtain ⟨-, planned⟩ := guard_ok.mp planned
  obtain ⟨-, planned⟩ := guard_ok.mp planned
  obtain ⟨⟨⟩, fresh, planned⟩ := bind_ok.mp planned
  obtain rfl := Except.ok.inj planned
  refine Records.intro _ _ _ _ _ [] more ?_ fresh (bare_of_settle settles)
  generalize (if request.supersedes = "" then none else book.ledger.executions[request.supersedes]?) = superseded
  cases superseded with
  | none => exact ⟨rfl, rfl, rfl⟩
  | some held => cases bust <;> exact ⟨rfl, rfl, rfl⟩

theorem keeps_of_kept {reason : UnplacedReason} {more : List Act}
    (planned : keptUnplaced book ctx request reason = .ok plan) (settles : ∀ act ∈ more, Ledger.SettleAct act) :
    Keeps book ctx request (plan.acts ++ more) := by
  unfold keptUnplaced at planned
  dsimp only at planned
  split at planned
  · cases planned
  · next unseen =>
    cases planned
    refine Keeps.intro _ more rfl (fun key keyed => ?_) (bare_of_settle settles)
    unfold unplacedKey at keyed
    split at keyed
    · cases keyed
    · next named =>
      cases keyed
      rwa [if_neg named] at unseen

theorem acts_of_finish_ok {head : Nat} {act : Made} (finished : finish book head ctx plan = .ok act) :
    ∃ more, (∀ each ∈ more, Ledger.SettleAct each) ∧ act.entry.body.acts = plan.acts ++ more := by
  obtain ⟨more, settles, decided⟩ := finish_ok finished
  obtain ⟨-, -, entry⟩ := made_ok decided
  refine ⟨more, settles, ?_⟩
  rw [entry]
  rfl

/-- A report's entry keeps it unplaced where it is placed on nothing held, and else records it. -/
theorem took_of_report {head : Nat} {act : Made} (decided : reportExecution book head ctx request = .ok act) :
    (placedOn book ctx request = .ok .unplaced ∧ Keeps book ctx request act.entry.body.acts) ∨
      (placedOn book ctx request ≠ .ok .unplaced ∧ Records book ctx request act.entry.body.acts) := by
  unfold reportExecution at decided
  obtain ⟨plan, planned, finished⟩ := bind_ok.mp decided
  obtain ⟨more, settles, acts⟩ := acts_of_finish_ok finished
  rw [acts]
  obtain ⟨bust, -, placed⟩ := executionPlan_ok planned
  rcases placed with ⟨orderId, placementId, on, placed⟩ | ⟨on, kept⟩ | ⟨on, unmatched⟩
  · exact Or.inr ⟨by simp [on], records_of_placed placed settles⟩
  · exact Or.inl ⟨on, keeps_of_kept kept settles⟩
  · exact Or.inr ⟨by simp [on], records_of_unmatched unmatched settles⟩

theorem fresh_of_notRepeated {sender key : String} {execution : Execution} (names : Names request execution)
    (fresh : notRepeated book sender execution = .ok ()) (named : identityOf sender request = some key) :
    (book.ledger.venueFacts[key]?).bind (fun earlier => book.ledger.executions[earlier]?) = none := by
  unfold identityOf at named
  split at named
  · cases named
  · next identified =>
    cases named
    unfold notRepeated at fresh
    rw [if_neg (names.venueExecutionId ▸ identified), names.venueKey] at fresh
    split at fresh
    · obtain ⟨reply, -, fresh⟩ := bind_ok.mp fresh
      cases fresh
    · assumption

theorem recorded_of_repeated {reply : FactReply}
    (repeated : notRepeated book ctx.instanceId (executionOf book ctx request) = .error (.repeated reply)) :
    ∃ key, identityOf ctx.instanceId request = some key ∧ (book.ledger.venueFacts[key]?).isSome := by
  have names : Names request (executionOf book ctx request) := ⟨rfl, rfl, rfl⟩
  unfold notRepeated at repeated
  split at repeated
  · cases repeated
  · next identified =>
    rw [names.venueKey] at repeated
    refine ⟨_, if_neg identified, ?_⟩
    split at repeated
    · next held found =>
      obtain ⟨earlier, recorded, -⟩ := Option.bind_eq_some_iff.mp found
      rw [recorded]
      rfl
    · cases repeated

theorem waiting_of_repeated {reason : UnplacedReason} {reply : FactReply}
    (repeated : keptUnplaced book ctx request reason = .error (.repeated reply)) :
    ∃ key, unplacedKey ctx.instanceId request = some key ∧ (book.ledger.unplacedExecutions[key]?).isSome := by
  unfold keptUnplaced at repeated
  dsimp only at repeated
  split at repeated
  · next kept seen =>
    split at seen
    · cases seen
    · next identified =>
      obtain ⟨unplacedId, waits, -⟩ := Option.bind_eq_some_iff.mp seen
      refine ⟨_, if_neg identified, ?_⟩
      rw [waits]
      rfl
  · cases repeated

/-- A report recorded claims exactly what of its sender and venue execution ID is kept unplaced. -/
theorem placed_iff {acts : List Act} (records : Records book ctx request acts) :
    (∃ unplacedId, Act.placed unplacedId ∈ acts) ↔
      ∃ key, unplacedKey ctx.instanceId request = some key ∧ (book.ledger.unplacedExecutions[key]?).isSome := by
  obtain ⟨execution, code, client, taken, row, first, rest, names, -, bare⟩ := records
  have claims : (∃ unplacedId, Act.placed unplacedId ∈ claimedUnplaced book ctx.instanceId execution) ↔
      ∃ key, unplacedKey ctx.instanceId request = some key ∧ (book.ledger.unplacedExecutions[key]?).isSome := by
    unfold claimedUnplaced unplacedKey
    rw [names.venueExecutionId]
    split
    · simp
    · simp only [Option.some.injEq, exists_eq_left']
      cases book.ledger.unplacedExecutions[keyOf [ctx.instanceId, request.venueExecutionId]]? with
      | none => simp
      | some unplacedId => simp
  rw [← claims]
  refine exists_congr fun unplacedId => ⟨fun member => ?_, fun claimed => ?_⟩
  · rcases List.mem_cons.mp member with same | member
    · cases same
    · rcases List.mem_append.mp member with member | last
      · rcases List.mem_append.mp member with early | claimed
        · exact (bare _ (List.mem_append_left _ early)).elim
        · exact claimed
      · exact (bare _ (List.mem_append_right _ last)).elim
  · exact List.mem_cons_of_mem _ (List.mem_append_left _ (List.mem_append_right _ claimed))

theorem Records.unrecorded {acts : List Act} {key : String} (records : Records book ctx request acts)
    (named : identityOf ctx.instanceId request = some key) :
    (book.ledger.venueFacts[key]?).bind (fun earlier => book.ledger.executions[earlier]?) = none := by
  obtain ⟨execution, code, client, taken, row, first, rest, names, fresh, -⟩ := records
  exact fresh_of_notRepeated names fresh named

theorem Keeps.unkept {acts : List Act} {key : String} (keeps : Keeps book ctx request acts)
    (named : unplacedKey ctx.instanceId request = some key) :
    (book.ledger.unplacedExecutions[key]?).bind (fun id => book.ledger.unplaced[id]?) = none := by
  obtain ⟨fact, rest, -, fresh, -⟩ := keeps
  exact fresh key named

theorem unplaced_of_keeps {acts : List Act} (keeps : Keeps book ctx request acts) (unplacedId : String) :
    Act.placed unplacedId ∉ acts := by
  obtain ⟨fact, rest, -, -, bare⟩ := keeps
  intro member
  rcases List.mem_cons.mp member with same | member
  · cases same
  · exact bare _ member

end report

/-- What an entry leaves of its book's facts: at most one fact newly recorded, and one newly kept unplaced. -/
structure Leaves (before after : Book) (recorded waiting : Option String) : Prop where
  recorded : ∀ key, FactKey key →
    ((after.ledger.venueFacts[key]?).isSome ↔ (before.ledger.venueFacts[key]?).isSome ∨ recorded = some key)
  executed : (∀ key id, FactKey key → before.ledger.venueFacts[key]? = some id → (before.ledger.executions[id]?).isSome) →
    ∀ key id, FactKey key → after.ledger.venueFacts[key]? = some id → (after.ledger.executions[id]?).isSome
  waiting : ∀ key : String, (after.ledger.unplacedExecutions[key]?).isSome ↔
    (before.ledger.unplacedExecutions[key]?).isSome ∨ waiting = some key
  kept : (∀ key id : String, before.ledger.unplacedExecutions[key]? = some id → (before.ledger.unplaced[id]?).isSome) →
    ∀ key id : String, after.ledger.unplacedExecutions[key]? = some id → (after.ledger.unplaced[id]?).isSome

section leaves
variable {before after : Book} {acts : List Act}

/-- An execution held before an entry's acts is held after. -/
theorem execution_stays (viewed : after.ledger.view = before.ledger.view.afterAll acts) {id : String}
    (held : (before.ledger.executions[id]?).isSome) : (after.ledger.executions[id]?).isSome := by
  have same := congrFun (congrArg BookedView.execution viewed) id
  rw [BookedView.execution_afterAll, Ledger.view_execution, Ledger.view_execution] at same
  have stays := @Ledger.execution_foldl_isSome id acts ((before.ledger.executions[id]?).map ExecutionHeld.bare)
    (by rw [Option.isSome_map]; exact held)
  rw [← same, Option.isSome_map] at stays
  exact stays

theorem leaves_of_asides (facts : after.ledger.facts = before.ledger.facts.afterAll acts)
    (viewed : after.ledger.view = before.ledger.view.afterAll acts) (asides : ∀ act ∈ acts, FactIndex.Aside act) :
    Leaves before after none none := by
  have same := @FactIndex.same_asides before.ledger.facts acts asides
  rw [← facts] at same
  have recorded : ∀ key, FactKey key → after.ledger.venueFacts[key]? = before.ledger.venueFacts[key]? := same.recorded
  have waiting : after.ledger.unplacedExecutions = before.ledger.unplacedExecutions := same.waiting
  refine ⟨fun key fact => ?_, fun held key id fact found => ?_, fun key => ?_, fun held key id found => ?_⟩
  · simp [recorded key fact]
  · rw [recorded key fact] at found
    exact execution_stays viewed (held key id fact found)
  · simp [waiting]
  · rw [waiting] at found
    exact same.kept id (held key id found)

variable {ctx : Context} {request : ReportExecutionRequest}

theorem factKey_identityOf {sender key : String} (named : identityOf sender request = some key) : FactKey key := by
  unfold identityOf at named
  split at named
  · cases named
  · cases named
    exact ⟨sender, _, rfl⟩

theorem leaves_of_records (records : Records before ctx request acts)
    (facts : after.ledger.facts = before.ledger.facts.afterAll acts)
    (viewed : after.ledger.view = before.ledger.view.afterAll acts) :
    Leaves before after (identityOf ctx.instanceId request) none := by
  obtain ⟨execution, code, client, taken, row, first, rest, names, -, bare⟩ := records
  have asides : ∀ act ∈ first ++ claimedUnplaced before ctx.instanceId execution ++ rest, FactIndex.Aside act := by
    intro act member
    rcases List.mem_append.mp member with member | last
    · rcases List.mem_append.mp member with early | claimed
      · exact FactIndex.aside_of_bare (bare act (List.mem_append_left _ early))
      · unfold claimedUnplaced at claimed
        split at claimed
        · cases claimed
        · split at claimed
          · cases List.mem_singleton.mp claimed
            trivial
          · cases claimed
    · exact FactIndex.aside_of_bare (bare act (List.mem_append_right _ last))
  have same := @FactIndex.same_asides
    (before.ledger.facts.after (.executed execution ctx.instanceId code client taken row)) _ asides
  rw [← FactIndex.afterAll_cons, ← facts] at same
  have newly : (after.ledger.executions[execution.executionId]?).isSome := by
    have found := congrFun (congrArg BookedView.execution viewed) execution.executionId
    rw [BookedView.execution_afterAll, Ledger.view_execution, List.foldl_cons] at found
    have stays := @Ledger.execution_foldl_isSome execution.executionId
      (first ++ claimedUnplaced before ctx.instanceId execution ++ rest)
      (Ledger.executionAfter execution.executionId (before.ledger.view.execution execution.executionId)
        (.executed execution ctx.instanceId code client taken row)) (by simp [Ledger.executionAfter])
    rw [← found, Option.isSome_map] at stays
    exact stays
  have recorded : ∀ key, FactKey key → after.ledger.venueFacts[key]? =
      if identityOf ctx.instanceId request = some key then some execution.executionId
      else before.ledger.venueFacts[key]? := by
    intro key fact
    refine (same.recorded key fact).trans ?_
    simp only [FactIndex.after, identityOf, names.venueExecutionId]
    split
    · rfl
    · rw [Std.ExtTreeMap.getElem?_insert, ← names.venueKey]
      simp only [Std.compare_eq_iff_eq, Option.some.injEq]
      rfl
  have waiting : after.ledger.unplacedExecutions = before.ledger.unplacedExecutions := by
    refine same.waiting.trans ?_
    simp only [FactIndex.after]
    split <;> rfl
  have kept : ∀ id : String, (before.ledger.unplaced[id]?).isSome → (after.ledger.unplaced[id]?).isSome := by
    intro id held
    refine same.kept id ?_
    simp only [FactIndex.after]
    split <;> exact held
  refine ⟨fun key fact => ?_, fun held key id fact found => ?_, fun key => ?_, fun held key id found => ?_⟩
  · rw [recorded key fact]
    split
    · next named => simp [named]
    · next other => simp [other]
  · rw [recorded key fact] at found
    split at found
    · cases found
      exact newly
    · exact execution_stays viewed (held key id fact found)
  · simp [waiting]
  · rw [waiting] at found
    exact kept id (held key id found)

theorem leaves_of_keeps (keeps : Keeps before ctx request acts)
    (facts : after.ledger.facts = before.ledger.facts.afterAll acts)
    (viewed : after.ledger.view = before.ledger.view.afterAll acts) :
    Leaves before after none (unplacedKey ctx.instanceId request) := by
  obtain ⟨fact, rest, stated, -, bare⟩ := keeps
  have same := @FactIndex.same_asides (before.ledger.facts.after (.unplaced fact ctx.instanceId)) rest
    fun act member => FactIndex.aside_of_bare (bare act member)
  rw [← FactIndex.afterAll_cons, ← facts] at same
  have recorded : ∀ key, FactKey key → after.ledger.venueFacts[key]? = before.ledger.venueFacts[key]? := same.recorded
  have waiting : ∀ key : String, after.ledger.unplacedExecutions[key]? =
      if unplacedKey ctx.instanceId request = some key then some fact.unplacedId
      else before.ledger.unplacedExecutions[key]? := by
    intro key
    have whole : after.ledger.unplacedExecutions = _ := same.waiting
    rw [whole]
    simp only [FactIndex.after, stated, unplacedKey]
    split
    · rfl
    · rw [Std.ExtTreeMap.getElem?_insert]
      simp only [Std.compare_eq_iff_eq, Option.some.injEq]
      rfl
  have kept : ∀ id : String, fact.unplacedId = id ∨ (before.ledger.unplaced[id]?).isSome →
      (after.ledger.unplaced[id]?).isSome := by
    intro id held
    refine same.kept id ?_
    simp only [FactIndex.after, Bool.or_eq_true, beq_iff_eq]
    exact held
  refine ⟨fun key fact => ?_, fun held key id fact found => ?_, fun key => ?_, fun held key id found => ?_⟩
  · simp [recorded key fact]
  · rw [recorded key fact] at found
    exact execution_stays viewed (held key id fact found)
  · rw [waiting key]
    split
    · next named => simp [named]
    · next other => simp [other]
  · rw [waiting key] at found
    split at found
    · cases found
      exact kept _ (Or.inl rfl)
    · exact kept id (Or.inr (held key id found))

end leaves

namespace Identity

/-- A command as the books take it: a report decided in the account it names, one naming none kept unplaced in
the book of none, or any other an account's book makes. -/
inductive Arrival where
  | report (accountId : String) (head : Nat) (ctx : Context) (request : ReportExecutionRequest)
  | keep (head : Nat) (ctx : Context) (request : ReportExecutionRequest) (reason : UnplacedReason)
  | other (accountId : String) (head : Nat) (ctx : Context) (draft : Draft)
      (aside : ∀ act ∈ draft.body.acts, FactIndex.Aside act)

/-- The account a fact is kept in that names none. -/
def noAccount : String := "~unplaced"

namespace Arrival

def account : Arrival → String
  | report accountId _ _ _ => accountId
  | keep _ _ _ _ => noAccount
  | other accountId _ _ _ _ => accountId

/-- The report it carries, with what it was sent with. -/
def fact : Arrival → Option (Context × ReportExecutionRequest)
  | report _ _ ctx request => some (ctx, request)
  | keep _ ctx request _ => some (ctx, request)
  | other _ _ _ _ _ => none

/-- The venue fact it is, where the venue identifies it. -/
def identity (arrival : Arrival) : Option String :=
  arrival.fact.bind fun sent => identityOf sent.1.instanceId sent.2

/-- The key it would be kept unplaced by. -/
def waitKey (arrival : Arrival) : Option String :=
  arrival.fact.bind fun sent => unplacedKey sent.1.instanceId sent.2

/-- Whether the book it arrives on has nothing to place it on. -/
def Unplaced (books : String → Book) : Arrival → Prop
  | report accountId _ ctx request => placedOn (books accountId) ctx request = .ok .unplaced
  | keep _ _ _ _ => True
  | other _ _ _ _ _ => False

/-- What the book it arrives on answers. -/
def answer (books : String → Book) : Arrival → Result Made
  | report accountId head ctx request => reportExecution (books accountId) head ctx request
  | keep head ctx request reason => do
    finish (books noAccount) head ctx (← keptUnplaced (books noAccount) ctx request reason)
  | other accountId head ctx draft _ => made (books accountId) head ctx draft

end Arrival

/-- A command taken, with what it made. -/
structure Taken where
  arrival : Arrival
  made : Made

namespace Taken

def account (taken : Taken) : String := taken.arrival.account

/-- It recorded an execution. -/
def Recorded (taken : Taken) : Prop :=
  ∃ execution sender code client factor row,
    Act.executed execution sender code client factor row ∈ taken.made.entry.body.acts

/-- It kept a fact unplaced. -/
def Kept (taken : Taken) : Prop := ∃ fact sender, Act.unplaced fact sender ∈ taken.made.entry.body.acts

end Taken

/-- One command taken: its account's book is as it left it, and every other as it was. -/
def Step (books : String → Book) (taken : Taken) (after : String → Book) : Prop :=
  taken.arrival.answer books = .ok taken.made ∧ after = Function.update books taken.account taken.made.held

/-- A report of the same venue fact was taken before, on whatever path. -/
def Known (labels : List Taken) (arrival : Arrival) : Prop :=
  ∃ key, arrival.identity = some key ∧ ∃ earlier ∈ labels, earlier.arrival.identity = some key

/-- A report of the same fact was recorded in the same account. -/
def RecordedHere (labels : List Taken) (arrival : Arrival) : Prop :=
  ∃ key, arrival.identity = some key ∧
    ∃ earlier ∈ labels, earlier.account = arrival.account ∧ earlier.Recorded ∧ earlier.arrival.identity = some key

/-- A report of the same sender and venue execution ID, whatever its finality and what it supersedes, was kept
unplaced in the same account. -/
def WaitsHere (labels : List Taken) (arrival : Arrival) : Prop :=
  ∃ key, arrival.waitKey = some key ∧
    ∃ earlier ∈ labels, earlier.account = arrival.account ∧ earlier.Kept ∧ earlier.arrival.waitKey = some key

/-- The report is treated as a fact the book has: answered as a repeat, or placed as what was kept unplaced. -/
def TreatedSame (answer : Result Made) : Prop :=
  (∃ reply, answer = .error (.repeated reply)) ∨
    ∃ made unplacedId, answer = .ok made ∧ Act.placed unplacedId ∈ made.entry.body.acts

/-- One identity of a venue fact on every path: a report is treated as a fact known exactly where one of its
identity was taken, and one of no identity taken is recorded, or kept. -/
structure OneIdentity (labels : List Taken) (books : String → Book) (arrival : Arrival) : Prop where
  same : TreatedSame (arrival.answer books) ↔ Known labels arrival
  kept : ¬ Known labels arrival → ∃ made, arrival.answer books = .ok made ∧
    (Taken.Recorded ⟨arrival, made⟩ ∨ Taken.Kept ⟨arrival, made⟩)

/-- The history tells the report rightly: what of its sender and venue execution ID waits unplaced, and what is
recorded, is of its own identity. -/
structure Told (labels : List Taken) (books : String → Book) (arrival : Arrival) : Prop where
  waits : WaitsHere labels arrival → Known labels arrival
  unplaced : arrival.Unplaced books → Known labels arrival → WaitsHere labels arrival
  placed : ¬ arrival.Unplaced books → Known labels arrival → WaitsHere labels arrival ∨ RecordedHere labels arrival

/-- The book recognises the report as a fact it has. -/
def Recognised (books : String → Book) (reply : FactReply) : Arrival → Prop
  | .report accountId _ ctx request =>
    (placedOn (books accountId) ctx request = .ok .unplaced ∧
        keptUnplaced (books accountId) ctx request .unknownPlacement = .error (.repeated reply)) ∨
      (placedOn (books accountId) ctx request ≠ .ok .unplaced ∧
        notRepeated (books accountId) ctx.instanceId (executionOf (books accountId) ctx request) = .error (.repeated reply))
  | .keep _ ctx request reason => keptUnplaced (books noAccount) ctx request reason = .error (.repeated reply)
  | .other _ _ _ _ _ => False

/-- A report answered: made, or recognised and answered as a repeat. -/
inductive Answered (books : String → Book) (arrival : Arrival) : Result Made → Prop where
  | made (act : Made) : Answered books arrival (.ok act)
  | again (reply : FactReply) (recognised : Recognised books reply arrival) : Answered books arrival (.error (.repeated reply))

/-- What the commands taken leave in an account's book of the facts they told. -/
structure Indexed (labels : List Taken) (account : String) (book : Book) : Prop where
  recorded : ∀ key, FactKey key → ((book.ledger.venueFacts[key]?).isSome ↔
    ∃ earlier ∈ labels, earlier.account = account ∧ earlier.Recorded ∧ earlier.arrival.identity = some key)
  executed : ∀ key id, FactKey key → book.ledger.venueFacts[key]? = some id → (book.ledger.executions[id]?).isSome
  waiting : ∀ key : String, (book.ledger.unplacedExecutions[key]?).isSome ↔
    ∃ earlier ∈ labels, earlier.account = account ∧ earlier.Kept ∧ earlier.arrival.waitKey = some key
  kept : ∀ key id : String, book.ledger.unplacedExecutions[key]? = some id → (book.ledger.unplaced[id]?).isSome

theorem indexed_new (account partition : String) : Indexed [] account (Book.new account partition) := by
  refine ⟨fun key _ => ?_, fun key id _ found => ?_, fun key => ?_, fun key id found => ?_⟩
  · simp [Book.new]
  · simp [Book.new] at found
  · simp [Book.new]
  · simp [Book.new] at found

section taken
variable {books : String → Book} {taken : Taken}

theorem recorded_of_records {ctx : Context} {request : ReportExecutionRequest} {book : Book}
    (records : Records book ctx request taken.made.entry.body.acts) : taken.Recorded ∧ ¬ taken.Kept := by
  generalize acts : taken.made.entry.body.acts = each at records
  obtain ⟨execution, code, client, factor, row, first, rest, names, -, bare⟩ := records
  refine ⟨⟨execution, ctx.instanceId, code, client, factor, row, ?_⟩, ?_⟩
  · rw [acts]
    exact List.mem_cons_self
  · rintro ⟨fact, sender, member⟩
    rw [acts] at member
    rcases List.mem_cons.mp member with same | member
    · cases same
    · rcases List.mem_append.mp member with member | last
      · rcases List.mem_append.mp member with early | claimed
        · exact bare _ (List.mem_append_left _ early)
        · unfold claimedUnplaced at claimed
          split at claimed
          · cases claimed
          · split at claimed
            · cases List.mem_singleton.mp claimed
            · cases claimed
      · exact bare _ (List.mem_append_right _ last)

theorem kept_of_keeps {ctx : Context} {request : ReportExecutionRequest} {book : Book}
    (keeps : Keeps book ctx request taken.made.entry.body.acts) : taken.Kept ∧ ¬ taken.Recorded := by
  generalize acts : taken.made.entry.body.acts = each at keeps
  obtain ⟨fact, rest, -, -, bare⟩ := keeps
  refine ⟨⟨fact, ctx.instanceId, ?_⟩, ?_⟩
  · rw [acts]
    exact List.mem_cons_self
  · rintro ⟨execution, sender, code, client, factor, row, member⟩
    rw [acts] at member
    rcases List.mem_cons.mp member with same | member
    · cases same
    · exact bare _ member

/-- What a command taken leaves of its book's facts: its report recorded, or kept unplaced, or neither. -/
theorem leaves_of_taken (answered : taken.arrival.answer books = .ok taken.made) :
    ∃ recorded waiting, Leaves (books taken.account) taken.made.held recorded waiting ∧
      (∀ key, recorded = some key ↔ taken.Recorded ∧ taken.arrival.identity = some key) ∧
      ∀ key, waiting = some key ↔ taken.Kept ∧ taken.arrival.waitKey = some key := by
  obtain ⟨arrival, act⟩ := taken
  cases arrival with
  | report accountId head ctx request =>
    have decided : reportExecution (books accountId) head ctx request = .ok act := answered
    obtain ⟨plan, -, finished⟩ := bind_ok.mp decided
    obtain ⟨facts, viewed⟩ := facts_of_finish finished
    rcases took_of_report decided with ⟨-, keeps⟩ | ⟨-, records⟩
    · have leaves := leaves_of_keeps keeps facts viewed
      obtain ⟨kept, unrecorded⟩ := @kept_of_keeps ⟨.report accountId head ctx request, act⟩ _ _ _ keeps
      exact ⟨_, _, leaves, fun key => by simp [unrecorded], fun key => by simp [kept, Arrival.waitKey, Arrival.fact]⟩
    · have leaves := leaves_of_records records facts viewed
      obtain ⟨recorded, unkept⟩ := @recorded_of_records ⟨.report accountId head ctx request, act⟩ _ _ _ records
      exact ⟨_, _, leaves, fun key => by simp [recorded, Arrival.identity, Arrival.fact], fun key => by simp [unkept]⟩
  | keep head ctx request reason =>
    obtain ⟨plan, planned, finished⟩ := bind_ok.mp answered
    obtain ⟨facts, viewed⟩ := facts_of_finish finished
    obtain ⟨more, settles, acts⟩ := acts_of_finish_ok finished
    have keeps : Keeps (books noAccount) ctx request act.entry.body.acts := by
      rw [acts]
      exact keeps_of_kept planned settles
    have leaves := leaves_of_keeps keeps facts viewed
    obtain ⟨kept, unrecorded⟩ := @kept_of_keeps ⟨.keep head ctx request reason, act⟩ _ _ _ keeps
    exact ⟨_, _, leaves, fun key => by simp [unrecorded], fun key => by simp [kept, Arrival.waitKey, Arrival.fact]⟩
  | other accountId head ctx draft aside =>
    have decided : made (books accountId) head ctx draft = .ok act := answered
    obtain ⟨facts, viewed⟩ := facts_of_made decided
    have acts : act.entry.body.acts = draft.body.acts := by
      obtain ⟨-, -, entry⟩ := made_ok decided
      rw [entry]
      rfl
    have leaves := leaves_of_asides facts viewed (acts ▸ aside)
    exact ⟨_, _, leaves, fun key => by simp [Arrival.identity, Arrival.fact], fun key => by simp [Arrival.waitKey, Arrival.fact]⟩

/-- A command taken keeps what the commands taken leave in each account's book. -/
theorem indexed_step {labels : List Taken} {after : String → Book} (taken : Taken)
    (indexed : ∀ account, Indexed labels account (books account)) (step : Step books taken after) (account : String) :
    Indexed (labels ++ [taken]) account (after account) := by
  obtain ⟨answered, rfl⟩ := step
  have more (P : Taken → Prop) : (∃ earlier ∈ labels ++ [taken], P earlier) ↔ (∃ earlier ∈ labels, P earlier) ∨ P taken := by
    simp only [List.mem_append, List.mem_singleton, or_and_right, exists_or, exists_eq_left]
  by_cases same : account = taken.account
  · subst same
    rw [Function.update_self]
    obtain ⟨recorded, waiting, leaves, isRecorded, isWaiting⟩ := leaves_of_taken answered
    have before := indexed taken.account
    refine ⟨fun key fact => ?_, leaves.executed before.executed, fun key => ?_, leaves.kept before.kept⟩
    · rw [leaves.recorded key fact, before.recorded key fact, more, isRecorded key]
      simp
    · rw [leaves.waiting key, before.waiting key, more, isWaiting key]
      simp
  · rw [Function.update_of_ne same]
    have before := indexed account
    have other : taken.account ≠ account := fun named => same named.symm
    refine ⟨fun key fact => ?_, before.executed, fun key => ?_, before.kept⟩
    · rw [before.recorded key fact, more]
      simp [other]
    · rw [before.waiting key, more]
      simp [other]

end taken

section run
variable {partition : String → String} {labels : List Taken} {books : String → Book}

theorem indexed_of_run (run : Run Step (fun account => Book.new account (partition account)) labels books)
    (account : String) : Indexed labels account (books account) := by
  generalize begun : (fun account => Book.new account (partition account)) = start at run
  induction run generalizing account with
  | nil => subst begun; exact indexed_new account (partition account)
  | snoc before taken ih => exact indexed_step _ (fun account => ih account) taken account

theorem waitsHere_iff {arrival : Arrival} (indexed : Indexed labels arrival.account (books arrival.account)) :
    WaitsHere labels arrival ↔ ∃ key, arrival.waitKey = some key ∧
      ((books arrival.account).ledger.unplacedExecutions[key]?).isSome := by
  simp only [WaitsHere, indexed.waiting]

theorem recordedHere_iff {arrival : Arrival} (indexed : Indexed labels arrival.account (books arrival.account))
    (told : ∀ key, arrival.identity = some key → FactKey key) :
    RecordedHere labels arrival ↔ ∃ key, arrival.identity = some key ∧
      ((books arrival.account).ledger.venueFacts[key]?).isSome := by
  refine exists_congr fun key => and_congr_right fun named => ?_
  rw [indexed.recorded key (told key named)]

/-- A fact recorded here is known. -/
theorem known_of_recordedHere {arrival : Arrival} (here : RecordedHere labels arrival) : Known labels arrival := by
  obtain ⟨key, named, earlier, member, -, -, same⟩ := here
  exact ⟨key, named, earlier, member, same⟩

section answers
variable {arrival : Arrival} {act : Made}

/-- A report recorded is treated as a fact known exactly where one of its sender and venue execution ID waits
unplaced. -/
theorem oneIdentity_recorded {ctx : Context} {request : ReportExecutionRequest}
    (indexed : Indexed labels arrival.account (books arrival.account))
    (carries : arrival.fact = some (ctx, request)) (answered : arrival.answer books = .ok act)
    (records : Records (books arrival.account) ctx request act.entry.body.acts) (placed : ¬ arrival.Unplaced books) :
    OneIdentity labels books arrival ↔ Told labels books arrival := by
  have waits : TreatedSame (arrival.answer books) ↔ WaitsHere labels arrival := by
    rw [waitsHere_iff indexed, Arrival.waitKey, carries, Option.bind_some, ← placed_iff records, answered]
    simp [TreatedSame]
  have notRecorded : ¬ RecordedHere labels arrival := by
    intro here
    have told : ∀ key, arrival.identity = some key → FactKey key := by
      intro key named
      rw [Arrival.identity, carries, Option.bind_some] at named
      exact factKey_identityOf named
    obtain ⟨key, named, found⟩ := (recordedHere_iff indexed told).mp here
    obtain ⟨id, found⟩ := Option.isSome_iff_exists.mp found
    have held := indexed.executed key id (told key named) found
    rw [Arrival.identity, carries, Option.bind_some] at named
    have none := records.unrecorded named
    rw [found, Option.bind_some] at none
    rw [none] at held
    cases held
  constructor
  · intro one
    have iff := waits.symm.trans one.same
    exact ⟨iff.mp, fun unplaced => absurd unplaced placed, fun _ known => Or.inl (iff.mpr known)⟩
  · intro told
    refine ⟨waits.trans ⟨told.waits, fun known => (told.placed placed known).resolve_right notRecorded⟩, fun _ => ?_⟩
    exact ⟨act, answered, Or.inl (@recorded_of_records ⟨arrival, act⟩ _ _ _ records).1⟩

/-- A report kept unplaced is treated as a fact unknown. -/
theorem oneIdentity_kept {ctx : Context} {request : ReportExecutionRequest}
    (indexed : Indexed labels arrival.account (books arrival.account))
    (carries : arrival.fact = some (ctx, request)) (answered : arrival.answer books = .ok act)
    (keeps : Keeps (books arrival.account) ctx request act.entry.body.acts) (unplaced : arrival.Unplaced books) :
    OneIdentity labels books arrival ↔ Told labels books arrival := by
  have other : ¬ TreatedSame (arrival.answer books) := by
    rw [answered]
    rintro (⟨reply, same⟩ | ⟨made, unplacedId, same, member⟩)
    · cases same
    · cases same
      exact unplaced_of_keeps keeps unplacedId member
  have notWaiting : ¬ WaitsHere labels arrival := by
    rw [waitsHere_iff indexed, Arrival.waitKey, carries, Option.bind_some]
    rintro ⟨key, named, found⟩
    obtain ⟨id, found⟩ := Option.isSome_iff_exists.mp found
    have held := indexed.kept key id found
    have none := keeps.unkept named
    rw [found, Option.bind_some] at none
    rw [none] at held
    cases held
  constructor
  · intro one
    have unknown : ¬ Known labels arrival := fun known => other (one.same.mpr known)
    exact ⟨fun waits => absurd waits notWaiting, fun _ known => absurd known unknown, fun placed => absurd unplaced placed⟩
  · intro told
    refine ⟨⟨fun treated => absurd treated other, fun known => absurd (told.unplaced unplaced known) notWaiting⟩, fun _ => ?_⟩
    exact ⟨act, answered, Or.inr (@kept_of_keeps ⟨arrival, act⟩ _ _ _ keeps).1⟩

/-- A report recognised on nothing held is one its sender and venue execution ID waits unplaced for, and on
something held one recorded. -/
theorem oneIdentity_recognised {reply : FactReply} {ctx : Context} {request : ReportExecutionRequest}
    (indexed : Indexed labels arrival.account (books arrival.account)) (carries : arrival.fact = some (ctx, request))
    (answered : arrival.answer books = .error (.repeated reply))
    (recognised : (arrival.Unplaced books ∧ ∃ key, unplacedKey ctx.instanceId request = some key ∧
        ((books arrival.account).ledger.unplacedExecutions[key]?).isSome) ∨
      (¬ arrival.Unplaced books ∧ ∃ key, identityOf ctx.instanceId request = some key ∧
        ((books arrival.account).ledger.venueFacts[key]?).isSome)) :
    OneIdentity labels books arrival ↔ Told labels books arrival := by
  have treated : TreatedSame (arrival.answer books) := Or.inl ⟨reply, answered⟩
  have iff : OneIdentity labels books arrival ↔ Known labels arrival :=
    ⟨fun one => one.same.mp treated, fun known => ⟨iff_of_true treated known, fun unknown => absurd known unknown⟩⟩
  rw [iff]
  rcases recognised with ⟨unplaced, found⟩ | ⟨placed, found⟩
  · have waits : WaitsHere labels arrival := by
      rw [waitsHere_iff indexed, Arrival.waitKey, carries, Option.bind_some]
      exact found
    exact ⟨fun known => ⟨fun _ => known, fun _ _ => waits, fun placed => absurd unplaced placed⟩, fun told => told.waits waits⟩
  · have told : ∀ key, arrival.identity = some key → FactKey key := by
      intro key named
      rw [Arrival.identity, carries, Option.bind_some] at named
      exact factKey_identityOf named
    have here : RecordedHere labels arrival := by
      rw [recordedHere_iff indexed told, Arrival.identity, carries, Option.bind_some]
      exact found
    have known := known_of_recordedHere here
    exact ⟨fun _ => ⟨fun _ => known, fun unplaced => absurd unplaced placed, fun _ _ => Or.inr here⟩, fun _ => known⟩

end answers

/-- Whatever reports came before, a report answered is told by its own identity, on every path, exactly where
what waits unplaced under its sender and venue execution ID is of its identity. -/
theorem one_identity_iff {arrival : Arrival}
    (run : Run Step (fun account => Book.new account (partition account)) labels books)
    (answered : Answered books arrival (arrival.answer books)) (reported : arrival.fact.isSome) :
    OneIdentity labels books arrival ↔ Told labels books arrival := by
  have indexed := indexed_of_run run arrival.account
  generalize same : arrival.answer books = answer at answered
  cases arrival with
  | report accountId head ctx request =>
    cases answered with
    | made act =>
      rcases took_of_report same with ⟨unplaced, keeps⟩ | ⟨placed, records⟩
      · exact oneIdentity_kept indexed rfl same keeps unplaced
      · exact oneIdentity_recorded indexed rfl same records placed
    | again reply recognised =>
      refine oneIdentity_recognised indexed rfl same ?_
      rcases recognised with ⟨unplaced, kept⟩ | ⟨placed, repeated⟩
      · exact Or.inl ⟨unplaced, waiting_of_repeated kept⟩
      · exact Or.inr ⟨placed, recorded_of_repeated repeated⟩
  | keep head ctx request reason =>
    cases answered with
    | made act =>
      obtain ⟨plan, planned, finished⟩ := bind_ok.mp same
      obtain ⟨more, settles, acts⟩ := acts_of_finish_ok finished
      have keeps : Keeps (books noAccount) ctx request act.entry.body.acts := by
        rw [acts]
        exact keeps_of_kept planned settles
      exact oneIdentity_kept indexed rfl same keeps trivial
    | again reply recognised =>
      exact oneIdentity_recognised indexed rfl same (Or.inl ⟨trivial, waiting_of_repeated recognised⟩)
  | other accountId head ctx draft aside => cases reported

end run

/-- A report placed on nothing held, where its sender and venue execution ID wait unplaced, is a repeat. -/
theorem repeated_of_kept {books : String → Book} {accountId : String} {head : Nat} {ctx : Context}
    {request : ReportExecutionRequest} {bust : Bool} {reply : FactReply} (formed : wellFormed ctx request = .ok bust)
    (unplaced : placedOn (books accountId) ctx request = .ok .unplaced)
    (kept : keptUnplaced (books accountId) ctx request .unknownPlacement = .error (.repeated reply)) :
    Arrival.answer books (.report accountId head ctx request) = .error (.repeated reply) := by
  simp only [Arrival.answer, reportExecution, executionPlan, formed, unplaced, bind, Except.bind, kept]

/-- A fill on a placement the account does not hold, at a level of finality. -/
def strayFill (level : FinalityLevel) : ReportExecutionRequest where
  placementId := "PLC-9"
  venueExecutionId := "V-1"
  quantity := some ⟨100, 0⟩
  price := some { amount := some ⟨10, 0⟩, currencyCode := "USD", instrumentId := "CASH-USD" }
  tradeDate := "2026-01-05"
  settlementDate := "2026-01-07"
  finality := some { level }

def venue : Context where
  instanceId := "VENUE-1"

def stray (level : FinalityLevel) : Arrival := .report "ACC-1" 0 venue (strayFill level)

/-- The books once the first account made an entry. -/
def booksAfter (act : Made) : String → Book :=
  Function.update (fun account => Book.new account "P-1") "ACC-1" act.held

/-- Whether the stray fill is kept unplaced first, and is a repeat at a level of finality then. -/
def repeatsAt (level : FinalityLevel) (act : Made) : Bool :=
  decide (placedOn (booksAfter act "ACC-1") venue (strayFill level) = .ok .unplaced) &&
    (match keptUnplaced (booksAfter act "ACC-1") venue (strayFill level) .unknownPlacement with
      | .error (.repeated _) => true
      | _ => false) &&
    act.entry.body.acts.any fun each =>
      match each with
      | .unplaced _ _ => true
      | _ => false

/-- The stray fill kept unplaced, and reported again at a level of finality. -/
theorem stray_repeated (level : FinalityLevel) (computed :
      (Arrival.answer (fun account => Book.new account "P-1") (stray .matched)).toOption.any (repeatsAt level) = true) :
    ∃ (taken : Taken) (books : String → Book), taken.arrival = stray .matched ∧ taken.Kept ∧
      Run Step (fun account => Book.new account "P-1") [taken] books ∧ (stray level).Unplaced books ∧
      Answered books (stray level) ((stray level).answer books) ∧ TreatedSame ((stray level).answer books) := by
  obtain ⟨act, answered, repeats⟩ := answered_of computed
  obtain ⟨repeats, kept⟩ := Bool.and_eq_true_iff.mp repeats
  obtain ⟨unplaced, waits⟩ := Bool.and_eq_true_iff.mp repeats
  have unplaced := of_decide_eq_true unplaced
  refine ⟨⟨stray .matched, act⟩, booksAfter act, rfl, ?_, (Run.nil _).snoc ⟨answered, rfl⟩, unplaced, ?_⟩
  · obtain ⟨each, member, keeps⟩ := List.any_eq_true.mp kept
    split at keeps
    · next fact sender => exact ⟨fact, sender, member⟩
    · cases keeps
  · split at waits
    · next reply same =>
      have formed : wellFormed venue (strayFill level) = .ok false := by cases level <;> decide +kernel
      have answer := @repeated_of_kept _ _ 0 _ _ _ _ formed unplaced same
      unfold stray
      rw [answer]
      exact ⟨.again reply (Or.inl ⟨unplaced, same⟩), Or.inl ⟨reply, rfl⟩⟩
    · cases waits

/-- A stray fill reported again is told by its identity: it is the fact kept. -/
theorem stray_fill_told :
    ∃ (taken : Taken) (books : String → Book), taken.Kept ∧
      Run Step (fun account => Book.new account "P-1") [taken] books ∧ OneIdentity [taken] books (stray .matched) := by
  obtain ⟨taken, books, arrival, kept, run, unplaced, answered, -⟩ := stray_repeated .matched (by decide +kernel)
  refine ⟨taken, books, kept, run, (@one_identity_iff (fun _ => "P-1") _ _ _ run answered rfl).mpr ?_⟩
  have known : Known [taken] (stray .matched) := ⟨_, rfl, taken, List.mem_singleton_self _, by rw [arrival]; rfl⟩
  have waits : WaitsHere [taken] (stray .matched) :=
    ⟨_, rfl, taken, List.mem_singleton_self _, by rw [Taken.account, arrival], kept, by rw [arrival]; rfl⟩
  exact ⟨fun _ => known, fun _ _ => waits, fun _ _ => Or.inl waits⟩

/-- A stray fill's move to finality is answered as a repeat of the fill kept, and dropped. -/
theorem stray_finality_dropped :
    ¬ ∀ (partition : String → String) (labels : List Taken) (books : String → Book) (arrival : Arrival),
      Run Step (fun account => Book.new account (partition account)) labels books →
      Answered books arrival (arrival.answer books) → arrival.fact.isSome → OneIdentity labels books arrival := by
  intro claim
  obtain ⟨taken, books, arrival, -, run, -, answered, treated⟩ := stray_repeated .final (by decide +kernel)
  have one := claim (fun _ => "P-1") _ _ _ run answered rfl
  obtain ⟨key, named, earlier, member, same⟩ := one.same.mp treated
  cases List.mem_singleton.mp member
  rw [arrival] at same
  have keys : (stray .final).identity = (stray .matched).identity := named.trans same.symm
  exact absurd keys (by decide)

end Identity

end MeridianCore.Bor
