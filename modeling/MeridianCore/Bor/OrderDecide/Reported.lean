import MeridianCore.Bor.OrderDecide.Report

namespace MeridianCore.Bor
variable {book : Book} {ctx : Context} {request : ReportExecutionRequest} {bust : Bool} {plan : Plan}

/-- A well-formed execution states a quantity not below zero, and is a bust where it is zero and supersedes
another. -/
theorem wellFormed_ok (formed : wellFormed ctx request = .ok bust) :
    ∃ wire quantity, request.quantity = some wire ∧ Exact.fromWire wire = .ok quantity ∧ 0 ≤ quantity.units ∧
      bust = (request.supersedes ≠ "" && quantity.isZero) := by
  unfold wellFormed at formed
  obtain ⟨-, formed⟩ := guard_ok.mp formed
  obtain ⟨stated, read, formed⟩ := bind_ok.mp formed
  cases stated with
  | none => cases formed
  | some quantity =>
    obtain ⟨signed, formed⟩ := guard_ok.mp formed
    obtain ⟨-, formed⟩ := guard_ok.mp formed
    obtain ⟨-, -, formed⟩ := bind_ok.mp formed
    obtain ⟨-, -, formed⟩ := bind_ok.mp formed
    obtain ⟨-, -, formed⟩ := bind_ok.mp formed
    obtain ⟨-, -, formed⟩ := bind_ok.mp formed
    obtain ⟨-, -, formed⟩ := bind_ok.mp formed
    obtain ⟨-, formed⟩ := guard_ok.mp formed
    obtain ⟨-, formed⟩ := guard_ok.mp formed
    obtain ⟨-, formed⟩ := guard_ok.mp formed
    obtain ⟨-, formed⟩ := guard_ok.mp formed
    obtain ⟨-, formed⟩ := guard_ok.mp formed
    cases formed
    unfold decimal at read
    split at read
    · next wire stated =>
      cases parsed : Exact.fromWire wire with
      | error out =>
        rw [parsed] at read
        cases read
      | ok value =>
        rw [parsed] at read
        cases read
        refine ⟨wire, quantity, stated, parsed, ?_, rfl⟩
        simpa using signed
    · cases read

/-- The acts of an execution on an order of this account's. -/
theorem reportPlaced_ok {orderId placementId : String}
    (planned : reportPlaced book ctx request bust orderId placementId = .ok plan) :
    ∃ order cross state lines, book.ledger.orders[orderId]? = some order ∧
      executionLines book ctx orderId (placedExecution book ctx request order orderId placementId cross) bust = .ok lines ∧
      plan = {
        kind := "execution-recorded"
        actor := factActor ctx
        acts :=
          .executed (placedExecution book ctx request order orderId placementId cross) ctx.instanceId
            request.venueAccountCode request.venueClientOrderId (factorTaken ctx request order.order.instrumentId).1
            (factorTaken ctx request order.order.instrumentId).2 ::
          lateFact ctx orderId (ctx.minted "EXE" 0) state ++
          claimedUnplaced book ctx.instanceId (placedExecution book ctx request order orderId placementId cross) ++
          heldAlertsFor ctx book (afterFacts book orderId
            (afterBooking (placedExecution book ctx request order orderId placementId cross) bust)) ++
          afterFacts book orderId (afterBooking (placedExecution book ctx request order orderId placementId cross) bust)
        lines
        idempotencyKey := request.idempotencyKey
        effectiveDate := reportedDate request } := by
  unfold reportPlaced at planned
  obtain ⟨order, held, planned⟩ := bind_ok.mp planned
  obtain ⟨-, -, planned⟩ := bind_ok.mp planned
  obtain ⟨cross, -, planned⟩ := bind_ok.mp planned
  obtain ⟨-, -, planned⟩ := bind_ok.mp planned
  obtain ⟨state, -, planned⟩ := bind_ok.mp planned
  obtain ⟨lines, moved, planned⟩ := bind_ok.mp planned
  cases planned
  unfold heldOrder at held
  split at held
  · next found =>
    cases held
    exact ⟨_, cross, state, lines, found, moved, rfl⟩
  · cases held

/-- A fill on no order and no placement records it, where it supersedes no matched execution. -/
theorem reportUnmatched_ok (planned : reportUnmatched book ctx request bust = .ok plan) :
    (∀ held, request.supersedes ≠ "" → book.ledger.executions[request.supersedes]? = some held →
      held.execution.state ≠ .matched) ∧
    ∃ execution taken row, execution.executionId = ctx.minted "EXE" 0 ∧ execution.quantity = request.quantity ∧
      execution.supersedes = request.supersedes ∧
      plan.acts = .executed execution ctx.instanceId request.venueAccountCode request.venueClientOrderId taken row ::
        claimedUnplaced book ctx.instanceId execution := by
  unfold reportUnmatched at planned
  obtain ⟨unmatched, planned⟩ := guard_ok.mp planned
  obtain ⟨-, planned⟩ := guard_ok.mp planned
  obtain ⟨-, -, planned⟩ := bind_ok.mp planned
  cases planned
  constructor
  · intro held named found matched
    apply unmatched
    rw [if_neg named, found]
    simpa using matched
  · refine ⟨_, _, _, ?_, ?_, ?_, rfl⟩
    all_goals
      generalize (if request.supersedes = "" then none else book.ledger.executions[request.supersedes]?) = superseded
      cases superseded with
      | none => rfl
      | some held => cases bust <;> rfl

/-- What a reported execution plans, by where it is placed. -/
theorem executionPlan_ok (planned : executionPlan book ctx request = .ok plan) :
    ∃ bust, wellFormed ctx request = .ok bust ∧
      ((∃ orderId placementId, placedOn book ctx request = .ok (.order orderId placementId) ∧
          reportPlaced book ctx request bust orderId placementId = .ok plan) ∨
        (placedOn book ctx request = .ok .unplaced ∧ keptUnplaced book ctx request .unknownPlacement = .ok plan) ∨
        (placedOn book ctx request = .ok .unmatched ∧ reportUnmatched book ctx request bust = .ok plan)) := by
  unfold executionPlan at planned
  obtain ⟨bust, formed, planned⟩ := bind_ok.mp planned
  obtain ⟨placed, on, planned⟩ := bind_ok.mp planned
  refine ⟨bust, formed, ?_⟩
  cases placed with
  | order orderId placementId => exact Or.inl ⟨orderId, placementId, on, planned⟩
  | unplaced => exact Or.inr (Or.inl ⟨on, planned⟩)
  | unmatched => exact Or.inr (Or.inr ⟨on, planned⟩)

/-- What a report is placed on is its placement, or its order named without one. -/
theorem placedOn_named {orderId placementId : String}
    (placed : placedOn book ctx request = .ok (.order orderId placementId)) : orderId ≠ "" ∨ placementId ≠ "" := by
  unfold placedOn at placed
  dsimp only at placed
  split at placed
  · next named =>
    split at placed
    · split at placed
      · cases placed
        exact Or.inr named
      · cases placed
    · split at placed <;> cases placed
  · split at placed
    · next named =>
      split at placed
      · cases placed
        exact Or.inl named
      · split at placed <;> cases placed
    · split at placed <;> cases placed

end MeridianCore.Bor
