import MeridianCore.Bor.Orders.Act

namespace MeridianCore.Bor

/-- The open states: a placement in one commits its open quantity. -/
def placementStateLive : PlacementState → Bool
  | .queued | .sent | .working | .doneForDay => true
  | _ => false

def finalityOf (execution : Execution) : FinalityLevel :=
  match execution.finality with
  | some finality => finality.level
  | none => .unspecified

/-- Whether an execution counts toward reported filled. -/
def reported (execution : Execution) : Bool :=
  match finalityOf execution with
  | .matched | .included | .final | .unspecified => true
  | _ => false

/-- Whether an execution moves the trade-date position: reported filled moves it. -/
def movesPosition (execution : Execution) : Bool := reported execution

def isFinal (execution : Execution) : Bool :=
  match finalityOf execution with
  | .final | .unspecified => true
  | _ => false

/-- A recorded order's venue order ID, as the account's book keeps it. -/
def recordedOrderKey (venueOrderId : String) : String := keyOf ["order", venueOrderId]

/-- The dedup key of a venue's execution: the instance that sent it, the venue's identifier, the
finality and what it supersedes. -/
def venueKey (sender : String) (execution : Execution) : String :=
  keyOf [sender, execution.venueExecutionId, (finalityOf execution).name, execution.supersedes]

/-- The factor a fill is priced at: the one it states, or the published one the book took for it. -/
def factorOf (execution : Execution) (taken : String) : Option Decimal :=
  execution.factorUsed.or ((Exact.parse taken).toOption.map Exact.toWire)

/-- The factor taken and the month awaited, onto the execution's record. -/
def takenOnto (execution : Execution) (taken : String) (row : FactorRow) : Execution :=
  { execution with
    factorTaken := (Exact.parse taken).toOption.map Exact.toWire
    factorMonthAwaited := row.awaited }

namespace ExecutionHeld

def factor (held : ExecutionHeld) : Option Decimal := factorOf held.execution held.factorTaken

/-- A bust: a superseding fact of no quantity. -/
def isBust (held : ExecutionHeld) : Bool :=
  held.execution.supersedes ≠ "" &&
    (match held.execution.quantity.bind fun wire => (Exact.fromWire wire).toOption with
     | some quantity => quantity.isZero
     | none => true)

end ExecutionHeld

namespace Ledger

/-- The record under `key` changed, where there is one. -/
def onOrder (ledger : Ledger) (orderId : String) (change : OrderHeld → OrderHeld) : Ledger :=
  { ledger with orders := ledger.orders.modify orderId change }

def onPlacement (ledger : Ledger) (placementId : String) (change : PlacementHeld → PlacementHeld) : Ledger :=
  { ledger with placements := ledger.placements.modify placementId change }

def onExecution (ledger : Ledger) (executionId : String) (change : ExecutionHeld → ExecutionHeld) : Ledger :=
  { ledger with executions := ledger.executions.modify executionId change }

def onBooking (ledger : Ledger) (bookingId : String) (change : BookingHeld → BookingHeld) : Ledger :=
  { ledger with bookings := ledger.bookings.modify bookingId change }

end Ledger

/-- The list with `id` at its end, unless it is there already. -/
def pushNew (list : List String) (id : String) : List String := if id ∈ list then list else list ++ [id]

/-- The change's kind, where the request is a placement's. -/
def changeKind (changes : BTreeMap String ChangeRequest) (id : String) : PlacementChangeKind :=
  match (changes[id]?).bind ChangeRequest.change with
  | some (.placementChange change) => change.kind
  | _ => .unspecified

namespace PlacementHeld

/-- The state and the condition records of the placement after the venue's report, where it is held
as `held`: a stop or a stop-limit order waits for its trigger once acknowledged, and a rejection of a
working placement with a change pending is the venue refusing the change. -/
def afterEvent (held : PlacementHeld) (report : ReportPlacementRequest) (heldForTrigger changePending : Bool) :
    PlacementHeld :=
  let live := placementStateLive held.state
  let condition (kind : PlacementCondition) (reason : String) : StandingPlacementCondition :=
    { condition := kind, reason, unknownReason := report.unknownReason, statusAsReported := report.statusAsReported }
  match report.event with
  | .sent => if held.state = .queued then { held with state := .sent } else held
  | .acknowledged =>
    if held.state = .queued ∨ held.state = .sent then
      { held with
        state := .working
        conditions :=
          if heldForTrigger then
            held.conditions.insert PlacementCondition.awaitingTrigger.number
              (condition .awaitingTrigger "held at the venue until it triggers")
          else held.conditions }
    else held
  | .replaced =>
    { held with
      placement.quantity := report.quantity.or held.placement.quantity
      placement.limitPrice := report.limitPrice.or held.placement.limitPrice }
  | .doneForDay => if live then { held with state := .doneForDay } else held
  | .restated =>
    { held with
      placement.quantity := report.quantity.or held.placement.quantity
      placement.limitPrice := report.limitPrice.or held.placement.limitPrice
      state := if held.state = .doneForDay then .working else held.state }
  | .suspended =>
    { held with
      conditions := held.conditions.insert PlacementCondition.suspended.number
        (condition .suspended "suspended by the venue") }
  | .triggered =>
    { held with
      conditions := (held.conditions.erase PlacementCondition.awaitingTrigger.number).erase
        PlacementCondition.suspended.number }
  | .cancelled =>
    { held with
      state := if live then .cancelled else held.state
      conditions := held.conditions.erase PlacementCondition.outcomeUnknown.number }
  | .expired =>
    { held with
      state := if live then .expired else held.state
      conditions := held.conditions.erase PlacementCondition.outcomeUnknown.number }
  | .rejected =>
    if (held.state = .working ∨ held.state = .doneForDay) ∧ changePending then held
    else
      { held with
        state := if live then .rejected else held.state
        placement.rejectionReason := report.rejectionReason
        placement.rejectionAsReported := report.rejectionAsReported }
  | .outcomeUnknown =>
    { held with
      conditions := held.conditions.insert PlacementCondition.outcomeUnknown.number
        (condition .outcomeUnknown "outcome unknown") }
  | .outcomeResolved =>
    { held with conditions := held.conditions.erase PlacementCondition.outcomeUnknown.number }
  | .unspecified => held

/-- The venue's order ID and the routing time, as the report states them. -/
def stamped (held : PlacementHeld) (report : ReportPlacementRequest) : PlacementHeld :=
  let named :=
    if report.venueOrderId = "" then held
    else
      { held with
        placement.venueOrderId := report.venueOrderId
        placement.venueOrderIds := pushNew held.placement.venueOrderIds report.venueOrderId }
  if report.routedAtNs = 0 then named
  else
    { named with
      placement.routedAtNs := report.routedAtNs
      placement.routedPrecision := report.routedPrecision }

end PlacementHeld

namespace Ledger

/-- The placement's change requests the venue has not answered. -/
def pendingOn (ledger : Ledger) (held : PlacementHeld) : List String :=
  held.changeRequests.filter fun id =>
    match ledger.changes[id]? with
    | some request => request.outcome == .pending
    | none => false

/-- What the venue's report says of each pending request. -/
def outcomesOf (ledger : Ledger) (held : PlacementHeld) (event : PlacementEvent) :
    List (String × ChangeRequestOutcome) :=
  let pending := ledger.pendingOn held
  match event with
  | .replaced => (pending.filter (changeKind ledger.changes · = .replace)).map (·, .applied)
  | .cancelled =>
    pending.map fun id => (id, if changeKind ledger.changes id = .cancel then .applied else .rejected)
  | .expired => pending.map (·, .rejected)
  | .rejected =>
    if (held.state = .working ∨ held.state = .doneForDay) ∧ pending ≠ [] then
      pending.getLast?.toList.map (·, .rejected)
    else pending.map (·, .rejected)
  | _ => []

/-- Whether the placement's order is held at the venue until it triggers. -/
def heldForTrigger (ledger : Ledger) (held : PlacementHeld) : Bool :=
  match ledger.orders[held.placement.orderId]? with
  | some order => order.order.orderType == .stop || order.order.orderType == .stopLimit
  | none => false

/-- The placement as the venue's report leaves it. -/
def afterReport (ledger : Ledger) (held : PlacementHeld) (report : ReportPlacementRequest) : PlacementHeld :=
  (held.stamped report).afterEvent report (ledger.heldForTrigger held) (ledger.pendingOn held ≠ [])

/-- What the venue did with a placement. Never refused: a report that does not fit the placement's
state is recorded. -/
def reported (ledger : Ledger) (report : ReportPlacementRequest) : Ledger :=
  match ledger.placements[report.placementId]? with
  | none => ledger
  | some held =>
    { ledger with
      placements := ledger.placements.insert report.placementId (ledger.afterReport held report)
      changes := (ledger.outcomesOf held report.event).foldl
        (fun changes (id, outcome) => changes.modify id fun request => { request with outcome }) ledger.changes }

/-- An execution's own record once recorded: matched where it is on an order or a placement,
unmatched on neither, with the factor the book took for it. -/
def recorded (execution : Execution) (venueClientOrderId factorTaken : String) (factorRow : FactorRow) : Execution :=
  let named :=
    if execution.venueClientOrderId = "" then { execution with venueClientOrderId } else execution
  let state := if execution.orderId = "" ∧ execution.placementId = "" then .unmatched else .matched
  takenOnto { named with state } factorTaken factorRow

def executed (ledger : Ledger) (execution : Execution)
    (sender venueAccountCode venueClientOrderId factorTaken : String) (factorRow : FactorRow) (entryId : String) :
    Ledger :=
  let id := execution.executionId
  let superseding :=
    if execution.supersedes = "" then ledger
    else ledger.onExecution execution.supersedes fun earlier => { earlier with supersededBy := some id }
  let placed := superseding.onPlacement execution.placementId fun held =>
    { held with executions := pushNew held.executions id }
  let ordered := placed.onOrder execution.orderId fun held =>
    { held with executions := pushNew held.executions id }
  { ordered with
    venueFacts :=
      if execution.venueExecutionId = "" then ordered.venueFacts
      else ordered.venueFacts.insert (venueKey sender execution) id
    executions := ordered.executions.insert id
      { execution := recorded execution venueClientOrderId factorTaken factorRow
        entryId, sender, venueAccountCode, venueClientOrderId, factorTaken, factorRow } }

/-- Unmatched executions linked to the order and the placement an accept made, each with where its
lines are in the accept's entry. -/
def accepted (ledger : Ledger) (orderId placementId entryId sleeve : String) :
    Nat → List String → List Nat → Ledger
  | _, [], _ => ledger
  | start, id :: ids, counts =>
    let count := counts.headD 0
    let matched := ledger.onExecution id fun held =>
      { held with
        execution.orderId := orderId
        execution.placementId := placementId
        execution.sleeve := sleeve
        execution.state := .matched
        acceptedLines := some (entryId, start, count) }
    let placed := matched.onPlacement placementId fun held =>
      { held with executions := pushNew held.executions id }
    let ordered := placed.onOrder orderId fun held =>
      { held with executions := pushNew held.executions id }
    accepted ordered orderId placementId entryId sleeve (start + count) ids counts.tail

/-- The quotes with this one recorded, or moved to its later outcome. -/
def quoted (quotes : List PlacementQuote) (quote : PlacementQuote) : List PlacementQuote :=
  match quotes with
  | [] => [quote]
  | kept :: rest => if kept.quoteId = quote.quoteId then quote :: rest else kept :: quoted rest quote

def pickedIn (quotes : List PlacementQuote) (quoteId : String) : List PlacementQuote :=
  match quotes with
  | [] => []
  | kept :: rest =>
    if kept.quoteId = quoteId then { kept with outcome := .picked } :: rest else kept :: pickedIn rest quoteId

def answeredOn (allocations : List Allocation) (allocationId : String) (record : GiveUpRecord) :
    List Allocation :=
  match allocations with
  | [] => []
  | kept :: rest =>
    if kept.allocationId = allocationId then
      { kept with giveUpAnswers := kept.giveUpAnswers ++ [record] } :: rest
    else kept :: answeredOn rest allocationId record

/-- The order named among its parent's children, where it is linked to one held here. -/
def linked (ledger : Ledger) (order : Order) : Ledger :=
  match order.link with
  | some link => ledger.onOrder link.parentOrderId fun parent =>
      { parent with children := pushNew parent.children order.orderId }
  | none => ledger

/-- The conditions that hold only while an order can be worked. -/
def workedConditions : List OrderCondition := [.approvalRequired, .awaitingCheck, .claimed, .held, .paused]

/-- One act applied, in the entry named; `versions` is the journal sequence each order's terms take
in it. -/
def apply (ledger : Ledger) (act : Act) (entryId : String) (versions : BTreeMap String Nat) : Ledger :=
  let versionOf (orderId : String) (held : Nat) : Nat := (versions[orderId]?).getD held
  match act with
  | .opened order released =>
    let linked := ledger.linked order
    let held := (linked.orders[order.orderId]?).getD {}
    { linked with
      venueFacts :=
        if order.origin ≠ .unspecified ∧ order.venueOrderId ≠ "" then
          linked.venueFacts.insert (recordedOrderKey order.venueOrderId) order.orderId
        else linked.venueFacts
      orders := linked.orders.insert order.orderId
        { held with order, released, version := versionOf order.orderId held.version } }
  | .terms order => ledger.onOrder order.orderId fun held =>
      { held with order, version := versionOf order.orderId held.version }
  | .released orderId => ledger.onOrder orderId fun held =>
      { held with
        released := true
        releaseRequested := false
        conditions := held.conditions.erase OrderCondition.awaitingCheck.number }
  | .releaseRequested orderId => ledger.onOrder orderId fun held => { held with releaseRequested := true }
  | .recalled orderId => ledger.onOrder orderId fun held =>
      { held with released := false, releaseRequested := false }
  | .ended orderId state => ledger.onOrder orderId fun held =>
      { held with
        ended := some state
        ending := none
        releaseRequested := false
        conditions := workedConditions.foldl (fun held condition => held.erase condition.number) held.conditions }
  | .ending orderId state => ledger.onOrder orderId fun held => { held with ending := some state }
  | .condition orderId condition set standing => ledger.onOrder orderId fun held =>
      { held with
        conditions := if set then held.conditions.insert condition standing else held.conditions.erase condition }
  | .overridden orderId => ledger.onOrder orderId fun held =>
      { held with overriddenVersion := some held.version }
  | .checked orderId check =>
    if check.placementId = "" then
      ledger.onOrder orderId fun held => { held with checks := held.checks ++ [check] }
    else ledger.onPlacement check.placementId fun held => { held with checks := held.checks ++ [check] }
  | .changeOpened request =>
    let id := request.changeRequestId
    let kept := { ledger with changes := ledger.changes.insert id request }
    if request.placementId = "" then
      kept.onOrder request.orderId fun held => { held with changeRequests := held.changeRequests ++ [id] }
    else kept.onPlacement request.placementId fun held =>
      { held with changeRequests := held.changeRequests ++ [id] }
  | .changeOutcome changeRequestId outcome =>
    { ledger with changes := ledger.changes.modify changeRequestId fun request => { request with outcome } }
  | .placementOpened placement =>
    let id := placement.placementId
    let named := ledger.onOrder placement.orderId fun order => { order with placements := pushNew order.placements id }
    -- A warning it was opened with is kept as its condition; its status is otherwise derived.
    let conditions : List StandingPlacementCondition := match placement.status with
      | some status => status.conditions
      | none => []
    let warnings := conditions.filter fun c => c.condition = .sentOnStaleReference
    { named with
      placements := named.placements.insert id
        { placement := { placement with status := none }
          state := .queued
          conditions := warnings.foldl (fun held c => held.insert c.condition.number c) ∅ } }
  | .placementQuoted placementId quote => ledger.onPlacement placementId fun held =>
      let gone := held.placement.pickedQuoteId = quote.quoteId ∧
        (quote.outcome = .expired ∨ quote.outcome = .withdrawn)
      { held with
        placement.quotes := quoted held.placement.quotes quote
        placement.pickedQuoteId := if gone then "" else held.placement.pickedQuoteId }
  | .quotePicked placementId quoteId => ledger.onPlacement placementId fun held =>
      { held with
        placement.quotes := pickedIn held.placement.quotes quoteId
        placement.pickedQuoteId := quoteId }
  | .netLinked orderId netOrderId _ => ledger.onOrder orderId fun held =>
      { held with order.link := some { kind := .net, parentOrderId := netOrderId } }
  | .placementRefused _ | .acceptRefused _ => ledger
  | .placementReported report => ledger.reported report
  | .executed execution sender venueAccountCode venueClientOrderId factorTaken factorRow =>
    ledger.executed execution sender venueAccountCode venueClientOrderId factorTaken factorRow entryId
  | .factorRevised executionId factorTaken factorRow _ => ledger.onExecution executionId fun held =>
      { held with factorTaken, factorRow, execution := takenOnto held.execution factorTaken factorRow }
  | .accepted executionIds orderId placementId lineCounts _ =>
    let sleeve := match ledger.orders[orderId]? with
      | some held => held.order.sleeve
      | none => ""
    ledger.accepted orderId placementId entryId sleeve 0 executionIds lineCounts
  | .dontKnow executionIds reason text =>
    executionIds.foldl (fun held id => held.onExecution id fun execution =>
      { execution with
        execution.state := .dontKnow
        execution.dkReason := reason
        execution.dkText := text }) ledger
  | .charged charge =>
    let id := charge.chargeId
    let placed := ledger.onPlacement charge.placementId fun held => { held with charges := held.charges ++ [id] }
    let ordered := placed.onOrder charge.orderId fun held => { held with charges := held.charges ++ [id] }
    { ordered with charges := ordered.charges.insert id charge }
  | .unplaced fact sender =>
    { ledger with
      unplacedExecutions := match fact.fact with
        | some (.execution execution) =>
          if execution.venueExecutionId = "" then ledger.unplacedExecutions
          else ledger.unplacedExecutions.insert (keyOf [sender, execution.venueExecutionId]) fact.unplacedId
        | _ => ledger.unplacedExecutions
      unplaced := ledger.unplaced.insert fact.unplacedId fact }
  | .placed _ | .valueDateRolled _ _ => ledger
  | .locateOpened locate => { ledger with locates := ledger.locates.insert locate.locateRecordId { locate } }
  | .locateAnswered locateRecordId answer =>
    { ledger with
      locates := ledger.locates.modify locateRecordId fun held =>
        { held with locate.answer := some answer, locate.locateId := answer.locateId } }
  | .locateUsed locateRecordId used =>
    { ledger with
      locates := ledger.locates.modify locateRecordId fun held => { held with uses := held.uses ++ [used] } }
  | .instructed key instruction => { ledger with instructions := ledger.instructions.insert key instruction }
  | .bookingOpened booking lines =>
    { ledger with
      bookings := ledger.bookings.insert booking.bookingId
        { booking, state := .booked, lines := (entryId, lines), version := 1 } }
  | .bookingHeld bookingId reason => ledger.onBooking bookingId fun held =>
      { held with state := if held.state = .booked then .held else held.state, heldReason := reason }
  | .bookingHandedOff bookingId => ledger.onBooking bookingId fun held =>
      { held with state := .handedOff, heldReason := "" }
  | .bookingClosed bookingId => ledger.onBooking bookingId fun held =>
      { held with state := .closed, heldReason := "" }
  | .bookingCancelled bookingId _ => ledger.onBooking bookingId fun held =>
      { held with state := .cancelled, heldReason := "" }
  | .bookingReplaced bookingId allocations _ _ lines => ledger.onBooking bookingId fun held =>
      { held with
        booking.allocations := allocations
        lines := (entryId, lines)
        version := held.version + 1 }
  | .bookingMoved _ _ => ledger
  | .allocationReceived bookingId fromAccount allocation memberOrderId lines _ _ =>
    { ledger with
      received := ledger.received.insert ⟨bookingId, allocation.allocationId⟩
        { bookingId, fromAccount, allocation, memberOrderId, lines := (entryId, lines) } }
  | .allocationWithdrawn bookingId allocationId =>
    { ledger with
      received := ledger.received.modify ⟨bookingId, allocationId⟩ fun held => { held with withdrawn := true } }
  | .giveUpRecorded executionId bookingId allocationId record =>
    (ledger.onExecution executionId fun held =>
      { held with execution.giveUpAnswers := held.execution.giveUpAnswers ++ [record] }).onBooking bookingId
      fun held => { held with booking.allocations := answeredOn held.booking.allocations allocationId record }
  | .sleeveCrossed cross =>
    cross.orderIds.foldl (fun held orderId => held.onOrder orderId fun order =>
        { order with order.sleeveCrossIds := pushNew order.order.sleeveCrossIds cross.sleeveCrossId })
      { ledger with sleeveCrosses := ledger.sleeveCrosses.insert cross.sleeveCrossId cross }
  | .alertRaised alert =>
    let kept := { ledger with alerts := ledger.alerts.insert alert.alertId alert }
    match alert.kind, alert.subject with
    | .bookingHeld, some subject => kept.onBooking subject.bookingId fun held =>
        { held with heldAlert := alert.alertId }
    | _, _ => kept
  | .alertAcknowledged alertId _ =>
    { ledger with
      alerts := ledger.alerts.modify alertId fun held =>
        if held.kind ≠ .bookingHeld ∧ held.state = .raised then { held with state := .acknowledged } else held }
  | .alertCleared alertId =>
    { ledger with
      alerts := ledger.alerts.modify alertId fun held => { held with state := .cleared }
      bookings := ledger.bookings.map fun _ booking =>
        if booking.heldAlert = alertId then { booking with heldAlert := "" } else booking }
  | .localRecordOrdersSet allows => { ledger with localRecordOrders := some allows }
  | .agentOrdersDemoOnlySet on => { ledger with agentOrdersDemoOnly := some on }
  | .capacityBackfilled executionId capacity => ledger.onExecution executionId fun held =>
      { held with execution.capacity := capacity }
  | .notRecordedBackfilled _ _ => ledger
  | .fixedIncomeBackfill cutoffNs done => { ledger with fixedIncomeBackfill := some (cutoffNs, done) }

def applyAll (ledger : Ledger) (acts : List Act) (entryId : String) (versions : BTreeMap String Nat) : Ledger :=
  acts.foldl (fun held act => held.apply act entryId versions) ledger

end Ledger

end MeridianCore.Bor
