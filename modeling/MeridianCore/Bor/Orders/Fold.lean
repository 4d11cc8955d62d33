import MeridianCore.Domain.Date
import MeridianCore.Bor.Orders.Touched

namespace MeridianCore.Bor

/-- A quantity read from the wire, zero where it is unset or out of range. -/
def readOr (wire : Option Decimal) : Exact :=
  match wire with
  | some wire => (Exact.fromWire wire).toOption.getD Exact.zero
  | none => Exact.zero

theorem readOr_wire (value : Exact) : readOr (numbers.wire value) = value := by
  simp [readOr, numbers.wire, Except.toOption]

theorem readOr_of_required {field : String} {wire : Option Decimal} {value : Exact}
    (read : numbers.required field wire = .ok value) : readOr wire = value := by
  cases wire with
  | none => cases read
  | some wire =>
    unfold readOr
    dsimp only
    rw [mapError_ok.mp read]
    rfl

/-- An order state that ended the order, or filled it. -/
def orderStateLive : OrderState → Bool
  | .refused | .cancelled | .expired | .filled | .unspecified => false
  | _ => true

/-- Reported filled, final filled and awaiting acceptance. -/
structure Fills where
  reported : Exact := Exact.zero
  final : Exact := Exact.zero
  awaiting : Exact := Exact.zero
  deriving DecidableEq, Inhabited

namespace Ledger

/-- How deep a chain of children can be before it holds an order twice. -/
def depth (ledger : Ledger) : Nat := ledger.orders.size + 1

/-- The ordered quantity: the quantity, or for an order for an amount its cash quantity's amount. -/
def ordered (held : OrderHeld) : Exact :=
  match held.order.quantity with
  | some quantity => readOr (some quantity)
  | none => readOr (held.order.cashQuantity.bind Money.amount)

/-- What an execution counts toward its order: its quantity, or for an order for an amount, its
quantity at its price. -/
def counted (order : Option OrderHeld) (execution : Execution) : Result Exact := do
  let quantity ← numbers.required "execution.quantity" execution.quantity
  let byAmount := match order with
    | some held => held.order.quantity.isNone
    | none => false
  if byAmount then multiply "execution's amount" quantity (readOr (execution.price.bind Money.amount))
  else return quantity

/-- The sums with one of the order's own executions added, where it counts. -/
def addFill (ledger : Ledger) (held : OrderHeld) (sums : Fills) (id : String) : Result Fills :=
  match ledger.executions[id]? with
  | none => .ok sums
  | some execution =>
    if execution.supersededBy.isSome ∨ execution.execution.kind = .internalCross then .ok sums
    else do
      let amount ← counted (some held) execution.execution
      let reportedSum ←
        if Bor.reported execution.execution then numbers.add "reported_filled" sums.reported amount
        else pure sums.reported
      let finalSum ←
        if isFinal execution.execution then numbers.add "final_filled" sums.final amount else pure sums.final
      let awaiting ←
        if finalityOf execution.execution = .awaitingAcceptance then
          numbers.add "awaiting_acceptance" sums.awaiting amount
        else pure sums.awaiting
      return ⟨reportedSum, finalSum, awaiting⟩

def addChild (sums child : Fills) : Result Fills := do
  let reportedSum ← numbers.add "reported_filled" sums.reported child.reported
  let finalSum ← numbers.add "final_filled" sums.final child.final
  let awaiting ← numbers.add "awaiting_acceptance" sums.awaiting child.awaiting
  return ⟨reportedSum, finalSum, awaiting⟩

def addReceived (orderId : String) (also : Exact) (received : ReceivedHeld) : Result Exact :=
  if received.memberOrderId = orderId ∧ ¬ received.withdrawn then do
    let quantity ← numbers.required "allocation.quantity" received.allocation.quantity
    numbers.add "allocated" also quantity
  else .ok also

def addCross (orderId : String) (also : Exact) (cross : SleeveCross) : Result Exact :=
  if orderId ∈ cross.orderIds then do
    let quantity ← numbers.required "sleeve_cross.quantity" cross.quantity
    numbers.add "crossed" also quantity
  else .ok also

/-- What fills an order without minting an execution: a block's allocations, and sleeve crosses. -/
def alsoFilled (ledger : Ledger) (orderId : String) : Result Exact := do
  let allocated ← (ledger.received.toList.map Prod.snd).foldlM (addReceived orderId) Exact.zero
  (ledger.sleeveCrosses.toList.map Prod.snd).foldlM (addCross orderId) allocated

/-- `filled`, its children followed so deep. -/
def filledWithin (ledger : Ledger) : Nat → String → Result Fills
  | 0, _ => .error .overflowed
  | depth + 1, orderId =>
    match ledger.orders[orderId]? with
    | none => .ok {}
    | some held => do
      let own ← held.executions.foldlM (ledger.addFill held) {}
      let all ← held.children.foldlM (fun sums child => do addChild sums (← filledWithin ledger depth child)) own
      let also ← ledger.alsoFilled orderId
      return {
        reported := ← numbers.add "reported_filled" all.reported also
        final := ← numbers.add "final_filled" all.final also
        awaiting := all.awaiting }

/-- Reported filled, final filled and awaiting acceptance: its own executions not superseded, and its
children's, up the chain. -/
def filled (ledger : Ledger) (orderId : String) : Result Fills := ledger.filledWithin ledger.depth orderId

/-- The quantity of an order's live bookings allocated to error accounts. -/
def errorBooked (ledger : Ledger) (orderId : String) : Result Exact :=
  (ledger.bookings.toList.map Prod.snd).foldlM (fun total held =>
    if held.booking.orderId ≠ orderId ∨ held.state = .cancelled then .ok total
    else held.booking.allocations.foldlM (fun total allocation =>
      if allocation.errorCause ≠ 0 then do
        let quantity ← numbers.required "allocation.quantity" allocation.quantity
        numbers.add "error booked" total quantity
      else .ok total) total) Exact.zero

/-- A booking whole, its state and held reason derived. -/
def bookingRecord (ledger : Ledger) (bookingId : String) : Result Booking :=
  match ledger.bookings[bookingId]? with
  | some held => .ok { held.booking with state := held.state, heldReason := held.heldReason }
  | none => .error (.invalid s!"the book holds no booking {bookingId}")

/-- A placement's reported filled, in its order's terms. -/
def placementFilled (ledger : Ledger) (placementId : String) : Result Exact :=
  match ledger.placements[placementId]? with
  | none => .ok Exact.zero
  | some held =>
    held.executions.foldlM (fun total id =>
      match ledger.executions[id]? with
      | some execution =>
        if execution.supersededBy.isNone ∧ Bor.reported execution.execution then do
          let amount ← counted ledger.orders[held.placement.orderId]? execution.execution
          numbers.add "placement filled" total amount
        else .ok total
      | none => .ok total) Exact.zero

/-- A placement's state: as reported, filled once its fills reach its quantity. -/
def placementState (ledger : Ledger) (placementId : String) : Result PlacementState :=
  match ledger.placements[placementId]? with
  | none => .ok .unspecified
  | some held =>
    if placementStateLive held.state then do
      let quantity := readOr held.placement.quantity
      let filled ← ledger.placementFilled placementId
      if ¬ quantity.isZero ∧ filled.atLeast quantity then return .filled
      return held.state
    else .ok held.state

/-- Whether a placement is live: an open state, or its outcome unknown. -/
def placementLive (ledger : Ledger) (placementId : String) : Result Bool :=
  match ledger.placements[placementId]? with
  | none => .ok false
  | some held => do
    let state ← ledger.placementState placementId
    return placementStateLive state ||
      (held.conditions.contains PlacementCondition.outcomeUnknown.number && state != .filled)

/-- A live placement's open quantity: its quantity less its fills. -/
def placementOpen (ledger : Ledger) (placementId : String) : Result Exact := do
  if ← ledger.placementLive placementId then
    let quantity := match ledger.placements[placementId]? with
      | some held => readOr held.placement.quantity
      | none => Exact.zero
    let filled ← ledger.placementFilled placementId
    return zeroFloor (← sub "placement open" quantity filled)
  else return Exact.zero

/-- What a live child commits in its parent: its open quantity. -/
def addCommitted (ledger : Ledger) (stateOf : String → Result OrderState) (total : Exact) (child : String) :
    Result Exact := do
  if orderStateLive (← stateOf child) then
    match ledger.orders[child]? with
    | some held =>
      let fills ← ledger.filled child
      numbers.add "committed" total (zeroFloor (← sub "committed" (ordered held) fills.reported))
    | none => return total
  else return total

/-- Open at live placements and live child orders, the children's states as `stateOf` says. -/
def committedBy (ledger : Ledger) (stateOf : String → Result OrderState) (held : OrderHeld) : Result Exact := do
  let placed ← held.placements.foldlM (fun total id => do
    numbers.add "committed" total (← ledger.placementOpen id)) Exact.zero
  held.children.foldlM (ledger.addCommitted stateOf) placed

/-- `state`, its children followed so deep. -/
def stateWithin (ledger : Ledger) : Nat → String → Result OrderState
  | 0, _ => .error .overflowed
  | depth + 1, orderId =>
    match ledger.orders[orderId]? with
    | none => .ok .unspecified
    | some held =>
      match held.ended with
      | some ended => .ok ended
      | none => do
        let fills ← ledger.filled orderId
        if ¬ (ordered held).isZero ∧ fills.reported.atLeast (ordered held) then return .filled
        else if held.released then
          if ¬ fills.reported.isZero then return .working
          let committed ← ledger.committedBy (stateWithin ledger depth) held
          return if committed.isZero then .released else .working
        else return .proposed

/-- The fold: refused, cancelled or expired if an act ended it; filled if reported filled reaches
ordered; working if released with quantity committed or filled; released if released; proposed
otherwise. -/
def state (ledger : Ledger) (orderId : String) : Result OrderState := ledger.stateWithin ledger.depth orderId

/-- Whether an order is live: not ended and not filled. -/
def orderLive (ledger : Ledger) (orderId : String) : Result Bool := return orderStateLive (← ledger.state orderId)

/-- Open at live placements and live child orders. -/
def committed (ledger : Ledger) (orderId : String) : Result Exact :=
  match ledger.orders[orderId]? with
  | none => .ok Exact.zero
  | some held => ledger.committedBy ledger.state held

/-- The order, or the refusal naming it. -/
def orderHeld (ledger : Ledger) (orderId : String) : Result OrderHeld :=
  match ledger.orders[orderId]? with
  | some held => .ok held
  | none => .error (.invalid s!"the book holds no order {orderId}")

/-- The quantities, each derived; idle may go negative. -/
def quantities (ledger : Ledger) (orderId : String) : Result OrderQuantities := do
  let held ← ledger.orderHeld orderId
  let fills ← ledger.filled orderId
  let committed ← ledger.committed orderId
  let idle ←
    if held.released ∧ held.ended = none then do
      sub "idle" (← sub "idle" (ordered held) fills.reported) committed
    else pure Exact.zero
  let leaves ← sub "leaves" (ordered held) fills.reported
  return {
    ordered := ordered held
    reportedFilled := fills.reported
    finalFilled := fills.final
    awaitingAcceptance := fills.awaiting
    committed, idle, leaves }

/-- The change requests outstanding on an order or its placements. -/
def pendingChanges (ledger : Ledger) (orderId : String) : List ChangeRequest :=
  match ledger.orders[orderId]? with
  | none => []
  | some held =>
    let placed := held.placements.flatMap fun id =>
      match ledger.placements[id]? with
      | some placed => placed.changeRequests
      | none => []
    ((held.changeRequests ++ placed).filterMap fun id => ledger.changes[id]?).filter (·.outcome = .pending)

/-- A change request in words, for its condition's reason. -/
def changeWords (request : ChangeRequest) : String :=
  match request.change with
  | some (.orderChange change) =>
    match change.kind with
    | .cancel => "cancel requested"
    | .amend => "amendment requested"
    | .quantity => "quantity change requested"
    | .recall => "recall requested"
    | .withdraw => "withdrawal requested"
    | .unspecified => "change requested"
  | some (.placementChange change) =>
    match change.kind with
    | .cancel => "cancel requested"
    | .replace => "replace requested"
    | .unspecified => "change requested"
  | none => "change requested"

/-- Its conditions: those the book keeps, and those it derives. -/
def conditions (ledger : Ledger) (orderId : String) : Result (List StandingOrderCondition) := do
  let held ← ledger.orderHeld orderId
  let requested := match (ledger.pendingChanges orderId).getLast? with
    | some latest => held.conditions.insert OrderCondition.changeRequested.number
        { condition := .changeRequested
          reason := changeWords latest
          actor := latest.entry.bind EntryMeta.actor }
    | none => held.conditions
  let unknown : BTreeMap Nat StandingOrderCondition := held.placements.foldl (fun conditions placement =>
    match (ledger.placements[placement]?).bind fun placed =>
        placed.conditions[PlacementCondition.outcomeUnknown.number]? with
    | some standing => conditions.insert OrderCondition.outcomeUnknown.number
        { condition := .outcomeUnknown
          reason := s!"placement {placement}'s outcome is unknown"
          actor := standing.actor }
    | none => conditions) requested
  let fills ← ledger.filled orderId
  let filled ← sub "filled" fills.reported (← ledger.errorBooked orderId)
  let tied :=
    if ¬ (ordered held).isZero ∧ (ordered held).less filled ∧
        ¬ unknown.contains OrderCondition.doesNotTieOut.number then
      unknown.insert OrderCondition.doesNotTieOut.number
        { condition := .doesNotTieOut
          reason := s!"reported filled {filled} exceeds ordered {ordered held}"
          tieOutReason := .overfill }
    else unknown
  return tied.toList.map Prod.snd

def placementConditions (ledger : Ledger) (held : PlacementHeld) : List StandingPlacementCondition :=
  let pending := (held.changeRequests.filterMap fun id => ledger.changes[id]?).filter (·.outcome = .pending)
  let conditions := match pending.getLast? with
    | some latest => held.conditions.insert PlacementCondition.changeRequested.number
        { condition := .changeRequested
          reason := changeWords latest
          actor := latest.entry.bind EntryMeta.actor }
    | none => held.conditions
  conditions.toList.map Prod.snd

/-- A placement whole, its status derived. -/
def placementRecord (ledger : Ledger) (placementId : String) : Result Placement :=
  match ledger.placements[placementId]? with
  | none => .error (.invalid s!"the book holds no placement {placementId}")
  | some held => do
    let state ← ledger.placementState placementId
    return { held.placement with
      status := some { state, conditions := ledger.placementConditions held }
      checks := held.checks
      changeRequests := held.changeRequests.filterMap fun id => ledger.changes[id]?
      lastChange := held.lastChange }

/-- An order whole: its terms, its status derived, its checks and change requests; with
`withRecords`, its placements, executions and charges. -/
def orderRecord (ledger : Ledger) (orderId : String) (withRecords : Bool) : Result Order := do
  let held ← ledger.orderHeld orderId
  let state ← ledger.state orderId
  let conditions ← ledger.conditions orderId
  let quantities ← ledger.quantities orderId
  let order := { held.order with
    status := some { state, conditions, quantities }
    checks := held.checks
    changeRequests := held.changeRequests.filterMap fun id => ledger.changes[id]?
    lastChange := held.lastChange }
  if withRecords then
    let placements ← held.placements.mapM ledger.placementRecord
    return { order with
      placements
      executions := (held.executions.filterMap fun id => ledger.executions[id]?).map ExecutionHeld.execution
      charges := held.charges.filterMap fun id => ledger.charges[id]? }
  else return order

def locateRecord (ledger : Ledger) (locateRecordId : String) : Result Locate :=
  match ledger.locates[locateRecordId]? with
  | none => .error (.invalid s!"the book holds no locate {locateRecordId}")
  | some held => do
    let approved := readOr (held.locate.answer.bind LocateAnswer.quantityApproved)
    let remaining ← held.uses.foldlM (fun remaining used =>
      match used.kind with
      | .giveBack => numbers.add "remaining" remaining (readOr used.quantity)
      | .reserve | .consume => sub "remaining" remaining (readOr used.quantity)
      | .unspecified => .ok remaining) approved
    return { held.locate with remaining := some remaining, uses := held.uses }

/-- Those of the records that are live. -/
def liveOf (live : String → Result Bool) : List String → Result (List String)
  | [] => .ok []
  | id :: ids => do
    let alive ← live id
    let rest ← liveOf live ids
    return if alive then id :: rest else rest

/-- The live placements and live child orders of an order. -/
def liveParts (ledger : Ledger) (orderId : String) : Result (List String × List String) :=
  match ledger.orders[orderId]? with
  | none => .ok ([], [])
  | some held => do
    let placements ← liveOf ledger.placementLive held.placements
    let children ← liveOf ledger.orderLive held.children
    return (placements, children)

/-- The order's parents followed to the top, so many at most, those `seen` never twice. -/
def topWithin (ledger : Ledger) : Nat → List String → String → String
  | 0, _, current => current
  | fuel + 1, seen, current =>
    match (ledger.orders[current]?).bind fun held => held.order.link with
    | some link =>
      let parent := link.parentOrderId
      if parent ∈ seen ∨ ¬ ledger.orders.contains parent then current
      else topWithin ledger fuel (parent :: seen) parent
    | none => current

/-- The top of an order's chain of parents. -/
def top (ledger : Ledger) (orderId : String) : String := ledger.topWithin ledger.depth [] orderId

end Ledger

namespace OrderHeld

def endOf (date : Date) : Int := (date.daysSinceEpoch + 1) * Date.nsPerDay

/-- When an order's own time in force ends, where it ends by the clock at all. -/
def expiresAt (held : OrderHeld) : Option Int :=
  match held.order.timeInForce with
  | .day | .atTheOpen | .atTheClose => some (endOf (Date.ofUtcInstant held.openedAtNs))
  | .goodTillDate => (Date.parse held.order.expireDate).map endOf
  | .goodTillTime => if 0 < held.order.expireTimeNs then some held.order.expireTimeNs else none
  | _ => none

/-- When an order comes due to expire: a released order at the end of its time in force, one never
released only where it is a day order. -/
def dueAt (held : OrderHeld) : Option Int :=
  let day : Bool := match held.order.timeInForce with
    | .day | .atTheOpen | .atTheClose => true
    | _ => false
  if held.ending.isSome ∨ held.ended.isSome then none
  else if !held.released && !day then none
  else held.expiresAt

end OrderHeld

end MeridianCore.Bor
