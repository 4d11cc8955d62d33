import MeridianCore.Ordered.Worklist
import MeridianCore.Bor.Orders.Ledger

namespace MeridianCore.Bor

namespace Touched

def order (touched : Touched) (id : String) : Touched := { touched with orders := pushOnce touched.orders id }

def placement (touched : Touched) (id : String) : Touched :=
  { touched with placements := pushOnce touched.placements id }

def execution (touched : Touched) (id : String) : Touched :=
  { touched with executions := pushOnce touched.executions id }

def unplacedFact (touched : Touched) (id : String) : Touched :=
  { touched with unplaced := pushOnce touched.unplaced id }

def locate (touched : Touched) (id : String) : Touched := { touched with locates := pushOnce touched.locates id }

def instruction (touched : Touched) (id : String) : Touched :=
  { touched with instructions := pushOnce touched.instructions id }

def booking (touched : Touched) (id : String) : Touched := { touched with bookings := pushOnce touched.bookings id }

def alert (touched : Touched) (id : String) : Touched := { touched with alerts := pushOnce touched.alerts id }

def setting (touched : Touched) (id : String) : Touched := { touched with settings := pushOnce touched.settings id }

/-- The records one act names, before its orders' parents. -/
def act (ledger : Ledger) (touched : Touched) : Act → Touched
  | .opened order _ | .terms order => touched.order order.orderId
  | .released orderId | .releaseRequested orderId | .recalled orderId | .ended orderId _ | .ending orderId _
  | .condition orderId _ _ _ | .overridden orderId | .placementRefused orderId => touched.order orderId
  | .acceptRefused executionIds => executionIds.foldl execution touched
  | .checked orderId check =>
    if check.placementId = "" then touched.order orderId
    else (touched.placement check.placementId).order orderId
  | .changeOpened request => (touched.order request.orderId).placement request.placementId
  | .changeOutcome changeRequestId _ =>
    match ledger.changes[changeRequestId]? with
    | some request => (touched.order request.orderId).placement request.placementId
    | none => touched
  | .placementOpened placement => (touched.placement placement.placementId).order placement.orderId
  | .placementReported report =>
    match ledger.placements[report.placementId]? with
    | some held => (touched.placement report.placementId).order held.placement.orderId
    | none => touched.placement report.placementId
  | .placementQuoted placementId _ | .quotePicked placementId _ => touched.placement placementId
  | .netLinked orderId _ _ => touched.order orderId
  | .accepted executionIds orderId placementId _ _ =>
    ((executionIds.foldl execution touched).placement placementId).order orderId
  | .dontKnow executionIds _ _ => executionIds.foldl execution touched
  | .factorRevised executionId _ _ _ | .capacityBackfilled executionId _ => touched.execution executionId
  | .notRecordedBackfilled bookingId _ => touched.booking bookingId
  | .fixedIncomeBackfill _ _ => touched.setting "fixed-income-backfill"
  | .executed fact _ _ _ _ _ =>
    (((touched.execution fact.executionId).placement fact.placementId).order fact.orderId).execution fact.supersedes
  | .charged charge => (touched.placement charge.placementId).order charge.orderId
  | .valueDateRolled _ _ => touched
  | .unplaced fact _ => touched.unplacedFact fact.unplacedId
  | .placed unplacedId => touched.unplacedFact unplacedId
  | .locateOpened record => touched.locate record.locateRecordId
  | .locateAnswered locateRecordId _ | .locateUsed locateRecordId _ => touched.locate locateRecordId
  | .instructed key _ => touched.instruction key
  | .bookingOpened record _ => touched.booking record.bookingId
  | .bookingHeld bookingId _ | .bookingHandedOff bookingId | .bookingClosed bookingId
  | .bookingCancelled bookingId _ | .bookingReplaced bookingId _ _ _ _ | .bookingMoved bookingId _ =>
    touched.booking bookingId
  | .allocationReceived _ _ _ memberOrderId _ _ _ => touched.order memberOrderId
  | .allocationWithdrawn bookingId allocationId =>
    match ledger.received[(⟨bookingId, allocationId⟩ : TextPair)]? with
    | some held => touched.order held.memberOrderId
    | none => touched
  | .giveUpRecorded executionId bookingId _ _ => (touched.execution executionId).booking bookingId
  | .sleeveCrossed cross => cross.orderIds.foldl order touched
  | .alertRaised record => touched.alert record.alertId
  | .alertAcknowledged alertId _ | .alertCleared alertId => touched.alert alertId
  | .localRecordOrdersSet _ => touched.setting "local-record-orders"
  | .agentOrdersDemoOnlySet _ => touched.setting "agent-orders-demo-only"

end Touched

/-- The parents an entry's own acts open orders under, by the order. -/
def openedParents (acts : List Act) : BTreeMap String String :=
  acts.foldl (fun parents act =>
    match act with
    | .opened order _ | .terms order =>
      match order.link with
      | some link => parents.insert order.orderId link.parentOrderId
      | none => parents
    | _ => parents) ∅

namespace Ledger

/-- The order's parent here: a net member's link names the net in the allocation account, never a
parent of this book's, so it is passed over. -/
def parentOf (ledger : Ledger) (opened : BTreeMap String String) (orderId : String) : Option String :=
  let held := (ledger.orders[orderId]?).bind fun held =>
    held.order.link.bind fun link => if link.kind = .net then none else some link.parentOrderId
  (held.or opened[orderId]?).filter (· ≠ "")

/-- The records `acts` change, and each touched order's parents up to the top. -/
def touched (ledger : Ledger) (acts : List Act) : Touched :=
  let named := acts.foldl (Touched.act ledger) {}
  let fuel := named.orders.length + ledger.orders.size + acts.length
  { named with orders := Worklist.close (ledger.parentOf (openedParents acts)) fuel named.orders 0 }

end Ledger

end MeridianCore.Bor
