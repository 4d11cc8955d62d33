import MeridianCore.Bor.Orders.OrderAfter

namespace MeridianCore.Bor

namespace ExecutionHeld

/-- The execution without its last change, its give-ups' answers and where its lines are. -/
def bare (held : ExecutionHeld) : ExecutionHeld where
  execution := { held.execution with lastChange := none, giveUpAnswers := [], sleeve := "" }
  supersededBy := held.supersededBy
  factorTaken := held.factorTaken
  factorRow := held.factorRow

end ExecutionHeld

namespace BookingHeld

/-- The booking without its last change, its give-ups' answers and where its lines are. -/
def bare (held : BookingHeld) : BookingHeld where
  booking := { held.booking with
    lastChange := none
    allocations := held.booking.allocations.map fun allocation => { allocation with giveUpAnswers := [] } }
  state := held.state
  heldReason := held.heldReason
  heldAlert := held.heldAlert

end BookingHeld

namespace Ledger

/-- An alert without its last change. -/
def bareAlert (alert : Alert) : Alert := { alert with lastChange := none }

/-- What one act leaves of the execution of an ID. -/
def executionAfter (id : String) (before : Option ExecutionHeld) : Act → Option ExecutionHeld
  | .executed execution _ _ venueClientOrderId factorTaken factorRow =>
    if execution.executionId = id then
      some (ExecutionHeld.bare {
        execution := recorded execution venueClientOrderId factorTaken factorRow, factorTaken, factorRow })
    else if execution.supersedes ≠ "" ∧ execution.supersedes = id then
      before.map fun held => { held with supersededBy := some execution.executionId }
    else before
  | .factorRevised executionId factorTaken factorRow _ =>
    if executionId = id then
      before.map fun held =>
        { held with factorTaken, factorRow, execution := takenOnto held.execution factorTaken factorRow }
    else before
  | .accepted executionIds orderId placementId _ _ =>
    if id ∈ executionIds then
      before.map fun held =>
        { held with execution.orderId := orderId, execution.placementId := placementId, execution.state := .matched }
    else before
  | .dontKnow executionIds reason text =>
    if id ∈ executionIds then
      before.map fun held =>
        { held with execution.state := .dontKnow, execution.dkReason := reason, execution.dkText := text }
    else before
  | .capacityBackfilled executionId capacity =>
    if executionId = id then before.map fun held => { held with execution.capacity := capacity } else before
  | _ => before

/-- What one act leaves of the booking of an ID. -/
def bookingAfter (id : String) (before : Option BookingHeld) : Act → Option BookingHeld
  | .bookingOpened booking _ =>
    if booking.bookingId = id then some (BookingHeld.bare { booking, state := .booked }) else before
  | .bookingHeld bookingId reason =>
    if bookingId = id then
      before.map fun held => { held with state := if held.state = .booked then .held else held.state, heldReason := reason }
    else before
  | .bookingHandedOff bookingId =>
    if bookingId = id then before.map fun held => { held with state := .handedOff, heldReason := "" } else before
  | .bookingClosed bookingId =>
    if bookingId = id then before.map fun held => { held with state := .closed, heldReason := "" } else before
  | .bookingCancelled bookingId _ =>
    if bookingId = id then before.map fun held => { held with state := .cancelled, heldReason := "" } else before
  | .bookingReplaced bookingId allocations _ _ _ =>
    if bookingId = id then
      before.map fun held =>
        { held with
          booking.allocations := allocations.map fun allocation => { allocation with giveUpAnswers := [] } }
    else before
  | .alertRaised alert =>
    match alert.kind, alert.subject with
    | .bookingHeld, some subject =>
      if subject.bookingId = id then before.map fun held => { held with heldAlert := alert.alertId } else before
    | _, _ => before
  | .alertCleared alertId =>
    before.map fun held => if held.heldAlert = alertId then { held with heldAlert := "" } else held
  | _ => before

/-- What one act leaves of the alert of an ID. -/
def alertAfter (id : String) (before : Option Alert) : Act → Option Alert
  | .alertRaised alert => if alert.alertId = id then some (bareAlert alert) else before
  | .alertAcknowledged alertId _ =>
    if alertId = id then
      before.map fun held =>
        if held.kind ≠ .bookingHeld ∧ held.state = .raised then { held with state := .acknowledged } else held
    else before
  | .alertCleared alertId => if alertId = id then before.map fun held => { held with state := .cleared } else before
  | _ => before

theorem execution_onExecution (ledger : Ledger) (executionId : String) (change : ExecutionHeld → ExecutionHeld)
    (id : String) :
    (ledger.onExecution executionId change).executions[id]? =
      if executionId = id then (ledger.executions[id]?).map change else ledger.executions[id]? := by
  rw [onExecution, Std.ExtTreeMap.getElem?_modify]
  by_cases same : executionId = id
  · subst same
    simp only [Std.ReflOrd.compare_self, if_true]
  · rw [if_neg (by simpa using same), if_neg same]

theorem booking_onBooking (ledger : Ledger) (bookingId : String) (change : BookingHeld → BookingHeld) (id : String) :
    (ledger.onBooking bookingId change).bookings[id]? =
      if bookingId = id then (ledger.bookings[id]?).map change else ledger.bookings[id]? := by
  rw [onBooking, Std.ExtTreeMap.getElem?_modify]
  by_cases same : bookingId = id
  · subst same
    simp only [Std.ReflOrd.compare_self, if_true]
  · rw [if_neg (by simpa using same), if_neg same]

theorem execution_executed (ledger : Ledger) (execution : Execution) (sender code client taken : String) (row : FactorRow)
    (entryId id : String) :
    ((ledger.executed execution sender code client taken row entryId).executions[id]?).map ExecutionHeld.bare =
      executionAfter id ((ledger.executions[id]?).map ExecutionHeld.bare)
        (.executed execution sender code client taken row) := by
  let superseding := if execution.supersedes = "" then ledger
    else ledger.onExecution execution.supersedes fun earlier =>
      { earlier with supersededBy := some execution.executionId }
  have inserted : (ledger.executed execution sender code client taken row entryId).executions =
      superseding.executions.insert execution.executionId
        { execution := recorded execution client taken row
          entryId, sender, venueAccountCode := code, venueClientOrderId := client, factorTaken := taken
          factorRow := row } := rfl
  rw [inserted, Std.ExtTreeMap.getElem?_insert]
  simp only [executionAfter]
  by_cases own : execution.executionId = id
  · subst own
    simp only [Std.ReflOrd.compare_self, if_true]
    rfl
  · rw [if_neg (by simpa using own), if_neg own]
    unfold superseding
    by_cases supersedes : execution.supersedes = ""
    · rw [if_pos supersedes, if_neg (fun named => named.1 supersedes)]
    · rw [if_neg supersedes, execution_onExecution]
      by_cases same : execution.supersedes = id
      · rw [if_pos same, if_pos ⟨supersedes, same⟩, Option.map_map, Option.map_map]
        rfl
      · rw [if_neg same, if_neg fun named => same named.2]

theorem execution_accepted (orderId placementId entryId sleeve : String) (start : Nat) (ids : List String)
    (counts : List Nat) (ledger : Ledger) (id : String) :
    ((ledger.accepted orderId placementId entryId sleeve start ids counts).executions[id]?).map ExecutionHeld.bare =
      if id ∈ ids then
        ((ledger.executions[id]?).map ExecutionHeld.bare).map fun held =>
          { held with execution.orderId := orderId, execution.placementId := placementId, execution.state := .matched }
      else (ledger.executions[id]?).map ExecutionHeld.bare := by
  induction ids generalizing ledger start counts with
  | nil => simp [accepted]
  | cons first ids ih =>
    rw [accepted, ih]
    have changed := execution_onExecution ledger first (fun held =>
      { held with
        execution.orderId := orderId
        execution.placementId := placementId
        execution.sleeve := sleeve
        execution.state := .matched
        acceptedLines := some (entryId, start, counts.headD 0) }) id
    change (if id ∈ ids then (Option.map ExecutionHeld.bare
        ((ledger.onExecution first _).executions[id]?)).map _ else Option.map ExecutionHeld.bare
        ((ledger.onExecution first _).executions[id]?)) = _
    rw [changed]
    by_cases same : first = id
    · subst same
      simp only [if_true, List.mem_cons, true_or]
      split <;> cases ledger.executions[first]? <;> rfl
    · have other : id ≠ first := Ne.symm same
      rw [if_neg same]
      simp only [List.mem_cons, other, false_or]

theorem execution_dontKnow (ids : List String) (reason : Nat) (text : String) (ledger : Ledger) (id : String) :
    ((ids.foldl (fun held id => held.onExecution id fun execution =>
      { execution with execution.state := .dontKnow, execution.dkReason := reason, execution.dkText := text })
      ledger).executions[id]?).map ExecutionHeld.bare =
      if id ∈ ids then
        ((ledger.executions[id]?).map ExecutionHeld.bare).map fun held =>
          { held with execution.state := .dontKnow, execution.dkReason := reason, execution.dkText := text }
      else (ledger.executions[id]?).map ExecutionHeld.bare := by
  induction ids generalizing ledger with
  | nil => simp
  | cons first ids ih =>
    rw [List.foldl_cons, ih, execution_onExecution]
    by_cases same : first = id
    · subst same
      simp only [if_true, List.mem_cons, true_or]
      split <;> cases ledger.executions[first]? <;> rfl
    · have other : id ≠ first := Ne.symm same
      rw [if_neg same]
      simp only [List.mem_cons, other, false_or]

/-- An act changes each execution by what it says of that one alone. -/
theorem execution_apply (ledger : Ledger) (act : Act) (entryId : String) (versions : BTreeMap String Nat) (id : String) :
    ((ledger.apply act entryId versions).executions[id]?).map ExecutionHeld.bare =
      executionAfter id ((ledger.executions[id]?).map ExecutionHeld.bare) act := by
  have changed (executionId : String) (change : ExecutionHeld → ExecutionHeld)
      (after : ExecutionHeld → ExecutionHeld) (same : ∀ held, (change held).bare = after held.bare) :
      ((ledger.onExecution executionId change).executions[id]?).map ExecutionHeld.bare =
        if executionId = id then ((ledger.executions[id]?).map ExecutionHeld.bare).map after
        else (ledger.executions[id]?).map ExecutionHeld.bare := by
    rw [execution_onExecution]
    split
    · rw [Option.map_map, Option.map_map]
      exact congrArg ((ledger.executions[id]?).map ·) (funext same)
    · rfl
  cases act with
  | executed execution sender code client taken row => exact execution_executed ..
  | accepted ids orderId placementId counts note => exact execution_accepted ..
  | dontKnow ids reason text => exact execution_dontKnow ..
  | factorRevised executionId taken row lots => exact changed executionId _ _ fun _ => rfl
  | capacityBackfilled executionId capacity => exact changed executionId _ _ fun _ => rfl
  | giveUpRecorded executionId bookingId allocationId record =>
    refine (changed executionId (fun held =>
      { held with execution.giveUpAnswers := held.execution.giveUpAnswers ++ [record] }) (fun held => held)
      fun _ => rfl).trans ?_
    simp only [Option.map_id', ite_self]
    rfl
  | opened order released =>
    have linked : (ledger.linked order).executions = ledger.executions := by
      unfold linked
      split <;> rfl
    change (((ledger.linked order).executions)[id]?).map ExecutionHeld.bare = _
    rw [linked]
    rfl
  | checked orderId check =>
    simp only [apply]
    split <;> rfl
  | changeOpened request =>
    simp only [apply]
    split <;> rfl
  | placementReported report =>
    simp only [apply, reported]
    split <;> rfl
  | sleeveCrossed cross =>
    have kept (ids : List String) (start : Ledger) :
        (ids.foldl (fun held orderId => held.onOrder orderId fun order =>
          { order with order.sleeveCrossIds := pushNew order.order.sleeveCrossIds cross.sleeveCrossId })
          start).executions = start.executions := by
      induction ids generalizing start with
      | nil => rfl
      | cons first rest ih => exact (ih _).trans rfl
    simp only [apply, kept]
    rfl
  | alertRaised alert =>
    simp only [apply]
    split <;> rfl
  | _ => rfl

/-- Allocations without their answers are the same once one is answered. -/
theorem map_answeredOn (allocations : List Allocation) (allocationId : String) (record : GiveUpRecord) :
    ((answeredOn allocations allocationId record).map fun allocation => { allocation with giveUpAnswers := [] }) =
      allocations.map fun allocation => { allocation with giveUpAnswers := [] } := by
  induction allocations with
  | nil => rfl
  | cons kept rest ih =>
    unfold answeredOn
    split
    · rfl
    · rw [List.map_cons, ih, List.map_cons]

/-- An act changes each booking by what it says of that one alone. -/
theorem booking_apply (ledger : Ledger) (act : Act) (entryId : String) (versions : BTreeMap String Nat) (id : String) :
    ((ledger.apply act entryId versions).bookings[id]?).map BookingHeld.bare =
      bookingAfter id ((ledger.bookings[id]?).map BookingHeld.bare) act := by
  have changed (bookingId : String) (change : BookingHeld → BookingHeld) (after : BookingHeld → BookingHeld)
      (same : ∀ held, (change held).bare = after held.bare) :
      ((ledger.onBooking bookingId change).bookings[id]?).map BookingHeld.bare =
        if bookingId = id then ((ledger.bookings[id]?).map BookingHeld.bare).map after
        else (ledger.bookings[id]?).map BookingHeld.bare := by
    rw [booking_onBooking]
    split
    · rw [Option.map_map, Option.map_map]
      exact congrArg ((ledger.bookings[id]?).map ·) (funext same)
    · rfl
  cases act with
  | bookingOpened booking lines =>
    simp only [apply, bookingAfter, Std.ExtTreeMap.getElem?_insert]
    by_cases same : booking.bookingId = id
    · subst same
      simp only [Std.ReflOrd.compare_self, if_true]
      rfl
    · rw [if_neg (by simpa using same), if_neg same]
  | bookingHeld bookingId reason => exact changed bookingId _ _ fun _ => rfl
  | bookingHandedOff bookingId => exact changed bookingId _ _ fun _ => rfl
  | bookingClosed bookingId => exact changed bookingId _ _ fun _ => rfl
  | bookingCancelled bookingId reason => exact changed bookingId _ _ fun _ => rfl
  | bookingReplaced bookingId allocations date reason lines => exact changed bookingId _ _ fun _ => rfl
  | giveUpRecorded executionId bookingId allocationId record =>
    refine (changed bookingId (fun held =>
      { held with booking.allocations := answeredOn held.booking.allocations allocationId record }) (fun held => held)
      fun held => ?_).trans ?_
    · simp only [BookingHeld.bare, map_answeredOn]
    · simp only [Option.map_id', ite_self]
      rfl
  | alertRaised alert =>
    have raised (kind : AlertKind) (subject : Option AlertSubject) :
        ((match kind, subject with
          | .bookingHeld, some subject =>
            ({ ledger with alerts := ledger.alerts.insert alert.alertId alert }).onBooking subject.bookingId
              fun held => { held with heldAlert := alert.alertId }
          | _, _ => { ledger with alerts := ledger.alerts.insert alert.alertId alert }).bookings[id]?).map
            BookingHeld.bare =
          match kind, subject with
          | .bookingHeld, some subject =>
            if subject.bookingId = id then
              ((ledger.bookings[id]?).map BookingHeld.bare).map fun held => { held with heldAlert := alert.alertId }
            else (ledger.bookings[id]?).map BookingHeld.bare
          | _, _ => (ledger.bookings[id]?).map BookingHeld.bare := by
      cases kind <;> cases subject <;> first | rfl | exact changed _ _ _ fun _ => rfl
    exact raised alert.kind alert.subject
  | alertCleared alertId =>
    simp only [apply, bookingAfter, Std.ExtTreeMap.getElem?_map, Option.map_map]
    refine congrArg ((ledger.bookings[id]?).map ·) (funext fun held => ?_)
    exact apply_ite BookingHeld.bare (held.heldAlert = alertId) { held with heldAlert := "" } held
  | opened order released =>
    have linked : (ledger.linked order).bookings = ledger.bookings := by
      unfold linked
      split <;> rfl
    change (((ledger.linked order).bookings)[id]?).map BookingHeld.bare = _
    rw [linked]
    rfl
  | checked orderId check =>
    simp only [apply]
    split <;> rfl
  | changeOpened request =>
    simp only [apply]
    split <;> rfl
  | placementReported report =>
    simp only [apply, reported]
    split <;> rfl
  | executed execution sender code client taken row =>
    simp only [apply, executed]
    split <;> rfl
  | accepted ids orderId placementId counts note =>
    have kept (sleeve : String) (start : Nat) (counts : List Nat) (from_ : Ledger) :
        (from_.accepted orderId placementId entryId sleeve start ids counts).bookings = from_.bookings := by
      induction ids generalizing from_ start counts with
      | nil => rfl
      | cons first rest ih => exact (ih _ _ _).trans rfl
    simp only [apply, kept]
    rfl
  | dontKnow ids reason text =>
    have kept (from_ : Ledger) :
        (ids.foldl (fun held id => held.onExecution id fun execution =>
          { execution with execution.state := .dontKnow, execution.dkReason := reason, execution.dkText := text })
          from_).bookings = from_.bookings := by
      induction ids generalizing from_ with
      | nil => rfl
      | cons first rest ih => exact (ih _).trans rfl
    simp only [apply, kept]
    rfl
  | sleeveCrossed cross =>
    have kept (ids : List String) (start : Ledger) :
        (ids.foldl (fun held orderId => held.onOrder orderId fun order =>
          { order with order.sleeveCrossIds := pushNew order.order.sleeveCrossIds cross.sleeveCrossId })
          start).bookings = start.bookings := by
      induction ids generalizing start with
      | nil => rfl
      | cons first rest ih => exact (ih _).trans rfl
    simp only [apply, kept]
    rfl
  | _ => rfl

theorem alert_modify (alerts : BTreeMap String Alert) (alertId : String) (change after : Alert → Alert)
    (same : ∀ alert, bareAlert (change alert) = after (bareAlert alert)) (id : String) :
    ((alerts.modify alertId change)[id]?).map bareAlert =
      if alertId = id then ((alerts[id]?).map bareAlert).map after else (alerts[id]?).map bareAlert := by
  rw [Std.ExtTreeMap.getElem?_modify]
  by_cases own : alertId = id
  · subst own
    simp only [Std.ReflOrd.compare_self, if_true, Option.map_map]
    exact congrArg ((alerts[alertId]?).map ·) (funext same)
  · rw [if_neg (by simpa using own), if_neg own]

/-- An act changes each alert by what it says of that one alone. -/
theorem alert_apply (ledger : Ledger) (act : Act) (entryId : String) (versions : BTreeMap String Nat) (id : String) :
    ((ledger.apply act entryId versions).alerts[id]?).map bareAlert =
      alertAfter id ((ledger.alerts[id]?).map bareAlert) act := by
  cases act with
  | alertRaised alert =>
    have inserted : (ledger.apply (.alertRaised alert) entryId versions).alerts =
        ledger.alerts.insert alert.alertId alert := by
      simp only [apply]
      split <;> rfl
    rw [inserted, Std.ExtTreeMap.getElem?_insert]
    simp only [alertAfter]
    by_cases own : alert.alertId = id
    · subst own
      simp only [Std.ReflOrd.compare_self, if_true]
      rfl
    · rw [if_neg (by simpa using own), if_neg own]
  | alertAcknowledged alertId reason =>
    refine alert_modify ledger.alerts alertId _ _ (fun alert => ?_) id
    exact apply_ite bareAlert (alert.kind ≠ .bookingHeld ∧ alert.state = .raised) { alert with state := .acknowledged } alert
  | alertCleared alertId =>
    have cleared (alert : Alert) : bareAlert { alert with state := .cleared } = { bareAlert alert with state := .cleared } :=
      rfl
    exact alert_modify ledger.alerts alertId _ _ cleared id
  | opened order released =>
    have linked : (ledger.linked order).alerts = ledger.alerts := by
      unfold linked
      split <;> rfl
    change (((ledger.linked order).alerts)[id]?).map bareAlert = _
    rw [linked]
    rfl
  | checked orderId check =>
    simp only [apply]
    split <;> rfl
  | changeOpened request =>
    simp only [apply]
    split <;> rfl
  | placementReported report =>
    simp only [apply, reported]
    split <;> rfl
  | executed execution sender code client taken row =>
    simp only [apply, executed]
    split <;> rfl
  | accepted ids orderId placementId counts note =>
    have kept (sleeve : String) (start : Nat) (counts : List Nat) (from_ : Ledger) :
        (from_.accepted orderId placementId entryId sleeve start ids counts).alerts = from_.alerts := by
      induction ids generalizing from_ start counts with
      | nil => rfl
      | cons first rest ih => exact (ih _ _ _).trans rfl
    simp only [apply, kept]
    rfl
  | dontKnow ids reason text =>
    have kept (from_ : Ledger) :
        (ids.foldl (fun held id => held.onExecution id fun execution =>
          { execution with execution.state := .dontKnow, execution.dkReason := reason, execution.dkText := text })
          from_).alerts = from_.alerts := by
      induction ids generalizing from_ with
      | nil => rfl
      | cons first rest ih => exact (ih _).trans rfl
    simp only [apply, kept]
    rfl
  | sleeveCrossed cross =>
    have kept (ids : List String) (start : Ledger) :
        (ids.foldl (fun held orderId => held.onOrder orderId fun order =>
          { order with order.sleeveCrossIds := pushNew order.order.sleeveCrossIds cross.sleeveCrossId })
          start).alerts = start.alerts := by
      induction ids generalizing start with
      | nil => rfl
      | cons first rest ih => exact (ih _).trans rfl
    simp only [apply, kept]
    rfl
  | _ => rfl

end Ledger

end MeridianCore.Bor
