import MeridianCore.Bor.Book.Acted
import MeridianCore.Bor.Orders.BookedAfter

namespace MeridianCore.Bor

/-- What of a ledger its bookings are held against: the executions, the bookings, the link to its parent of
each order held, and the alerts. -/
structure BookedView where
  execution : String → Option ExecutionHeld
  booking : String → Option BookingHeld
  order : String → Option (Option OrderLink)
  alert : String → Option Alert

namespace Ledger

/-- What one act leaves of the link an order has. -/
def linkAfter (id : String) (before : Option (Option OrderLink)) : Act → Option (Option OrderLink)
  | .opened order _ => if order.orderId = id then some order.link else before
  | .terms order => if order.orderId = id then before.map fun _ => order.link else before
  | .netLinked orderId netOrderId _ =>
    if orderId = id then before.map fun _ => some { kind := .net, parentOrderId := netOrderId } else before
  | _ => before

theorem link_orderAfter (versions : BTreeMap String Nat) (id : String) (before : Option OrderHeld) (act : Act) :
    (orderAfter versions id before act).map (fun held => held.order.link) =
      linkAfter id (before.map fun held => held.order.link) act := by
  cases act with
  | opened order released =>
    simp only [orderAfter, linkAfter]
    split
    · rfl
    · cases order.link with
      | none => rfl
      | some link =>
        dsimp only
        split <;> cases before <;> rfl
  | accepted ids orderId placementId counts note => exact read_accepted (fun _ _ => rfl) ..
  | sleeveCrossed cross =>
    refine @read_foldl _ _ _ (Option.map fun held : OrderHeld => held.order.link) _ (fun before orderId => ?_)
      cross.orderIds before
    split
    · rw [Option.map_map]
      rfl
    · rfl
  | _ =>
    simp only [orderAfter, linkAfter]
    try split
    all_goals simp only [Option.map_map] <;> rfl

def view (ledger : Ledger) : BookedView where
  execution id := (ledger.executions[id]?).map ExecutionHeld.bare
  booking id := (ledger.bookings[id]?).map BookingHeld.bare
  order id := (ledger.orders[id]?).map fun held => held.order.link
  alert id := (ledger.alerts[id]?).map bareAlert

theorem view_execution (ledger : Ledger) (id : String) :
    ledger.view.execution id = (ledger.executions[id]?).map ExecutionHeld.bare := rfl

theorem view_booking (ledger : Ledger) (id : String) :
    ledger.view.booking id = (ledger.bookings[id]?).map BookingHeld.bare := rfl

theorem view_order (ledger : Ledger) (id : String) :
    ledger.view.order id = (ledger.orders[id]?).map fun held => held.order.link := rfl

end Ledger

namespace BookedView

/-- What one act leaves of it. -/
def after (view : BookedView) (act : Act) : BookedView where
  execution id := Ledger.executionAfter id (view.execution id) act
  booking id := Ledger.bookingAfter id (view.booking id) act
  order id := Ledger.linkAfter id (view.order id) act
  alert id := Ledger.alertAfter id (view.alert id) act

def afterAll (view : BookedView) (acts : List Act) : BookedView := acts.foldl after view

theorem afterAll_cons (view : BookedView) (act : Act) (rest : List Act) :
    view.afterAll (act :: rest) = (view.after act).afterAll rest := rfl

theorem execution_afterAll (view : BookedView) (acts : List Act) (id : String) :
    (view.afterAll acts).execution id = acts.foldl (Ledger.executionAfter id) (view.execution id) := by
  induction acts generalizing view with
  | nil => rfl
  | cons act rest ih => exact ih (view.after act)

theorem booking_afterAll (view : BookedView) (acts : List Act) (id : String) :
    (view.afterAll acts).booking id = acts.foldl (Ledger.bookingAfter id) (view.booking id) := by
  induction acts generalizing view with
  | nil => rfl
  | cons act rest ih => exact ih (view.after act)

theorem order_afterAll (view : BookedView) (acts : List Act) (id : String) :
    (view.afterAll acts).order id = acts.foldl (Ledger.linkAfter id) (view.order id) := by
  induction acts generalizing view with
  | nil => rfl
  | cons act rest ih => exact ih (view.after act)

theorem alert_afterAll (view : BookedView) (acts : List Act) (id : String) :
    (view.afterAll acts).alert id = acts.foldl (Ledger.alertAfter id) (view.alert id) := by
  induction acts generalizing view with
  | nil => rfl
  | cons act rest ih => exact ih (view.after act)

end BookedView

namespace Ledger

theorem execution_stamped (entry : Entry) (id : String) (before : Option ExecutionHeld) (act : Act) :
    executionAfter id before (Book.stamped entry act) = executionAfter id before act := by
  cases act <;> rfl

theorem booking_stamped (entry : Entry) (id : String) (before : Option BookingHeld) (act : Act) :
    bookingAfter id before (Book.stamped entry act) = bookingAfter id before act := by
  cases act <;> rfl

theorem alert_stamped (entry : Entry) (id : String) (before : Option Alert) (act : Act) :
    alertAfter id before (Book.stamped entry act) = alertAfter id before act := by
  cases act <;> rfl

/-- An entry's act leaves of an execution what the act alone would. -/
theorem execution_applyAct (entry : Entry) (versions : BTreeMap String Nat) (ledger : Ledger) (act : Act) (id : String) :
    ((Book.applyAct entry versions ledger act).executions[id]?).map ExecutionHeld.bare =
      executionAfter id ((ledger.executions[id]?).map ExecutionHeld.bare) act := by
  rw [← execution_stamped entry, ← execution_apply ledger _ entry.entryId versions]
  cases act <;> rfl

/-- An entry's act leaves of a booking what the act alone would, but for when it was booked. -/
theorem booking_applyAct (entry : Entry) (versions : BTreeMap String Nat) (ledger : Ledger) (act : Act) (id : String) :
    ((Book.applyAct entry versions ledger act).bookings[id]?).map BookingHeld.bare =
      bookingAfter id ((ledger.bookings[id]?).map BookingHeld.bare) act := by
  have booked (applied : Ledger) (bookingId : String) :
      ((applied.onBooking bookingId fun held => { held with bookedAt := entry.firstSequence }).bookings[id]?).map
        BookingHeld.bare = (applied.bookings[id]?).map BookingHeld.bare := by
    rw [booking_onBooking]
    split
    · rw [Option.map_map]
      rfl
    · rfl
  rw [← booking_stamped entry, ← booking_apply ledger _ entry.entryId versions]
  cases act with
  | bookingOpened booking lines => exact booked _ booking.bookingId
  | bookingReplaced bookingId allocations date reason lines => exact booked _ bookingId
  | _ => rfl

theorem alert_applyAct (entry : Entry) (versions : BTreeMap String Nat) (ledger : Ledger) (act : Act) (id : String) :
    ((Book.applyAct entry versions ledger act).alerts[id]?).map bareAlert =
      alertAfter id ((ledger.alerts[id]?).map bareAlert) act := by
  rw [← alert_stamped entry, ← alert_apply ledger _ entry.entryId versions]
  cases act <;> rfl

theorem execution_referenced (ledger : Ledger) (entryId : String) (refs : Refs) (id : String) :
    ((Book.referenced ledger entryId refs).executions[id]?).map ExecutionHeld.bare =
      (ledger.executions[id]?).map ExecutionHeld.bare := by
  have orders : ∀ (held : Ledger) (row : String × JournalRef),
      (if held.orders.contains row.1 then
        { held.onOrder row.1 fun order => { order with lastChange := some row.2 } with
          orderEntries := held.orderEntries.insert row.1 ((held.orderEntries[row.1]?).getD [] ++ [entryId]) }
      else held).executions = held.executions := by
    intro held row
    split <;> rfl
  unfold Book.referenced
  refine (@read_foldl _ _ _ (fun ledger : Ledger => (ledger.executions[id]?).map ExecutionHeld.bare) _
    (fun held row => ?_) refs.executions _).trans ?_
  · refine (congrArg (Option.map ExecutionHeld.bare) (execution_onExecution held row.1 _ id)).trans ?_
    split
    · rw [Option.map_map]
      rfl
    · rfl
  · refine (@read_foldl _ _ _ (fun ledger : Ledger => (ledger.executions[id]?).map ExecutionHeld.bare) _
      (fun held row => ?_) refs.placements _).trans ?_
    · rfl
    · refine @read_foldl _ _ _ (fun ledger : Ledger => (ledger.executions[id]?).map ExecutionHeld.bare) _
        (fun held row => ?_) refs.orders _
      exact congrArg (fun executions : BTreeMap String ExecutionHeld => (executions[id]?).map ExecutionHeld.bare)
        (orders held row)

theorem booking_referenced (ledger : Ledger) (entryId : String) (refs : Refs) :
    (Book.referenced ledger entryId refs).bookings = ledger.bookings := by
  unfold Book.referenced
  refine (@read_foldl _ _ _ Ledger.bookings _ (fun held row => ?_) refs.executions _).trans ?_
  · rfl
  refine (@read_foldl _ _ _ Ledger.bookings _ (fun held row => ?_) refs.placements _).trans ?_
  · rfl
  refine @read_foldl _ _ _ Ledger.bookings _ (fun held row => ?_) refs.orders _
  dsimp only
  split <;> rfl

theorem booking_referencedAfter (ledger : Ledger) (entry : Entry) (refs : Refs) (id : String) :
    ((Book.referencedAfter ledger entry refs).bookings[id]?).map BookingHeld.bare =
      (ledger.bookings[id]?).map BookingHeld.bare := by
  refine @read_foldl _ _ _ (fun bookings : BTreeMap String BookingHeld => (bookings[id]?).map BookingHeld.bare) _
    (fun held row => ?_) refs.bookings _
  dsimp only
  rw [Std.ExtTreeMap.getElem?_modify]
  split
  · next same =>
    obtain rfl := Std.LawfulEqOrd.eq_of_compare same
    rw [Option.map_map]
    rfl
  · rfl

theorem alert_referenced (ledger : Ledger) (entryId : String) (refs : Refs) :
    (Book.referenced ledger entryId refs).alerts = ledger.alerts := by
  unfold Book.referenced
  refine (@read_foldl _ _ _ Ledger.alerts _ (fun held row => ?_) refs.executions _).trans ?_
  · rfl
  refine (@read_foldl _ _ _ Ledger.alerts _ (fun held row => ?_) refs.placements _).trans ?_
  · rfl
  refine @read_foldl _ _ _ Ledger.alerts _ (fun held row => ?_) refs.orders _
  dsimp only
  split <;> rfl

theorem alert_referencedAfter (ledger : Ledger) (entry : Entry) (refs : Refs) (alertId : String) :
    ((Book.referencedAfter ledger entry refs).alerts[alertId]?).map bareAlert =
      (ledger.alerts[alertId]?).map bareAlert := by
  refine @read_foldl _ _ _ (fun alerts : BTreeMap String Alert => (alerts[alertId]?).map bareAlert) _
    (fun held row => ?_) refs.alerts _
  have referenced (alert : Alert) : bareAlert { alert with lastChange := some row.2 } = id (bareAlert alert) := rfl
  refine (alert_modify held row.1 _ _ referenced _).trans ?_
  split
  · exact congrFun Option.map_id _
  · rfl

end Ledger

namespace Book

/-- The executions and the bookings an entry's acts leave are those the acts leave alone. -/
theorem executions_foldl (entry : Entry) (versions : BTreeMap String Nat) (acts : List Act) (ledger : Ledger) (id : String) :
    ((acts.foldl (applyAct entry versions) ledger).executions[id]?).map ExecutionHeld.bare =
      acts.foldl (Ledger.executionAfter id) ((ledger.executions[id]?).map ExecutionHeld.bare) := by
  induction acts generalizing ledger with
  | nil => rfl
  | cons act rest ih => rw [List.foldl_cons, ih, Ledger.execution_applyAct, List.foldl_cons]

theorem bookings_foldl (entry : Entry) (versions : BTreeMap String Nat) (acts : List Act) (ledger : Ledger) (id : String) :
    ((acts.foldl (applyAct entry versions) ledger).bookings[id]?).map BookingHeld.bare =
      acts.foldl (Ledger.bookingAfter id) ((ledger.bookings[id]?).map BookingHeld.bare) := by
  induction acts generalizing ledger with
  | nil => rfl
  | cons act rest ih => rw [List.foldl_cons, ih, Ledger.booking_applyAct, List.foldl_cons]

theorem alerts_foldl (entry : Entry) (versions : BTreeMap String Nat) (acts : List Act) (ledger : Ledger) (id : String) :
    ((acts.foldl (applyAct entry versions) ledger).alerts[id]?).map Ledger.bareAlert =
      acts.foldl (Ledger.alertAfter id) ((ledger.alerts[id]?).map Ledger.bareAlert) := by
  induction acts generalizing ledger with
  | nil => rfl
  | cons act rest ih => rw [List.foldl_cons, ih, Ledger.alert_applyAct, List.foldl_cons]

theorem links_of_applied {process : Process} {book after : Book} {entry : Entry} {lenient : Bool} {changes : Changes}
    (applied : book.apply process entry lenient = .ok (after, changes)) (id : String) :
    after.ledger.view.order id = (book.ledger.view.afterAll entry.body.acts).order id := by
  obtain ⟨versions, same⟩ := order_of_applied applied id
  have links := congrArg (Option.map fun held : OrderHeld => held.order.link) same
  rw [Option.map_map] at links
  rw [BookedView.order_afterAll]
  refine links.trans ?_
  have start : (((book.ledger.orders[id]?).map OrderHeld.unsigned).map fun held => held.order.link) =
      book.ledger.view.order id := by
    rw [Option.map_map]
    rfl
  rw [← start]
  generalize (book.ledger.orders[id]?).map OrderHeld.unsigned = before
  induction entry.body.acts generalizing before with
  | nil => rfl
  | cons act rest ih => rw [List.foldl_cons, ih, Ledger.link_orderAfter, List.foldl_cons]

/-- What an entry applied leaves its bookings held against is what its acts leave. -/
theorem view_of_applied {process : Process} {book after : Book} {entry : Entry} {lenient : Bool} {changes : Changes}
    (applied : book.apply process entry lenient = .ok (after, changes)) :
    after.ledger.view = book.ledger.view.afterAll entry.body.acts := by
  have orders : after.ledger.view.order = (book.ledger.view.afterAll entry.body.acts).order :=
    funext (links_of_applied applied)
  obtain ⟨phases⟩ := phases applied
  have acted := phases.acts
  rw [phases.closed] at orders ⊢
  have start := phases.recorded_ledger
  unfold applyActs at acted
  split at acted
  · next none =>
    obtain ⟨same, -⟩ := Prod.mk.inj (Except.ok.inj acted)
    have ledgers : phases.acted.ledger = book.ledger := by rw [← same, setRecords_ledger, start]
    rw [none, ← ledgers]
    rfl
  · obtain ⟨-, -, acted⟩ := bind_ok.mp acted
    obtain ⟨-, -, acted⟩ := bind_ok.mp acted
    obtain ⟨orders', -, acted⟩ := bind_ok.mp acted
    obtain ⟨placements, -, acted⟩ := bind_ok.mp acted
    obtain ⟨locates, -, acted⟩ := bind_ok.mp acted
    obtain ⟨bookings, -, acted⟩ := bind_ok.mp acted
    obtain ⟨same, -⟩ := Prod.mk.inj (Except.ok.inj acted)
    have executions : phases.acted.ledger.view.execution = (book.ledger.view.afterAll entry.body.acts).execution := by
      funext id
      rw [BookedView.execution_afterAll, ← same, ← start]
      refine (Ledger.execution_referenced _ _ _ id).trans ?_
      exact executions_foldl ..
    have bookings : phases.acted.ledger.view.booking = (book.ledger.view.afterAll entry.body.acts).booking := by
      funext id
      rw [BookedView.booking_afterAll, ← same, ← start]
      refine (Ledger.booking_referencedAfter _ _ _ id).trans ?_
      rw [Ledger.booking_referenced]
      exact bookings_foldl ..
    have alerts : phases.acted.ledger.view.alert = (book.ledger.view.afterAll entry.body.acts).alert := by
      funext id
      rw [BookedView.alert_afterAll, ← same, ← start]
      refine (Ledger.alert_referencedAfter _ _ _ id).trans ?_
      rw [Ledger.alert_referenced]
      exact alerts_foldl ..
    exact congr (congr (congr (congrArg BookedView.mk executions) bookings) orders) alerts

end Book

end MeridianCore.Bor
