import MeridianCore.Bor.Booking.Lines
import MeridianCore.Bor.OrderDecide.Command

namespace MeridianCore.Bor

namespace Booking

/-- One row of the booking's table: the states it starts from and those it reaches. -/
structure Row where
  row : String
  starts : List BookingState
  reaches : List BookingState
  cause : String
  deriving DecidableEq

/-- The row of a hand-off, and of a closing. -/
def handOffRow : Row where
  row := "b3"
  starts := [.booked, .held]
  reaches := [.handedOff, .closed]
  cause :=
    "a hand-off to operations, or the closing of a client's booking the firm does not settle (its " ++
      "error-account allocations handed off in the same act), executed equal to allocated, checked at the " ++
      "store; any other state refused REFUSAL_REASON_ORDER_STATE"

/-- The row of a hand-off whose check fails. -/
def heldRow : Row where
  row := "b4"
  starts := [.booked]
  reaches := [.held]
  cause :=
    "a hand-off whose check fails: held with the reason, a held-booking alert raised against the " ++
      "affirmation deadline"

/-- The row of a cancel. -/
def cancelRow : Row where
  row := "b6"
  starts := [.booked, .held]
  reaches := [.cancelled]
  cause :=
    "a cancel, the oms's, before the hand-off or closing, with a reason, so the executions may be booked " ++
      "again; a held booking's alert cleared"

/-- The row of a replace. -/
def replaceRow : Row where
  row := "b7"
  starts := [.handedOff, .closed]
  reaches := []
  cause :=
    "a replace, operations', after the hand-off or closing, carrying the full new allocation set and its " ++
      "effective date: a new version, the state kept, the movement lines computed by the book; a cancel " ++
      "after it, or a replace before it, refused REFUSAL_REASON_ORDER_STATE"

def stateNamed : BookingState → String
  | .booked => "booked"
  | .held => "held"
  | .handedOff => "handed off"
  | .closed => "closed"
  | .cancelled => "cancelled"
  | .unspecified => "unknown to the book"

def rowRefused (row : Row) (state : BookingState) (what : String) : StoreError :=
  let named := stateNamed state
  let number := row.row
  let cause := row.cause
  refused .orderState
    s!"{what} is not allowed on a booking that is {named} (the transition table's row {number}: {cause})"

/-- A live booking, any not cancelled, that lists an execution. -/
def bookedIn (ledger : Ledger) (executionId : String) : Option BookingHeld :=
  (ledger.bookings.toList.map Prod.snd).find? fun held =>
    held.state ≠ .cancelled && held.booking.executionIds.contains executionId

/-- Why an execution cannot be booked, where it cannot. -/
def notBookable (ledger : Ledger) (id : String) (held : ExecutionHeld) : Option String :=
  if held.execution.state ≠ .matched then some "it is not matched to the order"
  else
    match held.supersededBy with
    | some later => some s!"execution {later} supersedes it"
    | none =>
      if held.isBust then some "it is a bust"
      else (bookedIn ledger id).map fun booked =>
        let bookingId := booked.booking.bookingId
        s!"it is in live booking {bookingId}"

/-- What one execution of a booking differs from the first in, where it does. -/
def differsFrom (process : Process) (first execution : Execution) : Option String :=
  if ¬ process.same first.instrumentId execution.instrumentId then some "instrument"
  else if first.side ≠ execution.side then some "side"
  else if first.tradeDate ≠ execution.tradeDate then some "trade date"
  else if valueDateOf first ≠ valueDateOf execution then some "settlement date"
  else none

/-- Whether two fills' stated factors conflict. -/
def factorsConflict (first execution : Execution) : Bool :=
  first.factorUsed.isSome && execution.factorUsed.isSome &&
    match readExact first.factorUsed, readExact execution.factorUsed with
    | some a, some b => !a.equals b
    | none, none => false
    | _, _ => true

/-- The factor a fill states, as text. -/
def factorText (execution : Execution) : String :=
  match readExact execution.factorUsed with
  | some factor => toString factor
  | none => ""

/-- One execution a booking names held to what it may book: on the order, bookable, named once, and of the
first one's instrument, side, trade date, settlement date and factor. -/
def addBooked (book : Book) (ctx : Context) (orderId : String) (before : List String × Option Execution)
    (indexed : String × Nat) : Result (List String × Option Execution) := do
  let (id, index) := indexed
  let (seen, first) := before
  let field := s!"execution_ids[{index}]"
  let account := book.accountId
  if id ∈ seen then throw (malformed [field] s!"names execution {id} twice")
  let some held := book.ledger.executions[id]?
    | throw (malformed [field] s!"account {account} holds no execution {id}")
  let execution := held.execution
  let onOrder := execution.orderId
  if book.ledger.top onOrder ≠ orderId then
    throw (malformed [field]
      (s!"execution {id} is on order {onOrder}, not {orderId}: a booking books one order's " ++
        "executions, its children's among them"))
  if let some why := notBookable book.ledger id held then
    throw (.refused .orderState
      s!"execution {id} cannot be booked: {why} (the transition table's row b1)" [field])
  match first with
  | none => return (id :: seen, some execution)
  | some first =>
    let named := first.executionId
    if factorsConflict first execution then
      let stated := factorText execution
      let earlier := factorText first
      throw (malformed [field, "factor_used"]
        (s!"execution {id} states factor_used {stated} and execution {named} states {earlier}:" ++
          "                              a booking's sale or purchase is at one factor, derived from its" ++
          "                              fills, and its fills' overrides conflict (991)"))
    match differsFrom ctx.process first execution with
    | some what =>
      throw (malformed [field]
        (s!"execution {id}'s {what} differs from execution {named}'s: a booking's " ++
          "executions share instrument, side, trade date and settlement date, as " ++
          "FIX's AllocationInstruction (J) requires of NoExecs"))
    | none => return (id :: seen, some first)

/-- The alerts a booking's allocations to error accounts raise, minted from the one named on. -/
def errorAlerts (ctx : Context) (book : Book) (booking : Booking) : List Act :=
  (booking.allocations.filter fun allocation => allocation.errorCause ≠ ErrorCause.unspecified).mapIdx
    fun index allocation =>
      let quantity := match readExact allocation.quantity with
        | some quantity => toString quantity
        | none => ""
      let account := allocation.accountId
      let reason := allocation.reason
      .alertRaised {
        alertId := ctx.minted "ALR" index
        accountId := book.accountId
        kind := .errorAccountBooking
        state := .raised
        reason := s!"booked {quantity} to error account {account}: {reason}"
        subject := some {
          orderId := booking.orderId, bookingId := booking.bookingId, allocationId := allocation.allocationId } }

/-- A command's allocations as a booking keeps them: each minted, settling on the fills' date where it names
none. -/
def minted (ctx : Context) (executed : Executed) (allocations : List Allocation) : List Allocation :=
  allocations.mapIdx fun index allocation =>
    { allocation with
      allocationId := ctx.minted "ALC" index
      giveUpAnswers := []
      intendedSettlementDate :=
        if allocation.intendedSettlementDate = "" then executed.valueDate else allocation.intendedSettlementDate }

/-- What the first position that holds anything of an instrument holds. -/
def firstHeld (instrument : String) : List (Key × PositionState) → Result (Option Exact)
  | [] => .ok none
  | (key, position) :: rest =>
    if key.instrument = instrument ∧ ¬ position.removed then do
      let quantity ← position.tradeDate
      if quantity.isZero then firstHeld instrument rest else return some quantity
    else firstHeld instrument rest

/-- Whether a booking may be handed off: executed equal to allocated in quantity, gross and each fee kind,
the executions as they stand now; and in an allocation account nothing left in the instrument. None where
it may, else why not. -/
def handOffCheck (book : Book) (ctx : Context) (bookingId : String) : Result (Option String) := do
  let some held := book.ledger.bookings[bookingId]?
    | throw (.invalid s!"the book holds no booking {bookingId}")
  let executed ← executed book ctx held.booking.executionIds
  if let some words := ← tiesOut executed held.booking.allocations then return some words
  if held.heldReason ≠ "" ∧ held.state = .held then return some held.heldReason
  if ¬ (attributesOf book).allocationAccount then return none
  let instrument := match book.ledger.executions[held.booking.executionIds.headD ""]? with
    | some first => first.execution.instrumentId
    | none => ""
  let account := book.accountId
  match ← firstHeld instrument book.positions.toList with
  | some quantity => return some s!"allocation account {account} still holds {quantity} of {instrument} after booking"
  | none => return none

/-- The booking a command makes of the executions it names. -/
def bookingOf (book : Book) (ctx : Context) (request : BookOrderRequest) (executed : Executed) : Booking where
  bookingId := ctx.minted "BKG" 0
  orderId := request.orderId
  accountId := book.accountId
  executionIds := request.executionIds
  allocations := minted ctx executed request.allocations

/-- What booking plans: the booking opened, its error accounts' alerts, and its lines. -/
def bookingPlan (book : Book) (ctx : Context) (booking : Booking) (executed : Executed) (lines : List MovementLine) :
    Plan where
  kind := "booking-booked"
  actor := ctx.actor
  acts := .bookingOpened booking (0, lines.length) :: errorAlerts ctx book booking
  lines := lines
  effectiveDate := executed.tradeDate

def bookOrder (book : Book) (head : Nat) (ctx : Context) (request : BookOrderRequest) : Result Made := do
  userRequired ctx "booking an order"
  inScope ctx book.accountId
  let _ ← heldOrder book request.orderId
  if request.executionIds = [] then
    throw (malformed ["execution_ids"] "a booking books an explicit list of executions")
  let _ ← request.executionIds.zipIdx.foldlM (addBooked book ctx request.orderId) ([], none)
  allocationsHold book ctx request.orderId request.allocations
  let executed ← executed book ctx request.executionIds
  if let some words := ← tiesOut executed request.allocations then throw (refused .bookingUnbalanced words)
  let booking := bookingOf book ctx request executed
  let lines ← bookingLines book ctx executed request.executionIds booking.allocations []
  let plan := bookingPlan book ctx booking executed lines
  let made ← finish book head ctx plan
  if ¬ request.handOff then return made
  -- Ready to book: handed off in the same act where the check passes, booked where it does not.
  match ← handOffCheck made.book ctx booking.bookingId with
  | some _ => return made
  | none =>
    finish book head ctx { plan with
      acts := made.entry.body.acts ++ [.bookingHandedOff booking.bookingId]
      lines := made.entry.body.lines }

/-- The booking a command names, in this account's book. -/
def heldBooking (book : Book) (bookingId : String) : Result BookingHeld :=
  match book.ledger.bookings[bookingId]? with
  | some held => .ok held
  | none =>
    let account := book.accountId
    .error (.invalid s!"account {account} holds no booking {bookingId}")

/-- The acts clearing a booking's standing alert, where one stands. -/
def alertCleared (held : BookingHeld) : List Act :=
  if held.heldAlert = "" then [] else [.alertCleared held.heldAlert]

/-- The entry's kind, the state reached, and the acts of a hand-off or a closing. -/
def handOffActs (book : Book) (ctx : Context) (request : HandOffBookingRequest) (held : BookingHeld)
    (booking : Booking) : Option String → String × BookingState × List Act
  | none =>
    if request.close then ("booking-closed", .closed, alertCleared held ++ [.bookingClosed request.bookingId])
    else ("booking-handed-off", .handedOff, alertCleared held ++ [.bookingHandedOff request.bookingId])
  | some reason =>
    ("booking-held", .held, .bookingHeld request.bookingId reason ::
      if held.heldAlert = "" then [heldAlert ctx book (ctx.minted "ALR" 0) booking reason] else [])

def handOffBooking (book : Book) (head : Nat) (ctx : Context) (request : HandOffBookingRequest) : Result Made := do
  userRequired ctx "handing a booking off"
  inScope ctx book.accountId
  let held ← heldBooking book request.bookingId
  let state := held.state
  if state ∉ handOffRow.starts then
    throw (rowRefused handOffRow state (if request.close then "closing" else "a hand-off"))
  let booking ← book.ledger.bookingRecord request.bookingId
  let checked ← handOffCheck book ctx request.bookingId
  let (kind, reached, acts) := handOffActs book ctx request held booking checked
  let row := if reached = .held then heldRow else handOffRow
  if state ≠ .held ∧ reached ≠ state ∧ reached ∉ row.reaches then throw (rowRefused row state "this change")
  finish book head ctx { kind, actor := ctx.actor, acts }

/-- A cancel, before the hand-off: the booking's lines reversed, and its standing alert cleared. -/
def cancelBooking (book : Book) (head : Nat) (ctx : Context) (request : CorrectBookingRequest) (held : BookingHeld) :
    Result Made := do
  if held.state ∉ cancelRow.starts then throw (rowRefused cancelRow held.state "a cancel")
  let lines ← rerouteReliefs book (← negated book held.lines)
  finish book head ctx {
    kind := "booking-cancelled"
    actor := ctx.actor
    acts := alertCleared held ++ [.bookingCancelled request.bookingId request.reason]
    lines
    reason := request.reason }

/-- A replace, after the hand-off: the booking's lines reversed, and those of the new allocations moved. -/
def replaceBooking (book : Book) (head : Nat) (ctx : Context) (request : CorrectBookingRequest) (held : BookingHeld) :
    Result Made := do
  if held.state ∉ replaceRow.starts then throw (rowRefused replaceRow held.state "a replace")
  allocationsHold book ctx held.booking.orderId request.allocations
  let executed ← executed book ctx held.booking.executionIds
  if let some words := ← tiesOut executed request.allocations then throw (refused .bookingUnbalanced words)
  let date := request.effectiveDate
  if date ≠ "" ∧ ¬ isDate date then
    throw (malformed ["effective_date"] s!"effective_date is \"{date}\"; a date is YYYY-MM-DD")
  let allocations := minted ctx executed request.allocations
  let reversed ← rerouteReliefs book (← negated book held.lines)
  let lines ← bookingLines book ctx executed held.booking.executionIds allocations reversed
  let effective := if date = "" then executed.tradeDate else date
  let replaced := { held.booking with allocations }
  finish book head ctx {
    kind := "booking-corrected"
    actor := ctx.actor
    acts :=
      .bookingReplaced request.bookingId allocations effective request.reason (reversed.length, lines.length) ::
        errorAlerts ctx book replaced
    lines := reversed ++ lines
    reason := request.reason
    effectiveDate := effective }

def correctBooking (book : Book) (head : Nat) (ctx : Context) (request : CorrectBookingRequest) : Result Made := do
  userRequired ctx "correcting a booking"
  if request.reason.trimAscii.isEmpty then
    throw (refused .reasonRequired "a booking's correction always carries its reason")
  inScope ctx book.accountId
  let held ← heldBooking book request.bookingId
  match request.kind with
  | .cancel => cancelBooking book head ctx request held
  | .replace => replaceBooking book head ctx request held
  | .unspecified => throw (malformed ["kind"] "a correction is a cancel or a replace")

end Booking

end MeridianCore.Bor

namespace MeridianCore.Bor

end MeridianCore.Bor
