import MeridianCore.Bor.Decide

namespace MeridianCore.Bor

/-- The executions a booking books, summed: the quantity, the gross and each fee kind, and of the first
what it is booked by. -/
structure Executed where
  quantity : Exact := Exact.zero
  gross : Exact := Exact.zero
  fees : BTreeMap Nat Exact := ∅
  instrumentId : String := ""
  side : Side := .unspecified
  sleeve : String := ""
  tradeDate : String := ""
  valueDate : String := ""
  /-- The price's money, naming its currency. -/
  price : Money := {}
  factor : Option Exact := none
  factorMonthAwaited : String := ""
  settlementDateUnknown : Bool := false

/-- The date a fill's lines pend to: stated, or computed. -/
def valueDateOf (execution : Execution) : String :=
  if execution.settlementDate = "" then execution.computedSettlementDate else execution.settlementDate

namespace Ledger

/-- The execution after so many that superseded it, each followed once. -/
def laterWithin (ledger : Ledger) : Nat → List String → ExecutionHeld → ExecutionHeld
  | 0, _, current => current
  | fuel + 1, seen, current =>
    match current.supersededBy with
    | none => current
    | some next =>
      if next ∈ seen then current
      else
        match ledger.executions[next]? with
        | some held => laterWithin ledger fuel (next :: seen) held
        | none => current

/-- An execution as it stands now: itself, or what superseded it, a bust counting nothing. -/
def asItStands (ledger : Ledger) (executionId : String) : Option Execution := do
  let held ← ledger.executions[executionId]?
  let current := ledger.laterWithin (ledger.executions.size + 1) [] held
  if current.isBust then none else some current.execution

end Ledger

def addFee (fees : BTreeMap Nat Exact) (fee : Fee) : Result (BTreeMap Nat Exact) := do
  let amount ← match fee.amount with
    | some amount => numbers.amount "fee" amount
    | none => pure Exact.zero
  let sum ← numbers.add "executed fees" ((fees[fee.kind]?).getD Exact.zero) amount
  return fees.insert fee.kind sum

/-- One execution added to the sums, as it stands now. -/
def addExecuted (book : Book) (ctx : Context) (out : Executed) (id : String) : Result Executed :=
  match book.ledger.asItStands id with
  | none => .ok out
  | some execution => do
    let quantity ← numbers.required "execution.quantity" execution.quantity
    let some price := execution.price
      | throw (malformed ["price"] s!"execution {id} states no price")
    let unit ← numbers.amount "execution.price" price
    let total ← numbers.add "executed quantity" out.quantity quantity
    let held := book.ledger.executions[execution.executionId]?
    let factor := match held with
      | some held => held.factor
      | none => execution.factorUsed
    let priced ← multiply "gross" quantity unit
    let whole ← multiply "gross" priced (ctx.fillMultiplier execution.instrumentId factor)
    let gross ← if ctx.isPooled execution.instrumentId then numbers.cents "gross" whole else pure whole
    let grossTotal ← numbers.add "executed gross" out.gross gross
    let fees ← execution.fees.foldlM addFee out.fees
    let awaited := match held with
      | some held => held.factorRow.awaited
      | none => ""
    let summed := { out with
      quantity := total
      gross := grossTotal
      factor := out.factor.or (readExact factor)
      factorMonthAwaited := if awaited = "" then out.factorMonthAwaited else awaited
      settlementDateUnknown := out.settlementDateUnknown || execution.settlementDateUnknown
      fees }
    if out.instrumentId = "" then
      return { summed with
        instrumentId := execution.instrumentId
        side := execution.side
        sleeve := execution.sleeve
        tradeDate := execution.tradeDate
        valueDate := valueDateOf execution
        price }
    else return summed

/-- The executions summed, each as it stands now. -/
def executed (book : Book) (ctx : Context) (executionIds : List String) : Result Executed :=
  executionIds.foldlM (addExecuted book ctx) {}

/-- A held booking's alert, due when the affirmation deadline falls on its trade date. -/
def heldAlert (ctx : Context) (book : Book) (alertId : String) (booking : Booking) (reason : String) : Act :=
  let dueBy := match ctx.affirmation with
    | some instantOf =>
      match executed book ctx booking.executionIds with
      | .ok summed => instantOf summed.tradeDate
      | .error _ => 0
    | none => 0
  .alertRaised {
    alertId
    accountId := book.accountId
    kind := .bookingHeld
    state := .raised
    reason := s!"booking {booking.bookingId} held: {reason}"
    subject := some { orderId := booking.orderId, bookingId := booking.bookingId }
    dueBy }

/-- The act holding or touching one booking of the order a fact moved after it was booked. -/
def afterFact (why : String) (held : BookingHeld) : Option Act :=
  match held.state with
  | .booked => some (.bookingHeld held.booking.bookingId why)
  | .handedOff | .closed => some (.bookingMoved held.booking.bookingId why)
  | _ => none

/-- The acts holding or touching each live booking of the order a fact moved after it was booked. -/
def afterFacts (book : Book) (orderId why : String) : List Act :=
  let top := book.ledger.top orderId
  ((book.ledger.bookings.toList.map Prod.snd).filter fun held => held.booking.orderId = top).filterMap (afterFact why)

/-- The booking an act newly holds, with why: one that no alert stands for. -/
def newlyHeld (book : Book) : Act → Option (Booking × String)
  | .bookingHeld bookingId reason =>
    match book.ledger.bookings[bookingId]? with
    | some held =>
      if held.heldAlert ≠ "" then none
      else
        match book.ledger.bookingRecord bookingId with
        | .ok booking => some (booking, reason)
        | .error _ => none
    | none => none
  | _ => none

/-- The held-booking alerts these acts owe: one for each booking they newly hold. -/
def heldAlertsFor (ctx : Context) (book : Book) (acts : List Act) : List Act :=
  (acts.filterMap (newlyHeld book)).mapIdx fun index held =>
    heldAlert ctx book (ctx.minted "ALR" index) held.1 held.2

end MeridianCore.Bor
