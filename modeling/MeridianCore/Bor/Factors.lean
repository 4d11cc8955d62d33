import MeridianCore.Bor.Book.LotAt
import MeridianCore.Bor.Booking.Lines
import MeridianCore.Bor.Lifecycle.Record

namespace MeridianCore.Bor

namespace Factors

def revisedKind : String := "factor-revised"

/-- A fill's revision due: the factor now published for it and its row. -/
structure Due where
  executionId : String
  factor : Exact
  row : FactorRow

/-- A pool's fill's money at a factor: its original face by the price of a hundred by the factor, to the
cent half-even. -/
def atFactor (field : String) (face unit factor : Exact) : Result Exact := do
  let per ← multiply field (← multiply field face unit) hundredth
  numbers.cents field (← multiply field per factor)

/-- A lot a fill opened, with its quantity, and its holding period's start as the lot stands. -/
def openedLot (book : Book) (line : MovementLine) : Result (String × Exact × String) := do
  let quantity ← numbers.required "line.quantity" line.quantity
  let terms := (book.lotOwner line.lotId).bind fun key => (book.lotAt key line.lotId).bind fun state => state.lot.terms
  return (line.lotId, magnitude quantity, (terms.map LotTerms.holdingPeriodStart).getD "")

/-- The lots a fill opened: its own entry's lines, or the accept's that moved it. -/
def openedLots (book : Book) (process : Process) (executionId : String) : Result (List (String × Exact × String)) :=
  match book.ledger.executions[executionId]? with
  | none => .ok []
  | some held => do
    let body ← book.body (movedIn held)
    ((movedLines held body).filter fun line =>
      line.opensLot.isSome && line.lotId != "" && process.same line.instrumentId held.execution.instrumentId).mapM
        (openedLot book)

/-- What a revision changes of the lots its fill opened. -/
structure Recosted where
  costChange : Exact := Exact.zero
  basisAdjustments : List BasisAdjustment := []
  priorHoldingPeriodStarts : List String := []
  lotIds : List String := []

/-- One more lot's cost restated from one factor to another. -/
def recosted (price : Money) (unit old factor : Exact) (held : Recosted) (lot : String × Exact × String) :
    Result Recosted := do
  let (lotId, quantity, holding) := lot
  let change ← numbers.add "cost" (← atFactor "cost" quantity unit factor) (← atFactor "cost" quantity unit old).negated
  let costChange ← numbers.add "cost" held.costChange change
  let lotIds := held.lotIds ++ [lotId]
  if change.isZero then return { held with costChange, lotIds }
  return {
    costChange, lotIds
    basisAdjustments := held.basisAdjustments ++
      [{ lotId, cost := some (.costChange { price with amount := numbers.wire change }) }]
    priorHoldingPeriodStarts := held.priorHoldingPeriodStarts ++ [holding] }

/-- What one due revision comes to: the cash's lines, the lots' costs, its event, and the act and the order's
hold it makes. -/
structure Revision where
  moved : List MovementLine
  lots : Recosted
  event : LifecycleEvent
  act : Act
  holds : Option (String × String)

/-- A line pending, to the settlement date or dated nothing. -/
def pendingLine (line : MovementLine) : MovementLine := { line with bucket := .pending }

/-- The date a fill settles on: the one it states, or the one computed for it. -/
def settlesOn (execution : Execution) : String :=
  if execution.settlementDate = "" then execution.computedSettlementDate else execution.settlementDate

/-- Whether a revision comes on or after its fill's settlement, and so leaves an open claim. -/
def isClaim (ctx : Context) (execution : Execution) : Bool :=
  settlesOn execution ≠ "" && settlesOn execution ≤ ctx.today

/-- One due revision worked out: the difference of the fill's cash between its factors, signed as received;
each lot it opened restated; and its event, an open claim from the settlement date on. -/
def revision (book : Book) (ctx : Context) (earlier : List MovementLine) (index : Nat) (due : Due) :
    Result Revision := do
  let some held := book.ledger.executions[due.executionId]?
    | throw (.invalid s!"no execution {due.executionId} to revise")
  let execution := held.execution
  let old ← (Exact.parse held.factorTaken).mapError fun _ => .invalid s!"{due.executionId} took no factor"
  let face ← numbers.required "quantity" execution.quantity
  let some price := execution.price
    | throw (.invalid s!"{due.executionId} states no price")
  let unit ← numbers.amount "price" price
  let cashOld ← atFactor "cash" face unit old
  let cashNew ← atFactor "cash" face unit due.factor
  let difference ← numbers.add "cash" cashNew cashOld.negated
  -- a buy pays more where the factor rose
  let received := if execution.side = .buy then difference.negated else difference
  let lineDate := if isClaim ctx execution then "" else settlesOn execution
  let cash ← cashInstrument ctx.process price
  let moved ← currencyLines book ctx cash received lineDate execution.sleeve execution.tradeDate none
    (Booking.methodOf book) [] earlier
  let lots ← (← openedLots book ctx.process due.executionId).foldlM (recosted price unit old due.factor) {}
  return {
    moved := moved.map pendingLine
    lots
    event := {
      eventId := ctx.minted "LCE" index
      accountId := book.accountId
      instrumentId := ctx.process.current execution.instrumentId
      kind := .factorRevision
      state := if isClaim ctx execution then .claimOpen else .booked
      quantity := numbers.wire face
      eventDate := ctx.today
      cash := some { price with amount := numbers.wire received }
      factor := numbers.wire due.factor
      priorFactor := numbers.wire old
      costChange := some { price with amount := numbers.wire lots.costChange }
      executionId := due.executionId }
    act := .factorRevised due.executionId (toString due.factor) due.row lots.lotIds
    holds := if execution.orderId = "" then none else some (execution.orderId,
      s!"the factor for {due.row.month} was published at {due.factor} (execution {due.executionId} was priced at {old})") }

/-- Each due revision, after the lines of those before it. -/
def revisions (book : Book) (ctx : Context) : List MovementLine → Nat → List Due → Result (List Revision)
  | _, _, [] => .ok []
  | earlier, index, due :: rest => do
    let first ← revision book ctx earlier index due
    let others ← revisions book ctx (earlier ++ first.moved) (index + 1) rest
    return first :: others

/-- The orders revisions hold the bookings of, each with why. -/
def heldOrders (revised : List Revision) : BTreeMap String String :=
  (revised.filterMap Revision.holds).foldl (fun held (orderId, why) => held.insert orderId why) ∅

/-- The account's due revisions as one entry: each fill's cash difference, its lots' costs and its event, and
each booking of it held. -/
def revise (book : Book) (head : Nat) (ctx : Context) (dues : List Due) : Result Made := do
  if dues = [] then throw (.invalid "no factor revision is due")
  let revised ← revisions book ctx [] 0 dues
  let after := (heldOrders revised).toList.flatMap fun (orderId, why) => afterFacts book orderId why
  let named := String.intercalate ", " (dues.map Due.executionId)
  made book head ctx {
    entryId := ctx.minted "ENT" 0
    kind := revisedKind
    effectiveDate := ctx.today
    reason := s!"contract v29 (W11.11; ruling 992): the factor published for {named} revised"
    actor := ctx.actor
    body := {
      lines := revised.flatMap Revision.moved
      basisAdjustments := revised.flatMap fun revision => revision.lots.basisAdjustments
      priorHoldingPeriodStarts := revised.flatMap fun revision => revision.lots.priorHoldingPeriodStarts
      lifecycleEvents := revised.map Revision.event
      acts := revised.map Revision.act ++ after ++ heldAlertsFor ctx book after
      trade := true } }

end Factors

end MeridianCore.Bor
