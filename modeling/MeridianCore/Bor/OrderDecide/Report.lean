import MeridianCore.Bor.OrderDecide.Trade

namespace MeridianCore.Bor

def orderStateNamed : OrderState → String
  | .proposed => "proposed"
  | .refused => "refused"
  | .released => "released"
  | .working => "working"
  | .filled => "filled"
  | .cancelled => "cancelled"
  | .expired => "expired"
  | .unspecified => "unknown to the book"

/-- Whether an act ended the order. -/
def endedState : OrderState → Bool
  | .refused | .cancelled | .expired => true
  | _ => false

/-- The venue, through the connectivity plugin reporting it. -/
def venueActor (ctx : Context) : Actor := ctx.instanceId

/-- A fact's actor: the user it was sent for where there is one, else the venue. -/
def factActor (ctx : Context) : Actor := if ctx.actingFor = "" then venueActor ctx else ctx.actor

/-- The order a command names, in this account's book. -/
def heldOrder (book : Book) (orderId : String) : Result OrderHeld :=
  match book.ledger.orders[orderId]? with
  | some held => .ok held
  | none => .error (.invalid s!"account {book.accountId} holds no order {orderId}")

def decimal (field : String) (wire : Option Decimal) : Result (Option Exact) :=
  match wire with
  | some wire => ((Exact.fromWire wire).mapError fun out => malformed [field] s!"{field} {out.words}").map some
  | none => .ok none

def dateField (field text : String) : Result Unit :=
  if text = "" ∨ isDate text then .ok ()
  else .error (malformed [field] s!"{field} is \"{text}\"; a date is YYYY-MM-DD")

/-- The reporting fields an execution carries, refused naming the field where they do not hold. -/
def reportingFieldsHold (request : ReportExecutionRequest) : Result Unit :=
  if request.capacity = .mixed then
    .error (malformed ["capacity"] "a fill carries one capacity: a mixed order's fills each say theirs (714)")
  else if 50 < request.specialPriceReason.length then
    .error (malformed ["special_price_reason"] "at most 50 characters")
  else if ¬ request.specialPrice ∧ request.specialPriceReason ≠ "" then
    .error (malformed ["special_price_reason"] "a reason is stated only for a special price")
  else if (request.priceBasis = .yield ∨ request.priceBasis = .spread) ∧ ¬ request.yieldStated then
    .error (malformed ["yield"]
      ("a fill quoted in yield or spread carries the quote in yield beside its dollar" ++
        "              price (987)"))
  else .ok ()

/-- A pool's or a tranche's fill is at the factor it states or the latest published; a factor on a fill
in any record but a pool, a tranche or a TBA is refused naming it. -/
def factorHolds (ctx : Context) (instrument : String) (request : ReportExecutionRequest) (bust : Bool) :
    Result Unit := do
  match ← decimal "factor_used" request.factorUsed with
  | some factor =>
    if factor.isZero ∨ factor.isNegative then
      throw (malformed ["factor_used"] "a factor is above zero")
    if ¬ ctx.isPooled instrument ∧ ¬ ctx.recordHas instrument RecordSays.tba then
      throw (malformed ["factor_used"] "only a pool's, a tranche's or a TBA's fill states a factor")
  | none =>
    if ¬ bust ∧ ctx.isPooled instrument ∧ ctx.factorTaken.isNone then
      if ctx.factorsUnavailable then
        throw (.unavailable
          ("the lake did not answer for the pool's latest factor in time; nothing was " ++
            "recorded, and the same fill may be sent again"))
      throw (malformed ["factor_used"]
        ("a pool's or a tranche's fill states the factor it was done at, or takes the latest " ++
          "one the agency published for its settlement month, and the lake holds none (986)"))

/-- The published factor a pool's fill stating none is taken at, as exact decimal text, and its row. -/
def factorTaken (ctx : Context) (request : ReportExecutionRequest) (instrument : String) : String × FactorRow :=
  if request.factorUsed.isSome ∨ ¬ ctx.isPooled instrument then ("", {})
  else
    match readExact ctx.factorTaken with
    | some factor => (toString factor, ctx.factorRow)
    | none => ("", {})

/-- Whether the execution is a net's internal cross, refused where it does not hold to one. -/
def crossHolds (order : OrderHeld) (request : ReportExecutionRequest) (bust : Bool) : Result Bool :=
  if request.kind ≠ .internalCross then
    if request.crossRateSource ≠ .unspecified then
      .error (malformed ["cross_rate_source"] "a cross rate's source is stated on a net's internal cross alone")
    else .ok false
  else if bust then .ok true
  else if order.order.netMemberOrderIds.isEmpty then
    .error (malformed ["order_id"]
      s!"order {order.order.orderId} is not a net: an internal cross offsets a net's members")
  else if request.crossRateSource = .unspecified then
    .error (malformed ["cross_rate_source"]
      ("a net's internal cross says which convention set its rate: the net's street rate " ++
        "or the mid at netting"))
  else if request.placementId ≠ "" then
    .error (malformed ["placement_id"] "an internal cross goes to no venue, on no placement")
  else if request.side ≠ .buy ∧ request.side ≠ .sell then
    .error (malformed ["side"]
      "an internal cross states its side, a buy for one member and a sale for another")
  else .ok true

/-- An execution as the request reports it, minted, on no order or placement yet. -/
def executionOf (book : Book) (ctx : Context) (request : ReportExecutionRequest) : Execution where
  executionId := ctx.minted "EXE" 0
  accountId := book.accountId
  instrumentId := request.instrumentId
  side := request.side
  quantity := request.quantity
  price := request.price
  tradeDate := request.tradeDate
  venueExecutionId := request.venueExecutionId
  kind := request.kind
  finality := request.finality
  fees := request.fees
  settlementDate := request.settlementDate
  computedSettlementDate := request.computedSettlementDate
  supersedes := request.supersedes
  effectiveDate := request.effectiveDate
  venueOrderId := request.venueOrderId
  multiLegReportingType := request.multiLegReportingType
  packageExecutionId := request.packageExecutionId
  factorUsed := request.factorUsed
  settlementDateUnknown := request.settlementDateUnknown
  capacity := request.capacity

/-- A later record claiming an unplaced fact of the same venue execution. -/
def claimedUnplaced (book : Book) (sender : String) (execution : Execution) : List Act :=
  if execution.venueExecutionId = "" then []
  else
    match book.ledger.unplacedExecutions[keyOf [sender, execution.venueExecutionId]]? with
    | some unplacedId => [.placed unplacedId]
    | none => []

/-- A repeated fact's answer: its records as they stand. -/
def repeatedFact (book : Book) (execution : Execution) : Result FactReply := do
  let order ←
    if book.ledger.orders.contains execution.orderId then
      (book.ledger.orderRecord execution.orderId false).map some
    else pure none
  let placement ←
    if book.ledger.placements.contains execution.placementId then
      (book.ledger.placementRecord execution.placementId).map some
    else pure none
  return { execution := some execution, order, placement, journal := execution.lastChange }

/-- A repeat of a fact already applied, by the venue's identifiers, answered as it stands. -/
def notRepeated (book : Book) (sender : String) (execution : Execution) : Result Unit :=
  if execution.venueExecutionId = "" then .ok ()
  else
    match (book.ledger.venueFacts[venueKey sender execution]?).bind fun earlier => book.ledger.executions[earlier]? with
    | some held => do throw (.repeated (← repeatedFact book held.execution))
    | none => .ok ()

/-- The effective date of a reported execution's entry. -/
def reportedDate (request : ReportExecutionRequest) : String :=
  if request.effectiveDate = "" then request.tradeDate else request.effectiveDate

/-- A well-formed execution the book cannot place, kept with its reason, never dropped; a repeat of one
is the same fact, kept once. -/
def keptUnplaced (book : Book) (ctx : Context) (request : ReportExecutionRequest) (reason : UnplacedReason) :
    Result Plan :=
  let seen := (book.ledger.unplacedExecutions[keyOf [ctx.instanceId, request.venueExecutionId]]?).bind
    fun id => book.ledger.unplaced[id]?
  match if request.venueExecutionId = "" then none else seen with
  | some kept => .error (.repeated { unplaced := some kept, journal := kept.lastChange })
  | none => .ok {
      kind := "unplaced-fact-recorded"
      actor := factActor ctx
      acts := [.unplaced {
        unplacedId := ctx.minted "UNP" 0
        accountId := if isAccount book.accountId then book.accountId else ""
        factKind := "execution"
        reason
        venueAccountCode := request.venueAccountCode
        fact := some (.execution request) } ctx.instanceId] }

/-- What an unmatched fill leaves out of what it must name. -/
def missingOf (execution : Execution) : List String :=
  (if execution.instrumentId = "" then ["instrument_id"] else []) ++
    (if execution.side = .unspecified then ["side"] else []) ++
    (if execution.venueOrderId = "" then ["venue_order_id"] else [])

/-- A bust on no placement names its instrument, its side and the venue's order as the fill it busts
does, where it leaves them out. -/
def namedAs (busted execution : Execution) : Execution :=
  { execution with
    instrumentId := if execution.instrumentId = "" then busted.instrumentId else execution.instrumentId
    side := if execution.side = .unspecified then busted.side else execution.side
    venueOrderId := if execution.venueOrderId = "" then busted.venueOrderId else execution.venueOrderId }

/-- A venue's fill on no order and no placement, recorded as an unmatched execution moving nothing. -/
def reportUnmatched (book : Book) (ctx : Context) (request : ReportExecutionRequest) (bust : Bool) :
    Result Plan := do
  let superseded := if request.supersedes = "" then none else book.ledger.executions[request.supersedes]?
  if superseded.any fun held => held.execution.state = .matched then
    throw (malformed ["placement_id"]
      s!"execution {request.supersedes} is on a placement: a bust or correction of it names that placement")
  let stated := { executionOf book ctx request with venueClientOrderId := request.venueClientOrderId }
  let execution := match superseded with
    | some held => if bust then namedAs held.execution stated else stated
    | none => stated
  let missing := missingOf execution
  let named := String.intercalate ", " missing
  if ¬ missing.isEmpty then
    throw (malformed missing
      ("a fill on no placement names its instrument, its side and the venue's order ID " ++
        s!"(contract v23); this left out {named}"))
  notRepeated book ctx.instanceId execution
  let (taken, row) := factorTaken ctx request execution.instrumentId
  return {
    kind := "execution-recorded"
    actor := factActor ctx
    acts :=
      .executed execution ctx.instanceId request.venueAccountCode request.venueClientOrderId taken row ::
        claimedUnplaced book ctx.instanceId execution
    idempotencyKey := request.idempotencyKey
    effectiveDate := reportedDate request }

/-- What an execution's shape must hold, and whether it is a bust. -/
def wellFormed (ctx : Context) (request : ReportExecutionRequest) : Result Bool := do
  if request.kind = .manual ∧ ctx.actingFor = "" then
    throw (refused .actorRequired "a manual execution is entered for a person, and this was sent for no one")
  let some quantity := ← decimal "quantity" request.quantity
    | throw (malformed ["quantity"] "an execution states its quantity")
  if quantity.isNegative then
    throw (malformed ["quantity"] "an execution's quantity is never below zero")
  let bust := request.supersedes ≠ "" && quantity.isZero
  if ¬ bust ∧ quantity.isZero then
    throw (malformed ["quantity"] "a fill states its quantity; a bust names what it supersedes")
  dateField "trade_date" request.tradeDate
  dateField "settlement_date" request.settlementDate
  dateField "computed_settlement_date" request.computedSettlementDate
  dateField "effective_date" request.effectiveDate
  reportingFieldsHold request
  if request.settlementDateUnknown ∧ (request.settlementDate ≠ "" ∨ request.computedSettlementDate ≠ "") then
    throw (malformed ["settlement_date_unknown"] "a fill whose settlement date is unknown states none")
  if ¬ bust ∧ ¬ request.settlementDateUnknown ∧ request.settlementDate = "" ∧ request.computedSettlementDate = "" then
    throw (malformed ["settlement_date"]
      ("a fill states its settlement date, or the date read's beside it where the venue " ++
        "states none; the book never guesses one"))
  if ¬ bust ∧ request.price.isNone then
    throw (malformed ["price"] "a fill states its price")
  let leg : Bool := request.multiLegReportingType = .leg
  if leg ∧ request.packageExecutionId.trimAscii.isEmpty then
    throw (malformed ["package_execution_id"] "a leg's fill names its package execution")
  if ¬ leg ∧ request.packageExecutionId ≠ "" then
    throw (malformed ["package_execution_id"] "only a leg's fill names a package execution")
  return bust

/-- Where a report is placed: on its placement or, done away, its order, or on neither. -/
inductive Placed where
  | order (orderId placementId : String)
  | unplaced
  | unmatched
  deriving DecidableEq

/-- Where a report is placed in this account; an entered execution must name what the account holds. -/
def placedOn (book : Book) (ctx : Context) (request : ReportExecutionRequest) : Result Placed :=
  let entered : Bool := ctx.actingFor ≠ ""
  if request.placementId ≠ "" then
    match book.ledger.placements[request.placementId]? with
    | some placed =>
      if entered ∨ placed.placement.connectivityInstanceId = ctx.instanceId then
        .ok (.order placed.placement.orderId request.placementId)
      else .ok .unplaced
    | none =>
      if entered then
        .error (.invalid s!"account {book.accountId} holds no placement {request.placementId}")
      else .ok .unplaced
  else if request.orderId ≠ "" then
    match book.ledger.orders[request.orderId]? with
    | some _ => .ok (.order request.orderId "")
    | none =>
      if entered then .error (.invalid s!"account {book.accountId} holds no order {request.orderId}")
      else .ok .unplaced
  else if entered then
    .error (malformed ["placement_id"] "an entered execution names its placement, or, done away, its order")
  else .ok .unmatched

/-- The execution on its order: the order's instrument, sleeve and side, a net's internal cross its
own side. -/
def placedExecution (book : Book) (ctx : Context) (request : ReportExecutionRequest) (order : OrderHeld)
    (orderId placementId : String) (cross : Bool) : Execution :=
  { executionOf book ctx request with
    orderId, placementId
    instrumentId := order.order.instrumentId
    sleeve := order.order.sleeve
    side := if cross then request.side else order.order.side
    crossRateSource := request.crossRateSource }

/-- What a reported execution moves: what it supersedes reversed, and its own trade. -/
def executionLines (book : Book) (ctx : Context) (orderId : String) (execution : Execution) (bust : Bool) :
    Result (List MovementLine) := do
  let reversed ←
    if execution.supersedes = "" then pure []
    else rerouteReliefs book (← reversalLines book execution.supersedes)
  let own ←
    if ¬ bust ∧ movesPosition execution then tradeLines book ctx orderId execution reversed else pure []
  return reversed ++ own

/-- A fill after the order ended: accepted, recorded, a late fact. -/
def lateFact (ctx : Context) (orderId executionId : String) (state : OrderState) : List Act :=
  if endedState state then
    [.condition orderId OrderCondition.lateFact.number true {
      condition := .lateFact
      reason := s!"execution {executionId} arrived after the order was {orderStateNamed state}"
      actor := some (factActor ctx) }]
  else []

/-- Why a fact after booking holds a booking. -/
def afterBooking (execution : Execution) (bust : Bool) : String :=
  if bust then s!"execution {execution.supersedes} was busted after booking"
  else if execution.supersedes ≠ "" then s!"execution {execution.supersedes} was corrected after booking"
  else s!"execution {execution.executionId} arrived after booking"

/-- The plan of an execution on an order of this account's. -/
def reportPlaced (book : Book) (ctx : Context) (request : ReportExecutionRequest) (bust : Bool)
    (orderId placementId : String) : Result Plan := do
  let order ← heldOrder book orderId
  factorHolds ctx order.order.instrumentId request bust
  let (taken, row) := factorTaken ctx request order.order.instrumentId
  let cross ← crossHolds order request bust
  let execution := placedExecution book ctx request order orderId placementId cross
  notRepeated book ctx.instanceId execution
  let state ← book.ledger.state orderId
  let lines ← executionLines book ctx orderId execution bust
  let after := afterFacts book orderId (afterBooking execution bust)
  return {
    kind := "execution-recorded"
    actor := factActor ctx
    acts :=
      .executed execution ctx.instanceId request.venueAccountCode request.venueClientOrderId taken row ::
        lateFact ctx orderId execution.executionId state ++ claimedUnplaced book ctx.instanceId execution ++
        heldAlertsFor ctx book after ++ after
    lines
    idempotencyKey := request.idempotencyKey
    effectiveDate := reportedDate request }

/-- What a reported execution plans, before its consequences are worked out. -/
def executionPlan (book : Book) (ctx : Context) (request : ReportExecutionRequest) : Result Plan := do
  let bust ← wellFormed ctx request
  match ← placedOn book ctx request with
  | .order orderId placementId => reportPlaced book ctx request bust orderId placementId
  | .unplaced => keptUnplaced book ctx request .unknownPlacement
  | .unmatched => reportUnmatched book ctx request bust

/-- A reported execution, recorded: a fill, a correction, a bust or a finality move. -/
def reportExecution (book : Book) (head : Nat) (ctx : Context) (request : ReportExecutionRequest) :
    Result Made := do
  finish book head ctx (← executionPlan book ctx request)

end MeridianCore.Bor
