import MeridianCore.Bor.Lifecycle.Checked

namespace MeridianCore.Bor.Lifecycle

def longKey (instrument : String) : Key := ⟨instrument, .long, ""⟩

/-- The side an event closes: an exercise the long's, an assignment the short's, an expiry whichever
is held. -/
def sideClosed (book : Book) (ctx : Context) (event : LifecycleEvent) : HoldingSide :=
  match event.kind with
  | .assignment => .short
  | .expiry =>
    match openLots book (longKey (landing ctx.process book event.instrumentId)) [] with
    | .ok (_ :: _) => .long
    | _ => .short
  | _ => .long

/-- What an event moves: its lines, and a paydown's relief of its lots' cost, each with the lot's
holding period start before it. -/
structure Moved where
  lines : List MovementLine := []
  basisAdjustments : List BasisAdjustment := []
  priorHoldingPeriodStarts : List String := []

/-- `cost × part ÷ whole`, half-even at the cost's places, at least two. -/
def share (field : String) (cost part whole : Exact) : Result Exact := do
  if whole.isZero then throw (.invalid s!"{field}: a share of nothing")
  let product ← multiply field cost part
  let scale := max cost.scale 2
  let tooBig : StoreError := .invalid s!"{field}: {cost} × {part} ÷ {whole} does not fit"
  let up (value : Int) (places : Nat) : Result Int := do
    let power ← (i128 (10 ^ places)).mapError fun _ => tooBig
    (i128 (value * power)).mapError fun _ => tooBig
  let numerator ← up product.integer (scale + whole.scale)
  let denominator ← up whole.integer product.scale
  let negative := decide (numerator < 0) != decide (denominator < 0)
  let q ← (i128 (roundHalfEven numerator.natAbs denominator.natAbs)).mapError fun _ => tooBig
  (Exact.new (if negative then -q else q) scale).mapError fun out => .invalid s!"{field} {out.words}"

/-- The zeros a product carried past cents taken off. -/
def centsTrimmed (integer : Int) : Nat → Int × Nat
  | 0 => (integer, 0)
  | scale + 1 =>
    if 2 < scale + 1 ∧ integer % 10 = 0 then centsTrimmed (integer / 10) scale else (integer, scale + 1)

/-- A derived amount without the zeros its product carried past cents. -/
def trimmed (value : Exact) : Exact :=
  let held := centsTrimmed value.integer value.scale
  (Exact.new held.1 held.2).toOption.getD value

/-- A lot's cost, its money, and the quantity it was opened with. -/
def lotCost (book : Book) (key : Key) (lotId : String) : Option (Money × Exact × Exact) := do
  let position ← book.positions[key]?
  let state ← position.lots[lotId]?
  let terms ← state.lot.terms
  let cost ← terms.cost
  let amount ← readExact cost.amount
  return (cost, amount, magnitude state.lot.originalQuantity)

/-- Relieved lots: the lines, the cost the quantity relieved carried, `none` where a lot's cost is
unknown, and the earliest acquisition among them. -/
structure Relieved where
  lines : List MovementLine := []
  cost : Option (Exact × Money) := some (Exact.zero, {})
  earliest : String := ""

def settledLine (instrument : String) (side : HoldingSide) (quantity : Exact) : MovementLine where
  instrumentId := instrument
  side := side
  bucket := .settled
  quantity := numbers.wire quantity

/-- The earlier of two dates, an empty one never. -/
def earlier (held date : String) : String :=
  if date ≠ "" ∧ (held = "" ∨ date < held) then date else held

/-- One lot relieved by its part. -/
def relieveLot (book : Book) (key : Key) (lots : List LotView) (relieved : Relieved) (part : String × Exact) :
    Result Relieved := do
  let line := { settledLine key.instrument .long part.2.negated with lotId := part.1 }
  let earliest := match lots.find? fun lot => lot.lotId == part.1 with
    | some lot => earlier relieved.earliest lot.acquiredDate
    | none => relieved.earliest
  let cost ← match relieved.cost, lotCost book key part.1 with
    | some (sum, _), some (money, cost, original) => do
      let carried ← share "cost" cost part.2 original
      pure (some (← numbers.add "cost" sum carried, money))
    | _, _ => pure none
  return { lines := relieved.lines ++ [line], cost, earliest }

/-- What the position's open lots sum to. -/
def openOf (lots : List LotView) : Result Exact :=
  lots.foldlM (fun sum lot => numbers.add "open" sum lot.openQuantity) Exact.zero

/-- A long position's lots relieved by `quantity` under the account's relief default, refused naming
`path` above what the account holds. -/
def relieveLong (book : Book) (ctx : Context) (instrumentId : String) (quantity : Exact) (method : LotReliefMethod)
    (moved : List MovementLine) (path : String) : Result Relieved := do
  let key := longKey (landing ctx.process book instrumentId)
  let lots ← openLots book key moved
  let held ← openOf lots
  if held.less quantity then
    throw (malformed [path]
      (s!"{quantity} of face is more than the {held} the account holds long of " ++ instrumentId))
  let takes ← relief lots quantity method []
  takes.foldlM (relieveLot book key lots) {}

/-- A lot opened by an exchange: its face, the cost carried to it, its holding period tacked to the
earliest lot it came from. -/
def opened (book : Book) (ctx : Context) (instrumentId : String) (quantity : Exact) (cost : Option (Exact × Money))
    (event : LifecycleEvent) (earliest : String) (moved : List MovementLine) : MovementLine :=
  { settledLine (landing ctx.process book instrumentId) .long quantity with
    lotId := ctx.minted "LOT" (lotsOpened moved)
    opensLot := some {
      cost := cost.map fun carried => { carried.2 with amount := numbers.wire carried.1 }
      acquiredDate := event.eventDate
      holdingPeriodStart := earliest
      settlementDate := event.eventDate
      source := .adjustment } }

/-- The parts of a cost by weight, after so much of it given: the last takes the remainder. -/
def spreadFrom (total whole : Exact) : Exact → List Exact → Result (List Exact)
  | _, [] => .ok []
  | given, [_] => do
    let part ← numbers.add "cost" total given.negated
    let _ ← numbers.add "cost" given part
    return [part]
  | given, weight :: rest => do
    let part ← share "cost" total weight whole
    let given ← numbers.add "cost" given part
    return part :: (← spreadFrom total whole given rest)

/-- A cost spread over parts by weight, the last taking the remainder so the parts sum to the whole
exactly. -/
def spread (total : Exact) (weights : List Exact) : Result (List Exact) := do
  let whole ← weights.foldlM (fun sum weight => numbers.add "weight" sum weight) Exact.zero
  spreadFrom total whole Exact.zero weights

/-- The accrued interest an allocation of a purchase within the coupon's period paid, added. -/
def countAccrued (process : Process) (event : LifecycleEvent) (order : OrderHeld) (paid : Exact)
    (allocation : Allocation) : Result Exact :=
  if order.order.side ≠ .buy ∨ ¬ process.same order.order.instrumentId event.instrumentId ∨
      allocation.intendedSettlementDate < event.periodStartDate ∨
      ¬ allocation.intendedSettlementDate < event.periodEndDate then .ok paid
  else
    match allocation.accruedInterest with
    | some accrued => do numbers.add "accrued" paid (← numbers.amount "accrued" accrued)
    | none => .ok paid

def accruedOfBooking (book : Book) (process : Process) (event : LifecycleEvent) (paid : Exact) (held : BookingHeld) :
    Result Exact :=
  if held.state = .cancelled then .ok paid
  else
    match book.ledger.orders[held.booking.orderId]? with
    | some order =>
      (held.booking.allocations.filter fun allocation => allocation.accountId == book.accountId).foldlM
        (countAccrued process event order) paid
    | none => .ok paid

def accruedOfReceived (book : Book) (process : Process) (event : LifecycleEvent) (paid : Exact) (held : ReceivedHeld) :
    Result Exact :=
  if held.withdrawn then .ok paid
  else
    match book.ledger.orders[held.memberOrderId]? with
    | some order => countAccrued process event order paid held.allocation
    | none => .ok paid

/-- The accrued interest the account paid on purchases of the instrument settling within a coupon's
period, from its bookings and the allocations it received. -/
def purchasedAccrued (book : Book) (process : Process) (event : LifecycleEvent) : Result Exact := do
  let paid ← (book.ledger.bookings.toList.map Prod.snd).foldlM (accruedOfBooking book process event) Exact.zero
  (book.ledger.received.toList.map Prod.snd).foldlM (accruedOfReceived book process event) paid

/-- Cash moved by an event, received positive, as the base currency's balance or a currency's lots. -/
def cashMoved (book : Book) (ctx : Context) (cash : Money) (amount : Exact) (event : LifecycleEvent)
    (method : LotReliefMethod) (moved : List MovementLine) : Result (List MovementLine) :=
  if amount.isZero then .ok []
  else do
    let instrument ← cashInstrument ctx.process cash
    currencyLines book ctx instrument amount "" "" event.eventDate none method [] moved

/-- Cash derived where the custodian states none: the record's currency, its cash instrument as the
lots' cost names it. -/
def cashTemplate (book : Book) (ctx : Context) (event : LifecycleEvent) : Money :=
  let code := ((ctx.records[event.instrumentId]?).map RecordSays.code).getD ""
  let lots := match book.positions[longKey (landing ctx.process book event.instrumentId)]? with
    | some position => position.lots.toList.map Prod.snd
    | none => []
  let costs := lots.filterMap fun state => state.lot.terms.bind LotTerms.cost
  match costs.find? fun cost => cost.currencyCode == code && cost.instrumentId != "" with
  | some cost => { cost with amount := none }
  | none => { currencyCode := code }

/-- An event's cash as stated, or as derived. -/
def cashOr (event : LifecycleEvent) (derived : Result (Money × Exact)) : Result (Money × Exact) :=
  match event.cash with
  | some cash => do return (cash, ← numbers.amount "cash" cash)
  | none => derived

/-- A coupon's cash: the purchased accrued returned, then the income, each its own line. -/
def couponMoved (book : Book) (ctx : Context) (event : LifecycleEvent) (method : LotReliefMethod) : Result Moved := do
  let cash := event.cash.getD {}
  let total ← numbers.amount "cash" cash
  let paid ← purchasedAccrued book ctx.process event
  let returned := if total.isNegative then Exact.zero else if total.less paid then total else paid
  let income ← numbers.add "cash" total returned.negated
  let first ← cashMoved book ctx cash returned event method []
  let second ← cashMoved book ctx cash income event method first
  return { lines := first ++ second }

/-- A redemption: the lots closed, and the cash as stated or face times the price per 100 of face. -/
def redemptionMoved (book : Book) (ctx : Context) (event : LifecycleEvent) (method : LotReliefMethod)
    (quantity : Exact) : Result Moved := do
  let relieved ← relieveLong book ctx event.instrumentId quantity method [] "quantity"
  let (cash, amount) ← cashOr event do
    let price ← numbers.required "redemption_price" event.redemptionPrice
    let whole ← multiply "cash" (← multiply "cash" quantity price) hundredth
    return (cashTemplate book ctx event, trimmed whole)
  let paid ← cashMoved book ctx cash amount event method relieved.lines
  return { lines := relieved.lines ++ paid }

/-- One open lot's cost relieved pro rata to the factor's fall. -/
def paydownLot (book : Book) (key : Key) (fall prior : Exact) (moved : Moved) (lot : LotView) : Result Moved :=
  match (book.positions[key]?).bind fun position => position.lots[lot.lotId]? with
  | none => .ok moved
  | some state =>
    let terms := state.lot.terms.getD {}
    match terms.cost with
    | none => .ok moved
    | some cost => do
      let amount ← numbers.amount "cost" cost
      let relieved ← share "cost" amount fall prior
      if relieved.isZero then return moved
      else return { moved with
        basisAdjustments := moved.basisAdjustments ++
          [{ lotId := lot.lotId, cost := some (.costChange { cost with amount := numbers.wire relieved.negated }) }]
        priorHoldingPeriodStarts := moved.priorHoldingPeriodStarts ++ [terms.holdingPeriodStart] }

/-- A paydown: the lots stay in original face, each lot's cost relieved pro rata, and the cash the
fall times original face where the custodian states none. -/
def paydownMoved (book : Book) (ctx : Context) (event : LifecycleEvent) (method : LotReliefMethod)
    (quantity : Exact) : Result Moved := do
  let prior ← numbers.required "prior_factor" event.priorFactor
  let factor ← numbers.required "factor" event.factor
  let fall ← numbers.add "factor" prior factor.negated
  let key := longKey (landing ctx.process book event.instrumentId)
  let lots ← openLots book key []
  let held ← openOf lots
  if held.less quantity then
    throw (malformed ["quantity"]
      (s!"{quantity} of original face is more than the {held} the account holds " ++
        s!"long of {event.instrumentId}"))
  let relieved ← if prior.isZero ∨ fall.isZero then pure {} else lots.foldlM (paydownLot book key fall prior) {}
  let (cash, amount) ← cashOr event do
    return (cashTemplate book ctx event, trimmed (← multiply "cash" fall quantity))
  let paid ← cashMoved book ctx cash amount event method []
  return { relieved with lines := paid }

/-- What each delivery of an exchange weighs: its value in a strip, its face in an allocation. -/
def weigh (event : LifecycleEvent) : Nat → List LifecycleDelivery → Result (List Exact)
  | _, [] => .ok []
  | i, delivery :: rest => do
    let face ← numbers.required s!"deliveries[{i}].quantity" delivery.quantity
    let weight ← match delivery.price, event.kind with
      | some price, .strip => do multiply "value" face (← numbers.amount s!"deliveries[{i}].price" price)
      | _, _ => pure face
    return weight :: (← weigh event (i + 1) rest)

/-- Each delivery's lot opened with the cost carried to it, after the lines already in the entry. -/
def openEach (book : Book) (ctx : Context) (event : LifecycleEvent) (earliest : String) :
    List (LifecycleDelivery × Option (Exact × Money)) → List MovementLine → Result (List MovementLine)
  | [], lines => .ok lines
  | (delivery, cost) :: rest, lines => do
    let face ← numbers.required "deliveries.quantity" delivery.quantity
    openEach book ctx event earliest rest
      (lines ++ [opened book ctx delivery.instrumentId face cost event earliest lines])

/-- A TBA's lots closed and each pool's opened, the cost carried by face; a strip's whole bond closed
and each component opened, the cost carried by relative value. -/
def exchangeMoved (book : Book) (ctx : Context) (event : LifecycleEvent) (method : LotReliefMethod)
    (quantity : Exact) : Result Moved := do
  let relieved ← relieveLong book ctx event.instrumentId quantity method [] "quantity"
  let weights ← weigh event 0 event.deliveries
  let costs ← match relieved.cost with
    | some (total, money) => do
      let parts ← spread total weights
      pure (parts.map fun part => some (part, money))
    | none => pure (weights.map fun _ => none)
  let lines ← openEach book ctx event relieved.earliest (event.deliveries.zip costs) relieved.lines
  return { lines }

/-- Each component's lots closed: the lines, what they cost together and the earliest of them. -/
def closeEach (book : Book) (ctx : Context) (method : LotReliefMethod) :
    Nat → List LifecycleDelivery → Relieved → Result Relieved
  | _, [], total => .ok total
  | i, delivery :: rest, total => do
    let face ← numbers.required s!"deliveries[{i}].quantity" delivery.quantity
    let relieved ← relieveLong book ctx delivery.instrumentId face.negated method total.lines
      s!"deliveries[{i}].quantity"
    let cost ← match total.cost, relieved.cost with
      | some (sum, _), some (part, money) => do pure (some (← numbers.add "cost" sum part, money))
      | _, _ => pure none
    closeEach book ctx method (i + 1) rest
      { lines := total.lines ++ relieved.lines, cost, earliest := earlier total.earliest relieved.earliest }

/-- Each component's lots closed, the whole bond's opened with their cost. -/
def reconstitutionMoved (book : Book) (ctx : Context) (event : LifecycleEvent) (method : LotReliefMethod)
    (quantity : Exact) : Result Moved := do
  let total ← closeEach book ctx method 0 event.deliveries {}
  return { lines := total.lines ++
    [opened book ctx event.instrumentId quantity total.cost event total.earliest total.lines] }

/-- A debt record's event's movement, as the custodian states it. -/
def debtMoved (book : Book) (ctx : Context) (event : LifecycleEvent) (method : LotReliefMethod) : Result Moved := do
  let quantity ← numbers.required "quantity" event.quantity
  match event.kind with
  | .couponReceived => couponMoved book ctx event method
  | .redemption => redemptionMoved book ctx event method quantity
  | .paydown => paydownMoved book ctx event method quantity
  | .tbaAllocation | .strip => exchangeMoved book ctx event method quantity
  | .reconstitution => reconstitutionMoved book ctx event method quantity
  -- An accretion moves no cash and no lot: the factor carries the face.
  | _ => return {}

/-- An option's lots closed, and the premium they cost: paid for a long, received for a short. -/
def closeOption (book : Book) (ctx : Context) (event : LifecycleEvent) (method : LotReliefMethod) (quantity : Exact) :
    Result (List MovementLine × Option Exact) := do
  let side := sideClosed book ctx event
  let instrument := landing ctx.process book event.instrumentId
  let lots ← openLots book ⟨instrument, side, ""⟩ []
  let held ← openOf lots
  if held.less quantity then
    let long := if side = .long then "long" else "short"
    throw (malformed ["quantity"]
      s!"{quantity} contracts is more than the {held} the account holds {long} of {event.instrumentId}")
  let takes ← relief lots quantity method []
  takes.foldlM (fun (lines, premium) (lotId, take) => do
    let line := { settledLine instrument side (if side = .long then take.negated else take) with lotId }
    let unit := (lots.find? fun lot => lot.lotId == lotId).bind LotView.unitCost
    match unit with
    | some unit =>
      -- The lot's unit cost is per unit of the underlying, a contract its multiplier of them.
      let part ← multiply "premium" (← multiply "premium" take unit) (ctx.multiplier event.instrumentId)
      let signed := if side = .long then part else part.negated
      return (lines ++ [line], some (← numbers.add "premium" (premium.getD Exact.zero) signed))
    | none => return (lines ++ [line], premium)) ([], none)

/-- One delivery: received, it covers a short and opens a lot for the rest; delivered, it relieves
lots and opens a short for the rest. The premium is taken by the first lot a delivery opens, priced or not. -/
def deliver (book : Book) (ctx : Context) (event : LifecycleEvent) (method : LotReliefMethod) (i : Nat)
    (delivery : LifecycleDelivery) (lines : List MovementLine) (premium : Option Exact) :
    Result (List MovementLine × Option Exact) := do
  let moved ← numbers.required s!"deliveries[{i}].quantity" delivery.quantity
  let instrument := landing ctx.process book delivery.instrumentId
  let receiving := !moved.isNegative
  let closeSide : HoldingSide := if receiving then .short else .long
  let openSide : HoldingSide := if receiving then .long else .short
  let size := magnitude moved
  let takes ← relief (← openLots book ⟨instrument, closeSide, ""⟩ lines) size method []
  let closing := takes.map fun take =>
    { settledLine instrument closeSide (if receiving then take.2 else take.2.negated) with lotId := take.1 }
  let rest ← lessTakes "delivery" size takes
  if rest.isZero then return (lines ++ closing, premium)
  let cost ← match delivery.price with
    | some price => do
      let priced ← numbers.amount s!"deliveries[{i}].price" price
      pure (some (← multiply s!"deliveries[{i}].price" rest priced))
    | none => pure none
  let cost ← match cost, premium with
    | some total, some paid => do pure (some (← numbers.add "cost" total paid))
    | _, _ => pure cost
  let opening : MovementLine :=
    { settledLine instrument openSide (if receiving then rest else rest.negated) with
      lotId := ctx.minted "LOT" (lotsOpened (lines ++ closing))
      opensLot := some {
        unitCost := delivery.price
        cost := match cost, delivery.price with
          | some cost, some price => some { price with amount := numbers.wire cost }
          | _, _ => none
        acquiredDate := event.eventDate
        settlementDate := event.eventDate
        source := .adjustment } }
  return (lines ++ closing ++ [opening], none)

def deliverEach (book : Book) (ctx : Context) (event : LifecycleEvent) (method : LotReliefMethod) :
    Nat → List LifecycleDelivery → List MovementLine → Option Exact → Result (List MovementLine)
  | _, [], lines, _ => .ok lines
  | i, delivery :: rest, lines, premium => do
    let (lines, premium) ← deliver book ctx event method i delivery lines premium
    deliverEach book ctx event method (i + 1) rest lines premium

/-- An option's or a future's lines: the option's lots closed and the premium they cost, then the
deliveries, then the cash; a variation's cash line alone. -/
def optionLines (book : Book) (ctx : Context) (event : LifecycleEvent) : Result (List MovementLine) := do
  let quantity ← numbers.required "quantity" event.quantity
  let method := (attributesOf book).lotReliefDefault
  let (closed, premium) ←
    if optionKind event.kind then closeOption book ctx event method quantity else pure ([], none)
  let lines ← deliverEach book ctx event method 0 event.deliveries closed premium
  match event.cash with
  | some cash =>
    let amount ← numbers.amount "cash" cash
    return lines ++ (← cashMoved book ctx cash amount event method lines)
  | none => return lines

/-- What an event moves: an option's or a future's lines, or a debt record's. -/
def moved (book : Book) (ctx : Context) (event : LifecycleEvent) : Result Moved := do
  if debtKind event.kind then debtMoved book ctx event (attributesOf book).lotReliefDefault
  else return { lines := ← optionLines book ctx event }

end MeridianCore.Bor.Lifecycle
