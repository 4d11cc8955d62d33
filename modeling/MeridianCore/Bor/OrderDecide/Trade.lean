import MeridianCore.Bor.Booking
import MeridianCore.Bor.OrderDecide.Settle

namespace MeridianCore.Bor

def amountOf (money : Option Money) : Option Exact := money.bind fun money => readExact money.amount

/-- One open lot as a sale may relieve it. -/
structure LotView where
  lotId : String
  openQuantity : Exact
  acquiredDate : String
  unitCost : Option Exact
  ordinal : Nat
  deriving DecidableEq

/-- A product as a release build's `i128` holds it: past its range, wrapped. -/
def wrapping (value : Int) : Int := value.bmod (2 ^ 128)

/-- Cost per unit where only the lot's cost is known: compared, never stored. -/
def costPerUnit (cost original : Exact) : Exact :=
  let scale := max cost.scale original.scale + 6
  let numerator := wrapping (cost.integer * wrapping (10 ^ (scale - cost.scale + original.scale)))
  (Exact.new (numerator.tdiv original.integer) scale).toOption.getD Exact.zero

def LotView.of (state : LotState) : LotView :=
  let terms := state.lot.terms.getD {}
  { lotId := state.lot.lotId
    openQuantity := magnitude state.lot.openQuantity
    acquiredDate := terms.acquiredDate
    unitCost := (amountOf terms.unitCost).or <|
      (amountOf terms.cost).bind fun cost =>
        if state.lot.originalQuantity.isZero then none else some (costPerUnit cost state.lot.originalQuantity)
    ordinal := state.ordinal }

/-- A line already in the entry, on the lot it names. -/
def earlierOn (key : Key) (views : BTreeMap String LotView) (line : MovementLine) :
    Result (BTreeMap String LotView) :=
  if lineKey line ≠ key ∨ line.lotId = "" then .ok views
  else do
    let quantity ← numbers.required "line.quantity" line.quantity
    let change := if key.side = .short then quantity.negated else quantity
    match views[line.lotId]? with
    | some view =>
      let left ← numbers.add "lot" view.openQuantity change
      return views.insert line.lotId { view with openQuantity := left }
    | none => return views

/-- A position's open lots, by magnitude, with the lines already in this entry applied. -/
def openLots (book : Book) (key : Key) (earlier : List MovementLine) : Result (List LotView) := do
  let states := match book.positions[key]? with
    | some position => position.lots.toList.map Prod.snd
    | none => []
  let held : BTreeMap String LotView := states.foldl (fun views state =>
    let view := LotView.of state
    views.insert view.lotId view) ∅
  let views ← earlier.foldlM (earlierOn key) held
  return (views.toList.map Prod.snd).filter fun view => !view.openQuantity.isZero && !view.openQuantity.isNegative

/-- Before in acquisition order: by the date acquired, then in the order opened. -/
def acquiredBefore (a b : LotView) : Bool :=
  match compare a.acquiredDate b.acquiredDate with
  | .lt => true
  | .eq => a.ordinal ≤ b.ordinal
  | .gt => false

/-- One cost against another, an unknown cost below every known one. -/
def compareCosts : Option Exact → Option Exact → Ordering
  | none, none => .eq
  | none, some _ => .lt
  | some _, none => .gt
  | some a, some b => a.cmp b

def byCost (order : Ordering) (a b : LotView) : Bool :=
  match order with
  | .lt => true
  | .eq => acquiredBefore a b
  | .gt => false

/-- The lots in the order the method relieves them, those the order names first. -/
def relievedOrder (lots : List LotView) (method : LotReliefMethod) (named : List String) : List LotView :=
  let sorted := match method with
    | .lastInFirstOut => (lots.insertionSort fun a b => acquiredBefore a b).reverse
    | .highestCost => lots.insertionSort fun a b => byCost (compareCosts b.unitCost a.unitCost) a b
    | .lowestCost => lots.insertionSort fun a b => byCost (compareCosts a.unitCost b.unitCost) a b
    | _ => lots.insertionSort fun a b => acquiredBefore a b
  sorted.filter (·.lotId ∈ named) ++ sorted.filter (·.lotId ∉ named)

/-- How much of each lot a quantity relieves, in their order. -/
def relieve : List LotView → Exact → Result (List (String × Exact))
  | [], _ => .ok []
  | lot :: lots, quantity =>
    if quantity.isZero then .ok []
    else do
      let take := if lot.openQuantity.less quantity then lot.openQuantity else quantity
      let left ← numbers.add "relief" quantity take.negated
      return (lot.lotId, take) :: (← relieve lots left)

/-- Which lots a sale relieves, and how much of each: the lots the order names first, then by its
method or the account's default, first in first out where neither names one. -/
def relief (lots : List LotView) (quantity : Exact) (method : LotReliefMethod) (named : List String) :
    Result (List (String × Exact)) :=
  relieve (relievedOrder lots method named) quantity

/-- The cash instrument an amount is in: the one it names, or its code's as the book resolved it. -/
def cashInstrument (process : Process) (money : Money) : Result String :=
  if money.instrumentId ≠ "" then .ok money.instrumentId
  else
    match process.known money.currencyCode with
    | some instrument => .ok instrument
    | none => .error (refused .referenceUnavailable
        (s!"{money.currencyCode}'s cash instrument is not resolved yet, so the cash this moves could not be " ++
          "recorded; nothing was recorded, and the same fact may be sent again"))

/-- The relief method of an order or of its parents, followed so many at most, those `seen` never
twice. -/
def reliefMethodWithin (book : Book) : Nat → List String → String → LotReliefMethod × List String
  | 0, _, _ => ((attributesOf book).lotReliefDefault, [])
  | fuel + 1, seen, current =>
    match book.ledger.orders[current]? with
    | none => ((attributesOf book).lotReliefDefault, [])
    | some held =>
      if held.order.lotReliefMethod ≠ .unspecified ∨ ¬ held.order.relieveLotIds.isEmpty then
        (held.order.lotReliefMethod, held.order.relieveLotIds)
      else
        match held.order.link with
        | some link =>
          if link.parentOrderId ∈ seen then ((attributesOf book).lotReliefDefault, [])
          else reliefMethodWithin book fuel (link.parentOrderId :: seen) link.parentOrderId
        | none => ((attributesOf book).lotReliefDefault, [])

/-- The lot relief method a fill on an order relieves by: its own, its parents', or the account's
default. -/
def reliefMethod (book : Book) (orderId : String) : LotReliefMethod × List String :=
  reliefMethodWithin book (book.ledger.orders.size + 2) [] orderId

/-- What is left of a quantity once each lot relieved has taken its part. -/
def lessTakes (field : String) (quantity : Exact) (takes : List (String × Exact)) : Result Exact :=
  takes.foldlM (fun rest take => numbers.add field rest take.2.negated) quantity

/-- How many lots the lines of an entry open so far. -/
def lotsOpened (lines : List MovementLine) : Nat := lines.countP fun line => line.opensLot.isSome

/-- What a movement of one instrument shares with every line of it. -/
structure Leg where
  instrument : String
  bucket : SettlementBucket
  valueDate : String
  sleeve : String

namespace Leg

def key (leg : Leg) (side : HoldingSide) : Key := ⟨leg.instrument, side, leg.sleeve⟩

def line (leg : Leg) (side : HoldingSide) (quantity : Exact) : MovementLine where
  instrumentId := leg.instrument
  side := side
  bucket := leg.bucket
  valueDate := leg.valueDate
  quantity := numbers.wire quantity
  sleeve := leg.sleeve

/-- A line opening a lot of so much on the side, on the lot minted. -/
def opening (leg : Leg) (side : HoldingSide) (size : Exact) (lotId : String) (terms : LotTerms) :
    MovementLine :=
  { leg.line side (if side = .short then size.negated else size) with lotId, opensLot := some terms }

/-- The lines relieving a side's lots of so much, each by its magnitude. -/
def relieving (leg : Leg) (side : HoldingSide) (takes : List (String × Exact)) : List MovementLine :=
  takes.map fun take =>
    { leg.line side (if side = .short then take.2 else take.2.negated) with lotId := take.1 }

end Leg

/-- A movement of a currency, signed, as the account's lines: the base currency is a balance, its
lots relieved first; every other currency opens or relieves lots as any instrument's does. -/
def currencyLines (book : Book) (ctx : Context) (instrument : String) (amount : Exact)
    (valueDate sleeve acquiredDate : String) (basis : Option Money) (method : LotReliefMethod)
    (named : List String) (earlier : List MovementLine) : Result (List MovementLine) :=
  let leg : Leg := ⟨instrument, if valueDate = "" then .settled else .pending, valueDate, sleeve⟩
  let opening (side : HoldingSide) (size : Exact) : MovementLine :=
    leg.opening side size (ctx.minted "LOT" (lotsOpened earlier))
      { cost := basis, acquiredDate, settlementDate := valueDate, source := .execution }
  if amount.isZero then .ok []
  else if book.isBase ctx.process instrument then do
    if amount.isNegative then
      let held ← openLots book (leg.key .long) earlier
      let takes ← relief held amount.negated method named
      let rest ← takes.foldlM (fun rest take => numbers.add "relief" rest take.2) amount
      let lines := leg.relieving .long takes
      return if rest.isZero then lines else lines ++ [leg.line .long rest]
    else return [leg.line .long amount]
  else if ¬ amount.isNegative then do
    let takes ← relief (← openLots book (leg.key .short) earlier) amount method named
    let rest ← lessTakes "cover" amount takes
    let lines := leg.relieving .short takes
    return if rest.isZero then lines else lines ++ [opening .long rest]
  else do
    let takes ← relief (← openLots book (leg.key .long) earlier) amount.negated method named
    let rest ← lessTakes "relief" amount.negated takes
    let lines := leg.relieving .long takes
    return if rest.isZero then lines else lines ++ [opening .short rest]

/-- Whether an instrument is a currency's cash instrument, as this process resolved one. -/
def isCurrency (process : Process) (instrument : String) : Bool := (process.codeOf instrument).isSome

/-- The base currency's amount as money naming its code, for a currency lot's cost basis. -/
def baseMoney (process : Process) (book : Book) (amount : Exact) : Option Money :=
  book.baseCode.map fun code =>
    { amount := numbers.wire amount, currencyCode := code, instrumentId := (process.known code).getD "" }

/-- A pool's or a tranche's amount, to the cent half-even. -/
def pooledCents (ctx : Context) (execution : Execution) (field : String) (value : Exact) : Result Exact :=
  if ctx.isPooled execution.instrumentId then numbers.cents field value else .ok value

/-- The factor a fill is priced at: the one it states, the one its record took, or the published one
a pool's fill takes. -/
def tradeFactor (book : Book) (ctx : Context) (execution : Execution) : Option Decimal :=
  (execution.factorUsed.or ((book.ledger.executions[execution.executionId]?).bind ExecutionHeld.factor)).or
    (if ctx.isPooled execution.instrumentId then ctx.factorTaken else none)

/-- The terms of a lot a fill opens: a currency's cost known only where the fill is priced in the
base. -/
def tradeTerms (book : Book) (ctx : Context) (execution : Execution) (instrument valueDate : String) (price : Money)
    (unit multiplier size : Exact) : Result LotTerms := do
  let pricedInBase := book.isBase ctx.process (← cashInstrument ctx.process price)
  let terms : LotTerms := { acquiredDate := execution.tradeDate, settlementDate := valueDate, source := .execution }
  if isCurrency ctx.process instrument && !pricedInBase then return terms
  else
    let whole ← multiply "cost" (← multiply "cost" size unit) multiplier
    let cost ← pooledCents ctx execution "cost" whole
    return { terms with unitCost := some price, cost := some { price with amount := numbers.wire cost } }

/-- The lines of the instrument a fill buys or sells: a buy covers a short first and opens a lot for
the rest; a sale relieves lots and opens a short for what it sells beyond them; a short sale opens a
short lot. -/
def securityLines (book : Book) (ctx : Context) (orderId : String) (execution : Execution) (leg : Leg)
    (price : Money) (unit multiplier quantity : Exact) (earlier : List MovementLine) :
    Result (List MovementLine) := do
  let (method, named) := reliefMethod book orderId
  let opening (side : HoldingSide) (size : Exact) : Result (List MovementLine) := do
    let terms ← tradeTerms book ctx execution leg.instrument leg.valueDate price unit multiplier size
    return [leg.opening side size (ctx.minted "LOT" (lotsOpened earlier)) terms]
  match execution.side with
  | .unspecified => throw (malformed ["side"] "the order names no side")
  | side =>
    -- The account's base currency bought or sold is its balance, never a lot.
    if book.isBase ctx.process leg.instrument then
      return [leg.line .long (if side = .buy then quantity else quantity.negated)]
    else
      match side with
      | .buy =>
        let takes ← relief (← openLots book (leg.key .short) earlier) quantity method named
        let rest ← lessTakes "cover" quantity takes
        let lines := leg.relieving .short takes
        if rest.isZero then return lines else return lines ++ (← opening .long rest)
      | .sell =>
        let takes ← relief (← openLots book (leg.key .long) earlier) quantity method named
        let rest ← lessTakes "sale" quantity takes
        let lines := leg.relieving .long takes
        if rest.isZero then return lines else return lines ++ (← opening .short rest)
      | _ => opening .short quantity

/-- The lines of a fill's fees, each a cash line of its own, after the lines already in the entry. -/
def feeLines (book : Book) (ctx : Context) (execution : Execution) (valueDate : String) :
    Nat → List Fee → List MovementLine → Result (List MovementLine)
  | _, [], _ => .ok []
  | index, fee :: fees, earlier => do
    let field := s!"fees[{index}]"
    let some amount := fee.amount
      | throw (malformed [field] "a fee states its amount")
    let value ← numbers.amount field amount
    let cash ← cashInstrument ctx.process amount
    let moved ← currencyLines book ctx cash value.negated valueDate execution.sleeve execution.tradeDate none
      (attributesOf book).lotReliefDefault [] earlier
    return moved ++ (← feeLines book ctx execution valueDate (index + 1) fees (earlier ++ moved))

/-- Each line dated nothing made pending, never settled. -/
def undatedPending (lines : List MovementLine) : List MovementLine :=
  lines.map fun line => if line.valueDate = "" then { line with bucket := .pending } else line

/-- What a reported fill moves: the security and the cash, pending to the value date, and each fee. A
package's own execution books nothing. -/
def tradeLines (book : Book) (ctx : Context) (orderId : String) (execution : Execution)
    (earlier : List MovementLine) : Result (List MovementLine) :=
  if execution.multiLegReportingType = .package then .ok []
  else do
    let quantity ← numbers.required "quantity" execution.quantity
    let some price := execution.price
      | throw (malformed ["price"] "a fill states its price")
    let unit ← numbers.amount "price" price
    let multiplier := ctx.fillMultiplier execution.instrumentId (tradeFactor book ctx execution)
    let valueDate := valueDateOf execution
    let leg : Leg := ⟨landing ctx.process book execution.instrumentId, .pending, valueDate, execution.sleeve⟩
    let security ← securityLines book ctx orderId execution leg price unit multiplier quantity earlier
    let whole ← multiply "cash" (← multiply "cash" quantity unit) multiplier
    let notional ← pooledCents ctx execution "cash" whole
    let cash ← cashInstrument ctx.process price
    let signed := if execution.side = .buy then notional.negated else notional
    let basis := if book.isBase ctx.process leg.instrument then baseMoney ctx.process book quantity else none
    let paid ← currencyLines book ctx cash signed valueDate execution.sleeve execution.tradeDate basis
      (attributesOf book).lotReliefDefault [] (earlier ++ security)
    let fees ← feeLines book ctx execution valueDate 0 execution.fees (earlier ++ security ++ paid)
    let lines := security ++ paid ++ fees
    return if execution.settlementDateUnknown then undatedPending lines else lines

/-- Whether an entry's lines moved a pending line off the date named. -/
def movedOff (line : MovementLine) (fromValueDate : String) (moved : MovementLine) : Bool :=
  moved.bucket = .pending && lineKey moved = lineKey line && moved.valueDate == fromValueDate

/-- Where one act of a later roll's entry takes a pending line now at `date`. -/
def rolledBy (later : Body) (line : MovementLine) (date : String) : Act → String
  | .valueDateRolled roll _ =>
    if roll.fromValueDate = date ∧ line.instrumentId ∈ roll.pair ∧
        later.lines.any (movedOff line roll.fromValueDate) then roll.toValueDate
    else date
  | _ => date

/-- The bodies of several entries, in their order; every one this book does not hold named at once. -/
def Book.bodiesOf (book : Book) (entries : List EntryIndex) : Result (List Body) :=
  let missing := (entries.filter fun entry => !book.bodies.contains entry.entryId).map EntryIndex.entryId
  if missing.isEmpty then .ok (entries.filterMap fun entry => book.bodies[entry.entryId]?)
  else .error (.bodiesNeeded missing)

/-- Where the value-date rolls after entry `start` took a pending line. -/
def rolledTo (book : Book) (start : Nat) (line : MovementLine) : Result String := do
  let rolls ← book.bodiesOf ((book.entries.drop (start + 1)).filter EntryIndex.rolls)
  return rolls.foldl (fun date later => later.acts.foldl (rolledBy later line) date) line.valueDate

/-- One superseded line negated, a pending one where it is now. -/
def negatedLine (book : Book) (start : Nat) (line : MovementLine) : Result MovementLine := do
  let valueDate ← if line.bucket = .pending then rolledTo book start line else pure line.valueDate
  return { line with
    opensLot := none
    valueDate
    quantity := line.quantity.map fun quantity =>
      match Exact.fromWire quantity with
      | .ok value => value.negated.toWire
      | .error _ => quantity }

/-- The entry and the lines of it that moved an execution's position: an accepted one's are its own
lines alone of those the accept moved. -/
def movedLines (held : ExecutionHeld) (body : Body) : List MovementLine :=
  match held.acceptedLines with
  | some (_, start, count) => if start + count ≤ body.lines.length then (body.lines.drop start).take count else []
  | none => body.lines

def movedIn (held : ExecutionHeld) : String :=
  match held.acceptedLines with
  | some (entryId, _, _) => entryId
  | none => held.entryId

/-- A superseded execution's lines, negated: the position it moved reversed by the superseding entry. -/
def reversalLines (book : Book) (superseded : String) : Result (List MovementLine) :=
  match book.ledger.executions[superseded]? with
  | none => .ok []
  | some held =>
    if held.supersededBy.isSome then .ok []
    else
      match book.entries.findIdx? fun entry => entry.entryId == movedIn held with
      | none => .ok []
      | some start => do
        let body ← book.body (movedIn held)
        (movedLines held body).mapM (negatedLine book start)

/-- One line relieving a lot no longer open by as much: what is open on it, and the rest from the
position's other open lots, what is left of no lot. -/
def rerouted (book : Book) (out : List MovementLine) (line : MovementLine) : Result (List MovementLine) :=
  if line.lotId = "" ∨ line.opensLot.isSome then .ok (out ++ [line])
  else do
    let quantity ← numbers.required "line.quantity" line.quantity
    let short : Bool := line.side = .short
    let relieves := if short then !quantity.isNegative && !quantity.isZero else quantity.isNegative
    if ¬ relieves then return out ++ [line]
    let size := magnitude quantity
    let views ← openLots book (lineKey line) out
    let onNamed := match views.find? fun view => view.lotId == line.lotId with
      | some view => view.openQuantity
      | none => Exact.zero
    if onNamed.atLeast size then return out ++ [line]
    let signed (value : Exact) : Option Decimal := numbers.wire (if short then value else value.negated)
    let own := if onNamed.isZero then [] else [{ line with quantity := signed onNamed }]
    let rest ← if onNamed.isZero then pure size else numbers.add "relief" size onNamed.negated
    let takes ← relief (views.filter fun view => view.lotId ≠ line.lotId) rest
      (attributesOf book).lotReliefDefault []
    let left ← lessTakes "relief" rest takes
    let others := takes.map fun take => { line with lotId := take.1, quantity := signed take.2 }
    let beyond := if left.isZero then [] else [{ line with lotId := "", quantity := signed left }]
    return out ++ own ++ others ++ beyond

/-- Lines relieving a lot no longer open by as much relieve what is open on it and the rest from the
position's other open lots, by the account's method: a bust or a correction after booking is a fact,
never refused for the lots it names. -/
def rerouteReliefs (book : Book) (lines : List MovementLine) : Result (List MovementLine) :=
  lines.foldlM (rerouted book) []

end MeridianCore.Bor
