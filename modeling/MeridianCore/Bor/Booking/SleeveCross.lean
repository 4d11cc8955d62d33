import MeridianCore.Bor.Booking.Book
import MeridianCore.Bor.Lifecycle.Share

namespace MeridianCore.Bor

namespace Booking

/-- Ten to so many as a release build's `i128` holds it: from the hundred and twenty-eighth power on, nothing. -/
def wrappedTen (exponent : Nat) : Int := if 128 ≤ exponent then 0 else wrapping (10 ^ exponent)

/-- So much of a lot's cost as is of a part of it: the quotient at six places more than either states, its
exponent a difference of unsigned scales; none where a product is past what an `i128` holds, or the
quotient past what the wire carries. -/
def basisShare (amount take original : Exact) : Option Exact := do
  let scale := max amount.scale original.scale + 6
  let numerator ← (i128 (amount.integer * take.integer)).toOption
  let exponent := ((scale : Int) - amount.scale - take.scale + original.scale) % 2 ^ 32
  let shifted ← (i128 (numerator * wrappedTen exponent.toNat)).toOption
  (Exact.new (shifted.tdiv original.integer) scale).toOption

/-- The cost of the part of a lot that moves: all of it where all of the lot does, and its share elsewhere. -/
def movedCost (terms : LotTerms) (original take : Exact) : Option Money :=
  terms.cost.bind fun cost =>
    (amountOf (some cost)).bind fun amount =>
      if original.isZero ∨ take.equals original then some cost
      else (basisShare amount take original).map fun value => { cost with amount := numbers.wire value }

/-- The terms of a lot, and its original quantity, that of the part moved where it states none. -/
def lotTerms (book : Book) (key : Key) (lotId : String) : LotTerms :=
  ((book.lotAt key lotId).bind fun state => state.lot.terms).getD {}

def lotOriginal (book : Book) (key : Key) (lotId : String) (take : Exact) : Exact :=
  ((book.lotAt key lotId).map fun state => state.lot.originalQuantity).getD take

/-- The position a cross gives from. -/
def givingKey (cross : SleeveCross) : Key := ⟨cross.instrumentId, .long, cross.givingSleeve⟩

/-- The line taking a part of a lot out of the giving sleeve. -/
def takenOut (cross : SleeveCross) (take : String × Exact) : MovementLine :=
  { (legOn cross.instrumentId "" cross.givingSleeve).line .long take.2.negated with lotId := take.1 }

/-- The line opening the part's lot in the receiving sleeve, of the lot's cost and dates. -/
def takenIn (book : Book) (ctx : Context) (cross : SleeveCross) (index : Nat) (take : String × Exact) : MovementLine :=
  let terms := lotTerms book (givingKey cross) take.1
  { (legOn cross.instrumentId "" cross.receivingSleeve).line .long take.2 with
    lotId := ctx.minted "LOT" index
    opensLot := some { terms with
      cost := movedCost terms (lotOriginal book (givingKey cross) take.1 take.2) take.2 } }

/-- One of a cross's orders, held and of its instrument and not ended: whether it buys. -/
def crossedOrder (book : Book) (ctx : Context) (cross : SleeveCross) (orderId : String) : Result Bool := do
  let some order := book.ledger.orders[orderId]?
    | throw (malformed ["sleeve_cross.order_ids"] s!"account {book.accountId} holds no order {orderId}")
  if ¬ ctx.process.same order.order.instrumentId cross.instrumentId then
    throw (malformed ["sleeve_cross.order_ids"] s!"order {orderId} is not of {cross.instrumentId}")
  let state ← book.ledger.state orderId
  if state = .refused ∨ state = .cancelled ∨ state = .expired then
    throw (refused .orderState s!"order {orderId} has ended, so no cross fills it")
  return order.order.side = .buy

/-- A cross's orders, two of one account and instrument and opposite sides, none ended; or none. -/
def crossedOrders (book : Book) (ctx : Context) (cross : SleeveCross) : Result Unit := do
  if cross.orderIds = [] then return ()
  if cross.orderIds.length ≠ 2 then
    throw (malformed ["sleeve_cross.order_ids"] "a sleeve cross stands in for two opposite orders, or for none")
  let sides ← cross.orderIds.mapM (crossedOrder book ctx cross)
  if sides[0]? = sides[1]? then
    throw (malformed ["sleeve_cross.order_ids"] "a sleeve cross stands in for two orders of opposite sides")

/-- The quantity a cross states, above zero. -/
def crossQuantity (cross : SleeveCross) : Result Exact := do
  match ← decimal "sleeve_cross.quantity" cross.quantity with
  | some quantity =>
    if ¬ quantity.isNegative ∧ ¬ quantity.isZero then return quantity
    else throw (malformed ["sleeve_cross.quantity"] "a sleeve cross states its quantity")
  | none => throw (malformed ["sleeve_cross.quantity"] "a sleeve cross states its quantity")

structure RecordSleeveCrossRequest where
  sleeveCross : Option SleeveCross := none
  deriving DecidableEq

/-- What a cross moves: each part of a lot out of one sleeve and into the other, the tax layer; and the cash
at the cross price, the other way. -/
def crossLines (book : Book) (ctx : Context) (cross : SleeveCross) (takes : List (String × Exact)) (cash : String)
    (value : Exact) : List MovementLine :=
  (takes.mapIdx fun index take => [takenOut cross take, takenIn book ctx cross index take]).flatten ++
    [(legOn cash "" cross.givingSleeve).line .long value,
      (legOn cash "" cross.receivingSleeve).line .long value.negated]

/-- A cross between two of an account's sleeves: its lots moved keeping cost and date, its cash the other way. -/
def recordSleeveCross (book : Book) (head : Nat) (ctx : Context) (request : RecordSleeveCrossRequest) : Result Made := do
  userRequired ctx "recording a sleeve cross"
  let cross := request.sleeveCross.getD {}
  if Text.trim cross.reason = "" then
    throw (refused .reasonRequired "a sleeve cross records who decided it and why")
  inScope ctx book.accountId
  if cross.instrumentId = "" then
    throw (malformed ["sleeve_cross.instrument_id"] "a sleeve cross names its instrument")
  if cross.givingSleeve = cross.receivingSleeve then
    throw (malformed ["sleeve_cross.receiving_sleeve"] "a sleeve cross is between two sleeves")
  let quantity ← crossQuantity cross
  let some price := cross.crossPrice
    | throw (malformed ["sleeve_cross.cross_price"] "a sleeve cross states its cross price")
  let unit ← numbers.amount "sleeve_cross.cross_price" price
  crossedOrders book ctx cross
  let takes ← relief (← openLots book (givingKey cross) []) quantity (methodOf book) []
  let rest ← lessTakes "crossed" quantity takes
  if ¬ rest.isZero then
    throw (malformed ["sleeve_cross.quantity"]
      s!"sleeve \"{cross.givingSleeve}\" holds {rest} less of {cross.instrumentId} than the cross moves")
  let cash ← cashInstrument ctx.process price
  let value ← multiply "cross cash" quantity unit
  finish book head ctx {
    kind := "sleeve-crossed"
    actor := ctx.actor
    acts := [.sleeveCrossed { cross with sleeveCrossId := ctx.minted "SXC" 0, accountId := book.accountId }]
    lines := crossLines book ctx cross takes cash value
    reason := cross.reason }

end Booking

end MeridianCore.Bor
