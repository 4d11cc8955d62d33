import MeridianCore.Bor.OrderDecide.Command
import MeridianCore.Domain.Text

namespace MeridianCore.Bor.Lifecycle

/-- The kinds an option takes: what closes its lots against a delivery. -/
def optionKind : LifecycleEventKind → Bool
  | .exercise | .assignment | .expiry => true
  | _ => false

/-- The seven kinds a debt record takes. -/
def debtKind : LifecycleEventKind → Bool
  | .couponReceived | .redemption | .paydown | .accretion | .tbaAllocation | .strip | .reconstitution => true
  | _ => false

def typeOf (ctx : Context) (instrument : String) : InstrumentType :=
  match ctx.records[instrument]? with
  | some record => record.instrumentType
  | none => .unspecified

def dateOrRefused (path text words : String) : Result Unit :=
  if isDate text then .ok () else .error (malformed [path] s!"\"{text}\" is no plain date: {words}")

/-- The factor a paydown or an accretion moved from, and the one it brought the record to. -/
def factorsStated (event : LifecycleEvent) (path : String) : Result (Exact × Exact) := do
  let factor ← numbers.optional s!"{path}factor" event.factor
  let prior ← numbers.optional s!"{path}prior_factor" event.priorFactor
  match prior, factor with
  | some prior, some factor =>
    if factor.isNegative ∨ prior.isNegative then
      throw (malformed [s!"{path}factor"] "a factor is never below zero")
    else return (prior, factor)
  | _, _ => throw (malformed [s!"{path}factor"]
      ("a paydown or an accretion states the factor it brought the record to and the " ++
        "one it moved from, as the agency's Factor row (W10.4)"))

def sameRate : Option Exact → Option Exact → Bool
  | some a, some b => a.equals b
  | none, none => true
  | _, _ => false

/-- Whether a pool may be delivered against a TBA: of its agency, program and coupon. -/
def poolMatches (ctx : Context) (tba : DebtSays) (delivery : LifecycleDelivery) : Bool :=
  match ctx.records[delivery.instrumentId]? with
  | some record =>
    match record.debt with
    | some pool =>
      record.instrumentType = .mbsPool && pool.program == tba.program &&
        sameRate pool.passThroughRate tba.passThroughRate &&
        (pool.agency == 0 || tba.agency == 0 || pool.agency == tba.agency)
    | none => false
  | none => false

/-- Whether a delivery names a component stripped from the whole bond. -/
def isComponent (ctx : Context) (whole : String) (delivery : LifecycleDelivery) : Bool :=
  match ctx.records[delivery.instrumentId]? with
  | some record => (record.debt.map DebtSays.strippedFrom) == some whole
  | none => false

def poolChecked (ctx : Context) (tba : DebtSays) (path : String) (i : Nat) (delivery : LifecycleDelivery) :
    Result Unit := do
  if ¬ poolMatches ctx tba delivery then
    throw (malformed [s!"{path}deliveries"]
      (s!"deliveries[{i}] names \"{delivery.instrumentId}\", no mbs_pool of the TBA's agency, program " ++
        "and coupon"))
  let face ← numbers.required s!"{path}deliveries[{i}].quantity" delivery.quantity
  if face.isNegative then
    throw (malformed [s!"{path}deliveries[{i}].quantity"]
      "a pool delivered into the account is received, a positive face")

def componentChecked (ctx : Context) (whole : String) (strip : Bool) (path : String) (i : Nat)
    (delivery : LifecycleDelivery) : Result Unit := do
  if ¬ isComponent ctx whole delivery then
    throw (malformed [s!"{path}deliveries"]
      s!"deliveries[{i}] names \"{delivery.instrumentId}\", no component stripped_from {whole}")
  let moved ← numbers.required s!"{path}deliveries[{i}].quantity" delivery.quantity
  if moved.isNegative = strip then
    throw (malformed [s!"{path}deliveries[{i}].quantity"]
      (if strip then "a strip receives its components: each a positive face"
        else "a reconstitution delivers its components: each a negative face"))
  if delivery.price.isNone then
    throw (malformed [s!"{path}deliveries[{i}].price"]
      "each component states its price, the basis allocated by relative value")

/-- Each of an event's deliveries checked, in its place. -/
def eachDelivery (check : Nat → LifecycleDelivery → Result Unit) : Nat → List LifecycleDelivery → Result Unit
  | _, [] => .ok ()
  | i, delivery :: rest => do
    check i delivery
    eachDelivery check (i + 1) rest

def couponChecked (event : LifecycleEvent) (path : String) : Result Unit := do
  if event.cash.isNone then
    throw (malformed [s!"{path}cash"] "a coupon received states the interest paid, its cash")
  if event.periodEndDate = "" ∨ event.periodStartDate = "" then
    throw (malformed [s!"{path}period_end_date"] "a coupon received states its period, its start and its end")
  dateOrRefused s!"{path}period_start_date" event.periodStartDate "the accrual start"
  dateOrRefused s!"{path}period_end_date" event.periodEndDate "the accrual end"
  if ¬ event.periodStartDate < event.periodEndDate then
    throw (malformed [s!"{path}period_end_date"] "a coupon's period ends after it starts")

def redemptionChecked (event : LifecycleEvent) (path : String) : Result Unit := do
  if event.redemptionKind = .unspecified then
    throw (malformed [s!"{path}redemption_kind"]
      ("a redemption states what it redeemed: a maturity, a full or partial call, " ++
        "a put or a sinking-fund draw"))
  let price ← numbers.optional s!"{path}redemption_price" event.redemptionPrice
  if ¬ price.any fun price => !price.isNegative then
    throw (malformed [s!"{path}redemption_price"]
      "a redemption states its price per 100 of face, the lots closing at it")

/-- A pool's or a tranche's paydown or accretion. -/
def factorChecked (event : LifecycleEvent) (kind : InstrumentType) (path : String) : Result Unit := do
  if kind ≠ .mbsPool ∧ kind ≠ .cmoTranche then
    throw (malformed [s!"{path}kind"] "a paydown or an accretion is a pool's or a tranche's (ruling 680)")
  let (prior, factor) ← factorsStated event path
  if event.kind = .paydown then
    if prior.less factor then
      throw (malformed [s!"{path}factor"] "a paydown's factor falls from the one it moved from")
  else
    if event.faceChange.isNone then
      throw (malformed [s!"{path}face_change"] "an accretion states the face it changed, signed")
    if event.cash.isSome then
      throw (malformed [s!"{path}cash"] "an accretion moves no cash (ruling 682)")

def allocationChecked (ctx : Context) (event : LifecycleEvent) (kind : InstrumentType) (path : String) :
    Result Unit := do
  if kind ≠ .tba then
    throw (malformed [s!"{path}kind"] "a TBA allocation is a tba record's (ruling 681)")
  if event.deliveries = [] then
    throw (malformed [s!"{path}deliveries"] "a TBA allocation names each pool delivered")
  let tba := ((ctx.records[event.instrumentId]?).bind RecordSays.debt).getD {}
  eachDelivery (poolChecked ctx tba path) 0 event.deliveries

def exchangeChecked (ctx : Context) (event : LifecycleEvent) (kind : InstrumentType) (path : String) :
    Result Unit := do
  if kind ≠ .bond then
    throw (malformed [s!"{path}kind"] "a strip or a reconstitution names the whole bond")
  if event.deliveries = [] then
    throw (malformed [s!"{path}deliveries"] "a strip or a reconstitution names each component exchanged")
  eachDelivery (componentChecked ctx event.instrumentId (event.kind = .strip) path) 0 event.deliveries

/-- What each of a debt record's kinds states, refused naming the field. -/
def debtChecked (ctx : Context) (event : LifecycleEvent) (kind : InstrumentType) (path : String) : Result Unit := do
  if event.recordDate ≠ "" then dateOrRefused s!"{path}record_date" event.recordDate "YYYY-MM-DD"
  if event.kind ≠ .redemption ∧ (event.redemptionKind ≠ .unspecified ∨ event.redemptionPrice.isSome) then
    throw (malformed [s!"{path}redemption_kind"] "only a redemption states a redemption kind and price")
  match event.kind with
  | .couponReceived => couponChecked event path
  | .redemption => redemptionChecked event path
  | .paydown | .accretion => factorChecked event kind path
  | .tbaAllocation => allocationChecked ctx event kind path
  | .strip | .reconstitution => exchangeChecked ctx event kind path
  | _ => return ()

/-- The event's kind held to what its record's type takes. -/
def kindChecked (event : LifecycleEvent) (kind : InstrumentType) (path : String) : Result Unit := do
  let option := kind = .listedOption ∨ kind = .futureOption
  if event.kind = .unspecified then
    throw (malformed [s!"{path}kind"] "the event's kind is unspecified")
  if event.kind = .factorRevision then
    throw (malformed [s!"{path}kind"]
      ("a factor revision is the book's own record, written when a provisional factor is              " ++
        "published; it is never reported or proposed"))
  if debtKind event.kind ≠ kind.isDebt then
    throw (malformed [s!"{path}kind"]
      (if kind.isDebt then
        "a debt record takes a coupon, a redemption, a paydown, an accretion, a TBA " ++
          "allocation, a strip or a reconstitution, never an option's or a future's event"
      else
        "a coupon, a redemption, a paydown, an accretion, a TBA allocation, a strip or a " ++
          "reconstitution is a debt record's (bond, mbs_pool, tba, cmo_tranche, " ++
          "certificate_of_deposit)"))
  if ¬ kind.isDebt ∧ ¬ option ∧ kind ≠ .future then
    throw (malformed [s!"{path}instrument_id"]
      s!"\"{event.instrumentId}\" is no listed option, future or debt record the instrument store holds")
  if event.kind = .settlementVariation ∧ option then
    throw (malformed [s!"{path}kind"] "a day's settlement variation is a future's, never an option's")
  if optionKind event.kind ∧ ¬ option then
    throw (malformed [s!"{path}kind"]
      ("an exercise, an assignment or an expiry is an option's; a future is held, " ++
        "closed or rolled (ruling 562)"))

def deliveryChecked (path : String) (i : Nat) (delivery : LifecycleDelivery) : Result Unit := do
  if Text.trim delivery.instrumentId = "" then
    throw (malformed [s!"{path}deliveries[{i}].instrument_id"] "a delivery names its instrument")
  let moved ← numbers.required s!"{path}deliveries[{i}].quantity" delivery.quantity
  if moved.isZero then
    throw (malformed [s!"{path}deliveries[{i}].quantity"] "a delivery moves a quantity, never zero")

/-- The checks every event takes, reported or proposed: its account, a listed option, a future or a
debt record the instrument store holds, a kind its type takes, a quantity and a date, and what its
kind states. -/
def checked (book : Book) (ctx : Context) (event : LifecycleEvent) (path : String) : Result Unit := do
  if event.accountId ≠ book.accountId then
    throw (malformed [s!"{path}account_id"] s!"the event names {event.accountId}, not {book.accountId}")
  inScope ctx event.accountId
  let kind := typeOf ctx event.instrumentId
  kindChecked event kind path
  let quantity ← numbers.required s!"{path}quantity" event.quantity
  if quantity.isZero ∨ quantity.isNegative then
    throw (malformed [s!"{path}quantity"]
      (if kind.isDebt then "a debt record's event states its face, a positive quantity"
        else "the contracts are a positive quantity"))
  if ¬ isDate event.eventDate then
    throw (malformed [s!"{path}event_date"] s!"\"{event.eventDate}\" is no plain date, YYYY-MM-DD")
  if event.kind = .settlementVariation then
    if event.settlementPrice.isNone then
      throw (malformed [s!"{path}settlement_price"]
        "a day's variation names the settlement price it was computed from")
    if event.cash.isNone then
      throw (malformed [s!"{path}cash"] "a day's variation is a cash line: it states the cash moved")
  eachDelivery (deliveryChecked path) 0 event.deliveries
  if kind.isDebt then debtChecked ctx event kind path

end MeridianCore.Bor.Lifecycle
