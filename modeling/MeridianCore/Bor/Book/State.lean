import MeridianCore.Ordered.Chained
import MeridianCore.Bor.Journal

namespace MeridianCore.Bor

/-- The rows an account's changes are chained per. -/
inductive Chain where
  | position
  | break
  | figures
  | attributes
  | order
  | placement
  | execution
  | unplaced
  | locate
  | instruction
  | booking
  | alert
  | setting
  | lifecycle
  deriving DecidableEq

/-- A lot as the book holds it: the record, the entry that opened it, and its place among its
position's. -/
structure LotState where
  lot : Lot
  openedIn : Nat
  ordinal : Nat
  deriving DecidableEq

structure PositionState where
  instrumentId : String
  side : HoldingSide
  sleeve : String
  settled : Exact := Exact.zero
  /-- Pending by value date, "" for a date not stated. -/
  pending : BTreeMap String (Exact × Option PendingState) := ∅
  notStated : Exact := Exact.zero
  /-- Every lot it has held, closed ones too: a reversal may reopen one. -/
  lots : BTreeMap String LotState := ∅
  openedLots : Nat := 0
  openedFrom : List OpeningSource := []
  effectiveDate : String := ""
  lastChange : Option JournalRef := none
  removed : Bool := false
  encumbrances : List Encumbrance := []

/-- A position as it is read and delivered. -/
structure BookPosition where
  accountId : String
  instrumentId : String
  side : HoldingSide
  sleeve : String
  tradeDateQuantity : Exact
  settledQuantity : Option Exact
  notStatedQuantity : Exact
  pending : List (String × Exact × Option PendingState)
  lots : List Lot
  openedFrom : List OpeningSource
  effectiveDate : String
  lastChange : Option JournalRef
  removed : Bool
  encumbrances : List Encumbrance
  freeQuantity : Option Exact

/-- The lots in the order they were opened in. -/
def insertLot (state : LotState) : List LotState → List LotState
  | [] => [state]
  | held :: rest => if state.ordinal < held.ordinal then state :: held :: rest else held :: insertLot state rest

namespace PositionState

def new (key : Key) : PositionState where
  instrumentId := key.instrument
  side := key.side
  sleeve := key.sleeve

/-- Free, derived: the settled quantity less its encumbrances; unknown while any of the quantity is
not stated. -/
def free (position : PositionState) : Result (Option Exact) :=
  if position.notStated.isZero then do
    let free ← position.encumbrances.foldlM (fun free encumbrance => do
      let quantity ← numbers.required "encumbrances.quantity" encumbrance.quantity
      numbers.add "free_quantity" free quantity.negated) position.settled
    return some free
  else .ok none

/-- Settled, plus pending, plus not stated. -/
def tradeDate (position : PositionState) : Result Exact := do
  let total ← numbers.add "trade_date_quantity" position.settled position.notStated
  (position.pending.toList.map Prod.snd).foldlM
    (fun total held => numbers.add "trade_date_quantity" total held.1) total

/-- The open lots' quantities, summed. -/
def openLots (position : PositionState) : Result Exact :=
  (position.lots.toList.map Prod.snd).foldlM
    (fun total state => numbers.add "lots.open_quantity" total state.lot.openQuantity) Exact.zero

def hasOpenLots (position : PositionState) : Bool :=
  (position.lots.toList.map Prod.snd).any fun state => !state.lot.openQuantity.isZero

/-- As it is read and delivered: open lots only, pending by value date. -/
def record (position : PositionState) (accountId : String) : Result BookPosition := do
  let tradeDateQuantity ← position.tradeDate
  let freeQuantity ← position.free
  let openStates := (position.lots.toList.map Prod.snd).filter fun state => !state.lot.openQuantity.isZero
  return {
    accountId, tradeDateQuantity, freeQuantity
    instrumentId := position.instrumentId
    side := position.side
    sleeve := position.sleeve
    settledQuantity := if position.notStated.isZero then some position.settled else none
    notStatedQuantity := position.notStated
    pending := (position.pending.toList.filter fun entry => !entry.2.1.isZero).map
      fun entry => (entry.1, entry.2.1, entry.2.2)
    lots := (openStates.foldl (fun sorted state => insertLot state sorted) []).map LotState.lot
    openedFrom := position.openedFrom
    effectiveDate := position.effectiveDate
    lastChange := position.lastChange
    removed := position.removed
    encumbrances := position.encumbrances }

def addToBucket (position : PositionState) (line : MovementLine) (quantity : Exact) : Result PositionState :=
  match line.bucket with
  | .settled => do
    let settled ← numbers.add "settled_quantity" position.settled quantity
    return { position with settled }
  | .pending => do
    let held := (position.pending[line.valueDate]?).getD (Exact.zero, none)
    let sum ← numbers.add "pending.quantity" held.1 quantity
    let state := line.pendingState.or held.2
    return { position with
      pending :=
        if sum.isZero then position.pending.erase line.valueDate
        else position.pending.insert line.valueDate (sum, state) }
  | .notStated => do
    let notStated ← numbers.add "not_stated_quantity" position.notStated quantity
    return { position with notStated }
  | .unspecified => .error (.invalid s!"a line on {line.instrumentId} names no settlement bucket")

end PositionState

/-- One account's book. -/
structure Book where
  accountId : String
  partition : String
  positions : BTreeMap Key PositionState := ∅
  breaks : BTreeMap String Break := ∅
  /-- By agreement and business date. -/
  figures : BTreeMap TextPair AccountFigures := ∅
  attributes : Option AccountAttributes := none
  lifecycleEvents : BTreeMap String LifecycleEvent := ∅
  /-- The standing opening balance: its entry and its date. -/
  opening : Option (String × String) := none
  reversedOpenings : List String := []
  entries : List EntryIndex := []
  chains : Chain → Nat := fun _ => 0
  ledger : Ledger := {}
  waitsStated : Bool := false
  /-- The entries' bodies it holds: none in a snapshot, and two books are the same book whatever
  each holds. -/
  bodies : BTreeMap String Body := ∅

/-- The records an entry changed, as they stand after it. -/
structure Changes where
  /-- Each position with its trade-date quantity before the entry. -/
  positions : List (BookPosition × Exact) := []
  breaks : List Break := []
  figures : List AccountFigures := []
  attributes : Option AccountAttributes := none
  lifecycleEvents : List LifecycleEvent := []
  orders : List Order := []
  placements : List Placement := []
  executions : List Execution := []
  unplaced : List UnplacedFact := []
  locates : List Locate := []
  instructions : List TradingInstruction := []
  bookings : List Booking := []
  alerts : List Alert := []
  orderExpiries : List (String × Option Int) := []
  changeRequests : List (String × String × String) := []
  first : JournalRef := {}
  lastSequence : Nat := 0

namespace Book

def new (accountId partition : String) : Book := { accountId, partition }

def entry (book : Book) (entryId : String) : Option EntryIndex :=
  book.entries.find? fun held => held.entryId == entryId

/-- An entry's body, as the journal holds it. -/
def body (book : Book) (entryId : String) : Result Body :=
  match book.bodies[entryId]? with
  | some body => .ok body
  | none => .error (.bodiesNeeded [entryId])

/-- Hold an entry's body. -/
def holdBody (book : Book) (entryId : String) (body : Body) : Book :=
  { book with bodies := book.bodies.insert entryId body }

def holdsLot (lotId : String) (_ : Key) (position : PositionState) : Bool := position.lots.contains lotId

/-- The position holding a lot, by the lot's identifier: the first, in key order, that has it. -/
def lotOwner (book : Book) (lotId : String) : Option Key :=
  (book.positions.find? (holdsLot lotId)).map Prod.fst

/-- A lot of this account held under another position, whose record a line moving it carries over. -/
def carriedLot (book : Book) (key : Key) (lotId : String) : Option LotState :=
  (book.positions.find? fun held position => held ≠ key && holdsLot lotId held position).bind
    fun found => found.2.lots[lotId]?

/-- The keys of every position an entry's body changes. -/
def touched (book : Book) (body : Body) : List Key :=
  let keys := body.lines.map lineKey ++
    body.basisAdjustments.filterMap (fun adjustment => book.lotOwner adjustment.lotId) ++
    body.tombstones.map (fun (instrument, side) => ⟨instrument, side, ""⟩) ++
    body.encumbrances.map (fun (instrument, side, _) => ⟨instrument, side, ""⟩)
  (keys.foldl (fun set key => set.insert key) (∅ : BTreeSet Key)).toList

/-- The account's base currency's code, where its attributes name one. -/
def baseCode (book : Book) : Option String :=
  (book.attributes.map AccountAttributes.baseCurrencyCode).filter (· ≠ "")

/-- Whether `instrumentId` is the account's base currency. -/
def isBase (book : Book) (process : Process) (instrumentId : String) : Bool :=
  match book.baseCode with
  | some code => process.known code == some instrumentId || process.codeOf instrumentId == some code
  | none => false

end Book

end MeridianCore.Bor
