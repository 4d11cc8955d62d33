import MeridianCore.Bor.Book.State

namespace MeridianCore.Bor

/-- What an entry sold an instrument at: the price, the date, and the multiplier a debt fill's
factor gives its proceeds. -/
structure Sale where
  instrument : String
  price : Money
  date : String
  factored : Option Exact
  deriving DecidableEq

def hundredth : Exact := ⟨1, 2, by decide, Exact.one.digits⟩

/-- A factor as a sale's multiplier: per 100 of face times the factor. -/
def hundredthsOf (factor : Option Exact) : Option Exact :=
  factor.bind fun factor => (multiply "factor" hundredth factor).toOption

def readExact (wire : Option Decimal) : Option Exact := wire.bind fun wire => (Exact.fromWire wire).toOption

theorem required_read {field : String} {wire : Option Decimal} {value : Exact}
    (read : numbers.required field wire = .ok value) : readExact wire = some value := by
  unfold numbers.required at read
  unfold readExact
  cases wire with
  | none => cases read
  | some wire =>
    have same := mapError_ok.mp read
    simp [same, Except.toOption]

/-- The factor of the first of the fills priced at one. -/
def bookedFactor (ledger : Ledger) (executionIds : List String) : Option Exact :=
  executionIds.findSome? fun id => do
    let held ← ledger.executions[id]?
    let statedOrTaken ← held.factor
    if held.factorTaken ≠ "" ∨ held.execution.factorUsed.isSome then (Exact.fromWire statedOrTaken).toOption else none

/-- What one act sold, the instrument empty where an allocation names none. -/
def soldBy (effectiveDate accountId : String) (ledger : Ledger) : Act → List Sale
  | .executed execution _ _ _ factorTaken _ =>
    let fills := match readExact execution.quantity with
      | some quantity => !quantity.isZero
      | none => false
    match execution.price with
    | some price =>
      if fills then
        [{ instrument := execution.instrumentId
           price
           date := execution.tradeDate
           factored := hundredthsOf (readExact (factorOf execution factorTaken)) }]
      else []
    | none => []
  | .allocationReceived _ _ allocation _ _ factor _ =>
    match allocation.averagePrice with
    | some price =>
      [{ instrument := "", price, date := effectiveDate, factored := hundredthsOf (Exact.parse factor).toOption }]
    | none => []
  | .bookingOpened booking _ =>
    let factored := hundredthsOf (bookedFactor ledger booking.executionIds)
    booking.allocations.filterMap fun allocation =>
      if allocation.accountId = accountId then
        allocation.averagePrice.map fun price => { instrument := "", price, date := effectiveDate, factored }
      else none
  | _ => []

/-- What an entry sold each instrument at: a fill's price and trade date, an allocation received at
its average price, or a booking's own allocation. -/
def salesOf (body : Body) (effectiveDate accountId : String) (ledger : Ledger) : List Sale :=
  -- An allocation names no instrument: it is the entry's one traded.
  let traded := match body.lines.find? fun line => line.opensLot.isSome || line.lotId != "" with
    | some line => line.instrumentId
    | none => ""
  (body.acts.flatMap (soldBy effectiveDate accountId ledger)).map fun sale =>
    if sale.instrument = "" then { sale with instrument := traded } else sale

/-- The sale a line is of, through the replacement. -/
def saleOf (process : Process) (sales : List Sale) (line : MovementLine) : Option Sale :=
  sales.find? fun sale => process.same sale.instrument line.instrumentId

/-- The multiplier a lot was costed by: its cost over its original quantity times its unit cost,
where the two multiply back exactly, and one otherwise. -/
def lotMultiplier (lot : Lot) : Exact :=
  let stated (money : LotTerms → Option Money) : Option Exact :=
    lot.terms.bind fun terms => (money terms).bind fun money => readExact money.amount
  match stated LotTerms.unitCost, stated LotTerms.cost with
  | some unit, some cost =>
    match multiply "a lot's cost" unit lot.originalQuantity with
    | .error _ => Exact.one
    | .ok per =>
      if per.isZero ∨ cost.isZero then Exact.one
      else
        -- Six places for a series' multiplier, twelve for a pool's.
        let fits (digits : Nat) : Option Exact := do
          let guess ← (Exact.quotientText cost per digits).toOption
          let back ← (multiply "a lot's cost" per guess).toOption
          if ¬ guess.isZero ∧ (back.equals cost ∨ back.equals cost.negated) then some guess else none
        ((fits 6).or (fits 12)).getD Exact.one
  | _, _ => Exact.one

/-- What the quantity relieved was sold for, where the entry sold it. -/
def proceedsOf (sale : Option Sale) (multiplier quantity : Exact) : Result (Option Money) :=
  match sale with
  | none => .ok none
  | some sale =>
    match readExact sale.price.amount with
    | none => .ok none
    | some unit => do
      let gross ← multiply "a relief's proceeds" quantity unit
      let amount ← multiply "a relief's proceeds" gross multiplier
      return some { sale.price with amount := numbers.wire amount }

/-- One relief of a lot; two lines of one entry relieving the same lot are one relief. -/
def recordRelief (lot : Lot) (reference : JournalRef) (relieved : Exact) (sale : Option Sale) : Result Lot := do
  let multiplier := (sale.bind Sale.factored).getD (lotMultiplier lot)
  match lot.reliefs.getLast?.filter (·.relievedBy = reference) with
  | some last =>
    let total ← numbers.add "relief.quantity" last.quantity relieved
    let proceeds ← proceedsOf sale multiplier total
    return { lot with reliefs := lot.reliefs.dropLast ++ [{ last with quantity := total, proceeds }] }
  | none =>
    let proceeds ← proceedsOf sale multiplier relieved
    return { lot with
      reliefs := lot.reliefs ++ [{
        relievedBy := reference
        quantity := relieved
        proceeds
        tradeDate := (sale.map Sale.date).getD "" }] }

def magnitude (value : Exact) : Exact := if value.isNegative then value.negated else value

/-- Whether `after` is nearer zero than `before`: a relief. -/
def magnitudeBelow (after before : Exact) : Bool := (magnitude after).less (magnitude before)

def sideNamed : HoldingSide → String
  | .long => "long"
  | .short => "short"
  | .unspecified => "unspecified"

/-- A lot's quantity moved by a line naming it: added to within the entry that opened it, relieved
by a later one. -/
def moveLot (state : LotState) (quantity : Exact) (reference : JournalRef) (entrySequence : Nat)
    (sale : Option Sale) : Result LotState := do
  let before := state.lot.openQuantity
  let after ← numbers.add "lots.open_quantity" before quantity
  let moved : Lot := { state.lot with openQuantity := after }
  if state.openedIn = entrySequence then
    let original ← numbers.add "lots.original_quantity" state.lot.originalQuantity quantity
    return { state with lot := { moved with originalQuantity := original } }
  else if magnitudeBelow after before then
    let named := if moved.relievedBy.getLast? = some reference then moved.relievedBy else moved.relievedBy ++ [reference]
    let difference ← numbers.add "relief" before after.negated
    let lot ← recordRelief { moved with relievedBy := named } reference (magnitude difference) sale
    return { state with lot }
  else return { state with lot := moved }

/-- The lot a line opens, of the record carried in from another position where there is one. -/
def openedLot (position : PositionState) (line : MovementLine) (terms : LotTerms) (quantity : Exact)
    (carried : Option LotState) (reference : JournalRef) (entrySequence : Nat) : LotState :=
  match carried with
  | some moved => { moved with lot.openQuantity := quantity, ordinal := position.openedLots + 1 }
  | none =>
    { lot := {
        lotId := line.lotId
        openQuantity := quantity
        originalQuantity := quantity
        terms := some terms
        openedBy := some reference
        sleeve := line.sleeve }
      openedIn := entrySequence
      ordinal := position.openedLots + 1 }

/-- A lot no line opened here, as a lenient replay takes it. -/
def unopenedLot (lotId : String) : LotState where
  lot := { lotId, openQuantity := Exact.zero, originalQuantity := Exact.zero }
  openedIn := 0
  ordinal := 2 ^ 64 - 1

/-- A line's lot: opened, carried in from another position, added to within the entry that opened it,
or relieved. -/
def applyLot (position : PositionState) (line : MovementLine) (quantity : Exact) (carried : Option LotState)
    (reference : JournalRef) (entrySequence : Nat) (lenient : Bool) (sale : Option Sale) :
    Result PositionState :=
  match line.opensLot with
  | some terms =>
    if line.lotId = "" then
      .error (.invalid s!"a line opening a lot on {line.instrumentId} carries no lot identifier")
    else if carried.isNone ∧ position.lots.contains line.lotId ∧ ¬ lenient then
      .error (.invalid s!"lot {line.lotId} is already open on {line.instrumentId}")
    else
      .ok { position with
        openedLots := position.openedLots + 1
        lots := position.lots.insert line.lotId
          (openedLot position line terms quantity carried reference entrySequence) }
  | none =>
    if line.lotId = "" then .ok position
    else
      let held := match position.lots[line.lotId]? with
        | some state => some state
        | none => if lenient then some (unopenedLot line.lotId) else none
      match held with
      | some state => do
        let moved ← moveLot state quantity reference entrySequence sale
        return { position with lots := position.lots.insert line.lotId moved }
      | none => .error (.invalid s!"no lot {line.lotId} on {sideNamed line.side} {line.instrumentId}")

end MeridianCore.Bor
