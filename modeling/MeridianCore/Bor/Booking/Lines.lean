import MeridianCore.Bor.OrderDecide.Report

namespace MeridianCore.Bor

/-- The block's or the net's members an order names. -/
def joinedMembers (order : Order) : List String := order.blockMemberOrderIds ++ order.netMemberOrderIds

/-- Allocations summed as the executions are: the quantity, the gross, and each fee kind. -/
structure Allocated where
  quantity : Exact := Exact.zero
  gross : Exact := Exact.zero
  fees : BTreeMap Nat Exact := ∅

def addAllocatedFee (field : String) (fees : BTreeMap Nat Exact) (indexed : Fee × Nat) : Result (BTreeMap Nat Exact) := do
  let (fee, at_) := indexed
  let named := s!"{field}.fees[{at_}].amount"
  let some amount := fee.amount
    | throw (malformed [named] "a fee states its amount")
  let value ← numbers.amount named amount
  let sum ← numbers.add "allocated fees" ((fees[fee.kind]?).getD Exact.zero) value
  return fees.insert fee.kind sum

def addAllocated (sums : Allocated) (indexed : Allocation × Nat) : Result Allocated := do
  let (allocation, index) := indexed
  let field := s!"allocations[{index}]"
  let stated ← numbers.required s!"{field}.quantity" allocation.quantity
  let quantity ← numbers.add "allocated quantity" sums.quantity stated
  let some grossAmount := allocation.grossAmount
    | throw (malformed [s!"{field}.gross_amount"] "required")
  let value ← numbers.amount s!"{field}.gross_amount" grossAmount
  let gross ← numbers.add "allocated gross" sums.gross value
  let fees ← allocation.fees.zipIdx.foldlM (addAllocatedFee field) sums.fees
  return { quantity, gross, fees }

/-- The allocations summed the same way. -/
def allocated (allocations : List Allocation) : Result Allocated := allocations.zipIdx.foldlM addAllocated {}

def feeKindNamed : Nat → String
  | 0 => "FEE_KIND_UNSPECIFIED"
  | 1 => "FEE_KIND_EXCHANGE"
  | 2 => "FEE_KIND_CANCEL"
  | 3 => "FEE_KIND_NETWORK"
  | 4 => "FEE_KIND_FINANCING"
  | 5 => "FEE_KIND_COMMISSION"
  | _ => "unspecified"

/-- The first fee kind the two sums differ in, with each. -/
def feeDiffers (executed : Executed) (allocated : Allocated) : Option (Nat × Exact × Exact) :=
  let kinds := (allocated.fees.keys ++ executed.fees.keys).mergeSort
  (kinds.map fun kind =>
    (kind, (allocated.fees[kind]?).getD Exact.zero, (executed.fees[kind]?).getD Exact.zero)).find?
    fun entry => !entry.2.1.equals entry.2.2

/-- Whether the allocations tie out exactly to what was executed: none where they do, else the words
saying what differs. -/
def tiesOut (executed : Executed) (allocations : List Allocation) : Result (Option String) := do
  let sums ← allocated allocations
  let quantity := sums.quantity
  let gross := sums.gross
  let booked := executed.quantity
  let priced := executed.gross
  if ¬ quantity.equals booked then
    return some s!"the allocations' quantities sum to {quantity} and the executions booked to {booked}"
  if ¬ gross.equals priced then
    return some
      (s!"the allocations' gross sums to {gross} and the executions' to {priced}; the residual " ++
        "goes on a named allocation")
  match feeDiffers executed sums with
  | some (kind, a, e) =>
    let named := feeKindNamed kind
    return some s!"the allocations' {named} fees sum to {a} and the executions' to {e}"
  | none => return none

/-- The accounts an order's instruction names, or its own where it names none; for a block or a net, its
members'. -/
def instructedAccounts (book : Book) (ctx : Context) (orderId : String) : List String :=
  match book.ledger.orders[orderId]? with
  | none => []
  | some held =>
    let members := joinedMembers held.order
    if members ≠ [] then
      members.flatMap fun member =>
        match ctx.members[member]? with
        | some view => view.instructed
        | none => []
    else
      match held.order.allocationInstruction with
      | some instruction =>
        if instruction.lines = [] then [book.accountId] else instruction.lines.map AllocationLine.accountId
      | none => [book.accountId]

def isErrorAccount (ctx : Context) (book : Book) (accountId : String) : Bool :=
  if accountId = book.accountId then (attributesOf book).errorAccount
  else
    match ctx.accountMarks[accountId]? with
    | some attributes => attributes.errorAccount
    | none => false

/-- A customer leg's reporting fields, refused naming the field where they do not hold. -/
def allocationReportingHolds (field : String) (allocation : Allocation) : Result Unit :=
  if allocation.markup.isSome ∧ allocation.prevailingMarketPrice.isNone then
    .error (malformed [s!"{field}.prevailing_market_price"]
      "a markup is stated over the prevailing market price it was taken from (751)")
  else if allocation.capacity = .mixed then
    .error (malformed [s!"{field}.capacity"] "an allocation carries one capacity, never mixed (714)")
  else .ok ()

/-- An error-account allocation's reason and cause, text with other; any other names no cause. -/
def errorCauseHolds (field : String) (allocation : Allocation) (error : Bool) : Result Unit :=
  let account := allocation.accountId
  if error then
    if allocation.reason.trimAscii.isEmpty then
      .error (.refused .reasonRequired s!"an allocation to error account {account} carries its reason"
        [s!"{field}.reason"])
    else if allocation.errorCause = ErrorCause.unspecified ∨ ¬ ErrorCause.known allocation.errorCause then
      .error (malformed [s!"{field}.error_cause"] "an allocation to an error account names its cause")
    else if allocation.errorCause = ErrorCause.other ∧ allocation.errorText.trimAscii.isEmpty then
      .error (malformed [s!"{field}.error_text"]
        "an allocation whose cause is other says why in its text, as FIX's Text (58)")
    else .ok ()
  else if allocation.errorCause ≠ ErrorCause.unspecified then
    .error (malformed [s!"{field}.error_cause"]
      s!"account {account} is not marked an error account, so its allocation names no error cause")
  else .ok ()

/-- One allocation held to who may receive it, and its own fields. -/
def allocationHolds (book : Book) (ctx : Context) (orderId : String) (instructed : List String)
    (indexed : Allocation × Nat) : Result Unit := do
  let (allocation, index) := indexed
  let field := s!"allocations[{index}]"
  let account := allocation.accountId
  if account = "" then throw (malformed [s!"{field}.account_id"] "an allocation names its account")
  let stated ← decimal s!"{field}.quantity" allocation.quantity
  if stated.all Exact.isNegative then
    throw (malformed [s!"{field}.quantity"] "an allocation states its quantity, never below zero")
  if allocation.averagePrice.isNone then
    throw (malformed [s!"{field}.average_price"]
      "an allocation states the average price its confirmation states")
  allocationReportingHolds field allocation
  let error := isErrorAccount ctx book account
  if ¬ error ∧ account ∉ instructed then
    throw (.refused .accountNotInstructed
      (s!"account {account} is neither named by order {orderId}'s allocation instruction " ++
        "nor marked an error account; portfolio adds it to the instruction, with a " ++
        "reason, before it is booked to")
      [s!"{field}.account_id"])
  errorCauseHolds field allocation error

/-- Each allocation held to who may receive it, and its own fields: an account the instruction names or
one marked an error account. -/
def allocationsHold (book : Book) (ctx : Context) (orderId : String) (allocations : List Allocation) :
    Result Unit :=
  if allocations = [] then
    .error (malformed ["allocations"] "a booking allocates to at least one account")
  else
    allocations.zipIdx.foldlM (fun _ indexed =>
      allocationHolds book ctx orderId (instructedAccounts book ctx orderId) indexed) ()

end MeridianCore.Bor

namespace MeridianCore.Bor

namespace Booking

/-- The lots the booked executions opened, which booking closes first. -/
def fillLots (book : Book) (process : Process) (executionIds : List String) : Result (List String) := do
  let each ← executionIds.mapM fun id =>
    match book.ledger.executions[id]? with
    | none => .ok []
    | some held =>
      if book.entries.any fun entry => entry.entryId == movedIn held then do
        let body ← book.body (movedIn held)
        return ((movedLines held body).filter fun line =>
          line.opensLot.isSome && process.same line.instrumentId held.execution.instrumentId).map MovementLine.lotId
      else .ok []
  return each.flatten

def methodOf (book : Book) : LotReliefMethod := (attributesOf book).lotReliefDefault

/-- A movement's bucket: settled where it is dated nothing. -/
def legOn (instrument valueDate sleeve : String) : Leg :=
  ⟨instrument, if valueDate = "" then .settled else .pending, valueDate, sleeve⟩

/-- The security moved into or out of a position by `delta`, positive in: a receipt covering a short first
and opening a lot for the rest; a removal relieving lots, `named` first, and shorting beyond them. The
account's base currency is a balance line. -/
def securityLines (book : Book) (ctx : Context) (instrument : String) (delta : Exact) (valueDate sleeve : String)
    (terms : LotTerms) (named : List String) (method : LotReliefMethod) (earlier : List MovementLine) :
    Result (List MovementLine) :=
  let leg := legOn instrument valueDate sleeve
  let opening (side : HoldingSide) (size : Exact) : MovementLine :=
    leg.opening side size (ctx.minted "LOT" (lotsOpened earlier)) terms
  if delta.isZero then .ok []
  else if book.isBase ctx.process instrument then .ok [leg.line .long delta]
  else if ¬ delta.isNegative then do
    let takes ← relief (← openLots book (leg.key .short) earlier) delta method named
    let rest ← lessTakes "cover" delta takes
    let lines := leg.relieving .short takes
    return if rest.isZero then lines else lines ++ [opening .long rest]
  else do
    let takes ← relief (← openLots book (leg.key .long) earlier) delta.negated method named
    let rest ← lessTakes "relief" delta.negated takes
    let lines := leg.relieving .long takes
    return if rest.isZero then lines else lines ++ [opening .short rest]

/-- A lot's cost with one capitalised fee of its gross's currency added. -/
def addCapitalised (gross : Money) (cost : Exact) (fee : Fee) : Result Exact :=
  match fee.amount with
  | some amount =>
    if fee.capitalised ∧ amount.currencyCode = gross.currencyCode ∧ amount.instrumentId = gross.instrumentId then do
      numbers.add "cost" cost (← numbers.amount "fee" amount)
    else .ok cost
  | none => .ok cost

/-- What a lot an allocation opens is acquired at: the trade date, the allocation's average price, and its
cost its gross plus its capitalised fees in the same currency. -/
def allocationTerms (allocation : Allocation) (executed : Executed) : Result LotTerms := do
  let gross := allocation.grossAmount.getD {}
  let cost ← allocation.fees.foldlM (addCapitalised gross) (← numbers.amount "gross_amount" gross)
  return {
    unitCost := allocation.averagePrice
    cost := some { gross with amount := numbers.wire cost }
    acquiredDate := executed.tradeDate
    settlementDate :=
      if allocation.intendedSettlementDate = "" then executed.valueDate else allocation.intendedSettlementDate
    source := .execution }

/-- An allocation's accrued interest, its own cash line: paid on a purchase, received on a sale. -/
def accruedLines (book : Book) (ctx : Context) (allocation : Allocation) (buy : Bool)
    (date sleeve tradeDate : String) (method : LotReliefMethod) (earlier : List MovementLine) :
    Result (List MovementLine) :=
  match allocation.accruedInterest with
  | none => .ok []
  | some accrued => do
    let value ← numbers.amount "accrued_interest" accrued
    if value.isZero then return []
    currencyLines book ctx (← cashInstrument ctx.process accrued) (if buy then value.negated else value) date sleeve
      tradeDate none method [] earlier

/-- An allocation's fees moved, each a cash line of its own, taken out of the account or put back. -/
def feesMoved (book : Book) (ctx : Context) (out : Bool) (date sleeve tradeDate : String) (method : LotReliefMethod) :
    List Fee → List MovementLine → Result (List MovementLine)
  | [], _ => .ok []
  | fee :: fees, seen =>
    match fee.amount with
    | none => feesMoved book ctx out date sleeve tradeDate method fees seen
    | some amount => do
      let value ← numbers.amount "fee" amount
      let moved ← currencyLines book ctx (← cashInstrument ctx.process amount) (if out then value.negated else value)
        date sleeve tradeDate none method [] seen
      return moved ++ (← feesMoved book ctx out date sleeve tradeDate method fees (seen ++ moved))

/-- The lines of one allocation in the order's account: to this account, a buy's fill lots closed and its
own lot opened, and its accrued; to another, its security, cash and fees moved out, the other side of its
child entry. -/
def allocationLines (book : Book) (ctx : Context) (executed : Executed) (fills : List String) (allocation : Allocation)
    (seen : List MovementLine) : Result (List MovementLine) := do
  let method := methodOf book
  let buy : Bool := executed.side = .buy
  let instrument := landing ctx.process book executed.instrumentId
  let sleeve := executed.sleeve
  let date := executed.valueDate
  let quantity ← numbers.required "allocation.quantity" allocation.quantity
  let terms ← allocationTerms allocation executed
  if allocation.accountId = book.accountId then
    let restated ←
      if buy then do
        let closed ← securityLines book ctx instrument quantity.negated date sleeve terms fills method seen
        let reopened ←
          securityLines book ctx instrument quantity date allocation.sleeve terms [] method (seen ++ closed)
        pure (closed ++ reopened)
      else pure []
    let due := if allocation.intendedSettlementDate = "" then date else allocation.intendedSettlementDate
    let accrued ← accruedLines book ctx allocation buy due allocation.sleeve executed.tradeDate method (seen ++ restated)
    return restated ++ accrued
  else
    let delta := if buy then quantity.negated else quantity
    let security ← securityLines book ctx instrument delta date sleeve terms fills method seen
    let gross := allocation.grossAmount.getD {}
    let cash ← cashInstrument ctx.process gross
    let value ← numbers.amount "gross_amount" gross
    let paid ← currencyLines book ctx cash (if buy then value else value.negated) date sleeve executed.tradeDate none
      method [] (seen ++ security)
    let fees ← feesMoved book ctx false date sleeve executed.tradeDate method allocation.fees (seen ++ security ++ paid)
    return security ++ paid ++ fees

def allocationsLines (book : Book) (ctx : Context) (executed : Executed) (fills : List String) :
    List Allocation → List MovementLine → Result (List MovementLine)
  | [], _ => .ok []
  | allocation :: rest, seen => do
    let made ← allocationLines book ctx executed fills allocation seen
    return made ++ (← allocationsLines book ctx executed fills rest (seen ++ made))

/-- The lines of a booking in the order's account, after the lines already in the entry. -/
def bookingLines (book : Book) (ctx : Context) (executed : Executed) (executionIds : List String)
    (allocations : List Allocation) (earlier : List MovementLine) : Result (List MovementLine) := do
  let fills ← fillLots book ctx.process executionIds
  let lines ← allocationsLines book ctx executed fills allocations earlier
  return if executed.settlementDateUnknown then undatedPending lines else lines

/-- An entry's lines between `start` and `start + count`, negated: what a cancel or a replace reverses, a
lot it opened relieved to zero and one it relieved reopened by the same identifiers. -/
def negated (book : Book) (lines : String × Nat × Nat) : Result (List MovementLine) :=
  match book.entries.findIdx? fun entry => entry.entryId == lines.1 with
  | none => .ok []
  | some at_ => do
    let body ← book.body lines.1
    let (start, count) := lines.2
    (if start + count ≤ body.lines.length then (body.lines.drop start).take count else []).mapM
      (negatedLine book at_)

end Booking

end MeridianCore.Bor
