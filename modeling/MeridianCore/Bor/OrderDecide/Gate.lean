import MeridianCore.Bor.OrderDecide.Command

namespace MeridianCore.Bor

/-- An instruction's amounts and its weights summed; none where a line states neither. -/
def instructed : List AllocationLine → Exact → Exact → Result (Option (Exact × Exact))
  | [], amounts, weights => .ok (some (amounts, weights))
  | line :: rest, amounts, weights => do
    match ← decimal "allocation_instruction.lines.quantity" line.quantity with
    | some quantity => instructed rest (← numbers.add "allocation" amounts quantity) weights
    | none =>
      match ← decimal "allocation_instruction.lines.weight" line.weight with
      | some weight => instructed rest amounts (← numbers.add "allocation" weights weight)
      | none => return none

/-- Whether an allocation instruction equals the ordered quantity: its amounts summing to it, its
weights to one, or a mix whose amounts and weighted shares do; with none, the whole is in the order's
account. -/
def allocationBalanced (held : OrderHeld) : Result Bool :=
  match held.order.allocationInstruction with
  | none => .ok true
  | some instruction =>
    if instruction.lines = [] then .ok true
    else do
      let ordered := Ledger.ordered held
      match ← instructed instruction.lines Exact.zero Exact.zero with
      | none => return false
      | some (amounts, weights) =>
        let weighted ← multiply "allocation" weights ordered
        return (← numbers.add "allocation" amounts weighted).equals ordered

/-- Whether a verdict stands on the order's current version. -/
def verdictOnVersion (held : OrderHeld) : Bool :=
  held.checks.any fun check => check.orderVersion == held.version && check.placementId == ""

/-- A block on the current version with no override on it. -/
def blockStands (held : OrderHeld) : Bool :=
  held.overriddenVersion ≠ some held.version &&
    held.checks.any fun check =>
      check.placementId == "" && check.orderVersion == held.version && check.verdict == CheckVerdict.block

def approvalRequired (held : OrderHeld) : Bool := held.conditions.contains OrderCondition.approvalRequired.number

/-- The gate's first three steps, in their order: the allocation, a block standing, approval required. -/
def gate (held : OrderHeld) : Result Unit := do
  let orderId := held.order.orderId
  let version := held.version
  if ¬ (← allocationBalanced held) then
    throw (refused .allocationUnbalanced
      (s!"order {orderId}'s allocation instruction does not sum to its ordered quantity; at " ++
        "release ordered equals allocated (principle 1)"))
  if blockStands held then
    throw (refused .checkBlocks s!"a block stands on order {orderId}'s version {version} without an override")
  if approvalRequired held then
    throw (refused .approvalRequired s!"order {orderId} requires approval, not given")

/-- The order a check is of: the one named, or its placement's. -/
def checkedOrder (book : Book) (request : RecordCheckRequest) : Result String :=
  if request.placementId = "" then .ok request.orderId
  else
    match book.ledger.placements[request.placementId]? with
    | some held => .ok held.placement.orderId
    | none => .error (.invalid s!"account {book.accountId} holds no placement {request.placementId}")

/-- The version of the order a check is on: the one it names, else the order's own. -/
def checkedVersion (order : OrderHeld) (request : RecordCheckRequest) : Nat :=
  if request.placementId ≠ "" then 0
  else if request.orderVersion = 0 then order.version
  else request.orderVersion

/-- The check a request records. -/
def checkOf (ctx : Context) (order : OrderHeld) (request : RecordCheckRequest) : Check where
  verdict := request.verdict
  orderVersion := checkedVersion order request
  placementId := request.placementId
  rule := request.rule
  note := request.note
  instanceId := ctx.instanceId
  recordedBy := some ctx.actor

/-- The acts a check makes and its row: a refusal ends a proposed order; the verdict awaited clears the
wait, and a release asked for goes through the gate now. -/
def checkActs (ctx : Context) (order : OrderHeld) (orderId : String) (state : OrderState)
    (request : RecordCheckRequest) (check : Check) : List Act × Option Transition :=
  let recorded : Act := .checked orderId check
  if request.placementId ≠ "" then ([recorded], none)
  else if request.verdict = CheckVerdict.refuse ∧ state = .proposed then
    ([recorded, .ended orderId .refused], some refusalRow)
  else if check.orderVersion = order.version ∧ order.conditions.contains OrderCondition.awaitingCheck.number then
    let answered := conditionAct orderId false (standingFor ctx .awaitingCheck "answered")
    if order.releaseRequested ∧ state = .proposed ∧
        gate { order with checks := order.checks ++ [check] } = .ok () then
      ([recorded, answered, .released orderId], some releaseRow)
    else ([recorded, answered], none)
  else ([recorded], none)

def recordCheck (book : Book) (head : Nat) (ctx : Context) (request : RecordCheckRequest) : Result Made := do
  let orderId ← checkedOrder book request
  let order ← heldOrder book orderId
  inScope ctx order.order.accountId
  userRequired ctx "recording a check"
  if request.verdict = CheckVerdict.unspecified ∨ ¬ CheckVerdict.known request.verdict then
    throw (malformed ["verdict"] "a check records its verdict")
  let state ← book.ledger.state orderId
  let (acts, row) := checkActs ctx order orderId state request (checkOf ctx order request)
  let made ← finish book head ctx {
    kind := "check-recorded"
    actor := ctx.actor
    acts
    idempotencyKey := request.idempotencyKey }
  match row with
  | some row => do
    checkReached made orderId row (some state)
    return made
  | none => return made

/-- The row and the acts of an approval's decision, once it may be made. -/
def approvalActs (ctx : Context) (orderId : String) (state : OrderState) (request : DecideApprovalRequest) :
    Result (Transition × List Act) :=
  match request.decision with
  | .require => do
    userRequired ctx "requiring approval"
    commandFrom approvalRow state "requiring approval"
    return (approvalRow, [conditionAct orderId true (standingFor ctx .approvalRequired request.reason)])
  | .approve => do
    personRequired ctx "an approval"
    commandFrom approvalRow state "an approval"
    return (approvalRow, [conditionAct orderId false (standingFor ctx .approvalRequired request.reason)])
  | .override => do
    personRequired ctx "an override"
    if request.reason.trimAscii.isEmpty then
      throw (refused .reasonRequired "an override is a justified act, and this carries no reason")
    commandFrom overrideRow state "an override"
    return (overrideRow, [.overridden orderId])
  | .reject => do
    userRequired ctx "a rejection"
    commandFrom refusalRow state "a rejection"
    return (refusalRow, [.ended orderId .refused])
  | .unspecified => throw (malformed ["decision"] "an approval names its decision")

def decideApproval (book : Book) (head : Nat) (ctx : Context) (request : DecideApprovalRequest) : Result Made := do
  let order ← heldOrder book request.orderId
  inScope ctx order.order.accountId
  let state ← book.ledger.state request.orderId
  let (row, acts) ← approvalActs ctx request.orderId state request
  let made ← finish book head ctx {
    kind := "approval-decided"
    actor := ctx.actor
    acts
    reason := request.reason
    idempotencyKey := request.idempotencyKey }
  checkReached made request.orderId row (some state)
  return made

/-- The acts of a release through the gate: where the account waits for compliance and no verdict stands
on this version, the order stays proposed, awaiting check. -/
def releaseActs (book : Book) (ctx : Context) (order : OrderHeld) (orderId : String) : List Act :=
  if (attributesOf book).waitsForCompliance ∧ ¬ verdictOnVersion order then
    [.releaseRequested orderId,
      conditionAct orderId true
        (standingFor ctx .awaitingCheck
          "the account waits for compliance, which has not answered on this version")]
  else [.released orderId]

def releaseOrder (book : Book) (head : Nat) (ctx : Context) (request : ReleaseOrderRequest) : Result Made := do
  let order ← heldOrder book request.orderId
  inScope ctx order.order.accountId
  userRequired ctx "releasing an order"
  let state ← book.ledger.state request.orderId
  commandFrom releaseRow state "a release"
  gate order
  let made ← finish book head ctx {
    kind := "order-released"
    actor := ctx.actor
    acts := releaseActs book ctx order request.orderId
    idempotencyKey := request.idempotencyKey }
  checkReached made request.orderId releaseRow (some state)
  return made

end MeridianCore.Bor
