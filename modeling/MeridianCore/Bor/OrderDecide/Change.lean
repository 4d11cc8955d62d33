import MeridianCore.Bor.OrderDecide.Gate

namespace MeridianCore.Bor

/-- How many change requests these acts open: the next is minted after them. -/
def changesOpened (acts : List Act) : Nat :=
  acts.countP fun act =>
    match act with
    | .changeOpened _ => true
    | _ => false

/-- The request is a placement's cancel, still pending. -/
def pendingPlacementCancel (request : ChangeRequest) : Bool :=
  request.outcome = .pending &&
    match request.change with
    | some (.placementChange change) => change.kind = .cancel
    | _ => false

/-- Whether a cancel of the placement is asked for already. -/
def cancelAsked (ledger : Ledger) (placementId : String) : Bool :=
  match ledger.placements[placementId]? with
  | some held => (held.changeRequests.filterMap fun id => ledger.changes[id]?).any pendingPlacementCancel
  | none => false

/-- A live placement asked to cancel, where it is not already. -/
def askPlacement (ledger : Ledger) (ctx : Context) (orderId reason : String) (acts : List Act) (placementId : String) :
    List Act :=
  if cancelAsked ledger placementId then acts
  else acts ++ [.changeOpened {
    changeRequestId := ctx.minted "CRQ" (changesOpened acts)
    orderId, placementId
    change := some (.placementChange { kind := .cancel })
    reason
    outcome := .pending }]

/-- The acts that ask an order's live placements and live children to cancel, each child's own parts
first, and mark each as ending; its children followed so deep. -/
def cancelPartsWithin (ledger : Ledger) (ctx : Context) (ending : OrderState) (reason : String) :
    Nat → String → List Act → Result (List Act)
  | 0, _, _ => .error .overflowed
  | depth + 1, orderId, acts => do
    let (placements, children) ← ledger.liveParts orderId
    let asked := placements.foldl (askPlacement ledger ctx orderId reason) acts
    children.foldlM (fun acts child => do
      let opened := acts ++ [.changeOpened {
        changeRequestId := ctx.minted "CRQ" (changesOpened acts)
        orderId := child
        change := some (.orderChange { kind := .cancel })
        reason
        outcome := .pending }]
      return (← cancelPartsWithin ledger ctx ending reason depth child opened) ++ [.ending child ending]) asked

def cancelParts (book : Book) (ctx : Context) (orderId : String) (ending : OrderState) (reason : String)
    (acts : List Act) : Result (List Act) :=
  cancelPartsWithin book.ledger ctx ending reason book.ledger.depth orderId acts

/-- An FX order's amended limit, priced in its quote currency or refused. -/
def changeQuoteCurrencyHolds (process : Process) (order : Order) (change : OrderChange) : Result Unit :=
  let quote := order.quoteCurrency
  if quote = "" then .ok ()
  else
    match change.limitPrice with
    | none => .ok ()
    | some price => do
      let pricedIn ← cashInstrument process price
      if pricedIn ≠ quote then
        throw (malformed ["change.limit_price"]
          (s!"change.limit_price is priced in {pricedIn}, and an FX order's limit is in its " ++
            s!"quote currency, {quote}"))

/-- The request a change opens on its order, with what became of it at once. -/
def changeOpenedBy (ctx : Context) (request : RequestOrderChangeRequest) (change : OrderChange)
    (outcome : ChangeRequestOutcome) : Act :=
  .changeOpened {
    changeRequestId := ctx.minted "CRQ" 0
    orderId := request.orderId
    change := some (.orderChange change)
    reason := request.reason
    outcome }

/-- An order cancel: each live placement and child asked to cancel; cancelled when none is live. -/
def cancelActs (book : Book) (ctx : Context) (request : RequestOrderChangeRequest) (change : OrderChange)
    (state : OrderState) : Result (List Act) := do
  commandFrom cancelRow state "a cancel"
  let asked ← cancelParts book ctx request.orderId .cancelled request.reason
    [changeOpenedBy ctx request change .pending]
  return asked ++ [.ending request.orderId .cancelled]

/-- Back to proposed, with nothing committed or filled. -/
def recallActs (book : Book) (ctx : Context) (order : OrderHeld) (request : RequestOrderChangeRequest)
    (change : OrderChange) (state : OrderState) : Result (List Act) := do
  commandFrom recallRow state "a recall"
  if ¬ claimAllows order ctx then throw (claimRefused order)
  let quantities ← book.ledger.quantities request.orderId
  if ¬ quantities.committed.isZero ∨ ¬ quantities.reportedFilled.isZero then
    throw (stateRefused recallRow state "a recall of an order with quantity committed or filled")
  return [changeOpenedBy ctx request change .applied, .recalled request.orderId]

/-- The order's terms with a change's limit, time in force and execution instructions, where it names
them. -/
def amendedTerms (order : Order) (change : OrderChange) : Order :=
  { order with
    limitPrice := change.limitPrice.or order.limitPrice
    timeInForce := if change.timeInForce = .unspecified then order.timeInForce else change.timeInForce
    executionInstructions :=
      if change.executionInstructions = [] then order.executionInstructions else change.executionInstructions }

/-- A live placement asked to take an amended order's limit and time in force. -/
def carryReplace (ctx : Context) (request : RequestOrderChangeRequest) (change : OrderChange) (acts : List Act)
    (placementId : String) : List Act :=
  acts ++ [.changeOpened {
    changeRequestId := ctx.minted "CRQ" (changesOpened acts)
    orderId := request.orderId
    placementId
    change := some (.placementChange {
      kind := .replace, limitPrice := change.limitPrice, timeInForce := change.timeInForce })
    reason := request.reason
    outcome := .pending }]

/-- An amendment, applied to the order at once and carried to its live placements. -/
def amendActs (book : Book) (ctx : Context) (order : OrderHeld) (request : RequestOrderChangeRequest)
    (change : OrderChange) (state : OrderState) : Result (List Act) := do
  if endedState state ∨ state = .filled then throw (stateRefused changeRow state "an amendment")
  if ¬ claimAllows order ctx then throw (claimRefused order)
  let acts := [changeOpenedBy ctx request change .applied, .terms (amendedTerms order.order change)]
  if state = .proposed then return acts
  let (placements, _) ← book.ledger.liveParts request.orderId
  return placements.foldl (carryReplace ctx request change) acts

/-- The order's terms with a new ordered quantity, of cash for an order for an amount. -/
def resizedTerms (order : Order) (change : OrderChange) (quantity : Exact) : Order :=
  let sized :=
    if order.quantity.isSome ∨ order.cashQuantity.isNone then { order with quantity := numbers.wire quantity }
    else { order with cashQuantity := order.cashQuantity.map fun cash => { cash with amount := numbers.wire quantity } }
  match change.allocationInstruction with
  | some instruction => { sized with allocationInstruction := some instruction }
  | none => sized

/-- An increase or a reduction: the order's own proposer's, its allocation amended in the same act; any
other's only as an alignment, with its reason, bringing ordered to what was transacted. -/
def quantityActs (book : Book) (ctx : Context) (order : OrderHeld) (request : RequestOrderChangeRequest)
    (change : OrderChange) (state : OrderState) : Result (List Act) := do
  if endedState state then throw (stateRefused upsizingRow state "a quantity change")
  let some quantity := ← decimal "change.quantity" change.quantity
    | throw (malformed ["change.quantity"] "a quantity change states the new ordered quantity")
  if quantity.isNegative then
    throw (malformed ["change.quantity"] "an ordered quantity is never below zero")
  let own : Bool := order.openedBy ≠ "" && order.openedBy == ctx.instanceId
  let fills ← book.ledger.filled request.orderId
  let alignment := quantity.equals fills.reported
  if ¬ own ∧ ¬ alignment then
    throw (stateRefused upsizingRow state
      ("a quantity change by other than the order's own proposer that is not " ++
        "an alignment bringing ordered to what was transacted"))
  if ¬ own ∧ request.reason.trimAscii.isEmpty then
    throw (refused .reasonRequired "an alignment is a justified act, and this carries no reason")
  if ¬ claimAllows order ctx ∧ ¬ own then throw (claimRefused order)
  let ordered := Ledger.ordered order
  -- An increase on an account waiting for compliance awaits a check on the new version, refusing nothing.
  let awaits :=
    if ordered.less quantity ∧ (attributesOf book).waitsForCompliance ∧ order.released then
      [conditionAct request.orderId true
        (standingFor ctx .awaitingCheck "an increase waits for compliance on the new version")]
    else []
  -- An alignment makes the order tie out: a restatement's flag goes with it.
  let aligned :=
    if alignment ∧ order.conditions.contains OrderCondition.doesNotTieOut.number then
      [conditionAct request.orderId false (standingFor ctx .doesNotTieOut "aligned")]
    else []
  return [changeOpenedBy ctx request change .applied, .terms (resizedTerms order.order change quantity)] ++ awaits ++
    aligned

/-- The row a change is checked against, its entry's kind and its acts. -/
def changeActs (book : Book) (ctx : Context) (order : OrderHeld) (request : RequestOrderChangeRequest)
    (change : OrderChange) (state : OrderState) : Result (Option Transition × String × List Act) :=
  match change.kind with
  | .cancel => do return (some cancelRow, "order-cancel-requested", ← cancelActs book ctx request change state)
  | .withdraw => do
    commandFrom withdrawalRow state "a withdrawal"
    return (some withdrawalRow, "order-withdrawn",
      [changeOpenedBy ctx request change .applied, .ended request.orderId .cancelled])
  | .recall => do return (some recallRow, "order-recalled", ← recallActs book ctx order request change state)
  | .amend => do
    let acts ← amendActs book ctx order request change state
    return (if state = .proposed then none else some changeRow, "order-amended", acts)
  | .quantity => do return (none, "order-quantity-changed", ← quantityActs book ctx order request change state)
  | .unspecified => throw (malformed ["change.kind"] "a change request says what it asks")

def requestOrderChange (book : Book) (head : Nat) (ctx : Context) (request : RequestOrderChangeRequest) :
    Result (Made × String) := do
  let order ← heldOrder book request.orderId
  inScope ctx order.order.accountId
  userRequired ctx "asking for a change to an order"
  let some change := request.change
    | throw (malformed ["change"] "a change request says what it asks")
  changeQuoteCurrencyHolds ctx.process order.order change
  let state ← book.ledger.state request.orderId
  let (row, kind, acts) ← changeActs book ctx order request change state
  let made ← finish book head ctx {
    kind
    actor := ctx.actor
    acts
    reason := request.reason
    idempotencyKey := request.idempotencyKey }
  match row with
  | some row => do
    checkReached made request.orderId row (some state)
    return (made, ctx.minted "CRQ" 0)
  | none => return (made, ctx.minted "CRQ" 0)

/-- What asking for a change does: requests, ends and conditions, and new terms that keep the order's ID and its link. -/
inductive ChangeAct (order : Order) : Act → Prop where
  | asked (request : ChangeRequest) : ChangeAct order (.changeOpened request)
  | ending (orderId : String) (state : OrderState) : ChangeAct order (.ending orderId state)
  | ended (orderId : String) (state : OrderState) : ChangeAct order (.ended orderId state)
  | recalled (orderId : String) : ChangeAct order (.recalled orderId)
  | condition (orderId : String) (set : Bool) (standing : StandingOrderCondition) : ChangeAct order (conditionAct orderId set standing)
  | terms {changed : Order} (same : changed.orderId = order.orderId) (link : changed.link = order.link) : ChangeAct order (.terms changed)

def ChangeActs (order : Order) (acts : List Act) : Prop := ∀ act ∈ acts, ChangeAct order act

namespace ChangeActs
variable {order : Order} {acts more : List Act}

theorem nil : ChangeActs order [] := fun _ member => (List.not_mem_nil member).elim

theorem append (first : ChangeActs order acts) (rest : ChangeActs order more) : ChangeActs order (acts ++ more) := by
  intro act member
  rcases List.mem_append.mp member with member | member
  · exact first act member
  · exact rest act member

theorem single {act : Act} (change : ChangeAct order act) : ChangeActs order [act] := by
  intro other member
  cases List.mem_singleton.mp member
  exact change

theorem foldl {α : Type} {step : List Act → α → List Act}
    (keeps : ∀ acts entry, ChangeActs order acts → ChangeActs order (step acts entry)) (entries : List α)
    (held : ChangeActs order acts) : ChangeActs order (entries.foldl step acts) := by
  induction entries generalizing acts with
  | nil => exact held
  | cons entry rest ih => exact ih (keeps acts entry held)

end ChangeActs

theorem cancelPartsWithin_spec {ledger : Ledger} {ctx : Context} {ending : OrderState} {reason : String} {order : Order}
    {depth : Nat} {orderId : String} {acts asked : List Act} (held : ChangeActs order acts)
    (answered : cancelPartsWithin ledger ctx ending reason depth orderId acts = .ok asked) : ChangeActs order asked := by
  induction depth generalizing orderId acts asked with
  | zero => cases answered
  | succ depth ih =>
    unfold cancelPartsWithin at answered
    obtain ⟨⟨placements, children⟩, -, answered⟩ := bind_ok.mp answered
    dsimp only at answered
    have placed : ChangeActs order (placements.foldl (askPlacement ledger ctx orderId reason) acts) := by
      refine ChangeActs.foldl (fun acts placementId held => ?_) placements held
      unfold askPlacement
      split
      · exact held
      · exact held.append (.single (.asked _))
    refine foldlM_keeps (fun acts child after held stepped => ?_) children placed answered
    obtain ⟨below, parts, stepped⟩ := bind_ok.mp stepped
    cases stepped
    exact (ih (held.append (.single (.asked _))) parts).append (.single (.ending _ _))

section
variable {book : Book} {ctx : Context} {order : OrderHeld} {request : RequestOrderChangeRequest} {change : OrderChange}
  {state : OrderState} {acts : List Act}

theorem cancelActs_spec (answered : cancelActs book ctx request change state = .ok acts) : ChangeActs order.order acts := by
  obtain ⟨-, -, answered⟩ := bind_ok.mp answered
  obtain ⟨asked, parts, answered⟩ := bind_ok.mp answered
  cases answered
  exact (cancelPartsWithin_spec (.single (.asked _)) parts).append (.single (.ending _ _))

theorem recallActs_spec (answered : recallActs book ctx order request change state = .ok acts) : ChangeActs order.order acts := by
  unfold recallActs at answered
  obtain ⟨-, -, answered⟩ := bind_ok.mp answered
  obtain ⟨-, answered⟩ := guard_ok.mp answered
  obtain ⟨quantities, -, answered⟩ := bind_ok.mp answered
  obtain ⟨-, answered⟩ := guard_ok.mp answered
  cases answered
  exact (ChangeActs.single (.asked _)).append (.single (.recalled _))

theorem amendActs_spec (answered : amendActs book ctx order request change state = .ok acts) : ChangeActs order.order acts := by
  have amended : ChangeActs order.order [changeOpenedBy ctx request change .applied, .terms (amendedTerms order.order change)] :=
    (ChangeActs.single (.asked _)).append (.single (.terms rfl rfl))
  unfold amendActs at answered
  obtain ⟨-, answered⟩ := guard_ok.mp answered
  obtain ⟨-, answered⟩ := guard_ok.mp answered
  dsimp only at answered
  split at answered
  · cases answered
    exact amended
  · obtain ⟨⟨placements, children⟩, -, answered⟩ := bind_ok.mp answered
    cases answered
    exact ChangeActs.foldl (fun acts placementId held => held.append (.single (.asked _))) placements amended

theorem resizedTerms_kept (order : Order) (change : OrderChange) (quantity : Exact) :
    (resizedTerms order change quantity).orderId = order.orderId ∧ (resizedTerms order change quantity).link = order.link := by
  unfold resizedTerms
  dsimp only
  split <;> split <;> exact ⟨rfl, rfl⟩

theorem quantityActs_spec (answered : quantityActs book ctx order request change state = .ok acts) : ChangeActs order.order acts := by
  have sized (quantity : Exact) :
      ChangeActs order.order [changeOpenedBy ctx request change .applied, .terms (resizedTerms order.order change quantity)] := by
    obtain ⟨same, link⟩ := resizedTerms_kept order.order change quantity
    exact (ChangeActs.single (.asked _)).append (.single (.terms same link))
  have conditional (holds : Prop) [Decidable holds] (set : Bool) (standing : StandingOrderCondition) :
      ChangeActs order.order (if holds then [conditionAct request.orderId set standing] else []) := by
    split
    · exact .single (.condition _ _ _)
    · exact .nil
  unfold quantityActs at answered
  obtain ⟨-, answered⟩ := guard_ok.mp answered
  obtain ⟨stated, -, answered⟩ := bind_ok.mp answered
  dsimp only at answered
  split at answered
  · obtain ⟨-, answered⟩ := guard_ok.mp answered
    obtain ⟨fills, -, answered⟩ := bind_ok.mp answered
    obtain ⟨-, answered⟩ := guard_ok.mp answered
    obtain ⟨-, answered⟩ := guard_ok.mp answered
    obtain ⟨-, answered⟩ := guard_ok.mp answered
    cases answered
    exact ((sized _).append (conditional _ _ _)).append (conditional _ _ _)
  · cases answered

theorem changeActs_spec {row : Option Transition} {kind : String}
    (answered : changeActs book ctx order request change state = .ok (row, kind, acts)) : ChangeActs order.order acts := by
  unfold changeActs at answered
  split at answered
  · obtain ⟨asked, parts, answered⟩ := bind_ok.mp answered
    cases answered
    exact cancelActs_spec parts
  · obtain ⟨-, -, answered⟩ := bind_ok.mp answered
    cases answered
    exact (ChangeActs.single (.asked _)).append (.single (.ended _ _))
  · obtain ⟨asked, parts, answered⟩ := bind_ok.mp answered
    cases answered
    exact recallActs_spec parts
  · obtain ⟨asked, parts, answered⟩ := bind_ok.mp answered
    cases answered
    exact amendActs_spec parts
  · obtain ⟨asked, parts, answered⟩ := bind_ok.mp answered
    cases answered
    exact quantityActs_spec parts
  · cases answered

end

/-- An order whose own time in force has come: a day order never released ends, a released one waits for
its live parts, each asked to cancel. -/
def expire (book : Book) (head : Nat) (ctx : Context) (orderId : String) : Result (Option Made) :=
  match book.ledger.orders[orderId]? with
  | none => .ok none
  | some held => do
    let state ← book.ledger.state orderId
    if held.dueAt.isNone then return none
    if state = .proposed then
      return some (← finish book head ctx {
        kind := "order-expired"
        actor := ctx.actor
        acts := [.ended orderId .expired]
        reason := "a day order never released: its day ended by the deployment's clock" })
    if ¬ expiryRow.startsFrom (some state) then return none
    let asked ← cancelParts book ctx orderId .expired "its time in force ended" []
    return some (← finish book head ctx {
      kind := "order-expiring"
      actor := ctx.actor
      acts := asked ++ [.ending orderId .expired]
      reason := "its time in force ended by the deployment's clock" })

end MeridianCore.Bor
