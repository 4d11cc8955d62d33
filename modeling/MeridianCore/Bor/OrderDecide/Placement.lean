import MeridianCore.Bor.OrderDecide.Command

namespace MeridianCore.Bor

/-- The first of a manual trade's details the request states. -/
def manualDetail (request : CreatePlacementRequest) : Option String :=
  if request.counterpartyContact ≠ "" then some "counterparty_contact"
  else if request.agreedAtNs ≠ 0 then some "agreed_at_ns"
  else if request.agreedPrecision ≠ 0 then some "agreed_precision"
  else none

/-- A placement's type against its fields. Whether it is manual: a manual placement names no
connectivity instance. -/
def placementTypeHolds (order : OrderHeld) (request : CreatePlacementRequest) : Result Bool :=
  let number := request.placementType
  match PlacementType.ofNumber number with
  | none => .error (malformed ["placement_type"] s!"{number} is no placement type")
  | some .unspecified => .ok false
  | some kind =>
    let words := kind.words
    if order.order.orderType = .requestForQuote ∧ kind ≠ .rfq then
      .error (malformed ["placement_type"]
        s!"an order of type request for quote takes only RFQ placements, not {words}")
    else if kind = .algo ∧ request.strategy.isNone then
      .error (malformed ["strategy"] "an algo placement names its strategy")
    else if (kind = .dma ∨ kind = .care ∨ kind = .manual) ∧ request.strategy.isSome then
      .error (malformed ["strategy"] s!"a {words} placement carries no strategy")
    else if kind = .manual then
      if request.connectivityInstanceId ≠ "" then
        .error (malformed ["connectivity_instance_id"]
          "a manual placement names no connectivity instance: it is delivered to none")
      else if request.venueAccountCode ≠ "" then
        .error (malformed ["venue_account_code"] "a manual placement names no venue account code")
      else if request.destination = "" then
        .error (malformed ["destination"] "a manual placement names its counterparty as a VEN- destination")
      else .ok true
    else if request.connectivityInstanceId = "" then
      .error (malformed ["connectivity_instance_id"]
        s!"a {words} placement names the connectivity instance it reaches")
    else
      match manualDetail request with
      | some field => .error (malformed [field] s!"a {words} placement carries no manual trade details")
      | none => .ok false

/-- Whether an agent's act would reach a live connection while the guard is on. -/
def agentLiveRefused (ctx : Context) : Bool :=
  ctx.agentOrdersDemoOnly.getD true && ctx.agents && !ctx.connectivityDemo

/-- A placement refused and recorded. -/
def refusedPlacement (book : Book) (head : Nat) (ctx : Context) (request : CreatePlacementRequest) (reason : String)
    (refusal : StoreError) : Result Made := do
  let made ← finish book head ctx {
    kind := "placement-refused"
    actor := ctx.actor
    acts := [.placementRefused request.orderId]
    reason
    idempotencyKey := request.idempotencyKey }
  return { made with refusal := some refusal }

/-- A span in words a person reads. -/
def wordsNs (ns : Int) : String :=
  let ms := max ns 0 / 1000000
  let seconds := ms / 1000
  let tenths := ms % 1000 / 100
  s!"{seconds}.{tenths} s"

/-- What a placement sent on a stale reference keeps of the warning. -/
def staleStatus (ctx : Context) (stale : StaleReference) : PlacementStatus :=
  let dataset := stale.dataset
  let past := wordsNs (stale.ageNs - stale.ceilingNs)
  { state := .unspecified
    conditions := [{
      condition := .sentOnStaleReference
      reason := s!"sent on {dataset}'s reference price, {past} past its ceiling"
      actor := some ctx.actor
      staleReference := some stale }] }

/-- The placement a request makes of an order, minted. -/
def placementOf (ctx : Context) (order : OrderHeld) (request : CreatePlacementRequest) (ems : String) : Placement where
  placementId := ctx.minted "PLC" 0
  orderId := request.orderId
  accountId := order.order.accountId
  emsInstanceId := ems
  connectivityInstanceId := request.connectivityInstanceId
  venueAccountCode := request.venueAccountCode
  quantity := request.quantity
  limitPrice := request.limitPrice
  timeInForce := if request.timeInForce = .unspecified then order.order.timeInForce else request.timeInForce
  strategy := request.strategy
  destination := request.destination
  placementType := (PlacementType.ofNumber request.placementType).getD .unspecified
  counterpartyContact := request.counterpartyContact
  agreedAtNs := request.agreedAtNs
  agreedPrecision := request.agreedPrecision
  status := request.staleReference.map (staleStatus ctx)

def createPlacement (book : Book) (head : Nat) (ctx : Context) (request : CreatePlacementRequest) : Result Made := do
  let order ← heldOrder book request.orderId
  inScope ctx order.order.accountId
  userRequired ctx "creating a placement"
  let manual ← placementTypeHolds order request
  let orderId := request.orderId
  let ems := if request.emsInstanceId = "" then ctx.instanceId else request.emsInstanceId
  let through := request.connectivityInstanceId
  let named := if through = "" then "no connectivity plugin" else through
  -- Refused and recorded: a connectivity plugin the sender is not linked to, or an agent on a live one.
  if ¬ manual ∧ ¬ ctx.connectivityAllowed then
    refusedPlacement book head ctx request
      s!"REFUSAL_REASON_CONNECTIVITY_NOT_ALLOWED: ems {ems}, connectivity {through}"
      (refused .connectivityNotAllowed
        (s!"a placement of order {orderId} by {ems} at {named} is refused: that connectivity " ++
          s!"plugin is not one {ems} is linked to and the user may route through"))
  else if agentLiveRefused ctx then
    refusedPlacement book head ctx request
      s!"REFUSAL_REASON_AGENT_LIVE_ORDER: ems {ems}, connectivity {through}"
      (refused .agentLiveOrder
        ("Refused: Agents may place orders on demo connections only. " ++
          s!"{named} is live: a placement of order {orderId} by {ems} made " ++
          "through a delegation or by a service account is refused while the deployment's " ++
          "agent_orders_demo_only is on; a person may make it from the agent's prepared change"))
  else do
    if ¬ claimAllows order ctx then throw (claimRefused order)
    let state ← book.ledger.state orderId
    if state ≠ .released ∧ state ≠ .working then throw (stateRefused commitRow state "a placement")
    let some quantity := ← decimal "quantity" request.quantity
      | throw (malformed ["quantity"] "a placement states a positive quantity")
    if quantity.isZero ∨ quantity.isNegative then
      throw (malformed ["quantity"] "a placement states a positive quantity")
    let staleHolds : Bool := match request.staleReference with
      | some stale => stale.dataset ≠ "" && 0 ≤ stale.ageNs && 0 ≤ stale.ceilingNs
      | none => true
    if ¬ staleHolds then
      throw (malformed ["stale_reference"]
        ("a placement sent on a stale reference names its dataset, and its age and " ++
          "ceiling, never negative"))
    let made ← finish book head ctx {
      kind := "placement-created"
      actor := ctx.actor
      acts := [.placementOpened (placementOf ctx order request ems)]
      idempotencyKey := request.idempotencyKey }
    if checkReached made orderId commitRow (some state) = .ok () then return made
    checkReached made orderId workRow (some state)
    return made

end MeridianCore.Bor
