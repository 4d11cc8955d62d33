import MeridianCore.Bor.OrderDecide.Report
import MeridianCore.Bor.Transitions

namespace MeridianCore.Bor

/-- A command other than a fact's report needs a user. -/
def userRequired (ctx : Context) (what : String) : Result Unit :=
  if ctx.actingFor = "" then
    .error (refused .actorRequired
      s!"{what} is a user's act, a person's or a service account's, and this was sent for no one")
  else .ok ()

/-- An approval or an override is a person's. -/
def personRequired (ctx : Context) (what : String) : Result Unit :=
  if ctx.actingFor = "" ∨ ctx.serviceAccount then
    .error (refused .actorRequired s!"{what} is a person's act, and no person stands behind this")
  else .ok ()

/-- A command naming its record by ID alone is held to the write scope it was sent with. -/
def inScope (ctx : Context) (accountId : String) : Result Unit :=
  match ctx.accountScope with
  | some scope =>
    if accountId ∈ scope then .ok ()
    else .error (.denied
      (s!"the record is in account {accountId}, which is outside the write scope this " ++
        "command was sent with: nobody may write it through this plugin"))
  | none => .ok ()

/-- A command refused for the state its order is in, by its row. -/
def stateRefused (row : Transition) (state : OrderState) (what : String) : StoreError :=
  let name := orderStateNamed state
  let number := row.row
  let cause := row.cause
  refused .orderState
    s!"{what} is not allowed on an order that is {name} (the transition table's row {number}: {cause})"

/-- A command's row checked against the order's state before it is applied. -/
def commandFrom (row : Transition) (state : OrderState) (what : String) : Result Unit :=
  if row.startsFrom (some state) then .ok () else .error (stateRefused row state what)

/-- After a command is decided, its order's state checked against its row: the fold may only reach what
the row allows. -/
def checkReached (made : Made) (orderId : String) (row : Transition) (before : Option OrderState) : Result Unit := do
  let after ← made.book.ledger.state orderId
  let reached := orderStateNamed after
  if row.admits before after then return ()
  throw (stateRefused row (before.getD .unspecified) s!"this change, which would leave order {orderId} {reached}")

/-- A condition as this command sets or clears it. -/
def standingFor (ctx : Context) (condition : OrderCondition) (reason : String) : StandingOrderCondition where
  condition := condition
  reason := reason
  actor := some ctx.actor

def conditionAct (orderId : String) (set : Bool) (standing : StandingOrderCondition) : Act :=
  .condition orderId standing.condition.number set standing

/-- Who claimed the order, where a claim stands. -/
def claimOn (held : OrderHeld) : Option Claimant :=
  (held.conditions[OrderCondition.claimed.number]?).bind StandingOrderCondition.claimant

/-- Whether a claim lets this command's sender create or change the order's placements and children:
none stands, or it is the claimant's, the same user through the same plugin. -/
def claimAllows (held : OrderHeld) (ctx : Context) : Bool :=
  match claimOn held with
  | none => true
  | some claim =>
    let user := match claim.user with
      | some (.person subject) | some (.serviceAccount subject) => subject
      | none => ""
    claim.instanceId == ctx.instanceId && user == ctx.actingFor

def claimRefused (held : OrderHeld) : StoreError :=
  let by_ := match claimOn held with
    | some claim => claim.instanceId
    | none => ""
  let orderId := held.order.orderId
  refused .claimed
    (s!"order {orderId} is claimed through {by_}: only the claimant creates or changes its " ++
      "placements and child orders, and anyone who may write the account may still " ++
      "cancel it or remove the claim")

end MeridianCore.Bor

namespace MeridianCore.Bor

/-- A proposal's order once its own terms hold, opened: on its own it is proposed; a split child is
released on creation within its parent, in its account, with its parent's instrument, side and sleeve
and no allocation instruction of its own, no gate and no wait again. -/
def proposed (book : Book) (head : Nat) (ctx : Context) (terms : Order) (idempotencyKey : String) : Result Made := do
  let order := { terms with orderId := ctx.minted "ORD" 0, accountId := book.accountId }
  let opening (order : Order) (released : Bool) : Plan := {
    kind := "order-proposed"
    actor := ctx.actor
    acts := [.opened order released]
    idempotencyKey }
  match order.link with
  | none => finish book head ctx (opening order false)
  | some link =>
    if link.kind ≠ .split then throw (malformed ["link.kind"] "the split is the one named link in v22")
    let parent ← heldOrder book link.parentOrderId
    let parentId := link.parentOrderId
    let instrument := parent.order.instrumentId
    if ¬ ctx.process.same order.instrumentId instrument then
      throw (malformed ["instrument_id"] s!"a child order has its parent's instrument, {instrument}")
    if order.side ≠ parent.order.side then throw (malformed ["side"] "a child order has its parent's side")
    if (order.allocationInstruction.getD {}).lines ≠ [] then
      throw (malformed ["allocation_instruction"]
        "a child order carries no allocation instruction of its own: its parent's governs")
    let parentState ← book.ledger.state link.parentOrderId
    if parentState ≠ .released ∧ parentState ≠ .working then
      let named := orderStateNamed parentState
      throw (stateRefused childRow parentState s!"a child order under order {parentId}, which is {named},")
    if ¬ claimAllows parent ctx then throw (claimRefused parent)
    finish book head ctx (opening { order with sleeve := parent.order.sleeve } true)

end MeridianCore.Bor
