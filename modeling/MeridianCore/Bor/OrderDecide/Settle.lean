import MeridianCore.Bor.Decide

namespace MeridianCore.Bor

/-- What an order-path entry is, before its consequences are worked out. -/
structure Plan where
  kind : String
  actor : Actor
  acts : List Act
  lines : List MovementLine := []
  reason : String := ""
  idempotencyKey : String := ""
  effectiveDate : String := ""

/-- The request is the order's cancel, still pending. -/
def pendingCancel (request : ChangeRequest) : Bool :=
  request.outcome = .pending &&
    match request.change with
    | some (.orderChange change) => change.kind = .cancel
    | _ => false

/-- The acts ending one order whose cancel or expiry was waiting and now has nothing live, a cancel's
own request applied with it. -/
def settling (ledger : Ledger) (orderId : String) (held : OrderHeld) : Result (List Act) :=
  match held.ending, held.ended with
  | some ending, none => do
    let (placements, children) ← ledger.liveParts orderId
    if ¬ placements.isEmpty ∨ ¬ children.isEmpty then return []
    let pending := held.changeRequests.filter fun id =>
      match ledger.changes[id]? with
      | some request => pendingCancel request
      | none => false
    let applied := if ending = .cancelled then pending.map fun id => Act.changeOutcome id .applied else []
    return applied ++ [.ended orderId ending]
  | _, _ => .ok []

/-- One pass over the orders. -/
def settlingRound (ledger : Ledger) : Result (List Act) := do
  return (← ledger.orders.toList.mapM fun entry => settling ledger entry.1 entry.2).flatten

/-- Passes made until one ends nothing, so many at most: each ends an order that had not ended. -/
def settleFrom : Nat → Ledger → Result (List Act)
  | 0, _ => .error .overflowed
  | fuel + 1, ledger => do
    let more ← settlingRound ledger
    if more.isEmpty then return []
    let rest ← settleFrom fuel (ledger.applyAll more "" ∅)
    return more ++ rest

/-- Every order whose cancel or expiry was waiting and now has nothing live ends, up the chain of
parents, and a cancel's own request is applied with it. -/
def settle (book : Book) (acts : List Act) : Result (List Act) := do
  let ledger := book.ledger.applyAll acts "" ∅
  return acts ++ (← settleFrom ledger.depth ledger)

/-- Whether the account still holds a position under the ID. -/
def stillHeld (book : Book) (instrument : String) : Bool :=
  book.positions.toList.any fun entry => entry.1.instrument == instrument && !entry.2.removed

/-- The record a write naming `instrument` lands on: what it became, unless the account still holds a
position under the ID named, which then moves with it when the replacement is followed. -/
def landing (process : Process) (book : Book) (instrument : String) : String :=
  let became := process.current instrument
  if became = instrument then became
  else if stillHeld book instrument then instrument
  else became

/-- Each line naming a replaced record lands on the record it became. -/
def landed (process : Process) (book : Book) (lines : List MovementLine) : List MovementLine :=
  lines.map fun line => { line with instrumentId := landing process book line.instrumentId }

/-- The draft of a plan whose acts are settled. -/
def Plan.draft (plan : Plan) (book : Book) (ctx : Context) (acts : List Act) : Draft :=
  let lines := landed ctx.process book plan.lines
  let first := firstAttributes book && isAccount book.accountId
  { entryId := ctx.minted "ENT" 0
    kind := plan.kind
    effectiveDate := if plan.effectiveDate = "" then ctx.today else plan.effectiveDate
    reason := plan.reason
    idempotencyKey := plan.idempotencyKey
    actor := plan.actor
    body := {
      acts, lines
      trade := !lines.isEmpty
      attributes := if first then some (attributesOf book) else none
      statesWaits := first } }

/-- The entry made: its consequences settled, a new account's first attributes stated, numbered and
replayed. -/
def finish (book : Book) (head : Nat) (ctx : Context) (plan : Plan) : Result Made := do
  let acts ← settle book plan.acts
  made book head ctx (plan.draft book ctx acts)

end MeridianCore.Bor
