import MeridianCore.Bor.Lifecycle.Moves

namespace MeridianCore.Bor.Lifecycle

/-- What a report is matched to a proposal by. -/
structure EventKey where
  accountId : String
  instrumentId : String
  kind : LifecycleEventKind
  eventDate : String
  deriving DecidableEq

def keyOf (event : LifecycleEvent) : EventKey :=
  ⟨event.accountId, event.instrumentId, event.kind, event.eventDate⟩

structure RecordLifecycleEventRequest where
  event : Option LifecycleEvent := none
  idempotencyKey : String := ""

structure ReleaseLifecycleEventRequest where
  eventId : String := ""
  note : String := ""

def recordedKind : String := "lifecycle-event-booked"

def proposedKind : String := "lifecycle-events-proposed"

def releasedKind : String := "lifecycle-event-released"

def claimSettledKind : String := "factor-claim-settled"

/-- The proposal a report answers: the same account, instrument, kind and date, proposed and not yet
answered or released. -/
def proposalAnswered (book : Book) (event : LifecycleEvent) : Option LifecycleEvent :=
  (book.lifecycleEvents.find? fun _ held => held.state = .proposed && keyOf held = keyOf event).map Prod.snd

/-- The event held under the external identifier of a report sent again. -/
def heldAlready (book : Book) (event : LifecycleEvent) : Option LifecycleEvent :=
  if event.externalEventId = "" then none
  else (book.lifecycleEvents.find? fun _ held =>
    held.externalEventId == event.externalEventId && held.state != .proposed).map Prod.snd

/-- A proposal answered, by its report or its release. -/
def answered (proposal : LifecycleEvent) : LifecycleEvent :=
  { proposal with state := .answered, lastChange := none }

/-- A reported event as it is booked, and the proposal it answers. -/
def bookedBy (book : Book) (ctx : Context) (event : LifecycleEvent) : List LifecycleEvent :=
  let booked := { event with
    eventId := ctx.minted "LCE" 0
    state := .booked
    lastChange := none
    proposalBasis := none }
  match proposalAnswered book event with
  | some proposal => [{ booked with answersEventId := proposal.eventId }, answered proposal]
  | none => [booked]

/-- The parts of an entry booking an event's movement. -/
def bookingBody (moved : Moved) (records : List LifecycleEvent) : Body where
  lines := moved.lines
  basisAdjustments := moved.basisAdjustments
  priorHoldingPeriodStarts := moved.priorHoldingPeriodStarts
  lifecycleEvents := records
  trade := true

/-- A reported event booked, its own record and entry; a proposal it answers marked answered. A report
sent twice, the same account and external event, is answered with the first. -/
def record (book : Book) (head : Nat) (ctx : Context) (request : RecordLifecycleEventRequest) : Result Made := do
  let _ ← openingRequired book
  let some event := request.event
    | throw (malformed ["event"] "the request carries no event")
  checked book ctx event "event."
  match heldAlready book event with
  | some held => throw (.repeatedEvent held)
  | none =>
    let moved ← moved book ctx event
    made book head ctx {
      entryId := ctx.minted "ENT" 0
      kind := recordedKind
      effectiveDate := event.eventDate
      idempotencyKey := request.idempotencyKey
      actor := ctx.actor
      body := bookingBody moved (bookedBy book ctx event) }

/-- A partial call, a put, a TBA allocation, a strip and a reconstitution only a report states, never a
proposal. -/
def proposable (event : LifecycleEvent) (path : String) : Result Unit :=
  match event.kind with
  | .redemption =>
    if event.redemptionKind = .partialCall ∨ event.redemptionKind = .put then
      .error (malformed [s!"{path}redemption_kind"]
        ("a partial call or a put is only reported, never proposed: a partial call by                  " ++
          "lottery cannot be derived, and a put is the holder's"))
    else .ok ()
  | .tbaAllocation | .strip | .reconstitution =>
    .error (malformed [s!"{path}kind"]
      "a TBA allocation, a strip or a reconstitution is only reported, never proposed")
  | _ => .ok ()

/-- A proposal checked, and its record: the `i`th of its entry. -/
def proposal (book : Book) (ctx : Context) (i at_ : Nat) (event : LifecycleEvent) : Result LifecycleEvent := do
  let path := s!"events[{at_}]."
  checked book ctx event path
  proposable event path
  if event.externalEventId ≠ "" ∨ event.rawRecord.isSome then
    throw (malformed [s!"{path}external_event_id"]
      ("a proposal names nothing the broker's report would: no external event and no " ++
        "raw record"))
  return { event with
    eventId := ctx.minted "LCE" i
    state := .proposed
    answersEventId := ""
    lastChange := none }

def proposals (book : Book) (ctx : Context) : Nat → List (Nat × LifecycleEvent) → Result (List LifecycleEvent)
  | _, [] => .ok []
  | i, (at_, event) :: rest => do
    let first ← proposal book ctx i at_ event
    return first :: (← proposals book ctx (i + 1) rest)

/-- Proposals for one account, each its own record, moving nothing. -/
def propose (book : Book) (head : Nat) (ctx : Context) (events : List (Nat × LifecycleEvent)) : Result Made := do
  let _ ← openingRequired book
  let records ← proposals book ctx 0 events
  made book head ctx {
    entryId := ctx.minted "ENT" 0
    kind := proposedKind
    effectiveDate := ctx.today
    actor := ctx.actor
    body := { lifecycleEvents := records } }

/-- One line of a claim's cash, dated nothing. -/
def claimLine (instrument sleeve : String) (bucket : SettlementBucket) (quantity : Exact) : MovementLine where
  instrumentId := instrument
  side := .long
  bucket := bucket
  quantity := numbers.wire quantity
  sleeve := sleeve

/-- A factor revision's open claim marked settled: its cash moved from pending, dated nothing, to
settled; the event booked. -/
def claimSettled (book : Book) (head : Nat) (ctx : Context) (claim : LifecycleEvent) (note : String) : Result Made := do
  inScope ctx claim.accountId
  let some cash := claim.cash
    | throw (.invalid s!"{claim.eventId} moves no cash")
  let amount ← numbers.amount "cash" cash
  let instrument ← cashInstrument ctx.process cash
  let sleeve := match book.ledger.executions[claim.executionId]? with
    | some held => held.execution.sleeve
    | none => ""
  let lines := if amount.isZero then []
    else [claimLine instrument sleeve .pending amount.negated, claimLine instrument sleeve .settled amount]
  made book head ctx {
    entryId := ctx.minted "ENT" 0
    kind := claimSettledKind
    effectiveDate := ctx.today
    reason := note
    actor := ctx.actor
    body := { lines, lifecycleEvents := [{ claim with state := .booked, lastChange := none }], trade := true } }

/-- A proposal as its release books it. -/
def releasedFrom (ctx : Context) (proposal : LifecycleEvent) : LifecycleEvent :=
  { proposal with
    state := .booked
    answersEventId := proposal.eventId
    eventId := ctx.minted "LCE" 0
    lastChange := none }

/-- The event held under an identifier, where it is in the state. -/
def heldIn (book : Book) (eventId : String) (state : LifecycleEventState) : Option LifecycleEvent :=
  (book.lifecycleEvents[eventId]?).filter fun held => held.state = state

/-- A proposal no report answered, booked as proposed, with its note. -/
def releaseProposal (book : Book) (head : Nat) (ctx : Context) (request : ReleaseLifecycleEventRequest) :
    Result Made := do
  let some proposal := heldIn book request.eventId .proposed
    | throw (malformed ["event_id"]
        (s!"\"{request.eventId}\" is no proposal waiting in {book.accountId}, nor a factor revision's open claim: " ++
          "answered, released, settled or never proposed"))
  checked book ctx proposal ""
  let moved ← moved book ctx proposal
  made book head ctx {
    entryId := ctx.minted "ENT" 0
    kind := releasedKind
    effectiveDate := proposal.eventDate
    reason := Text.trim request.note
    actor := ctx.actor
    body := bookingBody moved [releasedFrom ctx proposal, answered proposal] }

def release (book : Book) (head : Nat) (ctx : Context) (request : ReleaseLifecycleEventRequest) : Result Made := do
  if Text.trim request.note = "" then
    throw (refused .reasonRequired "note: a release of a proposed event says why")
  if 2000 < request.note.length then
    throw (malformed ["note"] "at most 2,000 characters")
  -- A factor revision's open claim, marked settled.
  match heldIn book request.eventId .claimOpen with
  | some claim => claimSettled book head ctx claim (Text.trim request.note)
  | none => releaseProposal book head ctx request

end MeridianCore.Bor.Lifecycle
