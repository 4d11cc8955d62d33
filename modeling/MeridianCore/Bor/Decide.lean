import MeridianCore.Ordered.Run
import MeridianCore.Bor.Book.Apply

namespace MeridianCore.Bor

/-- A debt record's terms as the book reads them. -/
structure DebtSays where
  agency : Nat := 0
  program : String := ""
  passThroughRate : Option Exact := none
  strippedFrom : String := ""
  deriving DecidableEq, Inhabited

/-- What an instrument's record says that an act reads. -/
structure RecordSays where
  code : String := ""
  instrumentType : InstrumentType := .unspecified
  multiplier : Option Exact := none
  debt : Option DebtSays := none
  deriving DecidableEq, Inhabited

namespace RecordSays

def isDebt (record : RecordSays) : Bool := record.debt.isSome

def pooled (record : RecordSays) : Bool :=
  match record.instrumentType with
  | .mbsPool | .cmoTranche => true
  | _ => false

def tba (record : RecordSays) : Bool := record.instrumentType = .tba

end RecordSays

/-- A block's or a net's member, as read from its own account: the accounts its allocation instruction
names, its own where none. -/
structure MemberView where
  orderId : String := ""
  accountId : String := ""
  side : Side := .unspecified
  instructed : List String := []
  deriving DecidableEq, Inhabited

/-- What an act knows beside its command: who sent it, for whom, when, the identifiers it mints, and
what its process has learned. -/
structure Context where
  process : Process := {}
  messageId : String := ""
  instanceId : String := ""
  actingFor : String := ""
  eventTimeNs : Int := 0
  receivedAtNs : Int := 0
  records : BTreeMap String RecordSays := ∅
  factorTaken : Option Decimal := none
  factorRow : FactorRow := {}
  factorsUnavailable : Bool := false
  /-- The user acted for is a service account, and no person. -/
  serviceAccount : Bool := false
  /-- The delegation the user acted through, where through one. -/
  actingThroughDelegation : String := ""
  /-- The accounts a command naming its record by ID alone may write, where one was stamped. -/
  accountScope : Option (List String) := none
  /-- The verdict on a placement's connectivity plugin. -/
  connectivityAllowed : Bool := false
  connectivityDemo : Bool := false
  /-- The agents' guard in force; unset is on. -/
  agentOrdersDemoOnly : Option Bool := none
  /-- Other accounts' attributes, as read before the act. -/
  accountMarks : BTreeMap String AccountAttributes := ∅
  /-- A block's or a net's members, by order. -/
  members : BTreeMap String MemberView := ∅
  /-- When the affirmation deadline falls on a trade date, where one is declared. -/
  affirmation : Option (String → Int) := none
  /-- The identifiers minted under a prefix, in the order they are asked for. -/
  minted : String → Nat → String := fun identifier count => identifier ++ "-" ++ toString count

namespace Context

def actor (ctx : Context) : Actor := if ctx.actingFor = "" then ctx.instanceId else ctx.actingFor

/-- Whether an agent acts: through a delegation, or as a service account. -/
def agents (ctx : Context) : Bool := ctx.actingFor ≠ "" && (ctx.actingThroughDelegation ≠ "" || ctx.serviceAccount)

/-- The UTC date of the act. -/
def today (ctx : Context) : String := toString (Date.ofUtcInstant ctx.receivedAtNs)

def multiplier (ctx : Context) (instrument : String) : Exact :=
  ((ctx.records[instrument]?).bind RecordSays.multiplier).getD Exact.one

def recordHas (ctx : Context) (instrument : String) (what : RecordSays → Bool) : Bool :=
  match ctx.records[instrument]? with
  | some record => what record
  | none => false

/-- Whether the instrument is a pool or a tranche, whose face is original face. -/
def isPooled (ctx : Context) (instrument : String) : Bool := ctx.recordHas instrument RecordSays.pooled

/-- The multiplier a fill's cash and cost are priced by: a series' own, or a debt record's price per
100 of face, times the factor it was done at. -/
def fillMultiplier (ctx : Context) (instrument : String) (factorUsed : Option Decimal) : Exact :=
  if ctx.recordHas instrument RecordSays.isDebt then
    match readExact factorUsed with
    | some factor => (multiply "factor" hundredth factor).toOption.getD hundredth
    | none => hundredth
  else ctx.multiplier instrument

end Context

/-- The parts of an entry an act chooses. -/
structure Draft where
  entryId : String
  kind : String
  effectiveDate : String
  reason : String := ""
  breakIds : List String := []
  idempotencyKey : String := ""
  actor : Actor := ""
  body : Body

/-- An act decided: its entry, numbered, the account after it and what it changed. -/
structure Made where
  entry : Entry
  book : Book
  changes : Changes
  /-- Why the command it recorded was refused, where it was. -/
  refusal : Option StoreError := none

/-- The entry a draft is, before it has its last number. -/
def Draft.entry (draft : Draft) (book : Book) (head : Nat) (ctx : Context) : Entry where
  entryId := draft.entryId
  accountId := book.accountId
  partition := book.partition
  firstSequence := head + 1
  lastSequence := 0
  messageId := ctx.messageId
  idempotencyKey := draft.idempotencyKey
  entryMeta := {
    entryId := draft.entryId
    kind := draft.kind
    actor := some draft.actor
    eventTimeNs := ctx.eventTimeNs
    receivedAtNs := ctx.receivedAtNs
    effectiveDate := draft.effectiveDate
    reason := draft.reason
    breakIds := draft.breakIds
    idempotencyKey := draft.idempotencyKey }
  causeInstanceId := ctx.instanceId
  body := draft.body

/-- Number and replay a draft onto the account, and check what must hold after it. -/
def made (book : Book) (head : Nat) (ctx : Context) (draft : Draft) : Result Made := do
  let entry := draft.entry book head ctx
  let (after, changes) ← book.apply ctx.process entry false
  after.check ctx.process entry.body
  return { entry := { entry with lastSequence := changes.lastSequence }, book := after, changes }

/-- What an act made went through: its entry applied, and what it left checked. -/
theorem made_ok {book : Book} {head : Nat} {ctx : Context} {draft : Draft} {act : Made}
    (decided : made book head ctx draft = .ok act) :
    book.apply ctx.process (draft.entry book head ctx) false = .ok (act.book, act.changes) ∧
      act.book.check ctx.process draft.body = .ok () ∧
      act.entry = { draft.entry book head ctx with lastSequence := act.changes.lastSequence } := by
  unfold made at decided
  obtain ⟨⟨after, changes⟩, applied, decided⟩ := bind_ok.mp decided
  obtain ⟨_, checked, decided⟩ := bind_ok.mp decided
  cases decided
  exact ⟨applied, checked, rfl⟩

/-- The account after the act, its entry's body held. -/
def Made.held (made : Made) : Book := made.book.holdBody made.entry.entryId made.entry.body

/-- One act to be made: the head it is numbered from, what it knows, and its draft. -/
structure Making where
  head : Nat
  ctx : Context
  draft : Draft

/-- The account once one more act is made on it. -/
def make (book : Book) (making : Making) : Result Book := return (← made book making.head making.ctx making.draft).held

theorem make_ok {book after : Book} {making : Making} (taken : make book making = .ok after) :
    ∃ act, made book making.head making.ctx making.draft = .ok act ∧ after = act.held := by
  obtain ⟨act, decided, held⟩ := bind_ok.mp taken
  cases held
  exact ⟨act, decided, rfl⟩

/-- A book some acts, each made on what those before it left, lead an empty account to. -/
def Book.Reachable (book : Book) : Prop :=
  ∃ accountId partition makings,
    Run (fun book making after => make book making = .ok after) (Book.new accountId partition) makings book

theorem reachable_of_make {accountId partition : String} {makings : List Making} {book : Book}
    (folded : makings.foldlM make (Book.new accountId partition) = .ok book) : book.Reachable :=
  ⟨accountId, partition, makings, Run.of_foldlM folded⟩

/-- The standing opening balance: its entry and its date. -/
def openingRequired (book : Book) : Result (String × String) :=
  match book.opening with
  | some opening => .ok opening
  | none => .error (refused .noOpeningBalance
      s!"account {book.accountId} has no opening balance; it enters the book once, with one (W9.1)")

def attributesOf (book : Book) : AccountAttributes :=
  book.attributes.getD { accountId := book.accountId, waitsForCompliance := true }

/-- Whether an entry setting attributes states waits for compliance: an account's first do. -/
def firstAttributes (book : Book) : Bool := book.attributes.isNone

/-- One bucket of a position that a merged record held. -/
structure Bucket where
  bucket : SettlementBucket
  valueDate : String
  state : Option PendingState
  quantity : Exact
  deriving DecidableEq

/-- The buckets a position holds anything in. -/
def bucketsOf (position : PositionState) : List Bucket :=
  (if position.settled.isZero then [] else [⟨.settled, "", none, position.settled⟩]) ++
    position.pending.toList.map (fun entry => ⟨.pending, entry.1, entry.2.2, entry.2.1⟩) ++
    (if position.notStated.isZero then [] else [⟨.notStated, "", none, position.notStated⟩])

/-- A line of a merged record's move, on the record named. -/
def mergeLine (onto : String) (key : Key) (bucket : Bucket) (quantity : Exact) : MovementLine where
  instrumentId := onto
  side := key.side
  bucket := bucket.bucket
  valueDate := bucket.valueDate
  quantity := numbers.wire quantity
  pendingState := bucket.state
  sleeve := key.sleeve

/-- An open lot carried across whole: opened under the instrument first, so the record it carries is
the lot's before the placeholder's closes it. The pairs move no bucket. -/
def carryLot (placeholder instrument : String) (key : Key) (carrier : Bucket) (state : LotState) :
    List MovementLine :=
  let held := state.lot.openQuantity
  if held.isZero then []
  else
    [{ mergeLine instrument key carrier held with
       lotId := state.lot.lotId
       opensLot := some (state.lot.terms.getD {}) },
     { mergeLine placeholder key carrier held.negated with lotId := state.lot.lotId },
     mergeLine instrument key carrier held.negated,
     mergeLine placeholder key carrier held]

/-- Every bucket and open lot of one position closed under the placeholder and opened the same under
the instrument. -/
def movedPosition (placeholder instrument : String) (key : Key) (position : PositionState) : List MovementLine :=
  let buckets := bucketsOf position
  let carrier := buckets.headD ⟨.settled, "", none, Exact.zero⟩
  buckets.flatMap (fun bucket =>
      [mergeLine placeholder key bucket bucket.quantity.negated, mergeLine instrument key bucket bucket.quantity]) ++
    (position.lots.toList.map Prod.snd).flatMap (carryLot placeholder instrument key carrier)

/-- The break brought onto the record that stays, where it is open and of the placeholder. -/
def movedBreak (placeholder instrument : String) (held : Break) : Option Break :=
  if held.state = .open then
    match held.subject with
    | some (.position named side) =>
      if named = placeholder then some { held with subject := some (.position instrument side) } else none
    | some (.figure figure named) =>
      if named = placeholder then some { held with subject := some (.figure figure instrument) } else none
    | none => none
  else none

/-- The positions held under the placeholder. -/
def heldUnder (book : Book) (placeholder : String) : List (Key × PositionState) :=
  book.positions.toList.filter fun entry => entry.1.instrument == placeholder && !entry.2.removed

def instrumentMerged : String := "instrument-merged"

def instrumentResolved : String := "instrument-resolved"

/-- What following a replacement does: what the account holds under `placeholder` moved onto
`instrument`, the lots keeping their identifiers, costs and dates. -/
def replacementBody (book : Book) (placeholder instrument : String) : Body :=
  let held := heldUnder book placeholder
  { lines := held.flatMap fun entry => movedPosition placeholder instrument entry.1 entry.2
    tombstones := (held.filter fun entry => entry.1.sleeve = "").map fun entry => (entry.1.instrument, entry.1.side)
    encumbrances := (held.filter fun entry => entry.2.encumbrances ≠ []).map fun entry =>
      (instrument, entry.1.side, entry.2.encumbrances)
    breaks := (book.breaks.toList.map Prod.snd).filterMap (movedBreak placeholder instrument) }

/-- Move what the account holds under `placeholder` onto `instrument`; `none` where it holds nothing
under it. -/
def followReplacement (book : Book) (head : Nat) (ctx : Context) (placeholder instrument : String)
    (resolved : Bool) : Result (Option Made) :=
  let body := replacementBody book placeholder instrument
  if body.lines = [] ∧ body.tombstones = [] ∧ body.breaks = [] then .ok none
  else
    (made book head ctx {
      entryId := ctx.minted "ENT" 0
      kind := if resolved then instrumentResolved else instrumentMerged
      effectiveDate := ctx.today
      breakIds := body.breaks.map Break.breakId
      body }).map some

end MeridianCore.Bor
