import MeridianCore.Bor.Book.Lots

namespace MeridianCore.Bor

/-- The reference each record an entry changes takes, by kind. -/
structure Refs where
  positions : List (Key × JournalRef)
  breaks : List (Break × JournalRef)
  figures : List (AccountFigures × JournalRef)
  attributes : List (AccountAttributes × JournalRef)
  lifecycleEvents : List (LifecycleEvent × JournalRef)
  orders : List (String × JournalRef)
  placements : List (String × JournalRef)
  executions : List (String × JournalRef)
  unplaced : List (String × JournalRef)
  locates : List (String × JournalRef)
  instructions : List (String × JournalRef)
  bookings : List (String × JournalRef)
  alerts : List (String × JournalRef)
  settings : List (String × JournalRef)

/-- A number taken, as the partition's reference. -/
def journalRef (partition : String) (taken : Chained.Taken) : JournalRef where
  partition := partition
  sequence := taken.number
  previousSequence := taken.previous

/-- The references of a chain's rows, in their order. -/
def refsOf {α : Type} (partition : String) (chain : Chain) (rows : List α) (counter : Chained.Counter Chain) :
    List (α × JournalRef) :=
  (counter.each chain rows).map fun row => (row.1, journalRef partition row.2)

namespace Book

/-- Every record an entry changes numbered in one fixed order, so a replay numbers as the act did;
and the counter after them. -/
def number (book : Book) (entry : Entry) : Refs × Chained.Counter Chain :=
  let body := entry.body
  let touched := book.ledger.touched body.acts
  let keys := book.touched body
  let attributes := body.attributes.toList
  let c0 : Chained.Counter Chain := ⟨entry.firstSequence, book.chains⟩
  let c1 := c0.after .position keys
  let c2 := c1.after .break body.breaks
  let c3 := c2.after .figures body.figures
  let c4 := c3.after .attributes attributes
  let c5 := c4.after .lifecycle body.lifecycleEvents
  let c6 := c5.after .order touched.orders
  let c7 := c6.after .placement touched.placements
  let c8 := c7.after .execution touched.executions
  let c9 := c8.after .unplaced touched.unplaced
  let c10 := c9.after .locate touched.locates
  let c11 := c10.after .instruction touched.instructions
  let c12 := c11.after .booking touched.bookings
  let c13 := c12.after .alert touched.alerts
  let c14 := c13.after .setting touched.settings
  ({ positions := refsOf book.partition .position keys c0
     breaks := refsOf book.partition .break body.breaks c1
     figures := refsOf book.partition .figures body.figures c2
     attributes := refsOf book.partition .attributes attributes c3
     lifecycleEvents := refsOf book.partition .lifecycle body.lifecycleEvents c4
     orders := refsOf book.partition .order touched.orders c5
     placements := refsOf book.partition .placement touched.placements c6
     executions := refsOf book.partition .execution touched.executions c7
     unplaced := refsOf book.partition .unplaced touched.unplaced c8
     locates := refsOf book.partition .locate touched.locates c9
     instructions := refsOf book.partition .instruction touched.instructions c10
     bookings := refsOf book.partition .booking touched.bookings c11
     alerts := refsOf book.partition .alert touched.alerts c12
     settings := refsOf book.partition .setting touched.settings c13 }, c14)

/-- The reference taken first, which is the entry's own. -/
def firstRef (refs : Refs) : Option JournalRef :=
  (refs.positions.map Prod.snd ++ refs.breaks.map Prod.snd ++ refs.figures.map Prod.snd ++
    refs.attributes.map Prod.snd ++ refs.lifecycleEvents.map Prod.snd ++ refs.orders.map Prod.snd ++
    refs.placements.map Prod.snd ++ refs.executions.map Prod.snd ++ refs.unplaced.map Prod.snd ++
    refs.locates.map Prod.snd ++ refs.instructions.map Prod.snd ++ refs.bookings.map Prod.snd ++
    refs.alerts.map Prod.snd ++ refs.settings.map Prod.snd).head?

/-- The reference of a position the entry changes. -/
def refAt (refs : List (Key × JournalRef)) (key : Key) : JournalRef :=
  match refs.find? fun row => row.1 == key with
  | some row => row.2
  | none => {}

def setPosition (book : Book) (key : Key) (position : PositionState) : Book :=
  { book with positions := book.positions.insert key position }

/-- One line: its position's bucket, and the lot it names. -/
def applyLine (process : Process) (refs : List (Key × JournalRef)) (sales : List Sale) (entrySequence : Nat)
    (lenient : Bool) (book : Book) (line : MovementLine) : Result Book := do
  let key := lineKey line
  let quantity ← numbers.required s!"the line on {line.instrumentId}'s quantity" line.quantity
  let carried := if line.opensLot.isSome ∧ line.lotId ≠ "" then book.carriedLot key line.lotId else none
  let held := (book.positions[key]?).getD (PositionState.new key)
  let bucketed ← { held with removed := false }.addToBucket line quantity
  let position ← applyLot bucketed line quantity carried (refAt refs key) entrySequence lenient
    (saleOf process sales line)
  return book.setPosition key position

/-- A lot's record changed where the lot's owner holds it. -/
def onLot (book : Book) (lotId : String) (change : Lot → Lot) : Book :=
  match book.lotOwner lotId with
  | some key =>
    { book with
      positions := book.positions.modify key fun position =>
        { position with lots := position.lots.modify lotId fun state => { state with lot := change state.lot } } }
  | none => book

/-- The month the first provisional execution of these awaits. -/
def awaitedIn (ledger : Ledger) (executionIds : List String) : Option String :=
  executionIds.findSome? fun id => do
    let held ← ledger.executions[id]?
    if held.factorRow.awaited ≠ "" then some held.factorRow.awaited else none

/-- Which of an entry's lines a provisional fill marks, with the instrument they are on where one is
named, and the factor month awaited. -/
structure Mark where
  start : Nat
  count : Nat
  instrument : String
  awaited : String
  deriving DecidableEq

/-- The marks one act makes, on an entry of so many lines. -/
def marksOf (ledger : Ledger) (all : Nat) : Act → List Mark
  | .executed execution _ _ _ _ factorRow =>
    if factorRow.awaited ≠ "" then [⟨0, all, execution.instrumentId, factorRow.awaited⟩] else []
  | .accepted executionIds _ _ _ _ =>
    executionIds.filterMap fun id =>
      match ledger.executions[id]? with
      | some held =>
        if held.factorRow.awaited ≠ "" then
          some ⟨0, all, held.execution.instrumentId, held.factorRow.awaited⟩
        else none
      | none => none
  | .bookingOpened booking lines =>
    ((awaitedIn ledger booking.executionIds).map fun awaited => ⟨lines.1, lines.2, "", awaited⟩).toList
  | .bookingReplaced bookingId _ _ _ lines =>
    let ids := match ledger.bookings[bookingId]? with
      | some held => held.booking.executionIds
      | none => []
    ((awaitedIn ledger ids).map fun awaited => ⟨lines.1, lines.2, "", awaited⟩).toList
  | .allocationReceived _ _ _ _ lines _ factorMonthAwaited =>
    if factorMonthAwaited ≠ "" then [⟨lines.1, lines.2, "", factorMonthAwaited⟩] else []
  | _ => []

/-- The lots a factor revision clears. -/
def clearedBy : Act → List String
  | .factorRevised _ _ _ lotIds => lotIds
  | _ => []

/-- Whether a mark is on a line: one opening a lot, of the instrument marked. -/
def Mark.isOn (process : Process) (mark : Mark) (line : MovementLine) : Bool :=
  line.opensLot.isSome && line.lotId != "" &&
    (mark.instrument == "" || process.same mark.instrument line.instrumentId)

/-- Each lot the entry opened for a fill priced at a provisional factor marked with the factor month
awaited; each lot a factor revision names cleared. -/
def markAwaited (process : Process) (book : Book) (body : Body) : Book :=
  let marks := body.acts.flatMap (marksOf book.ledger body.lines.length)
  let cleared := (body.acts.flatMap clearedBy).foldl
    (fun held lotId => held.onLot lotId fun lot => { lot with factorMonthAwaited := "" }) book
  marks.foldl (fun held mark =>
    ((body.lines.drop mark.start).take mark.count).foldl (fun held line =>
      if mark.isOn process line then
        held.onLot line.lotId fun lot => { lot with factorMonthAwaited := mark.awaited }
      else held) held) cleared

/-- A lot's terms after a basis adjustment: its cost changed or stated, or made unknown again, and
where its holding period starts. -/
def adjustedTerms (body : Body) (lenient : Bool) (adjustment : BasisAdjustment) (terms : LotTerms) :
    Result LotTerms := do
  let cost ← match adjustment.cost with
    | some (.costChange change) =>
      match terms.cost with
      | some cost => (numbers.addMoney "lots.terms.cost" cost change).map some
      | none =>
        if lenient then .ok none
        else .error (.invalid
          (s!"lot {adjustment.lotId}'s cost is unknown; state it (stated_cost) rather than change it"))
    | some (.statedCost stated) =>
      if terms.cost.isSome ∧ ¬ lenient then
        .error (.invalid
          (s!"lot {adjustment.lotId}'s cost is known; a known cost is changed by an amount " ++
            "(cost_change), not stated again"))
      else .ok (some stated)
    | none => .ok terms.cost
  let restored := if adjustment.lotId ∈ body.restoredUnknownCosts then none else cost
  let restoring := body.reverses ≠ ""
  return { terms with
    cost := restored
    holdingPeriodStart :=
      if restoring ∨ adjustment.holdingPeriodStart ≠ "" then adjustment.holdingPeriodStart
      else terms.holdingPeriodStart }

/-- One basis adjustment, on the lot where its owner holds it. -/
def adjustBasis (refs : List (Key × JournalRef)) (body : Body) (lenient : Bool) (book : Book)
    (adjustment : BasisAdjustment) : Result Book :=
  match book.lotOwner adjustment.lotId with
  | none =>
    if lenient then .ok book
    else .error (.invalid s!"no lot {adjustment.lotId} in account {book.accountId}")
  | some key =>
    match book.positions[key]? with
    | none => .ok book
    | some position =>
      match position.lots[adjustment.lotId]? with
      | none => .ok book
      | some state => do
        let terms ← adjustedTerms body lenient adjustment (state.lot.terms.getD {})
        let lot := { state.lot with
          terms := some terms
          adjustedBy := state.lot.adjustedBy ++ [refAt refs key] }
        return book.setPosition key
          { position with lots := position.lots.insert adjustment.lotId { state with lot } }

/-- A position's encumbrances, the whole set, each naming the change that set it. -/
def encumber (refs : List (Key × JournalRef)) (book : Book)
    (named : String × HoldingSide × List Encumbrance) : Book :=
  let key : Key := ⟨named.1, named.2.1, ""⟩
  { book with
    positions := book.positions.modify key fun position =>
      { position with
        encumbrances := named.2.2.map fun encumbrance =>
          { encumbrance with setBy := some (refAt refs key) } } }

def openFrom (sources : List OpeningSource) (book : Book) (key : Key) : Book :=
  { book with positions := book.positions.modify key fun position => { position with openedFrom := sources } }

/-- A give-up's answer names its entry. -/
def stamped (entry : Entry) : Act → Act
  | .giveUpRecorded executionId bookingId allocationId record =>
    .giveUpRecorded executionId bookingId allocationId { record with entry := some entry.entryMeta }
  | act => act

/-- One act applied, and what its record takes from the entry it is in. -/
def applyAct (entry : Entry) (versions : BTreeMap String Nat) (ledger : Ledger) (act : Act) : Ledger :=
  let applied := ledger.apply (stamped entry act) entry.entryId versions
  match act with
  | .bookingOpened booking _ => applied.onBooking booking.bookingId fun held =>
      { held with bookedAt := entry.firstSequence }
  | .bookingReplaced bookingId _ _ _ _ => applied.onBooking bookingId fun held =>
      { held with bookedAt := entry.firstSequence }
  | .opened order _ => applied.onOrder order.orderId fun held =>
      { held with openedBy := entry.causeInstanceId, openedAtNs := entry.entryMeta.receivedAtNs }
  | .changeOpened request =>
    { applied with
      changes := applied.changes.modify request.changeRequestId fun held =>
        { held with entry := held.entry.or (some entry.entryMeta) } }
  | _ => applied

def openedRequest : Act → Option (String × String × String)
  | .changeOpened request => some (request.changeRequestId, request.orderId, request.placementId)
  | _ => none

/-- Every record's reference set, and the entry kept in each order's history. -/
def referenced (ledger : Ledger) (entryId : String) (refs : Refs) : Ledger :=
  let ordered := refs.orders.foldl (fun held (id, reference) =>
    if held.orders.contains id then
      { held.onOrder id fun order => { order with lastChange := some reference } with
        orderEntries := held.orderEntries.insert id ((held.orderEntries[id]?).getD [] ++ [entryId]) }
    else held) ledger
  let placed := refs.placements.foldl (fun held (id, reference) =>
    held.onPlacement id fun placement => { placement with lastChange := some reference }) ordered
  refs.executions.foldl (fun held (id, reference) =>
    held.onExecution id fun execution => { execution with execution.lastChange := some reference }) placed

/-- The records of a kind the ledger holds, each by its reference's name. -/
def recordsOf {α : Type} (held : String → Bool) (record : String → Result α) (refs : List (String × JournalRef)) :
    Result (List α) :=
  ((refs.map Prod.fst).filter held).mapM record

def placedBy (acts : List Act) (unplacedId : String) : Bool :=
  acts.any fun act =>
    match act with
    | .placed id => id == unplacedId
    | _ => false

/-- The references of the kinds set once the orders' records are read. -/
def referencedAfter (ledger : Ledger) (entry : Entry) (refs : Refs) : Ledger :=
  { ledger with
    unplaced := refs.unplaced.foldl (fun held (id, reference) => held.modify id fun fact =>
      { fact with
        placedBy := if placedBy entry.body.acts id then some reference else fact.placedBy
        lastChange := some reference }) ledger.unplaced
    locates := refs.locates.foldl (fun held (id, reference) => held.modify id fun locate =>
      { locate with locate.lastChange := some reference }) ledger.locates
    instructions := refs.instructions.foldl (fun held (key, reference) => held.modify key fun instruction =>
      { instruction with lastChange := some reference, entry := some entry.entryMeta }) ledger.instructions
    bookings := refs.bookings.foldl (fun held (id, reference) => held.modify id fun booking =>
      { booking with booking.lastChange := some reference }) ledger.bookings
    alerts := refs.alerts.foldl (fun held (id, reference) => held.modify id fun alert =>
      { alert with lastChange := some reference }) ledger.alerts }

/-- The order path's acts applied to the ledger, each record they change given its reference and set
whole in the changes as it stands after them. -/
def applyActs (book : Book) (entry : Entry) (changes : Changes) (refs : Refs) : Result (Book × Changes) :=
  if entry.body.acts = [] then .ok (book, changes)
  else do
    -- The records before are read for what each update says changed; a record that does not read is a fault.
    let _ ← recordsOf book.ledger.orders.contains (book.ledger.orderRecord · true) refs.orders
    let _ ← recordsOf book.ledger.placements.contains book.ledger.placementRecord refs.placements
    let versions : BTreeMap String Nat :=
      refs.orders.foldl (fun held (id, reference) => held.insert id reference.sequence) ∅
    let applied := entry.body.acts.foldl (applyAct entry versions) book.ledger
    let ledger := referenced applied entry.entryId refs
    let orders ← recordsOf ledger.orders.contains (ledger.orderRecord · true) refs.orders
    let placements ← recordsOf ledger.placements.contains ledger.placementRecord refs.placements
    let last := referencedAfter ledger entry refs
    let locates ← recordsOf last.locates.contains last.locateRecord refs.locates
    let bookings ← recordsOf last.bookings.contains last.bookingRecord refs.bookings
    return ({ book with ledger := last }, { changes with
      orders, placements, locates, bookings
      executions := refs.executions.filterMap fun (id, _) => (last.executions[id]?).map ExecutionHeld.execution
      unplaced := refs.unplaced.filterMap fun (id, _) => last.unplaced[id]?
      instructions := refs.instructions.filterMap fun (key, _) => last.instructions[key]?
      alerts := refs.alerts.filterMap fun (id, _) => last.alerts[id]?
      orderExpiries := refs.orders.filterMap fun (id, _) => (ledger.orders[id]?).map fun held => (id, held.dueAt)
      changeRequests := entry.body.acts.filterMap openedRequest })

/-- The trade-date quantity of a position before the entry. -/
def previousOf (book : Book) (key : Key) : Result Exact :=
  match book.positions[key]? with
  | some position => position.tradeDate
  | none => .ok Exact.zero

/-- A position the entry changes, as it stands after it, with its quantity before. -/
def recordPosition (entry : Entry) (previous : List (Key × Exact)) (held : Book × List (BookPosition × Exact))
    (row : Key × JournalRef) : Result (Book × List (BookPosition × Exact)) := do
  let (key, reference) := row
  let position := (held.1.positions[key]?).getD (PositionState.new key)
  let tombstoned := key.sleeve = "" ∧ (key.instrument, key.side) ∈ entry.body.tombstones
  let changed := { position with
    removed := if tombstoned then true else position.removed
    effectiveDate := entry.entryMeta.effectiveDate
    lastChange := some reference }
  let record ← changed.record held.1.accountId
  let before := match previous.find? fun row => row.1 == key with
    | some row => row.2
    | none => Exact.zero
  return (held.1.setPosition key changed, held.2 ++ [(record, before)])

/-- How an agreement is keyed: the statement's external account and segment. -/
def agreementKey (agreement : Option StatementSegment) : String :=
  match agreement with
  | some segment => keyOf ["segment", segment.externalAccountId, segment.segment]
  | none => ""

def breakRecord (body : Body) (first : JournalRef) (row : Break × JournalRef) : Break :=
  { row.1 with
    resolution :=
      if row.1.breakId ∈ body.resolvedByThis then
        some { row.1.resolution.getD {} with entries := [first] }
      else row.1.resolution
    lastChange := some row.2 }

def attributesRecord (body : Body) (first : JournalRef) (row : AccountAttributes × JournalRef) : AccountAttributes :=
  { row.1 with
    openingBalance := row.1.openingBalance.map fun opening =>
      if body.opening.isSome then { opening with journal := some first } else opening
    lastChange := some row.2 }

/-- The records an entry sets whole. -/
def setRecords (book : Book) (body : Body) (first : JournalRef) (refs : Refs) (changes : Changes) : Book × Changes :=
  let breaks := refs.breaks.map (breakRecord body first)
  let lifecycleEvents := refs.lifecycleEvents.map fun row => { row.1 with lastChange := some row.2 }
  let figures := refs.figures.map fun row => { row.1 with lastChange := some row.2 }
  let attributes := (refs.attributes.map (attributesRecord body first)).getLast?
  ({ book with
     breaks := breaks.foldl (fun held record => held.insert record.breakId record) book.breaks
     lifecycleEvents :=
       lifecycleEvents.foldl (fun held record => held.insert record.eventId record) book.lifecycleEvents
     figures := figures.foldl (fun held record =>
       held.insert ⟨agreementKey record.agreement, record.businessDate⟩ record) book.figures
     attributes := attributes.or book.attributes },
   { changes with breaks, lifecycleEvents, figures, attributes })

/-- The first of the entries so named, said to be reversed. -/
def markReversed (reverses reversedBy : String) : List EntryIndex → List EntryIndex
  | [] => []
  | held :: rest =>
    if held.entryId = reverses then { held with reversedBy := some reversedBy } :: rest
    else held :: markReversed reverses reversedBy rest

/-- What the entry leaves of the account's opening balance and of the entries it reverses. -/
def closeEntry (book : Book) (entry : Entry) (first : JournalRef) : Book :=
  let body := entry.body
  let opened := match body.opening with
    | some opening => some (opening.entryId, opening.asOfDate)
    | none => book.opening
  let entries :=
    if body.reverses = "" then book.entries else markReversed body.reverses entry.entryId book.entries
  { book with
    waitsStated := book.waitsStated || body.statesWaits
    opening := if body.clearsOpening then none else opened
    reversedOpenings :=
      if body.clearsOpening then book.reversedOpenings ++ opened.toList.map Prod.fst else book.reversedOpenings
    entries := entries ++ [EntryIndex.of entry first] }

/-- The lines, lots, costs, encumbrances and sources of an entry. -/
def applyPositions (process : Process) (book : Book) (entry : Entry) (refs : Refs) (lenient : Bool) : Result Book := do
  let body := entry.body
  let sales := salesOf body entry.entryMeta.effectiveDate book.accountId book.ledger
  let moved ← body.lines.foldlM (applyLine process refs.positions sales entry.firstSequence lenient) book
  let marked := moved.markAwaited process body
  let adjusted ← body.basisAdjustments.foldlM (adjustBasis refs.positions body lenient) marked
  let encumbered := body.encumbrances.foldl (encumber refs.positions) adjusted
  return if body.sources = [] then encumbered else (body.lines.map lineKey).foldl (openFrom body.sources) encumbered

/-- One entry replayed onto the account, each record it changes numbered from the entry's first
sequence; and what changed. -/
def apply (process : Process) (book : Book) (entry : Entry) (lenient : Bool) : Result (Book × Changes) := do
  let body := entry.body
  let previous ← (book.touched body).mapM fun key => return (key, ← book.previousOf key)
  let (refs, counter) := book.number entry
  let some first := firstRef refs
    | throw (.invalid "an entry that changes no record changes nothing; nothing was journalled")
  let lastSequence := counter.next - 1
  if entry.lastSequence ≠ 0 ∧ entry.lastSequence ≠ lastSequence then
    throw (.unavailable
      (s!"entry {entry.entryId} was numbered {entry.firstSequence} to {entry.lastSequence} and replays as " ++
        s!"{entry.firstSequence} to {lastSequence}; the journal is not what the book wrote"))
  let moved ← applyPositions process { book with chains := counter.last } entry refs lenient
  let (recorded, positions) ← refs.positions.foldlM (recordPosition entry previous) (moved, [])
  let (set, changes) := recorded.setRecords body first refs { positions, first, lastSequence }
  let (acted, changes) ← set.applyActs entry changes refs
  return (acted.closeEntry entry first, changes)

/-- The account replayed from its journal, strictly, holding no entry's body. -/
def replayLean (process : Process) (accountId partition : String) (entries : List Entry) : Result Book :=
  entries.foldlM (fun book entry => return (← book.apply process entry false).1) (new accountId partition)

/-- The account replayed from its journal, holding every entry's body. -/
def replay (process : Process) (accountId partition : String) (entries : List Entry) : Result Book := do
  let book ← replayLean process accountId partition entries
  return entries.foldl (fun held entry => held.holdBody entry.entryId entry.body) book

end Book

end MeridianCore.Bor

namespace MeridianCore.Bor

/-- Signed to match its side. -/
def onItsSide (side : HoldingSide) (value : Exact) : Bool :=
  if side = .long then !value.isNegative else !value.negated.isNegative

namespace Book

/-- The positions whose lots an entry's lines move. -/
def lotLines (body : Body) : List Key :=
  (body.lines.filter fun line => line.lotId != "" || line.opensLot.isSome).map lineKey

/-- What must hold of one position an entry changed. -/
def checkPosition (process : Process) (book : Book) (body : Body) (key : Key) : Result Unit :=
  match book.positions[key]? with
  | none => .ok ()
  | some position =>
    if position.removed then .ok ()
    else do
      let trade ← position.tradeDate
      -- A fill's cash may go below what the account holds, and the base currency is a signed balance.
      let base := book.isBase process key.instrument
      let cashOfATrade := (body.trade && position.lots.isEmpty && key ∉ lotLines body) || base
      if ¬ onItsSide position.side trade ∧ ¬ cashOfATrade then
        throw (.invalid
          (s!"the entry leaves {key.instrument} on the {sideNamed position.side} side at {trade}; " ++
            "a position's quantity is signed to match its side"))
      match (position.lots.toList.map Prod.snd).find? fun state => !onItsSide position.side state.lot.openQuantity with
      | some state =>
        throw (.invalid
          (s!"the entry relieves more of lot {state.lot.lotId} than is open, leaving {state.lot.openQuantity}"))
      | none =>
        if ¬ base ∧ (position.hasOpenLots ∨ key ∈ lotLines body) then
          let lots ← position.openLots
          if ¬ lots.equals trade then
            throw (refused .lotsUnbalanced
              (s!"{key.instrument}'s open lots sum to {lots} and its trade-date quantity is {trade}; " ++
                "a position's lots sum to its quantity"))

/-- What must hold of every position an entry changed, checked on the account after it. -/
def check (process : Process) (book : Book) (body : Body) : Result Unit :=
  (book.touched body).forM (book.checkPosition process body)

end Book

end MeridianCore.Bor
