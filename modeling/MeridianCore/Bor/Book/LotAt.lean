import MeridianCore.Bor.Book.Applied

namespace MeridianCore.Bor

namespace Book

/-- The lot a position holds under an identifier, closed or open. -/
def lotAt (book : Book) (key : Key) (lotId : String) : Option LotState :=
  (book.positions[key]?).bind fun position => position.lots[lotId]?

section
variable {book after : Book} {key other : Key} {lotId : String} {state : LotState}

theorem lotAt_eq_some : book.lotAt key lotId = some state ↔
    ∃ position, book.positions[key]? = some position ∧ position.lots[lotId]? = some state :=
  Option.bind_eq_some_iff

theorem lotAt_setPosition (book : Book) (key : Key) (position : PositionState) (other : Key) (lotId : String) :
    (book.setPosition key position).lotAt other lotId =
      if key = other then position.lots[lotId]? else book.lotAt other lotId := by
  unfold lotAt setPosition
  rw [Std.ExtTreeMap.getElem?_insert]
  by_cases same : key = other
  · subst same
    simp
  · simp [same]

theorem holdsLot_iff {position : PositionState} (found : book.positions[key]? = some position) :
    holdsLot lotId key position = (book.lotAt key lotId).isSome := by
  unfold holdsLot lotAt
  rw [found, Option.bind_some, Std.ExtTreeMap.contains_eq_isSome_getElem?]

/-- A lot's first holder, other than the position named. -/
def FirstBeside (book : Book) (key : Key) (lotId : String) (first : Key) : Prop :=
  first ≠ key ∧ (book.lotAt first lotId).isSome ∧
    ∀ other, compare other first = .lt → other ≠ key → book.lotAt other lotId = none

theorem carriedLot_eq_some :
    book.carriedLot key lotId = some state ↔
      ∃ first, book.FirstBeside key lotId first ∧ book.lotAt first lotId = some state := by
  unfold carriedLot
  constructor
  · intro carried
    obtain ⟨⟨first, position⟩, found, held⟩ := Option.bind_eq_some_iff.mp carried
    obtain ⟨at', holds, least⟩ := BTreeMap.find?_eq_some.mp found
    rw [Bool.and_eq_true, decide_eq_true_eq, holdsLot_iff at'] at holds
    refine ⟨first, ⟨holds.1, holds.2, ?_⟩, lotAt_eq_some.mpr ⟨position, at', held⟩⟩
    intro other below apart
    cases found' : book.positions[other]? with
    | none => simp [lotAt, found']
    | some beside =>
      have none' := least other beside below found'
      rw [holdsLot_iff found'] at none'
      simpa [apart] using none'
  · rintro ⟨first, ⟨apart, -, least⟩, held⟩
    obtain ⟨position, found, lot⟩ := lotAt_eq_some.mp held
    refine Option.bind_eq_some_iff.mpr ⟨(first, position), BTreeMap.find?_eq_some.mpr ⟨found, ?_, ?_⟩, lot⟩
    · rw [Bool.and_eq_true, decide_eq_true_eq, holdsLot_iff found, held]
      exact ⟨apart, rfl⟩
    · intro other beside below found'
      rw [holdsLot_iff found']
      by_cases same : other = key
      · simp [same]
      · simp [least other below same]

theorem carriedLot_eq_none :
    book.carriedLot key lotId = none ↔ ∀ other, other ≠ key → book.lotAt other lotId = none := by
  constructor
  · intro carried other apart
    cases held : book.lotAt other lotId with
    | none => rfl
    | some state =>
      obtain ⟨position, found, lot⟩ := lotAt_eq_some.mp held
      unfold carriedLot at carried
      cases result : book.positions.find? fun held position => held ≠ key && holdsLot lotId held position with
      | none =>
        have nowhere := BTreeMap.find?_eq_none.mp result other position found
        rw [holdsLot_iff found, held] at nowhere
        simp [apart] at nowhere
      | some entry =>
        obtain ⟨first, position'⟩ := entry
        obtain ⟨at', holds, -⟩ := BTreeMap.find?_eq_some.mp result
        rw [Bool.and_eq_true, holdsLot_iff at'] at holds
        obtain ⟨state', held'⟩ := Option.isSome_iff_exists.mp holds.2
        obtain ⟨position'', found'', lot'⟩ := lotAt_eq_some.mp held'
        rw [at'] at found''
        obtain rfl := Option.some.inj found''
        rw [result, Option.bind_some, lot'] at carried
        cases carried
  · intro nowhere
    cases carried : book.carriedLot key lotId with
    | none => rfl
    | some state =>
      obtain ⟨first, ⟨apart, holds, -⟩, -⟩ := carriedLot_eq_some.mp carried
      rw [nowhere first apart] at holds
      cases holds

theorem lotOwner_eq_some :
    book.lotOwner lotId = some key ↔
      (book.lotAt key lotId).isSome ∧ ∀ other, compare other key = .lt → book.lotAt other lotId = none := by
  unfold lotOwner
  constructor
  · intro owner
    obtain ⟨⟨first, position⟩, found, same⟩ := Option.map_eq_some_iff.mp owner
    obtain rfl : first = key := same
    obtain ⟨at', holds, least⟩ := BTreeMap.find?_eq_some.mp found
    refine ⟨(holdsLot_iff at').symm.trans holds, fun other below => ?_⟩
    cases found' : book.positions[other]? with
    | none => simp [lotAt, found']
    | some beside =>
      have none' := least other beside below found'
      rw [holdsLot_iff found'] at none'
      simpa using none'
  · rintro ⟨holds, least⟩
    obtain ⟨state, held⟩ := Option.isSome_iff_exists.mp holds
    obtain ⟨position, found, lot⟩ := lotAt_eq_some.mp held
    refine Option.map_eq_some_iff.mpr ⟨(key, position), BTreeMap.find?_eq_some.mpr ⟨found, ?_, ?_⟩, rfl⟩
    · exact (holdsLot_iff found).trans holds
    · intro other beside below found'
      rw [holdsLot_iff found', least other below]
      rfl

/-- A book's lots read alike are found alike. -/
theorem carriedLot_congr (same : ∀ key, after.lotAt key lotId = book.lotAt key lotId) :
    after.carriedLot key lotId = book.carriedLot key lotId := by
  apply Option.ext
  intro state
  simp only [carriedLot_eq_some, FirstBeside, same]

end

/-- What a lot holds, whatever its record says beside. -/
def LotState.held (state : LotState) : String × Exact := (state.lot.lotId, state.lot.openQuantity)

/-- What a position holds: its buckets, and its lots. -/
structure Holding where
  side : HoldingSide
  settled : Exact
  pending : BTreeMap String (Exact × Option PendingState)
  notStated : Exact
  removed : Bool
  lots : String → Option (String × Exact)

def holdingOf (position : PositionState) : Holding where
  side := position.side
  settled := position.settled
  pending := position.pending
  notStated := position.notStated
  removed := position.removed
  lots := fun lotId => (position.lots[lotId]?).map LotState.held

/-- What every position of the book holds. -/
def holdings (book : Book) (key : Key) : Option Holding := (book.positions[key]?).map holdingOf

theorem lotAt_held (book : Book) (key : Key) (lotId : String) :
    (book.lotAt key lotId).map LotState.held = (book.holdings key).bind fun holding => holding.lots lotId := by
  unfold lotAt holdings
  cases book.positions[key]? <;> rfl

theorem lotAt_held_congr {book after : Book} (same : after.holdings = book.holdings) (key : Key) (lotId : String) :
    (after.lotAt key lotId).map LotState.held = (book.lotAt key lotId).map LotState.held := by
  rw [lotAt_held, lotAt_held, same]

theorem holdings_setPosition (book : Book) (key : Key) (position : PositionState) :
    (book.setPosition key position).holdings = Function.update book.holdings key (some (holdingOf position)) := by
  funext other
  unfold holdings setPosition
  rw [Std.ExtTreeMap.getElem?_insert]
  by_cases same : key = other
  · subst same
    simp
  · simp [same, Ne.symm same]

/-- A position changed to one that holds the same leaves every holding as it was. -/
theorem holdings_setPosition_same {book : Book} {key : Key} {before position : PositionState}
    (found : book.positions[key]? = some before) (same : holdingOf position = holdingOf before) :
    (book.setPosition key position).holdings = book.holdings := by
  rw [holdings_setPosition, same]
  refine Function.update_eq_iff.mpr ⟨?_, fun _ _ => rfl⟩
  rw [holdings, found]
  rfl

theorem holdings_modify {book : Book} {key : Key} {change : PositionState → PositionState}
    (same : ∀ position, holdingOf (change position) = holdingOf position) :
    { book with positions := book.positions.modify key change : Book }.holdings = book.holdings := by
  funext other
  unfold holdings
  rw [Std.ExtTreeMap.getElem?_modify]
  by_cases here : key = other
  · subst here
    simp only [Std.compare_self, if_true]
    cases book.positions[key]? with
    | none => rfl
    | some position => exact congrArg some (same position)
  · simp [here]

theorem holdings_onLot (book : Book) (lotId : String) {change : Lot → Lot}
    (keeps : ∀ lot, (change lot).lotId = lot.lotId ∧ (change lot).openQuantity = lot.openQuantity) :
    (book.onLot lotId change).holdings = book.holdings := by
  unfold onLot
  split
  · refine holdings_modify fun position => ?_
    unfold holdingOf
    congr 1
    funext other
    rw [Std.ExtTreeMap.getElem?_modify]
    by_cases here : lotId = other
    · subst here
      simp only [Std.compare_self, if_true]
      cases position.lots[lotId]? with
      | none => rfl
      | some state => simp [LotState.held, keeps]
    · simp [here]
  · rfl

theorem holdings_foldl {α : Type} {change : Book → α → Book} (entries : List α)
    (keeps : ∀ book, ∀ entry ∈ entries, (change book entry).holdings = book.holdings) (book : Book) :
    (entries.foldl change book).holdings = book.holdings := by
  induction entries generalizing book with
  | nil => rfl
  | cons entry rest ih =>
    rw [List.foldl_cons, ih fun book entry member => keeps book entry (List.mem_cons_of_mem _ member),
      keeps book entry List.mem_cons_self]

theorem holdings_markAwaited (process : Process) (book : Book) (body : Body) :
    (book.markAwaited process body).holdings = book.holdings := by
  unfold markAwaited
  have cleared : ((body.acts.flatMap clearedBy).foldl
      (fun held lotId => held.onLot lotId fun lot => { lot with factorMonthAwaited := "" }) book).holdings =
      book.holdings := by
    refine holdings_foldl _ (fun book lotId _ => ?_) book
    exact holdings_onLot book lotId fun _ => ⟨rfl, rfl⟩
  rw [holdings_foldl _ (fun book mark _ => ?_), cleared]
  refine holdings_foldl _ (fun book line _ => ?_) book
  split
  · exact holdings_onLot book line.lotId fun _ => ⟨rfl, rfl⟩
  · rfl

/-- A basis adjustment moves nothing. -/
theorem holdings_adjustBasis {refs : List (Key × JournalRef)} {body : Body} {lenient : Bool} {book after : Book}
    {adjustment : BasisAdjustment} (adjusted : adjustBasis refs body lenient book adjustment = .ok after) :
    after.holdings = book.holdings := by
  unfold adjustBasis at adjusted
  split at adjusted
  · split at adjusted
    · cases adjusted
      rfl
    · cases adjusted
  · split at adjusted
    · cases adjusted
      rfl
    next position found =>
    split at adjusted
    · cases adjusted
      rfl
    next state lot =>
    obtain ⟨terms, -, adjusted⟩ := bind_ok.mp adjusted
    cases adjusted
    refine holdings_setPosition_same found ?_
    unfold holdingOf
    congr 1
    funext other
    rw [Std.ExtTreeMap.getElem?_insert]
    by_cases here : adjustment.lotId = other
    · subst here
      simp [lot, LotState.held]
    · simp [here]

theorem holdings_encumber (refs : List (Key × JournalRef)) (book : Book)
    (named : String × HoldingSide × List Encumbrance) : (encumber refs book named).holdings = book.holdings :=
  holdings_modify fun _ => rfl

theorem holdings_openFrom (sources : List OpeningSource) (book : Book) (key : Key) :
    (openFrom sources book key).holdings = book.holdings :=
  holdings_modify fun _ => rfl

/-- After an entry's lines, nothing of it moves what a position holds. -/
theorem holdings_applyPositions {process : Process} {book after : Book} {entry : Entry} {refs : Refs} {lenient : Bool}
    (applied : applyPositions process book entry refs lenient = .ok after) :
    ∃ moved, entry.body.lines.foldlM (applyLine process refs.positions
        (salesOf entry.body entry.entryMeta.effectiveDate book.accountId book.ledger) entry.firstSequence lenient) book =
        .ok moved ∧ after.holdings = moved.holdings := by
  unfold applyPositions at applied
  obtain ⟨moved, lines, applied⟩ := bind_ok.mp applied
  obtain ⟨adjusted, bases, applied⟩ := bind_ok.mp applied
  refine ⟨moved, lines, ?_⟩
  have onBases : adjusted.holdings = (moved.markAwaited process entry.body).holdings :=
    foldlM_keeps (fun _ _ _ held adjusted => (holdings_adjustBasis adjusted).trans held) _ rfl bases
  have encumbered := holdings_foldl entry.body.encumbrances
    (fun book named _ => holdings_encumber refs.positions book named) adjusted
  have whole := encumbered.trans (onBases.trans (holdings_markAwaited process moved entry.body))
  cases applied
  split
  · exact whole
  · exact (holdings_foldl _ (fun book key _ => holdings_openFrom entry.body.sources book key) _).trans whole

/-- What a line does to the lots: none named, one opened, or one moved. -/
inductive LineLots (book after : Book) (line : MovementLine) (quantity : Exact) : Prop where
  | unnamed (none' : line.lotId = "") (same : ∀ key lotId, after.lotAt key lotId = book.lotAt key lotId)
  | opened {now : LotState} (named : line.lotId ≠ "") (opens : line.opensLot.isSome)
      (held : after.lotAt (lineKey line) line.lotId = some now)
      (carries : ∀ source, book.carriedLot (lineKey line) line.lotId = some source →
        ∃ ordinal, now = { source with lot.openQuantity := quantity, ordinal })
      (mints : book.carriedLot (lineKey line) line.lotId = none →
        now.lot.lotId = line.lotId ∧ now.lot.openQuantity = quantity ∧
          book.lotAt (lineKey line) line.lotId = none)
  | moved {before now : LotState} {reference : JournalRef} {sequence : Nat} {sale : Option Sale}
      (named : line.lotId ≠ "") (opens : line.opensLot = none)
      (found : book.lotAt (lineKey line) line.lotId = some before)
      (moves : moveLot before quantity reference sequence sale = .ok now)
      (held : after.lotAt (lineKey line) line.lotId = some now)

section
variable {process : Process} {refs : List (Key × JournalRef)} {sales : List Sale} {sequence : Nat}
  {book after : Book} {line : MovementLine}

theorem addToBucket_lots {position bucketed : PositionState} {quantity : Exact}
    (added : position.addToBucket line quantity = .ok bucketed) :
    bucketed.lots = position.lots ∧ bucketed.openedLots = position.openedLots ∧
      bucketed.removed = position.removed ∧ bucketed.side = position.side := by
  unfold PositionState.addToBucket at added
  split at added
  · obtain ⟨settled, -, added⟩ := bind_ok.mp added
    cases added
    exact ⟨rfl, rfl, rfl, rfl⟩
  · obtain ⟨sum, -, added⟩ := bind_ok.mp added
    cases added
    exact ⟨rfl, rfl, rfl, rfl⟩
  · obtain ⟨notStated, -, added⟩ := bind_ok.mp added
    cases added
    exact ⟨rfl, rfl, rfl, rfl⟩
  · cases added

/-- A lot opened or moved neither removes a position nor brings one back. -/
theorem applyLot_removed {position moved : PositionState} {quantity : Exact} {carried : Option LotState}
    {reference : JournalRef} {lenient : Bool} {sale : Option Sale}
    (applied : applyLot position line quantity carried reference sequence lenient sale = .ok moved) :
    moved.removed = position.removed := by
  unfold applyLot at applied
  split at applied
  · split at applied
    · cases applied
    · split at applied
      · cases applied
      · cases applied
        rfl
  · split at applied
    · cases applied
      rfl
    · simp only at applied
      split at applied
      · obtain ⟨now, -, applied⟩ := bind_ok.mp applied
        cases applied
        rfl
      · cases applied

/-- A line reads its quantity, and moves its own position alone. -/
theorem applyLine_position (applied : applyLine process refs sales sequence false book line = .ok after) :
    ∃ quantity bucketed position,
      numbers.required s!"the line on {line.instrumentId}'s quantity" line.quantity = .ok quantity ∧
      bucketed.lots = ((book.positions[lineKey line]?).getD (PositionState.new (lineKey line))).lots ∧
      applyLot bucketed line quantity
        (if line.opensLot.isSome ∧ line.lotId ≠ "" then book.carriedLot (lineKey line) line.lotId else none)
        (refAt refs (lineKey line)) sequence false (saleOf process sales line) = .ok position ∧
      after = book.setPosition (lineKey line) position := by
  unfold applyLine at applied
  obtain ⟨quantity, read, applied⟩ := bind_ok.mp applied
  obtain ⟨bucketed, added, applied⟩ := bind_ok.mp applied
  obtain ⟨position, lots, applied⟩ := bind_ok.mp applied
  cases applied
  exact ⟨quantity, bucketed, position, read, (addToBucket_lots added).1, lots, rfl⟩

theorem positions_applyLine_of_ne (applied : applyLine process refs sales sequence false book line = .ok after)
    {key : Key} (other : key ≠ lineKey line) : after.positions[key]? = book.positions[key]? := by
  obtain ⟨quantity, bucketed, position, -, -, -, rfl⟩ := applyLine_position applied
  unfold setPosition
  rw [Std.ExtTreeMap.getElem?_insert]
  simp [Ne.symm other]

theorem lots_getD (book : Book) (key : Key) (lotId : String) :
    ((book.positions[key]?).getD (PositionState.new key)).lots[lotId]? = book.lotAt key lotId := by
  unfold lotAt
  cases book.positions[key]? with
  | none => simp [PositionState.new]
  | some position => rfl

/-- What one line does to the lots, strictly applied. -/
theorem lineLots (applied : applyLine process refs sales sequence false book line = .ok after) :
    ∃ quantity, numbers.required s!"the line on {line.instrumentId}'s quantity" line.quantity = .ok quantity ∧
      LineLots book after line quantity ∧
      ∀ key lotId, ¬ (key = lineKey line ∧ lotId = line.lotId) → after.lotAt key lotId = book.lotAt key lotId := by
  obtain ⟨quantity, bucketed, position, read, lots, moved, rfl⟩ := applyLine_position applied
  refine ⟨quantity, read, ?_⟩
  have held (lotId : String) : bucketed.lots[lotId]? = book.lotAt (lineKey line) lotId := by
    rw [lots, lots_getD]
  have beside {lotsAfter : BTreeMap String LotState} (sameLots : position.lots = lotsAfter)
      (same : ∀ lotId, lotId ≠ line.lotId → lotsAfter[lotId]? = bucketed.lots[lotId]?) (key : Key) (lotId : String)
      (apart : ¬ (key = lineKey line ∧ lotId = line.lotId)) :
      (book.setPosition (lineKey line) position).lotAt key lotId = book.lotAt key lotId := by
    rw [lotAt_setPosition]
    split
    next here =>
      subst here
      rw [sameLots, same lotId fun named => apart ⟨rfl, named⟩, held]
    · rfl
  have insertBeside (state : LotState) (lotId : String) (apart : lotId ≠ line.lotId) :
      (bucketed.lots.insert line.lotId state)[lotId]? = bucketed.lots[lotId]? := by
    rw [Std.ExtTreeMap.getElem?_insert]
    simp [Ne.symm apart]
  unfold applyLot at moved
  cases opens : line.opensLot with
  | some terms =>
    simp only [opens] at moved
    split at moved
    · cases moved
    next named =>
    have carried : (if (some terms).isSome = true ∧ line.lotId ≠ "" then book.carriedLot (lineKey line) line.lotId
        else none) = book.carriedLot (lineKey line) line.lotId := if_pos ⟨rfl, named⟩
    rw [carried] at moved
    split at moved
    · cases moved
    next fresh =>
    cases moved
    refine ⟨.opened named (by rw [opens]; rfl) (by rw [lotAt_setPosition, if_pos rfl, Std.ExtTreeMap.getElem?_insert_self])
      ?_ ?_, beside rfl (insertBeside _)⟩
    · intro source carries
      exact ⟨bucketed.openedLots + 1, by simp only [openedLot, carries]⟩
    · intro nowhere
      rw [nowhere, Std.ExtTreeMap.contains_eq_isSome_getElem?, held] at fresh
      have absent : book.lotAt (lineKey line) line.lotId = none := by simpa using fresh
      simp only [openedLot, nowhere, absent, and_self]
  | none =>
    simp only [opens] at moved
    split at moved
    next unnamed =>
      cases moved
      have same : ∀ key lotId, (book.setPosition (lineKey line) bucketed).lotAt key lotId = book.lotAt key lotId := by
        intro key lotId
        rw [lotAt_setPosition]
        split
        next here => rw [held, here]
        · rfl
      exact ⟨.unnamed unnamed same, fun key lotId _ => same key lotId⟩
    next named =>
    cases found : bucketed.lots[line.lotId]? with
    | none => simp [found] at moved
    | some before =>
      simp only [found] at moved
      obtain ⟨now, moves, moved⟩ := bind_ok.mp moved
      cases moved
      refine ⟨.moved named opens ((held _).symm.trans found) moves ?_, beside rfl (insertBeside _)⟩
      rw [lotAt_setPosition, if_pos rfl, Std.ExtTreeMap.getElem?_insert_self]

theorem recordRelief_keeps {lot recorded : Lot} {reference : JournalRef} {relieved : Exact} {sale : Option Sale}
    (done : recordRelief lot reference relieved sale = .ok recorded) :
    recorded.lotId = lot.lotId ∧ recorded.openQuantity = lot.openQuantity := by
  unfold recordRelief at done
  simp only at done
  split at done
  · obtain ⟨total, -, done⟩ := bind_ok.mp done
    obtain ⟨proceeds, -, done⟩ := bind_ok.mp done
    cases done
    exact ⟨rfl, rfl⟩
  · obtain ⟨proceeds, -, done⟩ := bind_ok.mp done
    cases done
    exact ⟨rfl, rfl⟩

/-- A lot moved keeps its identifier, and is open by so much more. -/
theorem moveLot_ok {before now : LotState} {quantity : Exact} {reference : JournalRef} {sequence : Nat}
    {sale : Option Sale} (moves : moveLot before quantity reference sequence sale = .ok now) :
    now.lot.lotId = before.lot.lotId ∧
      now.lot.openQuantity.units = before.lot.openQuantity.units + quantity.units := by
  unfold moveLot at moves
  obtain ⟨sum, added, moves⟩ := bind_ok.mp moves
  have units := add_ok added
  simp only at moves
  split at moves
  · obtain ⟨original, -, moves⟩ := bind_ok.mp moves
    cases moves
    exact ⟨rfl, units⟩
  · split at moves
    · obtain ⟨difference, -, moves⟩ := bind_ok.mp moves
      obtain ⟨lot, recorded, moves⟩ := bind_ok.mp moves
      cases moves
      obtain ⟨sameId, sameOpen⟩ := recordRelief_keeps recorded
      refine ⟨sameId, ?_⟩
      rw [sameOpen]
      exact units
    · cases moves
      exact ⟨rfl, units⟩

/-- Lines that do not name a lot of a position leave it as it is. -/
theorem lotAt_lines {lines : List MovementLine}
    (applied : lines.foldlM (applyLine process refs sales sequence false) book = .ok after) {key : Key} {lotId : String}
    (unnamed : ∀ line ∈ lines, ¬ (lineKey line = key ∧ line.lotId = lotId)) :
    after.lotAt key lotId = book.lotAt key lotId := by
  induction lines generalizing book with
  | nil =>
    cases applied
    rfl
  | cons line rest ih =>
    rw [List.foldlM_cons] at applied
    obtain ⟨next, moved, applied⟩ := bind_ok.mp applied
    obtain ⟨quantity, -, -, beside⟩ := lineLots moved
    rw [ih applied fun other member => unnamed other (List.mem_cons_of_mem _ member)]
    exact beside key lotId fun named => unnamed line List.mem_cons_self ⟨named.1.symm, named.2.symm⟩

theorem positions_lines {lines : List MovementLine}
    (applied : lines.foldlM (applyLine process refs sales sequence false) book = .ok after) {key : Key}
    (unnamed : ∀ line ∈ lines, lineKey line ≠ key) : after.positions[key]? = book.positions[key]? := by
  induction lines generalizing book with
  | nil =>
    cases applied
    rfl
  | cons line rest ih =>
    rw [List.foldlM_cons] at applied
    obtain ⟨next, moved, applied⟩ := bind_ok.mp applied
    rw [ih applied fun other member => unnamed other (List.mem_cons_of_mem _ member)]
    exact positions_applyLine_of_ne moved (Ne.symm (unnamed line List.mem_cons_self))

/-- A line's quantity, as it moves a lot; nothing where it states none. -/
def lineUnits (line : MovementLine) : Int := ((readExact line.quantity).map Exact.units).getD 0

theorem lineUnits_of_read {field : String} {line : MovementLine} {quantity : Exact}
    (read : numbers.required field line.quantity = .ok quantity) : lineUnits line = quantity.units := by
  rw [lineUnits, required_read read]
  rfl

/-- What the lines naming a lot of a position move it by. -/
def namedUnits (lines : List MovementLine) (key : Key) (lotId : String) : Int :=
  ((lines.filter fun line => lineKey line = key ∧ line.lotId = lotId).map lineUnits).sum

/-- How much of a lot a position holds open; nothing where it never held it. -/
def openAt (book : Book) (key : Key) (lotId : String) : Int :=
  ((book.lotAt key lotId).map fun state => state.lot.openQuantity.units).getD 0

theorem openAt_of_lotAt {state : LotState} {key : Key} {lotId : String} (held : book.lotAt key lotId = some state) :
    book.openAt key lotId = state.lot.openQuantity.units := by
  unfold openAt
  rw [held]
  rfl

/-- Lines that open no lot under an identifier move what each position holds of it by what they say. -/
theorem openAt_lines {lines : List MovementLine}
    (applied : lines.foldlM (applyLine process refs sales sequence false) book = .ok after) {key : Key} {lotId : String}
    (named : lotId ≠ "") (opens : ∀ line ∈ lines, line.opensLot.isSome → ¬ (lineKey line = key ∧ line.lotId = lotId)) :
    after.openAt key lotId = book.openAt key lotId + namedUnits lines key lotId := by
  induction lines generalizing book with
  | nil =>
    cases applied
    simp [namedUnits]
  | cons line rest ih =>
    rw [List.foldlM_cons] at applied
    obtain ⟨next, moved, applied⟩ := bind_ok.mp applied
    rw [ih applied fun other member => opens other (List.mem_cons_of_mem _ member)]
    obtain ⟨quantity, read, lots, beside⟩ := lineLots moved
    by_cases here : lineKey line = key ∧ line.lotId = lotId
    · obtain ⟨rfl, rfl⟩ := here
      have units : namedUnits (line :: rest) (lineKey line) line.lotId =
          quantity.units + namedUnits rest (lineKey line) line.lotId := by
        simp [namedUnits, lineUnits_of_read read]
      cases lots with
      | unnamed none' => exact absurd none' named
      | opened _ opened => exact absurd ⟨rfl, rfl⟩ (opens line List.mem_cons_self opened)
      | moved _ _ found moves held =>
        rw [openAt_of_lotAt held, openAt_of_lotAt found, (moveLot_ok moves).2, units, Int.add_assoc]
    · have same : next.openAt key lotId = book.openAt key lotId := by
        unfold openAt
        rw [beside key lotId fun there => here ⟨there.1.symm, there.2.symm⟩]
      rw [same]
      simp [namedUnits, here]

end

section
variable {process : Process} {book after : Book} {entry : Entry}

/-- Recording the positions an entry changed leaves their lots as they are. -/
theorem lotAt_recordPosition {previous : List (Key × Exact)} {rows rowsAfter : List (BookPosition × Exact)}
    {row : Key × JournalRef} (recorded : recordPosition entry previous (book, rows) row = .ok (after, rowsAfter))
    (key : Key) (lotId : String) : after.lotAt key lotId = book.lotAt key lotId := by
  unfold recordPosition at recorded
  obtain ⟨record, -, recorded⟩ := bind_ok.mp recorded
  cases recorded
  rw [lotAt_setPosition]
  split
  next here =>
    subst here
    exact lots_getD book row.1 lotId
  · rfl

theorem lotAt_recordPositions {previous : List (Key × Exact)} {rows rowsAfter : List (BookPosition × Exact)}
    {keys : List (Key × JournalRef)}
    (recorded : keys.foldlM (recordPosition entry previous) (book, rows) = .ok (after, rowsAfter))
    (key : Key) (lotId : String) : after.lotAt key lotId = book.lotAt key lotId := by
  induction keys generalizing book rows with
  | nil =>
    cases recorded
    rfl
  | cons row rest ih =>
    rw [List.foldlM_cons] at recorded
    obtain ⟨⟨next, nextRows⟩, stepped, recorded⟩ := bind_ok.mp recorded
    exact (ih recorded).trans (lotAt_recordPosition stepped key lotId)

/-- An entry's acts change nothing but orders. -/
theorem onlyLedger_applyActs {refs : Refs} {changes changed : Changes}
    (applied : book.applyActs entry changes refs = .ok (after, changed)) : after = { book with ledger := after.ledger } := by
  unfold applyActs at applied
  split at applied
  · cases applied
    rfl
  · obtain ⟨-, -, applied⟩ := bind_ok.mp applied
    obtain ⟨-, -, applied⟩ := bind_ok.mp applied
    obtain ⟨orders, -, applied⟩ := bind_ok.mp applied
    obtain ⟨placements, -, applied⟩ := bind_ok.mp applied
    obtain ⟨locates, -, applied⟩ := bind_ok.mp applied
    obtain ⟨bookings, -, applied⟩ := bind_ok.mp applied
    cases applied
    rfl

/-- After the positions it changed are recorded, an entry moves none. -/
theorem Phases.recorded_positions {lenient : Bool} {changes : Changes}
    (phases : Phases process book entry lenient after changes) : after.positions = phases.recorded.positions := by
  have acts := congrArg Book.positions (onlyLedger_applyActs phases.acts)
  exact (congrArg Book.positions phases.closed).trans acts

theorem lotAt_of_positions {other : Book} (same : other.positions = book.positions) (key : Key) (lotId : String) :
    other.lotAt key lotId = book.lotAt key lotId := by
  unfold lotAt
  rw [same]

/-- What an entry applied did to the lots: its lines, and then nothing that moves one. -/
theorem lines_of_applied {changes : Changes} (applied : book.apply process entry false = .ok (after, changes)) :
    ∃ refs sales moved, entry.body.lines.foldlM (applyLine process refs sales entry.firstSequence false)
        { book with chains := (book.number entry).2.last } = .ok moved ∧
      (∀ key lotId, (after.lotAt key lotId).map LotState.held = (moved.lotAt key lotId).map LotState.held) := by
  obtain ⟨phases⟩ := phases applied
  obtain ⟨moved, lines, same⟩ := holdings_applyPositions phases.moves
  refine ⟨_, _, moved, lines, fun key lotId => ?_⟩
  rw [lotAt_of_positions phases.recorded_positions, lotAt_recordPositions phases.records]
  exact lotAt_held_congr same key lotId

end

/-- The positions an entry changes: those its lines are on, those whose lots it adjusts, those it removes and those it
sets the encumbrances of. -/
theorem mem_touched {book : Book} {body : Body} {key : Key} :
    key ∈ book.touched body ↔
      key ∈ body.lines.map lineKey ++
        body.basisAdjustments.filterMap (fun adjustment => book.lotOwner adjustment.lotId) ++
        body.tombstones.map (fun (instrument, side) => ⟨instrument, side, ""⟩) ++
        body.encumbrances.map (fun (instrument, side, _) => ⟨instrument, side, ""⟩) := by
  have gather (keys : List Key) (set : BTreeSet Key) :
      key ∈ keys.foldl (fun set key => set.insert key) set ↔ key ∈ keys ∨ key ∈ set := by
    induction keys generalizing set with
    | nil => simp
    | cons first rest ih =>
      rw [List.foldl_cons, ih, List.mem_cons, Std.ExtTreeSet.mem_insert, Std.compare_eq_iff_eq]
      constructor
      · rintro (later | rfl | inSet)
        · exact .inl (.inr later)
        · exact .inl (.inl rfl)
        · exact .inr inSet
      · rintro ((rfl | later) | inSet)
        · exact .inr (.inl rfl)
        · exact .inl later
        · exact .inr (.inr inSet)
  unfold touched
  dsimp only
  rw [Std.ExtTreeSet.mem_toList, gather]
  simp

end Book

end MeridianCore.Bor
