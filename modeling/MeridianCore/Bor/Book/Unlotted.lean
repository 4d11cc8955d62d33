import MeridianCore.Bor.Book.Buckets
import MeridianCore.Bor.Book.Followed
import MeridianCore.Bor.Book.LotsBalance

/-! An entry of lines of no lot, all on one position: when it is made, and what it leaves. -/

namespace MeridianCore.Bor

/-- What a position holds on its trade date: settled, not stated, and pending to every date. -/
def PositionState.tradeUnits (position : PositionState) : Int :=
  position.settled.units + position.notStated.units + BTreeMap.sum position.pending fun held => held.1.units

/-- A position the book lets stand after an entry of a trade that moves none of its lots: on its side, unless it
is the base currency's or holds no lot; no lot of it on the other side; and its open lots, unless it is the
base currency's, its quantity. -/
structure PositionState.Stands (base : Bool) (position : PositionState) : Prop where
  sided : base = true ∨ position.lots.isEmpty = true ∨
    if position.side = .long then 0 ≤ position.tradeUnits else position.tradeUnits ≤ 0
  lots : position.OnSide
  balanced : base = false → position.hasOpenLots = true →
    ∃ lots, position.openLots = .ok lots ∧ lots.units = position.tradeUnits

namespace PositionState

variable {position : PositionState}

theorem tradeUnits_of_tradeDate {trade : Exact} (traded : position.tradeDate = .ok trade) :
    trade.units = position.tradeUnits := by
  unfold tradeDate at traded
  obtain ⟨total, first, traded⟩ := bind_ok.mp traded
  have adds (total : Exact) (held : Exact × Option PendingState) (after : Exact)
      (added : numbers.add "trade_date_quantity" total held.1 = .ok after) : after.units = total.units + held.1.units :=
    add_ok added
  rw [foldlM_adds adds _ traded, add_ok first, tradeUnits, BTreeMap.sum, List.map_map]
  rfl

end PositionState

namespace Book

variable {process : Process} {book : Book} {body : Body} {key : Key} {position : PositionState}

theorem onItsSide_iff {side : HoldingSide} {value : Exact} :
    onItsSide side value = true ↔ if side = .long then 0 ≤ value.units else value.units ≤ 0 := by
  unfold onItsSide
  split
  · rw [Bool.not_eq_true', ← Bool.not_eq_true, Exact.isNegative_iff]
    exact not_lt
  · rw [Bool.not_eq_true', ← Bool.not_eq_true, Exact.isNegative_iff, Exact.units_negated]
    omega

/-- No lot is on the other side where none found is. -/
theorem onSide_iff :
    (position.lots.toList.map Prod.snd).find? (fun state => !onItsSide position.side state.lot.openQuantity) = none ↔
      position.OnSide := by
  rw [List.find?_eq_none]
  constructor
  · intro all lotId state held
    have member : state ∈ position.lots.toList.map Prod.snd :=
      List.mem_map.mpr ⟨(lotId, state), BTreeMap.mem_toList.mpr held, rfl⟩
    have side := all state member
    rw [Bool.not_eq_true, Bool.not_eq_false'] at side
    exact .inr side
  · intro all state member
    obtain ⟨⟨lotId, held⟩, among, rfl⟩ := List.mem_map.mp member
    rw [Bool.not_eq_true, Bool.not_eq_false']
    rcases all lotId held (BTreeMap.mem_toList.mp among) with zero | side
    · rw [onItsSide_iff, zero]
      split <;> exact le_refl 0
    · exact side

/-- What the book checks of a position none of whose lots an entry of a trade moves. -/
theorem checkPosition_iff (found : book.positions[key]? = some position) (standing : position.removed = false)
    (trades : body.trade = true) (unlotted : key ∉ lotLines body) {trade : Exact} (traded : position.tradeDate = .ok trade) :
    book.checkPosition process body key = .ok () ↔ position.Stands (book.isBase process key.instrument) := by
  have units := PositionState.tradeUnits_of_tradeDate traded
  have sided : (¬ onItsSide position.side trade = true ∧
      ¬ ((body.trade && position.lots.isEmpty && key ∉ lotLines body) || book.isBase process key.instrument) = true) ↔
        ¬ (book.isBase process key.instrument = true ∨ position.lots.isEmpty = true ∨
          if position.side = .long then 0 ≤ position.tradeUnits else position.tradeUnits ≤ 0) := by
    rw [onItsSide_iff, units, trades, Bool.true_and, decide_eq_true unlotted, Bool.and_true, Bool.or_eq_true]
    tauto
  unfold checkPosition
  simp only [found, standing, Bool.false_eq_true, if_false, traded]
  constructor
  · intro checked
    obtain ⟨again, same, checked⟩ := bind_ok.mp checked
    cases same
    obtain ⟨side, checked⟩ := guard_ok.mp checked
    split at checked
    · cases checked
    next none' =>
    refine ⟨not_not.mp (mt sided.mpr side), onSide_iff.mp none', fun notBase opened => ?_⟩
    rw [if_pos ⟨by rw [notBase]; decide, .inl opened⟩] at checked
    obtain ⟨sum, summed, checked⟩ := bind_ok.mp checked
    refine ⟨sum, summed, ?_⟩
    by_contra differ
    rw [if_pos (by rw [Exact.equals_iff, units]; exact differ)] at checked
    cases checked
  · intro stands
    refine bind_ok.mpr ⟨trade, rfl, guard_ok.mpr ⟨mt sided.mp (not_not.mpr stands.sided), ?_⟩⟩
    rw [onSide_iff.mpr stands.lots]
    dsimp only
    by_cases lotted : ¬ book.isBase process key.instrument = true ∧
        (position.hasOpenLots = true ∨ key ∈ lotLines body)
    · obtain ⟨notBase, opened⟩ := lotted
      obtain ⟨sum, summed, balanced⟩ := stands.balanced (Bool.not_eq_true _ ▸ notBase) (opened.resolve_right unlotted)
      rw [if_pos ⟨notBase, opened⟩, summed]
      change (if ¬ sum.equals trade = true then _ else _) = _
      rw [if_neg (by rw [Exact.equals_iff, units, balanced]; exact not_not.mpr rfl)]
      rfl
    · rw [if_neg lotted]
      rfl

end Book

namespace PositionState

/-- A position back on the account's book, where it was removed. -/
def restored (position : PositionState) : PositionState := { position with removed := false }

@[simp] theorem lots_restored (position : PositionState) : position.restored.lots = position.lots := rfl

@[simp] theorem tradeUnits_restored (position : PositionState) : position.restored.tradeUnits = position.tradeUnits := rfl

/-- One more line of no lot taken into its bucket. -/
def take (position : PositionState) (line : MovementLine) : Result PositionState := do
  position.addToBucket line (← numbers.required s!"the line on {line.instrumentId}'s quantity" line.quantity)

variable {position moved : PositionState} {line : MovementLine} {lines : List MovementLine}

/-- What is pending once one date's is set, or taken off where it is nothing. -/
theorem sum_pending (pending : BTreeMap String (Exact × Option PendingState)) (date : String) (sum : Exact)
    (state : Option PendingState) :
    BTreeMap.sum (if sum.isZero = true then pending.erase date else pending.insert date (sum, state))
        (fun held => held.1.units) = sum.units + BTreeMap.sum (pending.erase date) fun held => held.1.units := by
  split
  · next zero => rw [(Exact.isZero_iff sum).mp zero, Int.zero_add]
  · rw [BTreeMap.sum_insert]

/-- A line of no lot changes a bucket, and its quantity the trade date's. -/
theorem tradeUnits_addToBucket {quantity : Exact} (added : position.addToBucket line quantity = .ok moved) :
    moved.tradeUnits = position.tradeUnits + quantity.units := by
  unfold addToBucket at added
  unfold tradeUnits
  split at added
  · obtain ⟨settled, sum, added⟩ := bind_ok.mp added
    cases added
    dsimp only
    rw [add_ok sum]
    omega
  · obtain ⟨sum, summed, added⟩ := bind_ok.mp added
    cases added
    dsimp only
    have units := add_ok summed
    rw [sum_pending, units]
    cases found : position.pending[line.valueDate]? with
    | none =>
      rw [BTreeMap.toList_erase_of_absent found, Option.getD_none, Exact.units_zero]
      omega
    | some held =>
      have split := BTreeMap.sum_eq_erase found fun held => held.1.units
      rw [split, Option.getD_some]
      omega
  · obtain ⟨notStated, sum, added⟩ := bind_ok.mp added
    cases added
    dsimp only
    rw [add_ok sum]
    omega
  · cases added

theorem take_ok (taken : position.take line = .ok moved) :
    moved.lots = position.lots ∧ moved.side = position.side ∧ moved.removed = position.removed ∧
      moved.tradeUnits = position.tradeUnits + Book.lineUnits line := by
  obtain ⟨quantity, read, added⟩ := bind_ok.mp taken
  obtain ⟨lots, -, removed, side⟩ := Book.addToBucket_lots added
  refine ⟨lots, side, removed, ?_⟩
  rw [tradeUnits_addToBucket added, Book.lineUnits_of_read read]

/-- Lines of no lot leave a position's lots, and their quantities add to the trade date's. -/
theorem takes_ok (taken : lines.foldlM take position = .ok moved) :
    moved.lots = position.lots ∧ moved.side = position.side ∧ moved.removed = position.removed ∧
      moved.tradeUnits = position.tradeUnits + (lines.map Book.lineUnits).sum := by
  induction lines generalizing position with
  | nil =>
    cases taken
    exact ⟨rfl, rfl, rfl, by simp⟩
  | cons line rest ih =>
    rw [List.foldlM_cons] at taken
    obtain ⟨next, first, later⟩ := bind_ok.mp taken
    obtain ⟨lots, side, removed, units⟩ := take_ok first
    obtain ⟨lotsLater, sideLater, removedLater, unitsLater⟩ := ih later
    refine ⟨lotsLater.trans lots, sideLater.trans side, removedLater.trans removed, ?_⟩
    rw [unitsLater, units, List.map_cons, List.sum_cons]
    omega

/-- What the book lets stand it lets stand once lines of no lot that add to nothing are taken. -/
theorem stands_congr {base : Bool} (lots : moved.lots = position.lots) (side : moved.side = position.side)
    (trade : moved.tradeUnits = position.tradeUnits) : moved.Stands base ↔ position.Stands base := by
  have lots' : moved.openLots = position.openLots := by rw [openLots, lots, openLots]
  have has : moved.hasOpenLots = position.hasOpenLots := by rw [hasOpenLots, lots, hasOpenLots]
  have sides : moved.OnSide ↔ position.OnSide := by rw [OnSide, lots, side, OnSide]
  constructor
  · rintro ⟨sided, lotsSide, balanced⟩
    rw [lots, side, trade] at sided
    rw [has, lots', trade] at balanced
    exact ⟨sided, sides.mp lotsSide, balanced⟩
  · rintro ⟨sided, lotsSide, balanced⟩
    rw [← lots, ← side, ← trade] at sided
    rw [← has, ← lots', ← trade] at balanced
    exact ⟨sided, sides.mpr lotsSide, balanced⟩

end PositionState

namespace Book

section Unlotted

variable {process : Process} {refs : List (Key × JournalRef)} {sales : List Sale} {sequence : Nat} {book after : Book}
  {key : Key} {line : MovementLine} {lines : List MovementLine}

/-- Lines of no lot, all on one position. -/
def Unlotted (key : Key) (lines : List MovementLine) : Prop :=
  ∀ line ∈ lines, lineKey line = key ∧ line.lotId = "" ∧ line.opensLot = none

/-- A position of the book, a new one where it has none. -/
def positionAt (book : Book) (key : Key) : PositionState := (book.positions[key]?).getD (PositionState.new key)

theorem positionAt_setPosition (position : PositionState) : (book.setPosition key position).positionAt key = position := by
  unfold positionAt setPosition
  rw [Std.ExtTreeMap.getElem?_insert_self]
  rfl

theorem setPosition_twice (first second : PositionState) :
    (book.setPosition key first).setPosition key second = book.setPosition key second := by
  unfold setPosition
  dsimp only
  congr 1
  refine Std.ExtTreeMap.ext_getElem? fun other => ?_
  rw [Std.ExtTreeMap.getElem?_insert, Std.ExtTreeMap.getElem?_insert, Std.ExtTreeMap.getElem?_insert]
  split <;> rfl

/-- A line of no lot is taken by its position alone. -/
theorem applyLine_unlotted (on : lineKey line = key) (lotId : line.lotId = "") (opens : line.opensLot = none) :
    applyLine process refs sales sequence false book line =
      ((book.positionAt key).restored.take line).map (book.setPosition key) := by
  unfold applyLine PositionState.take
  rw [on]
  cases numbers.required s!"the line on {line.instrumentId}'s quantity" line.quantity with
  | error out => rfl
  | ok quantity =>
    change ((book.positionAt key).restored.addToBucket line quantity >>= fun bucketed => do
      let position ← applyLot bucketed line quantity _ (refAt refs key) sequence false (saleOf process sales line)
      return book.setPosition key position) = Except.map (book.setPosition key)
        ((book.positionAt key).restored.addToBucket line quantity)
    cases (book.positionAt key).restored.addToBucket line quantity with
    | error out => rfl
    | ok bucketed =>
      change (applyLot bucketed line quantity _ (refAt refs key) sequence false (saleOf process sales line) >>= _) = _
      unfold applyLot
      rw [opens, lotId, if_pos rfl]
      rfl

/-- Lines of no lot apply where their position takes them one after another, and leave it as it took them. -/
theorem lines_unlotted (unlotted : Unlotted key lines) (some' : lines ≠ []) :
    lines.foldlM (applyLine process refs sales sequence false) book =
      (lines.foldlM PositionState.take (book.positionAt key).restored).map (book.setPosition key) := by
  induction lines generalizing book with
  | nil => exact absurd rfl some'
  | cons line rest ih =>
    obtain ⟨on, lotId, opens⟩ := unlotted line List.mem_cons_self
    rw [List.foldlM_cons, List.foldlM_cons, applyLine_unlotted on lotId opens]
    cases taken : (book.positionAt key).restored.take line with
    | error out => rfl
    | ok next =>
      change rest.foldlM (applyLine process refs sales sequence false) (book.setPosition key next) =
        (rest.foldlM PositionState.take next).map (book.setPosition key)
      by_cases last : rest = []
      · rw [last]
        rfl
      · have kept : next.restored = next := by
          have removed : next.removed = false := (PositionState.take_ok taken).2.2.1
          unfold PositionState.restored
          rw [← removed]
        rw [ih (fun other member => unlotted other (List.mem_cons_of_mem _ member)) last, positionAt_setPosition, kept]
        cases rest.foldlM PositionState.take next with
        | error out => rfl
        | ok position => exact congrArg Except.ok (setPosition_twice next position)

end Unlotted

section Entry

variable {process : Process} {book after : Book} {entry : Entry} {key : Key} {lines : List MovementLine}
  {event : LifecycleEvent}

/-- An entry of lines of no lot, on one position, and one lifecycle event. -/
structure MovesUnlotted (entry : Entry) (key : Key) (lines : List MovementLine) (event : LifecycleEvent) : Prop where
  body : entry.body = { lines, lifecycleEvents := [event], trade := true }
  unnumbered : entry.lastSequence = 0
  unlotted : Unlotted key lines

theorem touched_unlotted (moves : MovesUnlotted entry key lines event) (some' : lines ≠ []) :
    book.touched entry.body = [key] := by
  have all : ∀ other ∈ book.touched entry.body, other = key := by
    intro other member
    rw [mem_touched, moves.body] at member
    simp only [List.filterMap_nil, List.map_nil, List.append_nil] at member
    obtain ⟨line, held, rfl⟩ := List.mem_map.mp member
    exact (moves.unlotted line held).1
  have held : key ∈ book.touched entry.body := by
    obtain ⟨line, rest, split⟩ := List.exists_cons_of_ne_nil some'
    have first : line ∈ lines := split ▸ List.mem_cons_self
    rw [← (moves.unlotted line first).1]
    refine mem_touched_of_line ?_
    rw [moves.body]
    exact first
  have distinct : (book.touched entry.body).Pairwise fun a b => ¬ compare a b = .eq :=
    Std.ExtTreeSet.distinct_toList
  generalize book.touched entry.body = keys at all held distinct
  match keys with
  | [] => exact absurd held List.not_mem_nil
  | [one] => rw [all one List.mem_cons_self]
  | one :: two :: rest =>
    have apart := (List.pairwise_cons.mp distinct).1 two List.mem_cons_self
    rw [all one List.mem_cons_self, all two (List.mem_cons_of_mem _ List.mem_cons_self)] at apart
    exact absurd Std.compare_self apart

theorem touched_nothing (moves : MovesUnlotted entry key [] event) : book.touched entry.body = [] := by
  rw [moves.body]
  rfl

theorem keys_positions (book : Book) (entry : Entry) :
    (book.number entry).1.positions.map Prod.fst = book.touched entry.body := by
  unfold number refsOf
  dsimp only
  rw [List.map_map]
  exact Chained.Counter.each_map_fst _ _ _

theorem events_numbered (book : Book) (entry : Entry) :
    (book.number entry).1.lifecycleEvents.map Prod.fst = entry.body.lifecycleEvents := by
  unfold number refsOf
  dsimp only
  rw [List.map_map]
  exact Chained.Counter.each_map_fst _ _ _

/-- Its lines are all such an entry moves. -/
theorem applyPositions_unlotted (moves : MovesUnlotted entry key lines event) (some' : lines ≠ []) (refs : Refs) :
    book.applyPositions process entry refs false =
      (lines.foldlM PositionState.take (book.positionAt key).restored).map (book.setPosition key) := by
  unfold applyPositions
  dsimp only
  rw [moves.body]
  dsimp only
  rw [lines_unlotted moves.unlotted some']
  cases lines.foldlM PositionState.take (book.positionAt key).restored with
  | error out => rfl
  | ok moved => rfl

/-- Where a position takes an entry's lines of no lot: its quantities before and after, and what is free of it,
are each one the book can state. -/
structure Carries (book : Book) (key : Key) (lines : List MovementLine) (moved : PositionState) : Prop where
  before : ∃ trade, book.previousOf key = .ok trade
  taken : lines.foldlM PositionState.take (book.positionAt key).restored = .ok moved
  trade : ∃ trade, moved.tradeDate = .ok trade
  free : ∃ free, moved.free = .ok free

/-- What is left of a position an entry changed, as the book holds it. -/
def numberedAs (entry : Entry) (reference : JournalRef) (moved : PositionState) : PositionState :=
  { moved with effectiveDate := entry.entryMeta.effectiveDate, lastChange := some reference }

/-- Recording the one position such an entry changed. -/
theorem recordPosition_unlotted (moves : MovesUnlotted entry key lines event) (held : Book) (moved : PositionState)
    (rows : List (BookPosition × Exact)) (previous : List (Key × Exact)) (reference : JournalRef) :
    recordPosition entry previous (held.setPosition key moved, rows) (key, reference) =
      ((numberedAs entry reference moved).record held.accountId).map fun record =>
        (held.setPosition key (numberedAs entry reference moved), rows ++ [(record,
          match previous.find? fun row => row.1 == key with
          | some row => row.2
          | none => Exact.zero)]) := by
  have found := @positionAt_setPosition held key moved
  unfold positionAt at found
  have kept : (if key.sleeve = "" ∧ (key.instrument, key.side) ∈ entry.body.tombstones then true else moved.removed) =
      moved.removed := by
    rw [moves.body]
    exact if_neg fun named => List.not_mem_nil named.2
  unfold recordPosition
  dsimp only
  rw [found, kept]
  rw [setPosition_twice]
  change ((numberedAs entry reference moved).record held.accountId >>= fun record => _) = _
  cases (numberedAs entry reference moved).record held.accountId <;> rfl

theorem record_numberedAs (reference : JournalRef) (moved : PositionState) (accountId : String) :
    (∃ record, (numberedAs entry reference moved).record accountId = .ok record) ↔
      (∃ trade, moved.tradeDate = .ok trade) ∧ ∃ free, moved.free = .ok free := by
  constructor
  · rintro ⟨record, whole⟩
    obtain ⟨trade, traded, whole⟩ := bind_ok.mp whole
    obtain ⟨free, freed, -⟩ := bind_ok.mp whole
    exact ⟨⟨trade, traded⟩, ⟨free, freed⟩⟩
  · rintro ⟨⟨trade, traded⟩, ⟨free, freed⟩⟩
    exact ⟨_, bind_ok.mpr ⟨trade, traded, bind_ok.mpr ⟨free, freed, rfl⟩⟩⟩

@[simp] theorem tradeUnits_numberedAs (reference : JournalRef) (moved : PositionState) :
    (numberedAs entry reference moved).tradeUnits = moved.tradeUnits := rfl

@[simp] theorem lots_numberedAs (reference : JournalRef) (moved : PositionState) :
    (numberedAs entry reference moved).lots = moved.lots := rfl

/-- An entry of lines of no lot applies where its position takes them, and leaves it as it took them. -/
theorem takes_of_applied (moves : MovesUnlotted entry key lines event) (some' : lines ≠ []) {changes : Changes}
    (applied : book.apply process entry false = .ok (after, changes)) :
    ∃ moved reference, book.Carries key lines moved ∧
      after.positions = (book.setPosition key (numberedAs entry reference moved)).positions := by
  obtain ⟨phases⟩ := phases applied
  have touched := @touched_unlotted book entry key lines event moves some'
  have before := phases.before
  rw [touched] at before
  obtain ⟨_, -, read⟩ := mapM_answer before (List.mem_singleton.mpr rfl)
  obtain ⟨trade, previous, -⟩ := bind_ok.mp read
  have lines' := phases.moves
  rw [applyPositions_unlotted moves some'] at lines'
  obtain ⟨moved, taken, placed⟩ := map_ok lines'
  have keys := keys_positions book entry
  rw [touched] at keys
  obtain ⟨⟨_, reference⟩, single, rfl⟩ := List.map_eq_singleton_iff.mp keys
  have records := phases.records
  rw [single, List.foldlM_cons, ← placed] at records
  obtain ⟨⟨next, rows⟩, recorded, rest⟩ := bind_ok.mp records
  obtain ⟨rfl, -⟩ := Prod.mk.inj (Except.ok.inj rest)
  rw [recordPosition_unlotted moves] at recorded
  obtain ⟨record, whole, same⟩ := map_ok recorded
  obtain ⟨trade', free⟩ := (record_numberedAs reference moved _).mp ⟨record, whole⟩
  refine ⟨moved, reference, ⟨⟨trade, previous⟩, taken, trade', free⟩, ?_⟩
  exact phases.recorded_positions.trans (congrArg Book.positions (Prod.mk.inj same).1).symm

theorem firstRef_event (moves : MovesUnlotted entry key lines event) : ∃ first, firstRef (book.number entry).1 = some first := by
  refine Option.ne_none_iff_exists'.mp fun none' => ?_
  have empty := List.head?_eq_none_iff.mp none'
  simp only [List.append_eq_nil_iff, List.map_eq_nil_iff] at empty
  have events := events_numbered book entry
  rw [empty.1.1.1.1.1.1.1.1.1.2, moves.body] at events
  cases events

/-- An entry of lines of no lot whose position takes them applies. -/
theorem applied_of_takes (moves : MovesUnlotted entry key lines event)
    (takes : lines ≠ [] → ∃ moved, book.Carries key lines moved) :
    ∃ after changes, book.apply process entry false = .ok (after, changes) := by
  obtain ⟨first, named⟩ := @firstRef_event book entry key lines event moves
  have keys := keys_positions book entry
  obtain ⟨previous, before, moved, placed, recorded, rows, records⟩ : ∃ previous, (book.touched entry.body).mapM
      (fun key => return (key, ← book.previousOf key)) = .ok previous ∧ ∃ moved,
      applyPositions process { book with chains := (book.number entry).2.last } entry (book.number entry).1 false =
        .ok moved ∧ ∃ recorded rows, (book.number entry).1.positions.foldlM (recordPosition entry previous) (moved, []) =
          .ok (recorded, rows) := by
    by_cases some' : lines = []
    · subst some'
      have touched := @touched_nothing book entry key event moves
      rw [touched] at keys ⊢
      rw [List.map_eq_nil_iff.mp keys]
      refine ⟨[], rfl, { book with chains := (book.number entry).2.last }, ?_, _, _, rfl⟩
      unfold applyPositions
      dsimp only
      rw [moves.body]
      rfl
    · obtain ⟨moved, ⟨trade, previous⟩, taken, trade', free⟩ := takes some'
      have touched := @touched_unlotted book entry key lines event moves some'
      rw [touched] at keys ⊢
      obtain ⟨⟨other, reference⟩, single, same⟩ := List.map_eq_singleton_iff.mp keys
      have on : other = key := same
      rw [on] at single
      obtain ⟨record, whole⟩ := (@record_numberedAs entry reference moved book.accountId).mpr ⟨trade', free⟩
      rw [single]
      have recorded := recordPosition_unlotted moves { book with chains := (book.number entry).2.last } moved []
        [(key, trade)] reference
      rw [show (numberedAs entry reference moved).record _ = _ from whole] at recorded
      refine ⟨[(key, trade)], ?_, ({ book with chains := (book.number entry).2.last } : Book).setPosition key moved, ?_,
        _, _, (congrArg (· >>= fun held => List.foldlM _ held []) recorded).trans rfl⟩
      · rw [List.mapM_cons, previous]
        rfl
      · rw [applyPositions_unlotted moves some']
        exact congrArg (Except.map _) taken
  have acts : entry.body.acts = [] := by rw [moves.body]
  obtain ⟨acted, changed, applied⟩ : ∃ acted changed, (recorded.setRecords entry.body first (book.number entry).1
      { positions := rows, first, lastSequence := (book.number entry).2.next - 1 }).1.applyActs entry
    (recorded.setRecords entry.body first (book.number entry).1
      { positions := rows, first, lastSequence := (book.number entry).2.next - 1 }).2 (book.number entry).1 =
        .ok (acted, changed) := by
    unfold applyActs
    rw [if_pos acts]
    exact ⟨_, _, rfl⟩
  exact ⟨acted.closeEntry entry first, changed, Phases.applied {
    previous := previous
    first := first
    moved := moved
    recorded := recorded
    positions := rows
    acted := acted
    before := before
    named := named
    numbered := .inl moves.unnumbered
    moves := placed
    records := records
    acts := applied
    closed := rfl }⟩

/-- Such an entry is checked on its one position, whose lots and quantity stand as they stood where its lines
add to nothing. -/
theorem checked_unlotted (moves : MovesUnlotted entry key lines event) (some' : lines ≠ [])
    (nothing : (lines.map lineUnits).sum = 0) {changes : Changes} {moved : PositionState} {reference : JournalRef}
    (applied : book.apply process entry false = .ok (after, changes)) (takes : book.Carries key lines moved)
    (placed : after.positions = (book.setPosition key (numberedAs entry reference moved)).positions) :
    after.check process entry.body = .ok () ↔ (book.positionAt key).Stands (book.isBase process key.instrument) := by
  obtain ⟨lots, side, removed, units⟩ := PositionState.takes_ok takes.taken
  obtain ⟨trade, traded⟩ := takes.trade
  have found : after.positions[key]? = some (numberedAs entry reference moved) := by
    rw [placed]
    exact Std.ExtTreeMap.getElem?_insert_self
  have unlotted : key ∉ lotLines entry.body := by
    intro member
    obtain ⟨line, lined, -⟩ := List.mem_map.mp member
    obtain ⟨held, named⟩ := List.mem_filter.mp lined
    rw [moves.body] at held
    obtain ⟨-, lotId, opens⟩ := moves.unlotted line held
    rw [lotId, opens] at named
    cases named
  have trades : entry.body.trade = true := by rw [moves.body]
  have base : after.isBase process key.instrument = book.isBase process key.instrument := by
    refine isBase_congr ((baseCode_of_applied applied).trans ?_) key.instrument
    rw [moves.body]
    rfl
  have one : after.check process entry.body = .ok () ↔ after.checkPosition process entry.body key = .ok () := by
    unfold check
    rw [touched_unlotted moves some']
    change (after.checkPosition process entry.body key >>= fun _ => pure ()) = .ok () ↔ _
    constructor
    · intro checked
      obtain ⟨_, first, -⟩ := bind_ok.mp checked
      exact first
    · intro checked
      exact bind_ok.mpr ⟨_, checked, rfl⟩
  have quantity : moved.tradeUnits = (book.positionAt key).restored.tradeUnits := by rw [units, nothing, Int.add_zero]
  rw [one, checkPosition_iff found removed trades unlotted traded, base]
  exact @PositionState.stands_congr (book.positionAt key) (numberedAs entry reference moved) _ lots side quantity

/-- An entry of lines of no lot that add to nothing is made exactly where its position takes them and stands. -/
theorem made_unlotted_iff {head : Nat} {ctx : Context} {draft : Draft}
    (body : draft.body = { lines, lifecycleEvents := [event], trade := true }) (unlotted : Unlotted key lines)
    (nothing : (lines.map lineUnits).sum = 0) :
    (∃ act, made book head ctx draft = .ok act) ↔
      (lines ≠ [] → (∃ moved, book.Carries key lines moved) ∧
        (book.positionAt key).Stands (book.isBase ctx.process key.instrument)) := by
  have moves : MovesUnlotted (draft.entry book head ctx) key lines event := ⟨body, rfl, unlotted⟩
  constructor
  · rintro ⟨act, decided⟩ some'
    obtain ⟨applied, checked, -⟩ := made_ok decided
    obtain ⟨moved, reference, takes, placed⟩ := takes_of_applied moves some' applied
    exact ⟨⟨moved, takes⟩, (checked_unlotted moves some' nothing applied takes placed).mp checked⟩
  · intro holds
    obtain ⟨after, changes, applied⟩ := @applied_of_takes ctx.process book _ key lines event moves fun some' => (holds some').1
    have checked : after.check ctx.process (draft.entry book head ctx).body = .ok () := by
      by_cases some' : lines = []
      · subst some'
        unfold check
        rw [touched_nothing moves]
        rfl
      · obtain ⟨moved, reference, takes, placed⟩ := takes_of_applied moves some' applied
        exact (checked_unlotted moves some' nothing applied takes placed).mpr (holds some').2
    exact ⟨_, bind_ok.mpr ⟨(after, changes), applied, bind_ok.mpr ⟨(), checked, rfl⟩⟩⟩

/-- What an account holds at a key on its trade date; nothing where it has no position there. -/
def tradeAt (book : Book) (key : Key) : Int := ((book.positions[key]?).map PositionState.tradeUnits).getD 0

theorem tradeAt_positionAt (book : Book) (key : Key) : (book.positionAt key).tradeUnits = book.tradeAt key := by
  unfold positionAt tradeAt
  cases book.positions[key]? with
  | none => simp [PositionState.new, PositionState.tradeUnits]
  | some position => rfl

/-- Every position such an entry leaves holds the lots and the trade-date quantity it held. -/
theorem positionAt_of_unlotted (moves : MovesUnlotted entry key lines event) (nothing : (lines.map lineUnits).sum = 0)
    {changes : Changes} (applied : book.apply process entry false = .ok (after, changes)) (other : Key) :
    (after.positionAt other).lots = (book.positionAt other).lots ∧
      (after.positionAt other).tradeUnits = (book.positionAt other).tradeUnits := by
  have kept (same : after.positions[other]? = book.positions[other]?) :
      after.positionAt other = book.positionAt other := by rw [positionAt, positionAt, same]
  by_cases some' : lines = []
  · subst some'
    rw [kept (positions_of_untouched (by rw [moves.body]) (by rw [moves.body]) (by rw [moves.body]) applied
      (by rw [touched_nothing moves]; exact List.not_mem_nil))]
    exact ⟨rfl, rfl⟩
  · obtain ⟨moved, reference, takes, placed⟩ := takes_of_applied moves some' applied
    by_cases here : other = key
    · have left : after.positionAt other = numberedAs entry reference moved := by
        rw [here, positionAt, placed]
        exact positionAt_setPosition (numberedAs entry reference moved)
      obtain ⟨lots, -, -, units⟩ := PositionState.takes_ok takes.taken
      rw [left, here, lots_numberedAs, tradeUnits_numberedAs, lots, units, nothing, Int.add_zero]
      exact ⟨rfl, rfl⟩
    · have elsewhere : after.positions[other]? = book.positions[other]? := by
        rw [placed]
        exact (Std.ExtTreeMap.getElem?_insert).trans (if_neg fun same => here (Std.LawfulEqCmp.eq_of_compare same).symm)
      rw [kept elsewhere]
      exact ⟨rfl, rfl⟩

/-- Such an entry moves no trade-date quantity. -/
theorem tradeAt_of_unlotted (moves : MovesUnlotted entry key lines event) (nothing : (lines.map lineUnits).sum = 0)
    {changes : Changes} (applied : book.apply process entry false = .ok (after, changes)) (other : Key) :
    after.tradeAt other = book.tradeAt other := by
  rw [← tradeAt_positionAt, (positionAt_of_unlotted moves nothing applied other).2, tradeAt_positionAt]

/-- Such an entry moves no lot. -/
theorem lotAt_of_unlotted (moves : MovesUnlotted entry key lines event) (nothing : (lines.map lineUnits).sum = 0)
    {changes : Changes} (applied : book.apply process entry false = .ok (after, changes)) (other : Key) (lotId : String) :
    after.lotAt other lotId = book.lotAt other lotId := by
  have same := (positionAt_of_unlotted moves nothing applied other).1
  rw [← lots_getD after, ← lots_getD book]
  exact congrArg (·[lotId]?) same

end Entry

end Book

end MeridianCore.Bor
