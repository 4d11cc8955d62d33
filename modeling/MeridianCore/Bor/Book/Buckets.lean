import MeridianCore.Bor.Book.LotAt

namespace MeridianCore

/-- What a map's entries at one key add up to: what it holds there. -/
theorem BTreeMap.sum_at {α β : Type*} [Ord α] [Std.TransOrd α] [Std.LawfulEqOrd α] [DecidableEq α] (m : BTreeMap α β)
    (k : α) (f : β → Int) :
    (m.toList.map fun entry => if entry.1 = k then f entry.2 else 0).sum = ((m[k]?).map f).getD 0 := by
  have others (entries : List (α × β)) (apart : ∀ entry ∈ entries, entry.1 ≠ k) :
      (entries.map fun entry => if entry.1 = k then f entry.2 else 0).sum = 0 := by
    refine List.sum_eq_zero fun term member => ?_
    obtain ⟨entry, held, rfl⟩ := List.mem_map.mp member
    exact if_neg (apart entry held)
  cases found : m[k]? with
  | none =>
    refine others m.toList fun entry member same => ?_
    rw [← same, BTreeMap.mem_toList.mp member] at found
    cases found
  | some v =>
    obtain ⟨before, after, split, beside⟩ := BTreeMap.toList_split found
    rw [split, List.map_append, List.sum_append, List.map_cons, List.sum_cons, if_pos rfl,
      others before fun entry member => (beside entry (List.mem_append_left _ member)).2,
      others after fun entry member => (beside entry (List.mem_append_right _ member)).2]
    simp

namespace Bor

/-- How much a position holds in a settlement bucket: pending, to one value date. -/
def PositionState.bucketUnits (position : PositionState) (bucket : SettlementBucket) (valueDate : String) : Int :=
  match bucket with
  | .settled => position.settled.units
  | .pending => ((position.pending[valueDate]?).map fun held => held.1.units).getD 0
  | .notStated => position.notStated.units
  | .unspecified => 0

/-- Whether a line moves the bucket named, of its own position. -/
def inBucket (bucket : SettlementBucket) (valueDate : String) (line : MovementLine) : Bool :=
  line.bucket = bucket && (bucket ≠ .pending || line.valueDate = valueDate)

namespace Book

/-- How much an account holds at a key in a settlement bucket; nothing where it has no position there. -/
def bucketAt (book : Book) (key : Key) (bucket : SettlementBucket) (valueDate : String) : Int :=
  ((book.positions[key]?).map fun position => position.bucketUnits bucket valueDate).getD 0

/-- What lines add to a bucket at a key. -/
def bucketLines (lines : List MovementLine) (key : Key) (bucket : SettlementBucket) (valueDate : String) : Int :=
  ((lines.filter fun line => lineKey line = key ∧ inBucket bucket valueDate line).map lineUnits).sum

variable {process : Process} {refs : List (Key × JournalRef)} {sales : List Sale} {sequence : Nat}
  {book after : Book} {line : MovementLine} {key : Key} {bucket : SettlementBucket} {valueDate : String}

@[simp] theorem bucketLines_nil : bucketLines [] key bucket valueDate = 0 := rfl

theorem bucketLines_cons (line : MovementLine) (lines : List MovementLine) :
    bucketLines (line :: lines) key bucket valueDate =
      (if lineKey line = key ∧ inBucket bucket valueDate line = true then lineUnits line else 0) +
        bucketLines lines key bucket valueDate := by
  unfold bucketLines
  by_cases here : lineKey line = key ∧ inBucket bucket valueDate line = true
  · simp [here]
  · simp only [List.filter_cons, decide_eq_true_eq, if_neg here, Int.zero_add]

theorem bucketLines_append (first second : List MovementLine) :
    bucketLines (first ++ second) key bucket valueDate =
      bucketLines first key bucket valueDate + bucketLines second key bucket valueDate := by
  simp [bucketLines]

theorem bucketLines_flatMap {α : Type} (entries : List α) (lines : α → List MovementLine) :
    bucketLines (entries.flatMap lines) key bucket valueDate =
      (entries.map fun entry => bucketLines (lines entry) key bucket valueDate).sum := by
  induction entries with
  | nil => rfl
  | cons entry rest ih => rw [List.flatMap_cons, bucketLines_append, ih, List.map_cons, List.sum_cons]

theorem bucketAt_of_positions {other : Book} (same : other.positions[key]? = book.positions[key]?) :
    other.bucketAt key bucket valueDate = book.bucketAt key bucket valueDate := by
  unfold bucketAt
  rw [same]

theorem bucketAt_eq_holdings : book.bucketAt key bucket valueDate =
    ((book.holdings key).map fun holding =>
      match bucket with
      | .settled => holding.settled.units
      | .pending => ((holding.pending[valueDate]?).map fun held => held.1.units).getD 0
      | .notStated => holding.notStated.units
      | .unspecified => 0).getD 0 := by
  unfold bucketAt holdings
  cases book.positions[key]? with
  | none => rfl
  | some position => cases bucket <;> rfl

theorem bucketAt_congr {other : Book} (same : other.holdings = book.holdings) :
    other.bucketAt key bucket valueDate = book.bucketAt key bucket valueDate := by
  rw [bucketAt_eq_holdings, bucketAt_eq_holdings, same]

theorem bucketUnits_getD (book : Book) (key : Key) :
    ((book.positions[key]?).getD (PositionState.new key)).bucketUnits bucket valueDate =
      book.bucketAt key bucket valueDate := by
  unfold bucketAt
  cases book.positions[key]? with
  | none => cases bucket <;> simp [PositionState.bucketUnits, PositionState.new]
  | some position => rfl

theorem bucketAt_setPosition (position : PositionState) (other : Key) :
    (book.setPosition key position).bucketAt other bucket valueDate =
      if key = other then position.bucketUnits bucket valueDate else book.bucketAt other bucket valueDate := by
  unfold bucketAt setPosition
  rw [Std.ExtTreeMap.getElem?_insert]
  by_cases same : key = other
  · simp [same]
  · simp [same]

/-- A line's quantity goes to its own bucket. -/
theorem bucketUnits_addToBucket {position bucketed : PositionState} {quantity : Exact}
    (added : position.addToBucket line quantity = .ok bucketed) :
    bucketed.bucketUnits bucket valueDate =
      position.bucketUnits bucket valueDate + if inBucket bucket valueDate line then quantity.units else 0 := by
  unfold PositionState.addToBucket at added
  unfold inBucket
  split at added
  next at_ =>
    obtain ⟨settled, sum, added⟩ := bind_ok.mp added
    cases added
    rw [at_]
    cases bucket <;> simp [PositionState.bucketUnits, add_ok sum]
  next at_ =>
    obtain ⟨sum, summed, added⟩ := bind_ok.mp added
    cases added
    rw [at_]
    have units := add_ok summed
    cases bucket with
    | pending =>
      simp only [PositionState.bucketUnits]
      by_cases here : line.valueDate = valueDate
      · subst here
        split
        next empty =>
          rw [Std.ExtTreeMap.getElem?_erase_self]
          rw [(Exact.isZero_iff sum).mp empty] at units
          cases held : position.pending[line.valueDate]? with
          | none => simpa [held] using units
          | some before => simpa [held] using units
        · rw [Std.ExtTreeMap.getElem?_insert_self]
          cases held : position.pending[line.valueDate]? with
          | none => simpa [held] using units
          | some before => simpa [held] using units
      · split
        · simp [Std.ExtTreeMap.getElem?_erase, here]
        · simp [Std.ExtTreeMap.getElem?_insert, here]
    | settled => simp [PositionState.bucketUnits]
    | notStated => simp [PositionState.bucketUnits]
    | unspecified => simp [PositionState.bucketUnits]
  next at_ =>
    obtain ⟨notStated, sum, added⟩ := bind_ok.mp added
    cases added
    rw [at_]
    cases bucket <;> simp [PositionState.bucketUnits, add_ok sum]
  · cases added

/-- A lot opened or moved changes nothing of its position's but its lots. -/
theorem applyLot_keeps {position moved : PositionState} {quantity : Exact} {carried : Option LotState}
    {reference : JournalRef} {lenient : Bool} {sale : Option Sale}
    (applied : applyLot position line quantity carried reference sequence lenient sale = .ok moved) :
    moved = { position with lots := moved.lots, openedLots := moved.openedLots } := by
  unfold applyLot at applied
  split at applied
  · split at applied
    · cases applied
    · split at applied
      · cases applied
      · cases applied
        rfl
  · split at applied
    · cases applied
      rfl
    · simp only at applied
      split at applied
      · obtain ⟨now, -, applied⟩ := bind_ok.mp applied
        cases applied
        rfl
      · cases applied

/-- A line adds its quantity to its bucket, and changes no other. -/
theorem bucketAt_applyLine (applied : applyLine process refs sales sequence false book line = .ok after) (key : Key) :
    after.bucketAt key bucket valueDate = book.bucketAt key bucket valueDate +
      if lineKey line = key ∧ inBucket bucket valueDate line = true then lineUnits line else 0 := by
  unfold applyLine at applied
  obtain ⟨quantity, read, applied⟩ := bind_ok.mp applied
  obtain ⟨bucketed, added, applied⟩ := bind_ok.mp applied
  obtain ⟨position, lots, applied⟩ := bind_ok.mp applied
  cases applied
  rw [bucketAt_setPosition]
  by_cases here : lineKey line = key
  · subst here
    have unlotted : position.bucketUnits bucket valueDate = bucketed.bucketUnits bucket valueDate := by
      rw [applyLot_keeps lots]
      rfl
    rw [if_pos rfl, unlotted, bucketUnits_addToBucket added, lineUnits_of_read read, ← bucketUnits_getD]
    simp only [true_and]
    rfl
  · simp [here]

/-- Lines move each bucket by what they add to it. -/
theorem bucketAt_lines {lines : List MovementLine}
    (applied : lines.foldlM (applyLine process refs sales sequence false) book = .ok after) (key : Key) :
    after.bucketAt key bucket valueDate = book.bucketAt key bucket valueDate + bucketLines lines key bucket valueDate := by
  induction lines generalizing book with
  | nil =>
    cases applied
    simp
  | cons line rest ih =>
    rw [List.foldlM_cons] at applied
    obtain ⟨next, moved, applied⟩ := bind_ok.mp applied
    rw [ih applied, bucketAt_applyLine moved key, bucketLines_cons, Int.add_assoc]

theorem bucketAt_recordPositions {entry : Entry} {previous : List (Key × Exact)} {rows rowsAfter : List (BookPosition × Exact)}
    {keys : List (Key × JournalRef)}
    (recorded : keys.foldlM (recordPosition entry previous) (book, rows) = .ok (after, rowsAfter)) (key : Key) :
    after.bucketAt key bucket valueDate = book.bucketAt key bucket valueDate := by
  induction keys generalizing book rows with
  | nil =>
    cases recorded
    rfl
  | cons row rest ih =>
    rw [List.foldlM_cons] at recorded
    obtain ⟨⟨next, nextRows⟩, stepped, recorded⟩ := bind_ok.mp recorded
    rw [ih recorded]
    unfold recordPosition at stepped
    obtain ⟨record, -, stepped⟩ := bind_ok.mp stepped
    cases stepped
    rw [bucketAt_setPosition]
    split
    next here =>
      subst here
      exact bucketUnits_getD book row.1
    · rfl

/-- An entry moves each bucket by what its lines add to it, and nothing else of it moves one. -/
theorem bucketAt_of_applied {entry : Entry} {changes : Changes}
    (applied : book.apply process entry false = .ok (after, changes)) (key : Key) :
    after.bucketAt key bucket valueDate =
      book.bucketAt key bucket valueDate + bucketLines entry.body.lines key bucket valueDate := by
  obtain ⟨phases⟩ := phases applied
  obtain ⟨moved, lines, same⟩ := holdings_applyPositions phases.moves
  calc after.bucketAt key bucket valueDate
      = phases.recorded.bucketAt key bucket valueDate := bucketAt_of_positions (by rw [phases.recorded_positions])
    _ = phases.moved.bucketAt key bucket valueDate := bucketAt_recordPositions phases.records key
    _ = moved.bucketAt key bucket valueDate := bucketAt_congr same
    _ = _ := bucketAt_lines lines key

end Book

end Bor

end MeridianCore
