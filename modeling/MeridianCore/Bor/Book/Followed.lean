import MeridianCore.Bor.Book.Buckets
import MeridianCore.Bor.Book.CarriedRecord

namespace MeridianCore.Bor

namespace Book

variable {book : Book} {placeholder instrument valueDate : String} {key at_ : Key} {bucket : SettlementBucket}

/-- How much a merge moves of a bucket: what a position not removed holds in it. -/
def standingUnits (book : Book) (key : Key) (bucket : SettlementBucket) (valueDate : String) : Int :=
  ((book.positions[key]?).map fun position =>
    if position.removed then 0 else position.bucketUnits bucket valueDate).getD 0

/-- Whether a bucket moved is the one named. -/
def isBucket (bucket : SettlementBucket) (valueDate : String) (moved : Bucket) : Bool :=
  moved.bucket = bucket && (bucket ≠ .pending || moved.valueDate = valueDate)

theorem lineUnits_mergeLine (onto : String) (key : Key) (moved : Bucket) (quantity : Exact) :
    lineUnits (mergeLine onto key moved quantity) = quantity.units := by
  simp [lineUnits, mergeLine, numbers.wire, readExact, Exact.fromWire_toWire, Except.toOption]

/-- What one line of a merge adds to a bucket. -/
theorem bucketLines_mergeLine (onto : String) (key : Key) (moved : Bucket) (quantity : Exact)
    (lines : List MovementLine) :
    bucketLines (mergeLine onto key moved quantity :: lines) at_ bucket valueDate =
      (if ontoKey key onto = at_ ∧ isBucket bucket valueDate moved = true then quantity.units else 0) +
        bucketLines lines at_ bucket valueDate := by
  rw [bucketLines_cons, lineUnits_mergeLine]
  rfl

/-- Carrying a lot moves no bucket. -/
theorem bucketLines_carryLot (carrier : Bucket) (state : LotState) :
    bucketLines (carryLot placeholder instrument key carrier state) at_ bucket valueDate = 0 := by
  unfold carryLot
  dsimp only
  split
  · rfl
  · have opened : bucketLines ({ mergeLine instrument key carrier state.lot.openQuantity with
          lotId := state.lot.lotId, opensLot := some (state.lot.terms.getD {}) } ::
        { mergeLine placeholder key carrier state.lot.openQuantity.negated with lotId := state.lot.lotId } ::
        [mergeLine instrument key carrier state.lot.openQuantity.negated,
          mergeLine placeholder key carrier state.lot.openQuantity]) at_ bucket valueDate =
        bucketLines (mergeLine instrument key carrier state.lot.openQuantity ::
          mergeLine placeholder key carrier state.lot.openQuantity.negated ::
          [mergeLine instrument key carrier state.lot.openQuantity.negated,
            mergeLine placeholder key carrier state.lot.openQuantity]) at_ bucket valueDate := by
      simp only [bucketLines_cons]
      rfl
    rw [opened]
    simp only [bucketLines_mergeLine, bucketLines_nil, Exact.units_negated]
    split_ifs <;> omega

/-- The buckets a merge moves of a position are what it holds. -/
theorem sum_bucketsOf (position : PositionState) :
    ((bucketsOf position).map fun moved => if isBucket bucket valueDate moved = true then moved.quantity.units else 0).sum =
      position.bucketUnits bucket valueDate := by
  have dated := BTreeMap.sum_at position.pending valueDate fun held => held.1.units
  unfold bucketsOf
  simp only [List.map_append, List.sum_append, List.map_map]
  cases bucket with
  | settled =>
    have none' : (position.pending.toList.map ((fun moved : Bucket =>
        if isBucket .settled valueDate moved = true then moved.quantity.units else 0) ∘
          fun entry => ⟨.pending, entry.1, entry.2.2, entry.2.1⟩)).sum = 0 :=
      List.sum_eq_zero fun term member => by
        obtain ⟨entry, -, rfl⟩ := List.mem_map.mp member
        simp [isBucket]
    rw [none']
    by_cases settled : position.settled.isZero = true
    · have empty := (Exact.isZero_iff _).mp settled
      by_cases stated : position.notStated.isZero = true
      · simp [settled, stated, PositionState.bucketUnits, empty]
      · simp [settled, stated, PositionState.bucketUnits, empty, isBucket]
    · by_cases stated : position.notStated.isZero = true
      · simp [settled, stated, PositionState.bucketUnits, isBucket]
      · simp [settled, stated, PositionState.bucketUnits, isBucket]
  | notStated =>
    have none' : (position.pending.toList.map ((fun moved : Bucket =>
        if isBucket .notStated valueDate moved = true then moved.quantity.units else 0) ∘
          fun entry => ⟨.pending, entry.1, entry.2.2, entry.2.1⟩)).sum = 0 :=
      List.sum_eq_zero fun term member => by
        obtain ⟨entry, -, rfl⟩ := List.mem_map.mp member
        simp [isBucket]
    rw [none']
    by_cases stated : position.notStated.isZero = true
    · have empty := (Exact.isZero_iff _).mp stated
      by_cases settled : position.settled.isZero = true
      · simp [settled, stated, PositionState.bucketUnits, empty]
      · simp [settled, stated, PositionState.bucketUnits, empty, isBucket]
    · by_cases settled : position.settled.isZero = true
      · simp [settled, stated, PositionState.bucketUnits, isBucket]
      · simp [settled, stated, PositionState.bucketUnits, isBucket]
  | pending =>
    have own : (position.pending.toList.map ((fun moved : Bucket =>
        if isBucket .pending valueDate moved = true then moved.quantity.units else 0) ∘
          fun entry => ⟨.pending, entry.1, entry.2.2, entry.2.1⟩)).sum =
        position.bucketUnits .pending valueDate := by
      refine Eq.trans ?_ dated
      congr 1
      refine List.map_congr_left fun entry _ => ?_
      simp [isBucket]
    rw [own]
    by_cases settled : position.settled.isZero = true <;> by_cases stated : position.notStated.isZero = true <;>
      simp [settled, stated, isBucket]
  | unspecified =>
    have none' : (position.pending.toList.map ((fun moved : Bucket =>
        if isBucket .unspecified valueDate moved = true then moved.quantity.units else 0) ∘
          fun entry => ⟨.pending, entry.1, entry.2.2, entry.2.1⟩)).sum = 0 :=
      List.sum_eq_zero fun term member => by
        obtain ⟨entry, -, rfl⟩ := List.mem_map.mp member
        simp [isBucket]
    rw [none']
    by_cases settled : position.settled.isZero = true <;> by_cases stated : position.notStated.isZero = true <;>
      simp [settled, stated, isBucket, PositionState.bucketUnits]

/-- What moving one position adds to a bucket: what it held, onto the instrument's, off its own. -/
theorem bucketLines_movedPosition (key : Key) (position : PositionState) :
    bucketLines (movedPosition placeholder instrument key position) at_ bucket valueDate =
      (if ontoKey key instrument = at_ then position.bucketUnits bucket valueDate else 0) -
        if ontoKey key placeholder = at_ then position.bucketUnits bucket valueDate else 0 := by
  have pairs (moved : Bucket) :
      bucketLines [mergeLine placeholder key moved moved.quantity.negated,
        mergeLine instrument key moved moved.quantity] at_ bucket valueDate =
        ((if ontoKey key instrument = at_ then (1 : Int) else 0) - (if ontoKey key placeholder = at_ then 1 else 0)) *
          if isBucket bucket valueDate moved = true then moved.quantity.units else 0 := by
    simp only [bucketLines_mergeLine, bucketLines_nil, Exact.units_negated]
    by_cases onto : ontoKey key instrument = at_ <;> by_cases off : ontoKey key placeholder = at_ <;>
      by_cases of : isBucket bucket valueDate moved = true <;> simp [onto, off, of]
  have lots : bucketLines ((position.lots.toList.map Prod.snd).flatMap (carryLot placeholder instrument key
      ((bucketsOf position).headD ⟨.settled, "", none, Exact.zero⟩))) at_ bucket valueDate = 0 := by
    rw [bucketLines_flatMap]
    refine List.sum_eq_zero fun term member => ?_
    obtain ⟨state, -, rfl⟩ := List.mem_map.mp member
    exact bucketLines_carryLot _ state
  unfold movedPosition
  dsimp only
  rw [bucketLines_append, lots, bucketLines_flatMap, List.map_congr_left fun moved _ => pairs moved,
    List.sum_map_mul_left, sum_bucketsOf]
  split_ifs <;> omega

/-- What following a replacement adds to a bucket. -/
theorem bucketLines_replacement :
    bucketLines (replacementBody book placeholder instrument).lines at_ bucket valueDate =
      (if at_.instrument = instrument then book.standingUnits (ontoKey at_ placeholder) bucket valueDate else 0) -
        if at_.instrument = placeholder then book.standingUnits at_ bucket valueDate else 0 := by
  -- What a position standing under the placeholder moves, and no other.
  have moved (entry : Key × PositionState) :
      (if entry.1.instrument == placeholder && !entry.2.removed then
        bucketLines (movedPosition placeholder instrument entry.1 entry.2) at_ bucket valueDate else 0) =
      (if at_.instrument = instrument then
        (if entry.1 = ontoKey at_ placeholder then
          (if entry.2.removed then 0 else entry.2.bucketUnits bucket valueDate) else 0) else 0) -
      (if at_.instrument = placeholder then
        (if entry.1 = at_ then (if entry.2.removed then 0 else entry.2.bucketUnits bucket valueDate) else 0) else 0) := by
    obtain ⟨⟨named, side, sleeve⟩, position⟩ := entry
    obtain ⟨atNamed, atSide, atSleeve⟩ := at_
    rw [bucketLines_movedPosition]
    cases position.removed <;> simp only [ontoKey, Key.mk.injEq, beq_iff_eq, Bool.not_true, Bool.not_false, Bool.and_true,
      Bool.and_false, Bool.false_eq_true, if_false, if_true, ite_self, Int.sub_zero]
    by_cases under : named = placeholder
    · subst under
      by_cases onto : instrument = atNamed <;> by_cases off : named = atNamed <;>
        by_cases side : side = atSide <;> by_cases sleeve : sleeve = atSleeve <;> simp_all [eq_comm]
    · by_cases off : atNamed = placeholder
      · subst off
        simp [under]
      · simp [under, off]
  have whole : bucketLines (replacementBody book placeholder instrument).lines at_ bucket valueDate =
      (book.positions.toList.map fun entry => if entry.1.instrument == placeholder && !entry.2.removed then
        bucketLines (movedPosition placeholder instrument entry.1 entry.2) at_ bucket valueDate else 0).sum := by
    unfold replacementBody heldUnder
    dsimp only
    rw [bucketLines_flatMap]
    induction book.positions.toList with
    | nil => rfl
    | cons entry rest ih =>
      rw [List.filter_cons]
      split
      · next held => rw [List.map_cons, List.sum_cons, List.map_cons, List.sum_cons, if_pos held, ih]
      · next unheld => rw [List.map_cons, List.sum_cons, if_neg unheld, Int.zero_add, ih]
  have at_key (key : Key) := BTreeMap.sum_at book.positions key fun position =>
    if position.removed then (0 : Int) else position.bucketUnits bucket valueDate
  have split (f g : Key × PositionState → Int) : (book.positions.toList.map fun entry => f entry - g entry).sum =
      (book.positions.toList.map f).sum - (book.positions.toList.map g).sum := by
    simpa only [Multiset.map_coe, Multiset.sum_coe] using
      Multiset.sum_map_sub (m := (book.positions.toList : Multiset (Key × PositionState))) (f := f) (g := g)
  rw [whole, List.map_congr_left fun entry _ => moved entry, split]
  congr 1
  · by_cases onto : at_.instrument = instrument
    · simp only [if_pos onto]
      exact at_key _
    · simp [onto]
  · by_cases off : at_.instrument = placeholder
    · simp only [if_pos off]
      exact at_key _
    · simp [off]

/-- A position removed holds nothing in any bucket. -/
def BucketsCleared (book : Book) : Prop :=
  ∀ (key : Key) (position : PositionState), book.positions[key]? = some position → position.removed = true →
    ∀ bucket valueDate, position.bucketUnits bucket valueDate = 0

theorem standingUnits_eq (cleared : book.BucketsCleared) :
    book.standingUnits key bucket valueDate = book.bucketAt key bucket valueDate := by
  unfold standingUnits bucketAt
  cases found : book.positions[key]? with
  | none => rfl
  | some position =>
    cases removed : position.removed with
    | true => simp [cleared key position found removed bucket valueDate, removed]
    | false => simp [removed]

theorem bucketAt_of_found {position : PositionState} (found : book.positions[key]? = some position) :
    book.bucketAt key bucket valueDate = position.bucketUnits bucket valueDate := by
  unfold bucketAt
  rw [found]
  rfl

theorem bucketLines_eq_zero {lines : List MovementLine} (apart : ∀ line ∈ lines, lineKey line ≠ key) :
    bucketLines lines key bucket valueDate = 0 := by
  unfold bucketLines
  rw [List.filter_eq_nil_iff.mpr fun line member => by simp [apart line member]]
  rfl

theorem bucketsCleared_make {after : Book} {making : Making} (cleared : book.BucketsCleared)
    (drafted : book.Drafted making.draft.body) (taken : make book making = .ok after) : after.BucketsCleared := by
  obtain ⟨act, decided, rfl⟩ := make_ok taken
  obtain ⟨applied, -, -⟩ := made_ok decided
  intro (key : Key) (position : PositionState) found removed bucket valueDate
  have moved : act.held.bucketAt key bucket valueDate = _ := bucketAt_of_applied applied key
  rw [bucketAt_of_found found] at moved
  rw [moved]
  rcases removed_of_applied drafted applied found removed with
    ⟨before, was, removed', apart⟩ | ⟨placeholder, instrument, before, apart, moves, under, was, standing⟩
  · rw [bucketAt_of_found was, cleared key before was removed', bucketLines_eq_zero apart, Int.add_zero]
  · have body : (making.draft.entry book making.head making.ctx).body = replacementBody book placeholder instrument := moves
    have elsewhere : key.instrument ≠ instrument := fun same => apart (under.symm.trans same)
    rw [body, bucketLines_replacement, if_neg elsewhere, if_pos under, standingUnits_eq cleared]
    omega

theorem Kept.bucketsCleared {accountId partition : String} {makings : List Making}
    (kept : book.Kept accountId partition makings) : book.BucketsCleared :=
  kept.invariant_of BucketsCleared (fun (key : Key) (position : PositionState) found => by simp [Book.new] at found)
    fun _ _ _ held drafted taken => bucketsCleared_make held drafted taken

theorem follow_ok {head : Nat} {ctx : Context} {resolved : Bool} {act : Made}
    (followed : followReplacement book head ctx placeholder instrument resolved = .ok (some act)) :
    ∃ draft : Draft, draft.body = replacementBody book placeholder instrument ∧ made book head ctx draft = .ok act := by
  unfold followReplacement at followed
  dsimp only at followed
  split at followed
  · cases followed
  · obtain ⟨act', decided, same⟩ := map_ok followed
    cases same
    exact ⟨_, rfl, decided⟩

/-- Recording positions changes none but those recorded. -/
theorem positions_recordPositions {entry : Entry} {after : Book} {previous : List (Key × Exact)}
    {rows rowsAfter : List (BookPosition × Exact)} {keys : List (Key × JournalRef)}
    (recorded : keys.foldlM (recordPosition entry previous) (book, rows) = .ok (after, rowsAfter))
    (apart : key ∉ keys.map Prod.fst) : after.positions[key]? = book.positions[key]? := by
  induction keys generalizing book rows with
  | nil =>
    cases recorded
    rfl
  | cons row rest ih =>
    rw [List.foldlM_cons] at recorded
    obtain ⟨⟨next, nextRows⟩, stepped, recorded⟩ := bind_ok.mp recorded
    rw [List.map_cons, List.mem_cons, not_or] at apart
    rw [ih recorded apart.2]
    unfold recordPosition at stepped
    obtain ⟨record, -, stepped⟩ := bind_ok.mp stepped
    cases stepped
    unfold setPosition
    rw [Std.ExtTreeMap.getElem?_insert]
    simp [Ne.symm apart.1]

/-- An entry of lines, removals and encumbrances alone changes no position but those it touches. -/
theorem positions_of_untouched {process : Process} {after : Book} {entry : Entry} {changes : Changes}
    (acts : entry.body.acts = []) (bases : entry.body.basisAdjustments = []) (sources : entry.body.sources = [])
    (applied : book.apply process entry false = .ok (after, changes)) (apart : key ∉ book.touched entry.body) :
    after.positions[key]? = book.positions[key]? := by
  obtain ⟨phases⟩ := phases applied
  have untouched := mt mem_touched.mpr apart
  simp only [List.mem_append, not_or, List.mem_map, not_exists, not_and] at untouched
  have moves := phases.moves
  unfold applyPositions at moves
  obtain ⟨moved, lines, moves⟩ := bind_ok.mp moves
  rw [bases] at moves
  obtain ⟨adjusted, none', moves⟩ := bind_ok.mp moves
  cases none'
  dsimp only at moves
  rw [if_pos sources] at moves
  have unmarked : moved.markAwaited process entry.body = moved := by
    unfold markAwaited
    rw [acts]
    rfl
  have encumbered (named : List (String × HoldingSide × List Encumbrance))
      (apart : ∀ each ∈ named, (⟨each.1, each.2.1, ""⟩ : Key) ≠ key) (held : Book) :
      (named.foldl (encumber (book.number entry).1.positions) held).positions[key]? = held.positions[key]? := by
    induction named generalizing held with
    | nil => rfl
    | cons first rest ih =>
      rw [List.foldl_cons, ih fun each member => apart each (List.mem_cons_of_mem _ member)]
      unfold encumber
      rw [Std.ExtTreeMap.getElem?_modify]
      simp [apart first List.mem_cons_self]
  have recorded : key ∉ (book.number entry).1.positions.map Prod.fst := by
    have keys : (book.number entry).1.positions.map Prod.fst = book.touched entry.body := by
      unfold number refsOf
      rw [List.map_map]
      exact Chained.Counter.each_map_fst _ _ _
    rwa [keys]
  calc after.positions[key]?
      = phases.recorded.positions[key]? := by rw [phases.recorded_positions]
    _ = phases.moved.positions[key]? := positions_recordPositions phases.records recorded
    _ = moved.positions[key]? := by
      rw [← Except.ok.inj moves, unmarked]
      exact encumbered _ (fun each member same => untouched.2 each member same) _
    _ = book.positions[key]? := positions_lines lines fun line member same => untouched.1.1.1 line member same

theorem onRecords_movedPosition {key : Key} {position : PositionState} {line : MovementLine}
    (member : line ∈ movedPosition placeholder instrument key position) :
    line.instrumentId = placeholder ∨ line.instrumentId = instrument := by
  unfold movedPosition carryLot at member
  simp only [List.mem_append, List.mem_flatMap, List.mem_map, List.mem_cons, List.not_mem_nil, or_false] at member
  rcases member with ⟨moved, -, rfl | rfl⟩ | ⟨state, -, member⟩
  · exact .inl rfl
  · exact .inr rfl
  · split at member
    · cases member
    · simp only [List.mem_cons, List.not_mem_nil, or_false] at member
      rcases member with rfl | rfl | rfl | rfl
      · exact .inr rfl
      · exact .inl rfl
      · exact .inr rfl
      · exact .inl rfl

/-- What an account touches following a replacement is of the two records. -/
theorem touched_replacement {key : Key} (touched : key ∈ book.touched (replacementBody book placeholder instrument)) :
    key.instrument = placeholder ∨ key.instrument = instrument := by
  rw [mem_touched] at touched
  simp only [List.mem_append, List.mem_map] at touched
  rcases touched with ((⟨line, member, rfl⟩ | adjusted) | ⟨named, member, rfl⟩) | ⟨named, member, rfl⟩
  · obtain ⟨⟨under, position⟩, -, moved⟩ := List.mem_flatMap.mp member
    exact onRecords_movedPosition moved
  · cases adjusted
  · obtain ⟨entry, held, rfl⟩ := List.mem_map.mp member
    exact .inl (mem_heldUnder.mp (List.mem_of_mem_filter held)).2.1
  · obtain ⟨entry, -, rfl⟩ := List.mem_map.mp member
    exact .inr rfl

/-- A line of a merge on the record it replaces is on a position standing under it. -/
theorem standing_of_line {key : Key} (apart : placeholder ≠ instrument) (under : key.instrument = placeholder)
    {line : MovementLine} (member : line ∈ (replacementBody book placeholder instrument).lines) (at_ : lineKey line = key) :
    ∃ position, book.positions[key]? = some position ∧ position.removed = false := by
  obtain ⟨⟨holder, position⟩, held, moved⟩ := List.mem_flatMap.mp member
  obtain ⟨found, under', standing⟩ := mem_heldUnder.mp held
  obtain ⟨side, sleeve, -⟩ := mem_movedPosition moved
  have same : key = holder := by
    subst at_
    obtain ⟨named, ofSide, ofSleeve⟩ := holder
    simp only at under' side sleeve
    subst under' side sleeve
    exact congrArg (Key.mk · _ _) under
  exact ⟨position, same ▸ found, standing⟩

/-- Nothing is open under the placeholder after an account follows its replacement. -/
theorem closed_of_follow (kept : book.LotsKept) {process : Process} {after : Book} {entry : Entry} {changes : Changes}
    (apart : placeholder ≠ instrument) (body : entry.body = replacementBody book placeholder instrument)
    (applied : book.apply process entry false = .ok (after, changes)) (under : key.instrument = placeholder)
    (lotId : String) : after.openAt key lotId = 0 := by
  have keptAfter := lotsKept_apply kept (.merged placeholder instrument apart body) applied
  by_cases unnamed : lotId = ""
  · rw [unnamed]
    exact openAt_unnamed keptAfter.toLotsNamed key
  obtain ⟨refs, sales, moved, lines, held⟩ := lines_of_applied applied
  rw [openAt_of_held held]
  rw [body] at lines
  by_cases standing : ∃ position, book.positions[key]? = some position ∧ position.removed = false
  · obtain ⟨position, found, standing⟩ := standing
    exact closed_replacement kept.toLotsNamed apart (by rfl) lines under found standing unnamed
  · rw [openAt, lotAt_lines lines fun line member at_ => standing (standing_of_line apart under member at_.1)]
    change book.openAt key lotId = 0
    cases found : book.positions[key]? with
    | none => exact openAt_of_none (by rw [lotAt, found]; rfl)
    | some position =>
      refine kept.cleared key position found ?_ lotId
      by_contra left
      exact standing ⟨position, found, by simpa using left⟩

/-- What each bucket holds after an account follows a replacement. -/
theorem bucketAt_follow (cleared : book.BucketsCleared) {head : Nat} {ctx : Context} {resolved : Bool} {act : Made}
    (followed : followReplacement book head ctx placeholder instrument resolved = .ok (some act)) (key : Key)
    (bucket : SettlementBucket) (valueDate : String) :
    act.held.bucketAt key bucket valueDate = book.bucketAt key bucket valueDate +
      ((if key.instrument = instrument then book.bucketAt (ontoKey key placeholder) bucket valueDate else 0) -
        if key.instrument = placeholder then book.bucketAt key bucket valueDate else 0) := by
  obtain ⟨draft, body, decided⟩ := follow_ok followed
  obtain ⟨applied, -, -⟩ := made_ok decided
  have entryBody : (draft.entry book head ctx).body = replacementBody book placeholder instrument := body
  have moved : act.held.bucketAt key bucket valueDate = _ := bucketAt_of_applied applied key
  rw [moved, entryBody, bucketLines_replacement, standingUnits_eq cleared, standingUnits_eq cleared]

/-- Following a replacement conserves what is held: on every side and sleeve, what the instrument holds after in each
bucket is what both held before; nothing and no lot is left under the placeholder; and no other position changes. -/
theorem follow_conserves {accountId partition : String} {makings : List Making} (kept : book.Kept accountId partition makings)
    {head : Nat} {ctx : Context} {resolved : Bool} {act : Made} (apart : placeholder ≠ instrument)
    (followed : followReplacement book head ctx placeholder instrument resolved = .ok (some act)) :
    (∀ side sleeve bucket valueDate, act.held.bucketAt ⟨instrument, side, sleeve⟩ bucket valueDate =
      book.bucketAt ⟨placeholder, side, sleeve⟩ bucket valueDate + book.bucketAt ⟨instrument, side, sleeve⟩ bucket valueDate) ∧
    (∀ side sleeve, (∀ bucket valueDate, act.held.bucketAt ⟨placeholder, side, sleeve⟩ bucket valueDate = 0) ∧
      ∀ lotId, act.held.openAt ⟨placeholder, side, sleeve⟩ lotId = 0) ∧
    ∀ key : Key, key.instrument ≠ placeholder → key.instrument ≠ instrument → act.held.positions[key]? = book.positions[key]? := by
  have bucket := bucketAt_follow kept.bucketsCleared followed
  obtain ⟨draft, body, decided⟩ := follow_ok followed
  obtain ⟨applied, -, -⟩ := made_ok decided
  have entryBody : (draft.entry book head ctx).body = replacementBody book placeholder instrument := body
  refine ⟨fun side sleeve which valueDate => ?_, fun side sleeve => ⟨fun which valueDate => ?_, fun lotId => ?_⟩,
    fun key offPlaceholder offInstrument => ?_⟩
  · rw [bucket, if_pos rfl, if_neg (Ne.symm apart)]
    simp only [ontoKey]
    omega
  · rw [bucket, if_neg apart, if_pos rfl]
    omega
  · exact closed_of_follow kept.lotsKept apart entryBody applied rfl lotId
  · change act.book.positions[key]? = _
    refine positions_of_untouched ?_ ?_ ?_ applied ?_
    · rw [entryBody]; rfl
    · rw [entryBody]; rfl
    · rw [entryBody]; rfl
    · rw [entryBody]
      exact fun touched => (touched_replacement touched).elim offPlaceholder offInstrument

/-- A lot of a hundred and the quantity settled under one record, followed onto another. -/
theorem follow_conserves_opened : ∃ (book : Book) (act : Made),
    (∀ side sleeve bucket valueDate, act.held.bucketAt ⟨"INS-1", side, sleeve⟩ bucket valueDate =
      book.bucketAt ⟨"LCL-1", side, sleeve⟩ bucket valueDate + book.bucketAt ⟨"INS-1", side, sleeve⟩ bucket valueDate) ∧
    act.held.bucketAt ⟨"INS-1", .long, ""⟩ .settled "" ≠ 0 := by
  have computed : (make (Book.new "ACC-1" "P-1") (openingOn "LCL-1")).toOption.any (fun book =>
      (followReplacement book 1 {} "LCL-1" "INS-1" false).toOption.any fun followed =>
        followed.any fun act => act.held.bucketAt ⟨"INS-1", .long, ""⟩ .settled "" != 0) = true := by
    decide +kernel
  obtain ⟨book, opened, computed⟩ := answered_of computed
  obtain ⟨followed, merged, computed⟩ := answered_of computed
  obtain ⟨act, rfl, there⟩ := (Option.any_eq_true _ _).mp computed
  have kept : book.Kept "ACC-1" "P-1" [openingOn "LCL-1"] :=
    .snoc (.nil _) ⟨drafted_openingOn "ACC-1" "P-1" "LCL-1", opened⟩
  exact ⟨book, act, (follow_conserves kept (by decide) merged).1, by simpa using there⟩

end Book

end MeridianCore.Bor
