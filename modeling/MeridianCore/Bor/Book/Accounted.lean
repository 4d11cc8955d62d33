import MeridianCore.Bor.Book.CarriedRecord
import MeridianCore.Bor.Book.Replay
import MeridianCore.Bor.OrderDecide.Report

namespace MeridianCore.Bor

/-- How much a lot's recorded reliefs are of. -/
def reliefUnits (lot : Lot) : Int := (lot.reliefs.map fun relief => relief.quantity.units).sum

/-- A lot whose reliefs account for it: they sum to what is gone of it. -/
def Accounted (lot : Lot) : Prop := reliefUnits lot = |lot.originalQuantity.units| - |lot.openQuantity.units|

/-- A quantity moved towards zero, and not past it. -/
def TowardsZero (held moved : Int) : Prop := held ≤ held + moved ∧ held + moved ≤ 0 ∨ 0 ≤ held + moved ∧ held + moved ≤ held

theorem abs_towardsZero {held moved : Int} (towards : TowardsZero held moved) :
    |held + moved| = |held| - |moved| := by
  rcases towards with ⟨rises, short⟩ | ⟨long, falls⟩
  · rw [abs_of_nonpos short, abs_of_nonpos (rises.trans short), abs_of_nonneg (show 0 ≤ moved by omega)]
    omega
  · rw [abs_of_nonneg long, abs_of_nonneg (long.trans falls), abs_of_nonpos (show moved ≤ 0 by omega)]
    omega

theorem units_magnitude (value : Exact) : (magnitude value).units = |value.units| := by
  unfold magnitude
  by_cases below : value.isNegative = true
  · rw [if_pos below, Exact.units_negated, abs_of_neg ((Exact.isNegative_iff value).mp below)]
  · rw [if_neg below, abs_of_nonneg (Int.not_lt.mp (mt (Exact.isNegative_iff value).mpr below))]

theorem magnitudeBelow_iff {after before : Exact} : magnitudeBelow after before = true ↔ |after.units| < |before.units| := by
  unfold magnitudeBelow
  rw [Exact.less_iff, units_magnitude, units_magnitude]

/-- A relief recorded adds what it is of to the lot's. -/
theorem reliefUnits_recordRelief {lot recorded : Lot} {reference : JournalRef} {relieved : Exact} {sale : Option Sale}
    (done : recordRelief lot reference relieved sale = .ok recorded) :
    reliefUnits recorded = reliefUnits lot + relieved.units ∧ recorded.originalQuantity = lot.originalQuantity := by
  unfold recordRelief at done
  simp only at done
  split at done
  next last found =>
    obtain ⟨total, added, done⟩ := bind_ok.mp done
    obtain ⟨proceeds, -, done⟩ := bind_ok.mp done
    cases done
    have split := List.dropLast_append_getLast? last (Option.filter_eq_some_iff.mp found).1
    refine ⟨?_, rfl⟩
    unfold reliefUnits
    dsimp only
    conv_rhs => rw [← split]
    simp only [List.map_append, List.sum_append, List.map_cons, List.map_nil, List.sum_cons, List.sum_nil]
    rw [add_ok added]
    omega
  · obtain ⟨proceeds, -, done⟩ := bind_ok.mp done
    cases done
    refine ⟨?_, rfl⟩
    simp [reliefUnits]

/-- A lot moved within the entry that opened it is added to, and not relieved. -/
theorem moveLot_own {before now : LotState} {quantity : Exact} {reference : JournalRef} {sequence : Nat}
    {sale : Option Sale} (moves : moveLot before quantity reference sequence sale = .ok now)
    (own : before.openedIn = sequence) :
    now.openedIn = before.openedIn ∧ now.lot.reliefs = before.lot.reliefs ∧
      now.lot.originalQuantity.units = before.lot.originalQuantity.units + quantity.units := by
  unfold moveLot at moves
  obtain ⟨sum, -, moves⟩ := bind_ok.mp moves
  simp only [if_pos own] at moves
  obtain ⟨original, added, moves⟩ := bind_ok.mp moves
  cases moves
  exact ⟨rfl, rfl, add_ok added⟩

/-- A lot moved towards zero by a later entry records as much relieved. -/
theorem accounted_moveLot {before now : LotState} {quantity : Exact} {reference : JournalRef} {sequence : Nat}
    {sale : Option Sale} (moves : moveLot before quantity reference sequence sale = .ok now)
    (later : before.openedIn ≠ sequence) (towards : TowardsZero before.lot.openQuantity.units quantity.units)
    (accounted : Accounted before.lot) : now.openedIn = before.openedIn ∧ Accounted now.lot := by
  unfold moveLot at moves
  obtain ⟨sum, added, moves⟩ := bind_ok.mp moves
  simp only [if_neg later] at moves
  have left := abs_towardsZero towards
  rw [← add_ok added] at left
  unfold Accounted at accounted ⊢
  split at moves
  · obtain ⟨difference, subtracted, moves⟩ := bind_ok.mp moves
    obtain ⟨lot, recorded, moves⟩ := bind_ok.mp moves
    cases moves
    obtain ⟨relieved, original⟩ := reliefUnits_recordRelief recorded
    obtain ⟨-, sameOpen⟩ := Book.recordRelief_keeps recorded
    have gone : difference.units = -quantity.units := by
      rw [add_ok subtracted, Exact.units_negated, add_ok added]
      omega
    refine ⟨rfl, ?_⟩
    dsimp only at *
    rw [relieved, original, sameOpen, units_magnitude, gone, abs_neg, left]
    change reliefUnits before.lot + _ = _
    omega
  next unmoved =>
    cases moves
    have still := mt magnitudeBelow_iff.mpr unmoved
    refine ⟨rfl, ?_⟩
    change reliefUnits before.lot = _
    dsimp only
    have none' := abs_nonneg quantity.units
    omega

namespace Book

section
variable {process : Process} {refs : List (Key × JournalRef)} {sales : List Sale} {sequence : Nat}
  {book after : Book} {line : MovementLine} {key : Key} {lotId : String}

/-- A line moving a lot moves it as its position holds it. -/
theorem moved_applyLine (applied : applyLine process refs sales sequence false book line = .ok after)
    (opens : line.opensLot = none) (named : line.lotId ≠ "") : ∃ before now quantity reference sale,
      lineUnits line = quantity.units ∧ book.lotAt (lineKey line) line.lotId = some before ∧
        moveLot before quantity reference sequence sale = .ok now ∧
          after.lotAt (lineKey line) line.lotId = some now := by
  obtain ⟨quantity, bucketed, position, read, lots, moved, rfl⟩ := applyLine_position applied
  unfold applyLot at moved
  simp only [opens, if_neg named] at moved
  cases found : bucketed.lots[line.lotId]? with
  | none => simp [found] at moved
  | some before =>
    simp only [found] at moved
    obtain ⟨now, moves, moved⟩ := bind_ok.mp moved
    cases moved
    rw [lots, lots_getD] at found
    refine ⟨before, now, quantity, _, _, lineUnits_of_read read, found, moves, ?_⟩
    rw [lotAt_setPosition, if_pos rfl, Std.ExtTreeMap.getElem?_insert_self]

/-- A line opening a lot opens the record another position has of it, or a new one of the entry's own. -/
theorem opened_applyLine (applied : applyLine process refs sales sequence false book line = .ok after)
    (opens : line.opensLot.isSome) : ∃ now, after.lotAt (lineKey line) line.lotId = some now ∧
      now.lot.openQuantity.units = lineUnits line ∧
      (∀ source, book.carriedLot (lineKey line) line.lotId = some source →
        now.openedIn = source.openedIn ∧ now.lot.originalQuantity = source.lot.originalQuantity ∧
          now.lot.reliefs = source.lot.reliefs) ∧
      (book.carriedLot (lineKey line) line.lotId = none →
        book.lotAt (lineKey line) line.lotId = none ∧ now.openedIn = sequence ∧
          now.lot.originalQuantity = now.lot.openQuantity ∧ now.lot.reliefs = []) := by
  obtain ⟨quantity, bucketed, position, read, lots, moved, rfl⟩ := applyLine_position applied
  obtain ⟨terms, opens⟩ := Option.isSome_iff_exists.mp opens
  unfold applyLot at moved
  simp only [opens] at moved
  split at moved
  · cases moved
  next named =>
  have carried : (if (some terms).isSome = true ∧ line.lotId ≠ "" then book.carriedLot (lineKey line) line.lotId
      else none) = book.carriedLot (lineKey line) line.lotId := if_pos ⟨rfl, named⟩
  rw [carried] at moved
  split at moved
  · cases moved
  next fresh =>
  cases moved
  refine ⟨_, by rw [lotAt_setPosition, if_pos rfl, Std.ExtTreeMap.getElem?_insert_self], ?_, ?_, ?_⟩
  · rw [lineUnits_of_read read]
    cases book.carriedLot (lineKey line) line.lotId <;> rfl
  · intro source carries
    rw [carries]
    exact ⟨rfl, rfl, rfl⟩
  · intro nowhere
    rw [nowhere, Std.ExtTreeMap.contains_eq_isSome_getElem?, lots, lots_getD] at fresh
    rw [nowhere]
    exact ⟨by simpa using fresh, rfl, rfl, rfl⟩

theorem beside_applyLine (applied : applyLine process refs sales sequence false book line = .ok after)
    (apart : ¬ (line.lotId ≠ "" ∧ key = lineKey line ∧ lotId = line.lotId)) :
    after.lotAt key lotId = book.lotAt key lotId := by
  obtain ⟨quantity, -, lots, beside⟩ := lineLots applied
  by_cases here : key = lineKey line ∧ lotId = line.lotId
  · cases lots with
    | unnamed _ same => exact same key lotId
    | opened named => exact absurd ⟨named, here⟩ apart
    | moved named => exact absurd ⟨named, here⟩ apart
  · exact beside key lotId here

/-- How much of each lot each position holds open; nothing of one it never held. -/
def openUnits (book : Book) (key : Key) (lotId : String) : Option Int :=
  (book.lotAt key lotId).map fun state => state.lot.openQuantity.units

/-- How much of each lot is open once a line is applied. -/
def openAfter (held : Key → String → Option Int) (line : MovementLine) (key : Key) (lotId : String) : Option Int :=
  if line.lotId ≠ "" ∧ key = lineKey line ∧ lotId = line.lotId then
    some (if line.opensLot.isSome then lineUnits line else (held key lotId).getD 0 + lineUnits line)
  else held key lotId

theorem openUnits_applyLine (applied : applyLine process refs sales sequence false book line = .ok after) :
    after.openUnits = openAfter book.openUnits line := by
  funext key lotId
  unfold openAfter
  split
  next here =>
    obtain ⟨named, rfl, rfl⟩ := here
    cases opens : line.opensLot with
    | some terms =>
      obtain ⟨now, held, units, -⟩ := opened_applyLine applied (by rw [opens]; rfl)
      rw [openUnits, held]
      exact congrArg some units
    | none =>
      obtain ⟨before, now, quantity, reference, sale, read, found, moves, held⟩ := moved_applyLine applied opens named
      rw [openUnits, openUnits, held, found, read]
      exact congrArg some (moveLot_ok moves).2
  next apart => rw [openUnits, beside_applyLine applied apart, openUnits]

/-- How much is open of a lot in the first position beside the one named, in key order, that has it. -/
def CarriesUnits (held : Key → String → Option Int) (key : Key) (lotId : String) (units : Int) : Prop :=
  ∃ first, first ≠ key ∧ held first lotId = some units ∧
    ∀ other : Key, compare other first = .lt → other ≠ key → held other lotId = none

theorem carriesUnits_of_carriedLot {source : LotState} (carries : book.carriedLot key lotId = some source) :
    CarriesUnits book.openUnits key lotId source.lot.openQuantity.units := by
  obtain ⟨first, ⟨apart, -, least⟩, held⟩ := carriedLot_eq_some.mp carries
  refine ⟨first, apart, by rw [openUnits, held]; rfl, fun other below beside => ?_⟩
  rw [openUnits, least other below beside]
  rfl

end

/-- A line that accounts for the lot it names: opening one another position has, it opens as much as is open there;
moving one the account held before the entry, it moves it towards zero and not past it. -/
structure LineAccounts (before held : Key → String → Option Int) (line : MovementLine) : Prop where
  carries : line.opensLot.isSome → ∀ units, CarriesUnits held (lineKey line) line.lotId units → lineUnits line = units
  relieves : line.opensLot = none → line.lotId ≠ "" → (∃ key, (before key line.lotId).isSome) →
    ∀ units, held (lineKey line) line.lotId = some units → TowardsZero units (lineUnits line)

/-- Lines each of which accounts for the lot it names, as those before it leave the lots open. -/
def LinesAccount (before : Key → String → Option Int) : (Key → String → Option Int) → List MovementLine → Prop
  | _, [] => True
  | held, line :: rest => LineAccounts before held line ∧ LinesAccount before (openAfter held line) rest

/-- The lots part way through an entry: each accounted for, and those of the entry's own open by all of them. -/
structure LotsAccount (before : Key → String → Option Int) (sequence : Nat) (book : Book) : Prop where
  accounted : ∀ key lotId state, book.lotAt key lotId = some state → Accounted state.lot
  stands : ∀ key lotId, (before key lotId).isSome → (book.lotAt key lotId).isSome
  earlier : ∀ lotId, (∃ key, (before key lotId).isSome) → ∀ key state, book.lotAt key lotId = some state →
    state.openedIn ≠ sequence
  own : ∀ lotId, (¬ ∃ key, (before key lotId).isSome) → ∀ key state, book.lotAt key lotId = some state →
    state.openedIn = sequence ∧ state.lot.originalQuantity.units = state.lot.openQuantity.units ∧ state.lot.reliefs = []

section
variable {process : Process} {refs : List (Key × JournalRef)} {sales : List Sale} {sequence : Nat}
  {book after : Book} {line : MovementLine} {before : Key → String → Option Int}

theorem accounted_own {lot : Lot} (whole : lot.originalQuantity.units = lot.openQuantity.units) (none' : lot.reliefs = []) :
    Accounted lot := by
  unfold Accounted reliefUnits
  rw [whole, none']
  simp

/-- The lot a line names, once it has accounted for it. -/
structure NamedAccounts (before : Key → String → Option Int) (sequence : Nat) (lotId : String) (state : LotState) : Prop where
  accounted : Accounted state.lot
  earlier : (∃ key, (before key lotId).isSome) → state.openedIn ≠ sequence
  own : (¬ ∃ key, (before key lotId).isSome) → state.openedIn = sequence ∧
    state.lot.originalQuantity.units = state.lot.openQuantity.units ∧ state.lot.reliefs = []

theorem namedAccounts_opened (lots : LotsAccount before sequence book) (line' : LineAccounts before book.openUnits line)
    (opens : line.opensLot.isSome) (applied : applyLine process refs sales sequence false book line = .ok after) :
    ∃ now, after.lotAt (lineKey line) line.lotId = some now ∧ NamedAccounts before sequence line.lotId now := by
  obtain ⟨now, held, units, carries, mints⟩ := opened_applyLine applied opens
  refine ⟨now, held, ?_⟩
  cases carried : book.carriedLot (lineKey line) line.lotId with
  | some source =>
    obtain ⟨sameEntry, sameOriginal, sameReliefs⟩ := carries source carried
    obtain ⟨first, -, found⟩ := carriedLot_eq_some.mp carried
    have same : now.lot.openQuantity.units = source.lot.openQuantity.units :=
      units.trans (line'.carries opens _ (carriesUnits_of_carriedLot carried))
    constructor
    · have accounted := lots.accounted first line.lotId source found
      unfold Accounted reliefUnits at accounted ⊢
      rw [sameReliefs, sameOriginal, same]
      exact accounted
    · intro held'
      rw [sameEntry]
      exact lots.earlier line.lotId held' first source found
    · intro unheld
      rw [sameEntry, sameOriginal, same, sameReliefs]
      exact lots.own line.lotId unheld first source found
  | none =>
    obtain ⟨absent, inEntry, whole, none'⟩ := mints carried
    have unheld : ¬ ∃ key, (before key line.lotId).isSome := by
      rintro ⟨key, held'⟩
      have stands := lots.stands key line.lotId held'
      by_cases here : key = lineKey line
      · rw [here, absent] at stands
        cases stands
      · rw [carriedLot_eq_none.mp carried key here] at stands
        cases stands
    exact ⟨accounted_own (by rw [whole]) none', fun held' => absurd held' unheld, fun _ => ⟨inEntry, by rw [whole], none'⟩⟩

theorem namedAccounts_moved (lots : LotsAccount before sequence book) (line' : LineAccounts before book.openUnits line)
    (opens : line.opensLot = none) (named : line.lotId ≠ "")
    (applied : applyLine process refs sales sequence false book line = .ok after) :
    ∃ now, after.lotAt (lineKey line) line.lotId = some now ∧ NamedAccounts before sequence line.lotId now := by
  obtain ⟨was, now, quantity, reference, sale, read, found, moves, held⟩ := moved_applyLine applied opens named
  refine ⟨now, held, ?_⟩
  by_cases held' : ∃ key, (before key line.lotId).isSome
  · have later := lots.earlier line.lotId held' _ was found
    have towards := line'.relieves opens named held' was.lot.openQuantity.units (by rw [openUnits, found]; rfl)
    rw [read] at towards
    obtain ⟨sameEntry, accounted⟩ := accounted_moveLot moves later towards (lots.accounted _ _ was found)
    exact ⟨accounted, fun _ => by rwa [sameEntry], fun unheld => absurd held' unheld⟩
  · obtain ⟨inEntry, whole, none'⟩ := lots.own line.lotId held' _ was found
    obtain ⟨sameEntry, sameReliefs, original⟩ := moveLot_own moves inEntry
    have open' := (moveLot_ok moves).2
    have whole' : now.lot.originalQuantity.units = now.lot.openQuantity.units := by rw [original, open', whole]
    exact ⟨accounted_own whole' (sameReliefs.trans none'), fun held => absurd held held',
      fun _ => ⟨sameEntry.trans inEntry, whole', sameReliefs.trans none'⟩⟩

/-- A line that accounts for the lot it names leaves every lot accounted for. -/
theorem lotsAccount_applyLine (lots : LotsAccount before sequence book) (line' : LineAccounts before book.openUnits line)
    (applied : applyLine process refs sales sequence false book line = .ok after) : LotsAccount before sequence after := by
  have named (here : line.lotId ≠ "") :
      ∃ now, after.lotAt (lineKey line) line.lotId = some now ∧ NamedAccounts before sequence line.lotId now := by
    cases opens : line.opensLot with
    | some terms => exact namedAccounts_opened lots line' (by rw [opens]; rfl) applied
    | none => exact namedAccounts_moved lots line' opens here applied
  have either (key : Key) (lotId : String) : after.lotAt key lotId = book.lotAt key lotId ∨
      lotId = line.lotId ∧ ∃ now, after.lotAt key lotId = some now ∧ NamedAccounts before sequence lotId now := by
    by_cases here : line.lotId ≠ "" ∧ key = lineKey line ∧ lotId = line.lotId
    · obtain ⟨nonempty, rfl, rfl⟩ := here
      exact .inr ⟨rfl, named nonempty⟩
    · exact .inl (beside_applyLine applied here)
  constructor
  · intro key lotId state held
    rcases either key lotId with same | ⟨-, now, held', accounts⟩
    · exact lots.accounted key lotId state (same.symm.trans held)
    · cases held.symm.trans held'
      exact accounts.accounted
  · intro key lotId held
    rcases either key lotId with same | ⟨-, now, held', -⟩
    · rw [same]
      exact lots.stands key lotId held
    · rw [held']
      rfl
  · intro lotId held key state found
    rcases either key lotId with same | ⟨-, now, held', accounts⟩
    · exact lots.earlier lotId held key state (same.symm.trans found)
    · cases found.symm.trans held'
      exact accounts.earlier held
  · intro lotId unheld key state found
    rcases either key lotId with same | ⟨-, now, held', accounts⟩
    · exact lots.own lotId unheld key state (same.symm.trans found)
    · cases found.symm.trans held'
      exact accounts.own unheld

theorem lotsAccount_lines {lines : List MovementLine} (lots : LotsAccount before sequence book)
    (accounts : LinesAccount before book.openUnits lines)
    (applied : lines.foldlM (applyLine process refs sales sequence false) book = .ok after) :
    LotsAccount before sequence after := by
  induction lines generalizing book with
  | nil =>
    cases applied
    exact lots
  | cons line rest ih =>
    rw [List.foldlM_cons] at applied
    obtain ⟨next, moved, applied⟩ := bind_ok.mp applied
    refine ih (lotsAccount_applyLine lots accounts.1 moved) ?_ applied
    rw [openUnits_applyLine moved]
    exact accounts.2

end

/-- What accounts for a lot, whatever its record says beside. -/
def accountOf (state : LotState) : Nat × Exact × Exact × List LotRelief :=
  (state.openedIn, state.lot.originalQuantity, state.lot.openQuantity, state.lot.reliefs)

/-- What accounts for every lot of a book. -/
def accounts (book : Book) (key : Key) (lotId : String) : Option (Nat × Exact × Exact × List LotRelief) :=
  (book.lotAt key lotId).map accountOf

section
variable {process : Process} {book after : Book} {entry : Entry}

theorem accounts_modify {key : Key} {change : PositionState → PositionState}
    (same : ∀ (position : PositionState) (lotId : String),
      ((change position).lots[lotId]?).map accountOf = (position.lots[lotId]?).map accountOf) :
    { book with positions := book.positions.modify key change : Book }.accounts = book.accounts := by
  funext other lotId
  unfold accounts lotAt
  rw [Std.ExtTreeMap.getElem?_modify]
  by_cases here : key = other
  · subst here
    simp only [Std.compare_self, if_true]
    cases book.positions[key]? with
    | none => rfl
    | some position => exact same position lotId
  · simp [here]

/-- A lot's record changed in nothing that accounts for it. -/
theorem accounts_onLot (book : Book) (lotId : String) {change : Lot → Lot}
    (keeps : ∀ lot, (change lot).originalQuantity = lot.originalQuantity ∧
      (change lot).openQuantity = lot.openQuantity ∧ (change lot).reliefs = lot.reliefs) :
    (book.onLot lotId change).accounts = book.accounts := by
  unfold onLot
  split
  · refine accounts_modify fun position other => ?_
    rw [Std.ExtTreeMap.getElem?_modify]
    by_cases here : lotId = other
    · subst here
      simp only [Std.compare_self, if_true]
      cases position.lots[lotId]? with
      | none => rfl
      | some state => simp [accountOf, keeps]
    · simp [here]
  · rfl

theorem accounts_foldl {α : Type} {change : Book → α → Book} (entries : List α)
    (keeps : ∀ book entry, (change book entry).accounts = book.accounts) (book : Book) :
    (entries.foldl change book).accounts = book.accounts := by
  induction entries generalizing book with
  | nil => rfl
  | cons entry rest ih => rw [List.foldl_cons, ih, keeps]

theorem accounts_markAwaited (process : Process) (book : Book) (body : Body) :
    (book.markAwaited process body).accounts = book.accounts := by
  unfold markAwaited
  have cleared : ((body.acts.flatMap clearedBy).foldl
      (fun held lotId => held.onLot lotId fun lot => { lot with factorMonthAwaited := "" }) book).accounts =
      book.accounts := by
    refine accounts_foldl _ (fun book lotId => ?_) book
    exact accounts_onLot book lotId fun _ => ⟨rfl, rfl, rfl⟩
  rw [accounts_foldl _ (fun book mark => ?_), cleared]
  refine accounts_foldl _ (fun book line => ?_) book
  split
  · exact accounts_onLot book line.lotId fun _ => ⟨rfl, rfl, rfl⟩
  · rfl

/-- A basis adjustment relieves nothing. -/
theorem accounts_adjustBasis {refs : List (Key × JournalRef)} {body : Body} {lenient : Bool}
    {adjustment : BasisAdjustment} (adjusted : adjustBasis refs body lenient book adjustment = .ok after) :
    after.accounts = book.accounts := by
  unfold adjustBasis at adjusted
  split at adjusted
  · split at adjusted
    · cases adjusted
      rfl
    · cases adjusted
  · split at adjusted
    · cases adjusted
      rfl
    next position found =>
    split at adjusted
    · cases adjusted
      rfl
    next state lot =>
    obtain ⟨terms, -, adjusted⟩ := bind_ok.mp adjusted
    cases adjusted
    funext other lotId
    unfold accounts
    rw [lotAt_setPosition]
    split
    next here =>
      subst here
      rw [lotAt, found, Option.bind_some, Std.ExtTreeMap.getElem?_insert]
      by_cases here : adjustment.lotId = lotId
      · subst here
        simp [lot, accountOf]
      · simp [here]
    · rfl

theorem accounts_encumber (refs : List (Key × JournalRef)) (book : Book)
    (named : String × HoldingSide × List Encumbrance) : (encumber refs book named).accounts = book.accounts :=
  accounts_modify fun _ _ => rfl

theorem accounts_openFrom (sources : List OpeningSource) (book : Book) (key : Key) :
    (openFrom sources book key).accounts = book.accounts :=
  accounts_modify fun _ _ => rfl

/-- After an entry's lines, nothing of it changes what accounts for a lot. -/
theorem accounts_of_applied {changes : Changes} (applied : book.apply process entry false = .ok (after, changes)) :
    ∃ refs sales moved, entry.body.lines.foldlM (applyLine process refs sales entry.firstSequence false)
        { book with chains := (book.number entry).2.last } = .ok moved ∧ after.accounts = moved.accounts := by
  obtain ⟨phases⟩ := phases applied
  have moves := phases.moves
  unfold applyPositions at moves
  obtain ⟨moved, lines, moves⟩ := bind_ok.mp moves
  obtain ⟨adjusted, bases, moves⟩ := bind_ok.mp moves
  refine ⟨_, _, moved, lines, ?_⟩
  have onBases : adjusted.accounts = (moved.markAwaited process entry.body).accounts :=
    foldlM_keeps (fun _ _ _ held adjusted => (accounts_adjustBasis adjusted).trans held) _ rfl bases
  have encumbered := accounts_foldl entry.body.encumbrances
    (fun held named => accounts_encumber (book.number entry).1.positions held named) adjusted
  have whole := encumbered.trans (onBases.trans (accounts_markAwaited process moved entry.body))
  have positioned : phases.moved.accounts = moved.accounts := by
    rw [← Except.ok.inj moves]
    split
    · exact whole
    · exact (accounts_foldl _ (fun book key => accounts_openFrom entry.body.sources book key) _).trans whole
  rw [← positioned]
  funext key lotId
  unfold accounts
  rw [lotAt_of_positions phases.recorded_positions, lotAt_recordPositions phases.records]

end

/-- An act that accounts for the lots its entry names: its entry is numbered after those that opened the lots held, and
each of its lines accounts for its lot. -/
structure AccountsFor (book : Book) (making : Making) : Prop where
  numbered : ∀ key lotId state, book.lotAt key lotId = some state → state.openedIn ≤ making.head
  lines : LinesAccount book.openUnits book.openUnits making.draft.body.lines

/-- Every lot the book holds is accounted for by its reliefs. -/
def LotsAccounted (book : Book) : Prop :=
  ∀ key lotId state, book.lotAt key lotId = some state → Accounted state.lot

theorem lotsAccounted_make {book after : Book} {making : Making} (accounted : book.LotsAccounted)
    (accounts : book.AccountsFor making) (taken : make book making = .ok after) : after.LotsAccounted := by
  obtain ⟨act, decided, rfl⟩ := make_ok taken
  obtain ⟨applied, -, -⟩ := made_ok decided
  obtain ⟨refs, sales, moved, lines, same⟩ := accounts_of_applied applied
  have start : LotsAccount book.openUnits (making.head + 1)
      { book with chains := (book.number (making.draft.entry book making.head making.ctx)).2.last } := by
    constructor
    · exact accounted
    · intro key lotId held
      rw [openUnits, Option.isSome_map] at held
      exact held
    · rintro lotId - key state held
      have earlier := accounts.numbered key lotId state held
      omega
    · intro lotId unheld key state held
      change book.lotAt key lotId = some state at held
      exact absurd ⟨key, by rw [openUnits, held]; rfl⟩ unheld
  have lots := lotsAccount_lines start accounts.lines lines
  intro key lotId state held
  change act.book.lotAt key lotId = some state at held
  have account := congrFun (congrFun same key) lotId
  unfold Book.accounts at account
  rw [held, Option.map_some] at account
  obtain ⟨state', held', account⟩ := Option.map_eq_some_iff.mp account.symm
  have known := lots.accounted key lotId state' held'
  simp only [accountOf, Prod.mk.injEq] at account
  obtain ⟨-, original, open', reliefs⟩ := account
  unfold Accounted reliefUnits at known ⊢
  rwa [← original, ← open', ← reliefs]

/-- In every run whose acts account for the lots they name, a lot's reliefs sum to what is gone of it. -/
theorem reliefs_account_for_lots {accountId partition : String} {makings : List Making} {book : Book}
    (run : Run (fun book making after => book.AccountsFor making ∧ make book making = .ok after)
      (Book.new accountId partition) makings book) : book.LotsAccounted :=
  run.invariant_of LotsAccounted (fun key lotId state held => by simp [lotAt, Book.new] at held)
    fun _ _ _ accounted accounts taken => lotsAccounted_make accounted accounts taken

/-- A fill selling forty of a lot of a hundred. -/
def sellingForty : Making where
  head := 1
  ctx := {}
  draft := { entryId := "ENT-2", kind := "execution-recorded", effectiveDate := "2026-01-06", body := sellingBody "INS-1" }

theorem lots_all {book : Book} {holds : LotState → Bool}
    (all : (book.positions.toList.all fun entry => entry.2.lots.toList.all fun lot => holds lot.2) = true)
    {key : Key} {lotId : String} {state : LotState} (held : book.lotAt key lotId = some state) : holds state = true := by
  obtain ⟨position, found, lot⟩ := lotAt_eq_some.mp held
  exact List.all_eq_true.mp (List.all_eq_true.mp all _ (BTreeMap.mem_toList.mpr found)) _ (BTreeMap.mem_toList.mpr lot)

theorem accountsFor_openingOn (accountId partition instrument : String) :
    (Book.new accountId partition).AccountsFor (openingOn instrument) := by
  refine ⟨fun key lotId state held => by simp [lotAt, Book.new] at held, ⟨⟨?_, ?_⟩, trivial⟩⟩
  · rintro - units ⟨first, -, held, -⟩
    simp [openUnits, lotAt, Book.new] at held
  · intro opens
    cases opens

/-- A lot of a hundred, and a fill selling forty of it. -/
theorem reliefs_account_for_sold : ∃ book : Book, book.LotsAccounted ∧
    (book.lotAt ⟨"INS-1", .long, ""⟩ "LOT-1").any (fun state => state.lot.reliefs.length == 1) = true := by
  have computed : (make (Book.new "ACC-1" "P-1") (openingOn "INS-1")).toOption.any (fun opened =>
      (opened.positions.toList.all fun entry => entry.2.lots.toList.all fun lot =>
          decide (lot.2.openedIn ≤ 1 ∧ lot.2.lot.openQuantity.units = 100 * 10 ^ 18)) &&
        (make opened sellingForty).toOption.any fun book =>
          (book.lotAt ⟨"INS-1", .long, ""⟩ "LOT-1").any fun state => state.lot.reliefs.length == 1) = true := by
    decide +kernel
  obtain ⟨opened, first, computed⟩ := answered_of computed
  obtain ⟨lots, computed⟩ := Bool.and_eq_true_iff.mp computed
  obtain ⟨book, second, relieved⟩ := answered_of computed
  have within (key : Key) (lotId : String) (state : LotState) (held : opened.lotAt key lotId = some state) :
      state.openedIn ≤ 1 ∧ state.lot.openQuantity.units = 100 * 10 ^ 18 := by
    have all := @lots_all opened (fun state => decide (state.openedIn ≤ 1 ∧ state.lot.openQuantity.units = 100 * 10 ^ 18))
      lots key lotId state held
    exact of_decide_eq_true all
  have selling : opened.AccountsFor sellingForty := by
    refine ⟨fun key lotId state held => (within key lotId state held).1, ⟨⟨?_, ?_⟩, trivial⟩⟩
    · intro opens
      cases opens
    · intro _ _ _ units held
      obtain ⟨state, lot, rfl⟩ := Option.map_eq_some_iff.mp held
      rw [(within _ _ state lot).2]
      exact .inr (by decide +kernel)
  exact ⟨book, reliefs_account_for_lots (.snoc (.snoc (.nil _) ⟨accountsFor_openingOn _ _ _, first⟩) ⟨selling, second⟩),
    relieved⟩

/-- The report that a fill did not happen. -/
def bust : Execution := { executionId := "EXE-2", instrumentId := "INS-1", side := .sell, supersedes := "EXE-1" }

/-- The bust of the fill recorded, its lines those the book reverses the fill by. -/
def bustingForty (book : Book) : Making where
  head := 3
  ctx := {}
  draft := {
    entryId := "ENT-3"
    kind := "execution-recorded"
    effectiveDate := "2026-01-07"
    body := {
      acts := [.executed bust "VENUE-1" "" "" "" {}]
      lines := (executionLines book {} "" bust true).toOption.getD []
      trade := true } }

/-- A sale busted leaves its relief recorded on the lot it gave back. -/
theorem bust_leaves_relief :
    ¬ ∀ (accountId partition : String) (makings : List Making) (book : Book),
      Run (fun book making after => make book making = .ok after) (Book.new accountId partition) makings book →
        book.LotsAccounted := by
  intro claim
  have computed : (make (Book.new "ACC-1" "P-1") (openingOn "INS-1")).toOption.any (fun opened =>
      (make opened sellingForty).toOption.any fun sold =>
        (make sold (bustingForty sold)).toOption.any fun book =>
          (book.lotAt ⟨"INS-1", .long, ""⟩ "LOT-1").any fun state =>
            reliefUnits state.lot != |state.lot.originalQuantity.units| - |state.lot.openQuantity.units|) = true := by
    decide +kernel
  obtain ⟨opened, first, computed⟩ := answered_of computed
  obtain ⟨sold, second, computed⟩ := answered_of computed
  obtain ⟨book, third, computed⟩ := answered_of computed
  obtain ⟨state, held, differ⟩ := (Option.any_eq_true _ (book.lotAt _ _)).mp computed
  have accounted := claim "ACC-1" "P-1" _ book (.snoc (.snoc (.snoc (.nil _) first) second) third) _ _ state held
  unfold Accounted at accounted
  simp [accounted] at differ

end Book

end MeridianCore.Bor
