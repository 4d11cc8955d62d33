import MeridianCore.Bor.Book.Followed

namespace MeridianCore.Bor

/-- How much an encumbrance is of. -/
def encumbranceUnits (encumbrance : Encumbrance) : Int := ((readExact encumbrance.quantity).map Exact.units).getD 0

/-- The total encumbered quantity of a position. -/
def PositionState.encumberedUnits (position : PositionState) : Int :=
  (position.encumbrances.map encumbranceUnits).sum

namespace Book

/-- What is free of a position is what is settled less what is encumbered. -/
theorem free_units {position : PositionState} {free : Exact} (freed : position.free = .ok (some free)) :
    free.units = position.settled.units - position.encumberedUnits := by
  have folded (encumbrances : List Encumbrance) (start left : Exact)
      (done : encumbrances.foldlM (fun free encumbrance => do
        let quantity ← numbers.required "encumbrances.quantity" encumbrance.quantity
        numbers.add "free_quantity" free quantity.negated) start = .ok left) :
      left.units = start.units - (encumbrances.map encumbranceUnits).sum := by
    induction encumbrances generalizing start with
    | nil =>
      cases done
      simp
    | cons encumbrance rest ih =>
      rw [List.foldlM_cons] at done
      obtain ⟨next, added, done⟩ := bind_ok.mp done
      obtain ⟨quantity, read, added⟩ := bind_ok.mp added
      have own : encumbranceUnits encumbrance = quantity.units := by
        let line : MovementLine := { instrumentId := "", side := .long, bucket := .settled, quantity := encumbrance.quantity }
        exact @lineUnits_of_read _ line quantity read
      rw [ih next done, add_ok added, Exact.units_negated, List.map_cons, List.sum_cons, own]
      omega
  unfold PositionState.free at freed
  split at freed
  · obtain ⟨left, done, freed⟩ := bind_ok.mp freed
    cases freed
    exact folded _ _ _ done
  · cases freed

variable {process : Process} {refs : List (Key × JournalRef)} {sales : List Sale} {sequence : Nat}
  {book after : Book} {line : MovementLine} {key : Key} {placeholder instrument : String}

/-- The encumbrances of the position at a key. -/
def encumbrancesAt (book : Book) (key : Key) : List Encumbrance :=
  ((book.positions[key]?).map PositionState.encumbrances).getD []

theorem encumbrancesAt_setPosition {position : PositionState}
    (same : position.encumbrances = ((book.positions[key]?).getD (PositionState.new key)).encumbrances) (other : Key) :
    (book.setPosition key position).encumbrancesAt other = book.encumbrancesAt other := by
  unfold encumbrancesAt setPosition
  rw [Std.ExtTreeMap.getElem?_insert]
  by_cases here : key = other
  · subst here
    rw [if_pos (by simp), Option.map_some, Option.getD_some, same]
    cases book.positions[key]? <;> rfl
  · simp [here]

theorem encumbrancesAt_modify {change : PositionState → PositionState}
    (same : ∀ position, (change position).encumbrances = position.encumbrances) (other : Key) :
    encumbrancesAt { book with positions := book.positions.modify key change } other = book.encumbrancesAt other := by
  unfold encumbrancesAt
  rw [Std.ExtTreeMap.getElem?_modify]
  by_cases here : key = other
  · subst here
    simp only [Std.compare_self, if_true]
    cases book.positions[key]? with
    | none => rfl
    | some position => simp [same]
  · simp [here]

theorem encumbrancesAt_applyLine (applied : applyLine process refs sales sequence false book line = .ok after) (key : Key) :
    after.encumbrancesAt key = book.encumbrancesAt key := by
  unfold applyLine at applied
  obtain ⟨quantity, read, applied⟩ := bind_ok.mp applied
  obtain ⟨bucketed, added, applied⟩ := bind_ok.mp applied
  obtain ⟨position, lots, applied⟩ := bind_ok.mp applied
  cases applied
  refine encumbrancesAt_setPosition ?_ key
  rw [applyLot_keeps lots]
  unfold PositionState.addToBucket at added
  split at added
  · obtain ⟨settled, -, added⟩ := bind_ok.mp added
    cases added
    rfl
  · obtain ⟨sum, -, added⟩ := bind_ok.mp added
    cases added
    rfl
  · obtain ⟨notStated, -, added⟩ := bind_ok.mp added
    cases added
    rfl
  · cases added

theorem encumbrancesAt_onLot (lotId : String) (change : Lot → Lot) (key : Key) :
    (book.onLot lotId change).encumbrancesAt key = book.encumbrancesAt key := by
  unfold onLot
  split
  · exact encumbrancesAt_modify (by exact fun _ => rfl) key
  · rfl

theorem encumbrancesAt_foldl {α : Type} {change : Book → α → Book} {key : Key}
    (keeps : ∀ book entry, (change book entry).encumbrancesAt key = book.encumbrancesAt key) (entries : List α)
    (book : Book) : (entries.foldl change book).encumbrancesAt key = book.encumbrancesAt key := by
  induction entries generalizing book with
  | nil => rfl
  | cons entry rest ih => rw [List.foldl_cons, ih, keeps]

theorem encumbrancesAt_markAwaited (body : Body) (key : Key) :
    (book.markAwaited process body).encumbrancesAt key = book.encumbrancesAt key := by
  unfold markAwaited
  dsimp only
  rw [encumbrancesAt_foldl fun held mark => ?_, encumbrancesAt_foldl fun held lotId => encumbrancesAt_onLot lotId _ key]
  refine encumbrancesAt_foldl (fun held line => ?_) _ _
  split
  · exact encumbrancesAt_onLot _ _ key
  · rfl

theorem encumbrancesAt_adjustBasis {body : Body} {lenient : Bool} {adjustment : BasisAdjustment}
    (adjusted : adjustBasis refs body lenient book adjustment = .ok after) (key : Key) :
    after.encumbrancesAt key = book.encumbrancesAt key := by
  unfold adjustBasis at adjusted
  split at adjusted
  · split at adjusted
    · cases adjusted
      rfl
    · cases adjusted
  · split at adjusted
    · cases adjusted
      rfl
    · next position found =>
      split at adjusted
      · cases adjusted
        rfl
      · obtain ⟨terms, -, adjusted⟩ := bind_ok.mp adjusted
        cases adjusted
        refine encumbrancesAt_setPosition ?_ key
        rw [found]
        rfl

theorem encumbrancesAt_recordPositions {entry : Entry} {previous : List (Key × Exact)}
    {rows rowsAfter : List (BookPosition × Exact)} {keys : List (Key × JournalRef)}
    (recorded : keys.foldlM (recordPosition entry previous) (book, rows) = .ok (after, rowsAfter)) (key : Key) :
    after.encumbrancesAt key = book.encumbrancesAt key := by
  induction keys generalizing book rows with
  | nil =>
    cases recorded
    rfl
  | cons row rest ih =>
    rw [List.foldlM_cons] at recorded
    obtain ⟨⟨next, nextRows⟩, stepped, recorded⟩ := bind_ok.mp recorded
    rw [ih recorded]
    unfold recordPosition at stepped
    obtain ⟨record, -, stepped⟩ := bind_ok.mp stepped
    cases stepped
    exact encumbrancesAt_setPosition (by exact rfl) key

theorem isSome_of_holdings {other : Book} (same : other.holdings = book.holdings) :
    (other.positions[key]?).isSome = (book.positions[key]?).isSome := by
  have here := congrArg Option.isSome (congrFun same key)
  simpa [holdings] using here

theorem isSome_lines {lines : List MovementLine}
    (applied : lines.foldlM (applyLine process refs sales sequence false) book = .ok after)
    (held : (book.positions[key]?).isSome) : (after.positions[key]?).isSome := by
  induction lines generalizing book with
  | nil =>
    cases applied
    exact held
  | cons line rest ih =>
    rw [List.foldlM_cons] at applied
    obtain ⟨next, moved, applied⟩ := bind_ok.mp applied
    refine ih applied ?_
    obtain ⟨quantity, bucketed, position, -, -, -, rfl⟩ := applyLine_position moved
    unfold setPosition
    rw [Std.ExtTreeMap.getElem?_insert]
    split
    · rfl
    · exact held

theorem encumbrancesAt_lines {lines : List MovementLine}
    (applied : lines.foldlM (applyLine process refs sales sequence false) book = .ok after) (key : Key) :
    after.encumbrancesAt key = book.encumbrancesAt key := by
  induction lines generalizing book with
  | nil =>
    cases applied
    rfl
  | cons line rest ih =>
    rw [List.foldlM_cons] at applied
    obtain ⟨next, moved, applied⟩ := bind_ok.mp applied
    rw [ih applied, encumbrancesAt_applyLine moved]

/-- An entry's encumbrances, set at each position it names; nothing else of it sets one. -/
theorem encumbrancesAt_of_applied {entry : Entry} {changes : Changes}
    (applied : book.apply process entry false = .ok (after, changes)) (key : Key) :
    ∃ held : Book, held.encumbrancesAt key = book.encumbrancesAt key ∧
      ((book.positions[key]?).isSome → (held.positions[key]?).isSome) ∧
      after.encumbrancesAt key =
        (entry.body.encumbrances.foldl (encumber (book.number entry).1.positions) held).encumbrancesAt key := by
  obtain ⟨phases⟩ := phases applied
  have moves := phases.moves
  unfold applyPositions at moves
  obtain ⟨moved, lines, moves⟩ := bind_ok.mp moves
  obtain ⟨adjusted, bases, moves⟩ := bind_ok.mp moves
  have onLines : moved.encumbrancesAt key = book.encumbrancesAt key := encumbrancesAt_lines lines key
  have onBases : adjusted.encumbrancesAt key = (moved.markAwaited process entry.body).encumbrancesAt key :=
    foldlM_keeps (fun _ _ _ held adjusted => (encumbrancesAt_adjustBasis adjusted key).trans held) _ rfl bases
  have shape : adjusted.holdings = moved.holdings :=
    (foldlM_keeps (fun _ _ _ held adjusted => (holdings_adjustBasis adjusted).trans held) _ rfl bases).trans (holdings_markAwaited _ _ _)
  refine ⟨adjusted, onBases.trans ((encumbrancesAt_markAwaited _ key).trans onLines), fun held => ?_, ?_⟩
  · rw [isSome_of_holdings shape]
    exact isSome_lines lines held
  · have recorded : after.encumbrancesAt key = phases.moved.encumbrancesAt key := by
      rw [← encumbrancesAt_recordPositions phases.records key]
      unfold encumbrancesAt
      rw [phases.recorded_positions]
    rw [recorded, ← Except.ok.inj moves]
    split
    · rfl
    · exact encumbrancesAt_foldl (fun held of => encumbrancesAt_modify (by exact fun _ => rfl) key) _ _

/-- A book's positions of a sleeve carry no encumbrance: an encumbrance is of the account's unsleeved position. -/
def Unsleeved (book : Book) : Prop := ∀ key : Key, key.sleeve ≠ "" → book.encumbrancesAt key = []

theorem encumbrancesAt_encumber (named : String × HoldingSide × List Encumbrance) (key : Key) :
    (encumber refs book named).encumbrancesAt key =
      if (⟨named.1, named.2.1, ""⟩ : Key) = key ∧ (book.positions[key]?).isSome then
        named.2.2.map fun encumbrance => { encumbrance with setBy := some (refAt refs key) }
      else book.encumbrancesAt key := by
  unfold encumber encumbrancesAt
  rw [Std.ExtTreeMap.getElem?_modify]
  by_cases here : (⟨named.1, named.2.1, ""⟩ : Key) = key
  · subst here
    cases held : book.positions[(⟨named.1, named.2.1, ""⟩ : Key)]? with
    | none => simp [held]
    | some position => simp [held]
  · simp [here]

theorem isSome_encumber (named : String × HoldingSide × List Encumbrance) (key : Key) :
    ((encumber refs book named).positions[key]?).isSome = (book.positions[key]?).isSome :=
  isSome_of_holdings (holdings_encumber refs book named)

/-- Encumbrances named for other positions set none of this one. -/
theorem encumbrancesAt_unnamed (named : List (String × HoldingSide × List Encumbrance)) (book : Book)
    (apart : ∀ each ∈ named, (⟨each.1, each.2.1, ""⟩ : Key) ≠ key) :
    (named.foldl (encumber refs) book).encumbrancesAt key = book.encumbrancesAt key := by
  induction named generalizing book with
  | nil => rfl
  | cons first rest ih =>
    rw [List.foldl_cons, ih _ fun each member => apart each (List.mem_cons_of_mem _ member), encumbrancesAt_encumber,
      if_neg fun here => apart first List.mem_cons_self here.1]

/-- Encumbrances all named alike for a position are those it carries after. -/
theorem encumbrancesAt_named {set : List Encumbrance} (named : List (String × HoldingSide × List Encumbrance)) (book : Book)
    (held : (book.positions[key]?).isSome)
    (alike : ∀ each ∈ named, (⟨each.1, each.2.1, ""⟩ : Key) = key → each.2.2 = set)
    (one : ∃ each ∈ named, (⟨each.1, each.2.1, ""⟩ : Key) = key) :
    (named.foldl (encumber refs) book).encumbrancesAt key =
      set.map fun encumbrance => { encumbrance with setBy := some (refAt refs key) } := by
  induction named generalizing book with
  | nil =>
    obtain ⟨each, member, -⟩ := one
    cases member
  | cons first rest ih =>
    rw [List.foldl_cons]
    by_cases later : ∃ each ∈ rest, (⟨each.1, each.2.1, ""⟩ : Key) = key
    · exact ih _ ((isSome_encumber first key).trans held) (fun each member => alike each (List.mem_cons_of_mem _ member)) later
    · have apart : ∀ each ∈ rest, (⟨each.1, each.2.1, ""⟩ : Key) ≠ key := fun each member same => later ⟨each, member, same⟩
      obtain ⟨each, member, same⟩ := one
      have first' : (⟨first.1, first.2.1, ""⟩ : Key) = key := by
        rcases List.mem_cons.mp member with rfl | other
        · exact same
        · exact absurd same (apart each other)
      rw [encumbrancesAt_unnamed rest _ apart, encumbrancesAt_encumber, if_pos ⟨first', held⟩,
        alike first List.mem_cons_self first']

theorem unsleeved_make {making : Making} (unsleeved : book.Unsleeved) (taken : make book making = .ok after) :
    after.Unsleeved := by
  obtain ⟨act, decided, rfl⟩ := make_ok taken
  obtain ⟨applied, -, -⟩ := made_ok decided
  intro key sleeve
  obtain ⟨held, same, -, set⟩ := encumbrancesAt_of_applied applied key
  change act.book.encumbrancesAt key = []
  rw [set, encumbrancesAt_unnamed _ _ fun each _ named => sleeve (congrArg Key.sleeve named).symm, same]
  exact unsleeved key sleeve

theorem Kept.unsleeved {accountId partition : String} {makings : List Making}
    (kept : book.Kept accountId partition makings) : book.Unsleeved :=
  kept.invariant_of Unsleeved (fun (key : Key) _ => by simp [encumbrancesAt, Book.new])
    fun _ _ _ held _ taken => unsleeved_make held taken

/-- What the instrument's position is encumbered by after an account follows a replacement: the placeholder's own set,
where its position stood, in place of the instrument's. -/
theorem encumbrancesAt_follow (unsleeved : book.Unsleeved) {head : Nat} {ctx : Context} {resolved : Bool} {act : Made}
    (followed : followReplacement book head ctx placeholder instrument resolved = .ok (some act)) {side : HoldingSide}
    {placed into : PositionState} (found : book.positions[(⟨placeholder, side, ""⟩ : Key)]? = some placed)
    (onto : book.positions[(⟨instrument, side, ""⟩ : Key)]? = some into) (carries : placed.encumbrances ≠ []) :
    (act.held.encumbrancesAt ⟨instrument, side, ""⟩).map encumbranceUnits =
      (if placed.removed then into else placed).encumbrances.map encumbranceUnits := by
  obtain ⟨draft, body, decided⟩ := follow_ok followed
  obtain ⟨applied, -, -⟩ := made_ok decided
  obtain ⟨held, same, stays, set⟩ := encumbrancesAt_of_applied applied ⟨instrument, side, ""⟩
  have entryBody : (draft.entry book head ctx).body = replacementBody book placeholder instrument := body
  change (act.book.encumbrancesAt ⟨instrument, side, ""⟩).map encumbranceUnits = _
  rw [set, entryBody]
  -- The one position that names the instrument's own: the placeholder's, standing and carrying some.
  have names (each : String × HoldingSide × List Encumbrance)
      (member : each ∈ (replacementBody book placeholder instrument).encumbrances)
      (at_ : (⟨each.1, each.2.1, ""⟩ : Key) = ⟨instrument, side, ""⟩) :
      placed.removed = false ∧ each.2.2 = placed.encumbrances := by
    obtain ⟨⟨key, position⟩, held, rfl⟩ := List.mem_map.mp member
    obtain ⟨held, some'⟩ := List.mem_filter.mp held
    obtain ⟨found', under, standing⟩ := mem_heldUnder.mp held
    have sleeve : key.sleeve = "" := by
      by_contra sleeve
      have none' := unsleeved key sleeve
      rw [encumbrancesAt, found'] at none'
      simp only [decide_eq_true_eq] at some'
      exact some' none'
    have here : key = ⟨placeholder, side, ""⟩ := by
      obtain ⟨named, ofSide, ofSleeve⟩ := key
      obtain ⟨-, sameSide, -⟩ := Key.mk.inj at_
      exact congr (congrArg₂ Key.mk under sameSide) sleeve
    subst here
    rw [found] at found'
    obtain rfl := Option.some.inj found'
    exact ⟨standing, rfl⟩
  cases removed : placed.removed with
  | true =>
    rw [encumbrancesAt_unnamed _ _ fun each member at_ => ?_, same, encumbrancesAt, onto]
    · rfl
    · rw [(names each member at_).1] at removed
      cases removed
  | false =>
    have one : ∃ each ∈ (replacementBody book placeholder instrument).encumbrances,
        (⟨each.1, each.2.1, ""⟩ : Key) = ⟨instrument, side, ""⟩ :=
      ⟨(instrument, side, placed.encumbrances), List.mem_map.mpr ⟨(⟨placeholder, side, ""⟩, placed),
        List.mem_filter.mpr ⟨mem_heldUnder.mpr ⟨found, rfl, removed⟩, by simpa using carries⟩, rfl⟩, rfl⟩
    rw [encumbrancesAt_named _ _ (stays (by rw [onto]; rfl)) (fun each member at_ => (names each member at_).2) one,
      List.map_map]
    rfl

/-- Following a replacement keeps the total encumbered quantity, and so the free quantity, of two positions that both
carry encumbrances exactly where the set that is not kept, the instrument's own or the one left on a placeholder's
position removed before, sums to nothing. -/
theorem follow_encumbrances_iff {accountId partition : String} {makings : List Making}
    (kept : book.Kept accountId partition makings) {head : Nat} {ctx : Context} {resolved : Bool} {act : Made}
    (apart : placeholder ≠ instrument)
    (followed : followReplacement book head ctx placeholder instrument resolved = .ok (some act)) {side : HoldingSide}
    {sleeve : String} {placed into : PositionState} (found : book.positions[(⟨placeholder, side, sleeve⟩ : Key)]? = some placed)
    (onto : book.positions[(⟨instrument, side, sleeve⟩ : Key)]? = some into) (carries : placed.encumbrances ≠ [])
    (carriesOwn : into.encumbrances ≠ []) :
    (∀ after, act.held.positions[(⟨instrument, side, sleeve⟩ : Key)]? = some after →
      after.encumberedUnits = placed.encumberedUnits + into.encumberedUnits ∧
      ∀ free freePlaced freeInto, after.free = .ok (some free) → placed.free = .ok (some freePlaced) →
        into.free = .ok (some freeInto) → free.units = freePlaced.units + freeInto.units) ↔
      (if placed.removed then placed else into).encumberedUnits = 0 := by
  have unsleeved : sleeve = "" := by
    by_contra sleeved
    have none' := kept.unsleeved ⟨placeholder, side, sleeve⟩ sleeved
    rw [encumbrancesAt, found] at none'
    exact carries none'
  subst unsleeved
  have encumbered := encumbrancesAt_follow kept.unsleeved followed found onto carries
  have settled := bucketAt_follow kept.bucketsCleared followed ⟨instrument, side, ""⟩ .settled ""
  rw [if_pos rfl, if_neg (Ne.symm apart), bucketAt_of_found onto] at settled
  have settled' : act.held.bucketAt ⟨instrument, side, ""⟩ .settled "" = into.settled.units + placed.settled.units := by
    rw [settled, ontoKey, bucketAt_of_found found, Int.sub_zero]
    rfl
  obtain ⟨after, there⟩ : ∃ after, act.held.positions[(⟨instrument, side, ""⟩ : Key)]? = some after := by
    cases missing : act.held.positions[(⟨instrument, side, ""⟩ : Key)]? with
    | some after => exact ⟨after, rfl⟩
    | none =>
      rw [encumbrancesAt, missing] at encumbered
      have empty := congrArg List.length encumbered
      simp only [Option.map_none, Option.getD_none, List.map_nil, List.length_nil, List.length_map] at empty
      split at empty
      · exact absurd (List.eq_nil_of_length_eq_zero empty.symm) carriesOwn
      · exact absurd (List.eq_nil_of_length_eq_zero empty.symm) carries
  have total : after.encumberedUnits = (if placed.removed then into else placed).encumberedUnits := by
    rw [encumbrancesAt, there] at encumbered
    exact congrArg List.sum encumbered
  rw [bucketAt_of_found there] at settled'
  change after.settled.units = _ at settled'
  constructor
  · intro holds
    have sum := (holds after there).1
    rw [total] at sum
    split at sum
    next removed => rw [if_pos removed]; omega
    next standing => rw [if_neg standing]; omega
  · intro nothing other there'
    rw [there] at there'
    obtain rfl := Option.some.inj there'
    have sum : after.encumberedUnits = placed.encumberedUnits + into.encumberedUnits := by
      rw [total]
      split at nothing
      next removed => rw [if_pos removed]; omega
      next standing => rw [if_neg standing]; omega
    refine ⟨sum, fun free freePlaced freeInto freed freedPlaced freedInto => ?_⟩
    rw [free_units freed, free_units freedPlaced, free_units freedInto, sum, settled']
    omega

/-- So much of an instrument settled, of no lot, and so much of it encumbered. -/
def encumberedOn (head : Nat) (entryId instrument : String) (quantity : Int) : Making where
  head := head
  ctx := {}
  draft := {
    entryId := entryId
    kind := "opening-balance"
    effectiveDate := "2026-01-05"
    body := {
      lines := [{ instrumentId := instrument, side := .long, bucket := .settled, quantity := some ⟨100, 0⟩ }]
      encumbrances := [(instrument, .long, [{ quantity := some ⟨quantity, 0⟩ }])] } }

/-- Both records' positions encumbered, by thirty and by so much. -/
def bothEncumbered (own : Int) : List Making :=
  [encumberedOn 0 "ENT-1" "LCL-1" 30, encumberedOn 1 "ENT-2" "INS-1" own]

theorem drafted_encumberedOn (book : Book) (head : Nat) (entryId instrument : String) (quantity : Int) :
    book.Drafted (encumberedOn head entryId instrument quantity).draft.body := by
  refine .minted (fun line member opened => ?_) ?_ rfl
  · obtain rfl := List.mem_singleton.mp member
    cases opened
  · exact List.nodup_nil

/-- An account that holds both records encumbered, and what it is once it follows the replacement. -/
theorem both_encumbered (own : Int) (check : Book → PositionState → PositionState → Made → Bool)
    (computed : ((bothEncumbered own).foldlM make (Book.new "ACC-1" "P-1")).toOption.any (fun book =>
      (followReplacement book 2 {} "LCL-1" "INS-1" false).toOption.any fun followed => followed.any fun act =>
        (book.positions[(⟨"LCL-1", .long, ""⟩ : Key)]?).any fun placed =>
          (book.positions[(⟨"INS-1", .long, ""⟩ : Key)]?).any fun into => check book placed into act) = true) :
    ∃ book act placed into, book.Kept "ACC-1" "P-1" (bothEncumbered own) ∧
      followReplacement book 2 {} "LCL-1" "INS-1" false = .ok (some act) ∧
      book.positions[(⟨"LCL-1", .long, ""⟩ : Key)]? = some placed ∧
      book.positions[(⟨"INS-1", .long, ""⟩ : Key)]? = some into ∧ check book placed into act = true := by
  obtain ⟨book, folded, computed⟩ := answered_of computed
  obtain ⟨followed, merged, computed⟩ := answered_of computed
  obtain ⟨act, rfl, computed⟩ := (Option.any_eq_true _ _).mp computed
  obtain ⟨placed, found, computed⟩ := (Option.any_eq_true _ (book.positions[_]?)).mp computed
  obtain ⟨into, onto, computed⟩ := (Option.any_eq_true _ (book.positions[_]?)).mp computed
  refine ⟨book, act, placed, into, ?_, merged, found, onto, computed⟩
  obtain ⟨first, opened, rest⟩ := bind_ok.mp folded
  obtain ⟨second, again, last⟩ := bind_ok.mp rest
  cases last
  exact .snoc (.snoc (.nil _) ⟨drafted_encumberedOn _ 0 "ENT-1" "LCL-1" 30, opened⟩)
    ⟨drafted_encumberedOn _ 1 "ENT-2" "INS-1" own, again⟩

/-- An instrument's own encumbrance of nothing loses nothing to the placeholder's. -/
theorem follow_encumbrances_kept : ∃ (book : Book) (act : Made) (placed into : PositionState),
    book.positions[(⟨"LCL-1", .long, ""⟩ : Key)]? = some placed ∧
    book.positions[(⟨"INS-1", .long, ""⟩ : Key)]? = some into ∧
    (∀ after, act.held.positions[(⟨"INS-1", .long, ""⟩ : Key)]? = some after →
      after.encumberedUnits = placed.encumberedUnits + into.encumberedUnits ∧
      ∀ free freePlaced freeInto, after.free = .ok (some free) → placed.free = .ok (some freePlaced) →
        into.free = .ok (some freeInto) → free.units = freePlaced.units + freeInto.units) := by
  obtain ⟨book, act, placed, into, kept, followed, found, onto, checked⟩ :=
    both_encumbered 0 (fun _ placed into _ => !placed.encumbrances.isEmpty && !into.encumbrances.isEmpty &&
      !placed.removed && into.encumberedUnits == 0) (by decide +kernel)
  simp only [Bool.and_eq_true, Bool.not_eq_true', List.isEmpty_eq_false_iff, beq_iff_eq] at checked
  obtain ⟨⟨⟨carries, carriesOwn⟩, standing⟩, nothing⟩ := checked
  refine ⟨book, act, placed, into, found, onto,
    (follow_encumbrances_iff kept (by decide) followed found onto carries carriesOwn).mpr ?_⟩
  rw [standing]
  exact nothing

/-- Twenty of the instrument's own encumbered is lost to the thirty that follow the placeholder. -/
theorem follow_loses_encumbrance :
    ¬ ∀ (accountId partition : String) (makings : List Making) (book : Book), book.Kept accountId partition makings →
      ∀ (head : Nat) (ctx : Context) (placeholder instrument : String) (resolved : Bool) (act : Made),
        placeholder ≠ instrument → followReplacement book head ctx placeholder instrument resolved = .ok (some act) →
        ∀ (side : HoldingSide) (sleeve : String) (placed into : PositionState),
          book.positions[(⟨placeholder, side, sleeve⟩ : Key)]? = some placed → placed.removed = false →
          book.positions[(⟨instrument, side, sleeve⟩ : Key)]? = some into → placed.encumbrances ≠ [] →
          into.encumbrances ≠ [] → ∀ after, act.held.positions[(⟨instrument, side, sleeve⟩ : Key)]? = some after →
            after.encumberedUnits = placed.encumberedUnits + into.encumberedUnits := by
  intro claim
  obtain ⟨book, act, placed, into, kept, followed, found, onto, checked⟩ :=
    both_encumbered 20 (fun _ placed into act => !placed.encumbrances.isEmpty && !into.encumbrances.isEmpty &&
      !placed.removed && (act.held.positions[(⟨"INS-1", .long, ""⟩ : Key)]?).any fun after =>
        after.encumberedUnits != placed.encumberedUnits + into.encumberedUnits) (by decide +kernel)
  simp only [Bool.and_eq_true, Bool.not_eq_true', List.isEmpty_eq_false_iff] at checked
  obtain ⟨⟨⟨carries, carriesOwn⟩, standing⟩, lost⟩ := checked
  obtain ⟨after, there, differ⟩ := (Option.any_eq_true _ (act.held.positions[_]?)).mp lost
  refine absurd (claim _ _ _ book kept 2 {} "LCL-1" "INS-1" false act (by decide) followed .long "" placed into found
    standing onto carries carriesOwn after there) (by simpa using differ)

end Book

end MeridianCore.Bor
