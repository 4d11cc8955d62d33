import MeridianCore.Bor.Book.LotAt
import MeridianCore.Bor.Decide

namespace MeridianCore.Bor

namespace Book

/-- What every act drafts: the lots its lines open are minted, each once, and nothing is removed; or
what the account holds under a record is moved onto another. -/
inductive Drafted (book : Book) (body : Body) : Prop where
  | minted (unheld : ∀ line ∈ body.lines, line.opensLot.isSome → ∀ key, book.lotAt key line.lotId = none)
      (once : ((body.lines.filter fun line => line.opensLot.isSome).map MovementLine.lotId).Nodup)
      (kept : body.tombstones = [])
  | merged (placeholder instrument : String) (apart : placeholder ≠ instrument)
      (moves : body = replacementBody book placeholder instrument)

/-- Each lot held under its own identifier, and wherever it is held, on one side and one sleeve. -/
structure LotsNamed (book : Book) : Prop where
  named : ∀ key lotId state, book.lotAt key lotId = some state → state.lot.lotId = lotId ∧ lotId ≠ ""
  kin : ∀ key other lotId, (book.lotAt key lotId).isSome → (book.lotAt other lotId).isSome →
    key.side = other.side ∧ key.sleeve = other.sleeve

/-- Lines that open a lot only where it is held on their side and sleeve, if anywhere. -/
structure OpensKin (book : Book) (lines : List MovementLine) : Prop where
  held : ∀ line ∈ lines, line.opensLot.isSome → ∀ key, (book.lotAt key line.lotId).isSome →
    key.side = line.side ∧ key.sleeve = line.sleeve
  alike : ∀ line ∈ lines, ∀ other ∈ lines, line.opensLot.isSome → other.opensLot.isSome →
    line.lotId = other.lotId → line.side = other.side ∧ line.sleeve = other.sleeve

section
variable {process : Process} {refs : List (Key × JournalRef)} {sales : List Sale} {sequence : Nat}
  {book after : Book}

theorem lotsNamed_of_held (named : book.LotsNamed)
    (same : ∀ key lotId, (after.lotAt key lotId).map LotState.held = (book.lotAt key lotId).map LotState.held) :
    after.LotsNamed := by
  have present (key : Key) (lotId : String) : (after.lotAt key lotId).isSome = (book.lotAt key lotId).isSome := by
    simpa using congrArg Option.isSome (same key lotId)
  constructor
  · intro key lotId state held
    have shape := same key lotId
    rw [held] at shape
    obtain ⟨before, found, alike⟩ := Option.map_eq_some_iff.mp shape.symm
    obtain ⟨own, nonempty⟩ := named.named key lotId before found
    exact ⟨(congrArg Prod.fst alike).symm.trans own, nonempty⟩
  · intro key other lotId here there
    rw [present] at here there
    exact named.kin key other lotId here there

/-- A line opens a lot beside its kin, or moves one that is there. -/
theorem lotsNamed_line {line : MovementLine} (named : book.LotsNamed) (kin : book.OpensKin [line])
    (applied : applyLine process refs sales sequence false book line = .ok after) : after.LotsNamed := by
  obtain ⟨quantity, -, lots, beside⟩ := lineLots applied
  -- Where the line is named, what the lot is held as; elsewhere it is as it was.
  have holder (key : Key) (lotId : String) (held : (after.lotAt key lotId).isSome) :
      (key = lineKey line ∧ lotId = line.lotId ∧ line.opensLot.isSome) ∨ (book.lotAt key lotId).isSome := by
    by_cases here : key = lineKey line ∧ lotId = line.lotId
    · cases lots with
      | unnamed none' same =>
        rw [same] at held
        exact .inr held
      | opened _ opens => exact .inl ⟨here.1, here.2, opens⟩
      | moved _ _ found =>
        rw [here.1, here.2, found]
        exact .inr rfl
    · rw [beside key lotId here] at held
      exact .inr held
  constructor
  · intro key lotId state held
    by_cases here : key = lineKey line ∧ lotId = line.lotId
    · obtain ⟨rfl, rfl⟩ := here
      cases lots with
      | unnamed none' same =>
        rw [same] at held
        exact named.named _ _ _ held
      | @opened now nonempty _ held' carries mints =>
        rw [held] at held'
        obtain rfl := Option.some.inj held'
        refine ⟨?_, nonempty⟩
        cases carried : book.carriedLot (lineKey line) line.lotId with
        | none => exact (mints carried).1
        | some source =>
          obtain ⟨ordinal, same⟩ := carries source carried
          obtain ⟨first, -, found⟩ := carriedLot_eq_some.mp carried
          rw [same]
          exact (named.named first line.lotId source found).1
      | moved nonempty _ found moves held' =>
        rw [held] at held'
        obtain rfl := Option.some.inj held'
        exact ⟨(moveLot_ok moves).1.trans (named.named _ _ _ found).1, nonempty⟩
    · rw [beside key lotId here] at held
      exact named.named key lotId state held
  · intro key other lotId here there
    rcases holder key lotId here with ⟨rfl, rfl, opens⟩ | before
    · rcases holder other line.lotId there with ⟨rfl, -, -⟩ | before'
      · exact ⟨rfl, rfl⟩
      · have same := kin.held line List.mem_cons_self opens other before'
        exact ⟨same.1.symm, same.2.symm⟩
    · rcases holder other lotId there with ⟨rfl, rfl, opens⟩ | before'
      · exact kin.held line List.mem_cons_self opens key before
      · exact named.kin key other lotId before before'

theorem opensKin_line {line : MovementLine} {rest : List MovementLine} (kin : book.OpensKin (line :: rest))
    (applied : applyLine process refs sales sequence false book line = .ok after) : after.OpensKin rest := by
  obtain ⟨quantity, -, lots, beside⟩ := lineLots applied
  constructor
  · intro other member opens key held
    by_cases here : key = lineKey line ∧ other.lotId = line.lotId
    · cases lots with
      | unnamed none' same =>
        rw [same] at held
        exact kin.held other (List.mem_cons_of_mem _ member) opens key held
      | opened _ opened =>
        rw [here.1]
        exact kin.alike line List.mem_cons_self other (List.mem_cons_of_mem _ member) opened opens here.2.symm
      | moved _ _ found =>
        refine kin.held other (List.mem_cons_of_mem _ member) opens key ?_
        rw [here.1, here.2, found]
        rfl
    · rw [beside key other.lotId here] at held
      exact kin.held other (List.mem_cons_of_mem _ member) opens key held
  · intro one member other member'
    exact kin.alike one (List.mem_cons_of_mem _ member) other (List.mem_cons_of_mem _ member')

theorem lotsNamed_lines {lines : List MovementLine} (named : book.LotsNamed) (kin : book.OpensKin lines)
    (applied : lines.foldlM (applyLine process refs sales sequence false) book = .ok after) : after.LotsNamed := by
  induction lines generalizing book with
  | nil =>
    cases applied
    exact named
  | cons line rest ih =>
    rw [List.foldlM_cons] at applied
    obtain ⟨next, moved, applied⟩ := bind_ok.mp applied
    have one : book.OpensKin [line] :=
      ⟨fun other member => kin.held other (by simp_all), fun one member other member' =>
        kin.alike one (by simp_all) other (by simp_all)⟩
    exact ih (lotsNamed_line named one moved) (opensKin_line kin moved) applied

end

/-- A lot a record's position, not removed, holds open. -/
structure OpenUnder (book : Book) (placeholder : String) (key : Key) (lotId : String) (state : LotState) : Prop where
  under : key.instrument = placeholder
  standing : ∃ position, book.positions[key]? = some position ∧ position.removed = false ∧
    position.lots[lotId]? = some state
  opened : state.lot.openQuantity.units ≠ 0

theorem OpenUnder.held {book : Book} {placeholder lotId : String} {key : Key} {state : LotState}
    (under : book.OpenUnder placeholder key lotId state) : book.lotAt key lotId = some state := by
  obtain ⟨position, found, -, lot⟩ := under.standing
  exact lotAt_eq_some.mpr ⟨position, found, lot⟩

/-- Where a merge carries what a key holds. -/
def ontoKey (key : Key) (instrument : String) : Key := { key with instrument }

theorem mem_heldUnder {book : Book} {placeholder : String} {entry : Key × PositionState} :
    entry ∈ heldUnder book placeholder ↔
      book.positions[entry.1]? = some entry.2 ∧ entry.1.instrument = placeholder ∧ entry.2.removed = false := by
  obtain ⟨key, position⟩ := entry
  simp [heldUnder]

theorem mem_carryLot {placeholder instrument : String} {key : Key} {carrier : Bucket} {state : LotState}
    {line : MovementLine} (member : line ∈ carryLot placeholder instrument key carrier state) :
    line.side = key.side ∧ line.sleeve = key.sleeve ∧ state.lot.openQuantity.units ≠ 0 ∧
      (line.lotId = "" ∧ line.opensLot = none ∨
        line.lotId = state.lot.lotId ∧ (line.opensLot.isSome → line.instrumentId = instrument)) := by
  unfold carryLot at member
  simp only at member
  split at member
  · cases member
  next opened =>
  have units : state.lot.openQuantity.units ≠ 0 := by simpa using opened
  simp only [List.mem_cons, List.not_mem_nil, or_false] at member
  rcases member with rfl | rfl | rfl | rfl
  · exact ⟨rfl, rfl, units, .inr ⟨rfl, fun _ => rfl⟩⟩
  · exact ⟨rfl, rfl, units, .inr ⟨rfl, fun opens => by cases opens⟩⟩
  · exact ⟨rfl, rfl, units, .inl ⟨rfl, rfl⟩⟩
  · exact ⟨rfl, rfl, units, .inl ⟨rfl, rfl⟩⟩

/-- A line of one position's move is of it, and names a lot only where the position holds it open. -/
theorem mem_movedPosition {placeholder instrument : String} {key : Key} {position : PositionState}
    {line : MovementLine} (member : line ∈ movedPosition placeholder instrument key position) :
    line.side = key.side ∧ line.sleeve = key.sleeve ∧
      (line.lotId = "" ∧ line.opensLot = none ∨
        ∃ (lotId : String) (state : LotState), position.lots[lotId]? = some state ∧
          state.lot.openQuantity.units ≠ 0 ∧ line.lotId = state.lot.lotId ∧
          (line.opensLot.isSome → line.instrumentId = instrument)) := by
  unfold movedPosition at member
  rcases List.mem_append.mp member with ofBuckets | ofLots
  · obtain ⟨bucket, -, pair⟩ := List.mem_flatMap.mp ofBuckets
    rcases List.mem_cons.mp pair with rfl | pair
    · exact ⟨rfl, rfl, .inl ⟨rfl, rfl⟩⟩
    · obtain rfl := List.mem_singleton.mp pair
      exact ⟨rfl, rfl, .inl ⟨rfl, rfl⟩⟩
  · obtain ⟨state, held, carried⟩ := List.mem_flatMap.mp ofLots
    obtain ⟨⟨lotId, state'⟩, found, rfl⟩ := List.mem_map.mp held
    obtain ⟨side, sleeve, opened, unnamed | ⟨names, opens⟩⟩ := mem_carryLot carried
    · exact ⟨side, sleeve, .inl unnamed⟩
    · exact ⟨side, sleeve, .inr ⟨lotId, state', BTreeMap.mem_toList.mp found, opened, names, opens⟩⟩

/-- A line of a merge names a lot only where a position under the record replaced holds it open. -/
theorem mem_replacement {book : Book} (named : book.LotsNamed) {placeholder instrument : String} {line : MovementLine}
    (member : line ∈ (replacementBody book placeholder instrument).lines) :
    line.lotId = "" ∧ line.opensLot = none ∨
      ∃ key state, book.OpenUnder placeholder key line.lotId state ∧ line.side = key.side ∧ line.sleeve = key.sleeve ∧
        (line.opensLot.isSome → line.instrumentId = instrument) := by
  obtain ⟨⟨key, position⟩, held, moved⟩ := List.mem_flatMap.mp member
  obtain ⟨found, under, standing⟩ := mem_heldUnder.mp held
  obtain ⟨side, sleeve, unnamed | ⟨lotId, state, lot, opened, names, opens⟩⟩ := mem_movedPosition moved
  · exact .inl unnamed
  · have own := (named.named key lotId state (lotAt_eq_some.mpr ⟨position, found, lot⟩)).1
    rw [names, own]
    exact .inr ⟨key, state, ⟨under, ⟨position, found, standing, lot⟩, opened⟩, side, sleeve, opens⟩

/-- One record's positions hold a lot open once. -/
theorem OpenUnder.unique {book : Book} (named : book.LotsNamed) {placeholder lotId : String} {key other : Key}
    {state state' : LotState} (here : book.OpenUnder placeholder key lotId state)
    (there : book.OpenUnder placeholder other lotId state') : key = other := by
  obtain ⟨side, sleeve⟩ := named.kin key other lotId (by rw [here.held]; rfl) (by rw [there.held]; rfl)
  have instrument := here.under.trans there.under.symm
  cases key
  cases other
  simp_all

theorem opensKin_replacement {book : Book} (named : book.LotsNamed) (placeholder instrument : String) :
    book.OpensKin (replacementBody book placeholder instrument).lines := by
  constructor
  · intro line member opens key held
    rcases mem_replacement named member with ⟨-, none'⟩ | ⟨under, state, opened, side, sleeve, -⟩
    · rw [none'] at opens
      cases opens
    · rw [side, sleeve]
      exact named.kin key under line.lotId held (by rw [opened.held]; rfl)
  · intro line member other member' opens opens' same
    rcases mem_replacement named member with ⟨-, none'⟩ | ⟨under, state, opened, side, sleeve, -⟩
    · rw [none'] at opens
      cases opens
    · rcases mem_replacement named member' with ⟨-, none'⟩ | ⟨under', state', opened', side', sleeve', -⟩
      · rw [none'] at opens'
        cases opens'
      · rw [← same] at opened'
        obtain rfl := opened.unique named opened'
        exact ⟨side.trans side'.symm, sleeve.trans sleeve'.symm⟩

theorem opensKin_drafted {book : Book} {body : Body} (named : book.LotsNamed) (drafted : book.Drafted body) :
    book.OpensKin body.lines := by
  cases drafted with
  | minted unheld once kept =>
    constructor
    · intro line member opens key held
      rw [unheld line member opens key] at held
      cases held
    · intro line member other member' opens opens' same
      have inFilter : line ∈ body.lines.filter fun line => line.opensLot.isSome := List.mem_filter.mpr ⟨member, opens⟩
      have inFilter' : other ∈ body.lines.filter fun line => line.opensLot.isSome :=
        List.mem_filter.mpr ⟨member', opens'⟩
      obtain rfl := List.inj_on_of_nodup_map once inFilter inFilter' same
      exact ⟨rfl, rfl⟩
  | merged placeholder instrument apart moves =>
    rw [moves]
    exact opensKin_replacement named placeholder instrument

/-- The move of one open lot, and the lines about it, none of which names it. -/
theorem replacement_split {book : Book} (named : book.LotsNamed) (instrument : String) {placeholder lotId : String}
    {key : Key} {state : LotState} (under : book.OpenUnder placeholder key lotId state) :
    ∃ before after carrier, (replacementBody book placeholder instrument).lines =
        before ++ carryLot placeholder instrument key carrier state ++ after ∧
      (∀ line ∈ before, line.lotId ≠ lotId) ∧ ∀ line ∈ after, line.lotId ≠ lotId := by
  obtain ⟨position, found, standing, lot⟩ := under.standing
  have nonempty := (named.named key lotId state under.held).2
  obtain ⟨earlier, later, positions, others⟩ := BTreeMap.toList_split found
  obtain ⟨first, last, lots, beside⟩ := BTreeMap.toList_split lot
  let ofRecord (entry : Key × PositionState) : Bool := entry.1.instrument == placeholder && !entry.2.removed
  let moved (entry : Key × PositionState) : List MovementLine := movedPosition placeholder instrument entry.1 entry.2
  let carrier := (bucketsOf position).headD ⟨.settled, "", none, Exact.zero⟩
  let carried (entry : String × LotState) : List MovementLine := carryLot placeholder instrument key carrier entry.2
  have here : ofRecord (key, position) = true := by simp [ofRecord, under.under, standing]
  have whole : (replacementBody book placeholder instrument).lines =
      (earlier.filter ofRecord).flatMap moved ++ moved (key, position) ++ (later.filter ofRecord).flatMap moved := by
    show (book.positions.toList.filter ofRecord).flatMap moved = _
    rw [positions, List.filter_append, List.filter_cons_of_pos here, List.flatMap_append, List.flatMap_cons,
      List.append_assoc]
  have part : moved (key, position) =
      (bucketsOf position).flatMap (fun bucket =>
        [mergeLine placeholder key bucket bucket.quantity.negated, mergeLine instrument key bucket bucket.quantity]) ++
      first.flatMap carried ++ carryLot placeholder instrument key carrier state ++ last.flatMap carried := by
    show _ ++ (position.lots.toList.map Prod.snd).flatMap _ = _
    rw [lots, List.flatMap_map, List.flatMap_append, List.flatMap_cons]
    simp only [List.append_assoc]
    rfl
  -- No other position of the record's holds the lot open, nor this one under another identifier.
  have elsewhere : ∀ entry ∈ earlier ++ later, ofRecord entry = true → ∀ line ∈ moved entry, line.lotId ≠ lotId := by
    intro entry member ofIt line inMove same
    obtain ⟨found', apart⟩ := others entry member
    obtain ⟨-, -, ⟨unnamed, -⟩ | ⟨lotId', state', lot', opened', names, -⟩⟩ := mem_movedPosition inMove
    · exact nonempty (same.symm.trans unnamed)
    · have own' := (named.named entry.1 lotId' state' (lotAt_eq_some.mpr ⟨entry.2, found', lot'⟩)).1
      obtain rfl : lotId' = lotId := own'.symm.trans (names.symm.trans same)
      simp only [ofRecord, Bool.and_eq_true, beq_iff_eq, Bool.not_eq_true'] at ofIt
      exact apart (OpenUnder.unique named ⟨ofIt.1, ⟨entry.2, found', ofIt.2, lot'⟩, opened'⟩ under)
  have within : ∀ entry ∈ first ++ last, ∀ line ∈ carried entry, line.lotId ≠ lotId := by
    intro entry member line inCarry same
    obtain ⟨lot', apart⟩ := beside entry member
    obtain ⟨-, -, -, ⟨unnamed, -⟩ | ⟨names, -⟩⟩ := mem_carryLot inCarry
    · exact nonempty (same.symm.trans unnamed)
    · have own' := (named.named key entry.1 entry.2 (lotAt_eq_some.mpr ⟨position, found, lot'⟩)).1
      exact apart (own'.symm.trans (names.symm.trans same))
  refine ⟨(earlier.filter ofRecord).flatMap moved ++ ((bucketsOf position).flatMap (fun bucket =>
        [mergeLine placeholder key bucket bucket.quantity.negated, mergeLine instrument key bucket bucket.quantity]) ++
      first.flatMap carried), last.flatMap carried ++ (later.filter ofRecord).flatMap moved, carrier, ?_, ?_, ?_⟩
  · rw [whole, part]
    simp only [List.append_assoc]
  · intro line member
    rcases List.mem_append.mp member with inEarlier | inBuckets
    · obtain ⟨entry, held, inMove⟩ := List.mem_flatMap.mp inEarlier
      obtain ⟨held, ofIt⟩ := List.mem_filter.mp held
      exact elsewhere entry (List.mem_append_left _ held) ofIt line inMove
    · rcases List.mem_append.mp inBuckets with inBuckets | inFirst
      · obtain ⟨bucket, -, pair⟩ := List.mem_flatMap.mp inBuckets
        rcases List.mem_cons.mp pair with rfl | pair
        · exact Ne.symm nonempty
        · obtain rfl := List.mem_singleton.mp pair
          exact Ne.symm nonempty
      · obtain ⟨entry, held, inCarry⟩ := List.mem_flatMap.mp inFirst
        exact within entry (List.mem_append_left _ held) line inCarry
  · intro line member
    rcases List.mem_append.mp member with inLast | inLater
    · obtain ⟨entry, held, inCarry⟩ := List.mem_flatMap.mp inLast
      exact within entry (List.mem_append_right _ held) line inCarry
    · obtain ⟨entry, held, inMove⟩ := List.mem_flatMap.mp inLater
      obtain ⟨held, ofIt⟩ := List.mem_filter.mp held
      exact elsewhere entry (List.mem_append_right _ held) ofIt line inMove

/-- What carrying one lot does: the instrument's position opens it with the record its first other holder
has, and the placeholder's closes. -/
structure Carried (book after : Book) (key target : Key) (lotId : String) (state : LotState) : Prop where
  onto : ∃ source now ordinal, book.carriedLot target lotId = some source ∧ after.lotAt target lotId = some now ∧
    now = { source with lot.openQuantity := state.lot.openQuantity, ordinal }
  closed : after.openAt key lotId = 0
  beside : ∀ other, other ≠ key → other ≠ target → after.lotAt other lotId = book.lotAt other lotId

section
variable {process : Process} {refs : List (Key × JournalRef)} {sales : List Sale} {sequence : Nat}
  {book after : Book} {placeholder instrument lotId : String} {key : Key} {state : LotState}

theorem ontoKey_ne (apart : placeholder ≠ instrument) (under : key.instrument = placeholder) :
    ontoKey key instrument ≠ key := by
  intro same
  exact apart (under.symm.trans (congrArg Key.instrument same).symm)

theorem lotAt_applyLine_unnamed {line : MovementLine}
    (applied : applyLine process refs sales sequence false book line = .ok after) (apart : line.lotId ≠ lotId)
    (other : Key) : after.lotAt other lotId = book.lotAt other lotId := by
  obtain ⟨quantity, -, -, beside⟩ := lineLots applied
  exact beside other lotId fun named => apart named.2.symm

/-- An open lot is carried by its own lines. -/
theorem carried_carryLot (apart : placeholder ≠ instrument) (own : state.lot.lotId = lotId) (nonempty : lotId ≠ "")
    (under : key.instrument = placeholder) (held : book.lotAt key lotId = some state)
    (opened : state.lot.openQuantity.units ≠ 0) {carrier : Bucket}
    (applied : (carryLot placeholder instrument key carrier state).foldlM
      (applyLine process refs sales sequence false) book = .ok after) :
    Carried book after key (ontoKey key instrument) lotId state := by
  have moves : state.lot.openQuantity.isZero = false := by
    rw [← Bool.not_eq_true, Exact.isZero_iff]
    exact opened
  have apartKeys : ontoKey key instrument ≠ key := ontoKey_ne apart under
  have here : (⟨placeholder, key.side, key.sleeve⟩ : Key) = key := by rw [← under]
  subst own
  unfold carryLot at applied
  simp only [moves, Bool.false_eq_true, if_false] at applied
  obtain ⟨into, opens, applied⟩ := bind_ok.mp applied
  obtain ⟨out, closes, applied⟩ := bind_ok.mp applied
  obtain ⟨forth, moved, applied⟩ := bind_ok.mp applied
  obtain ⟨back, moved', applied⟩ := bind_ok.mp applied
  cases applied
  have quiet (other : Key) : after.lotAt other state.lot.lotId = out.lotAt other state.lot.lotId :=
    (lotAt_applyLine_unnamed moved' (Ne.symm nonempty) other).trans
      (lotAt_applyLine_unnamed moved (Ne.symm nonempty) other)
  obtain ⟨quantity, read, lots, besideInto⟩ := lineLots opens
  obtain ⟨closing, readOut, lotsOut, besideOut⟩ := lineLots closes
  simp only [mergeLine, required_wire, Except.ok.injEq] at read readOut
  subst read readOut
  have stays : into.lotAt key state.lot.lotId = some state := by
    rw [besideInto key _ fun named => apartKeys named.1.symm]
    exact held
  constructor
  · cases lots with
    | unnamed none' => exact absurd none' nonempty
    | moved _ none' => cases none'
    | @opened now _ _ heldNow carries _ =>
      cases carried : book.carriedLot (ontoKey key instrument) state.lot.lotId with
      | none =>
        rw [carriedLot_eq_none.mp carried key (Ne.symm apartKeys)] at held
        cases held
      | some source =>
        obtain ⟨ordinal, same⟩ := carries source carried
        refine ⟨source, now, ordinal, rfl, ?_, same⟩
        rw [quiet, besideOut _ _ fun named => apartKeys (named.1.trans here)]
        exact heldNow
  · cases lotsOut with
    | unnamed none' => exact absurd none' nonempty
    | opened _ some' => cases some'
    | @moved before now _ _ _ _ _ found moves heldNow =>
      change into.lotAt ⟨placeholder, key.side, key.sleeve⟩ state.lot.lotId = some before at found
      change out.lotAt ⟨placeholder, key.side, key.sleeve⟩ state.lot.lotId = some now at heldNow
      rw [here] at found heldNow
      rw [stays] at found
      obtain rfl := Option.some.inj found
      have units := (moveLot_ok moves).2
      rw [Exact.units_negated, Int.add_right_neg] at units
      rw [openAt_of_lotAt ((quiet key).trans heldNow)]
      exact units
  · intro other notKey notTarget
    rw [quiet, besideOut other _ fun named => notKey (named.1.trans here),
      besideInto other _ fun named => notTarget named.1]

/-- Of a lot a merge finds open under the record it replaces, what the whole of its lines do. -/
theorem carried_replacement (named : book.LotsNamed) (apart : placeholder ≠ instrument)
    (under : book.OpenUnder placeholder key lotId state) {start : Book} (same : start.positions = book.positions)
    (applied : (replacementBody book placeholder instrument).lines.foldlM
      (applyLine process refs sales sequence false) start = .ok after) :
    Carried book after key (ontoKey key instrument) lotId state := by
  obtain ⟨before, rest, carrier, lines, earlier, later⟩ := replacement_split named instrument under
  obtain ⟨own, nonempty⟩ := named.named key lotId state under.held
  rw [lines, List.foldlM_append, List.foldlM_append] at applied
  obtain ⟨moved, applied, last⟩ := bind_ok.mp applied
  obtain ⟨reached, first, carries⟩ := bind_ok.mp applied
  have unmoved (other : Key) : reached.lotAt other lotId = book.lotAt other lotId :=
    (lotAt_lines first fun line member named => earlier line member named.2).trans (lotAt_of_positions same other lotId)
  have kept (other : Key) : after.lotAt other lotId = moved.lotAt other lotId :=
    lotAt_lines last fun line member named => later line member named.2
  have whole := carried_carryLot apart own nonempty under.under ((unmoved key).trans under.held) under.opened carries
  obtain ⟨source, now, ordinal, from', held, record⟩ := whole.onto
  refine ⟨⟨source, now, ordinal, ?_, (kept _).trans held, record⟩, ?_, ?_⟩
  · rw [← from', carriedLot_congr unmoved]
  · rw [← whole.closed, openAt, openAt, kept]
  · intro other notKey notTarget
    rw [kept, whole.beside other notKey notTarget, unmoved]

/-- A lot a merge does not find open stays as it is. -/
theorem uncarried_replacement (named : book.LotsNamed) (nonempty : lotId ≠ "")
    (closed : ∀ key state, ¬ book.OpenUnder placeholder key lotId state) {start : Book}
    (same : start.positions = book.positions)
    (applied : (replacementBody book placeholder instrument).lines.foldlM
      (applyLine process refs sales sequence false) start = .ok after) (other : Key) :
    after.lotAt other lotId = book.lotAt other lotId := by
  refine (lotAt_lines applied fun line member names => ?_).trans (lotAt_of_positions same other lotId)
  rcases mem_replacement named member with ⟨unnamed, -⟩ | ⟨under, state, opened, -⟩
  · exact nonempty (names.2.symm.trans unnamed)
  · rw [names.2] at opened
    exact closed under state opened

/-- A position removed after lines was removed before them, and no line is on it. -/
theorem removed_applyLine {line : MovementLine} (applied : applyLine process refs sales sequence false book line = .ok after)
    {position : PositionState} (found : after.positions[lineKey line]? = some position) : position.removed = false := by
  unfold applyLine at applied
  obtain ⟨quantity, -, applied⟩ := bind_ok.mp applied
  obtain ⟨bucketed, added, applied⟩ := bind_ok.mp applied
  obtain ⟨moved, lots, applied⟩ := bind_ok.mp applied
  cases applied
  unfold setPosition at found
  rw [Std.ExtTreeMap.getElem?_insert_self] at found
  obtain rfl := Option.some.inj found
  rw [applyLot_removed lots, (addToBucket_lots added).2.2.1]

theorem removed_lines {lines : List MovementLine}
    (applied : lines.foldlM (applyLine process refs sales sequence false) book = .ok after) {position : PositionState}
    (found : after.positions[key]? = some position) (removed : position.removed = true) :
    (∀ line ∈ lines, lineKey line ≠ key) ∧ book.positions[key]? = some position := by
  induction lines generalizing book with
  | nil =>
    cases applied
    exact ⟨fun line member => absurd member List.not_mem_nil, found⟩
  | cons line rest ih =>
    rw [List.foldlM_cons] at applied
    obtain ⟨next, moved, applied⟩ := bind_ok.mp applied
    obtain ⟨apart, held⟩ := ih applied
    by_cases here : lineKey line = key
    · subst here
      rw [removed_applyLine moved held] at removed
      cases removed
    · refine ⟨?_, (positions_applyLine_of_ne moved (Ne.symm here)).symm.trans held⟩
      intro other member
      rcases List.mem_cons.mp member with rfl | later
      · exact here
      · exact apart other later

end

section
variable {process : Process} {book after : Book} {entry : Entry}

/-- What recording a position leaves of it: removed as it was, or where the entry removes it. -/
theorem removed_recordPositions {previous : List (Key × Exact)} {rows rowsAfter : List (BookPosition × Exact)}
    {keys : List (Key × JournalRef)}
    (recorded : keys.foldlM (recordPosition entry previous) (book, rows) = .ok (after, rowsAfter)) {key : Key}
    {position : PositionState} (found : after.positions[key]? = some position) (removed : position.removed = true) :
    (∃ before, book.positions[key]? = some before ∧ before.removed = true) ∨
      (key.sleeve = "" ∧ (key.instrument, key.side) ∈ entry.body.tombstones) := by
  induction keys generalizing book rows with
  | nil =>
    cases recorded
    exact .inl ⟨position, found, removed⟩
  | cons row rest ih =>
    rw [List.foldlM_cons] at recorded
    obtain ⟨⟨next, nextRows⟩, stepped, recorded⟩ := bind_ok.mp recorded
    rcases ih recorded with ⟨before, held, gone⟩ | tombstoned
    · unfold recordPosition at stepped
      obtain ⟨record, -, stepped⟩ := bind_ok.mp stepped
      cases stepped
      unfold setPosition at held
      rw [Std.ExtTreeMap.getElem?_insert] at held
      split at held
      next here =>
        obtain rfl := Std.LawfulEqCmp.eq_of_compare here
        obtain rfl := Option.some.inj held
        simp only at gone
        split at gone
        next tombstoned => exact .inr tombstoned
        · cases was : book.positions[row.1]? with
          | none => simp [was, PositionState.new] at gone
          | some before => exact .inl ⟨before, rfl, by simpa [was] using gone⟩
      · exact .inl ⟨before, held, gone⟩
    · exact .inr tombstoned

end

/-- What holds of the lots of every book acts lead to: each under its own identifier, on one side and one
sleeve, and none open where the position was removed. -/
structure LotsKept (book : Book) : Prop extends book.LotsNamed where
  cleared : ∀ key position, book.positions[key]? = some position → position.removed = true →
    ∀ lotId, book.openAt key lotId = 0

theorem LotsKept.new (accountId partition : String) : (Book.new accountId partition).LotsKept where
  named key lotId state held := by simp [lotAt, Book.new] at held
  kin key other lotId held := by simp [lotAt, Book.new] at held
  cleared key position found := by simp [Book.new] at found

theorem openAt_of_held {book after : Book}
    (same : ∀ key lotId, (after.lotAt key lotId).map LotState.held = (book.lotAt key lotId).map LotState.held)
    (key : Key) (lotId : String) : after.openAt key lotId = book.openAt key lotId := by
  have held := congrArg (Option.map fun shape => shape.2.units) (same key lotId)
  rw [Option.map_map, Option.map_map] at held
  exact congrArg (Option.getD · 0) held

theorem openAt_of_none {book : Book} {key : Key} {lotId : String} (absent : book.lotAt key lotId = none) :
    book.openAt key lotId = 0 := by
  unfold openAt
  rw [absent]
  rfl

theorem openAt_unnamed {book : Book} (named : book.LotsNamed) (key : Key) : book.openAt key "" = 0 := by
  cases held : book.lotAt key "" with
  | none => exact openAt_of_none held
  | some state => exact absurd rfl (named.named key "" state held).2

theorem LotsKept.of_positions {book after : Book} (kept : book.LotsKept) (same : after.positions = book.positions) :
    after.LotsKept where
  toLotsNamed := lotsNamed_of_held kept.toLotsNamed fun key lotId => by rw [lotAt_of_positions same]
  cleared key position found removed lotId := by
    rw [same] at found
    rw [openAt, lotAt_of_positions same]
    exact kept.cleared key position found removed lotId

/-- A merge's lines leave nothing open under the record it replaces. -/
theorem closed_replacement {process : Process} {refs : List (Key × JournalRef)} {sales : List Sale} {sequence : Nat}
    {book start after : Book} (named : book.LotsNamed) {placeholder instrument : String} (apart : placeholder ≠ instrument)
    (same : start.positions = book.positions)
    (applied : (replacementBody book placeholder instrument).lines.foldlM
      (applyLine process refs sales sequence false) start = .ok after)
    {key : Key} (under : key.instrument = placeholder) {position : PositionState}
    (found : book.positions[key]? = some position) (standing : position.removed = false) {lotId : String}
    (nonempty : lotId ≠ "") : after.openAt key lotId = 0 := by
  by_cases somewhere : ∃ holder state, book.OpenUnder placeholder holder lotId state
  · obtain ⟨holder, state, opened⟩ := somewhere
    have carried := carried_replacement named apart opened same applied
    by_cases here : key = holder
    · rw [here]
      exact carried.closed
    · have notTarget : key ≠ ontoKey holder instrument := fun at' =>
        apart (under.symm.trans (congrArg Key.instrument at'))
      rw [openAt, carried.beside key here notTarget]
      cases lot : book.lotAt key lotId with
      | none => rfl
      | some state' =>
        by_contra units
        have opened' : book.OpenUnder placeholder key lotId state' := by
          refine ⟨under, ⟨position, found, standing, ?_⟩, units⟩
          obtain ⟨position', found', lot'⟩ := lotAt_eq_some.mp lot
          rw [found] at found'
          rw [Option.some.inj found']
          exact lot'
        exact here (opened'.unique named opened)
  · have closed : ∀ key state, ¬ book.OpenUnder placeholder key lotId state :=
      fun holder state opened => somewhere ⟨holder, state, opened⟩
    rw [openAt, uncarried_replacement named nonempty closed same applied key]
    cases lot : book.lotAt key lotId with
    | none => rfl
    | some state =>
      by_contra units
      obtain ⟨position', found', lot'⟩ := lotAt_eq_some.mp lot
      rw [found] at found'
      obtain rfl := Option.some.inj found'
      exact closed key state ⟨under, ⟨position, found, standing, lot'⟩, units⟩

/-- A position removed after an entry was removed before it and no line of the entry is on it, or the entry is the
merge that removes it. -/
theorem removed_of_applied {process : Process} {book after : Book} {entry : Entry} {changes : Changes}
    (drafted : book.Drafted entry.body) (applied : book.apply process entry false = .ok (after, changes)) {key : Key}
    {position : PositionState} (found : after.positions[key]? = some position) (removed : position.removed = true) :
    (∃ before, book.positions[key]? = some before ∧ before.removed = true ∧ ∀ line ∈ entry.body.lines, lineKey line ≠ key) ∨
      ∃ placeholder instrument before, placeholder ≠ instrument ∧
        entry.body = replacementBody book placeholder instrument ∧ key.instrument = placeholder ∧
        book.positions[key]? = some before ∧ before.removed = false := by
  obtain ⟨phases⟩ := phases applied
  obtain ⟨moved, lines, sameHoldings⟩ := holdings_applyPositions phases.moves
  rw [phases.recorded_positions] at found
  rcases removed_recordPositions phases.records found removed with ⟨before, gone, was⟩ | ⟨sleeve, tombstoned⟩
  · -- No line is on a position that stays removed.
    have shape := congrFun sameHoldings key
    unfold holdings at shape
    rw [gone] at shape
    obtain ⟨position', found', alike⟩ := Option.map_eq_some_iff.mp shape.symm
    have removed' : position'.removed = true := (congrArg Holding.removed alike).trans was
    obtain ⟨apart, standing⟩ := removed_lines lines found' removed'
    exact .inl ⟨position', standing, removed', apart⟩
  · cases drafted with
    | minted _ _ none' =>
      rw [none'] at tombstoned
      cases tombstoned
    | merged placeholder instrument apart moves =>
      rw [moves] at tombstoned
      obtain ⟨entry', member, same⟩ := List.mem_map.mp tombstoned
      obtain ⟨member, unsleeved⟩ := List.mem_filter.mp member
      obtain ⟨found', under, standing⟩ := mem_heldUnder.mp member
      have at' : entry'.1 = key := by
        obtain ⟨sameInstrument, sameSide⟩ := Prod.mk.injEq .. ▸ same
        have unsleeved' : entry'.1.sleeve = "" := by simpa using unsleeved
        cases key
        cases entry' with
        | mk first second =>
          cases first
          simp_all
      rw [at'] at found' under
      exact .inr ⟨placeholder, instrument, entry'.2, apart, moves, under, found', standing⟩

/-- An entry drafted as every act drafts one keeps the lots so. -/
theorem lotsKept_apply {process : Process} {book after : Book} {entry : Entry} {changes : Changes}
    (kept : book.LotsKept) (drafted : book.Drafted entry.body)
    (applied : book.apply process entry false = .ok (after, changes)) : after.LotsKept := by
  obtain ⟨refs, sales, moved, lines, held⟩ := lines_of_applied applied
  have start : LotsNamed { book with chains := (book.number entry).2.last } :=
    lotsNamed_of_held kept.toLotsNamed fun _ _ => rfl
  have named : moved.LotsNamed := by
    refine lotsNamed_lines start ?_ lines
    have kin := opensKin_drafted kept.toLotsNamed drafted
    exact ⟨kin.held, kin.alike⟩
  have namedAfter : after.LotsNamed := lotsNamed_of_held named held
  refine ⟨namedAfter, fun key position found removed lotId => ?_⟩
  by_cases unnamed : lotId = ""
  · rw [unnamed]
    exact openAt_unnamed namedAfter key
  rw [openAt_of_held held]
  rcases removed_of_applied drafted applied found removed with
    ⟨before, was, removed', apart⟩ | ⟨placeholder, instrument, before, apart, moves, under, was, standing⟩
  · rw [openAt, lotAt_lines lines fun line member at' => apart line member at'.1]
    exact kept.cleared key before was removed' lotId
  · rw [moves] at lines
    exact closed_replacement kept.toLotsNamed apart (by rfl) lines under was standing unnamed

theorem lotsKept_make {book after : Book} {making : Making} (kept : book.LotsKept)
    (drafted : book.Drafted making.draft.body) (taken : make book making = .ok after) : after.LotsKept := by
  obtain ⟨act, decided, rfl⟩ := make_ok taken
  obtain ⟨applied, -, -⟩ := made_ok decided
  exact (lotsKept_apply kept drafted applied).of_positions rfl

/-- A book acts lead to, each drafted as every act drafts one. -/
def Kept (book : Book) (accountId partition : String) (makings : List Making) : Prop :=
  Run (fun book making after => book.Drafted making.draft.body ∧ make book making = .ok after)
    (Book.new accountId partition) makings book

theorem Kept.lotsKept {book : Book} {accountId partition : String} {makings : List Making}
    (kept : book.Kept accountId partition makings) : book.LotsKept :=
  kept.invariant_of LotsKept (LotsKept.new accountId partition)
    fun _ _ _ held drafted taken => lotsKept_make held drafted taken

theorem lotAt_modify {book : Book} {key : Key} {change : PositionState → PositionState}
    (same : ∀ position, (change position).lots = position.lots) (other : Key) (lotId : String) :
    lotAt { book with positions := book.positions.modify key change } other lotId = book.lotAt other lotId := by
  unfold lotAt
  rw [Std.ExtTreeMap.getElem?_modify]
  by_cases here : key = other
  · subst here
    simp only [Std.compare_self, if_true]
    cases book.positions[key]? with
    | none => rfl
    | some position => simp [same]
  · simp [here]

theorem lotAt_foldl {α : Type} {change : Book → α → Book} {key : Key} {lotId : String}
    (keeps : ∀ book entry, (change book entry).lotAt key lotId = book.lotAt key lotId) (entries : List α) (book : Book) :
    (entries.foldl change book).lotAt key lotId = book.lotAt key lotId := by
  induction entries generalizing book with
  | nil => rfl
  | cons entry rest ih => rw [List.foldl_cons, ih, keeps]

theorem lotAt_encumber (refs : List (Key × JournalRef)) (book : Book)
    (named : String × HoldingSide × List Encumbrance) (key : Key) (lotId : String) :
    (encumber refs book named).lotAt key lotId = book.lotAt key lotId := by
  unfold encumber
  exact lotAt_modify (by exact fun _ => rfl) key lotId

/-- An entry that carries no act, adjusts no cost and names no source leaves the lots as its lines do. -/
theorem lotAt_of_lines {process : Process} {book after : Book} {entry : Entry} {changes : Changes}
    (acts : entry.body.acts = []) (bases : entry.body.basisAdjustments = []) (sources : entry.body.sources = [])
    (applied : book.apply process entry false = .ok (after, changes)) :
    ∃ refs sales moved, entry.body.lines.foldlM (applyLine process refs sales entry.firstSequence false)
        { book with chains := (book.number entry).2.last } = .ok moved ∧
      ∀ key lotId, after.lotAt key lotId = moved.lotAt key lotId := by
  obtain ⟨phases⟩ := phases applied
  have moves := phases.moves
  unfold applyPositions at moves
  obtain ⟨moved, lines, moves⟩ := bind_ok.mp moves
  rw [bases] at moves
  obtain ⟨adjusted, none', moves⟩ := bind_ok.mp moves
  cases none'
  dsimp only at moves
  rw [if_pos sources] at moves
  refine ⟨_, _, moved, lines, fun key lotId => ?_⟩
  have unmarked : moved.markAwaited process entry.body = moved := by
    unfold markAwaited
    rw [acts]
    rfl
  have encumbered : phases.moved.lotAt key lotId = moved.lotAt key lotId := by
    rw [← Except.ok.inj moves, lotAt_foldl fun book named => lotAt_encumber _ book named key lotId, unmarked]
  rw [lotAt_of_positions phases.recorded_positions, lotAt_recordPositions phases.records, encumbered]

end Book

end MeridianCore.Bor
