import MeridianCore.Bor.Book.LotHome

namespace MeridianCore.Bor

/-- A position whose open lots sum to its trade-date quantity. -/
def PositionState.Balanced (position : PositionState) : Prop :=
  ∃ trade lots, position.tradeDate = .ok trade ∧ position.openLots = .ok lots ∧ lots.units = trade.units

/-- A position whose lots are each open by nothing, or on its side. -/
def PositionState.OnSide (position : PositionState) : Prop :=
  ∀ (lotId : String) (state : LotState), position.lots[lotId]? = some state →
    state.lot.openQuantity.units = 0 ∨ onItsSide position.side state.lot.openQuantity = true

namespace Book

/-- Every position not removed, not in the base currency and with a lot open balances; and no lot is open on
the side its position is not. -/
def LotsBalance (process : Process) (book : Book) : Prop :=
  ∀ (key : Key) (position : PositionState), book.positions[key]? = some position →
    (position.removed = false → book.isBase process key.instrument = false → position.hasOpenLots = true →
      position.Balanced) ∧ position.OnSide

/-- The account's base currency once an entry has set the attributes it carries. -/
def isBaseAfter (book : Book) (making : Making) (instrument : String) : Bool :=
  { book with attributes := making.draft.body.attributes.or book.attributes }.isBase making.ctx.process instrument

/-- No position that no line of the entry is on leaves the base currency's exemption with open lots its
quantity does not match. -/
def KeepsBalance (process : Process) (book : Book) (making : Making) : Prop :=
  ∀ (key : Key) (position : PositionState), book.positions[key]? = some position → position.removed = false →
    (∀ line ∈ making.draft.body.lines, lineKey line ≠ key) →
    book.isBase process key.instrument = true → book.isBaseAfter making key.instrument = false →
    position.hasOpenLots = true → position.Balanced

/-- The process of the last act, and the account after it. -/
def acted (held : Process × Book) (making : Making) : Result (Process × Book) :=
  return (making.ctx.process, ← make held.2 making)

theorem forM_ok {α : Type} {check : α → Result Unit} {entries : List α} (checked : entries.forM check = .ok ()) :
    ∀ entry ∈ entries, check entry = .ok () := by
  induction entries with
  | nil => exact fun entry member => absurd member List.not_mem_nil
  | cons entry rest ih =>
    change (check entry >>= fun _ => rest.forM check) = .ok () at checked
    obtain ⟨_, first, checked⟩ := bind_ok.mp checked
    intro other member
    rcases List.mem_cons.mp member with rfl | later
    · exact first
    · exact ih checked other later

section
variable {process : Process} {book after : Book} {body : Body} {key : Key} {position : PositionState}

/-- What a position that was checked holds. -/
theorem balanced_of_checked (found : book.positions[key]? = some position) (standing : position.removed = false)
    (checked : book.checkPosition process body key = .ok ()) :
    (book.isBase process key.instrument = false → position.hasOpenLots = true → position.Balanced) ∧
      position.OnSide := by
  unfold checkPosition at checked
  simp only [found, standing, Bool.false_eq_true, if_false] at checked
  obtain ⟨trade, traded, checked⟩ := bind_ok.mp checked
  split at checked
  · cases checked
  split at checked
  · cases checked
  next sided =>
  refine ⟨fun notBase opened => ?_, fun lotId state held => ?_⟩
  · rw [if_pos ⟨by simpa using notBase, .inl opened⟩] at checked
    obtain ⟨lots, summed, checked⟩ := bind_ok.mp checked
    refine ⟨trade, lots, traded, summed, ?_⟩
    by_contra differ
    rw [if_pos (by simpa using differ)] at checked
    cases checked
  · have member : state ∈ position.lots.toList.map Prod.snd :=
      List.mem_map.mpr ⟨(lotId, state), BTreeMap.mem_toList.mpr held, rfl⟩
    have onSide := List.find?_eq_none.mp sided state member
    exact .inr (by simpa using onSide)

end

/-- What a list of the lots held gives is what the holding gives. -/
theorem openQuantities_congr {a b : PositionState} (same : (holdingOf a).lots = (holdingOf b).lots) :
    (a.lots.toList.map Prod.snd).map (fun state => state.lot.openQuantity) =
      (b.lots.toList.map Prod.snd).map fun state => state.lot.openQuantity := by
  have maps : a.lots.map (fun _ state => LotState.held state) = b.lots.map fun _ state => LotState.held state := by
    refine Std.ExtTreeMap.ext_getElem? fun lotId => ?_
    rw [Std.ExtTreeMap.getElem?_map, Std.ExtTreeMap.getElem?_map]
    exact congrFun same lotId
  have lists := congrArg (fun lots : BTreeMap String (String × Exact) => lots.toList.map fun entry => entry.2.2) maps
  simpa only [Std.ExtTreeMap.toList_map, List.map_map, Function.comp_def, LotState.held] using lists

section
variable {a b : PositionState}

theorem tradeDate_congr (same : holdingOf a = holdingOf b) : a.tradeDate = b.tradeDate := by
  unfold PositionState.tradeDate
  rw [show a.settled = b.settled from congrArg Holding.settled same,
    show a.notStated = b.notStated from congrArg Holding.notStated same,
    show a.pending = b.pending from congrArg Holding.pending same]

theorem openLots_congr (same : holdingOf a = holdingOf b) : a.openLots = b.openLots := by
  have lists := openQuantities_congr (congrArg Holding.lots same)
  have summed (position : PositionState) : position.openLots =
      ((position.lots.toList.map Prod.snd).map fun state => state.lot.openQuantity).foldlM
        (fun total quantity => numbers.add "lots.open_quantity" total quantity) Exact.zero := by
    rw [List.foldlM_map]
    rfl
  rw [summed, summed, lists]

theorem hasOpenLots_congr (same : holdingOf a = holdingOf b) : a.hasOpenLots = b.hasOpenLots := by
  have lists := openQuantities_congr (congrArg Holding.lots same)
  have any (position : PositionState) : position.hasOpenLots =
      ((position.lots.toList.map Prod.snd).map fun state => state.lot.openQuantity).any fun quantity => !quantity.isZero := by
    rw [List.any_map]
    rfl
  rw [any, any, lists]

theorem balanced_congr (same : holdingOf a = holdingOf b) (balanced : b.Balanced) : a.Balanced := by
  unfold PositionState.Balanced at *
  rw [tradeDate_congr same, openLots_congr same]
  exact balanced

theorem onSide_congr (same : holdingOf a = holdingOf b) (onSide : b.OnSide) : a.OnSide := by
  intro lotId state held
  have shape := congrFun (congrArg Holding.lots same) lotId
  change (a.lots[lotId]?).map LotState.held = (b.lots[lotId]?).map LotState.held at shape
  rw [held] at shape
  obtain ⟨before, found, alike⟩ := Option.map_eq_some_iff.mp shape.symm
  have quantity : before.lot.openQuantity = state.lot.openQuantity := congrArg Prod.snd alike
  rw [show a.side = b.side from congrArg Holding.side same, ← quantity]
  exact onSide lotId before found

end

/-- A line's position is one the entry changes, and is checked. -/
theorem mem_touched_of_line {book : Book} {body : Body} {line : MovementLine} (member : line ∈ body.lines) :
    lineKey line ∈ book.touched body := by
  rw [mem_touched]
  simp only [List.mem_append, List.mem_map]
  exact .inl (.inl (.inl ⟨line, member, rfl⟩))

section
variable {process : Process} {book after : Book} {entry : Entry}

/-- What recording positions leaves of one not removed: what it held, or where there was none, nothing. -/
theorem holding_recordPositions {previous : List (Key × Exact)} {rows rowsAfter : List (BookPosition × Exact)}
    {keys : List (Key × JournalRef)}
    (recorded : keys.foldlM (recordPosition entry previous) (book, rows) = .ok (after, rowsAfter)) {key : Key}
    {position : PositionState} (found : after.positions[key]? = some position) (standing : position.removed = false) :
    (∃ before, book.positions[key]? = some before ∧ holdingOf position = holdingOf before) ∨ position.lots = ∅ := by
  induction keys generalizing book rows with
  | nil =>
    cases recorded
    exact .inl ⟨position, found, rfl⟩
  | cons row rest ih =>
    rw [List.foldlM_cons] at recorded
    obtain ⟨⟨next, nextRows⟩, stepped, recorded⟩ := bind_ok.mp recorded
    rcases ih recorded with ⟨before, held, same⟩ | empty
    · unfold recordPosition at stepped
      obtain ⟨record, -, stepped⟩ := bind_ok.mp stepped
      cases stepped
      unfold setPosition at held
      rw [Std.ExtTreeMap.getElem?_insert] at held
      split at held
      next here =>
        obtain rfl := Std.LawfulEqCmp.eq_of_compare here
        obtain rfl := Option.some.inj held
        have removed := congrArg Holding.removed same
        change position.removed = (if _ then true else _) at removed
        rw [standing] at removed
        split at removed
        · cases removed
        next kept =>
          cases was : book.positions[row.1]? with
          | none =>
            refine .inr ?_
            have lots := congrArg Holding.lots same
            refine Std.ExtTreeMap.ext_getElem? fun lotId => ?_
            have none' := congrFun lots lotId
            change (position.lots[lotId]?).map LotState.held = _ at none'
            simpa [holdingOf, was, PositionState.new] using none'
          | some before =>
            refine .inl ⟨before, rfl, ?_⟩
            rw [same]
            simp only [was, Option.getD_some, holdingOf, if_neg kept]
      · exact .inl ⟨before, held, same⟩
    · exact .inr empty

/-- The base currency's code once an entry has set its attributes. -/
theorem baseCode_of_applied {changes : Changes} {lenient : Bool}
    (applied : book.apply process entry lenient = .ok (after, changes)) :
    after.baseCode = { book with attributes := entry.body.attributes.or book.attributes }.baseCode := by
  obtain ⟨phases⟩ := phases applied
  have recorded : phases.recorded.attributes = book.attributes := by
    rw [onlyPositions_recordPositions phases.records, onlyPositions_applyPositions phases.moves]
  have acts := congrArg Book.attributes (onlyLedger_applyActs phases.acts)
  have closed := congrArg Book.attributes phases.closed
  have carried : after.attributes =
      (((book.number entry).1.attributes.map (attributesRecord entry.body phases.first)).getLast?).or
        phases.recorded.attributes := closed.trans acts
  have numbered : (book.number entry).1.attributes.map Prod.fst = entry.body.attributes.toList := by
    unfold number refsOf
    rw [List.map_map]
    exact Chained.Counter.each_map_fst _ _ _
  unfold baseCode
  rw [carried, recorded]
  cases stated : entry.body.attributes with
  | none =>
    rw [stated] at numbered
    rw [List.map_eq_nil_iff.mp numbered]
    rfl
  | some attributes =>
    rw [stated] at numbered
    obtain ⟨row, single, named⟩ := List.map_eq_singleton_iff.mp numbered
    rw [single, ← named]
    rfl

theorem isBase_congr {one other : Book} (same : one.baseCode = other.baseCode) (instrument : String) :
    one.isBase process instrument = other.isBase process instrument := by
  unfold isBase
  rw [same]

end

/-- An act made balances the positions its lines are on, as it is checked, and keeps the balance of the rest. -/
theorem balance_make {process : Process} {book after : Book} {making : Making} (kept : book.LotsKept)
    (balance : book.LotsBalance process) (drafted : book.Drafted making.draft.body)
    (keeps : KeepsBalance process book making) (taken : make book making = .ok after) :
    after.LotsBalance making.ctx.process := by
  have keptAfter := lotsKept_make kept drafted taken
  obtain ⟨act, decided, rfl⟩ := make_ok taken
  obtain ⟨applied, checked, -⟩ := made_ok decided
  intro key position found
  by_cases standing : position.removed = false
  · by_cases lined : ∃ line ∈ making.draft.body.lines, lineKey line = key
    · obtain ⟨line, member, rfl⟩ := lined
      have one := forM_ok checked (lineKey line) (mem_touched_of_line member)
      have whole := balanced_of_checked found standing one
      exact ⟨fun _ => whole.1, whole.2⟩
    · have apart : ∀ line ∈ making.draft.body.lines, lineKey line ≠ key := fun line member at' => lined ⟨line, member, at'⟩
      obtain ⟨phases⟩ := phases applied
      obtain ⟨moved, lines, sameHoldings⟩ := holdings_applyPositions phases.moves
      have recorded : phases.recorded.positions[key]? = some position := by
        rw [← phases.recorded_positions]
        exact found
      rcases holding_recordPositions phases.records recorded standing with ⟨before, at', same⟩ | empty
      · have shape := congrFun sameHoldings key
        unfold holdings at shape
        rw [at'] at shape
        obtain ⟨was, found', alike⟩ := Option.map_eq_some_iff.mp shape.symm
        rw [positions_lines lines apart] at found'
        have same' : holdingOf position = holdingOf was := same.trans alike.symm
        have standing' : was.removed = false := (congrArg Holding.removed same').symm.trans standing
        have held := balance key was found'
        refine ⟨fun _ notBase opened => balanced_congr same' ?_, onSide_congr same' held.2⟩
        have opened' : was.hasOpenLots = true := (hasOpenLots_congr same').symm.trans opened
        by_cases base : book.isBase process key.instrument = true
        · refine keeps key was found' standing' apart base ?_ opened'
          rw [isBaseAfter, ← notBase]
          exact (isBase_congr (baseCode_of_applied applied) key.instrument).symm
        · exact held.1 standing' (by simpa using base) opened'
      · have none' (lotId : String) : position.lots[lotId]? = none := by rw [empty]; simp
        refine ⟨fun _ _ opened => ?_, fun lotId state held => ?_⟩
        · rw [PositionState.hasOpenLots, empty] at opened
          simp at opened
        · rw [none'] at held
          cases held
  · have removed : position.removed = true := by simpa using standing
    refine ⟨fun standing' => absurd standing' standing, fun lotId state held => .inl ?_⟩
    rw [← openAt_of_lotAt (lotAt_eq_some.mpr ⟨position, found, held⟩)]
    exact keptAfter.cleared key position found removed lotId

/-- In every run of acts that keep the balance of what they do not touch, every position not removed, not in
the base currency and with a lot open balances, and every lot is on its position's side. -/
theorem lots_balance_of_run {accountId partition : String} {makings : List Making} {process : Process} {book : Book}
    (run : Run (fun held making after =>
        (held.2.Drafted making.draft.body ∧ KeepsBalance held.1 held.2 making) ∧ acted held making = .ok after)
      ({}, Book.new accountId partition) makings (process, book)) : book.LotsBalance process := by
  have both := run.invariant_of (fun held => held.2.LotsKept ∧ held.2.LotsBalance held.1)
    ⟨LotsKept.new accountId partition, fun key position found => by simp [Book.new] at found⟩ ?_
  · exact both.2
  · rintro ⟨before, state⟩ making ⟨now, after⟩ held ⟨drafted, keeps⟩ taken
    obtain ⟨made, moved, taken⟩ := bind_ok.mp taken
    cases taken
    exact ⟨lotsKept_make held.1 drafted moved, balance_make held.1 held.2 drafted keeps moved⟩

/-- A lot opened: its position balances. -/
theorem lots_balance_opened : ∃ book : Book, book.LotsBalance {} ∧
    (book.positions[(⟨"INS-1", .long, ""⟩ : Key)]?).any PositionState.hasOpenLots = true := by
  have computed : (acted ({}, Book.new "ACC-1" "P-1") (openingOn "INS-1")).toOption.any (fun held =>
      (held.2.positions[(⟨"INS-1", .long, ""⟩ : Key)]?).any PositionState.hasOpenLots) = true := by
    decide +kernel
  obtain ⟨⟨process, book⟩, opened, computed⟩ := answered_of computed
  have last : process = {} := by
    obtain ⟨made, -, opened⟩ := bind_ok.mp opened
    cases opened
    rfl
  subst last
  refine ⟨book, lots_balance_of_run (.snoc (.nil _) ⟨⟨drafted_openingOn "ACC-1" "P-1" "INS-1", ?_⟩, opened⟩), computed⟩
  intro key position found
  simp [Book.new] at found

/-- A process that has resolved both currencies' cash instruments. -/
def resolvedProcess : Process := (Process.learn {} "EUR" "INS-EUR").learn "USD" "INS-USD"

/-- An entry of a process that has resolved both. -/
def resolvedMaking (head : Nat) (entryId kind : String) (body : Body) : Making where
  head := head
  ctx := { process := resolvedProcess }
  draft := { entryId, kind, effectiveDate := "2026-01-06", body }

def baseSet (head : Nat) (entryId code : String) : Making :=
  resolvedMaking head entryId "attribute-set" { attributes := some { baseCurrencyCode := code } }

/-- Fifty of a currency paid for a fill, of no lot: the base currency is a balance. -/
def cashPaid (head : Nat) (entryId : String) : Making :=
  resolvedMaking head entryId "execution-recorded" {
    lines := [{ instrumentId := "INS-EUR", side := .long, bucket := .settled, quantity := some ⟨-50, 0⟩ }]
    trade := true }

def baseMoved : List Making :=
  [{ openingOn "INS-EUR" with ctx := { process := resolvedProcess } }, baseSet 1 "ENT-2" "EUR", cashPaid 2 "ENT-3",
    baseSet 3 "ENT-4" "USD"]

theorem drafted_of_no_opening {book : Book} {body : Body} (opens : ∀ line ∈ body.lines, line.opensLot = none)
    (kept : body.tombstones = []) : book.Drafted body := by
  refine .minted (fun line member opened => ?_) ?_ kept
  · rw [opens line member] at opened
    cases opened
  · have none' : (body.lines.filter fun line => line.opensLot.isSome) = [] :=
      List.filter_eq_nil_iff.mpr fun line member => by simp [opens line member]
    rw [none']
    exact List.nodup_nil

theorem drafted_baseSet (book : Book) (head : Nat) (entryId code : String) :
    book.Drafted (baseSet head entryId code).draft.body :=
  drafted_of_no_opening (fun _ member => absurd member List.not_mem_nil) rfl

theorem drafted_cashPaid (book : Book) (head : Nat) (entryId : String) :
    book.Drafted (cashPaid head entryId).draft.body := by
  refine drafted_of_no_opening (fun line member => ?_) rfl
  rw [List.mem_singleton.mp member]

/-- The base currency moved to another leaves the old one's open lots apart from its quantity, and nothing
checks them. -/
theorem base_moved_unbalanced :
    ¬ ∀ (accountId partition : String) (makings : List Making) (process : Process) (book : Book),
      Run (fun held making after => held.2.Drafted making.draft.body ∧ acted held making = .ok after)
        ({}, Book.new accountId partition) makings (process, book) → book.LotsBalance process := by
  intro claim
  have computed : (baseMoved.foldlM acted ({}, Book.new "ACC-1" "P-1")).toOption.any (fun held =>
      (held.2.positions[(⟨"INS-EUR", .long, ""⟩ : Key)]?).any fun position =>
        !position.removed && !held.2.isBase held.1 "INS-EUR" && position.hasOpenLots &&
          position.tradeDate.toOption.any fun trade => position.openLots.toOption.any fun lots => !lots.equals trade) =
      true := by
    decide +kernel
  obtain ⟨⟨process, book⟩, folded, computed⟩ := answered_of computed
  obtain ⟨position, found, computed⟩ := (Option.any_eq_true _ _).mp computed
  obtain ⟨computed, sums⟩ := Bool.and_eq_true_iff.mp computed
  obtain ⟨computed, opened⟩ := Bool.and_eq_true_iff.mp computed
  obtain ⟨standing, notBase⟩ := Bool.and_eq_true_iff.mp computed
  obtain ⟨trade, traded, sums⟩ := answered_of sums
  obtain ⟨lots, summed, differ⟩ := answered_of sums
  obtain ⟨first, opening, folded⟩ := bind_ok.mp folded
  obtain ⟨second, euros, folded⟩ := bind_ok.mp folded
  obtain ⟨third, paid, folded⟩ := bind_ok.mp folded
  obtain ⟨fourth, dollars, folded⟩ := bind_ok.mp folded
  cases folded
  have run : Run (fun held making after => held.2.Drafted making.draft.body ∧ acted held making = .ok after)
      ({}, Book.new "ACC-1" "P-1") baseMoved (process, book) := by
    have opened := drafted_openingOn "ACC-1" "P-1" "INS-EUR"
    exact .snoc (.snoc (.snoc (.snoc (.nil _) ⟨opened, opening⟩) ⟨drafted_baseSet .., euros⟩) ⟨drafted_cashPaid .., paid⟩)
      ⟨drafted_baseSet .., dollars⟩
  obtain ⟨trade', lots', traded', summed', same⟩ :=
    (claim _ _ _ _ _ run _ position found).1 (by simpa using standing) (by simpa using notBase) opened
  obtain rfl := Except.ok.inj (traded.symm.trans traded')
  obtain rfl := Except.ok.inj (summed.symm.trans summed')
  rw [(Exact.equals_iff lots trade).mpr same] at differ
  cases differ

end Book

end MeridianCore.Bor
