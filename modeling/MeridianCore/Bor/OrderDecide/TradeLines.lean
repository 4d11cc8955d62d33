import MeridianCore.Bor.OrderDecide.Rounded

namespace MeridianCore.Bor
open Book (lineUnits lineUnits_of_read)

/-- Lines relieving lots, each by no more than is open once the lines before it have moved it. -/
def RelievesWithin (book : Book) : List MovementLine → List MovementLine → Prop
  | _, [] => True
  | earlier, line :: rest =>
    (line.opensLot = none → line.lotId ≠ "" →
      -magnitudeChange (lineKey line) line.lotId line ≤ openNow book (lineKey line) earlier line.lotId) ∧
    RelievesWithin book (earlier ++ [line]) rest

section

variable {book : Book} {earlier lines more : List MovementLine}

theorem relievesWithin_append : RelievesWithin book earlier (lines ++ more) ↔
    RelievesWithin book earlier lines ∧ RelievesWithin book (earlier ++ lines) more := by
  induction lines generalizing earlier with
  | nil => simp [RelievesWithin]
  | cons line rest ih => simp [RelievesWithin, ih, and_assoc]

/-- A lot moved by a line is open by that much more or less. -/
theorem openNow_append (key : Key) (lotId : String) (line : MovementLine) (still : magnitudeChange key lotId line = 0) :
    openNow book key (earlier ++ [line]) lotId = openNow book key earlier lotId := by
  unfold openNow
  simp [still]

/-- Lines moved within their fields that nothing open reads. -/
theorem relievesWithin_map {change : MovementLine → MovementLine} (keeps : ∀ line, lineKey (change line) = lineKey line ∧
    (change line).lotId = line.lotId ∧ (change line).opensLot = line.opensLot ∧ (change line).quantity = line.quantity)
    {other : List MovementLine} (alike : ∀ key lotId, openNow book key other lotId = openNow book key earlier lotId)
    (within : RelievesWithin book earlier lines) : RelievesWithin book other (lines.map change) := by
  have moved (key : Key) (lotId : String) (line : MovementLine) :
      magnitudeChange key lotId (change line) = magnitudeChange key lotId line := by
    obtain ⟨keyed, named, -, quantity⟩ := keeps line
    simp only [magnitudeChange, keyed, named, lineUnits, quantity]
  induction lines generalizing earlier other with
  | nil => trivial
  | cons line rest ih =>
    obtain ⟨first, later⟩ := within
    obtain ⟨keyed, named, opens, -⟩ := keeps line
    refine ⟨fun unopened lot => ?_, ih (fun key lotId => ?_) later⟩
    · rw [opens] at unopened
      rw [named] at lot ⊢
      rw [keyed, moved, alike]
      exact first unopened lot
    · have same := alike key lotId
      unfold openNow at same ⊢
      cases held : heldAs book key lotId with
      | none => rfl
      | some state =>
        rw [held] at same
        dsimp only at same
        simp only [List.map_append, List.sum_append, List.map_cons, List.map_nil, moved]
        omega

end

/-- Lines that move an instrument in a sleeve by so much, of either side, relieving within what is
open. -/
structure Moves (book : Book) (earlier : List MovementLine) (instrument sleeve : String) (units : Int)
    (lines : List MovementLine) : Prop where
  on : ∀ line ∈ lines, line.instrumentId = instrument ∧ line.sleeve = sleeve
  sum : (lines.map lineUnits).sum = units
  within : RelievesWithin book earlier lines

namespace Leg

variable {book : Book} {earlier : List MovementLine} {leg : Leg} {side : HoldingSide} {quantity size : Exact}
  {takes : List (String × Exact)} {lotId : String} {terms : LotTerms}

@[simp] theorem lineUnits_line : lineUnits (leg.line side quantity) = quantity.units := by
  simp [lineUnits, readExact, Leg.line, numbers.wire, Except.toOption]

theorem moves_line : Moves book earlier leg.instrument leg.sleeve quantity.units [leg.line side quantity] := by
  refine ⟨?_, ?_, ⟨?_, trivial⟩⟩
  · intro line among
    rw [List.mem_singleton.mp among]
    exact ⟨rfl, rfl⟩
  · simp
  · intro _ named
    exact absurd rfl named

theorem moves_opening : Moves book earlier leg.instrument leg.sleeve
    (if side = .short then -size.units else size.units) [leg.opening side size lotId terms] := by
  refine ⟨?_, ?_, ⟨?_, trivial⟩⟩
  · intro line among
    rw [List.mem_singleton.mp among]
    exact ⟨rfl, rfl⟩
  · rw [List.map_singleton, List.sum_singleton]
    change lineUnits (leg.line side (if side = .short then size.negated else size)) = _
    rw [lineUnits_line]
    split <;> simp
  · intro unopened
    cases unopened

/-- What a line relieving a lot says, whichever the side. -/
theorem units_relieving (take : String × Exact) :
    lineUnits { leg.line side (if side = .short then take.2 else take.2.negated) with lotId := take.1 } =
      if side = .short then take.2.units else -take.2.units := by
  change lineUnits (leg.line side (if side = .short then take.2 else take.2.negated)) = _
  rw [lineUnits_line]
  split <;> simp

theorem within_relieving (distinct : (takes.map Prod.fst).Nodup)
    (within : ∀ take ∈ takes, take.2.units ≤ openNow book (leg.key side) earlier take.1) :
    RelievesWithin book earlier (leg.relieving side takes) := by
  induction takes generalizing earlier with
  | nil => trivial
  | cons take rest ih =>
    obtain ⟨new, distinct⟩ := List.nodup_cons.mp distinct
    obtain ⟨first, later⟩ := List.forall_mem_cons.mp within
    refine ⟨fun _ named => ?_, ih distinct fun other inRest => ?_⟩
    · have change : magnitudeChange (leg.key side) take.1
          { leg.line side (if side = .short then take.2 else take.2.negated) with lotId := take.1 } = -take.2.units := by
        rw [magnitudeChange, if_pos ⟨rfl, named, rfl⟩, units_relieving]
        change (if side = .short then _ else _) = _
        split <;> rfl
      calc
        _ = -(-take.2.units) := congrArg Neg.neg change
        _ = take.2.units := neg_neg _
        _ ≤ openNow book (leg.key side) earlier take.1 := first
    · rw [openNow_append]
      · exact later other inRest
      · refine if_neg ?_
        rintro ⟨-, -, same⟩
        exact new (List.mem_map.mpr ⟨other, inRest, same.symm⟩)

theorem moves_relieving {lots : List LotView} {method : LotReliefMethod} {named : List String}
    (opened : openLots book (leg.key side) earlier = .ok lots) (relieved : relief lots quantity method named = .ok takes) :
    Moves book earlier leg.instrument leg.sleeve
      (if side = .short then (takes.map fun take => take.2.units).sum else -(takes.map fun take => take.2.units).sum)
      (leg.relieving side takes) := by
  have are := openLots_ok opened
  refine ⟨?_, ?_, within_relieving (takes_distinct are relieved) (takes_within are relieved)⟩
  · intro line among
    obtain ⟨take, -, rfl⟩ := List.mem_map.mp among
    exact ⟨rfl, rfl⟩
  · have units (take : String × Exact) := @units_relieving leg side take
    rw [relieving, List.map_map]
    simp only [Function.comp_def, units]
    split
    · rfl
    · rw [List.sum_neg, List.map_map]
      rfl

end Leg

section

variable {book : Book} {ctx : Context} {earlier lines more : List MovementLine} {instrument sleeve : String} {units less : Int}

theorem moves_nil : Moves book earlier instrument sleeve 0 [] :=
  ⟨fun _ none' => absurd none' List.not_mem_nil, rfl, trivial⟩

theorem Moves.append (first : Moves book earlier instrument sleeve units lines)
    (second : Moves book (earlier ++ lines) instrument sleeve less more) :
    Moves book earlier instrument sleeve (units + less) (lines ++ more) := by
  refine ⟨fun line among => ?_, ?_, relievesWithin_append.mpr ⟨first.within, second.within⟩⟩
  · exact (List.mem_append.mp among).elim (first.on line) (second.on line)
  · rw [List.map_append, List.sum_append, first.sum, second.sum]

/-- What is left of a quantity is the quantity less what was taken. -/
theorem lessTakes_units {field : String} {takes : List (String × Exact)} {quantity left : Exact}
    (summed : lessTakes field quantity takes = .ok left) :
    left.units = quantity.units - (takes.map fun take => take.2.units).sum := by
  unfold lessTakes at summed
  induction takes generalizing quantity with
  | nil =>
    cases summed
    simp
  | cons take rest ih =>
    rw [List.foldlM_cons] at summed
    obtain ⟨next, added, summed⟩ := bind_ok.mp summed
    have units := (Exact.checkedAdd_ok (mapError_ok.mp added)).1
    rw [ih summed, units, Exact.units_negated, List.map_cons, List.sum_cons]
    ring

/-- Lots relieved, and the rest of a quantity on a line of its own where any is left. -/
theorem moves_relieve {leg : Leg} {side : HoldingSide} {asked left : Exact} {lots : List LotView}
    {method : LotReliefMethod} {named : List String} {takes : List (String × Exact)} {remainder : List MovementLine}
    (opened : openLots book (leg.key side) earlier = .ok lots) (relieved : relief lots asked method named = .ok takes)
    (nothing : left.units = 0 → less = 0)
    (whole : (if side = .short then (takes.map fun take => take.2.units).sum
      else -(takes.map fun take => take.2.units).sum) + less = units)
    (remains : ∀ earlier, Moves book earlier leg.instrument leg.sleeve less remainder) :
    Moves book earlier leg.instrument leg.sleeve units
      (if left.isZero then leg.relieving side takes else leg.relieving side takes ++ remainder) := by
  have moved := Leg.moves_relieving opened relieved
  rw [← whole]
  by_cases zero : left.isZero = true
  · rw [if_pos zero, nothing ((Exact.isZero_iff left).mp zero), Int.add_zero]
    exact moved
  · rw [if_neg zero]
    exact moved.append (remains _)

/-- What is left of a negative amount once lots are relieved of it. -/
theorem moreTakes_units {takes : List (String × Exact)} {amount left : Exact}
    (summed : takes.foldlM (fun rest take => numbers.add "relief" rest take.2) amount = .ok left) :
    left.units = amount.units + (takes.map fun take => take.2.units).sum := by
  induction takes generalizing amount with
  | nil =>
    cases summed
    simp
  | cons take rest ih =>
    rw [List.foldlM_cons] at summed
    obtain ⟨next, added, summed⟩ := bind_ok.mp summed
    have units := (Exact.checkedAdd_ok (mapError_ok.mp added)).1
    rw [ih summed, units, List.map_cons, List.sum_cons]
    ring

/-- A currency's lines move the amount. -/
theorem moves_currency {amount : Exact} {valueDate acquiredDate : String} {basis : Option Money}
    {method : LotReliefMethod} {named : List String}
    (answered : currencyLines book ctx instrument amount valueDate sleeve acquiredDate basis method named earlier =
      .ok lines) : Moves book earlier instrument sleeve amount.units lines := by
  unfold currencyLines at answered
  dsimp only at answered
  generalize stated : (⟨instrument, if valueDate = "" then .settled else .pending, valueDate, sleeve⟩ : Leg) = leg at answered
  have on : leg.instrument = instrument ∧ leg.sleeve = sleeve := by
    rw [← stated]
    exact ⟨rfl, rfl⟩
  rw [← on.1, ← on.2]
  split at answered
  · next nothing =>
    cases answered
    rw [(Exact.isZero_iff amount).mp nothing]
    exact moves_nil
  · split at answered
    · split at answered
      · -- the base currency paid: its lots first, and the balance the rest
        obtain ⟨lots, opened, answered⟩ := bind_ok.mp answered
        obtain ⟨takes, relieved, answered⟩ := bind_ok.mp answered
        obtain ⟨rest, summed, answered⟩ := bind_ok.mp answered
        cases answered
        have units := moreTakes_units summed
        refine moves_relieve opened relieved id ?_ fun _ => Leg.moves_line
        rw [if_neg (by decide)]
        omega
      · cases answered
        exact Leg.moves_line
    · split at answered
      · obtain ⟨lots, opened, answered⟩ := bind_ok.mp answered
        obtain ⟨takes, relieved, answered⟩ := bind_ok.mp answered
        obtain ⟨rest, summed, answered⟩ := bind_ok.mp answered
        cases answered
        have units := lessTakes_units summed
        refine moves_relieve opened relieved (fun zero => ?_) ?_ fun _ => Leg.moves_opening
        · rw [if_neg (by decide)]
          exact zero
        · rw [if_pos rfl, if_neg (by decide)]
          omega
      · obtain ⟨lots, opened, answered⟩ := bind_ok.mp answered
        obtain ⟨takes, relieved, answered⟩ := bind_ok.mp answered
        obtain ⟨rest, summed, answered⟩ := bind_ok.mp answered
        cases answered
        have units := lessTakes_units summed
        rw [Exact.units_negated] at units
        refine moves_relieve opened relieved (fun zero => ?_) ?_ fun _ => Leg.moves_opening
        · rw [if_pos rfl, zero, neg_zero]
        · rw [if_neg (by decide), if_pos rfl]
          omega

/-- The lots relieved, and a lot opened for the rest where any is left. -/
theorem opened_rest {whole : Bool} {first : List MovementLine} {terms : Result LotTerms}
    {opening : LotTerms → MovementLine}
    (answered : (if whole = true then pure first
      else (terms >>= fun terms => pure [opening terms]) >>= fun rest => pure (first ++ rest) :
      Result (List MovementLine)) = .ok lines) :
    ∃ stated, lines = if whole then first else first ++ [opening stated] := by
  cases whole with
  | true =>
    cases answered
    exact ⟨{}, rfl⟩
  | false =>
    obtain ⟨rest, opened, answered⟩ := bind_ok.mp answered
    obtain ⟨stated, -, opened⟩ := bind_ok.mp opened
    cases opened
    cases answered
    exact ⟨stated, rfl⟩

/-- The lines of what a fill buys or sells move it in by what is bought, and out by what is sold. -/
theorem moves_security {orderId : String} {execution : Execution} {leg : Leg} {price : Money}
    {unit multiplier quantity : Exact}
    (answered : securityLines book ctx orderId execution leg price unit multiplier quantity earlier = .ok lines) :
    execution.side ≠ .unspecified ∧
    Moves book earlier leg.instrument leg.sleeve (if execution.side = .buy then quantity.units else -quantity.units)
      lines := by
  unfold securityLines at answered
  dsimp only at answered
  have base {side : Side} (balance : (pure [leg.line .long (if side = .buy then quantity else quantity.negated)] :
      Result (List MovementLine)) = .ok lines) :
      Moves book earlier leg.instrument leg.sleeve (if side = .buy then quantity.units else -quantity.units) lines := by
    cases balance
    convert @Leg.moves_line book earlier leg .long _ using 1
    split <;> simp
  have short {terms : Result LotTerms} {lotId : String} (opened : (do
      let terms ← terms
      pure [leg.opening .short quantity lotId terms] : Result (List MovementLine)) = .ok lines) :
      Moves book earlier leg.instrument leg.sleeve (-quantity.units) lines := by
    obtain ⟨stated, -, opened⟩ := bind_ok.mp opened
    cases opened
    exact @Leg.moves_opening book earlier leg .short quantity lotId stated
  generalize execution.side = side at answered ⊢
  cases side with
  | unspecified => cases answered
  | buy =>
    refine ⟨by decide, ?_⟩
    dsimp only at answered
    split at answered
    · exact base answered
    · obtain ⟨lots, opened, answered⟩ := bind_ok.mp answered
      obtain ⟨takes, relieved, answered⟩ := bind_ok.mp answered
      obtain ⟨rest, summed, answered⟩ := bind_ok.mp answered
      obtain ⟨stated, rfl⟩ := opened_rest answered
      have units := lessTakes_units summed
      refine moves_relieve opened relieved (fun zero => ?_) ?_ fun _ => Leg.moves_opening
      · rw [if_neg (by decide)]
        exact zero
      · rw [if_pos rfl, if_neg (by decide), if_pos rfl]
        omega
  | sell =>
    refine ⟨by decide, ?_⟩
    dsimp only at answered
    split at answered
    · exact base answered
    · obtain ⟨lots, opened, answered⟩ := bind_ok.mp answered
      obtain ⟨takes, relieved, answered⟩ := bind_ok.mp answered
      obtain ⟨rest, summed, answered⟩ := bind_ok.mp answered
      obtain ⟨stated, rfl⟩ := opened_rest answered
      have units := lessTakes_units summed
      refine moves_relieve opened relieved (fun zero => ?_) ?_ fun _ => Leg.moves_opening
      · rw [if_pos rfl, zero, neg_zero]
      · rw [if_neg (by decide), if_pos rfl, if_neg (by decide)]
        omega
  | _ =>
    refine ⟨by decide, ?_⟩
    dsimp only at answered
    split at answered
    · exact base answered
    · exact short answered

/-- What lines move an instrument by, over long and short together. -/
def unitsIn (lines : List MovementLine) (instrument : String) : Int :=
  ((lines.filter fun line => line.instrumentId = instrument).map lineUnits).sum

@[simp] theorem unitsIn_append (lines more : List MovementLine) (instrument : String) :
    unitsIn (lines ++ more) instrument = unitsIn lines instrument + unitsIn more instrument := by
  simp [unitsIn]

theorem Moves.unitsIn_eq (moves : Moves book earlier instrument sleeve units lines) (other : String) :
    unitsIn lines other = if other = instrument then units else 0 := by
  rw [unitsIn]
  split
  · next same =>
    have every : (lines.filter fun line => line.instrumentId = other) = lines :=
      List.filter_eq_self.mpr fun line among => by simpa [same] using (moves.on line among).1
    rw [every, moves.sum]
  · next apart =>
    have none' : (lines.filter fun line => line.instrumentId = other) = [] := by
      refine List.filter_eq_nil_iff.mpr fun line among => ?_
      rw [(moves.on line among).1]
      simpa using Ne.symm apart
    rw [none']
    rfl

/-- What a fee is in an instrument. -/
def feeUnits (process : Process) (instrument : String) (fee : Fee) : Int :=
  match fee.amount with
  | some amount =>
    if cashInstrument process amount = .ok instrument then ((amountOf (some amount)).map Exact.units).getD 0 else 0
  | none => 0

/-- The sums of lines of one sleeve, by instrument, that relieve within what is open. -/
structure Sums (book : Book) (earlier : List MovementLine) (sleeve : String) (sums : String → Int)
    (lines : List MovementLine) : Prop where
  sleeve : ∀ line ∈ lines, line.sleeve = sleeve
  sums : ∀ instrument, unitsIn lines instrument = sums instrument
  within : RelievesWithin book earlier lines

theorem Moves.toSums (moves : Moves book earlier instrument sleeve units lines) :
    Sums book earlier sleeve (fun other => if other = instrument then units else 0) lines :=
  ⟨fun line among => (moves.on line among).2, moves.unitsIn_eq, moves.within⟩

theorem Sums.append {first second : String → Int} (one : Sums book earlier sleeve first lines)
    (other : Sums book (earlier ++ lines) sleeve second more) :
    Sums book earlier sleeve (fun instrument => first instrument + second instrument) (lines ++ more) := by
  refine ⟨fun line among => ?_, fun instrument => ?_, relievesWithin_append.mpr ⟨one.within, other.within⟩⟩
  · exact (List.mem_append.mp among).elim (one.sleeve line) (other.sleeve line)
  · rw [unitsIn_append, one.sums, other.sums]

theorem amount_read {field : String} {money : Money} {value : Exact} (read : numbers.amount field money = .ok value) :
    amountOf (some money) = some value := by
  exact required_read read

/-- A fill's fee lines move each fee out of its own currency. -/
theorem sums_fees {execution : Execution} {valueDate : String} {fees : List Fee} {index : Nat}
    (answered : feeLines book ctx execution valueDate index fees earlier = .ok lines) :
    Sums book earlier execution.sleeve (fun instrument => -(fees.map (feeUnits ctx.process instrument)).sum) lines := by
  induction fees generalizing index earlier lines with
  | nil =>
    cases answered
    exact ⟨fun _ none' => absurd none' List.not_mem_nil, fun _ => rfl, trivial⟩
  | cons fee rest ih =>
    rw [feeLines] at answered
    cases stated : fee.amount with
    | none =>
      simp only [stated] at answered
      cases answered
    | some amount =>
      simp only [stated] at answered
      obtain ⟨value, read, answered⟩ := bind_ok.mp answered
      obtain ⟨cash, known, answered⟩ := bind_ok.mp answered
      obtain ⟨moved, drafted, answered⟩ := bind_ok.mp answered
      obtain ⟨later, others, answered⟩ := bind_ok.mp answered
      cases answered
      have first := (moves_currency drafted).toSums
      have both := first.append (ih others)
      refine ⟨both.sleeve, fun instrument => ?_, both.within⟩
      rw [both.sums, Exact.units_negated, List.map_cons, List.sum_cons, feeUnits, stated]
      dsimp only
      rw [amount_read read, known]
      by_cases same : instrument = cash
      · rw [if_pos same, if_pos (congrArg Except.ok same.symm)]
        simp only [Option.map_some, Option.getD_some]
        ring
      · rw [if_neg same, if_neg fun alike => same (Except.ok.inj alike).symm]
        ring

end

/-- What a fill pays for, in its price's currency: the quantity at its price and its multiplier, a
pool's or a tranche's to the cent. -/
def notionalOf (book : Book) (ctx : Context) (execution : Execution) (quantity unit : Exact) : ℚ :=
  let whole := quantity.value * unit.value *
    (ctx.fillMultiplier execution.instrumentId (tradeFactor book ctx execution)).value
  if ctx.isPooled execution.instrumentId then toCents whole else whole

/-- What lines move an instrument by, as a number, over long and short together. -/
def amountIn (lines : List MovementLine) (instrument : String) : ℚ := unitsIn lines instrument / 10 ^ places

/-- What a fee takes of an instrument. -/
def feeIn (process : Process) (instrument : String) (fee : Fee) : ℚ := feeUnits process instrument fee / 10 ^ places

/-- A quantity moved in by a purchase and out by a sale. -/
def bought (side : Side) (amount : ℚ) : ℚ := if side = .buy then amount else -amount

/-- The lines of a fill are the fill: in its sleeve, its quantity into the instrument as the book
holds it, what it pays for out of its price's currency, each fee out of its own; and no lot relieved
of more than is open. -/
def IsFill (book : Book) (ctx : Context) (execution : Execution) (earlier lines : List MovementLine) : Prop :=
  ∃ quantity price unit cash, readExact execution.quantity = some quantity ∧ execution.price = some price ∧
    amountOf (some price) = some unit ∧ cashInstrument ctx.process price = .ok cash ∧ execution.side ≠ .unspecified ∧
    (∀ line ∈ lines, line.sleeve = execution.sleeve) ∧
    (∀ instrument, amountIn lines instrument =
      (if instrument = landing ctx.process book execution.instrumentId then bought execution.side quantity.value else 0) +
      (if instrument = cash then -bought execution.side (notionalOf book ctx execution quantity unit) else 0) -
      (execution.fees.map (feeIn ctx.process instrument)).sum) ∧
    RelievesWithin book earlier lines

section

variable {book : Book} {ctx : Context} {execution : Execution} {earlier lines : List MovementLine}

theorem notional_value {quantity unit priced whole notional : Exact}
    (first : multiply "cash" quantity unit = .ok priced)
    (second : multiply "cash" priced (ctx.fillMultiplier execution.instrumentId (tradeFactor book ctx execution)) =
      .ok whole)
    (rounded : pooledCents ctx execution "cash" whole = .ok notional) :
    notional.value = notionalOf book ctx execution quantity unit := by
  have product := (multiply_value second).trans (congrArg (· * _) (multiply_value first))
  unfold pooledCents at rounded
  unfold notionalOf
  dsimp only
  split at rounded
  · next pooled => rw [if_pos pooled, cents_value rounded, product]
  · next plain =>
    cases rounded
    rw [if_neg plain, product]

/-- Lines made pending where they are dated nothing say what they said. -/
theorem Sums.undated {sleeve : String} {sums : String → Int} (are : Sums book earlier sleeve sums lines) :
    Sums book earlier sleeve sums (undatedPending lines) := by
  have keeps (line : MovementLine) : lineKey (if line.valueDate = "" then { line with bucket := .pending } else line) =
      lineKey line ∧ (if line.valueDate = "" then { line with bucket := .pending } else line).lotId = line.lotId ∧
      (if line.valueDate = "" then { line with bucket := .pending } else line).opensLot = line.opensLot ∧
      (if line.valueDate = "" then { line with bucket := .pending } else line).quantity = line.quantity := by
    split <;> exact ⟨rfl, rfl, rfl, rfl⟩
  refine ⟨fun line among => ?_, fun instrument => ?_, relievesWithin_map keeps (fun _ _ => rfl) are.within⟩
  · obtain ⟨line, inLines, rfl⟩ := List.mem_map.mp among
    exact (congrArg Key.sleeve (keeps line).1).trans (are.sleeve line inLines)
  · rw [← are.sums, unitsIn, unitsIn, undatedPending, List.filter_map, List.map_map]
    have instruments (line : MovementLine) :
        (if line.valueDate = "" then { line with bucket := .pending } else line).instrumentId = line.instrumentId :=
      congrArg Key.instrument (keeps line).1
    have units (line : MovementLine) :
        lineUnits (if line.valueDate = "" then { line with bucket := .pending } else line) = lineUnits line := by
      rw [lineUnits, (keeps line).2.2.2, lineUnits]
    simp only [Function.comp_def, instruments, units]

theorem Sums.dated {sleeve : String} {sums : String → Int} {drafted : List MovementLine} {unknown : Bool}
    (are : Sums book earlier sleeve sums drafted)
    (answered : (pure (if unknown = true then undatedPending drafted else drafted) : Result (List MovementLine)) =
      .ok lines) : Sums book earlier sleeve sums lines := by
  cases answered
  split
  · exact are.undated
  · exact are

theorem fees_value (process : Process) (instrument : String) (fees : List Fee) :
    (((fees.map (feeUnits process instrument)).sum : Int) : ℚ) / 10 ^ places =
      (fees.map (feeIn process instrument)).sum := by
  induction fees with
  | nil => simp
  | cons fee rest ih => rw [List.map_cons, List.map_cons, List.sum_cons, List.sum_cons, Int.cast_add, add_div, ih, feeIn]

theorem scaled_ite (holds : Prop) [Decidable holds] (units : Int) :
    (((if holds then units else 0) : Int) : ℚ) / 10 ^ places = if holds then (units : ℚ) / 10 ^ places else 0 := by
  split <;> simp

/-- The lines of a fill are the fill; a package's own execution moves nothing. -/
theorem trade_lines_are_fill {orderId : String}
    (answered : tradeLines book ctx orderId execution earlier = .ok lines) :
    if execution.multiLegReportingType = .package then lines = [] else IsFill book ctx execution earlier lines := by
  unfold tradeLines at answered
  split at answered
  · next package =>
    rw [if_pos package]
    exact (Except.ok.inj answered).symm
  · next single =>
    rw [if_neg single]
    obtain ⟨quantity, readQuantity, answered⟩ := bind_ok.mp answered
    cases stated : execution.price with
    | none =>
      simp only [stated] at answered
      cases answered
    | some price =>
      simp only [stated] at answered
      obtain ⟨unit, readUnit, answered⟩ := bind_ok.mp answered
      obtain ⟨security, bought', answered⟩ := bind_ok.mp answered
      obtain ⟨priced, first, answered⟩ := bind_ok.mp answered
      obtain ⟨whole, second, answered⟩ := bind_ok.mp answered
      obtain ⟨notional, rounded, answered⟩ := bind_ok.mp answered
      obtain ⟨cash, known, answered⟩ := bind_ok.mp answered
      obtain ⟨paid, drafted, answered⟩ := bind_ok.mp answered
      obtain ⟨fees, charged, answered⟩ := bind_ok.mp answered
      obtain ⟨sided, securityMoves⟩ := moves_security bought'
      have moved := securityMoves.toSums.append ((moves_currency drafted).toSums.append (sums_fees charged))
      rw [← List.append_assoc] at moved
      have sums := moved.dated answered
      refine ⟨quantity, price, unit, cash, required_read readQuantity, stated, amount_read readUnit, known, sided,
        sums.sleeve, fun instrument => ?_, sums.within⟩
      have paidUnits : ((if execution.side = .buy then notional.negated else notional).units : ℚ) / 10 ^ places =
          -bought execution.side (notionalOf book ctx execution quantity unit) := by
        rw [← notional_value first second rounded, ← Exact.value_of_units, bought]
        split
        · rw [Exact.units_negated, Int.cast_neg, neg_div]
        · rw [neg_neg]
      have boughtUnits : (((if execution.side = .buy then quantity.units else -quantity.units) : Int) : ℚ) / 10 ^ places =
          bought execution.side quantity.value := by
        rw [← Exact.value_of_units, bought]
        split
        · rfl
        · rw [Int.cast_neg, neg_div]
      rw [amountIn, sums.sums, ← paidUnits, ← boughtUnits, Int.cast_add, Int.cast_add, add_div, add_div, ← add_assoc,
        sub_eq_add_neg]
      congr 1
      · rw [scaled_ite, scaled_ite]
      · rw [Int.cast_neg, neg_div, fees_value]

end

/-- A sale of four at ten, its fee in the price's currency. -/
def sellingFour : Execution where
  executionId := "EXE-1"
  instrumentId := "INS-1"
  side := .sell
  quantity := some ⟨4, 0⟩
  price := some { amount := some ⟨10, 0⟩, currencyCode := "EUR", instrumentId := "CUR-EUR" }
  fees := [{ amount := some { amount := some ⟨15, 1⟩, currencyCode := "EUR", instrumentId := "CUR-EUR" } }]
  tradeDate := "2024-02-01"
  settlementDate := "2024-02-03"

theorem trade_lines_are_sale : ∃ lines, tradeLines (twoLots three six) {} "ORD-1" sellingFour [] = .ok lines ∧
    IsFill (twoLots three six) {} sellingFour [] lines ∧ lines.length = 4 := by
  have computed : (tradeLines (twoLots three six) {} "ORD-1" sellingFour []).toOption.any
      (fun lines => lines.length == 4) = true := by decide +kernel
  obtain ⟨lines, answered, four⟩ := answered_of computed
  exact ⟨lines, answered, trade_lines_are_fill answered, eq_of_beq four⟩

/-- A package's own fill of four moves none of the four. -/
theorem package_books_nothing : ∃ lines, tradeLines (twoLots three six) {} "ORD-1"
    { sellingFour with side := .buy, multiLegReportingType := .package } [] = .ok lines ∧
    ¬ IsFill (twoLots three six) {} { sellingFour with side := .buy, multiLegReportingType := .package } [] lines := by
  refine ⟨[], rfl, ?_⟩
  rintro ⟨quantity, price, unit, cash, read, stated, -, known, -, -, moved, -⟩
  cases stated
  cases known
  cases read
  have four := moved "INS-1"
  have lands : landing ({} : Context).process (twoLots three six) "INS-1" = "INS-1" := by decide +kernel
  have fees : ∀ fee ∈ sellingFour.fees, feeUnits ({} : Context).process "INS-1" fee = 0 := by decide +kernel
  have free : (sellingFour.fees.map (feeIn ({} : Context).process "INS-1")).sum = 0 := by
    refine List.sum_eq_zero fun amount among => ?_
    obtain ⟨fee, inFees, rfl⟩ := List.mem_map.mp among
    rw [feeIn, fees fee inFees, Int.cast_zero, zero_div]
  have nothing : amountIn [] "INS-1" = 0 := by simp [amountIn, unitsIn]
  change amountIn [] "INS-1" = (if "INS-1" = landing ({} : Context).process (twoLots three six) "INS-1" then
    bought .buy (Exact.value ⟨4, 0, _, _⟩) else 0) + 0 - (sellingFour.fees.map (feeIn ({} : Context).process "INS-1")).sum at four
  rw [nothing, lands, if_pos rfl, free] at four
  norm_num [bought, Exact.value] at four

end MeridianCore.Bor
