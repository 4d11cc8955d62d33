import MeridianCore.Bor.Lifecycle.Reported
import MeridianCore.Bor.Lifecycle.Share
import MeridianCore.Bor.OrderDecide.TradeLines

/-! The premium an exercise or an assignment carries. It is summed over the contracts closed, and goes
to the first lot a delivery opens, by addition, whichever way the delivery moves and priced or not. -/

namespace MeridianCore.Bor.Lifecycle
open Book (lineUnits lineUnits_of_read)

/-- Whether a line opens a lot a delivery brought: a currency's lot is opened as an execution's. -/
def opensDelivered (line : MovementLine) : Bool := line.opensLot.any fun terms => terms.source == .adjustment

/-- Whether the lot a line opens states its price. -/
def priced (line : MovementLine) : Bool := line.opensLot.any fun terms => terms.unitCost.isSome

/-- What the lot a line opens cost above its quantity at its price: what was added to a lot received,
what was taken off the proceeds of a lot delivered short. -/
def carriedBy (line : MovementLine) : ℚ :=
  match line.opensLot.bind fun terms => amountOf terms.unitCost, line.opensLot.bind fun terms => amountOf terms.cost with
  | some unit, some cost =>
    let above := cost.value - (magnitude (readOr line.quantity)).value * unit.value
    if line.side = .long then above else -above
  | _, _ => 0

/-- The contracts an option's event closes: the lots it may close, and what it takes of each. -/
def contractsClosed (book : Book) (ctx : Context) (event : LifecycleEvent) :
    Result (List LotView × List (String × Exact)) := do
  let quantity ← numbers.required "quantity" event.quantity
  let lots ← openLots book ⟨landing ctx.process book event.instrumentId, sideClosed book ctx event, ""⟩ []
  return (lots, ← relief lots quantity (attributesOf book).lotReliefDefault [])

/-- The unit cost of the lot a take closes, as the book views the lot. -/
def unitOf (lots : List LotView) (lotId : String) : Option Exact :=
  (lots.find? fun lot => lot.lotId == lotId).bind LotView.unitCost

/-- What a take's contracts cost, paid for a long and received for a short: their number times the unit
cost, per unit of the underlying, times the multiplier. -/
def premiumOfTake (ctx : Context) (event : LifecycleEvent) (side : HoldingSide) (lots : List LotView)
    (take : String × Exact) : ℚ :=
  match unitOf lots take.1 with
  | some unit =>
    let part := take.2.value * unit.value * (ctx.multiplier event.instrumentId).value
    if side = .long then part else -part
  | none => 0

/-- The premium of the contracts an event closes. -/
def premiumOf (book : Book) (ctx : Context) (event : LifecycleEvent) : ℚ :=
  match contractsClosed book ctx event with
  | .ok (lots, takes) => (takes.map (premiumOfTake ctx event (sideClosed book ctx event) lots)).sum
  | .error _ => 0

/-- The line closing what is taken of a lot of one side. -/
def closingLine (instrument : String) (side : HoldingSide) (take : String × Exact) : MovementLine :=
  { settledLine instrument side (if side = .long then take.2.negated else take.2) with lotId := take.1 }

/-- Whether a delivery is received. -/
def isReceived (delivery : LifecycleDelivery) : Bool := !(readOr delivery.quantity).isNegative

/-- What a delivery closes of the side it goes against, and what is left of it. -/
def covered (book : Book) (ctx : Context) (delivery : LifecycleDelivery) (lines : List MovementLine) :
    Result (List MovementLine × Exact) := do
  let instrument := landing ctx.process book delivery.instrumentId
  let closeSide : HoldingSide := if isReceived delivery then .short else .long
  let size := magnitude (readOr delivery.quantity)
  let takes ← relief (← openLots book ⟨instrument, closeSide, ""⟩ lines) size (attributesOf book).lotReliefDefault []
  return (takes.map (closingLine instrument closeSide), ← lessTakes "delivery" size takes)

/-- The first delivery that the open positions it goes against do not cover, after the lines given. -/
def firstUncovered (book : Book) (ctx : Context) : List LifecycleDelivery → List MovementLine → Option LifecycleDelivery
  | [], _ => none
  | delivery :: rest, lines =>
    match covered book ctx delivery lines with
    | .ok (closing, left) => if left.isZero then firstUncovered book ctx rest (lines ++ closing) else some delivery
    | .error _ => none

/-- The contracts an event closes, as lines. -/
def contractLines (book : Book) (ctx : Context) (event : LifecycleEvent) : List MovementLine :=
  match contractsClosed book ctx event with
  | .ok (_, takes) =>
    takes.map (closingLine (landing ctx.process book event.instrumentId) (sideClosed book ctx event))
  | .error _ => []

/-- One delivery's lines: on its own instrument, and to its quantity. -/
structure Delivers (book : Book) (ctx : Context) (delivery : LifecycleDelivery) (lines : List MovementLine) : Prop where
  on : ∀ line ∈ lines, line.instrumentId = landing ctx.process book delivery.instrumentId
  sum : (lines.map lineUnits).sum = (readOr delivery.quantity).units

/-- The premium carried once over the lots the deliveries open, and the quantities closed and delivered
those stated. -/
structure CarriesPremium (book : Book) (ctx : Context) (event : LifecycleEvent) (lines : List MovementLine) : Prop where
  premium : ((lines.filter opensDelivered).map carriedBy).sum = premiumOf book ctx event
  quantities : ∃ delivered : List (List MovementLine), ∃ cash,
    lines = contractLines book ctx event ++ delivered.flatten ++ cash ∧
    ((contractLines book ctx event).map lineUnits).sum =
      (if sideClosed book ctx event = .long then -(readOr event.quantity).units else (readOr event.quantity).units) ∧
    List.Forall₂ (Delivers book ctx) event.deliveries delivered ∧
    (cash.map lineUnits).sum = ((event.cash.bind fun cash => amountOf (some cash)).map Exact.units).getD 0

/-- What an opened lot carries of a premium: the first one received and priced all of it, the first one
delivered short its reverse, none where it states no price. -/
def carriesOf (first : Option LifecycleDelivery) : ℚ :=
  match first with
  | some delivery => if delivery.price.isSome then (if isReceived delivery then 1 else -1) else 0
  | none => 0

section Closed

variable {book : Book} {ctx : Context} {event : LifecycleEvent} {lines : List MovementLine}

@[simp] theorem lineUnits_closingLine (instrument : String) (side : HoldingSide) (take : String × Exact) :
    lineUnits (closingLine instrument side take) = if side = .long then -take.2.units else take.2.units := by
  have read (value : Exact) : readExact (numbers.wire value) = some value := by
    simp [readExact, numbers.wire, Except.toOption]
  unfold closingLine lineUnits settledLine
  dsimp only
  rw [read]
  split <;> simp

/-- One contract's lot closed, and its premium added. -/
def closeLot (ctx : Context) (event : LifecycleEvent) (instrument : String) (side : HoldingSide) (lots : List LotView)
    (held : List MovementLine × Option Exact) (take : String × Exact) : Result (List MovementLine × Option Exact) := do
  match unitOf lots take.1 with
  | some unit =>
    let part ← multiply "premium" (← multiply "premium" take.2 unit) (ctx.multiplier event.instrumentId)
    let signed := if side = .long then part else part.negated
    return (held.1 ++ [closingLine instrument side take],
      some (← numbers.add "premium" (held.2.getD Exact.zero) signed))
  | none => return (held.1 ++ [closingLine instrument side take], held.2)

theorem negated_value (value : Exact) : value.negated.value = -value.value := by
  simp [Exact.value, Exact.negated, neg_div]

theorem value_add {field : String} {a b sum : Exact} (added : numbers.add field a b = .ok sum) :
    sum.value = a.value + b.value := by
  rw [← Exact.value_of_units, add_ok added, Int.cast_add, add_div, Exact.value_of_units, Exact.value_of_units]

@[simp] theorem value_zero : Exact.zero.value = 0 := by simp [Exact.value, Exact.zero]

theorem closeLot_ok {instrument : String} {side : HoldingSide} {lots : List LotView} {take : String × Exact}
    {held after : List MovementLine × Option Exact} (closed : closeLot ctx event instrument side lots held take = .ok after) :
    after.1 = held.1 ++ [closingLine instrument side take] ∧
      (after.2.getD Exact.zero).value = (held.2.getD Exact.zero).value + premiumOfTake ctx event side lots take := by
  unfold closeLot at closed
  unfold premiumOfTake
  cases unit : unitOf lots take.1 with
  | none =>
    rw [unit] at closed
    cases closed
    exact ⟨rfl, by simp⟩
  | some unit' =>
    rw [unit] at closed
    obtain ⟨first, multiplied, closed⟩ := bind_ok.mp closed
    obtain ⟨part, again, closed⟩ := bind_ok.mp closed
    obtain ⟨sum, added, closed⟩ := bind_ok.mp closed
    cases closed
    refine ⟨rfl, ?_⟩
    have worth : part.value = take.2.value * unit'.value * (ctx.multiplier event.instrumentId).value := by
      rw [multiply_value again, multiply_value multiplied]
    dsimp only [Option.getD_some]
    rw [value_add added, ← worth]
    split
    · rfl
    · rw [negated_value]

theorem closeLots_ok {instrument : String} {side : HoldingSide} {lots : List LotView} {takes : List (String × Exact)}
    {held after : List MovementLine × Option Exact}
    (closed : takes.foldlM (closeLot ctx event instrument side lots) held = .ok after) :
    after.1 = held.1 ++ takes.map (closingLine instrument side) ∧
      (after.2.getD Exact.zero).value =
        (held.2.getD Exact.zero).value + (takes.map (premiumOfTake ctx event side lots)).sum := by
  induction takes generalizing held with
  | nil =>
    cases closed
    simp
  | cons take rest ih =>
    rw [List.foldlM_cons] at closed
    obtain ⟨next, one, closed⟩ := bind_ok.mp closed
    obtain ⟨firstLines, firstPremium⟩ := closeLot_ok one
    obtain ⟨lines, premium⟩ := ih closed
    rw [lines, premium, firstLines, firstPremium]
    refine ⟨by simp, ?_⟩
    rw [List.map_cons, List.sum_cons]
    ring

theorem openOf_units {held : Exact} {lots : List LotView} (summed : openOf lots = .ok held) :
    held.units = (lots.map fun lot => lot.openQuantity.units).sum := by
  have adds (total : Exact) (lot : LotView) (after : Exact)
      (added : numbers.add "open" total lot.openQuantity = .ok after) :
      after.units = total.units + lot.openQuantity.units := add_ok added
  rw [foldlM_adds adds lots summed, Exact.units_zero]
  omega

theorem sum_map_neg (takes : List (String × Exact)) :
    (takes.map fun take => -take.2.units).sum = -(takes.map fun take => take.2.units).sum := by
  induction takes with
  | nil => rfl
  | cons take rest ih =>
    rw [List.map_cons, List.sum_cons, List.map_cons, List.sum_cons, ih]
    omega

/-- An option's contracts closed are the quantity stated, and their premium is summed. -/
theorem closeOption_ok {quantity : Exact} {closed : List MovementLine × Option Exact}
    (read : numbers.required "quantity" event.quantity = .ok quantity) (asked : 0 ≤ quantity.units)
    (answered : closeOption book ctx event (attributesOf book).lotReliefDefault quantity = .ok closed) :
    closed.1 = contractLines book ctx event ∧ (closed.2.getD Exact.zero).value = premiumOf book ctx event ∧
      (closed.1.map lineUnits).sum = if sideClosed book ctx event = .long then -quantity.units else quantity.units := by
  unfold closeOption at answered
  dsimp only at answered
  obtain ⟨lots, opened, answered⟩ := bind_ok.mp answered
  obtain ⟨held, summed, answered⟩ := bind_ok.mp answered
  split at answered
  · cases answered
  · next enough =>
    rw [Exact.less_iff, not_lt] at enough
    obtain ⟨takes, relieved, answered⟩ := bind_ok.mp answered
    change takes.foldlM (closeLot ctx event (landing ctx.process book event.instrumentId) (sideClosed book ctx event) lots)
      ([], none) = .ok closed at answered
    have taken : contractsClosed book ctx event = .ok (lots, takes) := by
      unfold contractsClosed
      rw [read]
      change (do
        let lots ← openLots book ⟨landing ctx.process book event.instrumentId, sideClosed book ctx event, ""⟩ []
        return (lots, ← relief lots quantity (attributesOf book).lotReliefDefault [])) = _
      rw [opened]
      change (do return (lots, ← relief lots quantity (attributesOf book).lotReliefDefault [])) = _
      rw [relieved]
      rfl
    obtain ⟨lines, premium⟩ := closeLots_ok answered
    have sum := takes_total (openLots_ok opened) asked relieved
    rw [← openOf_units summed, Int.min_eq_left enough] at sum
    refine ⟨?_, ?_, ?_⟩
    · rw [lines, contractLines, taken]
      rfl
    · rw [premium, premiumOf, taken]
      simp
    · rw [lines, List.nil_append, List.map_map]
      have each : lineUnits ∘ closingLine (landing ctx.process book event.instrumentId) (sideClosed book ctx event) =
          fun take => if sideClosed book ctx event = .long then -take.2.units else take.2.units := by
        funext take
        exact lineUnits_closingLine _ _ take
      rw [each]
      split
      · rw [← sum]
        exact sum_map_neg takes
      · exact sum

end Closed

section Delivered

variable {book : Book} {ctx : Context} {event : LifecycleEvent} {lines : List MovementLine}

theorem closing_on {instrument : String} {side : HoldingSide} {takes : List (String × Exact)} :
    (∀ line ∈ takes.map (closingLine instrument side), line.opensLot = none ∧ line.instrumentId = instrument) ∧
      ((takes.map (closingLine instrument side)).map lineUnits).sum =
        if side = .long then -(takes.map fun take => take.2.units).sum else (takes.map fun take => take.2.units).sum := by
  refine ⟨fun line listed => ?_, ?_⟩
  · obtain ⟨take, -, rfl⟩ := List.mem_map.mp listed
    exact ⟨rfl, rfl⟩
  · rw [List.map_map]
    have each : lineUnits ∘ closingLine instrument side =
        fun take => if side = .long then -take.2.units else take.2.units := by
      funext take
      exact lineUnits_closingLine _ _ take
    rw [each]
    split
    · exact sum_map_neg takes
    · rfl

theorem magnitude_nonneg (value : Exact) : 0 ≤ (magnitude value).units := by
  unfold magnitude
  split
  · next below =>
    rw [Exact.isNegative_iff] at below
    rw [Exact.units_negated]
    omega
  · next above =>
    rw [Exact.isNegative_iff] at above
    omega

/-- A quantity above zero is its own magnitude, turned or not. -/
theorem magnitude_turned {value : Exact} (positive : 0 < value.units) (turned : Bool) :
    (magnitude (if turned = true then value.negated else value)).value = value.value := by
  cases turned with
  | false =>
    have above : ¬ value.isNegative = true := by rw [Exact.isNegative_iff]; omega
    rw [if_neg (by simp), magnitude, if_neg above]
  | true =>
    have below : value.negated.isNegative = true := by rw [Exact.isNegative_iff, Exact.units_negated]; omega
    rw [if_pos rfl, magnitude, if_pos below, negated_value, negated_value, neg_neg]

/-- The lot a delivery opens: what is left of it, at its price, for so much. -/
def openingLine (instrument lotId eventDate : String) (receiving : Bool) (left : Exact) (price : Option Money)
    (cost : Option Exact) : MovementLine :=
  { settledLine instrument (if receiving = true then .long else .short) (if receiving = true then left else left.negated) with
    lotId
    opensLot := some {
      unitCost := price
      cost := match cost, price with
        | some cost, some price => some { price with amount := numbers.wire cost }
        | _, _ => none
      acquiredDate := eventDate
      settlementDate := eventDate
      source := .adjustment } }

/-- What it cost above its quantity at its price is what was added. -/
theorem carriedBy_openingLine {instrument lotId eventDate : String} {delivery : LifecycleDelivery} {left : Exact}
    {cost : Option Exact} {added : ℚ} (positive : 0 < left.units)
    (costed : ∀ price, delivery.price = some price → ∃ unit total, amountOf (some price) = some unit ∧
      cost = some total ∧ total.value = left.value * unit.value + added) :
    carriedBy (openingLine instrument lotId eventDate (isReceived delivery) left delivery.price cost) =
      carriesOf (some delivery) * added := by
  have carries : carriesOf (some delivery) =
      if delivery.price.isSome then (if isReceived delivery then 1 else -1) else 0 := rfl
  unfold carriedBy openingLine
  rw [carries]
  cases stated : delivery.price with
  | none => simp [amountOf]
  | some price =>
    obtain ⟨unit, total, read, rfl, worth⟩ := costed price stated
    have turned := magnitude_turned positive (!isReceived delivery)
    have amount : amountOf (some { price with amount := numbers.wire total }) = some total := by
      simp [amountOf, readExact, numbers.wire, Except.toOption]
    dsimp only [Option.bind_some]
    rw [read, amount]
    dsimp only
    cases received : isReceived delivery with
    | true =>
      rw [received] at turned
      simp only [settledLine, readOr_wire, if_true, Option.isSome_some]
      simp only [Bool.not_true, Bool.false_eq_true, if_false] at turned
      rw [turned, worth]
      ring
    | false =>
      rw [received] at turned
      simp only [settledLine, readOr_wire, Bool.false_eq_true, if_false, Option.isSome_some, if_true]
      simp only [Bool.not_false, if_true] at turned
      rw [turned, worth]
      simp

theorem lineUnits_openingLine (instrument lotId eventDate : String) (receiving : Bool) (left : Exact)
    (price : Option Money) (cost : Option Exact) :
    lineUnits (openingLine instrument lotId eventDate receiving left price cost) =
      if receiving = true then left.units else -left.units := by
  have read (value : Exact) : readExact (numbers.wire value) = some value := by
    simp [readExact, numbers.wire, Except.toOption]
  unfold openingLine lineUnits settledLine
  dsimp only
  rw [read]
  split <;> simp

/-- What one delivery gives: the lines that cover what it goes against, and a lot opened for what is
left of it, at its price, with the premium where it states one. -/
theorem deliver_ok {i : Nat} {delivery : LifecycleDelivery} {premium : Option Exact}
    {after : List MovementLine × Option Exact}
    (answered : deliver book ctx event (attributesOf book).lotReliefDefault i delivery lines premium = .ok after) :
    ∃ closing left, covered book ctx delivery lines = .ok (closing, left) ∧
      (∀ line ∈ closing, line.opensLot = none) ∧
      ((left.isZero = true ∧ after = (lines ++ closing, premium) ∧ Delivers book ctx delivery closing) ∨
        (left.isZero = false ∧ ∃ opening, after = (lines ++ closing ++ [opening], none) ∧
          Delivers book ctx delivery (closing ++ [opening]) ∧ opensDelivered opening = true ∧
          carriedBy opening = carriesOf (some delivery) * (premium.getD Exact.zero).value)) := by
  unfold deliver at answered
  obtain ⟨moved, read, answered⟩ := bind_ok.mp answered
  have stated : readOr delivery.quantity = moved := readOr_of_required read
  dsimp only at answered
  obtain ⟨lots, opened, answered⟩ := bind_ok.mp answered
  obtain ⟨takes, relieved, answered⟩ := bind_ok.mp answered
  obtain ⟨left, less, answered⟩ := bind_ok.mp answered
  have units := lessTakes_units less
  have size : (magnitude moved).units = if moved.isNegative then -moved.units else moved.units := by
    rw [magnitude]
    split <;> simp
  have receiving : isReceived delivery = !moved.isNegative := by rw [isReceived, stated]
  have covers : covered book ctx delivery lines = .ok (takes.map (closingLine (landing ctx.process book delivery.instrumentId)
      (if (!moved.isNegative) = true then .short else .long)), left) := by
    unfold covered
    rw [receiving, stated]
    simp only [opened, relieved, less, bind, Except.bind, pure, Except.pure]
  have sameLines : (takes.map fun take =>
      { settledLine (landing ctx.process book delivery.instrumentId) (if (!moved.isNegative) = true then .short else .long)
          (if (!moved.isNegative) = true then take.2 else take.2.negated) with lotId := take.1 }) =
      takes.map (closingLine (landing ctx.process book delivery.instrumentId)
        (if (!moved.isNegative) = true then .short else .long)) := by
    refine List.map_congr_left fun take _ => ?_
    unfold closingLine
    cases moved.isNegative <;> rfl
  rw [sameLines] at answered
  obtain ⟨on, sum⟩ := @closing_on (landing ctx.process book delivery.instrumentId)
    (if (!moved.isNegative) = true then .short else .long) takes
  generalize takes.map (closingLine (landing ctx.process book delivery.instrumentId)
    (if (!moved.isNegative) = true then .short else .long)) = closing at *
  refine ⟨closing, left, covers, fun line among => (on line among).1, ?_⟩
  split at answered
  · next nothing =>
    cases answered
    refine .inl ⟨nothing, rfl, fun line among => (on line among).2, ?_⟩
    rw [Exact.isZero_iff] at nothing
    rw [sum, stated]
    cases sign : moved.isNegative <;> simp [sign] at size ⊢ <;> omega
  · next something =>
    have positive : 0 < left.units := by
      have within := takes_total (openLots_ok opened) (magnitude_nonneg moved) relieved
      rw [Exact.isZero_iff] at something
      omega
    right
    refine ⟨Bool.eq_false_iff.mpr something, ?_⟩
    have opens (cost : Option Exact) (lotId : String)
        (costed : ∀ price, delivery.price = some price → ∃ unit total, amountOf (some price) = some unit ∧
          cost = some total ∧ total.value = left.value * unit.value + (premium.getD Exact.zero).value) :
        ∃ opening, (lines ++ closing ++ [openingLine (landing ctx.process book delivery.instrumentId) lotId event.eventDate
            (!moved.isNegative) left delivery.price cost], (none : Option Exact)) = (lines ++ closing ++ [opening], none) ∧
          Delivers book ctx delivery (closing ++ [opening]) ∧ opensDelivered opening = true ∧
          carriedBy opening = carriesOf (some delivery) * (premium.getD Exact.zero).value := by
      refine ⟨_, rfl, ⟨fun line among => ?_, ?_⟩, rfl, ?_⟩
      · rcases List.mem_append.mp among with earlier | last
        · exact (on line earlier).2
        · rw [List.mem_singleton.mp last]
          rfl
      · rw [List.map_append, List.sum_append, sum, stated, List.map_singleton, List.sum_singleton,
          lineUnits_openingLine]
        cases sign : moved.isNegative <;> simp [sign] at size ⊢ <;> omega
      · rw [← receiving]
        exact carriedBy_openingLine positive costed
    cases price : delivery.price with
    | none =>
      simp only [price] at answered
      cases answered
      simpa only [openingLine, price] using opens none _ (by simp [price])
    | some price' =>
      simp only [price] at answered
      obtain ⟨unit, read', answered⟩ := bind_ok.mp answered
      obtain ⟨total, multiplied, answered⟩ := bind_ok.mp answered
      obtain ⟨cost, same, answered⟩ := bind_ok.mp answered
      cases same
      have worth : total.value = left.value * unit.value := multiply_value multiplied
      have amount : amountOf (some price') = some unit := amount_read read'
      cases paid : premium with
      | none =>
        simp only [paid] at answered opens
        cases answered
        have opened' := opens (some total) (ctx.minted "LOT" (lotsOpened (lines ++ closing))) fun other same => by
          cases price.symm.trans same
          exact ⟨unit, total, amount, rfl, by rw [worth]; simp⟩
        simpa only [openingLine, price] using opened'
      | some paid' =>
        simp only [paid] at answered opens
        obtain ⟨both, added, answered⟩ := bind_ok.mp answered
        cases answered
        have opened' := opens (some both) (ctx.minted "LOT" (lotsOpened (lines ++ closing))) fun other same => by
          cases price.symm.trans same
          exact ⟨unit, both, amount, rfl, by rw [value_add added, worth]; rfl⟩
        simpa only [openingLine, price] using opened'

/-- What the deliveries give together: each its lines, and the premium in the first lot they open. -/
theorem deliverEach_ok {i : Nat} {deliveries : List LifecycleDelivery} {premium : Option Exact} {after : List MovementLine}
    (answered : deliverEach book ctx event (attributesOf book).lotReliefDefault i deliveries lines premium = .ok after) :
    ∃ delivered : List (List MovementLine), after = lines ++ delivered.flatten ∧
      List.Forall₂ (Delivers book ctx) deliveries delivered ∧
      ((delivered.flatten.filter opensDelivered).map carriedBy).sum =
        carriesOf (firstUncovered book ctx deliveries lines) * (premium.getD Exact.zero).value := by
  induction deliveries generalizing i lines premium with
  | nil =>
    cases answered
    exact ⟨[], by simp, .nil, by simp [firstUncovered, carriesOf]⟩
  | cons delivery rest ih =>
    rw [deliverEach] at answered
    obtain ⟨held, one, later⟩ := bind_ok.mp answered
    obtain ⟨closing, left, covers, closed, ⟨nothing, same, delivers⟩ | ⟨something, opening, same, delivers, opens, carried⟩⟩ :=
      deliver_ok one
    all_goals
      rw [same] at later
      obtain ⟨delivered, rfl, each, sums⟩ := ih later
    · refine ⟨closing :: delivered, by simp, .cons delivers each, ?_⟩
      have none' : closing.filter opensDelivered = [] := by
        rw [List.filter_eq_nil_iff]
        intro line among
        simp [opensDelivered, closed line among]
      rw [List.flatten_cons, List.filter_append, none', List.nil_append, sums, firstUncovered, covers]
      simp only [nothing, if_true]
    · refine ⟨(closing ++ [opening]) :: delivered, by simp, .cons delivers each, ?_⟩
      have only : (closing ++ [opening]).filter opensDelivered = [opening] := by
        rw [List.filter_append, List.filter_eq_nil_iff.mpr fun line among => by simp [opensDelivered, closed line among],
          List.nil_append, List.filter_cons, if_pos opens, List.filter_nil]
      rw [List.flatten_cons, List.filter_append, only, List.map_append, List.sum_append, sums, Option.getD_none, value_zero,
        mul_zero, Rat.add_zero, List.map_singleton, List.sum_singleton, carried, firstUncovered, covers]
      simp only [something, Bool.false_eq_true, if_false]

end Delivered

section Event

variable {book : Book} {ctx : Context} {event : LifecycleEvent} {lines : List MovementLine} {path : String}

/-- A currency's lines open its lots as an execution's, never as a delivery's. -/
theorem currencyLines_undelivered {instrument valueDate sleeve acquiredDate : String} {amount : Exact}
    {basis : Option Money} {method : LotReliefMethod} {named : List String} {earlier : List MovementLine}
    (answered : currencyLines book ctx instrument amount valueDate sleeve acquiredDate basis method named earlier =
      .ok lines) : ∀ line ∈ lines, opensDelivered line = false := by
  have relieving {leg : Leg} {side : HoldingSide} {takes : List (String × Exact)} :
      ∀ line ∈ leg.relieving side takes, opensDelivered line = false := by
    intro line listed
    obtain ⟨take, -, rfl⟩ := List.mem_map.mp listed
    rfl
  have ended {leg : Leg} {side : HoldingSide} {takes : List (String × Exact)} {last : MovementLine} {zero : Bool}
      (plain : opensDelivered last = false) :
      ∀ line ∈ (if zero = true then leg.relieving side takes else leg.relieving side takes ++ [last]),
        opensDelivered line = false := by
    intro line listed
    split at listed
    · exact relieving line listed
    · rcases List.mem_append.mp listed with earlier | later
      · exact relieving line earlier
      · rw [List.mem_singleton.mp later]
        exact plain
  unfold currencyLines at answered
  dsimp only at answered
  split at answered
  · cases answered
    simp
  · split at answered
    · split at answered
      · obtain ⟨lots, -, answered⟩ := bind_ok.mp answered
        obtain ⟨takes, -, answered⟩ := bind_ok.mp answered
        obtain ⟨rest, -, answered⟩ := bind_ok.mp answered
        cases answered
        exact ended rfl
      · cases answered
        intro line listed
        rw [List.mem_singleton.mp listed]
        rfl
    · split at answered
      · obtain ⟨lots, -, answered⟩ := bind_ok.mp answered
        obtain ⟨takes, -, answered⟩ := bind_ok.mp answered
        obtain ⟨rest, -, answered⟩ := bind_ok.mp answered
        cases answered
        exact ended rfl
      · obtain ⟨lots, -, answered⟩ := bind_ok.mp answered
        obtain ⟨takes, -, answered⟩ := bind_ok.mp answered
        obtain ⟨rest, -, answered⟩ := bind_ok.mp answered
        cases answered
        exact ended rfl

/-- Cash moves its amount, and no lot a delivery brought. -/
theorem cashMoved_undelivered {cash : Money} {amount : Exact} {method : LotReliefMethod} {earlier : List MovementLine}
    (answered : cashMoved book ctx cash amount event method earlier = .ok lines) :
    lines.filter opensDelivered = [] ∧ (lines.map lineUnits).sum = amount.units := by
  unfold cashMoved at answered
  split at answered
  · next nothing =>
    cases answered
    rw [(Exact.isZero_iff amount).mp nothing]
    simp
  · obtain ⟨instrument, -, answered⟩ := bind_ok.mp answered
    refine ⟨?_, (moves_currency answered).sum⟩
    rw [List.filter_eq_nil_iff]
    intro line among
    simp [currencyLines_undelivered answered line among]

theorem quantity_checked (passed : checked book ctx event path = .ok ()) :
    ∀ quantity ∈ readExact event.quantity, 0 < quantity.units := by
  unfold checked at passed
  obtain ⟨-, passed⟩ := guard_ok.mp passed
  obtain ⟨⟨⟩, -, passed⟩ := bind_ok.mp passed
  dsimp only at passed
  obtain ⟨⟨⟩, kinds, passed⟩ := bind_ok.mp passed
  obtain ⟨quantity, read, passed⟩ := bind_ok.mp passed
  obtain ⟨positive, -⟩ := guard_ok.mp passed
  intro other stated
  obtain rfl : quantity = other := Option.some.inj ((required_read read).symm.trans stated)
  rw [not_or, Exact.isZero_iff, Exact.isNegative_iff] at positive
  omega

/-- What an exercise or an assignment moves: its contracts closed, its deliveries and its cash. -/
theorem optionLines_ok (passed : checked book ctx event path = .ok ()) (option : optionKind event.kind = true)
    (answered : optionLines book ctx event = .ok lines) :
    (∃ delivered : List (List MovementLine), ∃ cash,
      lines = contractLines book ctx event ++ delivered.flatten ++ cash ∧
      ((contractLines book ctx event).map lineUnits).sum =
        (if sideClosed book ctx event = .long then -(readOr event.quantity).units else (readOr event.quantity).units) ∧
      List.Forall₂ (Delivers book ctx) event.deliveries delivered ∧
      (cash.map lineUnits).sum = ((event.cash.bind fun cash => amountOf (some cash)).map Exact.units).getD 0) ∧
    ((lines.filter opensDelivered).map carriedBy).sum =
      carriesOf (firstUncovered book ctx event.deliveries (contractLines book ctx event)) * premiumOf book ctx event := by
  unfold optionLines at answered
  obtain ⟨quantity, read, answered⟩ := bind_ok.mp answered
  dsimp only at answered
  rw [if_pos option] at answered
  obtain ⟨closed, closing, answered⟩ := bind_ok.mp answered
  have positive := quantity_checked passed quantity (required_read read)
  obtain ⟨closedLines, closedPremium, closedUnits⟩ := closeOption_ok read positive.le closing
  have stated : readOr event.quantity = quantity := readOr_of_required read
  obtain ⟨after, delivering, answered⟩ := bind_ok.mp answered
  rw [closedLines] at delivering closedUnits
  obtain ⟨delivered, rfl, each, sums⟩ := deliverEach_ok delivering
  have noContracts : (contractLines book ctx event).filter opensDelivered = [] := by
    rw [List.filter_eq_nil_iff]
    intro line among
    unfold contractLines at among
    split at among
    · obtain ⟨take, -, rfl⟩ := List.mem_map.mp among
      simp [opensDelivered, closingLine, settledLine]
    · cases among
  rw [closedPremium] at sums
  rw [stated]
  cases cash : event.cash with
  | none =>
    rw [cash] at answered
    cases answered
    refine ⟨⟨delivered, [], by simp, closedUnits, each, by simp⟩, ?_⟩
    rw [List.filter_append, noContracts, List.nil_append, sums]
  | some cash' =>
    rw [cash] at answered
    obtain ⟨amount, readCash, answered⟩ := bind_ok.mp answered
    obtain ⟨paid, paying, answered⟩ := bind_ok.mp answered
    cases answered
    obtain ⟨undelivered, cashUnits⟩ := cashMoved_undelivered paying
    refine ⟨⟨delivered, paid, rfl, closedUnits, each, ?_⟩, ?_⟩
    · rw [cashUnits, Option.bind_some, amount_read readCash]
      rfl
    · rw [List.filter_append, List.filter_append, noContracts, undelivered, List.nil_append, List.append_nil, sums]

/-- The premium of the contracts is carried once exactly where they cost nothing, or where the first
delivery the open positions do not cover is received at a price. -/
theorem carriesPremium_iff (passed : checked book ctx event path = .ok ()) (option : optionKind event.kind = true)
    (answered : optionLines book ctx event = .ok lines) :
    CarriesPremium book ctx event lines ↔
      premiumOf book ctx event = 0 ∨
        ∃ delivery ∈ firstUncovered book ctx event.deliveries (contractLines book ctx event),
          isReceived delivery = true ∧ delivery.price.isSome = true := by
  obtain ⟨quantities, premium⟩ := optionLines_ok passed option answered
  have carries : CarriesPremium book ctx event lines ↔
      carriesOf (firstUncovered book ctx event.deliveries (contractLines book ctx event)) * premiumOf book ctx event =
        premiumOf book ctx event :=
    ⟨fun carries => premium.symm.trans carries.premium, fun same => ⟨premium.trans same, quantities⟩⟩
  rw [carries]
  cases firstUncovered book ctx event.deliveries (contractLines book ctx event) with
  | none =>
    have none' : carriesOf none = 0 := rfl
    rw [none', zero_mul, @eq_comm ℚ 0]
    simp
  | some delivery =>
    have some' : carriesOf (some delivery) =
      if delivery.price.isSome then (if isReceived delivery then 1 else -1) else 0 := rfl
    rw [some']
    cases price : delivery.price.isSome with
    | false =>
      rw [if_neg (by simp), zero_mul, @eq_comm ℚ 0]
      simp [price]
    | true =>
      cases received : isReceived delivery with
      | true => simp [price, received]
      | false =>
        simp only [if_true, Bool.false_eq_true, if_false, neg_mul, one_mul, neg_eq_self]
        simp [received]

end Event

section Run

variable {accountId partition : String} {sents : List Sent} {holder : Holder}

/-- Every event that happened to an account was checked on it, and its movement booked. -/
theorem booked_of_run (run : Run (fun before sent after => hold before sent = after)
    { book := Book.new accountId partition } sents holder) : ∀ happened ∈ holder.happened, happened.Booked := by
  refine run.invariant (fun holder : Holder => ∀ happened ∈ holder.happened, happened.Booked) (by simp) ?_
  rintro before sent after booked rfl
  rcases hold_cases before sent with same | ⟨-, same⟩ | ⟨-, same | ⟨ctx, event, act, -, -, moving, same⟩⟩
  · rwa [same]
  · rwa [same]
  · rwa [same]
  · intro happened among
    rw [same] at among
    rcases List.mem_append.mp among with earlier | last
    · exact booked happened earlier
    · rw [List.mem_singleton.mp last]
      exact moving

/-- In every run, an exercise or an assignment whose deliveries open a priced lot carries its premium
once, and moves the quantities stated, exactly where the contracts cost nothing, or where the first
delivery the open positions do not cover is received at a price. -/
theorem premium_carried_once (run : Run (fun before sent after => hold before sent = after)
    { book := Book.new accountId partition } sents holder) :
    ∀ happened ∈ holder.happened, happened.event.kind = .exercise ∨ happened.event.kind = .assignment →
      (∃ line ∈ happened.lines, opensDelivered line = true ∧ priced line = true) →
        (CarriesPremium happened.book happened.ctx happened.event happened.lines ↔
          premiumOf happened.book happened.ctx happened.event = 0 ∨
            ∃ delivery ∈ firstUncovered happened.book happened.ctx happened.event.deliveries
                (contractLines happened.book happened.ctx happened.event),
              isReceived delivery = true ∧ delivery.price.isSome = true) := by
  rintro happened among kind -
  obtain ⟨⟨path, passed⟩, moves, moving, same⟩ := booked_of_run run happened among
  have option : optionKind happened.event.kind = true := by
    rcases kind with named | named <;> rw [named] <;> rfl
  have answered : optionLines happened.book happened.ctx happened.event = .ok happened.lines := by
    have other : debtKind happened.event.kind = false := by
      rcases kind with named | named <;> rw [named] <;> rfl
    unfold moved at moving
    rw [if_neg (by simp [other])] at moving
    obtain ⟨lines, answered, moving⟩ := bind_ok.mp moving
    cases moving
    rw [answered, same]
  exact carriesPremium_iff passed option answered

end Run

def optionDesk : Context where
  instanceId := "SERVICING-1"
  records := (∅ : BTreeMap String RecordSays).insert "OPTION-1"
    { instrumentType := .listedOption, multiplier := some ⟨100, 0, Exact.zero.scale_le, by decide⟩ }
  minted identifier count := identifier ++ "-" ++ toString count

/-- An account that enters with two options bought at four and ten cents a unit of the underlying. -/
def enteredWithOptions : Sent :=
  .other 0 {} {
    entryId := "ENT-1"
    kind := "opening-balance"
    effectiveDate := "2026-01-02"
    body := {
      opening := some { entryId := "ENT-1", asOfDate := "2026-01-02" }
      attributes := some { accountId := "ACC-1" }
      lines := [{
        instrumentId := "OPTION-1"
        side := .long
        bucket := .settled
        quantity := some ⟨2, 0⟩
        lotId := "LOT-1"
        opensLot := some {
          unitCost := some { amount := some ⟨410, 2⟩, currencyCode := "USD", instrumentId := "CASH-USD" } } }] } }

/-- Both exercised, so many shares delivered against them at two hundred and thirty. -/
def exercised (shares : Int) : Sent :=
  .report 10 optionDesk { event := some {
    accountId := "ACC-1"
    instrumentId := "OPTION-1"
    kind := .exercise
    quantity := some ⟨2, 0⟩
    eventDate := "2026-02-01"
    deliveries := [{
      instrumentId := "SHARE-1"
      quantity := some ⟨shares, 0⟩
      price := some { amount := some ⟨230, 0⟩, currencyCode := "USD", instrumentId := "CASH-USD" } }]
    externalEventId := "BROKER-1" } }

def exercisedFor (shares : Int) : Option Holder :=
  [enteredWithOptions, exercised shares].foldlM (holdChecked fun _ _ => true) { book := Book.new "ACC-1" "P-1" }

def opensPriced (happened : Happened) : Bool :=
  happened.lines.any fun line => opensDelivered line && priced line

/-- Calls exercised: the eight hundred and twenty they cost are in the cost of the shares received. -/
theorem calls_carry_their_premium :
    ∃ happened : Happened, CarriesPremium happened.book happened.ctx happened.event happened.lines ∧
      premiumOf happened.book happened.ctx happened.event = 820 ∧
      (happened.lines.filter opensDelivered).map carriedBy = [820] := by
  let carries (holder : Holder) : Bool := holder.happened.any fun happened =>
    decide (happened.event.kind = .exercise) && opensPriced happened &&
      (firstUncovered happened.book happened.ctx happened.event.deliveries
        (contractLines happened.book happened.ctx happened.event)).any (fun delivery =>
          isReceived delivery && delivery.price.isSome) &&
      decide (premiumOf happened.book happened.ctx happened.event = 820) &&
      decide ((happened.lines.filter opensDelivered).map carriedBy = [820])
  have computed : (exercisedFor 200).any carries = true := by decide +kernel
  obtain ⟨holder, run, held⟩ := Run.of_any computed
  obtain ⟨happened, among, held⟩ := List.any_eq_true.mp held
  simp only [Bool.and_eq_true, decide_eq_true_eq] at held
  obtain ⟨⟨⟨⟨kind, opened⟩, received⟩, premium⟩, carried⟩ := held
  refine ⟨happened, ?_, premium, carried⟩
  have run' := run.imp fun before sent after taken => (holdChecked_some taken).2
  refine (premium_carried_once run' happened among (.inl kind) ?_).mpr (.inr ?_)
  · obtain ⟨line, listed, opens⟩ := List.any_eq_true.mp opened
    exact ⟨line, listed, (Bool.and_eq_true _ _).mp opens⟩
  · obtain ⟨delivery, first, states⟩ := (Option.any_eq_true _ _).mp received
    exact ⟨delivery, first, (Bool.and_eq_true _ _).mp states⟩

/-- Puts exercised: what they cost is added to the proceeds of the shares delivered short. -/
theorem puts_add_their_premium :
    ¬ ∀ (accountId partition : String) (sents : List Sent) (holder : Holder),
      Run (fun before sent after => hold before sent = after) { book := Book.new accountId partition } sents holder →
        ∀ happened ∈ holder.happened, happened.event.kind = .exercise ∨ happened.event.kind = .assignment →
          (∃ line ∈ happened.lines, opensDelivered line = true ∧ priced line = true) →
            CarriesPremium happened.book happened.ctx happened.event happened.lines := by
  intro claim
  let adds (holder : Holder) : Bool := holder.happened.any fun happened =>
    decide (happened.event.kind = .exercise) && opensPriced happened &&
      decide (((happened.lines.filter opensDelivered).map carriedBy).sum ≠
        premiumOf happened.book happened.ctx happened.event)
  have computed : (exercisedFor (-200)).any adds = true := by decide +kernel
  obtain ⟨holder, run, held⟩ := Run.of_any computed
  obtain ⟨happened, among, held⟩ := List.any_eq_true.mp held
  simp only [Bool.and_eq_true, decide_eq_true_eq] at held
  obtain ⟨⟨kind, opened⟩, differs⟩ := held
  obtain ⟨line, listed, opens⟩ := List.any_eq_true.mp opened
  have run' := run.imp fun before sent after taken => (holdChecked_some taken).2
  exact differs (claim _ _ _ holder run' happened among (.inl kind)
    ⟨line, listed, (Bool.and_eq_true _ _).mp opens⟩).premium

end MeridianCore.Bor.Lifecycle
