import MeridianCore.Bor.Orders.Fold

namespace MeridianCore.Bor

/-- What of an execution its order's and its placement's fills are summed from. -/
structure Counting where
  superseded : Bool
  kind : ExecutionKind
  finality : Option Finality
  quantity : Option Decimal
  price : Option Money

def ExecutionHeld.counting (held : ExecutionHeld) : Counting where
  superseded := held.supersededBy.isSome
  kind := held.execution.kind
  finality := held.execution.finality
  quantity := held.execution.quantity
  price := held.execution.price

/-- What of an order its fills are summed from. -/
structure Filling where
  quantity : Option Decimal
  cashQuantity : Option Money
  executions : List String
  children : List String

def OrderHeld.filling (held : OrderHeld) : Filling where
  quantity := held.order.quantity
  cashQuantity := held.order.cashQuantity
  executions := held.executions
  children := held.children

/-- What of a placement its own fills and its liveness are derived from. -/
structure Placing where
  orderId : String
  quantity : Option Decimal
  state : PlacementState
  unknown : Bool
  executions : List String

def PlacementHeld.placing (held : PlacementHeld) : Placing where
  orderId := held.placement.orderId
  quantity := held.placement.quantity
  state := held.state
  unknown := held.conditions.contains PlacementCondition.outcomeUnknown.number
  executions := held.executions

namespace Ledger

/-- Two ledgers whose executions named count the same. -/
def CountAlike (a b : Ledger) (executions : List String) : Prop :=
  ∀ id ∈ executions, (b.executions[id]?).map ExecutionHeld.counting = (a.executions[id]?).map ExecutionHeld.counting

/-- Two ledgers whose orders within reach, with all of their children, are filled by the same. -/
structure FillsAlike (reach : String → Prop) (a b : Ledger) : Prop where
  orders : ∀ id, reach id → (b.orders[id]?).map OrderHeld.filling = (a.orders[id]?).map OrderHeld.filling
  children : ∀ id held, reach id → a.orders[id]? = some held → ∀ child ∈ held.children, reach child
  executions : ∀ id held, reach id → a.orders[id]? = some held → CountAlike a b held.executions
  also : ∀ id, reach id → b.alsoFilled id = a.alsoFilled id

/-- Two records that read the same: held by neither, or by both. -/
theorem alike_cases {α β : Type} {reads : α → β} {after before : Option α}
    (same : after.map reads = before.map reads) :
    (before = none ∧ after = none) ∨
      ∃ held later, before = some held ∧ after = some later ∧ reads later = reads held := by
  cases before with
  | none => exact Or.inl ⟨rfl, Option.map_eq_none_iff.mp same⟩
  | some held =>
    obtain ⟨later, found, reads⟩ := Option.map_eq_some_iff.mp same
    exact Or.inr ⟨held, later, rfl, found, reads⟩

theorem counted_congr {a b : Option OrderHeld} {before after : Execution}
    (orders : b.map (fun held => held.order.quantity) = a.map fun held => held.order.quantity)
    (quantity : after.quantity = before.quantity) (price : after.price = before.price) :
    counted b after = counted a before := by
  unfold counted
  rw [quantity, price]
  cases a <;> cases b <;> simp_all

theorem finalityOf_congr {before after : Execution} (same : after.finality = before.finality) :
    finalityOf after = finalityOf before := by
  unfold finalityOf
  rw [same]

theorem reported_congr {before after : Execution} (level : finalityOf after = finalityOf before) :
    Bor.reported after = Bor.reported before := by
  unfold Bor.reported
  rw [level]

theorem ordered_of_filling {a b : OrderHeld} (same : b.filling = a.filling) : ordered b = ordered a := by
  unfold ordered
  rw [show b.order.quantity = a.order.quantity from congrArg Filling.quantity same,
    show b.order.cashQuantity = a.order.cashQuantity from congrArg Filling.cashQuantity same]

theorem addFill_congr {a b : Ledger} {before after : OrderHeld} (fills : after.filling = before.filling)
    {id : String}
    (counts : (b.executions[id]?).map ExecutionHeld.counting = (a.executions[id]?).map ExecutionHeld.counting)
    (sums : Fills) : b.addFill after sums id = a.addFill before sums id := by
  unfold addFill
  rcases alike_cases counts with ⟨inA, inB⟩ | ⟨held, later, inA, inB, counts⟩
  · rw [inA, inB]
  · have superseded : later.supersededBy.isSome = held.supersededBy.isSome := congrArg Counting.superseded counts
    have kind : later.execution.kind = held.execution.kind := congrArg Counting.kind counts
    have amount : counted (some after) later.execution = counted (some before) held.execution :=
      counted_congr (congrArg some (congrArg Filling.quantity fills)) (congrArg Counting.quantity counts)
        (congrArg Counting.price counts)
    have level := finalityOf_congr (congrArg Counting.finality counts)
    simp only [inA, inB, superseded, kind, amount, reported_congr level, isFinal, level]

theorem filledWithin_congr {reach : String → Prop} {a b : Ledger} (alike : FillsAlike reach a b) (depth : Nat)
    {id : String} (within : reach id) : b.filledWithin depth id = a.filledWithin depth id := by
  induction depth generalizing id with
  | zero => rfl
  | succ depth ih =>
    have orders := alike.orders id within
    unfold filledWithin
    rcases alike_cases orders with ⟨inA, inB⟩ | ⟨held, later, inA, inB, orders⟩
    · rw [inA, inB]
    · have executions : later.executions = held.executions := congrArg Filling.executions orders
      have children : later.children = held.children := congrArg Filling.children orders
      have own : held.executions.foldlM (b.addFill later) {} = held.executions.foldlM (a.addFill held) {} :=
        foldlM_congr _ (fun sums execution member =>
          addFill_congr orders (alike.executions id held within inA execution member) sums) _
      have below : ∀ sums : Fills,
          held.children.foldlM (fun sums child => do addChild sums (← b.filledWithin depth child)) sums =
            held.children.foldlM (fun sums child => do addChild sums (← a.filledWithin depth child)) sums := by
        intro sums
        refine foldlM_congr _ (fun sums child member => ?_) sums
        rw [ih (alike.children id held within inA child member)]
      simp only [inA, inB, executions, children, own, below, alike.also id within]

theorem filled_congr {reach : String → Prop} {a b : Ledger} (alike : FillsAlike reach a b)
    (depth : b.depth = a.depth) {id : String} (within : reach id) : b.filled id = a.filled id := by
  rw [filled, filled, depth, filledWithin_congr alike _ within]

/-- Two ledgers whose placement named is filled and stands the same. -/
structure PlacedAlike (a b : Ledger) (id : String) : Prop where
  placement : (b.placements[id]?).map PlacementHeld.placing = (a.placements[id]?).map PlacementHeld.placing
  executions : ∀ held, a.placements[id]? = some held → CountAlike a b held.executions
  order : ∀ held, a.placements[id]? = some held →
    (b.orders[held.placement.orderId]?).map (fun order => order.order.quantity) =
      (a.orders[held.placement.orderId]?).map fun order => order.order.quantity

section
variable {a b : Ledger} {id : String}

theorem placementFilled_congr (alike : PlacedAlike a b id) : b.placementFilled id = a.placementFilled id := by
  have placement := alike.placement
  unfold placementFilled
  rcases alike_cases placement with ⟨inA, inB⟩ | ⟨held, later, inA, inB, placing⟩
  · rw [inA, inB]
  · have executions : later.executions = held.executions := congrArg Placing.executions placing
    have orderId : later.placement.orderId = held.placement.orderId := congrArg Placing.orderId placing
    simp only [inA, inB, executions, orderId]
    refine foldlM_congr _ (fun total execution member => ?_) _
    rcases alike_cases (alike.executions held inA execution member) with ⟨ofA, ofB⟩ | ⟨fill, after, ofA, ofB, counts⟩
    · rw [ofA, ofB]
    · have superseded : after.supersededBy.isNone = fill.supersededBy.isNone := by
        have some : after.supersededBy.isSome = fill.supersededBy.isSome := congrArg Counting.superseded counts
        rw [← Option.not_isSome, ← Option.not_isSome, some]
      have amount : counted b.orders[held.placement.orderId]? after.execution =
          counted a.orders[held.placement.orderId]? fill.execution :=
        counted_congr (alike.order held inA) (congrArg Counting.quantity counts) (congrArg Counting.price counts)
      have moves := reported_congr (finalityOf_congr (congrArg Counting.finality counts))
      simp only [ofA, ofB, superseded, amount, moves]

theorem placementState_congr (alike : PlacedAlike a b id) : b.placementState id = a.placementState id := by
  have placement := alike.placement
  unfold placementState
  rw [placementFilled_congr alike]
  rcases alike_cases placement with ⟨inA, inB⟩ | ⟨held, later, inA, inB, placing⟩
  · rw [inA, inB]
  · have state : later.state = held.state := congrArg Placing.state placing
    have quantity : later.placement.quantity = held.placement.quantity := congrArg Placing.quantity placing
    simp only [inA, inB, state, quantity]

theorem placementLive_congr (alike : PlacedAlike a b id) : b.placementLive id = a.placementLive id := by
  have placement := alike.placement
  unfold placementLive
  rw [placementState_congr alike]
  rcases alike_cases placement with ⟨inA, inB⟩ | ⟨held, later, inA, inB, placing⟩
  · rw [inA, inB]
  · have unknown : later.conditions.contains PlacementCondition.outcomeUnknown.number =
        held.conditions.contains PlacementCondition.outcomeUnknown.number := congrArg Placing.unknown placing
    simp only [inA, inB, unknown]

theorem placementOpen_congr (alike : PlacedAlike a b id) : b.placementOpen id = a.placementOpen id := by
  have placement := alike.placement
  unfold placementOpen
  rw [placementLive_congr alike, placementFilled_congr alike]
  rcases alike_cases placement with ⟨inA, inB⟩ | ⟨held, later, inA, inB, placing⟩
  · rw [inA, inB]
  · have quantity : later.placement.quantity = held.placement.quantity := congrArg Placing.quantity placing
    simp only [inA, inB, quantity]

end

end Ledger

end MeridianCore.Bor
