import MeridianCore.Ordered.Tracks
import MeridianCore.Bor.Orders.Fold

namespace MeridianCore.Bor

/-- A computation that answers or refuses: no recursion of it runs on. -/
def Returns {α : Type} (result : Result α) : Prop := result ≠ .error .overflowed

namespace Returns
variable {α β ε : Type}

theorem ok (value : α) : Returns (.ok value) := by
  rintro ⟨⟩

theorem bind {first : Result α} {next : α → Result β} (firsts : Returns first)
    (rest : ∀ value, first = .ok value → Returns (next value)) : Returns (first >>= next) := by
  cases read : first with
  | error out =>
    intro overflowed
    cases overflowed
    exact firsts read
  | ok value => exact rest value read

theorem mapError {result : Except ε α} {refuse : ε → StoreError} (refuses : ∀ out, refuse out ≠ .overflowed) :
    Returns (result.mapError refuse) := by
  cases result with
  | error out =>
    intro overflowed
    exact refuses out (Except.error.inj overflowed)
  | ok value => exact ok value

theorem foldlM {step : β → α → Result β} (entries : List α)
    (steps : ∀ total, ∀ entry ∈ entries, Returns (step total entry)) (total : β) : Returns (entries.foldlM step total) := by
  induction entries generalizing total with
  | nil => exact ok total
  | cons entry rest ih =>
    rw [List.foldlM_cons]
    exact bind (steps total entry List.mem_cons_self) fun next _ =>
      ih (fun total entry member => steps total entry (List.mem_cons_of_mem _ member)) next

theorem mapM {read : α → Result β} (entries : List α) (reads : ∀ entry ∈ entries, Returns (read entry)) :
    Returns (entries.mapM read) := by
  induction entries with
  | nil => exact ok []
  | cons entry rest ih =>
    rw [List.mapM_cons]
    refine bind (reads entry List.mem_cons_self) fun _ _ => ?_
    exact bind (ih fun entry member => reads entry (List.mem_cons_of_mem _ member)) fun _ _ => ok _

theorem add (field : String) (a b : Exact) : Returns (numbers.add field a b) := mapError fun _ => by rintro ⟨⟩

theorem sub (field : String) (a b : Exact) : Returns (Bor.sub field a b) := add field a b.negated

theorem required (field : String) (wire : Option Decimal) : Returns (numbers.required field wire) := by
  cases wire with
  | none => rintro ⟨⟩
  | some wire => exact mapError fun _ => by rintro ⟨⟩

theorem multiply (field : String) (a b : Exact) : Returns (Bor.multiply field a b) := by
  unfold Bor.multiply
  split
  · rintro ⟨⟩
  · exact mapError fun _ => by rintro ⟨⟩

/-- Either of two answers, and what follows from it. -/
theorem either {c : Prop} [Decidable c] {first other : Result α} {next : α → Result β} (firsts : Returns first)
    (others : Returns other) (rest : ∀ value, Returns (next value)) :
    Returns (if c then first >>= next else other >>= next) := by
  split
  · exact bind firsts fun value _ => rest value
  · exact bind others fun value _ => rest value

theorem liveOf {live : String → Result Bool} (ids : List String) (reads : ∀ id ∈ ids, Returns (live id)) :
    Returns (Ledger.liveOf live ids) := by
  induction ids with
  | nil => exact ok []
  | cons id rest ih =>
    refine bind (reads id List.mem_cons_self) fun _ _ => ?_
    exact bind (ih fun id member => reads id (List.mem_cons_of_mem _ member)) fun _ _ => ok _

end Returns

namespace Ledger

/-- From a parent to each of the orders under it. -/
def Parents (ledger : Ledger) (parent child : String) : Prop :=
  ∃ held, ledger.orders[parent]? = some held ∧ child ∈ held.children

/-- No order is among its own descendants. -/
def Acyclic (ledger : Ledger) : Prop := ∀ orderId, ¬ Relation.TransGen ledger.Parents orderId orderId

theorem returns_counted (order : Option OrderHeld) (execution : Execution) : Returns (counted order execution) := by
  unfold counted
  refine Returns.bind (Returns.required _ _) fun quantity _ => ?_
  dsimp only
  split <;> split <;> first | exact Returns.multiply _ _ _ | exact Returns.ok _

theorem returns_addFill (ledger : Ledger) (held : OrderHeld) (sums : Fills) (id : String) :
    Returns (ledger.addFill held sums id) := by
  unfold addFill
  split
  · exact Returns.ok _
  · split
    · exact Returns.ok _
    · refine Returns.bind (returns_counted _ _) fun amount _ => ?_
      refine Returns.either (Returns.add _ _ _) (Returns.ok _) fun reportedSum => ?_
      refine Returns.either (Returns.add _ _ _) (Returns.ok _) fun finalSum => ?_
      exact Returns.either (Returns.add _ _ _) (Returns.ok _) fun awaiting => Returns.ok _

theorem returns_alsoFilled (ledger : Ledger) (orderId : String) : Returns (ledger.alsoFilled orderId) := by
  unfold alsoFilled
  refine Returns.bind (Returns.foldlM _ (fun total received _ => ?_) _) fun allocated _ =>
    Returns.foldlM _ (fun total cross _ => ?_) _
  · unfold addReceived
    split
    · exact Returns.bind (Returns.required _ _) fun _ _ => Returns.add _ _ _
    · exact Returns.ok _
  · unfold addCross
    split
    · exact Returns.bind (Returns.required _ _) fun _ _ => Returns.add _ _ _
    · exact Returns.ok _

theorem returns_addChild (sums child : Fills) : Returns (addChild sums child) := by
  unfold addChild
  refine Returns.bind (Returns.add _ _ _) fun _ _ => ?_
  refine Returns.bind (Returns.add _ _ _) fun _ _ => ?_
  exact Returns.bind (Returns.add _ _ _) fun _ _ => Returns.ok _

section
variable {ledger : Ledger} (acyclic : ledger.Acyclic)
include acyclic

/-- The sum down a chain of children ends before it is as deep as the orders are many. -/
theorem returns_filledWithin {depth : Nat} {orderId : String}
    (deep : (ledger.orders.reached ledger.Parents orderId).card < depth) :
    Returns (ledger.filledWithin depth orderId) := by
  induction depth generalizing orderId with
  | zero => exact (Nat.not_lt_zero _ deep).elim
  | succ depth ih =>
    unfold filledWithin
    split
    · exact Returns.ok _
    · next held found =>
      refine Returns.bind (Returns.foldlM _ (fun sums id _ => returns_addFill ledger held sums id) _) fun own _ => ?_
      refine Returns.bind (Returns.foldlM _ (fun sums child member => ?_) _) fun all _ => ?_
      · have fewer := BTreeMap.card_reached_lt (acyclic orderId) ⟨held, found, member⟩
          (Std.ExtTreeMap.mem_iff_isSome_getElem?.mpr (by rw [found]; rfl))
        exact Returns.bind (ih (by omega)) fun _ _ => returns_addChild _ _
      · refine Returns.bind (returns_alsoFilled ledger orderId) fun also _ => ?_
        refine Returns.bind (Returns.add _ _ _) fun _ _ => ?_
        exact Returns.bind (Returns.add _ _ _) fun _ _ => Returns.ok _

theorem returns_filled (orderId : String) : Returns (ledger.filled orderId) := by
  have fewer := BTreeMap.card_reached_le ledger.orders ledger.Parents orderId
  exact returns_filledWithin acyclic (Nat.lt_succ_of_le fewer)

omit acyclic in
theorem returns_placementFilled (ledger : Ledger) (placementId : String) : Returns (ledger.placementFilled placementId) := by
  unfold placementFilled
  split
  · exact Returns.ok _
  · refine Returns.foldlM _ (fun total id _ => ?_) _
    split
    · split
      · exact Returns.bind (returns_counted _ _) fun _ _ => Returns.add _ _ _
      · exact Returns.ok _
    · exact Returns.ok _

omit acyclic in
theorem returns_placementLive (ledger : Ledger) (placementId : String) : Returns (ledger.placementLive placementId) := by
  unfold placementLive
  split
  · exact Returns.ok _
  · refine Returns.bind ?_ fun _ _ => Returns.ok _
    unfold placementState
    split
    · exact Returns.ok _
    · split
      · refine Returns.bind (returns_placementFilled ledger placementId) fun filled _ => ?_
        split <;> exact Returns.ok _
      · exact Returns.ok _

omit acyclic in
theorem returns_placementOpen (ledger : Ledger) (placementId : String) : Returns (ledger.placementOpen placementId) := by
  unfold placementOpen
  refine Returns.bind (returns_placementLive ledger placementId) fun live _ => ?_
  split
  · refine Returns.bind (returns_placementFilled ledger placementId) fun _ _ => ?_
    exact Returns.bind (Returns.sub _ _ _) fun _ _ => Returns.ok _
  · exact Returns.ok _

theorem returns_committedBy {held : OrderHeld} {stateOf : String → Result OrderState}
    (states : ∀ child ∈ held.children, Returns (stateOf child)) : Returns (ledger.committedBy stateOf held) := by
  unfold committedBy
  refine Returns.bind (Returns.foldlM _ (fun total id _ => ?_) _) fun placed _ =>
    Returns.foldlM _ (fun total child member => ?_) _
  · exact Returns.bind (returns_placementOpen ledger id) fun _ _ => Returns.add _ _ _
  · unfold addCommitted
    refine Returns.bind (states child member) fun state _ => ?_
    split
    · split
      · refine Returns.bind (returns_filled acyclic child) fun _ _ => ?_
        exact Returns.bind (Returns.sub _ _ _) fun _ _ => Returns.add _ _ _
      · exact Returns.ok _
    · exact Returns.ok _

theorem returns_stateWithin {depth : Nat} {orderId : String}
    (deep : (ledger.orders.reached ledger.Parents orderId).card < depth) :
    Returns (ledger.stateWithin depth orderId) := by
  induction depth generalizing orderId with
  | zero => exact (Nat.not_lt_zero _ deep).elim
  | succ depth ih =>
    unfold stateWithin
    split
    · exact Returns.ok _
    · next held found =>
      split
      · exact Returns.ok _
      · refine Returns.bind (returns_filled acyclic orderId) fun fills _ => ?_
        split
        · exact Returns.ok _
        · split
          · split
            · exact Returns.ok _
            · refine Returns.bind (returns_committedBy acyclic fun child member => ih ?_) fun _ _ => ?_
              · have fewer := BTreeMap.card_reached_lt (acyclic orderId) ⟨held, found, member⟩
                  (Std.ExtTreeMap.mem_iff_isSome_getElem?.mpr (by rw [found]; rfl))
                omega
              · exact Returns.ok _
          · exact Returns.ok _

theorem returns_orderLive (orderId : String) : Returns (ledger.orderLive orderId) := by
  have fewer := BTreeMap.card_reached_le ledger.orders ledger.Parents orderId
  exact Returns.bind (returns_stateWithin acyclic (Nat.lt_succ_of_le fewer)) fun _ _ => Returns.ok _

/-- Where no order is among its own descendants, what an order waits on is always answered or refused. -/
theorem returns_liveParts (orderId : String) : Returns (ledger.liveParts orderId) := by
  unfold liveParts
  split
  · exact Returns.ok _
  · refine Returns.bind (Returns.liveOf _ fun id _ => returns_placementLive ledger id) fun _ _ => ?_
    exact Returns.bind (Returns.liveOf _ fun id _ => returns_orderLive acyclic id) fun _ _ => Returns.ok _

end

end Ledger

end MeridianCore.Bor
