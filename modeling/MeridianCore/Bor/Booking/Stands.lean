import MeridianCore.Bor.Book.BookedView
import MeridianCore.Bor.Booking
import MeridianCore.Ordered.Tracks

namespace MeridianCore.Bor

namespace BookedView

/-- What supersedes an execution. -/
def later (view : BookedView) : Pointers String := fun id => (view.execution id).bind ExecutionHeld.supersededBy

/-- The order held that an order is under. -/
def parent (view : BookedView) : Pointers String := fun id =>
  (view.order id).join.bind fun link =>
    if (view.order link.parentOrderId).isSome then some link.parentOrderId else none

/-- Executions each under its own ID, superseded by ones held, and none in the end by itself. -/
structure Superseding (view : BookedView) : Prop where
  unwound : view.later.Unwound
  held : ∀ a b, view.later a = some b → (view.execution b).isSome
  keyed : ∀ id held, view.execution id = some held → held.execution.executionId = id

theorem later_from {view : BookedView} {a b : String} (step : view.later a = some b) : (view.execution a).isSome := by
  unfold later at step
  cases held : view.execution a with
  | none =>
    rw [held] at step
    cases step
  | some _ => rfl

end BookedView

namespace Ledger
variable {ledger : Ledger} {id : String} {held : ExecutionHeld}

theorem view_execution_of (found : ledger.executions[id]? = some held) :
    ledger.view.execution id = some held.bare := by
  rw [view_execution, found]
  rfl

theorem execution_of_view (found : (ledger.view.execution id).isSome) : ∃ held, ledger.executions[id]? = some held := by
  rw [view_execution, Option.isSome_map] at found
  exact Option.isSome_iff_exists.mp found

theorem later_of (found : ledger.executions[id]? = some held) : ledger.view.later id = held.supersededBy := by
  rw [BookedView.later, view_execution_of found]
  rfl

/-- The order at the top of the chain of an order's parents is the one its parents' pointers come to. -/
theorem topWithin_eq (fuel : Nat) (seen : List String) (id : String) :
    ledger.topWithin fuel seen id = ledger.view.parent.follow fuel seen id := by
  induction fuel generalizing seen id with
  | zero => rfl
  | succ fuel ih =>
    have linked : ledger.view.parent id = ((ledger.orders[id]?).bind fun held => held.order.link).bind fun link =>
        if ledger.orders.contains link.parentOrderId then some link.parentOrderId else none := by
      have contained (parent : String) : (ledger.view.order parent).isSome = ledger.orders.contains parent := by
        rw [view_order, Option.isSome_map, Std.ExtTreeMap.contains_eq_isSome_getElem?]
      simp only [BookedView.parent, contained]
      rw [view_order]
      cases ledger.orders[id]? with
      | none => rfl
      | some held => rfl
    unfold topWithin Pointers.follow
    rw [linked]
    cases (ledger.orders[id]?).bind fun held => held.order.link with
    | none => rfl
    | some link =>
      dsimp only [Option.bind_some]
      by_cases inOrders : ledger.orders.contains link.parentOrderId = true
      · rw [if_pos inOrders, ih]
        by_cases visited : link.parentOrderId ∈ seen
        · rw [if_pos (Or.inl visited)]
          exact (if_pos visited).symm
        · rw [if_neg fun either => either.elim visited fun out => out inOrders]
          exact (if_neg visited).symm
      · rw [if_neg inOrders, if_pos (Or.inr inOrders)]

/-- The top of an order's chain is where its parents' pointers come to. -/
theorem comesTo_top (id : String) : ledger.view.parent.ComesTo id (ledger.top id) := by
  rw [top, topWithin_eq]
  have closed (a b : String) (step : ledger.view.parent a = some b) : b ∈ ledger.orders.keys.toFinset := by
    unfold BookedView.parent at step
    obtain ⟨link, -, step⟩ := Option.bind_eq_some_iff.mp step
    split at step
    · next held =>
      cases step
      rw [view_order, Option.isSome_map] at held
      rw [List.mem_toFinset, Std.ExtTreeMap.mem_keys]
      exact Std.ExtTreeMap.mem_iff_isSome_getElem?.mpr held
    · cases step
  have few : ledger.orders.keys.toFinset.card < ledger.depth := by
    have keys := ledger.orders.keys.toFinset_card_le
    rw [Std.ExtTreeMap.length_keys] at keys
    exact Nat.lt_succ_of_le keys
  exact Pointers.comesTo_follow closed few

theorem laterWithin_held (superseding : ledger.view.Superseding) (found : ledger.executions[id]? = some held)
    (fuel : Nat) (seen : List String) :
    ledger.executions[ledger.view.later.follow fuel seen id]? = some (ledger.laterWithin fuel seen held) := by
  induction fuel generalizing seen id held with
  | zero => exact found
  | succ fuel ih =>
    have step := later_of found
    unfold laterWithin Pointers.follow
    rw [step]
    cases superseded : held.supersededBy with
    | none => exact found
    | some next =>
      rw [superseded] at step
      obtain ⟨after, foundAfter⟩ := execution_of_view (superseding.held id next step)
      dsimp only
      split
      · exact found
      · rw [foundAfter]
        exact ih foundAfter (next :: seen)

/-- The execution one comes to as it stands: the last to supersede it, which counts unless it is a bust. -/
theorem exists_stands (superseding : ledger.view.Superseding) (found : ledger.executions[id]? = some held) :
    ∃ last current, ledger.view.later.EndsAt id last ∧ ledger.executions[last]? = some current ∧
      ledger.asItStands id = if current.isBust then none else some current.execution := by
  have from_ (a b : String) (step : ledger.view.later a = some b) : a ∈ ledger.executions := by
    obtain ⟨held, found⟩ := execution_of_view (BookedView.later_from step)
    exact Std.ExtTreeMap.mem_iff_isSome_getElem?.mpr (by rw [found]; rfl)
  have enough := BTreeMap.card_reached_le ledger.executions ledger.view.later.Step id
  have ends := Pointers.endsAt_follow superseding.unwound from_ (Nat.lt_succ_of_le enough)
    (fun b member => absurd member List.not_mem_nil)
  refine ⟨_, _, ends, laterWithin_held superseding found _ _, ?_⟩
  unfold asItStands
  rw [found]
  rfl

end Ledger

end MeridianCore.Bor
