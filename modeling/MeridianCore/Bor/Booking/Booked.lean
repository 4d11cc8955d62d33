import MeridianCore.Bor.Booking.Stands

namespace MeridianCore.Bor

namespace BookedView
variable {view later : BookedView} {bookingId id : String}

/-- A booking held and not cancelled. -/
def Live (view : BookedView) (bookingId : String) (held : BookingHeld) : Prop :=
  view.booking bookingId = some held ∧ held.state ≠ .cancelled

/-- A live booking lists an execution. -/
def Lists (view : BookedView) (bookingId id : String) : Prop :=
  ∃ held, view.Live bookingId held ∧ id ∈ held.booking.executionIds

/-- A live booking of an order counts an execution, or counted it before it was superseded. -/
def Counted (view : BookedView) (orderId id : String) : Prop :=
  ∃ bookingId held listed, view.Live bookingId held ∧ held.booking.orderId = orderId ∧
    listed ∈ held.booking.executionIds ∧ view.later.Leads listed id

/-- An execution on an order held whose chain of parents ends at another. -/
def Under (view : BookedView) (orderId : String) (execution : Execution) : Prop :=
  (view.order execution.orderId).isSome ∧ view.parent.ComesTo execution.orderId orderId

/-- What live bookings list is held, and what it leads to is matched. -/
structure Tracked (view : BookedView) : Prop where
  superseding : view.Superseding
  unsigned : ∀ id held, view.execution id = some held → 0 ≤ (readOr held.execution.quantity).units
  listed : ∀ bookingId id, view.Lists bookingId id → (view.execution id).isSome
  matched : ∀ orderId id held, view.Counted orderId id → view.execution id = some held → held.execution.state = .matched

/-- No two live bookings count one execution, and each counts only executions of its order's. -/
structure Booked (view : BookedView) : Prop extends view.Tracked where
  nodup : ∀ bookingId held, view.Live bookingId held → held.booking.executionIds.Nodup
  apart : view.later.Apart view.Lists
  under : ∀ orderId id held, view.Counted orderId id → view.execution id = some held → view.Under orderId held.execution

/-- An execution counted is held. -/
theorem held_of_counted {orderId : String} (tracked : view.Tracked) (counted : view.Counted orderId id) :
    (view.execution id).isSome := by
  obtain ⟨bookingId, held, listed, live, -, member, leads⟩ := counted
  rcases Relation.ReflTransGen.cases_tail leads with rfl | ⟨before, -, step⟩
  · exact tracked.listed bookingId id ⟨held, live, member⟩
  · exact tracked.superseding.held before id step

/-- What a change that supersedes no execution keeps of one. -/
structure ExecutionKept (held after : ExecutionHeld) : Prop where
  superseded : after.supersededBy = held.supersededBy
  id : after.execution.executionId = held.execution.executionId
  quantity : after.execution.quantity = held.execution.quantity
  matched : held.execution.state = .matched →
    after.execution.state = .matched ∧ after.execution.orderId = held.execution.orderId

theorem ExecutionKept.refl (held : ExecutionHeld) : ExecutionKept held held := ⟨rfl, rfl, rfl, fun matched => ⟨matched, rfl⟩⟩

/-- The executions held are those held before, each with what it keeps. -/
def ExecutionsKept (view later : BookedView) : Prop :=
  ∀ id, (view.execution id = none ∧ later.execution id = none) ∨
    ∃ held after, view.execution id = some held ∧ later.execution id = some after ∧ ExecutionKept held after

theorem later_kept (kept : ExecutionsKept view later) : later.later = view.later := by
  funext id
  unfold BookedView.later
  rcases kept id with ⟨before, after⟩ | ⟨held, next, before, after, same⟩
  · rw [before, after]
  · rw [before, after]
    exact same.superseded

theorem superseding_kept (kept : ExecutionsKept view later) (superseding : view.Superseding) : later.Superseding where
  unwound := by
    rw [later_kept kept]
    exact superseding.unwound
  held a b step := by
    rw [later_kept kept] at step
    have before := superseding.held a b step
    rcases kept b with ⟨none, -⟩ | ⟨held, next, -, after, -⟩
    · rw [none] at before
      cases before
    · rw [after]
      rfl
  keyed id held found := by
    rcases kept id with ⟨-, none⟩ | ⟨earlier, next, before, after, same⟩
    · rw [none] at found
      cases found
    · rw [after] at found
      cases found
      rw [same.id]
      exact superseding.keyed id earlier before

/-- The bookings live are bookings live before, of the same order and executions. -/
def BookingsKept (view later : BookedView) : Prop :=
  ∀ bookingId after, later.Live bookingId after → ∃ held, view.Live bookingId held ∧
    after.booking.orderId = held.booking.orderId ∧ after.booking.executionIds = held.booking.executionIds

theorem lists_kept (kept : BookingsKept view later) (lists : later.Lists bookingId id) : view.Lists bookingId id := by
  obtain ⟨after, live, member⟩ := lists
  obtain ⟨held, before, -, same⟩ := kept bookingId after live
  exact ⟨held, before, same ▸ member⟩

/-- The orders above those that live bookings count executions of are those they were. -/
structure OrdersKept (view later : BookedView) : Prop where
  held : ∀ id, (view.order id).isSome → (later.order id).isSome
  parents : ∀ orderId id held order, view.Counted orderId id → view.execution id = some held →
    view.parent.Leads held.execution.orderId order → later.parent order = view.parent order

theorem counted_kept {orderId : String} (executions : ExecutionsKept view later) (bookings : BookingsKept view later)
    (counted : later.Counted orderId id) : view.Counted orderId id := by
  obtain ⟨bookingId, after, listed, live, ofOrder, member, leads⟩ := counted
  obtain ⟨before, liveBefore, sameOrder, sameIds⟩ := bookings bookingId after live
  rw [later_kept executions] at leads
  exact ⟨bookingId, before, listed, liveBefore, sameOrder ▸ ofOrder, sameIds ▸ member, leads⟩

/-- Where the executions and the bookings are kept, what is listed stays tracked. -/
theorem tracked_kept (tracked : view.Tracked) (executions : ExecutionsKept view later) (bookings : BookingsKept view later) :
    later.Tracked where
  superseding := superseding_kept executions tracked.superseding
  unsigned id held found := by
    rcases executions id with ⟨-, none⟩ | ⟨earlier, next, before, after, same⟩
    · rw [none] at found
      cases found
    · rw [after] at found
      cases found
      rw [same.quantity]
      exact tracked.unsigned id earlier before
  listed bookingId id lists := by
    have before := tracked.listed bookingId id (lists_kept bookings lists)
    rcases executions id with ⟨none, -⟩ | ⟨-, next, -, after, -⟩
    · rw [none] at before
      cases before
    · rw [after]
      rfl
  matched orderId id held counted found := by
    rcases executions id with ⟨-, none⟩ | ⟨earlier, next, inView, inLater, same⟩
    · rw [none] at found
      cases found
    · rw [inLater] at found
      cases found
      exact (same.matched (tracked.matched orderId id earlier (counted_kept executions bookings counted) inView)).1

/-- Where the executions, the bookings and the orders above them are kept, no execution comes to be
counted twice. -/
theorem booked_kept (booked : view.Booked) (executions : ExecutionsKept view later) (bookings : BookingsKept view later)
    (orders : OrdersKept view later) : later.Booked where
  toTracked := tracked_kept booked.toTracked executions bookings
  nodup bookingId held live := by
    obtain ⟨earlier, before, -, same⟩ := bookings bookingId held live
    rw [same]
    exact booked.nodup bookingId earlier before
  apart := by
    rw [later_kept executions]
    exact booked.apart.mono fun bookingId id => lists_kept bookings
  under orderId id held counted found := by
    have counted := counted_kept executions bookings counted
    rcases executions id with ⟨-, none⟩ | ⟨earlier, next, inView, inLater, same⟩
    · rw [none] at found
      cases found
    · rw [inLater] at found
      cases found
      obtain ⟨onOrder, comes⟩ := booked.under orderId id earlier counted inView
      obtain ⟨-, sameOn⟩ := same.matched (booked.matched orderId id earlier counted inView)
      refine ⟨?_, ?_⟩
      · rw [sameOn]
        exact orders.held _ onOrder
      · rw [sameOn]
        exact Pointers.comesTo_congr (fun order above => orders.parents orderId id earlier order counted inView above) comes

/-- An act that opens no booking and records no execution, revives no booking cancelled, and matches or refuses
executions unmatched alone. -/
def Steady (view : BookedView) : Act → Prop
  | .executed .. | .bookingOpened .. => False
  | .bookingHandedOff bookingId | .bookingClosed bookingId =>
    ∀ held, view.booking bookingId = some held → held.state ≠ .cancelled
  | .accepted ids _ _ _ _ | .dontKnow ids _ _ =>
    ∀ id ∈ ids, ∀ held, view.execution id = some held → held.execution.state ≠ .matched
  | _ => True

/-- An act that opens orders under new IDs alone, and links no order above an execution counted. -/
def LinksNone (view : BookedView) : Act → Prop
  | .opened order _ =>
    view.order order.orderId = none ∧
      ∀ id link, view.order id = some (some link) → link.parentOrderId ≠ order.orderId
  | .terms order => ∀ link, view.order order.orderId = some link → order.link = link
  | .netLinked orderId _ _ => ∀ top id held, view.Counted top id → view.execution id = some held →
      ¬ view.parent.Leads held.execution.orderId orderId
  | _ => True

def Calm (view : BookedView) (act : Act) : Prop := view.Steady act ∧ view.LinksNone act

theorem executionsKept_steady {act : Act} (steady : view.Steady act) : ExecutionsKept view (view.after act) := by
  intro id
  change (view.execution id = none ∧ Ledger.executionAfter id (view.execution id) act = none) ∨ _
  cases found : view.execution id with
  | none =>
    refine Or.inl ⟨rfl, ?_⟩
    cases act with
    | executed => exact steady.elim
    | _ => simp only [Ledger.executionAfter, Option.map_none, ite_self]
  | some held =>
    suffices kept : ∃ after, Ledger.executionAfter id (some held) act = some after ∧ ExecutionKept held after by
      obtain ⟨after, inAfter, kept⟩ := kept
      exact Or.inr ⟨held, after, rfl, (congrArg (Ledger.executionAfter id · act) found).trans inAfter, kept⟩
    have refused {ids : List String} (unmatched : ∀ id ∈ ids, ∀ held, view.execution id = some held →
        held.execution.state ≠ .matched) (named : id ∈ ids) (matched : held.execution.state = .matched) : False :=
      unmatched id named held found matched
    cases act with
    | executed => exact steady.elim
    | factorRevised executionId taken row lots =>
      simp only [Ledger.executionAfter]
      split
      · exact ⟨_, rfl, rfl, rfl, rfl, fun matched => ⟨matched, rfl⟩⟩
      · exact ⟨_, rfl, .refl held⟩
    | capacityBackfilled executionId capacity =>
      simp only [Ledger.executionAfter]
      split
      · exact ⟨_, rfl, rfl, rfl, rfl, fun matched => ⟨matched, rfl⟩⟩
      · exact ⟨_, rfl, .refl held⟩
    | accepted ids orderId placementId counts note =>
      simp only [Ledger.executionAfter]
      split
      · next named => exact ⟨_, rfl, rfl, rfl, rfl, fun matched => (refused steady named matched).elim⟩
      · exact ⟨_, rfl, .refl held⟩
    | dontKnow ids reason text =>
      simp only [Ledger.executionAfter]
      split
      · next named => exact ⟨_, rfl, rfl, rfl, rfl, fun matched => (refused steady named matched).elim⟩
      · exact ⟨_, rfl, .refl held⟩
    | _ => exact ⟨_, rfl, .refl held⟩

theorem bookingsKept_steady {act : Act} (steady : view.Steady act) : BookingsKept view (view.after act) := by
  intro bookingId after live
  obtain ⟨inAfter, notCancelled⟩ := live
  change Ledger.bookingAfter bookingId (view.booking bookingId) act = some after at inAfter
  have kept (same : view.booking bookingId = some after) : ∃ held, view.Live bookingId held ∧
      after.booking.orderId = held.booking.orderId ∧ after.booking.executionIds = held.booking.executionIds :=
    ⟨after, ⟨same, notCancelled⟩, rfl, rfl⟩
  cases act with
  | bookingOpened => exact steady.elim
  | bookingHeld id reason =>
    simp only [Ledger.bookingAfter] at inAfter
    split at inAfter
    · obtain ⟨held, found, rfl⟩ := Option.map_eq_some_iff.mp inAfter
      refine ⟨held, ⟨found, fun cancelled => notCancelled ?_⟩, rfl, rfl⟩
      simp only [cancelled]
      rfl
    · exact kept inAfter
  | bookingHandedOff id =>
    simp only [Ledger.bookingAfter] at inAfter
    split at inAfter
    · next same =>
      obtain ⟨held, found, rfl⟩ := Option.map_eq_some_iff.mp inAfter
      subst same
      exact ⟨held, ⟨found, steady held found⟩, rfl, rfl⟩
    · exact kept inAfter
  | bookingClosed id =>
    simp only [Ledger.bookingAfter] at inAfter
    split at inAfter
    · next same =>
      obtain ⟨held, found, rfl⟩ := Option.map_eq_some_iff.mp inAfter
      subst same
      exact ⟨held, ⟨found, steady held found⟩, rfl, rfl⟩
    · exact kept inAfter
  | bookingCancelled id reason =>
    simp only [Ledger.bookingAfter] at inAfter
    split at inAfter
    · obtain ⟨held, found, rfl⟩ := Option.map_eq_some_iff.mp inAfter
      exact (notCancelled rfl).elim
    · exact kept inAfter
  | bookingReplaced id allocations date reason lines =>
    simp only [Ledger.bookingAfter] at inAfter
    split at inAfter
    · obtain ⟨held, found, rfl⟩ := Option.map_eq_some_iff.mp inAfter
      exact ⟨held, ⟨found, notCancelled⟩, rfl, rfl⟩
    · exact kept inAfter
  | alertRaised alert =>
    simp only [Ledger.bookingAfter] at inAfter
    split at inAfter
    · split at inAfter
      · obtain ⟨held, found, rfl⟩ := Option.map_eq_some_iff.mp inAfter
        exact ⟨held, ⟨found, notCancelled⟩, rfl, rfl⟩
      · exact kept inAfter
    · exact kept inAfter
  | alertCleared alertId =>
    simp only [Ledger.bookingAfter] at inAfter
    obtain ⟨held, found, rfl⟩ := Option.map_eq_some_iff.mp inAfter
    refine ⟨held, ⟨found, fun cancelled => notCancelled ?_⟩, ?_, ?_⟩
    · split <;> exact cancelled
    · split <;> rfl
    · split <;> rfl
  | _ => exact kept inAfter

/-- An order above one held is held. -/
theorem order_of_leads {below above : String} (leads : view.parent.Leads below above) (held : (view.order below).isSome) :
    (view.order above).isSome := by
  rcases Relation.ReflTransGen.cases_tail leads with rfl | ⟨middle, -, step⟩
  · exact held
  · unfold Pointers.Step parent at step
    obtain ⟨link, -, step⟩ := Option.bind_eq_some_iff.mp step
    split at step
    · next inView =>
      cases step
      exact inView
    · cases step

theorem ordersKept_links {act : Act} (booked : view.Booked) (links : view.LinksNone act) : OrdersKept view (view.after act) := by
  have same (after : (view.after act).order = view.order) : OrdersKept view (view.after act) := by
    refine ⟨fun id held => by rw [after]; exact held, fun _ _ _ order _ _ _ => ?_⟩
    unfold parent
    rw [after]
  cases act with
  | opened order released =>
    obtain ⟨fresh, unnamed⟩ := links
    have kept (id : String) (other : id ≠ order.orderId) :
        (view.after (.opened order released)).order id = view.order id := if_neg (Ne.symm other)
    refine ⟨fun id held => ?_, fun top id held above counted found leads => ?_⟩
    · rw [kept id (by rintro rfl; rw [fresh] at held; cases held)]
      exact held
    · have onOrder := order_of_leads leads (booked.under top id held counted found).1
      unfold parent
      rw [kept above (by rintro rfl; rw [fresh] at onOrder; cases onOrder)]
      cases linked : view.order above with
      | none => rfl
      | some link =>
        cases link with
        | none => rfl
        | some link =>
          change (if ((view.after (.opened order released)).order link.parentOrderId).isSome then _ else _) = _
          rw [kept link.parentOrderId (unnamed above link linked)]
          rfl
  | terms order =>
    refine same (funext fun id => ?_)
    change (if order.orderId = id then (view.order id).map fun _ => order.link else view.order id) = view.order id
    split
    · next same =>
      subst same
      cases linked : view.order order.orderId with
      | none => rfl
      | some link => rw [Option.map_some, links link linked]
    · rfl
  | netLinked orderId netOrderId placement =>
    have isSome (id : String) : ((view.after (.netLinked orderId netOrderId placement)).order id).isSome =
        (view.order id).isSome := by
      change Option.isSome (if orderId = id then (view.order id).map _ else view.order id) = _
      split
      · rw [Option.isSome_map]
      · rfl
    refine ⟨fun id held => by rw [isSome]; exact held, fun top id held above counted found leads => ?_⟩
    have other : orderId ≠ above := by
      rintro rfl
      exact links top id held counted found leads
    unfold parent
    simp only [isSome]
    congr 2
    exact if_neg other
  | _ => exact same rfl

theorem booked_calm {act : Act} (booked : view.Booked) (calm : view.Calm act) : (view.after act).Booked :=
  booked_kept booked (executionsKept_steady calm.1) (bookingsKept_steady calm.1) (ordersKept_links booked calm.2)

end BookedView

namespace Ledger

theorem recorded_orderId (execution : Execution) (client taken : String) (row : FactorRow) :
    (recorded execution client taken row).orderId = execution.orderId := by
  unfold recorded
  dsimp only
  split <;> rfl

/-- An execution recorded on an order or a placement is matched. -/
theorem recorded_state {execution : Execution} {client taken : String} {row : FactorRow}
    (named : execution.orderId ≠ "" ∨ execution.placementId ≠ "") :
    (recorded execution client taken row).state = .matched := by
  have notBoth : ¬ (execution.orderId = "" ∧ execution.placementId = "") := by
    rintro ⟨order, placement⟩
    exact named.elim (fun other => other order) fun other => other placement
  exact if_neg notBoth

end Ledger

namespace BookedView
variable {view later : BookedView} {bookingId id : String}

section executed
variable {execution : Execution} {sender code client taken : String} {row : FactorRow}

/-- An execution under a new ID, of no quantity below zero, matched where it supersedes one that a live booking
counts. -/
structure Recordable (view : BookedView) (execution : Execution) (client taken : String) (row : FactorRow) : Prop where
  fresh : view.execution execution.executionId = none
  unsigned : 0 ≤ (readOr execution.quantity).units
  matched : execution.supersedes ≠ "" → ∀ orderId, view.Counted orderId execution.supersedes →
    (Ledger.recorded execution client taken row).state = .matched

/-- An execution after one is recorded is that one or one held before. -/
theorem execution_executed {held : ExecutionHeld}
    (found : (view.after (.executed execution sender code client taken row)).execution id = some held) :
    (id = execution.executionId ∧ held.execution = (ExecutionHeld.bare {
        execution := Ledger.recorded execution client taken row }).execution ∧ held.supersededBy = none) ∨
      (id ≠ execution.executionId ∧ ∃ before, view.execution id = some before ∧ held.execution = before.execution) := by
  change Ledger.executionAfter id (view.execution id) (.executed execution sender code client taken row) = some held at found
  simp only [Ledger.executionAfter] at found
  split at found
  · next same =>
    cases found
    exact Or.inl ⟨same.symm, rfl, rfl⟩
  · next other =>
    refine Or.inr ⟨Ne.symm other, ?_⟩
    split at found
    · obtain ⟨before, inView, rfl⟩ := Option.map_eq_some_iff.mp found
      exact ⟨before, inView, rfl⟩
    · exact ⟨held, found, rfl⟩

theorem execution_isSome_executed (held : (view.execution id).isSome) :
    ((view.after (.executed execution sender code client taken row)).execution id).isSome := by
  change (Ledger.executionAfter id (view.execution id) (.executed execution sender code client taken row)).isSome
  simp only [Ledger.executionAfter]
  split
  · rfl
  · split
    · rw [Option.isSome_map]
      exact held
    · exact held

theorem fresh_executed (superseding : view.Superseding) (fresh : view.execution execution.executionId = none) :
    view.later.Fresh execution.executionId := by
  constructor
  · unfold BookedView.later
    rw [fresh]
    rfl
  · intro id step
    have held := superseding.held id _ step
    rw [fresh] at held
    cases held

/-- Recording an execution redirects what supersedes the one it supersedes, where that is held. -/
theorem later_executed (fresh : view.execution execution.executionId = none) :
    (view.after (.executed execution sender code client taken row)).later = view.later ∨
      (execution.supersedes ≠ "" ∧ execution.executionId ≠ execution.supersedes ∧
        (view.after (.executed execution sender code client taken row)).later =
          view.later.redirected execution.supersedes execution.executionId) := by
  have after (id : String) : (view.after (.executed execution sender code client taken row)).later id =
      if execution.executionId = id then none
      else if execution.supersedes ≠ "" ∧ execution.supersedes = id then
        (view.execution id).bind fun _ => some execution.executionId
      else view.later id := by
    change (Ledger.executionAfter id (view.execution id) (.executed execution sender code client taken row)).bind _ = _
    simp only [Ledger.executionAfter]
    split
    · rfl
    · split
      · cases view.execution id <;> rfl
      · rfl
  have own : view.later execution.executionId = none := by
    unfold BookedView.later
    rw [fresh]
    rfl
  by_cases supersedes : execution.supersedes ≠ "" ∧ (view.execution execution.supersedes).isSome
  · have other : execution.executionId ≠ execution.supersedes := by
      intro same
      rw [← same, fresh] at supersedes
      exact Bool.false_ne_true supersedes.2
    refine Or.inr ⟨supersedes.1, other, funext fun id => ?_⟩
    obtain ⟨superseded, found⟩ := Option.isSome_iff_exists.mp supersedes.2
    rw [after, Pointers.redirected]
    by_cases isOwn : execution.executionId = id
    · subst isOwn
      rw [if_pos rfl, if_neg other, own]
    · rw [if_neg isOwn]
      by_cases isSuperseded : id = execution.supersedes
      · subst isSuperseded
        rw [if_pos ⟨supersedes.1, rfl⟩, if_pos rfl, found]
        rfl
      · rw [if_neg fun both => isSuperseded both.2.symm, if_neg isSuperseded]
  · refine Or.inl (funext fun id => ?_)
    rw [after]
    by_cases isOwn : execution.executionId = id
    · subst isOwn
      rw [if_pos rfl, own]
    · rw [if_neg isOwn]
      split
      · next same =>
        have none : view.execution id = none := by
          by_contra held
          exact supersedes ⟨same.1, same.2 ▸ Option.isSome_iff_ne_none.mpr held⟩
        unfold BookedView.later
        rw [none]
        rfl
      · rfl

theorem superseding_executed (superseding : view.Superseding) (fresh : view.execution execution.executionId = none) :
    (view.after (.executed execution sender code client taken row)).Superseding where
  unwound := by
    rcases @later_executed view execution sender code client taken row fresh with same | ⟨-, other, same⟩
    · rw [same]
      exact superseding.unwound
    · rw [same]
      exact Pointers.unwound_redirected (fresh_executed superseding fresh) other superseding.unwound
  held a b step := by
    rcases @later_executed view execution sender code client taken row fresh with same | ⟨-, other, same⟩
    · rw [same] at step
      exact execution_isSome_executed (superseding.held a b step)
    · rw [same, Pointers.redirected] at step
      split at step
      · obtain rfl := Option.some.inj step
        change (Ledger.executionAfter _ _ (.executed execution sender code client taken row)).isSome
        simp only [Ledger.executionAfter, if_true]
        rfl
      · exact execution_isSome_executed (superseding.held a b step)
  keyed id held found := by
    rcases execution_executed found with ⟨rfl, same, -⟩ | ⟨-, before, inView, same⟩
    · rw [same]
      unfold ExecutionHeld.bare Ledger.recorded
      dsimp only
      split <;> rfl
    · rw [same]
      exact superseding.keyed id before inView

/-- What is counted after an execution is recorded is that one, by what it supersedes, or was counted before. -/
theorem counted_executed {orderId : String} (tracked : view.Tracked) (fresh : view.execution execution.executionId = none)
    (counted : (view.after (.executed execution sender code client taken row)).Counted orderId id) :
    (id = execution.executionId ∧ execution.supersedes ≠ "" ∧ view.Counted orderId execution.supersedes) ∨
      (id ≠ execution.executionId ∧ view.Counted orderId id) := by
  obtain ⟨bookingId, booking, listed, live, ofOrder, member, leads⟩ := counted
  have new := fresh_executed tracked.superseding fresh
  have listedHeld : listed ≠ execution.executionId := by
    rintro rfl
    have held := tracked.listed bookingId _ ⟨booking, live, member⟩
    rw [fresh] at held
    cases held
  have before (leads : view.later.Leads listed id) :
      id ≠ execution.executionId ∧ view.Counted orderId id := by
    refine ⟨?_, bookingId, booking, listed, live, ofOrder, member, leads⟩
    rintro rfl
    exact listedHeld (Pointers.eq_of_leads_fresh new leads)
  rcases @later_executed view execution sender code client taken row fresh with same | ⟨named, other, same⟩
  · exact Or.inr (before (same ▸ leads))
  · rw [same] at leads
    rcases Pointers.leads_redirected new other leads with ⟨isNew, through⟩ | leads
    · exact Or.inl ⟨isNew, named, bookingId, booking, listed, live, ofOrder, member, through.resolve_left listedHeld⟩
    · exact Or.inr (before leads)

theorem tracked_executed (tracked : view.Tracked) (recordable : view.Recordable execution client taken row) :
    (view.after (.executed execution sender code client taken row)).Tracked where
  superseding := superseding_executed tracked.superseding recordable.fresh
  unsigned id held found := by
    rcases execution_executed found with ⟨-, same, -⟩ | ⟨-, before, inView, same⟩
    · rw [same]
      have quantity : (ExecutionHeld.bare { execution := Ledger.recorded execution client taken row }).execution.quantity =
          execution.quantity := by
        unfold ExecutionHeld.bare Ledger.recorded
        dsimp only
        split <;> rfl
      rw [quantity]
      exact recordable.unsigned
    · rw [same]
      exact tracked.unsigned id before inView
  listed bookingId id lists := execution_isSome_executed (tracked.listed bookingId id lists)
  matched orderId id held counted found := by
    rcases counted_executed tracked recordable.fresh counted with ⟨isNew, named, counted⟩ | ⟨other, counted⟩
    · rcases execution_executed found with ⟨-, same, -⟩ | ⟨otherId, -⟩
      · rw [same]
        exact recordable.matched named orderId counted
      · exact absurd isNew otherId
    · rcases execution_executed found with ⟨same, -, -⟩ | ⟨-, earlier, inView, same⟩
      · exact absurd same other
      · rw [same]
        exact tracked.matched orderId id earlier counted inView

/-- Recording an execution on an order under those of the live bookings that count what it supersedes. -/
theorem booked_executed (booked : view.Booked) (recordable : view.Recordable execution client taken row)
    (under : execution.supersedes ≠ "" → ∀ orderId, view.Counted orderId execution.supersedes →
      view.Under orderId (Ledger.recorded execution client taken row)) :
    (view.after (.executed execution sender code client taken row)).Booked where
  toTracked := tracked_executed booked.toTracked recordable
  nodup := booked.nodup
  apart := by
    have unlisted (bookingId : String) : ¬ view.Lists bookingId execution.executionId := by
      intro lists
      have held := booked.listed bookingId _ lists
      rw [recordable.fresh] at held
      cases held
    rcases @later_executed view execution sender code client taken row recordable.fresh with same | ⟨-, other, same⟩
    · rw [same]
      exact booked.apart
    · rw [same]
      exact booked.apart.redirected (fresh_executed booked.superseding recordable.fresh) other unlisted
  under orderId id held counted found := by
    rcases counted_executed booked.toTracked recordable.fresh counted with ⟨isNew, named, counted⟩ | ⟨other, counted⟩
    · rcases execution_executed found with ⟨-, same, -⟩ | ⟨otherId, -⟩
      · rw [same]
        exact under named orderId counted
      · exact absurd isNew otherId
    · rcases execution_executed found with ⟨same, -, -⟩ | ⟨-, earlier, inView, same⟩
      · exact absurd same other
      · rw [same]
        exact booked.under orderId id earlier counted inView

end executed

section opened
variable {booking : Booking} {lines : Nat × Nat}

/-- A booking of executions held, matched and superseded by none. -/
def Standing (view : BookedView) (booking : Booking) : Prop :=
  ∀ id ∈ booking.executionIds, ∃ held, view.execution id = some held ∧ held.supersededBy = none ∧
    held.execution.state = .matched

/-- A booking of executions each named once, under its order, and counted by no live booking. -/
structure Bookable (view : BookedView) (booking : Booking) : Prop where
  nodup : booking.executionIds.Nodup
  stands : view.Standing booking
  under : ∀ id ∈ booking.executionIds, ∀ held, view.execution id = some held → view.Under booking.orderId held.execution
  uncounted : ∀ id ∈ booking.executionIds, ∀ orderId, ¬ view.Counted orderId id

theorem live_opened {held : BookingHeld} (live : (view.after (.bookingOpened booking lines)).Live bookingId held) :
    (bookingId = booking.bookingId ∧ held.booking.orderId = booking.orderId ∧
        held.booking.executionIds = booking.executionIds) ∨
      (bookingId ≠ booking.bookingId ∧ view.Live bookingId held) := by
  obtain ⟨found, notCancelled⟩ := live
  change (if booking.bookingId = bookingId then some (BookingHeld.bare { booking, state := .booked })
    else view.booking bookingId) = some held at found
  split at found
  · next same =>
    cases found
    exact Or.inl ⟨same.symm, rfl, rfl⟩
  · next other => exact Or.inr ⟨Ne.symm other, found, notCancelled⟩

theorem last_of_standing (stands : view.Standing booking) (member : id ∈ booking.executionIds) :
    view.later id = none := by
  obtain ⟨execution, found, superseded, -⟩ := stands id member
  unfold BookedView.later
  rw [found]
  exact superseded

/-- What is counted after a booking is opened is what it lists, or was counted before. -/
theorem counted_opened {orderId : String} (stands : view.Standing booking)
    (counted : (view.after (.bookingOpened booking lines)).Counted orderId id) :
    (id ∈ booking.executionIds ∧ orderId = booking.orderId) ∨ view.Counted orderId id := by
  obtain ⟨bookingId, after, listed, live, ofOrder, member, leads⟩ := counted
  rcases live_opened live with ⟨-, sameOrder, same⟩ | ⟨-, live⟩
  · rw [same] at member
    obtain rfl := Pointers.eq_of_leads_last (last_of_standing stands member) leads
    exact Or.inl ⟨member, ofOrder.symm.trans sameOrder⟩
  · exact Or.inr ⟨bookingId, after, listed, live, ofOrder, member, leads⟩

theorem tracked_opened (tracked : view.Tracked) (stands : view.Standing booking) :
    (view.after (.bookingOpened booking lines)).Tracked where
  superseding := ⟨tracked.superseding.unwound, tracked.superseding.held, tracked.superseding.keyed⟩
  unsigned := tracked.unsigned
  listed bookingId id lists := by
    obtain ⟨held, live, member⟩ := lists
    rcases live_opened live with ⟨-, -, same⟩ | ⟨-, live⟩
    · rw [same] at member
      obtain ⟨execution, found, -⟩ := stands id member
      exact Option.isSome_iff_exists.mpr ⟨execution, found⟩
    · exact tracked.listed bookingId id ⟨held, live, member⟩
  matched orderId id held counted found := by
    rcases counted_opened stands counted with ⟨member, -⟩ | counted
    · obtain ⟨execution, inView, -, matched⟩ := stands id member
      obtain rfl := Option.some.inj (inView.symm.trans found)
      exact matched
    · exact tracked.matched orderId id held counted found

theorem booked_opened (booked : view.Booked) (bookable : view.Bookable booking) :
    (view.after (.bookingOpened booking lines)).Booked where
  toTracked := tracked_opened booked.toTracked bookable.stands
  nodup bookingId held live := by
    rcases live_opened live with ⟨-, -, same⟩ | ⟨-, live⟩
    · rw [same]
      exact bookable.nodup
    · exact booked.nodup bookingId held live
  apart := by
    intro bookingA a bookingB b last listsA listsB leadsA leadsB
    -- What the new booking lists leads to itself alone, and no live booking counts it.
    have own {id : String} (member : id ∈ booking.executionIds) (leads : view.later.Leads id last) : id = last :=
      Pointers.eq_of_leads_last (last_of_standing bookable.stands member) leads
    obtain ⟨heldA, liveA, memberA⟩ := listsA
    obtain ⟨heldB, liveB, memberB⟩ := listsB
    rcases live_opened liveA with ⟨sameA, -, idsA⟩ | ⟨-, earlierA⟩
    · rw [idsA] at memberA
      have lastA := own memberA leadsA
      subst lastA
      rcases live_opened liveB with ⟨sameB, -, idsB⟩ | ⟨-, earlierB⟩
      · rw [idsB] at memberB
        exact ⟨sameA.trans sameB.symm, (own memberB leadsB).symm⟩
      · exact absurd ⟨bookingB, heldB, b, earlierB, rfl, memberB, leadsB⟩ (bookable.uncounted a memberA _)
    · rcases live_opened liveB with ⟨-, -, idsB⟩ | ⟨-, earlierB⟩
      · rw [idsB] at memberB
        have lastB := own memberB leadsB
        subst lastB
        exact absurd ⟨bookingA, heldA, a, earlierA, rfl, memberA, leadsA⟩ (bookable.uncounted b memberB _)
      · exact booked.apart bookingA a bookingB b last ⟨heldA, earlierA, memberA⟩ ⟨heldB, earlierB, memberB⟩ leadsA leadsB
  under orderId id held counted found := by
    rcases counted_opened bookable.stands counted with ⟨member, rfl⟩ | counted
    · exact bookable.under id member held found
    · exact booked.under orderId id held counted found

end opened

end BookedView

end MeridianCore.Bor
