import MeridianCore.Bor.Booking.Decided
import MeridianCore.Bor.OrderDecide.Reported

namespace MeridianCore.Bor

open BookedView

namespace Ledger

/-- A booking counts an execution: one it lists is that one as it stands. -/
def Counts (ledger : Ledger) (held : BookingHeld) (executionId : String) : Prop :=
  ∃ id ∈ held.booking.executionIds, ∃ execution, ledger.asItStands id = some execution ∧ execution.executionId = executionId

/-- The quantity of an execution as it stands, a bust's none. -/
def standsUnits (ledger : Ledger) (id : String) : Int :=
  match ledger.asItStands id with
  | some execution => (readOr execution.quantity).units
  | none => 0

/-- Whether an execution stands, matched under an order. -/
def standsUnder (ledger : Ledger) (orderId : String) (held : ExecutionHeld) : Bool :=
  held.supersededBy.isNone && !held.isBust && held.execution.state = .matched &&
    ledger.top held.execution.orderId = orderId

/-- What an order's executions that stand add up to. -/
def standingUnits (ledger : Ledger) (orderId : String) : Int :=
  ((ledger.executions.toList.filter fun entry => ledger.standsUnder orderId entry.2).map fun entry =>
    (readOr entry.2.execution.quantity).units).sum

/-- The quantity a booking allocates. -/
def allocatedUnits (ledger : Ledger) (bookingId : String) : Int :=
  match ledger.bookings[bookingId]? with
  | some held =>
    match allocated held.booking.allocations with
    | .ok sums => sums.quantity.units
    | .error _ => 0
  | none => 0

/-- The executions a booking lists. -/
def listedBy (ledger : Ledger) (bookingId : String) : List String :=
  match ledger.bookings[bookingId]? with
  | some held => held.booking.executionIds
  | none => []

end Ledger

/-- A live booking of an order that passes the hand-off's check. -/
def Passes (book : Book) (orderId bookingId : String) : Prop :=
  ∃ held, book.ledger.bookings[bookingId]? = some held ∧ held.state ≠ .cancelled ∧ held.booking.orderId = orderId ∧
    ∃ ctx, Booking.handOffCheck book ctx bookingId = .ok none

/-- No execution is counted by two live bookings, and what the live bookings of an order that pass the
hand-off's check allocate is at most what its executions that stand add up to. -/
structure BooksOnce (book : Book) : Prop where
  once : ∀ (a b : String) (first second : BookingHeld) (executionId : String),
    book.ledger.bookings[a]? = some first → first.state ≠ .cancelled →
    book.ledger.bookings[b]? = some second → second.state ≠ .cancelled →
    book.ledger.Counts first executionId → book.ledger.Counts second executionId → a = b
  within : ∀ (orderId : String) (bookingIds : List String), bookingIds.Nodup →
    (∀ bookingId ∈ bookingIds, Passes book orderId bookingId) →
    (bookingIds.map book.ledger.allocatedUnits).sum ≤ book.ledger.standingUnits orderId

/-- One execution added adds its quantity as it stands. -/
theorem addExecuted_units {book : Book} {ctx : Context} {before after : Executed} {id : String}
    (added : addExecuted book ctx before id = .ok after) :
    after.quantity.units = before.quantity.units + book.ledger.standsUnits id := by
  unfold addExecuted at added
  unfold Ledger.standsUnits
  split at added
  · next none =>
    cases added
    rw [none]
    exact (Int.add_zero _).symm
  · next execution stands =>
    rw [stands]
    dsimp only
    obtain ⟨quantity, read, added⟩ := bind_ok.mp added
    split at added
    · obtain ⟨unit, -, added⟩ := bind_ok.mp added
      obtain ⟨total, summed, added⟩ := bind_ok.mp added
      have same : after.quantity = total := by
        obtain ⟨priced, -, added⟩ := bind_ok.mp added
        obtain ⟨whole, -, added⟩ := bind_ok.mp added
        generalize book.ledger.executions[execution.executionId]? = held at added
        cases held <;> dsimp only at added <;> split at added
        all_goals
          obtain ⟨gross, -, added⟩ := bind_ok.mp added
          obtain ⟨grossTotal, -, added⟩ := bind_ok.mp added
          obtain ⟨fees, -, added⟩ := bind_ok.mp added
          split at added
          · cases added
            rfl
          · cases added
            rfl
      rw [same, add_ok summed, readOr_of_required read]
    · cases added

/-- The quantity executed is that of the executions as they stand. -/
theorem executed_units {book : Book} {ctx : Context} {ids : List String} {sums : Executed}
    (summed : executed book ctx ids = .ok sums) : sums.quantity.units = (ids.map book.ledger.standsUnits).sum := by
  suffices from_ : ∀ before : Executed, ids.foldlM (addExecuted book ctx) before = .ok sums →
      sums.quantity.units = before.quantity.units + (ids.map book.ledger.standsUnits).sum by
    rw [from_ {} summed]
    exact Int.zero_add _
  clear summed
  intro before summed
  induction ids generalizing before with
  | nil =>
    cases summed
    exact (Int.add_zero _).symm
  | cons id rest ih =>
    rw [List.foldlM_cons] at summed
    obtain ⟨after, added, summed⟩ := bind_ok.mp summed
    rw [ih after summed, addExecuted_units added, List.map_cons, List.sum_cons, Int.add_assoc]

theorem tiesOut_units {sums : Executed} {allocations : List Allocation} (ties : tiesOut sums allocations = .ok none) :
    ∃ total, allocated allocations = .ok total ∧ total.quantity.units = sums.quantity.units := by
  unfold tiesOut at ties
  obtain ⟨total, summed, ties⟩ := bind_ok.mp ties
  refine ⟨total, summed, ?_⟩
  dsimp only at ties
  split at ties
  · cases ties
  · next same => exact (Exact.equals_iff _ _).mp (not_not.mp same)

/-- A booking that passes its hand-off's check allocates what its executions are as they stand. -/
theorem allocated_of_passes {book : Book} {orderId bookingId : String} (passes : Passes book orderId bookingId) :
    book.ledger.allocatedUnits bookingId = ((book.ledger.listedBy bookingId).map book.ledger.standsUnits).sum ∧
      ∃ held, book.ledger.view.Live bookingId held ∧ held.booking.orderId = orderId ∧
        book.ledger.listedBy bookingId = held.booking.executionIds := by
  obtain ⟨held, found, live, ofOrder, ctx, checked⟩ := passes
  have listed : book.ledger.listedBy bookingId = held.booking.executionIds := by
    unfold Ledger.listedBy
    rw [found]
  refine ⟨?_, held.bare, ⟨?_, live⟩, ofOrder, listed⟩
  rotate_left
  · rw [Ledger.view_booking, found]
    rfl
  · unfold Booking.handOffCheck at checked
    rw [found] at checked
    obtain ⟨sums, summed, checked⟩ := bind_ok.mp checked
    obtain ⟨words, ties, checked⟩ := bind_ok.mp checked
    cases words with
    | some words => cases checked
    | none =>
      obtain ⟨total, allocated, same⟩ := tiesOut_units ties
      unfold Ledger.allocatedUnits
      rw [found]
      dsimp only
      rw [allocated]
      dsimp only
      rw [same, executed_units summed, listed]

section once
variable {book : Book} {ledger : Ledger}

/-- A held execution led to as it stands is under its own ID. -/
theorem stands_of_listed (tracked : ledger.view.Tracked) {bookingId id : String} (lists : ledger.view.Lists bookingId id) :
    ∃ last current, ledger.view.later.EndsAt id last ∧ ledger.executions[last]? = some current ∧
      current.execution.executionId = last ∧
      ledger.asItStands id = if current.isBust then none else some current.execution := by
  obtain ⟨held, found⟩ := Ledger.execution_of_view (tracked.listed bookingId id lists)
  obtain ⟨last, current, ends, inExecutions, stands⟩ := Ledger.exists_stands tracked.superseding found
  have keyed := tracked.superseding.keyed last current.bare (Ledger.view_execution_of inExecutions)
  exact ⟨last, current, ends, inExecutions, keyed, stands⟩

theorem lists_of_counts {a : String} {held : BookingHeld} (found : ledger.bookings[a]? = some held)
    (live : held.state ≠ .cancelled) {id : String} (member : id ∈ held.booking.executionIds) : ledger.view.Lists a id :=
  ⟨held.bare, ⟨by rw [Ledger.view_booking, found]; rfl, live⟩, member⟩

/-- What a booking counts, one it lists leads to. -/
theorem leads_of_stands (tracked : ledger.view.Tracked) {bookingId id : String} {execution : Execution}
    (lists : ledger.view.Lists bookingId id) (stands : ledger.asItStands id = some execution) :
    ledger.view.later.EndsAt id execution.executionId ∧ ∃ current, current.isBust = false ∧
      ledger.executions[execution.executionId]? = some current ∧ current.execution = execution := by
  obtain ⟨last, current, ends, found, keyed, same⟩ := stands_of_listed tracked lists
  rw [same] at stands
  split at stands
  · cases stands
  · next counts =>
    cases stands
    rw [keyed]
    exact ⟨ends, current, Bool.eq_false_iff.mpr counts, found, rfl⟩

theorem once_of_booked (booked : ledger.view.Booked) {a b : String} {first second : BookingHeld} {executionId : String}
    (inA : ledger.bookings[a]? = some first) (liveA : first.state ≠ .cancelled)
    (inB : ledger.bookings[b]? = some second) (liveB : second.state ≠ .cancelled)
    (countsA : ledger.Counts first executionId) (countsB : ledger.Counts second executionId) : a = b := by
  obtain ⟨idA, memberA, executionA, standsA, rfl⟩ := countsA
  obtain ⟨idB, memberB, executionB, standsB, same⟩ := countsB
  have listsA := lists_of_counts inA liveA memberA
  have listsB := lists_of_counts inB liveB memberB
  have endsA := (leads_of_stands booked.toTracked listsA standsA).1
  have endsB := (leads_of_stands booked.toTracked listsB standsB).1
  rw [same] at endsB
  exact (booked.apart a idA b idB _ listsA listsB endsA.1 endsB.1).1

/-- The execution another counts as, where it counts at all. -/
def Ledger.countedAs (ledger : Ledger) (id : String) : Option String := (ledger.asItStands id).map Execution.executionId

/-- The quantity of an execution under its own ID. -/
def Ledger.unitsOf (ledger : Ledger) (id : String) : Int :=
  match ledger.executions[id]? with
  | some held => (readOr held.execution.quantity).units
  | none => 0

theorem standsUnits_of_lists (booked : ledger.view.Booked) {bookingId id : String} (lists : ledger.view.Lists bookingId id) :
    ledger.standsUnits id = (ledger.countedAs id).elim 0 ledger.unitsOf := by
  unfold Ledger.standsUnits Ledger.countedAs
  cases stands : ledger.asItStands id with
  | none => rfl
  | some execution =>
    obtain ⟨-, current, -, found, same⟩ := leads_of_stands booked.toTracked lists stands
    simp only [Option.map_some, Option.elim_some, Ledger.unitsOf, found, same]

theorem countedAs_injective (booked : ledger.view.Booked) {a b first second : String} {counted : String}
    (listsA : ledger.view.Lists a first) (listsB : ledger.view.Lists b second)
    (countedA : ledger.countedAs first = some counted) (countedB : ledger.countedAs second = some counted) :
    a = b ∧ first = second := by
  obtain ⟨executionA, standsA, rfl⟩ := Option.map_eq_some_iff.mp countedA
  obtain ⟨executionB, standsB, same⟩ := Option.map_eq_some_iff.mp countedB
  have endsA := (leads_of_stands booked.toTracked listsA standsA).1
  have endsB := (leads_of_stands booked.toTracked listsB standsB).1
  rw [same] at endsB
  exact booked.apart a first b second _ listsA listsB endsA.1 endsB.1

/-- An execution a live booking of an order counts stands under the order. -/
theorem standing_of_counted (booked : ledger.view.Booked) {bookingId orderId id counted : String} {held : BookingHeld}
    (live : ledger.view.Live bookingId held) (ofOrder : held.booking.orderId = orderId)
    (member : id ∈ held.booking.executionIds) (counts : ledger.countedAs id = some counted) :
    ∃ current, (counted, current) ∈ ledger.executions.toList.filter (fun entry => ledger.standsUnder orderId entry.2) := by
  obtain ⟨execution, stands, rfl⟩ := Option.map_eq_some_iff.mp counts
  obtain ⟨ends, current, counts, found, same⟩ := leads_of_stands booked.toTracked ⟨held, live, member⟩ stands
  refine ⟨current, List.mem_filter.mpr ⟨BTreeMap.mem_toList.mpr found, ?_⟩⟩
  have counted : ledger.view.Counted orderId execution.executionId :=
    ⟨bookingId, held, id, live, ofOrder, member, ends.1⟩
  have matched := booked.matched orderId _ current.bare counted (Ledger.view_execution_of found)
  obtain ⟨-, comes⟩ := booked.under orderId _ current.bare counted (Ledger.view_execution_of found)
  have top := Pointers.comesTo_unique (@Ledger.comesTo_top ledger current.execution.orderId) comes
  have last : current.supersededBy = none := (Ledger.later_of found).symm.trans ends.2
  have isMatched : current.execution.state = .matched := matched
  unfold Ledger.standsUnder
  simp [last, counts, isMatched, top]

/-- What the live bookings of an order allocate is of its executions that stand, each counted once. -/
theorem within_of_booked (booked : book.ledger.view.Booked) {orderId : String} {bookingIds : List String}
    (nodup : bookingIds.Nodup) (passes : ∀ bookingId ∈ bookingIds, Passes book orderId bookingId) :
    (bookingIds.map book.ledger.allocatedUnits).sum ≤ book.ledger.standingUnits orderId := by
  let ledger := book.ledger
  have each (bookingId : String) (member : bookingId ∈ bookingIds) :
      ledger.allocatedUnits bookingId = ((ledger.listedBy bookingId).map ledger.standsUnits).sum ∧
        ∃ held, ledger.view.Live bookingId held ∧ held.booking.orderId = orderId ∧
          ledger.listedBy bookingId = held.booking.executionIds :=
    allocated_of_passes (passes bookingId member)
  let listed := bookingIds.flatMap ledger.listedBy
  have lists (bookingId id : String) (member : bookingId ∈ bookingIds) (inBooking : id ∈ ledger.listedBy bookingId) :
      ledger.view.Lists bookingId id := by
    obtain ⟨-, held, live, -, same⟩ := each bookingId member
    exact ⟨held, live, same ▸ inBooking⟩
  have once : listed.Nodup := by
    refine List.nodup_flatMap.mpr ⟨fun bookingId member => ?_, nodup.pairwise_of_forall_ne ?_⟩
    · obtain ⟨-, held, live, -, same⟩ := each bookingId member
      rw [same]
      exact booked.nodup bookingId held live
    · intro a memberA b memberB other id inA inB
      exact other (booked.apart a id b id id (lists a id memberA inA) (lists b id memberB inB) .refl .refl).1
  have onceCounted : (listed.filterMap ledger.countedAs).Nodup := by
    refine List.pairwise_filterMap.mpr (once.pairwise_of_forall_ne ?_)
    intro first inFirst second inSecond other counted countedFirst again countedSecond same
    obtain ⟨a, memberA, listsA⟩ := List.mem_flatMap.mp inFirst
    obtain ⟨b, memberB, listsB⟩ := List.mem_flatMap.mp inSecond
    subst same
    exact other (countedAs_injective booked (lists a first memberA listsA) (lists b second memberB listsB) countedFirst
      countedSecond).2
  let standing := (ledger.executions.toList.filter fun entry => ledger.standsUnder orderId entry.2).map Prod.fst
  have subset : listed.filterMap ledger.countedAs ⊆ standing := by
    intro counted member
    obtain ⟨id, inListed, counts⟩ := List.mem_filterMap.mp member
    obtain ⟨a, memberA, listsA⟩ := List.mem_flatMap.mp inListed
    obtain ⟨-, held, live, ofOrder, same⟩ := each a memberA
    obtain ⟨current, stands⟩ := standing_of_counted booked live ofOrder (same ▸ listsA) counts
    exact List.mem_map.mpr ⟨_, stands, rfl⟩
  have unsigned : ∀ id ∈ standing, 0 ≤ ledger.unitsOf id := by
    intro id member
    obtain ⟨⟨key, held⟩, inStanding, rfl⟩ := List.mem_map.mp member
    have found := BTreeMap.mem_toList.mp (List.mem_filter.mp inStanding).1
    simp only [Ledger.unitsOf, found]
    exact booked.unsigned key held.bare (Ledger.view_execution_of found)
  calc (bookingIds.map ledger.allocatedUnits).sum
      = (bookingIds.map fun bookingId => ((ledger.listedBy bookingId).map ledger.standsUnits).sum).sum :=
        congrArg List.sum (List.map_congr_left fun bookingId member => (each bookingId member).1)
    _ = (listed.map ledger.standsUnits).sum := (sum_flatMap bookingIds).symm
    _ = ((listed.filterMap ledger.countedAs).map ledger.unitsOf).sum := by
        refine sum_filterMap fun id inListed => ?_
        obtain ⟨a, memberA, listsA⟩ := List.mem_flatMap.mp inListed
        exact standsUnits_of_lists booked (lists a id memberA listsA)
    _ ≤ (standing.map ledger.unitsOf).sum := sum_le_of_subset onceCounted subset unsigned
    _ = ledger.standingUnits orderId := by
        unfold Ledger.standingUnits
        rw [List.map_map]
        refine congrArg List.sum (List.map_congr_left fun entry member => ?_)
        have found := BTreeMap.mem_toList.mp (List.mem_filter.mp member).1
        simp only [Function.comp_apply, Ledger.unitsOf, found]

end once

/-- What may make an entry: a command of the bookings, a reported execution, or any other draft. -/
inductive BookingCommand where
  | book (head : Nat) (ctx : Context) (request : BookOrderRequest)
  | handOff (head : Nat) (ctx : Context) (request : HandOffBookingRequest)
  | correct (head : Nat) (ctx : Context) (request : CorrectBookingRequest)
  | report (head : Nat) (ctx : Context) (request : ReportExecutionRequest)
  | other (head : Nat) (ctx : Context) (draft : Draft)

namespace BookingCommand

def made (book : Book) : BookingCommand → Result Made
  | .book head ctx request => Booking.bookOrder book head ctx request
  | .handOff head ctx request => Booking.handOffBooking book head ctx request
  | .correct head ctx request => Booking.correctBooking book head ctx request
  | .report head ctx request => reportExecution book head ctx request
  | .other head ctx draft => Bor.made book head ctx draft

/-- The account once a command is taken. -/
def take (book : Book) (command : BookingCommand) : Result Book := return (← command.made book).held

theorem take_ok {book after : Book} {command : BookingCommand} (taken : command.take book = .ok after) :
    ∃ act, command.made book = .ok act ∧ after = act.held := by
  obtain ⟨act, decided, taken⟩ := bind_ok.mp taken
  cases taken
  exact ⟨act, decided, rfl⟩

/-- A fact is recorded under a new ID, and any other entry's acts are each calm as they are made. -/
def Orderly (book : Book) : BookingCommand → Prop
  | .report _ ctx _ => book.ledger.executions[ctx.minted "EXE" 0]? = none
  | .other _ _ draft => book.ledger.view.CalmAll draft.body.acts
  | _ => True

/-- A booking names no execution that a live booking counts, and a fact superseding one that a live booking
counts is on an order under the booking's. -/
def CountsOnce (book : Book) : BookingCommand → Prop
  | .book _ _ request => ∀ id ∈ request.executionIds, ∀ (bookingId : String) (held : BookingHeld),
      book.ledger.bookings[bookingId]? = some held → held.state ≠ .cancelled → ¬ book.ledger.Counts held id
  | .report _ ctx request => request.supersedes ≠ "" → ∀ orderId placementId,
      placedOn book ctx request = .ok (.order orderId placementId) → ∀ top,
      book.ledger.view.Counted top request.supersedes → book.ledger.top orderId = top
  | _ => True

end BookingCommand

section steps
variable {book : Book} {act : Made}

/-- An order whose chain ends at one held is held. -/
theorem order_held_of_top {orderId top : String} (comes : book.ledger.top orderId = top)
    (held : (book.ledger.view.order top).isSome) : (book.ledger.view.order orderId).isSome := by
  by_contra absent
  have last : book.ledger.view.parent orderId = none := by
    unfold BookedView.parent
    rw [Option.not_isSome_iff_eq_none.mp absent]
    rfl
  have same := Pointers.comesTo_unique (Pointers.comesTo_self last) (@Ledger.comesTo_top book.ledger orderId)
  rw [comes] at same
  rw [same] at absent
  exact absent held

theorem standing_of_accepted {head : Nat} {ctx : Context} {request : BookOrderRequest}
    (accepted : Booking.Accepted book head ctx request act) {booking : Booking}
    (lists : booking.executionIds = request.executionIds) : book.ledger.view.Standing booking := by
  intro id member
  rw [lists] at member
  obtain ⟨held, bookable⟩ := accepted.bookable id member
  exact ⟨held.bare, Ledger.view_execution_of bookable.found, bookable.unsuperseded, bookable.matched⟩

theorem bookable_of_accepted {head : Nat} {ctx : Context} {request : BookOrderRequest}
    (booked : book.ledger.view.Booked) (accepted : Booking.Accepted book head ctx request act)
    (uncounted : ∀ id ∈ request.executionIds, ∀ (bookingId : String) (held : BookingHeld),
      book.ledger.bookings[bookingId]? = some held → held.state ≠ .cancelled → ¬ book.ledger.Counts held id)
    {booking : Booking} (ofOrder : booking.orderId = request.orderId)
    (lists : booking.executionIds = request.executionIds) : book.ledger.view.Bookable booking where
  nodup := lists ▸ accepted.nodup
  stands := standing_of_accepted accepted lists
  under id member held found := by
    rw [lists] at member
    obtain ⟨execution, bookable⟩ := accepted.bookable id member
    obtain ⟨order, inOrders⟩ := accepted.order
    have top : (book.ledger.view.order request.orderId).isSome := by
      rw [Ledger.view_order, inOrders]
      rfl
    obtain rfl := Option.some.inj ((Ledger.view_execution_of bookable.found).symm.trans found)
    refine ⟨order_held_of_top bookable.under top, ?_⟩
    rw [ofOrder, ← bookable.under]
    exact Ledger.comesTo_top _
  uncounted id member orderId counted := by
    rw [lists] at member
    obtain ⟨held, bookable⟩ := accepted.bookable id member
    obtain ⟨bookingId, view, listed, ⟨inView, live⟩, -, inBooking, leads⟩ := counted
    have listsId : book.ledger.view.Lists bookingId listed := ⟨view, ⟨inView, live⟩, inBooking⟩
    obtain ⟨last, current, ends, found, keyed, stands⟩ := stands_of_listed booked.toTracked listsId
    have superseded : book.ledger.view.later id = none := (Ledger.later_of bookable.found).trans bookable.unsuperseded
    obtain rfl := Pointers.endsAt_unique ends ⟨leads, superseded⟩
    obtain rfl := Option.some.inj (found.symm.trans bookable.found)
    rw [bookable.counts] at stands
    rw [Ledger.view_booking] at inView
    obtain ⟨whole, inBookings, rfl⟩ := Option.map_eq_some_iff.mp inView
    exact uncounted last member bookingId whole inBookings live ⟨listed, inBooking, current.execution, stands, keyed⟩

theorem afterFacts_calm {orderId why : String} {each : Act} (member : each ∈ afterFacts book orderId why)
    (view : BookedView) : view.Calm each := by
  unfold afterFacts at member
  obtain ⟨held, -, acted⟩ := List.mem_filterMap.mp member
  unfold afterFact at acted
  split at acted
  · cases acted
    exact ⟨trivial, trivial⟩
  · cases acted
    exact ⟨trivial, trivial⟩
  · cases acted
    exact ⟨trivial, trivial⟩
  · cases acted

theorem heldAlertsFor_calm {ctx : Context} {acts : List Act} {each : Act} (member : each ∈ heldAlertsFor ctx book acts)
    (view : BookedView) : view.Calm each := by
  unfold heldAlertsFor at member
  obtain ⟨index, inside, rfl⟩ := List.mem_mapIdx.mp member
  exact ⟨trivial, trivial⟩

theorem claimedUnplaced_calm {sender : String} {execution : Execution} {each : Act}
    (member : each ∈ claimedUnplaced book sender execution) (view : BookedView) : view.Calm each := by
  unfold claimedUnplaced at member
  split at member
  · cases member
  · split at member
    · cases List.mem_singleton.mp member
      exact ⟨trivial, trivial⟩
    · cases member

/-- A reported execution's entry books none, and records one whose quantity is not below zero, under the
orders of the live bookings that count what it supersedes. -/
theorem booked_of_reported {head : Nat} {ctx : Context} {request : ReportExecutionRequest}
    (booked : book.ledger.view.Booked) (decided : reportExecution book head ctx request = .ok act)
    (fresh : book.ledger.executions[ctx.minted "EXE" 0]? = none)
    (under : request.supersedes ≠ "" → ∀ orderId placementId,
      placedOn book ctx request = .ok (.order orderId placementId) → ∀ top,
      book.ledger.view.Counted top request.supersedes → book.ledger.top orderId = top) :
    act.held.ledger.view.Booked := by
  unfold reportExecution at decided
  obtain ⟨plan, planned, finished⟩ := bind_ok.mp decided
  obtain ⟨more, settles, acts, viewed⟩ := view_of_finish finished
  rw [viewed, acts]
  obtain ⟨bust, formed, placed⟩ := executionPlan_ok planned
  obtain ⟨wire, quantity, stated, parsed, unsigned, -⟩ := wellFormed_ok formed
  have units : 0 ≤ (readOr request.quantity).units := by
    unfold readOr
    rw [stated]
    dsimp only
    rw [parsed]
    exact unsigned
  have newId : book.ledger.view.execution (ctx.minted "EXE" 0) = none := by
    rw [Ledger.view_execution, fresh]
    rfl
  rcases placed with ⟨orderId, placementId, on, placed⟩ | ⟨-, kept⟩ | ⟨-, unmatched⟩
  · obtain ⟨order, cross, state, lines, inOrders, -, rfl⟩ := reportPlaced_ok placed
    let execution := placedExecution book ctx request order orderId placementId cross
    have onOrder : (book.ledger.view.order orderId).isSome := by
      rw [Ledger.view_order, inOrders]
      rfl
    have recordable (client taken : String) (row : FactorRow) :
        book.ledger.view.Recordable execution client taken row :=
      ⟨newId, units, fun _ _ _ => Ledger.recorded_state (placedOn_named on)⟩
    have underTop (client taken : String) (row : FactorRow) (named : execution.supersedes ≠ "") (top : String)
        (counted : book.ledger.view.Counted top execution.supersedes) :
        book.ledger.view.Under top (Ledger.recorded execution client taken row) := by
      have sameTop := under named orderId placementId on top counted
      have sameOrder : (Ledger.recorded execution client taken row).orderId = orderId := Ledger.recorded_orderId ..
      refine ⟨?_, ?_⟩
      · rw [sameOrder]
        exact onOrder
      · rw [sameOrder, ← sameTop]
        exact Ledger.comesTo_top _
    simp only [List.cons_append]
    rw [BookedView.afterAll_cons]
    refine booked_calmAll (booked_executed booked (recordable ..) (underTop _ _ _))
      (calmAll_of_calm fun each member view => ?_)
    rcases List.mem_append.mp member with own | settled
    · rcases List.mem_append.mp own with own | moved
      · rcases List.mem_append.mp own with own | raised
        · rcases List.mem_append.mp own with late | claimed
          · unfold lateFact at late
            split at late
            · cases List.mem_singleton.mp late
              exact ⟨trivial, trivial⟩
            · cases late
          · exact claimedUnplaced_calm claimed view
        · exact heldAlertsFor_calm raised view
      · exact afterFacts_calm moved view
    · exact calm_settles (settles each settled) view
  · unfold keptUnplaced at kept
    dsimp only at kept
    split at kept
    · cases kept
    · cases kept
      refine booked_calmAll booked (calmAll_of_calm fun each member view => ?_)
      rcases List.mem_append.mp member with own | settled
      · cases List.mem_singleton.mp own
        exact ⟨trivial, trivial⟩
      · exact calm_settles (settles each settled) view
  · obtain ⟨notMatched, execution, taken, row, id, sameQuantity, supersedes, acted⟩ := reportUnmatched_ok unmatched
    -- What a live booking counts is matched, and nothing unmatched supersedes it.
    have unseen (named : execution.supersedes ≠ "") (top : String) :
        ¬ book.ledger.view.Counted top execution.supersedes := by
      intro counted
      rw [supersedes] at named counted
      obtain ⟨held, found⟩ := Ledger.execution_of_view (held_of_counted booked.toTracked counted)
      exact notMatched held named found (booked.matched top _ held.bare counted (Ledger.view_execution_of found))
    have recordable (client : String) : book.ledger.view.Recordable execution client taken row :=
      ⟨id ▸ newId, sameQuantity ▸ units, fun named top counted => (unseen named top counted).elim⟩
    rw [acted, List.cons_append, BookedView.afterAll_cons]
    refine booked_calmAll (booked_executed booked (recordable ..) fun named top counted => (unseen named top counted).elim)
      (calmAll_of_calm fun each member view => ?_)
    rcases List.mem_append.mp member with claimed | settled
    · exact claimedUnplaced_calm claimed view
    · exact calm_settles (settles each settled) view

/-- Every command that counts once keeps what no execution booked twice rests on. -/
theorem booked_of_command {command : BookingCommand} (booked : book.ledger.view.Booked) (orderly : command.Orderly book)
    (once : command.CountsOnce book) (decided : command.made book = .ok act) : act.held.ledger.view.Booked := by
  cases command with
  | book head ctx request =>
    have accepted := Booking.bookOrder_ok decided
    obtain ⟨booking, lines, rest, ofOrder, lists, acts, each, viewed⟩ := Booking.acts_of_bookOrder accepted
    rw [viewed, acts, BookedView.afterAll_cons]
    have opened : (book.ledger.view.after (.bookingOpened booking lines)).Booked :=
      booked_opened booked (bookable_of_accepted booked accepted once ofOrder lists)
    refine booked_calmAll opened (calmAll_bookingActs ?_ each)
    intro held found cancelled
    change Ledger.bookingAfter _ _ (.bookingOpened booking lines) = some held at found
    simp only [Ledger.bookingAfter, if_true] at found
    cases found
    cases cancelled
  | handOff head ctx request =>
    obtain ⟨⟨held, found, live⟩, each, viewed⟩ := Booking.acts_of_handOff decided
    rw [viewed]
    refine booked_calmAll booked (calmAll_bookingActs ?_ each)
    intro view inView cancelled
    rw [Ledger.view_booking, found] at inView
    cases inView
    exact live cancelled
  | correct head ctx request =>
    obtain ⟨each, viewed⟩ := Booking.acts_of_correct decided
    rw [viewed]
    exact booked_calmAll booked (calmAll_of_calm each)
  | report head ctx request => exact booked_of_reported booked decided orderly once
  | other head ctx draft =>
    obtain ⟨applied, -, -⟩ := made_ok decided
    have viewed : act.held.ledger.view = book.ledger.view.afterAll draft.body.acts := Book.view_of_applied applied
    rw [viewed]
    exact booked_calmAll booked orderly

end steps

theorem booked_new (accountId partition : String) : (Book.new accountId partition).ledger.view.Booked := by
  have unbooked (id : String) (held : BookingHeld) : ¬ (Book.new accountId partition).ledger.view.Live id held := by
    rintro ⟨found, -⟩
    cases found
  have uncounted (orderId id : String) : ¬ (Book.new accountId partition).ledger.view.Counted orderId id := by
    rintro ⟨bookingId, booking, -, live, -⟩
    exact unbooked bookingId booking live
  refine ⟨⟨⟨?_, ?_, ?_⟩, ?_, ?_, ?_⟩, ?_, ?_, ?_⟩
  · intro id cycle
    obtain ⟨next, step, -⟩ := Relation.TransGen.head'_iff.mp cycle
    cases step
  · rintro a b ⟨⟩
  · rintro id held ⟨⟩
  · rintro id held ⟨⟩
  · rintro bookingId id ⟨held, live, -⟩
    exact absurd live (unbooked bookingId held)
  · intro orderId id held counted
    exact absurd counted (uncounted orderId id)
  · intro bookingId held live
    exact absurd live (unbooked bookingId held)
  · rintro a id b other last ⟨held, live, -⟩
    exact absurd live (unbooked a held)
  · intro orderId id held counted
    exact absurd counted (uncounted orderId id)

/-- On every book made by commands that count once no execution is counted by two live bookings, and the
live bookings of an order that pass the hand-off's check allocate at most what its executions that stand add
up to. -/
theorem books_once_of_run {accountId partition : String} {commands : List BookingCommand} {book : Book}
    (run : Run (fun book command after => (command.Orderly book ∧ command.CountsOnce book) ∧ command.take book = .ok after)
      (Book.new accountId partition) commands book) : BooksOnce book := by
  have booked : book.ledger.view.Booked := by
    refine run.invariant_of (fun book => book.ledger.view.Booked) (booked_new accountId partition) ?_
    intro before command after booked met taken
    obtain ⟨act, decided, rfl⟩ := BookingCommand.take_ok taken
    exact booked_of_command booked met.1 met.2 decided
  exact ⟨fun a b first second executionId inA liveA inB liveB countsA countsB =>
    once_of_booked booked inA liveA inB liveB countsA countsB, fun orderId bookingIds nodup passes =>
    within_of_booked booked nodup passes⟩

/-- Whether a command is orderly, for other drafts where an account's first order and its placement are
opened. -/
def BookingCommand.orderlyNow (book : Book) : BookingCommand → Bool
  | .report _ ctx _ => (book.ledger.executions[ctx.minted "EXE" 0]?).isNone
  | .other _ _ draft =>
    match draft.body.acts with
    | [.opened _ _, .placementOpened _] => book.ledger.orders.isEmpty
    | _ => false
  | _ => true

theorem orderly_of_now {book : Book} {command : BookingCommand} (now : command.orderlyNow book = true) :
    command.Orderly book := by
  cases command with
  | report head ctx request => exact Option.isNone_iff_eq_none.mp now
  | other head ctx draft =>
    unfold BookingCommand.orderlyNow at now
    dsimp only at now
    split at now
    · next order released placement acts =>
      have none (id : String) : book.ledger.view.order id = none := by
        rw [Ledger.view_order, Std.ExtTreeMap.isEmpty_iff.mp now]
        rfl
      unfold BookingCommand.Orderly
      dsimp only
      rw [acts]
      refine ⟨⟨trivial, none _, fun id link linked => ?_⟩, ⟨trivial, trivial⟩, trivial⟩
      rw [none] at linked
      cases linked
    · cases now
  | _ => trivial

/-- Whether a command counts once: the first booking, and facts superseding none. -/
def BookingCommand.countsOnceNow (book : Book) : BookingCommand → Bool
  | .book _ _ _ => book.ledger.bookings.isEmpty
  | .report _ _ request => request.supersedes == ""
  | _ => true

theorem countsOnce_of_now {book : Book} {command : BookingCommand} (now : command.countsOnceNow book = true) :
    command.CountsOnce book := by
  cases command with
  | book head ctx request =>
    intro id member bookingId held found
    rw [Std.ExtTreeMap.isEmpty_iff.mp now] at found
    cases found
  | report head ctx request =>
    intro named
    exact absurd (beq_iff_eq.mp now) named
  | _ => trivial

/-- The account once a command is taken that meets a check. -/
def takeChecked (check : Book → BookingCommand → Bool) (book : Book) (command : BookingCommand) : Result Book :=
  if check book command then command.take book else .error (.invalid "unchecked")

theorem takeChecked_ok {check : Book → BookingCommand → Bool} {book after : Book} {command : BookingCommand}
    (taken : takeChecked check book command = .ok after) : check book command = true ∧ command.take book = .ok after := by
  unfold takeChecked at taken
  split at taken
  · next checked => exact ⟨checked, taken⟩
  · cases taken

def stepContext (step : String) : Context where
  instanceId := "VENUE-1"
  minted kind index := kind ++ "-" ++ step ++ toString index

def userContext (step : String) : Context := { stepContext step with actingFor := "USR-1" }

def dollars (amount : Int) : Money where
  amount := some ⟨amount, 0⟩
  currencyCode := "USD"
  instrumentId := "CASH-USD"

def fillOf (quantity : Int) (venueExecutionId supersedes : String) : ReportExecutionRequest where
  placementId := "PLC-1"
  venueExecutionId := venueExecutionId
  quantity := some ⟨quantity, 0⟩
  price := some (dollars 10)
  tradeDate := "2026-01-05"
  settlementDate := "2026-01-07"
  supersedes := supersedes

def allocationOf (quantity : Int) : Allocation where
  accountId := "ACC-1"
  quantity := some ⟨quantity, 0⟩
  averagePrice := some (dollars 10)
  grossAmount := some (dollars (quantity * 10))

/-- An order's fill of a hundred, booked and handed off. -/
def filledAndBooked : List BookingCommand := [
  .other 0 {} {
    entryId := "ENT-1"
    kind := "order-placed"
    effectiveDate := "2026-01-05"
    body := {
      acts := [
        .opened { orderId := "ORD-1", instrumentId := "AAA", side := .buy, quantity := some ⟨100, 0⟩ } true,
        .placementOpened {
          placementId := "PLC-1", orderId := "ORD-1", connectivityInstanceId := "VENUE-1", quantity := some ⟨100, 0⟩ }] } },
  .report 20 (stepContext "A") (fillOf 100 "V-1" ""),
  .book 40 (userContext "B") {
    orderId := "ORD-1", executionIds := ["EXE-A0"], allocations := [allocationOf 100], handOff := true }]

/-- Then the fill corrected to sixty, and the correction booked. -/
def correctedAndBooked : List BookingCommand := filledAndBooked ++ [
  .report 60 (stepContext "C") (fillOf 60 "V-2" "EXE-A0"),
  .book 80 (userContext "D") {
    orderId := "ORD-1", executionIds := ["EXE-C0"], allocations := [allocationOf 60], handOff := false }]

/-- Whether a live booking counts an execution by one that it lists. -/
def countsNow (book : Book) (bookingId listed executionId : String) : Bool :=
  (book.ledger.bookings[bookingId]?).any fun held =>
    held.state != .cancelled && held.booking.executionIds.contains listed &&
      (book.ledger.asItStands listed).any fun execution => execution.executionId == executionId

theorem countsNow_spec {book : Book} {bookingId listed executionId : String}
    (counts : countsNow book bookingId listed executionId = true) :
    ∃ held, book.ledger.bookings[bookingId]? = some held ∧ held.state ≠ .cancelled ∧
      book.ledger.Counts held executionId := by
  obtain ⟨held, found, counts⟩ := Option.any_eq_true _ _ |>.mp counts
  simp only [Bool.and_eq_true, bne_iff_ne, List.contains_iff_mem] at counts
  obtain ⟨⟨live, member⟩, stands⟩ := counts
  obtain ⟨execution, stands, same⟩ := Option.any_eq_true _ _ |>.mp stands
  exact ⟨held, found, live, listed, member, execution, stands, beq_iff_eq.mp same⟩

theorem filled_and_booked_once :
    ∃ book, Run (fun book command after => command.take book = .ok after) (Book.new "ACC-1" "P-1") filledAndBooked book ∧
      (∃ held, book.ledger.bookings["BKG-B0"]? = some held ∧ held.state ≠ .cancelled ∧
        book.ledger.Counts held "EXE-A0") ∧ BooksOnce book := by
  have computed : (filledAndBooked.foldlM (takeChecked fun book command =>
      command.orderlyNow book && command.countsOnceNow book) (Book.new "ACC-1" "P-1")).toOption.any (fun book =>
        countsNow book "BKG-B0" "EXE-A0" "EXE-A0") = true := by
    decide +kernel
  obtain ⟨book, folded, counts⟩ := answered_of computed
  have run := (Run.of_foldlM folded).imp fun before command after taken =>
    (show (command.Orderly before ∧ command.CountsOnce before) ∧ command.take before = .ok after by
      obtain ⟨checked, taken⟩ := takeChecked_ok taken
      obtain ⟨orderly, once⟩ := Bool.and_eq_true_iff.mp checked
      exact ⟨⟨orderly_of_now orderly, countsOnce_of_now once⟩, taken⟩)
  exact ⟨book, run.forget, countsNow_spec counts, books_once_of_run run⟩

/-- A correction of a fill booked is booked itself, and the two bookings count it. -/
theorem corrected_fill_booked_twice :
    ¬ ∀ (accountId partition : String) (commands : List BookingCommand) (book : Book),
      Run (fun book command after => command.Orderly book ∧ command.take book = .ok after) (Book.new accountId partition)
        commands book → BooksOnce book := by
  intro claim
  have computed : (correctedAndBooked.foldlM (takeChecked fun book command => command.orderlyNow book)
      (Book.new "ACC-1" "P-1")).toOption.any (fun book =>
        countsNow book "BKG-B0" "EXE-A0" "EXE-C0" && countsNow book "BKG-D0" "EXE-C0" "EXE-C0") = true := by
    decide +kernel
  obtain ⟨book, folded, counts⟩ := answered_of computed
  obtain ⟨countsFirst, countsSecond⟩ := Bool.and_eq_true_iff.mp counts
  obtain ⟨first, inFirst, liveFirst, countsFirst⟩ := countsNow_spec countsFirst
  obtain ⟨second, inSecond, liveSecond, countsSecond⟩ := countsNow_spec countsSecond
  have run := (Run.of_foldlM folded).imp fun before command after taken =>
    (show command.Orderly before ∧ command.take before = .ok after from
      ⟨orderly_of_now (takeChecked_ok taken).1, (takeChecked_ok taken).2⟩)
  have same := (claim _ _ _ _ run).once _ _ first second _ inFirst liveFirst inSecond liveSecond countsFirst countsSecond
  exact absurd same (by decide)

end MeridianCore.Bor
