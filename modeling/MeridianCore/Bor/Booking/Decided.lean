import MeridianCore.Bor.Booking.Booked
import MeridianCore.Bor.Booking.Book
import MeridianCore.Bor.OrderDecide.Settling

namespace MeridianCore.Bor

open BookedView

/-- The entry a plan makes: its acts and what settling adds, and what it leaves the bookings held against. -/
theorem view_of_finish {book : Book} {head : Nat} {ctx : Context} {plan : Plan} {act : Made}
    (finished : finish book head ctx plan = .ok act) :
    ∃ more, (∀ each ∈ more, Ledger.SettleAct each) ∧ act.entry.body.acts = plan.acts ++ more ∧
      act.held.ledger.view = book.ledger.view.afterAll act.entry.body.acts := by
  obtain ⟨more, settles, decided⟩ := finish_ok finished
  obtain ⟨applied, -, entry⟩ := made_ok decided
  have acts : act.entry.body.acts = plan.acts ++ more := by
    rw [entry]
    rfl
  refine ⟨more, settles, acts, ?_⟩
  rw [acts]
  exact Book.view_of_applied applied

namespace BookedView
variable {view : BookedView}

/-- Each act calm as it is made. -/
def CalmAll : BookedView → List Act → Prop
  | _, [] => True
  | view, act :: rest => view.Calm act ∧ CalmAll (view.after act) rest

theorem booked_calmAll {acts : List Act} (booked : view.Booked) (calm : view.CalmAll acts) : (view.afterAll acts).Booked := by
  induction acts generalizing view with
  | nil => exact booked
  | cons act rest ih => exact ih (booked_calm booked calm.1) calm.2

/-- An act of a booking's life once opened, or of settling. -/
inductive BookingAct (bookingId : String) : Act → Prop where
  | settles {act : Act} (settles : Ledger.SettleAct act) : BookingAct bookingId act
  | raised (alert : Alert) : BookingAct bookingId (.alertRaised alert)
  | cleared (alertId : String) : BookingAct bookingId (.alertCleared alertId)
  | held (id reason : String) : BookingAct bookingId (.bookingHeld id reason)
  | moved (id reason : String) : BookingAct bookingId (.bookingMoved id reason)
  | handedOff : BookingAct bookingId (.bookingHandedOff bookingId)
  | closed : BookingAct bookingId (.bookingClosed bookingId)

/-- A booking not cancelled. -/
def Uncancelled (view : BookedView) (bookingId : String) : Prop :=
  ∀ held, view.booking bookingId = some held → held.state ≠ .cancelled

theorem calm_bookingAct {bookingId : String} {act : Act} (uncancelled : view.Uncancelled bookingId)
    (acts : BookingAct bookingId act) : view.Calm act := by
  cases acts with
  | settles settles => cases settles <;> exact ⟨trivial, trivial⟩
  | handedOff => exact ⟨uncancelled, trivial⟩
  | closed => exact ⟨uncancelled, trivial⟩
  | _ => exact ⟨trivial, trivial⟩

theorem uncancelled_bookingAct {bookingId : String} {act : Act} (uncancelled : view.Uncancelled bookingId)
    (acts : BookingAct bookingId act) : (view.after act).Uncancelled bookingId := by
  intro after found cancelled
  obtain ⟨held, inView, still⟩ : ∃ held, view.booking bookingId = some held ∧ held.state = .cancelled := by
    change Ledger.bookingAfter bookingId (view.booking bookingId) act = some after at found
    cases acts with
    | settles settles => cases settles <;> exact ⟨after, found, cancelled⟩
    | raised alert =>
      simp only [Ledger.bookingAfter] at found
      split at found
      · split at found
        · obtain ⟨held, inView, rfl⟩ := Option.map_eq_some_iff.mp found
          exact ⟨held, inView, cancelled⟩
        · exact ⟨after, found, cancelled⟩
      · exact ⟨after, found, cancelled⟩
    | cleared alertId =>
      simp only [Ledger.bookingAfter] at found
      obtain ⟨held, inView, rfl⟩ := Option.map_eq_some_iff.mp found
      refine ⟨held, inView, ?_⟩
      split at cancelled <;> exact cancelled
    | held id reason =>
      simp only [Ledger.bookingAfter] at found
      split at found
      · obtain ⟨held, inView, rfl⟩ := Option.map_eq_some_iff.mp found
        dsimp only at cancelled
        split at cancelled
        · cases cancelled
        · exact ⟨held, inView, cancelled⟩
      · exact ⟨after, found, cancelled⟩
    | moved id reason => exact ⟨after, found, cancelled⟩
    | handedOff =>
      simp only [Ledger.bookingAfter, if_true] at found
      obtain ⟨held, inView, rfl⟩ := Option.map_eq_some_iff.mp found
      cases cancelled
    | closed =>
      simp only [Ledger.bookingAfter, if_true] at found
      obtain ⟨held, inView, rfl⟩ := Option.map_eq_some_iff.mp found
      cases cancelled
  exact uncancelled held inView still

theorem calmAll_bookingActs {bookingId : String} {acts : List Act} (uncancelled : view.Uncancelled bookingId)
    (each : ∀ act ∈ acts, BookingAct bookingId act) : view.CalmAll acts := by
  induction acts generalizing view with
  | nil => trivial
  | cons act rest ih =>
    refine ⟨calm_bookingAct uncancelled (each act List.mem_cons_self), ih ?_ fun other member => ?_⟩
    · exact uncancelled_bookingAct uncancelled (each act List.mem_cons_self)
    · exact each other (List.mem_cons_of_mem _ member)

/-- Acts calm on whatever they are made on. -/
theorem calmAll_of_calm {acts : List Act} (each : ∀ act ∈ acts, ∀ view : BookedView, view.Calm act) : view.CalmAll acts := by
  induction acts generalizing view with
  | nil => trivial
  | cons act rest ih =>
    exact ⟨each act List.mem_cons_self view, ih fun other member => each other (List.mem_cons_of_mem _ member)⟩

theorem calm_settles {act : Act} (settles : Ledger.SettleAct act) (view : BookedView) : view.Calm act := by
  cases settles <;> exact ⟨trivial, trivial⟩

end BookedView

namespace Booking

/-- An execution that a booking of an order may list. -/
structure BookableNow (ledger : Ledger) (orderId id : String) (held : ExecutionHeld) : Prop where
  found : ledger.executions[id]? = some held
  under : ledger.top held.execution.orderId = orderId
  matched : held.execution.state = .matched
  unsuperseded : held.supersededBy = none
  counts : held.isBust = false
  unbooked : bookedIn ledger id = none

theorem notBookable_none {ledger : Ledger} {id : String} {held : ExecutionHeld}
    (bookable : notBookable ledger id held = none) : held.execution.state = .matched ∧ held.supersededBy = none ∧
      held.isBust = false ∧ bookedIn ledger id = none := by
  unfold notBookable at bookable
  split at bookable
  · cases bookable
  · next matched =>
    split at bookable
    · cases bookable
    · next superseded =>
      split at bookable
      · cases bookable
      · next counts =>
        exact ⟨not_not.mp matched, superseded, Bool.eq_false_iff.mpr counts, Option.map_eq_none_iff.mp bookable⟩

theorem addBooked_ok {book : Book} {ctx : Context} {orderId id : String} {index : Nat} {seen seen' : List String}
    {first first' : Option Execution}
    (added : addBooked book ctx orderId (seen, first) (id, index) = .ok (seen', first')) :
    id ∉ seen ∧ seen' = id :: seen ∧ ∃ held, BookableNow book.ledger orderId id held := by
  unfold addBooked at added
  obtain ⟨fresh, added⟩ := guard_ok.mp added
  split at added
  · next held found =>
    obtain ⟨under, added⟩ := guard_ok.mp added
    cases bookable : notBookable book.ledger id held with
    | some why =>
      rw [bookable] at added
      cases first <;> cases added
    | none =>
      rw [bookable] at added
      obtain ⟨matched, superseded, counts, unbooked⟩ := notBookable_none bookable
      have bookable : BookableNow book.ledger orderId id held :=
        ⟨found, not_not.mp under, matched, superseded, counts, unbooked⟩
      suffices same : seen' = id :: seen from ⟨fresh, same, held, bookable⟩
      cases first with
      | none =>
        cases added
        rfl
      | some first =>
        obtain ⟨-, added⟩ := guard_ok.mp added
        split at added
        · cases added
        · cases added
          rfl
  · cases added

/-- The executions a booking names, held to what it may book: each once, and each one it may list. -/
theorem booked_foldl {book : Book} {ctx : Context} {orderId : String} {named : List (String × Nat)} {seen : List String}
    {first : Option Execution} {after : List String × Option Execution}
    (added : named.foldlM (addBooked book ctx orderId) (seen, first) = .ok after) :
    (named.map Prod.fst).Nodup ∧ ∀ id ∈ named.map Prod.fst, id ∉ seen ∧ ∃ held, BookableNow book.ledger orderId id held := by
  induction named generalizing seen first with
  | nil => exact ⟨List.nodup_nil, fun id member => absurd member List.not_mem_nil⟩
  | cons entry rest ih =>
    rw [List.foldlM_cons] at added
    obtain ⟨⟨seen', first'⟩, stepped, added⟩ := bind_ok.mp added
    obtain ⟨fresh, rfl, bookable⟩ := addBooked_ok stepped
    obtain ⟨nodup, others⟩ := ih added
    rw [List.map_cons, List.nodup_cons]
    refine ⟨⟨fun again => (others _ again).1 List.mem_cons_self, nodup⟩, fun id member => ?_⟩
    rcases List.mem_cons.mp member with rfl | later
    · exact ⟨fresh, bookable⟩
    · exact ⟨fun earlier => (others id later).1 (List.mem_cons_of_mem _ earlier), (others id later).2⟩

theorem errorAlerts_raised {ctx : Context} {book : Book} {booking : Booking} {act : Act}
    (member : act ∈ errorAlerts ctx book booking) : ∃ alert, act = .alertRaised alert := by
  unfold errorAlerts at member
  obtain ⟨index, inside, rfl⟩ := List.mem_mapIdx.mp member
  exact ⟨_, rfl⟩

/-- What a booking was accepted on: its order held, each execution it names one it may list, its allocations
held to who may receive them and tied out to what was executed; and the entries its plan makes. -/
structure Accepted (book : Book) (head : Nat) (ctx : Context) (request : BookOrderRequest) (act : Made) : Prop where
  order : ∃ order, book.ledger.orders[request.orderId]? = some order
  nodup : request.executionIds.Nodup
  bookable : ∀ id ∈ request.executionIds, ∃ held, BookableNow book.ledger request.orderId id held
  holds : allocationsHold book ctx request.orderId request.allocations = .ok ()
  made : ∃ executed lines made, Bor.executed book ctx request.executionIds = .ok executed ∧
    tiesOut executed request.allocations = .ok none ∧
    bookingLines book ctx executed request.executionIds (minted ctx executed request.allocations) [] = .ok lines ∧
    finish book head ctx (bookingPlan book ctx (bookingOf book ctx request executed) executed lines) = .ok made ∧
    (act = made ∨
      finish book head ctx { bookingPlan book ctx (bookingOf book ctx request executed) executed lines with
        acts := made.entry.body.acts ++ [.bookingHandedOff (ctx.minted "BKG" 0)]
        lines := made.entry.body.lines } = .ok act)

theorem bookOrder_ok {book : Book} {head : Nat} {ctx : Context} {request : BookOrderRequest} {act : Made}
    (decided : bookOrder book head ctx request = .ok act) : Accepted book head ctx request act := by
  unfold bookOrder at decided
  obtain ⟨-, -, decided⟩ := bind_ok.mp decided
  obtain ⟨-, -, decided⟩ := bind_ok.mp decided
  obtain ⟨order, held, decided⟩ := bind_ok.mp decided
  obtain ⟨-, decided⟩ := guard_ok.mp decided
  obtain ⟨after, named, decided⟩ := bind_ok.mp decided
  obtain ⟨⟨⟩, holds, decided⟩ := bind_ok.mp decided
  obtain ⟨executed, summed, decided⟩ := bind_ok.mp decided
  obtain ⟨ties, tied, decided⟩ := bind_ok.mp decided
  have inOrders : ∃ order, book.ledger.orders[request.orderId]? = some order := by
    unfold heldOrder at held
    split at held
    · exact ⟨_, ‹_›⟩
    · cases held
  obtain ⟨nodup, bookable⟩ := booked_foldl named
  have names : request.executionIds.zipIdx.map Prod.fst = request.executionIds := List.zipIdx_map_fst ..
  rw [names] at nodup bookable
  refine ⟨inOrders, nodup, fun id member => (bookable id member).2, holds, executed, ?_⟩
  cases ties with
  | some words => cases decided
  | none =>
    obtain ⟨lines, moved, decided⟩ := bind_ok.mp decided
    obtain ⟨made, finished, decided⟩ := bind_ok.mp decided
    refine ⟨lines, made, summed, tied, moved, finished, ?_⟩
    split at decided
    · cases decided
      exact Or.inl rfl
    · obtain ⟨checked, -, decided⟩ := bind_ok.mp decided
      cases checked with
      | some words =>
        cases decided
        exact Or.inl rfl
      | none => exact Or.inr decided

/-- What a booking's entry does: the booking opened, then acts of its life. -/
theorem acts_of_bookOrder {book : Book} {head : Nat} {ctx : Context} {request : BookOrderRequest} {act : Made}
    (accepted : Accepted book head ctx request act) :
    ∃ booking lines rest, booking.orderId = request.orderId ∧ booking.executionIds = request.executionIds ∧
      act.entry.body.acts = .bookingOpened booking lines :: rest ∧
      (∀ each ∈ rest, BookingAct booking.bookingId each) ∧
      act.held.ledger.view = book.ledger.view.afterAll act.entry.body.acts := by
  obtain ⟨executed, lines, made, -, -, -, finished, act⟩ := accepted.made
  let booking := bookingOf book ctx request executed
  obtain ⟨more, settles, acts, viewed⟩ := view_of_finish finished
  have each : ∀ each ∈ errorAlerts ctx book booking ++ more, BookingAct booking.bookingId each := by
    intro each member
    rcases List.mem_append.mp member with raised | settled
    · obtain ⟨alert, rfl⟩ := errorAlerts_raised raised
      exact .raised alert
    · exact .settles (settles each settled)
  rcases act with rfl | finishedAgain
  · exact ⟨booking, _, _, rfl, rfl, acts, each, viewed⟩
  · obtain ⟨again, settlesAgain, actsAgain, viewedAgain⟩ := view_of_finish finishedAgain
    dsimp only at actsAgain
    rw [acts, bookingPlan, List.cons_append, List.cons_append, List.cons_append] at actsAgain
    refine ⟨booking, _, _, rfl, rfl, actsAgain, fun act member => ?_, viewedAgain⟩
    rcases List.mem_append.mp member with before | settled
    · rcases List.mem_append.mp before with before | handed
      · exact each act before
      · cases List.mem_singleton.mp handed
        exact .handedOff
    · exact .settles (settlesAgain act settled)

theorem heldBooking_ok {book : Book} {bookingId : String} {held : BookingHeld}
    (found : heldBooking book bookingId = .ok held) : book.ledger.bookings[bookingId]? = some held := by
  unfold heldBooking at found
  split at found
  · cases found
    assumption
  · cases found

theorem alertCleared_cleared {held : BookingHeld} {act : Act} (member : act ∈ alertCleared held) :
    act = .alertCleared held.heldAlert := by
  unfold alertCleared at member
  split at member
  · cases member
  · exact List.mem_singleton.mp member

/-- What a hand-off's or a closing's entry does: acts of the life of a booking not cancelled. -/
theorem acts_of_handOff {book : Book} {head : Nat} {ctx : Context} {request : HandOffBookingRequest} {act : Made}
    (decided : handOffBooking book head ctx request = .ok act) :
    (∃ held, book.ledger.bookings[request.bookingId]? = some held ∧ held.state ≠ .cancelled) ∧
      (∀ each ∈ act.entry.body.acts, BookingAct request.bookingId each) ∧
      act.held.ledger.view = book.ledger.view.afterAll act.entry.body.acts := by
  unfold handOffBooking at decided
  obtain ⟨-, -, decided⟩ := bind_ok.mp decided
  obtain ⟨-, -, decided⟩ := bind_ok.mp decided
  obtain ⟨held, found, decided⟩ := bind_ok.mp decided
  obtain ⟨starts, decided⟩ := guard_ok.mp decided
  obtain ⟨booking, -, decided⟩ := bind_ok.mp decided
  obtain ⟨checked, -, decided⟩ := bind_ok.mp decided
  obtain ⟨-, decided⟩ := guard_ok.mp decided
  obtain ⟨more, settles, acts, viewed⟩ := view_of_finish decided
  refine ⟨⟨held, heldBooking_ok found, fun cancelled => ?_⟩, fun each member => ?_, viewed⟩
  · rw [cancelled] at starts
    exact starts (by decide)
  · rw [acts] at member
    rcases List.mem_append.mp member with own | settled
    · cases checked with
      | none =>
        dsimp only at own
        split at own
        · rcases List.mem_append.mp own with cleared | closed
          · exact alertCleared_cleared cleared ▸ .cleared _
          · exact List.mem_singleton.mp closed ▸ .closed
        · rcases List.mem_append.mp own with cleared | handedOff
          · exact alertCleared_cleared cleared ▸ .cleared _
          · exact List.mem_singleton.mp handedOff ▸ .handedOff
      | some reason =>
        dsimp only at own
        rcases List.mem_cons.mp own with rfl | raised
        · exact .held _ _
        · split at raised
          · cases List.mem_singleton.mp raised
            exact .raised _
          · cases raised
    · exact .settles (settles each settled)

/-- What a correction's entry does: it revives no booking, and changes what none lists. -/
theorem acts_of_correct {book : Book} {head : Nat} {ctx : Context} {request : CorrectBookingRequest} {act : Made}
    (decided : correctBooking book head ctx request = .ok act) :
    (∀ each ∈ act.entry.body.acts, ∀ view : BookedView, view.Calm each) ∧
      act.held.ledger.view = book.ledger.view.afterAll act.entry.body.acts := by
  unfold correctBooking at decided
  obtain ⟨-, -, decided⟩ := bind_ok.mp decided
  obtain ⟨-, decided⟩ := guard_ok.mp decided
  obtain ⟨-, -, decided⟩ := bind_ok.mp decided
  obtain ⟨held, found, decided⟩ := bind_ok.mp decided
  have finished {plan : Plan} (finished : finish book head ctx plan = .ok act)
      (each : ∀ each ∈ plan.acts, ∀ view : BookedView, view.Calm each) :
      (∀ each ∈ act.entry.body.acts, ∀ view : BookedView, view.Calm each) ∧
        act.held.ledger.view = book.ledger.view.afterAll act.entry.body.acts := by
    obtain ⟨more, settles, acts, viewed⟩ := view_of_finish finished
    refine ⟨fun other member => ?_, viewed⟩
    rw [acts] at member
    rcases List.mem_append.mp member with own | settled
    · exact each other own
    · exact calm_settles (settles other settled)
  split at decided
  · unfold cancelBooking at decided
    obtain ⟨-, decided⟩ := guard_ok.mp decided
    obtain ⟨negated, -, decided⟩ := bind_ok.mp decided
    obtain ⟨lines, -, decided⟩ := bind_ok.mp decided
    refine finished decided fun each member view => ?_
    rcases List.mem_append.mp member with cleared | cancelled
    · cases alertCleared_cleared cleared
      exact ⟨trivial, trivial⟩
    · cases List.mem_singleton.mp cancelled
      exact ⟨trivial, trivial⟩
  · unfold replaceBooking at decided
    obtain ⟨-, decided⟩ := guard_ok.mp decided
    obtain ⟨-, -, decided⟩ := bind_ok.mp decided
    obtain ⟨executed, -, decided⟩ := bind_ok.mp decided
    obtain ⟨ties, -, decided⟩ := bind_ok.mp decided
    cases ties with
    | some words => cases decided
    | none =>
      obtain ⟨-, decided⟩ := guard_ok.mp decided
      obtain ⟨negated, -, decided⟩ := bind_ok.mp decided
      obtain ⟨reversed, -, decided⟩ := bind_ok.mp decided
      obtain ⟨lines, -, decided⟩ := bind_ok.mp decided
      refine finished decided fun each member view => ?_
      rcases List.mem_cons.mp member with rfl | raised
      · exact ⟨trivial, trivial⟩
      · obtain ⟨alert, rfl⟩ := errorAlerts_raised raised
        exact ⟨trivial, trivial⟩
  · cases decided

end Booking

end MeridianCore.Bor
