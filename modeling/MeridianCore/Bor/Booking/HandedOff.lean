import MeridianCore.Bor.Booking.BookedOnce
import MeridianCore.Bor.OrderDecide.Standing

namespace MeridianCore.Bor

/-- An act that opens no booking under an empty identifier. -/
def OpensNamed (act : Act) : Prop := ∀ booking lines, act = .bookingOpened booking lines → booking.bookingId ≠ ""

/-- One more entry: finished from a plan, its bookings opened under identifiers minted, or made of acts that leave every
order as it stands. -/
inductive Entered (book : Book) : Book → Prop where
  | finished {head : Nat} {ctx : Context} {plan : Plan} {act : Made} (made : finish book head ctx plan = .ok act)
      (named : ∀ each ∈ act.entry.body.acts, OpensNamed each) : Entered book act.held
  | drafted {head : Nat} {ctx : Context} {draft : Draft} {act : Made}
      (leave : ∀ act ∈ draft.body.acts, LeavesOrders act) (made : Bor.made book head ctx draft = .ok act) :
      Entered book act.held

/-- A book entries lead an empty account to. -/
def Reached (book : Book) : Prop :=
  ∃ accountId partition, Relation.ReflTransGen Entered (Book.new accountId partition) book

namespace BookedView

/-- Every booking is held under its own identifier. -/
def Keyed (view : BookedView) : Prop :=
  ∀ id held, view.booking id = some held → held.booking.bookingId = id ∧ id ≠ ""

/-- An act leaves a booking the identifier it had, or opens it under its own. -/
theorem bookingId_after (id : String) (before : Option BookingHeld) (act : Act) :
    (Ledger.bookingAfter id before act).map (fun held => held.booking.bookingId) =
        before.map (fun held => held.booking.bookingId) ∨
      (Ledger.bookingAfter id before act).map (fun held => held.booking.bookingId) = some id ∧
        ∃ booking lines, act = .bookingOpened booking lines ∧ booking.bookingId = id := by
  cases act with
  | bookingOpened booking lines =>
    simp only [Ledger.bookingAfter]
    split
    next same => exact .inr ⟨congrArg some same, booking, lines, rfl, same⟩
    · exact .inl rfl
  | alertRaised alert =>
    left
    simp only [Ledger.bookingAfter]
    split
    · split <;> cases before <;> rfl
    · rfl
  | alertCleared alertId =>
    left
    cases before with
    | none => rfl
    | some held =>
      simp only [Ledger.bookingAfter, Option.map_some]
      split <;> rfl
  | _ =>
    left
    simp only [Ledger.bookingAfter]
    try (split <;> cases before <;> rfl)

theorem keyed_after {view : BookedView} (keyed : view.Keyed) {act : Act} (opens : OpensNamed act) :
    (view.after act).Keyed := by
  intro id held found
  have named : (Ledger.bookingAfter id (view.booking id) act).map (fun held => held.booking.bookingId) =
      some held.booking.bookingId := congrArg (Option.map fun held => held.booking.bookingId) found
  rcases bookingId_after id (view.booking id) act with same | ⟨opened, booking, lines, isOpened, same⟩
  · rw [named] at same
    obtain ⟨before, was, same⟩ := Option.map_eq_some_iff.mp same.symm
    exact ⟨same.symm.trans (keyed id before was).1, (keyed id before was).2⟩
  · exact ⟨Option.some.inj (named.symm.trans opened), same ▸ opens booking lines isOpened⟩

theorem keyed_afterAll {view : BookedView} (keyed : view.Keyed) {acts : List Act} (open' : ∀ act ∈ acts, OpensNamed act) :
    (view.afterAll acts).Keyed := by
  induction acts generalizing view with
  | nil => exact keyed
  | cons act rest ih =>
    exact ih (keyed_after keyed (open' act List.mem_cons_self)) fun other member => open' other (List.mem_cons_of_mem _ member)

end BookedView

theorem opensNamed_leaves {act : Act} (leaves : LeavesOrders act) : OpensNamed act := by
  rintro booking lines rfl
  exact leaves.elim

/-- What every book reached keeps: each pending end has something to wait on, and each booking its identifier. -/
structure Orderly (book : Book) : Prop where
  settled : book.ledger.Settled
  keyed : book.ledger.view.Keyed

theorem orderly_entered {book after : Book} (orderly : Orderly book) (entered : Entered book after) : Orderly after := by
  cases entered with
  | finished made named =>
    obtain ⟨more, -, -, viewed⟩ := view_of_finish made
    refine ⟨settled_of_finish made, ?_⟩
    rw [viewed]
    exact BookedView.keyed_afterAll orderly.keyed named
  | drafted leave made =>
    obtain ⟨applied, -, -⟩ := made_ok made
    constructor
    · have alike := (book.ledger.live_leaves_all leave).trans (Book.live_of_applied applied)
      exact Ledger.settled_of_live alike orderly.settled
    · have viewed := Book.view_of_applied applied
      change (Made.book _).ledger.view.Keyed
      rw [viewed]
      exact BookedView.keyed_afterAll orderly.keyed fun each member => opensNamed_leaves (leave each member)

theorem Reached.orderly {book : Book} (reached : Reached book) : Orderly book := by
  obtain ⟨accountId, partition, entries⟩ := reached
  induction entries with
  | refl =>
    constructor
    · intro orderId held state found
      simp [Book.new] at found
    · intro id held found
      simp [Ledger.view, Book.new] at found
  | tail _ entered ih => exact orderly_entered ih entered

namespace Booking

/-- What is left of a booking's instrument in an allocation account: nothing, else the words naming it. -/
def leftBehind (book : Book) (held : BookingHeld) : Result (Option String) := do
  if ¬ (attributesOf book).allocationAccount then return none
  let instrument := match book.ledger.executions[held.booking.executionIds.headD ""]? with
    | some first => first.execution.instrumentId
    | none => ""
  let account := book.accountId
  match ← firstHeld instrument book.positions.toList with
  | some quantity => return some s!"allocation account {account} still holds {quantity} of {instrument} after booking"
  | none => return none

/-- Whether a booking ties out as its executions stand now, with nothing left behind: none where it does, else why
not. What it was held for is not asked. -/
def tiesOutNow (book : Book) (ctx : Context) (held : BookingHeld) : Result (Option String) := do
  let executed ← executed book ctx held.booking.executionIds
  match ← tiesOut executed held.booking.allocations with
  | some words => return some words
  | none => leftBehind book held

/-- A booking handed off, or closed: no alert stands for it. -/
structure HandedOver (book : Book) (request : HandOffBookingRequest) (held : BookingHeld) (act : Made) : Prop where
  booking : ∃ after, act.held.ledger.bookings[request.bookingId]? = some after ∧
    after.state = (if request.close then .closed else .handedOff) ∧ after.heldAlert = ""
  cleared : held.heldAlert ≠ "" → ∀ alert, book.ledger.alerts[held.heldAlert]? = some alert →
    ∃ after, act.held.ledger.alerts[held.heldAlert]? = some after ∧ after.state = .cleared

/-- Whether an act raises an alert. -/
def raises : Act → Bool
  | .alertRaised _ => true
  | _ => false

/-- A booking left held, by one alert: the one that stood for it, or the one its entry raises. -/
structure LeftHeld (ctx : Context) (request : HandOffBookingRequest) (held : BookingHeld) (act : Made) : Prop where
  booking : ∃ after, act.held.ledger.bookings[request.bookingId]? = some after ∧ after.state = .held ∧
    after.heldAlert = if held.heldAlert = "" then ctx.minted "ALR" 0 else held.heldAlert
  raised : held.heldAlert = "" →
    ∃ alert, act.held.ledger.alerts[ctx.minted "ALR" 0]? = some alert ∧ alert.state = .raised
  once : act.entry.body.acts.countP raises = if held.heldAlert = "" then 1 else 0

/-- What the hand-off's rows make of a command on a booking held: one booked or held is handed off where it ties out now
and left held where it does not, and one in any other state is refused. -/
def HandOffRows (book : Book) (head : Nat) (ctx : Context) (request : HandOffBookingRequest) (held : BookingHeld) : Prop :=
  if held.state = .booked ∨ held.state = .held then
    match tiesOutNow book ctx held with
    | .ok none => ∃ act, handOffBooking book head ctx request = .ok act ∧ HandedOver book request held act
    | .ok (some _) => ∃ act, handOffBooking book head ctx request = .ok act ∧ LeftHeld ctx request held act
    | .error _ => ∀ act, handOffBooking book head ctx request = .ok act → LeftHeld ctx request held act
  else ∃ refusal, handOffBooking book head ctx request = .error refusal

section
variable {book : Book} {head : Nat} {ctx : Context} {request : HandOffBookingRequest} {held : BookingHeld}

/-- The check reads a booking's stored reason between its tie-out and what is left behind. -/
theorem handOffCheck_eq (found : book.ledger.bookings[request.bookingId]? = some held) :
    handOffCheck book ctx request.bookingId = (do
      let executed ← executed book ctx held.booking.executionIds
      match ← tiesOut executed held.booking.allocations with
      | some words => return some words
      | none =>
        if held.heldReason ≠ "" ∧ held.state = .held then return some held.heldReason
        else leftBehind book held) := by
  unfold handOffCheck
  rw [found]
  simp only [bind, Except.bind, pure, Except.pure]
  cases executed book ctx held.booking.executionIds with
  | error out => rfl
  | ok sums =>
    dsimp only
    cases tiesOut sums held.booking.allocations with
    | error out => rfl
    | ok ties =>
      cases ties with
      | some words => rfl
      | none => rfl

/-- Where no stored reason keeps it, the check is whether the booking ties out now. -/
theorem handOffCheck_of_unkept (found : book.ledger.bookings[request.bookingId]? = some held)
    (unkept : ¬ (held.heldReason ≠ "" ∧ held.state = .held)) :
    handOffCheck book ctx request.bookingId = tiesOutNow book ctx held := by
  rw [handOffCheck_eq found]
  unfold tiesOutNow
  simp only [if_neg unkept]

/-- Where a stored reason keeps it, a booking that ties out does not pass. -/
theorem handOffCheck_of_kept (found : book.ledger.bookings[request.bookingId]? = some held)
    (kept : held.heldReason ≠ "" ∧ held.state = .held) {answer : Option String}
    (checked : handOffCheck book ctx request.bookingId = .ok answer) : ∃ words, answer = some words := by
  rw [handOffCheck_eq found] at checked
  obtain ⟨sums, -, checked⟩ := bind_ok.mp checked
  obtain ⟨ties, -, checked⟩ := bind_ok.mp checked
  cases ties with
  | some words =>
    cases checked
    exact ⟨words, rfl⟩
  | none =>
    simp only [if_pos kept] at checked
    cases checked
    exact ⟨_, rfl⟩

/-- A booking that does not tie out is read so, whatever it was held for. -/
theorem handOffCheck_of_words (found : book.ledger.bookings[request.bookingId]? = some held) {words : String}
    (ties : tiesOutNow book ctx held = .ok (some words)) :
    ∃ words, handOffCheck book ctx request.bookingId = .ok (some words) := by
  rw [handOffCheck_eq found]
  unfold tiesOutNow at ties
  obtain ⟨sums, summed, ties⟩ := bind_ok.mp ties
  obtain ⟨tied, read, ties⟩ := bind_ok.mp ties
  rw [summed]
  simp only [bind, Except.bind, read]
  cases tied with
  | some words => exact ⟨words, rfl⟩
  | none =>
    dsimp only at ties ⊢
    split
    · exact ⟨_, rfl⟩
    · exact ⟨words, ties⟩

/-- A hand-off by a user its account is open to, of a booking booked or held, finishes what its check answers. -/
theorem handOff_eq_finish (user : userRequired ctx "handing a booking off" = .ok ()) (scope : inScope ctx book.accountId = .ok ())
    (found : book.ledger.bookings[request.bookingId]? = some held) (waits : held.state = .booked ∨ held.state = .held)
    {answer : Option String} (checked : handOffCheck book ctx request.bookingId = .ok answer) :
    handOffBooking book head ctx request =
      let acted := handOffActs book ctx request held
        { held.booking with state := held.state, heldReason := held.heldReason } answer
      finish book head ctx { kind := acted.1, actor := ctx.actor, acts := acted.2.2 } := by
  have starts : held.state ∈ handOffRow.starts := by
    rcases waits with booked | kept
    · rw [booked]
      decide
    · rw [kept]
      decide
  have inBook : heldBooking book request.bookingId = .ok held := by
    unfold heldBooking
    rw [found]
  have record : book.ledger.bookingRecord request.bookingId =
      .ok { held.booking with state := held.state, heldReason := held.heldReason } := by
    unfold Ledger.bookingRecord
    rw [found]
  unfold handOffBooking
  rw [user, scope, inBook]
  simp only [bind, Except.bind, record, checked, if_neg (not_not.mpr starts)]
  refine if_neg ?_
  rintro ⟨unheld, -, unreached⟩
  refine unreached ?_
  cases answer with
  | none =>
    unfold handOffActs
    dsimp only
    split
    · change BookingState.closed ∈ handOffRow.reaches
      decide
    · change BookingState.handedOff ∈ handOffRow.reaches
      decide
  | some reason =>
    change BookingState.held ∈ heldRow.reaches
    decide

theorem handOff_error (user : userRequired ctx "handing a booking off" = .ok ()) (scope : inScope ctx book.accountId = .ok ())
    (found : book.ledger.bookings[request.bookingId]? = some held) (other : ¬ (held.state = .booked ∨ held.state = .held)) :
    ∃ refusal, handOffBooking book head ctx request = .error refusal := by
  have starts : held.state ∉ handOffRow.starts := by
    simpa [handOffRow] using other
  have inBook : heldBooking book request.bookingId = .ok held := by
    unfold heldBooking
    rw [found]
  unfold handOffBooking
  rw [user, scope, inBook]
  simp only [bind, Except.bind, if_pos starts]
  exact ⟨_, rfl⟩

/-- A hand-off that makes an entry read its check. -/
theorem checked_of_made (found : book.ledger.bookings[request.bookingId]? = some held) {act : Made}
    (made : handOffBooking book head ctx request = .ok act) :
    ∃ answer, handOffCheck book ctx request.bookingId = .ok answer := by
  unfold handOffBooking at made
  obtain ⟨-, -, made⟩ := bind_ok.mp made
  obtain ⟨-, -, made⟩ := bind_ok.mp made
  obtain ⟨held', -, made⟩ := bind_ok.mp made
  obtain ⟨-, made⟩ := guard_ok.mp made
  obtain ⟨booking, -, made⟩ := bind_ok.mp made
  obtain ⟨answer, checked, -⟩ := bind_ok.mp made
  exact ⟨answer, checked⟩

/-- The acts of a hand-off leave every order as it stands. -/
theorem leavesOrders_handOffActs {booking : Booking} {answer : Option String} {each : Act}
    (member : each ∈ (handOffActs book ctx request held booking answer).2.2) : LeavesOrders each := by
  unfold handOffActs at member
  cases answer with
  | none =>
    dsimp only at member
    split at member
    · rcases List.mem_append.mp member with cleared | closed
      · rw [alertCleared_cleared cleared]
        trivial
      · rw [List.mem_singleton.mp closed]
        trivial
    · rcases List.mem_append.mp member with cleared | handed
      · rw [alertCleared_cleared cleared]
        trivial
      · rw [List.mem_singleton.mp handed]
        trivial
  | some reason =>
    rcases List.mem_cons.mp member with rfl | raised
    · trivial
    · split at raised
      · rw [List.mem_singleton.mp raised]
        trivial
      · cases raised

theorem touched_handOffActs (named : request.bookingId ≠ "") (booking : Booking) (answer : Option String) :
    (book.ledger.touched (handOffActs book ctx request held booking answer).2.2).bookings ≠ [] := by
  have bookings : (book.ledger.touched (handOffActs book ctx request held booking answer).2.2).bookings =
      [request.bookingId] := by
    unfold handOffActs alertCleared heldAlert
    cases answer with
    | none =>
      dsimp only
      split <;> split <;> simp [Ledger.touched, Touched.act, Touched.booking, Touched.alert, pushOnce, named]
    | some reason =>
      dsimp only
      split <;> simp [Ledger.touched, Touched.act, Touched.booking, Touched.alert, pushOnce, named]
  rw [bookings]
  exact List.cons_ne_nil _ _

/-- A hand-off whose check answers makes its entry. -/
theorem handOff_made (orderly : Orderly book) (user : userRequired ctx "handing a booking off" = .ok ())
    (scope : inScope ctx book.accountId = .ok ()) (found : book.ledger.bookings[request.bookingId]? = some held)
    (waits : held.state = .booked ∨ held.state = .held) {answer : Option String}
    (checked : handOffCheck book ctx request.bookingId = .ok answer) :
    ∃ act, handOffBooking book head ctx request = .ok act ∧
      act.entry.body.acts = (handOffActs book ctx request held
        { held.booking with state := held.state, heldReason := held.heldReason } answer).2.2 ∧
      act.held.ledger.view = book.ledger.view.afterAll act.entry.body.acts := by
  rw [handOff_eq_finish user scope found waits checked]
  have named := (orderly.keyed request.bookingId held.bare (congrArg (Option.map _) found)).2
  obtain ⟨act, made, acts⟩ := @finish_of_leaves book head ctx
    { kind := (handOffActs book ctx request held
        { held.booking with state := held.state, heldReason := held.heldReason } answer).1
      actor := ctx.actor
      acts := (handOffActs book ctx request held
        { held.booking with state := held.state, heldReason := held.heldReason } answer).2.2 }
    orderly.settled rfl (fun _ => leavesOrders_handOffActs) (touched_handOffActs named _ _)
  obtain ⟨more, -, -, viewed⟩ := view_of_finish made
  exact ⟨act, made, acts, viewed⟩

theorem booking_of_view {ledger : Ledger} {id : String} {bare : BookingHeld} (viewed : ledger.view.booking id = some bare) :
    ∃ after, ledger.bookings[id]? = some after ∧ after.state = bare.state ∧ after.heldAlert = bare.heldAlert := by
  obtain ⟨after, found, rfl⟩ := Option.map_eq_some_iff.mp viewed
  exact ⟨after, found, rfl, rfl⟩

theorem alert_of_view {ledger : Ledger} {id : String} {bare : Alert} (viewed : ledger.view.alert id = some bare) :
    ∃ after, ledger.alerts[id]? = some after ∧ after.state = bare.state := by
  obtain ⟨after, found, rfl⟩ := Option.map_eq_some_iff.mp viewed
  exact ⟨after, found, rfl⟩

/-- The acts of a hand-off that passes hand the booking off, and clear the alert that stood for it. -/
theorem handedOver_of_acts {act : Made} {booking : Booking} (found : book.ledger.bookings[request.bookingId]? = some held)
    (acts : act.entry.body.acts = (handOffActs book ctx request held booking none).2.2)
    (viewed : act.held.ledger.view = book.ledger.view.afterAll act.entry.body.acts) : HandedOver book request held act := by
  have start : book.ledger.view.booking request.bookingId = some held.bare := congrArg (Option.map _) found
  have clears : (alertCleared held).foldl (Ledger.bookingAfter request.bookingId) (some held.bare) =
      some { held.bare with heldAlert := "" } := by
    unfold alertCleared
    split
    next none' => exact congrArg (fun alert => some { held.bare with heldAlert := alert }) none'
    · simp [Ledger.bookingAfter, BookingHeld.bare]
  constructor
  · have after : act.held.ledger.view.booking request.bookingId =
        some { held.bare with
          heldAlert := "", heldReason := "", state := if request.close then .closed else .handedOff } := by
      rw [viewed, BookedView.booking_afterAll, acts, start]
      unfold handOffActs
      dsimp only
      split
      next closes =>
        rw [List.foldl_append, clears]
        simp [Ledger.bookingAfter, closes]
      next hands =>
        rw [List.foldl_append, clears]
        simp [Ledger.bookingAfter, hands]
    obtain ⟨after, there, state, alert⟩ := booking_of_view after
    exact ⟨after, there, state, alert⟩
  · intro stood alert inLedger
    have before : book.ledger.view.alert held.heldAlert = some (Ledger.bareAlert alert) := congrArg (Option.map _) inLedger
    have after : act.held.ledger.view.alert held.heldAlert = some { Ledger.bareAlert alert with state := .cleared } := by
      rw [viewed, BookedView.alert_afterAll, acts, before]
      unfold handOffActs alertCleared
      rw [if_neg stood]
      dsimp only
      split <;> simp [Ledger.alertAfter]
    obtain ⟨cleared, there, state⟩ := alert_of_view after
    exact ⟨cleared, there, state⟩

/-- The acts of a hand-off that does not pass leave the booking held, by one alert. -/
theorem leftHeld_of_acts {act : Made} {reason : String} (orderly : Orderly book)
    (found : book.ledger.bookings[request.bookingId]? = some held) (waits : held.state = .booked ∨ held.state = .held)
    (acts : act.entry.body.acts = (handOffActs book ctx request held
      { held.booking with state := held.state, heldReason := held.heldReason } (some reason)).2.2)
    (viewed : act.held.ledger.view = book.ledger.view.afterAll act.entry.body.acts) : LeftHeld ctx request held act := by
  have start : book.ledger.view.booking request.bookingId = some held.bare := congrArg (Option.map _) found
  have keyed : held.booking.bookingId = request.bookingId := (orderly.keyed request.bookingId held.bare start).1
  have state : (if held.bare.state = .booked then BookingState.held else held.bare.state) = .held := by
    change (if held.state = .booked then BookingState.held else held.state) = .held
    rcases waits with booked | kept
    · rw [if_pos booked]
    · rw [kept]
      rfl
  constructor
  · have after : act.held.ledger.view.booking request.bookingId =
        some { held.bare with
          heldReason := reason, state := .held
          heldAlert := if held.heldAlert = "" then ctx.minted "ALR" 0 else held.heldAlert } := by
      rw [viewed, BookedView.booking_afterAll, acts, start]
      unfold handOffActs
      dsimp only
      split
      next none' => simp [Ledger.bookingAfter, heldAlert, keyed, state]
      next stood =>
        simp only [List.foldl_cons, List.foldl_nil, Ledger.bookingAfter, if_true, Option.map_some, state]
        rfl
    obtain ⟨after, there, state, alert⟩ := booking_of_view after
    exact ⟨after, there, state, alert⟩
  · intro none'
    obtain ⟨alert, after, raised⟩ : ∃ alert, act.held.ledger.view.alert (ctx.minted "ALR" 0) = some alert ∧
        alert.state = .raised := by
      rw [viewed, BookedView.alert_afterAll, acts]
      unfold handOffActs heldAlert
      dsimp only
      rw [if_pos none']
      simp only [List.foldl_cons, List.foldl_nil, Ledger.alertAfter, if_true]
      exact ⟨_, rfl, rfl⟩
    obtain ⟨raised', there, same⟩ := alert_of_view after
    exact ⟨raised', there, same.trans raised⟩
  · rw [acts]
    unfold handOffActs heldAlert
    dsimp only
    split <;> rfl

/-- A hand-off whose check answers why not leaves the booking held. -/
theorem handOff_leaves_held (orderly : Orderly book) (user : userRequired ctx "handing a booking off" = .ok ())
    (scope : inScope ctx book.accountId = .ok ()) (found : book.ledger.bookings[request.bookingId]? = some held)
    (waits : held.state = .booked ∨ held.state = .held) {reason : String}
    (checked : handOffCheck book ctx request.bookingId = .ok (some reason)) :
    ∃ act, handOffBooking book head ctx request = .ok act ∧ LeftHeld ctx request held act := by
  obtain ⟨act, made, acts, viewed⟩ := @handOff_made book head ctx request held orderly user scope found waits _ checked
  exact ⟨act, made, leftHeld_of_acts orderly found waits acts viewed⟩

/-- A booking held for a reason stored is never handed off, though it ties out. -/
theorem not_handOffRows_of_kept (orderly : Orderly book) (user : userRequired ctx "handing a booking off" = .ok ())
    (scope : inScope ctx book.accountId = .ok ()) (found : book.ledger.bookings[request.bookingId]? = some held)
    (kept : held.state = .held) (reason : held.heldReason ≠ "") (ties : tiesOutNow book ctx held = .ok none) :
    ¬ HandOffRows book head ctx request held := by
  intro rows
  unfold HandOffRows at rows
  rw [if_pos (.inr kept), ties] at rows
  obtain ⟨act, made, handed⟩ := rows
  obtain ⟨answer, checked⟩ := checked_of_made found made
  obtain ⟨words, rfl⟩ := handOffCheck_of_kept found ⟨reason, kept⟩ checked
  obtain ⟨act', made', leftHeld⟩ := handOff_leaves_held orderly user scope found (.inr kept) checked
  cases made.symm.trans made'
  obtain ⟨after, there, state, -⟩ := handed.booking
  obtain ⟨after', there', state', -⟩ := leftHeld.booking
  cases there.symm.trans there'
  rw [state] at state'
  split at state' <;> cases state'

/-- A hand-off of a booking a reached book holds, by a user its account is open to, is what its rows say exactly where
the booking was not held for a reason that no longer keeps it from tying out. -/
theorem handOffRows_iff (reached : Reached book) (user : userRequired ctx "handing a booking off" = .ok ())
    (scope : inScope ctx book.accountId = .ok ()) (found : book.ledger.bookings[request.bookingId]? = some held) :
    HandOffRows book head ctx request held ↔
      ¬ (held.state = .held ∧ held.heldReason ≠ "" ∧ tiesOutNow book ctx held = .ok none) := by
  have orderly := reached.orderly
  by_cases waits : held.state = .booked ∨ held.state = .held
  · cases ties : tiesOutNow book ctx held with
    | error out =>
      refine ⟨fun _ => by simp, fun _ => ?_⟩
      unfold HandOffRows
      rw [if_pos waits, ties]
      intro act made
      obtain ⟨answer, checked⟩ := checked_of_made found made
      by_cases kept : held.heldReason ≠ "" ∧ held.state = .held
      · obtain ⟨words, rfl⟩ := handOffCheck_of_kept found kept checked
        obtain ⟨act', made', leftHeld⟩ := @handOff_leaves_held book head ctx request held orderly user scope found waits _ checked
        cases made.symm.trans made'
        exact leftHeld
      · rw [handOffCheck_of_unkept found kept, ties] at checked
        cases checked
    | ok answer =>
      cases answer with
      | some words =>
        refine ⟨fun _ => by simp, fun _ => ?_⟩
        unfold HandOffRows
        rw [if_pos waits, ties]
        obtain ⟨words', checked⟩ := handOffCheck_of_words found ties
        exact handOff_leaves_held orderly user scope found waits checked
      | none =>
        constructor
        · rintro rows ⟨kept, reason, -⟩
          exact not_handOffRows_of_kept orderly user scope found kept reason ties rows
        · intro unkept
          have checked : handOffCheck book ctx request.bookingId = .ok none := by
            rw [handOffCheck_of_unkept found fun kept => unkept ⟨kept.2, kept.1, rfl⟩]
            exact ties
          obtain ⟨act, made, acts, viewed⟩ := @handOff_made book head ctx request held orderly user scope found waits _ checked
          unfold HandOffRows
          rw [if_pos waits, ties]
          exact ⟨act, made, handedOver_of_acts found acts viewed⟩
  · unfold HandOffRows
    rw [if_neg waits]
    exact ⟨fun _ kept => waits (.inr kept.1), fun _ => handOff_error user scope found waits⟩

end

theorem finished_of_bookOrder {book : Book} {head : Nat} {ctx : Context} {request : BookOrderRequest} {act : Made}
    (decided : bookOrder book head ctx request = .ok act) : ∃ plan, finish book head ctx plan = .ok act := by
  obtain ⟨executed, lines, made, -, -, -, first, rfl | second⟩ := (bookOrder_ok decided).made
  · exact ⟨_, first⟩
  · exact ⟨_, second⟩

theorem finished_of_report {book : Book} {head : Nat} {ctx : Context} {request : ReportExecutionRequest} {act : Made}
    (decided : reportExecution book head ctx request = .ok act) : ∃ plan, finish book head ctx plan = .ok act := by
  obtain ⟨plan, -, finished⟩ := bind_ok.mp decided
  exact ⟨plan, finished⟩

/-- Whether an act opens no booking under an empty identifier. -/
def opensNamed : Act → Bool
  | .bookingOpened booking _ => booking.bookingId != ""
  | _ => true

theorem opensNamed_of_all {acts : List Act} (all : acts.all opensNamed = true) : ∀ act ∈ acts, OpensNamed act := by
  rintro act member booking lines rfl
  have named := List.all_eq_true.mp all _ member
  simpa [opensNamed] using named

theorem reached_finish {book : Book} {head : Nat} {ctx : Context} {plan : Plan} {act : Made} (reached : Reached book)
    (made : finish book head ctx plan = .ok act) (named : act.entry.body.acts.all opensNamed = true) : Reached act.held := by
  obtain ⟨accountId, partition, entries⟩ := reached
  exact ⟨accountId, partition, entries.tail (.finished made (opensNamed_of_all named))⟩

/-- An order of two hundred, placed. -/
def placing : Plan where
  kind := "order-placed"
  actor := ""
  acts := [
    .opened { orderId := "ORD-1", instrumentId := "AAA", side := .buy, quantity := some ⟨200, 0⟩ } true,
    .placementOpened {
      placementId := "PLC-1", orderId := "ORD-1", connectivityInstanceId := "VENUE-1", quantity := some ⟨200, 0⟩ }]
  effectiveDate := "2026-01-05"

/-- The booking of its first fill of a hundred. -/
def bookingFirst : BookOrderRequest where
  orderId := "ORD-1"
  executionIds := ["EXE-A0"]
  allocations := [allocationOf 100]

def handingOff : HandOffBookingRequest := { bookingId := "BKG-B0" }

/-- The order's first fill booked; what is made of the account then. -/
def withBooked (check : Book → Bool) : Bool :=
  (finish (Book.new "ACC-1" "P-1") 0 {} placing).toOption.any fun placed =>
    placed.entry.body.acts.all opensNamed &&
      (reportExecution placed.held 20 (stepContext "A") (fillOf 100 "V-1" "")).toOption.any fun filled =>
        filled.entry.body.acts.all opensNamed &&
          (bookOrder filled.held 40 (userContext "B") bookingFirst).toOption.any fun booked =>
            booked.entry.body.acts.all opensNamed && check booked.held

theorem reached_withBooked {check : Book → Bool} (computed : withBooked check = true) :
    ∃ book, Reached book ∧ check book = true := by
  obtain ⟨placed, first, computed⟩ := answered_of computed
  obtain ⟨namedFirst, computed⟩ := Bool.and_eq_true_iff.mp computed
  obtain ⟨filled, second, computed⟩ := answered_of computed
  obtain ⟨namedSecond, computed⟩ := Bool.and_eq_true_iff.mp computed
  obtain ⟨booked, third, computed⟩ := answered_of computed
  obtain ⟨namedThird, checked⟩ := Bool.and_eq_true_iff.mp computed
  obtain ⟨plan, reports⟩ := finished_of_report second
  obtain ⟨plan', books⟩ := finished_of_bookOrder third
  have start : Reached (Book.new "ACC-1" "P-1") := ⟨"ACC-1", "P-1", .refl⟩
  exact ⟨booked.held,
    reached_finish (reached_finish (reached_finish start first namedFirst) reports namedSecond) books namedThird, checked⟩

/-- A booking that ties out, handed off. -/
theorem handOffRows_booked : ∃ book held, book.ledger.bookings["BKG-B0"]? = some held ∧
    HandOffRows book 60 (userContext "D") handingOff held := by
  have computed : withBooked (fun book => (book.ledger.bookings["BKG-B0"]?).any fun held => held.state == .booked) =
      true := by
    decide +kernel
  obtain ⟨book, reached, computed⟩ := reached_withBooked computed
  obtain ⟨held, found, booked⟩ := (Option.any_eq_true _ _).mp computed
  refine ⟨book, held, found, (handOffRows_iff reached rfl rfl found).mpr ?_⟩
  rintro ⟨state, -, -⟩
  rw [state] at booked
  cases booked

/-- A booking held by a fill that came after it ties out still, and no hand-off takes it. -/
theorem held_booking_never_handed_off :
    ¬ ∀ (book : Book) (head : Nat) (ctx : Context) (request : HandOffBookingRequest) (held : BookingHeld),
      Reached book → userRequired ctx "handing a booking off" = .ok () → inScope ctx book.accountId = .ok () →
        book.ledger.bookings[request.bookingId]? = some held → HandOffRows book head ctx request held := by
  intro claim
  have computed : withBooked (fun booked =>
      (reportExecution booked 60 (stepContext "C") (fillOf 60 "V-2" "")).toOption.any fun late =>
        late.entry.body.acts.all opensNamed &&
          (late.held.ledger.bookings["BKG-B0"]?).any fun held =>
            held.state == .held && held.heldReason != "" &&
              (tiesOutNow late.held (userContext "D") held).toOption.any Option.isNone) = true := by
    decide +kernel
  obtain ⟨booked, reached, computed⟩ := reached_withBooked computed
  obtain ⟨late, fourth, computed⟩ := answered_of computed
  obtain ⟨namedFourth, computed⟩ := Bool.and_eq_true_iff.mp computed
  obtain ⟨held, found, computed⟩ := (Option.any_eq_true _ (late.held.ledger.bookings["BKG-B0"]?)).mp computed
  obtain ⟨computed, ties⟩ := Bool.and_eq_true_iff.mp computed
  obtain ⟨kept, reason⟩ := Bool.and_eq_true_iff.mp computed
  obtain ⟨answer, tied, none'⟩ := answered_of ties
  obtain rfl := Option.isNone_iff_eq_none.mp none'
  obtain ⟨plan, reports⟩ := finished_of_report fourth
  have reached' := reached_finish reached reports namedFourth
  have rows := claim late.held 80 (userContext "D") handingOff held reached' rfl rfl found
  exact not_handOffRows_of_kept reached'.orderly rfl rfl found (beq_iff_eq.mp kept) (by simpa using reason) tied rows

end Booking

end MeridianCore.Bor
