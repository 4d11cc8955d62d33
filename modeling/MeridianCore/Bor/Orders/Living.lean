import MeridianCore.Ordered.Map
import MeridianCore.Bor.Orders.Alike

namespace MeridianCore.Bor

/-- What of an order its state, and what its end waits on, are derived from. -/
structure Living where
  filling : Filling
  released : Bool
  ended : Option OrderState
  ending : Option OrderState
  placements : List String

def OrderHeld.living (held : OrderHeld) : Living where
  filling := held.filling
  released := held.released
  ended := held.ended
  ending := held.ending
  placements := held.placements

/-- What of a placement its state is derived from, and the requests a venue's report answers. -/
structure Standing where
  placing : Placing
  changeRequests : List String

def PlacementHeld.standing (held : PlacementHeld) : Standing where
  placing := held.placing
  changeRequests := held.changeRequests

/-- What of a change request a venue's report reads. -/
structure Asking where
  outcome : ChangeRequestOutcome
  change : Option Change

def ChangeRequest.asking (request : ChangeRequest) : Asking where
  outcome := request.outcome
  change := request.change

/-- What of an allocation received fills its member. -/
structure Sharing where
  memberOrderId : String
  quantity : Option Decimal
  withdrawn : Bool

def ReceivedHeld.sharing (held : ReceivedHeld) : Sharing where
  memberOrderId := held.memberOrderId
  quantity := held.allocation.quantity
  withdrawn := held.withdrawn

theorem OrderHeld.living_inj {held later : OrderHeld} : later.living = held.living ↔
    later.order.quantity = held.order.quantity ∧ later.order.cashQuantity = held.order.cashQuantity ∧
      later.executions = held.executions ∧ later.children = held.children ∧ later.released = held.released ∧
        later.ended = held.ended ∧ later.ending = held.ending ∧ later.placements = held.placements := by
  simp only [living, filling, Living.mk.injEq, Filling.mk.injEq, and_assoc]

theorem PlacementHeld.standing_inj {held later : PlacementHeld} : later.standing = held.standing ↔
    later.placement.orderId = held.placement.orderId ∧ later.placement.quantity = held.placement.quantity ∧
      later.state = held.state ∧
        later.conditions.contains PlacementCondition.outcomeUnknown.number =
          held.conditions.contains PlacementCondition.outcomeUnknown.number ∧
          later.executions = held.executions ∧ later.changeRequests = held.changeRequests := by
  simp only [standing, placing, Standing.mk.injEq, Placing.mk.injEq, and_assoc]

/-- Two ledgers whose orders stand the same: only who recorded what, and when, may differ. -/
structure LiveAlike (a b : Ledger) : Prop where
  orders : BTreeMap.ReadsAlike OrderHeld.living a.orders b.orders
  placements : BTreeMap.ReadsAlike PlacementHeld.standing a.placements b.placements
  executions : BTreeMap.ReadsAlike ExecutionHeld.counting a.executions b.executions
  changes : BTreeMap.ReadsAlike ChangeRequest.asking a.changes b.changes
  received : BTreeMap.ReadsAlike ReceivedHeld.sharing a.received b.received
  sleeveCrosses : b.sleeveCrosses = a.sleeveCrosses

namespace LiveAlike
open Ledger

theorem refl (ledger : Ledger) : LiveAlike ledger ledger :=
  ⟨.refl _, .refl _, .refl _, .refl _, .refl _, rfl⟩

theorem trans {a b c : Ledger} (first : LiveAlike a b) (second : LiveAlike b c) : LiveAlike a c where
  orders := first.orders.trans second.orders
  placements := first.placements.trans second.placements
  executions := first.executions.trans second.executions
  changes := first.changes.trans second.changes
  received := first.received.trans second.received
  sleeveCrosses := second.sleeveCrosses.trans first.sleeveCrosses

section
variable {a b : Ledger}

theorem depth (alike : LiveAlike a b) : b.depth = a.depth := by
  simp only [Ledger.depth, alike.orders.size_eq]

theorem addReceived_congr {orderId : String} {held later : ReceivedHeld} (same : later.sharing = held.sharing)
    (also : Exact) : addReceived orderId also later = addReceived orderId also held := by
  have member : later.memberOrderId = held.memberOrderId := congrArg Sharing.memberOrderId same
  have quantity : later.allocation.quantity = held.allocation.quantity := congrArg Sharing.quantity same
  have withdrawn : later.withdrawn = held.withdrawn := congrArg Sharing.withdrawn same
  simp only [addReceived, member, quantity, withdrawn]

theorem alsoFilled (alike : LiveAlike a b) (orderId : String) : b.alsoFilled orderId = a.alsoFilled orderId := by
  unfold Ledger.alsoFilled
  rw [alike.sleeveCrosses]
  have summed : ∀ also : Exact, (b.received.toList.map Prod.snd).foldlM (addReceived orderId) also =
      (a.received.toList.map Prod.snd).foldlM (addReceived orderId) also := by
    have same := alike.received.toList_eq
    generalize b.received.toList.map Prod.snd = later at same
    generalize a.received.toList.map Prod.snd = held at same
    induction held generalizing later with
    | nil =>
      obtain rfl := List.map_eq_nil_iff.mp same
      exact fun _ => rfl
    | cons first rest ih =>
      cases later with
      | nil => cases same
      | cons firstLater restLater =>
        obtain ⟨heads, tails⟩ := List.cons.inj same
        intro also
        rw [List.foldlM_cons, List.foldlM_cons, addReceived_congr heads]
        exact congrArg _ (funext fun sum => ih restLater tails sum)
  rw [summed]

theorem fills (alike : LiveAlike a b) : FillsAlike (fun _ => True) a b where
  orders id _ := alike.orders.further Living.filling id
  children _ _ _ _ _ _ := trivial
  executions _ _ _ _ id _ := alike.executions id
  also id _ := alike.alsoFilled id

theorem filled (alike : LiveAlike a b) (orderId : String) : b.filled orderId = a.filled orderId :=
  filled_congr alike.fills alike.depth trivial

theorem placed (alike : LiveAlike a b) (placementId : String) : PlacedAlike a b placementId where
  placement := alike.placements.further Standing.placing placementId
  executions _ _ id _ := alike.executions id
  order held _ := alike.orders.further (fun living => living.filling.quantity) held.placement.orderId

theorem placementLive (alike : LiveAlike a b) (placementId : String) :
    b.placementLive placementId = a.placementLive placementId :=
  placementLive_congr (alike.placed placementId)

theorem ordered_congr {held later : OrderHeld} (same : later.living = held.living) :
    ordered later = ordered held :=
  ordered_of_filling (congrArg Living.filling same)

theorem committedBy (alike : LiveAlike a b) {held later : OrderHeld} (same : later.living = held.living)
    {stateOf stateAlso : String → Result OrderState} (states : ∀ child, stateAlso child = stateOf child) :
    b.committedBy stateAlso later = a.committedBy stateOf held := by
  have placements : later.placements = held.placements := congrArg Living.placements same
  have children : later.children = held.children := congrArg (fun living => living.filling.children) same
  have open_ : ∀ (total : Exact) (id : String), (do numbers.add "committed" total (← b.placementOpen id)) =
      (do numbers.add "committed" total (← a.placementOpen id)) := by
    intro total id
    rw [placementOpen_congr (alike.placed id)]
  have child : ∀ (total : Exact) (id : String), b.addCommitted stateAlso total id = a.addCommitted stateOf total id := by
    intro total id
    unfold addCommitted
    rw [states, alike.filled]
    rcases alike.orders.either id with ⟨inA, inB⟩ | ⟨order, orderLater, inA, inB, same⟩
    · rw [inA, inB]
    · simp only [inA, inB, ordered_congr same]
  unfold Ledger.committedBy
  rw [placements, children, funext fun total => funext (open_ total), funext fun total => funext (child total)]

theorem stateWithin (alike : LiveAlike a b) (depth : Nat) (orderId : String) :
    b.stateWithin depth orderId = a.stateWithin depth orderId := by
  induction depth generalizing orderId with
  | zero => rfl
  | succ depth ih =>
    unfold Ledger.stateWithin
    rcases alike.orders.either orderId with ⟨inA, inB⟩ | ⟨held, later, inA, inB, same⟩
    · rw [inA, inB]
    · have ended : later.ended = held.ended := congrArg Living.ended same
      have released : later.released = held.released := congrArg Living.released same
      rw [inA, inB]
      simp only [ended, released, ordered_congr same, alike.filled, alike.committedBy same ih]

theorem state (alike : LiveAlike a b) (orderId : String) : b.state orderId = a.state orderId := by
  rw [Ledger.state, Ledger.state, alike.depth, alike.stateWithin]

theorem orderLive (alike : LiveAlike a b) (orderId : String) : b.orderLive orderId = a.orderLive orderId := by
  rw [Ledger.orderLive, Ledger.orderLive, alike.state]

/-- What an order still waits on is the same in ledgers that stand the same. -/
theorem liveParts (alike : LiveAlike a b) (orderId : String) : b.liveParts orderId = a.liveParts orderId := by
  unfold Ledger.liveParts
  rw [funext alike.placementLive, funext alike.orderLive]
  rcases alike.orders.either orderId with ⟨inA, inB⟩ | ⟨held, later, inA, inB, same⟩
  · rw [inA, inB]
  · have placements : later.placements = held.placements := congrArg Living.placements same
    have children : later.children = held.children := congrArg (fun living => living.filling.children) same
    simp only [inA, inB, placements, children]

end

section
variable {a b : Ledger}

theorem onOrder (alike : LiveAlike a b) (orderId : String) {f g : OrderHeld → OrderHeld}
    (keeps : ∀ held later, later.living = held.living → (g later).living = (f held).living) :
    LiveAlike (a.onOrder orderId f) (b.onOrder orderId g) :=
  { alike with orders := alike.orders.modify orderId keeps }

theorem onPlacement (alike : LiveAlike a b) (placementId : String) {f g : PlacementHeld → PlacementHeld}
    (keeps : ∀ held later, later.standing = held.standing → (g later).standing = (f held).standing) :
    LiveAlike (a.onPlacement placementId f) (b.onPlacement placementId g) :=
  { alike with placements := alike.placements.modify placementId keeps }

theorem onExecution (alike : LiveAlike a b) (executionId : String) {f g : ExecutionHeld → ExecutionHeld}
    (keeps : ∀ held later, later.counting = held.counting → (g later).counting = (f held).counting) :
    LiveAlike (a.onExecution executionId f) (b.onExecution executionId g) :=
  { alike with executions := alike.executions.modify executionId keeps }

/-- An order named among its placement's or its parent's records, by a record it did not have. -/
theorem pushes {held later : OrderHeld} (same : later.living = held.living) (id : String) :
    ({ later with executions := pushNew later.executions id } : OrderHeld).living =
        ({ held with executions := pushNew held.executions id } : OrderHeld).living ∧
      ({ later with children := pushNew later.children id } : OrderHeld).living =
        ({ held with children := pushNew held.children id } : OrderHeld).living ∧
      ({ later with placements := pushNew later.placements id } : OrderHeld).living =
        ({ held with placements := pushNew held.placements id } : OrderHeld).living := by
  rw [OrderHeld.living_inj] at same
  simp only [OrderHeld.living_inj, same, and_self]

theorem pushes_placement {held later : PlacementHeld} (same : later.standing = held.standing) (id : String) :
    ({ later with executions := pushNew later.executions id } : PlacementHeld).standing =
      ({ held with executions := pushNew held.executions id } : PlacementHeld).standing := by
  rw [PlacementHeld.standing_inj] at same ⊢
  simp only [same, and_self]

theorem executed (alike : LiveAlike a b) (execution : Execution) (sender code client taken : String) (row : FactorRow)
    (entryId entryAlso : String) :
    LiveAlike (a.executed execution sender code client taken row entryId)
      (b.executed execution sender code client taken row entryAlso) := by
  have superseding : LiveAlike
      (if execution.supersedes = "" then a
        else a.onExecution execution.supersedes fun earlier => { earlier with supersededBy := some execution.executionId })
      (if execution.supersedes = "" then b
        else b.onExecution execution.supersedes fun earlier =>
          { earlier with supersededBy := some execution.executionId }) := by
    split
    · exact alike
    · refine alike.onExecution _ fun held later same => ?_
      simp only [ExecutionHeld.counting, Counting.mk.injEq] at same ⊢
      simp only [same, and_self]
  have ordered := (superseding.onPlacement execution.placementId fun _ _ same =>
    pushes_placement same execution.executionId).onOrder execution.orderId fun _ _ same =>
      (pushes same execution.executionId).1
  exact { ordered with executions := ordered.executions.insert execution.executionId rfl }

theorem accepted (orderId placementId entryId entryAlso sleeve sleeveAlso : String) (start : Nat) (ids : List String)
    (counts : List Nat) {a b : Ledger} (alike : LiveAlike a b) :
    LiveAlike (a.accepted orderId placementId entryId sleeve start ids counts)
      (b.accepted orderId placementId entryAlso sleeveAlso start ids counts) := by
  induction ids generalizing start counts a b with
  | nil => exact alike
  | cons id ids ih =>
    refine ih _ _ ?_
    refine onOrder (onPlacement (onExecution alike id ?_) placementId ?_) orderId ?_
    · exact fun _ _ same => same
    · exact fun _ _ same => pushes_placement same id
    · exact fun _ _ same => (pushes same id).1

/-- A venue's report leaves placements that stood the same standing the same. -/
theorem standing_afterReport {held later : PlacementHeld} (same : later.standing = held.standing)
    (report : ReportPlacementRequest) (trigger triggerAlso pending : Bool) :
    ((later.stamped report).afterEvent report triggerAlso pending).standing =
      ((held.stamped report).afterEvent report trigger pending).standing := by
  have stamped : (later.stamped report).standing = (held.stamped report).standing := by
    unfold PlacementHeld.stamped
    split <;> split <;> exact same
  revert stamped
  generalize later.stamped report = afterLater
  generalize held.stamped report = after
  intro stamped
  simp only [PlacementHeld.standing_inj, PlacementCondition.number] at stamped ⊢
  obtain ⟨order, quantity, state, unknown, executions, requests⟩ := stamped
  -- Only the outcome-unknown condition is read, and no report but that outcome's own changes it.
  unfold PlacementHeld.afterEvent
  cases report.event
  all_goals
    simp only [state]
    repeat' split
    all_goals
      simp [order, quantity, executions, requests, unknown, state, PlacementCondition.number,
        Std.ExtTreeMap.contains_insert, Std.ExtTreeMap.contains_erase]

theorem outcomes (alike : LiveAlike a b) {held later : PlacementHeld} (same : later.standing = held.standing)
    (event : PlacementEvent) :
    b.pendingOn later = a.pendingOn held ∧ b.outcomesOf later event = a.outcomesOf held event := by
  have state : later.state = held.state := congrArg (fun standing => standing.placing.state) same
  have requests : later.changeRequests = held.changeRequests := congrArg Standing.changeRequests same
  have pending : b.pendingOn later = a.pendingOn held := by
    unfold pendingOn
    rw [requests]
    refine List.filter_congr fun id _ => ?_
    rcases alike.changes.either id with ⟨inA, inB⟩ | ⟨request, requestLater, inA, inB, asks⟩
    · rw [inA, inB]
    · have outcome : requestLater.outcome = request.outcome := congrArg Asking.outcome asks
      simp only [inA, inB, outcome]
  have kind (id : String) : changeKind b.changes id = changeKind a.changes id := by
    unfold changeKind
    rcases alike.changes.either id with ⟨inA, inB⟩ | ⟨request, requestLater, inA, inB, asks⟩
    · rw [inA, inB]
    · have change : requestLater.change = request.change := congrArg Asking.change asks
      simp only [inA, inB, Option.bind_some, change]
  refine ⟨pending, ?_⟩
  unfold outcomesOf
  rw [pending, state, funext kind]

theorem reported (alike : LiveAlike a b) (report : ReportPlacementRequest) :
    LiveAlike (a.reported report) (b.reported report) := by
  unfold Ledger.reported
  rcases alike.placements.either report.placementId with ⟨inA, inB⟩ | ⟨held, later, inA, inB, same⟩
  · rw [inA, inB]
    exact alike
  · rw [inA, inB]
    obtain ⟨pending, outcomes⟩ := alike.outcomes same report.event
    have after : (b.afterReport later report).standing = (a.afterReport held report).standing := by
      unfold afterReport
      rw [pending]
      exact standing_afterReport same ..
    have answered (answers : List (String × ChangeRequestOutcome)) {m n : BTreeMap String ChangeRequest}
        (alike : BTreeMap.ReadsAlike ChangeRequest.asking m n) :
        BTreeMap.ReadsAlike ChangeRequest.asking
          (answers.foldl (fun changes answer => changes.modify answer.1 fun request => { request with outcome := answer.2 }) m)
          (answers.foldl (fun changes answer => changes.modify answer.1 fun request => { request with outcome := answer.2 }) n) := by
      induction answers generalizing m n with
      | nil => exact alike
      | cons answer rest ih =>
        refine ih (alike.modify answer.1 fun request requestLater asks => ?_)
        have change : requestLater.change = request.change := congrArg Asking.change asks
        simp only [ChangeRequest.asking, change]
    refine { alike with placements := alike.placements.insert _ after, changes := ?_ }
    dsimp only
    rw [outcomes]
    exact answered _ alike.changes

theorem linked (alike : LiveAlike a b) (order : Order) : LiveAlike (a.linked order) (b.linked order) := by
  unfold Ledger.linked
  split
  · exact alike.onOrder _ fun _ _ same => (pushes same order.orderId).2.1
  · exact alike

/-- A change of the charges alone. -/
theorem charged (alike : LiveAlike a b) {charges chargesAlso : BTreeMap String Charge} :
    LiveAlike { a with charges } { b with charges := chargesAlso } := { alike with }

/-- A change of the bookings alone. -/
theorem booked (alike : LiveAlike a b) {bookings bookingsAlso : BTreeMap String BookingHeld} :
    LiveAlike { a with bookings } { b with bookings := bookingsAlso } := { alike with }

/-- A fold over records that each leave ledgers standing the same. -/
theorem folded {α : Type} {change : Ledger → α → Ledger}
    (keeps : ∀ (a b : Ledger) (entry : α), LiveAlike a b → LiveAlike (change a entry) (change b entry))
    (entries : List α) {a b : Ledger} (alike : LiveAlike a b) :
    LiveAlike (entries.foldl change a) (entries.foldl change b) := by
  induction entries generalizing a b with
  | nil => exact alike
  | cons entry rest ih => exact ih (keeps a b entry alike)

/-- An act applied in two entries leaves ledgers that stood the same standing the same. -/
theorem apply (alike : LiveAlike a b) (act : Act) (entryId entryAlso : String) (versions versionsAlso : BTreeMap String Nat) :
    LiveAlike (a.apply act entryId versions) (b.apply act entryAlso versionsAlso) := by
  cases act with
  | opened order released =>
    have linked := alike.linked order
    refine { linked with orders := linked.orders.insert order.orderId ?_ }
    rcases linked.orders.either order.orderId with ⟨inA, inB⟩ | ⟨held, later, inA, inB, same⟩
    · rw [inA, inB]
      rfl
    · simp only [OrderHeld.living, OrderHeld.filling, Living.mk.injEq, Filling.mk.injEq] at same
      simp only [inA, inB, Option.getD_some, OrderHeld.living, OrderHeld.filling, same]
  | terms order =>
    refine alike.onOrder _ fun held later same => ?_
    rw [OrderHeld.living_inj] at same ⊢
    simp only [same, and_self]
  | released id =>
    refine alike.onOrder _ fun held later same => ?_
    rw [OrderHeld.living_inj] at same ⊢
    simp only [same, and_self]
  | recalled id =>
    refine alike.onOrder _ fun held later same => ?_
    rw [OrderHeld.living_inj] at same ⊢
    simp only [same, and_self]
  | ended id state =>
    refine alike.onOrder _ fun held later same => ?_
    rw [OrderHeld.living_inj] at same ⊢
    simp only [same, and_self]
  | ending id state =>
    refine alike.onOrder _ fun held later same => ?_
    rw [OrderHeld.living_inj] at same ⊢
    simp only [same, and_self]
  | releaseRequested id => exact onOrder alike _ (by exact fun _ _ same => same)
  | condition id condition set standing => exact onOrder alike _ (by exact fun _ _ same => same)
  | overridden id => exact onOrder alike _ (by exact fun _ _ same => same)
  | checked id check =>
    simp only [Ledger.apply]
    split
    · exact onOrder alike _ (by exact fun _ _ same => same)
    · exact onPlacement alike _ (by exact fun _ _ same => same)
  | changeOpened request =>
    have kept : LiveAlike { a with changes := a.changes.insert request.changeRequestId request }
        { b with changes := b.changes.insert request.changeRequestId request } :=
      { alike with changes := alike.changes.insert _ rfl }
    simp only [Ledger.apply]
    split
    · exact onOrder kept _ (by exact fun _ _ same => same)
    · refine onPlacement kept _ fun held later same => ?_
      rw [PlacementHeld.standing_inj] at same ⊢
      simp only [same, and_self]
  | changeOutcome id outcome =>
    refine { alike with changes := alike.changes.modify _ fun request requestLater asks => ?_ }
    have change : requestLater.change = request.change := congrArg Asking.change asks
    simp only [ChangeRequest.asking, change]
  | placementOpened placement =>
    have named := alike.onOrder placement.orderId fun _ _ same => (pushes same placement.placementId).2.2
    exact { named with placements := named.placements.insert _ rfl }
  | placementQuoted id quote => exact onPlacement alike _ (by exact fun _ _ same => same)
  | quotePicked id quoteId => exact onPlacement alike _ (by exact fun _ _ same => same)
  | netLinked id netOrderId netAccountId => exact onOrder alike _ (by exact fun _ _ same => same)
  | placementReported report => exact alike.reported report
  | executed execution sender code client taken row => exact alike.executed ..
  | factorRevised id taken row lots => exact onExecution alike _ (by exact fun _ _ same => same)
  | capacityBackfilled id capacity => exact onExecution alike _ (by exact fun _ _ same => same)
  | accepted ids orderId placementId counts note => exact LiveAlike.accepted _ _ _ _ _ _ _ _ _ alike
  | dontKnow ids reason text =>
    refine folded (fun _ _ id alike => ?_) ids alike
    exact onExecution alike id (by exact fun _ _ same => same)
  | charged charge =>
    refine charged (onOrder (onPlacement alike charge.placementId ?_) charge.orderId ?_)
    · exact fun _ _ same => same
    · exact fun _ _ same => same
  | allocationReceived bookingId account allocation memberOrderId lines factor month =>
    exact { alike with received := alike.received.insert _ rfl }
  | allocationWithdrawn bookingId allocationId =>
    refine { alike with received := alike.received.modify _ fun held later same => ?_ }
    simp only [ReceivedHeld.sharing, Sharing.mk.injEq] at same ⊢
    simp only [same, and_self]
  | giveUpRecorded executionId bookingId allocationId record =>
    refine booked (onExecution alike executionId ?_)
    exact fun _ _ same => same
  | sleeveCrossed cross =>
    have crossed : LiveAlike { a with sleeveCrosses := a.sleeveCrosses.insert cross.sleeveCrossId cross }
        { b with sleeveCrosses := b.sleeveCrosses.insert cross.sleeveCrossId cross } :=
      { alike with sleeveCrosses := by rw [alike.sleeveCrosses] }
    refine folded (fun _ _ orderId alike => ?_) cross.orderIds crossed
    exact onOrder alike orderId (by exact fun _ _ same => same)
  | alertRaised alert =>
    simp only [Ledger.apply]
    split <;> exact { alike with }
  | _ => exact { alike with }

end

end LiveAlike

end MeridianCore.Bor
