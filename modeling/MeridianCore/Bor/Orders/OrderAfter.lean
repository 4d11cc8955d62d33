import MeridianCore.Bor.Orders.Ledger

namespace MeridianCore.Bor

namespace OrderHeld

/-- The order naming one more execution, placement or child, where it does not name it yet. -/
def withExecution (held : OrderHeld) (id : String) : OrderHeld := { held with executions := pushNew held.executions id }

def withPlacement (held : OrderHeld) (id : String) : OrderHeld := { held with placements := pushNew held.placements id }

def withChild (held : OrderHeld) (id : String) : OrderHeld := { held with children := pushNew held.children id }

/-- The order with the act's own terms, released or not. -/
def openedAs (held : OrderHeld) (order : Order) (released : Bool) (version : Nat) : OrderHeld :=
  { held with order, released, version }

/-- The order without who opened it, when, and its last change. -/
def unsigned (held : OrderHeld) : OrderHeld := { held with openedBy := "", openedAtNs := 0, lastChange := none }

end OrderHeld

namespace Ledger

/-- The version an order's terms take in an entry. -/
def versionIn (versions : BTreeMap String Nat) (orderId : String) (held : Nat) : Nat := (versions[orderId]?).getD held

/-- What one act leaves of the order of an ID, whatever else the ledger holds. -/
def orderAfter (versions : BTreeMap String Nat) (id : String) (before : Option OrderHeld) : Act → Option OrderHeld
  | .opened order released =>
    let linked := match order.link with
      | some link => if link.parentOrderId = id then before.map (·.withChild order.orderId) else before
      | none => before
    if order.orderId = id then
      let held := linked.getD {}
      some (held.openedAs order released (versionIn versions order.orderId held.version))
    else linked
  | .terms order =>
    if order.orderId = id then
      before.map fun held => { held with order, version := versionIn versions order.orderId held.version }
    else before
  | .released orderId =>
    if orderId = id then
      before.map fun held =>
        { held with
          released := true
          releaseRequested := false
          conditions := held.conditions.erase OrderCondition.awaitingCheck.number }
    else before
  | .releaseRequested orderId =>
    if orderId = id then before.map fun held => { held with releaseRequested := true } else before
  | .recalled orderId =>
    if orderId = id then before.map fun held => { held with released := false, releaseRequested := false } else before
  | .ended orderId state =>
    if orderId = id then
      before.map fun held =>
        { held with
          ended := some state
          ending := none
          releaseRequested := false
          conditions := workedConditions.foldl (fun held condition => held.erase condition.number) held.conditions }
    else before
  | .ending orderId state => if orderId = id then before.map fun held => { held with ending := some state } else before
  | .condition orderId condition set standing =>
    if orderId = id then
      before.map fun held =>
        { held with
          conditions := if set then held.conditions.insert condition standing else held.conditions.erase condition }
    else before
  | .overridden orderId =>
    if orderId = id then before.map fun held => { held with overriddenVersion := some held.version } else before
  | .checked orderId check =>
    if check.placementId = "" ∧ orderId = id then before.map fun held => { held with checks := held.checks ++ [check] }
    else before
  | .changeOpened request =>
    if request.placementId = "" ∧ request.orderId = id then
      before.map fun held => { held with changeRequests := held.changeRequests ++ [request.changeRequestId] }
    else before
  | .placementOpened placement =>
    if placement.orderId = id then before.map (·.withPlacement placement.placementId) else before
  | .netLinked orderId netOrderId _ =>
    if orderId = id then
      before.map fun held => { held with order.link := some { kind := .net, parentOrderId := netOrderId } }
    else before
  | .executed execution _ _ _ _ _ =>
    if execution.orderId = id then before.map (·.withExecution execution.executionId) else before
  | .accepted executionIds orderId _ _ _ =>
    if orderId = id then before.map fun held => executionIds.foldl OrderHeld.withExecution held else before
  | .charged charge =>
    if charge.orderId = id then before.map fun held => { held with charges := held.charges ++ [charge.chargeId] }
    else before
  | .sleeveCrossed cross =>
    cross.orderIds.foldl (fun before orderId =>
      if orderId = id then
        before.map fun held =>
          { held with order.sleeveCrossIds := pushNew held.order.sleeveCrossIds cross.sleeveCrossId }
      else before) before
  | _ => before

theorem order_onOrder (ledger : Ledger) (orderId : String) (change : OrderHeld → OrderHeld) (id : String) :
    (ledger.onOrder orderId change).orders[id]? =
      if orderId = id then (ledger.orders[id]?).map change else ledger.orders[id]? := by
  rw [onOrder, Std.ExtTreeMap.getElem?_modify]
  by_cases same : orderId = id
  · subst same
    simp only [Std.ReflOrd.compare_self, if_true]
  · rw [if_neg (by simpa using same), if_neg same]

theorem order_linked (ledger : Ledger) (order : Order) (id : String) :
    (ledger.linked order).orders[id]? =
      match order.link with
      | some link =>
        if link.parentOrderId = id then (ledger.orders[id]?).map (·.withChild order.orderId) else ledger.orders[id]?
      | none => ledger.orders[id]? := by
  unfold linked
  cases order.link with
  | none => rfl
  | some link => exact order_onOrder ..

theorem order_executed (ledger : Ledger) (execution : Execution) (sender code client taken : String) (row : FactorRow)
    (entryId id : String) :
    (ledger.executed execution sender code client taken row entryId).orders[id]? =
      if execution.orderId = id then (ledger.orders[id]?).map (·.withExecution execution.executionId)
      else ledger.orders[id]? := by
  let superseding := if execution.supersedes = "" then ledger
    else ledger.onExecution execution.supersedes fun earlier =>
      { earlier with supersededBy := some execution.executionId }
  have kept : superseding.orders = ledger.orders := by
    unfold superseding
    split <;> rfl
  rw [← kept]
  exact order_onOrder (superseding.onPlacement execution.placementId _) execution.orderId _ id

theorem order_accepted (orderId placementId entryId sleeve : String) (start : Nat) (ids : List String)
    (counts : List Nat) (ledger : Ledger) (id : String) :
    (ledger.accepted orderId placementId entryId sleeve start ids counts).orders[id]? =
      if orderId = id then (ledger.orders[id]?).map fun held => ids.foldl OrderHeld.withExecution held
      else ledger.orders[id]? := by
  induction ids generalizing ledger start counts with
  | nil => simp [accepted]
  | cons first ids ih =>
    rw [accepted, ih, order_onOrder]
    split
    · rw [Option.map_map]
      rfl
    · rfl

theorem order_foldl {α : Type} {change : Ledger → α → Ledger} {after : Option OrderHeld → α → Option OrderHeld} {id : String}
    (each : ∀ ledger entry, (change ledger entry).orders[id]? = after (ledger.orders[id]?) entry) (entries : List α)
    (ledger : Ledger) : (entries.foldl change ledger).orders[id]? = entries.foldl after (ledger.orders[id]?) := by
  induction entries generalizing ledger with
  | nil => rfl
  | cons entry rest ih => rw [List.foldl_cons, List.foldl_cons, ih, each]

/-- An act changes each order by what it says of that order alone. -/
theorem order_apply (ledger : Ledger) (act : Act) (entryId : String) (versions : BTreeMap String Nat) (id : String) :
    (ledger.apply act entryId versions).orders[id]? = orderAfter versions id (ledger.orders[id]?) act := by
  cases act with
  | opened order released =>
    simp only [apply, orderAfter, Std.ExtTreeMap.getElem?_insert]
    rw [← order_linked ledger order id]
    by_cases same : order.orderId = id
    · subst same
      simp only [Std.ReflOrd.compare_self, if_true]
      rfl
    · rw [if_neg (by simpa using same), if_neg same]
  | terms order => exact order_onOrder ..
  | released orderId => exact order_onOrder ..
  | releaseRequested orderId => exact order_onOrder ..
  | recalled orderId => exact order_onOrder ..
  | ended orderId state => exact order_onOrder ..
  | ending orderId state => exact order_onOrder ..
  | condition orderId condition set standing => exact order_onOrder ..
  | overridden orderId => exact order_onOrder ..
  | checked orderId check =>
    by_cases placed : check.placementId = ""
    · simp only [apply, orderAfter, placed, if_true, true_and]
      exact order_onOrder ..
    · simp only [apply, orderAfter, placed, if_false, false_and]
      rfl
  | changeOpened request =>
    by_cases placed : request.placementId = ""
    · simp only [apply, orderAfter, placed, if_true, true_and]
      exact order_onOrder { ledger with changes := _ } ..
    · simp only [apply, orderAfter, placed, if_false, false_and]
      rfl
  | placementOpened placement => exact order_onOrder ..
  | netLinked orderId netOrderId netAccountId => exact order_onOrder ..
  | placementReported report =>
    simp only [apply, reported, orderAfter]
    split <;> rfl
  | executed execution sender code client taken row => exact order_executed ..
  | accepted ids orderId placementId counts note => exact order_accepted ..
  | charged charge => exact order_onOrder (ledger.onPlacement charge.placementId _) ..
  | dontKnow ids reason text =>
    have kept := @order_foldl String (fun held id => held.onExecution id fun execution =>
      { execution with execution.state := .dontKnow, execution.dkReason := reason, execution.dkText := text })
      (fun before _ => before) id (fun _ _ => rfl) ids ledger
    refine Eq.trans kept ?_
    exact List.foldl_fixed _
  | sleeveCrossed cross =>
    exact order_foldl (fun _ _ => order_onOrder ..) cross.orderIds
      { ledger with sleeveCrosses := ledger.sleeveCrosses.insert cross.sleeveCrossId cross }
  | alertRaised alert =>
    simp only [apply, orderAfter]
    split <;> rfl
  | _ => rfl

theorem order_applyAll (ledger : Ledger) (acts : List Act) (entryId : String) (versions : BTreeMap String Nat)
    (id : String) :
    (ledger.applyAll acts entryId versions).orders[id]? =
      acts.foldl (orderAfter versions id) (ledger.orders[id]?) := by
  rw [applyAll]
  exact order_foldl (fun held act => order_apply held act entryId versions id) acts ledger

theorem applyAll_append (ledger : Ledger) (first rest : List Act) (entryId : String) (versions : BTreeMap String Nat) :
    ledger.applyAll (first ++ rest) entryId versions =
      (ledger.applyAll first entryId versions).applyAll rest entryId versions := by
  simp only [applyAll, List.foldl_append]

/-- A fold of changes none of which changes what is read. -/
theorem read_foldl {α β γ : Type} {reads : β → γ} {step : β → α → β}
    (keeps : ∀ held entry, reads (step held entry) = reads held) (entries : List α) (held : β) :
    reads (entries.foldl step held) = reads held := by
  induction entries generalizing held with
  | nil => rfl
  | cons entry rest ih => rw [List.foldl_cons, ih, keeps]

section
variable {γ : Type} {reads : OrderHeld → γ}

/-- What is read of an order but its executions, once an accept names more of them. -/
theorem read_accepted (keeps : ∀ held id, reads (held.withExecution id) = reads held) (versions : BTreeMap String Nat)
    (id : String) (before : Option OrderHeld) (ids : List String) (orderId placementId : String) (counts : List Nat)
    (note : String) :
    (orderAfter versions id before (.accepted ids orderId placementId counts note)).map reads = before.map reads := by
  simp only [orderAfter]
  split
  · rw [Option.map_map]
    refine congrArg (before.map ·) (funext fun held => ?_)
    exact read_foldl keeps ids held
  · rfl

/-- What is read of an order but its own terms, once a sleeve cross names it. -/
theorem read_sleeveCrossed (keeps : ∀ (held : OrderHeld) order, reads { held with order } = reads held)
    (versions : BTreeMap String Nat) (id : String) (before : Option OrderHeld) (cross : SleeveCross) :
    (orderAfter versions id before (.sleeveCrossed cross)).map reads = before.map reads := by
  refine @read_foldl _ _ _ (Option.map reads) _ (fun before orderId => ?_) cross.orderIds before
  dsimp only
  split
  · rw [Option.map_map]
    refine congrArg (before.map ·) (funext fun held => ?_)
    exact keeps held _
  · rfl

end

/-- What one act leaves of an order, but for who opened it, when, and its last change. -/
theorem unsigned_orderAfter (versions : BTreeMap String Nat) (id : String) (before : Option OrderHeld) (act : Act) :
    (orderAfter versions id before act).map OrderHeld.unsigned =
      orderAfter versions id (before.map OrderHeld.unsigned) act := by
  cases act with
  | opened order released =>
    simp only [orderAfter]
    cases order.link with
    | none =>
      dsimp only
      split <;> cases before <;> rfl
    | some link =>
      dsimp only
      split <;> split <;> cases before <;> rfl
  | accepted ids orderId placementId counts note =>
    have folded (held : OrderHeld) : (ids.foldl OrderHeld.withExecution held).unsigned =
        ids.foldl OrderHeld.withExecution held.unsigned := by
      induction ids generalizing held with
      | nil => rfl
      | cons first rest ih => exact ih _
    simp only [orderAfter]
    split
    · rw [Option.map_map, Option.map_map]
      exact congrArg (before.map ·) (funext folded)
    · rfl
  | sleeveCrossed cross =>
    simp only [orderAfter]
    induction cross.orderIds generalizing before with
    | nil => rfl
    | cons first rest ih =>
      rw [List.foldl_cons, ih, List.foldl_cons]
      congr 1
      split
      · rw [Option.map_map, Option.map_map]
        rfl
      · rfl
  | _ =>
    simp only [orderAfter]
    try split
    all_goals simp only [Option.map_map] <;> rfl

end Ledger

end MeridianCore.Bor

namespace MeridianCore.Bor

namespace Ledger

/-- Whether an order was ended, and the end it waits for. -/
def endings (ledger : Ledger) (orderId : String) : Option (Option OrderState × Option OrderState) :=
  (ledger.orders[orderId]?).map fun held => (held.ended, held.ending)

/-- What one act leaves of an order's endings. -/
def endingsAfter (orderId : String) (before : Option (Option OrderState × Option OrderState)) :
    Act → Option (Option OrderState × Option OrderState)
  | .opened order _ => if order.orderId = orderId then some (before.getD (none, none)) else before
  | .ended id state => if id = orderId then before.map fun _ => (some state, none) else before
  | .ending id state => if id = orderId then before.map fun held => (held.1, some state) else before
  | _ => before

/-- An act changes an order's endings by what it says of them alone, whatever its entry. -/
theorem endings_apply (ledger : Ledger) (act : Act) (entryId : String) (versions : BTreeMap String Nat)
    (orderId : String) :
    (ledger.apply act entryId versions).endings orderId = endingsAfter orderId (ledger.endings orderId) act := by
  rw [endings, endings, order_apply]
  generalize ledger.orders[orderId]? = before
  cases act with
  | opened order released =>
    simp only [orderAfter, endingsAfter]
    split <;> split <;> try split
    all_goals cases before <;> rfl
  | accepted ids id placementId counts note => exact read_accepted (fun _ _ => rfl) ..
  | sleeveCrossed cross => exact read_sleeveCrossed (fun _ _ => rfl) ..
  | _ =>
    simp only [orderAfter, endingsAfter]
    try split
    all_goals simp only [Option.map_map] <;> rfl

theorem endings_applyAll (ledger : Ledger) (acts : List Act) (entryId : String) (versions : BTreeMap String Nat)
    (orderId : String) :
    (ledger.applyAll acts entryId versions).endings orderId =
      acts.foldl (endingsAfter orderId) (ledger.endings orderId) := by
  induction acts generalizing ledger with
  | nil => rfl
  | cons act rest ih =>
    rw [applyAll, List.foldl_cons, List.foldl_cons, ← endings_apply ledger act entryId versions]
    exact ih _

end Ledger

end MeridianCore.Bor
