import MeridianCore.Bor.Orders.Living

namespace MeridianCore.Bor

namespace Ledger

/-- How often a cross naming these orders counts toward what fills an order, its children followed so deep:
for itself where it is named, and for each of its children. -/
def crossings (ledger : Ledger) (named : List String) : Nat → String → Nat
  | 0, _ => 0
  | depth + 1, orderId =>
    match ledger.orders[orderId]? with
    | none => 0
    | some held => (if orderId ∈ named then 1 else 0) + (held.children.map (crossings ledger named depth)).sum

/-- What one cross counts toward an order. -/
def crossedUnits (orderId : String) (cross : SleeveCross) : Int :=
  if orderId ∈ cross.orderIds then (readOr cross.quantity).units else 0

theorem addCross_units {orderId : String} {also after : Exact} {cross : SleeveCross}
    (added : addCross orderId also cross = .ok after) : after.units = also.units + crossedUnits orderId cross := by
  unfold addCross at added
  unfold crossedUnits
  split at added
  · next named =>
    obtain ⟨quantity, read, added⟩ := bind_ok.mp added
    rw [if_pos named, readOr_of_required read, (Exact.checkedAdd_ok (mapError_ok.mp added)).1]
  · next other =>
    cases added
    rw [if_neg other, Int.add_zero]

/-- A ledger with one sleeve cross more. -/
def crossed (ledger : Ledger) (cross : SleeveCross) : Ledger :=
  { ledger with sleeveCrosses := ledger.sleeveCrosses.insert cross.sleeveCrossId cross }

variable {ledger : Ledger} {cross : SleeveCross}

/-- What else fills an order grows by what a new cross counts toward it. -/
theorem alsoFilled_crossed (fresh : ledger.sleeveCrosses[cross.sleeveCrossId]? = none) {orderId : String}
    {before after : Exact} (was : ledger.alsoFilled orderId = .ok before)
    (now : (ledger.crossed cross).alsoFilled orderId = .ok after) :
    after.units = before.units + crossedUnits orderId cross := by
  unfold alsoFilled at was now
  obtain ⟨allocated, received, was⟩ := bind_ok.mp was
  obtain ⟨again, same, now⟩ := bind_ok.mp now
  change (ledger.received.toList.map Prod.snd).foldlM (addReceived orderId) Exact.zero = .ok again at same
  cases received.symm.trans same
  have adds (also : Exact) (cross : SleeveCross) (after : Exact) (added : addCross orderId also cross = .ok after) :
      after.units = also.units + crossedUnits orderId cross := addCross_units added
  have sumWas := foldlM_adds adds _ was
  have sumNow := foldlM_adds adds _ now
  have grown := BTreeMap.sum_insert_of_absent fresh cross (crossedUnits orderId)
  unfold BTreeMap.sum at grown
  rw [List.map_map] at sumWas sumNow
  change after.units = allocated.units +
    ((ledger.sleeveCrosses.insert cross.sleeveCrossId cross).toList.map fun entry => crossedUnits orderId entry.2).sum at sumNow
  change before.units = allocated.units +
    (ledger.sleeveCrosses.toList.map fun entry => crossedUnits orderId entry.2).sum at sumWas
  rw [sumNow, grown, sumWas]
  omega

/-- Children each filled by so much more fill their parent by as much more. -/
theorem addChildren_crossed {fillsOf fillsNow : String → Result Fills} {more : String → Nat} {worth : Int}
    (each : ∀ child was now, fillsOf child = .ok was → fillsNow child = .ok now →
      now.reported.units = was.reported.units + more child * worth)
    {children : List String} {start startNow sums sumsNow : Fills}
    (one : children.foldlM (fun sums child => do addChild sums (← fillsOf child)) start = .ok sums)
    (two : children.foldlM (fun sums child => do addChild sums (← fillsNow child)) startNow = .ok sumsNow)
    {ahead : Int} (apart : startNow.reported.units = start.reported.units + ahead) :
    sumsNow.reported.units = sums.reported.units + ahead + (children.map more).sum * worth := by
  have add_one {sums child after : Fills} (added : addChild sums child = .ok after) :
      after.reported.units = sums.reported.units + child.reported.units := by
    unfold addChild at added
    obtain ⟨reported, summed, added⟩ := bind_ok.mp added
    obtain ⟨final, -, added⟩ := bind_ok.mp added
    obtain ⟨awaiting, -, added⟩ := bind_ok.mp added
    cases added
    exact (Exact.checkedAdd_ok (mapError_ok.mp summed)).1
  induction children generalizing start startNow ahead with
  | nil =>
    cases one
    cases two
    simp [apart]
  | cons child rest ih =>
    rw [List.foldlM_cons] at one two
    obtain ⟨next, taken, one⟩ := bind_ok.mp one
    obtain ⟨nextNow, takenNow, two⟩ := bind_ok.mp two
    obtain ⟨was, filled, added⟩ := bind_ok.mp taken
    obtain ⟨now, filledNow, addedNow⟩ := bind_ok.mp takenNow
    have further : nextNow.reported.units = next.reported.units + (ahead + more child * worth) := by
      rw [add_one addedNow, add_one added, apart, each child was now filled filledNow]
      omega
    rw [ih one two further, List.map_cons, List.sum_cons]
    push_cast
    ring

/-- A new cross counts its quantity toward an order as often as it names it and those below. -/
theorem filledWithin_crossed (fresh : ledger.sleeveCrosses[cross.sleeveCrossId]? = none) {depth : Nat} {orderId : String}
    {before after : Fills} (was : ledger.filledWithin depth orderId = .ok before)
    (now : (ledger.crossed cross).filledWithin depth orderId = .ok after) :
    after.reported.units =
      before.reported.units + ledger.crossings cross.orderIds depth orderId * (readOr cross.quantity).units := by
  induction depth generalizing orderId before after with
  | zero => cases was
  | succ depth ih =>
    unfold filledWithin at was now
    unfold crossings
    change (match ledger.orders[orderId]? with | none => _ | some held => _) = _ at now
    cases found : ledger.orders[orderId]? with
    | none =>
      rw [found] at was now
      cases was
      cases now
      simp
    | some held =>
      rw [found] at was now
      dsimp only at was now ⊢
      obtain ⟨own, filled, was⟩ := bind_ok.mp was
      obtain ⟨ownAgain, filledAgain, now⟩ := bind_ok.mp now
      change held.executions.foldlM (ledger.addFill held) {} = .ok ownAgain at filledAgain
      cases filled.symm.trans filledAgain
      obtain ⟨all, below, was⟩ := bind_ok.mp was
      obtain ⟨allNow, belowNow, now⟩ := bind_ok.mp now
      obtain ⟨also, others, was⟩ := bind_ok.mp was
      obtain ⟨alsoNow, othersNow, now⟩ := bind_ok.mp now
      obtain ⟨sum, summed, was⟩ := bind_ok.mp was
      obtain ⟨sumNow, summedNow, now⟩ := bind_ok.mp now
      obtain ⟨last, -, was⟩ := bind_ok.mp was
      obtain ⟨lastNow, -, now⟩ := bind_ok.mp now
      cases was
      cases now
      have more := alsoFilled_crossed fresh others othersNow
      have children := addChildren_crossed (fun child fills fillsNow was now => ih was now) below belowNow
        (Int.add_zero _).symm
      have units := (Exact.checkedAdd_ok (mapError_ok.mp summed)).1
      have unitsNow := (Exact.checkedAdd_ok (mapError_ok.mp summedNow)).1
      rw [unitsNow, units, children, more, crossedUnits]
      split <;> push_cast <;> ring

/-- In every order its new crosses fill: what filled it before, and the cross's quantity as often as it counts. -/
theorem filled_crossed (fresh : ledger.sleeveCrosses[cross.sleeveCrossId]? = none) {orderId : String}
    {before after : Fills} (was : ledger.filled orderId = .ok before)
    (now : (ledger.crossed cross).filled orderId = .ok after) :
    after.reported.units =
      before.reported.units + ledger.crossings cross.orderIds ledger.depth orderId * (readOr cross.quantity).units :=
  filledWithin_crossed fresh was now

/-- Recording a cross names it on its orders, and changes nothing else of them. -/
theorem live_sleeveCrossed (ledger : Ledger) (cross : SleeveCross) :
    LiveAlike (ledger.crossed cross) (ledger.apply (.sleeveCrossed cross) "" ∅) := by
  have named (ids : List String) {a b : Ledger} (alike : LiveAlike a b) :
      LiveAlike a (ids.foldl (fun held orderId => held.onOrder orderId fun order =>
        { order with order.sleeveCrossIds := pushNew order.order.sleeveCrossIds cross.sleeveCrossId }) b) := by
    induction ids generalizing b with
    | nil => exact alike
    | cons id rest ih =>
      exact ih { alike with orders := alike.orders.trans ((BTreeMap.ReadsAlike.refl _).modify_right id fun _ => rfl) }
  exact named cross.orderIds (LiveAlike.refl _)

end Ledger

end MeridianCore.Bor
