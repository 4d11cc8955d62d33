import MeridianCore.Bor.Book.Acted
import MeridianCore.Bor.OrderDecide.Gate
import MeridianCore.Bor.OrderDecide.Settling

namespace MeridianCore.Bor

/-- What a release needs of an order: its allocation summing to its ordered quantity, no block on its
version without an override on that version, no approval required, and where the account waits for
compliance a verdict on its version. -/
structure Gated (waits : Bool) (held : OrderHeld) : Prop where
  balanced : allocationBalanced held = .ok true
  unblocked : ∀ check ∈ held.checks, check.placementId = "" → check.orderVersion = held.version →
    check.verdict = CheckVerdict.block → held.overriddenVersion = some held.version
  approved : held.conditions.contains OrderCondition.approvalRequired.number = false
  answered : waits = true → ∃ check ∈ held.checks, check.placementId = "" ∧ check.orderVersion = held.version

theorem blockStands_eq_false {held : OrderHeld} : blockStands held = false ↔
    ∀ check ∈ held.checks, check.placementId = "" → check.orderVersion = held.version →
      check.verdict = CheckVerdict.block → held.overriddenVersion = some held.version := by
  unfold blockStands
  by_cases overridden : held.overriddenVersion = some held.version
  · simp [overridden]
  · simp [overridden]

theorem verdictOnVersion_eq_true {held : OrderHeld} : verdictOnVersion held = true ↔
    ∃ check ∈ held.checks, check.placementId = "" ∧ check.orderVersion = held.version := by
  simp only [verdictOnVersion, List.any_eq_true, Bool.and_eq_true, beq_iff_eq, and_comm]

/-- What the gate lets through. -/
theorem gate_ok {held : OrderHeld} (passed : gate held = .ok ()) :
    allocationBalanced held = .ok true ∧ blockStands held = false ∧ approvalRequired held = false := by
  unfold gate at passed
  obtain ⟨balanced, allocation, passed⟩ := bind_ok.mp passed
  dsimp only at passed
  cases balanced with
  | false => cases passed
  | true =>
    cases blocked : blockStands held with
    | true =>
      rw [blocked] at passed
      cases passed
    | false =>
      cases required : approvalRequired held with
      | true =>
        rw [blocked, required] at passed
        cases passed
      | false => exact ⟨allocation, rfl, rfl⟩

theorem gated_of_gate {held : OrderHeld} {waits : Bool} (passed : gate held = .ok ())
    (answered : waits = true → verdictOnVersion held = true) : Gated waits held := by
  obtain ⟨balanced, unblocked, approved⟩ := gate_ok passed
  exact ⟨balanced, blockStands_eq_false.mp unblocked, approved, fun waits => verdictOnVersion_eq_true.mp (answered waits)⟩

/-- An order as far as its release goes: its terms, its version and its checks, and whether approval is
required. -/
structure GateAlike (held later : OrderHeld) : Prop where
  order : later.order = held.order
  version : later.version = held.version
  overridden : later.overriddenVersion = held.overriddenVersion
  checks : later.checks = held.checks
  approval : held.conditions.contains OrderCondition.approvalRequired.number = false →
    later.conditions.contains OrderCondition.approvalRequired.number = false

namespace GateAlike
variable {a b c : OrderHeld} {waits : Bool}

theorem refl (held : OrderHeld) : GateAlike held held := ⟨rfl, rfl, rfl, rfl, id⟩

theorem trans (first : GateAlike a b) (second : GateAlike b c) : GateAlike a c where
  order := second.order.trans first.order
  version := second.version.trans first.version
  overridden := second.overridden.trans first.overridden
  checks := second.checks.trans first.checks
  approval none := second.approval (first.approval none)

theorem gated (alike : GateAlike a b) (gated : Gated waits a) : Gated waits b := by
  obtain ⟨balanced, unblocked, approved, answered⟩ := gated
  refine ⟨?_, ?_, alike.approval approved, ?_⟩
  · unfold allocationBalanced Ledger.ordered at *
    rw [alike.order]
    exact balanced
  · rw [alike.checks, alike.version, alike.overridden]
    exact unblocked
  · rw [alike.checks, alike.version]
    exact answered

end GateAlike

namespace Ledger
variable {versions : BTreeMap String Nat} {id : String}

/-- Settling an order leaves its release as it was. -/
theorem settled_gateAlike {acts : List Act} (settles : ∀ act ∈ acts, SettleAct act) (held : OrderHeld) :
    ∃ later, acts.foldl (orderAfter versions id) (some held) = some later ∧ GateAlike held later ∧
      later.released = held.released := by
  induction acts generalizing held with
  | nil => exact ⟨held, rfl, GateAlike.refl held, rfl⟩
  | cons act rest ih =>
    obtain ⟨next, first, alike, released⟩ : ∃ next, orderAfter versions id (some held) act = some next ∧
        GateAlike held next ∧ next.released = held.released := by
      cases settles act List.mem_cons_self with
      | applied request => exact ⟨held, rfl, GateAlike.refl held, rfl⟩
      | ended orderId state =>
        simp only [orderAfter]
        split
        · refine ⟨_, rfl, ⟨rfl, rfl, rfl, rfl, fun none => ?_⟩, rfl⟩
          simp [workedConditions, OrderCondition.number, Std.ExtTreeMap.contains_erase]
        · exact ⟨held, rfl, GateAlike.refl held, rfl⟩
    obtain ⟨later, folded, after, kept⟩ := ih (fun act member => settles act (List.mem_cons_of_mem _ member)) next
    refine ⟨later, ?_, alike.trans after, kept.trans released⟩
    rw [List.foldl_cons, first, folded]

/-- An act that releases no order of the ID, and opens none as released. -/
def LeavesUnreleased (id : String) (act : Act) : Prop :=
  act ≠ .released id ∧ ∀ order, act = .opened order true → order.orderId ≠ id

theorem unreleased_orderAfter {act : Act} (leaves : LeavesUnreleased id act) {before : Option OrderHeld}
    (unreleased : before.any OrderHeld.released = false) :
    (orderAfter versions id before act).any OrderHeld.released = false := by
  obtain ⟨notReleased, notOpened⟩ := leaves
  cases act with
  | opened order released =>
    simp only [orderAfter]
    by_cases same : order.orderId = id
    · rw [if_pos same]
      cases released with
      | true => exact absurd same (notOpened order rfl)
      | false => rfl
    · rw [if_neg same]
      cases order.link with
      | none => exact unreleased
      | some link =>
        dsimp only
        split
        · rw [Option.any_map]
          exact unreleased
        · exact unreleased
  | released orderId =>
    have other : orderId ≠ id := fun same => notReleased (by rw [same])
    simp only [orderAfter, if_neg other]
    exact unreleased
  | recalled orderId =>
    simp only [orderAfter]
    split
    · rw [Option.any_map]
      cases before <;> rfl
    · exact unreleased
  | accepted ids orderId placementId counts note =>
    have same := @read_accepted _ OrderHeld.released (fun _ _ => rfl) versions id before ids orderId placementId counts note
    have read := congrArg (Option.any fun released => released) same
    rw [Option.any_map, Option.any_map] at read
    exact read.trans unreleased
  | sleeveCrossed cross =>
    have same := @read_sleeveCrossed _ OrderHeld.released (fun _ _ => rfl) versions id before cross
    have read := congrArg (Option.any fun released => released) same
    rw [Option.any_map, Option.any_map] at read
    exact read.trans unreleased
  | _ =>
    simp only [orderAfter]
    try split
    all_goals first | exact unreleased | (rw [Option.any_map]; exact unreleased)

theorem unreleased_foldl {acts : List Act} (leave : ∀ act ∈ acts, LeavesUnreleased id act) {before : Option OrderHeld}
    (unreleased : before.any OrderHeld.released = false) :
    (acts.foldl (orderAfter versions id) before).any OrderHeld.released = false := by
  induction acts generalizing before with
  | nil => exact unreleased
  | cons act rest ih =>
    rw [List.foldl_cons]
    refine ih (fun act member => leave act (List.mem_cons_of_mem _ member)) ?_
    exact unreleased_orderAfter (leave act List.mem_cons_self) unreleased

end Ledger

end MeridianCore.Bor
