import MeridianCore.Bor.Book.BookedView

namespace MeridianCore.Bor

/-- What of a ledger its venues' facts are told apart by: each fact recorded and each execution kept unplaced,
by its own key, and which facts are kept. -/
structure FactIndex where
  recorded : BTreeMap String String
  waiting : BTreeMap String String
  kept : String → Bool

namespace FactIndex

/-- What one act leaves of it. -/
def after (index : FactIndex) : Act → FactIndex
  | .opened order _ =>
    if order.origin ≠ .unspecified ∧ order.venueOrderId ≠ "" then
      { index with recorded := index.recorded.insert (recordedOrderKey order.venueOrderId) order.orderId }
    else index
  | .executed execution sender _ _ _ _ =>
    if execution.venueExecutionId = "" then index
    else { index with recorded := index.recorded.insert (venueKey sender execution) execution.executionId }
  | .unplaced fact sender =>
    { index with
      waiting := match fact.fact with
        | some (.execution execution) =>
          if execution.venueExecutionId = "" then index.waiting
          else index.waiting.insert (keyOf [sender, execution.venueExecutionId]) fact.unplacedId
        | _ => index.waiting
      kept := fun id => fact.unplacedId == id || index.kept id }
  | _ => index

def afterAll (index : FactIndex) (acts : List Act) : FactIndex := acts.foldl after index

theorem afterAll_cons (index : FactIndex) (act : Act) (rest : List Act) :
    index.afterAll (act :: rest) = (index.after act).afterAll rest := rfl

end FactIndex

namespace Ledger

def facts (ledger : Ledger) : FactIndex where
  recorded := ledger.venueFacts
  waiting := ledger.unplacedExecutions
  kept id := (ledger.unplaced[id]?).isSome

theorem facts_onOrder (ledger : Ledger) (orderId : String) (change : OrderHeld → OrderHeld) :
    (ledger.onOrder orderId change).facts = ledger.facts := rfl

theorem facts_onExecution (ledger : Ledger) (executionId : String) (change : ExecutionHeld → ExecutionHeld) :
    (ledger.onExecution executionId change).facts = ledger.facts := rfl

theorem facts_accepted (orderId placementId entryId sleeve : String) (start : Nat) (ids : List String)
    (counts : List Nat) (ledger : Ledger) :
    (ledger.accepted orderId placementId entryId sleeve start ids counts).facts = ledger.facts := by
  induction ids generalizing ledger start counts with
  | nil => rfl
  | cons id rest ih =>
    rw [accepted, ih]
    rfl

theorem facts_executed (ledger : Ledger) (execution : Execution) (sender code client taken : String) (row : FactorRow)
    (entryId : String) :
    (ledger.executed execution sender code client taken row entryId).facts =
      ledger.facts.after (.executed execution sender code client taken row) := by
  simp only [executed, FactIndex.after, facts, onOrder, onPlacement, onExecution]
  split <;> split <;> rfl

theorem facts_linked (ledger : Ledger) (order : Order) : (ledger.linked order).facts = ledger.facts := by
  unfold linked
  split <;> rfl

/-- One act leaves of the facts' index what it alone leaves of it. -/
theorem facts_apply (ledger : Ledger) (act : Act) (entryId : String) (versions : BTreeMap String Nat) :
    (ledger.apply act entryId versions).facts = ledger.facts.after act := by
  cases act with
  | opened order released =>
    have linked := facts_linked ledger order
    simp only [apply, FactIndex.after]
    rw [← linked]
    split <;> rfl
  | checked orderId check =>
    simp only [apply]
    split <;> rfl
  | changeOpened request =>
    simp only [apply]
    split <;> rfl
  | placementReported report =>
    simp only [apply, reported]
    split <;> rfl
  | executed execution sender code client taken row => exact facts_executed ..
  | accepted ids orderId placementId counts note => exact facts_accepted ..
  | dontKnow ids reason text => exact read_foldl (fun held id => facts_onExecution held id _) ids ledger
  | unplaced fact sender =>
    simp only [apply, FactIndex.after, facts]
    congr 1
    funext id
    rw [Std.ExtTreeMap.getElem?_insert]
    by_cases same : fact.unplacedId = id
    · simp [same]
    · simp [same]
  | sleeveCrossed cross =>
    refine (@read_foldl _ _ _ Ledger.facts _ (fun held orderId => ?_) cross.orderIds _).trans ?_
    · exact facts_onOrder held orderId _
    · rfl
  | alertRaised alert =>
    simp only [apply]
    split <;> rfl
  | _ => rfl

theorem facts_applyAct (entry : Entry) (versions : BTreeMap String Nat) (ledger : Ledger) (act : Act) :
    (Book.applyAct entry versions ledger act).facts = ledger.facts.after act := by
  have stamped : ledger.facts.after (Book.stamped entry act) = ledger.facts.after act := by
    cases act <;> rfl
  rw [← stamped, ← facts_apply ledger _ entry.entryId versions]
  cases act <;> rfl

theorem facts_referenced (ledger : Ledger) (entryId : String) (refs : Refs) :
    (Book.referenced ledger entryId refs).facts = ledger.facts := by
  unfold Book.referenced
  refine (@read_foldl _ _ _ Ledger.facts _ (fun held row => ?_) refs.executions _).trans ?_
  · exact facts_onExecution held row.1 _
  refine (@read_foldl _ _ _ Ledger.facts _ (fun held row => ?_) refs.placements _).trans ?_
  · rfl
  refine @read_foldl _ _ _ Ledger.facts _ (fun held row => ?_) refs.orders _
  dsimp only
  split <;> rfl

theorem facts_referencedAfter (ledger : Ledger) (entry : Entry) (refs : Refs) :
    (Book.referencedAfter ledger entry refs).facts = ledger.facts := by
  have kept (id : String) :
      ((Book.referencedAfter ledger entry refs).unplaced[id]?).isSome = (ledger.unplaced[id]?).isSome := by
    refine @read_foldl _ _ _ (fun unplaced : BTreeMap String UnplacedFact => (unplaced[id]?).isSome) _
      (fun held row => ?_) refs.unplaced _
    dsimp only
    rw [Std.ExtTreeMap.getElem?_modify]
    split
    · next same =>
      obtain rfl := Std.LawfulEqOrd.eq_of_compare same
      rw [Option.isSome_map]
    · rfl
  exact congrArg (FactIndex.mk _ _) (funext kept)

end Ledger

namespace Book

theorem facts_foldl (entry : Entry) (versions : BTreeMap String Nat) (acts : List Act) (ledger : Ledger) :
    (acts.foldl (applyAct entry versions) ledger).facts = ledger.facts.afterAll acts := by
  induction acts generalizing ledger with
  | nil => rfl
  | cons act rest ih => rw [List.foldl_cons, ih, Ledger.facts_applyAct, FactIndex.afterAll_cons]

/-- What an entry applied leaves of the facts' index is what its acts leave. -/
theorem facts_of_applied {process : Process} {book after : Book} {entry : Entry} {lenient : Bool} {changes : Changes}
    (applied : book.apply process entry lenient = .ok (after, changes)) :
    after.ledger.facts = book.ledger.facts.afterAll entry.body.acts := by
  obtain ⟨phases⟩ := phases applied
  have acted := phases.acts
  have start := phases.recorded_ledger
  rw [phases.closed]
  unfold applyActs at acted
  split at acted
  · next none =>
    obtain ⟨same, -⟩ := Prod.mk.inj (Except.ok.inj acted)
    have ledgers : phases.acted.ledger = book.ledger := by rw [← same, setRecords_ledger, start]
    rw [none, ← ledgers]
    rfl
  · obtain ⟨-, -, acted⟩ := bind_ok.mp acted
    obtain ⟨-, -, acted⟩ := bind_ok.mp acted
    obtain ⟨orders, -, acted⟩ := bind_ok.mp acted
    obtain ⟨placements, -, acted⟩ := bind_ok.mp acted
    obtain ⟨locates, -, acted⟩ := bind_ok.mp acted
    obtain ⟨bookings, -, acted⟩ := bind_ok.mp acted
    obtain ⟨same, -⟩ := Prod.mk.inj (Except.ok.inj acted)
    have facts : phases.acted.ledger.facts = book.ledger.facts.afterAll entry.body.acts := by
      rw [← same, ← start]
      refine (Ledger.facts_referencedAfter ..).trans ?_
      rw [Ledger.facts_referenced]
      exact facts_foldl ..
    exact facts

end Book

end MeridianCore.Bor
