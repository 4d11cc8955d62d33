import MeridianCore.Bor.Book.Acted
import MeridianCore.Bor.OrderDecide.Report
import MeridianCore.Bor.OrderDecide.Settling
import MeridianCore.Bor.Transitions

namespace MeridianCore.Bor

namespace Ledger

/-- Whether an order waits for nothing, or for a cancellation or an expiry. -/
def waitsToEnd (held : OrderHeld) : Bool :=
  match held.ending with
  | some state => state == .cancelled || state == .expired
  | none => true

theorem waitsToEnd_of_orders {ledger : Ledger}
    (checked : (ledger.orders.toList.all fun entry => waitsToEnd entry.2) = true) : ledger.WaitsToEnd := by
  intro orderId ended state found
  obtain ⟨held, member, same⟩ := Option.map_eq_some_iff.mp found
  have waits := List.all_eq_true.mp checked _ (BTreeMap.mem_toList.mpr member)
  have ending : held.ending = some state := congrArg Prod.snd same
  simpa [waitsToEnd, ending] using waits

/-- The acts of a plan wait for a cancellation or an expiry alone. -/
def AsksToEnd (acts : List Act) : Prop :=
  ∀ orderId state, .ending orderId state ∈ acts → state = .cancelled ∨ state = .expired

/-- What one order waits for is a cancellation or an expiry. -/
def EndsOnly (endings : Option (Option OrderState × Option OrderState)) : Prop :=
  ∀ ended state, endings = some (ended, some state) → state = .cancelled ∨ state = .expired

theorem endsOnly_foldl {orderId : String} {acts : List Act} (asks : AsksToEnd acts)
    {before : Option (Option OrderState × Option OrderState)} (only : EndsOnly before) :
    EndsOnly (acts.foldl (endingsAfter orderId) before) := by
  induction acts generalizing before with
  | nil => exact only
  | cons act rest ih =>
    refine ih (fun id state member => asks id state (List.mem_cons_of_mem _ member)) ?_
    intro ended state found
    cases act with
    | opened order released =>
      simp only [endingsAfter] at found
      split at found
      · cases stood : before with
        | none => simp [stood] at found
        | some held =>
          rw [stood] at found
          obtain rfl : held = (ended, some state) := Option.some.inj found
          exact only ended state stood
      · exact only ended state found
    | ended id stored =>
      simp only [endingsAfter] at found
      split at found
      · obtain ⟨held, -, same⟩ := Option.map_eq_some_iff.mp found
        cases same
      · exact only ended state found
    | ending id stored =>
      simp only [endingsAfter] at found
      split at found
      · obtain ⟨held, -, same⟩ := Option.map_eq_some_iff.mp found
        cases same
        exact asks id state List.mem_cons_self
      · exact only ended state found
    | _ => exact only ended state found

theorem waitsToEnd_applyAll {ledger : Ledger} (waits : ledger.WaitsToEnd) {acts : List Act} (asks : AsksToEnd acts)
    (entryId : String) (versions : BTreeMap String Nat) : (ledger.applyAll acts entryId versions).WaitsToEnd := by
  intro orderId
  rw [endings_applyAll]
  exact endsOnly_foldl asks (waits orderId)

end Ledger

/-- Every book made of entries that ask for a cancellation or an expiry alone waits for those alone. -/
theorem waitsToEnd_of_run {accountId partition : String} {makings : List Making} {book : Book}
    (run : Run (fun book making after => Ledger.AsksToEnd making.draft.body.acts ∧ make book making = .ok after)
      (Book.new accountId partition) makings book) : book.ledger.WaitsToEnd := by
  refine run.invariant_of (fun book => book.ledger.WaitsToEnd) ?_ ?_
  · intro orderId ended state found
    cases found
  · intro before making after waits asks taken orderId
    obtain ⟨act, decided, rfl⟩ := make_ok taken
    obtain ⟨applied, -, -⟩ := made_ok decided
    have only : Ledger.EndsOnly (act.book.ledger.endings orderId) := by
      rw [Book.endings_of_applied applied]
      exact Ledger.endsOnly_foldl asks (waits orderId)
    exact only

/-- What an entry made leaves of an order's endings: those its plan settles, ended as they wait. -/
theorem endings_finish {book : Book} {head : Nat} {ctx : Context} {plan : Plan} {made : Made}
    (finished : finish book head ctx plan = .ok made)
    (waits : (book.ledger.applyAll plan.acts "" ∅).WaitsToEnd) {orderId : String} {state : OrderState}
    (waiting : (book.ledger.applyAll plan.acts "" ∅).endings orderId = some (none, some state)) :
    ((book.ledger.applyAll plan.acts "" ∅).Settles orderId → made.book.ledger.endings orderId = some (some state, none)) ∧
      (¬ (book.ledger.applyAll plan.acts "" ∅).Settles orderId →
        made.book.ledger.endings orderId = some (none, some state)) := by
  unfold finish settle at finished
  obtain ⟨acts, whole, finished⟩ := bind_ok.mp finished
  obtain ⟨more, settled, whole⟩ := bind_ok.mp whole
  cases whole
  obtain ⟨applied, -, -⟩ := made_ok finished
  have ended : made.book.ledger.endings orderId =
      ((book.ledger.applyAll plan.acts "" ∅).applyAll more "" ∅).endings orderId := by
    rw [Book.endings_of_applied applied, ← Ledger.applyAll_append, Ledger.endings_applyAll]
    rfl
  obtain ⟨ends, keeps⟩ := Ledger.endings_settleFrom settled waits orderId
  rw [ended]
  refine ⟨fun settles => ?_, fun stands => (keeps stands).trans waiting⟩
  obtain ⟨stored, found, after⟩ := ends settles
  rw [waiting] at found
  cases found
  exact after

/-- An order whose cancel or expiry waits, and whose entry's acts bring its reported filled to its
ordered quantity, is left filled, as the table's rows of fills say, exactly where settling does not end
it: some placement of it is live after the acts, or some child that is live does not settle itself. -/
theorem left_filled_iff {book : Book} {head : Nat} {ctx : Context} {plan : Plan} {made : Made}
    (finished : finish book head ctx plan = .ok made) (waits : book.ledger.WaitsToEnd)
    (asks : Ledger.AsksToEnd plan.acts) {orderId : String} {state : OrderState}
    (waiting : (book.ledger.applyAll plan.acts "" ∅).endings orderId = some (none, some state)) {held : OrderHeld}
    {fills : Fills} (found : made.book.ledger.orders[orderId]? = some held)
    (filled : made.book.ledger.filled orderId = .ok fills) (positive : (Ledger.ordered held).isZero = false)
    (reached : fills.reported.atLeast (Ledger.ordered held) = true) :
    (made.book.ledger.state orderId = .ok .filled ↔ ¬ (book.ledger.applyAll plan.acts "" ∅).Settles orderId) ∧
      ∀ row ∈ [fillsWhileCancelPending, fillsWhileReplacePending],
        ((∃ after, made.book.ledger.state orderId = .ok after ∧ row.admits (some .working) after = true) ↔
          ¬ (book.ledger.applyAll plan.acts "" ∅).Settles orderId) := by
  have asked := Ledger.waitsToEnd_applyAll waits asks "" ∅
  obtain ⟨ends, keeps⟩ := endings_finish finished asked waiting
  by_cases settles : (book.ledger.applyAll plan.acts "" ∅).Settles orderId
  · have ended : held.ended = some state := by
      have after := ends settles
      rw [Ledger.endings, found] at after
      exact congrArg Prod.fst (Option.some.inj after)
    have derived := Ledger.state_of_ended found ended
    constructor
    · rw [derived]
      rcases asked orderId none state waiting with rfl | rfl <;> simp [settles]
    · intro row member
      have refused : row.admits (some .working) state = false := by
        rcases asked orderId none state waiting with rfl | rfl <;>
          rcases List.mem_pair.mp member with rfl | rfl <;> rfl
      rw [derived]
      simp [settles, refused]
  · have standing : held.ended = none := by
      have after := keeps settles
      rw [Ledger.endings, found] at after
      exact congrArg Prod.fst (Option.some.inj after)
    have derived := Ledger.state_of_filled found standing filled positive reached
    constructor
    · simp [derived, settles]
    · intro row member
      have admitted : row.admits (some .working) .filled = true := by
        rcases List.mem_pair.mp member with rfl | rfl <;> rfl
      rw [derived]
      simp [settles, admitted]

/-- An account with one order for a hundred, its placement working at the venue. -/
def workingMakings (placements : List Placement) : List Making :=
  let drafted (head : Nat) (entryId kind : String) (acts : List Act) : Making :=
    { head, ctx := {}, draft := { entryId, kind, effectiveDate := "2026-01-05", body := { acts } } }
  [drafted 0 "ENT-1" "order-proposed"
      [.opened { orderId := "ORD-1", instrumentId := "AAA", side := .buy, quantity := some ⟨100, 0⟩ } true],
    drafted 1 "ENT-2" "order-placed" (placements.map Act.placementOpened),
    drafted 4 "ENT-3" "placement-reported"
      (placements.map fun placement =>
        .placementReported { placementId := placement.placementId, event := .acknowledged }),
    drafted 7 "ENT-4" "order-cancel-requested"
      [.changeOpened { changeRequestId := "CRQ-1", orderId := "ORD-1", outcome := .pending
                       change := some (.orderChange { kind := .cancel }) },
        .ending "ORD-1" .cancelled]]

def wholePlacement : Placement where
  placementId := "PLC-1"
  orderId := "ORD-1"
  connectivityInstanceId := "VENUE-1"
  quantity := some ⟨100, 0⟩

def secondPlacement : Placement := { wholePlacement with placementId := "PLC-2", quantity := some ⟨50, 0⟩ }

/-- The venue's fill of the whole order. -/
def wholeFill : ReportExecutionRequest where
  placementId := "PLC-1"
  venueExecutionId := "V-1"
  quantity := some ⟨100, 0⟩
  price := some { amount := some ⟨10, 0⟩, currencyCode := "USD", instrumentId := "CASH-USD" }
  tradeDate := "2026-01-05"
  settlementDate := "2026-01-07"

def venueContext : Context := { instanceId := "VENUE-1" }

/-- Whether the entry made leaves the order's reported filled at its ordered quantity, in the state. -/
def filledAs (orderId : String) (state : OrderState) (made : Made) : Bool :=
  (made.book.ledger.orders[orderId]?).any fun held =>
    (made.book.ledger.filled orderId).toOption.any fun fills =>
      !(Ledger.ordered held).isZero && fills.reported.atLeast (Ledger.ordered held) &&
        (made.book.ledger.state orderId == .ok state)

theorem filledAs_spec {orderId : String} {state : OrderState} {made : Made} (as : filledAs orderId state made = true) :
    ∃ held fills, made.book.ledger.orders[orderId]? = some held ∧ made.book.ledger.filled orderId = .ok fills ∧
      (Ledger.ordered held).isZero = false ∧ fills.reported.atLeast (Ledger.ordered held) = true ∧
      made.book.ledger.state orderId = .ok state := by
  obtain ⟨held, found, as⟩ := Option.any_eq_true _ _ |>.mp as
  obtain ⟨fills, filled, as⟩ := answered_of as
  simp only [Bool.and_eq_true, Bool.not_eq_true', beq_iff_eq] at as
  exact ⟨held, fills, found, filled, as.1.1, as.1.2, as.2⟩

/-- Whether an act waits for no other end than a cancellation or an expiry. -/
def asksToEnd : Act → Bool
  | .ending _ state => state == .cancelled || state == .expired
  | _ => true

/-- Whether an order still waits for its cancellation with a placement of it live. -/
def waitsBeside (ledger : Ledger) (orderId placementId : String) : Bool :=
  (ledger.orders[orderId]?).any (fun held => held.placements.contains placementId) &&
    (ledger.placementLive placementId == .ok true) && (ledger.endings orderId == some (none, some .cancelled))

theorem not_settles_beside {ledger : Ledger} {orderId placementId : String}
    (beside : waitsBeside ledger orderId placementId = true) : ¬ ledger.Settles orderId := by
  simp only [waitsBeside, Bool.and_eq_true, beq_iff_eq] at beside
  obtain ⟨⟨placed, live⟩, -⟩ := beside
  rintro ⟨found, -, -, placements, -⟩
  rw [found] at placed
  have dead := placements placementId (by simpa using placed)
  rw [live] at dead
  cases dead

/-- With a second placement live at the venue the order a fill fills is left filled. -/
theorem left_filled_beside_live :
    ∃ (book : Book) (plan : Plan) (made : Made),
      executionPlan book venueContext wholeFill = .ok plan ∧ finish book 9 venueContext plan = .ok made ∧
        made.book.ledger.state "ORD-1" = .ok .filled := by
  have computed : ((workingMakings [wholePlacement, secondPlacement]).foldlM make (Book.new "ACC-1" "P-1")).toOption.any
      (fun book => book.ledger.orders.toList.all (fun entry => Ledger.waitsToEnd entry.2) &&
        (executionPlan book venueContext wholeFill).toOption.any fun plan =>
          plan.acts.all asksToEnd && waitsBeside (book.ledger.applyAll plan.acts "" ∅) "ORD-1" "PLC-2" &&
            (finish book 9 venueContext plan).toOption.any (filledAs "ORD-1" .filled)) = true := by
    decide +kernel
  obtain ⟨book, -, computed⟩ := answered_of computed
  obtain ⟨checked, computed⟩ := Bool.and_eq_true_iff.mp computed
  obtain ⟨plan, planned, computed⟩ := answered_of computed
  simp only [Bool.and_eq_true] at computed
  obtain ⟨⟨asks, beside⟩, computed⟩ := computed
  obtain ⟨made, finished, as⟩ := answered_of computed
  obtain ⟨held, fills, found, filled, positive, reached, -⟩ := filledAs_spec as
  have asked : Ledger.AsksToEnd plan.acts := by
    intro id state member
    simpa [asksToEnd] using List.all_eq_true.mp asks _ member
  have waiting : (book.ledger.applyAll plan.acts "" ∅).endings "ORD-1" = some (none, some .cancelled) :=
    beq_iff_eq.mp (Bool.and_eq_true_iff.mp beside).2
  exact ⟨book, plan, made, planned, finished,
    (left_filled_iff finished (Ledger.waitsToEnd_of_orders checked) asked waiting found filled positive reached).1.mpr
      (not_settles_beside beside)⟩

/-- A cancel waiting on an order's one placement takes the order, filled by that placement's fill, to
cancelled. -/
theorem filled_order_cancelled :
    ¬ ∀ (book : Book) (head : Nat) (ctx : Context) (request : ReportExecutionRequest) (made : Made) (orderId : String)
        (state : OrderState) (held : OrderHeld) (fills : Fills), book.Reachable → book.ledger.WaitsToEnd →
      reportExecution book head ctx request = .ok made → book.ledger.endings orderId = some (none, some state) →
      made.book.ledger.orders[orderId]? = some held → made.book.ledger.filled orderId = .ok fills →
      (Ledger.ordered held).isZero = false → fills.reported.atLeast (Ledger.ordered held) = true →
      made.book.ledger.state orderId = .ok .filled := by
  intro claim
  have computed : ((workingMakings [wholePlacement]).foldlM make (Book.new "ACC-1" "P-1")).toOption.any
      (fun book => book.ledger.orders.toList.all (fun entry => Ledger.waitsToEnd entry.2) &&
        (book.ledger.endings "ORD-1" == some (none, some .cancelled)) &&
          (reportExecution book 9 venueContext wholeFill).toOption.any (filledAs "ORD-1" .cancelled)) = true := by
    decide +kernel
  obtain ⟨book, folded, computed⟩ := answered_of computed
  simp only [Bool.and_eq_true] at computed
  obtain ⟨⟨checked, waiting⟩, computed⟩ := computed
  obtain ⟨made, reported, as⟩ := answered_of computed
  obtain ⟨held, fills, found, filled, positive, reached, state⟩ := filledAs_spec as
  have left := claim book 9 venueContext wholeFill made "ORD-1" .cancelled held fills (reachable_of_make folded)
    (Ledger.waitsToEnd_of_orders checked) reported (beq_iff_eq.mp waiting) found filled positive reached
  rw [state] at left
  cases left

end MeridianCore.Bor
