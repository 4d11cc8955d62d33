import MeridianCore.Bor.Book.Applied
import MeridianCore.Bor.Orders.OrderAfter
import MeridianCore.Bor.Orders.Living

namespace MeridianCore.Bor

namespace Ledger

/-- An entry's act leaves what the act alone would, but for who recorded it and when. -/
theorem live_applyAct {a b : Ledger} (alike : LiveAlike a b) (entry : Entry) (versions : BTreeMap String Nat) (act : Act) :
    LiveAlike (a.apply act "" ∅) (Book.applyAct entry versions b act) := by
  cases act with
  | giveUpRecorded executionId bookingId allocationId record =>
    refine LiveAlike.booked (LiveAlike.onExecution alike executionId ?_)
    exact fun _ _ same => same
  | bookingOpened booking lines =>
    have applied := alike.apply (.bookingOpened booking lines) "" entry.entryId ∅ versions
    exact { applied with }
  | bookingReplaced id allocations date reason lines =>
    have applied := alike.apply (.bookingReplaced id allocations date reason lines) "" entry.entryId ∅ versions
    exact { applied with }
  | opened order released =>
    have applied := alike.apply (.opened order released) "" entry.entryId ∅ versions
    exact { applied with orders := applied.orders.modify_right order.orderId (by exact fun _ => rfl) }
  | changeOpened request =>
    have applied := alike.apply (.changeOpened request) "" entry.entryId ∅ versions
    exact { applied with changes := applied.changes.modify_right request.changeRequestId (by exact fun _ => rfl) }
  | _ => exact alike.apply _ "" entry.entryId ∅ versions

/-- Records given their references stand as they stood. -/
theorem live_referenced {a b : Ledger} (alike : LiveAlike a b) (entryId : String) (refs : Refs) :
    LiveAlike a (Book.referenced b entryId refs) := by
  have orders (named : List (String × JournalRef)) {b : Ledger} (alike : LiveAlike a b) :
      LiveAlike a (named.foldl (fun held row =>
        if held.orders.contains row.1 then
          { held.onOrder row.1 fun order => { order with lastChange := some row.2 } with
            orderEntries := held.orderEntries.insert row.1 ((held.orderEntries[row.1]?).getD [] ++ [entryId]) }
        else held) b) := by
    induction named generalizing b with
    | nil => exact alike
    | cons row rest ih =>
      refine ih ?_
      dsimp only
      split
      · exact { alike with orders := alike.orders.modify_right row.1 (by exact fun _ => rfl) }
      · exact alike
  have placements (named : List (String × JournalRef)) {b : Ledger} (alike : LiveAlike a b) :
      LiveAlike a (named.foldl (fun held row =>
        held.onPlacement row.1 fun placement => { placement with lastChange := some row.2 }) b) := by
    induction named generalizing b with
    | nil => exact alike
    | cons row rest ih =>
      exact ih { alike with placements := alike.placements.modify_right row.1 (by exact fun _ => rfl) }
  have executions (named : List (String × JournalRef)) {b : Ledger} (alike : LiveAlike a b) :
      LiveAlike a (named.foldl (fun held row =>
        held.onExecution row.1 fun execution => { execution with execution.lastChange := some row.2 }) b) := by
    induction named generalizing b with
    | nil => exact alike
    | cons row rest ih =>
      exact ih { alike with executions := alike.executions.modify_right row.1 (by exact fun _ => rfl) }
  exact executions _ (placements _ (orders _ alike))

theorem live_applyActs {book after : Book} {entry : Entry} {changes changed : Changes} {refs : Refs}
    (applied : book.applyActs entry changes refs = .ok (after, changed)) :
    LiveAlike (book.ledger.applyAll entry.body.acts "" ∅) after.ledger := by
  unfold Book.applyActs at applied
  split at applied
  · next none =>
    cases applied
    rw [none]
    exact LiveAlike.refl _
  · obtain ⟨-, -, applied⟩ := bind_ok.mp applied
    obtain ⟨-, -, applied⟩ := bind_ok.mp applied
    obtain ⟨orders, -, applied⟩ := bind_ok.mp applied
    obtain ⟨placements, -, applied⟩ := bind_ok.mp applied
    obtain ⟨locates, -, applied⟩ := bind_ok.mp applied
    obtain ⟨bookings, -, applied⟩ := bind_ok.mp applied
    cases applied
    have acted (versions : BTreeMap String Nat) (acts : List Act) {a b : Ledger} (alike : LiveAlike a b) :
        LiveAlike (a.applyAll acts "" ∅) (acts.foldl (Book.applyAct entry versions) b) := by
      induction acts generalizing a b with
      | nil => exact alike
      | cons act rest ih => exact ih (live_applyAct alike entry versions act)
    have referenced := live_referenced (acted (refs.orders.foldl (fun held row =>
      held.insert row.1 row.2.sequence) ∅) entry.body.acts (LiveAlike.refl book.ledger)) entry.entryId refs
    exact { referenced with }

/-- An entry's act leaves of an order what the act alone would, but for who opened it and when. -/
theorem order_applyAct (entry : Entry) (versions : BTreeMap String Nat) (ledger : Ledger) (act : Act) (id : String) :
    ((Book.applyAct entry versions ledger act).orders[id]?).map OrderHeld.unsigned =
      orderAfter versions id ((ledger.orders[id]?).map OrderHeld.unsigned) act := by
  have stamped : orderAfter versions id ((ledger.orders[id]?).map OrderHeld.unsigned) (Book.stamped entry act) =
      orderAfter versions id ((ledger.orders[id]?).map OrderHeld.unsigned) act := by
    cases act <;> rfl
  rw [← stamped, ← unsigned_orderAfter, ← order_apply ledger _ entry.entryId versions]
  cases act with
  | opened order released =>
    have signed := order_onOrder (ledger.apply (.opened order released) entry.entryId versions) order.orderId
      (fun held => { held with openedBy := entry.causeInstanceId, openedAtNs := entry.entryMeta.receivedAtNs }) id
    refine Eq.trans (congrArg (Option.map OrderHeld.unsigned) signed) ?_
    split
    · rw [Option.map_map]
      rfl
    · rfl
  | _ => rfl

theorem order_referenced (ledger : Ledger) (entryId : String) (refs : Refs) (id : String) :
    ((Book.referenced ledger entryId refs).orders[id]?).map OrderHeld.unsigned =
      (ledger.orders[id]?).map OrderHeld.unsigned := by
  let read (ledger : Ledger) := (ledger.orders[id]?).map OrderHeld.unsigned
  unfold Book.referenced
  refine (@read_foldl _ _ _ read _ (by exact fun held row => rfl) refs.executions _).trans ?_
  refine (@read_foldl _ _ _ read _ (by exact fun held row => rfl) refs.placements _).trans ?_
  refine @read_foldl _ _ _ read _ (fun held row => ?_) refs.orders ledger
  dsimp only [read]
  split
  · have named := order_onOrder held row.1 (fun order => { order with lastChange := some row.2 }) id
    refine Eq.trans (congrArg (Option.map OrderHeld.unsigned) named) ?_
    split
    · rw [Option.map_map]
      rfl
    · rfl
  · rfl

end Ledger

namespace Book

theorem setRecords_ledger (book : Book) (body : Body) (first : JournalRef) (refs : Refs) (changes : Changes) :
    (book.setRecords body first refs changes).1.ledger = book.ledger := rfl

/-- An entry applied leaves of each order what its acts say, but for who opened it, when, and its last
change. -/
theorem order_of_applied {process : Process} {book after : Book} {entry : Entry} {lenient : Bool}
    {changes : Changes} (applied : book.apply process entry lenient = .ok (after, changes)) (id : String) :
    ∃ versions, (after.ledger.orders[id]?).map OrderHeld.unsigned =
      entry.body.acts.foldl (Ledger.orderAfter versions id) ((book.ledger.orders[id]?).map OrderHeld.unsigned) := by
  obtain ⟨phases⟩ := phases applied
  have acted := phases.acts
  rw [phases.closed]
  have start := phases.recorded_ledger
  unfold applyActs at acted
  split at acted
  · next none =>
    refine ⟨∅, ?_⟩
    obtain ⟨same, -⟩ := Prod.mk.inj (Except.ok.inj acted)
    have ledgers : phases.acted.ledger = book.ledger := by rw [← same, setRecords_ledger, start]
    rw [none, List.foldl_nil, ← ledgers]
    rfl
  · obtain ⟨-, -, acted⟩ := bind_ok.mp acted
    obtain ⟨-, -, acted⟩ := bind_ok.mp acted
    obtain ⟨orders, -, acted⟩ := bind_ok.mp acted
    obtain ⟨placements, -, acted⟩ := bind_ok.mp acted
    obtain ⟨locates, -, acted⟩ := bind_ok.mp acted
    obtain ⟨bookings, -, acted⟩ := bind_ok.mp acted
    obtain ⟨same, -⟩ := Prod.mk.inj (Except.ok.inj acted)
    rw [← same, ← start]
    refine ⟨(book.number entry).1.orders.foldl (fun held row => held.insert row.1 row.2.sequence) ∅, ?_⟩
    refine (Ledger.order_referenced _ _ _ id).trans ?_
    change (((entry.body.acts.foldl (applyAct entry _) phases.recorded.ledger)).orders[id]?).map OrderHeld.unsigned = _
    generalize phases.recorded.ledger = ledger
    induction entry.body.acts generalizing ledger with
    | nil => rfl
    | cons act rest ih => rw [List.foldl_cons, ih, Ledger.order_applyAct, List.foldl_cons]

/-- An entry applied leaves orders standing as its acts alone would. -/
theorem live_of_applied {process : Process} {book after : Book} {entry : Entry} {lenient : Bool}
    {changes : Changes} (applied : book.apply process entry lenient = .ok (after, changes)) :
    LiveAlike (book.ledger.applyAll entry.body.acts "" ∅) after.ledger := by
  obtain ⟨phases⟩ := phases applied
  have acted := Ledger.live_applyActs phases.acts
  rw [setRecords_ledger, phases.recorded_ledger] at acted
  rw [phases.closed]
  exact acted

/-- An entry applied changes an order's endings as its acts say. -/
theorem endings_of_applied {process : Process} {book after : Book} {entry : Entry} {lenient : Bool}
    {changes : Changes} (applied : book.apply process entry lenient = .ok (after, changes)) (orderId : String) :
    after.ledger.endings orderId =
      entry.body.acts.foldl (Ledger.endingsAfter orderId) (book.ledger.endings orderId) := by
  rw [← Ledger.endings_applyAll book.ledger entry.body.acts "" ∅]
  exact (live_of_applied applied).orders.further (fun living => (living.ended, living.ending)) orderId

end Book

end MeridianCore.Bor
