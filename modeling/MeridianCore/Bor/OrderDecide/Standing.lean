import MeridianCore.Bor.OrderDecide.Settled

namespace MeridianCore.Bor

/-- An act of the bookings, the alerts, the factors and the settings, which leaves every order as it stands. -/
def LeavesOrders : Act → Prop
  | .factorRevised _ _ _ _ | .capacityBackfilled _ _ | .notRecordedBackfilled _ _ | .fixedIncomeBackfill _ _
  | .bookingHeld _ _ | .bookingHandedOff _ | .bookingClosed _ | .bookingMoved _ _
  | .alertRaised _ | .alertAcknowledged _ _ | .alertCleared _
  | .localRecordOrdersSet _ | .agentOrdersDemoOnlySet _ => True
  | _ => False

namespace Ledger

theorem live_leaves (ledger : Ledger) {act : Act} (leaves : LeavesOrders act) :
    LiveAlike ledger (ledger.apply act "" ∅) := by
  have execution (id : String) (change : ExecutionHeld → ExecutionHeld)
      (keeps : ∀ held, (change held).counting = held.counting) : LiveAlike ledger (ledger.onExecution id change) :=
    { LiveAlike.refl ledger with executions := (LiveAlike.refl ledger).executions.modify_right id keeps }
  cases act with
  | factorRevised id taken row lots => exact execution id _ fun _ => rfl
  | capacityBackfilled id capacity => exact execution id _ fun _ => rfl
  | alertRaised alert =>
    unfold apply
    dsimp only
    split <;> exact { LiveAlike.refl ledger with }
  | _ => first | exact leaves.elim | exact { LiveAlike.refl ledger with }

theorem live_leaves_all (ledger : Ledger) {acts : List Act} (leave : ∀ act ∈ acts, LeavesOrders act) :
    LiveAlike ledger (ledger.applyAll acts "" ∅) := by
  induction acts generalizing ledger with
  | nil => exact LiveAlike.refl ledger
  | cons act rest ih =>
    exact (ledger.live_leaves (leave act List.mem_cons_self)).trans
      (ih _ fun other member => leave other (List.mem_cons_of_mem _ member))

/-- Where every pending end has something to wait on, a pass ends nothing. -/
theorem round_of_settled {ledger : Ledger} (settled : ledger.Settled) : settlingRound ledger = .ok [] := by
  have each (entries : List (String × OrderHeld))
      (held : ∀ entry ∈ entries, ledger.orders[entry.1]? = some entry.2) :
      entries.mapM (fun entry => settling ledger entry.1 entry.2) = .ok (entries.map fun _ => []) := by
    induction entries with
    | nil => rfl
    | cons entry rest ih =>
      have first : settling ledger entry.1 entry.2 = .ok [] := by
        unfold settling
        split
        next state waits standing =>
          obtain ⟨placements, children, parts, some'⟩ :=
            settled entry.1 entry.2 state (held entry List.mem_cons_self) waits standing
          simp only [parts, bind, Except.bind]
          rw [if_pos (by simpa using some')]
          rfl
        · rfl
      rw [List.mapM_cons, first, ih fun other member => held other (List.mem_cons_of_mem _ member)]
      rfl
  unfold settlingRound
  rw [each _ fun entry member => BTreeMap.mem_toList.mp member]
  have flat (entries : List (String × OrderHeld)) : (entries.map fun _ => ([] : List Act)).flatten = [] := by
    simp
  simp only [bind, Except.bind, flat]
  rfl

end Ledger

/-- Acts that leave every order as it stands settle to themselves. -/
theorem settle_of_leaves {book : Book} {acts : List Act} (settled : book.ledger.Settled)
    (leave : ∀ act ∈ acts, LeavesOrders act) : settle book acts = .ok acts := by
  have still := Ledger.settled_of_live (book.ledger.live_leaves_all leave) settled
  unfold settle
  dsimp only
  have passes : settleFrom (book.ledger.applyAll acts "" ∅).depth (book.ledger.applyAll acts "" ∅) = .ok [] := by
    unfold Ledger.depth settleFrom
    rw [Ledger.round_of_settled still]
    rfl
  rw [passes]
  simp only [bind, Except.bind, List.append_nil]
  rfl

namespace Ledger

/-- Nothing of the orders touched. -/
structure NoOrders (touched : Touched) : Prop where
  orders : touched.orders = []
  placements : touched.placements = []
  locates : touched.locates = []

theorem noOrders_act {ledger : Ledger} {touched : Touched} {act : Act} (none' : NoOrders touched)
    (leaves : LeavesOrders act) : NoOrders (Touched.act ledger touched act) := by
  cases act with
  | _ => first | exact leaves.elim | exact ⟨none'.orders, none'.placements, none'.locates⟩

theorem noOrders_touched {ledger : Ledger} {acts : List Act} (leave : ∀ act ∈ acts, LeavesOrders act) :
    NoOrders (ledger.touched acts) := by
  have named (touched : Touched) (none' : NoOrders touched) : NoOrders (acts.foldl (Touched.act ledger) touched) := by
    induction acts generalizing touched with
    | nil => exact none'
    | cons act rest ih =>
      exact ih (fun other member => leave other (List.mem_cons_of_mem _ member)) _
        (noOrders_act none' (leave act List.mem_cons_self))
  have start := named {} ⟨rfl, rfl, rfl⟩
  refine ⟨?_, start.placements, start.locates⟩
  unfold touched
  dsimp only
  rw [start.orders]
  unfold Worklist.close
  split <;> rfl

end Ledger

theorem mapM_total {α β : Type} {read : α → Result β} {entries : List α}
    (reads : ∀ entry ∈ entries, ∃ answer, read entry = .ok answer) : ∃ answers, entries.mapM read = .ok answers := by
  induction entries with
  | nil => exact ⟨[], rfl⟩
  | cons entry rest ih =>
    obtain ⟨answer, first⟩ := reads entry List.mem_cons_self
    obtain ⟨answers, later⟩ := ih fun other member => reads other (List.mem_cons_of_mem _ member)
    refine ⟨answer :: answers, ?_⟩
    rw [List.mapM_cons, first, later]
    rfl

namespace Book

/-- Acts that touch no order, placement or locate apply. -/
theorem applyActs_total {book : Book} {entry : Entry} {changes : Changes} {refs : Refs} (orders : refs.orders = [])
    (placements : refs.placements = []) (locates : refs.locates = []) :
    ∃ acted changed, book.applyActs entry changes refs = .ok (acted, changed) := by
  have bookings (ledger : Ledger) :
      ∃ records, recordsOf ledger.bookings.contains ledger.bookingRecord refs.bookings = .ok records := by
    refine mapM_total fun id member => ?_
    have held := (List.mem_filter.mp member).2
    rw [Std.ExtTreeMap.contains_eq_isSome_getElem?] at held
    obtain ⟨booking, found⟩ := Option.isSome_iff_exists.mp held
    unfold Ledger.bookingRecord
    rw [found]
    exact ⟨_, rfl⟩
  unfold applyActs
  split
  · exact ⟨_, _, rfl⟩
  · rw [orders, placements, locates]
    obtain ⟨records, read⟩ := bookings (referencedAfter
      (referenced (entry.body.acts.foldl (applyAct entry ∅) book.ledger) entry.entryId refs) entry refs)
    simp only [List.foldl_nil, recordsOf, List.map_nil, List.filter_nil, List.mapM_nil, pure, Except.pure, bind,
      Except.bind] at read ⊢
    rw [read]
    exact ⟨_, _, rfl⟩

/-- An entry of acts alone that leave every order as it stands, and touch something, applies. -/
theorem apply_of_leaves {process : Process} {book : Book} {entry : Entry}
    (acts : entry.body = { acts := entry.body.acts, attributes := entry.body.attributes, statesWaits := entry.body.statesWaits })
    (unnumbered : entry.lastSequence = 0) (leave : ∀ act ∈ entry.body.acts, LeavesOrders act)
    (some' : (book.ledger.touched entry.body.acts).bookings ≠ []) :
    ∃ after changes, book.apply process entry false = .ok (after, changes) := by
  have lines : entry.body.lines = [] := by rw [acts]
  have bases : entry.body.basisAdjustments = [] := by rw [acts]
  have encumbrances : entry.body.encumbrances = [] := by rw [acts]
  have sources : entry.body.sources = [] := by rw [acts]
  have touched : book.touched entry.body = [] := by
    rw [acts]
    rfl
  have noOrders : Ledger.NoOrders (book.ledger.touched entry.body.acts) := Ledger.noOrders_touched leave
  have positions : (book.number entry).1.positions = [] := by
    unfold number
    dsimp only
    rw [touched]
    rfl
  have refs : (book.number entry).1.orders = [] ∧ (book.number entry).1.placements = [] ∧
      (book.number entry).1.locates = [] := by
    unfold number
    dsimp only
    rw [noOrders.orders, noOrders.placements, noOrders.locates]
    exact ⟨rfl, rfl, rfl⟩
  have bookings : (book.number entry).1.bookings ≠ [] := by
    intro none'
    have keys : (book.number entry).1.bookings.map Prod.fst = (book.ledger.touched entry.body.acts).bookings := by
      unfold number refsOf
      dsimp only
      rw [List.map_map]
      exact Chained.Counter.each_map_fst _ _ _
    rw [none'] at keys
    exact some' keys.symm
  obtain ⟨first, named⟩ : ∃ first, firstRef (book.number entry).1 = some first := by
    refine Option.ne_none_iff_exists'.mp fun none' => bookings ?_
    have empty := List.head?_eq_none_iff.mp none'
    simp only [List.append_eq_nil_iff, List.map_eq_nil_iff] at empty
    exact empty.1.1.2
  obtain ⟨moved, moves⟩ : ∃ moved, applyPositions process { book with chains := (book.number entry).2.last } entry
      (book.number entry).1 false = .ok moved := by
    unfold applyPositions
    dsimp only
    rw [lines, bases, encumbrances, sources]
    exact ⟨_, rfl⟩
  obtain ⟨acted, changed, acts⟩ := @applyActs_total
    (moved.setRecords entry.body first (book.number entry).1
      { positions := [], first, lastSequence := (book.number entry).2.next - 1 }).1 entry
    (moved.setRecords entry.body first (book.number entry).1
      { positions := [], first, lastSequence := (book.number entry).2.next - 1 }).2 _ refs.1 refs.2.1 refs.2.2
  refine ⟨acted.closeEntry entry first, changed, Phases.applied {
    previous := []
    first := first
    moved := moved
    recorded := moved
    positions := []
    acted := acted
    before := ?_
    named := named
    numbered := .inl unnumbered
    moves := moves
    records := ?_
    acts := acts
    closed := rfl }⟩
  · rw [touched]
    rfl
  · rw [positions]
    rfl

end Book

/-- A plan of acts alone that leave every order as it stands, and touch a booking, is made of an account whose pending
ends each have something to wait on. -/
theorem finish_of_leaves {book : Book} {head : Nat} {ctx : Context} {plan : Plan} (settled : book.ledger.Settled)
    (lines : plan.lines = []) (leave : ∀ act ∈ plan.acts, LeavesOrders act)
    (some' : (book.ledger.touched plan.acts).bookings ≠ []) :
    ∃ act, finish book head ctx plan = .ok act ∧ act.entry.body.acts = plan.acts := by
  have body : (plan.draft book ctx plan.acts).body.lines = [] := by
    unfold Plan.draft landed
    rw [lines]
    rfl
  obtain ⟨after, changes, applied⟩ := @Book.apply_of_leaves ctx.process book
    ((plan.draft book ctx plan.acts).entry book head ctx) (by
      change (plan.draft book ctx plan.acts).body = _
      unfold Plan.draft landed
      rw [lines]
      rfl) rfl leave some'
  have checked : after.check ctx.process (plan.draft book ctx plan.acts).body = .ok () := by
    unfold Book.check
    have touched : after.touched (plan.draft book ctx plan.acts).body = [] := by
      unfold Plan.draft landed
      rw [lines]
      rfl
    rw [touched]
    rfl
  refine ⟨{
    entry := { (plan.draft book ctx plan.acts).entry book head ctx with lastSequence := changes.lastSequence }
    book := after
    changes := changes }, ?_, rfl⟩
  unfold finish
  rw [settle_of_leaves settled leave]
  refine bind_ok.mpr ⟨_, rfl, ?_⟩
  unfold made
  refine bind_ok.mpr ⟨_, applied, ?_⟩
  exact bind_ok.mpr ⟨_, checked, rfl⟩

end MeridianCore.Bor
