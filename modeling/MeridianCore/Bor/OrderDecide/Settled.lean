import MeridianCore.Bor.Book.Acted
import MeridianCore.Bor.Orders.Named
import MeridianCore.Bor.OrderDecide.Settling

namespace MeridianCore.Bor

namespace Ledger

/-- Every order whose end is pending has something live to wait on: a placement, or a child. -/
def Settled (ledger : Ledger) : Prop :=
  ∀ (orderId : String) (held : OrderHeld) (state : OrderState), ledger.orders[orderId]? = some held →
    held.ending = some state → held.ended = none →
      ∃ placements children, ledger.liveParts orderId = .ok (placements, children) ∧
        (placements ≠ [] ∨ children ≠ [])

theorem settled_of_live {a b : Ledger} (alike : LiveAlike a b) (settled : a.Settled) : b.Settled := by
  intro orderId later state found waits standing
  rcases alike.orders.either orderId with ⟨-, inB⟩ | ⟨held, after, inA, inB, same⟩
  · rw [found] at inB
    cases inB
  · rw [found] at inB
    cases inB
    have ending : held.ending = some state := (congrArg Living.ending same).symm.trans waits
    have ended : held.ended = none := (congrArg Living.ended same).symm.trans standing
    rw [alike.liveParts]
    exact settled orderId held state inA ending ended

theorem settling_of_waiting {ledger : Ledger} {orderId : String} {held : OrderHeld} {state : OrderState}
    (waits : held.ending = some state) (standing : held.ended = none)
    (settled : settling ledger orderId held = .ok []) :
    ∃ placements children, ledger.liveParts orderId = .ok (placements, children) ∧
      (placements ≠ [] ∨ children ≠ []) := by
  unfold settling at settled
  simp only [waits, standing] at settled
  obtain ⟨⟨placements, children⟩, parts, settled⟩ := bind_ok.mp settled
  refine ⟨placements, children, parts, ?_⟩
  simp only at settled
  split at settled
  · next alive => simpa using alive
  · simp [pure, Except.pure] at settled

theorem settled_of_round {ledger : Ledger} (settled : settlingRound ledger = .ok []) : ledger.Settled := by
  unfold settlingRound at settled
  obtain ⟨each, read, settled⟩ := bind_ok.mp settled
  have quiet : each.flatten = [] := Except.ok.inj settled
  intro orderId held state found waits standing
  obtain ⟨mine, inEach, answered⟩ := mapM_answer read (BTreeMap.mem_toList.mpr found)
  obtain rfl : mine = [] := List.flatten_eq_nil_iff.mp quiet mine inEach
  exact settling_of_waiting waits standing answered

/-- Passes that stop leave every pending end something to wait on. -/
theorem settled_settleFrom {fuel : Nat} {ledger : Ledger} {acts : List Act} (settled : settleFrom fuel ledger = .ok acts) :
    (ledger.applyAll acts "" ∅).Settled := by
  induction fuel generalizing ledger acts with
  | zero => cases settled
  | succ fuel ih =>
    unfold settleFrom at settled
    obtain ⟨more, passed, settled⟩ := bind_ok.mp settled
    split at settled
    · next done =>
      cases settled
      obtain rfl := List.isEmpty_iff.mp done
      exact settled_of_round passed
    · obtain ⟨rest, later, settled⟩ := bind_ok.mp settled
      cases settled
      rw [applyAll_append]
      exact ih later

/-- A pass that does anything ends an order. -/
theorem ends_of_pass {ledger : Ledger} {acts : List Act} (settled : settlingRound ledger = .ok acts) (some : acts ≠ []) :
    ∃ orderId state, ledger.Ready orderId state := by
  obtain ⟨-, ends⟩ := settlingRound_spec settled
  unfold settlingRound at settled
  obtain ⟨each, read, settled⟩ := bind_ok.mp settled
  obtain rfl : each.flatten = acts := Except.ok.inj settled
  obtain ⟨mine, inEach, nonempty⟩ : ∃ mine ∈ each, mine ≠ [] := by
    by_contra none
    push Not at none
    exact some (List.flatten_eq_nil_iff.mpr none)
  obtain ⟨⟨orderId, held⟩, entry, answered⟩ := mapM_entry read inEach
  dsimp only at answered
  unfold settling at answered
  split at answered
  · next state waits standing =>
    obtain ⟨⟨placements, children⟩, parts, answered⟩ := bind_ok.mp answered
    simp only at answered
    split at answered
    · exact (nonempty (Except.ok.inj answered).symm).elim
    · have ended : Act.ended orderId state ∈ mine := by
        rw [← Except.ok.inj answered]
        exact List.mem_append_right _ (List.mem_singleton_self _)
      exact ⟨orderId, state, (ends orderId state).mp (List.mem_flatten.mpr ⟨mine, inEach, ended⟩)⟩
  · exact (nonempty (Except.ok.inj answered).symm).elim

/-- The orders no act ended. -/
def unended (ledger : Ledger) : Finset String :=
  (ledger.orders.keys.filter fun id => (ledger.endings id).any fun held => held.1.isNone).toFinset

theorem mem_unended {ledger : Ledger} {orderId : String} :
    orderId ∈ ledger.unended ↔ ∃ ending, ledger.endings orderId = some (none, ending) := by
  simp only [unended, List.mem_toFinset, List.mem_filter, Std.ExtTreeMap.mem_keys, Option.any_eq_true,
    Option.isNone_iff_eq_none]
  constructor
  · rintro ⟨-, ⟨ended, ending⟩, found, rfl⟩
    exact ⟨ending, found⟩
  · rintro ⟨ending, found⟩
    refine ⟨?_, ⟨none, ending⟩, found, rfl⟩
    obtain ⟨held, inOrders, -⟩ := Option.map_eq_some_iff.mp found
    exact Std.ExtTreeMap.mem_iff_isSome_getElem?.mpr (by rw [inOrders]; rfl)

theorem card_unended_le (ledger : Ledger) : ledger.unended.card ≤ ledger.orders.size := by
  unfold unended
  refine (List.toFinset_card_le _).trans ((List.length_filter_le _ _).trans ?_)
  rw [Std.ExtTreeMap.length_keys]

/-- Each pass that ends an order leaves fewer to end. -/
theorem card_unended_lt {ledger : Ledger} {acts : List Act} (settled : settlingRound ledger = .ok acts)
    (some : acts ≠ []) : (ledger.applyAll acts "" ∅).unended.card < ledger.unended.card := by
  obtain ⟨ended, state, ready⟩ := ends_of_pass settled some
  apply Finset.card_lt_card
  rw [Finset.ssubset_iff_of_subset]
  · refine ⟨ended, mem_unended.mpr ⟨_, endings_of_ready ready⟩, fun still => ?_⟩
    obtain ⟨ending, found⟩ := mem_unended.mp still
    rw [(endings_pass settled ended).1 state ready] at found
    cases found
  · intro orderId member
    obtain ⟨ending, found⟩ := mem_unended.mp member
    by_cases isReady : ∃ state, ledger.Ready orderId state
    · obtain ⟨state, ready⟩ := isReady
      exact mem_unended.mpr ⟨_, endings_of_ready ready⟩
    · rw [(endings_pass settled orderId).2 (not_exists.mp isReady)] at found
      exact mem_unended.mpr ⟨ending, found⟩

theorem acyclic_of_settled {a b : Ledger} (alike : SettledAlike a b) (acyclic : a.Acyclic) : b.Acyclic := by
  intro orderId cycle
  refine acyclic orderId (Relation.TransGen.mono (fun parent child below => ?_) _ _ cycle)
  obtain ⟨later, found, member⟩ := below
  rcases alike_cases (alike.parts parent) with ⟨-, inB⟩ | ⟨held, after, inA, inB, parts⟩
  · rw [found] at inB
    cases inB
  · rw [found] at inB
    cases inB
    have children : later.children = held.children := congrArg Parts.children parts
    exact ⟨held, inA, children ▸ member⟩

theorem returns_settlingRound {ledger : Ledger} (acyclic : ledger.Acyclic) : Returns (settlingRound ledger) := by
  unfold settlingRound
  refine Returns.bind (Returns.mapM _ fun entry _ => ?_) fun _ _ => Returns.ok _
  unfold settling
  split
  · refine Returns.bind (returns_liveParts acyclic _) fun _ _ => ?_
    dsimp only
    split <;> exact Returns.ok _
  · exact Returns.ok _

/-- Each pass ends an order that had not ended, so as many passes as there are such orders are enough. -/
theorem returns_settleFrom {fuel : Nat} {ledger : Ledger} (acyclic : ledger.Acyclic)
    (enough : ledger.unended.card < fuel) : Returns (settleFrom fuel ledger) := by
  induction fuel generalizing ledger with
  | zero => exact (Nat.not_lt_zero _ enough).elim
  | succ fuel ih =>
    unfold settleFrom
    refine Returns.bind (returns_settlingRound acyclic) fun more passed => ?_
    split
    · exact Returns.ok _
    · next some =>
      have fewer := card_unended_lt passed (by simpa using some)
      have alike := settledAlike_applyAll ledger (settlingRound_spec passed).1
      exact Returns.bind (ih (acyclic_of_settled alike acyclic) (by omega)) fun _ _ => Returns.ok _

end Ledger

/-- What an entry's acts come to once settled leaves every pending end something live to wait on. -/
theorem settled_of_settle {book : Book} {acts whole : List Act} (settled : settle book acts = .ok whole) :
    (book.ledger.applyAll whole "" ∅).Settled := by
  unfold settle at settled
  obtain ⟨more, passes, settled⟩ := bind_ok.mp settled
  obtain rfl : acts ++ more = whole := Except.ok.inj settled
  rw [Ledger.applyAll_append]
  exact Ledger.settled_settleFrom passes

/-- The account an entry made through `finish` leaves has every pending end waiting on something live. -/
theorem settled_of_finish {book : Book} {head : Nat} {ctx : Context} {plan : Plan} {made : Made}
    (finished : finish book head ctx plan = .ok made) : made.book.ledger.Settled := by
  unfold finish at finished
  obtain ⟨acts, settled, finished⟩ := bind_ok.mp finished
  obtain ⟨applied, -, -⟩ := made_ok finished
  exact Ledger.settled_of_live (Book.live_of_applied applied) (settled_of_settle settled)

theorem settle_returns {book : Book} {acts : List Act} (acyclic : (book.ledger.applyAll acts "" ∅).Acyclic) :
    Returns (settle book acts) := by
  refine Returns.bind (Ledger.returns_settleFrom acyclic ?_) fun _ _ => Returns.ok _
  exact Nat.lt_succ_of_le (Ledger.card_unended_le _)

/-- In every book made of entries that open orders only under new IDs, no order is among its own
descendants, and settling returns whatever an entry does that opens orders so. -/
theorem settle_returns_of_run {accountId partition : String} {makings : List Making} {book : Book}
    (run : Run (fun book making after => book.ledger.OpensFresh making.draft.body.acts ∧ make book making = .ok after)
      (Book.new accountId partition) makings book) :
    book.ledger.Rooted ∧ ∀ acts, book.ledger.OpensFresh acts → Returns (settle book acts) := by
  have rooted : book.ledger.Rooted := by
    refine run.invariant_of (fun book => book.ledger.Rooted) Ledger.rooted_empty ?_
    intro before making after held fresh taken
    obtain ⟨act, decided, rfl⟩ := make_ok taken
    obtain ⟨applied, -, -⟩ := made_ok decided
    have alike := Book.live_of_applied applied
    exact Ledger.rooted_of_named (Ledger.named_of_live alike) (Ledger.rooted_applyAll held fresh)
  exact ⟨rooted, fun acts fresh => settle_returns (Ledger.rooted_applyAll rooted fresh).acyclic⟩

/-- Every entry made through `finish` leaves each pending end something live to wait on, as do the acts
settling comes to; and settling returns wherever no order is among its own descendants. -/
theorem settled_at_every_entry :
    (∀ (book : Book) (head : Nat) (ctx : Context) (plan : Plan) (made : Made),
        finish book head ctx plan = .ok made → made.book.ledger.Settled) ∧
      ∀ (book : Book) (acts : List Act),
        ((book.ledger.applyAll acts "" ∅).Acyclic → Returns (settle book acts)) ∧
          ∀ whole, settle book acts = .ok whole → (book.ledger.applyAll whole "" ∅).Settled :=
  ⟨fun _ _ _ _ _ finished => settled_of_finish finished,
    fun _ _ => ⟨settle_returns, fun _ settled => settled_of_settle settled⟩⟩

/-- An order whose cancel waits on its one placement. -/
def waitingActs : List Act :=
  [.opened { orderId := "ORD-1", instrumentId := "AAA", side := .buy, quantity := some ⟨100, 0⟩ } true,
    .placementOpened { placementId := "PLC-1", orderId := "ORD-1", quantity := some ⟨100, 0⟩ },
    .ending "ORD-1" .cancelled]

theorem waiting_cancel_settled :
    ∃ made whole, finish (Book.new "ACC-1" "P-1") 0 {} ⟨"order-cancel-requested", "USR-1", waitingActs, [], "", "", ""⟩ =
        .ok made ∧ made.book.ledger.Settled ∧
      settle (Book.new "ACC-1" "P-1") waitingActs = .ok whole ∧ whole = waitingActs ∧
        Returns (settle (Book.new "ACC-1" "P-1") waitingActs) ∧
          ((Book.new "ACC-1" "P-1").ledger.applyAll whole "" ∅).Settled := by
  have computed : (finish (Book.new "ACC-1" "P-1") 0 {}
      ⟨"order-cancel-requested", "USR-1", waitingActs, [], "", "", ""⟩).toOption.any (fun _ => true) = true := by
    decide +kernel
  have length : (settle (Book.new "ACC-1" "P-1") waitingActs).toOption.any
      (fun whole => whole.length == waitingActs.length) = true := by
    decide +kernel
  obtain ⟨made, finished, -⟩ := answered_of computed
  obtain ⟨whole, settled, length⟩ := answered_of length
  have same : whole = waitingActs := by
    have split := settled
    unfold settle at split
    obtain ⟨more, -, split⟩ := bind_ok.mp split
    obtain rfl : waitingActs ++ more = whole := Except.ok.inj split
    have none : more = [] := by simpa using length
    rw [none, List.append_nil]
  have fresh : (Book.new "ACC-1" "P-1").ledger.OpensFresh waitingActs := by
    refine ⟨fun order released opened => ?_, ⟨fun _ _ other => ?_, ⟨fun _ _ other => ?_, trivial⟩⟩⟩
    · rfl
    · cases other
    · cases other
  have acyclic := (Ledger.rooted_applyAll Ledger.rooted_empty fresh).acyclic
  obtain ⟨finishes, settles⟩ := settled_at_every_entry
  obtain ⟨returns, fixed⟩ := settles (Book.new "ACC-1" "P-1") waitingActs
  exact ⟨made, whole, finished, finishes _ _ _ _ made finished, settled, same, returns acyclic, fixed whole settled⟩

/-- Two orders opened each under the other, the first's cancel waiting. -/
def cycleActs : List Act :=
  [.opened { orderId := "ORD-1", quantity := some ⟨100, 0⟩ } true,
    .opened { orderId := "ORD-2", quantity := some ⟨100, 0⟩, link := some { kind := .split, parentOrderId := "ORD-1" } }
      true,
    .opened { orderId := "ORD-1", quantity := some ⟨100, 0⟩, link := some { kind := .split, parentOrderId := "ORD-2" } }
      true,
    .ending "ORD-1" .cancelled]

/-- On orders that are each other's children settling never returns: the sum of their fills goes down the
cycle at whatever depth. -/
theorem child_cycle_never_settles :
    settle (Book.new "ACC-1" "P-1") cycleActs = .error .overflowed ∧
      ∀ depth, ((Book.new "ACC-1" "P-1").ledger.applyAll cycleActs "" ∅).filledWithin depth "ORD-1" =
        .error .overflowed := by
  refine ⟨?_, fun depth => ?_⟩
  · have computed : (match settle (Book.new "ACC-1" "P-1") cycleActs with
        | .error out => out == .overflowed
        | .ok _ => false) = true := by
      decide +kernel
    split at computed
    · next out settled => rw [settled, beq_iff_eq.mp computed]
    · cases computed
  · have read (id child : String) (found : (((Book.new "ACC-1" "P-1").ledger.applyAll cycleActs "" ∅).orders[id]?).any
          (fun held => held.executions.isEmpty && (held.children == [child])) = true) (depth : Nat)
        (below : ((Book.new "ACC-1" "P-1").ledger.applyAll cycleActs "" ∅).filledWithin depth child =
          .error .overflowed) :
        ((Book.new "ACC-1" "P-1").ledger.applyAll cycleActs "" ∅).filledWithin (depth + 1) id = .error .overflowed := by
      obtain ⟨held, found, parts⟩ := (Option.any_eq_true _ _).mp found
      obtain ⟨executions, children⟩ := Bool.and_eq_true_iff.mp parts
      have noExecution : held.executions = [] := List.isEmpty_iff.mp executions
      have oneChild : held.children = [child] := beq_iff_eq.mp children
      unfold Ledger.filledWithin
      rw [found]
      simp only [noExecution, oneChild, List.foldlM_nil, List.foldlM_cons, below, bind, Except.bind, pure, Except.pure]
    have both : ((Book.new "ACC-1" "P-1").ledger.applyAll cycleActs "" ∅).filledWithin depth "ORD-1" =
          .error .overflowed ∧
        ((Book.new "ACC-1" "P-1").ledger.applyAll cycleActs "" ∅).filledWithin depth "ORD-2" = .error .overflowed := by
      induction depth with
      | zero => exact ⟨rfl, rfl⟩
      | succ depth ih =>
        exact ⟨read "ORD-1" "ORD-2" (by decide +kernel) depth ih.2, read "ORD-2" "ORD-1" (by decide +kernel) depth ih.1⟩
    exact both.1

end MeridianCore.Bor
