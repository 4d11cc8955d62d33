import MeridianCore.Bor.OrderDecide.Change
import MeridianCore.Bor.OrderDecide.Placement
import MeridianCore.Bor.OrderDecide.Command
import MeridianCore.Bor.OrderDecide.ReleaseGate

namespace MeridianCore.Bor

/-- Every order an entry leaves released was so already, or was opened so by it, or was let through the
gate. -/
def ReleasesThroughGate (before : Book) (acts : List Act) (after : Book) : Prop :=
  ∀ (orderId : String) (later : OrderHeld), after.ledger.orders[orderId]? = some later → later.released = true →
    (before.ledger.orders[orderId]?).any OrderHeld.released = true ∨
      (∃ order, Act.opened order true ∈ acts ∧ order.orderId = orderId) ∨
        Gated (attributesOf before).waitsForCompliance later

/-- An entry decided on a book: by a command of the order path, or by an act that releases no order. -/
inductive Decided (book : Book) : Made → Prop where
  | proposed {head : Nat} {ctx : Context} {terms : Order} {key : String} {act : Made}
      (decided : proposed book head ctx terms key = .ok act) : Decided book act
  | changed {head : Nat} {ctx : Context} {request : RequestOrderChangeRequest} {act : Made} {changeId : String}
      (decided : requestOrderChange book head ctx request = .ok (act, changeId)) : Decided book act
  | checked {head : Nat} {ctx : Context} {request : RecordCheckRequest} {act : Made}
      (decided : recordCheck book head ctx request = .ok act) : Decided book act
  | approved {head : Nat} {ctx : Context} {request : DecideApprovalRequest} {act : Made}
      (decided : decideApproval book head ctx request = .ok act) : Decided book act
  | released {head : Nat} {ctx : Context} {request : ReleaseOrderRequest} {act : Made}
      (decided : releaseOrder book head ctx request = .ok act) : Decided book act
  | placed {head : Nat} {ctx : Context} {request : CreatePlacementRequest} {act : Made}
      (decided : createPlacement book head ctx request = .ok act) : Decided book act
  | expired {head : Nat} {ctx : Context} {orderId : String} {act : Made}
      (decided : expire book head ctx orderId = .ok (some act)) : Decided book act
  | other {head : Nat} {ctx : Context} {draft : Draft} {act : Made} (decided : made book head ctx draft = .ok act)
      (releases : ∀ orderId, Act.released orderId ∉ draft.body.acts) : Decided book act

theorem order_of_made {book : Book} {head : Nat} {ctx : Context} {draft : Draft} {act : Made}
    (decided : made book head ctx draft = .ok act) (orderId : String) :
    ∃ versions, (act.held.ledger.orders[orderId]?).map OrderHeld.unsigned =
      draft.body.acts.foldl (Ledger.orderAfter versions orderId)
        ((book.ledger.orders[orderId]?).map OrderHeld.unsigned) := by
  obtain ⟨applied, -, -⟩ := made_ok decided
  exact Book.order_of_applied applied orderId

theorem acts_of_made {book : Book} {head : Nat} {ctx : Context} {draft : Draft} {act : Made}
    (decided : made book head ctx draft = .ok act) : act.entry.body.acts = draft.body.acts := by
  obtain ⟨-, -, entry⟩ := made_ok decided
  rw [entry]
  rfl

/-- An entry that does not release an order leaves it released only where it was, or opens it so. -/
theorem released_of_made {book : Book} {head : Nat} {ctx : Context} {draft : Draft} {act : Made} {orderId : String}
    {later : OrderHeld} (decided : made book head ctx draft = .ok act)
    (releases : Act.released orderId ∉ draft.body.acts) (found : act.held.ledger.orders[orderId]? = some later)
    (released : later.released = true) :
    (book.ledger.orders[orderId]?).any OrderHeld.released = true ∨
      ∃ order, Act.opened order true ∈ act.entry.body.acts ∧ order.orderId = orderId := by
  by_contra neither
  push Not at neither
  obtain ⟨unreleased, notOpened⟩ := neither
  obtain ⟨versions, after⟩ := order_of_made decided orderId
  rw [acts_of_made decided] at notOpened
  have leaves : ∀ each ∈ draft.body.acts, Ledger.LeavesUnreleased orderId each := by
    intro each member
    refine ⟨fun same => releases (same ▸ member), fun order opened => ?_⟩
    exact notOpened order (opened ▸ member)
  have before : ((book.ledger.orders[orderId]?).map OrderHeld.unsigned).any OrderHeld.released = false := by
    rw [Option.any_map]
    exact Bool.eq_false_iff.mpr unreleased
  have still := @Ledger.unreleased_foldl versions orderId _ leaves _ before
  rw [← after, found] at still
  have same : later.released = false := still
  rw [released] at same
  cases same

theorem releases_of_made {book : Book} {head : Nat} {ctx : Context} {draft : Draft} {act : Made}
    (decided : made book head ctx draft = .ok act) (releases : ∀ orderId, Act.released orderId ∉ draft.body.acts) :
    ReleasesThroughGate book act.entry.body.acts act.held := by
  intro orderId later found released
  rcases released_of_made decided (releases orderId) found released with already | opened
  · exact Or.inl already
  · exact Or.inr (Or.inl opened)

theorem not_released_of_settle {acts : List Act} (settles : ∀ act ∈ acts, Ledger.SettleAct act) (orderId : String) :
    Act.released orderId ∉ acts := by
  intro member
  cases settles _ member

/-- What `finish` makes of a plan that releases no order. -/
theorem releases_of_finish {book : Book} {head : Nat} {ctx : Context} {plan : Plan} {act : Made}
    (finished : finish book head ctx plan = .ok act) (releases : ∀ orderId, Act.released orderId ∉ plan.acts) :
    ReleasesThroughGate book act.entry.body.acts act.held := by
  obtain ⟨more, settles, decided⟩ := finish_ok finished
  refine releases_of_made decided fun orderId member => ?_
  rcases List.mem_append.mp member with own | settled
  · exact releases orderId own
  · exact not_released_of_settle settles orderId settled

/-- What `finish` makes of a plan whose last act releases one order: any other it leaves as it was, and
what it leaves of that one is what the acts before left, settled. -/
theorem releases_of_release {book : Book} {head : Nat} {ctx : Context} {plan : Plan} {act : Made} {orderId : String}
    {order : OrderHeld} {acts : List Act} (finished : finish book head ctx plan = .ok act)
    (found : book.ledger.orders[orderId]? = some order) (whole : plan.acts = acts ++ [.released orderId])
    (quiet : ∀ id, Act.released id ∉ acts)
    (gated : ∀ versions, ∃ held, acts.foldl (Ledger.orderAfter versions orderId) (some order.unsigned) = some held ∧
      Gated (attributesOf book).waitsForCompliance held) :
    ReleasesThroughGate book act.entry.body.acts act.held := by
  obtain ⟨more, settles, decided⟩ := finish_ok finished
  intro id later inAfter released
  by_cases same : id = orderId
  · subst same
    obtain ⟨versions, after⟩ := order_of_made decided id
    obtain ⟨held, folded, gate⟩ := gated versions
    obtain ⟨settled, settling, alike, -⟩ := @Ledger.settled_gateAlike versions id more settles
      { held with
        released := true
        releaseRequested := false
        conditions := held.conditions.erase OrderCondition.awaitingCheck.number }
    have released : GateAlike held
        { held with
          released := true
          releaseRequested := false
          conditions := held.conditions.erase OrderCondition.awaitingCheck.number } := by
      refine ⟨rfl, rfl, rfl, rfl, fun none => ?_⟩
      simp [Std.ExtTreeMap.contains_erase, none]
    have acted : (plan.acts ++ more).foldl (Ledger.orderAfter versions id) (some order.unsigned) = some settled := by
      rw [whole, List.append_assoc, List.foldl_append, folded, List.singleton_append, List.foldl_cons]
      simp only [Ledger.orderAfter, if_true, Option.map_some]
      exact settling
    rw [found, inAfter] at after
    have last : later.unsigned = settled := Option.some.inj (after.trans acted)
    have unsigned : GateAlike settled later := by
      rw [← last]
      exact ⟨rfl, rfl, rfl, rfl, fun none => none⟩
    exact Or.inr (Or.inr (((released.trans alike).trans unsigned).gated gate))
  · have releases : Act.released id ∉ (plan.draft book ctx (plan.acts ++ more)).body.acts := by
      intro member
      rcases List.mem_append.mp member with own | settled
      · rw [whole] at own
        rcases List.mem_append.mp own with before | last
        · exact quiet id before
        · cases List.mem_singleton.mp last
          exact same rfl
      · exact not_released_of_settle settles id settled
    rcases released_of_made decided releases inAfter released with already | opened
    · exact Or.inl already
    · exact Or.inr (Or.inl opened)

/-- Acts none of which releases an order. -/
def ReleasesNone (acts : List Act) : Prop := ∀ orderId, Act.released orderId ∉ acts

namespace ReleasesNone
variable {acts more : List Act}

theorem append (first : ReleasesNone acts) (rest : ReleasesNone more) : ReleasesNone (acts ++ more) := by
  intro orderId member
  rcases List.mem_append.mp member with member | member
  · exact first orderId member
  · exact rest orderId member

theorem single {act : Act} (other : ∀ orderId, act ≠ .released orderId) : ReleasesNone [act] := by
  intro orderId member
  exact other orderId (List.mem_singleton.mp member).symm

end ReleasesNone

theorem releasesNone_of_changeActs {order : Order} {acts : List Act} (changes : ChangeActs order acts) : ReleasesNone acts := by
  intro orderId member
  cases changes _ member

theorem releases_of_changed {book : Book} {head : Nat} {ctx : Context} {request : RequestOrderChangeRequest}
    {act : Made} {changeId : String} (decided : requestOrderChange book head ctx request = .ok (act, changeId)) :
    ReleasesThroughGate book act.entry.body.acts act.held := by
  unfold requestOrderChange at decided
  obtain ⟨order, -, decided⟩ := bind_ok.mp decided
  obtain ⟨-, -, decided⟩ := bind_ok.mp decided
  obtain ⟨-, -, decided⟩ := bind_ok.mp decided
  split at decided
  · next change =>
    obtain ⟨-, -, decided⟩ := bind_ok.mp decided
    obtain ⟨state, -, decided⟩ := bind_ok.mp decided
    obtain ⟨⟨row, kind, acts⟩, changes, decided⟩ := bind_ok.mp decided
    obtain ⟨finished, made, decided⟩ := bind_ok.mp decided
    have through := releases_of_finish made (releasesNone_of_changeActs (changeActs_spec changes))
    split at decided
    · obtain ⟨-, -, decided⟩ := bind_ok.mp decided
      cases decided
      exact through
    · cases decided
      exact through
  · cases decided

theorem releasesNone_approvalActs {ctx : Context} {orderId : String} {state : OrderState}
    {request : DecideApprovalRequest} {row : Transition} {acts : List Act}
    (answered : approvalActs ctx orderId state request = .ok (row, acts)) : ReleasesNone acts := by
  unfold approvalActs at answered
  split at answered
  · obtain ⟨-, -, answered⟩ := bind_ok.mp answered
    obtain ⟨-, -, answered⟩ := bind_ok.mp answered
    cases answered
    exact ReleasesNone.single fun _ => Act.noConfusion
  · obtain ⟨-, -, answered⟩ := bind_ok.mp answered
    obtain ⟨-, -, answered⟩ := bind_ok.mp answered
    cases answered
    exact ReleasesNone.single fun _ => Act.noConfusion
  · obtain ⟨-, -, answered⟩ := bind_ok.mp answered
    obtain ⟨-, answered⟩ := guard_ok.mp answered
    obtain ⟨-, -, answered⟩ := bind_ok.mp answered
    cases answered
    exact ReleasesNone.single fun _ => Act.noConfusion
  · obtain ⟨-, -, answered⟩ := bind_ok.mp answered
    obtain ⟨-, -, answered⟩ := bind_ok.mp answered
    cases answered
    exact ReleasesNone.single fun _ => Act.noConfusion
  · cases answered

theorem releases_of_approved {book : Book} {head : Nat} {ctx : Context} {request : DecideApprovalRequest} {act : Made}
    (decided : decideApproval book head ctx request = .ok act) :
    ReleasesThroughGate book act.entry.body.acts act.held := by
  unfold decideApproval at decided
  obtain ⟨order, -, decided⟩ := bind_ok.mp decided
  obtain ⟨-, -, decided⟩ := bind_ok.mp decided
  obtain ⟨state, -, decided⟩ := bind_ok.mp decided
  obtain ⟨⟨row, acts⟩, approval, decided⟩ := bind_ok.mp decided
  obtain ⟨finished, made, decided⟩ := bind_ok.mp decided
  obtain ⟨-, -, decided⟩ := bind_ok.mp decided
  cases decided
  exact releases_of_finish made (releasesNone_approvalActs approval)

theorem releases_of_proposed {book : Book} {head : Nat} {ctx : Context} {terms : Order} {key : String} {act : Made}
    (decided : proposed book head ctx terms key = .ok act) :
    ReleasesThroughGate book act.entry.body.acts act.held := by
  unfold proposed at decided
  dsimp only at decided
  split at decided
  · exact releases_of_finish decided (ReleasesNone.single fun _ => Act.noConfusion)
  · obtain ⟨-, decided⟩ := guard_ok.mp decided
    obtain ⟨parent, -, decided⟩ := bind_ok.mp decided
    obtain ⟨-, decided⟩ := guard_ok.mp decided
    obtain ⟨-, decided⟩ := guard_ok.mp decided
    obtain ⟨-, decided⟩ := guard_ok.mp decided
    obtain ⟨state, -, decided⟩ := bind_ok.mp decided
    obtain ⟨-, decided⟩ := guard_ok.mp decided
    obtain ⟨-, decided⟩ := guard_ok.mp decided
    exact releases_of_finish decided (ReleasesNone.single fun _ => Act.noConfusion)

theorem releases_of_expired {book : Book} {head : Nat} {ctx : Context} {orderId : String} {act : Made}
    (decided : expire book head ctx orderId = .ok (some act)) :
    ReleasesThroughGate book act.entry.body.acts act.held := by
  unfold expire at decided
  split at decided
  · cases decided
  · obtain ⟨state, -, decided⟩ := bind_ok.mp decided
    split at decided
    · cases decided
    · split at decided
      · obtain ⟨finished, made, decided⟩ := bind_ok.mp decided
        cases decided
        exact releases_of_finish made (ReleasesNone.single fun _ => Act.noConfusion)
      · split at decided
        · cases decided
        · obtain ⟨asked, parts, decided⟩ := bind_ok.mp decided
          obtain ⟨finished, made, decided⟩ := bind_ok.mp decided
          cases decided
          have quiet := releasesNone_of_changeActs (@cancelPartsWithin_spec book.ledger ctx .expired _ {} _ _ _ _ .nil parts)
          exact releases_of_finish made (quiet.append (ReleasesNone.single fun _ => Act.noConfusion))

theorem releases_of_refusedPlacement {book : Book} {head : Nat} {ctx : Context} {request : CreatePlacementRequest}
    {reason : String} {refusal : StoreError} {act : Made}
    (decided : refusedPlacement book head ctx request reason refusal = .ok act) :
    ReleasesThroughGate book act.entry.body.acts act.held := by
  unfold refusedPlacement at decided
  obtain ⟨finished, made, decided⟩ := bind_ok.mp decided
  have through := releases_of_finish made (ReleasesNone.single fun _ => Act.noConfusion)
  cases decided
  exact through

theorem releases_of_placed {book : Book} {head : Nat} {ctx : Context} {request : CreatePlacementRequest} {act : Made}
    (decided : createPlacement book head ctx request = .ok act) :
    ReleasesThroughGate book act.entry.body.acts act.held := by
  unfold createPlacement at decided
  obtain ⟨order, -, decided⟩ := bind_ok.mp decided
  obtain ⟨-, -, decided⟩ := bind_ok.mp decided
  obtain ⟨-, -, decided⟩ := bind_ok.mp decided
  obtain ⟨manual, -, decided⟩ := bind_ok.mp decided
  rcases ite_eq_iff.mp decided with ⟨-, decided⟩ | ⟨-, decided⟩
  · exact releases_of_refusedPlacement decided
  · rcases ite_eq_iff.mp decided with ⟨-, decided⟩ | ⟨-, decided⟩
    · exact releases_of_refusedPlacement decided
    · obtain ⟨-, decided⟩ := guard_ok.mp decided
      obtain ⟨state, -, decided⟩ := bind_ok.mp decided
      obtain ⟨-, decided⟩ := guard_ok.mp decided
      obtain ⟨stated, -, decided⟩ := bind_ok.mp decided
      dsimp only at decided
      split at decided
      · obtain ⟨-, decided⟩ := guard_ok.mp decided
        obtain ⟨-, decided⟩ := guard_ok.mp decided
        obtain ⟨finished, made, decided⟩ := bind_ok.mp decided
        have through := releases_of_finish made (ReleasesNone.single fun _ => Act.noConfusion)
        split at decided
        · cases decided
          exact through
        · obtain ⟨-, -, decided⟩ := bind_ok.mp decided
          cases decided
          exact through
      · cases decided

/-- What the acts of a check come to: none that releases, or the check, the wait answered and the release
it lets through the gate. -/
theorem checkActs_cases {ctx : Context} {order : OrderHeld} {orderId : String} {state : OrderState}
    {request : RecordCheckRequest} {check : Check} {acts : List Act} {row : Option Transition}
    (answered : checkActs ctx order orderId state request check = (acts, row)) :
    ReleasesNone acts ∨
      (request.placementId = "" ∧ check.orderVersion = order.version ∧
        gate { order with checks := order.checks ++ [check] } = .ok () ∧
        ∃ standing, acts = [.checked orderId check, conditionAct orderId false standing] ++ [.released orderId]) := by
  have checked : ReleasesNone [.checked orderId check] := ReleasesNone.single fun _ => Act.noConfusion
  unfold checkActs at answered
  dsimp only at answered
  split at answered
  · cases answered
    exact Or.inl checked
  · next unplaced =>
    split at answered
    · cases answered
      exact Or.inl (checked.append (ReleasesNone.single fun _ => Act.noConfusion))
    · split at answered
      · next awaited =>
        split at answered
        · next through =>
          cases answered
          exact Or.inr ⟨not_not.mp unplaced, awaited.1, through.2.2, _, rfl⟩
        · cases answered
          exact Or.inl (checked.append (ReleasesNone.single fun _ => Act.noConfusion))
      · cases answered
        exact Or.inl checked

theorem heldOrder_ok {book : Book} {orderId : String} {order : OrderHeld} (found : heldOrder book orderId = .ok order) :
    book.ledger.orders[orderId]? = some order := by
  unfold heldOrder at found
  split at found
  · next held =>
    cases found
    exact held
  · cases found

theorem releases_of_checked {book : Book} {head : Nat} {ctx : Context} {request : RecordCheckRequest} {act : Made}
    (decided : recordCheck book head ctx request = .ok act) :
    ReleasesThroughGate book act.entry.body.acts act.held := by
  unfold recordCheck at decided
  obtain ⟨orderId, -, decided⟩ := bind_ok.mp decided
  obtain ⟨order, found, decided⟩ := bind_ok.mp decided
  obtain ⟨-, -, decided⟩ := bind_ok.mp decided
  obtain ⟨-, -, decided⟩ := bind_ok.mp decided
  obtain ⟨-, decided⟩ := guard_ok.mp decided
  obtain ⟨state, -, decided⟩ := bind_ok.mp decided
  obtain ⟨finished, made, decided⟩ := bind_ok.mp decided
  have through : ReleasesThroughGate book finished.entry.body.acts finished.held := by
    rcases checkActs_cases rfl with quiet | ⟨unplaced, version, passed, standing, acts⟩
    · exact releases_of_finish made quiet
    · refine releases_of_release made (heldOrder_ok found) acts ?_ fun versions => ?_
      · exact (ReleasesNone.single fun _ => Act.noConfusion).append (ReleasesNone.single fun _ => Act.noConfusion)
      · let check := checkOf ctx order request
        have answered : verdictOnVersion { order with checks := order.checks ++ [check] } = true := by
          refine verdictOnVersion_eq_true.mpr ⟨check, List.mem_append_right _ (List.mem_singleton_self _), ?_⟩
          exact ⟨unplaced, version⟩
        have alike : GateAlike { order with checks := order.checks ++ [check] }
            { order.unsigned with
              checks := order.checks ++ [check]
              conditions := order.conditions.erase standing.condition.number } := by
          refine ⟨rfl, rfl, rfl, rfl, fun none => ?_⟩
          simp [Std.ExtTreeMap.contains_erase, none]
        have placed : (checkOf ctx order request).placementId = "" := unplaced
        refine ⟨_, ?_, alike.gated (gated_of_gate passed fun _ => answered)⟩
        simp only [conditionAct, List.foldl_cons, List.foldl_nil, Ledger.orderAfter, placed, and_self, if_true,
          Option.map_some]
        rfl
  split at decided
  · obtain ⟨-, -, decided⟩ := bind_ok.mp decided
    cases decided
    exact through
  · cases decided
    exact through

/-- A release's acts: the wait for a verdict, or the release where one stands or none is waited for. -/
theorem releaseActs_cases (book : Book) (ctx : Context) (order : OrderHeld) (orderId : String) :
    ReleasesNone (releaseActs book ctx order orderId) ∨
      (releaseActs book ctx order orderId = [] ++ [.released orderId] ∧
        ((attributesOf book).waitsForCompliance = true → verdictOnVersion order = true)) := by
  unfold releaseActs
  split
  · left
    exact (ReleasesNone.single fun _ => Act.noConfusion).append (ReleasesNone.single fun _ => Act.noConfusion)
  · next answered =>
    refine Or.inr ⟨rfl, fun waits => ?_⟩
    by_contra unanswered
    exact answered ⟨waits, unanswered⟩

theorem releases_of_released {book : Book} {head : Nat} {ctx : Context} {request : ReleaseOrderRequest} {act : Made}
    (decided : releaseOrder book head ctx request = .ok act) :
    ReleasesThroughGate book act.entry.body.acts act.held := by
  unfold releaseOrder at decided
  obtain ⟨order, found, decided⟩ := bind_ok.mp decided
  obtain ⟨-, -, decided⟩ := bind_ok.mp decided
  obtain ⟨-, -, decided⟩ := bind_ok.mp decided
  obtain ⟨state, -, decided⟩ := bind_ok.mp decided
  obtain ⟨-, -, decided⟩ := bind_ok.mp decided
  obtain ⟨⟨⟩, passed, decided⟩ := bind_ok.mp decided
  obtain ⟨finished, made, decided⟩ := bind_ok.mp decided
  obtain ⟨-, -, decided⟩ := bind_ok.mp decided
  cases decided
  rcases releaseActs_cases book ctx order request.orderId with quiet | ⟨acts, answered⟩
  · exact releases_of_finish made quiet
  · refine releases_of_release made (heldOrder_ok found) acts (fun _ => List.not_mem_nil) fun versions => ?_
    refine ⟨order.unsigned, rfl, ?_⟩
    have unsigned : GateAlike order order.unsigned := ⟨rfl, rfl, rfl, rfl, id⟩
    exact unsigned.gated (gated_of_gate passed answered)

theorem releases_of_decided {book : Book} {act : Made} (decided : Decided book act) :
    ReleasesThroughGate book act.entry.body.acts act.held := by
  cases decided with
  | proposed decided => exact releases_of_proposed decided
  | changed decided => exact releases_of_changed decided
  | checked decided => exact releases_of_checked decided
  | approved decided => exact releases_of_approved decided
  | released decided => exact releases_of_released decided
  | placed decided => exact releases_of_placed decided
  | expired decided => exact releases_of_expired decided
  | other decided releases => exact releases_of_made decided releases

/-- In every run of entries decided on an account, each order an entry releases is let through the gate by
that entry. -/
theorem releases_through_gate {accountId partition : String} {acts : List Made} {book : Book}
    (run : Run (fun before act after => Decided before act ∧ after = act.held) (Book.new accountId partition) acts book) :
    Run (fun before act after => ReleasesThroughGate before act.entry.body.acts after)
      (Book.new accountId partition) acts book :=
  run.imp fun _ _ _ ⟨decided, held⟩ => held ▸ releases_of_decided decided

/-- A proposal, its release asked for on an account waiting for compliance, and the check that answers. -/
def checkedRelease : Result (Made × Made × Made) := do
  let ctx : Context := { actingFor := "USR-1" }
  let opened ← proposed (Book.new "ACC-1" "P-1") 0 ctx { instrumentId := "AAA", side := .buy, quantity := some ⟨100, 0⟩ } ""
  let asked ← releaseOrder opened.held opened.changes.lastSequence ctx { orderId := "ORD-0" }
  let answered ← recordCheck asked.held asked.changes.lastSequence ctx { orderId := "ORD-0", verdict := 1 }
  return (opened, asked, answered)

theorem checked_release_through_gate :
    ∃ opened asked answered, checkedRelease = .ok (opened, asked, answered) ∧
      (asked.held.ledger.orders["ORD-0"]?).any OrderHeld.released = false ∧
      (answered.held.ledger.orders["ORD-0"]?).any OrderHeld.released = true ∧
      Run (fun before act after => ReleasesThroughGate before act.entry.body.acts after) (Book.new "ACC-1" "P-1")
        [opened, asked, answered] answered.held := by
  have computed : checkedRelease.toOption.any (fun acts =>
      !(acts.2.1.held.ledger.orders["ORD-0"]?).any OrderHeld.released &&
        (acts.2.2.held.ledger.orders["ORD-0"]?).any OrderHeld.released) = true := by
    decide +kernel
  obtain ⟨⟨opened, asked, answered⟩, ran, released⟩ := answered_of computed
  have steps := ran
  unfold checkedRelease at steps
  obtain ⟨first, opening, steps⟩ := bind_ok.mp steps
  obtain ⟨second, asking, steps⟩ := bind_ok.mp steps
  obtain ⟨third, answering, steps⟩ := bind_ok.mp steps
  cases steps
  obtain ⟨unreleased, released⟩ := Bool.and_eq_true_iff.mp released
  refine ⟨opened, asked, answered, ran, (Bool.not_eq_true' _).mp unreleased, released, ?_⟩
  have run : Run (fun before act after => Decided before act ∧ after = act.held) (Book.new "ACC-1" "P-1")
      [opened, asked, answered] answered.held :=
    (((Run.nil _).snoc ⟨Decided.proposed opening, rfl⟩).snoc ⟨Decided.released asking, rfl⟩).snoc
      ⟨Decided.checked answering, rfl⟩
  exact releases_through_gate run

end MeridianCore.Bor
