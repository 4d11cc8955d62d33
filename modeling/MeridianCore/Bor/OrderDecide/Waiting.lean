import MeridianCore.Bor.OrderDecide.Releases
import MeridianCore.Bor.OrderDecide.Settled

namespace MeridianCore.Bor

namespace Ledger
variable {orderId : String}

/-- A placement the acts open on an order. -/
def OpensPlacement (acts : List Act) (orderId placementId : String) : Prop :=
  ∃ placement, Act.placementOpened placement ∈ acts ∧ placement.orderId = orderId ∧ placement.placementId = placementId

/-- An order the acts open under another. -/
def OpensChild (acts : List Act) (orderId childId : String) : Prop :=
  ∃ order released link, Act.opened order released ∈ acts ∧ order.link = some link ∧ link.parentOrderId = orderId ∧
    order.orderId = childId

theorem mem_pushNew {list : List String} {id member : String} : member ∈ pushNew list id ↔ member ∈ list ∨ member = id := by
  unfold pushNew
  split
  · next held =>
    constructor
    · exact Or.inl
    · rintro (member | rfl)
      · exact member
      · exact held
  · rw [List.mem_append, List.mem_singleton]

/-- One act adds to the parts an order names those it opens on it or under it. -/
theorem named_grows {before after : PartsNamed} {act : Act} (acted : namedAfter orderId (some before) act = some after) :
    (∀ id ∈ after.1, id ∈ before.1 ∨ OpensPlacement [act] orderId id) ∧
      ∀ id ∈ after.2, id ∈ before.2 ∨ OpensChild [act] orderId id := by
  have kept (same : some before = some after) :
      (∀ id ∈ after.1, id ∈ before.1 ∨ OpensPlacement [act] orderId id) ∧
        ∀ id ∈ after.2, id ∈ before.2 ∨ OpensChild [act] orderId id := by
    cases same
    exact ⟨fun _ member => Or.inl member, fun _ member => Or.inl member⟩
  cases act with
  | opened order released =>
    have under : namedUnder orderId order (some before) = some after := by
      simp only [namedAfter] at acted
      split at acted
      · obtain ⟨parts, under⟩ : ∃ parts, namedUnder orderId order (some before) = some parts := by
          unfold namedUnder
          split
          · split <;> exact ⟨_, rfl⟩
          · exact ⟨_, rfl⟩
        rw [under] at acted ⊢
        exact acted
      · exact acted
    unfold namedUnder at under
    split at under
    · next link linked =>
      split at under
      · next same =>
        cases under
        refine ⟨fun _ member => Or.inl member, fun id member => ?_⟩
        rcases mem_pushNew.mp member with member | rfl
        · exact Or.inl member
        · exact Or.inr ⟨order, released, link, List.mem_singleton_self _, linked, same, rfl⟩
      · exact kept under
    · exact kept under
  | placementOpened placement =>
    simp only [namedAfter] at acted
    split at acted
    · next same =>
      cases acted
      refine ⟨fun id member => ?_, fun _ member => Or.inl member⟩
      rcases mem_pushNew.mp member with member | rfl
      · exact Or.inl member
      · exact Or.inr ⟨placement, List.mem_singleton_self _, same, rfl⟩
    · exact kept acted
  | _ => exact kept acted

theorem named_held {before : PartsNamed} (act : Act) : ∃ after, namedAfter orderId (some before) act = some after := by
  cases act with
  | opened order released =>
    simp only [namedAfter, namedUnder]
    split
    · exact ⟨_, rfl⟩
    · split
      · split <;> exact ⟨_, rfl⟩
      · exact ⟨_, rfl⟩
  | placementOpened placement =>
    simp only [namedAfter]
    split <;> exact ⟨_, rfl⟩
  | _ => exact ⟨_, rfl⟩

theorem named_foldl_grows {acts : List Act} {before : PartsNamed} :
    ∃ after, acts.foldl (namedAfter orderId) (some before) = some after ∧
      (∀ id ∈ after.1, id ∈ before.1 ∨ OpensPlacement acts orderId id) ∧
        ∀ id ∈ after.2, id ∈ before.2 ∨ OpensChild acts orderId id := by
  induction acts generalizing before with
  | nil => exact ⟨before, rfl, fun _ member => Or.inl member, fun _ member => Or.inl member⟩
  | cons act rest ih =>
    obtain ⟨next, acted⟩ := @named_held orderId before act
    obtain ⟨placed, linked⟩ := named_grows acted
    obtain ⟨after, folded, placements, children⟩ := @ih next
    refine ⟨after, by rw [List.foldl_cons, acted, folded], fun id member => ?_, fun id member => ?_⟩
    · rcases placements id member with earlier | ⟨placement, opened, own⟩
      · rcases placed id earlier with held | ⟨placement, opened, own⟩
        · exact Or.inl held
        · exact Or.inr ⟨placement, List.mem_singleton.mp opened ▸ List.mem_cons_self, own⟩
      · exact Or.inr ⟨placement, List.mem_cons_of_mem _ opened, own⟩
    · rcases children id member with earlier | ⟨order, released, link, opened, own⟩
      · rcases linked id earlier with held | ⟨order, released, link, opened, own⟩
        · exact Or.inl held
        · exact Or.inr ⟨order, released, link, List.mem_singleton.mp opened ▸ List.mem_cons_self, own⟩
      · exact Or.inr ⟨order, released, link, List.mem_cons_of_mem _ opened, own⟩

theorem named_applyAll (ledger : Ledger) (acts : List Act) (entryId : String) (versions : BTreeMap String Nat)
    (orderId : String) :
    (ledger.applyAll acts entryId versions).named orderId = acts.foldl (namedAfter orderId) (ledger.named orderId) := by
  induction acts generalizing ledger with
  | nil => rfl
  | cons act rest ih =>
    rw [applyAll, List.foldl_cons, List.foldl_cons, ← named_apply ledger act entryId versions]
    exact ih _

/-- An order waiting to end waits still, or has ended. -/
theorem endings_foldl_waits {acts : List Act} {before : Option OrderState × Option OrderState}
    (waits : before.1.isSome ∨ before.2.isSome) :
    ∃ after, acts.foldl (endingsAfter orderId) (some before) = some after ∧ (after.1.isSome ∨ after.2.isSome) := by
  induction acts generalizing before with
  | nil => exact ⟨before, rfl, waits⟩
  | cons act rest ih =>
    have acted : ∃ next, endingsAfter orderId (some before) act = some next ∧ (next.1.isSome ∨ next.2.isSome) := by
      cases act with
      | opened order released =>
        simp only [endingsAfter]
        split <;> exact ⟨before, rfl, waits⟩
      | ended id state =>
        simp only [endingsAfter]
        split
        · exact ⟨_, rfl, Or.inl rfl⟩
        · exact ⟨before, rfl, waits⟩
      | ending id state =>
        simp only [endingsAfter]
        split
        · exact ⟨_, rfl, Or.inr rfl⟩
        · exact ⟨before, rfl, waits⟩
      | _ => exact ⟨before, rfl, waits⟩
    obtain ⟨next, acted, still⟩ := acted
    rw [List.foldl_cons, acted]
    exact ih still

end Ledger

/-- What an entry leaves of an order waiting to end: its parts are those it had and those the entry opens
on it or under it, and it has ended or still has one that is live. -/
theorem waits_of_finish {book : Book} {head : Nat} {ctx : Context} {plan : Plan} {act : Made} {orderId : String}
    {held : OrderHeld} (finished : finish book head ctx plan = .ok act)
    (found : book.ledger.orders[orderId]? = some held) (waits : held.ending.isSome) :
    ∃ later, act.held.ledger.orders[orderId]? = some later ∧
      (∀ id ∈ later.placements, id ∈ held.placements ∨ Ledger.OpensPlacement act.entry.body.acts orderId id) ∧
      (∀ id ∈ later.children, id ∈ held.children ∨ Ledger.OpensChild act.entry.body.acts orderId id) ∧
      (later.ended.isSome ∨ ∃ placements children, act.held.ledger.liveParts orderId = .ok (placements, children) ∧
        (placements ≠ [] ∨ children ≠ [])) := by
  obtain ⟨more, settles, decided⟩ := finish_ok finished
  obtain ⟨applied, -, -⟩ := made_ok decided
  have alike := Book.live_of_applied applied
  have start : book.ledger.named orderId = some (held.placements, held.children) := by
    rw [Ledger.named, found]
    rfl
  obtain ⟨parts, folded, placements, children⟩ :=
    @Ledger.named_foldl_grows orderId (plan.acts ++ more) (held.placements, held.children)
  have named : act.held.ledger.named orderId = some parts := by
    rw [← start, ← Ledger.named_applyAll book.ledger _ "" ∅] at folded
    exact (Ledger.named_of_live alike orderId).trans folded
  obtain ⟨later, inAfter, rfl⟩ := Option.map_eq_some_iff.mp named
  have entry : act.entry.body.acts = plan.acts ++ more := acts_of_made decided
  rw [entry]
  refine ⟨later, inAfter, placements, children, ?_⟩
  have endings : book.ledger.endings orderId = some (held.ended, held.ending) := by
    rw [Ledger.endings, found]
    rfl
  obtain ⟨after, ending, still⟩ :=
    @Ledger.endings_foldl_waits orderId (plan.acts ++ more) (held.ended, held.ending) (Or.inr waits)
  have left : act.held.ledger.endings orderId = some after := by
    rw [← endings] at ending
    exact (Book.endings_of_applied applied orderId).trans ending
  rw [Ledger.endings, inAfter] at left
  obtain rfl := Option.some.inj left
  cases ended : later.ended with
  | some state => exact Or.inl rfl
  | none =>
    right
    obtain ⟨state, waiting⟩ := Option.isSome_iff_exists.mp (still.resolve_left (by simp [ended]))
    exact settled_of_finish finished orderId later state inAfter waiting ended

theorem acts_of_finish {book : Book} {head : Nat} {ctx : Context} {plan : Plan} {act : Made}
    (finished : finish book head ctx plan = .ok act) {each : Act} (member : each ∈ act.entry.body.acts) :
    each ∈ plan.acts ∨ Ledger.SettleAct each := by
  obtain ⟨more, settles, decided⟩ := finish_ok finished
  rw [acts_of_made decided] at member
  rcases List.mem_append.mp member with own | settled
  · exact Or.inl own
  · exact Or.inr (settles each settled)

/-- A placement is opened on an order that is released or working, whatever end it waits for. -/
theorem opens_placement_of_placed {book : Book} {head : Nat} {ctx : Context} {request : CreatePlacementRequest}
    {act : Made} (decided : createPlacement book head ctx request = .ok act) {placement : Placement}
    (opened : Act.placementOpened placement ∈ act.entry.body.acts) :
    placement.orderId = request.orderId ∧ ∃ state, book.ledger.state request.orderId = .ok state ∧
      (state = .released ∨ state = .working) := by
  have refused {reason : String} {refusal : StoreError}
      (refused : refusedPlacement book head ctx request reason refusal = .ok act) : False := by
    unfold refusedPlacement at refused
    obtain ⟨finished, made, refused⟩ := bind_ok.mp refused
    have entry : act.entry = finished.entry := by
      cases refused
      rfl
    rw [entry] at opened
    rcases acts_of_finish made opened with own | settles
    · cases List.mem_singleton.mp own
    · cases settles
  unfold createPlacement at decided
  obtain ⟨order, -, decided⟩ := bind_ok.mp decided
  obtain ⟨-, -, decided⟩ := bind_ok.mp decided
  obtain ⟨-, -, decided⟩ := bind_ok.mp decided
  obtain ⟨manual, -, decided⟩ := bind_ok.mp decided
  rcases ite_eq_iff.mp decided with ⟨-, decided⟩ | ⟨-, decided⟩
  · exact (refused decided).elim
  · rcases ite_eq_iff.mp decided with ⟨-, decided⟩ | ⟨-, decided⟩
    · exact (refused decided).elim
    · obtain ⟨-, decided⟩ := guard_ok.mp decided
      obtain ⟨state, read, decided⟩ := bind_ok.mp decided
      obtain ⟨admitted, decided⟩ := guard_ok.mp decided
      obtain ⟨stated, -, decided⟩ := bind_ok.mp decided
      dsimp only at decided
      split at decided
      · obtain ⟨-, decided⟩ := guard_ok.mp decided
        obtain ⟨-, decided⟩ := guard_ok.mp decided
        obtain ⟨finished, made, decided⟩ := bind_ok.mp decided
        have same : act = finished := by
          split at decided
          · cases decided
            rfl
          · obtain ⟨-, -, decided⟩ := bind_ok.mp decided
            cases decided
            rfl
        subst same
        refine ⟨?_, state, read, by_contra fun neither => admitted (not_or.mp neither)⟩
        rcases acts_of_finish made opened with own | settles
        · obtain ⟨rfl⟩ := Act.placementOpened.inj (List.mem_singleton.mp own)
          rfl
        · cases settles
      · cases decided

/-- A child is opened under a parent that is released or working, whatever end it waits for. -/
theorem opens_child_of_proposed {book : Book} {head : Nat} {ctx : Context} {terms : Order} {key : String} {act : Made}
    (decided : proposed book head ctx terms key = .ok act) {order : Order} {released : Bool} {link : OrderLink}
    (opened : Act.opened order released ∈ act.entry.body.acts) (linked : order.link = some link) :
    ∃ state, book.ledger.state link.parentOrderId = .ok state ∧ (state = .released ∨ state = .working) := by
  unfold proposed at decided
  dsimp only at decided
  split at decided
  · next unlinked =>
    rcases acts_of_finish decided opened with own | settles
    · obtain ⟨rfl, -⟩ := Act.opened.inj (List.mem_singleton.mp own)
      rw [unlinked] at linked
      cases linked
    · cases settles
  · next parentLink parentLinked =>
    obtain ⟨-, decided⟩ := guard_ok.mp decided
    obtain ⟨parent, -, decided⟩ := bind_ok.mp decided
    obtain ⟨-, decided⟩ := guard_ok.mp decided
    obtain ⟨-, decided⟩ := guard_ok.mp decided
    obtain ⟨-, decided⟩ := guard_ok.mp decided
    obtain ⟨state, read, decided⟩ := bind_ok.mp decided
    obtain ⟨admitted, decided⟩ := guard_ok.mp decided
    obtain ⟨-, decided⟩ := guard_ok.mp decided
    rcases acts_of_finish decided opened with own | settles
    · obtain ⟨rfl, -⟩ := Act.opened.inj (List.mem_singleton.mp own)
      obtain rfl := Option.some.inj (parentLinked.symm.trans linked)
      exact ⟨state, read, by_contra fun neither => admitted (not_or.mp neither)⟩
    · cases settles

/-- An order whose end is pending waits on the parts it has and on those later entries open on it or under
it, which they do while it is released or working; it ends at the entry that leaves none of them live. -/
theorem pending_end_waits :
    (∀ (book : Book) (head : Nat) (ctx : Context) (plan : Plan) (act : Made) (orderId : String) (held : OrderHeld),
        finish book head ctx plan = .ok act → book.ledger.orders[orderId]? = some held → held.ending.isSome →
        ∃ later, act.held.ledger.orders[orderId]? = some later ∧
          (∀ id ∈ later.placements, id ∈ held.placements ∨ Ledger.OpensPlacement act.entry.body.acts orderId id) ∧
          (∀ id ∈ later.children, id ∈ held.children ∨ Ledger.OpensChild act.entry.body.acts orderId id) ∧
          (later.ended.isSome ∨ ∃ placements children,
            act.held.ledger.liveParts orderId = .ok (placements, children) ∧ (placements ≠ [] ∨ children ≠ []))) ∧
      (∀ (book : Book) (head : Nat) (ctx : Context) (request : CreatePlacementRequest) (act : Made)
          (placement : Placement), createPlacement book head ctx request = .ok act →
          Act.placementOpened placement ∈ act.entry.body.acts →
          placement.orderId = request.orderId ∧ ∃ state, book.ledger.state request.orderId = .ok state ∧
            (state = .released ∨ state = .working)) ∧
      ∀ (book : Book) (head : Nat) (ctx : Context) (terms : Order) (key : String) (act : Made) (order : Order)
        (released : Bool) (link : OrderLink), proposed book head ctx terms key = .ok act →
        Act.opened order released ∈ act.entry.body.acts → order.link = some link →
        ∃ state, book.ledger.state link.parentOrderId = .ok state ∧ (state = .released ∨ state = .working) :=
  ⟨fun _ _ _ _ _ _ _ finished found waits => waits_of_finish finished found waits,
    fun _ _ _ _ _ _ decided opened => opens_placement_of_placed decided opened,
    fun _ _ _ _ _ _ _ _ _ decided opened linked => opens_child_of_proposed decided opened linked⟩

/-- A released order placed, its cancel asked for, and placed once more while the first placement is live. -/
def placedWhilePending : Result (Made × Made × Made) := do
  let ctx : Context := { actingFor := "USR-1", instanceId := "INST-1", connectivityAllowed := true }
  let (_, _, released) ← checkedRelease
  let placement : CreatePlacementRequest :=
    { orderId := "ORD-0", connectivityInstanceId := "VEN-1", quantity := some ⟨60, 0⟩ }
  let first ← createPlacement released.held released.changes.lastSequence ctx placement
  let (cancelled, _) ← requestOrderChange first.held first.changes.lastSequence ctx
    { orderId := "ORD-0", change := some { kind := .cancel } }
  let second ← createPlacement cancelled.held cancelled.changes.lastSequence
    { ctx with minted := fun identifier count => identifier ++ "-B-" ++ toString count } placement
  return (first, cancelled, second)

/-- Whether an order of the ID waits for its cancel on the parts named. -/
def waitsOn (ledger : Ledger) (orderId : String) (placements : List String) : Bool :=
  (match ledger.orders[orderId]? with
    | some held => held.ending == some OrderState.cancelled && held.ended == none && held.placements == placements
    | none => false) &&
    (ledger.liveParts orderId).toOption == some (placements, [])

/-- Whether the command that opens on a pending cancel does so on the run above. -/
def opensWhilePending : Made × Made × Made → Bool
  | (_, cancelled, second) =>
    waitsOn cancelled.held.ledger "ORD-0" ["PLC-0"] && second.refusal.isNone &&
      waitsOn second.held.ledger "ORD-0" ["PLC-0", "PLC-B-0"]

theorem placed_while_cancel_pending :
    ∃ acts cancelled second,
      Run (fun before act after => Decided before act ∧ after = act.held) (Book.new "ACC-1" "P-1")
        (acts ++ [cancelled, second]) second.held ∧
      waitsOn cancelled.held.ledger "ORD-0" ["PLC-0"] = true ∧ second.refusal = none ∧
      waitsOn second.held.ledger "ORD-0" ["PLC-0", "PLC-B-0"] = true := by
  have computed : placedWhilePending.toOption.any opensWhilePending = true := by
    decide +kernel
  obtain ⟨⟨placed, cancelled, second⟩, ran, opens⟩ := answered_of computed
  unfold placedWhilePending at ran
  obtain ⟨⟨opened, asked, answered⟩, released, ran⟩ := bind_ok.mp ran
  obtain ⟨first, placing, ran⟩ := bind_ok.mp ran
  obtain ⟨⟨pending, changeId⟩, cancelling, ran⟩ := bind_ok.mp ran
  obtain ⟨again, opening, ran⟩ := bind_ok.mp ran
  cases ran
  unfold checkedRelease at released
  obtain ⟨proposal, proposing, released⟩ := bind_ok.mp released
  obtain ⟨wait, asking, released⟩ := bind_ok.mp released
  obtain ⟨check, checking, released⟩ := bind_ok.mp released
  cases released
  have run : Run (fun before act after => Decided before act ∧ after = act.held) (Book.new "ACC-1" "P-1")
      [opened, asked, answered, placed, cancelled, second] second.held :=
    ((((((Run.nil _).snoc ⟨Decided.proposed proposing, rfl⟩).snoc ⟨Decided.released asking, rfl⟩).snoc
      ⟨Decided.checked checking, rfl⟩).snoc ⟨Decided.placed placing, rfl⟩).snoc ⟨Decided.changed cancelling, rfl⟩).snoc
      ⟨Decided.placed opening, rfl⟩
  simp only [opensWhilePending, Bool.and_eq_true, Option.isNone_iff_eq_none] at opens
  obtain ⟨⟨waits, accepted⟩, still⟩ := opens
  exact ⟨[opened, asked, answered, placed], cancelled, second, run, waits, accepted, still⟩

/-- On an order whose cancel is pending: an override, a placement and a child. -/
def madeWhilePending : Result (Made × Made × Made × Made) := do
  let ctx : Context := { actingFor := "USR-1", minted := fun identifier count => identifier ++ "-C-" ++ toString count }
  let (_, pending, placed) ← placedWhilePending
  let overridden ← finish pending.held pending.changes.lastSequence ctx
    ⟨"approval-decided", "USR-1", [.overridden "ORD-0"], [], "", "", ""⟩
  let child ← proposed pending.held pending.changes.lastSequence ctx
    { instrumentId := "AAA", side := .buy, quantity := some ⟨10, 0⟩
      link := some { kind := .split, parentOrderId := "ORD-0" } } ""
  return (pending, overridden, placed, child)

/-- Whether the entries made on a pending cancel are what they are asked to be. -/
def madeSo : Made × Made × Made × Made → Bool
  | (pending, _, placed, child) =>
    waitsOn pending.held.ledger "ORD-0" ["PLC-0"] &&
      placed.entry.body.acts.any (fun act => match act with
        | .placementOpened placement => placement.orderId == "ORD-0"
        | _ => false) &&
      child.entry.body.acts.any (fun act => match act with
        | .opened order _ => order.link.any fun link => link.parentOrderId == "ORD-0"
        | _ => false)

theorem made_while_cancel_pending :
    ∃ pending overridden placed child, madeWhilePending = .ok (pending, overridden, placed, child) ∧
      (∃ later, overridden.held.ledger.orders["ORD-0"]? = some later ∧ (later.ended.isSome ∨ ∃ placements children,
        overridden.held.ledger.liveParts "ORD-0" = .ok (placements, children) ∧ (placements ≠ [] ∨ children ≠ []))) ∧
      (∃ state, pending.held.ledger.state "ORD-0" = .ok state ∧ (state = .released ∨ state = .working)) ∧
      ∃ parentId state, pending.held.ledger.state parentId = .ok state ∧ (state = .released ∨ state = .working) := by
  have computed : madeWhilePending.toOption.any madeSo = true := by
    decide +kernel
  obtain ⟨⟨pending, overridden, placed, child⟩, ran, so⟩ := answered_of computed
  refine ⟨pending, overridden, placed, child, ran, ?_⟩
  unfold madeWhilePending at ran
  obtain ⟨⟨first, cancelled, second⟩, earlier, ran⟩ := bind_ok.mp ran
  obtain ⟨quiet, finishing, ran⟩ := bind_ok.mp ran
  obtain ⟨under, proposing, ran⟩ := bind_ok.mp ran
  cases ran
  unfold placedWhilePending at earlier
  obtain ⟨⟨opened, asked, answered⟩, -, earlier⟩ := bind_ok.mp earlier
  obtain ⟨placement, -, earlier⟩ := bind_ok.mp earlier
  obtain ⟨⟨cancel, changeId⟩, -, earlier⟩ := bind_ok.mp earlier
  obtain ⟨again, placing, earlier⟩ := bind_ok.mp earlier
  cases earlier
  simp only [madeSo, Bool.and_eq_true, List.any_eq_true] at so
  obtain ⟨⟨waits, act, placedActs, isPlaced⟩, childAct, childActs, isChild⟩ := so
  obtain ⟨entries, places, proposes⟩ := pending_end_waits
  refine ⟨?_, ?_, ?_⟩
  · unfold waitsOn at waits
    obtain ⟨ends, -⟩ := Bool.and_eq_true_iff.mp waits
    split at ends
    · next held found =>
      simp only [Bool.and_eq_true, beq_iff_eq] at ends
      obtain ⟨later, inAfter, -, -, left⟩ := entries _ _ _ _ _ "ORD-0" held finishing found (by rw [ends.1.1]; rfl)
      exact ⟨later, inAfter, left⟩
    · cases ends
  · cases act with
    | placementOpened opened => exact (places _ _ _ _ _ opened placing placedActs).2
    | _ => cases isPlaced
  · cases childAct with
    | opened order released =>
      obtain ⟨link, linked, -⟩ := (Option.any_eq_true _ _).mp isChild
      obtain ⟨state, read, admitted⟩ := proposes _ _ _ _ _ _ order released link proposing childActs linked
      exact ⟨link.parentOrderId, state, read, admitted⟩
    | _ => cases isChild

end MeridianCore.Bor
