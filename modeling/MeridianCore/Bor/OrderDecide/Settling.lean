import MeridianCore.Bor.Orders.Alike
import MeridianCore.Bor.Orders.OrderAfter
import MeridianCore.Bor.OrderDecide.Settle

namespace MeridianCore.Bor

/-- What of an order settling leaves alone. -/
structure Parts where
  order : Order
  placements : List String
  executions : List String
  children : List String

def OrderHeld.parts (held : OrderHeld) : Parts where
  order := held.order
  placements := held.placements
  executions := held.executions
  children := held.children

namespace Ledger

/-- An order that is not live: not held, ended in a state that is not live, or filled. -/
def Quiet (ledger : Ledger) (orderId : String) : Prop :=
  ∀ held, ledger.orders[orderId]? = some held →
    match held.ended with
    | some state => orderStateLive state = false
    | none => ∃ fills, ledger.filled orderId = .ok fills ∧ (ordered held).isZero = false ∧
        fills.reported.atLeast (ordered held) = true

section
variable {ledger : Ledger} {orderId : String} {held : OrderHeld}

theorem state_of_ended {state : OrderState} (found : ledger.orders[orderId]? = some held)
    (ended : held.ended = some state) : ledger.state orderId = .ok state := by
  unfold Ledger.state depth stateWithin
  rw [found]
  simp only [ended]

/-- The state of an order no act ended, from what it is filled by. -/
theorem state_of_filled (found : ledger.orders[orderId]? = some held) (standing : held.ended = none) {fills : Fills}
    (filled : ledger.filled orderId = .ok fills) (some : (ordered held).isZero = false)
    (reached : fills.reported.atLeast (ordered held) = true) : ledger.state orderId = .ok .filled := by
  unfold Ledger.state depth stateWithin
  rw [found]
  simp only [standing, filled, bind, Except.bind, some, reached]
  rfl

theorem live_of_unfilled {state : OrderState} (found : ledger.orders[orderId]? = some held) (standing : held.ended = none)
    (derived : ledger.state orderId = .ok state) (ended : orderStateLive state = false) :
    ∃ fills, ledger.filled orderId = .ok fills ∧ (ordered held).isZero = false ∧
      fills.reported.atLeast (ordered held) = true := by
  unfold Ledger.state depth stateWithin at derived
  rw [found] at derived
  simp only [standing] at derived
  obtain ⟨fills, filled, derived⟩ := bind_ok.mp derived
  refine ⟨fills, filled, ?_⟩
  split at derived
  · next reached => exact ⟨by simpa only [Bool.not_eq_true] using reached.1, reached.2⟩
  · exfalso
    split at derived
    · split at derived
      · cases derived
        cases ended
      · obtain ⟨committed, -, derived⟩ := bind_ok.mp derived
        cases derived
        split at ended <;> cases ended
    · cases derived
      cases ended

theorem orderLive_eq_false : ledger.orderLive orderId = .ok false ↔ ledger.Quiet orderId := by
  have liveness : ledger.orderLive orderId = .ok false ↔
      ∃ state, ledger.state orderId = .ok state ∧ orderStateLive state = false := by
    unfold orderLive
    rw [bind_ok]
    simp only [pure, Except.pure, Except.ok.injEq]
  rw [liveness]
  constructor
  · rintro ⟨state, derived, ended⟩ held found
    cases stands : held.ended with
    | some stored =>
      rw [state_of_ended found stands] at derived
      cases derived
      exact ended
    | none => exact live_of_unfilled found stands derived ended
  · intro quiet
    cases found : ledger.orders[orderId]? with
    | none =>
      refine ⟨.unspecified, ?_, rfl⟩
      unfold Ledger.state depth stateWithin
      rw [found]
    | some held =>
      have stands := quiet held found
      cases stored : held.ended with
      | some state =>
        rw [stored] at stands
        exact ⟨state, state_of_ended found stored, stands⟩
      | none =>
        rw [stored] at stands
        obtain ⟨fills, filled, some, reached⟩ := stands
        exact ⟨.filled, state_of_filled found stored filled some reached, rfl⟩

end

/-- Two ledgers that settling may take one to the other: the same but for which orders ended and what
became of their cancel requests. -/
structure SettledAlike (a b : Ledger) : Prop where
  parts : ∀ id : String, (b.orders[id]?).map OrderHeld.parts = (a.orders[id]?).map OrderHeld.parts
  placements : b.placements = a.placements
  executions : b.executions = a.executions
  received : b.received = a.received
  sleeveCrosses : b.sleeveCrosses = a.sleeveCrosses
  depth : b.depth = a.depth

namespace SettledAlike

theorem refl (ledger : Ledger) : SettledAlike ledger ledger := ⟨fun _ => rfl, rfl, rfl, rfl, rfl, rfl⟩

theorem trans {a b c : Ledger} (first : SettledAlike a b) (second : SettledAlike b c) : SettledAlike a c where
  parts id := (second.parts id).trans (first.parts id)
  placements := second.placements.trans first.placements
  executions := second.executions.trans first.executions
  received := second.received.trans first.received
  sleeveCrosses := second.sleeveCrosses.trans first.sleeveCrosses
  depth := second.depth.trans first.depth

variable {a b : Ledger}

theorem fills (alike : SettledAlike a b) : FillsAlike (fun _ => True) a b where
  orders id _ := by
    rcases alike_cases (alike.parts id) with ⟨inA, inB⟩ | ⟨held, later, inA, inB, same⟩
    · rw [inA, inB]
    · have order : later.order = held.order := congrArg Parts.order same
      have executions : later.executions = held.executions := congrArg Parts.executions same
      have children : later.children = held.children := congrArg Parts.children same
      rw [inA, inB]
      simp only [Option.map_some, OrderHeld.filling, order, executions, children]
  children _ _ _ _ _ _ := trivial
  executions _ _ _ _ _ _ := by rw [alike.executions]
  also id _ := by
    unfold alsoFilled
    rw [alike.received, alike.sleeveCrosses]

theorem filled (alike : SettledAlike a b) (orderId : String) : b.filled orderId = a.filled orderId :=
  filled_congr alike.fills alike.depth trivial

theorem placementLive (alike : SettledAlike a b) (placementId : String) :
    b.placementLive placementId = a.placementLive placementId := by
  refine placementLive_congr ⟨by rw [alike.placements], fun _ _ _ _ => by rw [alike.executions], fun held _ => ?_⟩
  rcases alike_cases (alike.parts held.placement.orderId) with ⟨inA, inB⟩ | ⟨order, later, inA, inB, same⟩
  · rw [inA, inB]
  · have terms : later.order = order.order := congrArg Parts.order same
    rw [inA, inB]
    simp only [Option.map_some, terms]

end SettledAlike

/-- The acts settling makes: an order's end, and what became of its cancel request. -/
inductive SettleAct : Act → Prop where
  | ended (orderId : String) (state : OrderState) : SettleAct (.ended orderId state)
  | applied (changeRequestId : String) : SettleAct (.changeOutcome changeRequestId .applied)

theorem settledAlike_apply (ledger : Ledger) {act : Act} (settles : SettleAct act) :
    SettledAlike ledger (ledger.apply act "" ∅) := by
  cases settles with
  | ended orderId state =>
    refine ⟨fun id => ?_, rfl, rfl, rfl, rfl, ?_⟩
    · simp only [apply, onOrder, Std.ExtTreeMap.getElem?_modify]
      split
      · next equal =>
        obtain rfl := Std.LawfulEqOrd.eq_of_compare equal
        cases ledger.orders[orderId]? <;> rfl
      · rfl
    · simp only [Ledger.depth, apply, onOrder, Std.ExtTreeMap.size_modify]
  | applied changeRequestId => exact ⟨fun _ => rfl, rfl, rfl, rfl, rfl, rfl⟩

theorem settledAlike_applyAll (ledger : Ledger) {acts : List Act} (settle : ∀ act ∈ acts, SettleAct act) :
    SettledAlike ledger (ledger.applyAll acts "" ∅) := by
  induction acts generalizing ledger with
  | nil => exact SettledAlike.refl ledger
  | cons act rest ih =>
    exact (settledAlike_apply ledger (settle act List.mem_cons_self)).trans
      (ih _ fun later member => settle later (List.mem_cons_of_mem _ member))

theorem liveOf_eq_nil {live : String → Result Bool} {ids : List String} :
    liveOf live ids = .ok [] ↔ ∀ id ∈ ids, live id = .ok false := by
  induction ids with
  | nil => exact ⟨fun _ _ member => (List.not_mem_nil member).elim, fun _ => rfl⟩
  | cons id rest ih =>
    unfold liveOf
    constructor
    · intro answered
      obtain ⟨alive, first, answered⟩ := bind_ok.mp answered
      obtain ⟨others, later, answered⟩ := bind_ok.mp answered
      cases alive with
      | true => cases answered
      | false =>
        cases answered
        intro other member
        rcases List.mem_cons.mp member with rfl | member
        · exact first
        · exact ih.mp later other member
    · intro dead
      rw [dead id List.mem_cons_self, ih.mpr fun other member => dead other (List.mem_cons_of_mem _ member)]
      rfl

/-- Nothing of the order is live: none of its placements, and none of its children. -/
def NothingLive (ledger : Ledger) (held : OrderHeld) : Prop :=
  (∀ id ∈ held.placements, ledger.placementLive id = .ok false) ∧
    ∀ id ∈ held.children, ledger.orderLive id = .ok false

theorem liveParts_eq_nil {ledger : Ledger} {orderId : String} {held : OrderHeld}
    (found : ledger.orders[orderId]? = some held) :
    ledger.liveParts orderId = .ok ([], []) ↔ ledger.NothingLive held := by
  unfold liveParts NothingLive
  rw [found]
  simp only
  rw [← liveOf_eq_nil, ← liveOf_eq_nil]
  constructor
  · intro answered
    obtain ⟨placements, first, answered⟩ := bind_ok.mp answered
    obtain ⟨children, second, answered⟩ := bind_ok.mp answered
    cases answered
    exact ⟨first, second⟩
  · rintro ⟨first, second⟩
    rw [first, second]
    rfl

/-- An order a pass ends: its end waited for, and nothing of it live. -/
def Ready (ledger : Ledger) (orderId : String) (state : OrderState) : Prop :=
  ∃ held, ledger.orders[orderId]? = some held ∧ held.ending = some state ∧ held.ended = none ∧
    ledger.NothingLive held

theorem settling_spec {ledger : Ledger} {orderId : String} {held : OrderHeld} {acts : List Act}
    (found : ledger.orders[orderId]? = some held) (settled : settling ledger orderId held = .ok acts) :
    (∀ act ∈ acts, SettleAct act) ∧
      ∀ id state, .ended id state ∈ acts ↔ id = orderId ∧ ledger.Ready orderId state := by
  have unready (quiet : ∀ state, held.ending = some state → held.ended = none → ¬ ledger.NothingLive held)
      (state : OrderState) : ¬ ledger.Ready orderId state := by
    rintro ⟨other, foundAlso, ending, standing, nothing⟩
    rw [found] at foundAlso
    cases foundAlso
    exact quiet state ending standing nothing
  unfold settling at settled
  split at settled
  · next ending waits standing =>
    obtain ⟨⟨placements, children⟩, parts, settled⟩ := bind_ok.mp settled
    simp only at settled
    split at settled
    · next alive =>
      cases settled
      refine ⟨fun _ member => (List.not_mem_nil member).elim, fun id state => ?_⟩
      simp only [List.not_mem_nil, false_iff]
      rintro ⟨-, ready⟩
      refine unready (fun state _ _ nothing => ?_) state ready
      rw [(liveParts_eq_nil found).mpr nothing] at parts
      cases parts
      simp at alive
    · next silent =>
      have none : placements = [] ∧ children = [] := by simpa using silent
      obtain ⟨rfl, rfl⟩ := none
      have nothing := (liveParts_eq_nil found).mp parts
      cases settled
      constructor
      · intro act member
        rcases List.mem_append.mp member with applied | ended
        · split at applied
          · obtain ⟨id, -, rfl⟩ := List.mem_map.mp applied
            exact .applied id
          · cases applied
        · obtain rfl := List.mem_singleton.mp ended
          exact .ended ..
      · intro id state
        constructor
        · intro member
          rcases List.mem_append.mp member with applied | ended
          · split at applied
            · obtain ⟨request, -, same⟩ := List.mem_map.mp applied
              cases same
            · cases applied
          · cases List.mem_singleton.mp ended
            exact ⟨rfl, ⟨held, found, waits, standing, nothing⟩⟩
        · rintro ⟨rfl, other, foundAlso, endsAs, -, -⟩
          rw [found] at foundAlso
          cases foundAlso
          rw [waits] at endsAs
          cases endsAs
          exact List.mem_append_right _ (List.mem_singleton_self _)
  · next open_ =>
    cases settled
    refine ⟨fun _ member => (List.not_mem_nil member).elim, fun id state => ?_⟩
    simp only [List.not_mem_nil, false_iff]
    rintro ⟨-, ready⟩
    exact unready (fun state ending standing _ => open_ state ending standing) state ready

/-- One pass ends each order that is ready, and no other. -/
theorem settlingRound_spec {ledger : Ledger} {acts : List Act} (settled : settlingRound ledger = .ok acts) :
    (∀ act ∈ acts, SettleAct act) ∧ ∀ id state, .ended id state ∈ acts ↔ ledger.Ready id state := by
  unfold settlingRound at settled
  obtain ⟨each, read, settled⟩ := bind_ok.mp settled
  cases settled
  constructor
  · intro act member
    obtain ⟨mine, inEach, member⟩ := List.mem_flatten.mp member
    obtain ⟨⟨id, held⟩, entry, settled⟩ := mapM_entry read inEach
    exact (settling_spec (BTreeMap.mem_toList.mp entry) settled).1 act member
  · intro id state
    constructor
    · intro member
      obtain ⟨mine, inEach, member⟩ := List.mem_flatten.mp member
      obtain ⟨⟨orderId, held⟩, entry, settled⟩ := mapM_entry read inEach
      obtain ⟨rfl, ready⟩ := ((settling_spec (BTreeMap.mem_toList.mp entry) settled).2 id state).mp member
      exact ready
    · intro ready
      obtain ⟨held, found, rest⟩ := ready
      obtain ⟨mine, inEach, settled⟩ := mapM_answer read (BTreeMap.mem_toList.mpr found)
      exact List.mem_flatten.mpr
        ⟨mine, inEach, ((settling_spec found settled).2 id state).mpr ⟨rfl, held, found, rest⟩⟩

/-- An order that settling ends: its end is waited for, no placement of it is live, and each child of it
that is live settles too. -/
inductive Settles (ledger : Ledger) : String → Prop where
  | ends {orderId : String} {held : OrderHeld} (found : ledger.orders[orderId]? = some held)
      (waits : held.ending.isSome) (standing : held.ended = none)
      (placements : ∀ id ∈ held.placements, ledger.placementLive id = .ok false)
      (children : ∀ id ∈ held.children, ledger.orderLive id ≠ .ok false → Settles ledger id) :
      Settles ledger orderId

theorem endings_of_ready {ledger : Ledger} {orderId : String} {state : OrderState}
    (ready : ledger.Ready orderId state) : ledger.endings orderId = some (none, some state) := by
  obtain ⟨held, found, waits, standing, -⟩ := ready
  rw [endings, found]
  simp only [Option.map_some, waits, standing]

/-- Acts that end no order of the ID leave its endings. -/
theorem endings_settle_other {orderId : String} {acts : List Act} (settle : ∀ act ∈ acts, SettleAct act)
    (none : ∀ state, .ended orderId state ∉ acts) (before : Option (Option OrderState × Option OrderState)) :
    acts.foldl (endingsAfter orderId) before = before := by
  induction acts generalizing before with
  | nil => rfl
  | cons act rest ih =>
    have first : endingsAfter orderId before act = before := by
      cases settle act List.mem_cons_self with
      | applied id => rfl
      | ended id state =>
        refine if_neg fun same => none state ?_
        rw [same]
        exact List.mem_cons_self
    rw [List.foldl_cons, first]
    exact ih (fun act member => settle act (List.mem_cons_of_mem _ member))
      (fun state member => none state (List.mem_cons_of_mem _ member)) before

/-- Acts that end an order in one state leave it ended in that state. -/
theorem endings_settle_own {orderId : String} {state : OrderState} {acts : List Act}
    (settle : ∀ act ∈ acts, SettleAct act) (ends : .ended orderId state ∈ acts)
    (only : ∀ other, .ended orderId other ∈ acts → other = state)
    {before : Option OrderState × Option OrderState} :
    acts.foldl (endingsAfter orderId) (some before) = some (some state, none) := by
  induction acts generalizing before with
  | nil => cases ends
  | cons act rest ih =>
    rw [List.foldl_cons]
    have later (act : Act) (member : act ∈ rest) : SettleAct act := settle act (List.mem_cons_of_mem _ member)
    by_cases again : ∃ other, .ended orderId other ∈ rest
    · obtain ⟨other, member⟩ := again
      obtain rfl := only other (List.mem_cons_of_mem _ member)
      have onlyLater := fun other member => only other (List.mem_cons_of_mem _ member)
      cases settle act List.mem_cons_self with
      | applied id => exact ih later member onlyLater
      | ended id ending =>
        by_cases same : id = orderId
        · simp only [endingsAfter, same, if_true, Option.map_some]
          exact ih later member onlyLater
        · simp only [endingsAfter, same, if_false]
          exact ih later member onlyLater
    · have silent (other : OrderState) (member : .ended orderId other ∈ rest) : False := again ⟨other, member⟩
      rw [endings_settle_other later silent]
      rcases List.mem_cons.mp ends with rfl | member
      · simp only [endingsAfter, if_true, Option.map_some]
      · exact (silent state member).elim

/-- What a pass leaves of every order's endings. -/
theorem endings_pass {ledger : Ledger} {acts : List Act} (settled : settlingRound ledger = .ok acts) (orderId : String) :
    (∀ state, ledger.Ready orderId state →
        (ledger.applyAll acts "" ∅).endings orderId = some (some state, none)) ∧
      ((∀ state, ¬ ledger.Ready orderId state) →
        (ledger.applyAll acts "" ∅).endings orderId = ledger.endings orderId) := by
  obtain ⟨settle, ends⟩ := settlingRound_spec settled
  constructor
  · intro state ready
    rw [endings_applyAll, endings_of_ready ready]
    refine endings_settle_own settle ((ends orderId state).mpr ready) fun other member => ?_
    have also := endings_of_ready ((ends orderId other).mp member)
    rw [endings_of_ready ready] at also
    cases also
    rfl
  · intro unready
    rw [endings_applyAll]
    exact endings_settle_other settle (fun state member => unready state ((ends orderId state).mp member)) _

/-- What an order waits for is a cancellation or an expiry. -/
def WaitsToEnd (ledger : Ledger) : Prop :=
  ∀ orderId ended state, ledger.endings orderId = some (ended, some state) → state = .cancelled ∨ state = .expired

theorem quiet_iff_of_settled {a b : Ledger} (alike : SettledAlike a b) {orderId : String}
    (same : b.endings orderId = a.endings orderId) : b.Quiet orderId ↔ a.Quiet orderId := by
  have parts := alike.parts orderId
  unfold endings at same
  unfold Quiet
  rw [alike.filled]
  rcases alike_cases parts with ⟨inA, inB⟩ | ⟨held, later, inA, inB, parts⟩
  · simp [inA, inB]
  · rw [inA, inB] at same ⊢
    have ended : later.ended = held.ended := congrArg Prod.fst (Option.some.inj same)
    have terms : later.order = held.order := congrArg Parts.order parts
    have quantity : ordered later = ordered held := by
      unfold ordered
      rw [terms]
    simp only [Option.some.injEq, forall_eq', ended, quantity]

theorem quiet_of_ended {ledger : Ledger} {orderId : String} {state : OrderState}
    (ended : ledger.endings orderId = some (some state, none)) (dead : orderStateLive state = false) :
    ledger.Quiet orderId := by
  intro held found
  unfold endings at ended
  rw [found] at ended
  have stored : held.ended = some state := congrArg Prod.fst (Option.some.inj ended)
  rw [stored]
  exact dead

/-- A pass leaves each order's end waited for as it was, or taken. -/
theorem waitsToEnd_pass {ledger : Ledger} {acts : List Act} (settled : settlingRound ledger = .ok acts)
    (waits : ledger.WaitsToEnd) : (ledger.applyAll acts "" ∅).WaitsToEnd := by
  intro orderId ended state found
  obtain ⟨own, other⟩ := endings_pass settled orderId
  by_cases ready : ∃ state, ledger.Ready orderId state
  · obtain ⟨state, ready⟩ := ready
    rw [own state ready] at found
    cases found
  · rw [other (not_exists.mp ready)] at found
    exact waits orderId ended state found

theorem dead_of_waits {ledger : Ledger} (waits : ledger.WaitsToEnd) {orderId : String} {ended : Option OrderState}
    {state : OrderState} (found : ledger.endings orderId = some (ended, some state)) :
    orderStateLive state = false := by
  rcases waits orderId ended state found with rfl | rfl <;> rfl

theorem settles_of_ready {ledger : Ledger} {orderId : String} {state : OrderState}
    (ready : ledger.Ready orderId state) : ledger.Settles orderId := by
  obtain ⟨held, found, waits, standing, placements, children⟩ := ready
  exact .ends found (by rw [waits]; rfl) standing placements fun id member live => absurd (children id member) live

/-- An order that settles after a pass settled before it, and one that settles before it is ended by it
or settles after. -/
theorem settles_pass {ledger : Ledger} {acts : List Act} (settled : settlingRound ledger = .ok acts)
    (waits : ledger.WaitsToEnd) (orderId : String) :
    ledger.Settles orderId ↔
      (∃ state, ledger.Ready orderId state) ∨ (ledger.applyAll acts "" ∅).Settles orderId := by
  have alike := settledAlike_applyAll ledger (settlingRound_spec settled).1
  constructor
  · intro settles
    induction settles with
    | @ends id held found waiting standing placements children ih =>
      by_cases ready : ∃ state, ledger.Ready id state
      · exact Or.inl ready
      · refine Or.inr ?_
        have kept := (endings_pass settled id).2 (not_exists.mp ready)
        rcases alike_cases (alike.parts id) with ⟨inA, -⟩ | ⟨before, later, inA, inB, parts⟩
        · rw [found] at inA
          cases inA
        · rw [found] at inA
          cases inA
          unfold endings at kept
          rw [found, inB] at kept
          have ended : later.ended = held.ended := congrArg Prod.fst (Option.some.inj kept)
          have ending : later.ending = held.ending := congrArg Prod.snd (Option.some.inj kept)
          have placed : later.placements = held.placements := congrArg Parts.placements parts
          have below : later.children = held.children := congrArg Parts.children parts
          refine .ends inB (by rw [ending]; exact waiting) (by rw [ended]; exact standing) ?_ ?_
          · intro placement member
            rw [alike.placementLive]
            exact placements placement (placed ▸ member)
          · intro child member live
            have inHeld : child ∈ held.children := below ▸ member
            have lively : ledger.orderLive child ≠ .ok false := by
              intro dead
              refine live (orderLive_eq_false.mpr ?_)
              have quiet := orderLive_eq_false.mp dead
              by_cases ended : ∃ state, ledger.Ready child state
              · obtain ⟨state, ended⟩ := ended
                exact quiet_of_ended ((endings_pass settled child).1 state ended)
                  (dead_of_waits waits (endings_of_ready ended))
              · exact (quiet_iff_of_settled alike ((endings_pass settled child).2 (not_exists.mp ended))).mpr quiet
            rcases ih child inHeld lively with ⟨state, ended⟩ | settles
            · exact absurd (orderLive_eq_false.mpr (quiet_of_ended ((endings_pass settled child).1 state ended)
                (dead_of_waits waits (endings_of_ready ended)))) live
            · exact settles
  · rintro (⟨state, ready⟩ | settles)
    · exact settles_of_ready ready
    · induction settles with
      | @ends id later found waiting standing placements children ih =>
        by_cases ready : ∃ state, ledger.Ready id state
        · obtain ⟨state, ready⟩ := ready
          exact settles_of_ready ready
        · have kept := (endings_pass settled id).2 (not_exists.mp ready)
          rcases alike_cases (alike.parts id) with ⟨-, inB⟩ | ⟨held, after, inA, inB, parts⟩
          · rw [found] at inB
            cases inB
          · rw [found] at inB
            cases inB
            unfold endings at kept
            rw [found, inA] at kept
            have ended : later.ended = held.ended := congrArg Prod.fst (Option.some.inj kept)
            have ending : later.ending = held.ending := congrArg Prod.snd (Option.some.inj kept)
            have placed : later.placements = held.placements := congrArg Parts.placements parts
            have below : later.children = held.children := congrArg Parts.children parts
            refine .ends inA (by rw [← ending]; exact waiting) (by rw [← ended]; exact standing) ?_ ?_
            · intro placement member
              rw [← alike.placementLive]
              exact placements placement (placed ▸ member)
            · intro child member live
              by_cases ready : ∃ state, ledger.Ready child state
              · obtain ⟨state, ready⟩ := ready
                exact settles_of_ready ready
              · refine ih child (below ▸ member) fun dead => live (orderLive_eq_false.mpr ?_)
                exact (quiet_iff_of_settled alike ((endings_pass settled child).2 (not_exists.mp ready))).mp
                  (orderLive_eq_false.mp dead)

/-- Where no order is ready, none settles. -/
theorem not_settles_of_none_ready {ledger : Ledger} (none : ∀ orderId state, ¬ ledger.Ready orderId state)
    (orderId : String) : ¬ ledger.Settles orderId := by
  intro settles
  induction settles with
  | @ends id held found waiting standing placements children ih =>
    obtain ⟨state, waits⟩ := Option.isSome_iff_exists.mp waiting
    refine none id state ⟨held, found, waits, standing, placements, fun child member => ?_⟩
    by_contra live
    exact ih child member live

/-- Settling ends the orders that settle, each in the state it waits for, and no other. -/
theorem endings_settleFrom {fuel : Nat} {ledger : Ledger} {acts : List Act} (settled : settleFrom fuel ledger = .ok acts)
    (waits : ledger.WaitsToEnd) (orderId : String) :
    (ledger.Settles orderId → ∃ state, ledger.endings orderId = some (none, some state) ∧
        (ledger.applyAll acts "" ∅).endings orderId = some (some state, none)) ∧
      (¬ ledger.Settles orderId → (ledger.applyAll acts "" ∅).endings orderId = ledger.endings orderId) := by
  induction fuel generalizing ledger acts with
  | zero => cases settled
  | succ fuel ih =>
    unfold settleFrom at settled
    obtain ⟨more, passed, settled⟩ := bind_ok.mp settled
    split at settled
    · next done =>
      cases settled
      obtain rfl := List.isEmpty_iff.mp done
      have none : ∀ id, ¬ ledger.Settles id := not_settles_of_none_ready fun id state ready =>
        List.not_mem_nil (((settlingRound_spec passed).2 id state).mpr ready)
      exact ⟨fun settles => absurd settles (none orderId), fun _ => rfl⟩
    · obtain ⟨rest, later, settled⟩ := bind_ok.mp settled
      cases settled
      rw [applyAll_append]
      obtain ⟨ends, keeps⟩ := ih later (waitsToEnd_pass passed waits)
      obtain ⟨own, other⟩ := endings_pass passed orderId
      have whether := settles_pass passed waits orderId
      constructor
      · intro settles
        by_cases ready : ∃ state, ledger.Ready orderId state
        · obtain ⟨state, ready⟩ := ready
          refine ⟨state, endings_of_ready ready, ?_⟩
          rw [keeps ?_, own state ready]
          rintro ⟨found, waiting, standing, -, -⟩
          have ended := own state ready
          rw [endings, found] at ended
          rw [Option.map_some, standing] at ended
          cases ended
        · obtain ⟨state, found, ended⟩ := ends ((whether.mp settles).resolve_left ready)
          refine ⟨state, ?_, ended⟩
          rw [← other (not_exists.mp ready), found]
      · intro standing
        rw [keeps fun settles => standing (whether.mpr (Or.inr settles)),
          other fun state ready => standing (settles_of_ready ready)]

/-- Passes make settling's own acts alone. -/
theorem settleFrom_acts {fuel : Nat} {ledger : Ledger} {acts : List Act} (settled : settleFrom fuel ledger = .ok acts) :
    ∀ act ∈ acts, SettleAct act := by
  induction fuel generalizing ledger acts with
  | zero => cases settled
  | succ fuel ih =>
    unfold settleFrom at settled
    obtain ⟨more, passed, settled⟩ := bind_ok.mp settled
    split at settled
    · cases settled
      exact fun _ member => (List.not_mem_nil member).elim
    · obtain ⟨rest, later, settled⟩ := bind_ok.mp settled
      cases settled
      intro act member
      rcases List.mem_append.mp member with member | member
      · exact (settlingRound_spec passed).1 act member
      · exact ih later act member

end Ledger

/-- The entry an act makes: what its plan does, and what settling adds. -/
theorem finish_ok {book : Book} {head : Nat} {ctx : Context} {plan : Plan} {made : Made}
    (finished : finish book head ctx plan = .ok made) :
    ∃ more, (∀ act ∈ more, Ledger.SettleAct act) ∧
      Bor.made book head ctx (plan.draft book ctx (plan.acts ++ more)) = .ok made := by
  unfold finish settle at finished
  obtain ⟨acts, whole, finished⟩ := bind_ok.mp finished
  obtain ⟨more, settled, whole⟩ := bind_ok.mp whole
  cases whole
  exact ⟨more, Ledger.settleFrom_acts settled, finished⟩

end MeridianCore.Bor
