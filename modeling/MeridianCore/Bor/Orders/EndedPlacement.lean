import MeridianCore.Bor.Orders.Fold

namespace MeridianCore.Bor

/-- An act with the entry it is in, and the sequences its entry's orders take. -/
structure Step where
  act : Act
  entryId : String
  versions : BTreeMap String Nat

namespace Ledger

/-- The ledger once each step is applied, in their order. -/
def run (ledger : Ledger) (steps : List Step) : Ledger :=
  steps.foldl (fun held step => held.apply step.act step.entryId step.versions) ledger

/-- What a placement's liveness is derived from, fills aside: its stored state, and whether its
outcome is unknown. -/
def standing (ledger : Ledger) (placementId : String) : Option (PlacementState × Bool) :=
  (ledger.placements[placementId]?).map fun held =>
    (held.state, held.conditions.contains PlacementCondition.outcomeUnknown.number)

theorem standing_of_placements {ledger after : Ledger} (same : after.placements = ledger.placements)
    (placementId : String) : after.standing placementId = ledger.standing placementId := by
  rw [standing, same, standing]

/-- A change of a placement's record that leaves its stored state and its conditions alone. -/
def KeepsStanding (change : PlacementHeld → PlacementHeld) : Prop :=
  ∀ held, (change held).state = held.state ∧ (change held).conditions = held.conditions

theorem standing_onPlacement (ledger : Ledger) {change : PlacementHeld → PlacementHeld}
    (keeps : KeepsStanding change) (id placementId : String) :
    (ledger.onPlacement id change).standing placementId = ledger.standing placementId := by
  rw [standing, standing, onPlacement, Std.ExtTreeMap.getElem?_modify]
  split
  · next equal =>
    obtain rfl := Std.LawfulEqOrd.eq_of_compare equal
    cases ledger.placements[id]? with
    | none => rfl
    | some held =>
      obtain ⟨state, conditions⟩ := keeps held
      simp [state, conditions]
  · rfl

theorem standing_foldl {α : Type} {change : Ledger → α → Ledger} {placementId : String}
    (keeps : ∀ ledger entry, (change ledger entry).standing placementId = ledger.standing placementId)
    (entries : List α) (ledger : Ledger) :
    (entries.foldl change ledger).standing placementId = ledger.standing placementId := by
  induction entries generalizing ledger with
  | nil => rfl
  | cons entry rest ih => rw [List.foldl_cons, ih, keeps]

theorem standing_executed (ledger : Ledger) (execution : Execution) (sender code client taken : String)
    (row : FactorRow) (entryId placementId : String) :
    (ledger.executed execution sender code client taken row entryId).standing placementId =
      ledger.standing placementId := by
  let superseding := if execution.supersedes = "" then ledger
    else ledger.onExecution execution.supersedes fun earlier =>
      { earlier with supersededBy := some execution.executionId }
  have kept : superseding.standing placementId = ledger.standing placementId := by
    unfold superseding
    split <;> rfl
  rw [← kept]
  apply standing_onPlacement superseding
  exact fun _ => ⟨rfl, rfl⟩

theorem standing_accepted (orderId acceptPlacement entryId sleeve : String) (start : Nat) (ids : List String)
    (counts : List Nat) (ledger : Ledger) (placementId : String) :
    (ledger.accepted orderId acceptPlacement entryId sleeve start ids counts).standing placementId =
      ledger.standing placementId := by
  induction ids generalizing ledger start counts with
  | nil => rfl
  | cons id ids ih =>
    rw [accepted, ih]
    apply standing_onPlacement (ledger.onExecution id _)
    exact fun _ => ⟨rfl, rfl⟩

/-- The acts that set a placement's stored state or its conditions: its opening, and a report on it. -/
def setsStanding : Act → Option String
  | .placementOpened placement => some placement.placementId
  | .placementReported report => some report.placementId
  | _ => none

/-- Every other act leaves what a placement's liveness is derived from as it was. -/
theorem standing_apply_of_ne (ledger : Ledger) (act : Act) (entryId : String) (versions : BTreeMap String Nat)
    {placementId : String} (other : setsStanding act ≠ some placementId) :
    (ledger.apply act entryId versions).standing placementId = ledger.standing placementId := by
  cases act with
  | placementOpened placement =>
    have apart : placement.placementId ≠ placementId := fun same => other (congrArg some same)
    simp [apply, standing, Std.ExtTreeMap.getElem?_insert, apart]
    rfl
  | placementReported report =>
    have apart : report.placementId ≠ placementId := fun same => other (congrArg some same)
    simp only [apply, reported]
    cases ledger.placements[report.placementId]? with
    | none => rfl
    | some held => simp [standing, Std.ExtTreeMap.getElem?_insert, apart]
  | executed execution sender code client taken row => exact standing_executed ..
  | accepted ids orderId acceptPlacement counts note => exact standing_accepted ..
  | checked orderId check =>
    simp only [apply]
    split
    · rfl
    · exact standing_onPlacement ledger (by exact fun _ => ⟨rfl, rfl⟩) _ _
  | changeOpened request =>
    simp only [apply]
    split
    · rfl
    · exact standing_onPlacement { ledger with changes := _ } (by exact fun _ => ⟨rfl, rfl⟩) _ _
  | placementQuoted id quote => exact standing_onPlacement ledger (by exact fun _ => ⟨rfl, rfl⟩) _ _
  | quotePicked id quote => exact standing_onPlacement ledger (by exact fun _ => ⟨rfl, rfl⟩) _ _
  | charged charge => exact standing_onPlacement ledger (by exact fun _ => ⟨rfl, rfl⟩) _ _
  | opened order released =>
    refine standing_of_placements ?_ placementId
    simp only [apply, linked]
    cases order.link <;> rfl
  | dontKnow ids reason text =>
    apply standing_foldl
    exact fun held id => rfl
  | sleeveCrossed cross =>
    have crossed : ({ ledger with sleeveCrosses := ledger.sleeveCrosses.insert cross.sleeveCrossId cross } : Ledger).standing
        placementId = ledger.standing placementId := standing_of_placements rfl placementId
    rw [← crossed]
    apply standing_foldl
    exact fun held id => rfl
  | alertRaised alert =>
    refine standing_of_placements ?_ placementId
    simp only [apply]
    split <;> rfl
  | _ => rfl

/-- Whether a report says the placement's outcome is unknown. -/
def saysUnknown (placementId : String) : Act → Bool
  | .placementReported report => report.placementId == placementId && report.event == .outcomeUnknown
  | _ => false

/-- Whether the outcome is unknown after a report, where it was so before. -/
def unknownAfter (event : PlacementEvent) (unknown : Bool) : Bool :=
  match event with
  | .outcomeUnknown => true
  | .outcomeResolved | .cancelled | .expired => false
  | _ => unknown

theorem stamped_state (held : PlacementHeld) (report : ReportPlacementRequest) :
    (held.stamped report).state = held.state ∧ (held.stamped report).conditions = held.conditions := by
  unfold PlacementHeld.stamped
  split <;> split <;> exact ⟨rfl, rfl⟩

/-- A placement no longer live keeps its stored state whatever the venue reports. -/
theorem afterEvent_state_of_ended {held : PlacementHeld} (ended : placementStateLive held.state = false)
    (report : ReportPlacementRequest) (trigger pending : Bool) :
    (held.afterEvent report trigger pending).state = held.state := by
  unfold PlacementHeld.afterEvent
  cases report.event <;> simp only [ended] <;> try rfl
  · split
    · next queued => rw [queued] at ended; cases ended
    · rfl
  · split
    · next opened =>
      rcases opened with queued | sent
      · rw [queued] at ended; cases ended
      · rw [sent] at ended; cases ended
    · rfl
  · split
    · next paused => rw [paused] at ended; cases ended
    · rfl
  · split <;> rfl

theorem afterEvent_unknown (held : PlacementHeld) (report : ReportPlacementRequest) (trigger pending : Bool) :
    (held.afterEvent report trigger pending).conditions.contains PlacementCondition.outcomeUnknown.number =
      unknownAfter report.event (held.conditions.contains PlacementCondition.outcomeUnknown.number) := by
  unfold PlacementHeld.afterEvent unknownAfter
  cases report.event <;> simp only [] <;> try rfl
  · split <;> rfl
  · split
    · cases trigger <;> simp [PlacementCondition.number]
    · rfl
  · split <;> rfl
  · simp [PlacementCondition.number]
  · simp only [Std.ExtTreeMap.contains_erase]
    rfl
  · simp [PlacementCondition.number]
  · simp [PlacementCondition.number]
  · split <;> rfl
  · simp [PlacementCondition.number]
  · simp [PlacementCondition.number]

/-- What a report leaves of what the placement's liveness is derived from. -/
theorem standing_reported {ledger : Ledger} {report : ReportPlacementRequest} {held : PlacementHeld}
    (found : ledger.placements[report.placementId]? = some held) :
    (ledger.reported report).standing report.placementId =
      some ((ledger.afterReport held report).state,
        unknownAfter report.event (held.conditions.contains PlacementCondition.outcomeUnknown.number)) := by
  rw [standing, reported, found]
  simp only [Std.ExtTreeMap.getElem?_insert_self, Option.map_some]
  rw [afterReport, afterEvent_unknown, (stamped_state held report).2]

/-- What an order commits with one of its placements left out. -/
def committedWithout (ledger : Ledger) (placementId orderId : String) : Result Exact :=
  match ledger.orders[orderId]? with
  | none => .ok Exact.zero
  | some held =>
    ledger.committedBy ledger.state { held with placements := held.placements.filter (· ≠ placementId) }

/-- A placement that ended and commits nothing. -/
structure Dead (ledger : Ledger) (placementId : String) : Prop where
  live : ledger.placementLive placementId = .ok false
  empty : ledger.placementOpen placementId = .ok Exact.zero
  uncounted : ∀ orderId, ledger.committed orderId = ledger.committedWithout placementId orderId

theorem placementOpen_of_not_live {ledger : Ledger} {placementId : String}
    (live : ledger.placementLive placementId = .ok false) : ledger.placementOpen placementId = .ok Exact.zero := by
  rw [placementOpen, live]
  rfl

/-- Entries that move nothing may be left out of a sum. -/
theorem foldlM_filter {α β : Type} {step : β → α → Result β} {keep : α → Bool}
    (still : ∀ total entry, keep entry = false → step total entry = .ok total) (entries : List α) (total : β) :
    entries.foldlM step total = (entries.filter keep).foldlM step total := by
  induction entries generalizing total with
  | nil => rfl
  | cons entry rest ih =>
    cases kept : keep entry with
    | true =>
      rw [List.filter_cons_of_pos kept, List.foldlM_cons, List.foldlM_cons]
      exact congrArg _ (funext ih)
    | false =>
      rw [List.filter_cons_of_neg (by simp [kept]), List.foldlM_cons, still total entry kept]
      exact ih total

theorem dead_of_not_live {ledger : Ledger} {placementId : String}
    (live : ledger.placementLive placementId = .ok false) : ledger.Dead placementId := by
  have empty := placementOpen_of_not_live live
  refine ⟨live, empty, fun orderId => ?_⟩
  unfold committed committedWithout
  cases ledger.orders[orderId]? with
  | none => rfl
  | some held =>
    simp only [committedBy]
    have still (total : Exact) (id : String) (dropped : decide (id ≠ placementId) = false) :
        (do numbers.add "committed" total (← ledger.placementOpen id)) = .ok total := by
      obtain rfl : id = placementId := by simpa using dropped
      rw [empty]
      exact add_zero "committed" total
    rw [foldlM_filter still]

theorem placementLive_of_standing {ledger : Ledger} {placementId : String} {state : PlacementState} {unknown : Bool}
    (found : ledger.standing placementId = some (state, unknown)) (ended : placementStateLive state = false) :
    ledger.placementLive placementId = .ok (unknown && state != .filled) := by
  unfold standing at found
  cases held : ledger.placements[placementId]? with
  | none => simp [held] at found
  | some record =>
    rw [held] at found
    obtain ⟨rfl, rfl⟩ := Prod.mk.injEq .. ▸ Option.some.inj found
    have derived : ledger.placementState placementId = .ok record.state := by
      rw [placementState, held]
      simp only [ended, Bool.false_eq_true, if_false]
    rw [placementLive, held]
    simp only [derived, bind, Except.bind, ended, Bool.false_or]
    rfl

/-- A report that ends its placement, which it finds live: a cancellation, an expiry, or a rejection
that is not the venue refusing a change. -/
def Ends (ledger : Ledger) (report : ReportPlacementRequest) : Prop :=
  ∃ held, ledger.placements[report.placementId]? = some held ∧
    (placementStateLive held.state = true ∨ ledger.placementLive report.placementId = .ok true) ∧
    (report.event = .cancelled ∨ report.event = .expired ∨
      (report.event = .rejected ∧
        ¬ ((held.state = .working ∨ held.state = .doneForDay) ∧ ledger.pendingOn held ≠ [])))

/-- A rejection that finds the placement's outcome unknown, which it leaves standing. -/
def LeavesUnknown (ledger : Ledger) (report : ReportPlacementRequest) : Prop :=
  report.event = .rejected ∧ ∃ state, ledger.standing report.placementId = some (state, true)

/-- A placement's stored state that is not live, and is not the filled one no report stores. -/
def EndedState (state : PlacementState) : Prop := placementStateLive state = false ∧ state ≠ .filled

theorem ended_of_live_or_unknown {ledger : Ledger} {placementId : String} {held : PlacementHeld}
    (found : ledger.placements[placementId]? = some held)
    (live : ledger.placementLive placementId = .ok true) (ended : placementStateLive held.state = false) :
    EndedState held.state := by
  refine ⟨ended, fun filled => ?_⟩
  have stands : ledger.standing placementId =
      some (held.state, held.conditions.contains PlacementCondition.outcomeUnknown.number) := by
    rw [standing, found]
    rfl
  have derived := placementLive_of_standing stands ended
  rw [derived, filled] at live
  simp at live

/-- What a report that ends the placement leaves of it. -/
theorem standing_of_ends {ledger : Ledger} {report : ReportPlacementRequest} (ends : ledger.Ends report) :
    ∃ state unknown, (ledger.reported report).standing report.placementId = some (state, unknown) ∧
      EndedState state ∧ (unknown = true ↔ ledger.LeavesUnknown report) := by
  obtain ⟨held, found, live, event⟩ := ends
  refine ⟨_, _, standing_reported found, ?_, ?_⟩
  · have stamped := (stamped_state held report).1
    cases stored : placementStateLive held.state with
    | false =>
      have was := ended_of_live_or_unknown found (live.resolve_left (by simp [stored])) stored
      rw [afterReport, afterEvent_state_of_ended (by rw [stamped, stored]), stamped]
      exact was
    | true =>
      rw [afterReport, PlacementHeld.afterEvent]
      rcases event with cancelled | expired | ⟨rejected, standsAlone⟩
      · simp only [cancelled, stamped, stored, if_true]
        exact ⟨rfl, by decide⟩
      · simp only [expired, stamped, stored, if_true]
        exact ⟨rfl, by decide⟩
      · have alone : ¬ ((held.state = .working ∨ held.state = .doneForDay) ∧
            decide (ledger.pendingOn held ≠ []) = true) := by
          simpa using standsAlone
        simp only [rejected, stamped, stored, if_true]
        rw [if_neg alone]
        exact ⟨rfl, fun filled => by cases filled⟩
  · have stood : ledger.standing report.placementId =
        some (held.state, held.conditions.contains PlacementCondition.outcomeUnknown.number) := by
      rw [standing, found]
      rfl
    unfold LeavesUnknown
    rw [stood]
    rcases event with cancelled | expired | ⟨rejected, -⟩
    · simp [cancelled, unknownAfter]
    · simp [expired, unknownAfter]
    · simp [rejected, unknownAfter]

/-- After its end, a step leaves the placement ended, its outcome unknown only as reported. -/
theorem standing_step {ledger : Ledger} {placementId : String} {state : PlacementState} {unknown : Bool}
    (found : ledger.standing placementId = some (state, unknown)) (ended : EndedState state) (step : Step)
    (once : ∀ placement, step.act = .placementOpened placement → placement.placementId ≠ placementId) :
    ∃ later, (ledger.apply step.act step.entryId step.versions).standing placementId = some (state, later) ∧
      (saysUnknown placementId step.act = true → later = true) ∧
      (saysUnknown placementId step.act = false → later = true → unknown = true) := by
  by_cases own : setsStanding step.act = some placementId
  · cases act : step.act with
    | placementOpened placement =>
      rw [act] at own
      exact absurd (Option.some.inj own) (once placement act)
    | placementReported report =>
      rw [act] at own
      obtain rfl : report.placementId = placementId := Option.some.inj own
      unfold standing at found
      cases held : ledger.placements[report.placementId]? with
      | none => simp [held] at found
      | some record =>
        rw [held] at found
        obtain ⟨rfl, rfl⟩ := Prod.mk.injEq .. ▸ Option.some.inj found
        have stamped := (stamped_state record report).1
        have kept : (ledger.afterReport record report).state = record.state := by
          rw [afterReport, afterEvent_state_of_ended (by rw [stamped, ended.1]), stamped]
        refine ⟨_, by rw [apply, standing_reported held, kept], ?_, ?_⟩
        · intro told
          have event : report.event = .outcomeUnknown := by simpa [saysUnknown] using told
          simp [event, unknownAfter]
        · intro silent later
          have event : report.event ≠ .outcomeUnknown := by simpa [saysUnknown] using silent
          revert later
          cases stated : report.event <;> simp_all [unknownAfter]
    | _ => rw [act] at own; cases own
  · refine ⟨unknown, ?_, ?_, fun _ later => later⟩
    · rw [standing_apply_of_ne _ _ _ _ own, found]
    · intro told
      refine absurd ?_ own
      cases act : step.act with
      | placementReported report =>
        rw [act] at told
        have named : report.placementId = placementId := by
          simp only [saysUnknown, Bool.and_eq_true, beq_iff_eq] at told
          exact told.1
        exact congrArg some named
      | _ => rw [act] at told; cases told

/-- No step of a run sets the placement's record anew: a placement is opened once. -/
def OpenedOnce (placementId : String) (steps : List Step) : Prop :=
  ∀ step ∈ steps, ∀ placement, step.act = .placementOpened placement → placement.placementId ≠ placementId

theorem run_append (ledger : Ledger) (first rest : List Step) :
    ledger.run (first ++ rest) = (ledger.run first).run rest := by
  simp only [run, List.foldl_append]

/-- After its end, a run of steps leaves the placement ended; its outcome is unknown only if it was so
to begin with, or a step reports it so. -/
theorem standing_run {ledger : Ledger} {placementId : String} {state : PlacementState} {unknown : Bool}
    (found : ledger.standing placementId = some (state, unknown)) (ended : EndedState state) (steps : List Step)
    (once : OpenedOnce placementId steps) :
    ∃ later, (ledger.run steps).standing placementId = some (state, later) ∧
      (later = true → unknown = true ∨ ∃ step ∈ steps, saysUnknown placementId step.act = true) := by
  induction steps generalizing ledger unknown with
  | nil => exact ⟨unknown, found, Or.inl⟩
  | cons step rest ih =>
    obtain ⟨next, after, -, silent⟩ := standing_step found ended step (once step List.mem_cons_self)
    obtain ⟨later, held, traced⟩ := ih after fun step member => once step (List.mem_cons_of_mem _ member)
    refine ⟨later, held, fun known => ?_⟩
    rcases traced known with before | ⟨teller, member, tells⟩
    · cases told : saysUnknown placementId step.act with
      | true => exact Or.inr ⟨step, List.mem_cons_self, told⟩
      | false => exact Or.inl (silent told before)
    · exact Or.inr ⟨teller, List.mem_cons_of_mem _ member, tells⟩

/-- What should hold of every placement: once a report has ended it, whatever the venue reports and
whatever fills come, it is dead in every state that follows. -/
def StaysDead (ledger : Ledger) (report : ReportPlacementRequest) (steps : List Step) : Prop :=
  ∀ before, before <+: steps → ((ledger.reported report).run before).Dead report.placementId

/-- An ended placement stays ended, and commits nothing, exactly where its outcome is not left or made
unknown: the rejection that ended it found no outcome unknown, and no later report says it is. -/
theorem stays_dead_iff {ledger : Ledger} {report : ReportPlacementRequest} {steps : List Step}
    (ends : ledger.Ends report) (once : OpenedOnce report.placementId steps) :
    ledger.StaysDead report steps ↔
      ¬ ledger.LeavesUnknown report ∧ ∀ step ∈ steps, saysUnknown report.placementId step.act = false := by
  obtain ⟨state, unknown, found, ended, left⟩ := standing_of_ends ends
  have revived {after : Ledger} (stands : after.standing report.placementId = some (state, true)) :
      ¬ after.Dead report.placementId := by
    intro dead
    have live := dead.live
    rw [placementLive_of_standing stands ended.1] at live
    simp [ended.2] at live
  constructor
  · intro stays
    refine ⟨fun leaves => ?_, fun step member => ?_⟩
    · rw [left.mpr leaves] at found
      exact revived found (stays [] (List.nil_prefix))
    · obtain ⟨first, rest, split⟩ := List.append_of_mem member
      by_contra told
      have within : first ++ [step] <+: steps := ⟨rest, by simp [split]⟩
      have onceFirst : OpenedOnce report.placementId first := fun other held =>
        once other (within.subset (List.mem_append_left _ held))
      obtain ⟨before, reached, -⟩ := standing_run found ended first onceFirst
      obtain ⟨later, stands, tells, -⟩ := standing_step reached ended step (once step member)
      rw [tells (by simpa using told)] at stands
      refine revived ?_ (stays _ within)
      rw [run_append]
      exact stands
  · rintro ⟨cleared, silent⟩ before within
    have onceBefore : OpenedOnce report.placementId before := fun step member =>
      once step (within.subset member)
    obtain ⟨later, reached, traced⟩ := standing_run found ended before onceBefore
    apply dead_of_not_live
    rw [placementLive_of_standing reached ended.1]
    cases known : later with
    | false => rfl
    | true =>
      rcases traced known with was | ⟨step, member, tells⟩
      · exact absurd (left.mp was) cleared
      · rw [silent step (within.subset member)] at tells
        cases tells

/-- A released order for a hundred shares, its one placement acknowledged by the venue. -/
def workingLedger : Ledger :=
  run {} [
    ⟨.opened { orderId := "ORD-1", side := .buy, quantity := some ⟨100, 0⟩ } true, "ENT-1", ∅⟩,
    ⟨.placementOpened { placementId := "PLC-1", orderId := "ORD-1", quantity := some ⟨100, 0⟩ }, "ENT-2", ∅⟩,
    ⟨.placementReported { placementId := "PLC-1", event := .acknowledged }, "ENT-3", ∅⟩]

def cancelledReport : ReportPlacementRequest := { placementId := "PLC-1", event := .cancelled }

/-- The venue's later word that it does not know the outcome. -/
def unknownStep : Step := ⟨.placementReported { placementId := "PLC-1", event := .outcomeUnknown }, "ENT-5", ∅⟩

def resolvedStep : Step := ⟨.placementReported { placementId := "PLC-1", event := .outcomeResolved }, "ENT-5", ∅⟩

theorem workingLedger_ends : workingLedger.Ends cancelledReport := by
  refine ⟨(workingLedger.placements["PLC-1"]?).get (by decide +kernel), (Option.some_get _).symm, ?_, Or.inl rfl⟩
  exact Or.inl (by decide +kernel)

theorem stays_dead_resolved : workingLedger.StaysDead cancelledReport [resolvedStep] := by
  refine (stays_dead_iff workingLedger_ends ?_).mpr ⟨(fun left => nomatch left.1), ?_⟩
  · intro step member placement opened
    obtain rfl := List.mem_singleton.mp member
    cases opened
  · intro step member
    obtain rfl := List.mem_singleton.mp member
    rfl

/-- A placement the venue cancelled is live again, and commits its hundred, once the venue says its
outcome is unknown. -/
theorem cancelled_placement_revived :
    ¬ ∀ (ledger : Ledger) (report : ReportPlacementRequest) (steps : List Step), ledger.Ends report →
      OpenedOnce report.placementId steps → ledger.StaysDead report steps := by
  intro claim
  have stays := claim workingLedger cancelledReport [unknownStep] workingLedger_ends (by
    intro step member placement opened
    obtain rfl := List.mem_singleton.mp member
    cases opened)
  have dead := (stays [unknownStep] (List.prefix_refl _)).live
  have live : ((workingLedger.reported cancelledReport).run [unknownStep]).placementLive "PLC-1" = .ok true := by
    decide +kernel
  rw [show cancelledReport.placementId = "PLC-1" from rfl, live] at dead
  cases dead

end Ledger

end MeridianCore.Bor
