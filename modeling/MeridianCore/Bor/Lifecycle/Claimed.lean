import MeridianCore.Bor.Factors
import MeridianCore.Bor.Book.Unlotted
import MeridianCore.Bor.Lifecycle.MovedOnce
import MeridianCore.Bor.OrderDecide.TradeLines

/-! A factor revision's open claim, settled. Its cash was moved by a currency's lines, which cover shorts and
open them; settling it moves two lines of no lot on the long side. -/

namespace MeridianCore.Bor

open Book (lineUnits bucketLines)

section Currency

variable {book : Book} {ctx : Context} {earlier lines : List MovementLine} {instrument sleeve valueDate acquiredDate : String}
  {amount : Exact} {basis : Option Money} {method : LotReliefMethod} {named : List String}

/-- A line dated as a movement is, and of its amount's sign. -/
def GoesWith (amount : Exact) (valueDate : String) (line : MovementLine) : Prop :=
  line.valueDate = valueDate ∧ if amount.units < 0 then lineUnits line < 0 else 0 < lineUnits line

namespace Leg

variable {leg : Leg} {side : HoldingSide} {takes : List (String × Exact)}

theorem goesWith_relieving (positive : ∀ take ∈ takes, 0 < take.2.units)
    (sign : amount.units < 0 ↔ side ≠ .short) : ∀ line ∈ leg.relieving side takes, GoesWith amount leg.valueDate line := by
  intro line member
  obtain ⟨take, among, rfl⟩ := List.mem_map.mp member
  refine ⟨rfl, ?_⟩
  have units := @units_relieving leg side take
  have above := positive take among
  by_cases short : side = .short
  · rw [if_neg fun negative => sign.mp negative short]
    rw [units, if_pos short]
    exact above
  · rw [if_pos (sign.mpr short)]
    rw [units, if_neg short]
    omega

end Leg

/-- Lots relieved, and the rest of an amount on a line of its own, all go with the amount. -/
theorem goesWith_relieve {leg : Leg} {side : HoldingSide} {takes : List (String × Exact)} {left : Exact}
    {last : MovementLine} (positive : ∀ take ∈ takes, 0 < take.2.units) (sign : amount.units < 0 ↔ side ≠ .short)
    (rest : left.units ≠ 0 → GoesWith amount leg.valueDate last) :
    ∀ line ∈ (if left.isZero then leg.relieving side takes else leg.relieving side takes ++ [last]),
      GoesWith amount leg.valueDate line := by
  intro line member
  split at member
  · exact Leg.goesWith_relieving positive sign line member
  · next some' =>
    rw [Exact.isZero_iff] at some'
    rcases List.mem_append.mp member with relieved | remains
    · exact Leg.goesWith_relieving positive sign line relieved
    · rw [List.mem_singleton.mp remains]
      exact rest some'

/-- Every line of a currency's movement is dated as it is and of its amount's sign. -/
theorem currency_goesWith
    (answered : currencyLines book ctx instrument amount valueDate sleeve acquiredDate basis method named earlier =
      .ok lines) : ∀ line ∈ lines, GoesWith amount valueDate line := by
  unfold currencyLines at answered
  dsimp only at answered
  generalize stated : (⟨instrument, if valueDate = "" then .settled else .pending, valueDate, sleeve⟩ : Leg) = leg at answered
  obtain rfl : leg.valueDate = valueDate := by rw [← stated]
  have line_units (side : HoldingSide) (size : Exact) : lineUnits (leg.line side size) = size.units := Leg.lineUnits_line
  split at answered
  · cases answered
    exact fun line none' => absurd none' List.not_mem_nil
  next some' =>
  rw [Exact.isZero_iff] at some'
  split at answered
  · split at answered
    · next negative =>
      rw [Exact.isNegative_iff] at negative
      obtain ⟨lots, opened, answered⟩ := bind_ok.mp answered
      obtain ⟨takes, relieved, answered⟩ := bind_ok.mp answered
      obtain ⟨left, summed, answered⟩ := bind_ok.mp answered
      cases answered
      have asked : 0 ≤ amount.negated.units := by rw [Exact.units_negated]; omega
      have total := takes_total (openLots_ok opened) asked relieved
      have units := moreTakes_units summed
      rw [Exact.units_negated] at total
      refine goesWith_relieve (takes_positive (openLots_ok opened) asked relieved) (by simp [negative]) fun nonzero => ⟨rfl, ?_⟩
      rw [if_pos negative, line_units]
      omega
    · next above =>
      rw [Exact.isNegative_iff] at above
      cases answered
      intro line member
      rw [List.mem_singleton.mp member]
      refine ⟨rfl, ?_⟩
      rw [if_neg above, line_units]
      omega
  · split at answered
    · next above =>
      rw [Exact.isNegative_iff] at above
      obtain ⟨lots, opened, answered⟩ := bind_ok.mp answered
      obtain ⟨takes, relieved, answered⟩ := bind_ok.mp answered
      obtain ⟨left, summed, answered⟩ := bind_ok.mp answered
      cases answered
      have asked : 0 ≤ amount.units := by omega
      have total := takes_total (openLots_ok opened) asked relieved
      have units := lessTakes_units summed
      refine goesWith_relieve (takes_positive (openLots_ok opened) asked relieved) (by simp [above]) fun nonzero => ⟨rfl, ?_⟩
      rw [if_neg above]
      change 0 < lineUnits (leg.line .long left)
      rw [line_units]
      omega
    · next negative =>
      rw [not_not, Exact.isNegative_iff] at negative
      obtain ⟨lots, opened, answered⟩ := bind_ok.mp answered
      obtain ⟨takes, relieved, answered⟩ := bind_ok.mp answered
      obtain ⟨left, summed, answered⟩ := bind_ok.mp answered
      cases answered
      have asked : 0 ≤ amount.negated.units := by rw [Exact.units_negated]; omega
      have total := takes_total (openLots_ok opened) asked relieved
      have units := lessTakes_units summed
      rw [Exact.units_negated] at total units
      refine goesWith_relieve (takes_positive (openLots_ok opened) asked relieved) (by simp [negative]) fun nonzero => ⟨rfl, ?_⟩
      rw [if_pos negative]
      change lineUnits (leg.line .short left.negated) < 0
      rw [line_units, Exact.units_negated]
      omega

end Currency

namespace Factors

section Revised

variable {book : Book} {ctx : Context} {earlier : List MovementLine} {index : Nat} {due : Due} {revised : Revision}

/-- What a revision that leaves an open claim moved: so much of a currency in a sleeve, pending and dated
nothing, every line of its sign; and the claim's cash is as much. -/
structure LeavesClaim (process : Process) (revised : Revision) (instrument sleeve : String) (received : Exact) : Prop where
  on : ∀ line ∈ revised.moved, line.instrumentId = instrument ∧ line.sleeve = sleeve ∧ line.bucket = .pending
  goes : ∀ line ∈ revised.moved, GoesWith received "" line
  sum : (revised.moved.map lineUnits).sum = received.units
  cash : ∃ price : Money, revised.event.cash = some { price with amount := numbers.wire received } ∧
    cashInstrument process price = .ok instrument

theorem leavesClaim_of_revision (worked : revision book ctx earlier index due = .ok revised)
    (claims : revised.event.state = .claimOpen) :
    ∃ instrument sleeve received, LeavesClaim ctx.process revised instrument sleeve received := by
  unfold revision at worked
  cases held : book.ledger.executions[due.executionId]? with
  | none =>
    rw [held] at worked
    cases worked
  | some execution =>
    rw [held] at worked
    dsimp only at worked
    obtain ⟨old, -, worked⟩ := bind_ok.mp worked
    obtain ⟨face, -, worked⟩ := bind_ok.mp worked
    cases priced : execution.execution.price with
    | none =>
      rw [priced] at worked
      cases worked
    | some price =>
      rw [priced] at worked
      dsimp only at worked
      obtain ⟨unit, -, worked⟩ := bind_ok.mp worked
      obtain ⟨cashOld, -, worked⟩ := bind_ok.mp worked
      obtain ⟨cashNew, -, worked⟩ := bind_ok.mp worked
      obtain ⟨difference, -, worked⟩ := bind_ok.mp worked
      obtain ⟨cash, resolved, worked⟩ := bind_ok.mp worked
      obtain ⟨moved, answered, worked⟩ := bind_ok.mp worked
      obtain ⟨opened, -, worked⟩ := bind_ok.mp worked
      obtain ⟨lots, -, worked⟩ := bind_ok.mp worked
      cases worked
      have open' : isClaim ctx execution.execution = true := by
        by_contra no
        dsimp only at claims
        rw [if_neg no] at claims
        cases claims
      rw [open', if_pos rfl] at answered
      have moves := moves_currency answered
      have units (line : MovementLine) : lineUnits (pendingLine line) = lineUnits line := rfl
      refine ⟨cash, execution.execution.sleeve, _, fun line member => ?_, fun line member => ?_, ?_, price, rfl, resolved⟩
      · obtain ⟨before, among, rfl⟩ := List.mem_map.mp member
        exact ⟨(moves.on before among).1, (moves.on before among).2, rfl⟩
      · obtain ⟨before, among, rfl⟩ := List.mem_map.mp member
        exact currency_goesWith answered before among
      · rw [List.map_map]
        exact moves.sum

end Revised

open Lifecycle (claimSettled claimLine release bare eventOf)

/-- The sleeve a claim's fill is in, as the book stands. -/
def sleeveOf (book : Book) (claim : LifecycleEvent) : String :=
  match book.ledger.executions[claim.executionId]? with
  | some held => held.execution.sleeve
  | none => ""

/-- The lines settling a claim moves at a position: the amount from pending, dated nothing, to settled. -/
def claimLines (key : Key) (amount : Exact) : List MovementLine :=
  if amount.isZero then []
  else [claimLine key.instrument key.sleeve .pending amount.negated, claimLine key.instrument key.sleeve .settled amount]

/-- A claim as it is booked. -/
def settledClaim (claim : LifecycleEvent) : LifecycleEvent := { claim with state := .booked, lastChange := none }

/-- A claim settled: what its revision's lines left pending, dated nothing, is gone from every position and
settled on it, no lot and no trade-date quantity is moved, and the claim is settled no more. -/
structure SettlesClaim (revised : Revision) (now : Book) (claim : LifecycleEvent) (act : Made) : Prop where
  undated : ∀ key, act.held.bucketAt key .pending "" =
    now.bucketAt key .pending "" - bucketLines revised.moved key .pending ""
  settled : ∀ key, act.held.bucketAt key .settled "" =
    now.bucketAt key .settled "" + bucketLines revised.moved key .pending ""
  trade : ∀ key, act.held.tradeAt key = now.tradeAt key
  lots : ∀ key lotId, act.held.lotAt key lotId = now.lotAt key lotId
  again : ∀ head ctx request more, request.eventId = claim.eventId → release act.held head ctx request ≠ .ok more

/-- Where a position is the one a revision left pending, and takes it settled: every line the revision made is
on it, its quantities before and after are ones the book can state, and it stands as the book checks it. -/
structure SettlesOn (process : Process) (revised : Revision) (now : Book) (key : Key) (amount : Exact) : Prop where
  lines : ∀ line ∈ revised.moved, lineKey line = key
  takes : revised.moved ≠ [] → ∃ moved, now.Carries key (claimLines key amount) moved
  stands : revised.moved ≠ [] → (now.positionAt key).Stands (now.isBase process key.instrument)

/-- Where a claim is settled as it should be: its account is in the user's scope, its currency resolves, and
the long position in it, in the sleeve its fill is in, is the one the revision left pending. -/
structure Settleable (revised : Revision) (now : Book) (later : Context) (claim : LifecycleEvent) : Prop where
  scope : inScope later claim.accountId = .ok ()
  position : ∃ instrument, cashInstrument later.process (claim.cash.getD {}) = .ok instrument ∧
    SettlesOn later.process revised now ⟨instrument, .long, sleeveOf now claim⟩ (readOr (claim.cash.getD {}).amount)

section Settled

variable {process : Process} {revised : Revision} {now : Book} {head : Nat} {later : Context} {claim : LifecycleEvent}
  {note instrument sleeve : String} {received : Exact} {key : Key} {act : Made}

theorem unlotted_claimLines (instrument sleeve : String) (amount : Exact) :
    Book.Unlotted ⟨instrument, .long, sleeve⟩ (claimLines ⟨instrument, .long, sleeve⟩ amount) := by
  intro line member
  unfold claimLines at member
  split at member
  · exact absurd member List.not_mem_nil
  · rcases List.mem_cons.mp member with rfl | member
    · exact ⟨rfl, rfl, rfl⟩
    · rw [List.mem_singleton.mp member]
      exact ⟨rfl, rfl, rfl⟩

theorem lineUnits_claimLine (instrument sleeve : String) (bucket : SettlementBucket) (amount : Exact) :
    lineUnits (claimLine instrument sleeve bucket amount) = amount.units := by
  simp [lineUnits, claimLine, readExact, numbers.wire, Except.toOption]

theorem sum_claimLines (key : Key) (amount : Exact) : ((claimLines key amount).map lineUnits).sum = 0 := by
  unfold claimLines
  split
  · rfl
  · rw [List.map_cons, List.map_singleton, List.sum_cons, List.sum_singleton, lineUnits_claimLine, lineUnits_claimLine,
      Exact.units_negated]
    omega

/-- What settling a claim adds to a position's pending, dated nothing, and takes off it settled. -/
theorem bucketLines_claimLines (instrument sleeve : String) (amount : Exact) (key : Key) :
    bucketLines (claimLines ⟨instrument, .long, sleeve⟩ amount) key .pending "" =
        (if key = ⟨instrument, .long, sleeve⟩ then -amount.units else 0) ∧
      bucketLines (claimLines ⟨instrument, .long, sleeve⟩ amount) key .settled "" =
        if key = ⟨instrument, .long, sleeve⟩ then amount.units else 0 := by
  unfold claimLines
  split
  · next zero =>
    rw [Exact.isZero_iff] at zero
    rw [zero]
    simp
  · have on (bucket : SettlementBucket) (quantity : Exact) : lineKey (claimLine instrument sleeve bucket quantity) =
        ⟨instrument, .long, sleeve⟩ := rfl
    simp only [Book.bucketLines_cons, Book.bucketLines_nil, lineUnits_claimLine, on, Exact.units_negated]
    by_cases here : key = ⟨instrument, .long, sleeve⟩
    · subst here
      simp [inBucket, claimLine]
    · simp [here, Ne.symm here]

theorem inBucket_moved (leaves : LeavesClaim process revised instrument sleeve received) {line : MovementLine}
    (member : line ∈ revised.moved) : inBucket .pending "" line = true := by
  unfold inBucket
  rw [(leaves.on line member).2.2, (leaves.goes line member).1]
  rfl

/-- Where one position carries every line a revision left, it carries what they add to. -/
theorem bucketLines_moved (leaves : LeavesClaim process revised instrument sleeve received)
    (on : ∀ line ∈ revised.moved, lineKey line = key) (other : Key) :
    bucketLines revised.moved other .pending "" = if other = key then received.units else 0 := by
  split
  · next here =>
    have all : revised.moved.filter (fun line => lineKey line = other ∧ inBucket .pending "" line) = revised.moved := by
      refine List.filter_eq_self.mpr fun line member => ?_
      rw [here]
      exact decide_eq_true ⟨on line member, inBucket_moved leaves member⟩
    rw [bucketLines, all, leaves.sum]
  · next apart => exact Book.bucketLines_eq_zero fun line member same => apart (same.symm.trans (on line member))

/-- Lines of an amount's sign that include one do not add to nothing. -/
theorem sum_goesWith {amount : Exact} {lines : List MovementLine} (goes : ∀ line ∈ lines, GoesWith amount "" line)
    (some' : lines ≠ []) : (lines.map lineUnits).sum ≠ 0 := by
  have some'' : lines.map lineUnits ≠ [] := mt List.map_eq_nil_iff.mp some'
  by_cases negative : amount.units < 0
  · have below : 0 < ((lines.map lineUnits).map fun units => -units).sum := by
      refine List.sum_pos _ (fun units member => ?_) (mt List.map_eq_nil_iff.mp some'')
      obtain ⟨of, among, rfl⟩ := List.mem_map.mp member
      obtain ⟨line, held, rfl⟩ := List.mem_map.mp among
      have sign := (goes line held).2
      rw [if_pos negative] at sign
      omega
    have turned : ((lines.map lineUnits).map fun units => -units).sum = -(lines.map lineUnits).sum :=
      (List.sum_neg (lines.map lineUnits)).symm
    omega
  · have above : 0 < (lines.map lineUnits).sum := by
      refine List.sum_pos _ (fun units member => ?_) some''
      obtain ⟨line, held, rfl⟩ := List.mem_map.mp member
      have sign := (goes line held).2
      rwa [if_neg negative] at sign
    omega

/-- A revision's line leaves something on its own position. -/
theorem bucketLines_ne_zero (leaves : LeavesClaim process revised instrument sleeve received) {line : MovementLine}
    (member : line ∈ revised.moved) : bucketLines revised.moved (lineKey line) .pending "" ≠ 0 := by
  refine sum_goesWith (fun other held => leaves.goes other (List.mem_filter.mp held).1) fun none' => ?_
  have held : line ∈ revised.moved.filter (fun other => lineKey other = lineKey line ∧ inBucket .pending "" other) :=
    List.mem_filter.mpr ⟨member, decide_eq_true ⟨rfl, inBucket_moved leaves member⟩⟩
  rw [none'] at held
  exact List.not_mem_nil held

theorem moved_eq_nil (leaves : LeavesClaim process revised instrument sleeve received) :
    revised.moved = [] ↔ received.units = 0 := by
  constructor
  · intro none'
    rw [← leaves.sum, none']
    rfl
  · intro zero
    by_contra some'
    exact sum_goesWith leaves.goes some' (leaves.sum.trans zero)

/-- The entry settling a claim. -/
def settlingDraft (later : Context) (claim : LifecycleEvent) (note : String) (key : Key) (amount : Exact) : Draft where
  entryId := later.minted "ENT" 0
  kind := Lifecycle.claimSettledKind
  effectiveDate := later.today
  reason := note
  actor := later.actor
  body := { lines := claimLines key amount, lifecycleEvents := [settledClaim claim], trade := true }

/-- Settling a claim reads its cash, resolves its currency, and makes its entry. -/
theorem claimSettled_eq {price : Money} (cash : claim.cash = some { price with amount := numbers.wire received }) :
    claimSettled now head later claim note = (do
      inScope later claim.accountId
      let instrument ← cashInstrument later.process { price with amount := numbers.wire received }
      made now head later (settlingDraft later claim note ⟨instrument, .long, sleeveOf now claim⟩ received)) := by
  have read : numbers.amount "cash" { price with amount := numbers.wire received } = .ok received := required_wire _ _
  unfold claimSettled settlingDraft claimLines sleeveOf settledClaim
  rw [cash]
  dsimp only
  refine congrArg (inScope later claim.accountId >>= ·) (funext fun _ => ?_)
  rw [read]
  rfl

/-- An event booked is released no more. -/
theorem release_refused {book : Book} {ctx : Context} {request : Lifecycle.ReleaseLifecycleEventRequest} {more : Made}
    {held : LifecycleEvent} (found : book.lifecycleEvents[request.eventId]? = some held) (booked : held.state = .booked) :
    release book head ctx request ≠ .ok more := by
  intro taken
  have apart (state : LifecycleEventState) (other : LifecycleEvent)
      (waits : Lifecycle.heldIn book request.eventId state = some other) : state = .booked := by
    obtain ⟨again, inState⟩ := Lifecycle.heldIn_eq_some waits
    rw [found] at again
    cases again
    rw [← inState, booked]
  obtain ⟨-, ⟨claim, waits, -⟩ | ⟨proposal, waits, -⟩⟩ := Lifecycle.release_ok taken
  · cases apart _ _ waits
  · cases apart _ _ waits

/-- The entry settling a claim settles it as it should where every line its revision left is on the position it
moves. -/
theorem settlesClaim_iff (leaves : LeavesClaim process revised instrument sleeve received) {position : String}
    (decided : made now head later (settlingDraft later claim note ⟨position, .long, sleeveOf now claim⟩ received) =
      .ok act) : SettlesClaim revised now claim act ↔
        ∀ line ∈ revised.moved, lineKey line = ⟨position, .long, sleeveOf now claim⟩ := by
  obtain ⟨applied, -, -⟩ := made_ok decided
  have moves : Book.MovesUnlotted ((settlingDraft later claim note ⟨position, .long, sleeveOf now claim⟩ received).entry
      now head later) ⟨position, .long, sleeveOf now claim⟩
      (claimLines ⟨position, .long, sleeveOf now claim⟩ received) (settledClaim claim) :=
    ⟨rfl, rfl, unlotted_claimLines _ _ _⟩
  have nothing := sum_claimLines ⟨position, .long, sleeveOf now claim⟩ received
  have moved (key : Key) (bucket : SettlementBucket) : act.held.bucketAt key bucket "" = now.bucketAt key bucket "" +
      bucketLines (claimLines ⟨position, .long, sleeveOf now claim⟩ received) key bucket "" :=
    Book.bucketAt_of_applied applied key
  have claimed := bucketLines_claimLines position (sleeveOf now claim) received
  constructor
  · intro settles line member
    have gone := settles.undated (lineKey line)
    rw [moved, (claimed (lineKey line)).1] at gone
    have left := bucketLines_ne_zero leaves member
    by_contra apart
    rw [if_neg apart] at gone
    omega
  · intro on
    have all := bucketLines_moved leaves on
    refine ⟨fun key => ?_, fun key => ?_, fun key => ?_, fun key lotId => ?_, fun head ctx request more named => ?_⟩
    · rw [moved, (claimed key).1, all]
      split <;> omega
    · rw [moved, (claimed key).2, all]
    · exact Book.tradeAt_of_unlotted moves nothing applied key
    · exact Book.lotAt_of_unlotted moves nothing applied key lotId
    · have booked : eventOf act.held claim.eventId = some (settledClaim claim) := by
        rw [Lifecycle.eventOf_held decided (List.nodup_singleton _) claim.eventId]
        simp [settlingDraft, settledClaim, bare]
      obtain ⟨held, found, same⟩ := Option.map_eq_some_iff.mp booked
      rw [← named] at found
      refine release_refused found ?_
      rw [show held.state = (bare held).state from rfl, same]
      rfl

/-- Each revision of an entry is one due worked out after the lines of those before it. -/
theorem revision_of_mem {book : Book} {ctx : Context} {earlier : List MovementLine} {index : Nat} {dues : List Due}
    {all : List Revision} (worked : revisions book ctx earlier index dues = .ok all) (among : revised ∈ all) :
    ∃ earlier index due, revision book ctx earlier index due = .ok revised := by
  induction dues generalizing earlier index all with
  | nil =>
    cases worked
    exact absurd among List.not_mem_nil
  | cons due rest ih =>
    rw [revisions] at worked
    obtain ⟨first, one, worked⟩ := bind_ok.mp worked
    obtain ⟨others, later, worked⟩ := bind_ok.mp worked
    cases worked
    rcases List.mem_cons.mp among with rfl | further
    · exact ⟨earlier, index, due, one⟩
    · exact ih later further

/-- A factor revision's open claim is settled as it should be exactly where it is settleable. -/
theorem claim_settles_iff {book : Book} {ctx : Context} {dues : List Due} {all : List Revision}
    (worked : revisions book ctx [] 0 dues = .ok all) (among : revised ∈ all)
    (claims : revised.event.state = .claimOpen) (kept : bare claim = revised.event) :
    (∃ act, claimSettled now head later claim note = .ok act ∧ SettlesClaim revised now claim act) ↔
      Settleable revised now later claim := by
  obtain ⟨earlier, index, due, one⟩ := revision_of_mem worked among
  obtain ⟨instrument, sleeve, received, leaves⟩ := leavesClaim_of_revision one claims
  obtain ⟨price, cash, -⟩ := leaves.cash
  have claimed : claim.cash = some { price with amount := numbers.wire received } := by
    rw [← cash, ← kept]
    rfl
  have amount : readOr (claim.cash.getD {}).amount = received := by
    rw [claimed]
    exact readOr_wire received
  rw [claimSettled_eq claimed]
  have settles (instrument : String) {act : Made}
      (decided : made now head later (settlingDraft later claim note ⟨instrument, .long, sleeveOf now claim⟩ received) =
        .ok act) : SettlesClaim revised now claim act ↔
          ∀ line ∈ revised.moved, lineKey line = ⟨instrument, .long, sleeveOf now claim⟩ :=
    settlesClaim_iff leaves decided
  have taken (instrument : String) : (∃ act, made now head later
      (settlingDraft later claim note ⟨instrument, .long, sleeveOf now claim⟩ received) = .ok act) ↔
        (revised.moved ≠ [] → (∃ moved, now.Carries ⟨instrument, .long, sleeveOf now claim⟩
          (claimLines ⟨instrument, .long, sleeveOf now claim⟩ received) moved) ∧
            (now.positionAt ⟨instrument, .long, sleeveOf now claim⟩).Stands (now.isBase later.process instrument)) := by
    have some' : claimLines ⟨instrument, .long, sleeveOf now claim⟩ received ≠ [] ↔ revised.moved ≠ [] := by
      rw [not_iff_not, moved_eq_nil leaves, claimLines]
      split
      · next zero => exact iff_of_true rfl ((Exact.isZero_iff received).mp zero)
      · next nonzero => exact iff_of_false (List.cons_ne_nil _ _) (mt (Exact.isZero_iff received).mpr nonzero)
    rw [Book.made_unlotted_iff rfl (unlotted_claimLines _ _ _) (sum_claimLines _ _)]
    exact ⟨fun holds nonempty => holds (some'.mpr nonempty), fun holds nonempty => holds (some'.mp nonempty)⟩
  constructor
  · rintro ⟨act, answered, settled⟩
    obtain ⟨_, scope, answered⟩ := bind_ok.mp answered
    obtain ⟨instrument, resolved, decided⟩ := bind_ok.mp answered
    refine ⟨scope, instrument, ?_, (settles instrument decided).mp settled, fun some' => ?_, fun some' => ?_⟩
    · rw [claimed]
      exact resolved
    · rw [amount]
      exact ((taken instrument).mp ⟨act, decided⟩ some').1
    · exact ((taken instrument).mp ⟨act, decided⟩ some').2
  · rintro ⟨scope, instrument, resolved, lines, takes, stands⟩
    rw [amount] at takes
    rw [claimed] at resolved
    obtain ⟨act, decided⟩ := (taken instrument).mpr fun some' => ⟨takes some', stands some'⟩
    exact ⟨act, bind_ok.mpr ⟨_, scope, bind_ok.mpr ⟨instrument, resolved, decided⟩⟩, (settles instrument decided).mpr lines⟩

end Settled

def inDollars (amount : Int) : Money := { amount := some ⟨amount, 0⟩, currencyCode := "USD", instrumentId := "CASH-USD" }

def usDollars : Process := Process.learn {} "USD" "CASH-USD"

/-- An account entered with its base, or with none, and a thousand of a pool bought at nine tenths: nine hundred
paid from the base's balance, or a short opened for it. -/
def poolBought (base : String) : List Making := [
  ⟨0, {}, {
    entryId := "ENT-1"
    kind := "opening-balance"
    effectiveDate := "2026-01-02"
    body := {
      opening := some { entryId := "ENT-1", asOfDate := "2026-01-02" }
      attributes := some { accountId := "ACC-1", baseCurrencyCode := base } } }⟩,
  ⟨10, { process := usDollars }, {
    entryId := "ENT-2"
    kind := "execution-reported"
    effectiveDate := "2026-03-02"
    body := {
      trade := true
      acts := [
        .opened { orderId := "ORD-1", instrumentId := "POOL-1", side := .buy, quantity := some ⟨1000, 0⟩ } true,
        .executed {
          executionId := "EXE-1"
          orderId := "ORD-1"
          instrumentId := "POOL-1"
          side := .buy
          quantity := some ⟨1000, 0⟩
          price := some (inDollars 100)
          tradeDate := "2026-03-02"
          settlementDate := "2026-03-04" } "VENUE-1" "" "" "0.9" { month := "2026-02" }]
      lines := [
        {
          instrumentId := "POOL-1"
          side := .long
          bucket := .settled
          quantity := some ⟨1000, 0⟩
          lotId := "LOT-1"
          opensLot := some { cost := some (inDollars 900) } },
        if base = "" then {
          instrumentId := "CASH-USD"
          side := .short
          bucket := .settled
          quantity := some ⟨-900, 0⟩
          lotId := "LOT-2"
          opensLot := some {} }
        else {
          instrumentId := "CASH-USD"
          side := .long
          bucket := .settled
          quantity := some ⟨-900, 0⟩ }] } }⟩]

/-- The desk after the pool settled. -/
def afterSettlement : Context where
  process := usDollars
  receivedAtNs := 1775001600000000000
  minted identifier count := identifier ++ "-A" ++ toString count

/-- The pool's factor, published at eight tenths. -/
def eightTenths : Due := ⟨"EXE-1", ⟨8, 1, by decide, by decide⟩, { month := "2026-02", version := 2 }⟩

/-- A hundred due back in the base currency is settled on the balance it was left pending on. -/
theorem base_claim_settles : ∃ book act all revised claim settled, book.Reachable ∧
    revise book 30 afterSettlement [eightTenths] = .ok act ∧
    revisions book afterSettlement [] 0 [eightTenths] = .ok all ∧ revised ∈ all ∧
    Lifecycle.heldIn act.held revised.event.eventId .claimOpen = some claim ∧
    claimSettled act.held 50 afterSettlement claim "paid" = .ok settled ∧ SettlesClaim revised act.held claim settled := by
  have computed : ((poolBought "USD").foldlM make (Book.new "ACC-1" "P-1")).toOption.any (fun book =>
      (revise book 30 afterSettlement [eightTenths]).toOption.any fun act =>
      (revisions book afterSettlement [] 0 [eightTenths]).toOption.any fun all => all.any fun revised =>
      (Lifecycle.heldIn act.held revised.event.eventId .claimOpen).any fun claim =>
        decide (bare claim = revised.event ∧ revised.event.state = .claimOpen ∧
          (∀ line ∈ revised.moved, lineKey line = ⟨"CASH-USD", .long, sleeveOf act.held claim⟩) ∧
          inScope afterSettlement claim.accountId = .ok () ∧
          cashInstrument afterSettlement.process (claim.cash.getD {}) = .ok "CASH-USD" ∧
          act.held.isBase usDollars "CASH-USD" = true ∧
          ((act.held.positionAt ⟨"CASH-USD", .long, sleeveOf act.held claim⟩).lots.toList = [])) &&
        (act.held.previousOf ⟨"CASH-USD", .long, sleeveOf act.held claim⟩).toOption.any (fun _ => true) &&
        ((claimLines ⟨"CASH-USD", .long, sleeveOf act.held claim⟩ (readOr (claim.cash.getD {}).amount)).foldlM
          PositionState.take (act.held.positionAt ⟨"CASH-USD", .long, sleeveOf act.held claim⟩).restored).toOption.any
            fun moved => moved.tradeDate.toOption.any (fun _ => true) && moved.free.toOption.any (fun _ => true)) = true := by
    decide +kernel
  obtain ⟨book, folded, computed⟩ := answered_of computed
  obtain ⟨act, revisedOne, computed⟩ := answered_of computed
  obtain ⟨all, worked, computed⟩ := answered_of computed
  obtain ⟨revised, among, computed⟩ := List.any_eq_true.mp computed
  obtain ⟨claim, waits, computed⟩ := (Option.any_eq_true _ _).mp computed
  obtain ⟨facts, took⟩ := Bool.and_eq_true_iff.mp computed
  obtain ⟨facts, traded⟩ := Bool.and_eq_true_iff.mp facts
  obtain ⟨kept, claims, lines, scope, resolved, base, none'⟩ := of_decide_eq_true facts
  obtain ⟨before, previous, -⟩ := answered_of traded
  obtain ⟨moved, taken, stated⟩ := answered_of took
  obtain ⟨tradeStated, freeStated⟩ := Bool.and_eq_true_iff.mp stated
  obtain ⟨trade, tradeRead, -⟩ := answered_of tradeStated
  obtain ⟨free, freeRead, -⟩ := answered_of freeStated
  have stands : (act.held.positionAt ⟨"CASH-USD", .long, sleeveOf act.held claim⟩).Stands
      (act.held.isBase usDollars "CASH-USD") := by
    refine ⟨.inl base, fun lotId state held => ?_, fun apart => absurd (base.symm.trans apart) Bool.noConfusion⟩
    have listed := BTreeMap.mem_toList.mpr held
    rw [none'] at listed
    exact absurd listed List.not_mem_nil
  have settleable : Settleable revised act.held afterSettlement claim :=
    ⟨scope, "CASH-USD", resolved, lines, fun _ => ⟨moved, ⟨before, previous⟩, taken, ⟨trade, tradeRead⟩, free, freeRead⟩,
      fun _ => stands⟩
  obtain ⟨settled, settling, settles⟩ := (claim_settles_iff worked among claims kept).mpr settleable
  exact ⟨book, act, all, revised, claim, settled, reachable_of_make folded, revisedOne, worked, among, waits, settling,
    settles⟩

/-- A hundred due back that covered a short is left pending on it, its claim settled. -/
theorem covered_short_left_pending :
    ¬ ∀ (book : Book) (head after : Nat) (ctx later : Context) (dues : List Due) (act : Made) (all : List Revision)
      (revised : Revision) (claim : LifecycleEvent) (note : String), book.Reachable →
      revise book head ctx dues = .ok act → revisions book ctx [] 0 dues = .ok all → revised ∈ all →
      Lifecycle.heldIn act.held revised.event.eventId .claimOpen = some claim → bare claim = revised.event →
      ∃ settled, claimSettled act.held after later claim note = .ok settled ∧ SettlesClaim revised act.held claim settled := by
  intro claimed
  have computed : ((poolBought "").foldlM make (Book.new "ACC-1" "P-1")).toOption.any (fun book =>
      (revise book 30 afterSettlement [eightTenths]).toOption.any fun act =>
      (revisions book afterSettlement [] 0 [eightTenths]).toOption.any fun all => all.any fun revised =>
      (Lifecycle.heldIn act.held revised.event.eventId .claimOpen).any fun claim =>
        decide (bare claim = revised.event) &&
        (claimSettled act.held 50 afterSettlement claim "paid").toOption.any fun settled =>
          decide (settled.held.bucketAt ⟨"CASH-USD", .short, ""⟩ .pending "" ≠
            act.held.bucketAt ⟨"CASH-USD", .short, ""⟩ .pending "" -
              bucketLines revised.moved ⟨"CASH-USD", .short, ""⟩ .pending "")) = true := by
    decide +kernel
  obtain ⟨book, folded, computed⟩ := answered_of computed
  obtain ⟨act, revisedOne, computed⟩ := answered_of computed
  obtain ⟨all, worked, computed⟩ := answered_of computed
  obtain ⟨revised, among, computed⟩ := List.any_eq_true.mp computed
  obtain ⟨claim, waits, computed⟩ := (Option.any_eq_true _ _).mp computed
  obtain ⟨kept, computed⟩ := Bool.and_eq_true_iff.mp computed
  obtain ⟨settled, settling, left⟩ := answered_of computed
  obtain ⟨other, again, settles⟩ := claimed book 30 50 afterSettlement afterSettlement [eightTenths] act all revised claim
    "paid" (reachable_of_make folded) revisedOne worked among waits (of_decide_eq_true kept)
  cases settling.symm.trans again
  exact of_decide_eq_true left (settles.undated ⟨"CASH-USD", .short, ""⟩)

end Factors

end MeridianCore.Bor
