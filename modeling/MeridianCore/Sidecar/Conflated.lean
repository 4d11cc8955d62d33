import MeridianCore.Lake.Leads
import MeridianCore.Sidecar.Keys
import MeridianCore.Sidecar.Queue

namespace MeridianCore.Sidecar

open MeridianCore.Lake

/-- The rows of a batch every sidecar conflates with one. -/
def sharing (rows : List Observation) (row : Observation) : List Observation :=
  rows.filter fun other => sidecarKey other = sidecarKey row

/-- Each row a batch leaves unpublished has a later published row of its conflation key, under the key every
sidecar conflates by, and a read of the latest over the rows of that key answers the published one alone. -/
def Conflated (rows : List Observation) : Prop :=
  ∀ (i : Nat) row, i ∈ supersededInBatch rows → rows[i]? = some row →
    ∃ (j : Nat) (last : Observation), i < j ∧ rows[j]? = some last ∧ j ∉ supersededInBatch rows ∧
      last.conflationKey = row.conflationKey ∧ (sidecarKey row).isSome ∧ sidecarKey last = sidecarKey row ∧
      latestRead (sharing rows row) = [last]

/-- Each row with a later one of its conflation key in the batch shares its sidecar key with the last such,
which leads the rows of that key. -/
def Orderly (rows : List Observation) : Prop :=
  ∀ i j row last, Replaced rows i j row last → sidecarKey last = sidecarKey row ∧ Leads (sharing rows row) last

theorem sidecarKey_isSome {row : Observation} (keyed : row.conflationKey.isSome) : (sidecarKey row).isSome := by
  cases row <;> first | rfl | cases keyed

/-- A batch conflates as it should exactly where it is orderly. -/
theorem conflated_iff_orderly {rows : List Observation} (distinct : Distinct rows) : Conflated rows ↔ Orderly rows := by
  have sharers : ∀ row, Distinct (sharing rows row) := fun row => distinct.sublist List.filter_sublist
  constructor
  · intro conflated i j row last replaced
    obtain ⟨k, final, after, at_, published, key, -, alike, answered⟩ :=
      conflated i row (mem_supersededInBatch.mpr ⟨j, row, last, replaced⟩) replaced.left
    have same : k = j := by
      by_contra apart
      rcases lt_or_gt_of_ne apart with before | before
      · -- an earlier one of the key is itself left out
        refine published (mem_supersededInBatch.mpr ⟨j, final, last, at_, replaced.kept, before, ?_, replaced.final⟩)
        rw [key]
        exact replaced.key
      · exact replaced.final k final before at_ (by rw [key, replaced.key.2])
    subst same
    obtain rfl : final = last := Option.some.inj (at_.symm.trans replaced.kept)
    have member : final ∈ sharing rows row :=
      List.mem_filter.mpr ⟨List.mem_of_getElem? at_, by simpa using alike⟩
    exact ⟨alike, (latestRead_eq_singleton (sharers row) member).mp answered⟩
  · intro orderly i row superseded at_
    obtain ⟨j, row', last, replaced⟩ := mem_supersededInBatch.mp superseded
    obtain rfl : row = row' := Option.some.inj (at_.symm.trans replaced.left)
    obtain ⟨alike, leads⟩ := orderly i j row last replaced
    have member : last ∈ sharing rows row :=
      List.mem_filter.mpr ⟨List.mem_of_getElem? replaced.kept, by simpa using alike⟩
    exact ⟨j, last, replaced.after, replaced.kept, replaced.published, replaced.key.2.symm,
      sidecarKey_isSome replaced.key.1, alike, (latestRead_eq_singleton (sharers row) member).mpr leads⟩

/-- A delivery waiting, with the row it was heard as; none for a delivery of no lake row. -/
structure Waits where
  row : Option Observation := none
  delivered : Option Delivered := none

/-- A plugin's stream: its subscriptions and what waits for it; and of the lake rows it heard, all those
queued, and each replaced while it waited, with those heard by then. -/
structure Receiving where
  subscriptions : BTreeMap String Open := ∅
  queue : Queue Waits := {}
  heard : List Observation := []
  overtaken : List (Observation × List Observation) := []

/-- What happens to a stream. -/
inductive Event where
  /-- A lake row heard under a row's name. -/
  | deliver (heard : Heard) (row : String) (payload : Payload)
  /-- A delivery of no lake row. -/
  | other (row : String) (key : Option String)
  | lose (dropped : Option Nat) (row : Option String)
  | pop
  /-- Subscriptions opened, closed or widened. -/
  | subscribe (subscriptions : BTreeMap String Open)

namespace Receiving

/-- The row waiting under a key. -/
def replaced (state : Receiving) (key : Option String) : Option Observation :=
  match state.queue.under key with
  | some (.delivery waits) => waits.row
  | _ => none

/-- A delivery queued under its key. -/
def queued (most : Nat) (state : Receiving) (row : String) (payload : Payload) (delivered : Delivered) : Receiving :=
  let heard := state.heard ++ payload.row.toList
  { state with
    queue := state.queue.pushKeyed most { row := payload.row, delivered := some delivered } row delivered.key
    heard
    overtaken := state.overtaken ++ (state.replaced delivered.key).toList.map (·, heard) }

/-- What a lake row heard leaves: its delivery queued, where it has one. -/
def delivered (most : Nat) (state : Receiving) (row : String) (payload : Payload)
    (answer : BTreeMap String Open × Option Delivered) : Receiving :=
  match answer.2 with
  | some delivered => { state with subscriptions := answer.1 }.queued most row payload delivered
  | none => { state with subscriptions := answer.1 }

def after (most : Nat) (state : Receiving) : Event → Receiving
  | .deliver heard row payload =>
    state.delivered most row payload (Sidecar.deliver heard state.subscriptions row payload)
  | .other row key =>
    { state with
      queue := state.queue.pushKeyed most {} row key
      overtaken := state.overtaken ++ (state.replaced key).toList.map (·, state.heard) }
  | .lose dropped row => { state with queue := state.queue.lose dropped row }
  | .pop => { state with queue := state.queue.pop.1 }
  | .subscribe subscriptions => { state with subscriptions }

end Receiving

/-- A row among those heard that a read of the latest passes over: out of force, invalid, or behind one in
force and valid of what the latest is chosen per with it. -/
def Outdone (rows : List Observation) (row : Observation) : Prop :=
  row ∉ asOf rows 0 ∨ row.invalid = true ∨
    ∃ other ∈ asOf rows 0, other.invalid = false ∧ other.inForceKey = row.inForceKey ∧ row.latestOrder < other.latestOrder

theorem notMem_of_outdone {rows : List Observation} {row : Observation} (outdone : Outdone rows row) :
    row ∉ latestRead rows := by
  intro answered
  obtain ⟨force, valid, above⟩ := mem_latestRead_in_force answered
  rcases outdone with out | invalid | ⟨other, standing, proper, key, behind⟩
  · exact out force
  · rw [valid] at invalid
    cases invalid
  · exact absurd (above other standing proper key) (not_le.mpr behind)

/-- A step that replaces no waiting row but one outdone, of those heard with the row that replaces it. -/
def Event.Timely (state : Receiving) : Event → Prop
  | .deliver heard row payload => ∀ delivered old, (Sidecar.deliver heard state.subscriptions row payload).2 = some delivered →
      state.replaced delivered.key = some old → Outdone (state.heard ++ payload.row.toList) old
  | .other _ key => ∀ old, state.replaced key = some old → Outdone state.heard old
  | _ => True

/-- No row replaced while it waited is one a read of the latest answers over those heard by then. -/
def Kept (state : Receiving) : Prop := ∀ entry ∈ state.overtaken, entry.1 ∉ latestRead entry.2

theorem Kept.after {most : Nat} {state : Receiving} {event : Event} (kept : Kept state) (timely : event.Timely state) :
    Kept (state.after most event) := by
  have joined : ∀ {replaced : Option Observation} {heard : List Observation},
      (∀ old, replaced = some old → Outdone heard old) →
        ∀ entry ∈ state.overtaken ++ replaced.toList.map (·, heard), entry.1 ∉ latestRead entry.2 := by
    intro replaced heard outdone entry member
    rcases List.mem_append.mp member with earlier | this
    · exact kept entry earlier
    · obtain ⟨old, inside, rfl⟩ := List.mem_map.mp this
      exact notMem_of_outdone (outdone old (Option.mem_toList.mp inside))
  cases event with
  | deliver heard row payload =>
    change Kept (state.delivered most row payload (Sidecar.deliver heard state.subscriptions row payload))
    unfold Receiving.delivered
    cases delivered : (Sidecar.deliver heard state.subscriptions row payload).2 with
    | none => exact kept
    | some delivery => exact joined fun old replaced => timely delivery old delivered replaced
  | other row key => exact joined timely
  | lose | pop | subscribe => exact kept

/-- A step of a stream. -/
def Receiving.Step (most : Nat) (state : Receiving) (event : Event) (next : Receiving) : Prop := next = state.after most event

/-- A stream each of whose steps replaces no waiting row but one outdone keeps the latest. -/
theorem kept_of_run {most : Nat} {start state : Receiving} {labels : List Event} (fresh : start.overtaken = [])
    (run : Run (fun state event next => event.Timely state ∧ Receiving.Step most state event next) start labels state) :
    Kept state := by
  refine run.invariant_of Kept (fun entry member => ?_) ?_
  · rw [fresh] at member
    cases member
  · rintro state event next kept timely rfl
    exact kept.after timely

/-- A bar of a subject, as a plugin sends it. -/
def barred (rowKey : String) (fromNs untilNs close : Int) : Observation :=
  .bar {
    close := some { amount := some { integer := close, scale := 0 }, currencyCode := "USD" }
    envelope := some {
      rowKey := rowKey
      subjects := [{ entityId := "INS-1" }]
      source := some { dataset := "feed:bars" }
      validFromNs := fromNs
      validUntilNs := untilNs } }

/-- A version of a bar, as a store numbered it. -/
def restatedBar (version : Nat) (close : Int) : Bar where
  close := some { amount := some { integer := close, scale := 0 }, currencyCode := "USD" }
  envelope := some {
    rowKey := "minute"
    subjects := [{ entityId := "INS-1" }]
    source := some { dataset := "feed:bars" }
    validUntilNs := 60
    version := version
    sequence := version }

/-- A stream that hears the bars of a subject, every field of them. -/
def everyBar : Heard where
  chosen := setOf ["bars"]
  subjects := setOf ["INS-1"]
  entitled _ := some ∅

end MeridianCore.Sidecar
