import MeridianCore.AnalyticsEngine.Graph.Part
import MeridianCore.AnalyticsEngine.Graph.Threads

namespace MeridianCore.AnalyticsEngine

/-- A unit of work: one measure of the job by its place, over one account or across them. -/
structure WorkUnit where
  measure : Nat
  account : Option String
  deriving DecidableEq

/-- A measure's preamble and its units. -/
structure Planned where
  preamble : Part
  units : List WorkUnit

/-- A case as the graph asks of it: its measures, each one's plan, a unit's part, and the provenance of what was
read. Each is a function of the case's document alone. -/
structure Case where
  measures : List MeasureKey
  plan : Nat → Except CaseError Planned
  compute : WorkUnit → Except CaseError Part
  provenance : Reads → Json

structure Answer where
  figures : List Figure
  notEvaluated : List Unevaluated
  provenance : Json
  executionCosts : List Json
  asksExecutionCost : Bool

/-- Runs units, each to its part, in the order given; nothing where it does not return. -/
abbrev Executor := List WorkUnit → Option (List (Except CaseError Part))

section executors
variable (case_ : Case)

/-- Every unit here, one after another. -/
def sequential : Executor := fun units => some (units.map case_.compute)

/-- The units shared among `n` threads by turns, until every thread is done. -/
def threads (n : Nat) (turns : List Threads.Turn) : Executor := fun units =>
  let compute := fun i => (units[i]?).map case_.compute
  let state := Threads.run n units.length compute turns
  if state.hands.all (· == .stopped) then state.done.mapM Option.join else none

/-- A part through its JSON, as it goes between a worker and the coordinator. -/
def wired (part : Part) : Option (Except CaseError Part) := part.toJson.map Part.fromJson

/-- Every unit's part through its JSON. -/
def overTheWire : Executor := fun units =>
  units.mapM fun unit =>
    match case_.compute unit with
    | .ok part => wired part
    | .error bad => some (.error bad)

end executors

section join

/-- What the parts joined so far hold. -/
structure Joined where
  figures : List Figure
  notEvaluated : List Unevaluated
  executionCosts : List Json
  reads : Reads

def Joined.empty : Joined := ⟨[], [], [], Reads.empty⟩

def Joined.take (joined : Joined) (part : Part) : Joined where
  figures := joined.figures ++ part.figures
  notEvaluated := joined.notEvaluated ++ part.notEvaluated
  executionCosts := joined.executionCosts ++ part.executionCosts
  reads := joined.reads.absorb part.reads

/-- One measure's preamble and parts, its figures and its rows each sorted among themselves. -/
def Joined.measure (joined : Joined) (preamble : Part) (parts : List Part) : Joined :=
  let taken := parts.foldl Joined.take ({ joined with figures := [], notEvaluated := [] }.take preamble)
  { taken with
    figures := joined.figures ++ taken.figures.mergeSort (fun a b => Figure.compare a b != .gt)
    notEvaluated := joined.notEvaluated ++ taken.notEvaluated.mergeSort (fun a b => Unevaluated.compare a b != .gt) }

/-- The measures in the job's order, each with the parts of its own units. -/
def join : List Planned → List (Except CaseError Part) → Joined → Except CaseError Joined
  | [], _, joined => .ok joined
  | plan :: rest, parts, joined => do
    let own ← (parts.take plan.units.length).mapM id
    join rest (parts.drop plan.units.length) (joined.measure plan.preamble own)

def TCA_BENCHMARKS : List String :=
  ["TCA_BENCHMARK_DECISION", "TCA_BENCHMARK_ARRIVAL", "TCA_BENCHMARK_PLACEMENT_ARRIVAL", "TCA_BENCHMARK_MID_AT_FILL"]

/-- A benchmark's place among the rows' order, last for any other. -/
def benchmarkOrder (benchmark : String) : Nat := TCA_BENCHMARKS.idxOf benchmark

def costOrder (a b : Json) : Ordering :=
  (compare (a.get "execution_id").str (b.get "execution_id").str).then
    (compare (benchmarkOrder (a.get "benchmark").str) (benchmarkOrder (b.get "benchmark").str))

/-- The answer: every measure's preamble and units, joined in the job's order, each measure sorted, and the
provenance. Nothing where the executor does not return. -/
def answer (case_ : Case) (executor : Executor) : Option (Except CaseError Answer) :=
  match (List.range case_.measures.length).mapM case_.plan with
  | .error bad => some (.error bad)
  | .ok planned =>
    (executor (planned.flatMap Planned.units)).map fun parts =>
      (join planned parts Joined.empty).map fun joined =>
        { figures := joined.figures
          notEvaluated := joined.notEvaluated
          provenance := case_.provenance joined.reads
          executionCosts := joined.executionCosts.mergeSort (fun a b => costOrder a b != .gt)
          asksExecutionCost := case_.measures.any (·.definition == "execution_cost") }

end join

/-- The units of a job whose every measure has a plan. -/
def unitsOf (case_ : Case) : List WorkUnit :=
  match (List.range case_.measures.length).mapM case_.plan with
  | .error _ => []
  | .ok planned => planned.flatMap Planned.units

section executors
variable {case_ : Case}

/-- Answers all there are themselves. -/
theorem mapM_join {α : Type} (answers : List α) : (answers.map fun answer => some (some answer)).mapM Option.join = some answers := by
  induction answers with
  | nil => rfl
  | cons answer rest ih =>
    rw [List.map_cons, List.mapM_cons, ih]
    rfl

/-- Threads that are all done answer as one does. -/
theorem threads_of_finished {n : Nat} {turns : List Threads.Turn} {units : List WorkUnit}
    (finished : Threads.Finished (Threads.run n units.length (fun i => (units[i]?).map case_.compute) turns)) :
    threads case_ n turns units = some (units.map case_.compute) := by
  have places : (List.range units.length).map (fun i => some ((units[i]?).map case_.compute)) =
      (units.map case_.compute).map fun answer => some (some answer) := by
    refine List.ext_getElem? fun i => ?_
    rw [List.getElem?_map, List.getElem?_map, List.getElem?_map]
    rcases Nat.lt_or_ge i units.length with below | past
    · simp only [List.getElem?_range below, List.getElem?_eq_getElem below, Option.map_some]
    · rw [List.getElem?_eq_none (by simp; exact past), List.getElem?_eq_none past]
      rfl
  unfold threads
  dsimp only
  rw [if_pos (List.all_eq_true.mpr fun hand member => beq_iff_eq.mpr (finished hand member)),
    Threads.done_of_finished finished, places, mapM_join]

/-- Threads answer as one does, however they take turns, once they are done. -/
theorem threads_eq (n : Nat) (turns : List Threads.Turn) (units : List WorkUnit) :
    threads case_ n turns units = none ∨ threads case_ n turns units = some (units.map case_.compute) := by
  by_cases finished : Threads.Finished (Threads.run n units.length (fun i => (units[i]?).map case_.compute) turns)
  · exact Or.inr (threads_of_finished finished)
  · left
    unfold threads
    dsimp only
    rw [if_neg]
    intro all
    exact finished fun hand member => beq_iff_eq.mp (List.all_eq_true.mp all hand member)

theorem overTheWire_eq {units : List WorkUnit}
    (cross : ∀ unit ∈ units, ∀ part, case_.compute unit = .ok part → part.Crosses) :
    overTheWire case_ units = some (units.map case_.compute) := by
  unfold overTheWire
  induction units with
  | nil => rfl
  | cons unit rest ih =>
    have first : (match case_.compute unit with
        | .ok part => wired part
        | .error bad => some (.error bad)) = some (case_.compute unit) := by
      cases computed : case_.compute unit with
      | error bad => rfl
      | ok part =>
        obtain ⟨json, written, read⟩ := cross unit List.mem_cons_self part computed
        change part.toJson.map Part.fromJson = _
        rw [written, Option.map_some, read]
    rw [List.mapM_cons, first, ih fun each member => cross each (List.mem_cons_of_mem _ member)]
    rfl

theorem answer_congr {executor : Executor} (same : executor (unitsOf case_) = some ((unitsOf case_).map case_.compute)) :
    answer case_ executor = answer case_ (sequential case_) := by
  unfold answer
  unfold unitsOf at same
  split
  · rfl
  · next planned plans =>
    rw [plans] at same
    dsimp only at same
    rw [same]
    rfl

end executors

/-- What a distributed job answers is what one machine answers: by threads however they take turns, which always
come to an end; over the wire; and each part as it crosses. -/
structure Distributes (case_ : Case) : Prop where
  byThreads : ∀ n turns, threads case_ n turns (unitsOf case_) = none ∨
    answer case_ (threads case_ n turns) = answer case_ (sequential case_)
  threadsFinish : ∀ n, ∃ turns, (threads case_ n turns (unitsOf case_)).isSome = true
  onTheWire : answer case_ (overTheWire case_) = answer case_ (sequential case_)
  parts : ∀ unit ∈ unitsOf case_, ∀ part, case_.compute unit = .ok part → part.Crosses

/-- A distributed job answers what one machine answers exactly where every part its units come to is one a part's
JSON carries. -/
theorem distributes_iff (case_ : Case) :
    Distributes case_ ↔ ∀ unit ∈ unitsOf case_, ∀ part, case_.compute unit = .ok part → part.Carried := by
  constructor
  · intro distributes unit member part computed
    exact (part_crosses_iff part).mp (distributes.parts unit member part computed)
  · intro carried
    have cross : ∀ unit ∈ unitsOf case_, ∀ part, case_.compute unit = .ok part → part.Crosses :=
      fun unit member part computed => (part_crosses_iff part).mpr (carried unit member part computed)
    refine ⟨?_, ?_, answer_congr (overTheWire_eq cross), cross⟩
    · intro n turns
      exact (threads_eq n turns (unitsOf case_)).imp id answer_congr
    · intro n
      obtain ⟨turns, finished⟩ :=
        @Threads.exists_finished _ n (unitsOf case_).length (fun i => ((unitsOf case_)[i]?).map case_.compute) []
      exact ⟨_, by rw [threads_of_finished finished]; rfl⟩

section dayCounts

/-- The counts the engine does not compute though a record may hold them. -/
def notSupportedCounts : List String := ["DAY_COUNT_BUS_252", "DAY_COUNT_ACT_ACT_AFB", "DAY_COUNT_ACT_ACT_ICMA_ULTIMO"]

/-- The reason a count is not computed for. -/
def reasonFor (count : String) : String := if count ∈ notSupportedCounts then NOT_SUPPORTED else TERMS_INCOMPLETE

/-- The part of a unit of a bond measure on a bond whose count is not computed: the position is not evaluated, the
count named. -/
def uncountedPart (key : MeasureKey) (account bond count : String) : Part where
  figures := []
  notEvaluated := [{
    accountId := account
    instrumentId := bond
    measure := key
    reason := reasonFor count
    detail := "day_count: " ++ count ++ " is not computed by bond_cash_flows v1"
    seriesKey := [] }]
  reads := Reads.empty
  executionCosts := []

/-- A part crosses where it is on a count the engine does compute, or names no variant. -/
theorem uncounted_carried_iff (key : MeasureKey) (account bond count : String) :
    (uncountedPart key account bond count).Carried ↔ count ∉ notSupportedCounts := by
  have listed : reasonFor count ∈ NAMES ↔ count ∉ notSupportedCounts := by
    unfold reasonFor
    split
    · next held => exact iff_of_false (by decide) (not_not.mpr held)
    · next other => exact iff_of_true (by decide) other
  constructor
  · intro carried
    exact listed.mp (carried.reasons _ List.mem_cons_self)
  · intro computed
    refine ⟨fun _ member => absurd member List.not_mem_nil, ?_, ?_, ?_⟩
    · intro row member
      rw [List.mem_singleton.mp member]
      exact listed.mpr computed
    · intro instrument price held
      cases (Std.ExtTreeMap.getElem?_empty.symm.trans held)
    · intro key leg held
      cases (Std.ExtTreeMap.getElem?_empty.symm.trans held)

/-- A job of one bond measure over one account holding a BUS/252 bond. -/
def bus252Job : Case where
  measures := [⟨"bond_yield", 1, "", []⟩]
  plan _ := .ok ⟨⟨[], [], Reads.empty, []⟩, [⟨0, some "ACC"⟩]⟩
  compute _ := .ok (uncountedPart ⟨"bond_yield", 1, "", []⟩ "ACC" "BOND" "DAY_COUNT_BUS_252")
  provenance _ := .null

theorem bus252_not_distributed : ¬ Distributes bus252Job := by
  intro distributes
  have crosses := distributes.parts ⟨0, some "ACC"⟩ (List.mem_singleton.mpr rfl) _ rfl
  have carried := (part_crosses_iff _).mp crosses
  exact (uncounted_carried_iff _ _ _ _).mp carried (by decide)

end dayCounts

end MeridianCore.AnalyticsEngine
