import MeridianCore.AnalyticsEngine.Pricing.Model

/-! What event contracts pay as their groups resolve: each outcome's payoff over a group's positions, and the account's worst
case over its groups and the contracts in none. -/

namespace MeridianCore.AnalyticsEngine

namespace Scenario

def of (kind : String) : Scenario where
  kind
  businessDate := ""
  outcomeInstrumentId := ""
  scenarioRowKey := ""
  scenarioVersion := 0
  axisPositions := []

def outcome (member : String) : Scenario := { of OUTCOME with outcomeInstrumentId := member }

end Scenario

namespace Pricing

/-- A case that does not hold what its own records promise, in words. -/
structure CaseError where
  text : String
  deriving DecidableEq

def Dec.zero : Dec := ⟨Num.fromBig Big.zero, 0⟩

/-- A position's payout a contract in the base, or why it has none: the instrument, a reason and its detail. -/
def payoutOf (job : Case) (base : String) (position : Position) :
    Except CaseError (Except (String × String × String) (Position × Dec)) :=
  match job.instruments[position.instrumentId]? with
  | none => .ok (.error (position.instrumentId, LOCAL_RECORD, "local record: not priced"))
  | some record =>
    if "LCL-".toList.isPrefixOf position.instrumentId.toList then
      .ok (.error (position.instrumentId, LOCAL_RECORD, "local record: not priced"))
    else
      match record.payout with
      | none => .error ⟨position.instrumentId ++ " is in a group and states no payout"⟩
      | some (payout, currency) =>
        match conversion job currency base with
        | .error why => .ok (.error (position.instrumentId, why.1, ""))
        | .ok legs =>
          if position.cost.isNone then .ok (.error (position.instrumentId, COST_MISSING, ""))
          else .ok (.ok (position, payout.mul (product legs)))

/-- The ways a group resolves: each member's outcome and, of a mutually exclusive group that is not exhaustive, none of them. -/
def scenariosOf (group : Group) : List Scenario :=
  group.members.map Scenario.outcome ++
    if group.mutuallyExclusive = EVENT_GROUP_FLAG_TRUE ∧ group.exhaustive ≠ EVENT_GROUP_FLAG_TRUE then
      [Scenario.of NONE_OF_THE_NAMED]
    else []

def payoff (scenario : Scenario) (position : Position) (paid : Dec) : Dec :=
  let pays := scenario.kind = OUTCOME ∧ scenario.outcomeInstrumentId = position.instrumentId
  let received := if pays then position.quantity.mul paid else Dec.zero
  received.sub (position.cost.getD Dec.zero)

/-- Each resolution scenario's payoff over the positions in the group's members, or each position's reason it cannot be. -/
def payoffs (job : Case) (group : Group) (positions : List Position) (base : String) :
    Except CaseError (Except (List (String × String × String)) (List (Scenario × Dec))) := do
  let read ← (positions.filter fun position => position.instrumentId ∈ group.members).mapM (payoutOf job base)
  let failed := read.filterMap fun
    | .error why => some why
    | .ok _ => none
  let terms := read.filterMap fun
    | .error _ => none
    | .ok term => some term
  if failed ≠ [] then return .error failed
  else
    return .ok ((scenariosOf group).map fun scenario =>
      (scenario, terms.foldl (fun total term => total.add (payoff scenario term.1 term.2)) Dec.zero))

/-- The lesser of two amounts, the first of two as little. -/
def lesser (best : Option Dec) (amount : Dec) : Option Dec :=
  match best with
  | some held => if amount.cmp held = .lt then some amount else some held
  | none => some amount

/-- The least of the amounts, the first of those as little; nothing of none. -/
def least (amounts : List Dec) : Option Dec := amounts.foldl lesser none

def isEvent (job : Case) (position : Position) : Bool :=
  (job.instruments[position.instrumentId]?).any fun record => record.modelId == "binary_event"

/-- The groups' least payoffs added, each over the positions in it that no group before took; None where one cannot be. -/
def overGroups (job : Case) (base : String) (events : List Position) :
    List Group → Dec → List String → Except CaseError (Option (Dec × List String))
  | [], worst, done => .ok (some (worst, done))
  | group :: rest, worst, done =>
    if group.mutuallyExclusive ≠ EVENT_GROUP_FLAG_TRUE then overGroups job base events rest worst done
    else
      let inside := events.filter fun position => position.instrumentId ∈ group.members ∧ position.instrumentId ∉ done
      if inside = [] then overGroups job base events rest worst done
      else do
        match ← payoffs job group inside base with
        | .error _ => return none
        | .ok payoffs =>
          let worst := worst.add ((least (payoffs.map Prod.snd)).getD Dec.zero)
          overGroups job base events rest worst (done ++ inside.map Position.instrumentId)

/-- The positions in no group added, each at the worse of paying and not; None where one cannot be valued. -/
def overOthers (job : Case) (base : String) (done : List String) : List Position → Dec → Option Dec
  | [], worst => some worst
  | position :: rest, worst =>
    if position.instrumentId ∈ done then overOthers job base done rest worst
    else do
      let record ← job.instruments[position.instrumentId]?
      let (payout, currency) ← record.payout
      let cost ← position.cost
      let legs ← (conversion job currency base).toOption
      let paid := (position.quantity.mul payout).mul (product legs)
      let floor := if paid.signum < 0 then paid else Dec.zero
      overOthers job base done rest (worst.add (floor.sub cost))

/-- The account's event contracts' exact resolution worst case: each mutually exclusive group's least payoff, and each other
contract's worse of paying and not; None where one cannot be valued. -/
def worstResolution (job : Case) (held : List Position) (base : String) : Except CaseError (Option Dec) := do
  let events := held.filter (isEvent job)
  if events = [] then return some Dec.zero
  else
    match ← overGroups job base events job.groups.valuesOf Dec.zero [] with
    | none => return none
    | some (worst, done) => return overOthers job base done events worst

end Pricing

end MeridianCore.AnalyticsEngine

/-! The worst resolution against every way the contracts may pay. Each group's least payoff is no more than what its positions
bring however its contracts pay, and the groups take each position once, so their sum is no more than what all bring. -/

namespace MeridianCore.AnalyticsEngine.Pricing

@[simp] theorem Dec.value_zero : Dec.zero.value = 0 := by
  rw [AnalyticsEngine.Dec.value_eq_zero_iff]
  decide +kernel

/-- What a position is paid where its contract pays. -/
def paidOf (job : Case) (base : String) (position : Position) : Dec :=
  match (job.instruments[position.instrumentId]?).bind Instrument.payout with
  | some (payout, currency) =>
    match conversion job currency base with
    | .ok legs => position.quantity.mul (payout.mul (product legs))
    | .error _ => Dec.zero
  | none => Dec.zero

/-- What a position brings over its cost, where its contract pays and where not. -/
def brings (job : Case) (base : String) (pays : Bool) (position : Position) : ℚ :=
  (if pays then (paidOf job base position).value else 0) - (position.cost.getD Dec.zero).value

/-- What positions bring, by which contracts pay. -/
def bringing (job : Case) (base : String) (pays : String → Bool) (positions : List Position) : ℚ :=
  (positions.map fun position => brings job base (pays position.instrumentId) position).sum

/-- The account's event contracts' P&L, by which of them pay. -/
def profit (job : Case) (held : List Position) (base : String) (pays : String → Bool) : ℚ :=
  bringing job base pays (held.filter (isEvent job))

section
variable {job : Case} {base : String} {group : Group} {groups : List Group} {position : Position}
  {positions events inside : List Position} {pays pays' : String → Bool} {scenario : Scenario} {worst worst' : Dec}
  {done done' : List String} {amounts : List Dec} {lowest : Dec}

theorem lesser_some (held amount : Dec) : ∃ low, lesser (some held) amount = some low ∧ low.value ≤ held.value ∧
    low.value ≤ amount.value ∧ (low = held ∨ low = amount) := by
  unfold lesser
  dsimp only
  by_cases below : amount.cmp held = .lt
  · rw [if_pos below]
    rw [AnalyticsEngine.Dec.cmp_eq, compare_lt_iff_lt] at below
    exact ⟨amount, rfl, below.le, le_rfl, .inr rfl⟩
  · rw [if_neg below]
    rw [AnalyticsEngine.Dec.cmp_eq, compare_lt_iff_lt, not_lt] at below
    exact ⟨held, rfl, le_rfl, below, .inl rfl⟩

theorem least_foldl (amounts : List Dec) (held : Dec) : ∃ low, amounts.foldl lesser (some held) = some low ∧
    low.value ≤ held.value ∧ (low = held ∨ low ∈ amounts) ∧ ∀ amount ∈ amounts, low.value ≤ amount.value := by
  induction amounts generalizing held with
  | nil => exact ⟨held, rfl, le_rfl, .inl rfl, fun _ member => absurd member List.not_mem_nil⟩
  | cons amount rest ih =>
    obtain ⟨first, same, before, after, which⟩ := lesser_some held amount
    obtain ⟨low, found, le, member, all⟩ := ih first
    refine ⟨low, by rw [List.foldl_cons, same, found], le.trans before, ?_, List.forall_mem_cons.mpr ⟨le.trans after, all⟩⟩
    rcases member with rfl | later
    · exact which.imp_right fun equal => List.mem_cons.mpr (.inl equal)
    · exact .inr (List.mem_cons_of_mem _ later)

/-- The least of some amounts is one of them, and none is less. -/
theorem least_spec (some' : amounts ≠ []) :
    ∃ low, least amounts = some low ∧ low ∈ amounts ∧ ∀ amount ∈ amounts, low.value ≤ amount.value := by
  cases amounts with
  | nil => exact absurd rfl some'
  | cons first rest =>
    obtain ⟨low, found, le, member, all⟩ := least_foldl rest first
    refine ⟨low, found, ?_, List.forall_mem_cons.mpr ⟨le, all⟩⟩
    rcases member with rfl | later
    · exact List.mem_cons_self
    · exact List.mem_cons_of_mem _ later

/-- A position that is read keeps its payout in the base. -/
theorem payoutOf_read {term : Position × Dec} (read : payoutOf job base position = .ok (.ok term)) :
    term.1 = position ∧ position.quantity.mul term.2 = paidOf job base position := by
  unfold payoutOf at read
  unfold paidOf
  cases record : job.instruments[position.instrumentId]? with
  | none =>
    rw [record] at read
    cases read
  | some held =>
    rw [record] at read
    dsimp only at read
    split at read
    · cases read
    · rw [Option.bind_some]
      cases stated : held.payout with
      | none =>
        rw [stated] at read
        cases read
      | some payout =>
        obtain ⟨payout, currency⟩ := payout
        rw [stated] at read
        dsimp only at read ⊢
        cases converted : conversion job currency base with
        | error why =>
          rw [converted] at read
          cases read
        | ok legs =>
          rw [converted] at read
          dsimp only at read ⊢
          split at read
          · cases read
          · cases read
            exact ⟨rfl, rfl⟩

/-- Whether a scenario is one where a contract pays. -/
def paysIn (scenario : Scenario) (instrument : String) : Bool :=
  decide (scenario.kind = OUTCOME ∧ scenario.outcomeInstrumentId = instrument)

theorem payoff_value {term : Position × Dec} (read : payoutOf job base position = .ok (.ok term)) (scenario : Scenario) :
    (payoff scenario term.1 term.2).value = brings job base (paysIn scenario position.instrumentId) position := by
  obtain ⟨same, paid⟩ := payoutOf_read read
  unfold payoff brings paysIn
  rw [same, paid]
  dsimp only
  rw [AnalyticsEngine.Dec.value_sub]
  by_cases here : scenario.kind = OUTCOME ∧ scenario.outcomeInstrumentId = position.instrumentId
  · rw [if_pos here, decide_eq_true here, if_pos rfl]
  · rw [if_neg here, decide_eq_false here, if_neg Bool.false_ne_true, Dec.value_zero]

/-- The terms read of some positions, with none of them failed, pay in a scenario what the positions bring in it. -/
theorem terms_value {read : List (Except (String × String × String) (Position × Dec))}
    (held : positions.mapM (payoutOf job base) = .ok read) (scenario : Scenario) (start : Dec)
    (none' : (read.filterMap fun
      | .error why => some why
      | .ok _ => none) = []) :
    (((read.filterMap fun
      | .error _ => none
      | .ok term => some term).foldl (fun total term => total.add (payoff scenario term.1 term.2)) start).value) =
      start.value + bringing job base (paysIn scenario) positions := by
  induction positions generalizing read start with
  | nil =>
    cases held
    simp [bringing]
  | cons position rest ih =>
    rw [List.mapM_cons] at held
    cases first : payoutOf job base position with
    | error bad =>
      rw [first] at held
      cases held
    | ok term =>
      rw [first] at held
      cases later : rest.mapM (payoutOf job base) with
      | error bad =>
        rw [later] at held
        cases held
      | ok others =>
        rw [later] at held
        cases held
        cases term with
        | error why => cases none'
        | ok term =>
          rw [List.filterMap_cons, List.foldl_cons, ih later (start.add (payoff scenario term.1 term.2)) none',
            AnalyticsEngine.Dec.value_add, payoff_value first, add_assoc]
          rfl

/-- A group's payoffs are, of each scenario, what its positions bring in it. -/
theorem payoffs_ok {out : List (Scenario × Dec)} (found : payoffs job group positions base = .ok (.ok out)) :
    out.map Prod.fst = scenariosOf group ∧ ∀ entry ∈ out, entry.2.value = bringing job base (paysIn entry.1)
      (positions.filter fun position => position.instrumentId ∈ group.members) := by
  unfold payoffs at found
  cases held : (positions.filter fun position => position.instrumentId ∈ group.members).mapM (payoutOf job base) with
  | error bad =>
    rw [held] at found
    cases found
  | ok read =>
    rw [held] at found
    change (if _ then _ else _) = _ at found
    split at found
    · cases found
    · next none' =>
      cases found
      refine ⟨?_, fun entry member => ?_⟩
      · rw [List.map_map]
        exact List.map_id _
      · obtain ⟨scenario, -, rfl⟩ := List.mem_map.mp member
        have total := terms_value held scenario Dec.zero (not_not.mp none')
        rw [Dec.value_zero, zero_add] at total
        exact total

/-- Which contracts may pay: of a mutually exclusive group at most one member, and of an exhaustive one at least one. -/
structure Resolves (group : Group) (pays : String → Bool) : Prop where
  atMost : ∀ a ∈ group.members, ∀ b ∈ group.members, pays a = true → pays b = true → a = b
  atLeast : group.exhaustive = EVENT_GROUP_FLAG_TRUE → group.members ≠ [] → ∃ member ∈ group.members, pays member = true

theorem paysIn_none (id : String) : paysIn (Scenario.of NONE_OF_THE_NAMED) id = false :=
  decide_eq_false fun both => absurd both.1 (by decide)

theorem paysIn_outcome (winner id : String) : paysIn (Scenario.outcome winner) id = true ↔ winner = id := by
  rw [paysIn, decide_eq_true_eq]
  exact and_iff_right rfl

/-- Every resolution of a group is one of its scenarios. -/
theorem scenario_of_resolves (exclusive : group.mutuallyExclusive = EVENT_GROUP_FLAG_TRUE) (some' : group.members ≠ [])
    (resolves : Resolves group pays) : ∃ scenario ∈ scenariosOf group, ∀ member ∈ group.members,
      paysIn scenario member = pays member := by
  by_cases one : ∃ member ∈ group.members, pays member = true
  · obtain ⟨winner, held, paid⟩ := one
    refine ⟨Scenario.outcome winner, List.mem_append.mpr (.inl (List.mem_map_of_mem held)), fun member inside => ?_⟩
    rw [Bool.eq_iff_iff, paysIn_outcome]
    constructor
    · rintro rfl
      exact paid
    · exact fun other => resolves.atMost winner held member inside paid other
  · have open_ : group.exhaustive ≠ EVENT_GROUP_FLAG_TRUE := fun full => one (resolves.atLeast full some')
    refine ⟨Scenario.of NONE_OF_THE_NAMED, List.mem_append.mpr (.inr ?_), fun member inside => ?_⟩
    · rw [if_pos ⟨exclusive, open_⟩]
      exact List.mem_singleton_self _
    · rw [paysIn_none]
      exact (Bool.eq_false_iff.mpr fun paid => one ⟨member, inside, paid⟩).symm

/-- And every scenario of a group is a resolution of it. -/
theorem resolves_of_scenario (member : scenario ∈ scenariosOf group) : Resolves group fun id => paysIn scenario id := by
  rcases List.mem_append.mp member with outcome | none'
  · obtain ⟨winner, held, rfl⟩ := List.mem_map.mp outcome
    refine ⟨fun a _ b _ first second => ?_, fun _ _ => ⟨winner, held, (paysIn_outcome winner winner).mpr rfl⟩⟩
    exact ((paysIn_outcome winner a).mp first).symm.trans ((paysIn_outcome winner b).mp second)
  · split_ifs at none' with unnamed
    · obtain rfl := List.mem_singleton.mp none'
      refine ⟨fun a _ b _ first _ => ?_, fun full => absurd full unnamed.2⟩
      rw [paysIn_none] at first
      cases first
    · cases none'

theorem bringing_congr (same : ∀ position ∈ positions, pays position.instrumentId = pays' position.instrumentId) :
    bringing job base pays positions = bringing job base pays' positions := by
  unfold bringing
  rw [List.map_congr_left fun position member => by rw [same position member]]

/-- A group's least payoff: no more than its positions bring however it resolves, and what they bring in some resolution. -/
theorem least_payoff {out : List (Scenario × Dec)} (found : payoffs job group inside base = .ok (.ok out))
    (exclusive : group.mutuallyExclusive = EVENT_GROUP_FLAG_TRUE) (within : ∀ position ∈ inside, position.instrumentId ∈ group.members)
    (some' : inside ≠ []) :
    (∀ pays, Resolves group pays → ((least (out.map Prod.snd)).getD Dec.zero).value ≤ bringing job base pays inside) ∧
      ∃ pays, Resolves group pays ∧ bringing job base pays inside = ((least (out.map Prod.snd)).getD Dec.zero).value := by
  obtain ⟨scenarios, values⟩ := payoffs_ok found
  have all : (inside.filter fun position => position.instrumentId ∈ group.members) = inside :=
    List.filter_eq_self.mpr fun position member => decide_eq_true (within position member)
  rw [all] at values
  have members : group.members ≠ [] := by
    obtain ⟨position, member⟩ := List.exists_mem_of_ne_nil inside some'
    exact List.ne_nil_of_mem (within position member)
  have outcomes : out.map Prod.snd ≠ [] := by
    have each : out ≠ [] := by
      rintro rfl
      obtain ⟨member, held⟩ := List.exists_mem_of_ne_nil _ members
      have scenario : Scenario.outcome member ∈ scenariosOf group := List.mem_append.mpr (.inl (List.mem_map_of_mem held))
      rw [← scenarios] at scenario
      cases scenario
    simpa using each
  obtain ⟨low, lowest, member, le⟩ := least_spec outcomes
  rw [lowest, Option.getD_some]
  constructor
  · intro pays resolves
    obtain ⟨scenario, listed, same⟩ := scenario_of_resolves exclusive members resolves
    rw [← scenarios] at listed
    obtain ⟨entry, held, rfl⟩ := List.mem_map.mp listed
    have bound := le entry.2 (List.mem_map_of_mem held)
    rwa [values entry held, bringing_congr fun position inside => same _ (within position inside)] at bound
  · obtain ⟨entry, held, rfl⟩ := List.mem_map.mp member
    have listed : entry.1 ∈ scenariosOf group := scenarios ▸ List.mem_map_of_mem held
    exact ⟨fun id => paysIn entry.1 id, resolves_of_scenario listed, (values entry held).symm⟩

/-- The positions in some instruments and in none of others. -/
def newIn (events : List Position) (done done' : List String) : List Position :=
  events.filter fun position => position.instrumentId ∈ done' ∧ position.instrumentId ∉ done

theorem newIn_self (events : List Position) (done : List String) : newIn events done done = [] :=
  List.filter_eq_nil_iff.mpr fun position _ => by simp

/-- What positions bring is what those of them bring that a test holds of, and those it does not. -/
theorem bringing_split (test : Position → Bool) (positions : List Position) : bringing job base pays positions =
    bringing job base pays (positions.filter test) + bringing job base pays (positions.filter fun position => !test position) := by
  induction positions with
  | nil => simp [bringing]
  | cons position rest ih =>
    have one : ∀ positions, bringing job base pays (position :: positions) =
        brings job base (pays position.instrumentId) position + bringing job base pays positions := fun _ => rfl
    rw [one, ih, List.filter_cons, List.filter_cons]
    cases test position
    · rw [if_neg Bool.false_ne_true, Bool.not_false, if_pos rfl, one]
      ring
    · rw [if_pos rfl, Bool.not_true, if_neg Bool.false_ne_true, one]
      ring

/-- What is new over two steps is what is new in each. -/
theorem bringing_newIn {middle : List String} (early : done ⊆ middle) (late : middle ⊆ done') :
    bringing job base pays (newIn events done done') =
      bringing job base pays (newIn events done middle) + bringing job base pays (newIn events middle done') := by
  rw [bringing_split (fun position => decide (position.instrumentId ∈ middle)) (newIn events done done'), newIn, List.filter_filter,
    List.filter_filter]
  congr 2
  · refine List.filter_congr fun position _ => ?_
    rw [Bool.eq_iff_iff]
    simp only [Bool.and_eq_true, decide_eq_true_eq]
    exact ⟨fun held => ⟨held.1, held.2.2⟩, fun held => ⟨held.1, late held.1, held.2⟩⟩
  · refine List.filter_congr fun position _ => ?_
    rw [Bool.eq_iff_iff]
    simp only [Bool.and_eq_true, Bool.not_eq_true', decide_eq_false_iff_not, decide_eq_true_eq]
    exact ⟨fun held => ⟨held.2.1, held.1⟩, fun held => ⟨held.2, held.1, fun before => held.2 (early before)⟩⟩

/-- The positions a group takes. -/
def insideOf (events : List Position) (group : Group) (done : List String) : List Position :=
  events.filter fun position => position.instrumentId ∈ group.members ∧ position.instrumentId ∉ done

theorem insideOf_members : ∀ position ∈ insideOf events group done, position.instrumentId ∈ group.members := fun _ member =>
  (of_decide_eq_true (List.mem_filter.mp member).2).1

theorem newIn_insideOf : newIn events done (done ++ (insideOf events group done).map Position.instrumentId) =
    insideOf events group done := by
  refine List.filter_congr fun position member => ?_
  rw [decide_eq_decide, List.mem_append, List.mem_map]
  constructor
  · rintro ⟨before | ⟨other, held, same⟩, apart⟩
    · exact absurd before apart
    · exact ⟨same ▸ insideOf_members other held, apart⟩
  · rintro ⟨within, apart⟩
    exact ⟨.inr ⟨position, List.mem_filter.mpr ⟨member, decide_eq_true ⟨within, apart⟩⟩, rfl⟩, apart⟩

/-- What a group does to the run over the groups: nothing, where it is not mutually exclusive or takes no position, or its least
payoff is added and its positions taken. -/
theorem overGroups_cons {rest : List Group}
    (ran : overGroups job base events (group :: rest) worst done = .ok (some (worst', done'))) :
    ((group.mutuallyExclusive ≠ EVENT_GROUP_FLAG_TRUE ∨ insideOf events group done = []) ∧
        overGroups job base events rest worst done = .ok (some (worst', done'))) ∨
      (group.mutuallyExclusive = EVENT_GROUP_FLAG_TRUE ∧ insideOf events group done ≠ [] ∧
        ∃ out, payoffs job group (insideOf events group done) base = .ok (.ok out) ∧
          overGroups job base events rest (worst.add ((least (out.map Prod.snd)).getD Dec.zero))
            (done ++ (insideOf events group done).map Position.instrumentId) = .ok (some (worst', done'))) := by
  rw [overGroups] at ran
  by_cases exclusive : group.mutuallyExclusive = EVENT_GROUP_FLAG_TRUE
  · rw [if_neg (not_not.mpr exclusive)] at ran
    change (if insideOf events group done = [] then _ else _) = _ at ran
    by_cases empty : insideOf events group done = []
    · rw [if_pos empty] at ran
      exact .inl ⟨.inr empty, ran⟩
    · rw [if_neg empty] at ran
      refine .inr ⟨exclusive, empty, ?_⟩
      cases found : payoffs job group (insideOf events group done) base with
      | error bad =>
        change (payoffs job group (insideOf events group done) base >>= _) = _ at ran
        rw [found] at ran
        cases ran
      | ok answer =>
        change (payoffs job group (insideOf events group done) base >>= _) = _ at ran
        rw [found] at ran
        cases answer with
        | error why => cases ran
        | ok out => exact ⟨out, rfl, ran⟩
  · rw [if_pos exclusive] at ran
    exact .inl ⟨.inl exclusive, ran⟩

/-- What the run over the groups takes: every position in a mutually exclusive group, and none but those and what it had. -/
theorem overGroups_done (ran : overGroups job base events groups worst done = .ok (some (worst', done'))) : done ⊆ done' ∧
    (∀ id ∈ done', id ∈ done ∨ ∃ group ∈ groups, group.mutuallyExclusive = EVENT_GROUP_FLAG_TRUE ∧ id ∈ group.members) ∧
    ∀ group ∈ groups, group.mutuallyExclusive = EVENT_GROUP_FLAG_TRUE → ∀ position ∈ events,
      position.instrumentId ∈ group.members → position.instrumentId ∈ done' := by
  induction groups generalizing worst done with
  | nil =>
    cases ran
    exact ⟨List.Subset.refl _, fun id held => .inl held, fun group member => absurd member List.not_mem_nil⟩
  | cons group rest ih =>
    rcases overGroups_cons ran with ⟨skipped, later⟩ | ⟨exclusive, some', out, found, later⟩
    · obtain ⟨kept, only, all⟩ := ih later
      refine ⟨kept, fun id held => ?_, List.forall_mem_cons.mpr ⟨fun exclusive position member within => ?_, all⟩⟩
      · exact (only id held).imp_right fun ⟨other, member, facts⟩ => ⟨other, List.mem_cons_of_mem _ member, facts⟩
      · have empty := skipped.resolve_left (not_not.mpr exclusive)
        by_contra apart
        have inside : position ∈ insideOf events group done :=
          List.mem_filter.mpr ⟨member, decide_eq_true ⟨within, fun before => apart (kept before)⟩⟩
        rw [empty] at inside
        cases inside
    · obtain ⟨kept, only, all⟩ := ih later
      refine ⟨fun id held => kept (List.mem_append.mpr (.inl held)), fun id held => ?_,
        List.forall_mem_cons.mpr ⟨fun _ position member within => kept ?_, all⟩⟩
      · rcases only id held with before | ⟨other, member, facts⟩
        · rcases List.mem_append.mp before with before | now
          · exact .inl before
          · obtain ⟨position, inside, rfl⟩ := List.mem_map.mp now
            exact .inr ⟨group, List.mem_cons_self, exclusive, insideOf_members position inside⟩
        · exact .inr ⟨other, List.mem_cons_of_mem _ member, facts⟩
      · by_cases before : position.instrumentId ∈ done
        · exact List.mem_append.mpr (.inl before)
        · exact List.mem_append.mpr (.inr (List.mem_map_of_mem (List.mem_filter.mpr ⟨member, decide_eq_true ⟨within, before⟩⟩)))

/-- The groups' least payoffs are together no more than what the positions taken bring, however the groups resolve. -/
theorem overGroups_le (ran : overGroups job base events groups worst done = .ok (some (worst', done')))
    (resolves : ∀ group ∈ groups, group.mutuallyExclusive = EVENT_GROUP_FLAG_TRUE → Resolves group pays) :
    worst'.value ≤ worst.value + bringing job base pays (newIn events done done') := by
  induction groups generalizing worst done with
  | nil =>
    cases ran
    rw [newIn_self]
    simp [bringing]
  | cons group rest ih =>
    obtain ⟨own, others⟩ := List.forall_mem_cons.mp resolves
    rcases overGroups_cons ran with ⟨-, later⟩ | ⟨exclusive, some', out, found, later⟩
    · exact ih later others
    · have bound := ih later others
      have low := (least_payoff found exclusive insideOf_members some').1 pays (own exclusive)
      have after := (overGroups_done later).1
      rw [bringing_newIn (fun id held => List.mem_append.mpr (.inl held)) after, newIn_insideOf]
      rw [AnalyticsEngine.Dec.value_add] at bound
      linarith

theorem Resolves.congr (resolves : Resolves group pays) (same : ∀ member ∈ group.members, pays' member = pays member) :
    Resolves group pays' := by
  refine ⟨fun a first b second one two => ?_, fun full some' => ?_⟩
  · exact resolves.atMost a first b second (same a first ▸ one) (same b second ▸ two)
  · obtain ⟨member, held, paid⟩ := resolves.atLeast full some'
    exact ⟨member, held, (same member held).trans paid⟩

/-- No two mutually exclusive groups share a member. -/
def Apart (groups : List Group) : Prop :=
  (groups.filter fun group => group.mutuallyExclusive = EVENT_GROUP_FLAG_TRUE).Pairwise fun a b =>
    ∀ member ∈ a.members, member ∉ b.members

/-- A group that takes nothing resolves some way. -/
theorem exists_resolves (group : Group) : ∃ pays, Resolves group pays := by
  refine ⟨fun id => decide (group.members.head? = some id), fun a _ b _ first second => ?_, fun _ some' => ?_⟩
  · exact Option.some.inj ((of_decide_eq_true first).symm.trans (of_decide_eq_true second))
  · cases members : group.members with
    | nil => exact absurd members some'
    | cons first rest => exact ⟨first, List.mem_cons_self, by simp⟩

/-- Where no two groups share a member, their least payoffs are together what the positions taken bring in some resolution. -/
theorem overGroups_reached (ran : overGroups job base events groups worst done = .ok (some (worst', done'))) (apart : Apart groups) :
    ∃ pays, (∀ group ∈ groups, group.mutuallyExclusive = EVENT_GROUP_FLAG_TRUE → Resolves group pays) ∧
      worst'.value = worst.value + bringing job base pays (newIn events done done') := by
  induction groups generalizing worst done with
  | nil =>
    cases ran
    refine ⟨fun _ => false, fun group member => absurd member List.not_mem_nil, ?_⟩
    rw [newIn_self]
    simp [bringing]
  | cons group rest ih =>
    by_cases exclusive : group.mutuallyExclusive = EVENT_GROUP_FLAG_TRUE
    · unfold Apart at apart
      rw [List.filter_cons, if_pos (decide_eq_true exclusive), List.pairwise_cons] at apart
      -- A resolution of the group, the rest's kept off its members.
      have join : ∀ own pays, Resolves group own →
          (∀ other ∈ rest, other.mutuallyExclusive = EVENT_GROUP_FLAG_TRUE → Resolves other pays) →
          ∀ other ∈ group :: rest, other.mutuallyExclusive = EVENT_GROUP_FLAG_TRUE →
            Resolves other fun id => if id ∈ group.members then own id else pays id := by
        intro own pays resolves others
        refine List.forall_mem_cons.mpr ⟨fun _ => resolves.congr fun member held => if_pos held, fun other member exclusive' => ?_⟩
        refine (others other member exclusive').congr fun id held => if_neg fun shared => ?_
        exact apart.1 other (List.mem_filter.mpr ⟨member, decide_eq_true exclusive'⟩) id shared held
      have off : ∀ middle mid, overGroups job base events rest mid middle = .ok (some (worst', done')) →
          ∀ own pays : String → Bool, bringing job base (fun id => if id ∈ group.members then own id else pays id)
            (newIn events middle done') = bringing job base pays (newIn events middle done') := by
        intro middle mid later own pays
        refine bringing_congr fun position member => if_neg fun shared => ?_
        obtain ⟨held, fresh⟩ := of_decide_eq_true (List.mem_filter.mp member).2
        rcases (overGroups_done later).2.1 _ held with before | ⟨other, listed, exclusive', within⟩
        · exact fresh before
        · exact apart.1 other (List.mem_filter.mpr ⟨listed, decide_eq_true exclusive'⟩) _ shared within
      rcases overGroups_cons ran with ⟨-, later⟩ | ⟨-, some', out, found, later⟩
      · obtain ⟨pays, resolves, sum⟩ := ih later apart.2
        obtain ⟨own, mine⟩ := exists_resolves group
        exact ⟨_, join own pays mine resolves, by rw [off _ _ later, sum]⟩
      · obtain ⟨pays, resolves, sum⟩ := ih later apart.2
        obtain ⟨own, mine, low⟩ := (least_payoff found exclusive insideOf_members some').2
        refine ⟨_, join own pays mine resolves, ?_⟩
        have inside : bringing job base (fun id => if id ∈ group.members then own id else pays id) (insideOf events group done) =
            bringing job base own (insideOf events group done) :=
          bringing_congr fun position member => if_pos (insideOf_members position member)
        rw [bringing_newIn (fun id held => List.mem_append.mpr (.inl held)) (overGroups_done later).1, newIn_insideOf, inside, low,
          off _ _ later, sum, AnalyticsEngine.Dec.value_add, add_assoc]
    · have others : Apart rest := by
        unfold Apart at apart
        rwa [List.filter_cons, if_neg (by simpa using exclusive)] at apart
      rcases overGroups_cons ran with ⟨-, later⟩ | ⟨exclusive', -⟩
      · obtain ⟨pays, resolves, sum⟩ := ih later others
        exact ⟨pays, List.forall_mem_cons.mpr ⟨fun exclusive' => absurd exclusive' exclusive, resolves⟩, sum⟩
      · exact absurd exclusive' exclusive

theorem value_neg_iff (dec : Dec) : dec.value < 0 ↔ dec.integer.value < 0 := by
  have power : (0 : ℚ) < 10 ^ dec.scale.toNat := by positivity
  rw [AnalyticsEngine.Dec.value, div_lt_iff₀ power, zero_mul]
  exact_mod_cast Iff.rfl

theorem value_pos_iff (dec : Dec) : 0 < dec.value ↔ 0 < dec.integer.value := by
  have power : (0 : ℚ) < 10 ^ dec.scale.toNat := by positivity
  rw [AnalyticsEngine.Dec.value, lt_div_iff₀ power, zero_mul]
  exact_mod_cast Iff.rfl

theorem signum_neg_iff (dec : Dec) : dec.signum < 0 ↔ dec.value < 0 := by
  rw [AnalyticsEngine.Dec.signum, Num.signum_eq, Int.sign_neg_iff, value_neg_iff]

theorem value_mul_assoc (a b c : Dec) : ((a.mul b).mul c).value = (a.mul (b.mul c)).value := by
  unfold AnalyticsEngine.Dec.mul AnalyticsEngine.Dec.value
  dsimp only
  rw [Num.value_mul, Num.value_mul, Num.value_mul, Num.value_mul, mul_assoc, UInt32.add_assoc]

/-- Of two quantities of one payout, one paid below nothing and one above it, one is short and the other long. -/
theorem opposed_of_paid {a b c : Dec} (below : (a.mul c).value < 0) (above : 0 < (b.mul c).value) :
    (a.value < 0 ∧ 0 < b.value) ∨ (b.value < 0 ∧ 0 < a.value) := by
  have product : ∀ d : Dec, (d.mul c).integer.value = d.integer.value * c.integer.value := fun d => Num.value_mul _ _
  rw [value_neg_iff, product, mul_neg_iff] at below
  rw [value_pos_iff, product, mul_pos_iff] at above
  rw [value_neg_iff, value_pos_iff, value_neg_iff, value_pos_iff]
  omega

/-- What a position in no group counts for: the worse of paying and not. -/
def floorOf (job : Case) (base : String) (position : Position) : ℚ :=
  min (paidOf job base position).value 0 - (position.cost.getD Dec.zero).value

theorem floorOf_le (pay : Bool) (position : Position) : floorOf job base position ≤ brings job base pay position := by
  unfold floorOf brings
  refine sub_le_sub_right ?_ _
  cases pay
  · exact min_le_right _ _
  · exact min_le_left _ _

/-- The run over the positions in no group adds what each counts for. -/
theorem overOthers_value (ran : overOthers job base done positions worst = some worst') : worst'.value =
    worst.value + ((positions.filter fun position => decide (position.instrumentId ∉ done)).map (floorOf job base)).sum := by
  induction positions generalizing worst with
  | nil =>
    cases ran
    simp
  | cons position rest ih =>
    rw [overOthers] at ran
    by_cases taken : position.instrumentId ∈ done
    · rw [if_pos taken] at ran
      rw [ih ran, List.filter_cons, if_neg (by simpa using taken)]
    · rw [if_neg taken] at ran
      obtain ⟨record, held, ran⟩ := Option.bind_eq_some_iff.mp ran
      obtain ⟨⟨payout, currency⟩, stated, ran⟩ := Option.bind_eq_some_iff.mp ran
      obtain ⟨cost, costed, ran⟩ := Option.bind_eq_some_iff.mp ran
      obtain ⟨legs, converted, ran⟩ := Option.bind_eq_some_iff.mp ran
      rw [List.filter_cons, if_pos (decide_eq_true taken), List.map_cons, List.sum_cons, ih ran, AnalyticsEngine.Dec.value_add,
        AnalyticsEngine.Dec.value_sub, ← add_assoc]
      congr 2
      have read : paidOf job base position = position.quantity.mul (payout.mul (product legs)) := by
        unfold paidOf
        rw [held, Option.bind_some, stated]
        dsimp only
        cases chosen : conversion job currency base with
        | error why =>
          rw [chosen] at converted
          cases converted
        | ok found =>
          rw [chosen] at converted
          cases converted
          rfl
      unfold floorOf
      rw [read, costed, Option.getD_some, ← value_mul_assoc]
      split_ifs with below
      · rw [signum_neg_iff] at below
        rw [min_eq_left below.le]
      · rw [signum_neg_iff, not_lt] at below
        rw [min_eq_right below, Dec.value_zero]

/-- Whether a contract is a member of a mutually exclusive group. -/
def grouped (job : Case) (id : String) : Bool :=
  job.groups.valuesOf.any fun group => decide (group.mutuallyExclusive = EVENT_GROUP_FLAG_TRUE ∧ id ∈ group.members)

theorem grouped_iff {id : String} : grouped job id = true ↔
    ∃ group ∈ job.groups.valuesOf, group.mutuallyExclusive = EVENT_GROUP_FLAG_TRUE ∧ id ∈ group.members := by
  rw [grouped, List.any_eq_true]
  simp only [decide_eq_true_eq]

/-- No contract in no group is held both short and long. -/
def OneSided (job : Case) (events : List Position) : Prop :=
  ∀ p ∈ events, ∀ q ∈ events, p.instrumentId = q.instrumentId → grouped job p.instrumentId = false →
    ¬(p.quantity.value < 0 ∧ 0 < q.quantity.value)

/-- A resolution of every mutually exclusive group. -/
def Outcome (job : Case) (pays : String → Bool) : Prop :=
  ∀ group ∈ job.groups.valuesOf, group.mutuallyExclusive = EVENT_GROUP_FLAG_TRUE → Resolves group pays

/-- How a contract in no group pays in the worst case. -/
def worse (job : Case) (base : String) (events : List Position) (id : String) : Bool :=
  events.any fun position => position.instrumentId == id && decide ((paidOf job base position).value < 0)

/-- What a contract is paid is its quantity of one payout, or nothing where it has none. -/
theorem paidOf_each (job : Case) (base id : String) : ∃ each : Dec, ∀ position : Position, position.instrumentId = id →
    paidOf job base position = position.quantity.mul each ∨ paidOf job base position = Dec.zero := by
  cases stated : (job.instruments[id]?).bind Instrument.payout with
  | none =>
    refine ⟨Dec.zero, fun position same => .inr ?_⟩
    unfold paidOf
    rw [same, stated]
  | some payout =>
    obtain ⟨payout, currency⟩ := payout
    cases converted : conversion job currency base with
    | error why =>
      refine ⟨Dec.zero, fun position same => .inr ?_⟩
      unfold paidOf
      rw [same, stated]
      dsimp only
      rw [converted]
    | ok legs =>
      refine ⟨payout.mul (product legs), fun position same => .inl ?_⟩
      unfold paidOf
      rw [same, stated]
      dsimp only
      rw [converted]

/-- A position counts for what it brings where its contract pays the worse way, with no other of its contract held the other way. -/
theorem floorOf_reached (one : OneSided job events) (member : position ∈ events) (free : grouped job position.instrumentId = false) :
    floorOf job base position = brings job base (worse job base events position.instrumentId) position := by
  unfold floorOf brings
  congr 1
  by_cases low : worse job base events position.instrumentId = true
  · rw [if_pos low, min_eq_left]
    obtain ⟨other, held, facts⟩ := List.any_eq_true.mp low
    rw [Bool.and_eq_true, beq_iff_eq, decide_eq_true_eq] at facts
    obtain ⟨same, below⟩ := facts
    by_contra above
    rw [not_le] at above
    obtain ⟨each, paid⟩ := paidOf_each job base position.instrumentId
    have mine : paidOf job base position = position.quantity.mul each := by
      refine (paid position rfl).resolve_right fun zero => ?_
      rw [zero, Dec.value_zero] at above
      exact lt_irrefl _ above
    have its : paidOf job base other = other.quantity.mul each := by
      refine (paid other same).resolve_right fun zero => ?_
      rw [zero, Dec.value_zero] at below
      exact lt_irrefl _ below
    rw [mine] at above
    rw [its] at below
    rcases opposed_of_paid below above with opposed | opposed
    · exact one other held position member same (same ▸ free) opposed
    · exact one position member other held same.symm free opposed
  · rw [if_neg low, min_eq_right]
    by_contra below
    refine low (List.any_eq_true.mpr ⟨position, member, ?_⟩)
    rw [Bool.and_eq_true, beq_iff_eq, decide_eq_true_eq]
    exact ⟨rfl, not_le.mp below⟩

theorem overGroups_nil (job : Case) (base : String) (groups : List Group) (worst : Dec) (done : List String) :
    overGroups job base [] groups worst done = .ok (some (worst, done)) := by
  induction groups generalizing worst done with
  | nil => rfl
  | cons group rest ih =>
    rw [overGroups]
    split
    · exact ih worst done
    · exact ih worst done

/-- A worst resolution is the groups' and, over it, that of the positions they did not take. -/
theorem worstResolution_cases {held : List Position} (found : worstResolution job held base = .ok (some worst)) :
    ∃ middle done, overGroups job base (held.filter (isEvent job)) job.groups.valuesOf Dec.zero [] = .ok (some (middle, done)) ∧
      overOthers job base done (held.filter (isEvent job)) middle = some worst := by
  unfold worstResolution at found
  dsimp only at found
  by_cases none' : held.filter (isEvent job) = []
  · rw [if_pos none'] at found
    cases found
    exact ⟨Dec.zero, [], by rw [none', overGroups_nil], by rw [none', overOthers]⟩
  · rw [if_neg none'] at found
    cases ran : overGroups job base (held.filter (isEvent job)) job.groups.valuesOf Dec.zero [] with
    | error bad =>
      rw [ran] at found
      cases found
    | ok answer =>
      rw [ran] at found
      cases answer with
      | none => cases found
      | some taken =>
        obtain ⟨middle, done⟩ := taken
        exact ⟨middle, done, rfl, Except.ok.inj found⟩

/-- The run over the groups takes the positions of the contracts in one, and only those. -/
theorem taken_iff (ran : overGroups job base events job.groups.valuesOf worst [] = .ok (some (worst', done)))
    (member : position ∈ events) : position.instrumentId ∈ done ↔ grouped job position.instrumentId = true := by
  obtain ⟨-, only, all⟩ := overGroups_done ran
  rw [grouped_iff]
  constructor
  · exact fun taken => (only _ taken).resolve_left List.not_mem_nil
  · rintro ⟨group, listed, exclusive, within⟩
    exact all group listed exclusive position member within

/-- What the positions bring, the ones the groups take and the others. -/
theorem bringing_taken (job : Case) (base : String) (pays : String → Bool) (events : List Position) (done : List String) :
    bringing job base pays events = bringing job base pays (newIn events [] done) +
      ((events.filter fun position => decide (position.instrumentId ∉ done)).map fun position =>
        brings job base (pays position.instrumentId) position).sum := by
  rw [bringing_split (fun position => decide (position.instrumentId ∈ done)) events]
  congr 1
  · rw [newIn]
    simp
  · simp [bringing]

/-- The worst resolution is no more than the P&L of any outcome in which each mutually exclusive group has at most one of its
members pay, and one of them where it is exhaustive. It is that of such an outcome, where no two of the groups share a member
and no contract in none of them is held both short and long. -/
theorem worstResolution_spec (job : Case) (held : List Position) (base : String) (worst : Dec)
    (found : worstResolution job held base = .ok (some worst)) :
    (∀ pays, Outcome job pays → worst.value ≤ profit job held base pays) ∧
      (Apart job.groups.valuesOf → OneSided job (held.filter (isEvent job)) →
        ∃ pays, Outcome job pays ∧ profit job held base pays = worst.value) := by
  obtain ⟨middle, done, ran, others⟩ := worstResolution_cases found
  have total := overOthers_value others
  constructor
  · intro pays outcome
    have low := overGroups_le ran outcome
    rw [Dec.value_zero, zero_add] at low
    rw [profit, bringing_taken job base pays _ done, total]
    exact add_le_add low (List.sum_le_sum fun position _ => floorOf_le _ position)
  · intro apart one
    obtain ⟨inGroups, resolved, sum⟩ := overGroups_reached ran apart
    rw [Dec.value_zero, zero_add] at sum
    let pays id := if grouped job id then inGroups id else worse job base (held.filter (isEvent job)) id
    refine ⟨pays, fun group listed exclusive => (resolved group listed exclusive).congr fun id within => ?_, ?_⟩
    · exact if_pos (grouped_iff.mpr ⟨group, listed, exclusive, within⟩)
    · rw [profit, bringing_taken job base pays _ done, total, sum]
      congr 1
      · refine bringing_congr fun position member => if_pos ?_
        obtain ⟨inside, taken⟩ := List.mem_filter.mp member
        exact (taken_iff ran inside).mp (of_decide_eq_true taken).1
      · refine congrArg List.sum (List.map_congr_left fun position member => ?_)
        obtain ⟨inside, free⟩ := List.mem_filter.mp member
        have free' : grouped job position.instrumentId = false :=
          Bool.eq_false_iff.mpr fun taken => of_decide_eq_true free ((taken_iff ran inside).mpr taken)
        rw [floorOf_reached one inside free']
        dsimp only [pays]
        rw [if_neg (by rw [free']; exact Bool.false_ne_true)]

end

def whole (n : Int) : Dec := ⟨Num.fromBig (if n < 0 then (Big.fromU128 n.natAbs).negated else Big.fromU128 n.natAbs), 0⟩

/-- Two contracts of which one pays, and a third in no group, each a dollar. -/
def oneOfTwo : Case where
  instruments := (((∅ : BTreeMap String Instrument).insert "a" ⟨"binary_event", some (Dec.one, "USD"), ""⟩).insert "b"
    ⟨"binary_event", some (Dec.one, "USD"), ""⟩).insert "c" ⟨"binary_event", some (Dec.one, "USD"), ""⟩
  market := []
  groups := (∅ : BTreeMap String Group).insert "g" ⟨"g", ["a", "b"], EVENT_GROUP_FLAG_TRUE, EVENT_GROUP_FLAG_TRUE⟩
  staleAfter := ∅
  lakeAsOfNs := 0
  pivots := []

/-- Both of the two held long and the third short. -/
def bothLong : List Position :=
  [⟨"a", whole 10, some (whole 4)⟩, ⟨"b", whole 10, some (whole 5)⟩, ⟨"c", whole (-5), some (whole (-3))⟩]

theorem oneOfTwo_reached : worstResolution oneOfTwo bothLong "USD" = .ok (some (whole (-1))) ∧
    (∀ pays, Outcome oneOfTwo pays → (whole (-1)).value ≤ profit oneOfTwo bothLong "USD" pays) ∧
    ∃ pays, Outcome oneOfTwo pays ∧ profit oneOfTwo bothLong "USD" pays = (whole (-1)).value := by
  have found : worstResolution oneOfTwo bothLong "USD" = .ok (some (whole (-1))) := by decide +kernel
  obtain ⟨low, reached⟩ := worstResolution_spec oneOfTwo bothLong "USD" (whole (-1)) found
  refine ⟨found, low, reached ?_ ?_⟩
  · unfold Apart
    decide +kernel
  · unfold OneSided
    decide +kernel

/-- Neither of the two paying is less, and gives the group no more than one of its members: one of an exhaustive group pays. -/
theorem oneOfTwo_neither : worstResolution oneOfTwo bothLong "USD" = .ok (some (whole (-1))) ∧
    (∀ group ∈ oneOfTwo.groups.valuesOf, ∀ a ∈ group.members, ∀ b ∈ group.members, (a == "c") = true → (b == "c") = true → a = b) ∧
    profit oneOfTwo bothLong "USD" (fun id => id == "c") < (whole (-1)).value := by
  decide +kernel

end MeridianCore.AnalyticsEngine.Pricing
