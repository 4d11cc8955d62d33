import MeridianCore.AnalyticsEngine.Pricing.Model

/-! The chains a conversion may take, in their own terms, and that the walk meets each of them and no other. The one returned
is the least: no two chains are ordered alike, so the order the walk meets them in does not tell. -/

namespace MeridianCore.AnalyticsEngine.Pricing

/-- Legs each from where the one before it leads. -/
def Joined : String → List Leg → String → Prop
  | at_, [], to_ => at_ = to_
  | at_, leg :: rest, to_ => leg.fromId = at_ ∧ Joined leg.toId rest to_

/-- A leg at a price of the currency in hand in another instrument, its rank its kind's. -/
def Own (job : Case) (leg : Leg) : Prop :=
  ∃ kind price, (kind, leg.kindRank) ∈ CONVERSION_KINDS.zipIdx ∧ job.priceIn leg.fromId kind leg.toId = some price ∧
    leg = Leg.direct price leg.kindRank

/-- A leg to the base, inverted or crossed, where the lake has no rate of its own to it. -/
def Made (job : Case) (base : String) (leg : Leg) : Prop :=
  leg.toId = base ∧ direct job leg.fromId base = none ∧ derived job leg.fromId base = some leg

/-- A chain from `held` to `base` along distinct currencies, no longer than the most. -/
structure Converts (job : Case) (held base : String) (legs : List Leg) : Prop where
  joined : Joined held legs base
  distinct : (held :: legs.map Leg.toId).Nodup
  each : ∀ leg ∈ legs, Own job leg ∨ Made job base leg
  short : counted legs ≤ MOST_LEGS

/-- The chain before every other. -/
def Least (job : Case) (held base : String) (legs : List Leg) : Prop :=
  Converts job held base legs ∧ ∀ other, Converts job held base other → other ≠ legs → (keep legs).key < (keep other).key

/-- No price under a chain is stale. -/
def Fresh (job : Case) (legs : List Leg) : Prop := ∀ leg ∈ legs, ∀ factor ∈ leg.factors, job.stale factor.1 = false

section
variable {job : Case} {base held at_ to_ pivot : String} {legs rest other : List Leg} {leg : Leg} {price : Price} {rank left : Nat}
  {seen : List String}

/-- A search over the kinds finds what it finds of one of them. -/
theorem findSome?_zipIdx {α : Type} {f : String × Nat → Option α} {found : α}
    (some' : CONVERSION_KINDS.zipIdx.findSome? f = some found) : ∃ pair ∈ CONVERSION_KINDS.zipIdx, f pair = some found :=
  List.exists_of_findSome?_eq_some some'

theorem direct_fields (found : direct job at_ to_ = some leg) : ∃ kind price, (kind, leg.kindRank) ∈ CONVERSION_KINDS.zipIdx ∧
    job.priceIn at_ kind to_ = some price ∧ leg = Leg.direct price leg.kindRank := by
  obtain ⟨⟨kind, rank⟩, member, same⟩ := findSome?_zipIdx found
  obtain ⟨price, held, rfl⟩ := Option.map_eq_some_iff.mp same
  exact ⟨kind, price, member, held, rfl⟩

theorem inverted_fields (found : inverted job at_ to_ = some leg) : leg.fromId = at_ ∧ leg.toId = to_ ∧
    leg.derivation = INVERTED ∧ ∃ kind price, job.priceIn to_ kind at_ = some price ∧ leg.factors = [(price, -1)] := by
  obtain ⟨⟨kind, rank⟩, -, same⟩ := findSome?_zipIdx found
  obtain ⟨price, held, same⟩ := Option.bind_eq_some_iff.mp same
  split_ifs at same with zero
  obtain ⟨rate, -, same⟩ := Option.bind_eq_some_iff.mp same
  cases same
  exact ⟨rfl, rfl, rfl, kind, price, held, rfl⟩

theorem crossed_fields (found : crossed job at_ to_ pivot = some leg) : leg.fromId = at_ ∧ leg.toId = to_ ∧
    leg.derivation = CROSSED ∧ ∃ first second, either job at_ pivot = some first ∧ either job pivot to_ = some second ∧
      leg.factors = first.factors ++ second.factors := by
  unfold crossed at found
  split_ifs at found
  obtain ⟨first, one, found⟩ := Option.bind_eq_some_iff.mp found
  obtain ⟨second, two, found⟩ := Option.bind_eq_some_iff.mp found
  cases found
  exact ⟨rfl, rfl, rfl, first, second, one, two, rfl⟩

theorem derived_cases (found : derived job at_ to_ = some leg) :
    inverted job at_ to_ = some leg ∨ ∃ pivot ∈ job.pivots, crossed job at_ to_ pivot = some leg := by
  unfold derived at found
  split_ifs at found
  split at found
  · next back => exact .inl (back.trans found)
  · exact .inr (List.exists_of_findSome?_eq_some found)

theorem derived_ends (found : derived job at_ to_ = some leg) :
    leg.fromId = at_ ∧ leg.toId = to_ ∧ derivationRank leg.derivation ≠ 0 := by
  rcases derived_cases found with back | ⟨pivot, -, cross⟩
  · obtain ⟨from_, into, how, -⟩ := inverted_fields back
    exact ⟨from_, into, by rw [how]; decide⟩
  · obtain ⟨from_, into, how, -⟩ := crossed_fields cross
    exact ⟨from_, into, by rw [how]; decide⟩

/-- The prices under a leg are prices held. -/
theorem direct_held (found : direct job at_ to_ = some leg) : ∀ factor ∈ leg.factors, factor.1 ∈ job.market := by
  obtain ⟨kind, price, -, held, same⟩ := direct_fields found
  rw [same]
  intro factor member
  obtain rfl := List.mem_singleton.mp member
  exact (priceIn_held held).1

theorem inverted_held (found : inverted job at_ to_ = some leg) : ∀ factor ∈ leg.factors, factor.1 ∈ job.market := by
  obtain ⟨-, -, -, kind, price, held, factors⟩ := inverted_fields found
  rw [factors]
  intro factor member
  obtain rfl := List.mem_singleton.mp member
  exact (priceIn_held held).1

theorem either_held (found : either job at_ to_ = some leg) : ∀ factor ∈ leg.factors, factor.1 ∈ job.market := by
  rcases Option.or_eq_some_iff.mp found with own | ⟨-, back⟩
  · exact direct_held own
  · exact inverted_held back

theorem derived_held (found : derived job at_ to_ = some leg) : ∀ factor ∈ leg.factors, factor.1 ∈ job.market := by
  rcases derived_cases found with back | ⟨pivot, -, cross⟩
  · exact inverted_held back
  · obtain ⟨-, -, -, first, second, one, two, factors⟩ := crossed_fields cross
    rw [factors]
    intro factor member
    rcases List.mem_append.mp member with before | after
    · exact either_held one factor before
    · exact either_held two factor after

theorem Own.factors_held (own : Own job leg) : ∀ factor ∈ leg.factors, factor.1 ∈ job.market := by
  obtain ⟨kind, price, -, found, same⟩ := own
  rw [same]
  intro factor member
  obtain rfl := List.mem_singleton.mp member
  exact (priceIn_held found).1

theorem Converts.factors_held (converts : Converts job held base legs) : ∀ leg ∈ legs, ∀ factor ∈ leg.factors, factor.1 ∈ job.market := by
  intro leg member
  rcases converts.each leg member with own | ⟨-, -, made⟩
  · exact own.factors_held
  · exact derived_held made

/-- A chain to a currency reaches it. -/
theorem Joined.reaches (joined : Joined at_ legs to_) (some' : legs ≠ []) : to_ ∈ legs.map Leg.toId := by
  induction legs generalizing at_ with
  | nil => exact absurd rfl some'
  | cons leg rest ih =>
    obtain ⟨-, later⟩ := joined
    cases rest with
    | nil => exact List.mem_singleton.mpr later.symm
    | cons next rest => exact List.mem_cons_of_mem _ (ih later (List.cons_ne_nil _ _))

theorem counted_append (legs rest : List Leg) : counted (legs ++ rest) = counted legs + counted rest := by
  simp [counted]

theorem length_le_counted (legs : List Leg) : legs.length ≤ counted legs := by
  induction legs with
  | nil => exact le_rfl
  | cons leg rest ih =>
    have one : counted (leg :: rest) = (if leg.derivation = CROSSED then 2 else 1) + counted rest := rfl
    rw [List.length_cons, one]
    split_ifs <;> omega

theorem counted_direct (price : Price) (rank : Nat) : counted [Leg.direct price rank] = 1 := by
  have apart : DIRECT ≠ CROSSED := by decide
  simp [counted, Leg.direct, apart]

/-- At the base a chain goes no further. -/
theorem keep_iff {chain : Chain} (reached : at_ = base) (here : at_ ∈ seen) (short : counted legs ≤ MOST_LEGS) :
    chain = keep legs ↔ ∃ rest, chain = keep (legs ++ rest) ∧ Joined at_ rest base ∧ (rest.map Leg.toId).Nodup ∧
      (∀ id ∈ rest.map Leg.toId, id ∉ seen) ∧ (∀ leg ∈ rest, Own job leg ∨ Made job base leg) ∧
      counted (legs ++ rest) ≤ MOST_LEGS := by
  constructor
  · rintro rfl
    exact ⟨[], by rw [List.append_nil], reached, List.nodup_nil, nofun, nofun, by rwa [List.append_nil]⟩
  · rintro ⟨rest, rfl, joined, -, apart, -, -⟩
    have none' : rest = [] := by
      by_contra some'
      exact apart base (joined.reaches some') (reached ▸ here)
    rw [none', List.append_nil]

/-- The chains kept at a currency whose last leg is inverted or crossed. -/
theorem mem_last {chain : Chain} : (chain ∈ if (direct job at_ base).isNone then
      match derived job at_ base with
      | some leg => if counted (legs ++ [leg]) ≤ MOST_LEGS then [keep (legs ++ [leg])] else []
      | none => []
    else []) ↔ ∃ leg, Made job base leg ∧ leg.fromId = at_ ∧ counted (legs ++ [leg]) ≤ MOST_LEGS ∧ chain = keep (legs ++ [leg]) := by
  cases own : direct job at_ base with
  | some leg =>
    refine ⟨nofun, ?_⟩
    rintro ⟨leg', ⟨-, none', -⟩, rfl, -, -⟩
    rw [own] at none'
    cases none'
  | none =>
    rw [Option.isNone_none, if_pos rfl]
    cases found : derived job at_ base with
    | none =>
      refine ⟨nofun, ?_⟩
      rintro ⟨leg', ⟨-, -, some'⟩, rfl, -, -⟩
      rw [found] at some'
      cases some'
    | some leg =>
      dsimp only
      obtain ⟨from_, into, -⟩ := derived_ends found
      constructor
      · intro member
        split_ifs at member with short
        · exact ⟨leg, ⟨into, from_ ▸ own, from_ ▸ found⟩, from_, short, List.mem_singleton.mp member⟩
        · cases member
      · rintro ⟨leg', ⟨-, -, some'⟩, rfl, short, rfl⟩
        obtain rfl := Option.some.inj (found.symm.trans some')
        rw [if_pos short]
        exact List.mem_singleton_self _

/-- A price quoted is a leg of the lake's own, at its kind's rank. -/
theorem own_direct {kind : String} (ranked : (kind, rank) ∈ CONVERSION_KINDS.zipIdx) (quoted : price ∈ job.quotedIn at_ kind) :
    Own job (Leg.direct price rank) ∧ (Leg.direct price rank).fromId = at_ := by
  have found := mem_quotedIn.mp quoted
  have subject := (priceIn_held found).2.1
  refine ⟨⟨kind, price, ranked, ?_, rfl⟩, subject⟩
  change job.priceIn price.subjectId kind price.instrumentId = some price
  rwa [subject]

/-- What the walk meets: the legs taken and, after them, every chain on to the base that keeps off the currencies seen. -/
theorem mem_walk (taken : counted legs + left = MOST_LEGS) (here : at_ ∈ seen) (ahead : at_ ≠ base → base ∉ seen) (chain : Chain) :
    chain ∈ walk job base left at_ legs seen ↔ ∃ rest, chain = keep (legs ++ rest) ∧ Joined at_ rest base ∧
      (rest.map Leg.toId).Nodup ∧ (∀ id ∈ rest.map Leg.toId, id ∉ seen) ∧ (∀ leg ∈ rest, Own job leg ∨ Made job base leg) ∧
      counted (legs ++ rest) ≤ MOST_LEGS := by
  induction left generalizing at_ legs seen with
  | zero =>
    rw [walk]
    by_cases reached : at_ = base
    · rw [if_pos reached, List.mem_singleton]
      exact keep_iff reached here (taken ▸ Nat.le_add_right _ _)
    · rw [if_neg reached]
      refine ⟨nofun, ?_⟩
      rintro ⟨rest, -, joined, -, -, -, short⟩
      have some' : rest ≠ [] := fun none' => reached (by rw [none'] at joined; exact joined)
      have least := length_le_counted rest
      have one := List.length_pos_iff.mpr some'
      rw [counted_append] at short
      omega
  | succ left ih =>
    rw [walk]
    by_cases reached : at_ = base
    · rw [if_pos reached, List.mem_singleton]
      exact keep_iff reached here (taken ▸ Nat.le_add_right _ _)
    · have next : ∀ price rank, price.instrumentId ∉ seen →
          (chain ∈ walk job base left price.instrumentId (legs ++ [Leg.direct price rank]) (price.instrumentId :: seen) ↔
            ∃ rest, chain = keep (legs ++ [Leg.direct price rank] ++ rest) ∧ Joined price.instrumentId rest base ∧
              (rest.map Leg.toId).Nodup ∧ (∀ id ∈ rest.map Leg.toId, id ∉ price.instrumentId :: seen) ∧
              (∀ leg ∈ rest, Own job leg ∨ Made job base leg) ∧ counted (legs ++ [Leg.direct price rank] ++ rest) ≤ MOST_LEGS) := by
        intro price rank unseen
        refine ih ?_ List.mem_cons_self fun apart => ?_
        · rw [counted_append, counted_direct]
          omega
        · rw [List.mem_cons, not_or]
          exact ⟨Ne.symm apart, ahead reached⟩
      rw [if_neg reached, List.mem_append]
      refine (or_congr mem_last Iff.rfl).trans ?_
      simp only [List.mem_flatMap]
      constructor
      · rintro (⟨leg, made, rfl, short, rfl⟩ | ⟨⟨kind, rank⟩, ranked, price, quoted, member⟩)
        · refine ⟨[leg], rfl, ⟨rfl, made.1⟩, List.nodup_singleton _, ?_, ?_, short⟩
          · intro id held
            rw [List.mem_singleton.mp held, made.1]
            exact ahead reached
          · intro other held
            rw [List.mem_singleton.mp held]
            exact .inr made
        · split_ifs at member with seen'
          · cases member
          · obtain ⟨own, from_⟩ := own_direct ranked quoted
            obtain ⟨rest, rfl, joined, distinct, apart, each, short⟩ := (next price rank seen').mp member
            refine ⟨Leg.direct price rank :: rest, by simp, ⟨from_, joined⟩, ?_, ?_, ?_, by simpa using short⟩
            · exact List.nodup_cons.mpr ⟨fun held => apart _ held List.mem_cons_self, distinct⟩
            · exact List.forall_mem_cons.mpr ⟨seen', fun id held seen => apart id held (List.mem_cons_of_mem _ seen)⟩
            · exact List.forall_mem_cons.mpr ⟨.inl own, each⟩
      · rintro ⟨rest, rfl, joined, distinct, apart, each, short⟩
        cases rest with
        | nil => exact absurd joined reached
        | cons leg rest =>
          obtain ⟨from_, joined⟩ := joined
          obtain ⟨once, distinct⟩ := List.nodup_cons.mp distinct
          obtain ⟨unseen, later⟩ := List.forall_mem_cons.mp apart
          rcases each leg List.mem_cons_self with ⟨kind, price, ranked, found, same⟩ | made
          · right
            have to_ : price.instrumentId = leg.toId := (priceIn_held found).2.2.2
            refine ⟨(kind, leg.kindRank), ranked, price, mem_quotedIn.mpr (by rw [to_, ← from_]; exact found), ?_⟩
            rw [to_, if_neg unseen, ← to_]
            refine (next price leg.kindRank (to_ ▸ unseen)).mpr ⟨rest, ?_, ?_, distinct, ?_, ?_, ?_⟩
            · rw [← same, List.append_assoc, List.singleton_append]
            · rwa [to_]
            · intro id held seen'
              rcases List.mem_cons.mp seen' with equal | before
              · exact once (to_ ▸ equal ▸ held)
              · exact later id held before
            · exact fun other held => each other (List.mem_cons_of_mem _ held)
            · rwa [← same, List.append_assoc, List.singleton_append]
          · left
            have none' : rest = [] := by
              by_contra some'
              exact once (made.1 ▸ joined.reaches some')
            subst none'
            exact ⟨leg, made, from_, short, rfl⟩

/-- A leg is told by where it starts and ends, its derivation's place and its kind's. -/
theorem leg_eq {leg leg' : Leg} (own : Own job leg ∨ Made job base leg) (own' : Own job leg' ∨ Made job base leg')
    (from_ : leg.fromId = leg'.fromId) (into : leg.toId = leg'.toId)
    (how : derivationRank leg.derivation = derivationRank leg'.derivation) (rank : leg.kindRank = leg'.kindRank) : leg = leg' := by
  have direct_rank : ∀ leg, Own job leg → derivationRank leg.derivation = 0 := by
    rintro leg ⟨kind, price, -, -, same⟩
    rw [same]
    rfl
  rcases own with own | made
  · rcases own' with own' | made'
    · obtain ⟨kind, price, ranked, found, same⟩ := own
      obtain ⟨kind', price', ranked', found', same'⟩ := own'
      rw [List.mem_zipIdx_iff_getElem?] at ranked ranked'
      rw [rank] at ranked
      obtain rfl : kind = kind' := Option.some.inj (ranked.symm.trans ranked')
      rw [from_, into] at found
      obtain rfl := Option.some.inj (found.symm.trans found')
      rw [same, same', rank]
    · rw [direct_rank leg own] at how
      exact absurd how.symm (derived_ends made'.2.2).2.2
  · rcases own' with own' | made'
    · rw [direct_rank leg' own'] at how
      exact absurd how (derived_ends made.2.2).2.2
    · have found := made.2.2
      rw [from_] at found
      exact Option.some.inj (found.symm.trans made'.2.2)

theorem legs_eq (joined : Joined at_ legs base) (joined' : Joined at_ other base)
    (each : ∀ leg ∈ legs, Own job leg ∨ Made job base leg) (each' : ∀ leg ∈ other, Own job leg ∨ Made job base leg)
    (how : (legs.map fun leg => derivationRank leg.derivation) = other.map fun leg => derivationRank leg.derivation)
    (rank : legs.map Leg.kindRank = other.map Leg.kindRank) (into : legs.map Leg.toId = other.map Leg.toId) : legs = other := by
  induction legs generalizing at_ other with
  | nil => exact (List.map_eq_nil_iff.mp into.symm).symm
  | cons leg rest ih =>
    cases other with
    | nil => cases into
    | cons leg' rest' =>
      obtain ⟨from_, joined⟩ := joined
      obtain ⟨from', joined'⟩ := joined'
      obtain ⟨how, hows⟩ := List.cons.inj how
      obtain ⟨rank, ranks⟩ := List.cons.inj rank
      obtain ⟨into, intos⟩ := List.cons.inj into
      obtain rfl := leg_eq (each leg List.mem_cons_self) (each' leg' List.mem_cons_self) (from_.trans from'.symm) into how rank
      rw [ih joined joined' (fun other held => each other (List.mem_cons_of_mem _ held))
        (fun other held => each' other (List.mem_cons_of_mem _ held)) hows ranks intos]

/-- No two chains are ordered alike. -/
theorem key_injective (converts : Converts job held base legs) (converts' : Converts job held base other)
    (same : (keep legs).key = (keep other).key) : legs = other := by
  unfold Chain.key at same
  simp only [toLex_inj, Prod.mk.injEq] at same
  obtain ⟨-, how, rank, into⟩ := same
  exact legs_eq converts.joined converts'.joined converts.each converts'.each how rank into

/-- The walk from a currency meets the chains from it. -/
theorem mem_walk_held (apart : held ≠ base) (chain : Chain) :
    chain ∈ walk job base MOST_LEGS held [] [held] ↔ ∃ legs, chain = keep legs ∧ Converts job held base legs := by
  rw [mem_walk rfl List.mem_cons_self fun _ => by simpa using Ne.symm apart]
  constructor
  · rintro ⟨legs, rfl, joined, distinct, unseen, each, short⟩
    exact ⟨legs, rfl, joined, List.nodup_cons.mpr ⟨fun seen => unseen held seen List.mem_cons_self, distinct⟩, each, short⟩
  · rintro ⟨legs, rfl, joined, distinct, each, short⟩
    obtain ⟨once, distinct⟩ := List.nodup_cons.mp distinct
    refine ⟨legs, rfl, joined, distinct, fun id member seen => ?_, each, short⟩
    exact once (List.mem_singleton.mp seen ▸ member)

/-- A currency is converted to itself by no leg. -/
theorem converts_self : Converts job base base legs ↔ legs = [] := by
  constructor
  · intro converts
    by_contra some'
    exact (List.nodup_cons.mp converts.distinct).1 (converts.joined.reaches some')
  · rintro rfl
    exact ⟨rfl, List.nodup_singleton _, nofun, Nat.zero_le _⟩

instance : Std.Total fun a b : Chain => a.key ≤ b.key := ⟨fun a b => le_total a.key b.key⟩

instance : IsTrans Chain fun a b => a.key ≤ b.key := ⟨fun _ _ _ => le_trans⟩

/-- The first of the chains in order, where there is one, is the least. -/
theorem least_of_sorted (apart : held ≠ base) {first : Chain} {later : List Chain}
    (sorted : (walk job base MOST_LEGS held [] [held]).insertionSort (fun a b => a.key ≤ b.key) = first :: later) :
    ∃ legs, first = keep legs ∧ Least job held base legs := by
  have order := List.pairwise_insertionSort (fun a b : Chain => a.key ≤ b.key) (walk job base MOST_LEGS held [] [held])
  have members : ∀ chain, chain ∈ (walk job base MOST_LEGS held [] [held]).insertionSort (fun a b => a.key ≤ b.key) ↔
      chain ∈ walk job base MOST_LEGS held [] [held] := fun chain => List.mem_insertionSort _
  rw [sorted] at order members
  obtain ⟨legs, rfl, converts⟩ := (mem_walk_held apart first).mp ((members first).mp List.mem_cons_self)
  refine ⟨legs, rfl, converts, fun other converts' differ => ?_⟩
  have member := (members _).mpr ((mem_walk_held apart (keep other)).mpr ⟨other, rfl, converts'⟩)
  have le : (keep legs).key ≤ (keep other).key := by
    rcases List.mem_cons.mp member with same | after
    · rw [same]
    · exact (List.pairwise_cons.mp order).1 _ after
  exact lt_of_le_of_ne le fun same => differ (key_injective converts converts' same).symm

/-- A currency is converted along the least chain there is, is not where a price under that chain is stale, and has no
conversion where there is no chain. -/
theorem conversion_cases (job : Case) (held base : String) :
    ((∀ legs, ¬ Converts job held base legs) ∧ conversion job held base = .error (CONVERSION_MISSING, "")) ∨
      ∃ legs, Least job held base legs ∧ ((Fresh job legs ∧ conversion job held base = .ok legs) ∨
        (¬ Fresh job legs ∧ conversion job held base = .error (PRICE_STALE, ""))) := by
  unfold conversion
  by_cases same : held = base
  · subst same
    rw [if_pos rfl]
    refine .inr ⟨[], ⟨converts_self.mpr rfl, fun other converts apart => ?_⟩, .inl ⟨nofun, rfl⟩⟩
    exact absurd (converts_self.mp converts) apart
  · rw [if_neg same]
    cases sorted : (walk job base MOST_LEGS held [] [held]).insertionSort (fun a b => a.key ≤ b.key) with
    | nil =>
      refine .inl ⟨fun legs converts => ?_, rfl⟩
      have member := (mem_walk_held same (keep legs)).mpr ⟨legs, rfl, converts⟩
      rw [← List.mem_insertionSort (fun a b : Chain => a.key ≤ b.key), sorted] at member
      cases member
    | cons first later =>
      obtain ⟨legs, rfl, least⟩ := least_of_sorted same sorted
      refine .inr ⟨legs, least, ?_⟩
      dsimp only
      by_cases fresh : Fresh job legs
      · refine .inl ⟨fresh, if_neg ?_⟩
        simp only [keep, List.any_eq_true, not_exists, not_and, Bool.not_eq_true]
        exact fresh
      · refine .inr ⟨fresh, if_pos ?_⟩
        unfold Fresh at fresh
        push Not at fresh
        obtain ⟨leg, member, factor, under, late⟩ := fresh
        simp only [keep, List.any_eq_true]
        exact ⟨leg, member, factor, under, by simpa using late⟩

theorem Least.unique (least : Least job held base legs) (least' : Least job held base other) : legs = other := by
  by_contra apart
  exact lt_asymm (least.2 other least'.1 (Ne.symm apart)) (least'.2 legs least.1 apart)

/-- The conversion is the least chain, whose prices are held and none stale; there is none exactly where there is no chain, and
it is refused as stale exactly where the least chain has a stale price. -/
theorem conversion_least (job : Case) (held base : String) :
    (∀ legs, conversion job held base = .ok legs ↔ Least job held base legs ∧ Fresh job legs) ∧
      (conversion job held base = .error (CONVERSION_MISSING, "") ↔ ∀ legs, ¬ Converts job held base legs) ∧
      (conversion job held base = .error (PRICE_STALE, "") ↔ ∃ legs, Least job held base legs ∧ ¬ Fresh job legs) ∧
      ∀ legs, conversion job held base = .ok legs → ∀ leg ∈ legs, ∀ factor ∈ leg.factors, factor.1 ∈ job.market := by
  have kinds : (CONVERSION_MISSING, "") ≠ (PRICE_STALE, "") := by decide
  rcases conversion_cases job held base with ⟨none', missing⟩ | ⟨least, first, ⟨fresh, found⟩ | ⟨late, stale⟩⟩
  · rw [missing]
    refine ⟨fun legs => ⟨nofun, fun some' => absurd some'.1.1 (none' legs)⟩, ⟨fun _ => none', fun _ => rfl⟩,
      ⟨fun same => absurd (Except.error.inj same) kinds, ?_⟩, nofun⟩
    rintro ⟨legs, some', -⟩
    exact absurd some'.1 (none' legs)
  · rw [found]
    refine ⟨fun legs => ⟨?_, fun some' => congrArg Except.ok (first.unique some'.1)⟩, ⟨nofun, fun none' => absurd first.1 (none' least)⟩,
      ⟨nofun, ?_⟩, ?_⟩
    · rintro ⟨⟩
      exact ⟨first, fresh⟩
    · rintro ⟨legs, some', late⟩
      exact absurd (first.unique some' ▸ fresh) late
    · rintro legs ⟨⟩
      exact first.1.factors_held
  · rw [stale]
    refine ⟨fun legs => ⟨nofun, fun some' => absurd (first.unique some'.1 ▸ some'.2) late⟩,
      ⟨fun same => absurd (Except.error.inj same).symm kinds, fun none' => absurd first.1 (none' least)⟩,
      ⟨fun _ => ⟨least, first, late⟩, fun _ => rfl⟩, nofun⟩

/-- A dollar token with a close too old and a mid that is not. -/
def staleClose : Case where
  instruments := ∅
  market := [⟨"USDC", "close", Dec.one, "USD", "closes", 0⟩, ⟨"USDC", "mid", Dec.one, "USD", "quotes", 100⟩]
  groups := ∅
  staleAfter := (∅ : BTreeMap String Int).insert "closes" 10
  lakeAsOfNs := 100
  pivots := []

/-- The close comes first and is stale, so the conversion is refused, though the mid would do. -/
theorem staleClose_refused : (∃ legs, Converts staleClose "USDC" "USD" legs ∧ Fresh staleClose legs) ∧
    conversion staleClose "USDC" "USD" = .error (PRICE_STALE, "") := by
  refine ⟨⟨[Leg.direct ⟨"USDC", "mid", Dec.one, "USD", "quotes", 100⟩ 1], ⟨⟨rfl, rfl⟩, by decide, ?_, by decide +kernel⟩, ?_⟩, ?_⟩
  · intro leg member
    obtain rfl := List.mem_singleton.mp member
    exact .inl ⟨"mid", ⟨"USDC", "mid", Dec.one, "USD", "quotes", 100⟩, by decide, by decide +kernel, rfl⟩
  · intro leg member factor under
    obtain rfl := List.mem_singleton.mp member
    obtain rfl := List.mem_singleton.mp under
    decide +kernel
  · have refused : (match conversion staleClose "USDC" "USD" with
        | .error why => decide (why = (PRICE_STALE, ""))
        | .ok _ => false) = true := by
      decide +kernel
    cases answer : conversion staleClose "USDC" "USD" with
    | error why =>
      rw [answer] at refused
      rw [of_decide_eq_true refused]
    | ok legs =>
      rw [answer] at refused
      cases refused

end

end MeridianCore.AnalyticsEngine.Pricing
