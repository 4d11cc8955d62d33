import MeridianCore.Domain.Asset
import MeridianCore.Bor.Book.LotHome

/-! The asset a lot's cost is in. Two amounts are summed by their codes alone, and the sum names no cash instrument:
where neither has a code, amounts of two tokens are summed, and the sum is in no asset. -/

namespace MeridianCore.Bor

/-- Two amounts that are summed: of one code, and their sum inside what the wire carries. -/
def Summable (field : String) (a b : Money) : Prop :=
  a.currencyCode = b.currencyCode ∧ ∃ x y sum, numbers.amount field a = .ok x ∧ numbers.amount field b = .ok y ∧
    numbers.add field x y = .ok sum

/-- The amounts and their sum are of one asset, the sum keeping the cash instrument either names. -/
structure SumsOneAsset (a b sum : Money) : Prop where
  same : ∃ x y, a.Names x ∧ b.Names y ∧ x.Alike y
  named : ∃ x z, a.Names x ∧ sum.Names z ∧ x.Alike z
  kept : ∀ x y z, a.Names x → b.Names y → sum.Names z → z.instrumentOf = x.instrumentOf.or y.instrumentOf

section
variable {field : String} {a b sum : Money} {x y : Asset}

theorem addMoney_ok : numbers.addMoney field a b = .ok sum ↔
    a.currencyCode = b.currencyCode ∧ ∃ x y total, numbers.amount field a = .ok x ∧ numbers.amount field b = .ok y ∧
      numbers.add field x y = .ok total ∧
        sum = { amount := numbers.wire total, currencyCode := a.currencyCode, instrumentId := "" } := by
  unfold numbers.addMoney
  rw [guard_ok, not_not]
  refine and_congr_right fun _ => ?_
  constructor
  · intro answered
    obtain ⟨x, held, answered⟩ := bind_ok.mp answered
    obtain ⟨y, change, answered⟩ := bind_ok.mp answered
    obtain ⟨total, summed, answered⟩ := bind_ok.mp answered
    cases answered
    exact ⟨x, y, total, held, change, summed, rfl⟩
  · rintro ⟨x, y, total, held, change, summed, rfl⟩
    exact bind_ok.mpr ⟨x, held, bind_ok.mpr ⟨y, change, bind_ok.mpr ⟨total, summed, rfl⟩⟩⟩

theorem sum_of_summable (summable : Summable field a b) : ∃ sum, numbers.addMoney field a b = .ok sum := by
  obtain ⟨codes, x, y, total, held, change, summed⟩ := summable
  exact ⟨_, addMoney_ok.mpr ⟨codes, x, y, total, held, change, summed, rfl⟩⟩

theorem summable_of_sum (summed : numbers.addMoney field a b = .ok sum) : Summable field a b := by
  obtain ⟨codes, x, y, total, held, change, total', -⟩ := addMoney_ok.mp summed
  exact ⟨codes, x, y, total, held, change, total'⟩

/-- A sum has the code of the amounts and no cash instrument. -/
theorem sum_fields (summed : numbers.addMoney field a b = .ok sum) :
    a.currencyCode = b.currencyCode ∧ sum.currencyCode = a.currencyCode ∧ sum.instrumentId = "" := by
  obtain ⟨codes, x, y, total, -, -, -, rfl⟩ := addMoney_ok.mp summed
  exact ⟨codes, rfl, rfl⟩

theorem trim_empty : Text.trim "" = "" := by decide

/-- Amounts of one code and no instrument are summed in their asset. -/
theorem sums_of_codes (summed : numbers.addMoney field a b = .ok sum) (coded : a.HasCode) (noneA : a.NoInstrument)
    (noneB : b.NoInstrument) : SumsOneAsset a b sum := by
  obtain ⟨codes, code, instrument⟩ := sum_fields summed
  have codedB : b.HasCode := by rwa [Money.HasCode, ← codes]
  have codedSum : sum.HasCode := by rwa [Money.HasCode, code]
  obtain ⟨x, namesA⟩ := Money.names_of_code coded
  obtain ⟨y, namesB⟩ := Money.names_of_code codedB
  obtain ⟨z, namesSum⟩ := Money.names_of_code codedSum
  have codeA := Money.codeOf_names namesA coded
  have alike {p : Asset} (same : p.codeOf = Option.some (Text.trim a.currencyCode)) : x.Alike p :=
    ⟨codeA.trans same.symm, fun none' => by rw [codeA] at none'; cases none'⟩
  refine ⟨⟨x, y, namesA, namesB, alike ?_⟩, ⟨x, z, namesA, namesSum, alike ?_⟩, ?_⟩
  · rw [Money.codeOf_names namesB codedB, codes]
  · rw [Money.codeOf_names namesSum codedSum, code]
  · intro x y z namesA namesB namesSum
    have noneSum : sum.NoInstrument := by rw [Money.NoInstrument, instrument, trim_empty]
    rw [Money.instrumentOf_none namesA noneA, Money.instrumentOf_none namesB noneB,
      Money.instrumentOf_none namesSum noneSum]
    rfl

/-- Amounts summed in one asset, their instrument kept, are of one code and no instrument. -/
theorem codes_of_sums (summed : numbers.addMoney field a b = .ok sum) (sums : SumsOneAsset a b sum) :
    a.HasCode ∧ a.NoInstrument ∧ b.NoInstrument := by
  obtain ⟨-, -, instrument⟩ := sum_fields summed
  obtain ⟨x, y, namesA, namesB, -⟩ := sums.same
  obtain ⟨-, z, -, namesSum, -⟩ := sums.named
  have kept := sums.kept x y z namesA namesB namesSum
  have noneSum : sum.NoInstrument := by rw [Money.NoInstrument, instrument, trim_empty]
  rw [Money.instrumentOf_none namesSum noneSum] at kept
  have noneA : a.NoInstrument := by
    by_contra some'
    rw [Money.instrumentOf_some namesA some'] at kept
    cases kept
  have noneB : b.NoInstrument := by
    by_contra some'
    rw [Money.instrumentOf_none namesA noneA, Money.instrumentOf_some namesB some'] at kept
    cases kept
  exact ⟨Money.hasCode_of_names namesA noneA, noneA, noneB⟩

/-- Two amounts are summed only in one asset exactly where, if they are summed at all, their code is a currency's and
neither names a cash instrument. -/
theorem sums_iff : (∀ sum, numbers.addMoney field a b = .ok sum → SumsOneAsset a b sum) ↔
    (Summable field a b → a.HasCode ∧ a.NoInstrument ∧ b.NoInstrument) := by
  constructor
  · intro sums summable
    obtain ⟨sum, summed⟩ := sum_of_summable summable
    exact codes_of_sums summed (sums sum summed)
  · intro codes sum summed
    obtain ⟨coded, noneA, noneB⟩ := codes (summable_of_sum summed)
    exact sums_of_codes summed coded noneA noneB

end

namespace Book

/-- What a lot cost, as its owner's position states it. -/
def costOf (book : Book) (lotId : String) : Option Money :=
  (book.lotOwner lotId).bind fun key => (book.lotAt key lotId).bind fun state => state.lot.terms.bind LotTerms.cost

/-- One basis adjustment of an entry. -/
structure Adjusting where
  refs : List (Key × JournalRef)
  body : Body
  lenient : Bool
  adjustment : BasisAdjustment

def adjustOne (book : Book) (step : Adjusting) : Result Book :=
  adjustBasis step.refs step.body step.lenient book step.adjustment

/-- An adjustment that, where it is of the lot, changes its cost by an amount. -/
def ChangesCost (lotId : String) (step : Adjusting) : Prop :=
  step.adjustment.lotId = lotId →
    (∃ change, step.adjustment.cost = some (.costChange change)) ∧ lotId ∉ step.body.restoredUnknownCosts

section
variable {book after : Book} {step : Adjusting} {steps : List Adjusting} {lotId : String} {cost : Money}

theorem lotOwner_adjustOne (adjusted : book.adjustOne step = .ok after) : after.lotOwner lotId = book.lotOwner lotId := by
  refine lotOwner_congr fun key => ?_
  have same : (after.lotAt key lotId).map LotState.held = (book.lotAt key lotId).map LotState.held := by
    rw [lotAt_held, lotAt_held, holdings_adjustBasis adjusted]
  simpa using congrArg Option.isSome same

theorem costOf_of_lotAt {key : Key} {state : LotState} (owned : book.lotOwner lotId = some key)
    (held : book.lotAt key lotId = some state) : book.costOf lotId = state.lot.terms.bind LotTerms.cost := by
  rw [costOf, owned, Option.bind_some, held, Option.bind_some]

/-- A lot once an adjustment has set its terms. -/
def adjustedLot (state : LotState) (terms : LotTerms) (reference : JournalRef) : LotState :=
  { state with lot := { state.lot with terms := some terms, adjustedBy := state.lot.adjustedBy ++ [reference] } }

/-- What an adjustment that goes through does to the lot it is of, where a position holds it. -/
theorem adjustOne_ok {key : Key} {state : LotState} (adjusted : book.adjustOne step = .ok after)
    (owned : book.lotOwner step.adjustment.lotId = some key)
    (held : book.lotAt key step.adjustment.lotId = some state) :
    ∃ position terms, adjustedTerms step.body step.lenient step.adjustment (state.lot.terms.getD {}) = .ok terms ∧
      book.positions[key]? = some position ∧
      after = book.setPosition key { position with
        lots := position.lots.insert step.adjustment.lotId (adjustedLot state terms (refAt step.refs key)) } := by
  obtain ⟨position, found, lot⟩ := lotAt_eq_some.mp held
  unfold adjustOne adjustBasis at adjusted
  simp only [owned, found, lot] at adjusted
  obtain ⟨terms, reckoned, adjusted⟩ := bind_ok.mp adjusted
  cases adjusted
  exact ⟨position, terms, reckoned, found, rfl⟩

/-- An adjustment of another lot leaves a lot's cost. -/
theorem costOf_apart (adjusted : book.adjustOne step = .ok after) (apart : step.adjustment.lotId ≠ lotId) :
    after.costOf lotId = book.costOf lotId := by
  have owners := @lotOwner_adjustOne book after step lotId adjusted
  have lots : ∀ key, after.lotAt key lotId = book.lotAt key lotId := by
    intro other
    cases owned : book.lotOwner step.adjustment.lotId with
    | none =>
      unfold adjustOne adjustBasis at adjusted
      simp only [owned] at adjusted
      split at adjusted <;> cases adjusted
      rfl
    | some key =>
      obtain ⟨state, held⟩ := Option.isSome_iff_exists.mp (lotOwner_eq_some.mp owned).1
      obtain ⟨position, terms, -, found, rfl⟩ := adjustOne_ok adjusted owned held
      rw [lotAt_setPosition]
      split
      · next same =>
        rw [← same, lotAt, found, Option.bind_some, Std.ExtTreeMap.getElem?_insert, if_neg]
        rwa [Std.LawfulEqCmp.compare_eq_iff_eq]
      · rfl
  rw [costOf, costOf, owners]
  cases book.lotOwner lotId with
  | none => rfl
  | some key => rw [Option.bind_some, Option.bind_some, lots]

/-- A known cost changed by an amount is their sum. -/
theorem cost_adjustedTerms {body : Body} {lenient : Bool} {adjustment : BasisAdjustment} {terms adjusted : LotTerms}
    {change : Money} (reckoned : adjustedTerms body lenient adjustment terms = .ok adjusted)
    (byAmount : adjustment.cost = some (.costChange change)) (known : terms.cost = some cost)
    (notRestored : adjustment.lotId ∉ body.restoredUnknownCosts) :
    ∃ sum, numbers.addMoney "lots.terms.cost" cost change = .ok sum ∧ adjusted.cost = some sum := by
  unfold adjustedTerms at reckoned
  simp only [byAmount, known] at reckoned
  obtain ⟨answer, summed, reckoned⟩ := bind_ok.mp reckoned
  cases total : numbers.addMoney "lots.terms.cost" cost change with
  | error out =>
    rw [total] at summed
    cases summed
  | ok sum =>
    rw [total] at summed
    cases summed
    cases reckoned
    exact ⟨sum, rfl, if_neg notRestored⟩

/-- An adjustment that changes a known cost by an amount leaves their sum. -/
theorem costOf_changed (adjusted : book.adjustOne step = .ok after) (changes : ChangesCost step.adjustment.lotId step)
    (known : book.costOf step.adjustment.lotId = some cost) :
    ∃ change sum, numbers.addMoney "lots.terms.cost" cost change = .ok sum ∧
      after.costOf step.adjustment.lotId = some sum := by
  obtain ⟨⟨change, byAmount⟩, notRestored⟩ := changes rfl
  obtain ⟨key, owned, known'⟩ := Option.bind_eq_some_iff.mp known
  obtain ⟨state, held, stated⟩ := Option.bind_eq_some_iff.mp known'
  obtain ⟨before, has, cost'⟩ := Option.bind_eq_some_iff.mp stated
  obtain ⟨position, terms, reckoned, -, rfl⟩ := adjustOne_ok adjusted owned held
  have owner := @lotOwner_adjustOne book _ step step.adjustment.lotId adjusted
  rw [has, Option.getD_some] at reckoned
  obtain ⟨sum, summed, after'⟩ := cost_adjustedTerms reckoned byAmount cost' notRestored
  refine ⟨change, sum, summed, ?_⟩
  have lot := lotAt_setPosition book key { position with
    lots := position.lots.insert step.adjustment.lotId (adjustedLot state terms (refAt step.refs key)) } key
    step.adjustment.lotId
  rw [if_pos rfl, Std.ExtTreeMap.getElem?_insert_self] at lot
  exact (costOf_of_lotAt (owner.trans owned) lot).trans after'

/-- Cost changes, one after another, leave a lot's cost of the code it has, its instrument gone where one is of it. -/
theorem costOf_run (ran : steps.foldlM adjustOne book = .ok after) (changes : ∀ step ∈ steps, ChangesCost lotId step)
    (known : book.costOf lotId = some cost) :
    ∃ last, after.costOf lotId = some last ∧
      (((∀ step ∈ steps, step.adjustment.lotId ≠ lotId) ∧ last = cost) ∨
        ((∃ step ∈ steps, step.adjustment.lotId = lotId) ∧ last.currencyCode = cost.currencyCode ∧
          last.instrumentId = "")) := by
  induction steps generalizing book cost with
  | nil =>
    cases ran
    exact ⟨cost, known, .inl ⟨by simp, rfl⟩⟩
  | cons step rest ih =>
    rw [List.foldlM_cons] at ran
    obtain ⟨next, adjusted, ran⟩ := bind_ok.mp ran
    have later := fun other member => changes other (List.mem_cons_of_mem _ member)
    by_cases apart : step.adjustment.lotId = lotId
    · subst apart
      obtain ⟨change, sum, summed, known'⟩ := costOf_changed adjusted (changes step List.mem_cons_self) known
      obtain ⟨-, code, instrument⟩ := sum_fields summed
      obtain ⟨last, left, ⟨-, rfl⟩ | ⟨-, code', instrument'⟩⟩ := ih ran later known'
      · exact ⟨last, left, .inr ⟨⟨step, List.mem_cons_self, rfl⟩, code, instrument⟩⟩
      · exact ⟨last, left, .inr ⟨⟨step, List.mem_cons_self, rfl⟩, code'.trans code, instrument'⟩⟩
    · have known' : next.costOf lotId = some cost := (costOf_apart adjusted apart).trans known
      obtain ⟨last, left, ⟨none', same⟩ | ⟨⟨other, member, on⟩, code, instrument⟩⟩ := ih ran later known'
      · refine ⟨last, left, .inl ⟨fun other member => ?_, same⟩⟩
        rcases List.mem_cons.mp member with rfl | further
        · exact apart
        · exact none' other further
      · exact ⟨last, left, .inr ⟨⟨other, List.mem_cons_of_mem _ member, on⟩, code, instrument⟩⟩

/-- Amounts are summed in one asset, and cost changes leave a lot's cost in its own, exactly where what they sum is of
a currency's code: and for the sum to keep what either names, of no cash instrument. -/
theorem costs_keep_asset_iff {asset : Asset} (ran : steps.foldlM adjustOne book = .ok after)
    (changes : ∀ step ∈ steps, ChangesCost lotId step) (known : book.costOf lotId = some cost)
    (named : cost.Names asset) :
    (∀ field a b, (∀ sum, numbers.addMoney field a b = .ok sum → SumsOneAsset a b sum) ↔
      (Summable field a b → a.HasCode ∧ a.NoInstrument ∧ b.NoInstrument)) ∧
    ((∃ last after', after.costOf lotId = some last ∧ last.Names after' ∧ asset.Alike after') ↔
      (cost.HasCode ∨ ∀ step ∈ steps, step.adjustment.lotId ≠ lotId)) := by
  refine ⟨fun field a b => sums_iff, ?_⟩
  obtain ⟨last, left, ⟨none', rfl⟩ | ⟨⟨step, member, on⟩, code, instrument⟩⟩ := costOf_run ran changes known
  · exact iff_of_true ⟨last, asset, left, named, rfl, fun _ => rfl⟩ (.inr none')
  · have noneLast : last.NoInstrument := by rw [Money.NoInstrument, instrument, trim_empty]
    constructor
    · rintro ⟨other, after', left', names, -⟩
      rw [left] at left'
      cases left'
      have coded := Money.hasCode_of_names names noneLast
      rw [Money.HasCode, code] at coded
      exact .inl coded
    · rintro (coded | none')
      · have codedLast : last.HasCode := by rwa [Money.HasCode, code]
        obtain ⟨after', names⟩ := Money.names_of_code codedLast
        have same : asset.codeOf = after'.codeOf := by
          rw [Money.codeOf_names named coded, Money.codeOf_names names codedLast, code]
        refine ⟨last, after', left, names, same, fun none' => ?_⟩
        rw [Money.codeOf_names named coded] at none'
        cases none'
      · exact absurd on (none' step member)

end

/-- A book of one lot, of the cost stated. -/
def oneLotOf (cost : Money) : Book :=
  (Book.new "ACC-1" "P-1").setPosition ⟨"INS-1", .long, ""⟩ { PositionState.new ⟨"INS-1", .long, ""⟩ with
    lots := (∅ : BTreeMap String LotState).insert "LOT-1" {
      lot := {
        lotId := "LOT-1"
        openQuantity := Exact.one
        originalQuantity := Exact.one
        terms := some { cost := some cost } }
      openedIn := 1
      ordinal := 0 } }

def changedBy (change : Money) : Adjusting where
  refs := []
  body := {}
  lenient := false
  adjustment := { lotId := "LOT-1", cost := some (.costChange change) }

/-- Ten dollars' cost less three is a cost in dollars. -/
theorem dollars_kept : ∃ after last asset, [changedBy { amount := some ⟨-3, 0⟩, currencyCode := "USD" }].foldlM adjustOne
    (oneLotOf { amount := some ⟨10, 0⟩, currencyCode := "USD" }) = .ok after ∧ after.costOf "LOT-1" = some last ∧
      last.Names asset ∧ Asset.Alike (.code "USD") asset := by
  have computed : ([changedBy { amount := some ⟨-3, 0⟩, currencyCode := "USD" }].foldlM adjustOne
      (oneLotOf { amount := some ⟨10, 0⟩, currencyCode := "USD" })).toOption.any (fun _ => true) = true := by
    decide +kernel
  obtain ⟨after, ran, -⟩ := answered_of computed
  have named : Money.Names { amount := some ⟨10, 0⟩, currencyCode := "USD" } (.code "USD") :=
    Money.names_iff.mpr (by decide +kernel)
  have changes : ∀ step ∈ [changedBy { amount := some ⟨-3, 0⟩, currencyCode := "USD" }], ChangesCost "LOT-1" step := by
    intro step member on
    cases List.mem_singleton.mp member
    exact ⟨⟨_, rfl⟩, by decide⟩
  obtain ⟨last, asset, left, names, same⟩ :=
    (costs_keep_asset_iff ran changes (by decide +kernel) named).2.mpr (.inl (by decide +kernel))
  exact ⟨after, last, asset, ran, left, names, same⟩

/-- A cost in one token changed by an amount in another is summed with it, into no asset. -/
theorem tokens_summed : ¬ ∀ (field : String) (a b sum : Money), numbers.addMoney field a b = .ok sum →
    SumsOneAsset a b sum := by
  intro claim
  have computed : (numbers.addMoney "lots.terms.cost" { amount := some ⟨10, 0⟩, instrumentId := "CASH-USDC" }
      { amount := some ⟨5, 0⟩, instrumentId := "CASH-USDT" }).toOption.any (fun _ => true) = true := by
    decide +kernel
  obtain ⟨sum, summed, -⟩ := answered_of computed
  obtain ⟨x, y, namesX, namesY, same, instruments⟩ := (claim _ _ _ _ summed).same
  have first := Money.names_iff.mp namesX
  have second := Money.names_iff.mp namesY
  have apart := instruments (first.2.1.trans (by decide +kernel))
  rw [first.2.2, second.2.2] at apart
  exact absurd apart (by decide +kernel)

end Book

end MeridianCore.Bor
