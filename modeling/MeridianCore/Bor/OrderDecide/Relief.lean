import MeridianCore.Bor.OrderDecide.OpenLots
import MeridianCore.Ordered.Allot

namespace MeridianCore

namespace Exact

/-- Units a value written to `scale` places states. -/
def FitsAt (scale : Nat) (units : Int) : Prop := units.natAbs < limit * 10 ^ (places - scale)

theorem integer_fits {held : Exact} {scale : Nat} (low : held.scale ≤ scale) (high : scale ≤ places)
    (fits : FitsAt scale held.units) :
    (held.integer * (10 ^ (scale - held.scale) : Nat)).natAbs < limit := by
  have split : (10 : Nat) ^ (places - held.scale) = 10 ^ (scale - held.scale) * 10 ^ (places - scale) := by
    rw [← pow_add]
    congr 1
    omega
  rw [FitsAt, units, split, Nat.cast_mul, ← mul_assoc, Int.natAbs_mul, Int.natAbs_natCast] at fits
  exact lt_of_mul_lt_mul_right fits (Nat.zero_le _)

theorem FitsAt.mono {scale more : Nat} {units : Int} (fits : FitsAt more units) (le : scale ≤ more) :
    FitsAt scale units :=
  lt_of_lt_of_le fits (Nat.mul_le_mul_left limit (Nat.pow_le_pow_right (by decide) (by omega)))

/-- A sum whose terms and itself the wire holds at the longer scale is made. -/
theorem checkedAdd_of_fits {a b : Exact} (fitsA : FitsAt (max a.scale b.scale) a.units)
    (fitsB : FitsAt (max a.scale b.scale) b.units) (fits : FitsAt (max a.scale b.scale) (a.units + b.units)) :
    ∃ sum, checkedAdd a b = .ok sum := by
  have high : max a.scale b.scale ≤ places := max_le a.scale_le b.scale_le
  have wideA := i128_of_digits (integer_fits (le_max_left _ _) high fitsA)
  have wideB := i128_of_digits (integer_fits (le_max_right _ _) high fitsB)
  have summed : (a.integer * (10 ^ (max a.scale b.scale - a.scale) : Nat) +
      b.integer * (10 ^ (max a.scale b.scale - b.scale) : Nat)).natAbs < limit := by
    have unitsA := @widen_units _ a _ wideA (le_max_left _ _) high
    have unitsB := @widen_units _ b _ wideB (le_max_right _ _) high
    rw [FitsAt, ← unitsA, ← unitsB, ← add_mul, Int.natAbs_mul, Int.natAbs_natCast] at fits
    exact lt_of_mul_lt_mul_right fits (Nat.zero_le _)
  refine ⟨⟨_, _, high, summed⟩, ?_⟩
  rw [checkedAdd]
  simp only [widen, wideA, wideB, bind, Except.bind, i128_of_digits summed, new, dif_pos high, dif_pos summed]

/-- A value at a scale, of units that scale can state. -/
theorem exists_units {scale : Nat} {units' : Int} (high : scale ≤ places)
    (whole : ((10 ^ (places - scale) : Nat) : Int) ∣ units') (fits : FitsAt scale units') :
    ∃ held : Exact, held.units = units' ∧ held.scale = scale := by
  obtain ⟨integer, rfl⟩ := whole
  rw [FitsAt, Int.natAbs_mul, Int.natAbs_natCast, mul_comm] at fits
  refine ⟨⟨integer, scale, high, lt_of_mul_lt_mul_right fits (Nat.zero_le _)⟩, ?_, rfl⟩
  exact mul_comm _ _

end Exact

namespace Bor

/-- A lot as relief takes from it: its name, and the units open on it. -/
def LotView.entry (view : LotView) : String × Int := (view.lotId, view.openQuantity.units)

/-- The longest scale a quantity and the lots it relieves are stated at. -/
def longestScale (quantity : Exact) (lots : List LotView) : Nat :=
  lots.foldr (fun lot longest => max lot.openQuantity.scale longest) quantity.scale

/-- A quantity the wire holds at every scale its lots are stated at. -/
def InRange (lots : List LotView) (quantity : Exact) : Prop :=
  Exact.FitsAt (longestScale quantity lots) quantity.units

theorem scale_le_longest (quantity : Exact) (lots : List LotView) :
    quantity.scale ≤ longestScale quantity lots ∧ ∀ lot ∈ lots, lot.openQuantity.scale ≤ longestScale quantity lots := by
  induction lots with
  | nil => exact ⟨le_refl _, fun _ none' => absurd none' List.not_mem_nil⟩
  | cons lot rest ih =>
    refine ⟨ih.1.trans (le_max_right _ _), fun one among => ?_⟩
    rcases List.mem_cons.mp among with rfl | later
    · exact le_max_left _ _
    · exact (ih.2 one later).trans (le_max_right _ _)

theorem longest_le {quantity : Exact} {lots : List LotView} {bound : Nat} (low : quantity.scale ≤ bound)
    (lows : ∀ lot ∈ lots, lot.openQuantity.scale ≤ bound) : longestScale quantity lots ≤ bound := by
  induction lots with
  | nil => exact low
  | cons lot rest ih =>
    obtain ⟨lowLot, lows⟩ := List.forall_mem_cons.mp lows
    exact max_le lowLot (ih lows)

/-- What relief takes of each lot, as units. -/
def takenUnits (takes : List (String × Exact)) : List (String × Int) :=
  takes.map fun take => (take.1, take.2.units)

section Relieve

variable {lots : List LotView} {quantity : Exact} {takes : List (String × Exact)}

theorem units_take (open' quantity : Exact) :
    (if open'.less quantity then open' else quantity).units = min open'.units quantity.units := by
  split
  · rename_i less
    have below := (Exact.less_iff _ _).mp less
    omega
  · rename_i notLess
    rw [Exact.less_iff] at notLess
    omega

/-- Relief takes as much of each lot in turn as it holds or as is left. -/
theorem relieve_takes (relieved : relieve lots quantity = .ok takes) :
    takenUnits takes = allot (lots.map LotView.entry) quantity.units := by
  induction lots generalizing quantity takes with
  | nil =>
    cases relieved
    rfl
  | cons lot rest ih =>
    rw [relieve] at relieved
    by_cases nothing : quantity.isZero = true
    · rw [if_pos nothing] at relieved
      cases relieved
      rw [(Exact.isZero_iff quantity).mp nothing, Allot.allot_zero]
      rfl
    · rw [if_neg nothing] at relieved
      obtain ⟨left, summed, relieved⟩ := bind_ok.mp relieved
      obtain ⟨later, rest', answered⟩ := bind_ok.mp relieved
      cases answered
      have leftUnits := (Exact.checkedAdd_ok (mapError_ok.mp summed)).1
      rw [Exact.units_negated, units_take] at leftUnits
      rw [Exact.isZero_iff] at nothing
      rw [← sub_eq_add_neg] at leftUnits
      rw [List.map_cons, LotView.entry, allot, if_neg nothing, ← leftUnits, ← ih rest', takenUnits, List.map_cons,
        units_take]
      rfl

/-- Relief answers wherever what is relieved fits at the scales in hand. -/
theorem relieve_returns {scale : Nat} (asked : 0 ≤ quantity.units) (sizes : ∀ lot ∈ lots, 0 < lot.openQuantity.units)
    (low : quantity.scale ≤ scale) (lows : ∀ lot ∈ lots, lot.openQuantity.scale ≤ scale)
    (fits : Exact.FitsAt scale quantity.units) : ∃ takes, relieve lots quantity = .ok takes := by
  induction lots generalizing quantity with
  | nil => exact ⟨[], rfl⟩
  | cons lot rest ih =>
    obtain ⟨size, sizes⟩ := List.forall_mem_cons.mp sizes
    obtain ⟨lowLot, lows⟩ := List.forall_mem_cons.mp lows
    rw [relieve]
    by_cases nothing : quantity.isZero = true
    · exact ⟨[], if_pos nothing⟩
    · rw [if_neg nothing]
      have units := units_take lot.openQuantity quantity
      have scaleTake : (if lot.openQuantity.less quantity then lot.openQuantity else quantity).scale ≤ scale := by
        split
        · exact lowLot
        · exact low
      generalize (if lot.openQuantity.less quantity then lot.openQuantity else quantity) = take at units scaleTake ⊢
      have le : max quantity.scale take.negated.scale ≤ scale := max_le low scaleTake
      have within {one : Int} (lower : -quantity.units ≤ one) (upper : one ≤ quantity.units) :
          Exact.FitsAt (max quantity.scale take.negated.scale) one :=
        Exact.FitsAt.mono (lt_of_le_of_lt (show one.natAbs ≤ quantity.units.natAbs by omega) fits) le
      have negative : take.negated.units = -min lot.openQuantity.units quantity.units := by
        rw [Exact.units_negated, units]
      obtain ⟨left, summed⟩ := Exact.checkedAdd_of_fits (a := quantity) (b := take.negated)
        (within (by omega) (by omega)) (within (by omega) (by omega)) (within (by omega) (by omega))
      obtain ⟨leftUnits, leftScale⟩ := Exact.checkedAdd_ok summed
      have fitsLeft : Exact.FitsAt scale left.units :=
        lt_of_le_of_lt (show left.units.natAbs ≤ quantity.units.natAbs by omega) fits
      obtain ⟨later, relieved⟩ := ih (by omega) sizes (leftScale.trans_le le) lows fitsLeft
      exact ⟨_, bind_ok.mpr ⟨left, mapError_ok.mpr summed, bind_ok.mpr ⟨later, relieved, rfl⟩⟩⟩

end Relieve

/-- Towards zero. -/
def truncated (value : ℚ) : Int := value.num.tdiv value.den

theorem truncated_div (numerator : Int) {divisor : Int} (nonzero : divisor ≠ 0) :
    truncated ((numerator : ℚ) / divisor) = numerator.tdiv divisor := by
  obtain ⟨common, top, bottom⟩ := Rat.num_den_mk nonzero (Rat.divInt_eq_div numerator divisor).symm
  have apart : common ≠ 0 := by
    rintro rfl
    exact nonzero (by rw [bottom, Int.zero_mul])
  rw [truncated]
  generalize ((numerator : ℚ) / divisor) = quotient at top bottom ⊢
  rw [top, bottom]
  rcases lt_or_gt_of_ne apart with below | above
  · rw [← Int.neg_tdiv_neg (common * quotient.num), ← Int.neg_mul, ← Int.neg_mul,
      Int.mul_tdiv_mul_of_pos _ _ (by omega)]
  · rw [Int.mul_tdiv_mul_of_pos _ _ above]

/-- A number as a cost keeps it: to so many places towards zero, and nothing where a value holds
no such number. -/
def cut (scale : Nat) (value : ℚ) : ℚ :=
  let kept := truncated (value * 10 ^ scale)
  if scale ≤ places ∧ kept.natAbs < limit then kept / 10 ^ scale else 0

/-- The places a cost worked out of two values is cut to. -/
def quotientScale (cost original : Exact) : Nat := max cost.scale original.scale + 6

/-- A lot's cost per unit: as it is stated, or of its cost and its original quantity; the least of
all where neither is known. -/
def costBy (quotient : Exact → Exact → ℚ) (state : LotState) : WithBot ℚ :=
  let terms := state.lot.terms.getD {}
  match amountOf terms.unitCost with
  | some unit => (unit.value : ℚ)
  | none =>
    match amountOf terms.cost with
    | some cost => if state.lot.originalQuantity.isZero then ⊥ else (quotient cost state.lot.originalQuantity : ℚ)
    | none => ⊥

def trueCost : LotState → WithBot ℚ := costBy fun cost original => cost.value / original.value

def keptCost : LotState → WithBot ℚ :=
  costBy fun cost original => cut (quotientScale cost original) (cost.value / original.value)

/-- The power of ten a lot's cost is raised by before it is divided. -/
def raisedBy (cost original : Exact) : Nat := quotientScale cost original - cost.scale + original.scale

/-- What holds of the cost and the original quantity a lot's cost per unit is worked out of. -/
def WorkedOut (holds : Exact → Exact → Prop) (state : LotState) : Prop :=
  let terms := state.lot.terms.getD {}
  amountOf terms.unitCost = none → ∀ cost, amountOf terms.cost = some cost →
    state.lot.originalQuantity.isZero = false → holds cost state.lot.originalQuantity

/-- Neither the power nor the product a cost per unit is worked out by leaves an `i128`. -/
def NoneWrap : LotState → Prop := WorkedOut fun cost original =>
  wrapping (10 ^ raisedBy cost original) = 10 ^ raisedBy cost original ∧
    wrapping (cost.integer * 10 ^ raisedBy cost original) = cost.integer * 10 ^ raisedBy cost original

/-- The power is one of the thirty-eight an `i128` holds, and the raised cost within its range. -/
def QuotientFits : LotState → Prop := WorkedOut fun cost original =>
  raisedBy cost original ≤ 38 ∧ -2 ^ 127 ≤ cost.integer * 10 ^ raisedBy cost original ∧
    cost.integer * 10 ^ raisedBy cost original < 2 ^ 127

theorem wrapping_eq_iff {value : Int} : wrapping value = value ↔ -2 ^ 127 ≤ value ∧ value < 2 ^ 127 := by
  constructor
  · intro same
    have low := Int.le_bmod (x := value) (m := 2 ^ 128) (by positivity)
    have high := Int.bmod_lt (x := value) (m := 2 ^ 128) (by positivity)
    rw [show value.bmod (2 ^ 128) = value from same] at low high
    norm_num at low high ⊢
    omega
  · rintro ⟨low, high⟩
    exact Int.bmod_eq_of_le (by norm_num at low ⊢; omega) (by norm_num at high ⊢; omega)

theorem noneWrap_iff (state : LotState) : NoneWrap state ↔ QuotientFits state := by
  have powers (power : Nat) : wrapping (10 ^ power) = 10 ^ power ↔ power ≤ 38 := by
    rw [wrapping_eq_iff]
    constructor
    · rintro ⟨-, high⟩
      by_contra more
      have at_ : (10 : Int) ^ 39 ≤ 10 ^ power := pow_le_pow_right₀ (by norm_num) (by omega)
      norm_num at at_ high
      omega
    · intro less
      have at_ : (10 : Int) ^ power ≤ 10 ^ 38 := pow_le_pow_right₀ (by norm_num) less
      have positive : (0 : Int) < 10 ^ power := by positivity
      norm_num at at_ ⊢
      omega
  unfold NoneWrap QuotientFits WorkedOut
  simp only [powers, wrapping_eq_iff]

/-- A cost as costs are compared, an unknown one the least. -/
def asCost : Option Exact → WithBot ℚ
  | some cost => (cost.value : ℚ)
  | none => ⊥

theorem costPerUnit_value {cost original : Exact} (whole : original.isZero = false)
    (fits : wrapping (10 ^ raisedBy cost original) = 10 ^ raisedBy cost original)
    (product : wrapping (cost.integer * 10 ^ raisedBy cost original) = cost.integer * 10 ^ raisedBy cost original) :
    (costPerUnit cost original).value = cut (quotientScale cost original) (cost.value / original.value) := by
  have nonzero : original.integer ≠ 0 := by
    intro zero
    rw [Exact.isZero, zero] at whole
    cases whole
  have raised : cost.value / original.value * 10 ^ quotientScale cost original =
      ((cost.integer * 10 ^ raisedBy cost original : Int) : ℚ) / (original.integer : Int) := by
    have low : cost.scale ≤ quotientScale cost original := le_trans (le_max_left _ _) (Nat.le_add_right _ _)
    have exponents : raisedBy cost original + cost.scale = quotientScale cost original + original.scale := by
      unfold raisedBy
      omega
    have split : (10 : ℚ) ^ raisedBy cost original * 10 ^ cost.scale =
        10 ^ quotientScale cost original * 10 ^ original.scale := by
      rw [← pow_add, ← pow_add, exponents]
    have divisor : (original.integer : ℚ) ≠ 0 := by exact_mod_cast nonzero
    have tensCost : (10 : ℚ) ^ cost.scale ≠ 0 := by positivity
    have tensOriginal : (10 : ℚ) ^ original.scale ≠ 0 := by positivity
    rw [Exact.value, Exact.value, Int.cast_mul, Int.cast_pow, Int.cast_ofNat]
    generalize (10 : ℚ) ^ raisedBy cost original = raised at split ⊢
    generalize (10 : ℚ) ^ quotientScale cost original = tens at split ⊢
    generalize (10 : ℚ) ^ cost.scale = costTens at split tensCost ⊢
    generalize (10 : ℚ) ^ original.scale = originalTens at split tensOriginal ⊢
    field_simp
    linear_combination -(cost.integer : ℚ) * split
  rw [cut, raised, truncated_div _ nonzero]
  rw [costPerUnit]
  change ((Exact.new ((wrapping (cost.integer * wrapping (10 ^ raisedBy cost original))).tdiv original.integer)
    (quotientScale cost original)).toOption.getD Exact.zero).value = _
  rw [fits, product, Exact.new]
  by_cases scaleFits : quotientScale cost original ≤ places
  · rw [dif_pos scaleFits]
    by_cases digits : ((cost.integer * 10 ^ raisedBy cost original).tdiv original.integer).natAbs < limit
    · rw [dif_pos digits, if_pos ⟨scaleFits, digits⟩]
      rfl
    · rw [dif_neg digits, if_neg fun both => digits both.2]
      simp [Except.toOption, Exact.value, Exact.zero]
  · rw [dif_neg scaleFits, if_neg fun both => scaleFits both.1]
    simp [Except.toOption, Exact.value, Exact.zero]

/-- The cost a lot is relieved by is its cost per unit, cut. -/
theorem asCost_view {state : LotState} (fits : NoneWrap state) : asCost (LotView.of state).unitCost = keptCost state := by
  unfold NoneWrap WorkedOut at fits
  simp only [LotView.of, keptCost, costBy]
  cases unit : amountOf (state.lot.terms.getD {}).unitCost with
  | some unit => rfl
  | none =>
    cases stated : amountOf (state.lot.terms.getD {}).cost with
    | none => rfl
    | some cost =>
      cases whole : state.lot.originalQuantity.isZero with
      | true => rfl
      | false =>
        obtain ⟨power, product⟩ := fits unit cost stated whole
        exact congrArg _ (costPerUnit_value whole power product)

/-- When a lot was acquired: its date, then the order it was opened in. -/
def acquired (state : LotState) : String ×ₗ Nat :=
  toLex ((state.lot.terms.getD {}).acquiredDate, state.ordinal)

/-- One cost relieved before another, by the methods that go by cost. -/
def CostBefore (method : LotReliefMethod) (a b : WithBot ℚ) : Prop :=
  match method with
  | .highestCost => b < a
  | _ => a < b

/-- A lot the method relieves before another: by cost, or by when each was acquired. -/
def TrulyBefore (method : LotReliefMethod) (a b : LotState) : Prop :=
  match method with
  | .lastInFirstOut => acquired b < acquired a
  | .highestCost | .lowestCost => CostBefore method (trueCost a) (trueCost b)
  | _ => acquired a < acquired b

/-- A lot before another by their costs as kept: alike, by when each was acquired, then by name. -/
def KeptBefore (method : LotReliefMethod) (a b : LotState) : Prop :=
  match method with
  | .lastInFirstOut => acquired b < acquired a
  | .highestCost | .lowestCost => CostBefore method (keptCost a) (keptCost b) ∨
      keptCost a = keptCost b ∧ (acquired a < acquired b ∨ acquired a = acquired b ∧ a.lot.lotId < b.lot.lotId)
  | _ => acquired a < acquired b

/-- The lots in the method's order, before those the order names are put first. -/
def methodOrder (lots : List LotView) : LotReliefMethod → List LotView
  | .lastInFirstOut => (lots.insertionSort fun a b => acquiredBefore a b).reverse
  | .highestCost => lots.insertionSort fun a b => byCost (compareCosts b.unitCost a.unitCost) a b
  | .lowestCost => lots.insertionSort fun a b => byCost (compareCosts a.unitCost b.unitCost) a b
  | _ => lots.insertionSort fun a b => acquiredBefore a b

section Order

variable {lots : List LotView} {method : LotReliefMethod} {named : List String} {a b : LotView}

theorem relievedOrder_eq : relievedOrder lots method named =
    (methodOrder lots method).filter (·.lotId ∈ named) ++ (methodOrder lots method).filter (·.lotId ∉ named) := by
  cases method <;> rfl

theorem methodOrder_perm : (methodOrder lots method).Perm lots := by
  cases method
  case lastInFirstOut => exact (List.reverse_perm _).trans (List.perm_insertionSort _ lots)
  all_goals exact List.perm_insertionSort _ lots

theorem relievedOrder_perm : (relievedOrder lots method named).Perm lots := by
  rw [relievedOrder_eq]
  have parted := List.filter_append_perm (fun view : LotView => decide (view.lotId ∈ named)) (methodOrder lots method)
  simp only [← decide_not] at parted
  exact parted.trans methodOrder_perm

/-- Of two lots the order names both or neither of, the method's order holds. -/
theorem relievedOrder_pair (alike : a.lotId ∈ named ↔ b.lotId ∈ named)
    (ordered : [a, b].Sublist (methodOrder lots method)) : [a, b].Sublist (relievedOrder lots method named) := by
  rw [relievedOrder_eq]
  by_cases names : a.lotId ∈ named
  · have kept := ordered.filter (·.lotId ∈ named)
    rw [List.filter_cons_of_pos (by simpa using names), List.filter_cons_of_pos (by simpa using alike.mp names)] at kept
    exact kept.trans (List.sublist_append_left _ _)
  · have kept := ordered.filter (·.lotId ∉ named)
    rw [List.filter_cons_of_pos (by simpa using names),
      List.filter_cons_of_pos (by simpa using fun namedB => names (alike.mpr namedB))] at kept
    exact kept.trans (List.sublist_append_right _ _)

/-- A lot the order names comes before one it does not. -/
theorem relievedOrder_named (namesA : a.lotId ∈ named) (namesB : b.lotId ∉ named) (inA : a ∈ lots) (inB : b ∈ lots) :
    [a, b].Sublist (relievedOrder lots method named) := by
  rw [relievedOrder_eq]
  have first : a ∈ (methodOrder lots method).filter (·.lotId ∈ named) :=
    List.mem_filter.mpr ⟨methodOrder_perm.mem_iff.mpr inA, by simpa using namesA⟩
  have later : b ∈ (methodOrder lots method).filter (·.lotId ∉ named) :=
    List.mem_filter.mpr ⟨methodOrder_perm.mem_iff.mpr inB, by simpa using namesB⟩
  exact (List.singleton_sublist.mpr first).append (List.singleton_sublist.mpr later)

/-- When a lot so viewed was acquired. -/
def LotView.acquired (view : LotView) : String ×ₗ Nat := toLex (view.acquiredDate, view.ordinal)

theorem acquiredBefore_iff (a b : LotView) : acquiredBefore a b = true ↔ a.acquired ≤ b.acquired := by
  rw [LotView.acquired, LotView.acquired, Prod.Lex.toLex_le_toLex, acquiredBefore]
  cases dates : compare a.acquiredDate b.acquiredDate with
  | lt => simp [compare_lt_iff_lt.mp dates]
  | eq =>
    have same := Std.compare_eq_iff_eq.mp dates
    simp [same]
  | gt =>
    have later : b.acquiredDate < a.acquiredDate := compare_gt_iff_gt.mp dates
    simp [later.ne', later.not_gt]

theorem compareCosts_eq (a b : Option Exact) : compareCosts a b = compare (asCost a) (asCost b) := by
  cases a with
  | none =>
    cases b with
    | none => rfl
    | some cost => exact (compare_lt_iff_lt.mpr (WithBot.bot_lt_coe _)).symm
  | some first =>
    cases b with
    | none => exact (compare_gt_iff_gt.mpr (WithBot.bot_lt_coe _)).symm
    | some second =>
      change Exact.cmp first second = compare (first.value : WithBot ℚ) (second.value : WithBot ℚ)
      rw [Exact.cmp_eq_compare]
      rcases lt_trichotomy first.units second.units with less | same | more
      · rw [compare_lt_iff_lt.mpr less,
          compare_lt_iff_lt.mpr (WithBot.coe_lt_coe.mpr ((Exact.units_lt_iff _ _).mp less))]
      · have value : first.value = second.value := by
          have notLess := (Exact.units_lt_iff first second).not.mp (by omega)
          have notMore := (Exact.units_lt_iff second first).not.mp (by omega)
          exact le_antisymm (not_lt.mp notMore) (not_lt.mp notLess)
        rw [same, value, compare_eq_iff_eq.mpr rfl, compare_eq_iff_eq.mpr rfl]
      · rw [compare_gt_iff_gt.mpr more,
          compare_gt_iff_gt.mpr (WithBot.coe_lt_coe.mpr ((Exact.units_lt_iff _ _).mp more))]

theorem byCost_iff {γ : Type} [LinearOrder γ] (costA costB : γ) (a b : LotView) :
    byCost (compare costA costB) a b = true ↔ toLex (costA, a.acquired) ≤ toLex (costB, b.acquired) := by
  rw [Prod.Lex.toLex_le_toLex]
  unfold byCost
  rcases lt_trichotomy costA costB with less | same | more
  · simp [compare_lt_iff_lt.mpr less, less]
  · rw [compare_eq_iff_eq.mpr same]
    simp [same, acquiredBefore_iff]
  · simp [compare_gt_iff_gt.mpr more, more.not_gt, more.ne']

/-- The lots as the methods that go by cost rank them. -/
theorem ranked_highest (a b : LotView) : byCost (compareCosts b.unitCost a.unitCost) a b = true ↔
    toLex (OrderDual.toDual (asCost a.unitCost), a.acquired) ≤ toLex (OrderDual.toDual (asCost b.unitCost), b.acquired) := by
  rw [compareCosts_eq, ← byCost_iff]
  rfl

theorem ranked_lowest (a b : LotView) : byCost (compareCosts a.unitCost b.unitCost) a b = true ↔
    toLex (asCost a.unitCost, a.acquired) ≤ toLex (asCost b.unitCost, b.acquired) := by
  rw [compareCosts_eq, byCost_iff]

/-- A lot viewed, its cost as kept and the moment it was acquired its record's. -/
structure Views (state : LotState) (view : LotView) : Prop where
  lotId : view.lotId = state.lot.lotId
  acquired : view.acquired = Bor.acquired state
  cost : asCost view.unitCost = keptCost state

variable {stateA stateB : LotState}

/-- A lot before another by the costs kept is before it in the method's order. -/
theorem methodOrder_pair (ordered : lots.Pairwise fun a b => a.lotId < b.lotId) (inA : a ∈ lots) (inB : b ∈ lots)
    (viewA : Views stateA a) (viewB : Views stateB b) (before : KeptBefore method stateA stateB) :
    [a, b].Sublist (methodOrder lots method) := by
  -- lots acquired at one moment and of one cost stay in the order of their names
  have named (less : stateA.lot.lotId < stateB.lot.lotId) : [a, b].Sublist lots := by
    rw [← viewA.lotId, ← viewB.lotId] at less
    refine (Sorted.pair_sublist inA inB fun same => (same ▸ less).false).resolve_right fun reversed => ?_
    have other := ordered.sublist reversed
    rw [List.pairwise_pair] at other
    exact less.not_gt other
  have byCosts {γ : Type} [LinearOrder γ] {before : LotView → LotView → Bool} {cost : LotView → γ}
      (ranked : ∀ a b, before a b = true ↔ toLex (cost a, a.acquired) ≤ toLex (cost b, b.acquired))
      (ordered : cost a < cost b ∨ cost a = cost b ∧
        (Bor.acquired stateA < Bor.acquired stateB ∨
          Bor.acquired stateA = Bor.acquired stateB ∧ stateA.lot.lotId < stateB.lot.lotId)) :
      [a, b].Sublist (lots.insertionSort fun a b => before a b) := by
    rcases ordered with less | ⟨same, earlier | ⟨atOnce, less⟩⟩
    · exact Sorted.sorted_of_lt ranked (Prod.Lex.toLex_lt_toLex.mpr (.inl less)) inA inB
    · rw [← viewA.acquired, ← viewB.acquired] at earlier
      exact Sorted.sorted_of_lt ranked (Prod.Lex.toLex_lt_toLex.mpr (.inr ⟨same, earlier⟩)) inA inB
    · rw [← viewA.acquired, ← viewB.acquired] at atOnce
      exact Sorted.sorted_of_eq ranked (congrArg toLex (Prod.ext same atOnce)) (named less)
  have byDates (earlier : Bor.acquired stateA < Bor.acquired stateB) :
      [a, b].Sublist (lots.insertionSort fun a b => acquiredBefore a b) := by
    rw [← viewA.acquired, ← viewB.acquired] at earlier
    exact Sorted.sorted_of_lt acquiredBefore_iff earlier inA inB
  cases method with
  | lastInFirstOut =>
    rw [KeptBefore, ← viewA.acquired, ← viewB.acquired] at before
    exact (Sorted.sorted_of_lt acquiredBefore_iff before inB inA).reverse
  | highestCost =>
    rw [KeptBefore, CostBefore, ← viewA.cost, ← viewB.cost] at before
    refine byCosts ranked_highest (before.imp id fun ⟨same, rest⟩ => ⟨congrArg _ same, rest⟩)
  | lowestCost =>
    rw [KeptBefore, ← viewA.cost, ← viewB.cost] at before
    exact byCosts ranked_lowest before
  | _ => exact byDates before

theorem keptBefore_iff (byCosts : method = .highestCost ∨ method = .lowestCost) :
    KeptBefore method stateA stateB ↔ CostBefore method (keptCost stateA) (keptCost stateB) ∨
      keptCost stateA = keptCost stateB ∧ (acquired stateA < acquired stateB ∨
        acquired stateA = acquired stateB ∧ stateA.lot.lotId < stateB.lot.lotId) := by
  rcases byCosts with rfl | rfl <;> rfl

/-- Where the method goes by cost, of two lots one is before the other by the costs kept. -/
theorem keptBefore_or (byCosts : method = .highestCost ∨ method = .lowestCost)
    (apart : stateA.lot.lotId ≠ stateB.lot.lotId) (notBefore : ¬ KeptBefore method stateA stateB) :
    KeptBefore method stateB stateA := by
  have ties (alike : keptCost stateA = keptCost stateB)
      (later : ¬ (keptCost stateA = keptCost stateB ∧ (acquired stateA < acquired stateB ∨
        acquired stateA = acquired stateB ∧ stateA.lot.lotId < stateB.lot.lotId))) :
      keptCost stateB = keptCost stateA ∧ (acquired stateB < acquired stateA ∨
        acquired stateB = acquired stateA ∧ stateB.lot.lotId < stateA.lot.lotId) := by
    push Not at later
    obtain ⟨dates, names⟩ := later alike
    refine ⟨alike.symm, (lt_or_eq_of_le dates).imp id fun atOnce => ⟨atOnce, ?_⟩⟩
    exact lt_of_le_of_ne (names atOnce.symm) apart.symm
  rw [keptBefore_iff byCosts, not_or] at notBefore
  obtain ⟨costs, later⟩ := notBefore
  rw [keptBefore_iff byCosts]
  rcases byCosts with rfl | rfl
  · rcases lt_or_eq_of_le (not_lt.mp costs) with less | same
    · exact .inl less
    · exact .inr (ties same later)
  · rcases lt_or_eq_of_le (not_lt.mp costs) with less | same
    · exact .inl less
    · exact .inr (ties same.symm later)

end Order

/-- A lot a sale may relieve, once the lines before it have moved it. -/
def IsOpen (book : Book) (key : Key) (earlier : List MovementLine) (state : LotState) : Prop :=
  heldAs book key state.lot.lotId = some state ∧ 0 < openNow book key earlier state.lot.lotId

/-- All that is open of a lot is taken. -/
def Exhausts (book : Book) (key : Key) (earlier : List MovementLine) (takes : List (String × Exact))
    (lotId : String) : Prop :=
  ∃ take, (lotId, take) ∈ takes ∧ take.units = openNow book key earlier lotId

/-- What a sale takes: of distinct lots, of each no more than is open, together all that is asked or
all that is open; of the lots the order names first, then as the method goes. -/
structure Relieves (book : Book) (key : Key) (earlier : List MovementLine) (method : LotReliefMethod)
    (named : List String) (lots : List LotView) (quantity : Exact) (takes : List (String × Exact)) : Prop where
  distinct : (takes.map Prod.fst).Nodup
  within : ∀ take ∈ takes, 0 < take.2.units ∧ take.2.units ≤ openNow book key earlier take.1
  whole : (takes.map fun take => take.2.units).sum =
    min quantity.units (lots.map fun lot => lot.openQuantity.units).sum
  namedFirst : ∀ a b, IsOpen book key earlier a → IsOpen book key earlier b → a.lot.lotId ∈ named →
    b.lot.lotId ∉ named → b.lot.lotId ∈ takes.map Prod.fst → Exhausts book key earlier takes a.lot.lotId
  ordered : ∀ a b, IsOpen book key earlier a → IsOpen book key earlier b → a.lot.lotId ∉ named →
    b.lot.lotId ∉ named → TrulyBefore method a b → b.lot.lotId ∈ takes.map Prod.fst →
    Exhausts book key earlier takes a.lot.lotId

/-- A position's open lots are relieved as the method says, whatever is asked of them. -/
structure RelievesAll (book : Book) (key : Key) (earlier : List MovementLine) (method : LotReliefMethod)
    (named : List String) (lots : List LotView) : Prop where
  distinct : (lots.map LotView.lotId).Nodup
  opens : ∀ lotId units, (∃ lot ∈ lots, lot.lotId = lotId ∧ lot.openQuantity.units = units) ↔
    0 < units ∧ openNow book key earlier lotId = units
  noneWrap : ∀ state ∈ statesOf book key, NoneWrap state
  returns : ∀ quantity, 0 ≤ quantity.units → InRange lots quantity →
    ∃ takes, relief lots quantity method named = .ok takes
  relieves : ∀ quantity takes, 0 ≤ quantity.units → relief lots quantity method named = .ok takes →
    Relieves book key earlier method named lots quantity takes

/-- No cost per unit leaves an `i128` while it is worked out, and none is so cut that it puts two
lots the order does not name the other way round. -/
structure CostsKept (book : Book) (key : Key) (earlier : List MovementLine) (method : LotReliefMethod)
    (named : List String) : Prop where
  fit : ∀ state ∈ statesOf book key, QuotientFits state
  ordered : ∀ a b, IsOpen book key earlier a → IsOpen book key earlier b → a.lot.lotId ∉ named →
    b.lot.lotId ∉ named → TrulyBefore method a b → KeptBefore method a b

section

variable {book : Book} {key : Key} {earlier : List MovementLine} {method : LotReliefMethod} {named : List String}
  {lots : List LotView}

theorem view_of_open (are : OpenLots book key earlier lots) (fits : ∀ state ∈ statesOf book key, NoneWrap state)
    {state : LotState} (isOpen : IsOpen book key earlier state) : ∃ view ∈ lots, Views state view := by
  obtain ⟨view, inLots, named⟩ := are.every _ isOpen.2
  obtain ⟨state', held, view'⟩ := are.viewed view inLots
  rw [named, isOpen.1] at held
  cases held
  refine ⟨view, inLots, named, ?_, ?_⟩
  · rw [view']
    rfl
  · rw [view']
    exact asCost_view (fits state (heldAs_lotId isOpen.1).1)

theorem sizes_relieved (are : OpenLots book key earlier lots) :
    ∀ entry ∈ (relievedOrder lots method named).map LotView.entry, 0 < entry.2 := by
  intro entry among
  obtain ⟨view, relieved, rfl⟩ := List.mem_map.mp among
  exact are.positive view (relievedOrder_perm.mem_iff.mp relieved)

theorem names_relieved (are : OpenLots book key earlier lots) :
    (((relievedOrder lots method named).map LotView.entry).map Prod.fst).Nodup := by
  rw [List.map_map]
  exact ((relievedOrder_perm.map LotView.lotId).nodup_iff).mpr are.nodup

/-- A lot before one relieved from is exhausted. -/
theorem exhausts_before (are : OpenLots book key earlier lots) {quantity : Exact} {takes : List (String × Exact)}
    (asked : 0 ≤ quantity.units) (relieved : relief lots quantity method named = .ok takes) {a b : LotView}
    (inA : a ∈ lots) (before : [a, b].Sublist (relievedOrder lots method named))
    (taken : b.lotId ∈ takes.map Prod.fst) : Exhausts book key earlier takes a.lotId := by
  have allotted := relieve_takes relieved
  obtain ⟨take, inTakes, names⟩ := List.mem_map.mp taken
  have takenB : (b.lotId, take.2.units) ∈ takenUnits takes := List.mem_map.mpr ⟨take, inTakes, by rw [names]⟩
  rw [allotted] at takenB
  have whole := Allot.exhausted (sizes_relieved are) asked (names_relieved are) (before.map LotView.entry) takenB
  rw [← allotted] at whole
  obtain ⟨⟨lotA, takeA⟩, inTakesA, same⟩ := List.mem_map.mp whole
  obtain ⟨rfl, units⟩ := Prod.mk.inj same
  exact ⟨takeA, inTakesA, units.trans (are.units a inA)⟩

section

variable {quantity : Exact} {takes : List (String × Exact)}

/-- The lots relieved are distinct. -/
theorem takes_distinct (are : OpenLots book key earlier lots) (relieved : relief lots quantity method named = .ok takes) :
    (takes.map Prod.fst).Nodup := by
  have names : takes.map Prod.fst = (takenUnits takes).map Prod.fst := by
    rw [takenUnits, List.map_map]
    rfl
  rw [names, relieve_takes relieved]
  exact (names_relieved are).sublist (Allot.keys_sublist _ _)

/-- No more is relieved of a lot than is open. -/
theorem takes_within (are : OpenLots book key earlier lots) (relieved : relief lots quantity method named = .ok takes) :
    ∀ take ∈ takes, take.2.units ≤ openNow book key earlier take.1 := by
  intro take inTakes
  have taken : (take.1, take.2.units) ∈ takenUnits takes := List.mem_map.mpr ⟨take, inTakes, rfl⟩
  rw [relieve_takes relieved] at taken
  obtain ⟨size, inOrder, within⟩ := Allot.allot_le taken
  obtain ⟨view, relieved, same⟩ := List.mem_map.mp inOrder
  obtain ⟨named, rfl⟩ := Prod.mk.inj same
  have units := are.units view (relievedOrder_perm.mem_iff.mp relieved)
  rw [named] at units
  exact units ▸ within

/-- Something is relieved of every lot relieved. -/
theorem takes_positive (are : OpenLots book key earlier lots) (asked : 0 ≤ quantity.units)
    (relieved : relief lots quantity method named = .ok takes) : ∀ take ∈ takes, 0 < take.2.units := by
  intro take inTakes
  have taken : (take.1, take.2.units) ∈ takenUnits takes := List.mem_map.mpr ⟨take, inTakes, rfl⟩
  rw [relieve_takes relieved] at taken
  exact Allot.allot_pos (sizes_relieved are) asked taken

/-- What is relieved of open lots together: all that is asked, or all they hold. -/
theorem takes_total (are : OpenLots book key earlier lots) (asked : 0 ≤ quantity.units)
    (relieved : relief lots quantity method named = .ok takes) :
    (takes.map fun take => take.2.units).sum =
      min quantity.units (lots.map fun lot => lot.openQuantity.units).sum := by
  have sums := Allot.total_allot (@sizes_relieved _ _ _ method named _ are) asked
  rw [← relieve_takes relieved, Allot.total, Allot.total, takenUnits, List.map_map, List.map_map] at sums
  rw [← (relievedOrder_perm.map fun lot : LotView => lot.openQuantity.units).sum_eq]
  exact sums

end

theorem relieves_of_kept (are : OpenLots book key earlier lots) (kept : CostsKept book key earlier method named)
    {quantity : Exact} {takes : List (String × Exact)} (asked : 0 ≤ quantity.units)
    (relieved : relief lots quantity method named = .ok takes) :
    Relieves book key earlier method named lots quantity takes := by
  have fits : ∀ state ∈ statesOf book key, NoneWrap state := fun state held => (noneWrap_iff state).mpr (kept.fit state held)
  refine ⟨takes_distinct are relieved,
    fun take inTakes => ⟨takes_positive are asked relieved take inTakes, takes_within are relieved take inTakes⟩,
    takes_total are asked relieved, fun a b openA openB namedA namedB taken => ?_,
    fun a b openA openB unnamedA unnamedB before taken => ?_⟩
  · obtain ⟨viewA, inA, viewsA⟩ := view_of_open are fits openA
    obtain ⟨viewB, inB, viewsB⟩ := view_of_open are fits openB
    rw [← viewsA.lotId] at namedA ⊢
    rw [← viewsB.lotId] at namedB taken
    exact exhausts_before are asked relieved inA (relievedOrder_named namedA namedB inA inB) taken
  · obtain ⟨viewA, inA, viewsA⟩ := view_of_open are fits openA
    obtain ⟨viewB, inB, viewsB⟩ := view_of_open are fits openB
    have ordered := methodOrder_pair are.ordered inA inB viewsA viewsB
      (kept.ordered a b openA openB unnamedA unnamedB before)
    rw [← viewsA.lotId] at unnamedA ⊢
    rw [← viewsB.lotId] at unnamedB taken
    have alike : viewA.lotId ∈ named ↔ viewB.lotId ∈ named := iff_of_false unnamedA unnamedB
    exact exhausts_before are asked relieved inA (relievedOrder_pair alike ordered) taken

theorem returns_of_open (are : OpenLots book key earlier lots) {quantity : Exact} (asked : 0 ≤ quantity.units)
    (inRange : InRange lots quantity) : ∃ takes, relief lots quantity method named = .ok takes := by
  obtain ⟨low, lows⟩ := scale_le_longest quantity lots
  have back {lot : LotView} (relieved : lot ∈ relievedOrder lots method named) : lot ∈ lots :=
    relievedOrder_perm.mem_iff.mp relieved
  exact relieve_returns asked (fun lot relieved => are.positive lot (back relieved)) low
    (fun lot relieved => lows lot (back relieved)) inRange

/-- Some of the lots together, as a value at the scale they are stated at. -/
theorem exists_total {some' others : List LotView} (perm : (some' ++ others).Perm lots)
    (sizes : ∀ lot ∈ lots, 0 < lot.openQuantity.units)
    (fits : Exact.FitsAt (longestScale Exact.zero lots) (lots.map fun lot => lot.openQuantity.units).sum) :
    ∃ quantity : Exact, quantity.units = Allot.total (some'.map LotView.entry) ∧ 0 ≤ quantity.units ∧
      InRange lots quantity := by
  obtain ⟨-, lows⟩ := scale_le_longest Exact.zero lots
  have high : longestScale Exact.zero lots ≤ places := longest_le (Nat.zero_le _) fun lot _ => lot.openQuantity.scale_le
  have member {lot : LotView} (among : lot ∈ some') : lot ∈ lots := perm.mem_iff.mp (List.mem_append_left _ among)
  have positive (part : List LotView) (within : ∀ lot ∈ part, lot ∈ lots) :
      0 ≤ Allot.total (part.map LotView.entry) := by
    refine Allot.total_nonneg fun entry among => ?_
    obtain ⟨lot, inPart, rfl⟩ := List.mem_map.mp among
    exact sizes lot (within lot inPart)
  have whole : (lots.map fun lot => lot.openQuantity.units).sum =
      Allot.total (some'.map LotView.entry) + Allot.total (others.map LotView.entry) := by
    rw [← (perm.map fun lot : LotView => lot.openQuantity.units).sum_eq, List.map_append, List.sum_append]
    simp only [Allot.total, List.map_map]
    rfl
  have first := positive some' fun lot among => member among
  have rest := positive others fun lot among => perm.mem_iff.mp (List.mem_append_right _ among)
  have fitsSome : Exact.FitsAt (longestScale Exact.zero lots) (Allot.total (some'.map LotView.entry)) := by
    refine lt_of_le_of_lt ?_ fits
    omega
  have divides : ((10 ^ (places - longestScale Exact.zero lots) : Nat) : Int) ∣ Allot.total (some'.map LotView.entry) := by
    refine List.dvd_sum fun units among => ?_
    obtain ⟨entry, inEntries, rfl⟩ := List.mem_map.mp among
    obtain ⟨lot, inSome, rfl⟩ := List.mem_map.mp inEntries
    have shorter := lows lot (member inSome)
    refine Dvd.dvd.mul_left (Int.natCast_dvd_natCast.mpr (pow_dvd_pow 10 ?_)) _
    omega
  obtain ⟨quantity, units, scale⟩ := Exact.exists_units high divides fitsSome
  refine ⟨quantity, units, units ▸ first, ?_⟩
  rw [InRange, units]
  exact Exact.FitsAt.mono fitsSome (longest_le scale.le lows)

/-- Where every quantity is relieved as the method says, the costs kept order the lots as they are. -/
theorem kept_of_relieves (are : OpenLots book key earlier lots)
    (fits : Exact.FitsAt (longestScale Exact.zero lots) (lots.map fun lot => lot.openQuantity.units).sum)
    (all : RelievesAll book key earlier method named lots) : CostsKept book key earlier method named := by
  refine ⟨fun state held => (noneWrap_iff state).mp (all.noneWrap state held),
    fun a b openA openB unnamedA unnamedB before => ?_⟩
  by_contra notBefore
  have byCosts : method = .highestCost ∨ method = .lowestCost := by
    cases method with
    | highestCost => exact .inl rfl
    | lowestCost => exact .inr rfl
    | _ => exact absurd before notBefore
  have apart : a.lot.lotId ≠ b.lot.lotId := by
    intro same
    have heldB := openB.1
    rw [← same, openA.1] at heldB
    cases heldB
    rcases byCosts with rfl | rfl <;> exact lt_irrefl _ before
  have reversed := keptBefore_or byCosts apart notBefore
  obtain ⟨viewA, inA, viewsA⟩ := view_of_open are all.noneWrap openA
  obtain ⟨viewB, inB, viewsB⟩ := view_of_open are all.noneWrap openB
  have alike : viewB.lotId ∈ named ↔ viewA.lotId ∈ named := by
    rw [viewsA.lotId, viewsB.lotId]
    exact iff_of_false unnamedB unnamedA
  have ordered := relievedOrder_pair alike (methodOrder_pair are.ordered inB inA viewsB viewsA reversed)
  -- the quantity that takes the lots up to the one before, and none of the other
  obtain ⟨first, rest, parted, inFirst, inRest⟩ := List.cons_sublist_iff.mp ordered
  obtain ⟨quantity, units, asked, inRange⟩ := exists_total (parted ▸ relievedOrder_perm) are.positive fits
  obtain ⟨takes, relieved⟩ := all.returns quantity asked inRange
  have sizes := @sizes_relieved _ _ _ method named _ are
  have names := @names_relieved _ _ _ method named _ are
  have allotted : takenUnits takes = first.map LotView.entry := by
    rw [relieve_takes relieved, units, parted, List.map_append]
    rw [parted, List.map_append] at sizes
    exact Allot.allot_total _ _ fun entry among => sizes entry (List.mem_append_left _ among)
  have taken {lotId : String} (inTakes : lotId ∈ takes.map Prod.fst) :
      lotId ∈ (first.map LotView.entry).map Prod.fst := by
    rw [← allotted, takenUnits, List.map_map]
    exact inTakes
  have takenB : b.lot.lotId ∈ takes.map Prod.fst := by
    have inEntries : viewB.entry ∈ takenUnits takes := allotted ▸ List.mem_map_of_mem inFirst
    obtain ⟨take, inTakes, same⟩ := List.mem_map.mp inEntries
    have named : take.1 = b.lot.lotId := (congrArg Prod.fst same).trans viewsB.lotId
    exact List.mem_map.mpr ⟨take, inTakes, named⟩
  obtain ⟨take, inTakes, -⟩ := (all.relieves quantity takes asked relieved).ordered a b openA openB unnamedA unnamedB
    before takenB
  rw [parted, List.map_append, List.map_append] at names
  have inBoth := taken (List.mem_map_of_mem inTakes)
  have later : a.lot.lotId ∈ (rest.map LotView.entry).map Prod.fst := by
    rw [← viewsA.lotId, List.map_map]
    exact List.mem_map_of_mem (List.singleton_sublist.mp inRest)
  exact (List.disjoint_of_nodup_append names) inBoth later

/-- A position's open lots are relieved as the method says, of whatever is asked, where no cost per
unit leaves an `i128` and none is cut past another; and, where what is open together is a value the
wire holds, nowhere else. -/
theorem relief_in_order (opened : openLots book key earlier = .ok lots) :
    (CostsKept book key earlier method named → RelievesAll book key earlier method named lots) ∧
    (Exact.FitsAt (longestScale Exact.zero lots) (lots.map fun lot => lot.openQuantity.units).sum →
      RelievesAll book key earlier method named lots → CostsKept book key earlier method named) := by
  have are := openLots_ok opened
  refine ⟨fun kept => ⟨are.nodup, fun lotId units => ⟨?_, ?_⟩, ?_, ?_, ?_⟩, kept_of_relieves are⟩
  · rintro ⟨view, inLots, rfl, rfl⟩
    exact ⟨are.positive view inLots, (are.units view inLots).symm⟩
  · rintro ⟨positive, rfl⟩
    obtain ⟨view, inLots, rfl⟩ := are.every lotId positive
    exact ⟨view, inLots, rfl, are.units view inLots⟩
  · intro state held
    exact (noneWrap_iff state).mpr (kept.fit state held)
  · intro quantity asked inRange
    exact returns_of_open are asked inRange
  · intro quantity takes asked relieved
    exact relieves_of_kept are kept asked relieved

end

/-- A lot of three, its cost alone known. -/
def lotOfThree (lotId acquiredDate : String) (cost : Exact) (ordinal : Nat) : LotState where
  lot := {
    lotId
    openQuantity := ⟨3, 0, Exact.zero.scale_le, by decide⟩
    originalQuantity := ⟨3, 0, Exact.zero.scale_le, by decide⟩
    terms := some { cost := some { amount := numbers.wire cost, currencyCode := "EUR" }, acquiredDate } }
  openedIn := 1
  ordinal

def sixHeld : Key := ⟨"INS-1", .long, ""⟩

/-- A book of one long position of six, in two lots of these costs, the first acquired a day before
the other. -/
def twoLots (first second : Exact) : Book :=
  { Book.new "ACC-1" "PAR-1" with
    positions := (∅ : BTreeMap Key PositionState).insert sixHeld
      { PositionState.new sixHeld with
        settled := ⟨6, 0, Exact.zero.scale_le, by decide⟩
        lots := ((∅ : BTreeMap String LotState).insert "LOT-1" (lotOfThree "LOT-1" "2024-01-01" first 0)).insert "LOT-2"
          (lotOfThree "LOT-2" "2024-01-02" second 1)
        openedLots := 2 } }

def three : Exact := ⟨3, 0, Exact.zero.scale_le, by decide⟩

def six : Exact := ⟨6, 0, Exact.zero.scale_le, by decide⟩

/-- Of two lots costing three and six, the dearer is relieved first, whatever is asked. -/
theorem relief_in_order_dearest :
    RelievesAll (twoLots three six) sixHeld [] .highestCost []
      [⟨"LOT-1", three, "2024-01-01", some ⟨1000000, 6, by decide, by decide⟩, 0⟩,
        ⟨"LOT-2", three, "2024-01-02", some ⟨2000000, 6, by decide, by decide⟩, 1⟩] := by
  have states : statesOf (twoLots three six) sixHeld =
      [lotOfThree "LOT-1" "2024-01-01" three 0, lotOfThree "LOT-2" "2024-01-02" six 1] := by decide +kernel
  have held {state : LotState} (isOpen : IsOpen (twoLots three six) sixHeld [] state) :
      state = lotOfThree "LOT-1" "2024-01-01" three 0 ∨ state = lotOfThree "LOT-2" "2024-01-02" six 1 := by
    simpa [states] using (heldAs_lotId isOpen.1).1
  refine (relief_in_order (by decide +kernel)).1 ⟨fun state among => ?_, fun a b openA openB _ _ before => ?_⟩
  · rw [← noneWrap_iff]
    intro _ cost stated _
    rw [states] at among
    rcases List.mem_pair.mp among with rfl | rfl
    · cases (show some three = some cost from stated)
      decide
    · cases (show some six = some cost from stated)
      decide
  · rw [keptBefore_iff (.inl rfl)]
    rcases held openA with rfl | rfl <;> rcases held openB with rfl | rfl
    · exact absurd before (lt_irrefl _)
    · exact absurd before (show ¬ trueCost (lotOfThree "LOT-2" "2024-01-02" six 1) <
        trueCost (lotOfThree "LOT-1" "2024-01-01" three 0) by decide +kernel)
    · exact .inl (show keptCost (lotOfThree "LOT-1" "2024-01-01" three 0) <
        keptCost (lotOfThree "LOT-2" "2024-01-02" six 1) by decide +kernel)
    · exact absurd before (lt_irrefl _)

/-- Three costing one cost more each than three costing 0.9999990, and no more once cut to six
places: the lot acquired first is relieved, though the method takes the highest cost first. -/
theorem cut_cost_relieved_first : ∃ lots,
    openLots (twoLots ⟨9999990, 7, by decide, by decide⟩ Exact.one) sixHeld [] = .ok lots ∧
      ¬ RelievesAll (twoLots ⟨9999990, 7, by decide, by decide⟩ Exact.one) sixHeld [] .highestCost [] lots := by
  refine ⟨[⟨"LOT-1", three, "2024-01-01", some ⟨3333330000000, 13, by decide, by decide⟩, 0⟩,
    ⟨"LOT-2", three, "2024-01-02", some ⟨333333, 6, by decide, by decide⟩, 1⟩], by decide +kernel, fun all => ?_⟩
  have relieved := all.relieves Exact.one [("LOT-1", Exact.one)] (by decide) (by decide +kernel)
  obtain ⟨take, inTakes, -⟩ := relieved.ordered (lotOfThree "LOT-2" "2024-01-02" Exact.one 1)
    (lotOfThree "LOT-1" "2024-01-01" ⟨9999990, 7, by decide, by decide⟩ 0)
    ⟨by decide +kernel, by decide +kernel⟩ ⟨by decide +kernel, by decide +kernel⟩ List.not_mem_nil List.not_mem_nil
    (show trueCost _ < trueCost _ by decide +kernel) List.mem_cons_self
  have named : "LOT-2" = "LOT-1" := congrArg Prod.fst (List.mem_singleton.mp inTakes)
  exact absurd named (by decide)

end Bor

end MeridianCore
