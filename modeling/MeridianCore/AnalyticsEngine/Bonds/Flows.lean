import MeridianCore.AnalyticsEngine.Bonds.Built

/-! What a redemption pays: the coupons of the periods that end by it, the interest of the period it cuts, and the price. -/

namespace MeridianCore.AnalyticsEngine.Bonds

variable {shape : Shape} {schedule : Schedule} {start settle on date : Date} {price : ℚ} {periods early late : List Period}
  {period : Period}

theorem withPrice_sum (on : Date) (price : ℚ) (flows : List Flow) :
    ((withPrice on price flows).map Flow.amount).sum = (flows.map Flow.amount).sum + price := by
  induction flows using withPrice.induct on with
  | case1 => simp [withPrice]
  | case2 last same => simp [withPrice, same]
  | case3 last apart => simp [withPrice, apart]
  | case4 flow next rest ih =>
    rw [withPrice, List.map_cons, List.sum_cons, ih]
    simp [add_assoc]

/-- Whether a period's coupon is paid after `settle` and by `on`. -/
def Period.pays (settle on : Date) (period : Period) : Bool := decide (settle < period.stop ∧ period.stop ≤ on)

/-- Whether a period running after `settle` is cut at `on`. -/
def Period.cuts (settle on : Date) (period : Period) : Bool :=
  decide (settle < period.stop ∧ period.start < on ∧ on < period.stop)

/-- A period's interest from its start to a date in it. -/
def partTo (shape : Shape) (on : Date) (period : Period) : ℚ := period.rate * shape.fraction period.start on period.stop

/-- What a period pays to a redemption. -/
def paidBy (shape : Shape) (settle on : Date) (period : Period) : ℚ :=
  if period.pays settle on then period.coupon else if period.cuts settle on then partTo shape on period else 0

theorem paidBy_settled (settled : period.stop ≤ settle) : paidBy shape settle on period = 0 := by
  have past := settled.not_gt
  simp [paidBy, Period.pays, Period.cuts, past]

/-- A period that starts by a date pays nothing to a redemption before it. -/
theorem paidBy_later (later : on < period.stop) (starts : on ≤ period.start) : paidBy shape settle on period = 0 := by
  simp [paidBy, Period.pays, Period.cuts, later.not_ge, starts.not_gt]

/-- Periods that end in order each start no earlier than the first. -/
theorem Linked.start_le (linked : Linked start periods) (order : (periods.map Period.stop).Pairwise (· ≤ ·))
    (after : ∀ stop ∈ periods.map Period.stop, start ≤ stop) : ∀ period ∈ periods, start ≤ period.start := by
  induction periods generalizing start with
  | nil => simp
  | cons period rest ih =>
    obtain ⟨rfl, linked⟩ := linked
    rw [List.map_cons, List.pairwise_cons] at order
    have now := after period.stop (by simp)
    intro other member
    rcases List.mem_cons.mp member with rfl | further
    · exact le_rfl
    · exact now.trans (ih linked order.2 order.1 other further)

/-- The periods before one of them end by its start. -/
theorem Linked.before (linked : Linked start (early ++ period :: late))
    (order : ((early ++ period :: late).map Period.stop).Pairwise (· ≤ ·)) : ∀ other ∈ early, other.stop ≤ period.start := by
  induction early generalizing start with
  | nil => simp
  | cons first rest ih =>
    obtain ⟨-, linked⟩ := linked
    rw [List.cons_append, List.map_cons, List.pairwise_cons] at order
    intro other member
    rcases List.mem_cons.mp member with rfl | further
    · exact linked.start_le order.2 order.1 period (by simp)
    · exact ih linked order.2 other further

/-- The interest paid to a redemption is what each period pays to it. -/
theorem interestTo_sum (linked : Linked start periods) (order : (periods.map Period.stop).Pairwise (· ≤ ·))
    (after : ∀ stop ∈ periods.map Period.stop, start ≤ stop) :
    ((interestTo shape settle on periods).map Flow.amount).sum = (periods.map (paidBy shape settle on)).sum := by
  induction periods generalizing start with
  | nil => rfl
  | cons period rest ih =>
    have starts := linked.2.start_le (List.pairwise_cons.mp order).2 (List.pairwise_cons.mp order).1
    have rest_sum := ih linked.2 (List.pairwise_cons.mp order).2 (List.pairwise_cons.mp order).1
    have stops := (List.pairwise_cons.mp order).1
    rw [interestTo, List.map_cons, List.sum_cons]
    by_cases settled : period.stop ≤ settle
    · rw [if_pos settled, paidBy_settled settled, zero_add, rest_sum]
    · rw [if_neg settled]
      by_cases ended : period.stop ≤ on
      · have pays : paidBy shape settle on period = period.coupon := if_pos (decide_eq_true ⟨not_le.mp settled, ended⟩)
        rw [if_pos ended, pays]
        split_ifs with some'
        · rw [List.map_cons, List.sum_cons, rest_sum]
        · rw [not_not.mp some', zero_add, rest_sum]
      · have none' : (rest.map (paidBy shape settle on)).sum = 0 := by
          refine List.sum_eq_zero fun amount member => ?_
          obtain ⟨other, held, rfl⟩ := List.mem_map.mp member
          have late := (not_le.mp ended).trans_le (stops other.stop (List.mem_map_of_mem held))
          exact paidBy_later late ((not_le.mp ended).le.trans (starts other held))
        rw [if_neg ended, none', add_zero]
        by_cases begun : period.start < on
        · have cut : paidBy shape settle on period = partTo shape on period := by
            have unpaid : period.pays settle on = false := by simp [Period.pays, ended]
            have cuts : period.cuts settle on = true := decide_eq_true ⟨not_le.mp settled, begun, not_le.mp ended⟩
            rw [paidBy, unpaid, if_neg Bool.false_ne_true, if_pos cuts]
          rw [if_pos begun, cut]
          dsimp only
          change (List.map Flow.amount (if partTo shape on period ≠ 0 then [⟨on, partTo shape on period⟩] else [])).sum = _
          split_ifs with some'
          · simp
          · simp [not_not.mp some']
        · rw [if_neg begun, paidBy_later (not_le.mp ended) (not_lt.mp begun)]
          rfl

theorem paidBy_sum (periods : List Period) : (periods.map (paidBy shape settle on)).sum =
    ((periods.filter (Period.pays settle on)).map Period.coupon).sum +
      ((periods.filter (Period.cuts settle on)).map (partTo shape on)).sum := by
  induction periods with
  | nil => simp
  | cons period rest ih =>
    rw [List.map_cons, List.sum_cons, ih, paidBy, List.filter_cons, List.filter_cons]
    cases pays : period.pays settle on with
    | true =>
      have uncut : period.cuts settle on = false := by
        have held := of_decide_eq_true pays
        simp [Period.cuts, held.2.not_gt]
      simp only [uncut, if_true, if_false, Bool.false_eq_true, List.map_cons, List.sum_cons]
      ring
    | false =>
      cases period.cuts settle on
      · simp
      · simp only [if_true, if_false, Bool.false_eq_true, List.map_cons, List.sum_cons]
        ring

/-- A built schedule's periods, linked and in order. -/
theorem built_order {fuel : Nat} (built : shape.build fuel = some schedule) : Linked shape.accruesFrom schedule.periods ∧
    (schedule.periods.map Period.stop).Pairwise (· ≤ ·) ∧
      ∀ stop ∈ schedule.periods.map Period.stop, shape.accruesFrom ≤ stop := by
  obtain ⟨ends, found, made⟩ := Shape.build_some built
  obtain ⟨stops, linked, -⟩ := Shape.periodsFrom_some made
  obtain ⟨order, after⟩ := Shape.ends_sorted found
  rw [stops]
  exact ⟨linked, order, fun stop member => (after stop member).le⟩

/-- What a redemption pays is the coupons of the periods ended by it, the interest of the one it cuts, and the price. -/
theorem flowsTo_sum {fuel : Nat} (built : shape.build fuel = some schedule) (settle on : Date) (price : ℚ) :
    ((flowsTo shape schedule settle on price).map Flow.amount).sum =
      ((schedule.periods.filter (Period.pays settle on)).map Period.coupon).sum +
        ((schedule.periods.filter (Period.cuts settle on)).map (partTo shape on)).sum + price := by
  obtain ⟨linked, order, after⟩ := built_order built
  rw [flowsTo, withPrice_sum, interestTo_sum linked order after, paidBy_sum]

/-- The period a settlement date is in is the one that holds it. -/
theorem periodAt_of_mem {fuel : Nat} (built : shape.build fuel = some schedule) (member : period ∈ schedule.periods)
    (starts : period.start ≤ date) (ends : date < period.stop) : schedule.periodAt date = some period := by
  obtain ⟨linked, order, -⟩ := built_order built
  obtain ⟨early, late, split⟩ := List.append_of_mem member
  rw [split] at linked order
  refine List.find?_eq_some_iff_append.mpr ⟨by simp [starts, ends], early, late, split, fun other held => ?_⟩
  have past := (linked.before order other held).trans starts
  simp [past.not_gt]

/-- In the period a redemption cuts, what it pays is that period's interest to it and the price. -/
theorem flowsTo_inside {fuel : Nat} (built : shape.build fuel = some schedule) (member : period ∈ schedule.periods)
    (starts : period.start ≤ settle) (early : settle ≤ on) (ends : on < period.stop) (price : ℚ) :
    ((flowsTo shape schedule settle on price).map Flow.amount).sum =
      (if period.start < on then partTo shape on period else 0) + price := by
  obtain ⟨linked, order, after⟩ := built_order built
  obtain ⟨before, late, split⟩ := List.append_of_mem member
  rw [split] at linked order after
  rw [flowsTo, withPrice_sum, split]
  have skipped : interestTo shape settle on (before ++ period :: late) = interestTo shape settle on (period :: late) := by
    have past := linked.before order
    clear linked order after split
    induction before with
    | nil => rfl
    | cons first rest ih =>
      rw [List.cons_append, interestTo, if_pos ((past first List.mem_cons_self).trans starts)]
      exact ih fun other held => past other (List.mem_cons_of_mem _ held)
  rw [skipped, interestTo, if_neg (early.trans_lt ends).not_ge, if_neg ends.not_ge]
  congr 1
  split_ifs with begun
  · dsimp only
    change (List.map Flow.amount (if partTo shape on period ≠ 0 then [⟨on, partTo shape on period⟩] else [])).sum = _
    split_ifs with some'
    · simp
    · simp [not_not.mp some']
  · rfl

end MeridianCore.AnalyticsEngine.Bonds
