import MeridianCore.AnalyticsEngine.Bonds.Grid
import MeridianCore.Ordered.Search

/-! What a schedule that is built is made of: the ends of its periods, in order and after the accrual starts, and each
period from where the one before it ends. -/

namespace MeridianCore.AnalyticsEngine.Bonds

/-- Periods each from where the one before it ends, the first from a date. -/
def Linked : Date → List Period → Prop
  | _, [] => True
  | start, period :: rest => period.start = start ∧ Linked period.stop rest

namespace Shape

variable {shape : Shape} {fuel n : Nat} {start stop date : Date} {ends out : List Date} {periods : List Period}
  {period : Period} {schedule : Schedule}

/-- The date the regular ends are all after. -/
def floorOf (shape : Shape) : Date := shape.firstCoupon.getD shape.accruesFrom

/-- Whether the `k`th regular date ends the schedule's loop. -/
def stopsAt (shape : Shape) (k : Nat) : Bool :=
  decide (shape.regular k ≤ shape.floorOf ∨ shape.regular k ≤ shape.accruesFrom)

theorem stopsAt_iff {k : Nat} : shape.stopsAt k = true ↔ shape.regular k ≤ shape.floorOf ∨ shape.regular k ≤ shape.accruesFrom := by
  rw [stopsAt, decide_eq_true_eq]

/-- The ends pushed: the regular dates to where the loop stops, and the first coupon where it is none of them. -/
def pushed (shape : Shape) (n : Nat) : List Date :=
  let regulars := (List.range n).map shape.regular
  match shape.firstCoupon with
  | some first => if shape.accruesFrom < first ∧ first ∉ regulars then regulars ++ [first] else regulars
  | none => regulars

theorem search_mono {stops : Nat → Bool} {fuel k last : Nat} (found : search stops (· + 1) fuel k = some last) : k ≤ last := by
  obtain ⟨n, -, same⟩ := firstStop_of_search found
  have moved : (· + 1)^[n] k = k + n := by simp
  omega

theorem regularEnds_eq (fuel k : Nat) (ends : List Date) : shape.regularEnds shape.floorOf fuel k ends =
    (search shape.stopsAt (· + 1) fuel k).map fun last => ends ++ (List.range' k (last - k)).map shape.regular := by
  induction fuel generalizing k ends with
  | zero => rfl
  | succ fuel ih =>
    rw [regularEnds, search]
    by_cases stops : shape.regular k ≤ shape.floorOf ∨ shape.regular k ≤ shape.accruesFrom
    · rw [if_pos (stopsAt_iff.mpr stops)]
      simp [stops]
    · rw [if_neg (mt stopsAt_iff.mp stops), if_neg stops, ih]
      refine Option.map_congr fun last found => ?_
      obtain ⟨extra, rfl⟩ : ∃ extra, last = k + 1 + extra := ⟨last - (k + 1), by have := search_mono found; omega⟩
      have split : List.range' k (k + 1 + extra - k) = k :: List.range' (k + 1) (k + 1 + extra - (k + 1)) := by
        rw [show k + 1 + extra - k = extra + 1 by omega, show k + 1 + extra - (k + 1) = extra by omega]
        rfl
      rw [split, List.map_cons, List.append_assoc, List.singleton_append]

/-- The regular ends are the regular dates up to the first the loop stops at. -/
theorem regularEnds_some : shape.regularEnds shape.floorOf fuel 0 [] = some out ↔
    ∃ n, search shape.stopsAt (· + 1) fuel 0 = some n ∧ (List.range n).map shape.regular = out := by
  rw [regularEnds_eq, Option.map_eq_some_iff]
  simp [List.range_eq_range']

theorem iterate_succ_zero (n : Nat) : (· + 1)^[n] 0 = n := by simp

/-- Ends that are found are the dates pushed up to the first regular date the loop stops at, in order. -/
theorem ends_some (paid : 0 < shape.frequency) (found : shape.ends fuel = some out) :
    ∃ n, FirstStop shape.stopsAt (· + 1) 0 n ∧ out = (shape.pushed n).insertionSort (· ≤ ·) := by
  rw [ends, if_pos paid] at found
  obtain ⟨regulars, looped, found⟩ := Option.bind_eq_some_iff.mp found
  obtain ⟨n, searched, rfl⟩ := regularEnds_some.mp looped
  obtain ⟨m, first, same⟩ := firstStop_of_search searched
  rw [iterate_succ_zero] at same
  subst same
  cases found
  exact ⟨m, first, rfl⟩

theorem ends_answers (paid : 0 < shape.frequency) (first : FirstStop shape.stopsAt (· + 1) 0 n) :
    Answers shape.ends ((shape.pushed n).insertionSort (· ≤ ·)) := by
  have searched := search_answers first
  rw [iterate_succ_zero] at searched
  obtain ⟨enough, holds⟩ := searched
  refine ⟨enough, fun fuel le => ?_⟩
  rw [ends, if_pos paid]
  have looped := regularEnds_some.mpr ⟨n, holds fuel le, rfl⟩
  exact Option.bind_eq_some_iff.mpr ⟨_, looped, rfl⟩

theorem mem_pushed : date ∈ shape.pushed n ↔
    (∃ k < n, shape.regular k = date) ∨ (shape.firstCoupon = some date ∧ shape.accruesFrom < date) := by
  unfold pushed
  cases given : shape.firstCoupon with
  | none => simp
  | some first =>
    dsimp only
    split
    · next pushes =>
      simp only [List.mem_append, List.mem_map, List.mem_range, List.mem_singleton, Option.some.injEq]
      constructor
      · rintro (regular | rfl)
        · exact .inl regular
        · exact .inr ⟨rfl, pushes.1⟩
      · rintro (regular | ⟨rfl, -⟩)
        · exact .inl regular
        · exact .inr rfl
    · next held =>
      simp only [List.mem_map, List.mem_range, Option.some.injEq]
      constructor
      · exact .inl
      · rintro (regular | ⟨rfl, after⟩)
        · exact regular
        · have member : first ∈ (List.range n).map shape.regular := by
            by_contra apart
            exact held ⟨after, apart⟩
          simpa using member

theorem nodup_pushed (distinct : ((List.range n).map shape.regular).Nodup) : (shape.pushed n).Nodup := by
  unfold pushed
  cases shape.firstCoupon with
  | none => exact distinct
  | some first =>
    dsimp only
    split
    · next pushes => exact List.nodup_append.mpr ⟨distinct, List.nodup_singleton _, by simpa using fun k below same => pushes.2 (by simpa using ⟨k, below, same⟩)⟩
    · exact distinct

theorem nodup_regulars (distinct : (shape.pushed n).Nodup) : ((List.range n).map shape.regular).Nodup := by
  unfold pushed at distinct
  cases given : shape.firstCoupon with
  | none =>
    rw [given] at distinct
    exact distinct
  | some first =>
    rw [given] at distinct
    dsimp only at distinct
    split at distinct
    · exact (List.nodup_append.mp distinct).1
    · exact distinct

/-- The ends of a schedule's periods are in order and after the accrual starts. -/
theorem ends_sorted (found : shape.ends fuel = some out) :
    out.Pairwise (· ≤ ·) ∧ ∀ date ∈ out, shape.accruesFrom < date := by
  by_cases paid : 0 < shape.frequency
  · obtain ⟨n, first, rfl⟩ := ends_some paid found
    refine ⟨List.pairwise_insertionSort _ _, fun date member => ?_⟩
    rcases mem_pushed.mp ((List.mem_insertionSort _).mp member) with ⟨k, below, rfl⟩ | ⟨-, after⟩
    · have passed := first.2 k below
      rw [iterate_succ_zero, Bool.eq_false_iff, ne_eq, stopsAt_iff, not_or] at passed
      exact not_le.mp passed.2
    · exact after
  · rw [ends, if_neg paid] at found
    split at found
    · next life =>
      cases found
      simpa using life
    · cases found
      simp

/-- A period's mark, where it answers. -/
def marked (shape : Shape) (fuel : Nat) (start stop : Date) : Option Bool :=
  if 0 < shape.frequency then (shape.regularBack fuel stop).map (· == start) else some false

/-- The coupon of the period from `start` to `stop`, by its mark. -/
def couponOf (shape : Shape) (start stop : Date) (regular : Bool) : ℚ :=
  if shape.rateAt start = 0 then 0
  else if regular && shape.wholePeriodPaysRateOverFrequency then shape.rateAt start / shape.frequency.toNat
  else shape.rateAt start * shape.fraction start stop stop

theorem period_eq (shape : Shape) (fuel : Nat) (start stop : Date) : shape.period fuel start stop =
    (shape.marked fuel start stop).bind fun regular => (shape.calendar.adjust fuel stop shape.roll).bind fun paid => some {
      start
      stop
      paid
      rate := shape.rateAt start
      coupon := shape.couponOf start stop regular
      regular } := by
  unfold Shape.period marked
  by_cases paid : 0 < shape.frequency
  · simp only [if_pos paid]
    rfl
  · simp only [if_neg paid]
    rfl

theorem period_made (made : shape.period fuel start stop = some period) : period.start = start ∧ period.stop = stop ∧
    period.rate = shape.rateAt start ∧ period.coupon = shape.couponOf start stop period.regular ∧
    shape.marked fuel start stop = some period.regular ∧ shape.calendar.adjust fuel stop shape.roll = some period.paid := by
  rw [period_eq] at made
  obtain ⟨regular, mark, made⟩ := Option.bind_eq_some_iff.mp made
  obtain ⟨paid, adjusted, made⟩ := Option.bind_eq_some_iff.mp made
  cases made
  exact ⟨rfl, rfl, rfl, rfl, mark, adjusted⟩

/-- Periods that are built end where they should, each from where the one before it ends. -/
theorem periodsFrom_some (built : shape.periodsFrom fuel start ends = some periods) :
    periods.map Period.stop = ends ∧ Linked start periods ∧
      ∀ period ∈ periods, shape.period fuel period.start period.stop = some period := by
  induction ends generalizing start periods with
  | nil =>
    cases built
    exact ⟨rfl, trivial, by simp⟩
  | cons stop rest ih =>
    rw [periodsFrom] at built
    obtain ⟨period, made, built⟩ := Option.bind_eq_some_iff.mp built
    obtain ⟨later, others, built⟩ := Option.bind_eq_some_iff.mp built
    cases built
    obtain ⟨stops, linked, all⟩ := ih others
    obtain ⟨rfl, rfl, -⟩ := period_made made
    refine ⟨by rw [List.map_cons, stops], ⟨rfl, linked⟩, fun other member => ?_⟩
    rcases List.mem_cons.mp member with rfl | further
    · exact made
    · exact all other further

/-- Where each period to an end answers, from any date, the periods to them all do. -/
theorem periodsFrom_answers (start : Date) (each : ∀ stop ∈ ends, ∀ start, ∃ period, Answers (fun fuel => shape.period fuel start stop) period) :
    ∃ periods, Answers (fun fuel => shape.periodsFrom fuel start ends) periods := by
  induction ends generalizing start with
  | nil => exact ⟨[], Answers.pure []⟩
  | cons stop rest ih =>
    obtain ⟨period, made⟩ := each stop List.mem_cons_self start
    obtain ⟨later, others⟩ := ih stop fun other member => each other (List.mem_cons_of_mem _ member)
    exact ⟨period :: later, made.bind (others.bind (Answers.pure _))⟩

theorem build_some (built : shape.build fuel = some schedule) :
    ∃ ends, shape.ends fuel = some ends ∧ shape.periodsFrom fuel shape.accruesFrom ends = some schedule.periods := by
  obtain ⟨ends, found, built⟩ := Option.bind_eq_some_iff.mp built
  obtain ⟨periods, made, built⟩ := Option.bind_eq_some_iff.mp built
  cases built
  exact ⟨ends, found, made⟩

end Shape

end MeridianCore.AnalyticsEngine.Bonds
