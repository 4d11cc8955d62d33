import MeridianCore.AnalyticsEngine.Bonds.Built

/-! When a schedule is a partition of the bond's life. Its loops step back from maturity by whole months: they end, at
the first date that is not after the floor, where the months are some, where the calendar has such a date, and where
every end rolls to a day of it. -/

namespace MeridianCore.AnalyticsEngine.Bonds

namespace Calendar

variable {calendar : Calendar} {by_ : Int} {fuel : Nat} {date paid : Date} {roll : Roll}

/-- Whether stepping so many days at a time from a date comes to a business day. -/
def Lands (calendar : Calendar) (by_ : Int) (date : Date) : Prop :=
  ∃ n, calendar.isBusiness ((plusDays · by_)^[n] date) = true

/-- Whether a date rolls to a business day of the calendar. -/
def Rolls (calendar : Calendar) (date : Date) : Roll → Prop
  | .unadjusted => True
  | .following => calendar.Lands 1 date
  | .preceding => calendar.Lands (-1) date
  | .modifiedFollowing => ∃ n, FirstStop calendar.isBusiness (plusDays · 1) date n ∧
      (((plusDays · 1)^[n] date).month = date.month ∨ calendar.Lands (-1) date)

theorem step_eq (fuel : Nat) (date : Date) :
    calendar.step by_ fuel date = search calendar.isBusiness (plusDays · by_) fuel date := by
  induction fuel generalizing date with
  | zero => rfl
  | succ fuel ih => rw [step, search, ih]

theorem lands_of_step (found : calendar.step by_ fuel date = some paid) : calendar.Lands by_ date := by
  rw [step_eq] at found
  obtain ⟨n, first, -⟩ := firstStop_of_search found
  exact ⟨n, first.1⟩

theorem step_answers (lands : calendar.Lands by_ date) : ∃ paid, Answers (fun fuel => calendar.step by_ fuel date) paid := by
  obtain ⟨n, business⟩ := lands
  obtain ⟨m, -, first⟩ := exists_firstStop business
  exact ⟨_, (search_answers first).congr fun fuel => step_eq fuel date⟩

theorem rolls_of_adjust (found : calendar.adjust fuel date roll = some paid) : calendar.Rolls date roll := by
  cases roll with
  | unadjusted => trivial
  | following => exact lands_of_step found
  | preceding => exact lands_of_step found
  | modifiedFollowing =>
    obtain ⟨on, forward, rest⟩ := Option.bind_eq_some_iff.mp found
    rw [step_eq] at forward
    obtain ⟨n, first, rfl⟩ := firstStop_of_search forward
    refine ⟨n, first, ?_⟩
    by_cases same : ((plusDays · 1)^[n] date).month = date.month
    · exact .inl same
    · rw [if_neg same] at rest
      exact .inr (lands_of_step rest)

theorem adjust_answers (rolls : calendar.Rolls date roll) : ∃ paid, Answers (fun fuel => calendar.adjust fuel date roll) paid := by
  cases roll with
  | unadjusted => exact ⟨date, Answers.pure date⟩
  | following => exact step_answers rolls
  | preceding => exact step_answers rolls
  | modifiedFollowing =>
    obtain ⟨n, first, rest⟩ := rolls
    have forward : Answers (fun fuel => calendar.step 1 fuel date) ((plusDays · 1)^[n] date) :=
      (search_answers first).congr fun fuel => step_eq fuel date
    by_cases same : ((plusDays · 1)^[n] date).month = date.month
    · refine ⟨(plusDays · 1)^[n] date, forward.bind ?_⟩
      simp only [if_pos same]
      exact Answers.pure _
    · obtain ⟨paid, back⟩ := step_answers (rest.resolve_left same)
      refine ⟨paid, forward.bind ?_⟩
      simp only [if_neg same]
      exact back

end Calendar

section
variable {start : Date} {periods : List Period}

/-- Linked periods that end in order, and after the first starts, each end after they start. -/
theorem Linked.positive (linked : Linked start periods) (order : (periods.map Period.stop).Pairwise (· < ·))
    (after : ∀ stop ∈ periods.map Period.stop, start < stop) : ∀ period ∈ periods, period.start < period.stop := by
  induction periods generalizing start with
  | nil => simp
  | cons period rest ih =>
    obtain ⟨rfl, linked⟩ := linked
    rw [List.map_cons, List.pairwise_cons] at order
    intro other member
    rcases List.mem_cons.mp member with rfl | further
    · exact after _ (by simp)
    · exact ih linked order.2 order.1 other further

/-- Linked periods that each end after they start end in order, and after the first starts. -/
theorem Linked.increasing (linked : Linked start periods) (positive : ∀ period ∈ periods, period.start < period.stop) :
    (periods.map Period.stop).Pairwise (· < ·) ∧ ∀ stop ∈ periods.map Period.stop, start < stop := by
  induction periods generalizing start with
  | nil => simp
  | cons period rest ih =>
    obtain ⟨rfl, linked⟩ := linked
    have now := positive period List.mem_cons_self
    obtain ⟨order, after⟩ := ih linked fun other member => positive other (List.mem_cons_of_mem _ member)
    refine ⟨List.pairwise_cons.mpr ⟨after, order⟩, fun stop member => ?_⟩
    rcases List.mem_cons.mp member with rfl | further
    · exact now
    · exact now.trans (after stop further)

end

/-- Of dates in order the last is the one that all are no later than. -/
theorem getLast?_of_last {dates : List Date} {last : Date} (order : dates.Pairwise (· ≤ ·)) (held : last ∈ dates)
    (latest : ∀ date ∈ dates, date ≤ last) : dates.getLast? = some last := by
  have some' : dates ≠ [] := List.ne_nil_of_mem held
  have most := latest _ (List.getLast_mem some')
  have least : last ≤ dates.getLast some' := by
    rcases List.mem_append.mp (List.dropLast_append_getLast some' ▸ held) with earlier | same
    · rw [← List.dropLast_append_getLast some'] at order
      exact (List.pairwise_append.mp order).2.2 last earlier _ (by simp)
    · rw [List.mem_singleton.mp same]
  rw [List.getLast?_eq_getLast_of_ne_nil some', le_antisymm most least]

namespace Shape

variable {shape : Shape} {fuel k n : Nat} {start stop date : Date} {mark : Bool} {schedule : Schedule}

/-- The regular date before a date: the one before it on maturity's schedule or, of a date off the schedule, the date a
period's months before it. -/
def RegularBefore (shape : Shape) (stop start : Date) : Prop :=
  (∃ k, shape.OnGrid k stop ∧ shape.OnGrid (k + 1) start) ∨
    ((∀ k, ¬ shape.OnGrid k stop) ∧ addMonths stop (-months shape.frequency) shape.endOfMonth = start)

/-- A schedule that is a partition of the bond's life. -/
structure Partitions (shape : Shape) (schedule : Schedule) : Prop where
  linked : Linked shape.accruesFrom schedule.periods
  positive : ∀ period ∈ schedule.periods, period.start < period.stop
  matures : (schedule.periods.map Period.stop).getLast? = some shape.maturity
  marks : ∀ period ∈ schedule.periods,
    (period.regular = true ↔ 0 < shape.frequency ∧ shape.RegularBefore period.stop period.start)

/-- An end of a period: a regular date after the floor or the first coupon, and maturity where nothing is paid before. -/
def EndOf (shape : Shape) (date : Date) : Prop :=
  if 0 < shape.frequency then
    (∃ k, shape.OnGrid k date ∧ shape.floorOf < date ∧ date ≤ shape.maturity) ∨ shape.firstCoupon = some date
  else date = shape.maturity

/-- What a shape needs for its schedule to be a partition of its life. -/
structure Coverable (shape : Shape) : Prop where
  life : shape.accruesFrom < shape.maturity
  monthEnd : 0 < shape.frequency → shape.endOfMonth = true → isMonthEnd shape.maturity = true
  reaches : 0 < shape.frequency → ∃ k, InCalendar (shape.gridIndex k) ∧ shape.regular k ≤ shape.floorOf
  rolls : ∀ date, shape.EndOf date → shape.calendar.Rolls date shape.roll

/-- The first coupon, where one is stated, is after the accrual starts and by maturity. -/
def FirstWithin (shape : Shape) : Prop :=
  ∀ first, shape.firstCoupon = some first → shape.accruesFrom < first ∧ first ≤ shape.maturity

theorem floorOf_range (within : shape.FirstWithin) (life : shape.accruesFrom < shape.maturity) :
    shape.accruesFrom ≤ shape.floorOf ∧ shape.floorOf ≤ shape.maturity := by
  unfold floorOf
  cases given : shape.firstCoupon with
  | none => exact ⟨le_rfl, life.le⟩
  | some first => exact ⟨(within first given).1.le, (within first given).2⟩

theorem floorOf_eq_maturity (within : shape.FirstWithin) (life : shape.accruesFrom < shape.maturity)
    (all : shape.maturity ≤ shape.floorOf) : shape.firstCoupon = some shape.maturity := by
  unfold floorOf at all
  cases given : shape.firstCoupon with
  | none =>
    rw [given] at all
    exact absurd life (not_lt.mpr all)
  | some first =>
    rw [given] at all
    rw [le_antisymm (within first given).2 all]

theorem stopsAt_floor (within : shape.FirstWithin) (life : shape.accruesFrom < shape.maturity) :
    shape.stopsAt k = true ↔ shape.regular k ≤ shape.floorOf := by
  rw [stopsAt_iff]
  exact ⟨fun stops => stops.elim id fun early => early.trans (floorOf_range within life).1, .inl⟩

/-- Where the loop of a schedule stops: the first regular date that is not after the floor, of the calendar. -/
structure StopsFirst (shape : Shape) (n : Nat) : Prop where
  inside : InCalendar (shape.gridIndex n)
  at_ : shape.regular n ≤ shape.floorOf
  before : ∀ k < n, shape.floorOf < shape.regular k

theorem StopsFirst.firstStop (stopped : shape.StopsFirst n) (within : shape.FirstWithin)
    (life : shape.accruesFrom < shape.maturity) : FirstStop shape.stopsAt (· + 1) 0 n := by
  refine ⟨?_, fun k below => ?_⟩
  · rw [iterate_succ_zero, stopsAt_floor within life]
    exact stopped.at_
  · rw [iterate_succ_zero, Bool.eq_false_iff, ne_eq, stopsAt_floor within life, not_le]
    exact stopped.before k below

/-- Where the frequency steps no months back, the loop stops at once, and the first coupon is at maturity. -/
theorem StopsFirst.positive (stopped : shape.StopsFirst n) (within : shape.FirstWithin)
    (life : shape.accruesFrom < shape.maturity) (ends : shape.regular 0 = shape.maturity) :
    0 < months shape.frequency ∨ n = 0 := by
  by_contra stuck
  obtain ⟨none', some'⟩ := not_or.mp stuck
  have all := (maturity_le_regular (not_lt.mp none') stopped.inside).trans stopped.at_
  have early := stopped.before 0 (Nat.pos_of_ne_zero some')
  rw [ends] at early
  exact absurd all (not_le.mpr early)

theorem Coverable.regular_zero (coverable : shape.Coverable) (paid : 0 < shape.frequency) :
    shape.regular 0 = shape.maturity := regular_zero_iff.mpr (coverable.monthEnd paid)

theorem Coverable.stopsFirst (coverable : shape.Coverable) (within : shape.FirstWithin) (paid : 0 < shape.frequency) :
    ∃ n, shape.StopsFirst n := by
  by_cases positive : 0 < months shape.frequency
  · have some' := coverable.reaches paid
    classical
    have found := Nat.find_spec some'
    refine ⟨Nat.find some', found.1, found.2, fun k below => ?_⟩
    by_contra early
    exact Nat.find_min some' below ⟨inside_of_le positive found.1 below.le, not_lt.mp early⟩
  · obtain ⟨k, inside, at_⟩ := coverable.reaches paid
    have all := (maturity_le_regular (not_lt.mp positive) inside).trans at_
    refine ⟨0, shape.inside_zero, ?_, fun k below => absurd below (Nat.not_lt_zero k)⟩
    rw [coverable.regular_zero paid]
    exact all

/-- What the loop pushes is in the bond's life, each date once. -/
theorem StopsFirst.pushed (stopped : shape.StopsFirst n) (within : shape.FirstWithin)
    (life : shape.accruesFrom < shape.maturity) (ends : shape.regular 0 = shape.maturity) :
    (shape.pushed n).Nodup ∧ shape.maturity ∈ shape.pushed n ∧ ∀ date ∈ shape.pushed n, date ≤ shape.maturity := by
  have order : ∀ j k, j < k → k < n → shape.regular k < shape.regular j := by
    intro j k before below
    have positive := (stopped.positive within life ends).resolve_right (by omega)
    exact regular_lt positive (inside_of_le positive stopped.inside (by omega)) (inside_of_le positive stopped.inside below.le)
      before
  refine ⟨nodup_pushed ?_, ?_, ?_⟩
  · rw [List.nodup_map_iff_inj_on List.nodup_range]
    intro j first k second same
    rw [List.mem_range] at first second
    rcases lt_trichotomy j k with before | equal | after
    · exact absurd same (order j k before second).ne'
    · exact equal
    · exact absurd same (order k j after first).ne
  · cases n with
    | zero =>
      have all := stopped.at_
      rw [ends] at all
      exact mem_pushed.mpr (.inr ⟨floorOf_eq_maturity within life all, life⟩)
    | succ n => exact mem_pushed.mpr (.inl ⟨0, Nat.succ_pos n, ends⟩)
  · intro date member
    rcases mem_pushed.mp member with ⟨k, below, rfl⟩ | ⟨given, -⟩
    · rcases Nat.eq_zero_or_pos k with rfl | later
      · exact ends.le
      · exact (order 0 k later below).le.trans ends.le
    · exact (within date given).2

theorem StopsFirst.endOf (stopped : shape.StopsFirst n) (within : shape.FirstWithin)
    (life : shape.accruesFrom < shape.maturity) (ends : shape.regular 0 = shape.maturity) (paid : 0 < shape.frequency)
    (member : date ∈ shape.pushed n) : shape.EndOf date := by
  rw [EndOf, if_pos paid]
  have late := (stopped.pushed within life ends).2.2 date member
  rcases mem_pushed.mp member with ⟨k, below, rfl⟩ | ⟨given, -⟩
  · have positive := (stopped.positive within life ends).resolve_right (by omega)
    exact .inl ⟨k, ⟨inside_of_le positive stopped.inside below.le, rfl⟩, stopped.before k below, late⟩
  · exact .inr given

theorem sorted_pushed (distinct : (shape.pushed n).Nodup) :
    ((shape.pushed n).insertionSort (· ≤ ·)).Pairwise (· < ·) := by
  have sorted := List.pairwise_insertionSort (· ≤ ·) (shape.pushed n)
  have apart : ((shape.pushed n).insertionSort (· ≤ ·)).Nodup := (List.perm_insertionSort _ _).nodup_iff.mpr distinct
  exact (sorted.and apart).imp fun both => lt_of_le_of_ne both.1 both.2

/-- The ends of a shape that can be covered: in order, the last at maturity. -/
theorem Coverable.ends (coverable : shape.Coverable) (within : shape.FirstWithin) : ∃ ends, Answers shape.ends ends ∧
    ends.Pairwise (· < ·) ∧ ends.getLast? = some shape.maturity ∧ ∀ date ∈ ends, shape.accruesFrom < date ∧ shape.EndOf date := by
  by_cases paid : 0 < shape.frequency
  · obtain ⟨n, stopped⟩ := coverable.stopsFirst within paid
    have zero := coverable.regular_zero paid
    obtain ⟨distinct, matures, latest⟩ := stopped.pushed within coverable.life zero
    have answers := ends_answers paid (stopped.firstStop within coverable.life)
    refine ⟨_, answers, sorted_pushed distinct, ?_, fun date member => ⟨?_, ?_⟩⟩
    · exact getLast?_of_last (List.pairwise_insertionSort _ _) ((List.mem_insertionSort _).mpr matures)
        fun date member => latest date ((List.mem_insertionSort _).mp member)
    · obtain ⟨fuel, found⟩ := answers.exists_
      exact (ends_sorted found).2 date member
    · exact stopped.endOf within coverable.life zero paid ((List.mem_insertionSort _).mp member)
  · have found : ∀ fuel, shape.ends fuel = some [shape.maturity] := fun fuel => by
      rw [Shape.ends, if_neg paid, if_pos coverable.life]
    refine ⟨_, ⟨0, fun fuel _ => found fuel⟩, List.pairwise_singleton _ _, rfl, fun date member => ?_⟩
    obtain rfl := List.mem_singleton.mp member
    refine ⟨coverable.life, ?_⟩
    rw [EndOf, if_neg paid]

/-- The loop back to a date stops at the first regular date that is not after it. -/
theorem backTo_eq (stop : Date) (fuel k : Nat) :
    shape.backTo stop fuel k = search (fun k => decide (shape.regular k ≤ stop)) (· + 1) fuel k := by
  induction fuel generalizing k with
  | zero => rfl
  | succ fuel ih =>
    rw [backTo, search, ih]
    by_cases after : stop < shape.regular k
    · rw [if_pos after, if_neg (by simpa using after)]
    · rw [if_neg after, if_pos (by simpa using after)]

/-- A regular date is the first that is not after it, where the frequency steps back. -/
theorem OnGrid.first (on : shape.OnGrid k stop) (positive : 0 < months shape.frequency)
    (inside : InCalendar (shape.gridIndex n)) (at_ : shape.regular n ≤ stop)
    (before : ∀ k < n, stop < shape.regular k) : k = n := by
  rcases lt_trichotomy k n with early | equal | late
  · exact absurd on.at_ (before k early).ne'
  · exact equal
  · have back := regular_lt positive inside on.inside late
    rw [on.at_] at back
    exact absurd at_ (not_le.mpr back)

/-- The date found regular back from an end, and that a period is regular where it starts on it. -/
theorem StopsFirst.regularBack (stopped : shape.StopsFirst n) (within : shape.FirstWithin)
    (life : shape.accruesFrom < shape.maturity) (ends : shape.regular 0 = shape.maturity) (after : shape.floorOf ≤ stop)
    (latest : stop ≤ shape.maturity) : ∃ back, Answers (fun fuel => shape.regularBack fuel stop) back ∧
      ∀ start < stop, back = start ↔ shape.RegularBefore stop start := by
  have some' : decide (shape.regular ((· + 1)^[n] 0) ≤ stop) = true := by
    rw [iterate_succ_zero, decide_eq_true_eq]
    exact stopped.at_.trans after
  obtain ⟨k, le, found⟩ : ∃ k ≤ n, FirstStop (fun k => decide (shape.regular k ≤ stop)) (· + 1) 0 k := exists_firstStop some'
  have searched := search_answers found
  obtain ⟨at_, before⟩ := found
  simp only [iterate_succ_zero, decide_eq_true_eq, decide_eq_false_iff_not, not_le] at at_ before searched
  have steps := stopped.positive within life ends
  have inside : InCalendar (shape.gridIndex k) := by
    rcases steps with positive | rfl
    · exact inside_of_le positive stopped.inside le
    · rw [Nat.le_zero.mp le]
      exact shape.inside_zero
  have back : Answers (fun fuel => shape.backTo stop fuel 0) k := searched.congr fun fuel => backTo_eq stop fuel 0
  by_cases same : shape.regular k = stop
  · refine ⟨shape.regular (k + 1), back.bind ?_, fun start earlier => ⟨?_, ?_⟩⟩
    · simp only [if_pos same]
      exact Answers.pure _
    · rintro rfl
      refine .inl ⟨k, ⟨inside, same⟩, ⟨?_, rfl⟩⟩
      by_contra outside
      rw [regular_outside inside outside] at earlier
      exact absurd latest (not_le.mpr earlier)
    · rintro (⟨j, on, next⟩ | ⟨off, -⟩)
      · by_cases positive : 0 < months shape.frequency
        · rw [← on.first positive inside at_ before]
          exact next.at_
        · have all := maturity_le_regular (not_lt.mp positive) next.inside
          rw [next.at_] at all
          exact absurd (latest.trans all) (not_le.mpr earlier)
      · exact absurd ⟨inside, same⟩ (off k)
  · have off : ∀ j, ¬ shape.OnGrid j stop := by
      intro j on
      rcases steps with positive | rfl
      · exact same (on.first positive inside at_ before ▸ on.at_)
      · obtain rfl := Nat.le_zero.mp le
        rw [ends] at at_ same
        exact same (le_antisymm at_ latest)
    refine ⟨addMonths stop (-months shape.frequency) shape.endOfMonth, back.bind ?_, fun start earlier => ⟨?_, ?_⟩⟩
    · simp only [if_neg same]
      exact Answers.pure _
    · exact fun moved => .inr ⟨off, moved⟩
    · rintro (⟨j, on, -⟩ | ⟨-, moved⟩)
      · exact absurd on (off j)
      · exact moved

/-- A period's mark, by the schedule: it answers, and holds of a regular period. -/
theorem Coverable.marks_answer (coverable : shape.Coverable) (within : shape.FirstWithin) (stop : Date) (ends : shape.EndOf stop) :
    ∃ mark : Date → Bool, (∀ start, Answers (fun fuel => shape.marked fuel start stop) (mark start)) ∧
      ∀ start < stop, mark start = true ↔ 0 < shape.frequency ∧ shape.RegularBefore stop start := by
  by_cases paid : 0 < shape.frequency
  · obtain ⟨n, stopped⟩ := coverable.stopsFirst within paid
    have range : shape.floorOf ≤ stop ∧ stop ≤ shape.maturity := by
      rw [EndOf, if_pos paid] at ends
      rcases ends with ⟨-, -, after, latest⟩ | given
      · exact ⟨after.le, latest⟩
      · refine ⟨?_, (within stop given).2⟩
        rw [floorOf, given]
        rfl
    obtain ⟨back, answers, regular⟩ := stopped.regularBack within coverable.life (coverable.regular_zero paid) range.1 range.2
    refine ⟨fun start => back == start, fun start => ?_, fun start earlier => ?_⟩
    · obtain ⟨enough, holds⟩ := answers
      refine ⟨enough, fun fuel le => ?_⟩
      have found : shape.regularBack fuel stop = some back := holds fuel le
      change shape.marked fuel start stop = _
      rw [Shape.marked, if_pos paid, found, Option.map_some]
    · rw [beq_iff_eq, and_iff_right paid]
      exact regular start earlier
  · refine ⟨fun _ => false, fun start => ⟨0, fun fuel _ => ?_⟩, fun start _ => ?_⟩
    · change shape.marked fuel start stop = _
      rw [Shape.marked, if_neg paid]
    · simp [paid]

theorem period_answers {paid : Date} (marks : Answers (fun fuel => shape.marked fuel start stop) mark)
    (adjusted : Answers (fun fuel => shape.calendar.adjust fuel stop shape.roll) paid) :
    Answers (fun fuel => shape.period fuel start stop)
      ⟨start, stop, paid, shape.rateAt start, shape.couponOf start stop mark, mark⟩ := by
  obtain ⟨enough, marks⟩ := marks
  obtain ⟨more, adjusted⟩ := adjusted
  refine ⟨max enough more, fun fuel le => ?_⟩
  have marked : shape.marked fuel start stop = some mark := marks fuel ((le_max_left _ _).trans le)
  have rolled : shape.calendar.adjust fuel stop shape.roll = some paid := adjusted fuel ((le_max_right _ _).trans le)
  change shape.period fuel start stop = _
  rw [period_eq, marked, Option.bind_some, rolled, Option.bind_some]

/-- A shape that can be covered builds a schedule that is a partition of its life. -/
theorem Coverable.partitions (coverable : shape.Coverable) (within : shape.FirstWithin) :
    ∃ schedule, Answers shape.build schedule ∧ shape.Partitions schedule := by
  obtain ⟨ends, found, order, matures, each⟩ := coverable.ends within
  obtain ⟨periods, made⟩ := periodsFrom_answers shape.accruesFrom fun stop member start => by
    obtain ⟨mark, marks, -⟩ := coverable.marks_answer within stop (each stop member).2
    obtain ⟨paid, adjusted⟩ := Calendar.adjust_answers (coverable.rolls stop (each stop member).2)
    exact ⟨_, period_answers (marks start) adjusted⟩
  refine ⟨_, found.bind (made.bind (Answers.pure _)), ?_⟩
  obtain ⟨enough, built⟩ := made
  obtain ⟨rfl, linked, -⟩ := periodsFrom_some (built enough le_rfl)
  have positive := linked.positive order fun stop member => (each stop member).1
  refine ⟨linked, positive, matures, fun period member => ?_⟩
  obtain ⟨mark, marks, regular⟩ := coverable.marks_answer within period.stop (each _ (List.mem_map_of_mem member)).2
  obtain ⟨more, holds⟩ := marks period.start
  have own := (periodsFrom_some (built (max enough more) (le_max_left _ _))).2.2 period member
  obtain ⟨-, -, -, -, marked, -⟩ := period_made own
  have same : shape.marked (max enough more) period.start period.stop = some (mark period.start) :=
    holds _ (le_max_right _ _)
  rw [← Option.some.inj (same.symm.trans marked)]
  exact regular period.start (positive period member)

/-- Every date a period is to end on is pushed. -/
theorem StopsFirst.mem_pushed (stopped : shape.StopsFirst n) (within : shape.FirstWithin) (paid : 0 < shape.frequency)
    (ended : shape.EndOf date) : date ∈ shape.pushed n := by
  rw [EndOf, if_pos paid] at ended
  refine Shape.mem_pushed.mpr ?_
  rcases ended with ⟨k, on, after, latest⟩ | given
  · refine .inl ⟨k, ?_, on.at_⟩
    by_contra late
    rcases (not_lt.mp late).eq_or_lt with rfl | late
    · exact absurd stopped.at_ (not_le.mpr (on.at_ ▸ after))
    · by_cases positive : 0 < months shape.frequency
      · have back := regular_lt positive stopped.inside on.inside late
        rw [on.at_] at back
        exact absurd (back.trans_le stopped.at_) after.not_gt
      · have all := (maturity_le_regular (not_lt.mp positive) stopped.inside).trans stopped.at_
        exact absurd (latest.trans all) (not_le.mpr after)
  · exact .inr ⟨given, (within date given).1⟩

/-- A regular date counted past the calendar's first is maturity again, so a loop that reached it would end at maturity
twice. -/
theorem inside_of_distinct (first : FirstStop shape.stopsAt (· + 1) 0 n) (distinct : (shape.pushed n).Nodup)
    (latest : ∀ date ∈ shape.pushed n, date ≤ shape.maturity) (within : shape.FirstWithin)
    (life : shape.accruesFrom < shape.maturity) : InCalendar (shape.gridIndex n) := by
  by_contra outside
  obtain ⟨j, below, inside, matures⟩ := exists_outside outside
  have ends : shape.regular 0 = shape.maturity :=
    le_antisymm (latest _ (mem_pushed.mpr (.inl ⟨0, by omega, rfl⟩))) shape.maturity_le_regular_zero
  by_cases last : j + 1 = n
  · have stops := first.1
    rw [iterate_succ_zero, stopsAt_floor within life, ← last, matures] at stops
    have passed := first.2 0 (by omega)
    rw [iterate_succ_zero, Bool.eq_false_iff, ne_eq, stopsAt_floor within life, ends] at passed
    exact passed stops
  · have twice := (List.nodup_map_iff_inj_on List.nodup_range).mp (nodup_regulars distinct) 0 (List.mem_range.mpr (by omega))
      (j + 1) (List.mem_range.mpr (by omega)) (ends.trans matures.symm)
    omega

/-- A shape whose schedule is a partition of its life can be covered. -/
theorem Partitions.coverable (partitions : shape.Partitions schedule) (built : shape.build fuel = some schedule)
    (within : shape.FirstWithin) : shape.Coverable := by
  obtain ⟨ends, found, made⟩ := build_some built
  obtain ⟨stops, linked, own⟩ := periodsFrom_some made
  obtain ⟨order, after⟩ := linked.increasing partitions.positive
  have matures := partitions.matures
  rw [stops] at order after matures
  have life := after _ (List.mem_of_getLast? matures)
  have latest : ∀ date ∈ ends, date ≤ shape.maturity := by
    intro date member
    rcases List.mem_append.mp (List.dropLast_append_getLast? _ matures ▸ member) with earlier | same
    · rw [← List.dropLast_append_getLast? _ matures] at order
      exact ((List.pairwise_append.mp order).2.2 date earlier _ (by simp)).le
    · exact (List.mem_singleton.mp same).le
  have rolls : ∀ date ∈ ends, shape.calendar.Rolls date shape.roll := by
    intro date member
    rw [← stops] at member
    obtain ⟨period, held, rfl⟩ := List.mem_map.mp member
    obtain ⟨-, -, -, -, -, adjusted⟩ := period_made (own period held)
    exact Calendar.rolls_of_adjust adjusted
  by_cases paid : 0 < shape.frequency
  · obtain ⟨n, first, rfl⟩ := ends_some paid found
    have distinct : (shape.pushed n).Nodup := (List.perm_insertionSort _ _).nodup_iff.mp (order.imp fun below => below.ne)
    have all : ∀ date ∈ shape.pushed n, date ≤ shape.maturity := fun date member =>
      latest date ((List.mem_insertionSort _).mpr member)
    have stopped : shape.StopsFirst n := by
      refine ⟨inside_of_distinct first distinct all within life, ?_, fun k below => ?_⟩
      · have at_ := first.1
        rwa [iterate_succ_zero, stopsAt_floor within life] at at_
      · have passed := first.2 k below
        rwa [iterate_succ_zero, Bool.eq_false_iff, ne_eq, stopsAt_floor within life, not_le] at passed
    refine ⟨life, fun _ => regular_zero_iff.mp ?_, fun _ => ⟨n, stopped.inside, stopped.at_⟩, fun date ended => ?_⟩
    · refine le_antisymm ?_ shape.maturity_le_regular_zero
      cases n with
      | zero => exact stopped.at_.trans (floorOf_range within life).2
      | succ n => exact all _ (Shape.mem_pushed.mpr (.inl ⟨0, Nat.succ_pos n, rfl⟩))
    · exact rolls date ((List.mem_insertionSort _).mpr (stopped.mem_pushed within paid ended))
  · refine ⟨life, fun pays => absurd pays paid, fun pays => absurd pays paid, fun date ended => ?_⟩
    rw [EndOf, if_neg paid] at ended
    subst ended
    exact rolls _ (List.mem_of_getLast? matures)

/-- A schedule is built, and is a partition of the bond's life, exactly where the shape can be covered. -/
theorem build_partitions_iff (within : shape.FirstWithin) :
    (∃ schedule, Answers shape.build schedule ∧ shape.Partitions schedule) ↔ shape.Coverable := by
  constructor
  · rintro ⟨schedule, answers, partitions⟩
    obtain ⟨fuel, built⟩ := answers.exists_
    exact partitions.coverable built within
  · exact fun coverable => coverable.partitions within

/-- A bond of eleven semiannual periods at month ends, its first coupon stated. -/
theorem february_ends : Date.Exists 2025 2 28 := by decide

theorem august_ends : Date.Exists 2030 8 31 := by decide

def semiannual : Shape where
  accruesFrom := ⟨2025, 2, 28, february_ends⟩
  firstCoupon := some ⟨2025, 8, 31, by decide⟩
  maturity := ⟨2030, 8, 31, august_ends⟩
  frequency := 2
  dayCount := .actActIcma
  endOfMonth := true
  rate := 5
  roll := .unadjusted

theorem semiannual_partitions : ∃ schedule, Answers semiannual.build schedule ∧ semiannual.Partitions schedule := by
  have within : semiannual.FirstWithin := by
    rintro first ⟨rfl⟩
    decide +kernel
  refine (build_partitions_iff within).mpr ⟨by decide +kernel, fun _ _ => by decide +kernel, fun _ => ⟨10, ?_, ?_⟩, ?_⟩
  · decide +kernel
  · decide +kernel
  · exact fun _ _ => trivial

/-- A certificate paid twice a month. -/
theorem august_halves : Date.Exists 2030 8 15 := by decide

def twiceMonthly : Shape where
  accruesFrom := ⟨2025, 2, 15, by decide⟩
  firstCoupon := none
  maturity := ⟨2030, 8, 15, august_halves⟩
  frequency := 24
  dayCount := .act365Fixed
  endOfMonth := false
  rate := 5
  roll := .following

/-- A frequency of more than twelve a year steps nowhere: the loop never ends. -/
theorem twiceMonthly_unended : twiceMonthly.FirstWithin ∧
    ¬ ∃ schedule, Answers twiceMonthly.build schedule ∧ twiceMonthly.Partitions schedule := by
  have within : twiceMonthly.FirstWithin := by
    rintro first ⟨⟩
  refine ⟨within, ?_⟩
  rintro ⟨schedule, answers, -⟩
  obtain ⟨fuel, built⟩ := answers.exists_
  obtain ⟨ends, found, -⟩ := build_some built
  obtain ⟨n, first, -⟩ := ends_some (by decide) found
  have stops := first.1
  rw [iterate_succ_zero, stopsAt_floor within (by decide +kernel)] at stops
  have stays : twiceMonthly.regular n = addMonths twiceMonthly.maturity 0 false := by
    have still : months twiceMonthly.frequency = 0 := by decide +kernel
    rw [regular, still, mul_zero]
    rfl
  rw [stays] at stops
  revert stops
  decide +kernel

end Shape

end MeridianCore.AnalyticsEngine.Bonds
