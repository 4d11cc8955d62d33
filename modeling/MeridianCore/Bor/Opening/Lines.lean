import MeridianCore.Bor.Opening
import MeridianCore.Bor.Book.Accounted
import MeridianCore.Ordered.Spread

namespace MeridianCore.Bor
open Book (lineUnits)

/-- A quantity's magnitude where it is signed to match its side. -/
def sideUnits (side : HoldingSide) (units : Int) : Int := if side = .short then -units else units

section

variable {side : HoldingSide}

theorem admitsSide_iff (value : Exact) : admitsSide side value = true ↔ 0 ≤ sideUnits side value.units := by
  cases side <;> simp [admitsSide, sideUnits, ← Bool.not_eq_true, Exact.isNegative_iff]

@[simp] theorem sideUnits_signed (value : Exact) : sideUnits side (signed side value).units = value.units := by
  unfold sideUnits signed
  split <;> simp

theorem sideUnits_magnitude {value : Exact} (admitted : 0 ≤ sideUnits side value.units) :
    (magnitude value).units = sideUnits side value.units := by
  rw [units_magnitude]
  unfold sideUnits at admitted ⊢
  split at admitted
  · rw [abs_of_nonpos (by omega), if_pos ‹_›]
  · rw [abs_of_nonneg admitted, if_neg ‹_›]

@[simp] theorem sideUnits_sideUnits (units : Int) : sideUnits side (sideUnits side units) = units := by
  unfold sideUnits
  split <;> omega

theorem sideUnits_eq_zero {units : Int} : sideUnits side units = 0 ↔ units = 0 := by
  unfold sideUnits
  split <;> omega

end

/-- What a number on the wire states, in units; nothing where it states none. -/
def wireUnits (wire : Option Decimal) : Int := ((readExact wire).map Exact.units).getD 0

/-- The buckets an opening position states, those of nothing too. -/
def statedBuckets (position : OpeningPosition) : List Bucket :=
  ((readExact position.settledQuantity).map fun settled => (⟨.settled, "", none, settled⟩ : Bucket)).toList ++
    position.pending.map fun pending =>
      ⟨.pending, pending.valueDate, pending.state, (readExact pending.quantity).getD Exact.zero⟩

/-- The lots an opening position supplies, each with the identifier minted for it. -/
def supplied (ctx : Context) (minted : Nat) (position : OpeningPosition) : List SuppliedLot :=
  position.lots.mapIdx fun index lot =>
    ⟨ctx.minted "LOT" (minted + index), suppliedTerms lot, (readExact lot.quantity).getD Exact.zero⟩

/-- A lot opened by one line, with its terms, the first that names it. -/
def OpensFirst (lines : List MovementLine) (lot : SuppliedLot) : Prop :=
  ∃ before line after, lines = before ++ line :: after ∧ line.lotId = lot.lotId ∧ line.opensLot = some lot.terms ∧
    (∀ other ∈ before, other.lotId ≠ lot.lotId) ∧ ∀ other ∈ after, other.lotId = lot.lotId → other.opensLot = none

/-- The lines say what the position said: each bucket's quantity on each value date, each lot's, and
each lot opened once. -/
structure SaysPosition (ctx : Context) (minted : Nat) (side : HoldingSide) (position : OpeningPosition)
    (lines : List MovementLine) : Prop where
  on : ∀ line ∈ lines, line.instrumentId = position.instrumentId ∧ line.side = side
  buckets : ∀ bucket valueDate, sumOf (fun line => line.bucket = bucket ∧ line.valueDate = valueDate) lineUnits lines =
    sumOf (fun stated => stated.bucket = bucket ∧ stated.valueDate = valueDate) (fun stated => stated.quantity.units)
      (statedBuckets position)
  lots : ∀ lot ∈ supplied ctx minted position,
    sumOf (fun line => line.lotId = lot.lotId) lineUnits lines = lot.quantity.units
  opens : ∀ lot ∈ supplied ctx minted position, OpensFirst lines lot

/-- Some quantity to open the lots with, and, where everything is signed to match the side, no lot of
nothing before one of something. -/
def LotsOpened (side : HoldingSide) (position : OpeningPosition) : Prop :=
  position.lots = [] ∨
    (∃ stated ∈ statedBuckets position, stated.quantity.units ≠ 0) ∧
    ((∀ stated ∈ statedBuckets position, 0 ≤ sideUnits side stated.quantity.units) →
      (∀ lot ∈ position.lots, 0 ≤ sideUnits side (wireUnits lot.quantity)) →
      position.lots.Pairwise fun first later => wireUnits first.quantity = 0 → wireUnits later.quantity = 0)

section Walk

variable {field : String} {side : HoldingSide} {fuel : Nat} {buckets : List (Bucket × Exact)}
  {lots rest : List (SuppliedLot × Exact)} {pushed : List Push}

def unitsLeft {γ : Type} (entry : γ × Exact) : γ × Int := (entry.1, entry.2.units)

/-- A push by the magnitude it moves. -/
def Push.put (side : HoldingSide) (push : Push) : Bucket × SuppliedLot × Int :=
  (push.bucket, push.lot, sideUnits side push.quantity.units)

theorem units_least (x y : Exact) : (if y.less x then y else x).units = min x.units y.units := by
  split
  · next less =>
    have below := (Exact.less_iff _ _).mp less
    omega
  · next notLess =>
    rw [Exact.less_iff] at notLess
    omega

theorem left_eq {γ : Type} (entry : γ) (left : Exact) (later : List (γ × Exact)) {units : Int} (same : left.units = units) :
    (if left.isZero then later else (entry, left) :: later).map unitsLeft =
      if units = 0 then later.map unitsLeft else (entry, units) :: later.map unitsLeft := by
  subst same
  by_cases nothing : left.isZero = true
  · rw [if_pos nothing, if_pos ((Exact.isZero_iff left).mp nothing)]
  · rw [if_neg nothing, if_neg fun zero => nothing ((Exact.isZero_iff left).mpr zero), List.map_cons]
    rfl

/-- The walk spreads the buckets' quantities over the lots. -/
theorem spread_of_walk (walked : walk field side fuel buckets lots = some (.ok (pushed, rest))) :
    spread fuel (buckets.map unitsLeft) (lots.map unitsLeft) = some (pushed.map (Push.put side), rest.map unitsLeft) := by
  induction fuel generalizing buckets lots pushed with
  | zero =>
    rcases buckets with _ | ⟨bucket, buckets⟩
    · unfold walk at walked
      cases walked
      unfold spread
      rfl
    rcases lots with _ | ⟨lot, lots⟩
    · cases walked
      rfl
    · cases walked
  | succ fuel ih =>
    rcases buckets with _ | ⟨⟨bucket, bucketLeft⟩, buckets⟩
    · unfold walk at walked
      cases walked
      unfold spread
      rfl
    rcases lots with _ | ⟨⟨lot, lotLeft⟩, lots⟩
    · cases walked
      rfl
    · rw [walk] at walked
      have least := units_least bucketLeft lotLeft
      generalize (if lotLeft.less bucketLeft then lotLeft else bucketLeft) = take at walked least
      cases bucketSum : numbers.add field bucketLeft take.negated with
      | error out =>
        rw [bucketSum] at walked
        cases walked
      | ok bucketRest =>
        cases lotSum : numbers.add field lotLeft take.negated with
        | error out =>
          rw [bucketSum, lotSum] at walked
          cases walked
        | ok lotRest =>
          rw [bucketSum, lotSum] at walked
          have bucketUnits := (Exact.checkedAdd_ok (mapError_ok.mp bucketSum)).1
          have lotUnits := (Exact.checkedAdd_ok (mapError_ok.mp lotSum)).1
          rw [Exact.units_negated, ← sub_eq_add_neg, least] at bucketUnits lotUnits
          obtain ⟨answered, walked', ended⟩ := Option.map_eq_some_iff.mp walked
          cases answered with
          | error out => cases ended
          | ok answered =>
            obtain ⟨later, rest'⟩ := answered
            cases ended
            have further := ih walked'
            rw [left_eq _ _ _ bucketUnits, left_eq _ _ _ lotUnits] at further
            rw [List.map_cons, List.map_cons, unitsLeft, unitsLeft, spread, further, Option.map_some, List.map_append]
            congr 3
            by_cases nothing : take.isZero = true
            · rw [if_pos nothing, if_pos (least ▸ (Exact.isZero_iff take).mp nothing)]
              rfl
            · rw [if_neg nothing, if_neg fun zero => nothing ((Exact.isZero_iff take).mpr (least.trans zero)), List.map_singleton,
                Push.put, sideUnits_signed, least]

/-- The walk ends: each step uses up a bucket or a lot. -/
theorem walk_ends (enough : buckets.length + lots.length ≤ fuel) : ∃ answered, walk field side fuel buckets lots = some answered := by
  induction fuel generalizing buckets lots with
  | zero =>
    rw [List.length_eq_zero_iff.mp (show buckets.length = 0 by omega)]
    exact ⟨_, by unfold walk; rfl⟩
  | succ fuel ih =>
    match buckets, lots with
    | [], lots => exact ⟨_, by unfold walk; rfl⟩
    | _ :: _, [] => exact ⟨_, by unfold walk; rfl⟩
    | (bucket, bucketLeft) :: buckets, (lot, lotLeft) :: lots =>
      rw [walk]
      have least := units_least bucketLeft lotLeft
      generalize (if lotLeft.less bucketLeft then lotLeft else bucketLeft) = take at least ⊢
      cases bucketSum : numbers.add field bucketLeft take.negated with
      | error out => exact ⟨_, rfl⟩
      | ok bucketRest =>
        cases lotSum : numbers.add field lotLeft take.negated with
        | error out => exact ⟨_, rfl⟩
        | ok lotRest =>
          have bucketUnits := (Exact.checkedAdd_ok (mapError_ok.mp bucketSum)).1
          have lotUnits := (Exact.checkedAdd_ok (mapError_ok.mp lotSum)).1
          rw [Exact.units_negated, least] at bucketUnits lotUnits
          simp only [List.length_cons] at enough
          have shorter : (if bucketRest.isZero then buckets else (bucket, bucketRest) :: buckets).length +
              (if lotRest.isZero then lots else (lot, lotRest) :: lots).length ≤ fuel := by
            simp only [Exact.isZero_iff]
            split <;> split <;> first | omega | (simp only [List.length_cons]; omega)
          obtain ⟨answered, walked⟩ := ih shorter
          exact ⟨_, by dsimp only; rw [walked]; rfl⟩

end Walk

section Lines

variable {position : OpeningPosition} {side : HoldingSide} {opened : List String} {pushed : List Push}

@[simp] theorem lineUnits_openingLine (bucket : Bucket) (quantity : Exact) :
    lineUnits (openingLine position side bucket quantity) = quantity.units := by
  simp [lineUnits, readExact, openingLine, numbers.wire, Except.toOption]

/-- A line as a push makes it, but for the lot it opens. -/
theorem mem_openingOf {line : MovementLine} (among : line ∈ openingOf (openingLine position side) opened pushed) :
    ∃ push ∈ pushed, ∃ opens, line = { openingLine position side push.bucket push.quantity with
      lotId := push.lot.lotId, opensLot := opens } := by
  induction pushed generalizing opened with
  | nil => cases among
  | cons push later ih =>
    rw [openingOf] at among
    dsimp only at among
    split at among
    · rcases List.mem_cons.mp among with rfl | others
      · exact ⟨push, List.mem_cons_self, none, rfl⟩
      · obtain ⟨push', inLater, made⟩ := ih others
        exact ⟨push', List.mem_cons_of_mem _ inLater, made⟩
    · rcases List.mem_cons.mp among with rfl | others
      · exact ⟨push, List.mem_cons_self, some push.lot.terms, rfl⟩
      · obtain ⟨push', inLater, made⟩ := ih others
        exact ⟨push', List.mem_cons_of_mem _ inLater, made⟩

/-- The lines' sums are those of what was pushed. -/
theorem sumOf_openingOf {p : MovementLine → Prop} [DecidablePred p] {q : Push → Prop} [DecidablePred q]
    (reads : ∀ push opens, p { openingLine position side push.bucket push.quantity with
      lotId := push.lot.lotId, opensLot := opens } ↔ q push) :
    sumOf p lineUnits (openingOf (openingLine position side) opened pushed) =
      sumOf q (fun push => push.quantity.units) pushed := by
  induction pushed generalizing opened with
  | nil => rfl
  | cons push later ih =>
    rw [openingOf]
    dsimp only
    have units (opens : Option LotTerms) : lineUnits { openingLine position side push.bucket push.quantity with
        lotId := push.lot.lotId, opensLot := opens } = push.quantity.units :=
      @lineUnits_openingLine position side push.bucket push.quantity
    split
    · rw [sumOf_cons, sumOf_cons, ih]
      congr 1
      exact if_congr (reads push none) (units none) rfl
    · rw [sumOf_cons, sumOf_cons, ih]
      congr 1
      exact if_congr (reads push (some push.lot.terms)) (units _) rfl

/-- A lot opened already is opened by no later line. -/
theorem opened_again {lotId : String} (already : lotId ∈ opened) {line : MovementLine}
    (among : line ∈ openingOf (openingLine position side) opened pushed) (named : line.lotId = lotId) :
    line.opensLot = none := by
  induction pushed generalizing opened with
  | nil => cases among
  | cons push later ih =>
    rw [openingOf] at among
    dsimp only at among
    split at among
    · rcases List.mem_cons.mp among with rfl | others
      · rfl
      · exact ih already others
    · next new =>
      rcases List.mem_cons.mp among with rfl | others
      · change push.lot.lotId = lotId at named
        exact absurd (named ▸ already) new
      · exact ih (List.mem_cons_of_mem _ already) others

/-- A lot pushed to is opened by the first line that names it. -/
theorem opensFirst_openingOf {lot : SuppliedLot} (new : lot.lotId ∉ opened)
    (own : ∀ push ∈ pushed, push.lot.lotId = lot.lotId → push.lot = lot) (reached : ∃ push ∈ pushed, push.lot = lot) :
    OpensFirst (openingOf (openingLine position side) opened pushed) lot := by
  induction pushed generalizing opened with
  | nil =>
    obtain ⟨push, none', -⟩ := reached
    cases none'
  | cons push later ih =>
    obtain ⟨ownFirst, own⟩ := List.forall_mem_cons.mp own
    rw [openingOf]
    dsimp only
    by_cases here : push.lot.lotId = lot.lotId
    · -- the line of this push is the first, and opens it
      have same := ownFirst here
      rw [if_neg (here ▸ new)]
      refine ⟨[], _, _, rfl, here, congrArg some (congrArg SuppliedLot.terms same), fun _ none' =>
        absurd none' List.not_mem_nil, fun line among named => ?_⟩
      exact opened_again (List.mem_cons_self) among (named.trans here.symm)
    · have later' : ∃ other ∈ later, other.lot = lot := by
        obtain ⟨other, among, same⟩ := reached
        rcases List.mem_cons.mp among with rfl | inLater
        · exact absurd (congrArg SuppliedLot.lotId same) here
        · exact ⟨other, inLater, same⟩
      split
      · obtain ⟨before, line, after, parted, named, opens, firsts, others⟩ := ih new own later'
        refine ⟨_ :: before, line, after, by rw [parted, List.cons_append], named, opens,
          List.forall_mem_cons.mpr ⟨here, firsts⟩, others⟩
      · have still : lot.lotId ∉ push.lot.lotId :: opened := by
          rw [List.mem_cons, not_or]
          exact ⟨Ne.symm here, new⟩
        obtain ⟨before, line, after, parted, named, opens, firsts, others⟩ := ih still own later'
        refine ⟨_ :: before, line, after, by rw [parted, List.cons_append], named, opens,
          List.forall_mem_cons.mpr ⟨here, firsts⟩, others⟩

end Lines

section Checked

variable {ctx : Context} {field : String} {minted index : Nat} {position : OpeningPosition}

/-- After a check made where there is anything to check, what comes next. -/
theorem after_check {α : Type} {c : Prop} [Decidable c] {check : Result Unit} {next : Unit → Result α} {answer : α}
    (answered : (if c then check >>= next else next ()) = .ok answer) : next () = .ok answer := by
  split at answered
  · obtain ⟨⟨⟩, -, answered⟩ := bind_ok.mp answered
    exact answered
  · exact answered

theorem pendingBuckets_ok {pending : List PendingSettlement} {rest left : Exact} {buckets : List Bucket}
    (answered : pendingBuckets field index pending rest = .ok (buckets, left)) :
    buckets = pending.map (fun pending =>
      ⟨.pending, pending.valueDate, pending.state, (readExact pending.quantity).getD Exact.zero⟩) ∧
    left.units = rest.units - sumOf (fun _ => True) (fun bucket : Bucket => bucket.quantity.units) buckets := by
  induction pending generalizing index rest buckets with
  | nil =>
    cases answered
    simp
  | cons pending later ih =>
    rw [pendingBuckets] at answered
    obtain ⟨quantity, read, answered⟩ := bind_ok.mp answered
    obtain ⟨next, summed, answered⟩ := bind_ok.mp (after_check answered)
    obtain ⟨⟨others, end'⟩, followed, answered⟩ := bind_ok.mp answered
    cases answered
    obtain ⟨made, units⟩ := ih followed
    have added := (Exact.checkedAdd_ok (mapError_ok.mp summed)).1
    rw [Exact.units_negated] at added
    rw [List.map_cons, required_read read, Option.getD_some, ← made]
    refine ⟨rfl, ?_⟩
    rw [units, added, sumOf_cons, if_pos trivial]
    dsimp only
    omega

theorem suppliedLots_ok {lots : List OpeningLot} {start total : Exact} {made : List SuppliedLot}
    (answered : suppliedLots ctx field minted index lots start = .ok (made, total)) :
    made = lots.mapIdx (fun at_ lot =>
      ⟨ctx.minted "LOT" (minted + (index + at_)), suppliedTerms lot, (readExact lot.quantity).getD Exact.zero⟩) ∧
    total.units = start.units + sumOf (fun _ => True) (fun lot : SuppliedLot => lot.quantity.units) made := by
  induction lots generalizing index start made with
  | nil =>
    cases answered
    simp
  | cons lot later ih =>
    rw [suppliedLots] at answered
    obtain ⟨quantity, read, answered⟩ := bind_ok.mp answered
    obtain ⟨next, summed, answered⟩ := bind_ok.mp answered
    obtain ⟨⟨others, end'⟩, followed, answered⟩ := bind_ok.mp answered
    cases answered
    obtain ⟨made, units⟩ := ih followed
    have added := (Exact.checkedAdd_ok (mapError_ok.mp summed)).1
    rw [List.mapIdx_cons, required_read read, Option.getD_some]
    refine ⟨?_, ?_⟩
    · rw [made]
      simp only [Nat.add_zero, Nat.add_assoc, Nat.add_comm 1]
    · rw [units, added, sumOf_cons, if_pos trivial]
      dsimp only
      omega

theorem openingBuckets_ok {trade : Exact} {buckets : List Bucket}
    (answered : openingBuckets field position trade = .ok buckets) :
    buckets = (statedBuckets position).filter (fun bucket => !bucket.quantity.isZero) ∧
    trade.units = sumOf (fun _ => True) (fun bucket : Bucket => bucket.quantity.units) (statedBuckets position) := by
  unfold openingBuckets at answered
  obtain ⟨settled, read, answered⟩ := bind_ok.mp answered
  -- what follows the settled quantity, whatever it leaves of the trade-date one
  have after {first : Exact} {stated : List Bucket} (answered : (do
      let followed ← pendingBuckets field 0 position.pending first
      if ¬ followed.2.isZero then throw (incomplete "the opening balance" [s!"{field}.pending"])
      return (stated ++ followed.1).filter fun bucket => !bucket.quantity.isZero : Result (List Bucket)) = .ok buckets) :
      ∃ pending, pending = position.pending.map (fun pending =>
          (⟨.pending, pending.valueDate, pending.state, (readExact pending.quantity).getD Exact.zero⟩ : Bucket)) ∧
        buckets = (stated ++ pending).filter (fun bucket => !bucket.quantity.isZero) ∧
        first.units = sumOf (fun _ => True) (fun bucket : Bucket => bucket.quantity.units) pending := by
    obtain ⟨⟨pending, rest⟩, followed, answered⟩ := bind_ok.mp answered
    obtain ⟨nothing, answered⟩ := guard_ok.mp answered
    cases answered
    obtain ⟨made, units⟩ := pendingBuckets_ok followed
    rw [not_not, Exact.isZero_iff] at nothing
    dsimp only at nothing
    exact ⟨pending, made, rfl, by omega⟩
  cases wire : position.settledQuantity with
  | none =>
    rw [wire] at read
    cases read
    obtain ⟨pending, rfl, made, units⟩ := after answered
    rw [statedBuckets, wire]
    exact ⟨made, units⟩
  | some settledWire =>
    rw [wire] at read
    obtain ⟨value, readValue, rfl⟩ : ∃ value, numbers.read s!"{field}.settled_quantity" settledWire = .ok value ∧
        settled = some value := by
      change (numbers.read s!"{field}.settled_quantity" settledWire).map some = .ok settled at read
      cases done : numbers.read s!"{field}.settled_quantity" settledWire with
      | error out =>
        rw [done] at read
        cases read
      | ok value =>
        rw [done] at read
        exact ⟨value, rfl, (Except.ok.inj read).symm⟩
    obtain ⟨first, summed, answered⟩ := bind_ok.mp answered
    obtain ⟨pending, rfl, made, units⟩ := after answered
    have left := (Exact.checkedAdd_ok (mapError_ok.mp summed)).1
    rw [Exact.units_negated] at left
    have stated : readExact (some settledWire) = some value := @required_read s!"{field}.settled_quantity" _ _ readValue
    rw [statedBuckets, wire, stated]
    refine ⟨made, ?_⟩
    rw [sumOf_append, ← units, Option.map_some, Option.toList_some, sumOf_cons, if_pos trivial, sumOf_nil]
    dsimp only
    omega

end Checked

section Says

variable {ctx : Context} {field : String} {minted : Nat} {side : HoldingSide} {position : OpeningPosition}
  {buckets : List Bucket} {pushed : List Push}

theorem getElem?_supplied (index : Nat) : (supplied ctx minted position)[index]? = (position.lots[index]?).map fun lot =>
    ⟨ctx.minted "LOT" (minted + index), suppliedTerms lot, (readExact lot.quantity).getD Exact.zero⟩ :=
  List.getElem?_mapIdx

theorem supplied_units : (supplied ctx minted position).map (fun lot => lot.quantity.units) =
    position.lots.map fun lot => wireUnits lot.quantity := by
  refine List.ext_getElem? fun index => ?_
  rw [List.getElem?_map, getElem?_supplied, List.getElem?_map, Option.map_map]
  refine congrArg (fun make => Option.map make position.lots[index]?) (funext fun lot => ?_)
  change ((readExact lot.quantity).getD Exact.zero).units = wireUnits lot.quantity
  unfold wireUnits
  cases readExact lot.quantity with
  | none => exact Exact.units_zero
  | some value => rfl

theorem supplied_nodup (distinct : ∀ i j, ctx.minted "LOT" i = ctx.minted "LOT" j → i = j) :
    ((supplied ctx minted position).map SuppliedLot.lotId).Nodup := by
  have ids : (supplied ctx minted position).map SuppliedLot.lotId =
      (List.range position.lots.length).map fun index => ctx.minted "LOT" (minted + index) := by
    refine List.ext_getElem? fun index => ?_
    rw [List.getElem?_map, getElem?_supplied, List.getElem?_map, Option.map_map]
    by_cases within : index < position.lots.length
    · rw [List.getElem?_eq_getElem within, List.getElem?_eq_getElem (by rwa [List.length_range]), List.getElem_range]
      rfl
    · rw [List.getElem?_eq_none (by omega), List.getElem?_eq_none (by rw [List.length_range]; omega)]
      rfl
  rw [ids]
  exact List.nodup_range.map fun i j same => Nat.add_left_cancel (distinct _ _ same)

theorem same_of_lotId {lots : List SuppliedLot} (named : (lots.map SuppliedLot.lotId).Nodup) {a b : SuppliedLot}
    (inA : a ∈ lots) (inB : b ∈ lots) (same : a.lotId = b.lotId) : a = b :=
  List.inj_on_of_nodup_map named inA inB same

/-- Where what is pushed sums to the buckets and to the lots, the lines say the position exactly when
every lot is pushed to. -/
theorem told_iff_reached (named : ((supplied ctx minted position).map SuppliedLot.lotId).Nodup)
    (toBuckets : ∀ bucket valueDate, sumOf (fun push : Push => push.bucket.bucket = bucket ∧ push.bucket.valueDate = valueDate)
      (fun push => push.quantity.units) pushed =
      sumOf (fun stated : Bucket => stated.bucket = bucket ∧ stated.valueDate = valueDate)
        (fun stated => stated.quantity.units) (statedBuckets position))
    (toLots : ∀ lot ∈ supplied ctx minted position,
      sumOf (fun push : Push => push.lot.lotId = lot.lotId) (fun push => push.quantity.units) pushed = lot.quantity.units)
    (onto : ∀ push ∈ pushed, push.lot ∈ supplied ctx minted position) :
    SaysPosition ctx minted side position (openingOf (openingLine position side) [] pushed) ↔
      ∀ lot ∈ supplied ctx minted position, ∃ push ∈ pushed, push.lot = lot := by
  constructor
  · intro told lot among
    obtain ⟨before, line, after, parted, names, -⟩ := told.opens lot among
    have inLines : line ∈ openingOf (openingLine position side) [] pushed := by
      rw [parted]
      exact List.mem_append_right _ List.mem_cons_self
    obtain ⟨push, inPushed, opens, rfl⟩ := mem_openingOf inLines
    exact ⟨push, inPushed, same_of_lotId named (onto push inPushed) among names⟩
  · intro reached
    refine ⟨fun line among => ?_, fun bucket valueDate => ?_, fun lot among => ?_, fun lot among => ?_⟩
    · obtain ⟨push, -, opens, rfl⟩ := mem_openingOf among
      exact ⟨rfl, rfl⟩
    · rw [← toBuckets]
      exact sumOf_openingOf fun push opens => Iff.rfl
    · rw [← toLots lot among]
      exact sumOf_openingOf fun push opens => Iff.rfl
    · exact opensFirst_openingOf List.not_mem_nil
        (fun push inPushed same => same_of_lotId named (onto push inPushed) among same) (reached lot among)

/-- What a position states of nothing adds to no sum. -/
theorem sumOf_stated {p : Bucket → Prop} [DecidablePred p] :
    sumOf p (fun stated => stated.quantity.units) ((statedBuckets position).filter fun bucket => !bucket.quantity.isZero) =
      sumOf p (fun stated => stated.quantity.units) (statedBuckets position) := by
  refine sumOf_filter fun stated _ dropped => ?_
  rw [Bool.not_eq_false', Exact.isZero_iff] at dropped
  exact dropped

/-- With nothing to push, no lot is opened. -/
theorem not_told_nil (some' : position.lots ≠ []) : ¬ SaysPosition ctx minted side position [] := by
  intro told
  obtain ⟨first, rest, lots⟩ := List.exists_cons_of_ne_nil some'
  have among : (⟨ctx.minted "LOT" (minted + 0), suppliedTerms first, (readExact first.quantity).getD Exact.zero⟩ : SuppliedLot) ∈
      supplied ctx minted position := by
    refine List.mem_of_getElem? (i := 0) ?_
    rw [getElem?_supplied, lots]
    rfl
  obtain ⟨before, line, after, parted, -⟩ := told.opens _ among
  cases before <;> cases parted

section Mixed

variable {carrier : Bucket} {first : SuppliedLot} {others : List SuppliedLot}

/-- What the first lot passes on it passes out of the same bucket. -/
theorem passedOn_buckets {p : Bucket → Prop} [DecidablePred p] (head : buckets.head? = some carrier) :
    sumOf (fun push : Push => p push.bucket) (fun push => push.quantity.units) (passedOn buckets (first :: others)) =
      sumOf p (fun bucket => bucket.quantity.units) buckets := by
  rw [passedOn, head]
  dsimp only
  rw [sumOf_append, sumOf_map]
  have none' : sumOf (fun push : Push => p push.bucket) (fun push => push.quantity.units)
      (others.flatMap fun lot => [⟨carrier, lot, lot.quantity⟩, ⟨carrier, first, lot.quantity.negated⟩]) = 0 := by
    induction others with
    | nil => rfl
    | cons lot rest ih =>
      rw [List.flatMap_cons, sumOf_append, ih, sumOf_cons, sumOf_cons, sumOf_nil, Exact.units_negated]
      dsimp only
      split <;> omega
  rw [none', Int.add_zero]

theorem passedOn_lots {lot : SuppliedLot} (head : buckets.head? = some carrier)
    (named : ((first :: others).map SuppliedLot.lotId).Nodup)
    (whole : sumOf (fun _ => True) (fun bucket : Bucket => bucket.quantity.units) buckets =
      sumOf (fun _ => True) (fun lot : SuppliedLot => lot.quantity.units) (first :: others))
    (among : lot ∈ first :: others) :
    sumOf (fun push : Push => push.lot.lotId = lot.lotId) (fun push => push.quantity.units)
      (passedOn buckets (first :: others)) = lot.quantity.units := by
  rw [passedOn, head]
  dsimp only
  rw [sumOf_append, sumOf_map]
  obtain ⟨new, distinct⟩ := List.nodup_cons.mp named
  have passed (name : String) : sumOf (fun push : Push => push.lot.lotId = name) (fun push => push.quantity.units)
      (others.flatMap fun lot => [⟨carrier, lot, lot.quantity⟩, ⟨carrier, first, lot.quantity.negated⟩]) =
      sumOf (fun lot : SuppliedLot => lot.lotId = name) (fun lot => lot.quantity.units) others -
        if first.lotId = name then sumOf (fun _ => True) (fun lot : SuppliedLot => lot.quantity.units) others else 0 := by
    clear named new distinct whole among
    induction others with
    | nil => simp
    | cons lot rest ih =>
      rw [List.flatMap_cons, sumOf_append, ih, sumOf_cons, sumOf_cons, sumOf_nil, Exact.units_negated, sumOf_cons,
        sumOf_cons, if_pos trivial]
      dsimp only
      split <;> split <;> omega
  rw [passed]
  rcases List.mem_cons.mp among with rfl | later
  · have apart : sumOf (fun other : SuppliedLot => other.lotId = lot.lotId) (fun lot => lot.quantity.units) others = 0 :=
      sumOf_eq_zero fun other inOthers same => absurd (List.mem_map.mpr ⟨other, inOthers, same⟩) new
    rw [sumOf_cons, if_pos trivial] at whole
    rw [apart, if_pos rfl]
    have every : sumOf (fun _ : Bucket => lot.lotId = lot.lotId) (fun bucket => bucket.quantity.units) buckets =
        sumOf (fun _ => True) (fun bucket : Bucket => bucket.quantity.units) buckets :=
      sumOf_congr fun bucket _ => ⟨iff_of_true rfl trivial, rfl⟩
    rw [every]
    omega
  · have apart : first.lotId ≠ lot.lotId := fun same => new (List.mem_map.mpr ⟨lot, later, same.symm⟩)
    have none' : sumOf (fun _ : Bucket => first.lotId = lot.lotId) (fun bucket => bucket.quantity.units) buckets = 0 :=
      sumOf_eq_zero fun _ _ same => absurd same apart
    rw [if_neg apart, none', sumOf_name distinct later]
    omega

theorem mem_passedOn {push : Push} (among : push ∈ passedOn buckets (first :: others)) : push.lot ∈ first :: others := by
  rw [passedOn] at among
  split at among
  · cases among
  · rcases List.mem_append.mp among with all | each
    · obtain ⟨bucket, -, rfl⟩ := List.mem_map.mp all
      exact List.mem_cons_self
    · obtain ⟨lot, inOthers, each⟩ := List.mem_flatMap.mp each
      rcases List.mem_pair.mp each with rfl | rfl
      · exact List.mem_cons_of_mem _ inOthers
      · exact List.mem_cons_self

theorem passedOn_reaches {lot : SuppliedLot} (head : buckets.head? = some carrier) (among : lot ∈ first :: others) :
    ∃ push ∈ passedOn buckets (first :: others), push.lot = lot := by
  rw [passedOn, head]
  dsimp only
  rcases List.mem_cons.mp among with rfl | later
  · obtain ⟨rest, rfl⟩ := List.head?_eq_some_iff.mp head
    exact ⟨_, List.mem_append_left _ List.mem_cons_self, rfl⟩
  · refine ⟨⟨carrier, lot, lot.quantity⟩, List.mem_append_right _ (List.mem_flatMap.mpr ⟨lot, later, ?_⟩), rfl⟩
    exact List.mem_cons_self

end Mixed

theorem openingChecked_ok {lots : List SuppliedLot}
    (answered : openingChecked ctx field minted side position = .ok (buckets, lots)) :
    buckets = (statedBuckets position).filter (fun bucket => !bucket.quantity.isZero) ∧
    lots = supplied ctx minted position ∧
    (lots ≠ [] → sumOf (fun _ => True) (fun bucket : Bucket => bucket.quantity.units) buckets =
      sumOf (fun _ => True) (fun lot : SuppliedLot => lot.quantity.units) lots) := by
  unfold openingChecked at answered
  obtain ⟨trade, read, answered⟩ := bind_ok.mp answered
  obtain ⟨-, answered⟩ := guard_ok.mp answered
  obtain ⟨stated, drafted, answered⟩ := bind_ok.mp answered
  obtain ⟨⟨made, total⟩, numbered, answered⟩ := bind_ok.mp answered
  obtain ⟨balanced, answered⟩ := guard_ok.mp answered
  cases answered
  obtain ⟨rfl, tradeUnits⟩ := openingBuckets_ok drafted
  obtain ⟨rfl, totalUnits⟩ := suppliedLots_ok numbered
  have same : List.mapIdx (fun at_ lot => (⟨ctx.minted "LOT" (minted + (0 + at_)), suppliedTerms lot,
      (readExact lot.quantity).getD Exact.zero⟩ : SuppliedLot)) position.lots = supplied ctx minted position := by
    simp only [Nat.zero_add]
    rfl
  rw [same] at balanced totalUnits
  refine ⟨rfl, same, fun some' => ?_⟩
  rw [same] at some' ⊢
  have equal : total.equals trade = true := by
    by_contra apart
    exact balanced ⟨some', apart⟩
  rw [Exact.equals_iff] at equal
  rw [sumOf_stated, ← tradeUnits, ← equal, totalUnits, Exact.units_zero, Int.zero_add]

/-- Whether everything is signed to match the side is what the position states of it. -/
theorem oneSide_iff : oneSide side ((statedBuckets position).filter fun bucket => !bucket.quantity.isZero)
      (supplied ctx minted position) = true ↔
    (∀ stated ∈ statedBuckets position, 0 ≤ sideUnits side stated.quantity.units) ∧
      ∀ lot ∈ position.lots, 0 ≤ sideUnits side (wireUnits lot.quantity) := by
  rw [oneSide, Bool.and_eq_true, List.all_eq_true, List.all_eq_true]
  simp only [admitsSide_iff]
  refine and_congr ⟨fun all stated among => ?_, fun all stated among => all stated (List.mem_filter.mp among).1⟩ ?_
  · by_cases nothing : stated.quantity.isZero = true
    · rw [(Exact.isZero_iff _).mp nothing]
      unfold sideUnits
      split <;> omega
    · exact all stated (List.mem_filter.mpr ⟨among, by rw [Bool.not_eq_true'] ; exact Bool.eq_false_iff.mpr nothing⟩)
  · have units := @supplied_units ctx minted position
    have each (p : Int → Prop) : (∀ lot ∈ supplied ctx minted position, p lot.quantity.units) ↔
        ∀ lot ∈ position.lots, p (wireUnits lot.quantity) := by
      rw [← List.forall_mem_map (f := fun lot : SuppliedLot => lot.quantity.units), units, List.forall_mem_map]
    exact each fun units => 0 ≤ sideUnits side units

/-- What a walk over everything of one side pushes, and the lots of nothing it leaves. -/
theorem walked_spreads {lots : List SuppliedLot} {fuel : Nat} {rest : List (SuppliedLot × Exact)}
    (one : oneSide side buckets lots = true) (some' : ∀ bucket ∈ buckets, bucket.quantity.units ≠ 0)
    (whole : sumOf (fun _ => True) (fun bucket : Bucket => bucket.quantity.units) buckets =
      sumOf (fun _ => True) (fun lot : SuppliedLot => lot.quantity.units) lots)
    (walked : walk field side fuel (buckets.map fun bucket => (bucket, magnitude bucket.quantity))
      (lots.map fun lot => (lot, magnitude lot.quantity)) = some (.ok (pushed, rest))) :
    Spread.Spreads (buckets.map fun bucket => (bucket, sideUnits side bucket.quantity.units))
      (lots.map fun lot => (lot, sideUnits side lot.quantity.units)) (pushed.map (Push.put side)) (rest.map unitsLeft) := by
  rw [oneSide, Bool.and_eq_true, List.all_eq_true, List.all_eq_true] at one
  obtain ⟨allBuckets, allLots⟩ := one
  simp only [admitsSide_iff] at allBuckets allLots
  have walked' := spread_of_walk walked
  have fromBuckets : (buckets.map fun bucket => (bucket, magnitude bucket.quantity)).map unitsLeft =
      buckets.map fun bucket => (bucket, sideUnits side bucket.quantity.units) := by
    rw [List.map_map]
    exact List.map_congr_left fun bucket among => Prod.ext rfl (sideUnits_magnitude (allBuckets bucket among))
  have fromLots : (lots.map fun lot => (lot, magnitude lot.quantity)).map unitsLeft =
      lots.map fun lot => (lot, sideUnits side lot.quantity.units) := by
    rw [List.map_map]
    exact List.map_congr_left fun lot among => Prod.ext rfl (sideUnits_magnitude (allLots lot among))
  rw [fromBuckets, fromLots] at walked'
  refine Spread.spreads walked' (fun entry among => ?_) (fun entry among => ?_) ?_
  · obtain ⟨bucket, inBuckets, rfl⟩ := List.mem_map.mp among
    exact lt_of_le_of_ne (allBuckets bucket inBuckets)
      fun zero => some' bucket inBuckets (sideUnits_eq_zero.mp zero.symm)
  · obtain ⟨lot, inLots, rfl⟩ := List.mem_map.mp among
    exact allLots lot inLots
  · unfold Spread.Even
    rw [sumOf_map, sumOf_map]
    unfold sideUnits
    split
    · rw [sumOf_neg, sumOf_neg, whole]
    · exact whole

theorem sumOf_side {γ : Type} {p : γ → Prop} [DecidablePred p] {size : γ → Int} (entries : List γ) :
    sumOf p (fun entry => sideUnits side (size entry)) entries = sideUnits side (sumOf p size entries) := by
  unfold sideUnits
  split
  · exact sumOf_neg entries
  · rfl

theorem sideUnits_inj {a b : Int} (same : sideUnits side a = sideUnits side b) : a = b := by
  rw [← @sideUnits_sideUnits side a, same, sideUnits_sideUnits]

/-- Where everything is signed to match the side, every lot is opened exactly where none of nothing
is before one of something. -/
theorem told_oneSide {carrier : Bucket} {rest : List (SuppliedLot × Exact)} {put : List Push}
    (named : ((supplied ctx minted position).map SuppliedLot.lotId).Nodup)
    (spreads : Spread.Spreads (((statedBuckets position).filter fun bucket => !bucket.quantity.isZero).map
      fun bucket => (bucket, sideUnits side bucket.quantity.units))
      ((supplied ctx minted position).map fun lot => (lot, sideUnits side lot.quantity.units))
      (put.map (Push.put side)) (rest.map unitsLeft)) :
    SaysPosition ctx minted side position (openingOf (openingLine position side) []
      (put ++ rest.map fun lot => ⟨carrier, lot.1, Exact.zero⟩)) ↔
    position.lots.Pairwise fun first later => wireUnits first.quantity = 0 → wireUnits later.quantity = 0 := by
  have lotOf {entry : SuppliedLot × Int}
      (among : entry ∈ (supplied ctx minted position).map fun lot => (lot, sideUnits side lot.quantity.units)) :
      entry.1 ∈ supplied ctx minted position ∧ entry.2 = sideUnits side entry.1.quantity.units := by
    obtain ⟨lot, inLots, rfl⟩ := List.mem_map.mp among
    exact ⟨inLots, rfl⟩
  obtain ⟨front, parted, nothings⟩ := spreads.left
  have inRest {entry : SuppliedLot × Exact} (among : entry ∈ rest) :
      unitsLeft entry ∈ (supplied ctx minted position).map fun lot => (lot, sideUnits side lot.quantity.units) := by
    rw [parted]
    exact List.mem_append_right _ (List.mem_map_of_mem among)
  -- the lots of nothing opened at the end add nothing
  have last {p : Push → Prop} [DecidablePred p] : sumOf p (fun push => push.quantity.units)
      (rest.map fun lot => (⟨carrier, lot.1, Exact.zero⟩ : Push)) = 0 := by
    refine sumOf_eq_zero fun push among _ => ?_
    obtain ⟨lot, -, rfl⟩ := List.mem_map.mp among
    exact Exact.units_zero
  have told := @told_iff_reached ctx minted side position
    (put ++ rest.map fun lot => ⟨carrier, lot.1, Exact.zero⟩) named (fun bucket valueDate => ?_) (fun lot among => ?_) (fun push among => ?_)
  · rw [told]
    have units : (((supplied ctx minted position).map fun lot => (lot, sideUnits side lot.quantity.units)).Pairwise
        fun first later => first.2 = 0 → later.2 = 0) ↔
        position.lots.Pairwise fun first later => wireUnits first.quantity = 0 → wireUnits later.quantity = 0 := by
      rw [List.pairwise_map]
      simp only [sideUnits_eq_zero]
      have map := List.pairwise_map (f := fun lot : SuppliedLot => lot.quantity.units)
        (R := fun first later => first = 0 → later = 0) (l := supplied ctx minted position)
      rw [← map, supplied_units, List.pairwise_map]
    rw [← units]
    constructor
    · intro reached
      -- an entry of nothing among those walked past is pushed to by neither
      have some' : ∀ entry ∈ front, entry.2 ≠ 0 := by
        intro entry inFront nothing
        have among : entry ∈ (supplied ctx minted position).map fun lot => (lot, sideUnits side lot.quantity.units) := by
          rw [parted]
          exact List.mem_append_left _ inFront
        obtain ⟨inLots, size⟩ := lotOf among
        obtain ⟨push, pushed, same⟩ := reached entry.1 inLots
        rcases List.mem_append.mp pushed with walked | left
        · obtain ⟨other, amongToo, lot, positive⟩ := spreads.putOn _ (List.mem_map_of_mem walked)
          have lots : other.1 = entry.1 := lot.trans same
          rw [(lotOf amongToo).2, lots, ← size] at positive
          exact positive nothing
        · obtain ⟨other, inRest', rfl⟩ := List.mem_map.mp left
          have distinct : (((supplied ctx minted position).map fun lot => (lot, sideUnits side lot.quantity.units)).map
              Prod.fst).Nodup := by
            rw [List.map_map]
            exact (List.map_id _).symm ▸ named.of_map
          rw [parted, List.map_append] at distinct
          refine (List.disjoint_of_nodup_append distinct) (List.mem_map_of_mem inFront) ?_
          exact List.mem_map.mpr ⟨unitsLeft other, List.mem_map_of_mem inRest', same⟩
      rw [parted, List.pairwise_append]
      refine ⟨?_, ?_, fun first inFront _ _ nothing => absurd nothing (some' first inFront)⟩
      · exact List.pairwise_iff_forall_sublist.mpr fun within nothing =>
          absurd nothing (some' _ (within.subset List.mem_cons_self))
      · exact List.pairwise_iff_forall_sublist.mpr fun within _ =>
          nothings _ (within.subset (List.mem_cons_of_mem _ List.mem_cons_self))
    · intro ordered lot among
      have entry : (lot, sideUnits side lot.quantity.units) ∈
          (supplied ctx minted position).map fun lot => (lot, sideUnits side lot.quantity.units) :=
        List.mem_map.mpr ⟨lot, among, rfl⟩
      by_cases nothing : sideUnits side lot.quantity.units = 0
      · obtain ⟨left, inRest', same⟩ := List.mem_map.mp (spreads.nothings ordered _ entry nothing)
        exact ⟨_, List.mem_append_right _ (List.mem_map.mpr ⟨left, inRest', rfl⟩), congrArg Prod.fst same⟩
      · obtain ⟨one, inPut, same⟩ := spreads.reached _ entry nothing
        obtain ⟨push, walked, rfl⟩ := List.mem_map.mp inPut
        exact ⟨push, List.mem_append_left _ walked, same⟩
  · rw [sumOf_append, last, Int.add_zero, ← sumOf_stated]
    have emptied := spreads.emptied fun stated => stated.bucket = bucket ∧ stated.valueDate = valueDate
    rw [sumOf_map, sumOf_map] at emptied
    change sumOf (fun push : Push => push.bucket.bucket = bucket ∧ push.bucket.valueDate = valueDate)
      (fun push => sideUnits side push.quantity.units) put = sumOf (fun stated : Bucket => stated.bucket = bucket ∧
        stated.valueDate = valueDate) (fun stated => sideUnits side stated.quantity.units) _ at emptied
    rw [sumOf_side, sumOf_side] at emptied
    exact sideUnits_inj emptied
  · rw [sumOf_append, last, Int.add_zero]
    have filled := spreads.filled fun other => other.lotId = lot.lotId
    rw [sumOf_map, sumOf_map] at filled
    change sumOf (fun push : Push => push.lot.lotId = lot.lotId) (fun push => sideUnits side push.quantity.units) put =
      sumOf (fun other : SuppliedLot => other.lotId = lot.lotId) (fun other => sideUnits side other.quantity.units) _ at filled
    rw [sumOf_side, sumOf_side, sumOf_name named among] at filled
    exact sideUnits_inj filled
  · rcases List.mem_append.mp among with walked | left
    · obtain ⟨entry, amongLots, same, -⟩ := spreads.putOn _ (List.mem_map_of_mem walked)
      have lots : entry.1 = push.lot := same
      exact lots ▸ (lotOf amongLots).1
    · obtain ⟨other, inRest', rfl⟩ := List.mem_map.mp left
      exact (lotOf (inRest inRest')).1

/-- The walk ends, and the lines an opening position becomes say what it said, each lot opened once
by the first line naming it, exactly where there is some quantity to open its lots with and, where
everything is signed to match the side, no lot of nothing stands before one of something. -/
theorem opening_lines_told (distinct : ∀ i j, ctx.minted "LOT" i = ctx.minted "LOT" j → i = j) :
    ∃ answered, openingLines ctx field minted side position = some answered ∧
      ∀ lines, answered = .ok lines → (SaysPosition ctx minted side position lines ↔ LotsOpened side position) := by
  have named := @supplied_nodup ctx minted position distinct
  rw [openingLines]
  cases checked : openingChecked ctx field minted side position with
  | error out => exact ⟨_, rfl, fun lines ended => by cases ended⟩
  | ok both =>
    obtain ⟨buckets, lots⟩ := both
    obtain ⟨rfl, rfl, whole⟩ := openingChecked_ok checked
    dsimp only
    by_cases noLots : supplied ctx minted position = []
    · rw [if_pos noLots]
      refine ⟨_, rfl, fun lines ended => ?_⟩
      cases ended
      have none' : position.lots = [] := by
        have lengths := congrArg List.length (@supplied_units ctx minted position)
        rw [noLots, List.length_map, List.length_map, List.length_nil] at lengths
        exact List.length_eq_zero_iff.mp lengths.symm
      refine iff_of_true ⟨fun line among => ?_, fun bucket valueDate => ?_, fun lot among => ?_, fun lot among => ?_⟩
        (.inl none')
      · obtain ⟨bucket, -, rfl⟩ := List.mem_map.mp among
        exact ⟨rfl, rfl⟩
      · rw [sumOf_map, ← sumOf_stated]
        exact sumOf_congr fun bucket _ => ⟨Iff.rfl, lineUnits_openingLine _ _⟩
      · rw [noLots] at among
        cases among
      · rw [noLots] at among
        cases among
    · rw [if_neg noLots]
      have some' : position.lots ≠ [] := by
        intro none'
        refine noLots ?_
        rw [supplied, none']
        rfl
      cases head : ((statedBuckets position).filter fun bucket => !bucket.quantity.isZero).head? with
      | none =>
        have empty := List.head?_eq_none_iff.mp head
        have nothing : pushes field side ((statedBuckets position).filter fun bucket => !bucket.quantity.isZero)
            (supplied ctx minted position) = some (.ok []) := by
          rw [pushes, empty]
          split
          · unfold walk
            rfl
          · unfold passedOn
            cases supplied ctx minted position <;> rfl
        rw [nothing]
        refine ⟨_, rfl, fun lines ended => ?_⟩
        cases ended
        refine iff_of_false (not_told_nil some') ?_
        rintro (none' | ⟨⟨stated, among, quantity⟩, -⟩)
        · exact some' none'
        · refine quantity ((Exact.isZero_iff _).mp ?_)
          have dropped := List.filter_eq_nil_iff.mp empty stated among
          rwa [Bool.not_eq_true', Bool.not_eq_false] at dropped
      | some carrier =>
        have quantity : ∃ stated ∈ statedBuckets position, stated.quantity.units ≠ 0 := by
          obtain ⟨among, kept⟩ := List.mem_filter.mp (List.mem_of_mem_head? head)
          refine ⟨carrier, among, fun zero => ?_⟩
          rw [(Exact.isZero_iff _).mpr zero] at kept
          cases kept
        rw [pushes]
        by_cases one : oneSide side ((statedBuckets position).filter fun bucket => !bucket.quantity.isZero)
            (supplied ctx minted position) = true
        · rw [if_pos one]
          obtain ⟨answered, walked⟩ := @walk_ends field side _ (((statedBuckets position).filter fun bucket =>
            !bucket.quantity.isZero).map fun bucket => (bucket, magnitude bucket.quantity))
            ((supplied ctx minted position).map fun lot => (lot, magnitude lot.quantity))
            (by rw [List.length_map, List.length_map])
          rw [walked]
          refine ⟨_, rfl, fun lines ended => ?_⟩
          cases answered with
          | error out => cases ended
          | ok both =>
            obtain ⟨put, rest⟩ := both
            simp only [head] at ended
            cases ended
            have spreads := walked_spreads one (fun bucket among zero => ?_) (whole noLots) walked
            · rw [told_oneSide named spreads]
              constructor
              · exact fun ordered => .inr ⟨quantity, fun _ _ => ordered⟩
              · rintro (none' | ⟨-, ordered⟩)
                · exact absurd none' some'
                · exact ordered (oneSide_iff.mp one).1 (oneSide_iff.mp one).2
            · have kept := (List.mem_filter.mp among).2
              rw [(Exact.isZero_iff _).mpr zero] at kept
              cases kept
        · rw [if_neg one]
          refine ⟨_, rfl, fun lines ended => ?_⟩
          cases ended
          refine iff_of_true ?_ (.inr ⟨quantity, fun stated lots => absurd (oneSide_iff.mpr ⟨stated, lots⟩) one⟩)
          obtain ⟨first, others, lots⟩ := List.exists_cons_of_ne_nil noLots
          have whole' := whole noLots
          rw [told_iff_reached named (fun bucket valueDate => ?_) (fun lot among => ?_) fun push among => ?_]
          · intro lot among
            rw [lots] at among ⊢
            exact passedOn_reaches head among
          · rw [lots, ← sumOf_stated]
            exact passedOn_buckets (p := fun stated => stated.bucket = bucket ∧ stated.valueDate = valueDate) head
          · rw [lots] at among named whole' ⊢
            exact passedOn_lots head named whole' among
          · rw [lots] at among ⊢
            exact mem_passedOn among

end Says

/-- Identifiers minted one longer than another. -/
def tallied : Context where
  minted := fun identifier count => identifier ++ "-" ++ String.ofList (List.replicate count 'I')

theorem tallied_distinct (i j : Nat) (same : tallied.minted "LOT" i = tallied.minted "LOT" j) : i = j := by
  have lengths := congrArg String.length same
  simpa [tallied] using lengths

/-- A long position of ten, all settled, in lots of these quantities. -/
def tenSettled (lots : List Decimal) : OpeningPosition where
  instrumentId := "INS-1"
  side := .long
  tradeDateQuantity := some ⟨10, 0⟩
  settledQuantity := some ⟨10, 0⟩
  lots := lots.map fun quantity => { quantity := some quantity, terms := some { acquiredDate := "2024-01-01" } }

/-- A lot of ten and then one of nothing: both are opened. -/
theorem opening_lines_told_last : ∃ lines, openingLines tallied "positions[0]" 0 .long (tenSettled [⟨10, 0⟩, ⟨0, 0⟩]) =
    some (.ok lines) ∧ SaysPosition tallied 0 .long (tenSettled [⟨10, 0⟩, ⟨0, 0⟩]) lines := by
  obtain ⟨answered, drafted, told⟩ := @opening_lines_told tallied "positions[0]" 0 .long
    (tenSettled [⟨10, 0⟩, ⟨0, 0⟩]) tallied_distinct
  have computed : (openingLines tallied "positions[0]" 0 .long (tenSettled [⟨10, 0⟩, ⟨0, 0⟩])).any
      (fun answered => answered.toOption.isSome) = true := by decide +kernel
  rw [drafted, Option.any_some] at computed
  cases answered with
  | error out => cases computed
  | ok lines =>
    refine ⟨lines, drafted, (told lines rfl).mpr (.inr ⟨⟨_, List.mem_cons_self, by decide +kernel⟩, fun _ _ => ?_⟩)⟩
    decide +kernel

/-- A lot of nothing and then one of ten: the first is never opened. -/
theorem lot_of_nothing_dropped : ∃ lines, openingLines tallied "positions[0]" 0 .long (tenSettled [⟨0, 0⟩, ⟨10, 0⟩]) =
    some (.ok lines) ∧ ¬ SaysPosition tallied 0 .long (tenSettled [⟨0, 0⟩, ⟨10, 0⟩]) lines := by
  have computed : (openingLines tallied "positions[0]" 0 .long (tenSettled [⟨0, 0⟩, ⟨10, 0⟩])).any
      (fun answered => answered.toOption.any fun lines => lines.map MovementLine.lotId == ["LOT-I"]) = true := by
    decide +kernel
  obtain ⟨answered, drafted, computed⟩ := Option.any_eq_true _ _ |>.mp computed
  obtain ⟨lines, answered', names⟩ := Option.any_eq_true _ _ |>.mp computed
  cases answered with
  | error out => cases answered'
  | ok drafted' =>
    cases answered'
    refine ⟨lines, drafted, fun told => ?_⟩
    have among : (⟨"LOT-", { acquiredDate := "2024-01-01", source := .openingBalance }, Exact.zero⟩ : SuppliedLot) ∈
        supplied tallied 0 (tenSettled [⟨0, 0⟩, ⟨10, 0⟩]) := by decide +kernel
    obtain ⟨before, line, after, parted, named, -⟩ := told.opens _ among
    have inNames : "LOT-" ∈ lines.map MovementLine.lotId := by
      rw [parted]
      exact List.mem_map.mpr ⟨line, List.mem_append_right _ List.mem_cons_self, named⟩
    rw [eq_of_beq names] at inNames
    exact absurd inNames (by decide)

end MeridianCore.Bor
