import MeridianCore.Bor.Booking.SleeveCross
import MeridianCore.Bor.Book.Acted
import MeridianCore.Bor.Book.Buckets
import MeridianCore.Bor.OrderDecide.Settling
import MeridianCore.Bor.Orders.Crossings
import MeridianCore.Bor.OrderDecide.TradeLines

namespace MeridianCore.Bor

namespace Booking

open Book (lineUnits bucketLines)

section Share

/-- The exponent a share is raised by. -/
def shareExponent (amount take original : Exact) : Nat :=
  max amount.scale original.scale + 6 - amount.scale - take.scale + original.scale

/-- Where a share's arithmetic neither wraps nor overflows: its exponent is never below zero on the way,
and each number it goes through is one an `i128` holds. -/
structure ShareFits (amount take original : Exact) : Prop where
  exponent : take.scale ≤ max amount.scale original.scale + 6 - amount.scale
  power : shareExponent amount take original ≤ 38
  numerator : (amount.integer * take.integer).natAbs < 2 ^ 127
  shifted : (amount.integer * take.integer * 10 ^ shareExponent amount take original).natAbs < 2 ^ 127

/-- How much of a lot's cost is of a part of it. -/
def shareOf (amount take original : Exact) : ℚ := amount.value * take.value / original.value

/-- Where a share is stated whole: its places no more than the wire carries, the share ending within them,
its digits no more than the wire carries. -/
structure ShareStated (amount take original : Exact) : Prop where
  places : max amount.scale original.scale ≤ 12
  ends : EndsWithin (max amount.scale original.scale + 6) (shareOf amount take original)
  digits : |shareOf amount take original * 10 ^ (max amount.scale original.scale + 6)| < 10 ^ 38

variable {amount take original : Exact}

instance : Decidable (ShareFits amount take original) :=
  decidable_of_iff (take.scale ≤ max amount.scale original.scale + 6 - amount.scale ∧
      shareExponent amount take original ≤ 38 ∧ (amount.integer * take.integer).natAbs < 2 ^ 127 ∧
      (amount.integer * take.integer * 10 ^ shareExponent amount take original).natAbs < 2 ^ 127)
    ⟨fun ⟨exponent, power, numerator, shifted⟩ => ⟨exponent, power, numerator, shifted⟩,
      fun ⟨exponent, power, numerator, shifted⟩ => ⟨exponent, power, numerator, shifted⟩⟩

instance : Decidable (ShareStated amount take original) :=
  decidable_of_iff (max amount.scale original.scale ≤ 12 ∧
      (shareOf amount take original * 10 ^ (max amount.scale original.scale + 6)).den = 1 ∧
      |shareOf amount take original * 10 ^ (max amount.scale original.scale + 6)| < 10 ^ 38)
    ⟨fun ⟨places, ends, digits⟩ => ⟨places, ends, digits⟩, fun ⟨places, ends, digits⟩ => ⟨places, ends, digits⟩⟩

theorem i128_of_fits {value : Int} (fits : value.natAbs < 2 ^ 127) : i128 value = .ok value := by
  unfold i128
  rw [if_pos]
  omega

theorem wrappedTen_eq {exponent : Nat} (fits : exponent ≤ 38) : wrappedTen exponent = 10 ^ exponent := by
  have below : (10 : Int) ^ exponent ≤ 10 ^ 38 := pow_le_pow_right₀ (by decide) fits
  have positive : (0 : Int) < 10 ^ exponent := by positivity
  rw [wrappedTen, if_neg (by omega), wrapping]
  exact Int.bmod_eq_of_le (by omega) (by omega)

theorem integer_ne_zero (some' : original.units ≠ 0) : original.integer ≠ 0 := by
  intro zero
  rw [Exact.units, zero, Int.zero_mul] at some'
  exact some' rfl

/-- A share as the digits it is computed from. -/
theorem shareOf_eq (fits : ShareFits amount take original) (some' : original.units ≠ 0) :
    shareOf amount take original * 10 ^ (max amount.scale original.scale + 6) =
      ((amount.integer * take.integer * 10 ^ shareExponent amount take original : Int) : ℚ) / original.integer := by
  have whole : (original.integer : ℚ) ≠ 0 := by exact_mod_cast integer_ne_zero some'
  have split : (10 : ℚ) ^ (max amount.scale original.scale + 6) * 10 ^ original.scale =
      10 ^ shareExponent amount take original * (10 ^ amount.scale * 10 ^ take.scale) := by
    rw [← pow_add, ← pow_add, ← pow_add]
    congr 1
    have exponent := fits.exponent
    have least := le_max_left amount.scale original.scale
    rw [shareExponent]
    omega
  rw [shareOf, Exact.value, Exact.value, Exact.value]
  push_cast
  field_simp
  linear_combination (amount.integer * take.integer : ℚ) * split

/-- Where its arithmetic fits, a share is the whole part of the quotient, where the wire carries it. -/
theorem basisShare_eq (fits : ShareFits amount take original) :
    basisShare amount take original =
      (Exact.new ((amount.integer * take.integer * 10 ^ shareExponent amount take original).tdiv original.integer)
        (max amount.scale original.scale + 6)).toOption := by
  have exponent : ((((max amount.scale original.scale + 6 : Nat) : Int) - amount.scale - take.scale + original.scale) %
      2 ^ 32).toNat = shareExponent amount take original := by
    have least := le_max_left amount.scale original.scale
    have most := original.scale_le
    have high := amount.scale_le
    have stated := fits.exponent
    unfold places at most high
    rw [shareExponent]
    omega
  unfold basisShare
  dsimp only
  rw [i128_of_fits fits.numerator]
  change (do
    let shifted ← (i128 (amount.integer * take.integer * wrappedTen _)).toOption
    (Exact.new (shifted.tdiv original.integer) _).toOption) = _
  rw [exponent, wrappedTen_eq fits.power, i128_of_fits fits.shifted]
  rfl

/-- Where its arithmetic fits, a share is kept whole exactly where it is stated whole. -/
theorem basisShare_iff (fits : ShareFits amount take original) (some' : original.units ≠ 0) :
    (basisShare amount take original).map Exact.value = some (shareOf amount take original) ↔
      ShareStated amount take original := by
  have whole := integer_ne_zero some'
  have wholeRat : (original.integer : ℚ) ≠ 0 := by exact_mod_cast whole
  have positive : (10 : ℚ) ^ (max amount.scale original.scale + 6) ≠ 0 := by positivity
  have same := shareOf_eq fits some'
  rw [basisShare_eq fits]
  generalize amount.integer * take.integer * 10 ^ shareExponent amount take original = shifted at same ⊢
  constructor
  · intro stated
    obtain ⟨kept, made, worth⟩ := Option.map_eq_some_iff.mp stated
    obtain ⟨integer, scale⟩ := Exact.new_ok (ok_of_toOption made)
    have quotient : shareOf amount take original * 10 ^ (max amount.scale original.scale + 6) = kept.integer := by
      rw [← worth, Exact.value, scale, div_mul_cancel₀ _ positive]
    refine ⟨?_, ?_, ?_⟩
    · have high := kept.scale_le
      rw [scale, places] at high
      omega
    · rw [EndsWithin, quotient]
      exact Rat.den_intCast _
    · rw [quotient, ← Int.cast_abs, Int.abs_eq_natAbs, Int.cast_natCast]
      exact_mod_cast kept.digits
  · intro stated
    have ends := stated.ends
    have digits := stated.digits
    rw [EndsWithin, same, Rat.den_div_intCast_eq_one_iff _ _ whole] at ends
    obtain ⟨quotient, rfl⟩ := ends
    have whole' : (original.integer * quotient).tdiv original.integer = quotient := Int.mul_tdiv_cancel_left _ whole
    have exact' : shareOf amount take original * 10 ^ (max amount.scale original.scale + 6) = quotient := by
      rw [same, Int.cast_mul, mul_div_cancel_left₀ _ wholeRat]
    rw [exact', ← Int.cast_abs, Int.abs_eq_natAbs, Int.cast_natCast] at digits
    have fitsDigits : quotient.natAbs < limit := by exact_mod_cast digits
    have fitsPlaces : max amount.scale original.scale + 6 ≤ places := by
      have high := stated.places
      rw [places]
      omega
    rw [whole', Exact.new, dif_pos fitsPlaces, dif_pos fitsDigits]
    refine congrArg some ?_
    change (quotient : ℚ) / 10 ^ (max amount.scale original.scale + 6) = _
    rw [← exact', mul_div_cancel_right₀ _ positive]

end Share

section Parts

variable {book : Book} {cross : SleeveCross}

/-- The pairs of an entry's lines, each of which takes a part of a lot out of one sleeve and opens its own in
another. -/
def partsOf : List MovementLine → List (MovementLine × MovementLine)
  | out :: into :: rest => if into.opensLot.isSome then (out, into) :: partsOf rest else []
  | _ => []

/-- A part of a lot moved from the giving sleeve to the receiving one, and nothing of it changed: its
quantity, its dates, and its share of the lot's cost, worked out within what the machine holds. -/
structure MovesPart (book : Book) (cross : SleeveCross) (part : MovementLine × MovementLine) : Prop where
  sleeves : part.1.sleeve = cross.givingSleeve ∧ part.2.sleeve = cross.receivingSleeve
  whole : part.2.instrumentId = part.1.instrumentId ∧ lineUnits part.2 = -lineUnits part.1
  dates : part.2.opensLot.map (fun terms => (terms.acquiredDate, terms.holdingPeriodStart)) =
    some ((lotTerms book (givingKey cross) part.1.lotId).acquiredDate,
      (lotTerms book (givingKey cross) part.1.lotId).holdingPeriodStart)
  basis : (part.2.opensLot.bind fun terms => amountOf terms.cost).map Exact.value =
    (amountOf (lotTerms book (givingKey cross) part.1.lotId).cost).map fun amount =>
      shareOf amount (readOr part.2.quantity) (lotOriginal book (givingKey cross) part.1.lotId (readOr part.2.quantity))
  fits : ∀ amount ∈ amountOf (lotTerms book (givingKey cross) part.1.lotId).cost,
    let original := lotOriginal book (givingKey cross) part.1.lotId (readOr part.2.quantity)
    original.units ≠ 0 → (readOr part.2.quantity).units ≠ original.units →
      ShareFits amount (readOr part.2.quantity) original

/-- Where a part of a lot keeps its basis: the lot's cost is not known, or all of the lot moves, or its share
is worked out within what the machine holds and stated whole. -/
def KeepsBasis (book : Book) (cross : SleeveCross) (take : String × Exact) : Prop :=
  ∀ amount ∈ amountOf (lotTerms book (givingKey cross) take.1).cost,
    let original := lotOriginal book (givingKey cross) take.1 take.2
    if original.units = 0 then amount.units = 0
    else take.2.units = original.units ∨ ShareFits amount take.2 original ∧ ShareStated amount take.2 original

instance (take : String × Exact) : Decidable (KeepsBasis book cross take) :=
  inferInstanceAs (Decidable (∀ amount ∈ amountOf (lotTerms book (givingKey cross) take.1).cost,
    if (lotOriginal book (givingKey cross) take.1 take.2).units = 0 then amount.units = 0
    else take.2.units = (lotOriginal book (givingKey cross) take.1 take.2).units ∨
      ShareFits amount take.2 (lotOriginal book (givingKey cross) take.1 take.2) ∧
        ShareStated amount take.2 (lotOriginal book (givingKey cross) take.1 take.2)))

theorem value_eq_zero {value : Exact} : value.value = 0 ↔ value.units = 0 := by
  rw [← Exact.value_of_units]
  simp

theorem amountOf_some {money : Money} {amount : Exact} : amountOf (some { money with amount := numbers.wire amount }) = some amount := by
  simp [amountOf, readExact, numbers.wire, Except.toOption]

/-- The cost a part carries is its share of the lot's, worked out within what the machine holds, exactly
where it keeps its basis. -/
theorem keepsBasis_iff (terms : LotTerms) (original take : Exact) :
    ((amountOf (movedCost terms original take)).map Exact.value =
        (amountOf terms.cost).map (fun amount => shareOf amount take original) ∧
      ∀ amount ∈ amountOf terms.cost, original.units ≠ 0 → take.units ≠ original.units → ShareFits amount take original) ↔
      ∀ amount ∈ amountOf terms.cost,
        if original.units = 0 then amount.units = 0
        else take.units = original.units ∨ ShareFits amount take original ∧ ShareStated amount take original := by
  unfold movedCost
  cases stated : terms.cost with
  | none => simp [amountOf]
  | some cost =>
    cases read : amountOf (some cost) with
    | none =>
      simp only [Option.bind_some, read, Option.bind_none, Option.map_none, Option.not_mem_none, false_imp_iff,
        implies_true, and_true, iff_true]
      rfl
    | some amount =>
      simp only [Option.bind_some, read, Option.map_some, Option.mem_some_iff, forall_eq', Exact.isZero_iff,
        Exact.equals_iff]
      by_cases zero : original.units = 0
      · -- a part of nothing is no share of the cost, which moves whole
        have none' : shareOf amount take original = 0 := by
          rw [shareOf, value_eq_zero.mpr zero, div_zero]
        rw [if_pos (.inl zero), if_pos zero, read, Option.map_some, none', Option.some_inj, value_eq_zero]
        exact and_iff_left fun nonzero => absurd zero nonzero
      · rw [if_neg zero]
        by_cases all : take.units = original.units
        · have share : shareOf amount take original = amount.value := by
            have same : take.value = original.value := by rw [← Exact.value_of_units, all, Exact.value_of_units]
            have nonzero : original.value ≠ 0 := fun none' => zero (value_eq_zero.mp none')
            rw [shareOf, same, mul_div_cancel_right₀ _ nonzero]
          rw [if_pos (.inr all), read, Option.map_some, share]
          exact iff_of_true ⟨rfl, fun _ apart => absurd all apart⟩ (.inl all)
        · rw [if_neg (not_or.mpr ⟨zero, all⟩)]
          have carried : (amountOf ((basisShare amount take original).map fun value =>
              { cost with amount := numbers.wire value })).map Exact.value =
                (basisShare amount take original).map Exact.value := by
            cases basisShare amount take original with
            | none => rfl
            | some value => exact congrArg (Option.map Exact.value) amountOf_some
          rw [carried]
          constructor
          · rintro ⟨share, fits⟩
            exact .inr ⟨fits zero all, (basisShare_iff (fits zero all) zero).mp share⟩
          · rintro (same | ⟨fits, whole⟩)
            · exact absurd same all
            · exact ⟨(basisShare_iff fits zero).mpr whole, fun _ _ => fits⟩

/-- A line on the record its instrument became. -/
def land (process : Process) (book : Book) (line : MovementLine) : MovementLine :=
  { line with instrumentId := landing process book line.instrumentId }

/-- Lines two by two, each pair's together. -/
def paired (pairs : List (MovementLine × MovementLine)) : List MovementLine := pairs.flatMap fun pair => [pair.1, pair.2]

/-- The pair of lines each part of a lot moves by. -/
def partPairs (book : Book) (ctx : Context) (cross : SleeveCross) (takes : List (String × Exact)) :
    List (MovementLine × MovementLine) :=
  takes.mapIdx fun index take => (takenOut cross take, takenIn book ctx cross index take)

/-- The pair of lines the cash moves by. -/
def cashPair (cross : SleeveCross) (cash : String) (value : Exact) : MovementLine × MovementLine :=
  ((legOn cash "" cross.givingSleeve).line .long value, (legOn cash "" cross.receivingSleeve).line .long value.negated)

theorem crossLines_eq (book : Book) (ctx : Context) (cross : SleeveCross) (takes : List (String × Exact)) (cash : String)
    (value : Exact) :
    crossLines book ctx cross takes cash value =
      paired (partPairs book ctx cross takes ++ [cashPair cross cash value]) := by
  have parts : (partPairs book ctx cross takes).map (fun pair => [pair.1, pair.2]) =
      takes.mapIdx fun index take => [takenOut cross take, takenIn book ctx cross index take] := by
    refine List.ext_getElem (by simp [partPairs]) fun index _ _ => ?_
    simp [partPairs]
  rw [crossLines, paired, List.flatMap_append, List.flatMap_def, parts]
  rfl

theorem landed_paired (process : Process) (book : Book) (pairs : List (MovementLine × MovementLine)) :
    landed process book (paired pairs) = paired (pairs.map (Prod.map (land process book) (land process book))) := by
  unfold landed paired
  rw [List.map_flatMap, List.flatMap_map]
  rfl

/-- Pairs that each open a lot are read back up to the first that does not. -/
theorem partsOf_paired {pairs : List (MovementLine × MovementLine)} (open' : ∀ pair ∈ pairs, pair.2.opensLot.isSome = true)
    {last : MovementLine × MovementLine} (closed : last.2.opensLot = none) : partsOf (paired (pairs ++ [last])) = pairs := by
  induction pairs with
  | nil =>
    change (if last.2.opensLot.isSome = true then _ else _) = _
    rw [closed]
    rfl
  | cons pair rest ih =>
    change (if pair.2.opensLot.isSome = true then pair :: partsOf (paired (rest ++ [last])) else []) = _
    rw [if_pos (open' pair List.mem_cons_self), ih fun other member => open' other (List.mem_cons_of_mem _ member)]

/-- The parts a cross's entry moves are those taken. -/
theorem partsOf_crossLines (process : Process) (book : Book) (ctx : Context) (cross : SleeveCross)
    (takes : List (String × Exact)) (cash : String) (value : Exact) :
    partsOf (landed process book (crossLines book ctx cross takes cash value)) =
      (partPairs book ctx cross takes).map (Prod.map (land process book) (land process book)) := by
  rw [crossLines_eq, landed_paired, List.map_append]
  refine partsOf_paired (fun pair member => ?_) rfl
  obtain ⟨part, taken, rfl⟩ := List.mem_map.mp member
  obtain ⟨index, within, rfl⟩ := List.mem_mapIdx.mp taken
  rfl

theorem lineUnits_line (leg : Leg) (side : HoldingSide) (quantity : Exact) :
    lineUnits (leg.line side quantity) = quantity.units := by
  simp [lineUnits, Leg.line, readExact, numbers.wire, Except.toOption]

/-- A part moves as a cross's parts do exactly where it keeps its basis. -/
theorem movesPart_iff (process : Process) (ctx : Context) (index : Nat) (take : String × Exact) :
    MovesPart book cross (land process book (takenOut cross take), land process book (takenIn book ctx cross index take)) ↔
      KeepsBasis book cross take := by
  have out : lineUnits (land process book (takenOut cross take)) = -take.2.units := by
    refine (lineUnits_line (legOn cross.instrumentId "" cross.givingSleeve) .long take.2.negated).trans ?_
    exact Exact.units_negated take.2
  have into : lineUnits (land process book (takenIn book ctx cross index take)) = take.2.units :=
    lineUnits_line (legOn cross.instrumentId "" cross.receivingSleeve) .long take.2
  have same := keepsBasis_iff (lotTerms book (givingKey cross) take.1)
    (lotOriginal book (givingKey cross) take.1 take.2) take.2
  have size : readOr (land process book (takenIn book ctx cross index take)).quantity = take.2 := readOr_wire take.2
  constructor
  · intro moves
    have basis := moves.basis
    have fits := moves.fits
    rw [size] at basis fits
    exact same.mp ⟨basis, fits⟩
  · intro keeps
    obtain ⟨basis, fits⟩ := same.mpr keeps
    refine ⟨⟨rfl, rfl⟩, ⟨rfl, ?_⟩, rfl, ?_, ?_⟩
    · rw [out, into, Int.neg_neg]
    · rw [size]
      exact basis
    · rw [size]
      exact fits

end Parts

section Conserved

variable {book : Book} {cross : SleeveCross}

/-- Two lines that move so much from the one sleeve of a cross to the other. -/
structure Crosses (cross : SleeveCross) (one other : MovementLine) : Prop where
  gives : one.sleeve = cross.givingSleeve
  receives : other.sleeve = cross.receivingSleeve
  instrument : other.instrumentId = one.instrumentId
  side : other.side = one.side
  bucket : other.bucket = one.bucket
  valueDate : other.valueDate = one.valueDate
  units : lineUnits other = -lineUnits one

variable {one other : MovementLine} {instrument : String} {side : HoldingSide} {bucket : SettlementBucket}
  {valueDate : String}

theorem Crosses.land (crosses : Crosses cross one other) (process : Process) (book : Book) :
    Crosses cross (land process book one) (land process book other) :=
  { crosses with instrument := congrArg (landing process book) crosses.instrument }

/-- Over both sleeves such lines add nothing. -/
theorem Crosses.conserves (crosses : Crosses cross one other) :
    bucketLines [one, other] ⟨instrument, side, cross.givingSleeve⟩ bucket valueDate +
      bucketLines [one, other] ⟨instrument, side, cross.receivingSleeve⟩ bucket valueDate = 0 := by
  simp only [Book.bucketLines_cons, Book.bucketLines_nil, lineKey, inBucket, crosses.gives, crosses.receives,
    crosses.instrument, crosses.side, crosses.bucket, crosses.valueDate, crosses.units, Key.mk.injEq, and_true]
  grind

/-- In any other sleeve they add nothing. -/
theorem Crosses.apart (crosses : Crosses cross one other) {key : Key} (notGiving : key.sleeve ≠ cross.givingSleeve)
    (notReceiving : key.sleeve ≠ cross.receivingSleeve) : bucketLines [one, other] key bucket valueDate = 0 := by
  have away (line : MovementLine) (sleeve : line.sleeve ≠ key.sleeve) : lineKey line ≠ key :=
    fun same => sleeve (congrArg Key.sleeve same)
  have gives : lineKey one ≠ key := away one (by rw [crosses.gives]; exact notGiving.symm)
  have receives : lineKey other ≠ key := away other (by rw [crosses.receives]; exact notReceiving.symm)
  rw [Book.bucketLines_cons, Book.bucketLines_cons, if_neg fun here => gives here.1, if_neg fun here => receives here.1]
  rfl

/-- Every pair of lines of a cross moves from the one sleeve to the other. -/
theorem crosses_pairs (book : Book) (ctx : Context) (cross : SleeveCross) (takes : List (String × Exact)) (cash : String)
    (value : Exact) : ∀ pair ∈ partPairs book ctx cross takes ++ [cashPair cross cash value], Crosses cross pair.1 pair.2 := by
  intro pair member
  rcases List.mem_append.mp member with part | cash
  · obtain ⟨index, within, rfl⟩ := List.mem_mapIdx.mp part
    refine ⟨rfl, rfl, rfl, rfl, rfl, rfl, ?_⟩
    have out : lineUnits (takenOut cross takes[index]) = -takes[index].2.units :=
      (lineUnits_line (legOn cross.instrumentId "" cross.givingSleeve) .long _).trans (Exact.units_negated _)
    have into : lineUnits (takenIn book ctx cross index takes[index]) = takes[index].2.units :=
      lineUnits_line (legOn cross.instrumentId "" cross.receivingSleeve) .long _
    rw [out, into, Int.neg_neg]
  · rw [List.mem_singleton.mp cash]
    refine ⟨rfl, rfl, rfl, rfl, rfl, rfl, ?_⟩
    rw [cashPair, lineUnits_line, lineUnits_line, Exact.units_negated]

/-- A cross's lines add nothing over its two sleeves. -/
theorem crossLines_conserve {process : Process} {ctx : Context} {takes : List (String × Exact)} {cash : String}
    {value : Exact} :
    bucketLines (landed process book (crossLines book ctx cross takes cash value))
        ⟨instrument, side, cross.givingSleeve⟩ bucket valueDate +
      bucketLines (landed process book (crossLines book ctx cross takes cash value))
        ⟨instrument, side, cross.receivingSleeve⟩ bucket valueDate = 0 := by
  rw [crossLines_eq, landed_paired, paired, Book.bucketLines_flatMap, Book.bucketLines_flatMap, ← List.sum_map_add]
  refine List.sum_eq_zero fun term member => ?_
  obtain ⟨landedPair, moved, rfl⟩ := List.mem_map.mp member
  obtain ⟨pair, held, rfl⟩ := List.mem_map.mp moved
  exact ((crosses_pairs book ctx cross takes cash value pair held).land process book).conserves

/-- A cross's lines add nothing in any other sleeve. -/
theorem crossLines_apart {process : Process} {ctx : Context} {takes : List (String × Exact)} {cash : String}
    {value : Exact} {key : Key} (notGiving : key.sleeve ≠ cross.givingSleeve)
    (notReceiving : key.sleeve ≠ cross.receivingSleeve) :
    bucketLines (landed process book (crossLines book ctx cross takes cash value)) key bucket valueDate = 0 := by
  rw [crossLines_eq, landed_paired, paired, Book.bucketLines_flatMap]
  refine List.sum_eq_zero fun term member => ?_
  obtain ⟨landedPair, moved, rfl⟩ := List.mem_map.mp member
  obtain ⟨pair, held, rfl⟩ := List.mem_map.mp moved
  exact ((crosses_pairs book ctx cross takes cash value pair held).land process book).apart notGiving notReceiving

end Conserved

section Records

variable {process : Process} {book after : Book} {entry : Entry} {lenient : Bool} {changes : Changes} {orderId : String}

theorem fills_of_record {ledger : Ledger} {record : Order} (read : ledger.orderRecord orderId true = .ok record) :
    ∃ fills, ledger.filled orderId = .ok fills := by
  unfold Ledger.orderRecord at read
  obtain ⟨held, -, read⟩ := bind_ok.mp read
  obtain ⟨state, -, read⟩ := bind_ok.mp read
  obtain ⟨conditions, -, read⟩ := bind_ok.mp read
  obtain ⟨quantities, counted, -⟩ := bind_ok.mp read
  unfold Ledger.quantities at counted
  obtain ⟨order, -, counted⟩ := bind_ok.mp counted
  obtain ⟨fills, filled, -⟩ := bind_ok.mp counted
  exact ⟨fills, filled⟩

theorem fills_of_records {ledger : Ledger} {refs : List (String × JournalRef)} {records : List Order}
    (read : Book.recordsOf ledger.orders.contains (ledger.orderRecord · true) refs = .ok records)
    (named : orderId ∈ refs.map Prod.fst) (held : ledger.orders.contains orderId = true) :
    ∃ fills, ledger.filled orderId = .ok fills := by
  obtain ⟨record, -, whole⟩ := mapM_answer read (List.mem_filter.mpr ⟨named, held⟩)
  exact fills_of_record whole

theorem refs_orders (book : Book) (entry : Entry) :
    (book.number entry).1.orders.map Prod.fst = (book.ledger.touched entry.body.acts).orders := by
  unfold Book.number refsOf
  dsimp only
  rw [List.map_map]
  exact Chained.Counter.each_map_fst _ _ _

theorem live_referencedAfter (ledger : Ledger) (entry : Entry) (refs : Refs) :
    LiveAlike ledger (Book.referencedAfter ledger entry refs) :=
  ⟨.refl _, .refl _, .refl _, .refl _, .refl _, rfl⟩

/-- Of an order an entry's acts touch, what fills it was read before them and is after them. -/
theorem fills_of_applied (applied : book.apply process entry lenient = .ok (after, changes))
    (acts : entry.body.acts ≠ []) (touched : orderId ∈ (book.ledger.touched entry.body.acts).orders) :
    (∀ held, book.ledger.orders[orderId]? = some held → ∃ fills, book.ledger.filled orderId = .ok fills) ∧
      ∀ held, after.ledger.orders[orderId]? = some held → ∃ fills, after.ledger.filled orderId = .ok fills := by
  rw [← refs_orders] at touched
  obtain ⟨phases⟩ := Book.phases applied
  have acted := phases.acts
  unfold Book.applyActs at acted
  rw [if_neg acts, Book.setRecords_ledger, phases.recorded_ledger] at acted
  obtain ⟨before, readBefore, acted⟩ := bind_ok.mp acted
  obtain ⟨-, -, acted⟩ := bind_ok.mp acted
  obtain ⟨orders, readAfter, acted⟩ := bind_ok.mp acted
  obtain ⟨placements, -, acted⟩ := bind_ok.mp acted
  obtain ⟨locates, -, acted⟩ := bind_ok.mp acted
  obtain ⟨bookings, -, acted⟩ := bind_ok.mp acted
  have contains {ledger : Ledger} {held : OrderHeld} (found : ledger.orders[orderId]? = some held) :
      ledger.orders.contains orderId = true := by
    rw [Std.ExtTreeMap.contains_eq_isSome_getElem?, found]
    rfl
  refine ⟨fun held found => fills_of_records readBefore touched (contains found), fun held found => ?_⟩
  obtain ⟨last, -⟩ := Prod.mk.inj (Except.ok.inj acted)
  rw [phases.closed, ← last] at found ⊢
  obtain ⟨fills, filled⟩ := fills_of_records readAfter touched (contains found)
  refine ⟨fills, Eq.trans ?_ filled⟩
  exact LiveAlike.filled (live_referencedAfter _ entry (book.number entry).1) orderId

end Records

section Orders

variable {book : Book} {cross : SleeveCross}

/-- What an order of a book is ordered for; nothing of an order it does not hold. -/
def orderedOf (ledger : Ledger) (orderId : String) : Option Exact := (ledger.orders[orderId]?).map Ledger.ordered

theorem orderedOf_live {a b : Ledger} (alike : LiveAlike a b) (orderId : String) :
    orderedOf b orderId = orderedOf a orderId := by
  unfold orderedOf
  rcases alike.orders.either orderId with ⟨inA, inB⟩ | ⟨held, later, inA, inB, same⟩
  · rw [inA, inB]
  · rw [inA, inB, Option.map_some, Option.map_some, LiveAlike.ordered_congr same]

theorem orderedOf_settled {a b : Ledger} (alike : Ledger.SettledAlike a b) (orderId : String) :
    orderedOf b orderId = orderedOf a orderId := by
  unfold orderedOf
  rcases Ledger.alike_cases (alike.parts orderId) with ⟨inA, inB⟩ | ⟨held, later, inA, inB, same⟩
  · rw [inA, inB]
  · have order : later.order = held.order := congrArg Parts.order same
    rw [inA, inB, Option.map_some, Option.map_some, Ledger.ordered, Ledger.ordered, order]

theorem mem_pushOnce {list : List String} {id : String} (other : String) (member : id ∈ list) :
    id ∈ pushOnce list other := by
  unfold pushOnce
  split
  · exact List.mem_append_left _ member
  · exact member

theorem self_mem_pushOnce (list : List String) {id : String} (named : id ≠ "") : id ∈ pushOnce list id := by
  unfold pushOnce
  by_cases held : id ∈ list
  · rwa [if_neg fun absent => absent.2 held]
  · rw [if_pos ⟨named, held⟩]
    exact List.mem_append_right _ (List.mem_singleton.mpr rfl)

/-- A cross's entry touches every order it names. -/
theorem touched_crossed (ledger : Ledger) (cross : SleeveCross) {more : List Act} (settle : ∀ act ∈ more, Ledger.SettleAct act)
    {orderId : String} (named : orderId ∈ cross.orderIds) (some' : orderId ≠ "") :
    orderId ∈ (ledger.touched (.sleeveCrossed cross :: more)).orders := by
  have keeps (ids : List String) (touched : Touched) (held : orderId ∈ touched.orders) :
      orderId ∈ (ids.foldl Touched.order touched).orders := by
    induction ids generalizing touched with
    | nil => exact held
    | cons id rest ih => exact ih _ (mem_pushOnce id held)
  have names (ids : List String) (touched : Touched) (among : orderId ∈ ids) :
      orderId ∈ (ids.foldl Touched.order touched).orders := by
    induction ids generalizing touched with
    | nil => cases among
    | cons id rest ih =>
      rcases List.mem_cons.mp among with rfl | later
      · exact keeps rest _ (self_mem_pushOnce _ some')
      · exact ih _ later
  have settles (touched : Touched) (held : orderId ∈ touched.orders) :
      orderId ∈ (more.foldl (Touched.act ledger) touched).orders := by
    induction more generalizing touched with
    | nil => exact held
    | cons act rest ih =>
      refine ih (fun other member => settle other (List.mem_cons_of_mem _ member)) _ ?_
      cases settle act List.mem_cons_self with
      | ended id state => exact mem_pushOnce id held
      | applied changeRequestId =>
        unfold Touched.act
        dsimp only
        split
        · exact mem_pushOnce _ held
        · exact held
  exact Worklist.subset_close _ _ _ _ _ (settles _ (names cross.orderIds {} named))

end Orders

/-- A cross that changes sleeves and nothing else: what the account holds over its two sleeves is what it
held, and what it holds in any other; each part of a lot moves whole, its dates and basis with it; and no
order it names is filled past what it orders. -/
structure ChangesSleevesOnly (book : Book) (cross : SleeveCross) (act : Made) : Prop where
  conserved : ∀ instrument side bucket valueDate,
    act.held.bucketAt ⟨instrument, side, cross.givingSleeve⟩ bucket valueDate +
        act.held.bucketAt ⟨instrument, side, cross.receivingSleeve⟩ bucket valueDate =
      book.bucketAt ⟨instrument, side, cross.givingSleeve⟩ bucket valueDate +
        book.bucketAt ⟨instrument, side, cross.receivingSleeve⟩ bucket valueDate
  apart : ∀ (key : Key) bucket valueDate, key.sleeve ≠ cross.givingSleeve → key.sleeve ≠ cross.receivingSleeve →
    act.held.bucketAt key bucket valueDate = book.bucketAt key bucket valueDate
  parts : ∀ part ∈ partsOf act.entry.body.lines, MovesPart book cross part
  orders : ∀ orderId ∈ cross.orderIds, orderId ≠ "" → ∀ ordered fills, orderedOf act.held.ledger orderId = some ordered →
    act.held.ledger.filled orderId = .ok fills → fills.reported.units ≤ ordered.units

/-- The parts of lots a cross takes, as the account's relief method takes them. -/
def partsTaken (book : Book) (cross : SleeveCross) : Result (List (String × Exact)) := do
  relief (← openLots book (givingKey cross) []) (readOr cross.quantity) (methodOf book) []

/-- Where a cross leaves an order filled to what it orders at most: what fills it already, and the cross's
quantity for itself and each child of it the cross names, are no more. -/
def LeavesRoom (book : Book) (cross : SleeveCross) (orderId : String) : Prop :=
  ∀ ordered fills, orderedOf book.ledger orderId = some ordered → book.ledger.filled orderId = .ok fills →
    fills.reported.units + book.ledger.crossings cross.orderIds book.ledger.depth orderId * (readOr cross.quantity).units ≤
      ordered.units

/-- An order a cross's entry names is filled within what it orders exactly where the cross leaves it room. -/
theorem leavesRoom_iff {process : Process} {book after : Book} {entry : Entry} {changes : Changes} {cross : SleeveCross}
    {sleeveCrossId accountId : String} {more : List Act} {orderId : String}
    (applied : book.apply process entry false = .ok (after, changes))
    (acted : entry.body.acts = .sleeveCrossed { cross with sleeveCrossId, accountId } :: more)
    (settle : ∀ act ∈ more, Ledger.SettleAct act) (fresh : book.ledger.sleeveCrosses[sleeveCrossId]? = none)
    (named : orderId ∈ cross.orderIds) (some' : orderId ≠ "") :
    (∀ ordered fills, orderedOf after.ledger orderId = some ordered → after.ledger.filled orderId = .ok fills →
      fills.reported.units ≤ ordered.units) ↔ LeavesRoom book cross orderId := by
  let recorded : SleeveCross := { cross with sleeveCrossId, accountId }
  -- the ledger after stands as the ledger before does with the cross in it
  have crossed := Ledger.live_sleeveCrossed book.ledger recorded
  have settled := Ledger.settledAlike_applyAll (book.ledger.apply (.sleeveCrossed recorded) "" ∅) settle
  have stands := Book.live_of_applied applied
  rw [acted] at stands
  change LiveAlike ((book.ledger.apply (.sleeveCrossed recorded) "" ∅).applyAll more "" ∅) after.ledger at stands
  have filled : after.ledger.filled orderId = (book.ledger.crossed recorded).filled orderId :=
    (stands.filled orderId).trans ((settled.filled orderId).trans (crossed.filled orderId))
  have ordered : orderedOf after.ledger orderId = orderedOf book.ledger orderId :=
    (orderedOf_live stands orderId).trans ((orderedOf_settled settled orderId).trans (orderedOf_live crossed orderId))
  have touched : orderId ∈ (book.ledger.touched entry.body.acts).orders := by
    rw [acted]
    exact touched_crossed book.ledger recorded settle named some'
  obtain ⟨readBefore, readAfter⟩ := fills_of_applied applied (by rw [acted]; exact List.cons_ne_nil _ _) touched
  have grown {before later : Fills} (was : book.ledger.filled orderId = .ok before)
      (now : after.ledger.filled orderId = .ok later) :
      later.reported.units = before.reported.units +
        book.ledger.crossings cross.orderIds book.ledger.depth orderId * (readOr cross.quantity).units :=
    @Ledger.filled_crossed book.ledger recorded fresh orderId before later was (filled ▸ now)
  constructor
  · intro within held fills orders was
    rw [← ordered] at orders
    obtain ⟨order, found, -⟩ := Option.map_eq_some_iff.mp orders
    obtain ⟨later, now⟩ := readAfter order found
    rw [← grown was now]
    exact within held later orders now
  · intro room held fills orders now
    rw [ordered] at orders
    obtain ⟨order, found, -⟩ := Option.map_eq_some_iff.mp orders
    obtain ⟨before, was⟩ := readBefore order found
    rw [grown was now]
    exact room held before orders was

/-- What a cross recorded is: the parts taken, the cash, and the entry made of them. -/
structure Recorded (book : Book) (head : Nat) (ctx : Context) (cross : SleeveCross) (act : Made) : Prop where
  entry : ∃ takes cash value plan, partsTaken book cross = .ok takes ∧
    finish book head ctx plan = .ok act ∧ plan.lines = crossLines book ctx cross takes cash value ∧
    plan.acts = [.sleeveCrossed { cross with sleeveCrossId := ctx.minted "SXC" 0, accountId := book.accountId }]

variable {book : Book} {head : Nat} {ctx : Context} {request : RecordSleeveCrossRequest} {act : Made}

theorem readOr_of_decimal {field : String} {wire : Option Decimal} {value : Exact}
    (read : decimal field wire = .ok (some value)) : readOr wire = value := by
  unfold decimal at read
  unfold readOr
  cases wire with
  | none => cases read
  | some wire =>
    dsimp only at read ⊢
    cases inRange : Exact.fromWire wire with
    | error out =>
      rw [inRange] at read
      cases read
    | ok held =>
      rw [inRange] at read
      cases read
      rfl

theorem crossQuantity_ok {cross : SleeveCross} {quantity : Exact} (stated : crossQuantity cross = .ok quantity) :
    readOr cross.quantity = quantity := by
  unfold crossQuantity at stated
  obtain ⟨read, held, stated⟩ := bind_ok.mp stated
  cases read with
  | none => cases stated
  | some value =>
    rw [readOr_of_decimal held]
    dsimp only at stated
    split at stated
    · cases stated
      rfl
    · cases stated

theorem recordSleeveCross_ok (recorded : recordSleeveCross book head ctx request = .ok act) :
    Recorded book head ctx (request.sleeveCross.getD {}) act := by
  unfold recordSleeveCross at recorded
  obtain ⟨_, -, recorded⟩ := bind_ok.mp recorded
  dsimp only at recorded
  obtain ⟨-, recorded⟩ := guard_ok.mp recorded
  obtain ⟨_, -, recorded⟩ := bind_ok.mp recorded
  obtain ⟨-, recorded⟩ := guard_ok.mp recorded
  obtain ⟨-, recorded⟩ := guard_ok.mp recorded
  obtain ⟨quantity, stated, recorded⟩ := bind_ok.mp recorded
  cases priced : (request.sleeveCross.getD {}).crossPrice with
  | none =>
    rw [priced] at recorded
    cases recorded
  | some price =>
    rw [priced] at recorded
    dsimp only at recorded
    obtain ⟨unit, -, recorded⟩ := bind_ok.mp recorded
    obtain ⟨_, -, recorded⟩ := bind_ok.mp recorded
    obtain ⟨lots, opened, recorded⟩ := bind_ok.mp recorded
    obtain ⟨takes, relieved, recorded⟩ := bind_ok.mp recorded
    obtain ⟨rest, -, recorded⟩ := bind_ok.mp recorded
    obtain ⟨-, recorded⟩ := guard_ok.mp recorded
    obtain ⟨cash, -, recorded⟩ := bind_ok.mp recorded
    obtain ⟨value, -, recorded⟩ := bind_ok.mp recorded
    refine ⟨takes, cash, value, _, bind_ok.mpr ⟨lots, opened, ?_⟩, recorded, rfl, ?_⟩
    · rw [crossQuantity_ok stated]
      exact relieved
    · rw [priced]

/-- A sleeve cross changes sleeves and nothing else exactly where each part of a lot it takes keeps its basis
and each order it names has room for it. -/
theorem recordSleeveCross_changesSleevesOnly_iff (fresh : book.ledger.sleeveCrosses[ctx.minted "SXC" 0]? = none)
    (recorded : recordSleeveCross book head ctx request = .ok act) :
    ChangesSleevesOnly book (request.sleeveCross.getD {}) act ↔
      (∀ takes, partsTaken book (request.sleeveCross.getD {}) = .ok takes →
        ∀ take ∈ takes, KeepsBasis book (request.sleeveCross.getD {}) take) ∧
      ∀ orderId ∈ (request.sleeveCross.getD {}).orderIds, orderId ≠ "" →
        LeavesRoom book (request.sleeveCross.getD {}) orderId := by
  obtain ⟨takes, cash, value, plan, taken, finished, lines, acts⟩ := recordSleeveCross_ok recorded
  generalize request.sleeveCross.getD {} = cross at *
  obtain ⟨more, settle, decided⟩ := finish_ok finished
  obtain ⟨applied, -, entry⟩ := made_ok decided
  have moved : act.entry.body.lines = landed ctx.process book (crossLines book ctx cross takes cash value) := by
    rw [entry, ← lines]
    rfl
  have acted : (((plan.draft book ctx (plan.acts ++ more)).entry book head ctx).body.acts) =
      .sleeveCrossed { cross with sleeveCrossId := ctx.minted "SXC" 0, accountId := book.accountId } :: more := by
    change plan.acts ++ more = _
    rw [acts]
    rfl
  have bucket (key : Key) (bucket : SettlementBucket) (valueDate : String) :
      act.held.bucketAt key bucket valueDate = book.bucketAt key bucket valueDate +
        bucketLines (landed ctx.process book (crossLines book ctx cross takes cash value)) key bucket valueDate := by
    rw [← lines]
    exact Book.bucketAt_of_applied applied key
  have parts : (∀ part ∈ partsOf act.entry.body.lines, MovesPart book cross part) ↔ ∀ take ∈ takes, KeepsBasis book cross take := by
    rw [moved, partsOf_crossLines]
    constructor
    · intro all take member
      obtain ⟨index, within, rfl⟩ := List.getElem_of_mem member
      have held : (takenOut cross takes[index], takenIn book ctx cross index takes[index]) ∈ partPairs book ctx cross takes :=
        List.mem_mapIdx.mpr ⟨index, within, rfl⟩
      exact (movesPart_iff ctx.process ctx index takes[index]).mp (all _ (List.mem_map.mpr ⟨_, held, rfl⟩))
    · intro all part member
      obtain ⟨pair, held, rfl⟩ := List.mem_map.mp member
      obtain ⟨index, within, rfl⟩ := List.mem_mapIdx.mp held
      exact (movesPart_iff ctx.process ctx index takes[index]).mpr (all _ (List.getElem_mem within))
  have orders (orderId : String) (named : orderId ∈ cross.orderIds) (some' : orderId ≠ "") :
      (∀ ordered fills, orderedOf act.book.ledger orderId = some ordered → act.book.ledger.filled orderId = .ok fills →
        fills.reported.units ≤ ordered.units) ↔ LeavesRoom book cross orderId :=
    leavesRoom_iff applied acted settle fresh named some'
  constructor
  · intro changes
    refine ⟨fun others again => ?_, fun orderId named some' => (orders orderId named some').mp (changes.orders orderId named some')⟩
    cases taken.symm.trans again
    exact parts.mp changes.parts
  · rintro ⟨keeps, room⟩
    refine ⟨fun instrument side kind valueDate => ?_, fun key kind valueDate notGiving notReceiving => ?_,
      parts.mpr (keeps takes taken), fun orderId named some' => (orders orderId named some').mpr (room orderId named some')⟩
    · have none' := @crossLines_conserve book cross instrument side kind valueDate ctx.process ctx takes cash value
      rw [bucket, bucket]
      omega
    · rw [bucket, crossLines_apart notGiving notReceiving, Int.add_zero]

def usd (amount : Int) : Money := { amount := some ⟨amount, 0⟩, currencyCode := "USD", instrumentId := "CASH-USD" }

def crossingDesk : Context where
  actingFor := "USER-1"
  minted identifier count := identifier ++ "-A" ++ toString count

/-- An account entered with one lot of so much, which cost ninety. -/
def oneLot (quantity : Decimal) : List Making := [⟨0, {}, {
  entryId := "ENT-1"
  kind := "opening-balance"
  effectiveDate := "2026-01-02"
  body := {
    opening := some { entryId := "ENT-1", asOfDate := "2026-01-02" }
    attributes := some { accountId := "ACC-1", baseCurrencyCode := "USD", baseCashInstrumentId := "CASH-USD" }
    lines := [{
      instrumentId := "INS-1"
      side := .long
      bucket := .settled
      quantity := some quantity
      lotId := "LOT-1"
      opensLot := some { cost := some (usd 90), acquiredDate := "2025-06-30" } }] } }⟩]

/-- One of the instrument crossed into another sleeve, at forty. -/
def oneCrossed : RecordSleeveCrossRequest where
  sleeveCross := some {
    instrumentId := "INS-1"
    receivingSleeve := "GROWTH"
    quantity := some ⟨1, 0⟩
    crossPrice := some (usd 40)
    reason := "rebalanced" }

/-- One of a lot of three crosses with thirty of the ninety it cost. -/
theorem third_keeps_basis : ∃ book act, book.Reachable ∧
    recordSleeveCross book 9 crossingDesk oneCrossed = .ok act ∧
    (partsOf act.entry.body.lines).map (fun part => (part.2.opensLot.bind fun terms => amountOf terms.cost).map Exact.units) =
      [some (30 * 10 ^ 18)] ∧
    ChangesSleevesOnly book (oneCrossed.sleeveCross.getD {}) act := by
  have computed : ((oneLot ⟨3, 0⟩).foldlM make (Book.new "ACC-1" "P-1")).toOption.any (fun book =>
      (book.ledger.sleeveCrosses[crossingDesk.minted "SXC" 0]?).isNone &&
      (partsTaken book (oneCrossed.sleeveCross.getD {})).toOption.any (fun takes =>
        decide (∀ take ∈ takes, KeepsBasis book (oneCrossed.sleeveCross.getD {}) take)) &&
      (recordSleeveCross book 9 crossingDesk oneCrossed).toOption.any (fun act =>
        (partsOf act.entry.body.lines).map (fun part =>
          (part.2.opensLot.bind fun terms => amountOf terms.cost).map Exact.units) == [some (30 * 10 ^ 18)])) = true := by
    decide +kernel
  obtain ⟨book, folded, rest⟩ := answered_of computed
  rw [Bool.and_eq_true, Bool.and_eq_true, Option.isNone_iff_eq_none] at rest
  obtain ⟨⟨fresh, kept⟩, made⟩ := rest
  obtain ⟨takes, taken, keeps⟩ := answered_of kept
  obtain ⟨act, recorded, carried⟩ := answered_of made
  refine ⟨book, act, reachable_of_make folded, recorded, beq_iff_eq.mp carried,
    (recordSleeveCross_changesSleevesOnly_iff fresh recorded).mpr ⟨fun others again => ?_, ?_⟩⟩
  · cases taken.symm.trans again
    exact of_decide_eq_true keeps
  · exact fun orderId named => absurd named List.not_mem_nil

/-- One of a lot stated to thirteen places crosses at a cost not known, the lot's known as it is. -/
theorem part_crosses_without_its_cost :
    ¬ ∀ (book : Book) (head : Nat) (ctx : Context) (request : RecordSleeveCrossRequest) (act : Made), book.Reachable →
      book.ledger.sleeveCrosses[ctx.minted "SXC" 0]? = none → recordSleeveCross book head ctx request = .ok act →
      ChangesSleevesOnly book (request.sleeveCross.getD {}) act := by
  intro claim
  have computed : ((oneLot ⟨30000000000001, 13⟩).foldlM make (Book.new "ACC-1" "P-1")).toOption.any (fun book =>
      (book.ledger.sleeveCrosses[crossingDesk.minted "SXC" 0]?).isNone &&
      (recordSleeveCross book 9 crossingDesk oneCrossed).toOption.any (fun act =>
        (partsOf act.entry.body.lines).any fun part =>
          (part.2.opensLot.bind fun terms => amountOf terms.cost).isNone &&
            (amountOf (lotTerms book (givingKey (oneCrossed.sleeveCross.getD {})) part.1.lotId).cost).isSome)) = true := by
    decide +kernel
  obtain ⟨book, folded, rest⟩ := answered_of computed
  rw [Bool.and_eq_true, Option.isNone_iff_eq_none] at rest
  obtain ⟨fresh, made⟩ := rest
  obtain ⟨act, recorded, lost⟩ := answered_of made
  obtain ⟨part, member, costs⟩ := List.any_eq_true.mp lost
  rw [Bool.and_eq_true, Option.isNone_iff_eq_none] at costs
  have basis := ((claim book 9 crossingDesk oneCrossed act (reachable_of_make folded) fresh recorded).parts part member).basis
  obtain ⟨amount, known⟩ := Option.isSome_iff_exists.mp costs.2
  rw [costs.1, known] at basis
  cases basis

end Booking

end MeridianCore.Bor
