import MeridianCore.Bor.Lifecycle.Reported
import MeridianCore.Bor.OrderDecide.TradeLines

/-! The accrued interest a coupon returns. A coupon counts the purchases of its instrument that settle
in its period afresh each time, and returns what they paid; what an earlier coupon returned is kept
nowhere. -/

namespace MeridianCore.Bor.Lifecycle
open Book (lineUnits lineUnits_of_read)

/-- Where an allocation of the account is from. -/
inductive Source where
  | booking (id : String)
  | received (id : TextPair)
  deriving DecidableEq

/-- The accrued interest one allocation of a purchase paid. -/
structure Accrued where
  source : Source
  instrumentId : String
  settlesOn : String
  money : Money
  deriving DecidableEq

namespace Accrued

def units (accrued : Accrued) : Int := ((amountOf (some accrued.money)).map Exact.units).getD 0

/-- Whether a coupon counts it: of the coupon's instrument, settling in its period. -/
def countedBy (process : Process) (event : LifecycleEvent) (accrued : Accrued) : Bool :=
  process.same accrued.instrumentId event.instrumentId && !decide (accrued.settlesOn < event.periodStartDate) &&
    decide (accrued.settlesOn < event.periodEndDate)

end Accrued

/-- What an allocation on an order paid, where it is a purchase that states it. -/
def accruedOf (source : Source) (order : OrderHeld) (allocation : Allocation) : Option Accrued :=
  if order.order.side = .buy then
    allocation.accruedInterest.map fun money =>
      { source
        instrumentId := order.order.instrumentId
        settlesOn := allocation.intendedSettlementDate
        money }
  else none

/-- What a live booking's allocations to the account paid. -/
def paidByBooking (book : Book) (named : String × BookingHeld) : List Accrued :=
  if named.2.state = .cancelled then []
  else
    match book.ledger.orders[named.2.booking.orderId]? with
    | some order =>
      (named.2.booking.allocations.filter fun allocation => allocation.accountId == book.accountId).filterMap
        (accruedOf (.booking named.1) order)
    | none => []

/-- What a received allocation not withdrawn paid. -/
def paidByReceived (book : Book) (named : TextPair × ReceivedHeld) : List Accrued :=
  if named.2.withdrawn then []
  else
    match book.ledger.orders[named.2.memberOrderId]? with
    | some order => (accruedOf (.received named.1) order named.2.allocation).toList
    | none => []

/-- What the account paid on its live bookings and the allocations it received. -/
def paidFor (book : Book) : List Accrued :=
  book.ledger.bookings.toList.flatMap (paidByBooking book) ++ book.ledger.received.toList.flatMap (paidByReceived book)

def unitsOf (paid : List Accrued) : Int := (paid.map Accrued.units).sum

/-- What a coupon returns of the accrued interest paid: at most the coupon, and nothing of one taken. -/
def accruedReturned (book : Book) (process : Process) (event : LifecycleEvent) : Result Exact := do
  let total ← numbers.amount "cash" (event.cash.getD {})
  let paid ← purchasedAccrued book process event
  return if total.isNegative then Exact.zero else if total.less paid then total else paid

namespace Happened

def cash (coupon : Happened) : Money := coupon.event.cash.getD {}

def counts (coupon : Happened) (accrued : Accrued) : Bool := accrued.countedBy coupon.ctx.process coupon.event

/-- The purchases a coupon counted, as the account held them then. -/
def counted (coupon : Happened) : List Accrued := (paidFor coupon.book).filter coupon.counts

/-- What a coupon returned of the accrued interest paid. -/
def returned (coupon : Happened) : Exact :=
  (accruedReturned coupon.book coupon.ctx.process coupon.event).toOption.getD Exact.zero

/-- A coupon's two parts, on its own cash: what it returned, and the rest of what it stated. -/
def CouponSums (coupon : Happened) : Prop :=
  ∃ total first second, amountOf (some coupon.cash) = some total ∧ coupon.lines = first ++ second ∧
    (first.map lineUnits).sum = coupon.returned.units ∧
    (second.map lineUnits).sum = total.units - coupon.returned.units ∧
    ∀ line ∈ coupon.lines, cashInstrument coupon.ctx.process coupon.cash = .ok line.instrumentId

end Happened

/-- The coupons an account has booked. -/
def Holder.coupons (holder : Holder) : List Happened :=
  holder.happened.filter fun happened => happened.event.kind = .couponReceived

/-- What some of the coupons returned in a currency. -/
def returnedIn (coupons : List Happened) (currency : String) : Int :=
  ((coupons.filter fun coupon => coupon.cash.currencyCode = currency).map fun coupon => coupon.returned.units).sum

/-- What the account paid in a currency on the purchases that some of the coupons count. -/
def paidIn (book : Book) (coupons : List Happened) (currency : String) : Int :=
  unitsOf ((paidFor book).filter fun accrued =>
    accrued.money.currencyCode = currency && coupons.any fun coupon => coupon.counts accrued)

/-- Whichever of the coupons are taken, all of one instrument or any others, they returned no more in
a currency than was paid in it on the purchases they count; and each one's lines are its cash. -/
structure ReturnedOnce (holder : Holder) : Prop where
  most : ∀ coupons, coupons.Sublist holder.coupons → ∀ currency,
    returnedIn coupons currency ≤ paidIn holder.book coupons currency
  sums : ∀ coupon ∈ holder.coupons, coupon.CouponSums

/-- What the account will have paid once something is sent it. -/
def paidAfter (holder : Holder) (sent : Sent) : List Accrued := paidFor (hold holder sent).book

/-- A coupon counts purchases in its own currency that no earlier coupon counted, and takes no cash
back while they paid less than nothing; any other act leaves standing what an earlier coupon counted,
and adds to what one counts nothing below zero. -/
def Sent.Uncounted (holder : Holder) (sent : Sent) : Prop :=
  (∀ stated ∈ movedBy holder.book sent, stated.2.kind = .couponReceived →
    let coupon : Happened := ⟨holder.book, stated.1, stated.2, []⟩
    (∀ accrued ∈ coupon.counted, accrued.money.currencyCode = coupon.cash.currencyCode ∧
      ∀ earlier ∈ holder.coupons, accrued ∉ earlier.counted) ∧
    ((amountOf (some coupon.cash)).any Exact.isNegative = true → 0 ≤ unitsOf coupon.counted)) ∧
  (sent.isOther = true → ∀ coupon ∈ holder.coupons,
    (∀ accrued ∈ coupon.counted, (paidFor holder.book).count accrued ≤ (paidAfter holder sent).count accrued) ∧
    ∀ accrued ∈ paidAfter holder sent, accrued.units < 0 → coupon.counts accrued = true →
      (paidAfter holder sent).count accrued ≤ (paidFor holder.book).count accrued)

instance (holder : Holder) (sent : Sent) : Decidable (sent.Uncounted holder) := by
  unfold Sent.Uncounted
  infer_instance

section Counted

variable {book : Book} {process : Process} {event : LifecycleEvent} {paid after : Exact}

@[simp] theorem unitsOf_append (paid more : List Accrued) : unitsOf (paid ++ more) = unitsOf paid + unitsOf more := by
  simp [unitsOf]

theorem countAccrued_units (source : Source) {order : OrderHeld} {allocation : Allocation}
    (counted : countAccrued process event order paid allocation = .ok after) :
    after.units = paid.units + unitsOf ((accruedOf source order allocation).toList.filter (Accrued.countedBy process event)) := by
  unfold countAccrued at counted
  unfold accruedOf
  by_cases bought : order.order.side = .buy
  · rw [if_pos bought]
    cases stated : allocation.accruedInterest with
    | none =>
      rw [stated] at counted
      split at counted <;> · cases counted; simp [unitsOf]
    | some money =>
      rw [stated] at counted
      split at counted
      · next outside =>
        cases counted
        have skipped : Accrued.countedBy process event ⟨source, order.order.instrumentId,
            allocation.intendedSettlementDate, money⟩ = false := by
          unfold Accrued.countedBy
          simp only [bought, ne_eq, not_true_eq_false, false_or] at outside
          rcases outside with other | early | late
          · simp [other]
          · simp [early]
          · simp [late]
        simp [skipped, unitsOf]
      · next inside =>
        obtain ⟨amount, read, added⟩ := bind_ok.mp counted
        simp only [bought, ne_eq, not_true_eq_false, false_or, not_or, not_not] at inside
        have taken : Accrued.countedBy process event ⟨source, order.order.instrumentId,
            allocation.intendedSettlementDate, money⟩ = true := by
          simp [Accrued.countedBy, inside]
        have worth : amountOf (some money) = some amount := amount_read read
        simp [taken, unitsOf, Accrued.units, worth, add_ok added]
  · rw [if_neg bought]
    rw [if_pos (Or.inl bought)] at counted
    cases counted
    simp [unitsOf]

theorem accruedOfBooking_units {named : String × BookingHeld}
    (counted : accruedOfBooking book process event paid named.2 = .ok after) :
    after.units = paid.units + unitsOf ((paidByBooking book named).filter (Accrued.countedBy process event)) := by
  unfold accruedOfBooking at counted
  unfold paidByBooking
  split at counted
  · next cancelled =>
    cases counted
    simp [cancelled, unitsOf]
  · next live =>
    rw [if_neg live]
    cases held : book.ledger.orders[named.2.booking.orderId]? with
    | some order =>
      rw [held] at counted
      dsimp only at counted ⊢
      generalize named.2.booking.allocations.filter (fun allocation => allocation.accountId == book.accountId) =
        allocations at counted ⊢
      have adds (total : Exact) (allocation : Allocation) (after : Exact) :
          countAccrued process event order total allocation = .ok after →
            after.units = total.units + unitsOf
              ((accruedOf (.booking named.1) order allocation).toList.filter (Accrued.countedBy process event)) :=
        countAccrued_units (.booking named.1)
      have sum := foldlM_adds adds allocations counted
      rw [sum]
      clear sum counted
      congr 1
      induction allocations with
      | nil => rfl
      | cons allocation rest ih =>
        rw [List.map_cons, List.sum_cons, ih, List.filterMap_cons]
        cases accruedOf (.booking named.1) order allocation with
        | none => simp [unitsOf]
        | some accrued => simp [List.filter_cons, unitsOf]; split <;> simp
    | none =>
      rw [held] at counted
      cases counted
      simp [unitsOf]

theorem accruedOfReceived_units {named : TextPair × ReceivedHeld}
    (counted : accruedOfReceived book process event paid named.2 = .ok after) :
    after.units = paid.units + unitsOf ((paidByReceived book named).filter (Accrued.countedBy process event)) := by
  unfold accruedOfReceived at counted
  unfold paidByReceived
  split at counted
  · next withdrawn =>
    cases counted
    simp [withdrawn, unitsOf]
  · next live =>
    rw [if_neg live]
    cases held : book.ledger.orders[named.2.memberOrderId]? with
    | some order =>
      rw [held] at counted
      exact countAccrued_units (.received named.1) counted
    | none =>
      rw [held] at counted
      cases counted
      simp [unitsOf]

theorem sum_flatMap {α : Type} (entries : List α) (each : α → List Accrued) (keep : Accrued → Bool) :
    unitsOf ((entries.flatMap each).filter keep) = (entries.map fun entry => unitsOf ((each entry).filter keep)).sum := by
  induction entries with
  | nil => rfl
  | cons entry rest ih =>
    rw [List.flatMap_cons, List.filter_append, unitsOf_append, ih, List.map_cons, List.sum_cons]

/-- What a coupon counts is what the account paid on the purchases in its period. -/
theorem purchasedAccrued_units (counted : purchasedAccrued book process event = .ok paid) :
    paid.units = unitsOf ((paidFor book).filter (Accrued.countedBy process event)) := by
  unfold purchasedAccrued at counted
  obtain ⟨booked, bookings, received⟩ := bind_ok.mp counted
  rw [List.foldlM_map] at bookings received
  have ofBooking (total : Exact) (named : String × BookingHeld) (after : Exact) :
      accruedOfBooking book process event total named.2 = .ok after → after.units =
        total.units + unitsOf ((paidByBooking book named).filter (Accrued.countedBy process event)) :=
    accruedOfBooking_units
  have ofReceived (total : Exact) (named : TextPair × ReceivedHeld) (after : Exact) :
      accruedOfReceived book process event total named.2 = .ok after → after.units =
        total.units + unitsOf ((paidByReceived book named).filter (Accrued.countedBy process event)) :=
    accruedOfReceived_units
  have first := foldlM_adds ofBooking _ bookings
  have second := foldlM_adds ofReceived _ received
  rw [second, first, paidFor, List.filter_append, unitsOf_append, sum_flatMap, sum_flatMap, Exact.units_zero]
  omega

/-- A coupon returns no more than was paid on what it counts. -/
theorem accruedReturned_le {returned : Exact} (answered : accruedReturned book process event = .ok returned)
    (taken : (amountOf (some (event.cash.getD {}))).any Exact.isNegative = true →
      0 ≤ unitsOf ((paidFor book).filter (Accrued.countedBy process event))) :
    returned.units ≤ unitsOf ((paidFor book).filter (Accrued.countedBy process event)) := by
  unfold accruedReturned at answered
  obtain ⟨total, read, answered⟩ := bind_ok.mp answered
  obtain ⟨paid, counted, answered⟩ := bind_ok.mp answered
  cases answered
  have stated : amountOf (some (event.cash.getD {})) = some total := amount_read read
  rw [stated] at taken
  rw [← purchasedAccrued_units counted] at taken ⊢
  split
  · next negative =>
    rw [Exact.units_zero]
    exact taken negative
  · split
    · next less => exact ((Exact.less_iff total paid).mp less).le
    · exact le_refl _

end Counted

section Sent

variable {book : Book} {head : Nat} {ctx : Context} {act : Made}

theorem paidFor_of_ledger {after : Book} (ledger : after.ledger = book.ledger) (account : after.accountId = book.accountId) :
    paidFor after = paidFor book := by
  unfold paidFor
  have bookings : paidByBooking after = paidByBooking book := by
    funext named
    unfold paidByBooking
    rw [ledger, account]
  have received : paidByReceived after = paidByReceived book := by
    funext named
    unfold paidByReceived
    rw [ledger]
  rw [bookings, received, ledger]

theorem moved_coupon {event : LifecycleEvent} {moves : Moved} (coupon : event.kind = .couponReceived)
    (answered : moved book ctx event = .ok moves) : ∃ method, couponMoved book ctx event method = .ok moves := by
  unfold moved at answered
  rw [coupon, if_pos (show debtKind .couponReceived = true from rfl)] at answered
  unfold debtMoved at answered
  obtain ⟨quantity, -, answered⟩ := bind_ok.mp answered
  rw [coupon] at answered
  exact ⟨_, answered⟩

/-- Cash moved is the amount, on its own cash instrument. -/
theorem cashMoved_ok {cash : Money} {amount : Exact} {event : LifecycleEvent} {method : LotReliefMethod}
    {earlier lines : List MovementLine} (answered : cashMoved book ctx cash amount event method earlier = .ok lines) :
    (lines.map lineUnits).sum = amount.units ∧
      ∀ line ∈ lines, cashInstrument ctx.process cash = .ok line.instrumentId := by
  unfold cashMoved at answered
  split at answered
  · next nothing =>
    cases answered
    rw [(Exact.isZero_iff amount).mp nothing]
    simp
  · obtain ⟨instrument, known, answered⟩ := bind_ok.mp answered
    have moves := moves_currency answered
    exact ⟨moves.sum, fun line among => by rw [known, (moves.on line among).1]⟩

/-- A coupon's lines are what it returned, then the rest of what it stated. -/
theorem coupon_ok {happened : Happened} (coupon : happened.event.kind = .couponReceived) (booked : happened.Booked) :
    accruedReturned happened.book happened.ctx.process happened.event = .ok happened.returned ∧ happened.CouponSums := by
  obtain ⟨moves, moving, lines⟩ := booked.moving
  obtain ⟨method, answered⟩ := moved_coupon coupon moving
  unfold couponMoved at answered
  obtain ⟨total, read, answered⟩ := bind_ok.mp answered
  obtain ⟨paid, counted, answered⟩ := bind_ok.mp answered
  generalize part : (if total.isNegative = true then Exact.zero else if total.less paid = true then total else paid) =
    returned at answered
  have answer : accruedReturned happened.book happened.ctx.process happened.event = .ok returned := by
    unfold accruedReturned
    rw [read, counted, ← part]
    rfl
  have same : happened.returned = returned := by
    rw [Happened.returned, answer]
    rfl
  obtain ⟨income, rest, answered⟩ := bind_ok.mp answered
  obtain ⟨first, returning, answered⟩ := bind_ok.mp answered
  obtain ⟨second, earning, answered⟩ := bind_ok.mp answered
  cases answered
  obtain ⟨firstSum, firstOn⟩ := cashMoved_ok returning
  obtain ⟨secondSum, secondOn⟩ := cashMoved_ok earning
  rw [same]
  refine ⟨answer, total, first, second, amount_read read, lines, ?_, ?_, fun line among => ?_⟩
  · rw [same, firstSum]
  · rw [same, secondSum, add_ok rest, Exact.units_negated]
    omega
  · rw [lines] at among
    exact (List.mem_append.mp among).elim (firstOn line) (secondOn line)

end Sent

/-- What the coupons of an account keep: the purchases they counted stand, each counted once and in the
coupon's own currency, and no other purchase a coupon counts is below zero. -/
structure CountedOnce (holder : Holder) : Prop where
  stands : (holder.coupons.flatMap Happened.counted).Subperm (paidFor holder.book)
  within : ∀ coupon ∈ holder.coupons, coupon.returned.units ≤ unitsOf coupon.counted
  counted : ∀ coupon ∈ holder.coupons, ∀ accrued ∈ coupon.counted,
    coupon.counts accrued = true ∧ accrued.money.currencyCode = coupon.cash.currencyCode
  below : ∀ coupon ∈ holder.coupons, ∀ accrued, accrued.units < 0 → coupon.counts accrued = true →
    (paidFor holder.book).count accrued ≤ coupon.counted.count accrued
  sums : ∀ coupon ∈ holder.coupons, coupon.CouponSums

section CountedOnce

variable {holder : Holder} {sent : Sent}

theorem unitsOf_perm {paid other : List Accrued} (same : paid.Perm other) : unitsOf paid = unitsOf other :=
  (same.map Accrued.units).sum_eq

theorem returnedIn_le {coupons : List Happened} {currency : String}
    (within : ∀ coupon ∈ coupons, coupon.returned.units ≤ unitsOf coupon.counted) :
    returnedIn coupons currency ≤
      unitsOf ((coupons.filter fun coupon => coupon.cash.currencyCode = currency).flatMap Happened.counted) := by
  induction coupons with
  | nil => exact le_refl 0
  | cons coupon rest ih =>
    have first := within coupon List.mem_cons_self
    have later := ih fun other member => within other (List.mem_cons_of_mem _ member)
    unfold returnedIn at later ⊢
    rw [List.filter_cons]
    split
    · rw [List.map_cons, List.sum_cons, List.flatMap_cons, unitsOf_append]
      exact Int.add_le_add first later
    · exact later

/-- Of what stands, a part is what the coupons counted, and the rest is worth no less than nothing. -/
theorem CountedOnce.most (once : CountedOnce holder) {coupons : List Happened} (among : coupons.Sublist holder.coupons)
    (currency : String) : returnedIn coupons currency ≤ paidIn holder.book coupons currency := by
  have member {coupon : Happened} (taken : coupon ∈ coupons) : coupon ∈ holder.coupons := among.subset taken
  refine (returnedIn_le fun coupon taken => once.within coupon (member taken)).trans ?_
  let keep (accrued : Accrued) : Bool :=
    accrued.money.currencyCode = currency && coupons.any fun coupon => coupon.counts accrued
  let part := (coupons.filter fun coupon => coupon.cash.currencyCode = currency).flatMap Happened.counted
  change unitsOf part ≤ unitsOf ((paidFor holder.book).filter keep)
  have kept : part.filter keep = part := by
    rw [List.filter_eq_self]
    intro accrued counted
    obtain ⟨coupon, taken, counted⟩ := List.mem_flatMap.mp counted
    obtain ⟨taken, inCurrency⟩ := List.mem_filter.mp taken
    obtain ⟨counts, same⟩ := once.counted coupon (member taken) accrued counted
    have any : (coupons.any fun coupon => coupon.counts accrued) = true := List.any_eq_true.mpr ⟨coupon, taken, counts⟩
    simp only [keep, any, same, Bool.and_true, decide_eq_true_eq]
    exact of_decide_eq_true inCurrency
  have whole : part.Sublist (holder.coupons.flatMap Happened.counted) :=
    ((List.filter_sublist.trans among).map Happened.counted).flatten
  have held : part.Subperm ((paidFor holder.book).filter keep) := by
    rw [← kept]
    exact (whole.subperm.trans once.stands).filter keep
  obtain ⟨rest, split⟩ := Multiset.le_iff_exists_add.mp (Multiset.coe_le.mpr held)
  induction rest using Quotient.inductionOn with | _ rest
  have perm : ((paidFor holder.book).filter keep).Perm (part ++ rest) := Multiset.coe_eq_coe.mp split
  rw [unitsOf_perm perm, unitsOf_append]
  suffices nonneg : 0 ≤ unitsOf rest by omega
  refine List.sum_nonneg fun units listed => ?_
  obtain ⟨accrued, extra, rfl⟩ := List.mem_map.mp listed
  by_contra negative
  have stands := perm.mem_iff.mpr (List.mem_append.mpr (Or.inr extra))
  have equal := perm.count_eq accrued
  obtain ⟨stands, covered⟩ := List.mem_filter.mp stands
  obtain ⟨inCurrency, counts⟩ := Bool.and_eq_true_iff.mp covered
  obtain ⟨coupon, taken, counts⟩ := List.any_eq_true.mp counts
  have below := once.below coupon (member taken) accrued (by omega) counts
  have counted : accrued ∈ coupon.counted :=
    List.count_pos_iff.mp (Nat.lt_of_lt_of_le (List.count_pos_iff.mpr stands) below)
  have same := (once.counted coupon (member taken) accrued counted).2
  have own : coupon ∈ coupons.filter fun coupon => coupon.cash.currencyCode = currency := by
    rw [List.mem_filter, ← same]
    exact ⟨taken, inCurrency⟩
  have inPart : coupon.counted.Sublist part := List.sublist_flatten_of_mem (List.mem_map_of_mem own)
  have fewer := inPart.count_le accrued
  have more := List.count_pos_iff.mpr extra
  rw [List.count_filter covered, List.count_append] at equal
  omega

/-- One more coupon, of purchases no earlier one counted. -/
theorem CountedOnce.append (once : CountedOnce holder) {book : Book} (same : paidFor book = paidFor holder.book)
    {coupon : Happened} {happened : List Happened} (before : coupon.book = holder.book)
    (coupons : Holder.coupons ⟨book, happened⟩ = holder.coupons ++ [coupon])
    (fresh : ∀ accrued ∈ coupon.counted, accrued.money.currencyCode = coupon.cash.currencyCode ∧
      ∀ earlier ∈ holder.coupons, accrued ∉ earlier.counted)
    (least : coupon.returned.units ≤ unitsOf coupon.counted) (sums : coupon.CouponSums) :
    CountedOnce ⟨book, happened⟩ := by
  have last {other : Happened} (member : other ∈ Holder.coupons ⟨book, happened⟩) :
      other ∈ holder.coupons ∨ other = coupon := by
    rw [coupons] at member
    exact (List.mem_append.mp member).imp_right List.mem_singleton.mp
  have among : coupon.counted = (paidFor holder.book).filter coupon.counts := by rw [Happened.counted, before]
  refine ⟨?_, fun other member => ?_, fun other member accrued counted => ?_,
    fun other member accrued negative counts => ?_, fun other member => ?_⟩
  · rw [coupons]
    dsimp only
    rw [same, List.flatMap_append, List.flatMap_singleton, List.subperm_ext_iff]
    intro accrued _
    rw [List.count_append]
    by_cases now : accrued ∈ coupon.counted
    · have unseen : accrued ∉ holder.coupons.flatMap Happened.counted := by
        intro seen
        obtain ⟨earlier, taken, within⟩ := List.mem_flatMap.mp seen
        exact (fresh accrued now).2 earlier taken within
      rw [List.count_eq_zero_of_not_mem unseen, Nat.zero_add, among]
      exact List.filter_sublist.count_le accrued
    · rw [List.count_eq_zero_of_not_mem now, Nat.add_zero]
      by_cases seen : accrued ∈ holder.coupons.flatMap Happened.counted
      · exact List.subperm_ext_iff.mp once.stands accrued seen
      · rw [List.count_eq_zero_of_not_mem seen]
        exact Nat.zero_le _
  · rcases last member with earlier | rfl
    · exact once.within other earlier
    · exact least
  · rcases last member with earlier | rfl
    · exact once.counted other earlier accrued counted
    · exact ⟨(List.mem_filter.mp counted).2, (fresh accrued counted).1⟩
  · dsimp only
    rw [same]
    rcases last member with earlier | rfl
    · exact once.below other earlier accrued negative counts
    · rw [among]
      exact (List.count_filter counts).ge
  · rcases last member with earlier | rfl
    · exact once.sums other earlier
    · exact sums

/-- The coupons unchanged, and what they counted standing. -/
theorem CountedOnce.keep (once : CountedOnce holder) {after : Holder} (coupons : after.coupons = holder.coupons)
    (keeps : ∀ coupon ∈ holder.coupons,
      (∀ accrued ∈ coupon.counted, (paidFor holder.book).count accrued ≤ (paidFor after.book).count accrued) ∧
      ∀ accrued ∈ paidFor after.book, accrued.units < 0 → coupon.counts accrued = true →
        (paidFor after.book).count accrued ≤ (paidFor holder.book).count accrued) : CountedOnce after := by
  refine ⟨?_, coupons ▸ once.within, coupons ▸ once.counted, ?_, coupons ▸ once.sums⟩
  · rw [coupons, List.subperm_ext_iff]
    intro accrued counted
    obtain ⟨coupon, taken, within⟩ := List.mem_flatMap.mp counted
    exact (List.subperm_ext_iff.mp once.stands accrued counted).trans ((keeps coupon taken).1 accrued within)
  · rw [coupons]
    intro coupon taken accrued negative counts
    have before := once.below coupon taken accrued negative counts
    by_cases stands : accrued ∈ paidFor after.book
    · exact ((keeps coupon taken).2 accrued stands negative counts).trans before
    · rw [List.count_eq_zero_of_not_mem stands]
      exact Nat.zero_le _

theorem counted_step (once : CountedOnce holder) (uncounted : sent.Uncounted holder) : CountedOnce (hold holder sent) := by
  obtain ⟨own, others⟩ := uncounted
  rcases hold_cases holder sent with same | ⟨other, happened⟩ | ⟨⟨ledger, account⟩, happened | one⟩
  · rw [same]
    exact once
  · exact once.keep (by rw [Holder.coupons, happened, Holder.coupons]) (others other)
  · have same := paidFor_of_ledger ledger account
    exact once.keep (by rw [Holder.coupons, happened, Holder.coupons]) fun _ _ =>
      ⟨fun _ _ => by rw [same], fun _ _ _ _ => by rw [same]⟩
  · have same := paidFor_of_ledger ledger account
    obtain ⟨ctx, event, act, moving, -, booked, happened⟩ := one
    have coupons : (hold holder sent).coupons =
        holder.coupons ++ [(⟨holder.book, ctx, event, act.entry.body.lines⟩ : Happened)].filter fun happened =>
          happened.event.kind = .couponReceived := by
      rw [Holder.coupons, happened, List.filter_append, Holder.coupons]
    by_cases coupon : event.kind = .couponReceived
    · rw [List.filter_cons, List.filter_nil, if_pos (decide_eq_true coupon)] at coupons
      obtain ⟨fresh, taken⟩ := own _ moving coupon
      obtain ⟨returned, sums⟩ := coupon_ok coupon booked
      exact once.append same rfl coupons fresh (accruedReturned_le returned taken) sums
    · rw [List.filter_cons, List.filter_nil, if_neg (by simpa using coupon), List.append_nil] at coupons
      exact once.keep coupons fun _ _ => ⟨fun _ _ => by rw [same], fun _ _ _ _ => by rw [same]⟩

end CountedOnce

/-- In a run whose coupons count no purchase again and take only their own currency's, and whose other
acts leave standing what a coupon counted, purchased accrued is returned once. -/
theorem accrued_returned_once {accountId partition : String} {sents : List Sent} {holder : Holder}
    (run : Run (fun before sent after => sent.Uncounted before ∧ hold before sent = after)
      { book := Book.new accountId partition } sents holder) : ReturnedOnce holder := by
  have kept : CountedOnce holder := by
    refine run.invariant_of CountedOnce ⟨?_, ?_, ?_, ?_, ?_⟩ ?_
    · exact List.nil_subperm
    · simp [Holder.coupons]
    · simp [Holder.coupons]
    · simp [Holder.coupons]
    · simp [Holder.coupons]
    · rintro before sent after once uncounted rfl
      exact counted_step once uncounted
  exact ⟨fun coupons among currency => kept.most among currency, kept.sums⟩

def bondDesk (step : String) : Context where
  instanceId := "SERVICING-1"
  records := (∅ : BTreeMap String RecordSays).insert "BOND-1" { instrumentType := .bond, debt := some {} }
  minted identifier count := identifier ++ "-" ++ step ++ toString count

def dollars (amount : Int) : Money := { amount := some ⟨amount, 0⟩, currencyCode := "USD", instrumentId := "CASH-USD" }

/-- The account entered, and a bond bought in the coupon's period with fifty of accrued interest, its
fill booked to the account. -/
def boughtWithAccrued : List Sent := [
  .other 0 {} {
    entryId := "ENT-1"
    kind := "opening-balance"
    effectiveDate := "2026-01-02"
    body := {
      opening := some { entryId := "ENT-1", asOfDate := "2026-01-02" }
      attributes := some { accountId := "ACC-1" } } },
  .other 10 {} {
    entryId := "ENT-2"
    kind := "booking-booked"
    effectiveDate := "2026-03-02"
    body := {
      acts := [
        .opened { orderId := "ORD-1", instrumentId := "BOND-1", side := .buy, quantity := some ⟨1000, 0⟩ } true,
        .executed {
          executionId := "EXE-1"
          orderId := "ORD-1"
          instrumentId := "BOND-1"
          side := .buy
          quantity := some ⟨1000, 0⟩
          price := some (dollars 100)
          tradeDate := "2026-03-02"
          settlementDate := "2026-03-04" } "VENUE-1" "" "" "" {},
        .bookingOpened {
          bookingId := "BKG-1"
          orderId := "ORD-1"
          accountId := "ACC-1"
          executionIds := ["EXE-1"]
          allocations := [{
            allocationId := "ALC-1"
            accountId := "ACC-1"
            quantity := some ⟨1000, 0⟩
            averagePrice := some (dollars 100)
            grossAmount := some (dollars 1000)
            intendedSettlementDate := "2026-03-04"
            accruedInterest := some (dollars 50) }] } (0, 1)]
      lines := [{
        instrumentId := "CASH-USD"
        bucket := .pending
        valueDate := "2026-03-04"
        quantity := some ⟨-50, 0⟩
        lotId := "LOT-1"
        side := .short
        opensLot := some {} }] } }]

/-- A coupon of the period, three hundred paid. -/
def couponPaid (step external : String) (head : Nat) : Sent :=
  .report head (bondDesk step) { event := some {
    accountId := "ACC-1"
    instrumentId := "BOND-1"
    kind := .couponReceived
    quantity := some ⟨1000, 0⟩
    eventDate := "2026-07-01"
    periodStartDate := "2026-01-01"
    periodEndDate := "2026-07-01"
    cash := some (dollars 300)
    externalEventId := external } }

/-- One coupon of the period returns the accrued interest bought. -/
theorem accrued_returned_by_coupon : ∃ holder, ReturnedOnce holder ∧
    holder.coupons.map (fun coupon => coupon.returned.units) = [50 * 10 ^ 18] := by
  have computed : ((boughtWithAccrued ++ [couponPaid "A" "BROKER-1" 20]).foldlM
      (holdChecked fun holder sent => decide (sent.Uncounted holder)) { book := Book.new "ACC-1" "P-1" }).any
        (fun holder => holder.coupons.map (fun coupon => coupon.returned.units) == [50 * 10 ^ 18]) = true := by
    decide +kernel
  obtain ⟨holder, run, returned⟩ := Run.of_any computed
  refine ⟨holder, accrued_returned_once (run.imp fun before sent after taken => ?_), beq_iff_eq.mp returned⟩
  obtain ⟨checked, taken⟩ := holdChecked_some taken
  exact ⟨of_decide_eq_true checked, taken⟩

/-- A second payment of the period returns the same accrued interest again. -/
theorem second_payment_returns_again :
    ¬ ∀ (accountId partition : String) (sents : List Sent) (holder : Holder),
      Run (fun before sent after => hold before sent = after) { book := Book.new accountId partition } sents holder →
        ReturnedOnce holder := by
  intro claim
  have computed : ((boughtWithAccrued ++ [couponPaid "A" "BROKER-1" 20, couponPaid "B" "BROKER-2" 30]).foldlM
      (holdChecked fun _ _ => true) { book := Book.new "ACC-1" "P-1" }).any
        (fun holder => decide (paidIn holder.book holder.coupons "USD" < returnedIn holder.coupons "USD")) = true := by
    decide +kernel
  obtain ⟨holder, run, exceeded⟩ := Run.of_any computed
  have once := claim _ _ _ holder (run.imp fun before sent after taken => (holdChecked_some taken).2)
  exact absurd (once.most holder.coupons (List.Sublist.refl _) "USD") (not_le.mpr (of_decide_eq_true exceeded))

end MeridianCore.Bor.Lifecycle
