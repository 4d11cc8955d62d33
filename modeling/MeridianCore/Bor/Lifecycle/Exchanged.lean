import MeridianCore.Bor.Lifecycle.Reported
import MeridianCore.Bor.Lifecycle.Share

/-! The cost an exchange carries from the lots it relieves to the lots it opens. Each part is rounded on
its own at the cost's places, and a lot's recorded cost stays what it was while parts of it are taken. -/

namespace MeridianCore.Bor.Lifecycle

/-- Whether a line relieves a lot rather than opens one. -/
def closes (line : MovementLine) : Bool := line.opensLot.isNone

/-- What the lot a line relieves cost: the money, its amount, and the quantity the lot was opened with. -/
def relievedCost (book : Book) (line : MovementLine) : Option (Money × Exact × Exact) :=
  lotCost book (lineKey line) line.lotId

/-- What a line relieves a long lot by. -/
def relievedBy (line : MovementLine) : Exact := (readOr line.quantity).negated

/-- The part of a lot's cost the quantity relieved carries. -/
def carriedPart (book : Book) (line : MovementLine) : Option Exact :=
  (relievedCost book line).bind fun cost => (share "cost" cost.2.1 (relievedBy line) cost.2.2).toOption

def carriedUnits (book : Book) (line : MovementLine) : Int := ((carriedPart book line).map Exact.units).getD 0

/-- The cost of the lot a line opens. -/
def openedCost (line : MovementLine) : Option Money := line.opensLot.bind LotTerms.cost

def openedUnits (line : MovementLine) : Int := ((amountOf (openedCost line)).map Exact.units).getD 0

/-- Every lot the lines relieve has a known cost. -/
def AllKnown (book : Book) (lines : List MovementLine) : Prop :=
  ∀ line ∈ lines, closes line = true → (relievedCost book line).isSome = true

/-- Lines that open lots at the cost they relieve, in its currency; at none, where it is unknown. -/
structure KeepsCost (book : Book) (lines : List MovementLine) : Prop where
  carried : AllKnown book lines → ∀ line ∈ lines, closes line = true → (carriedPart book line).isSome = true
  sums : AllKnown book lines → ((lines.filter fun line => !closes line).map openedUnits).sum =
    ((lines.filter closes).map (carriedUnits book)).sum
  currency : AllKnown book lines → ∀ relieved ∈ lines, closes relieved = true →
    ∀ opened ∈ lines, closes opened = false → ∃ cost money, relievedCost book relieved = some cost ∧
      openedCost opened = some money ∧ money.currencyCode = cost.1.currencyCode
  unknown : ¬ AllKnown book lines → ∀ opened ∈ lines, closes opened = false → openedCost opened = none

def exchangeKind : LifecycleEventKind → Bool
  | .tbaAllocation | .strip | .reconstitution => true
  | _ => false

/-- The exchanges an account has booked. -/
def Holder.exchanges (holder : Holder) : List Happened :=
  holder.happened.filter fun happened => exchangeKind happened.event.kind

/-- The lines of exchanges that took from a lot, each with its exchange. -/
def takenFrom (exchanges : List Happened) (lotId : String) : List (Happened × MovementLine) :=
  exchanges.flatMap fun exchange =>
    (exchange.lines.filter fun line => closes line && line.lotId == lotId).map fun line => (exchange, line)

/-- Each exchange carries the cost it relieves; and those that exhaust a lot, every cost they relieve
known and the lot's recorded the same at each, carry away its cost. -/
structure ExchangesKeepCost (holder : Holder) : Prop where
  each : ∀ exchange ∈ holder.exchanges, KeepsCost exchange.book exchange.lines
  exhausted : ∀ lotId cost original, takenFrom holder.exchanges lotId ≠ [] →
    (∀ taken ∈ takenFrom holder.exchanges lotId, AllKnown taken.1.book taken.1.lines ∧
      ∃ money, relievedCost taken.1.book taken.2 = some (money, cost, original)) →
    ((takenFrom holder.exchanges lotId).map fun taken => (relievedBy taken.2).units).sum = original.units →
    ((takenFrom holder.exchanges lotId).map fun taken => carriedUnits taken.1.book taken.2).sum = cost.units

/-- The lots the lines relieve are costed in one currency, and each one's cost times the part taken over
the whole ends within the cost's places. -/
structure DividesEvenly (book : Book) (lines : List MovementLine) : Prop where
  oneCurrency : ∀ line ∈ lines, closes line = true → ∀ cost ∈ relievedCost book line,
    ∀ other ∈ lines, closes other = true → ∀ cost' ∈ relievedCost book other, cost'.1.currencyCode = cost.1.currencyCode
  ends : ∀ line ∈ lines, closes line = true → ∀ cost ∈ relievedCost book line,
    EndsWithin (max cost.2.1.scale 2) (cost.2.1.value * (relievedBy line).value / cost.2.2.value)

instance (book : Book) (lines : List MovementLine) : Decidable (DividesEvenly book lines) :=
  decidable_of_iff
    ((∀ line ∈ lines, closes line = true → ∀ cost ∈ relievedCost book line,
      ∀ other ∈ lines, closes other = true → ∀ cost' ∈ relievedCost book other, cost'.1.currencyCode = cost.1.currencyCode) ∧
    ∀ line ∈ lines, closes line = true → ∀ cost ∈ relievedCost book line,
      EndsWithin (max cost.2.1.scale 2) (cost.2.1.value * (relievedBy line).value / cost.2.2.value))
    ⟨fun ⟨oneCurrency, ends⟩ => ⟨oneCurrency, ends⟩, fun evenly => ⟨evenly.oneCurrency, evenly.ends⟩⟩

/-- The lots an exchange sent relieves are relieved evenly. -/
def Sent.RelievesEvenly (holder : Holder) (sent : Sent) : Prop :=
  ∀ stated ∈ movedBy holder.book sent, exchangeKind stated.2.kind = true →
    ∀ act ∈ (sent.answer holder.book).toOption, DividesEvenly holder.book act.entry.body.lines

instance (holder : Holder) (sent : Sent) : Decidable (sent.RelievesEvenly holder) := by
  unfold Sent.RelievesEvenly
  infer_instance

section Costed

variable {book : Book} {ctx : Context} {lines more : List MovementLine} {cost : Option (Exact × Money)}

/-- What lines relieving lots cost together: the sum of the parts and the money of one of them, or
unknown where one of them is. -/
structure Costed (book : Book) (lines : List MovementLine) (cost : Option (Exact × Money)) : Prop where
  unknown : cost = none → ∃ line ∈ lines, relievedCost book line = none
  parts : ∀ carried ∈ cost, ∀ line ∈ lines, (carriedPart book line).isSome = true
  sum : ∀ carried ∈ cost, carried.1.units = (lines.map (carriedUnits book)).sum
  money : ∀ carried ∈ cost, lines ≠ [] → ∃ line ∈ lines, ∃ cost ∈ relievedCost book line, cost.1 = carried.2

theorem costed_nil : Costed book [] (some (Exact.zero, {})) where
  unknown := nofun
  parts := by simp
  sum := by simp
  money := by simp

/-- Where a line's cost is unknown, so is what the lines cost together. -/
theorem Costed.ofUnknown {line : MovementLine} (among : line ∈ lines) (unknown : relievedCost book line = none) :
    Costed book lines none where
  unknown := fun _ => ⟨line, among, unknown⟩
  parts := by simp
  sum := by simp
  money := by simp

/-- Two costs added, under the later one's money; unknown where either is. -/
def Adds : Option (Exact × Money) → Option (Exact × Money) → Option (Exact × Money) → Prop
  | some first, some second, both => ∃ sum, both = some (sum, second.2) ∧ sum.units = first.1.units + second.1.units
  | _, _, both => both = none

/-- Lines that relieve lots after others, each part costed. -/
theorem Costed.append {first second both : Option (Exact × Money)} (one : Costed book lines first)
    (other : Costed book more second) (some' : more ≠ []) (added : Adds first second both) :
    Costed book (lines ++ more) both := by
  cases first with
  | none =>
    obtain rfl : both = none := added
    obtain ⟨line, among, none'⟩ := one.unknown rfl
    exact Costed.ofUnknown (List.mem_append_left _ among) none'
  | some first =>
    cases second with
    | none =>
      obtain rfl : both = none := added
      obtain ⟨line, among, none'⟩ := other.unknown rfl
      exact Costed.ofUnknown (List.mem_append_right _ among) none'
    | some second =>
      obtain ⟨sum, rfl, summed⟩ := added
      refine ⟨nofun, ?_, ?_, ?_⟩
      · rintro _ ⟨⟩ line among
        exact (List.mem_append.mp among).elim (one.parts first rfl line) (other.parts second rfl line)
      · rintro _ ⟨⟩
        rw [summed, one.sum first rfl, other.sum second rfl, List.map_append, List.sum_append]
      · rintro _ ⟨⟩ _
        obtain ⟨line, among, held⟩ := other.money second rfl some'
        exact ⟨line, List.mem_append_right _ among, held⟩

/-- What relieving a position's lots gives: lines that each close a lot, and what they cost. -/
structure RelievesLots (book : Book) (relieved : Relieved) : Prop where
  closing : ∀ line ∈ relieved.lines, closes line = true
  costed : Costed book relieved.lines relieved.cost

theorem relieveLot_ok {instrument : String} {lots : List LotView} {relieved after : Relieved} {take : String × Exact}
    (answered : relieveLot book (longKey instrument) lots relieved take = .ok after) (relieves : RelievesLots book relieved) :
    RelievesLots book after ∧ after.lines ≠ [] := by
  unfold relieveLot at answered
  dsimp only at answered
  generalize stated : ({ settledLine (longKey instrument).instrument .long take.2.negated with lotId := take.1 } : MovementLine) =
    line at answered
  have keyed : lotCost book (longKey instrument) take.1 = relievedCost book line := by
    rw [← stated]
    rfl
  have by_ : relievedBy line = take.2 := by
    rw [← stated]
    obtain ⟨named, integer, scale, low, digits⟩ := take
    simp [relievedBy, settledLine, readOr, readExact, numbers.wire, Exact.negated, Except.toOption]
  have closing : closes line = true := by
    rw [← stated]
    rfl
  have after_ok {cost : Option (Exact × Money)} {second : Option (Exact × Money)} {earliest : String}
      (own : Costed book [line] second) (added : Adds relieved.cost second cost) :
      RelievesLots book { lines := relieved.lines ++ [line], cost, earliest } ∧ relieved.lines ++ [line] ≠ [] := by
    refine ⟨⟨fun other among => ?_, relieves.costed.append own (by simp) added⟩, by simp⟩
    rcases List.mem_append.mp among with earlier | last
    · exact relieves.closing other earlier
    · rw [List.mem_singleton.mp last]
      exact closing
  have unknown (none' : relievedCost book line = none) : Costed book [line] none :=
    Costed.ofUnknown (List.mem_singleton_self line) none'
  rw [keyed] at answered
  cases known : relievedCost book line with
  | none =>
    rw [known] at answered
    cases held : relieved.cost <;>
      · rw [held] at answered
        cases answered
        exact after_ok (unknown known) (by rw [held]; rfl)
  | some own =>
    obtain ⟨money, amount, original⟩ := own
    rw [known] at answered
    cases held : relieved.cost with
    | none =>
      rw [held] at answered
      cases answered
      obtain ⟨earlier, among, none'⟩ := relieves.costed.unknown held
      refine ⟨⟨fun other among => ?_, Costed.ofUnknown (List.mem_append_left _ among) none'⟩, by simp⟩
      rcases List.mem_append.mp among with earlier | last
      · exact relieves.closing other earlier
      · rw [List.mem_singleton.mp last]
        exact closing
    | some sum =>
      rw [held] at answered
      obtain ⟨part, shared, answered⟩ := bind_ok.mp answered
      obtain ⟨both, summed, answered⟩ := bind_ok.mp answered
      cases answered
      have carried : carriedPart book line = some part := by
        rw [carriedPart, known, Option.bind_some, by_, shared]
        rfl
      refine @after_ok _ (some (part, money)) _ ⟨by simp, ?_, ?_, ?_⟩ (held ▸ ⟨both, rfl, add_ok summed⟩)
      · simp [carried]
      · simp [carriedUnits, carried]
      · intro carried same _
        obtain rfl := Option.some.inj same
        exact ⟨line, List.mem_singleton_self line, _, known, rfl⟩

theorem relieveLots_ok {instrument : String} {lots : List LotView} {takes : List (String × Exact)}
    {relieved after : Relieved} (answered : takes.foldlM (relieveLot book (longKey instrument) lots) relieved = .ok after)
    (relieves : RelievesLots book relieved) :
    RelievesLots book after ∧ (takes ≠ [] ∨ relieved.lines ≠ [] → after.lines ≠ []) := by
  induction takes generalizing relieved with
  | nil =>
    cases answered
    exact ⟨relieves, fun either => either.elim (absurd rfl) id⟩
  | cons take rest ih =>
    rw [List.foldlM_cons] at answered
    obtain ⟨next, one, answered⟩ := bind_ok.mp answered
    obtain ⟨nextOk, some'⟩ := relieveLot_ok one relieves
    obtain ⟨last, lines⟩ := ih answered nextOk
    exact ⟨last, fun _ => lines (.inr some')⟩

theorem takes_of_positive {lots : List LotView} {quantity : Exact} {method : LotReliefMethod} {named : List String}
    {takes : List (String × Exact)} (relieved : relief lots quantity method named = .ok takes) (some' : lots ≠ [])
    (positive : quantity.units ≠ 0) : takes ≠ [] := by
  rintro rfl
  have taken := relieve_takes relieved
  have among : relievedOrder lots method named ≠ [] := by
    intro none'
    have perm := @relievedOrder_perm lots method named
    rw [none'] at perm
    exact some' perm.symm.eq_nil
  obtain ⟨lot, rest, listed⟩ := List.exists_cons_of_ne_nil among
  rw [listed, List.map_cons, LotView.entry, allot, if_neg positive] at taken
  cases taken

/-- A long position relieved by some quantity: lines that close lots, at least one, and what they cost. -/
theorem relieveLong_ok {instrumentId path : String} {quantity : Exact} {method : LotReliefMethod} {relieved : Relieved}
    (answered : relieveLong book ctx instrumentId quantity method lines path = .ok relieved) (positive : 0 < quantity.units) :
    RelievesLots book relieved ∧ relieved.lines ≠ [] := by
  unfold relieveLong at answered
  obtain ⟨lots, opened, answered⟩ := bind_ok.mp answered
  obtain ⟨held, summed, answered⟩ := bind_ok.mp answered
  obtain ⟨enough, answered⟩ := guard_ok.mp answered
  obtain ⟨takes, taken, answered⟩ := bind_ok.mp answered
  have some' : lots ≠ [] := by
    rintro rfl
    cases summed
    rw [Exact.less_iff, Exact.units_zero] at enough
    exact enough positive
  obtain ⟨relieves, lines⟩ := relieveLots_ok answered ⟨by simp, costed_nil⟩
  exact ⟨relieves, lines (.inl (takes_of_positive taken some' positive.ne'))⟩

/-- What closing each component's lots gives, after others closed. -/
theorem closeEach_ok {method : LotReliefMethod} {i : Nat} {deliveries : List LifecycleDelivery} {total after : Relieved}
    (answered : closeEach book ctx method i deliveries total = .ok after) (relieves : RelievesLots book total)
    (delivered : ∀ delivery ∈ deliveries, ∀ face ∈ readExact delivery.quantity, face.units < 0) :
    RelievesLots book after ∧ (deliveries ≠ [] ∨ total.lines ≠ [] → after.lines ≠ []) := by
  induction deliveries generalizing i total with
  | nil =>
    cases answered
    exact ⟨relieves, fun either => either.elim (absurd rfl) id⟩
  | cons delivery rest ih =>
    rw [closeEach] at answered
    obtain ⟨face, read, answered⟩ := bind_ok.mp answered
    obtain ⟨relieved, closed, answered⟩ := bind_ok.mp answered
    have below := delivered delivery List.mem_cons_self face (required_read read)
    obtain ⟨own, some'⟩ := relieveLong_ok closed (by rw [Exact.units_negated]; omega)
    have later {cost : Option (Exact × Money)} {earliest : String} (added : Adds total.cost relieved.cost cost)
        (answered : closeEach book ctx method (i + 1) rest
          { lines := total.lines ++ relieved.lines, cost, earliest } = .ok after) :
        RelievesLots book after ∧ (delivery :: rest ≠ [] ∨ total.lines ≠ [] → after.lines ≠ []) := by
      have next : RelievesLots book { lines := total.lines ++ relieved.lines, cost, earliest } := by
        refine ⟨fun line among => ?_, relieves.costed.append own.costed some' added⟩
        exact (List.mem_append.mp among).elim (relieves.closing line) (own.closing line)
      obtain ⟨last, lines⟩ := ih answered next fun other member => delivered other (List.mem_cons_of_mem _ member)
      exact ⟨last, fun _ => lines (.inr (by simp [some']))⟩
    cases first : total.cost with
    | none =>
      rw [first] at answered
      exact later (by rw [first]; rfl) answered
    | some sum =>
      rw [first] at answered
      cases second : relieved.cost with
      | none =>
        rw [second] at answered
        exact later (by rw [first, second]; rfl) answered
      | some part =>
        rw [second] at answered
        obtain ⟨both, summed, answered⟩ := bind_ok.mp answered
        exact later (by rw [first, second]; exact ⟨both, rfl, add_ok summed⟩) answered

end Costed

section Spread

theorem spreadFrom_ok {total whole given : Exact} {weights parts : List Exact}
    (answered : spreadFrom total whole given weights = .ok parts) :
    parts.length = weights.length ∧ (weights ≠ [] → (parts.map Exact.units).sum = total.units - given.units) := by
  induction weights generalizing given parts with
  | nil =>
    cases answered
    exact ⟨rfl, absurd rfl⟩
  | cons weight rest ih =>
    cases rest with
    | nil =>
      rw [spreadFrom] at answered
      obtain ⟨part, rests, answered⟩ := bind_ok.mp answered
      obtain ⟨-, -, answered⟩ := bind_ok.mp answered
      cases answered
      refine ⟨rfl, fun _ => ?_⟩
      rw [List.map_cons, List.map_nil, List.sum_singleton, add_ok rests, Exact.units_negated]
      omega
    | cons next others =>
      rw [spreadFrom] at answered
      · obtain ⟨part, shared, answered⟩ := bind_ok.mp answered
        obtain ⟨after, added, answered⟩ := bind_ok.mp answered
        obtain ⟨later, spread', answered⟩ := bind_ok.mp answered
        cases answered
        obtain ⟨length, sum⟩ := ih spread'
        refine ⟨by rw [List.length_cons, length]; rfl, fun _ => ?_⟩
        rw [List.map_cons, List.sum_cons, sum (by simp), add_ok added]
        omega
      · simp

/-- The parts a cost is spread over sum to it. -/
theorem spread_ok {total : Exact} {weights parts : List Exact} (answered : spread total weights = .ok parts) :
    parts.length = weights.length ∧ (weights ≠ [] → (parts.map Exact.units).sum = total.units) := by
  unfold spread at answered
  obtain ⟨whole, -, answered⟩ := bind_ok.mp answered
  obtain ⟨length, sum⟩ := spreadFrom_ok answered
  exact ⟨length, fun some' => by rw [sum some', Exact.units_zero, Int.sub_zero]⟩

theorem weigh_length {event : LifecycleEvent} {i : Nat} {deliveries : List LifecycleDelivery} {weights : List Exact}
    (answered : weigh event i deliveries = .ok weights) : weights.length = deliveries.length := by
  induction deliveries generalizing i weights with
  | nil =>
    cases answered
    rfl
  | cons delivery rest ih =>
    rw [weigh] at answered
    obtain ⟨face, -, answered⟩ := bind_ok.mp answered
    have later {weight : Exact} (answered : (do
        let weights ← weigh event (i + 1) rest
        return weight :: weights) = Except.ok weights) : weights.length = (delivery :: rest).length := by
      obtain ⟨others, weighed, answered⟩ := bind_ok.mp answered
      cases answered
      rw [List.length_cons, ih weighed, List.length_cons]
    split at answered
    · obtain ⟨priced, -, answered⟩ := bind_ok.mp answered
      obtain ⟨weight, -, answered⟩ := bind_ok.mp answered
      exact later answered
    · exact later answered

end Spread

section Moved

variable {book : Book} {ctx : Context} {event : LifecycleEvent} {method : LotReliefMethod} {quantity : Exact} {moves : Moved}

/-- A lot's cost as an exchange opens it: the part carried, in the money relieved. -/
def stampedCost (carried : Exact × Money) : Money := { carried.2 with amount := numbers.wire carried.1 }

theorem openEach_ok {earliest : String} {pairs : List (LifecycleDelivery × Option (Exact × Money))}
    {lines after : List MovementLine} (answered : openEach book ctx event earliest pairs lines = .ok after) :
    ∃ more, after = lines ++ more ∧ (∀ line ∈ more, closes line = false) ∧
      more.map openedCost = pairs.map fun pair => pair.2.map stampedCost := by
  induction pairs generalizing lines with
  | nil =>
    cases answered
    exact ⟨[], by simp⟩
  | cons pair rest ih =>
    obtain ⟨delivery, cost⟩ := pair
    rw [openEach] at answered
    obtain ⟨face, -, answered⟩ := bind_ok.mp answered
    obtain ⟨more, rfl, opens, costs⟩ := ih answered
    refine ⟨opened book ctx delivery.instrumentId face cost event earliest lines :: more, by simp, ?_, ?_⟩
    · intro line among
      rcases List.mem_cons.mp among with rfl | later
      · rfl
      · exact opens line later
    · rw [List.map_cons, costs, List.map_cons]
      rfl

theorem amountOf_stamped (carried : Exact × Money) : amountOf (some (stampedCost carried)) = some carried.1 := by
  simp [amountOf, stampedCost, readExact, numbers.wire, Except.toOption]

theorem allKnown_append {closing opening : List MovementLine} (closed : ∀ line ∈ closing, closes line = true)
    (opens : ∀ line ∈ opening, closes line = false) :
    AllKnown book (closing ++ opening) ↔ ∀ line ∈ closing, (relievedCost book line).isSome = true := by
  constructor
  · intro known line among
    exact known line (List.mem_append_left _ among) (closed line among)
  · intro known line among closing'
    rcases List.mem_append.mp among with earlier | later
    · exact known line earlier
    · rw [opens line later] at closing'
      cases closing'

/-- Lines that close lots, then open others at what was relieved: in one money and to the same sum, or
all at no known cost. -/
theorem keepsCost_of {relieved : Relieved} {opening : List MovementLine} (relieves : RelievesLots book relieved)
    (some' : relieved.lines ≠ []) (opens : ∀ line ∈ opening, closes line = false)
    (known : ∀ carried ∈ relieved.cost, (opening.map openedUnits).sum = carried.1.units ∧
      ∀ line ∈ opening, ∃ money, openedCost line = some money ∧ money.currencyCode = carried.2.currencyCode)
    (unknown : relieved.cost = none → ∀ line ∈ opening, openedCost line = none)
    (evenly : DividesEvenly book (relieved.lines ++ opening)) : KeepsCost book (relieved.lines ++ opening) := by
  have closing : (relieved.lines ++ opening).filter closes = relieved.lines := by
    rw [List.filter_append, List.filter_eq_self.mpr relieves.closing,
      List.filter_eq_nil_iff.mpr fun line among => by simp [opens line among], List.append_nil]
  have opened' : (relieved.lines ++ opening).filter (fun line => !closes line) = opening := by
    rw [List.filter_append, List.filter_eq_nil_iff.mpr fun line among => by simp [relieves.closing line among],
      List.nil_append, List.filter_eq_self.mpr fun line among => by simp [opens line among]]
  have stated (all : AllKnown book (relieved.lines ++ opening)) : ∃ carried, relieved.cost = some carried := by
    rw [← Option.isSome_iff_exists, ← Option.ne_none_iff_isSome]
    intro none'
    obtain ⟨line, among, nothing⟩ := relieves.costed.unknown none'
    have held := (allKnown_append relieves.closing opens).mp all line among
    rw [nothing] at held
    cases held
  have isOpened {line : MovementLine} (among : line ∈ relieved.lines ++ opening) (open' : closes line = false) :
      line ∈ opening := by
    rcases List.mem_append.mp among with earlier | later
    · rw [relieves.closing line earlier] at open'
      cases open'
    · exact later
  have isClosing {line : MovementLine} (among : line ∈ relieved.lines ++ opening) (closed : closes line = true) :
      line ∈ relieved.lines := by
    rcases List.mem_append.mp among with earlier | later
    · exact earlier
    · rw [opens line later] at closed
      cases closed
  refine ⟨fun all line among closed => ?_, fun all => ?_, fun all line among closed other open' opensOther => ?_,
    fun some'' other open' opensOther => ?_⟩
  · obtain ⟨carried, cost⟩ := stated all
    exact relieves.costed.parts carried cost line (isClosing among closed)
  · obtain ⟨carried, cost⟩ := stated all
    rw [opened', closing, (known carried cost).1, relieves.costed.sum carried cost]
  · obtain ⟨carried, cost⟩ := stated all
    obtain ⟨first, held, own, inMoney, money⟩ := relieves.costed.money carried cost some'
    obtain ⟨stamped, opened', currency⟩ := (known carried cost).2 other (isOpened open' opensOther)
    have isKnown := (allKnown_append relieves.closing opens).mp all line (isClosing among closed)
    obtain ⟨cost', held'⟩ := Option.isSome_iff_exists.mp isKnown
    refine ⟨cost', stamped, held', opened', ?_⟩
    rw [currency, ← money]
    exact evenly.oneCurrency line among closed cost' held' first (List.mem_append_left _ held)
      (relieves.closing first held) own inMoney
  · refine unknown ?_ other (isOpened open' opensOther)
    by_contra known'
    refine some'' ((allKnown_append relieves.closing opens).mpr fun line among => ?_)
    obtain ⟨carried, cost⟩ := Option.ne_none_iff_exists'.mp known'
    have part := relieves.costed.parts carried cost line among
    unfold carriedPart at part
    cases held : relievedCost book line with
    | none =>
      rw [held] at part
      cases part
    | some cost => rfl

/-- A TBA allocation or a strip carries the cost it relieves to the lots it opens. -/
theorem keepsCost_exchange (answered : exchangeMoved book ctx event method quantity = .ok moves)
    (positive : 0 < quantity.units) (delivered : event.deliveries ≠ []) (evenly : DividesEvenly book moves.lines) :
    KeepsCost book moves.lines := by
  unfold exchangeMoved at answered
  obtain ⟨relieved, closed, answered⟩ := bind_ok.mp answered
  obtain ⟨weights, weighed, answered⟩ := bind_ok.mp answered
  have lengths := weigh_length weighed
  obtain ⟨relieves, some'⟩ := relieveLong_ok closed positive
  cases cost : relieved.cost with
  | none =>
    rw [cost] at answered
    obtain ⟨costs', held, answered⟩ := bind_ok.mp answered
    cases held
    obtain ⟨lines, each, answered⟩ := bind_ok.mp answered
    cases answered
    obtain ⟨more, rfl, opens, costs⟩ := openEach_ok each
    refine keepsCost_of relieves some' opens (by simp [cost]) (fun _ line among => ?_) evenly
    have listed := List.mem_map_of_mem (f := openedCost) among
    rw [costs] at listed
    obtain ⟨pair, zipped, same⟩ := List.mem_map.mp listed
    have nothing := (List.of_mem_zip (a := pair.1) (b := pair.2) zipped).2
    obtain ⟨-, -, none'⟩ := List.mem_map.mp nothing
    rw [← same, ← none']
    rfl
  | some carried =>
    obtain ⟨total, money⟩ := carried
    rw [cost] at answered
    obtain ⟨parts, spread', answered⟩ := bind_ok.mp answered
    obtain ⟨costs', held, answered⟩ := bind_ok.mp answered
    cases held
    obtain ⟨lines, each, answered⟩ := bind_ok.mp answered
    cases answered
    obtain ⟨more, rfl, opens, costs⟩ := openEach_ok each
    obtain ⟨length, sum⟩ := spread_ok spread'
    have total' := sum fun none' => delivered (List.length_eq_zero_iff.mp (by rw [← lengths, none']; rfl))
    have stamped : more.map openedCost = parts.map fun part => some (stampedCost (part, money)) := by
      have carried' : (event.deliveries.zip (parts.map fun part => some (part, money))).map Prod.snd =
          parts.map fun part => some (part, money) := List.map_snd_zip (by simp [length, lengths])
      rw [costs, show (fun pair : LifecycleDelivery × Option (Exact × Money) => pair.2.map stampedCost) =
        Option.map stampedCost ∘ Prod.snd from rfl, ← List.map_map, carried', List.map_map]
      rfl
    refine keepsCost_of relieves some' opens ?_ (by simp [cost]) evenly
    rw [cost]
    rintro _ ⟨⟩
    constructor
    · have units : more.map openedUnits = parts.map Exact.units := by
        have read := congrArg (List.map fun cost => ((amountOf cost).map Exact.units).getD 0) stamped
        rw [List.map_map, List.map_map] at read
        rw [show openedUnits = (fun cost => ((amountOf cost).map Exact.units).getD 0) ∘ openedCost from rfl, read]
        refine List.map_congr_left fun part _ => ?_
        rw [Function.comp_apply, amountOf_stamped]
        rfl
      rw [units, total']
    · intro line among
      have listed := List.mem_map_of_mem (f := openedCost) among
      rw [stamped] at listed
      obtain ⟨part, -, same⟩ := List.mem_map.mp listed
      exact ⟨_, same.symm, rfl⟩

/-- A reconstitution carries the cost of the components to the whole bond's lot. -/
theorem keepsCost_reconstitution (answered : reconstitutionMoved book ctx event method quantity = .ok moves)
    (delivered : event.deliveries ≠ [])
    (below : ∀ delivery ∈ event.deliveries, ∀ face ∈ readExact delivery.quantity, face.units < 0)
    (evenly : DividesEvenly book moves.lines) : KeepsCost book moves.lines := by
  unfold reconstitutionMoved at answered
  obtain ⟨total, closed, answered⟩ := bind_ok.mp answered
  cases answered
  obtain ⟨relieves, lines⟩ := closeEach_ok closed ⟨by simp, costed_nil⟩ below
  have costed : openedCost (opened book ctx event.instrumentId quantity total.cost event total.earliest total.lines) =
      total.cost.map stampedCost := rfl
  refine keepsCost_of relieves (lines (.inl delivered)) (fun line among => ?_) ?_ (fun none' line among => ?_) evenly
  · rw [List.mem_singleton.mp among]
    rfl
  · intro carried cost
    have stamped : total.cost = some carried := cost
    rw [stamped] at costed
    refine ⟨?_, fun line among => ?_⟩
    · rw [List.map_singleton, List.sum_singleton, openedUnits, stamped, costed, Option.map_some, amountOf_stamped]
      rfl
    · rw [List.mem_singleton.mp among, stamped]
      exact ⟨_, costed, rfl⟩
  · rw [List.mem_singleton.mp among, costed, none']
    rfl

end Moved

section Checked

variable {book : Book} {ctx : Context} {event : LifecycleEvent} {path : String}

theorem eachDelivery_ok {check : Nat → LifecycleDelivery → Result Unit} {i : Nat} {deliveries : List LifecycleDelivery}
    (passed : eachDelivery check i deliveries = .ok ()) : ∀ delivery ∈ deliveries, ∃ i, check i delivery = .ok () := by
  induction deliveries generalizing i with
  | nil => simp
  | cons delivery rest ih =>
    rw [eachDelivery] at passed
    obtain ⟨⟨⟩, first, later⟩ := bind_ok.mp passed
    intro other member
    rcases List.mem_cons.mp member with rfl | among
    · exact ⟨i, first⟩
    · exact ih later other among

theorem kindChecked_debt {kind : InstrumentType} (passed : kindChecked event kind path = .ok ()) :
    debtKind event.kind = kind.isDebt := by
  unfold kindChecked at passed
  obtain ⟨-, passed⟩ := guard_ok.mp passed
  obtain ⟨-, passed⟩ := guard_ok.mp passed
  exact not_not.mp (guard_ok.mp passed).1

/-- What each of an exchange's kinds is checked by. -/
theorem debtChecked_exchange {kind : InstrumentType} (passed : debtChecked ctx event kind path = .ok ())
    (exchange : exchangeKind event.kind = true) :
    (event.kind = .tbaAllocation ∧ allocationChecked ctx event kind path = .ok ()) ∨
      (event.kind ≠ .tbaAllocation ∧ exchangeChecked ctx event kind path = .ok ()) := by
  unfold debtChecked at passed
  dsimp only at passed
  cases named : event.kind <;> rw [named] at passed exchange
  case tbaAllocation =>
    refine .inl ⟨rfl, ?_⟩
    split at passed
    · obtain ⟨-, -, passed⟩ := bind_ok.mp passed
      exact (guard_ok.mp passed).2
    · exact (guard_ok.mp passed).2
  case strip =>
    refine .inr ⟨by decide, ?_⟩
    split at passed
    · obtain ⟨-, -, passed⟩ := bind_ok.mp passed
      exact (guard_ok.mp passed).2
    · exact (guard_ok.mp passed).2
  case reconstitution =>
    refine .inr ⟨by decide, ?_⟩
    split at passed
    · obtain ⟨-, -, passed⟩ := bind_ok.mp passed
      exact (guard_ok.mp passed).2
    · exact (guard_ok.mp passed).2
  all_goals cases exchange

theorem componentChecked_below {whole : String} {i : Nat} {delivery : LifecycleDelivery}
    (passed : componentChecked ctx whole false path i delivery = .ok ()) :
    ∀ face ∈ readExact delivery.quantity, face.units < 0 := by
  unfold componentChecked at passed
  obtain ⟨-, passed⟩ := guard_ok.mp passed
  obtain ⟨moved, read, passed⟩ := bind_ok.mp passed
  obtain ⟨sign, -⟩ := guard_ok.mp passed
  intro face stated
  obtain rfl : moved = face := Option.some.inj ((required_read read).symm.trans stated)
  rwa [← Exact.isNegative_iff, ← Bool.not_eq_false]

/-- What an exchange's check leaves of what it stated: a quantity above zero, and its deliveries, each
component a reconstitution closes a negative face. -/
theorem exchange_checked (passed : checked book ctx event path = .ok ()) (exchange : exchangeKind event.kind = true) :
    (∀ quantity ∈ readExact event.quantity, 0 < quantity.units) ∧ event.deliveries ≠ [] ∧
      (event.kind = .reconstitution →
        ∀ delivery ∈ event.deliveries, ∀ face ∈ readExact delivery.quantity, face.units < 0) := by
  have debt : debtKind event.kind = true := by
    cases kind : event.kind <;> rw [kind] at exchange <;> first | rfl | cases exchange
  have notVariation : event.kind ≠ .settlementVariation := by
    intro variation
    rw [variation] at debt
    cases debt
  unfold checked at passed
  obtain ⟨-, passed⟩ := guard_ok.mp passed
  obtain ⟨⟨⟩, -, passed⟩ := bind_ok.mp passed
  dsimp only at passed
  obtain ⟨⟨⟩, kinds, passed⟩ := bind_ok.mp passed
  obtain ⟨quantity, read, passed⟩ := bind_ok.mp passed
  obtain ⟨positive, passed⟩ := guard_ok.mp passed
  obtain ⟨-, passed⟩ := guard_ok.mp passed
  rw [if_neg notVariation] at passed
  obtain ⟨⟨⟩, -, passed⟩ := bind_ok.mp passed
  rw [if_pos ((kindChecked_debt kinds).symm.trans debt)] at passed
  have above : 0 < quantity.units := by
    rw [not_or, Exact.isZero_iff, Exact.isNegative_iff] at positive
    omega
  refine ⟨fun other stated => ?_, ?_⟩
  · obtain rfl : quantity = other := Option.some.inj ((required_read read).symm.trans stated)
    exact above
  · rcases debtChecked_exchange passed exchange with ⟨allocation, held⟩ | ⟨other, held⟩
    · unfold allocationChecked at held
      obtain ⟨-, held⟩ := guard_ok.mp held
      refine ⟨(guard_ok.mp held).1, fun reconstitution => ?_⟩
      rw [allocation] at reconstitution
      cases reconstitution
    · unfold exchangeChecked at held
      obtain ⟨-, held⟩ := guard_ok.mp held
      obtain ⟨some', held⟩ := guard_ok.mp held
      refine ⟨some', fun reconstitution delivery among => ?_⟩
      rw [reconstitution] at held
      obtain ⟨i, component⟩ := eachDelivery_ok held delivery among
      exact componentChecked_below component

end Checked

section Run

variable {holder : Holder} {sent : Sent}

/-- An exchange booked carries the cost it relieves, where it relieves evenly. -/
theorem keepsCost_booked {exchange : Happened} (kind : exchangeKind exchange.event.kind = true) (booked : exchange.Booked)
    (evenly : DividesEvenly exchange.book exchange.lines) : KeepsCost exchange.book exchange.lines := by
  obtain ⟨path, passed⟩ := booked.passed
  obtain ⟨moves, moving, lines⟩ := booked.moving
  obtain ⟨positive, delivered, below⟩ := exchange_checked passed kind
  rw [lines] at evenly ⊢
  unfold moved at moving
  have debt : debtKind exchange.event.kind = true := by
    cases named : exchange.event.kind <;> rw [named] at kind <;> first | rfl | cases kind
  rw [if_pos debt] at moving
  unfold debtMoved at moving
  obtain ⟨quantity, read, moving⟩ := bind_ok.mp moving
  have above := positive quantity (required_read read)
  cases named : exchange.event.kind <;> rw [named] at moving kind
  case tbaAllocation => exact keepsCost_exchange moving above delivered evenly
  case strip => exact keepsCost_exchange moving above delivered evenly
  case reconstitution => exact keepsCost_reconstitution moving delivered (below named) evenly
  all_goals cases kind

/-- The exchanges of an account that relieves evenly: each booked, and each relieved evenly. -/
structure Even (holder : Holder) : Prop where
  booked : ∀ exchange ∈ holder.exchanges, exchange.Booked
  evenly : ∀ exchange ∈ holder.exchanges, DividesEvenly exchange.book exchange.lines

theorem even_step (even : Even holder) (evenly : sent.RelievesEvenly holder) : Even (hold holder sent) := by
  have kept {after : Holder} (same : after.happened = holder.happened) : Even after := by
    have exchanges : after.exchanges = holder.exchanges := by rw [Holder.exchanges, same, Holder.exchanges]
    exact ⟨exchanges ▸ even.booked, exchanges ▸ even.evenly⟩
  rcases hold_cases holder sent with same | ⟨-, same⟩ | ⟨-, same | ⟨ctx, event, act, moving, answer, booked, happened⟩⟩
  · rw [same]
    exact even
  · exact kept same
  · exact kept same
  · have among (exchange : Happened) (member : exchange ∈ (hold holder sent).exchanges) :
        exchange ∈ holder.exchanges ∨ exchange = ⟨holder.book, ctx, event, act.entry.body.lines⟩ ∧
          exchangeKind event.kind = true := by
      rw [Holder.exchanges, happened, List.filter_append, List.mem_append, List.mem_filter] at member
      rcases member with earlier | last
      · exact .inl (List.mem_filter.mpr earlier)
      · obtain ⟨same, kind⟩ := List.mem_filter.mp last
        rw [List.mem_singleton.mp same] at kind ⊢
        exact .inr ⟨rfl, kind⟩
    refine ⟨fun exchange member => ?_, fun exchange member => ?_⟩
    · rcases among exchange member with earlier | ⟨rfl, -⟩
      · exact even.booked exchange earlier
      · exact booked
    · rcases among exchange member with earlier | ⟨rfl, kind⟩
      · exact even.evenly exchange earlier
      · exact evenly _ moving kind act (by rw [answer]; rfl)

/-- What an even exchange takes from a lot is the lot's cost, over the whole, times the quantity taken. -/
theorem Even.carriedUnits_eq (even : Even holder) {lotId : String} {taken : Happened × MovementLine} {money : Money}
    {cost original : Exact} (among : taken ∈ takenFrom holder.exchanges lotId)
    (all : AllKnown taken.1.book taken.1.lines) (known : relievedCost taken.1.book taken.2 = some (money, cost, original)) :
    original.units ≠ 0 ∧ (carriedUnits taken.1.book taken.2 : ℚ) =
      cost.value / original.value * ((relievedBy taken.2).units : ℚ) := by
  obtain ⟨exchange, member, listed⟩ := List.mem_flatMap.mp among
  obtain ⟨line, filtered, rfl⟩ := List.mem_map.mp listed
  obtain ⟨inLines, closing⟩ := List.mem_filter.mp filtered
  obtain ⟨closing, -⟩ := Bool.and_eq_true_iff.mp closing
  dsimp only at all known ⊢
  have evenly := even.evenly exchange member
  have kept := keepsCost_booked (List.mem_filter.mp member).2 (even.booked exchange member) evenly
  obtain ⟨part, carried⟩ := Option.isSome_iff_exists.mp (kept.carried all line inLines closing)
  have ends := evenly.ends line inLines closing _ known
  have shared := carried
  rw [carriedPart, known, Option.bind_some] at shared
  cases answer : share "cost" cost (relievedBy line) original with
  | error out =>
    rw [answer] at shared
    cases shared
  | ok value =>
    rw [answer] at shared
    cases shared
    obtain ⟨nonzero, -, worth⟩ := share_value answer
    refine ⟨nonzero, ?_⟩
    rw [atPlaces_of_ends ends] at worth
    rw [carriedUnits, carried, Option.map_some, Option.getD_some, ← Exact.value_units, worth, ← Exact.value_units]
    ring

/-- Parts that end within the cost's places sum to the cost once they exhaust the lot. -/
theorem Even.exhausted (even : Even holder) {lotId : String} {cost original : Exact}
    (some' : takenFrom holder.exchanges lotId ≠ [])
    (recorded : ∀ taken ∈ takenFrom holder.exchanges lotId, AllKnown taken.1.book taken.1.lines ∧
      ∃ money, relievedCost taken.1.book taken.2 = some (money, cost, original))
    (whole : ((takenFrom holder.exchanges lotId).map fun taken => (relievedBy taken.2).units).sum = original.units) :
    ((takenFrom holder.exchanges lotId).map fun taken => carriedUnits taken.1.book taken.2).sum = cost.units := by
  have each (taken : Happened × MovementLine) (among : taken ∈ takenFrom holder.exchanges lotId) :
      original.units ≠ 0 ∧ (carriedUnits taken.1.book taken.2 : ℚ) =
        cost.value / original.value * ((relievedBy taken.2).units : ℚ) := by
    obtain ⟨all, money, known⟩ := recorded taken among
    exact even.carriedUnits_eq among all known
  generalize takenFrom holder.exchanges lotId = takes at some' each whole
  obtain ⟨first, rest, listed⟩ := List.exists_cons_of_ne_nil some'
  have nonzero := (each first (by simp [listed])).1
  have sum : ∀ part : List (Happened × MovementLine), part ⊆ takes →
      ((part.map fun taken => carriedUnits taken.1.book taken.2).sum : ℚ) =
        cost.value / original.value * ((part.map fun taken => (relievedBy taken.2).units).sum : ℚ) := by
    intro part within
    induction part with
    | nil => simp
    | cons taken later ih =>
      have own := (each taken (within List.mem_cons_self)).2
      have others := ih fun other member => within (List.mem_cons_of_mem _ member)
      rw [List.map_cons, List.sum_cons, List.map_cons, List.sum_cons]
      push_cast
      push_cast at others
      rw [own, others]
      ring
  have total := sum takes (List.Subset.refl takes)
  rw [whole] at total
  have apart : original.value ≠ 0 := by
    intro zero
    rw [← Exact.value_of_units] at zero
    have positive : (10 : ℚ) ^ places ≠ 0 := by positivity
    rw [div_eq_zero_iff] at zero
    exact zero.elim (fun none' => nonzero (by exact_mod_cast none')) positive
  have exact' : (((takes.map fun taken => carriedUnits taken.1.book taken.2).sum : Int) : ℚ) = (cost.units : ℚ) := by
    rw [total, ← Exact.value_units original, ← Exact.value_units cost]
    field_simp
  exact_mod_cast exact'

end Run

/-- In a run whose exchanges relieve evenly, every exchange keeps cost, and those that exhaust a lot carry
its cost away; a share that answers is the exact quotient rounded half-even at the cost's places. -/
theorem exchanges_keep_cost {accountId partition : String} {sents : List Sent} {holder : Holder}
    (run : Run (fun before sent after => sent.RelievesEvenly before ∧ hold before sent = after)
      { book := Book.new accountId partition } sents holder) :
    ExchangesKeepCost holder ∧
      ∀ field cost part whole shared, share field cost part whole = .ok shared →
        shared.scale = max cost.scale 2 ∧
          shared.value = atPlaces (max cost.scale 2) (cost.value * part.value / whole.value) := by
  have even : Even holder := by
    refine run.invariant_of Even ⟨by simp [Holder.exchanges], by simp [Holder.exchanges]⟩ ?_
    rintro before sent after even evenly rfl
    exact even_step even evenly
  refine ⟨⟨fun exchange member => ?_, fun lotId cost original => even.exhausted⟩, fun _ _ _ _ _ answered => (share_value answered).2⟩
  exact keepsCost_booked (List.mem_filter.mp member).2 (even.booked exchange member) (even.evenly exchange member)

def poolDesk (step : String) : Context where
  instanceId := "SERVICING-1"
  records := ((∅ : BTreeMap String RecordSays).insert "TBA-1" { instrumentType := .tba, debt := some {} }).insert "POOL-1"
    { instrumentType := .mbsPool, debt := some {} }
  minted identifier count := identifier ++ "-" ++ step ++ toString count

/-- An account that enters with three of a TBA in one lot, its cost so many cents. -/
def enteredWith (cents : Int) : Sent :=
  .other 0 {} {
    entryId := "ENT-1"
    kind := "opening-balance"
    effectiveDate := "2026-01-02"
    body := {
      opening := some { entryId := "ENT-1", asOfDate := "2026-01-02" }
      attributes := some { accountId := "ACC-1" }
      lines := [{
        instrumentId := "TBA-1"
        side := .long
        bucket := .settled
        quantity := some ⟨3, 0⟩
        lotId := "LOT-1"
        opensLot := some {
          cost := some { amount := some ⟨cents, 2⟩, currencyCode := "USD", instrumentId := "CASH-USD" } } }] } }

/-- One of the three allocated to a pool. -/
def allocatedOne (step : String) (head : Nat) : Sent :=
  .report head (poolDesk step) { event := some {
    accountId := "ACC-1"
    instrumentId := "TBA-1"
    kind := .tbaAllocation
    quantity := some ⟨1, 0⟩
    eventDate := "2026-02-01"
    deliveries := [{ instrumentId := "POOL-1", quantity := some ⟨1, 0⟩ }]
    externalEventId := "BROKER-" ++ step } }

def allocatedInThree (cents : Int) : List Sent :=
  [enteredWith cents, allocatedOne "A" 10, allocatedOne "B" 20, allocatedOne "C" 30]

/-- Ninety in three parts of thirty. -/
theorem even_parts_keep_cost : ∃ holder, ExchangesKeepCost holder ∧
    (takenFrom holder.exchanges "LOT-1").map (fun taken => carriedUnits taken.1.book taken.2) =
      [30 * 10 ^ 18, 30 * 10 ^ 18, 30 * 10 ^ 18] := by
  have computed : ((allocatedInThree 9000).foldlM (holdChecked fun holder sent => decide (sent.RelievesEvenly holder))
      { book := Book.new "ACC-1" "P-1" }).any (fun holder =>
        (takenFrom holder.exchanges "LOT-1").map (fun taken => carriedUnits taken.1.book taken.2) ==
          [30 * 10 ^ 18, 30 * 10 ^ 18, 30 * 10 ^ 18]) = true := by
    decide +kernel
  obtain ⟨holder, run, parts⟩ := Run.of_any computed
  refine ⟨holder, (exchanges_keep_cost (run.imp fun before sent after taken => ?_)).1, beq_iff_eq.mp parts⟩
  obtain ⟨checked, taken⟩ := holdChecked_some taken
  exact ⟨of_decide_eq_true checked, taken⟩

/-- A hundred in three parts of thirty-three and a third: each rounded down, and a cent lost. -/
theorem partial_exchanges_lose_a_cent :
    ¬ ∀ (accountId partition : String) (sents : List Sent) (holder : Holder),
      Run (fun before sent after => hold before sent = after) { book := Book.new accountId partition } sents holder →
        ExchangesKeepCost holder := by
  intro claim
  let exhausts (holder : Holder) : Bool :=
    decide (takenFrom holder.exchanges "LOT-1" ≠ []) &&
      decide (∀ taken ∈ takenFrom holder.exchanges "LOT-1",
        (∀ line ∈ taken.1.lines, closes line = true → (relievedCost taken.1.book line).isSome = true) ∧
          (relievedCost taken.1.book taken.2).map Prod.snd = some (⟨10000, 2, by decide, by decide⟩, ⟨3, 0, by decide, by decide⟩)) &&
      decide (((takenFrom holder.exchanges "LOT-1").map fun taken => (relievedBy taken.2).units).sum = 3 * 10 ^ 18) &&
      decide (((takenFrom holder.exchanges "LOT-1").map fun taken => carriedUnits taken.1.book taken.2).sum ≠ 100 * 10 ^ 18)
  have computed : ((allocatedInThree 10000).foldlM (holdChecked fun _ _ => true)
      { book := Book.new "ACC-1" "P-1" }).any exhausts = true := by
    decide +kernel
  obtain ⟨holder, run, held⟩ := Run.of_any computed
  have keeps := claim _ _ _ holder (run.imp fun before sent after taken => (holdChecked_some taken).2)
  simp only [exhausts, Bool.and_eq_true, decide_eq_true_eq] at held
  obtain ⟨⟨⟨some', recorded⟩, whole⟩, lost⟩ := held
  refine lost (keeps.exhausted "LOT-1" ⟨10000, 2, by decide, by decide⟩ ⟨3, 0, by decide, by decide⟩ some' ?_ whole)
  intro taken among
  obtain ⟨all, known⟩ := recorded taken among
  obtain ⟨⟨money, cost, original⟩, known, same⟩ := Option.map_eq_some_iff.mp known
  cases same
  exact ⟨all, money, known⟩

end MeridianCore.Bor.Lifecycle
