import MeridianCore.AnalyticsEngine.Answer
import MeridianCore.AnalyticsEngine.Exact.Dec

/-! What a figure is computed from: the case's records, prices, positions and event groups, and its lookups of a price. -/

namespace MeridianCore.AnalyticsEngine.Pricing

/-- A price the lake holds: of a subject, of a kind, in an instrument. -/
structure Price where
  subjectId : String
  kind : String
  amount : Dec
  instrumentId : String
  dataset : String
  validAtNs : Int
  deriving DecidableEq

structure Instrument where
  modelId : String
  /-- What one contract pays, and the currency it pays in. -/
  payout : Option (Dec × String)
  /-- Its ISO 4217 code, a fiat currency's cash instrument; empty for a token. -/
  currencyCode : String
  deriving DecidableEq

structure Position where
  instrumentId : String
  quantity : Dec
  /-- None where the book records no cost. -/
  cost : Option Dec
  deriving DecidableEq

/-- An event's contracts, and whether at most one of them pays and whether one does. -/
structure Group where
  eventGroupId : String
  members : List String
  mutuallyExclusive : String
  exhaustive : String
  deriving DecidableEq

def EVENT_GROUP_FLAG_TRUE : String := "EVENT_GROUP_FLAG_TRUE"

structure Case where
  instruments : BTreeMap String Instrument
  /-- The prices held, in the document's order; each lookup is of those of one subject and kind. -/
  market : List Price
  groups : BTreeMap String Group
  /-- How old a dataset's price may be; of one not named, any age. -/
  staleAfter : BTreeMap String Int
  lakeAsOfNs : Int
  pivots : List String

namespace Case

/-- The prices of a subject of a kind. -/
def held (job : Case) (subject kind : String) : List Price :=
  job.market.filter fun price => price.subjectId == subject && price.kind == kind

/-- The later of two prices; of two as late, of the later dataset, the first where both are the same. -/
def later (best : Option Price) (price : Price) : Option Price :=
  match best with
  | some held =>
    if price.validAtNs < held.validAtNs ∨ (price.validAtNs = held.validAtNs ∧ price.dataset ≤ held.dataset) then some held
    else some price
  | none => some price

/-- The latest price of `subject` of `kind` in one instrument. -/
def priceIn (job : Case) (subject kind instrumentId : String) : Option Price :=
  ((job.held subject kind).filter fun price => price.instrumentId == instrumentId).foldl later none

/-- The latest price of `subject` of `kind` in each instrument it is priced in, by the instruments' IDs. -/
def quotedIn (job : Case) (subject kind : String) : List Price :=
  let instruments := ((job.held subject kind).map Price.instrumentId).dedup.insertionSort (· ≤ ·)
  instruments.filterMap (job.priceIn subject kind)

/-- Whether a cash instrument is a fiat currency's. -/
def fiat (job : Case) (instrumentId : String) : Bool := (job.instruments[instrumentId]?).any fun record => record.currencyCode ≠ ""

/-- Whether the price is older than its dataset's staleness setting allows. -/
def stale (job : Case) (price : Price) : Bool :=
  (job.staleAfter[price.dataset]?).any fun limit => limit < job.lakeAsOfNs - price.validAtNs

end Case

section
variable {job : Case} {subject kind instrument : String} {price best : Price}

theorem mem_of_later (prices : List Price) (held : Option Price) (found : prices.foldl Case.later held = some best) :
    held = some best ∨ best ∈ prices := by
  induction prices generalizing held with
  | nil => exact .inl found
  | cons price rest ih =>
    rcases ih (Case.later held price) found with now | further
    · unfold Case.later at now
      split at now
      · split_ifs at now
        · exact .inl now
        · exact .inr (Option.some.inj now ▸ List.mem_cons_self)
      · exact .inr (Option.some.inj now ▸ List.mem_cons_self)
    · exact .inr (List.mem_cons_of_mem _ further)

/-- A price looked up is one held, of the subject and kind, in the instrument. -/
theorem priceIn_held (found : job.priceIn subject kind instrument = some price) : price ∈ job.market ∧
    price.subjectId = subject ∧ price.kind = kind ∧ price.instrumentId = instrument := by
  have member : price ∈ ((job.held subject kind).filter fun price => price.instrumentId == instrument) :=
    (mem_of_later _ none found).resolve_left nofun
  simp only [Case.held, List.mem_filter, Bool.and_eq_true, beq_iff_eq] at member
  exact ⟨member.1.1, member.1.2.1, member.1.2.2, member.2⟩

/-- The prices quoted are those looked up in some instrument. -/
theorem mem_quotedIn : price ∈ job.quotedIn subject kind ↔ job.priceIn subject kind price.instrumentId = some price := by
  unfold Case.quotedIn
  dsimp only
  rw [List.mem_filterMap]
  constructor
  · rintro ⟨instrument, -, found⟩
    rwa [(priceIn_held found).2.2.2]
  · intro found
    obtain ⟨member, subject_, kind_, -⟩ := priceIn_held found
    refine ⟨price.instrumentId, ?_, found⟩
    rw [List.mem_insertionSort, List.mem_dedup]
    exact List.mem_map_of_mem (List.mem_filter.mpr ⟨member, by simp [subject_, kind_]⟩)

end

end MeridianCore.AnalyticsEngine.Pricing

/-! A conversion, leg by leg: each leg a market price of the currency in hand in another instrument, of kind close, then mid,
then last; the last of them to a fiat base inverted or crossed where the lake has no direct rate. -/

namespace MeridianCore.AnalyticsEngine

def CROSSED : String := "CONVERSION_DERIVATION_CROSSED"

namespace Pricing

/-- Conversion legs' kinds, in the order a leg is taken. -/
def CONVERSION_KINDS : List String := ["close", "mid", "last"]

/-- The longest conversion chain, a cross counting as its two sub-legs. -/
def MOST_LEGS : Nat := 3

/-- The places an inverted or crossed rate is rounded to, half to even. -/
def RATE_SCALE : UInt32 := 18

/-- One conversion leg, from one cash instrument to another at a rate, with the lake's prices it moves with, each with its
exponent. -/
structure Leg where
  fromId : String
  toId : String
  rate : Dec
  derivation : String
  via : String
  dataset : String
  factors : List (Price × Int)
  subs : List Leg
  kindRank : Nat

def Leg.direct (price : Price) (rank : Nat) : Leg where
  fromId := price.subjectId
  toId := price.instrumentId
  rate := price.amount
  derivation := DIRECT
  via := ""
  dataset := price.dataset
  factors := [(price, 1)]
  subs := []
  kindRank := rank

def Dec.one : Dec := ⟨Num.fromBig (Big.fromU128 1), 0⟩

/-- The product of the legs' rates. -/
def product (legs : List Leg) : Dec := legs.foldl (fun out leg => out.mul leg.rate) Dec.one

/-- A chain's length against the most: a cross counts as its two. -/
def counted (legs : List Leg) : Nat := (legs.map fun leg => if leg.derivation = CROSSED then 2 else 1).sum

/-- 1 / x, rounded half to even to 18 places; nothing of a zero. -/
def inverse (x : Dec) : Option Dec :=
  (Ratio.new (Big.pow10 x.scale.toNat) x.integer.toBig).map fun ratio => ratio.roundHalfEven RATE_SCALE

/-- The lake's own rate from `at_` to `to_`, by kind in order. -/
def direct (job : Case) (at_ to_ : String) : Option Leg :=
  CONVERSION_KINDS.zipIdx.findSome? fun (kind, rank) => (job.priceIn at_ kind to_).map (Leg.direct · rank)

/-- The lake's rate the other way, inverted. -/
def inverted (job : Case) (at_ to_ : String) : Option Leg :=
  CONVERSION_KINDS.zipIdx.findSome? fun (kind, rank) => do
    let price ← job.priceIn to_ kind at_
    if price.amount.isZero then none
    else
      let rate ← inverse price.amount
      return {
        fromId := at_
        toId := to_
        rate
        derivation := INVERTED
        via := ""
        dataset := price.dataset
        factors := [(price, -1)]
        subs := []
        kindRank := rank }

def either (job : Case) (from_ into : String) : Option Leg := (direct job from_ into).or (inverted job from_ into)

/-- The leg from `at_` to `to_` through a pivot both sub-legs reach, its rate their product rounded half to even. -/
def crossed (job : Case) (at_ to_ pivot : String) : Option Leg :=
  if pivot = at_ ∨ pivot = to_ ∨ job.fiat pivot = false then none
  else do
    let first ← either job at_ pivot
    let second ← either job pivot to_
    return {
      fromId := at_
      toId := to_
      rate := (first.rate.mul second.rate).roundHalfEven RATE_SCALE
      derivation := CROSSED
      via := pivot
      dataset := ""
      factors := first.factors ++ second.factors
      subs := [first, second]
      kindRank := max first.kindRank second.kindRank }

/-- A fiat leg with no direct rate in the lake's direction: inverted, else crossed through the first pivot there is one
through. None for a token's leg. -/
def derived (job : Case) (at_ to_ : String) : Option Leg :=
  if (job.fiat at_ && job.fiat to_) = false then none
  else
    match inverted job at_ to_ with
    | some leg => some leg
    | none => job.pivots.findSome? (crossed job at_ to_)

/-- A chain with what it is ordered by: its length, its legs' derivations, their kinds and the instruments they reach. -/
structure Chain where
  counted : Nat
  derivations : List Nat
  kinds : List Nat
  toIds : List String
  legs : List Leg

def keep (legs : List Leg) : Chain where
  counted := counted legs
  derivations := legs.map fun leg => derivationRank leg.derivation
  kinds := legs.map Leg.kindRank
  toIds := legs.map Leg.toId
  legs

def Chain.key (chain : Chain) : ℕ ×ₗ List ℕ ×ₗ List ℕ ×ₗ List String :=
  toLex (chain.counted, toLex (chain.derivations, toLex (chain.kinds, chain.toIds)))

/-- The chains from `at_` to the base, so many legs left of the most, that go on from the legs taken and keep off the
currencies seen. -/
def walk (job : Case) (base : String) : Nat → String → List Leg → List String → List Chain
  | left, at_, legs, seen =>
    if at_ = base then [keep legs]
    else
      match left with
      | 0 => []
      | left + 1 =>
        let last :=
          if (direct job at_ base).isNone then
            match derived job at_ base with
            | some leg => if counted (legs ++ [leg]) ≤ MOST_LEGS then [keep (legs ++ [leg])] else []
            | none => []
          else []
        last ++ CONVERSION_KINDS.zipIdx.flatMap fun (kind, rank) =>
          (job.quotedIn at_ kind).flatMap fun price =>
            if price.instrumentId ∈ seen then []
            else walk job base left price.instrumentId (legs ++ [Leg.direct price rank]) (price.instrumentId :: seen)

/-- The legs from `held` to `base`, or why there are none: the first chain in order, unless a price under it is stale. -/
def conversion (job : Case) (held base : String) : Except (String × String) (List Leg) :=
  if held = base then .ok []
  else
    match (walk job base MOST_LEGS held [] [held]).insertionSort fun a b => a.key ≤ b.key with
    | [] => .error (CONVERSION_MISSING, "")
    | first :: _ =>
      if first.legs.any fun leg => leg.factors.any fun factor => job.stale factor.1 then .error (PRICE_STALE, "")
      else .ok first.legs

end Pricing

end MeridianCore.AnalyticsEngine
