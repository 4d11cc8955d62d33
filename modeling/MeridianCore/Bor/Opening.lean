import MeridianCore.Bor.Decide
import MeridianCore.Domain.Date

namespace MeridianCore.Bor

def date (field text : String) : Result Unit :=
  if isDate text then .ok ()
  else .error (.invalid (s!"{field} is " ++ "\"" ++ text ++ "\"; a business date is an ISO 8601 date, YYYY-MM-DD"))

/-- Whether a quantity is signed to match its side. -/
def admitsSide (side : HoldingSide) (quantity : Exact) : Bool :=
  match side with
  | .short => !quantity.negated.isNegative
  | _ => !quantity.isNegative

/-- What is required and not stated, by its path in the command. -/
def incomplete (what : String) (fields : List String) : StoreError :=
  let required := String.intercalate ", " fields
  .refused .incomplete s!"{what} is incomplete: the book requires {required}; supply each before it is sent" fields

/-- A lot an opening position supplies: the identifier minted for it, its terms and its quantity. -/
structure SuppliedLot where
  lotId : String
  terms : LotTerms
  quantity : Exact
  deriving DecidableEq

/-- One line's worth of a bucket, put on a lot. -/
structure Push where
  bucket : Bucket
  lot : SuppliedLot
  quantity : Exact
  deriving DecidableEq

/-- The pending settlements as buckets, and what of `rest` they leave. -/
def pendingBuckets (field : String) : Nat → List PendingSettlement → Exact → Result (List Bucket × Exact)
  | _, [], rest => .ok ([], rest)
  | index, pending :: later, rest => do
    let quantity ← numbers.required s!"{field}.pending[{index}].quantity" pending.quantity
    if pending.valueDate ≠ "" then date s!"{field}.pending[{index}].value_date" pending.valueDate
    let rest ← numbers.add s!"{field}.pending" rest quantity.negated
    let (buckets, rest) ← pendingBuckets field (index + 1) later rest
    return (⟨.pending, pending.valueDate, pending.state, quantity⟩ :: buckets, rest)

/-- The terms a supplied lot is opened with: of the opening balance, where it names no source. -/
def suppliedTerms (lot : OpeningLot) : LotTerms :=
  let terms := lot.terms.getD {}
  if terms.source = .unspecified then { terms with source := .openingBalance } else terms

/-- The lots supplied, an identifier minted for each, and what they sum to beyond `total`. -/
def suppliedLots (ctx : Context) (field : String) (minted : Nat) :
    Nat → List OpeningLot → Exact → Result (List SuppliedLot × Exact)
  | _, [], total => .ok ([], total)
  | index, lot :: later, total => do
    let quantity ← numbers.required s!"{field}.lots[{index}].quantity" lot.quantity
    let total ← numbers.add s!"{field}.lots" total quantity
    let (lots, total) ← suppliedLots ctx field minted (index + 1) later total
    return (⟨ctx.minted "LOT" (minted + index), suppliedTerms lot, quantity⟩ :: lots, total)

/-- A magnitude signed to match a side. -/
def signed (side : HoldingSide) (value : Exact) : Exact := if side = .short then value.negated else value

/-- The buckets' quantities put on the lots, both walked together, each with what is left of it; and
the lots the walk leaves. Nothing where it outlasts its fuel. -/
def walk (field : String) (side : HoldingSide) :
    Nat → List (Bucket × Exact) → List (SuppliedLot × Exact) → Option (Result (List Push × List (SuppliedLot × Exact)))
  | _, [], lots => some (.ok ([], lots))
  | _, _ :: _, [] => some (.ok ([], []))
  | 0, _ :: _, _ :: _ => none
  | fuel + 1, (bucket, bucketLeft) :: buckets, (lot, lotLeft) :: lots =>
    let take := if lotLeft.less bucketLeft then lotLeft else bucketLeft
    let pushed := if take.isZero then [] else [⟨bucket, lot, signed side take⟩]
    match numbers.add field bucketLeft take.negated, numbers.add field lotLeft take.negated with
    | .ok bucketRest, .ok lotRest =>
      (walk field side fuel (if bucketRest.isZero then buckets else (bucket, bucketRest) :: buckets)
        (if lotRest.isZero then lots else (lot, lotRest) :: lots)).map fun walked => walked.map fun rest =>
          (pushed ++ rest.1, rest.2)
    | .error out, _ => some (.error out)
    | _, .error out => some (.error out)

/-- Every bucket on the first lot, which passes each other lot its own. -/
def passedOn (buckets : List Bucket) : List SuppliedLot → List Push
  | [] => []
  | first :: others =>
    match buckets.head? with
    | none => []
    | some carrier =>
      buckets.map (fun bucket => ⟨bucket, first, bucket.quantity⟩) ++
        others.flatMap fun lot => [⟨carrier, lot, lot.quantity⟩, ⟨carrier, first, lot.quantity.negated⟩]

/-- Whether every bucket and every lot is signed to match the side. -/
def oneSide (side : HoldingSide) (buckets : List Bucket) (lots : List SuppliedLot) : Bool :=
  (buckets.all fun bucket => admitsSide side bucket.quantity) && lots.all fun lot => admitsSide side lot.quantity

/-- The buckets' quantities across the lots. -/
def pushes (field : String) (side : HoldingSide) (buckets : List Bucket) (lots : List SuppliedLot) :
    Option (Result (List Push)) :=
  if oneSide side buckets lots then
    (walk field side (buckets.length + lots.length) (buckets.map fun bucket => (bucket, magnitude bucket.quantity))
      (lots.map fun lot => (lot, magnitude lot.quantity))).map fun walked => walked.map fun (pushed, rest) =>
        match buckets.head? with
        -- A lot of zero quantity is opened all the same.
        | some first => pushed ++ rest.map fun lot => ⟨first, lot.1, Exact.zero⟩
        | none => pushed
  else some (.ok (passedOn buckets lots))

/-- The lines, each lot opened by the first that names it. -/
def openingOf (line : Bucket → Exact → MovementLine) : List String → List Push → List MovementLine
  | _, [] => []
  | opened, push :: later =>
    let made := { line push.bucket push.quantity with lotId := push.lot.lotId }
    if push.lot.lotId ∈ opened then made :: openingOf line opened later
    else { made with opensLot := some push.lot.terms } :: openingOf line (push.lot.lotId :: opened) later

def openingLine (position : OpeningPosition) (side : HoldingSide) (bucket : Bucket) (quantity : Exact) : MovementLine where
  instrumentId := position.instrumentId
  side := side
  bucket := bucket.bucket
  valueDate := bucket.valueDate
  quantity := numbers.wire quantity
  pendingState := bucket.state

/-- The buckets of an opening position that hold anything, once they account for the whole of it. -/
def openingBuckets (field : String) (position : OpeningPosition) (trade : Exact) : Result (List Bucket) := do
  let settled ← numbers.optional s!"{field}.settled_quantity" position.settledQuantity
  let rest ← match settled with
    | some settled => numbers.add s!"{field}.settled_quantity" trade settled.negated
    | none => pure trade
  let (pending, rest) ← pendingBuckets field 0 position.pending rest
  if ¬ rest.isZero then throw (incomplete "the opening balance" [s!"{field}.pending"])
  let stated := (settled.map fun settled => (⟨.settled, "", none, settled⟩ : Bucket)).toList ++ pending
  return stated.filter fun bucket => !bucket.quantity.isZero

/-- The buckets and the lots of an opening position, its lots' identifiers minted after the first
`minted`: refused where it is not signed to match its side, or its lots are not the whole of it. -/
def openingChecked (ctx : Context) (field : String) (minted : Nat) (side : HoldingSide) (position : OpeningPosition) :
    Result (List Bucket × List SuppliedLot) := do
  let trade ← numbers.required s!"{field}.trade_date_quantity" position.tradeDateQuantity
  if ¬ admitsSide side trade then
    throw (.invalid (s!"{field} is on the {sideNamed side} side with a trade-date quantity of {trade}; it is signed " ++
      "to match its side"))
  let buckets ← openingBuckets field position trade
  let (lots, total) ← suppliedLots ctx field minted 0 position.lots Exact.zero
  if lots ≠ [] ∧ ¬ total.equals trade then
    throw (refused .lotsUnbalanced
      (s!"{field}'s lots sum to {total} and its trade-date quantity is {trade}; the rest of its lots, each with its " ++
        "cost and acquisition date, is supplied before it is sent"))
  return (buckets, lots)

/-- An opening position as lines opening each bucket and lot from zero. Nothing where the walk
outlasts its fuel. -/
def openingLines (ctx : Context) (field : String) (minted : Nat) (side : HoldingSide) (position : OpeningPosition) :
    Option (Result (List MovementLine)) :=
  match openingChecked ctx field minted side position with
  | .error out => some (.error out)
  | .ok (buckets, lots) =>
    if lots = [] then some (.ok (buckets.map fun bucket => openingLine position side bucket bucket.quantity))
    else
      (pushes field side buckets lots).map fun drafted => drafted.map fun pushed =>
        openingOf (openingLine position side) [] pushed

end MeridianCore.Bor
