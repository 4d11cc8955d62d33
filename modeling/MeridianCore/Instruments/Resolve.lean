import MeridianCore.Instruments.Store

namespace MeridianCore.Instruments

/-- How a value a plugin closed came to be: the words its offer carries, and the entry as it was sent. -/
structure Provenance where
  words : String := ""
  encoded : String := ""
  deriving DecidableEq, Inhabited

structure ResolveIdentifierRequest where
  identifiers : List WireIdentifier := []
  asOfNs : Int := 0
  exchangeMic : String := ""
  currency : String := ""
  statedAssetClass : AssetClass := .unspecified
  statedCurrency : String := ""
  statedDescription : String := ""
  statedInstrumentType : InstrumentType := .unspecified
  /-- The entry for the stated currency, where the plugin sent one. -/
  provenance : Option Provenance := none
  deriving DecidableEq, Inhabited

inductive MissReason where
  | unspecified
  | notFound
  | ambiguous
  deriving DecidableEq, Inhabited

structure ResolveIdentifierReply where
  found : Bool := false
  instrumentId : String := ""
  missReason : MissReason := .unspecified
  minted : Bool := false
  provisional : Bool := false
  deriving DecidableEq, Inhabited

def resolved (instrumentId : String) (minted : Bool) : ResolveIdentifierReply where
  found := true
  instrumentId := instrumentId
  minted := minted

def answered (record : Instrument) (minted : Bool) : ResolveIdentifierReply :=
  { resolved record.instrumentId minted with provisional := record.oneId.provisional }

def missed (reason : MissReason) : ResolveIdentifierReply where
  missReason := reason

/-- Global schemes, strongest first. -/
def globalPriority : List String := [globalId, "figi", "isin", "cusip", "sedol"]

/-- Where in the order an identifier sits: lower is stronger, a source-scoped one weakest. -/
def rank (asked : Asked) : Nat :=
  if asked.source ≠ "" then globalPriority.length + 1 else globalPriority.idxOf asked.scheme

/-- The words a resolve the instrument picker sent stands under, before the person it stands for. -/
def pickerWords : String := "the instrument picker for "

/-- The person a resolve the instrument picker sent stands for, or nothing for anybody else's. -/
def pickerPerson (instanceId : String) : String :=
  if pickerWords.toList.isPrefixOf instanceId.toList then
    String.ofList (instanceId.toList.drop pickerWords.toList.length)
  else ""

/-- The fields a candidate the picker brought in puts in force. -/
def pickerApplies : List Field := [.assetClass, .currency, .description]

/-- What the plugin's source stated, as offers: only what it can be. -/
def stated (request : ResolveIdentifierRequest) (instanceId : String) (nowNs : Int) : List Offer :=
  let offer (field : Field) (value : String) : Offer :=
    { field := field, value := value, source := "stated by " ++ instanceId, instanceId := instanceId,
      offeredAtNs := nowNs }
  (if request.statedAssetClass ≠ .unspecified then [offer .assetClass request.statedAssetClass.name] else []) ++
  (if isCurrency (Text.trim request.statedCurrency) then
    [match request.provenance with
      | some entry => { offer .currency (Text.trim request.statedCurrency) with
          source := entry.words, provenance := entry.encoded }
      | none => offer .currency (Text.trim request.statedCurrency)] else []) ++
  (if Text.trim request.statedDescription ≠ "" then [offer .description (Text.trim request.statedDescription)]
    else []) ++
  (if request.statedInstrumentType.classOf = some request.statedAssetClass then
    [offer .instrumentType request.statedInstrumentType.name] else [])

section
variable (termAt : TermAt)

/-- Whether an offer says what is in force: of an identifier to add, that the record holds it; of one to end,
that it does not; of a term, that the record's terms state it at its path. -/
def saysInForce (record : Instrument) (offer : Offer) : Bool :=
  match offer.field with
  | .identifier => offer.identifier.any fun identifier => record.holds identifier = (offer.validUntilNs = 0)
  | .term =>
    (InstrumentType.read record.instrumentType).any fun kind =>
      termAt kind record.listedTerms offer.path = some offer.value
  | field => record.value field = offer.value

/-- An offer kept where it tells something the record does not, in place of what the same source offered for
the field before. -/
def keepOffer (kept : Instrument × Bool) (offer : Offer) : Instrument × Bool :=
  if saysInForce termAt kept.1 offer || kept.1.offers.any (·.sameAs offer) then kept
  else
    let standing :=
      if offer.field ≠ .identifier then
        kept.1.offers.filter fun held =>
          !(held.field = offer.field && held.path = offer.path && held.instanceId = offer.instanceId &&
            (offer.instanceId ≠ "" || held.source = offer.source))
      else kept.1.offers
    ({ kept.1 with offers := standing ++ [offer] }, true)

/-- Each offer kept, and whether any changed. -/
def keepOffers (record : Instrument) (offers : List Offer) : Instrument × Bool :=
  offers.foldl (keepOffer termAt) (record, false)

end

/-- Whether the picker puts an offer in force: the record holds no value for its field. -/
def applies (record : Instrument) (offer : Offer) : Bool :=
  pickerPerson offer.instanceId ≠ "" && pickerApplies.contains offer.field && record.value offer.field = ""

/-- What a resolve stated so far taken: the record, the fields put in force, what stays offered. -/
structure Taking where
  record : Instrument
  applied : List Field := []
  offered : List Offer := []

def Taking.take (taking : Taking) (offer : Offer) : Taking :=
  if applies taking.record offer then
    { taking with
      record := taking.record.setValue offer.field offer.value
      applied := taking.applied ++ [offer.field] }
  else { taking with offered := taking.offered ++ [offer] }

/-- What a resolve stated, taken onto the record: the picker's in force for each field the record holds no
value for, everything else kept as offers. The fields put in force, and whether an offer changed. -/
def takeStated (termAt : TermAt) (record : Instrument) (offers : List Offer) : Instrument × List Field × Bool :=
  let taking := offers.foldl Taking.take { record := record }
  let cleared :=
    if taking.applied ≠ [] then
      { taking.record with
        offers := taking.record.offers.filter fun held =>
          held.field = .identifier || taking.record.value held.field ≠ held.value }
    else taking.record
  let kept := keepOffers termAt cleared taking.offered
  (kept.1, taking.applied, kept.2)

/-- Whether the request's venue and currency admit a match: they narrow a source-scoped symbol, and not by
what the record does not say. -/
def qualifies (record : Instrument) (identifier : Asked) (request : ResolveIdentifierRequest) : Bool :=
  identifier.source = "" ||
    ((request.exchangeMic = "" || record.exchangeMic = "" || request.exchangeMic = record.exchangeMic) &&
      (request.currency = "" || record.currency = "" || request.currency = record.currency))

/-- The records this identifier meets on the date, the request's venue and currency admitting them. -/
def matches_ (held : Held) (identifier : Asked) (request : ResolveIdentifierRequest) : List Instrument :=
  (held.matching identifier request.asOfNs).filter fun record => qualifies record identifier request

/-- The identifiers a request carries, each naming its scheme and its value. -/
def askedBy (request : ResolveIdentifierRequest) : List Asked :=
  identifierSet ((request.identifiers.map askedFromWire).filter fun asked => asked.scheme ≠ "" && asked.value ≠ "")

/-- What the identifiers of one tier meet: the records as they are now, and the identifiers that meet one. -/
def metIn (held : Held) (request : ResolveIdentifierRequest) (inTier : List Asked) : List String × List Asked :=
  (((inTier.flatMap fun identifier => matches_ held identifier request).map
      fun record => current held record.instrumentId).eraseDups,
    inTier.filter fun identifier => (matches_ held identifier request).isEmpty = false)

/-- The ranks of a set, strongest first. -/
def tiers (asked : List Asked) : List Nat := ((asked.map rank).insertionSort (· ≤ ·)).destutter (· ≠ ·)

/-- What the strongest tier that meets anything meets. -/
def met (held : Held) (request : ResolveIdentifierRequest) (asked : List Asked) : Option (List String × List Asked) :=
  (tiers asked).findSome? fun tier =>
    let found := metIn held request (asked.filter fun each => rank each = tier)
    if found.1 = [] then none else some found

/-- The identifiers that join a record a set met: those it neither holds now nor held on the date asked. -/
def joining (record : Instrument) (asked : List Asked) (asOfNs : Int) : List Asked :=
  asked.filter fun each => !record.holds each && !record.namedAt each asOfNs

/-- One record matched: the set's other identifiers join it, unless one of them is another record's. -/
def joined (termAt : TermAt) (held : Held) (request : ResolveIdentifierRequest) (asked : List Asked)
    (found instanceId : String) (nowNs : Int) : ResolveIdentifierReply × List Call :=
  match held.byId[found]? with
  | none => (resolved found false, [])
  | some record =>
    let joins := joining record asked request.asOfNs
    if joins.any fun identifier => (holders held identifier request.asOfNs found).isEmpty = false then
      (missed .ambiguous, [])
    else
      let named := { record with identifiers := record.identifiers ++ joins.map (windowFor held) }
      let taken := takeStated termAt named (stated request instanceId nowNs)
      if joins = [] ∧ taken.2.1 = [] ∧ taken.2.2 = false then (answered taken.1 false, [])
      else
        let next := { taken.1 with version := record.version + 1, recordTimeNs := nowNs }
        (answered next false, [.write next record.version])

/-- A resolve's first half: answered, or nothing matched. -/
inductive Matched where
  | answered (reply : ResolveIdentifierReply)
  | unmatched (asked : List Asked)
  deriving DecidableEq, Inhabited

/-- Which record this set of identifiers meant, on its date, and what joins it. -/
def resolveMatched (termAt : TermAt) (held : Held) (request : ResolveIdentifierRequest) (instanceId : String)
    (nowNs : Int) : Matched × List Call :=
  let asked := askedBy request
  if asked = [] then (.answered (missed .notFound), [])
  else
    match met held request asked with
    | none => (.unmatched asked, [])
    | some ([found], _) =>
      let answer := joined termAt held request asked found instanceId nowNs
      (.answered answer.1, answer.2)
    | some _ => (.answered (missed .ambiguous), [])

/-- The same read-only: the record the store holds for the date, and nothing written. -/
def resolveIdentifierReadOnly (held : Held) (request : ResolveIdentifierRequest) : ResolveIdentifierReply :=
  let asked := askedBy request
  if asked = [] then missed .notFound
  else
    match met held request asked with
    | none => missed .notFound
    | some ([found], _) =>
      { resolved found false with
        provisional := (held.byId[found]?).any fun record => record.oneId.provisional }
    | some _ => missed .ambiguous

/-- The template a statement names, with what of it the record being made lacks; `base` where its type has none
of its own. -/
structure Template where
  templateId : String := ""
  templateVersion : String := ""
  missingFields : List String := []
  base : Bool := false
  deriving DecidableEq, Inhabited

/-- A provisional record's one-ID state: its template and what of it it lacks, and why it is provisional. -/
def provisionalState (template : Option Template) (reason : ProvisionalReason) (proposedType : String)
    (nowNs : Int) : Local where
  provisional := true
  reason :=
    if reason = .awaitingStaff ∨ reason = .unreachable then reason
    else if template.isNone then .classNeeded
    else if reason = .heldBack then reason
    else .incomplete
  templateId := (template.map (·.templateId)).getD ""
  templateVersion := (template.map (·.templateVersion)).getD ""
  missingFields := (template.map (·.missingFields)).getD []
  proposedType := proposedType
  askedAtNs := nowNs

/-- Whether a resolve's source states the minimum a record needs. -/
def meetsMinimum (request : ResolveIdentifierRequest) : Bool :=
  let identifiers := request.identifiers.filter fun identifier => Text.trim identifier.value ≠ ""
  identifiers ≠ [] &&
    (identifiers.any (fun identifier => identifier.scheme = currencyScheme) ||
      (Text.trim request.statedDescription ≠ "" &&
        (request.statedAssetClass = .cryptoAsset || Text.trim request.statedCurrency ≠ "" ||
          Text.trim request.currency ≠ "")))

/-- The key a record is minted for a set under: by where its windows open, where the set was given before. -/
def mintKey (identifiers : List Identifier) (asked : List Asked) : String :=
  let opened := ((identifiers.map (·.validFromNs)).max?).getD 0
  if 0 < opened then setKey (identifierSet asked) ++ "@" ++ toString opened else setKey (identifierSet asked)

/-- The record minted for a set nothing matched, under an ID drawn for it. -/
def mintedCandidate (termAt : TermAt) (held : Held) (request : ResolveIdentifierRequest) (asked : List Asked)
    (instanceId instrumentId : String) (nowNs : Int) (template : Option Template) (reason : ProvisionalReason) :
    Instrument :=
  let taken := takeStated termAt
    { instrumentId := instrumentId
      identifiers := asked.map (windowFor held)
      lifecycleState := "INSTRUMENT_LIFECYCLE_STATE_ACTIVE"
      version := 1
      recordTimeNs := nowNs } (stated request instanceId nowNs)
  let proposed := if template.any (·.base) then request.statedInstrumentType.name else ""
  { taken.1 with oneId := provisionalState template reason proposed nowNs }

/-- Nothing matched and no record of the platform's answered: a provisional record minted for the set, or the
one minted for it already. -/
def mint (termAt : TermAt) (held : Held) (request : ResolveIdentifierRequest) (asked : List Asked)
    (instanceId instrumentId : String) (nowNs : Int) (template : Option Template) (reason : ProvisionalReason) : ResolveIdentifierReply × List Call :=
  let candidate := mintedCandidate termAt held request asked instanceId instrumentId nowNs template reason
  let key := mintKey candidate.identifiers asked
  match held.minted candidate key with
  | (record, .minted) => (answered record true, [.mint candidate key])
  | (record, .alreadyHeld) =>
    let became := current held record.instrumentId
    ({ resolved became false with
        provisional := (held.byId[became]?).any fun record => record.oneId.provisional }, [.mint candidate key])

end MeridianCore.Instruments
