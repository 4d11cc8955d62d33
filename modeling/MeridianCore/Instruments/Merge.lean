import MeridianCore.Instruments.Complete

namespace MeridianCore.Instruments

/-- Two records one security, to a person: which stays, and the values taken from the other over its own. -/
structure MergeRequest where
  keptInstrumentId : String := ""
  mergedInstrumentId : String := ""
  keptVersion : Int := 0
  mergedVersion : Int := 0
  takeFromMerged : List Field := []
  note : String := ""
  person : String := ""
  deriving DecidableEq, Inhabited

/-- The fields a merge fills or takes. -/
def mergedFields : List Field :=
  [.assetClass, .currency, .description, .instrumentType, .moneyMarketFund, .binaryEventContract]

/-- A field filled from the merged record: where the kept one has none, or it is taken. -/
def mergeField (kept merged : Instrument) (take : List Field) (stays : Instrument) (field : Field) : Instrument :=
  let ours := kept.value field
  let theirs := merged.value field
  if theirs = "" ∨ ours = theirs then stays
  else if ours ≠ "" ∧ field ∉ take then stays
  else stays.setValue field theirs

/-- The merged record's identifiers on the one that stays, each with the window it had. -/
def mergeIdentifiers (kept merged : Instrument) : Instrument :=
  merged.heldNow.foldl (fun stays identifier =>
    if stays.holds identifier.asked then stays else stays.push identifier) kept

def mergeStays (termAt : TermAt) (kept merged : Instrument) (take : List Field) (nowNs : Int) : Instrument :=
  let valued := mergedFields.foldl (mergeField kept merged take) (mergeIdentifiers kept merged)
  { (keepOffers termAt valued merged.offers).1 with version := kept.version + 1, recordTimeNs := nowNs }

def mergeGone (merged : Instrument) (nowNs : Int) : Instrument :=
  { closedAll merged nowNs with version := merged.version + 1, recordTimeNs := nowNs }

/-- One record merged into another and its replacement recorded, or why not. -/
def mergeAs (termAt : TermAt) (held : Held) (request : MergeRequest) (nowNs : Int) :
    Except (RefusalReason × String) (List Call) :=
  let keptId := request.keptInstrumentId
  let mergedId := request.mergedInstrumentId
  if request.person = "" then
    .error (.actorRequired, "a person merges instrument records, and none was named")
  else if Text.trim request.note = "" then
    .error (.reasonRequired, "a merge says why the two records are one security")
  else if keptId = mergedId ∨ held.replacementOf keptId ≠ none ∨ held.replacementOf mergedId ≠ none then
    .error (.unspecified, "a record merges only into another record that has not been replaced")
  else
    match held.byId[keptId]?, held.byId[mergedId]? with
    | some kept, some merged =>
      if kept.version ≠ request.keptVersion ∨ merged.version ≠ request.mergedVersion then
        .error (.recordChanged,
          s!"a record changed since it was read: {keptId} is at version {kept.version}, {mergedId} at {merged.version}")
      else .ok [
        .write (mergeStays termAt kept merged request.takeFromMerged nowNs) kept.version,
        .write (mergeGone merged nowNs) merged.version,
        .replace mergedId keptId]
    | _, _ => .error (.unspecified, "the deployment holds no such record")

/-- Schemes a platform's identifier is offered in. -/
def openSchemes : List String := [globalId, "figi", "iso4217"]

/-- What the platform's answer offers of one of its identifiers: to add it, or to end it where the record holds
it. -/
def identifierOffers (record : Instrument) (offer : Offer) (identifier : WireIdentifier) : List Offer :=
  let asked := askedFromWire identifier
  if asked.source = "" ∧ asked.scheme ∈ openSchemes ∧ asked.scheme ≠ globalId then
    if 0 < identifier.validUntilNs then
      if record.holds asked then
        [{ offer with
          field := .identifier, value := asked.value, identifier := some asked, validUntilNs := identifier.validUntilNs }]
      else []
    else [{ offer with field := .identifier, value := asked.value, identifier := some asked }]
  else []

/-- What the platform's answer to a person's ask offers, a contract's attributes with its payout named. -/
def answerOffers (record : Instrument) (answer : InstrumentRecord) (contract : Option String) (nowNs : Int) : List Offer :=
  let offer : Offer := { field := .assetClass, source := platformWords answer, offeredAtNs := nowNs }
  let typed := answer.instrumentType.classOf = some answer.assetClass
  (if answer.assetClass.name ≠ "" then [{ offer with field := .assetClass, value := answer.assetClass.name }] else []) ++
  (if isCurrency answer.currency then [{ offer with field := .currency, value := answer.currency }] else []) ++
  (if Text.trim answer.description ≠ "" then
    [{ offer with field := .description, value := Text.trim answer.description }] else []) ++
  (if typed then [{ offer with field := .instrumentType, value := answer.instrumentType.name }] else []) ++
  (if typed ∧ answer.instrumentType = .binaryEventContract then
    contract.toList.map fun text => { offer with field := .binaryEventContract, value := text } else []) ++
  answer.identifiers.flatMap (identifierOffers record offer)

/-- The platform's answer to a person's ask kept on the record it names: its values are offers. -/
def keepPlatformAnswer (termAt : TermAt) (held : Held) (forInstrumentId : String) (answer : InstrumentRecord)
    (contract : Option String) (nowNs : Int) : List Call :=
  match held.byId[current held forInstrumentId]? with
  | none => []
  | some before =>
    let kept := keepOffers termAt before (answerOffers before answer contract nowNs)
    let venued := before.listingVenueId = "" ∧ begins answer.listingVenueId "VEN-"
    if venued ∨ kept.2 then
      [.write { kept.1 with
        listingVenueId := if venued then answer.listingVenueId else before.listingVenueId
        version := before.version + 1
        recordTimeNs := nowNs } before.version]
    else []

/-- A field of a template a plugin offers: its path and its value, the words its source goes by, and where it came
from as it was sent. -/
structure TemplateField where
  path : String := ""
  value : String := ""
  source : String := ""
  provenance : String := ""
  deriving DecidableEq, Inhabited

/-- The field of a template a path begins with. -/
def topOf (path : String) : String := String.ofList (path.toList.takeWhile fun c => c ≠ '.' && c ≠ '[')

/-- What a template's field is offered as: one of the record's own, or a term at its path; no identifier joins and no
venue is named here. -/
def templateTarget (path : String) : Option Field :=
  if path = "description" then some .description
  else if path = "currency" then some .currency
  else if path = "instrument_type" then some .instrumentType
  else if path = "asset_class" then some .assetClass
  else if path = "identifiers" ∨ path = "listing_venue_id" then none
  else some .term

/-- A field as it is offered: nothing where it states no term. -/
def templateOffer (instanceId : String) (nowNs : Int) (field : TemplateField) : Option Offer :=
  let path := Text.trim field.path
  let value := Text.trim field.value
  match templateTarget path with
  | none => none
  | some .term =>
    if value = "" then none
    else some {
      field := .term, value := value, instanceId := instanceId, offeredAtNs := nowNs, provenance := field.provenance
      source := "offered by " ++ instanceId ++ " from " ++ field.source, path := path }
  | some target => some {
      field := target, value := value, instanceId := instanceId, offeredAtNs := nowNs, provenance := field.provenance
      source := "offered by " ++ instanceId ++ " from " ++ field.source }

/-- A row of a repeated group offered again, not among those offered. -/
def droppedRow (instanceId : String) (repeated : List String) (offers : List Offer) (held : Offer) : Bool :=
  held.field = .term && held.instanceId = instanceId &&
    offers.any fun offer =>
      offer.field = .term && repeated.contains (topOf offer.path) && begins held.path (topOf offer.path ++ "[") &&
        !offers.any fun other => other.field = .term && other.path = held.path

/-- A plugin's offer of a record's template fields, each one the template has, some of them repeated. -/
def offerTemplateFields (termAt : TermAt) (held : Held) (instrumentId instanceId : String) (fields : List TemplateField)
    (repeated : List String) (nowNs : Int) : List Call :=
  match held.byId[current held instrumentId]? with
  | none => []
  | some before =>
    let offers := fields.filterMap (templateOffer instanceId nowNs)
    let standing := before.offers.filter fun held => !droppedRow instanceId repeated offers held
    let kept := keepOffers termAt { before with offers := standing } offers
    if kept.2 ∨ standing.length ≠ before.offers.length then
      [.write { kept.1 with version := before.version + 1, recordTimeNs := nowNs } before.version]
    else []

/-- A contract's attributes with the bounds its venue states, as they are offered. -/
def boundsOffer (instanceId contract : String) (nowNs : Int) : Offer where
  field := .binaryEventContract
  value := contract
  source := "offered by " ++ instanceId ++ " from its venue's event group report"
  instanceId := instanceId
  offeredAtNs := nowNs

/-- A member's bounds as its venue states them, offered as its contract's attributes with them. -/
def offerBounds (termAt : TermAt) (held : Held) (member instanceId contract : String) (nowNs : Int) : List Call :=
  match held.byId[member]? with
  | none => []
  | some before =>
    if before.binaryEventContract = "" ∨ before.binaryEventContract = contract then []
    else
      let kept := keepOffers termAt before [boundsOffer instanceId contract nowNs]
      if kept.2 then [.write { kept.1 with version := before.version + 1, recordTimeNs := nowNs } before.version]
      else []

/-- The migration's line for a record: its one-ID state as the platform's answer left it. -/
def lineOf (held : Held) (instrumentId : String) (line : Local) (nowNs : Int) : List Call :=
  match held.byId[instrumentId]? with
  | none => []
  | some record =>
    [.write { record with oneId := line, version := record.version + 1, recordTimeNs := nowNs } record.version]

def heldBackSection : String := "held_back"

/-- The sections of the migration's lines the platform answered. -/
def answeredSections : List String := ["matched", "minted", "near_match", "already_held"]

/-- Whether a record is a line a change makes or holds back. -/
def isLine (record : Instrument) : Bool :=
  begins record.instrumentId localPrefix &&
    (answeredSections.contains record.oneId.migration || record.oneId.migration = heldBackSection) &&
    begins record.oneId.migrationAnswer "INS-"

/-- A line of the migration held back. -/
def holdBack (held : Held) (instrumentId : String) (nowNs : Int) : List Call :=
  match held.byId[instrumentId]? with
  | none => []
  | some record =>
    if held.replacementOf instrumentId ≠ none ∨ isLine record = false ∨ record.oneId.migration = heldBackSection then []
    else
      [.write { record with
        oneId := { record.oneId with migration := heldBackSection, reason := .heldBack }
        version := record.version + 1
        recordTimeNs := nowNs } record.version]

/-- A line of the migration made: the record resolved to the one the platform answered. -/
def makeLine (termAt : TermAt) (held : Held) (instrumentId : String) (lacking : List String) (nowNs : Int) : List Call :=
  match held.byId[instrumentId]? with
  | none => []
  | some record =>
    if held.replacementOf instrumentId ≠ none ∨ isLine record = false then []
    else resolveTo termAt held instrumentId { instrumentId := record.oneId.migrationAnswer } lacking nowNs

end MeridianCore.Instruments
