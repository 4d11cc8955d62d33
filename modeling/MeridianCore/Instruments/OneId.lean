import MeridianCore.Instruments.Resolve

namespace MeridianCore.Instruments

/-- Whether a text begins with another. -/
def begins (text start : String) : Bool := start.toList.isPrefixOf text.toList

/-- How a value of a platform record's is sourced. -/
def platformWords (master : InstrumentRecord) : String :=
  s!"the platform, record {master.instrumentId} version {master.version}"

/-- The values a platform record states, by field. -/
def masterValues (master : InstrumentRecord) : List (Field × String) :=
  [(.assetClass, master.assetClass.name), (.currency, Text.trim master.currency),
    (.description, Text.trim master.description), (.instrumentType, master.instrumentType.name)]

/-- The platform's open identifiers on its record. -/
def masterIdentifiers (master : InstrumentRecord) : List Asked :=
  ((master.identifiers.filter fun identifier => identifier.validUntilNs = 0).map askedFromWire).filter fun asked =>
    asked.scheme ≠ localScheme && asked.scheme ≠ globalId

/-- A record's terms as the platform's record states them, taken whole where they differ. -/
def takeListedTerms (record : Instrument) (master : InstrumentRecord) : Instrument × Bool :=
  if master.terms = "" ∨ master.terms = record.listedTerms then (record, false)
  else ({ record with listedTerms := master.terms }, true)

/-- What the platform's record gives as an identifier's trading currency. -/
def tradingCurrencyOf (master : InstrumentRecord) (held : Identifier) : String :=
  ((master.identifiers.find? fun identifier =>
    identifier.validUntilNs = 0 && identifier.scheme = held.scheme && identifier.value = held.value &&
      identifier.source = held.source).map fun identifier => (Text.trim identifier.tradingCurrency).toUpper).getD ""

/-- An open identifier's trading currency as the platform's record gives it, where it gives one. -/
def takeTradingCurrency (master : InstrumentRecord) (held : Identifier) : Identifier :=
  if held.isOpen ∧ tradingCurrencyOf master held ≠ "" then
    { held with tradingCurrency := tradingCurrencyOf master held }
  else held

def takeTradingCurrencies (record : Instrument) (master : InstrumentRecord) : Instrument × Bool :=
  ({ record with identifiers := record.identifiers.map (takeTradingCurrency master) },
    record.identifiers.any fun held => takeTradingCurrency master held ≠ held)

/-- The date no window that is open has ended by. -/
def farFuture : Int := 4611686018427387903

def holdersElsewhere (held : Held) (asked : Asked) (here : String) : List String := holders held asked farFuture here

/-- The asked identifiers a platform record's record neither holds nor another does, put on it. -/
def joinPlatform (held : Held) (record : Instrument) (asked : List Asked) : Instrument × Bool :=
  asked.foldl (fun joined identifier =>
    if joined.1.holds identifier ∨ holdersElsewhere held identifier joined.1.instrumentId ≠ [] then joined
    else (joined.1.push (windowFor held identifier), true)) (record, false)

/-- The one-ID state of a record of the platform's: the template it names, or the one given. -/
def platformLocal (master : InstrumentRecord) (templateId templateVersion : String) (lacking : List String) : Local where
  templateId := if master.templateId = "" then templateId else master.templateId
  templateVersion := if master.templateId = "" then templateVersion else master.templateVersion
  missingFields := lacking

/-- The values a platform record states, in force on a record. -/
def withMasterValues (record : Instrument) (master : InstrumentRecord) : Instrument :=
  (masterValues master).foldl (fun record stated =>
    if stated.2 = "" then record else record.setValue stated.1 stated.2) record

/-- The asked identifiers and the platform's open ones. -/
def platformIdentifiers (asked : List Asked) (master : InstrumentRecord) : List Asked :=
  (masterIdentifiers master).foldl (fun identifiers identifier =>
    if identifiers.contains identifier then identifiers else identifiers ++ [identifier]) asked

def platformKey (master : InstrumentRecord) : String := "ins:" ++ master.instrumentId

/-- The platform's record as the deployment's is kept from the start. -/
def platformCandidate (termAt : TermAt) (held : Held) (asked : List Asked) (master : InstrumentRecord)
    (template : Option Template) (offers : List Offer) (lacking : List String) (nowNs : Int) : Instrument :=
  let bare : Instrument :=
    { instrumentId := master.instrumentId
      identifiers := (platformIdentifiers asked master).map (windowFor held)
      lifecycleState := "INSTRUMENT_LIFECYCLE_STATE_ACTIVE"
      listingVenueId := master.listingVenueId
      version := 1
      recordTimeNs := nowNs
      oneId := platformLocal master ((template.map (·.templateId)).getD "") ((template.map (·.templateVersion)).getD "")
        lacking }
  let termed := (takeListedTerms (takeTradingCurrencies (withMasterValues bare master) master).1 master).1
  let contracted := match master.binaryEventContract with
    | some contract => { termed with binaryEventContract := contract }
    | none => termed
  (takeStated termAt contracted offers).1

/-- The platform's record, kept as the deployment's under its ID: the asked identifiers and the platform's, its
values in force, what the plugin's source stated kept as offers. A record held already under the ID is joined. -/
def keepPlatformRecord (termAt : TermAt) (held : Held) (asked : List Asked) (master : InstrumentRecord)
    (template : Option Template) (offers : List Offer) (lacking : List String) (nowNs : Int) :
    (Instrument × Bool) × List Call :=
  match held.byId[master.instrumentId]? with
  | some record =>
    let joined := joinPlatform held record asked
    let taken := takeStated termAt joined.1 offers
    let listed := takeTradingCurrencies taken.1 master
    let termed := takeListedTerms listed.1 master
    let next := { termed.1 with
      oneId := { termed.1.oneId with missingFields := lacking }
      version := record.version + 1
      recordTimeNs := nowNs }
    if joined.2 ∨ taken.2.1 ≠ [] ∨ taken.2.2 ∨ listed.2 ∨ termed.2 ∨ lacking ≠ termed.1.oneId.missingFields then
      ((next, false), [.write next record.version])
    else ((record, false), [])
  | none =>
    let candidate := platformCandidate termAt held asked master template offers lacking nowNs
    let key := platformKey master
    let minted := held.minted candidate key
    ((minted.1, minted.2 = .minted), [.mint candidate key])

/-- What the platform said of a set nothing matched, or of a provisional record. -/
inductive PlatformSaid where
  | record (master : InstrumentRecord)
  | pending
  | unreachable
  | notAsked
  deriving DecidableEq, Inhabited

def PlatformSaid.reason : PlatformSaid → ProvisionalReason
  | .pending => .awaitingStaff
  | .unreachable => .unreachable
  | .record _ | .notAsked => .unspecified

/-- A resolve's second half: the platform's record kept and answered, a provisional record minted, or nothing. -/
def resolveUnmatched (termAt : TermAt) (held : Held) (request : ResolveIdentifierRequest) (asked : List Asked)
    (instanceId instrumentId : String) (nowNs : Int) (said : PlatformSaid) (template : Option Template)
    (lacking : List String) : ResolveIdentifierReply × List Call :=
  match said with
  | .record master =>
    let kept := keepPlatformRecord termAt held asked master template (stated request instanceId nowNs) lacking nowNs
    (answered kept.1.1 kept.1.2, kept.2)
  | said =>
    if meetsMinimum request then mint termAt held request asked instanceId instrumentId nowNs template said.reason
    else (missed .notFound, [])

/-- A value stated put in force where the record has none, offered where it differs. -/
def fillOrOffer (source : String) (nowNs : Int) (filling : Instrument × List Offer) (stated : Field × String) :
    Instrument × List Offer :=
  if stated.2 = "" then filling
  else if filling.1.value stated.1 = "" then (filling.1.setValue stated.1 stated.2, filling.2)
  else if filling.1.value stated.1 = stated.2 then filling
  else (filling.1, filling.2 ++ [{ field := stated.1, value := stated.2, source := source, offeredAtNs := nowNs }])

/-- An identifier closed where it is the platform's ID as it was kept. -/
def closeGlobal (nowNs : Int) (held : Identifier) : Identifier :=
  if held.scheme = globalId then held.closed nowNs else held

/-- The ID a record of the deployment's had, on the record it became: from when it was minted, never closed. -/
def localLink (held : Held) (replaced : Instrument) : Identifier where
  scheme := localScheme
  value := replaced.instrumentId
  validFromNs := (held.mintedAtNs[replaced.instrumentId]?).getD replaced.recordTimeNs

/-- A record with the ID of the one it replaced on it, where that is the deployment's own. -/
def linked (held : Held) (record replaced : Instrument) : Instrument :=
  if begins replaced.instrumentId localPrefix then record.push (localLink held replaced) else record

/-- What of the replaced record travels to the one it starts: what is on it now. -/
def travelling (replaced : Instrument) (master : InstrumentRecord) (lacking : List String) (nowNs : Int) : Instrument :=
  { replaced with
    instrumentId := master.instrumentId
    version := 1
    recordTimeNs := nowNs
    oneId := platformLocal master replaced.oneId.templateId replaced.oneId.templateVersion lacking
    identifiers := replaced.heldNow }

/-- The record an ID starts, before the platform's identifiers and values are brought onto it. -/
def resolvedBase (held : Held) (replaced : Instrument) (master : InstrumentRecord) (lacking : List String) (nowNs : Int) :
    Instrument :=
  let termed := (takeListedTerms (takeTradingCurrencies (travelling replaced master lacking nowNs) master).1 master).1
  linked held { termed with identifiers := termed.identifiers.map (closeGlobal nowNs) } replaced

/-- The platform's identifiers put on a record that carries them not. -/
def resolvedNamed (held : Held) (base : Instrument) (master : InstrumentRecord) : Instrument :=
  (masterIdentifiers master).foldl (fun record identifier =>
    if record.carries identifier then record else record.push (windowFor held identifier)) base

/-- A record on the venue the platform's names, where it names none. -/
def venued (record : Instrument) (master : InstrumentRecord) : Instrument :=
  if record.listingVenueId = "" then { record with listingVenueId := master.listingVenueId } else record

/-- The record an ID becomes where the deployment holds none of the platform's: it starts from the replaced one. -/
def resolvedCandidate (termAt : TermAt) (held : Held) (replaced : Instrument) (master : InstrumentRecord)
    (lacking : List String) (nowNs : Int) : Instrument :=
  let named := resolvedNamed held (resolvedBase held replaced master lacking nowNs) master
  let filled := (masterValues master).foldl (fillOrOffer (platformWords master) nowNs) (named, [])
  (keepOffers termAt (venued filled.1 master) filled.2).1

/-- The fields a record resolved into another fills there. -/
def resolvedFields : List Field := [.assetClass, .currency, .description, .instrumentType]

/-- The replaced record's identifiers put on the one it became that holds them not, but for the platform's ID. -/
def joinedBy (into replaced : Instrument) : Instrument :=
  replaced.heldNow.foldl (fun record identifier =>
    if identifier.scheme = globalId ∨ record.holds identifier.asked then record else record.push identifier) into

def resolvedWords (replaced : Instrument) : String := replaced.instrumentId ++ ", resolved into this record"

/-- The record held under the platform's ID, joined by the replaced one. -/
def resolvedInto (termAt : TermAt) (held : Held) (into replaced : Instrument) (nowNs : Int) : Instrument :=
  let named := joinedBy (linked held into replaced) replaced
  let filled := (resolvedFields.map fun field => (field, replaced.value field)).foldl
    (fillOrOffer (resolvedWords replaced) nowNs) (named, replaced.offers)
  { (keepOffers termAt filled.1 filled.2).1 with version := into.version + 1, recordTimeNs := nowNs }

/-- A record's identifiers off it, kept closed. -/
def closedAll (record : Instrument) (nowNs : Int) : Instrument :=
  record.heldNow.foldl (fun gone identifier => gone.close identifier.asked nowNs) record

/-- The replaced record, its identifiers off it. -/
def resolvedGone (replaced : Instrument) (nowNs : Int) : Instrument :=
  let gone := closedAll replaced nowNs
  { gone with
    oneId := { gone.oneId with provisional := false }
    version := replaced.version + 1
    recordTimeNs := nowNs }

/-- An ID replaced by the platform's record: the calls made, none where it was replaced already. -/
def resolveTo (termAt : TermAt) (held : Held) (replacedId : String) (master : InstrumentRecord) (lacking : List String)
    (nowNs : Int) : List Call :=
  if held.replacementOf replacedId ≠ none ∨ replacedId = master.instrumentId then []
  else
    match held.byId[replacedId]? with
    | none => []
    | some replaced =>
      let stays := match held.byId[master.instrumentId]? with
        | none => Call.mint (resolvedCandidate termAt held replaced master lacking nowNs) (platformKey master)
        | some into => .write (resolvedInto termAt held into replaced nowNs) into.version
      [stays, .write (resolvedGone replaced nowNs) replaced.version, .replace replacedId master.instrumentId]

/-- The platform's answer for a record the store holds: a provisional record resolved to the record it names, or
the request queued for staff told on it. -/
def applyAnswer (termAt : TermAt) (held : Held) (instrumentId : String) (said : PlatformSaid) (lacking : List String)
    (nowNs : Int) : List Call :=
  let became := current held instrumentId
  match held.byId[became]? with
  | none => []
  | some record =>
    if record.oneId.provisional = false then []
    else
      match said with
      | .record master => resolveTo termAt held became master lacking nowNs
      | .pending =>
        if record.oneId.reason = .awaitingStaff then []
        else
          [.write { record with
            oneId := { record.oneId with reason := .awaitingStaff, askedAtNs := nowNs }
            version := record.version + 1
            recordTimeNs := nowNs } record.version]
      | .unreachable | .notAsked => []

/-- An entry of the platform's feed. -/
structure FeedEntry where
  instrumentId : String := ""
  sequence : Int := 0
  expired : Bool := false
  decommissioned : Bool := false
  replacedBy : String := ""
  deriving DecidableEq, Inhabited

def expiredState : String := "INSTRUMENT_LIFECYCLE_STATE_EXPIRED"

/-- An expiry the platform's feed gave, shown on the record. -/
def expire (held : Held) (instrumentId : String) (nowNs : Int) : List Call :=
  match held.byId[instrumentId]? with
  | none => []
  | some record =>
    if record.lifecycleState = expiredState then []
    else
      [.write { record with lifecycleState := expiredState, version := record.version + 1, recordTimeNs := nowNs }
        record.version]

/-- A decommission the platform's feed gave, shown on the record. -/
def decommission (held : Held) (instrumentId : String) (nowNs : Int) : List Call :=
  match held.byId[instrumentId]? with
  | none => []
  | some record =>
    if record.oneId.decommissioned then []
    else
      [.write { record with
        oneId := { record.oneId with decommissioned := true }
        version := record.version + 1
        recordTimeNs := nowNs } record.version]

/-- What an entry of the feed does to the record it names. -/
def followed (termAt : TermAt) (held : Held) (entry : FeedEntry) (lacking : List String) (nowNs : Int) : List Call :=
  if (held.byId[entry.instrumentId]?).isNone then []
  else if entry.expired then expire held entry.instrumentId nowNs
  else if entry.decommissioned then decommission held entry.instrumentId nowNs
  else if begins entry.replacedBy "INS-" then
    resolveTo termAt held entry.instrumentId { instrumentId := entry.replacedBy } lacking nowNs
  else []

/-- The next entry of the feed followed, and the sequence read to kept; one at or before it was followed already. -/
def applyEntry (termAt : TermAt) (held : Held) (entry : FeedEntry) (lacking : List String) (nowNs : Int) : List Call :=
  if entry.sequence ≤ held.feedCursor then []
  else followed termAt held entry lacking nowNs ++ [.readTo entry.sequence]

end MeridianCore.Instruments
