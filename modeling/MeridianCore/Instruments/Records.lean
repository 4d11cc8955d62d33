import MeridianCore.Domain.Records
import MeridianCore.Domain.Text

namespace MeridianCore

inductive AssetClass where
  | unspecified
  | equity
  | debt
  | fund
  | derivative
  | cryptoAsset
  | eventContract
  | cash
  | referential
  deriving DecidableEq, Inhabited

/-- A class as the store holds it: the enum's name, or empty for none. -/
def AssetClass.name : AssetClass → String
  | unspecified => ""
  | equity => "ASSET_CLASS_EQUITY"
  | debt => "ASSET_CLASS_DEBT"
  | fund => "ASSET_CLASS_FUND"
  | derivative => "ASSET_CLASS_DERIVATIVE"
  | cryptoAsset => "ASSET_CLASS_CRYPTO_ASSET"
  | eventContract => "ASSET_CLASS_EVENT_CONTRACT"
  | cash => "ASSET_CLASS_CASH"
  | referential => "ASSET_CLASS_REFERENTIAL"

namespace InstrumentType

/-- The asset class a type is under; none for no type. -/
def classOf : InstrumentType → Option AssetClass
  | unspecified => none
  | moneyMarketFund => some .fund
  | binaryEventContract => some .eventContract
  | interestRate | rateCurve | index => some .referential
  | listedOption | future | futureOption => some .derivative
  | commodity => some .referential
  | bond | mbsPool | tba | cmoTranche | certificateOfDeposit => some .debt

/-- A type as the store holds it: the enum's name, or empty for none. -/
def name : InstrumentType → String
  | unspecified => ""
  | moneyMarketFund => "INSTRUMENT_TYPE_MONEY_MARKET_FUND"
  | binaryEventContract => "INSTRUMENT_TYPE_BINARY_EVENT_CONTRACT"
  | interestRate => "INSTRUMENT_TYPE_INTEREST_RATE"
  | rateCurve => "INSTRUMENT_TYPE_RATE_CURVE"
  | index => "INSTRUMENT_TYPE_INDEX"
  | listedOption => "INSTRUMENT_TYPE_LISTED_OPTION"
  | future => "INSTRUMENT_TYPE_FUTURE"
  | futureOption => "INSTRUMENT_TYPE_FUTURE_OPTION"
  | commodity => "INSTRUMENT_TYPE_COMMODITY"
  | bond => "INSTRUMENT_TYPE_BOND"
  | mbsPool => "INSTRUMENT_TYPE_MBS_POOL"
  | tba => "INSTRUMENT_TYPE_TBA"
  | cmoTranche => "INSTRUMENT_TYPE_CMO_TRANCHE"
  | certificateOfDeposit => "INSTRUMENT_TYPE_CERTIFICATE_OF_DEPOSIT"

/-- Every type, as the contract lists them. -/
def types : List InstrumentType :=
  [moneyMarketFund, binaryEventContract, interestRate, rateCurve, index, listedOption, future, futureOption,
    commodity, bond, mbsPool, tba, cmoTranche, certificateOfDeposit]

/-- The type a text names: the enum's name, or its name without what they all start with, in lower case.
Empty is no type; anything else none. -/
def read (text : String) : Option InstrumentType :=
  if Text.trim text = "" then some unspecified
  else (types.find? (·.name == Text.trim text)).or
    (types.find? (·.name == "INSTRUMENT_TYPE_" ++ (Text.trim text).toUpper))

/-- The type a record's text stands for, none read as no type. -/
def ofText (text : String) : InstrumentType := (read text).getD unspecified

theorem ofText_name (kind : InstrumentType) : ofText kind.name = kind := by
  cases kind <;> decide +kernel

end InstrumentType

namespace Instruments

/-- A scheme the deployment's own ID of a resolved record is kept under. -/
def localScheme : String := "open_meridian_local"

/-- The scheme the platform's ID was kept under. -/
def globalId : String := "open_meridian"

/-- The scheme a currency's identifier is in. -/
def currencyScheme : String := "iso4217"

/-- What every ID the store mints begins with. -/
def localPrefix : String := "LCL-"

/-- An ISO 4217 code that names a currency. -/
def isCurrency (code : String) : Bool :=
  code.toList.length = 3 && code.toList.all Char.isUpper && code != "XXX" && code != "XTS"

/-- An identifier as a resolve asked it. -/
structure Asked where
  scheme : String := ""
  value : String := ""
  /-- Empty for a global scheme. -/
  source : String := ""
  deriving DecidableEq, Inhabited

/-- An identifier on the wire. -/
structure WireIdentifier where
  scheme : String := ""
  value : String := ""
  source : String := ""
  validUntilNs : Int := 0
  tradingCurrency : String := ""
  deriving DecidableEq, Inhabited

def askedFromWire (identifier : WireIdentifier) : Asked where
  scheme := Text.trim identifier.scheme
  value := Text.trim identifier.value
  source := Text.trim identifier.source

/-- One identifier in a record's set, valid over a window. -/
structure Identifier where
  scheme : String := ""
  value : String := ""
  source : String := ""
  validFromNs : Int := 0
  /-- None while the mapping is current. -/
  validToNs : Option Int := none
  tradingCurrency : String := ""
  deriving DecidableEq, Inhabited

namespace Identifier

/-- Whether the mapping was true then. -/
def covers (identifier : Identifier) (asOfNs : Int) : Bool :=
  identifier.validFromNs ≤ asOfNs && identifier.validToNs.all fun until_ => asOfNs < until_

/-- Whether it is on the record now: its window not closed. -/
def isOpen (identifier : Identifier) : Bool := identifier.validToNs.isNone

/-- The identifier without its dates. -/
def asked (identifier : Identifier) : Asked where
  scheme := identifier.scheme
  value := identifier.value
  source := identifier.source

/-- Its window closed, never before it opened. -/
def closed (identifier : Identifier) (untilNs : Int) : Identifier :=
  { identifier with validToNs := some (max untilNs identifier.validFromNs) }

@[simp] theorem asked_closed (identifier : Identifier) (untilNs : Int) :
    (identifier.closed untilNs).asked = identifier.asked := rfl

@[simp] theorem isOpen_closed (identifier : Identifier) (untilNs : Int) :
    (identifier.closed untilNs).isOpen = false := rfl

theorem covers_iff {identifier : Identifier} {asOfNs : Int} :
    identifier.covers asOfNs = true ↔
      identifier.validFromNs ≤ asOfNs ∧ ∀ until_, identifier.validToNs = some until_ → asOfNs < until_ := by
  cases ends : identifier.validToNs <;> simp [covers, ends]

end Identifier

/-- Which value of a record. -/
inductive Field where
  | assetClass
  | currency
  | description
  | identifier
  | instrumentType
  | moneyMarketFund
  | binaryEventContract
  /-- A term of the record's, offered at its path. -/
  | term
  deriving DecidableEq, Inhabited

/-- A value offered for a record, in force only when a person accepts it. -/
structure Offer where
  field : Field
  value : String := ""
  identifier : Option Asked := none
  source : String := ""
  /-- The plugin instance whose source stated it; empty for the platform. -/
  instanceId : String := ""
  offeredAtNs : Int := 0
  /-- When the source says an identifier left the record; 0 for an offer to add one. -/
  validUntilNs : Int := 0
  provenance : String := ""
  path : String := ""
  deriving DecidableEq, Inhabited

/-- Two offers are one when they offer the same value of the same place, come the same way. -/
def Offer.sameAs (offer other : Offer) : Bool :=
  offer.field = other.field && offer.value = other.value && offer.identifier = other.identifier &&
    offer.instanceId = other.instanceId && offer.validUntilNs = other.validUntilNs &&
    offer.provenance = other.provenance && offer.path = other.path

inductive ProvisionalReason where
  | unspecified
  | awaitingStaff
  | unreachable
  | classNeeded
  | incomplete
  | heldBack
  deriving DecidableEq, Inhabited

/-- A record's one-ID state. -/
structure Local where
  provisional : Bool := false
  reason : ProvisionalReason := .unspecified
  templateId : String := ""
  templateVersion : String := ""
  missingFields : List String := []
  proposedType : String := ""
  decommissioned : Bool := false
  askedAtNs : Int := 0
  /-- The section of the migration's line for it. -/
  migration : String := ""
  migrationAnswer : String := ""
  contradictedFields : List String := []
  deriving DecidableEq, Inhabited

/-- The term a record's terms of a type state at a path, where they state one. -/
abbrev TermAt := InstrumentType → String → String → Option String

/-- One of the deployment's records. -/
structure Instrument where
  instrumentId : String := ""
  identifiers : List Identifier := []
  assetClass : String := ""
  currency : String := ""
  exchangeMic : String := ""
  description : String := ""
  lifecycleState : String := ""
  version : Int := 0
  recordTimeNs : Int := 0
  instrumentType : String := ""
  moneyMarketFund : String := ""
  binaryEventContract : String := ""
  listingVenueId : String := ""
  listedTerms : String := ""
  offers : List Offer := []
  oneId : Local := {}
  deriving DecidableEq, Inhabited

namespace Instrument

/-- Whether the record carries this identifier, whatever its dates. -/
def carries (record : Instrument) (asked : Asked) : Bool :=
  record.identifiers.any fun held => held.asked = asked

/-- Whether the identifier is on the record now, its window open. -/
def holds (record : Instrument) (asked : Asked) : Bool :=
  record.identifiers.any fun held => held.isOpen && held.asked = asked

/-- Whether the identifier named the record then, by its window. -/
def namedAt (record : Instrument) (asked : Asked) (asOfNs : Int) : Bool :=
  record.identifiers.any fun held => held.covers asOfNs && held.asked = asked

/-- The identifier's open windows closed. -/
def close (record : Instrument) (asked : Asked) (untilNs : Int) : Instrument :=
  { record with
    identifiers := record.identifiers.map fun held =>
      if held.isOpen && held.asked = asked then held.closed untilNs else held }

/-- The identifiers on the record now. -/
def heldNow (record : Instrument) : List Identifier := record.identifiers.filter (·.isOpen)

/-- The value in force for a field other than an identifier or a term. -/
def value (record : Instrument) : Field → String
  | .assetClass => record.assetClass
  | .currency => record.currency
  | .description => record.description
  | .identifier | .term => ""
  | .instrumentType => record.instrumentType
  | .moneyMarketFund => record.moneyMarketFund
  | .binaryEventContract => record.binaryEventContract

def setValue (record : Instrument) (field : Field) (text : String) : Instrument :=
  match field with
  | .assetClass => { record with assetClass := text }
  | .currency => { record with currency := text }
  | .description => { record with description := text }
  | .identifier | .term => record
  | .instrumentType => { record with instrumentType := text }
  | .moneyMarketFund => { record with moneyMarketFund := text }
  | .binaryEventContract => { record with binaryEventContract := text }

/-- An identifier put on the record. -/
def push (record : Instrument) (identifier : Identifier) : Instrument :=
  { record with identifiers := record.identifiers ++ [identifier] }

@[simp] theorem identifiers_setValue (record : Instrument) (field : Field) (text : String) :
    (record.setValue field text).identifiers = record.identifiers := by
  cases field <;> rfl

@[simp] theorem instrumentId_setValue (record : Instrument) (field : Field) (text : String) :
    (record.setValue field text).instrumentId = record.instrumentId := by
  cases field <;> rfl

@[simp] theorem version_setValue (record : Instrument) (field : Field) (text : String) :
    (record.setValue field text).version = record.version := by
  cases field <;> rfl

theorem value_setValue (record : Instrument) (field other : Field) (text : String) :
    (record.setValue field text).value other =
      if other = field ∧ field ≠ .identifier ∧ field ≠ .term then text else record.value other := by
  cases field <;> cases other <;> rfl

@[simp] theorem value_push (record : Instrument) (identifier : Identifier) (field : Field) :
    (record.push identifier).value field = record.value field := by
  cases field <;> rfl

end Instrument

/-- A record of the platform's, as its answer carries it. -/
structure InstrumentRecord where
  instrumentId : String := ""
  identifiers : List WireIdentifier := []
  assetClass : AssetClass := .unspecified
  currency : String := ""
  description : String := ""
  version : Int := 0
  instrumentType : InstrumentType := .unspecified
  listingVenueId : String := ""
  /-- A binary event contract's attributes as the store's text has them. -/
  binaryEventContract : Option String := none
  templateId : String := ""
  templateVersion : String := ""
  /-- The terms of its type as the store's text has them. -/
  terms : String := ""
  deriving DecidableEq, Inhabited

end Instruments

end MeridianCore
