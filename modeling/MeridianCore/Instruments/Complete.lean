import MeridianCore.Instruments.OneId

namespace MeridianCore

/-- A type as a person reads it. -/
def InstrumentType.words : InstrumentType → String
  | unspecified => ""
  | moneyMarketFund => "money market fund"
  | binaryEventContract => "binary event contract"
  | interestRate => "interest rate"
  | rateCurve => "rate curve"
  | index => "index"
  | listedOption => "listed option"
  | future => "future"
  | futureOption => "future option"
  | commodity => "commodity"
  | bond => "bond"
  | mbsPool => "MBS pool"
  | tba => "TBA"
  | cmoTranche => "CMO tranche"
  | certificateOfDeposit => "certificate of deposit"

/-- A type as the contract lists it, without what they all start with, in lower case. -/
def InstrumentType.short (kind : InstrumentType) : String :=
  String.ofList ((kind.name.toList.drop "INSTRUMENT_TYPE_".length).map Char.toLower)

namespace Instruments

/-- A class as a person reads it. -/
def classWords (name : String) : String :=
  let start := "ASSET_CLASS_"
  String.ofList ((if begins name start then name.toList.drop start.length else name.toList).map Char.toLower)

/-- A value a completion sets. -/
inductive CompletionValue where
  | assetClass (class_ : AssetClass)
  | currency (code : String)
  | description (text : String)
  | instrumentType (kind : InstrumentType)
  /-- A fund's attributes: those not stated, and all as the store's text has them. -/
  | moneyMarketFund (unstated : List String) (text : String)
  /-- A contract's attributes with its payout named: what is wrong with them by field, or their text. -/
  | binaryEventContract (named : Except (List (String × String)) String)
  | identifier (identifier : WireIdentifier)

/-- A value as a completion's list has it, with where it came from. -/
structure InstrumentValue where
  value : Option CompletionValue := none
  source : String := ""

structure InstrumentCompletion where
  instrumentId : String := ""
  againstVersion : Int := 0
  values : List InstrumentValue := []
  note : String := ""

inductive RefusalReason where
  | unspecified
  | identifierHeld
  | reasonRequired
  | incomplete
  | recordChanged
  | actorRequired
  deriving DecidableEq, Inhabited

/-- What is wrong with a completion: why, where, in words. -/
structure Problem where
  reason : RefusalReason
  field : String
  words : String
  deriving DecidableEq, Inhabited

structure CompletionResult where
  instrumentId : String := ""
  instrument : Option Instrument := none
  refusal : Option (RefusalReason × List String) := none
  detail : String := ""

/-- A completion under way: the record, whether it changed and whether over a value held, and what is wrong. -/
structure Completing where
  record : Instrument
  changed : Bool := false
  changesHeld : Bool := false
  problems : List Problem := []

namespace Completing

def problem (completing : Completing) (reason : RefusalReason) (field words : String) : Completing :=
  { completing with problems := completing.problems ++ [{ reason, field, words }] }

/-- A value of a field other than an identifier set. -/
def set (completing : Completing) (field : Field) (text : String) : Completing :=
  let before := completing.record.value field
  if before = text then completing
  else { completing with
    record := completing.record.setValue field text
    changed := true
    changesHeld := completing.changesHeld || before ≠ "" }

/-- An identifier ended: its window closes. -/
def leaves (completing : Completing) (asked : Asked) (untilNs : Int) (path : String) : Completing :=
  if completing.record.holds asked then
    { completing with record := completing.record.close asked untilNs, changed := true, changesHeld := true }
  else if completing.record.carries asked then completing
  else completing.problem .incomplete path
    s!"{asked.scheme}:{asked.value} is not on {completing.record.instrumentId}, so it cannot leave it"

/-- The last instant. -/
def lastNs : Int := 9223372036854775807

/-- An identifier added, unless another record holds it. -/
def joins (completing : Completing) (held : Held) (asked : Asked) (path : String) : Completing :=
  if completing.record.holds asked then completing
  else
    let others := holders held asked lastNs completing.record.instrumentId
    if others = [] then
      { completing with record := completing.record.push (windowFor held asked), changed := true }
    else completing.problem .identifierHeld path
      (s!"{asked.scheme}:{asked.value} is on " ++ ", ".intercalate others ++
        " already; merge the records if they are one security")

def takeIdentifier (completing : Completing) (held : Held) (identifier : WireIdentifier) (path : String) : Completing :=
  let asked := askedFromWire identifier
  if asked.scheme = "" ∨ asked.value = "" then
    completing.problem .incomplete path "an identifier names its scheme and its value"
  else if 0 < identifier.validUntilNs then completing.leaves asked identifier.validUntilNs path
  else completing.joins held asked path

/-- One of a completion's values taken, at its place in the list. -/
def take (held : Held) (completing : Completing) (place : Nat × InstrumentValue) : Completing :=
  let path (name : String) : String := s!"values[{place.1}]." ++ name
  if Text.trim place.2.source = "" then
    completing.problem .incomplete (path "source") "every value says where it came from"
  else
    match place.2.value with
    | none => completing.problem .incomplete (path "value") "a value names what it sets"
    | some (.assetClass class_) =>
      if class_ = .unspecified then
        completing.problem .incomplete (path "asset_class")
          ("an asset class is one of the list: equity, debt, fund, derivative, " ++
            "crypto_asset, event_contract, cash")
      else completing.set .assetClass class_.name
    | some (.currency code) =>
      if isCurrency (Text.trim code) then completing.set .currency (Text.trim code)
      else completing.problem .incomplete (path "currency") ("\"" ++ Text.trim code ++ "\" is no ISO 4217 code")
    | some (.description text) =>
      if Text.trim text = "" then
        completing.problem .incomplete (path "description") "a description says something"
      else completing.set .description (Text.trim text)
    | some (.instrumentType kind) =>
      if kind = .unspecified then
        completing.problem .incomplete (path "instrument_type")
          ("an instrument type is one of the list: " ++ ", ".intercalate (InstrumentType.types.map (·.short)))
      else completing.set .instrumentType kind.name
    | some (.moneyMarketFund unstated text) =>
      if unstated = [] then completing.set .moneyMarketFund text
      else
        unstated.foldl (fun completing missing =>
          completing.problem .incomplete (path ("money_market_fund." ++ missing))
            ("a money market fund's attributes are stated together: its " ++ ", ".intercalate unstated)) completing
    | some (.binaryEventContract (.ok text)) => completing.set .binaryEventContract text
    | some (.binaryEventContract (.error wrong)) =>
      wrong.foldl (fun completing each =>
        completing.problem .incomplete (path ("binary_event_contract." ++ each.1)) each.2) completing
    | some (.identifier identifier) => completing.takeIdentifier held identifier (path "identifier")

/-- The values of a completion taken in their order. -/
def takeAll (held : Held) (record : Instrument) (values : List InstrumentValue) : Completing :=
  (values.zipIdx.map fun each => (each.2, each.1)).foldl (take held) { record := record }

end Completing

/-- Which of a completion's values sets what does not fit, by name. -/
def atValue (values : List InstrumentValue) (wanted : CompletionValue → Bool) (name : String) : String :=
  match values.findIdx? fun value => value.value.any wanted with
  | some place => s!"values[{place}]." ++ name
  | none => name

/-- The code of the currency a record is cash in, where it carries one: its first. -/
def currencyCode (record : Instrument) : Option String :=
  (record.identifiers.find? fun identifier => identifier.scheme = currencyScheme).map (·.value)

/-- What of a record's values does not fit together: its type's class, a fund's and a contract's attributes. -/
def kindProblems (record : Instrument) (values : List InstrumentValue) : List Problem :=
  let kind := InstrumentType.ofText record.instrumentType
  (match kind.classOf with
    | some class_ =>
      if record.assetClass = class_.name then []
      else [{
        reason := .incomplete
        field := atValue values (fun value => match value with | .instrumentType _ => true | _ => false)
          "instrument_type"
        words := "a " ++ kind.words ++ " is under " ++ classWords class_.name ++ ", and the record's asset class is " ++
          (if record.assetClass = "" then "not set" else classWords record.assetClass) }]
    | none => []) ++
  (if record.moneyMarketFund ≠ "" ∧ kind ≠ .moneyMarketFund then [{
      reason := .incomplete
      field := atValue values (fun value => match value with | .moneyMarketFund _ _ => true | _ => false)
        "money_market_fund"
      words := "a money market fund's attributes are set only on a record whose type is money market fund" }]
    else []) ++
  (if record.binaryEventContract ≠ "" ∧ kind ≠ .binaryEventContract then [{
      reason := .incomplete
      field := atValue values (fun value => match value with | .binaryEventContract _ => true | _ => false)
        "binary_event_contract"
      words := "a binary event contract's attributes are set only on a record whose type is binary event contract" }]
    else [])

/-- Cash is a currency's: its currency is its code. -/
def cashProblems (record : Instrument) (values : List InstrumentValue) : List Problem :=
  if record.assetClass = AssetClass.cash.name ∧ record.currency ≠ "" then
    match currencyCode record with
    | some code =>
      if code = record.currency then []
      else [{
        reason := .incomplete
        field := atValue values (fun value => match value with | .currency _ => true | _ => false) "currency"
        words := s!"a cash record's currency is its ISO 4217 code, {code}, not {record.currency}" }]
    | none => []
  else []

/-- All that is wrong with a completion, in the order it is found. -/
def completionProblems (completing : Completing) (completion : InstrumentCompletion) : List Problem :=
  completing.problems ++ kindProblems completing.record completion.values ++
    (if completing.changesHeld ∧ Text.trim completion.note = "" then
      [{ reason := .reasonRequired, field := "note", words := "a change to a value already held says why" }]
    else []) ++
    cashProblems completing.record completion.values

/-- The reason a completion is refused for: the first of these it has. -/
def refusalReason (problems : List Problem) : RefusalReason :=
  (([.identifierHeld, .reasonRequired, .incomplete] : List RefusalReason).find? fun wanted =>
    problems.any fun problem => problem.reason = wanted).getD .incomplete

/-- The offers a completion leaves: of an identifier it does not carry, or of a value other than the one in force. -/
def offersLeft (record : Instrument) : List Offer :=
  record.offers.filter fun offer =>
    match offer.field with
    | .identifier => !offer.identifier.any fun identifier => record.carries identifier
    | field => record.value field ≠ offer.value

def refusedCompletion (completion : InstrumentCompletion) (reason : RefusalReason) (fields : List String)
    (detail : String) : CompletionResult where
  instrumentId := completion.instrumentId
  refusal := some (reason, fields)
  detail := detail

/-- The record a completion writes. -/
def completedRecord (before record : Instrument) (nowNs : Int) : Instrument :=
  { record with offers := offersLeft record, version := before.version + 1, recordTimeNs := nowNs }

/-- One record's completion. -/
def completeOne (held : Held) (completion : InstrumentCompletion) (nowNs : Int) : CompletionResult × List Call :=
  let id := completion.instrumentId
  let became := current held id
  match if became = id then held.byId[became]? else none with
  | none =>
    (refusedCompletion completion .recordChanged ["instrument_id"]
      (if became ≠ id then s!"{id} was merged into {became}; complete that record"
      else s!"the deployment holds no record {id}"), [])
  | some before =>
    if before.version ≠ completion.againstVersion then
      (refusedCompletion completion .recordChanged ["against_version"]
        (s!"{before.instrumentId} changed since version {completion.againstVersion}; it is at version {before.version}" ++
          " now"), [])
    else
      let completing := Completing.takeAll held before completion.values
      let problems := completionProblems completing completion
      if problems ≠ [] then
        (refusedCompletion completion (refusalReason problems) (problems.map (·.field))
          ("; ".intercalate (problems.map (·.words))), [])
      else if completing.changed then
        let next := completedRecord before completing.record nowNs
        ({ instrumentId := next.instrumentId, instrument := some next }, [.write next before.version])
      else ({ instrumentId := id, instrument := some before }, [])

end Instruments

end MeridianCore
