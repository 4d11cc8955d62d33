import MeridianCore.Domain.Date
import MeridianCore.Domain.Text
import MeridianCore.Sidecar.Lake

namespace MeridianCore.Sidecar

open MeridianCore.Lake

/-- What a row's deliveries carry, by their message. -/
inductive PayloadType where
  | prices
  | bars
  | trades
  | corporateActions
  | filings
  | factors
  | outcomes
  | quotes
  | rates
  | statistics
  | liveness
  | series
  | observationsWanted
  | wantWithdrawn
  /-- A message of no lake row. -/
  | other (name : String)
  deriving DecidableEq

/-- A row a plugin's roles hear; a lake row is heard on each entitled dataset's subject. -/
structure Row where
  name : String
  payloadType : PayloadType
  lake : Bool
  deriving DecidableEq

/-- The data type a lake row's message carries, as a want names it: only the rows a want keeps current. -/
def wantedType (row : Row) : Option DataType :=
  match row.payloadType with
  | .quotes => some .quote
  | .trades => some .trade
  | .prices => some .price
  | .bars => some .bar
  | .statistics => some .statistic
  | .rates => some .rate
  | .factors => some .factor
  | _ => none

/-- The data type whose dictionary entries a lake row's `fields` names. -/
def fieldsType (row : Row) : Option DataType :=
  (wantedType row).or (match row.payloadType with
    | .series => some .series
    | .outcomes => some .outcome
    | .filings => some .filing
    | .corporateActions => some .corporateAction
    | _ => none)

structure SubscribeRequest where
  subscriptionId : String := ""
  row : String := ""
  subjects : List String := []
  seriesKeys : List Identifier := []
  allSeries : Bool := false
  expirationFrom : String := ""
  expirationTo : String := ""
  fields : List String := []
  deriving DecidableEq

/-- A series key as a subscription holds it: its scheme and value, and for a ticker its venue's MIC, in
capitals, as the reads match one. -/
def seriesNamed (identifier : Identifier) : String :=
  if identifier.scheme = tickerScheme then
    let venue := String.ofList (identifier.source.toList.map Char.toUpper)
    s!"{identifier.scheme}={identifier.value}@{venue}"
  else s!"{identifier.scheme}={identifier.value}"

/-- The template paths a listed series' expiry is read from, in order. -/
def expiryPaths : List String := ["expiration_date", "last_trade_date", "final_settlement_date"]

/-- A listed series' expiry, as its terms state it. -/
def expiry (series : ListedSeries) : Option Date :=
  expiryPaths.findSome? fun path =>
    (series.fields.find? fun field => field.path == path).bind fun field => Date.parse (Text.trim field.value)

/-- A set of the entries. -/
def setOf (entries : List String) : BTreeSet String := entries.foldl (fun set entry => set.insert entry) ∅

/-- A row's series key, as `seriesNamed` names each of its identifiers. -/
def rowSeries (key : List Identifier) : BTreeSet String := setOf (key.map seriesNamed)

/-- One open subscription. -/
structure Open where
  /-- The request as asked, its id aside. -/
  asked : SubscribeRequest := {}
  row : String := ""
  lake : Bool := true
  wanted : Option DataType := none
  subjects : BTreeSet String := ∅
  series : BTreeSet String := ∅
  allSeries : Bool := false
  window : Option Window := none
  /-- Within a window: the series the listing holds expiring in it. -/
  listed : BTreeSet String := ∅
  fields : BTreeSet String := ∅
  /-- The stream it was opened on, and is delivered on. -/
  generation : Nat := 0

namespace Open

def inWindow (held : Open) (date : Date) : Bool :=
  match held.window with
  | none => true
  | some window => window.holds date

/-- Whether a lake row about `subjects`, keyed by `series` (empty for the subject's own row), is this
selector's. -/
def holds (held : Open) (subjects : List String) (series : BTreeSet String) : Bool :=
  if ¬ subjects.any (held.subjects.contains ·) then false
  else if series.isEmpty then
    -- A subject's own row is heard unless the selector names only series by key.
    held.series.isEmpty || held.allSeries
  else if held.allSeries then held.window.isNone || series.any (held.listed.contains ·)
  else series.any (held.series.contains ·)

/-- The fields this selector reads of a dataset the plugin may read `entitled` of: an empty set for
every field. -/
def mask (held : Open) (entitled : BTreeSet String) (meta_ : Option String) : BTreeSet String :=
  if held.fields.isEmpty then entitled
  else
    let mask := if entitled.isEmpty then held.fields else held.fields.filter fun field => entitled.contains field
    match meta_ with
    | some meta_ => mask.insert meta_
    | none => mask

end Open

/-- What a delivery matched: the subscriptions, and the union of their masks; none where one of them
reads every field the plugin may. -/
structure Matched where
  ids : List String := []
  mask : Option (BTreeSet String) := none

/-- The union of two masks. -/
def union (a b : BTreeSet String) : BTreeSet String := b.foldl (fun held field => held.insert field) a

/-- A mask joined by one selector's: none once a selector reads every field. -/
def joined (mask : Option (BTreeSet String)) (theirs : BTreeSet String) : Option (BTreeSet String) :=
  if theirs.isEmpty then none else mask.map fun held => union held theirs

/-- The subscriptions a lake row is of, on the stream it is delivered on. -/
def selected (open_ : BTreeMap String Open) (generation : Nat) (row : String) (subjects : List String)
    (series : BTreeSet String) : List (String × Open) :=
  open_.toList.filter fun entry =>
    entry.2.generation = generation && entry.2.row = row && entry.2.lake && entry.2.holds subjects series

/-- What the subscriptions selected match, and their mask. -/
def matchedOf (selected : List (String × Open)) (entitled : BTreeSet String) (meta_ : Option String) : Matched where
  ids := selected.map Prod.fst
  mask := if selected = [] then none
    else selected.foldl (fun mask entry => joined mask (entry.2.mask entitled meta_)) (some ∅)

/-- A listed series heard first widens each open window it falls in. -/
def widened (open_ : BTreeMap String Open) (subjects : List String) (series : BTreeSet String) (payload : Payload) :
    BTreeMap String Open :=
  match payload with
  | .series (some listed) =>
    match expiry listed with
    | some date => open_.map fun _ held =>
        if held.lake && held.allSeries && held.window.isSome && held.inWindow date &&
            subjects.any (held.subjects.contains ·) then
          { held with listed := union held.listed series }
        else held
    | none => open_
  | _ => open_

/-- A lake row heard: the subscriptions it matches, and their mask. -/
def matchingLake (open_ : BTreeMap String Open) (generation : Nat) (row : String) (said : Said) (payload : Payload)
    (entitled : BTreeSet String) (meta_ : Option String) : BTreeMap String Open × Matched :=
  let series := rowSeries said.series
  let widened := widened open_ said.subjects series payload
  (widened, matchedOf (selected widened generation row said.subjects series) entitled meta_)

/-- What a plugin's stream hears a lake row by: its own rows and subjects, the fields it may read of each
dataset, and its generation. -/
structure Heard where
  chosen : BTreeSet String := ∅
  subjects : BTreeSet String := ∅
  /-- The fields it may read of a dataset: none for none of it, an empty set for every field. -/
  entitled : String → Option (BTreeSet String)
  generation : Nat := 0
  instanceId : String := ""

/-- What is queued of a row delivered. -/
structure Delivered where
  payload : Payload
  subscriptionIds : List String
  key : Option String
  deriving DecidableEq

def instanceOf (dataset : String) : Option String :=
  if ':' ∈ dataset.toList then some (String.ofList (dataset.toList.takeWhile (· ≠ ':'))) else none

/-- The fields a delivery carries: by the stream's own subjects every field the plugin may read, by
subscriptions alone what they read. -/
def deliveryMask (entitled : BTreeSet String) (named : Bool) (matched : Matched) : BTreeSet String :=
  if named then entitled else matched.mask.getD entitled

/-- A row heard and matched, queued under its key where the stream or a subscription hears it. -/
def queued (key : Option String) (entitled : BTreeSet String) (named : Bool) (payload : Payload)
    (held : BTreeMap String Open × Matched) : BTreeMap String Open × Option Delivered :=
  if !named && held.2.ids.isEmpty then (held.1, none)
  else (held.1, some ⟨stripped (deliveryMask entitled named held.2) payload, held.2.ids, key⟩)

/-- One lake row heard: held to the dataset's entitlement and the subjects named, its fields stripped by
the entitlement and the subscriptions' fields, and queued under its key. -/
def deliver (heard : Heard) (open_ : BTreeMap String Open) (row : String) (payload : Payload) :
    BTreeMap String Open × Option Delivered :=
  let byStream := heard.chosen.contains row
  match said payload with
  | none => (open_, if byStream then some ⟨payload, [], none⟩ else none)
  | some said =>
    if said.isWant then
      if ¬ byStream ∨ instanceOf said.dataset ≠ some heard.instanceId then (open_, none)
      else (open_, some ⟨payload, [], said.key⟩)
    else
      match heard.entitled said.dataset with
      | none => (open_, none)
      | some fields =>
        -- A dataset's liveness names no subject: every reader of the dataset hears it.
        let named := byStream && (said.subjects.isEmpty || said.subjects.any (heard.subjects.contains ·))
        queued said.key fields named payload
          (matchingLake open_ heard.generation row said payload fields (metaEntry payload))

end MeridianCore.Sidecar
