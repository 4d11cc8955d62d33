import MeridianCore.Instruments.Merge
import MeridianCore.Ordered.Run

namespace MeridianCore.Instruments

/-- A resolve nothing matched, as it was asked. -/
structure Asking where
  request : ResolveIdentifierRequest
  asked : List Asked
  instanceId : String
  deriving DecidableEq, Inhabited

/-- The store, the resolves between their two halves, and those the platform may yet answer. -/
structure Deployment where
  held : Held := {}
  waiting : List Asking := []
  late : List Asking := []
  deriving Inhabited

/-- What is done to the store under its lock. -/
inductive Event where
  /-- A resolve's first half. -/
  | resolve (request : ResolveIdentifierRequest) (instanceId : String)
  /-- Its second, once the platform was asked; the ID is one drawn for it. -/
  | answerResolve (place : Nat) (said : PlatformSaid) (instrumentId : String) (template : Option Template)
      (lacking : List String)
  /-- The platform's answer to a resolve that waited no longer. -/
  | lateAnswer (place : Nat) (said : PlatformSaid) (instrumentId : String) (template : Option Template)
      (lacking : List String)
  /-- The platform's answer for a record asked about again. -/
  | answer (instrumentId : String) (said : PlatformSaid) (lacking : List String)
  | complete (completion : InstrumentCompletion)
  | merge (request : MergeRequest)
  | platformAnswer (forInstrumentId : String) (answer : InstrumentRecord) (contract : Option String)
  /-- A plugin's offer of the fields of a template, some of which it repeats. -/
  | templateFields (instrumentId instanceId : String) (fields : List TemplateField) (repeated : List String)
  | bounds (member instanceId contract : String)
  | line (instrumentId : String) (line : Local)
  | holdBack (instrumentId : String)
  | makeLine (instrumentId : String) (lacking : List String)
  | feed (entry : FeedEntry) (lacking : List String)

/-- One event at its time, and how many of its calls the store made where one failed. -/
structure Move where
  event : Event
  nowNs : Int
  made : Option Nat := none

/-- The platform's answer to a resolve that waited no longer: for the record it would find now, or kept as the
second half keeps it. -/
def lateCalls (termAt : TermAt) (held : Held) (asking : Asking) (said : PlatformSaid) (instrumentId : String)
    (template : Option Template) (lacking : List String) (nowNs : Int) : List Call :=
  let found := resolveIdentifierReadOnly held asking.request
  if found.found then applyAnswer termAt held found.instrumentId said lacking nowNs
  else
    match said with
    | .record _ =>
      (resolveUnmatched termAt held asking.request asking.asked asking.instanceId instrumentId nowNs said template
        lacking).2
    | .pending | .unreachable | .notAsked => []

namespace Deployment

/-- What an event has the store do, in its order. -/
def calls (termAt : TermAt) (deployment : Deployment) (event : Event) (nowNs : Int) : List Call :=
  let held := deployment.held
  match event with
  | .resolve request instanceId => (resolveMatched termAt held request instanceId nowNs).2
  | .answerResolve place said instrumentId template lacking =>
    match deployment.waiting[place]? with
    | some asking =>
      (resolveUnmatched termAt held asking.request asking.asked asking.instanceId instrumentId nowNs said template
        lacking).2
    | none => []
  | .lateAnswer place said instrumentId template lacking =>
    match deployment.late[place]? with
    | some asking => lateCalls termAt held asking said instrumentId template lacking nowNs
    | none => []
  | .answer instrumentId said lacking => applyAnswer termAt held instrumentId said lacking nowNs
  | .complete completion => (completeOne held completion nowNs).2
  | .merge request => ((mergeAs termAt held request nowNs).toOption).getD []
  | .platformAnswer forInstrumentId answer contract => keepPlatformAnswer termAt held forInstrumentId answer contract nowNs
  | .templateFields instrumentId instanceId fields repeated =>
    offerTemplateFields termAt held instrumentId instanceId fields repeated nowNs
  | .bounds member instanceId contract => offerBounds termAt held member instanceId contract nowNs
  | .line instrumentId line => lineOf held instrumentId line nowNs
  | .holdBack instrumentId => Instruments.holdBack held instrumentId nowNs
  | .makeLine instrumentId lacking => Instruments.makeLine termAt held instrumentId lacking nowNs
  | .feed entry lacking => applyEntry termAt held entry lacking nowNs

/-- What a resolve is answered. -/
def reply (termAt : TermAt) (deployment : Deployment) (event : Event) (nowNs : Int) : Option ResolveIdentifierReply :=
  match event with
  | .resolve request instanceId =>
    match (resolveMatched termAt deployment.held request instanceId nowNs).1 with
    | .answered reply => some reply
    | .unmatched _ => none
  | .answerResolve place said instrumentId template lacking =>
    (deployment.waiting[place]?).map fun asking =>
      (resolveUnmatched termAt deployment.held asking.request asking.asked asking.instanceId instrumentId nowNs said
        template lacking).1
  | _ => none

/-- What an event leaves the resolves under way. -/
def waits (termAt : TermAt) (deployment : Deployment) (event : Event) (nowNs : Int) : Deployment :=
  match event with
  | .resolve request instanceId =>
    match (resolveMatched termAt deployment.held request instanceId nowNs).1 with
    | .unmatched asked => { deployment with waiting := deployment.waiting ++ [{ request, asked, instanceId }] }
    | .answered _ => deployment
  | .answerResolve place _ _ _ _ =>
    { deployment with
      waiting := deployment.waiting.eraseIdx place
      late := deployment.late ++ (deployment.waiting[place]?).toList }
  | .lateAnswer place _ _ _ _ => { deployment with late := deployment.late.eraseIdx place }
  | _ => deployment

/-- The calls of an event the store made. -/
def made (termAt : TermAt) (deployment : Deployment) (label : Move) : List Call :=
  let calls := deployment.calls termAt label.event label.nowNs
  match label.made with
  | none => calls
  | some count => calls.take count

/-- An ID drawn for a record is one no record has. -/
def draws (held : Held) : Event → Bool
  | .answerResolve _ _ instrumentId _ _ | .lateAnswer _ _ instrumentId _ _ =>
    begins instrumentId localPrefix && (held.byId[instrumentId]?).isNone
  | _ => true

def move (termAt : TermAt) (deployment : Deployment) (label : Move) : Option Deployment :=
  if draws deployment.held label.event then
    some { deployment.waits termAt label.event label.nowNs with
      held := deployment.held.calls (deployment.made termAt label) }
  else none

end Deployment

end MeridianCore.Instruments
