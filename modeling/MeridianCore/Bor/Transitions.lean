import MeridianCore.Bor.Store

namespace MeridianCore.Bor

/-- A row's start: a state, any state, or none, a record being created. -/
inductive Starts where
  | state (state : OrderState)
  | any
  | none
  deriving DecidableEq

/-- A row's end: a state the transition reaches or the fold decides among, or the state left as it was. -/
inductive Reaches where
  | state (state : OrderState)
  | unchanged
  deriving DecidableEq

/-- One row of the order's table. -/
structure Transition where
  row : String
  starts : List Starts
  cause : String
  causedBy : List String
  reaches : List Reaches
  refusal : List RefusalReason
  deriving DecidableEq

/-- The row of fills while a cancel is pending. -/
def fillsWhileCancelPending : Transition where
  row := "11"
  starts := [.state .working]
  cause := "fills while a cancel is pending (venue facts); change requested stays"
  causedBy := ["connectivity"]
  reaches := [.state .working, .state .filled]
  refusal := []

/-- The row of fills while a replace is pending. -/
def fillsWhileReplacePending : Transition where
  row := "13"
  starts := [.state .working]
  cause := "fills while a replace is pending (venue facts)"
  causedBy := ["connectivity"]
  reaches := [.state .working, .state .filled]
  refusal := []

/-- The row of a release. -/
def releaseRow : Transition where
  row := "1"
  starts := [.state .proposed]
  cause :=
    "a release, through the gate, its allocation equal to its ordered quantity (the transfer from " ++
      "portfolio to oms)"
  causedBy := ["oms"]
  reaches := [.state .released]
  refusal := [.allocationUnbalanced, .checkBlocks, .approvalRequired, .orderState]

/-- The row of an approval. -/
def approvalRow : Transition where
  row := "2"
  starts := [.state .proposed]
  cause := "approval required by policy, then a person's approval"
  causedBy := ["compliance", "oms"]
  reaches := [.state .released]
  refusal := [.actorRequired]

/-- The row of an override. -/
def overrideRow : Transition where
  row := "3"
  starts := [.state .proposed]
  cause := "a verdict of warn or block, then a person's override of a block, with a reason"
  causedBy := ["compliance"]
  reaches := [.state .released]
  refusal := [.actorRequired, .reasonRequired]

/-- The row of a refusal. -/
def refusalRow : Transition where
  row := "4"
  starts := [.state .proposed]
  cause := "a verdict of refuse; or a rejection by the oms asked to work the order"
  causedBy := ["compliance", "oms"]
  reaches := [.state .refused]
  refusal := []

/-- The row of a recall. -/
def recallRow : Transition where
  row := "5"
  starts := [.state .released]
  cause := "a recall, with nothing committed or filled"
  causedBy := ["oms"]
  reaches := [.state .proposed]
  refusal := [.orderState]

/-- The row of what commits quantity first. -/
def commitRow : Transition where
  row := "6"
  starts := [.state .released]
  cause := "a placement or a child order commits quantity"
  causedBy := ["ems"]
  reaches := [.state .working]
  refusal := [.connectivityNotAllowed, .claimed, .orderState, .agentLiveOrder]

/-- The row of placements created and ended. -/
def workRow : Transition where
  row := "8"
  starts := [.state .released, .state .working]
  cause := "placements created and ended, quantity between idle and committed; over-commitment shown, never refused"
  causedBy := ["ems"]
  reaches := [.unchanged]
  refusal := []

/-- The row of a pause. -/
def pauseRow : Transition where
  row := "9"
  starts := [.state .working]
  cause := "a pause or a resume of working, for a person (a condition)"
  causedBy := ["ems", "oms"]
  reaches := [.unchanged]
  refusal := [.claimed, .orderState]

/-- The row of a change beside one pending. -/
def changeRow : Transition where
  row := "15"
  starts := [.state .released, .state .working]
  cause := "a second change while the first is pending, tracked"
  causedBy := ["ems", "oms"]
  reaches := [.unchanged]
  refusal := [.claimed, .orderState]

/-- The row of a change of a placement. -/
def placementChangeRow : Transition where
  row := "16"
  starts := [.state .released, .state .working]
  cause := "a cancel of an unacknowledged placement, or one crossing the acknowledgement"
  causedBy := ["ems", "oms"]
  reaches := [.unchanged]
  refusal := [.claimed, .orderState]

/-- The row of an upsizing change. -/
def upsizingRow : Transition where
  row := "18"
  starts := [.state .filled]
  cause :=
    "an upsizing change, applied: portfolio's own order, its allocation amended in the same act; the " ++
      "oms's only for a trader's alignment"
  causedBy := ["portfolio", "oms"]
  reaches := [.state .working]
  refusal := [.orderState, .reasonRequired]

/-- The row of a withdrawal. -/
def withdrawalRow : Transition where
  row := "i1"
  starts := [.state .proposed]
  cause := "a withdrawal"
  causedBy := ["oms", "portfolio"]
  reaches := [.state .cancelled]
  refusal := [.orderState]

/-- The row of a split child. -/
def childRow : Transition where
  row := "i2"
  starts := [.none]
  cause :=
    "a split child's proposal under a released parent: released on creation, within the parent, not " ++
      "through the gate"
  causedBy := ["ems", "oms"]
  reaches := [.state .released]
  refusal := [.orderState]

/-- The row of an order cancel. -/
def cancelRow : Transition where
  row := "i3"
  starts := [.state .released, .state .working]
  cause := "an order cancel: each live placement and child order asked to cancel; cancelled when none is live"
  causedBy := ["oms", "ems"]
  reaches := [.state .cancelled]
  refusal := [.claimed, .orderState]

/-- The row of an expiry. -/
def expiryRow : Transition where
  row := "i4"
  starts := [.state .released, .state .working]
  cause :=
    "the order's time in force ends, by the deployment's clock (actor the system); live placements asked " ++
      "to cancel first"
  causedBy := ["bor"]
  reaches := [.state .expired]
  refusal := []

/-- The row of a cancel under a stop. -/
def stopCancelRow : Transition where
  row := "i6"
  starts := [.state .released, .state .working]
  cause :=
    "a cancel under a stop: each working plugin's cancel, its cause the stop's entry; a connectivity " ++
      "plugin's venue cancel reported at once, actor the venue, past a claim, needing no service account"
  causedBy := ["oms", "ems", "connectivity"]
  reaches := [.state .cancelled]
  refusal := [.orderState]

/-- The row of a day order never released. -/
def unreleasedExpiryRow : Transition where
  row := "i7"
  starts := [.state .proposed]
  cause :=
    "a day order never released: its day ends, by the deployment's clock (actor the system), awaiting " ++
      "check or approval included"
  causedBy := ["bor"]
  reaches := [.state .expired]
  refusal := []

namespace Transition

/-- Whether a row starts from a state, or from none where a record is being created. -/
def startsFrom (row : Transition) (state : Option OrderState) : Bool :=
  row.starts.any fun
    | .any => true
    | .none => state.isNone
    | .state held => state == some held

/-- Whether a row allows one state to another: it starts from the first, and the second is one it
reaches or decides among, or the state left as it was. -/
def admits (row : Transition) (before : Option OrderState) (after : OrderState) : Bool :=
  row.startsFrom before &&
    (some after == before || row.reaches.any fun
      | .unchanged => some after == before
      | .state state => state == after)

end Transition

end MeridianCore.Bor
