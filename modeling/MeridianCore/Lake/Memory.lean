import MeridianCore.Lake.Row
import MeridianCore.Ordered.Latest
import MeridianCore.Ordered.Run

namespace MeridianCore.Lake

/-- What recording a batch did. -/
structure Recorded where
  /-- Its rows numbered, an unchanged one left out. -/
  rows : List Observation := []
  recorded : Nat := 0
  restated : Nat := 0
  unchanged : Nat := 0
  /-- The partition's head after it. -/
  head : Nat := 0
  deriving DecidableEq

/-- Whether two rows are versions of one row, within a dataset. -/
def Observation.sameRow (a b : Observation) : Bool :=
  decide (a.dataType = b.dataType) && decide (a.about.rowKey = b.about.rowKey)

/-- Whether two rows are of one data type and first subject, within a dataset. -/
def Observation.sameSubject (a b : Observation) : Bool :=
  decide (a.dataType = b.dataType) && decide (a.subject = b.subject)

/-- A row with what the lake decides of it set. -/
def Observation.numbered (version sequence previousSequence : Nat) (recordedAtNs : Int) (row : Observation) :
    Observation :=
  row.under { row.about with version, sequence, previousSequence, recordedAtNs }

/-- A row put in its place in the partition. -/
def Recorded.take (done : Recorded) (nowNs : Int) (previous : Observation → Nat) (version : Nat) (row : Observation) :
    Recorded :=
  let previousSequence := match done.rows.reverse.find? fun held => held.sameSubject row with
    | some held => held.about.sequence
    | none => previous row
  { done with
    head := done.head + 1
    rows := done.rows ++ [row.numbered version (done.head + 1) previousSequence nowNs] }

/-- The version of a row key a batch's next row is compared with: the batch's own last, or the one held. -/
def Recorded.earlier (done : Recorded) (latest : Observation → Option Observation) (row : Observation) :
    Option Observation :=
  (done.rows.reverse.find? fun held => held.sameRow row).or (latest row)

/-- One row of a batch numbered. -/
def numberRow (nowNs : Int) (latest : Observation → Option Observation) (previous : Observation → Nat)
    (done : Recorded) (row : Observation) : Recorded :=
  match done.earlier latest row with
  | some held =>
    if held.sameValue row then { done with unchanged := done.unchanged + 1 }
    -- A confirmation is the next version, and counted unchanged.
    else if held.confirms row then
      { done with unchanged := done.unchanged + 1 }.take nowNs previous (held.about.version + 1) row
    else { done with restated := done.restated + 1 }.take nowNs previous (held.about.version + 1) row
  | none => { done with recorded := done.recorded + 1 }.take nowNs previous 1 row

/-- Number a batch and decide each row's version against what is held and what the batch has numbered
before it. -/
def number (rows : List Observation) (head : Nat) (nowNs : Int) (latest : Observation → Option Observation)
    (previous : Observation → Nat) : Recorded :=
  rows.foldl (numberRow nowNs latest previous) { head }

/-- The row of the greater version, the later of two that tie. -/
def greater (best : Option Observation) (other : Observation) : Option Observation :=
  match best with
  | some best => if other.about.version < best.about.version then some best else some other
  | none => some other

/-- What a store holds of its datasets. -/
structure Held where
  heads : BTreeMap String Nat := ∅
  rows : List Observation := []

namespace Held

def head (held : Held) (dataset : String) : Nat := held.heads[dataset]?.getD 0

/-- The row held of a row key at its greatest version. -/
def latest (held : Held) (dataset : String) (row : Observation) : Option Observation :=
  (held.rows.filter fun other => decide (other.dataset = dataset) && other.sameRow row).foldl greater none

/-- The last sequence held of a row's data type and first subject; 0 where none is. -/
def previous (held : Held) (dataset : String) (row : Observation) : Nat :=
  ((held.rows.filter fun other => decide (other.dataset = dataset) && other.sameSubject row).map
    fun other => other.about.sequence).foldl max 0

/-- Number a batch of one dataset and keep it. -/
def record (held : Held) (dataset : String) (rows : List Observation) (nowNs : Int) : Held × Recorded :=
  let done := number rows (held.head dataset) nowNs (held.latest dataset) (held.previous dataset)
  ({ heads := held.heads.insert dataset done.head, rows := held.rows ++ done.rows }, done)

/-- Number a batch of a dataset no value of which is kept. -/
def serveUnkept (held : Held) (dataset : String) (rows : List Observation) (nowNs : Int) : Held × Recorded :=
  let done := number rows (held.head dataset) nowNs (fun _ => none) (fun _ => 0)
  ({ held with heads := held.heads.insert dataset done.head }, done)

/-- Remove a dataset's rows recorded before a time. Answers how many. -/
def removeBefore (held : Held) (dataset : String) (recordedBeforeNs : Int) : Held × Nat :=
  let kept := held.rows.filter fun row =>
    decide (row.dataset ≠ dataset) || decide (recordedBeforeNs ≤ row.about.recordedAtNs)
  ({ held with rows := kept }, held.rows.length - kept.length)

end Held

end MeridianCore.Lake
