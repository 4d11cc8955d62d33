import MeridianCore.Lake.Row
import MeridianCore.Ordered.Latest

namespace MeridianCore.Lake
open Std (TransOrd LawfulEqOrd)

namespace DataType

/-- A data type as a store numbers it. -/
def code : DataType → Nat
  | price => 1
  | bar => 2
  | trade => 3
  | quote => 4
  | outcome => 5
  | rate => 6
  | executionCost => 7
  | statistic => 8
  | series => 9
  | derived => 10
  | scenario => 11
  | corporateAction => 12
  | filing => 13
  | reportedFact => 14
  | ratingAction => 15
  | holdingsReport => 16
  | holding => 17
  | factor => 18

theorem code_inj {a b : DataType} (same : a.code = b.code) : a = b := by
  cases a <;> cases b <;> first | rfl | cases same

end DataType

namespace Observation

/-- When a source published a row: its published source time, or where the source states none, when the
lake recorded it. -/
def publishedAt (row : Observation) : Int :=
  match row.about.sourceTimes.find? fun time => time.kind == 5 with
  | some time => time.atNs
  | none => row.about.recordedAtNs

/-- A rate's published time, by which its versions take force; none for any other data type. -/
def publishedOrder (row : Observation) : Option Int :=
  if row.dataType = .rate then some row.publishedAt else none

/-- The order a row key's versions take force in. -/
def forceOrder (row : Observation) : Int ×ₗ Nat := toLex (row.publishedOrder.getD 0, row.about.version)

/-- Whether a row's effective state is invalid: what a default or side-by-side read leaves out. -/
def invalid (row : Observation) : Bool := row.about.quality = 3

/-- What a row is a version of. -/
def versionKey (row : Observation) : String × Nat × String := (row.dataset, row.dataType.code, row.about.rowKey)

/-- What the latest is chosen per. -/
def inForceKey (row : Observation) : String × String × Int × String × Int × String × String :=
  (row.subject, row.dataset, row.kind, row.venue, row.intervalNs, row.asset, row.point)

/-- What the latest of a key is chosen by. -/
def latestOrder (row : Observation) : Int ×ₗ Nat := toLex (row.about.validFromNs, row.about.sequence)

end Observation

/-- Each row key at its version in force among those recorded by `asOfNs`, 0 for now. -/
def asOf (rows : List Observation) (asOfNs : Int) : List Observation :=
  let recorded := rows.filter fun row => decide (asOfNs = 0) || decide (row.about.recordedAtNs ≤ asOfNs)
  let latest := latestBy Observation.versionKey Observation.forceOrder recorded
  latest.valuesOf.insertionSort fun a b => (compare (a.dataset, a.about.sequence) (b.dataset, b.about.sequence)).isLE

/-- The latest in force per subject, dataset, kind, venue, length and asset, and a rate's point and
convention: what a read of the latest at a valid time answers. -/
def latestInForce (rows : List Observation) : List Observation :=
  (latestBy Observation.inForceKey Observation.latestOrder rows).valuesOf

/-- What a read of the latest answers over rows: of those in force now and not invalid. -/
def latestRead (rows : List Observation) : List Observation :=
  latestInForce ((asOf rows 0).filter fun row => !row.invalid)

theorem mem_asOf {rows : List Observation} {row : Observation} :
    row ∈ asOf rows 0 ↔ (latestBy Observation.versionKey Observation.forceOrder rows)[row.versionKey]? = some row := by
  unfold asOf
  rw [(List.perm_insertionSort _ _).mem_iff, latestBy.mem_valuesOf]
  simp

/-- A row is in force where none of its row key's is above it. -/
theorem mem_asOf_iff {rows : List Observation} {row : Observation}
    (apart : ∀ a ∈ rows, ∀ b ∈ rows, a.versionKey = b.versionKey → a.forceOrder = b.forceOrder → a = b) :
    row ∈ asOf rows 0 ↔ row ∈ rows ∧ ∀ other ∈ rows, other.versionKey = row.versionKey → other.forceOrder ≤ row.forceOrder := by
  rw [mem_asOf, latestBy.found_iff apart]
  simp

theorem mem_latestInForce {rows : List Observation} {row : Observation} :
    row ∈ latestInForce rows ↔
      (latestBy Observation.inForceKey Observation.latestOrder rows)[row.inForceKey]? = some row :=
  latestBy.mem_valuesOf

theorem mem_latestInForce_iff {rows : List Observation} {row : Observation}
    (apart : ∀ a ∈ rows, ∀ b ∈ rows, a.inForceKey = b.inForceKey → a.latestOrder = b.latestOrder → a = b) :
    row ∈ latestInForce rows ↔
      row ∈ rows ∧ ∀ other ∈ rows, other.inForceKey = row.inForceKey → other.latestOrder ≤ row.latestOrder := by
  rw [mem_latestInForce, latestBy.found_iff apart]
  simp

theorem mem_latestRead_in_force {rows : List Observation} {row : Observation} (member : row ∈ latestRead rows) :
    row ∈ asOf rows 0 ∧ row.invalid = false ∧
      ∀ other ∈ asOf rows 0, other.invalid = false → other.inForceKey = row.inForceKey →
        other.latestOrder ≤ row.latestOrder := by
  obtain ⟨inside, -, above⟩ := latestBy.found (mem_latestInForce.mp member)
  obtain ⟨force, valid⟩ := List.mem_filter.mp inside
  refine ⟨force, by simpa using valid, fun other standing proper same => ?_⟩
  exact above other (List.mem_filter.mpr ⟨standing, by simp [proper]⟩) same

theorem nodup_latestRead (rows : List Observation) : (latestRead rows).Nodup := latestBy.nodup_valuesOf _

end MeridianCore.Lake
