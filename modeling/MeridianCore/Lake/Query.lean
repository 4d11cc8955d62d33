import MeridianCore.Domain.DateOrder
import MeridianCore.Lake.Latest
import MeridianCore.Lake.Memory

/-! What a store answers of a query. It keeps the rows that answer the query and only then each row key's version in force among
them: a version is in force so where none above it answers the query, whatever does not. -/

namespace MeridianCore.Lake

/-- Which valid time a read asks about. -/
inductive When where
  /-- The latest in force at a valid time; 0 for now. -/
  | latest (atNs : Int)
  | businessDate (date : Date)
  /-- From inclusive to until exclusive, 0 for no end. -/
  | range (fromNs untilNs : Int)
  /-- The rows each partition named recorded after its sequence there. -/
  | after (watermark : BTreeMap String Nat)

/-- What a store reads: the rows of these datasets about these subjects, as of a recorded time. -/
structure Query where
  datasets : List String
  subjects : List String
  dataType : DataType
  /-- Prices' kinds; empty for every kind. -/
  kinds : List Enumeration := []
  /-- Bars' length; 0 for every length. -/
  intervalNs : Int := 0
  «when» : When
  /-- The recorded-time cut-off; 0 for none. -/
  asOfNs : Int := 0
  /-- A rate's published-time cut-off; 0 for none. -/
  publishedAsOfNs : Int := 0

/-- Whether a query answers every version it finds, not each row key's latest. -/
def everyVersion (query : Query) : Bool :=
  (match query.dataType, query.when with
    | .outcome, .after _ | .corporateAction, .after _ | .filing, .after _ | .factor, .after _ => true
    | _, _ => false) || query.publishedAsOfNs ≠ 0

/-- Whether a row is recorded at or before a cut-off, 0 for none. -/
def recordedAt (asOfNs : Int) (row : Observation) : Bool := decide (asOfNs = 0) || decide (row.about.recordedAtNs ≤ asOfNs)

/-- Each row recorded at or before a cut-off, every version. -/
def recordedBy (rows : List Observation) (asOfNs : Int) : List Observation :=
  (rows.filter (recordedAt asOfNs)).insertionSort fun a b =>
    (compare (a.dataset, a.about.sequence) (b.dataset, b.about.sequence)).isLE

/-- Whether a row answers a query's valid time and kind, before versions are chosen. -/
def answersQuery (row : Observation) (query : Query) : Bool :=
  decide (row.dataType = query.dataType) &&
    (query.kinds.isEmpty || query.kinds.contains row.kind) &&
    (decide (query.intervalNs = 0) || decide (row.intervalNs = query.intervalNs)) &&
    match query.when with
    | .latest atNs => decide (atNs = 0) || decide (row.about.validFromNs ≤ atNs)
    | .businessDate date => decide (row.about.businessDate = toString date)
    | .range fromNs untilNs =>
      decide (fromNs ≤ row.about.validFromNs) && (decide (untilNs = 0) || decide (row.about.validFromNs < untilNs))
    | .after watermark => (watermark[row.dataset]?).any fun after => decide (after < row.about.sequence)

/-- Whether a row is one a query asks for: of its datasets, about one of its subjects, of its valid time and kind. -/
def asked (query : Query) (row : Observation) : Bool :=
  query.datasets.contains row.dataset && row.subjects.any (query.subjects.contains ·) && answersQuery row query

/-- What a store answers: the rows asked for, then of each row key its version in force. -/
def Held.read (held : Held) (query : Query) : List Observation :=
  let rows := held.rows.filter (asked query)
  if everyVersion query then recordedBy rows query.asOfNs else asOf rows query.asOfNs

/-- No row answered has a later version of its row key, in the order versions take force, recorded by the cut-off. -/
def AnswersInForce (held : Held) (query : Query) : Prop :=
  ∀ row ∈ held.read query, ∀ other ∈ held.rows, other.versionKey = row.versionKey → recordedAt query.asOfNs other = true →
    other.forceOrder ≤ row.forceOrder

/-- No version asked for has a later one recorded by the cut-off, but where one as late is asked for too: a correction left its row
where the query finds it. -/
def StaysAsked (held : Held) (query : Query) : Prop :=
  ∀ row ∈ held.rows, asked query row = true → recordedAt query.asOfNs row = true →
    ∀ other ∈ held.rows, other.versionKey = row.versionKey → recordedAt query.asOfNs other = true →
      ∃ last ∈ held.rows, last.versionKey = row.versionKey ∧ asked query last = true ∧ recordedAt query.asOfNs last = true ∧
        other.forceOrder ≤ last.forceOrder

section
variable {held : Held} {query : Query} {rows : List Observation} {row : Observation} {asOfNs : Int}

theorem mem_asOf_at : row ∈ asOf rows asOfNs ↔ (latestBy Observation.versionKey Observation.forceOrder
    (rows.filter (recordedAt asOfNs)))[row.versionKey]? = some row := by
  unfold asOf
  rw [(List.perm_insertionSort _ _).mem_iff, latestBy.mem_valuesOf]
  rfl

/-- A row answered is asked for and recorded, and none such of its row key is above it. -/
theorem read_found (latest : everyVersion query = false) (member : row ∈ held.read query) : row ∈ held.rows ∧
    asked query row = true ∧ recordedAt query.asOfNs row = true ∧
    ∀ other ∈ held.rows, asked query other = true → recordedAt query.asOfNs other = true → other.versionKey = row.versionKey →
      other.forceOrder ≤ row.forceOrder := by
  unfold Held.read at member
  dsimp only at member
  rw [if_neg (by rw [latest]; exact Bool.false_ne_true), mem_asOf_at] at member
  obtain ⟨inside, -, above⟩ := latestBy.found member
  obtain ⟨inside, recorded⟩ := List.mem_filter.mp inside
  obtain ⟨inside, asks⟩ := List.mem_filter.mp inside
  refine ⟨inside, asks, recorded, fun other listed asks' recorded' same => above other ?_ same⟩
  exact List.mem_filter.mpr ⟨List.mem_filter.mpr ⟨listed, asks'⟩, recorded'⟩

/-- Of a row asked for and recorded, some version of its row key is answered. -/
theorem exists_read (latest : everyVersion query = false) (listed : row ∈ held.rows) (asks : asked query row = true)
    (recorded : recordedAt query.asOfNs row = true) :
    ∃ answer ∈ held.read query, answer.versionKey = row.versionKey := by
  have inside : row ∈ (held.rows.filter (asked query)).filter (recordedAt query.asOfNs) :=
    List.mem_filter.mpr ⟨List.mem_filter.mpr ⟨listed, asks⟩, recorded⟩
  obtain ⟨answer, found⟩ := latestBy.held_of_mem Observation.versionKey Observation.forceOrder inside
  have same := (latestBy.found found).2.1
  refine ⟨answer, ?_, same⟩
  unfold Held.read
  dsimp only
  rw [if_neg (by rw [latest]; exact Bool.false_ne_true), mem_asOf_at, same, found]

/-- A read answers the version in force exactly where every correction left its row where the query finds it. -/
theorem answersInForce_iff (latest : everyVersion query = false) : AnswersInForce held query ↔ StaysAsked held query := by
  constructor
  · intro force row listed asks recorded other listed' same recorded'
    obtain ⟨answer, member, key⟩ := exists_read latest listed asks recorded
    obtain ⟨inside, asks', recorded'', -⟩ := read_found latest member
    exact ⟨answer, inside, key, asks', recorded'', force answer member other listed' (same.trans key.symm) recorded'⟩
  · intro stays row member other listed same recorded
    obtain ⟨inside, asks, recorded', above⟩ := read_found latest member
    obtain ⟨last, listed', key, asks', recorded'', le⟩ := stays row inside asks recorded' other listed same recorded
    exact le.trans (above last listed' asks' recorded'' key)

theorem mem_read_every (every : everyVersion query = true) : row ∈ held.read query ↔
    row ∈ held.rows ∧ asked query row = true ∧ recordedAt query.asOfNs row = true := by
  unfold Held.read recordedBy
  dsimp only
  rw [if_pos every, (List.perm_insertionSort _ _).mem_iff, List.mem_filter, List.mem_filter, and_assoc]

end

/-- A read answers the version in force exactly where every correction left its row where the query finds it, and every version
asked for only where the query's data type is kept by version or it asks by published time. -/
theorem read_inForce_iff (held : Held) (query : Query) :
    (everyVersion query = false → (AnswersInForce held query ↔ StaysAsked held query)) ∧
      (everyVersion query = true → ∀ row, row ∈ held.read query ↔
        row ∈ held.rows ∧ asked query row = true ∧ recordedAt query.asOfNs row = true) :=
  ⟨answersInForce_iff, fun every _ => mem_read_every every⟩

/-- A price of the fifth, corrected to be the sixth's. -/
def pricedOn (businessDate : String) : Observation := .price {
  envelope := some {
    rowKey := "close"
    subjects := [{ entityId := "INS-1" }]
    source := some { dataset := "closes" }
    businessDate } }

def corrected : Held := (((({} : Held).record "closes" [pricedOn "2026-10-05"] 1).1).record "closes" [pricedOn "2026-10-06"] 2).1

def onTheFifth : Query where
  datasets := ["closes"]
  subjects := ["INS-1"]
  dataType := .price
  «when» := .businessDate ⟨2026, 10, 5, by decide⟩

/-- The fifth is still answered the first version. -/
theorem corrected_answered : everyVersion onTheFifth = false ∧
    ((corrected.read onTheFifth).map fun row => (row.about.businessDate, row.about.version)) = [("2026-10-05", 1)] ∧
    (corrected.rows.map fun row => (row.about.businessDate, row.about.version)) = [("2026-10-05", 1), ("2026-10-06", 2)] ∧
    ¬ AnswersInForce corrected onTheFifth := by
  refine ⟨by decide +kernel, by decide +kernel, by decide +kernel, fun force => ?_⟩
  have first : (pricedOn "2026-10-05").numbered 1 1 0 1 ∈ corrected.read onTheFifth := by decide +kernel
  have second : (pricedOn "2026-10-06").numbered 2 2 1 2 ∈ corrected.rows := by decide +kernel
  exact absurd (force _ first _ second (by decide +kernel) (by decide +kernel)) (by decide +kernel)

end MeridianCore.Lake
