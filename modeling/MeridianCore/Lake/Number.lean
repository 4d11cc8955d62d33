import MeridianCore.Lake.Memory

namespace MeridianCore.Lake

namespace Observation

theorem sameRow_iff {a b : Observation} :
    a.sameRow b = true ↔ a.dataType = b.dataType ∧ a.about.rowKey = b.about.rowKey := by
  simp [sameRow]

theorem sameSubject_iff {a b : Observation} : a.sameSubject b = true ↔ a.dataType = b.dataType ∧ a.subject = b.subject := by
  simp [sameSubject]

theorem sameRow_congr {a b : Observation} (same : a.sameRow b = true) (other : Observation) :
    other.sameRow a = other.sameRow b := by
  obtain ⟨type, key⟩ := sameRow_iff.mp same
  simp [sameRow, type, key]

theorem sameSubject_congr {a b : Observation} (same : a.sameSubject b = true) (other : Observation) :
    other.sameSubject a = other.sameSubject b := by
  obtain ⟨type, subject⟩ := sameSubject_iff.mp same
  simp [sameSubject, type, subject]

section
variable (version sequence previousSequence : Nat) (recordedAtNs : Int) (row : Observation)

@[simp] theorem dataType_numbered :
    (row.numbered version sequence previousSequence recordedAtNs).dataType = row.dataType :=
  dataType_under _ _

@[simp] theorem about_numbered : (row.numbered version sequence previousSequence recordedAtNs).about =
    { row.about with version, sequence, previousSequence, recordedAtNs } :=
  about_under _ _

theorem sameRow_numbered : (row.numbered version sequence previousSequence recordedAtNs).sameRow row = true := by
  simp [sameRow]

theorem sameSubject_numbered : (row.numbered version sequence previousSequence recordedAtNs).sameSubject row = true := by
  simp [sameSubject, subject]

theorem dataset_numbered : (row.numbered version sequence previousSequence recordedAtNs).dataset = row.dataset := by
  simp [dataset]

end

end Observation

/-- One more than the greatest version among the rows before of a row's key. -/
def nextVersion (before : List Observation) (row : Observation) : Nat :=
  ((before.filter fun other => other.sameRow row).map fun other => other.about.version).foldl max 0 + 1

/-- The greatest sequence among the rows before of a row's data type and first subject; 0 where there is
none. -/
def lastSequence (before : List Observation) (row : Observation) : Nat :=
  ((before.filter fun other => other.sameSubject row).map fun other => other.about.sequence).foldl max 0

/-- Each row's version and previous sequence as the rows before it, and those held, say. -/
def Linked (base rows : List Observation) : Prop :=
  ∀ before row after, rows = before ++ row :: after →
    row.about.version = nextVersion (base ++ before) row ∧
      row.about.previousSequence = lastSequence (base ++ before) row

theorem foldl_max_append (values : List Nat) (value : Nat) :
    (values ++ [value]).foldl max 0 = max (values.foldl max 0) value := by
  simp

theorem foldl_max_le {values : List Nat} {bound : Nat} : values.foldl max 0 ≤ bound ↔ ∀ value ∈ values, value ≤ bound := by
  induction values using List.reverseRecOn with
  | nil => simp
  | append_singleton before last ih =>
    rw [foldl_max_append, max_le_iff, ih]
    constructor
    · rintro ⟨each, bounded⟩ value member
      rcases List.mem_append.mp member with earlier | same
      · exact each value earlier
      · rw [List.mem_singleton.mp same]
        exact bounded
    · intro each
      exact ⟨fun value member => each value (by simp [member]), each last (by simp)⟩

theorem nextVersion_snoc (before : List Observation) (last row : Observation) :
    nextVersion (before ++ [last]) row =
      if last.sameRow row then max (nextVersion before row) (last.about.version + 1) else nextVersion before row := by
  unfold nextVersion
  rw [List.filter_append]
  by_cases same : last.sameRow row = true
  · rw [List.filter_singleton, same, if_pos rfl, cond_true, List.map_append, List.map_singleton, foldl_max_append]
    omega
  · simp [List.filter_singleton, same]

theorem lastSequence_snoc (before : List Observation) (last row : Observation) :
    lastSequence (before ++ [last]) row =
      if last.sameSubject row then max (lastSequence before row) last.about.sequence else lastSequence before row := by
  unfold lastSequence
  rw [List.filter_append]
  by_cases same : last.sameSubject row = true
  · rw [List.filter_singleton, same, if_pos rfl, cond_true, List.map_append, List.map_singleton, foldl_max_append]
  · simp [List.filter_singleton, same]

theorem nextVersion_congr {before : List Observation} {a b : Observation} (same : a.sameRow b = true) :
    nextVersion before a = nextVersion before b := by
  unfold nextVersion
  rw [List.filter_congr fun other _ => Observation.sameRow_congr same other]

theorem lastSequence_congr {before : List Observation} {a b : Observation} (same : a.sameSubject b = true) :
    lastSequence before a = lastSequence before b := by
  unfold lastSequence
  rw [List.filter_congr fun other _ => Observation.sameSubject_congr same other]

namespace Linked

theorem nil (base : List Observation) : Linked base [] := by
  intro before row after split
  simp at split

theorem snoc {base rows : List Observation} {row : Observation} (linked : Linked base rows)
    (version : row.about.version = nextVersion (base ++ rows) row)
    (previous : row.about.previousSequence = lastSequence (base ++ rows) row) : Linked base (rows ++ [row]) := by
  intro before other after split
  rcases List.eq_nil_or_concat after with rfl | ⟨front, last, rfl⟩
  · obtain ⟨rfl, same⟩ := List.append_inj' split rfl
    obtain rfl : row = other := by simpa using same
    exact ⟨version, previous⟩
  · have inner : rows = before ++ other :: front := by
      have regrouped : rows ++ [row] = (before ++ other :: front) ++ [last] := by simpa using split
      exact (List.append_inj' regrouped rfl).1
    exact linked before other front inner

theorem last {base rows : List Observation} {row : Observation} (linked : Linked base (rows ++ [row])) :
    row.about.version = nextVersion (base ++ rows) row ∧ row.about.previousSequence = lastSequence (base ++ rows) row :=
  linked rows row [] rfl

theorem init {base rows : List Observation} {row : Observation} (linked : Linked base (rows ++ [row])) :
    Linked base rows := by
  intro before other after split
  exact linked before other (after ++ [row]) (by simp [split])

/-- Rows linked after others, themselves linked, are linked as one. -/
theorem append {base rows more : List Observation} (linked : Linked base rows) (after : Linked (base ++ rows) more) :
    Linked base (rows ++ more) := by
  induction more using List.reverseRecOn with
  | nil => simpa using linked
  | append_singleton front row ih =>
    rw [← List.append_assoc]
    refine (ih after.init).snoc ?_ ?_
    · rw [after.last.1, List.append_assoc]
    · rw [after.last.2, List.append_assoc]

/-- The last of a row's key decides its next version. -/
theorem version_of_find {base rows : List Observation} {row held : Observation} (linked : Linked base rows)
    (found : (rows.reverse.find? fun other => other.sameRow row) = some held) :
    held.about.version + 1 = nextVersion (base ++ rows) row := by
  induction rows using List.reverseRecOn with
  | nil => cases found
  | append_singleton before last ih =>
    rw [List.reverse_append, List.reverse_singleton, List.singleton_append, List.find?_cons] at found
    rw [← List.append_assoc, nextVersion_snoc]
    by_cases same : last.sameRow row = true
    · simp only [same] at found
      obtain rfl := Option.some.inj found
      rw [if_pos same, linked.last.1, nextVersion_congr same]
      omega
    · simp only [Bool.not_eq_true] at same
      simp only [same] at found
      rw [same, if_neg (by simp)]
      exact ih linked.init found

theorem version_of_none {base rows : List Observation} {row : Observation}
    (absent : (rows.reverse.find? fun other => other.sameRow row) = none) :
    nextVersion (base ++ rows) row = nextVersion base row := by
  have none_ : rows.filter (fun other => other.sameRow row) = [] := by
    refine List.filter_eq_nil_iff.mpr fun other member => ?_
    exact List.find?_eq_none.mp absent other (List.mem_reverse.mpr member)
  unfold nextVersion
  rw [List.filter_append, none_, List.append_nil]

theorem sequence_of_none {base rows : List Observation} {row : Observation}
    (absent : (rows.reverse.find? fun other => other.sameSubject row) = none) :
    lastSequence (base ++ rows) row = lastSequence base row := by
  have none_ : rows.filter (fun other => other.sameSubject row) = [] := by
    refine List.filter_eq_nil_iff.mpr fun other member => ?_
    exact List.find?_eq_none.mp absent other (List.mem_reverse.mpr member)
  unfold lastSequence
  rw [List.filter_append, none_, List.append_nil]

end Linked

/-- Rows in the order of their sequences. -/
def Rising (rows : List Observation) : Prop := rows.Pairwise fun a b => a.about.sequence < b.about.sequence

/-- The last of a row's subject, in rows in the order of their sequences, has the greatest sequence. -/
theorem sequence_of_find {base rows : List Observation} {row held : Observation} (rising : Rising (base ++ rows))
    (found : (rows.reverse.find? fun other => other.sameSubject row) = some held) :
    held.about.sequence = lastSequence (base ++ rows) row := by
  induction rows using List.reverseRecOn with
  | nil => cases found
  | append_singleton before last ih =>
    rw [List.reverse_append, List.reverse_singleton, List.singleton_append, List.find?_cons] at found
    rw [← List.append_assoc] at rising ⊢
    rw [lastSequence_snoc]
    obtain ⟨earlier, -, below⟩ := List.pairwise_append.mp rising
    by_cases same : last.sameSubject row = true
    · simp only [same] at found
      obtain rfl := Option.some.inj found
      have most : lastSequence (base ++ before) row ≤ last.about.sequence := by
        refine foldl_max_le.mpr fun value member => ?_
        obtain ⟨other, kept, rfl⟩ := List.mem_map.mp member
        exact (below other (List.mem_filter.mp kept).1 last (by simp)).le
      rw [if_pos same]
      omega
    · simp only [Bool.not_eq_true] at same
      simp only [same] at found
      rw [same, if_neg (by simp)]
      exact ih earlier found

/-- What numbering a batch has done, after the rows held of its dataset. -/
structure Numbering (base : List Observation) (head : Nat) (done : Recorded) : Prop where
  linked : Linked base done.rows
  sequences : done.rows.map (fun row => row.about.sequence) = List.range' (head + 1) done.rows.length
  reached : done.head = head + done.rows.length

theorem Numbering.rising {base : List Observation} {head : Nat} {done : Recorded} (numbering : Numbering base head done)
    (ordered : Rising base) (within : ∀ row ∈ base, row.about.sequence ≤ head) : Rising (base ++ done.rows) := by
  have own : Rising done.rows := by
    have pairs : (done.rows.map fun row => row.about.sequence).Pairwise (· < ·) := by
      rw [numbering.sequences]
      exact List.pairwise_lt_range'
    exact List.pairwise_map.mp pairs
  refine List.pairwise_append.mpr ⟨ordered, own, fun row held other taken => ?_⟩
  have member : other.about.sequence ∈ done.rows.map fun row => row.about.sequence := List.mem_map.mpr ⟨other, taken, rfl⟩
  rw [numbering.sequences, List.mem_range'_1] at member
  have := within row held
  omega

/-- What numbering reads of what is held: a row key's greatest version, and a subject's last sequence. -/
structure Reads (base : List Observation) (latest : Observation → Option Observation) (previous : Observation → Nat) :
    Prop where
  version : ∀ row held, latest row = some held → held.about.version + 1 = nextVersion base row
  first : ∀ row, latest row = none → nextVersion base row = 1
  previous : ∀ row, previous row = lastSequence base row

section
variable {base : List Observation} {head : Nat} {nowNs : Int} {latest : Observation → Option Observation}
  {previous : Observation → Nat}

/-- A row taken at its next version is linked, and drawn the next number. -/
theorem Numbering.take {done : Recorded} (numbering : Numbering base head done) (ordered : Rising base)
    (within : ∀ row ∈ base, row.about.sequence ≤ head) (reads : Reads base latest previous) {version : Nat}
    {row : Observation} (next : version = nextVersion (base ++ done.rows) row) :
    Numbering base head (done.take nowNs previous version row) := by
  refine ⟨?_, ?_, ?_⟩
  · refine numbering.linked.snoc ?_ ?_
    · rw [Observation.about_numbered, next]
      exact (nextVersion_congr (Observation.sameRow_numbered _ _ _ _ _)).symm
    · rw [Observation.about_numbered, lastSequence_congr (Observation.sameSubject_numbered _ _ _ _ _)]
      dsimp only
      cases found : done.rows.reverse.find? fun held => held.sameSubject row with
      | some held => exact sequence_of_find (numbering.rising ordered within) found
      | none => rw [Linked.sequence_of_none found, reads.previous row]
  · simp only [Recorded.take, List.map_append, List.map_singleton, numbering.sequences, Observation.about_numbered,
      List.length_append, List.length_singleton, List.range'_concat, numbering.reached]
    congr 2
    omega
  · simp only [Recorded.take, numbering.reached, List.length_append, List.length_singleton]
    omega

/-- One row numbered keeps the batch linked. -/
theorem Numbering.row {done : Recorded} (numbering : Numbering base head done) (ordered : Rising base)
    (within : ∀ row ∈ base, row.about.sequence ≤ head) (reads : Reads base latest previous) (row : Observation) :
    Numbering base head (numberRow nowNs latest previous done row) := by
  have count : ∀ recorded restated unchanged : Nat, Numbering base head
      { done with recorded := recorded, restated := restated, unchanged := unchanged } :=
    fun _ _ _ => ⟨numbering.linked, numbering.sequences, numbering.reached⟩
  unfold numberRow
  cases earlier : done.earlier latest row with
  | none =>
    obtain ⟨absent, first⟩ := Option.or_eq_none_iff.mp earlier
    refine (count (done.recorded + 1) done.restated done.unchanged).take ordered within reads ?_
    rw [Linked.version_of_none absent, reads.first row first]
  | some held =>
    have next : held.about.version + 1 = nextVersion (base ++ done.rows) row := by
      unfold Recorded.earlier at earlier
      cases found : done.rows.reverse.find? fun other => other.sameRow row with
      | some other =>
        rw [found, Option.some_or] at earlier
        obtain rfl := Option.some.inj earlier
        exact numbering.linked.version_of_find found
      | none =>
        rw [found, Option.none_or] at earlier
        rw [Linked.version_of_none found]
        exact reads.version row held earlier
    dsimp only
    split
    · exact count done.recorded done.restated (done.unchanged + 1)
    · split
      · exact (count done.recorded done.restated (done.unchanged + 1)).take ordered within reads next
      · exact (count done.recorded (done.restated + 1) done.unchanged).take ordered within reads next

/-- A batch numbered is linked after what is held, and its numbers follow the head. -/
theorem numbering_number (rows : List Observation) (ordered : Rising base)
    (within : ∀ row ∈ base, row.about.sequence ≤ head) (reads : Reads base latest previous) :
    Numbering base head (number rows head nowNs latest previous) := by
  unfold number
  have start : Numbering base head { head } := ⟨Linked.nil base, rfl, rfl⟩
  generalize ({ head } : Recorded) = done at start
  induction rows generalizing done with
  | nil => exact start
  | cons row rest ih => exact ih _ (start.row ordered within reads row)

/-- A batch's rows are of the dataset it was recorded in. -/
theorem dataset_number {dataset : String} {rows : List Observation} (each : ∀ row ∈ rows, row.dataset = dataset) :
    ∀ row ∈ (number rows head nowNs latest previous).rows, row.dataset = dataset := by
  have taken : ∀ (done : Recorded) (version : Nat) (row : Observation), row.dataset = dataset →
      (∀ row ∈ done.rows, row.dataset = dataset) →
        ∀ other ∈ (done.take nowNs previous version row).rows, other.dataset = dataset := by
    intro done version row own kept other member
    rcases List.mem_append.mp member with earlier | last
    · exact kept other earlier
    · rw [List.mem_singleton.mp last, Observation.dataset_numbered, own]
  unfold number
  have start : ∀ row ∈ ({ head } : Recorded).rows, row.dataset = dataset := by simp
  generalize ({ head } : Recorded) = done at start
  induction rows generalizing done with
  | nil => exact start
  | cons row rest ih =>
    refine ih (fun other member => each other (by simp [member])) _ ?_
    have own := each row (by simp)
    unfold numberRow
    split
    · split
      · exact start
      · split
        · exact taken _ _ row own start
        · exact taken _ _ row own start
    · exact taken _ _ row own start

end

end MeridianCore.Lake
