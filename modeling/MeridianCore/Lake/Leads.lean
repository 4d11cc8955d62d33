import MeridianCore.Lake.Superseded

namespace MeridianCore.Lake

/-- Rows no two of which tie: numbered one after another, each row key's versions rising. -/
structure Distinct (rows : List Observation) : Prop where
  sequences : rows.Pairwise fun a b => a.about.sequence < b.about.sequence
  versions : rows.Pairwise fun a b => a.sameRow b = true → a.about.version < b.about.version

theorem Distinct.sublist {rows fewer : List Observation} (distinct : Distinct rows) (sub : fewer.Sublist rows) :
    Distinct fewer :=
  ⟨distinct.sequences.sublist sub, distinct.versions.sublist sub⟩

/-- Of two rows of a list in an order, one is before the other or they are the same. -/
theorem same_of_pairwise {R : Observation → Observation → Prop} {rows : List Observation} (pairs : rows.Pairwise R)
    {a b : Observation} (one : a ∈ rows) (two : b ∈ rows) (neither : ¬ R a b) (nor : ¬ R b a) : a = b := by
  obtain ⟨i, inside, rfl⟩ := List.mem_iff_getElem.mp one
  obtain ⟨j, inside', rfl⟩ := List.mem_iff_getElem.mp two
  rcases lt_trichotomy i j with before | same | after
  · exact absurd (List.pairwise_iff_getElem.mp pairs i j inside inside' before) neither
  · subst same
    rfl
  · exact absurd (List.pairwise_iff_getElem.mp pairs j i inside' inside after) nor

theorem Distinct.of_sequence {rows : List Observation} (distinct : Distinct rows) {a b : Observation} (one : a ∈ rows)
    (two : b ∈ rows) (same : a.about.sequence = b.about.sequence) : a = b :=
  same_of_pairwise distinct.sequences one two (by omega) (by omega)

theorem Distinct.of_version {rows : List Observation} (distinct : Distinct rows) {a b : Observation} (one : a ∈ rows)
    (two : b ∈ rows) (row : a.sameRow b = true) (same : a.about.version = b.about.version) : a = b := by
  have other : b.sameRow a = true := by
    obtain ⟨type, key⟩ := Observation.sameRow_iff.mp row
    exact Observation.sameRow_iff.mpr ⟨type.symm, key.symm⟩
  refine same_of_pairwise distinct.versions one two (fun below => ?_) (fun below => ?_)
  · have := below row
    omega
  · have := below other
    omega

theorem sameRow_of_versionKey {a b : Observation} (same : a.versionKey = b.versionKey) : a.sameRow b = true := by
  simp only [Observation.versionKey, Prod.mk.injEq] at same
  exact Observation.sameRow_iff.mpr ⟨DataType.code_inj same.2.1, same.2.2⟩

theorem Distinct.apart_force {rows : List Observation} (distinct : Distinct rows) :
    ∀ a ∈ rows, ∀ b ∈ rows, a.versionKey = b.versionKey → a.forceOrder = b.forceOrder → a = b := by
  intro a one b two key same
  refine distinct.of_version one two (sameRow_of_versionKey key) ?_
  exact congrArg (fun order => (ofLex order).2) same

theorem Distinct.apart_latest {rows : List Observation} (distinct : Distinct rows) :
    ∀ a ∈ rows, ∀ b ∈ rows, a.inForceKey = b.inForceKey → a.latestOrder = b.latestOrder → a = b := by
  intro a one b two _ same
  exact distinct.of_sequence one two (congrArg (fun order => (ofLex order).2) same)

section
variable {nowNs : Int} {latest : Observation → Option Observation} {previous : Observation → Nat}

/-- What numbering keeps of a batch: its rows tie nowhere, none past its head. -/
structure Tied (done : Recorded) : Prop where
  distinct : Distinct done.rows
  within : ∀ row ∈ done.rows, row.about.sequence ≤ done.head

/-- A row of a key's versions in their order has one no greater than the last of it. -/
theorem version_le_of_find {rows : List Observation} {row held other : Observation} (distinct : Distinct rows)
    (found : (rows.reverse.find? fun other => other.sameRow row) = some held) (member : other ∈ rows)
    (same : other.sameRow row = true) : other.about.version ≤ held.about.version := by
  induction rows using List.reverseRecOn with
  | nil => cases member
  | append_singleton before last ih =>
    rw [List.reverse_append, List.reverse_singleton, List.singleton_append, List.find?_cons] at found
    by_cases own : last.sameRow row = true
    · simp only [own] at found
      obtain rfl := Option.some.inj found
      rcases List.mem_append.mp member with earlier | this
      · obtain ⟨-, -, below⟩ := List.pairwise_append.mp distinct.versions
        refine (below other earlier last (by simp) ?_).le
        rw [Observation.sameRow_congr (b := row) own]
        exact same
      · rw [List.mem_singleton.mp this]
    · simp only [Bool.not_eq_true] at own
      simp only [own] at found
      rcases List.mem_append.mp member with earlier | this
      · exact ih (distinct.sublist (List.sublist_append_left _ _)) found earlier
      · rw [List.mem_singleton.mp this, own] at same
        cases same

theorem Tied.take {done : Recorded} (tied : Tied done) {version : Nat} {row : Observation}
    (above : ∀ other ∈ done.rows, other.sameRow row = true → other.about.version < version) :
    Tied (done.take nowNs previous version row) := by
  refine ⟨⟨?_, ?_⟩, ?_⟩
  · refine List.pairwise_append.mpr ⟨tied.distinct.sequences, List.pairwise_singleton _ _, fun a one b two => ?_⟩
    rw [List.mem_singleton.mp two, Observation.about_numbered]
    have := tied.within a one
    dsimp only
    omega
  · refine List.pairwise_append.mpr ⟨tied.distinct.versions, List.pairwise_singleton _ _, fun a one b two same => ?_⟩
    rw [List.mem_singleton.mp two] at same ⊢
    rw [Observation.sameRow_congr (Observation.sameRow_numbered _ _ _ _ _)] at same
    rw [Observation.about_numbered]
    exact above a one same
  · intro other member
    change other.about.sequence ≤ done.head + 1
    rcases List.mem_append.mp member with earlier | last
    · have := tied.within other earlier
      omega
    · rw [List.mem_singleton.mp last, Observation.about_numbered]

theorem Tied.row {done : Recorded} (tied : Tied done) (row : Observation) :
    Tied (numberRow nowNs latest previous done row) := by
  have count : ∀ recorded restated unchanged : Nat,
      Tied { done with recorded := recorded, restated := restated, unchanged := unchanged } :=
    fun _ _ _ => ⟨tied.distinct, tied.within⟩
  unfold numberRow
  cases earlier : done.earlier latest row with
  | none =>
    obtain ⟨absent, -⟩ := Option.or_eq_none_iff.mp earlier
    refine (count (done.recorded + 1) done.restated done.unchanged).take fun other member same => ?_
    have no := List.find?_eq_none.mp absent other (List.mem_reverse.mpr member)
    exact absurd same no
  | some held =>
    have above : ∀ other ∈ done.rows, other.sameRow row = true → other.about.version < held.about.version + 1 := by
      intro other member same
      unfold Recorded.earlier at earlier
      cases found : done.rows.reverse.find? fun other => other.sameRow row with
      | some last =>
        rw [found, Option.some_or] at earlier
        obtain rfl := Option.some.inj earlier
        have := version_le_of_find tied.distinct found member same
        omega
      | none => exact absurd same (List.find?_eq_none.mp found other (List.mem_reverse.mpr member))
    dsimp only
    split
    · exact count done.recorded done.restated (done.unchanged + 1)
    · split
      · exact (count done.recorded done.restated (done.unchanged + 1)).take above
      · exact (count done.recorded (done.restated + 1) done.unchanged).take above

/-- A batch's rows tie nowhere, whatever it was numbered against. -/
theorem distinct_number (rows : List Observation) (head : Nat) :
    Distinct (number rows head nowNs latest previous).rows := by
  suffices Tied (number rows head nowNs latest previous) from this.distinct
  unfold number
  have start : Tied { head } := ⟨⟨List.Pairwise.nil, List.Pairwise.nil⟩, by simp⟩
  generalize ({ head } : Recorded) = done at start
  induction rows generalizing done with
  | nil => exact start
  | cons row rest ih => exact ih _ (start.row row)

end

/-- A row in force among rows: none of its row key is above it. -/
def InForce (rows : List Observation) (row : Observation) : Prop :=
  ∀ other ∈ rows, other.versionKey = row.versionKey → other.forceOrder ≤ row.forceOrder

/-- A row that leads rows: in force and valid, and every other in force and valid of what the latest is chosen
per with it, and starting no later. -/
structure Leads (rows : List Observation) (row : Observation) : Prop where
  valid : row.invalid = false
  inForce : InForce rows row
  alike : ∀ other ∈ rows, InForce rows other → other.invalid = false →
    other.inForceKey = row.inForceKey ∧ other.latestOrder ≤ row.latestOrder

/-- A read of the latest over rows answers one alone exactly where it leads them. -/
theorem latestRead_eq_singleton {rows : List Observation} (distinct : Distinct rows) {row : Observation}
    (member : row ∈ rows) : latestRead rows = [row] ↔ Leads rows row := by
  have force : ∀ {other : Observation}, other ∈ asOf rows 0 ↔ other ∈ rows ∧ InForce rows other :=
    mem_asOf_iff distinct.apart_force
  have candidate : ∀ {other : Observation}, other ∈ (asOf rows 0).filter (fun row => !row.invalid) ↔
      other ∈ rows ∧ InForce rows other ∧ other.invalid = false := by
    intro other
    rw [List.mem_filter, force]
    simp [and_assoc]
  constructor
  · intro answered
    have alone : row ∈ latestRead rows := by simp [answered]
    obtain ⟨standing, valid, above⟩ := mem_latestRead_in_force alone
    refine ⟨valid, (force.mp standing).2, fun other inside stands proper => ?_⟩
    obtain ⟨held, at_⟩ := latestBy.held_of_mem Observation.inForceKey Observation.latestOrder
      (candidate.mpr ⟨inside, stands, proper⟩)
    have key := (latestBy.found at_).2.1
    have answer : held ∈ latestRead rows := by
      refine mem_latestInForce.mpr ?_
      rw [key]
      exact at_
    rw [answered, List.mem_singleton] at answer
    subst answer
    exact ⟨key.symm, above other (force.mpr ⟨inside, stands⟩) proper key.symm⟩
  · intro leads
    have apart : ∀ a ∈ (asOf rows 0).filter (fun row => !row.invalid), ∀ b ∈ (asOf rows 0).filter (fun row => !row.invalid),
        a.inForceKey = b.inForceKey → a.latestOrder = b.latestOrder → a = b := by
      intro a one b two
      exact distinct.apart_latest a (candidate.mp one).1 b (candidate.mp two).1
    have answers : ∀ other, other ∈ latestRead rows ↔ other = row := by
      intro other
      constructor
      · intro answered
        obtain ⟨inside, above⟩ := (mem_latestInForce_iff apart).mp answered
        obtain ⟨read, stands, proper⟩ := candidate.mp inside
        obtain ⟨key, below⟩ := leads.alike other read stands proper
        have upper := above row (candidate.mpr ⟨member, leads.inForce, leads.valid⟩) key.symm
        exact distinct.apart_latest other read row member key (le_antisymm below upper)
      · rintro rfl
        refine (mem_latestInForce_iff apart).mpr ⟨candidate.mpr ⟨member, leads.inForce, leads.valid⟩, ?_⟩
        intro other inside key
        obtain ⟨read, stands, proper⟩ := candidate.mp inside
        exact (leads.alike other read stands proper).2
    have singleton : (latestRead rows).Perm [row] :=
      (List.perm_ext_iff_of_nodup (nodup_latestRead rows) (List.nodup_singleton row)).mpr (by simpa using answers)
    exact List.perm_singleton.mp singleton

end MeridianCore.Lake
