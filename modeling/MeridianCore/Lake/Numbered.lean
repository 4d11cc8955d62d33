import MeridianCore.Lake.Number

namespace MeridianCore.Lake

/-- One call on a store. -/
inductive Call where
  | record (dataset : String) (rows : List Observation) (nowNs : Int)
  | serveUnkept (dataset : String) (rows : List Observation) (nowNs : Int)
  | removeBefore (dataset : String) (recordedBeforeNs : Int)

/-- A batch is of one dataset, as the service groups what it records. -/
def Call.Grouped : Call → Prop
  | record dataset rows _ | serveUnkept dataset rows _ => ∀ row ∈ rows, row.dataset = dataset
  | removeBefore _ _ => True

/-- A store, and every row it numbered, with whether it kept it. -/
structure Ledger where
  held : Held := {}
  log : List (Bool × Observation) := []

namespace Ledger

def after (ledger : Ledger) : Call → Ledger
  | .record dataset rows nowNs =>
    let (held, done) := ledger.held.record dataset rows nowNs
    { held, log := ledger.log ++ done.rows.map (true, ·) }
  | .serveUnkept dataset rows nowNs =>
    let (held, done) := ledger.held.serveUnkept dataset rows nowNs
    { held, log := ledger.log ++ done.rows.map (false, ·) }
  | .removeBefore dataset recordedBeforeNs => { ledger with held := (ledger.held.removeBefore dataset recordedBeforeNs).1 }

/-- Every row numbered in a dataset, in order. -/
def numbered (ledger : Ledger) (dataset : String) : List Observation :=
  (ledger.log.map Prod.snd).filter fun row => row.dataset = dataset

/-- The rows of a dataset the store kept, in order. -/
def kept (ledger : Ledger) (dataset : String) : List Observation :=
  ((ledger.log.filter Prod.fst).map Prod.snd).filter fun row => row.dataset = dataset

end Ledger

/-- A grouped call made. -/
def Ledger.Step (ledger : Ledger) (call : Call) (next : Ledger) : Prop := call.Grouped ∧ next = ledger.after call

/-- What a store holds of a dataset. -/
def Held.of (held : Held) (dataset : String) : List Observation := held.rows.filter fun row => row.dataset = dataset

section
variable {held : Held} {dataset : String}

theorem latest_eq (row : Observation) : held.latest dataset row =
    ((held.of dataset).filter fun other => other.sameRow row).foldl greater none := by
  unfold Held.latest Held.of
  rw [List.filter_filter]
  congr 2
  funext other
  exact Bool.and_comm _ _

/-- The fold to the greatest version answers a row of it, where there is any. -/
theorem foldl_greater (rows : List Observation) :
    (∀ best, rows.foldl greater none = some best →
      best.about.version = (rows.map fun other => other.about.version).foldl max 0) ∧
      (rows.foldl greater none = none → rows = []) := by
  induction rows using List.reverseRecOn with
  | nil => exact ⟨by simp, fun _ => rfl⟩
  | append_singleton before last ih =>
    rw [List.foldl_append, List.map_append, List.map_singleton, foldl_max_append, List.foldl_cons, List.foldl_nil]
    cases so : before.foldl greater none with
    | none =>
      rw [ih.2 so]
      refine ⟨fun best found => ?_, by simp [greater]⟩
      obtain rfl : last = best := by simpa [greater] using found
      simp
    | some standing =>
      have greatest := ih.1 standing so
      by_cases below : last.about.version < standing.about.version
      · refine ⟨fun best found => ?_, by simp [greater, below]⟩
        obtain rfl : standing = best := by simpa [greater, below] using found
        omega
      · refine ⟨fun best found => ?_, by simp [greater, below]⟩
        obtain rfl : last = best := by simpa [greater, below] using found
        omega

/-- A store reads of what it holds what numbering asks. -/
theorem Held.reads (held : Held) (dataset : String) :
    Reads (held.of dataset) (held.latest dataset) (held.previous dataset) where
  version row other found := by
    rw [latest_eq] at found
    unfold nextVersion
    rw [(foldl_greater _).1 other found]
  first row absent := by
    rw [latest_eq] at absent
    unfold nextVersion
    rw [(foldl_greater _).2 absent]
    rfl
  previous row := by
    unfold Held.previous lastSequence Held.of
    rw [List.filter_filter]
    congr 3
    funext other
    exact Bool.and_comm _ _

/-- Nothing is held of a dataset nothing of which is kept. -/
theorem reads_nothing : Reads [] (fun _ => none) (fun _ => 0) where
  version row other found := by cases found
  first row _ := rfl
  previous row := rfl

end

/-- What a store holds is in the order of its numbers, none past its dataset's head. -/
structure Ordered (held : Held) : Prop where
  rising : ∀ dataset, Rising (held.of dataset)
  within : ∀ dataset, ∀ row ∈ held.of dataset, row.about.sequence ≤ held.head dataset

section
variable {held : Held}

theorem head_insert (dataset other : String) (head : Nat) :
    ({ held with heads := held.heads.insert dataset head } : Held).head other =
      if dataset = other then head else held.head other := by
  unfold Held.head
  rw [Std.ExtTreeMap.getElem?_insert]
  by_cases same : dataset = other
  · simp [same]
  · simp [same]

/-- What numbering does of a batch recorded. -/
theorem Ordered.recorded (ordered : Ordered held) (dataset : String) (rows : List Observation) (nowNs : Int) :
    Numbering (held.of dataset) (held.head dataset) (held.record dataset rows nowNs).2 :=
  numbering_number rows (ordered.rising dataset) (ordered.within dataset) (held.reads dataset)

/-- What it does of a batch served and not kept. -/
theorem served (held : Held) (dataset : String) (rows : List Observation) (nowNs : Int) :
    Numbering [] (held.head dataset) (held.serveUnkept dataset rows nowNs).2 :=
  numbering_number rows List.Pairwise.nil (by simp) reads_nothing

theorem of_append_self {dataset : String} {rows : List Observation} (own : ∀ row ∈ rows, row.dataset = dataset) :
    (rows.filter fun row => row.dataset = dataset) = rows := by
  refine List.filter_eq_self.mpr fun row member => ?_
  simpa using own row member

theorem of_append_other {dataset other : String} {rows : List Observation} (own : ∀ row ∈ rows, row.dataset = dataset)
    (apart : dataset ≠ other) : (rows.filter fun row => row.dataset = other) = [] := by
  refine List.filter_eq_nil_iff.mpr fun row member => ?_
  simpa [own row member] using apart

theorem record_of (dataset other : String) {rows : List Observation} (nowNs : Int)
    (own : ∀ row ∈ rows, row.dataset = dataset) : (held.record dataset rows nowNs).1.of other =
      held.of other ++ if dataset = other then (held.record dataset rows nowNs).2.rows else [] := by
  have each : ∀ row ∈ (held.record dataset rows nowNs).2.rows, row.dataset = dataset := dataset_number own
  change (held.rows ++ (held.record dataset rows nowNs).2.rows).filter _ = held.rows.filter _ ++ _
  rw [List.filter_append]
  by_cases same : dataset = other
  · subst same
    rw [if_pos rfl, of_append_self each]
  · rw [if_neg same, of_append_other each same]

theorem Ordered.record (ordered : Ordered held) (dataset : String) {rows : List Observation} (nowNs : Int)
    (own : ∀ row ∈ rows, row.dataset = dataset) : Ordered (held.record dataset rows nowNs).1 := by
  have numbering := ordered.recorded dataset rows nowNs
  have head_ : ∀ other, (held.record dataset rows nowNs).1.head other =
      if dataset = other then (held.record dataset rows nowNs).2.head else held.head other :=
    fun other => head_insert dataset other _
  constructor
  · intro other
    rw [record_of dataset other nowNs own]
    by_cases same : dataset = other
    · subst same
      rw [if_pos rfl]
      exact numbering.rising (ordered.rising dataset) (ordered.within dataset)
    · rw [if_neg same, List.append_nil]
      exact ordered.rising other
  · intro other row member
    rw [record_of dataset other nowNs own] at member
    rw [head_]
    by_cases same : dataset = other
    · subst same
      rw [if_pos rfl] at member ⊢
      rw [numbering.reached]
      rcases List.mem_append.mp member with earlier | taken
      · have := ordered.within dataset row earlier
        omega
      · have number : row.about.sequence ∈ (held.record dataset rows nowNs).2.rows.map fun row => row.about.sequence :=
          List.mem_map.mpr ⟨row, taken, rfl⟩
        rw [numbering.sequences, List.mem_range'_1] at number
        omega
    · rw [if_neg same, List.append_nil] at member
      rw [if_neg same]
      exact ordered.within other row member

theorem Ordered.serveUnkept (ordered : Ordered held) (dataset : String) (rows : List Observation) (nowNs : Int) :
    Ordered (held.serveUnkept dataset rows nowNs).1 := by
  refine ⟨ordered.rising, fun other row member => ?_⟩
  have below := ordered.within other row member
  have reached := (served held dataset rows nowNs).reached
  have head_ : (held.serveUnkept dataset rows nowNs).1.head other =
      if dataset = other then (held.serveUnkept dataset rows nowNs).2.head else held.head other :=
    head_insert dataset other _
  rw [head_]
  by_cases same : dataset = other
  · subst same
    rw [if_pos rfl, reached]
    omega
  · rw [if_neg same]
    exact below

theorem Ordered.removeBefore (ordered : Ordered held) (dataset : String) (recordedBeforeNs : Int) :
    Ordered (held.removeBefore dataset recordedBeforeNs).1 := by
  have fewer : ∀ other, (held.removeBefore dataset recordedBeforeNs).1.of other |>.Sublist (held.of other) :=
    fun other => List.filter_sublist.filter _
  exact ⟨fun other => (ordered.rising other).sublist (fewer other),
    fun other row member => ordered.within other row ((fewer other).subset member)⟩

end

/-- What every run of calls keeps of a store and of the rows it numbered. -/
structure Sound (ledger : Ledger) : Prop where
  ordered : Ordered ledger.held
  /-- The numbers drawn in a dataset are one to its head, in order. -/
  drawn : ∀ dataset, (ledger.numbered dataset).map (fun row => row.about.sequence) =
    List.range' 1 (ledger.held.head dataset)

theorem Ledger.numbered_snoc (held : Held) {log : List (Bool × Observation)} {held' : Held} {dataset other : String} {kept : Bool}
    {rows : List Observation} (own : ∀ row ∈ rows, row.dataset = dataset) :
    (⟨held', log ++ rows.map (kept, ·)⟩ : Ledger).numbered other =
      (⟨held, log⟩ : Ledger).numbered other ++ if dataset = other then rows else [] := by
  unfold Ledger.numbered
  have bare : (rows.map ((kept, ·) : Observation → Bool × Observation)).map Prod.snd = rows := by simp
  rw [List.map_append, List.filter_append, bare]
  by_cases same : dataset = other
  · subst same
    rw [if_pos rfl, of_append_self own]
  · rw [if_neg same, of_append_other own same]

/-- A batch numbered draws the numbers after its dataset's head. -/
theorem drawn_append {base numbered : List Observation} {head : Nat} {done : Recorded} (numbering : Numbering base head done)
    (drawn : numbered.map (fun row => row.about.sequence) = List.range' 1 head) :
    (numbered ++ done.rows).map (fun row => row.about.sequence) = List.range' 1 done.head := by
  rw [List.map_append, drawn, numbering.sequences, numbering.reached, Nat.add_comm head 1, List.range'_append_1]

theorem Sound.after {ledger : Ledger} (sound : Sound ledger) {call : Call} (grouped : call.Grouped) :
    Sound (ledger.after call) := by
  cases call with
  | record dataset rows nowNs =>
    refine ⟨sound.ordered.record dataset nowNs grouped, fun other => ?_⟩
    have numbered : (ledger.after (.record dataset rows nowNs)).numbered other = _ :=
      Ledger.numbered_snoc ledger.held (dataset_number grouped)
    have head : (ledger.after (.record dataset rows nowNs)).held.head other = _ := head_insert dataset other _
    rw [numbered, head]
    by_cases same : dataset = other
    · subst same
      rw [if_pos rfl, if_pos rfl]
      exact drawn_append (sound.ordered.recorded dataset rows nowNs) (sound.drawn dataset)
    · rw [if_neg same, if_neg same, List.append_nil]
      exact sound.drawn other
  | serveUnkept dataset rows nowNs =>
    refine ⟨sound.ordered.serveUnkept dataset rows nowNs, fun other => ?_⟩
    have numbered : (ledger.after (.serveUnkept dataset rows nowNs)).numbered other = _ :=
      Ledger.numbered_snoc ledger.held (dataset_number grouped)
    have head : (ledger.after (.serveUnkept dataset rows nowNs)).held.head other = _ := head_insert dataset other _
    rw [numbered, head]
    by_cases same : dataset = other
    · subst same
      rw [if_pos rfl, if_pos rfl]
      exact drawn_append (served ledger.held dataset rows nowNs) (sound.drawn dataset)
    · rw [if_neg same, if_neg same, List.append_nil]
      exact sound.drawn other
  | removeBefore dataset recordedBeforeNs =>
    exact ⟨sound.ordered.removeBefore dataset recordedBeforeNs, sound.drawn⟩

theorem sound_of_run {labels : List Call} {ledger : Ledger} (run : Run Ledger.Step {} labels ledger) : Sound ledger := by
  refine run.invariant Sound ?_ ?_
  · refine ⟨⟨fun _ => List.Pairwise.nil, ?_⟩, ?_⟩
    · simp [Held.of]
    · intro dataset
      simp [Ledger.numbered, Held.head]
  · rintro state call next sound ⟨grouped, rfl⟩
    exact sound.after grouped

theorem Ledger.kept_snoc (held : Held) {log : List (Bool × Observation)} {held' : Held} {dataset other : String} {kept : Bool}
    {rows : List Observation} (own : ∀ row ∈ rows, row.dataset = dataset) :
    (⟨held', log ++ rows.map (kept, ·)⟩ : Ledger).kept other =
      (⟨held, log⟩ : Ledger).kept other ++ if kept = true ∧ dataset = other then rows else [] := by
  unfold Ledger.kept
  rw [List.filter_append, List.map_append, List.filter_append]
  congr 1
  cases kept with
  | false => simp
  | true =>
    have bare : ((rows.map ((true, ·) : Observation → Bool × Observation)).filter Prod.fst).map Prod.snd = rows := by
      rw [List.filter_eq_self.mpr]
      · simp
      · simp
    rw [bare]
    by_cases same : dataset = other
    · subst same
      rw [if_pos ⟨rfl, rfl⟩, of_append_self own]
    · rw [if_neg fun both => same both.2, of_append_other own same]

/-- While nothing of a dataset is removed, what a store holds of it is what it kept, each row linked to those
before it. -/
structure Whole (dataset : String) (ledger : Ledger) : Prop where
  ordered : Ordered ledger.held
  held : ledger.held.of dataset = ledger.kept dataset
  linked : Linked [] (ledger.kept dataset)

/-- A call that removes none of a dataset's rows. -/
def Call.Spares (dataset : String) : Call → Prop
  | removeBefore other _ => other ≠ dataset
  | _ => True

theorem Whole.after {dataset : String} {ledger : Ledger} (whole : Whole dataset ledger) {call : Call}
    (grouped : call.Grouped) (spares : call.Spares dataset) : Whole dataset (ledger.after call) := by
  cases call with
  | record other rows nowNs =>
    have kept : (ledger.after (.record other rows nowNs)).kept dataset = _ :=
      Ledger.kept_snoc ledger.held (dataset_number grouped)
    have of : (ledger.after (.record other rows nowNs)).held.of dataset = _ := record_of other dataset nowNs grouped
    refine ⟨whole.ordered.record other nowNs grouped, ?_, ?_⟩
    · rw [kept, of, whole.held]
      by_cases same : other = dataset
      · rw [if_pos same, if_pos ⟨rfl, same⟩]
        rfl
      · rw [if_neg same, if_neg fun both => same both.2]
    · rw [kept]
      by_cases same : other = dataset
      · subst same
        rw [if_pos ⟨rfl, rfl⟩]
        refine Linked.append whole.linked ?_
        have linked := (whole.ordered.recorded other rows nowNs).linked
        rw [whole.held] at linked
        exact linked
      · rw [if_neg fun both => same both.2, List.append_nil]
        exact whole.linked
  | serveUnkept other rows nowNs =>
    have kept : (ledger.after (.serveUnkept other rows nowNs)).kept dataset = _ :=
      Ledger.kept_snoc ledger.held (dataset_number grouped)
    rw [if_neg (by simp), List.append_nil] at kept
    refine ⟨whole.ordered.serveUnkept other rows nowNs, ?_, ?_⟩
    · rw [kept]
      exact whole.held
    · rw [kept]
      exact whole.linked
  | removeBefore other recordedBeforeNs =>
    refine ⟨whole.ordered.removeBefore other recordedBeforeNs, ?_, whole.linked⟩
    refine Eq.trans ?_ whole.held
    change (ledger.held.rows.filter _).filter _ = ledger.held.rows.filter _
    rw [List.filter_filter]
    refine List.filter_congr fun row _ => ?_
    by_cases own : row.dataset = dataset
    · simp [own, Ne.symm spares]
    · simp [own]

theorem whole_of_run {dataset : String} {labels : List Call} {ledger : Ledger} (run : Run Ledger.Step {} labels ledger)
    (spares : ∀ call ∈ labels, call.Spares dataset) : Whole dataset ledger := by
  induction run with
  | nil =>
    refine ⟨⟨fun _ => List.Pairwise.nil, by simp [Held.of]⟩, rfl, ?_⟩
    exact Linked.nil []
  | snoc before taken ih =>
    obtain ⟨grouped, rfl⟩ := taken
    exact (ih fun call member => spares call (by simp [member])).after grouped (spares _ (by simp))

/-- The versions of each row key are one, two and so on, in the rows' order. -/
def Versioned (rows : List Observation) : Prop :=
  ∀ row, ((rows.filter fun other => other.sameRow row).map fun other => other.about.version) =
    List.range' 1 (rows.filter fun other => other.sameRow row).length

theorem foldl_max_range (count : Nat) : (List.range' 1 count).foldl max 0 = count := by
  induction count with
  | zero => rfl
  | succ count ih =>
    rw [List.range'_concat, foldl_max_append, ih]
    omega

theorem Linked.versioned {rows : List Observation} (linked : Linked [] rows) : Versioned rows := by
  intro row
  induction rows using List.reverseRecOn with
  | nil => rfl
  | append_singleton before last ih =>
    have earlier := ih linked.init
    rw [List.filter_append, List.filter_singleton]
    by_cases same : last.sameRow row = true
    · have version := linked.last.1
      rw [List.nil_append, nextVersion_congr same, nextVersion, earlier, foldl_max_range] at version
      rw [same, cond_true, List.map_append, List.map_singleton, List.length_append, List.length_singleton,
        List.range'_concat, earlier, version]
      congr 2
      omega
    · simpa [same] using earlier

/-- Two batches part way, alike but for what they count. -/
def Recorded.Alike (a b : Recorded) : Prop := a.rows = b.rows ∧ a.head = b.head

section
variable {nowNs : Int} {latest : Observation → Option Observation} {previous : Observation → Nat}

theorem Recorded.Alike.take {a b : Recorded} (alike : a.Alike b) (version : Nat) (row : Observation) :
    (a.take nowNs previous version row).Alike (b.take nowNs previous version row) := by
  obtain ⟨rows, head⟩ := alike
  simp [Recorded.Alike, Recorded.take, rows, head]

theorem Recorded.Alike.row {a b : Recorded} (alike : a.Alike b) (row : Observation) :
    (numberRow nowNs latest previous a row).Alike (numberRow nowNs latest previous b row) := by
  have earlier : a.earlier latest row = b.earlier latest row := by rw [Recorded.earlier, Recorded.earlier, alike.1]
  unfold numberRow
  rw [earlier]
  split
  · split
    · exact alike
    · split
      · exact Recorded.Alike.take alike _ row
      · exact Recorded.Alike.take alike _ row
  · exact Recorded.Alike.take alike _ row

/-- A row that says what the row before it of its key says is numbered nothing, and numbers no other row
otherwise. -/
theorem number_unchanged {before : List Observation} (after : List Observation) {row held : Observation} {head : Nat}
    (earlier : (number before head nowNs latest previous).earlier latest row = some held)
    (unchanged : held.sameValue row = true) :
    (number (before ++ row :: after) head nowNs latest previous).Alike
      (number (before ++ after) head nowNs latest previous) := by
  unfold number at earlier ⊢
  rw [List.foldl_append, List.foldl_append, List.foldl_cons]
  have start : (numberRow nowNs latest previous (before.foldl (numberRow nowNs latest previous) { head }) row).Alike
      (before.foldl (numberRow nowNs latest previous) { head }) := by
    rw [numberRow, earlier]
    dsimp only
    rw [if_pos unchanged]
    exact ⟨rfl, rfl⟩
  generalize numberRow nowNs latest previous (before.foldl (numberRow nowNs latest previous) { head }) row = a at start
  generalize before.foldl (numberRow nowNs latest previous) { head } = b at start
  induction after generalizing a b with
  | nil => exact start
  | cons next rest ih => exact ih _ _ (start.row next)

end

/-- A row of a batch that says what the row of its key says, of those held and those before it in the batch. -/
def Unchanged (before : Recorded) (latest : Observation → Option Observation) (row : Observation) : Prop :=
  ∃ held, before.earlier latest row = some held ∧ held.sameValue row = true

/-- A dataset's rows numbered as one run of rows, none ever forgotten: its numbers from one with no hole, its
row keys' versions from one, each row naming the last before it of its subject. -/
def Ledger.Unbroken (ledger : Ledger) (dataset : String) : Prop :=
  (ledger.numbered dataset).map (fun row => row.about.sequence) = List.range' 1 (ledger.held.head dataset) ∧
    Linked [] (ledger.numbered dataset) ∧ Versioned (ledger.numbered dataset)

/-- A price of a subject, as a plugin sends it. -/
def priced (rowKey subject : String) (amount : Int) : Observation :=
  .price {
    price := some { amount := some { integer := amount, scale := 0 } }
    envelope := some {
      rowKey := rowKey
      subjects := [{ entityId := subject }]
      source := some { dataset := "feed:daily" } } }

end MeridianCore.Lake
