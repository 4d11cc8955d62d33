import MeridianCore.Bor.Book.LotAt
import MeridianCore.Bor.Book.Replay

namespace MeridianCore.Bor

namespace Book

/-- From a book already holding the entries up to some point, and the entries after it: those numbered
at or below a watermark, those effective on or before a date alone, leniently. -/
def resumeAsOf (process : Process) (watermark : Option Nat) (date : Option String) : Book → List Entry → Result Book
  | book, [] => .ok book
  | book, entry :: rest =>
    if watermark.any fun at_ => at_ < entry.firstSequence then .ok book
    else if date.any fun until_ => until_ < entry.entryMeta.effectiveDate then resumeAsOf process watermark date book rest
    else do resumeAsOf process watermark date (← book.apply process entry true).1 rest

/-- The positions at the end of a business date as known at a watermark, leniently, since an entry left
out may have opened a lot a later one names. -/
def asOf (process : Process) (accountId partition : String) (entries : List Entry) (watermark : Option Nat)
    (date : Option String) : Result Book :=
  resumeAsOf process watermark date (new accountId partition) entries

/-- The journal sequence of a book's latest entry, its first change's; zero for a book with none. -/
def lastSequence (book : Book) : Nat := (book.entries.getLast?.map fun held => held.first.sequence).getD 0

/-- The latest effective date among a book's entries. -/
def latestEffectiveDate (book : Book) : String := (book.entries.map EntryIndex.effectiveDate).foldl max ""

section Lenient

variable {process : Process} {book after : Book} {entry : Entry}

/-- A lot's line that applies strictly applies leniently the same: it opens no lot twice, and names one held. -/
theorem applyLot_lenient {position moved : PositionState} {line : MovementLine} {quantity : Exact}
    {carried : Option LotState} {reference : JournalRef} {sequence : Nat} {sale : Option Sale}
    (applied : applyLot position line quantity carried reference sequence false sale = .ok moved) :
    applyLot position line quantity carried reference sequence true sale = .ok moved := by
  unfold applyLot at applied ⊢
  cases opens : line.opensLot with
  | some terms =>
    simp only [opens] at applied ⊢
    by_cases unnamed : line.lotId = ""
    · rw [if_pos unnamed] at applied
      cases applied
    · rw [if_neg unnamed] at applied ⊢
      split at applied
      · cases applied
      · rw [if_neg (by simp)]
        exact applied
  | none =>
    simp only [opens] at applied ⊢
    by_cases unnamed : line.lotId = ""
    · rwa [if_pos unnamed] at applied ⊢
    · rw [if_neg unnamed] at applied ⊢
      cases held : position.lots[line.lotId]? with
      | some state =>
        rw [held] at applied
        exact applied
      | none =>
        rw [held] at applied
        cases applied

theorem applyLine_lenient {refs : List (Key × JournalRef)} {sales : List Sale} {sequence : Nat} {line : MovementLine}
    (applied : applyLine process refs sales sequence false book line = .ok after) :
    applyLine process refs sales sequence true book line = .ok after := by
  unfold applyLine at applied ⊢
  obtain ⟨quantity, read, applied⟩ := bind_ok.mp applied
  obtain ⟨bucketed, added, applied⟩ := bind_ok.mp applied
  obtain ⟨position, moved, applied⟩ := bind_ok.mp applied
  exact bind_ok.mpr ⟨quantity, read, bind_ok.mpr ⟨bucketed, added, bind_ok.mpr ⟨position, applyLot_lenient moved, applied⟩⟩⟩

/-- A basis adjustment that applies strictly changes a known cost, or states an unknown one. -/
theorem adjustedTerms_lenient {body : Body} {adjustment : BasisAdjustment} {terms adjusted : LotTerms}
    (applied : adjustedTerms body false adjustment terms = .ok adjusted) :
    adjustedTerms body true adjustment terms = .ok adjusted := by
  unfold adjustedTerms at applied ⊢
  cases stated : adjustment.cost with
  | none =>
    rw [stated] at applied
    exact applied
  | some adjusts =>
    rw [stated] at applied
    cases adjusts with
    | costChange change =>
      cases known : terms.cost with
      | none =>
        simp only [known] at applied
        cases applied
      | some cost =>
        simp only [known] at applied ⊢
        exact applied
    | statedCost cost =>
      dsimp only at applied ⊢
      split at applied
      · cases applied
      · rw [if_neg (by simp)]
        exact applied

theorem adjustBasis_lenient {refs : List (Key × JournalRef)} {body : Body} {adjustment : BasisAdjustment}
    (applied : adjustBasis refs body false book adjustment = .ok after) :
    adjustBasis refs body true book adjustment = .ok after := by
  unfold adjustBasis at applied ⊢
  cases owner : book.lotOwner adjustment.lotId with
  | none =>
    rw [owner] at applied
    cases applied
  | some key =>
    simp only [owner] at applied ⊢
    cases found : book.positions[key]? with
    | none =>
      rw [found] at applied
      exact applied
    | some position =>
      simp only [found] at applied ⊢
      cases held : position.lots[adjustment.lotId]? with
      | none =>
        rw [held] at applied
        exact applied
      | some state =>
        simp only [held] at applied ⊢
        obtain ⟨terms, adjusts, applied⟩ := bind_ok.mp applied
        exact bind_ok.mpr ⟨terms, adjustedTerms_lenient adjusts, applied⟩

/-- A fold whose every step taken is taken by another is that other's. -/
theorem foldlM_follows {α β : Type} {step other : β → α → Result β}
    (follows : ∀ held entry next, step held entry = .ok next → other held entry = .ok next) {entries : List α}
    {held last : β} (folded : entries.foldlM step held = .ok last) : entries.foldlM other held = .ok last := by
  induction entries generalizing held with
  | nil => exact folded
  | cons entry rest ih =>
    rw [List.foldlM_cons] at folded ⊢
    obtain ⟨next, taken, folded⟩ := bind_ok.mp folded
    exact bind_ok.mpr ⟨next, follows held entry next taken, ih folded⟩

/-- An entry that applies strictly applies leniently the same: no branch a history left out leads to is
taken. -/
theorem apply_lenient {changes : Changes} (applied : book.apply process entry false = .ok (after, changes)) :
    book.apply process entry true = .ok (after, changes) := by
  obtain ⟨phases⟩ := phases applied
  have moves : applyPositions process { book with chains := (book.number entry).2.last } entry
      (book.number entry).1 true = .ok phases.moved := by
    have strict := phases.moves
    unfold applyPositions at strict ⊢
    obtain ⟨moved, lines, strict⟩ := bind_ok.mp strict
    obtain ⟨adjusted, adjusts, strict⟩ := bind_ok.mp strict
    exact bind_ok.mpr ⟨moved, foldlM_follows (fun _ _ _ => applyLine_lenient) lines,
      bind_ok.mpr ⟨adjusted, foldlM_follows (fun _ _ _ => adjustBasis_lenient) adjusts, strict⟩⟩
  exact Phases.applied {
    previous := phases.previous
    first := phases.first
    moved := phases.moved
    recorded := phases.recorded
    positions := phases.positions
    acted := phases.acted
    before := phases.before
    named := phases.named
    numbered := phases.numbered
    moves
    records := phases.records
    acts := phases.acts
    closed := phases.closed }

end Lenient

section Read

variable {process : Process} {book held : Book} {watermark : Option Nat} {date : Option String} {entries tail : List Entry}

/-- Whether a read takes an entry: numbered at or below its watermark, and effective on or before its date. -/
def Takes (watermark : Option Nat) (date : Option String) (entry : Entry) : Prop :=
  (∀ at_ ∈ watermark, entry.firstSequence ≤ at_) ∧ ∀ until_ ∈ date, entry.entryMeta.effectiveDate ≤ until_

theorem resumeAsOf_cons {entry : Entry} (takes : Takes watermark date entry) :
    resumeAsOf process watermark date book (entry :: tail) =
      (do resumeAsOf process watermark date (← book.apply process entry true).1 tail) := by
  rw [resumeAsOf, if_neg, if_neg]
  · rw [Option.any_eq_true]
    rintro ⟨until_, named, late⟩
    exact absurd (takes.2 until_ named) (not_le.mpr (of_decide_eq_true late))
  · rw [Option.any_eq_true]
    rintro ⟨at_, named, above⟩
    exact absurd (takes.1 at_ named) (not_le.mpr (of_decide_eq_true above))

/-- Entries a read takes, each of which applies strictly, are replayed, and the read goes on from there. -/
theorem resumeAsOf_append (takes : ∀ entry ∈ entries, Takes watermark date entry)
    (replayed : entries.foldlM (fun book entry => return (← book.apply process entry false).1) book = .ok held) :
    resumeAsOf process watermark date book (entries ++ tail) = resumeAsOf process watermark date held tail := by
  induction entries generalizing book with
  | nil =>
    cases replayed
    rfl
  | cons entry rest ih =>
    rw [List.foldlM_cons] at replayed
    obtain ⟨next, taken, replayed⟩ := bind_ok.mp replayed
    obtain ⟨⟨after, changes⟩, applied, same⟩ := bind_ok.mp taken
    cases same
    rw [List.cons_append, resumeAsOf_cons (takes entry List.mem_cons_self), apply_lenient applied]
    exact ih (fun other among => takes other (List.mem_cons_of_mem _ among)) replayed

/-- Of entries in their order, a read with no date takes those numbered at or below its watermark. -/
theorem resumeAsOf_watermark (ordered : entries.Pairwise fun first later => first.firstSequence ≤ later.firstSequence)
    (replayed : entries.foldlM (fun book entry => return (← book.apply process entry false).1) book = .ok held) :
    resumeAsOf process watermark none book entries =
      (entries.filter fun entry => watermark.all fun at_ => entry.firstSequence ≤ at_).foldlM
        (fun book entry => return (← book.apply process entry false).1) book := by
  induction entries generalizing book with
  | nil => rfl
  | cons entry rest ih =>
    rw [List.pairwise_cons] at ordered
    rw [List.foldlM_cons] at replayed
    obtain ⟨next, taken, replayed⟩ := bind_ok.mp replayed
    by_cases within : (watermark.all fun at_ => entry.firstSequence ≤ at_) = true
    · have takes : Takes watermark none entry := by
        refine ⟨fun at_ named => ?_, nofun⟩
        rw [Option.all_eq_true] at within
        exact of_decide_eq_true (within at_ named)
      obtain ⟨⟨after, changes⟩, applied, same⟩ := bind_ok.mp taken
      cases same
      rw [List.filter_cons, if_pos within, List.foldlM_cons, resumeAsOf_cons takes, apply_lenient applied, applied]
      exact ih ordered.2 replayed
    · -- what comes after an entry numbered above is numbered above too
      obtain ⟨at_, named, above⟩ : ∃ at_ ∈ watermark, at_ < entry.firstSequence := by
        rw [Option.all_eq_true, not_forall] at within
        obtain ⟨at_, above⟩ := within
        rw [Classical.not_imp] at above
        exact ⟨at_, above.1, by simpa using above.2⟩
      have later : (entry :: rest).filter (fun entry => watermark.all fun at_ => entry.firstSequence ≤ at_) = [] := by
        rw [List.filter_eq_nil_iff]
        intro other among
        have reaches : entry.firstSequence ≤ other.firstSequence := by
          rcases List.mem_cons.mp among with rfl | after
          · exact le_refl _
          · exact ordered.1 other after
        simp [Option.mem_def.mp named]
        omega
      rw [later, resumeAsOf, if_pos]
      · rfl
      · simp [Option.mem_def.mp named, above]

end Read

section Held

variable {process : Process} {accountId partition : String} {book after held : Book} {entry : Entry} {entries : List Entry}

/-- A reference a chain's first row takes is the number its counter is at. -/
theorem starts_append {α : Type} {chain : Chain} {rows : List α} {counter : Chained.Counter Chain} {rest : List JournalRef}
    (later : ∀ first ∈ rest.head?, first.sequence = (counter.after chain rows).next) :
    ∀ first ∈ ((refsOf partition chain rows counter).map Prod.snd ++ rest).head?, first.sequence = counter.next := by
  cases rows with
  | nil => exact later
  | cons row rows =>
    rintro first ⟨⟩
    rfl

theorem starts_refs {α : Type} {chain : Chain} {rows : List α} {counter : Chained.Counter Chain} :
    ∀ first ∈ ((refsOf partition chain rows counter).map Prod.snd).head?, first.sequence = counter.next := by
  have starts := @starts_append partition α chain rows counter [] nofun
  rwa [List.append_nil] at starts

/-- An entry's own reference is its first number. -/
theorem firstRef_sequence : ∀ first ∈ firstRef (book.number entry).1, first.sequence = entry.firstSequence := by
  unfold firstRef number
  dsimp only
  simp only [List.append_assoc]
  iterate 13 apply starts_append
  exact starts_refs

/-- What an act leaves reversed keeps its date and its reference. -/
theorem markReversed_keeps (reverses reversedBy : String) (entries : List EntryIndex) :
    (markReversed reverses reversedBy entries).map (fun held => (held.effectiveDate, held.first.sequence)) =
      entries.map fun held => (held.effectiveDate, held.first.sequence) := by
  induction entries with
  | nil => rfl
  | cons held rest ih =>
    rw [markReversed]
    split
    · rfl
    · rw [List.map_cons, List.map_cons, ih]

/-- An entry that applied adds its own date and number to those of the account's entries. -/
theorem entries_of_applied {changes : Changes} (applied : book.apply process entry false = .ok (after, changes)) :
    after.entries.map (fun held => (held.effectiveDate, held.first.sequence)) =
      book.entries.map (fun held => (held.effectiveDate, held.first.sequence)) ++
        [(entry.entryMeta.effectiveDate, entry.firstSequence)] := by
  obtain ⟨phases⟩ := phases applied
  have acted : phases.acted.entries = book.entries := by
    rw [onlyLedger_applyActs phases.acts]
    change phases.recorded.entries = book.entries
    rw [onlyPositions_recordPositions phases.records, onlyPositions_applyPositions phases.moves]
  have number := firstRef_sequence phases.first phases.named
  rw [phases.closed, closeEntry]
  dsimp only
  rw [List.map_append, List.map_singleton, acted]
  dsimp only [EntryIndex.of]
  rw [number]
  congr 1
  split
  · rfl
  · exact markReversed_keeps _ _ _

/-- A book replayed holds each entry's date and number. -/
theorem entries_of_replayed (replayed : replayLean process accountId partition entries = .ok book) :
    book.entries.map (fun held => (held.effectiveDate, held.first.sequence)) =
      entries.map fun entry => (entry.entryMeta.effectiveDate, entry.firstSequence) := by
  unfold replayLean at replayed
  have run := Run.of_foldlM replayed
  clear replayed
  induction run with
  | nil => rfl
  | snoc before taken ih =>
    obtain ⟨⟨after, changes⟩, applied, same⟩ := bind_ok.mp taken
    cases same
    rw [entries_of_applied applied, ih, List.map_append, List.map_singleton]

/-- The last sequence of a book replayed is its last entry's number. -/
theorem lastSequence_of_replayed (replayed : replayLean process accountId partition entries = .ok book) :
    book.lastSequence = (entries.getLast?.map Entry.firstSequence).getD 0 := by
  have same := congrArg (fun held => held.getLast?.map Prod.snd) (entries_of_replayed replayed)
  simp only [List.getLast?_map, Option.map_map] at same
  rw [lastSequence]
  exact congrArg (fun held => held.getD 0) same

theorem foldl_max_le {first bound : String} (dates : List String) :
    dates.foldl max first ≤ bound ↔ first ≤ bound ∧ ∀ date ∈ dates, date ≤ bound := by
  induction dates generalizing first with
  | nil => simp
  | cons date rest ih => rw [List.foldl_cons, ih, max_le_iff, List.forall_mem_cons, and_assoc]

/-- The latest effective date of a book replayed is on or before a date where each of its entries is. -/
theorem latestEffectiveDate_le_iff (replayed : replayLean process accountId partition entries = .ok book)
    (until_ : String) :
    book.latestEffectiveDate ≤ until_ ↔ ∀ entry ∈ entries, entry.entryMeta.effectiveDate ≤ until_ := by
  have same := congrArg (fun held => held.map Prod.fst) (entries_of_replayed replayed)
  simp only [List.map_map] at same
  have dates : book.entries.map EntryIndex.effectiveDate = entries.map fun entry => entry.entryMeta.effectiveDate := same
  have least : "" ≤ until_ := by
    rw [← not_lt, String.lt_iff_toList_lt]
    exact List.not_lt_nil _
  rw [latestEffectiveDate, dates, foldl_max_le, List.forall_mem_map]
  exact and_iff_right least

/-- The lenient read agrees with the strict replay where nothing is left out: of a journal in its order that
replays, a read at a watermark with no date is the replay of the entries numbered at or below it; and a
read resumed from the replay of entries none of which is effective after the date, the last numbered at
or below the watermark, is the read of the whole journal. -/
theorem asOf_agrees (ordered : entries.Pairwise fun first later => first.firstSequence ≤ later.firstSequence)
    (replayed : replayLean process accountId partition entries = .ok book) :
    (∀ watermark, asOf process accountId partition entries watermark none =
      replayLean process accountId partition
        (entries.filter fun entry => watermark.all fun at_ => entry.firstSequence ≤ at_)) ∧
    ∀ watermark date before tail held, entries = before ++ tail →
      replayLean process accountId partition before = .ok held →
      (∀ until_ ∈ date, ∀ entry ∈ before, entry.entryMeta.effectiveDate ≤ until_) →
      (∀ at_ ∈ watermark, ∀ last ∈ before.getLast?, last.firstSequence ≤ at_) →
        resumeAsOf process watermark date held tail = asOf process accountId partition entries watermark date := by
  refine ⟨fun watermark => resumeAsOf_watermark ordered replayed, ?_⟩
  rintro watermark date before tail held rfl kept early within
  refine (resumeAsOf_append (fun entry among => ⟨fun at_ named => ?_, fun until_ named => early until_ named entry among⟩)
    kept).symm
  have some' : before ≠ [] := List.ne_nil_of_mem among
  have last := within at_ named _ (List.getLast?_eq_some_getLast some')
  exact le_trans ((List.pairwise_append.mp ordered).1.rel_getLast_of_rel_getLast_getLast among (le_refl _)) last

def writtenAt (number : Nat) (entryId effectiveDate : String) (body : Body) : Entry where
  entryId := entryId
  accountId := "ACC-1"
  partition := "P-1"
  firstSequence := number
  lastSequence := 0
  entryMeta := { entryId, effectiveDate }
  body := body

/-- A lot opened in January, some of it sold in February, and another record's balance of January written last. -/
def journalOfThree : List Entry := [
  writtenAt 1 "ENT-1" "2026-01-06" openingBody,
  writtenAt 10 "ENT-2" "2026-02-06" (sellingBody "INS-1"),
  writtenAt 20 "ENT-3" "2026-01-09" { lines := [{
    instrumentId := "INS-2"
    side := .long
    bucket := .settled
    quantity := some ⟨5, 0⟩ }] }]

/-- Read as of January from the book of its first entry, or whole: the sale of February is left out. -/
theorem january_resumed : ∃ held, replayLean {} "ACC-1" "P-1" (journalOfThree.take 1) = .ok held ∧
    resumeAsOf {} (some 20) (some "2026-01-31") held (journalOfThree.drop 1) =
      asOf {} "ACC-1" "P-1" journalOfThree (some 20) (some "2026-01-31") := by
  have whole : ( replayLean {} "ACC-1" "P-1" journalOfThree).toOption.any (fun _ => true) = true := by decide +kernel
  have first : ( replayLean {} "ACC-1" "P-1" (journalOfThree.take 1)).toOption.any (fun _ => true) = true := by decide +kernel
  obtain ⟨book, replayed, -⟩ := answered_of whole
  obtain ⟨held, kept, -⟩ := answered_of first
  refine ⟨held, kept, (asOf_agrees (by decide) replayed).2 (some 20) (some "2026-01-31") _ _ held
    (List.take_append_drop 1 journalOfThree).symm kept ?_ ?_⟩
  · decide +kernel
  · decide

/-- The store's read of an account: resumed from a book it kept, with the entries numbered above its last,
where the book's latest date is on or before the date read and its last sequence at or below the watermark. -/
theorem resumed_from_kept {watermark : Nat} {date : Option String}
    (ordered : entries.Pairwise fun first later => first.firstSequence < later.firstSequence)
    (replayed : replayLean process accountId partition entries = .ok book) {before : List Entry} (part : before <+: entries)
    (kept : replayLean process accountId partition before = .ok held) (some' : before ≠ [])
    (early : ∀ until_ ∈ date, held.latestEffectiveDate ≤ until_) (within : held.lastSequence ≤ watermark) :
    resumeAsOf process (some watermark) date held (entries.filter fun entry => held.lastSequence < entry.firstSequence) =
      asOf process accountId partition entries (some watermark) date := by
  obtain ⟨tail, rfl⟩ := part
  have last := lastSequence_of_replayed kept
  rw [List.getLast?_eq_some_getLast some', Option.map_some, Option.getD_some] at last
  obtain ⟨sorted, -, apart⟩ := List.pairwise_append.mp ordered
  have reaches : ∀ entry ∈ before, entry.firstSequence ≤ (before.getLast some').firstSequence := by
    intro entry among
    have rising : before.Pairwise fun first later => first.firstSequence ≤ later.firstSequence :=
      sorted.imp fun below => below.le
    exact rising.rel_getLast_of_rel_getLast_getLast among (le_refl _)
  have above : (before ++ tail).filter (fun entry => held.lastSequence < entry.firstSequence) = tail := by
    rw [List.filter_append, List.filter_eq_nil_iff.mpr, List.nil_append, List.filter_eq_self]
    · intro entry among
      rw [decide_eq_true_eq, last]
      exact apart _ (List.getLast_mem some') entry among
    · intro entry among
      rw [decide_eq_true_eq, last, not_lt]
      exact reaches entry among
  rw [above]
  refine resumeAsOf_append (fun entry among => ⟨fun at_ named => ?_, fun until_ named => ?_⟩) kept |>.symm
  · cases named
    rw [last] at within
    exact (reaches entry among).trans within
  · exact (latestEffectiveDate_le_iff kept until_).mp (early until_ named) entry among

end Held

end Book

end MeridianCore.Bor
