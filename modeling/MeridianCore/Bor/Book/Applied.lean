import MeridianCore.Bor.Book.Apply

namespace MeridianCore.Bor

namespace Book

/-- The same book but for its positions. -/
def OnlyPositions (before after : Book) : Prop := after = { before with positions := after.positions }

theorem OnlyPositions.refl (book : Book) : OnlyPositions book book := rfl

theorem OnlyPositions.trans {a b c : Book} (first : OnlyPositions a b) (second : OnlyPositions b c) :
    OnlyPositions a c := by
  unfold OnlyPositions at *
  rw [second, first]

theorem onlyPositions_foldl {α : Type} {change : Book → α → Book}
    (keeps : ∀ book entry, OnlyPositions book (change book entry)) (entries : List α) (book : Book) :
    OnlyPositions book (entries.foldl change book) := by
  induction entries generalizing book with
  | nil => rfl
  | cons entry rest ih => exact (keeps book entry).trans (ih _)

theorem onlyPositions_onLot (book : Book) (lotId : String) (change : Lot → Lot) :
    OnlyPositions book (book.onLot lotId change) := by
  unfold onLot
  split <;> rfl

theorem onlyPositions_markAwaited (process : Process) (book : Book) (body : Body) :
    OnlyPositions book (book.markAwaited process body) := by
  unfold markAwaited
  have cleared := onlyPositions_foldl (fun book lotId => onlyPositions_onLot book lotId
    fun lot => { lot with factorMonthAwaited := "" }) (body.acts.flatMap clearedBy) book
  refine cleared.trans (onlyPositions_foldl (fun book mark => ?_) _ _)
  refine onlyPositions_foldl (fun book line => ?_) _ _
  split
  · exact onlyPositions_onLot ..
  · rfl

section
variable {process : Process} {book after : Book} {entry : Entry} {refs : Refs} {lenient : Bool}

theorem onlyPositions_applyLine {refs : List (Key × JournalRef)} {sales : List Sale} {sequence : Nat}
    {line : MovementLine} (applied : book.applyLine process refs sales sequence lenient line = .ok after) :
    OnlyPositions book after := by
  unfold applyLine at applied
  obtain ⟨quantity, -, applied⟩ := bind_ok.mp applied
  obtain ⟨bucketed, -, applied⟩ := bind_ok.mp applied
  obtain ⟨position, -, applied⟩ := bind_ok.mp applied
  cases applied
  rfl

theorem onlyPositions_adjustBasis {refs : List (Key × JournalRef)} {body : Body} {adjustment : BasisAdjustment}
    (adjusted : adjustBasis refs body lenient book adjustment = .ok after) : OnlyPositions book after := by
  unfold adjustBasis at adjusted
  split at adjusted
  · split at adjusted
    · cases adjusted
      rfl
    · cases adjusted
  · split at adjusted
    · cases adjusted
      rfl
    · split at adjusted
      · cases adjusted
        rfl
      · obtain ⟨terms, -, adjusted⟩ := bind_ok.mp adjusted
        cases adjusted
        rfl

/-- An entry's lines, costs, encumbrances and sources change nothing but positions. -/
theorem onlyPositions_applyPositions (applied : book.applyPositions process entry refs lenient = .ok after) :
    OnlyPositions book after := by
  unfold applyPositions at applied
  obtain ⟨moved, lines, applied⟩ := bind_ok.mp applied
  obtain ⟨adjusted, bases, applied⟩ := bind_ok.mp applied
  have onLines : OnlyPositions book moved :=
    foldlM_keeps (fun _ _ _ held applied => held.trans (onlyPositions_applyLine applied)) _ (OnlyPositions.refl book) lines
  have onBases : OnlyPositions (moved.markAwaited process entry.body) adjusted :=
    foldlM_keeps (fun _ _ _ held adjusted => held.trans (onlyPositions_adjustBasis adjusted)) _
      (OnlyPositions.refl _) bases
  have encumbered := onlyPositions_foldl (fun book named => (rfl : OnlyPositions book (encumber refs.positions book named)))
    entry.body.encumbrances adjusted
  have whole := ((onLines.trans (onlyPositions_markAwaited process moved entry.body)).trans onBases).trans encumbered
  cases applied
  split
  · exact whole
  · refine whole.trans ?_
    apply onlyPositions_foldl
    exact fun _ _ => rfl

theorem onlyPositions_recordPosition {previous : List (Key × Exact)} {rows rowsAfter : List (BookPosition × Exact)}
    {row : Key × JournalRef} (recorded : recordPosition entry previous (book, rows) row = .ok (after, rowsAfter)) :
    OnlyPositions book after := by
  unfold recordPosition at recorded
  obtain ⟨record, -, recorded⟩ := bind_ok.mp recorded
  cases recorded
  rfl

/-- What an entry applied did, phase by phase. -/
structure Phases (process : Process) (book : Book) (entry : Entry) (lenient : Bool) (after : Book) (changes : Changes)
    where
  previous : List (Key × Exact)
  first : JournalRef
  moved : Book
  recorded : Book
  positions : List (BookPosition × Exact)
  acted : Book
  before : (book.touched entry.body).mapM (fun key => return (key, ← book.previousOf key)) = .ok previous
  named : firstRef (book.number entry).1 = some first
  numbered : entry.lastSequence = 0 ∨ entry.lastSequence = (book.number entry).2.next - 1
  moves : applyPositions process { book with chains := (book.number entry).2.last } entry (book.number entry).1 lenient =
    .ok moved
  records : (book.number entry).1.positions.foldlM (recordPosition entry previous) (moved, []) = .ok (recorded, positions)
  acts : (recorded.setRecords entry.body first (book.number entry).1
      { positions, first, lastSequence := (book.number entry).2.next - 1 }).1.applyActs entry
    (recorded.setRecords entry.body first (book.number entry).1
      { positions, first, lastSequence := (book.number entry).2.next - 1 }).2 (book.number entry).1 = .ok (acted, changes)
  closed : after = acted.closeEntry entry first

/-- An entry that applied went through every phase. -/
theorem phases {changes : Changes} (applied : book.apply process entry lenient = .ok (after, changes)) :
    Nonempty (Phases process book entry lenient after changes) := by
  unfold apply at applied
  obtain ⟨previous, before, applied⟩ := bind_ok.mp applied
  simp only at applied
  split at applied
  case h_2 => cases applied
  next first named =>
  split at applied
  · cases applied
  next numbered =>
  obtain ⟨moved, moves, applied⟩ := bind_ok.mp applied
  obtain ⟨⟨recorded, positions⟩, records, applied⟩ := bind_ok.mp applied
  obtain ⟨⟨acted, changed⟩, acts, applied⟩ := bind_ok.mp applied
  cases applied
  refine ⟨⟨previous, first, moved, recorded, positions, acted, before, named, ?_, moves, records, acts, rfl⟩⟩
  by_contra misnumbered
  exact numbered (not_or.mp misnumbered)

/-- An entry that goes through every phase applies. -/
theorem Phases.applied {changes : Changes} (phases : Phases process book entry lenient after changes) :
    book.apply process entry lenient = .ok (after, changes) := by
  unfold apply
  dsimp only
  rw [phases.before]
  simp only [bind, Except.bind, phases.named]
  have numbered : ¬ (entry.lastSequence ≠ 0 ∧ entry.lastSequence ≠ (book.number entry).2.next - 1) :=
    fun misnumbered => phases.numbered.elim misnumbered.1 misnumbered.2
  rw [if_neg numbered]
  simp only [pure, Except.pure, phases.moves, phases.records, phases.acts, phases.closed]

theorem applyActs_numbers {acted : Book} {changes changed : Changes}
    (applied : book.applyActs entry changes refs = .ok (acted, changed)) :
    changed.lastSequence = changes.lastSequence ∧ changed.first = changes.first := by
  unfold applyActs at applied
  split at applied
  · cases applied
    exact ⟨rfl, rfl⟩
  · obtain ⟨-, -, applied⟩ := bind_ok.mp applied
    obtain ⟨-, -, applied⟩ := bind_ok.mp applied
    obtain ⟨orders, -, applied⟩ := bind_ok.mp applied
    obtain ⟨placements, -, applied⟩ := bind_ok.mp applied
    obtain ⟨locates, -, applied⟩ := bind_ok.mp applied
    obtain ⟨bookings, -, applied⟩ := bind_ok.mp applied
    cases applied
    exact ⟨rfl, rfl⟩

/-- The last number an entry's records took. -/
theorem Phases.lastSequence {changes : Changes} (phases : Phases process book entry lenient after changes) :
    changes.lastSequence = (book.number entry).2.next - 1 :=
  (applyActs_numbers phases.acts).1

/-- Recording the positions an entry changed changes nothing but positions. -/
theorem onlyPositions_recordPositions {previous : List (Key × Exact)} {rows rowsAfter : List (BookPosition × Exact)}
    {keys : List (Key × JournalRef)}
    (recorded : keys.foldlM (recordPosition entry previous) (book, rows) = .ok (after, rowsAfter)) :
    OnlyPositions book after := by
  induction keys generalizing book rows with
  | nil =>
    cases recorded
    rfl
  | cons row rest ih =>
    rw [List.foldlM_cons] at recorded
    obtain ⟨⟨next, nextRows⟩, stepped, recorded⟩ := bind_ok.mp recorded
    exact (onlyPositions_recordPosition stepped).trans (ih recorded)

/-- Until its acts apply, an entry changes no order. -/
theorem Phases.recorded_ledger {changes : Changes} (phases : Phases process book entry lenient after changes) :
    phases.recorded.ledger = book.ledger := by
  rw [onlyPositions_recordPositions phases.records, onlyPositions_applyPositions phases.moves]

end

end Book

end MeridianCore.Bor
