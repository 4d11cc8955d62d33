import MeridianCore.Bor.Book.Applied
import MeridianCore.Bor.Decide

namespace MeridianCore.Bor

namespace Book

/-- Two processes that take an entry's lines for the same sales: of each line moving a lot it does not
open, they find the one sale. -/
def SalesAlike (a b : Process) (sales : List Sale) (line : MovementLine) : Prop :=
  line.opensLot = none → line.lotId ≠ "" → saleOf a sales line = saleOf b sales line

/-- Two processes that take an entry's lines for the same provisional fills. -/
def MarksAlike (a b : Process) (lines : List MovementLine) (mark : Mark) : Prop :=
  ∀ line ∈ (lines.drop mark.start).take mark.count, mark.isOn a line = mark.isOn b line

/-- Two processes that read an entry, applied to the book, alike: which of its lines its sales are of,
and which its provisional fills. -/
structure ReadsAlike (a b : Process) (book : Book) (entry : Entry) : Prop where
  sales : ∀ line ∈ entry.body.lines,
    SalesAlike a b (salesOf entry.body entry.entryMeta.effectiveDate book.accountId book.ledger) line
  marks : ∀ mark ∈ entry.body.acts.flatMap (marksOf book.ledger entry.body.lines.length),
    MarksAlike a b entry.body.lines mark

section
variable {a b : Process} {book : Book} {entry : Entry}

/-- Only a line moving a lot it does not open reads what it was sold at. -/
theorem applyLot_sale {line : MovementLine} (unread : line.opensLot.isSome ∨ line.lotId = "")
    (position : PositionState) (quantity : Exact) (carried : Option LotState) (reference : JournalRef)
    (sequence : Nat) (lenient : Bool) (sale other : Option Sale) :
    applyLot position line quantity carried reference sequence lenient sale =
      applyLot position line quantity carried reference sequence lenient other := by
  unfold applyLot
  rcases unread with opens | unnamed
  · obtain ⟨terms, opens⟩ := Option.isSome_iff_exists.mp opens
    rw [opens]
  · cases line.opensLot <;> simp only [unnamed, if_true]

theorem applyLine_congr {sales : List Sale} {line : MovementLine} (alike : SalesAlike a b sales line)
    (refs : List (Key × JournalRef)) (sequence : Nat) (lenient : Bool) :
    applyLine a refs sales sequence lenient book line = applyLine b refs sales sequence lenient book line := by
  unfold applyLine
  by_cases reads : line.opensLot = none ∧ line.lotId ≠ ""
  · rw [alike reads.1 reads.2]
  · have unread : line.opensLot.isSome ∨ line.lotId = "" := by
      cases opens : line.opensLot with
      | some terms => exact Or.inl rfl
      | none => exact Or.inr (not_not.mp fun named => reads ⟨opens, named⟩)
    refine congrArg _ (funext fun quantity => congrArg _ (funext fun bucketed => ?_))
    dsimp only
    rw [applyLot_sale unread _ _ _ _ _ _ (saleOf a sales line) (saleOf b sales line)]

theorem markAwaited_congr {body : Body}
    (alike : ∀ mark ∈ body.acts.flatMap (marksOf book.ledger body.lines.length), MarksAlike a b body.lines mark) :
    book.markAwaited a body = book.markAwaited b body := by
  unfold markAwaited
  refine List.foldl_ext _ _ _ fun held mark member => List.foldl_ext _ _ _ fun held line within => ?_
  rw [alike mark member line within]

theorem applyPositions_congr (alike : ReadsAlike a b book entry) (refs : Refs) (lenient : Bool) :
    applyPositions a book entry refs lenient = applyPositions b book entry refs lenient := by
  unfold applyPositions
  refine bind_congr_ok (foldlM_congr _ (fun held line member => applyLine_congr (alike.sales line member) _ _ _) _)
    fun after moved => ?_
  have only : OnlyPositions book after :=
    foldlM_keeps (fun _ _ _ held applied => held.trans (onlyPositions_applyLine applied)) _
      (OnlyPositions.refl book) moved
  have ledger : after.ledger = book.ledger := by rw [only]
  have marked : after.markAwaited a entry.body = after.markAwaited b entry.body :=
    markAwaited_congr (by rw [ledger]; exact alike.marks)
  rw [marked]

theorem ReadsAlike.chained (alike : ReadsAlike a b book entry) (chains : Chain → Nat) :
    ReadsAlike a b { book with chains } entry := ⟨alike.sales, alike.marks⟩

/-- An entry two processes read alike applies the same under both. -/
theorem apply_congr (alike : ReadsAlike a b book entry) (lenient : Bool) :
    book.apply a entry lenient = book.apply b entry lenient := by
  unfold apply
  simp only [applyPositions_congr (alike.chained _)]

/-- An entry applied gives its records the same numbers once it has its last one. -/
theorem apply_numbered {process : Process} {after : Book} {changes : Changes}
    (applied : book.apply process entry false = .ok (after, changes)) :
    book.apply process { entry with lastSequence := changes.lastSequence } false = .ok (after, changes) := by
  obtain ⟨phases⟩ := phases applied
  exact Phases.applied {
    previous := phases.previous
    first := phases.first
    moved := phases.moved
    recorded := phases.recorded
    positions := phases.positions
    acted := phases.acted
    before := phases.before
    named := phases.named
    numbered := Or.inr phases.lastSequence
    moves := phases.moves
    records := phases.records
    acts := phases.acts
    closed := phases.closed }

end

/-- The account and its journal once one more act is made. -/
def journalled (held : Book × List Entry) (making : Making) : Result (Book × List Entry) := do
  let act ← made held.1 making.head making.ctx making.draft
  return (act.book, held.2 ++ [act.entry])

/-- What a replay of the journal under another process should give: the book its acts made, every
entry's body held, and each entry the numbers it was given. -/
structure Replays (process : Process) (accountId partition : String) (entries : List Entry) (book : Book) : Prop where
  same : replayLean process accountId partition entries = .ok book
  whole : replay process accountId partition entries =
    .ok (entries.foldl (fun held entry => held.holdBody entry.entryId entry.body) book)
  numbered : ∀ before entry, before ++ [entry] <+: entries → ∃ held after changes,
    replayLean process accountId partition before = .ok held ∧
      held.apply process entry false = .ok (after, changes) ∧ changes.lastSequence = entry.lastSequence

section
variable {process : Process} {accountId partition : String} {book : Book} {entries : List Entry}

theorem replayLean_snoc {entry : Entry} {after : Book} {changes : Changes}
    (replayed : replayLean process accountId partition entries = .ok book)
    (applied : book.apply process entry false = .ok (after, changes)) :
    replayLean process accountId partition (entries ++ [entry]) = .ok after := by
  unfold replayLean at replayed ⊢
  rw [List.foldlM_append, replayed]
  simp only [bind, Except.bind, List.foldlM_cons, List.foldlM_nil, applied]
  rfl

theorem Replays.empty (process : Process) (accountId partition : String) :
    Replays process accountId partition [] (Book.new accountId partition) where
  same := rfl
  whole := rfl
  numbered before entry within := absurd (List.prefix_nil.mp within) (by simp)

theorem Replays.snoc (replays : Replays process accountId partition entries book) {entry : Entry} {after : Book}
    {changes : Changes} (applied : book.apply process entry false = .ok (after, changes))
    (last : changes.lastSequence = entry.lastSequence) :
    Replays process accountId partition (entries ++ [entry]) after where
  same := replayLean_snoc replays.same applied
  whole := by
    unfold replay
    rw [replayLean_snoc replays.same applied]
    rfl
  numbered before other within := by
    rcases List.prefix_concat_iff.mp within with whole | earlier
    · obtain ⟨rfl, same⟩ := List.append_inj' whole rfl
      obtain rfl := List.singleton_injective same
      exact ⟨book, after, changes, replays.same, applied, last⟩
    · exact replays.numbered before other earlier

end

/-- A journal replays to the book its acts made under any process that reads each of its entries as the
process that made it did. -/
theorem replays_of_run {process : Process} {accountId partition : String} {makings : List Making} {book : Book}
    {entries : List Entry}
    (run : Run (fun held making after =>
        ReadsAlike making.ctx.process process held.1 (making.draft.entry held.1 making.head making.ctx) ∧
          journalled held making = .ok after)
      (Book.new accountId partition, []) makings (book, entries)) :
    Replays process accountId partition entries book := by
  refine run.invariant_of (fun held => Replays process accountId partition held.2 held.1)
    (Replays.empty process accountId partition) ?_
  rintro ⟨before, journal⟩ making after replays alike taken
  unfold journalled at taken
  obtain ⟨act, decided, taken⟩ := bind_ok.mp taken
  cases taken
  obtain ⟨applied, -, numbered⟩ := made_ok decided
  rw [apply_congr alike] at applied
  have again : before.apply process act.entry false = .ok (act.book, act.changes) := by
    rw [numbered]
    exact apply_numbered applied
  exact replays.snoc again (by rw [numbered])

/-- A lot of a hundred opened on one record. -/
def openingBody : Body where
  lines := [{
    instrumentId := "INS-1"
    side := .long
    bucket := .settled
    quantity := some ⟨100, 0⟩
    lotId := "LOT-1"
    opensLot := some { cost := some { amount := some ⟨1000, 0⟩, currencyCode := "USD" } } }]

/-- A fill selling forty, its execution on the record named, its line on the other. -/
def sellingBody (named : String) : Body where
  acts := [.executed {
    executionId := "EXE-1"
    instrumentId := named
    side := .sell
    quantity := some ⟨40, 0⟩
    price := some { amount := some ⟨12, 0⟩, currencyCode := "USD" }
    tradeDate := "2026-01-06" } "VENUE-1" "" "" "" {}]
  lines := [{
    instrumentId := "INS-1"
    side := .long
    bucket := .pending
    valueDate := "2026-01-08"
    quantity := some ⟨-40, 0⟩
    lotId := "LOT-1" }]
  trade := true

/-- A process that has learned what a local record became. -/
def learnedProcess : Process := Process.record {} "LCL-1" "INS-1"

def replayMakings (process : Process) (named : String) : List Making :=
  let drafted (head : Nat) (entryId kind : String) (body : Body) : Making :=
    { head, ctx := { process }, draft := { entryId, kind, effectiveDate := "2026-01-06", body } }
  [drafted 0 "ENT-1" "opening-balance" openingBody, drafted 1 "ENT-2" "execution-recorded" (sellingBody named)]

theorem readsAlike_opening (a b : Process) (book : Book) {entry : Entry} (body : entry.body = openingBody) :
    ReadsAlike a b book entry := by
  constructor
  · intro line member opens
    rw [body] at member
    obtain rfl := List.mem_singleton.mp member
    cases opens
  · rw [body]
    exact fun _ member => (List.not_mem_nil member).elim

theorem readsAlike_selling (a b : Process) (book : Book) {entry : Entry} (body : entry.body = sellingBody "INS-1") :
    ReadsAlike a b book entry := by
  constructor
  · intro line member opens named
    rw [body] at member ⊢
    obtain rfl := List.mem_singleton.mp member
    have sold : salesOf (sellingBody "INS-1") entry.entryMeta.effectiveDate book.accountId book.ledger =
        [⟨"INS-1", { amount := some ⟨12, 0⟩, currencyCode := "USD" }, "2026-01-06", none⟩] := rfl
    rw [sold]
    simp only [saleOf, List.find?_cons, Process.same_self]
  · rw [body]
    exact fun _ member => (List.not_mem_nil member).elim

/-- A journal made by a process that had just started replays under one that has learned. -/
theorem replays_under_learned : ∃ book entries, Replays learnedProcess "ACC-1" "P-1" entries book ∧ entries.length = 2 := by
  have computed : ((replayMakings {} "INS-1").foldlM journalled (Book.new "ACC-1" "P-1", [])).toOption.any
      (fun held => held.2.length == 2) = true := by
    decide +kernel
  obtain ⟨⟨book, entries⟩, folded, two⟩ := answered_of computed
  obtain ⟨opened, first, folded⟩ := bind_ok.mp folded
  obtain ⟨sold, second, folded⟩ := bind_ok.mp folded
  cases folded
  refine ⟨book, entries, replays_of_run (.snoc (.snoc (.nil _) ⟨?_, first⟩) ⟨?_, second⟩), by simpa using two⟩
  · exact readsAlike_opening _ _ _ rfl
  · exact readsAlike_selling _ _ _ rfl

/-- The proceeds recorded on every relief of a lot. -/
def proceedsOn (lotId : String) (book : Book) : List (Option Money) :=
  book.positions.toList.flatMap fun entry =>
    match entry.2.lots[lotId]? with
    | some state => state.lot.reliefs.map LotRelief.proceeds
    | none => []

/-- A sale of a record that became another, made while the process knew so, replays without its
proceeds in a process that has just started. -/
theorem replay_loses_proceeds :
    ¬ ∀ (process : Process) (accountId partition : String) (makings : List Making) (book : Book) (entries : List Entry),
      Run (fun held making after => journalled held making = .ok after) (Book.new accountId partition, []) makings
        (book, entries) → Replays process accountId partition entries book := by
  intro claim
  have computed : ((replayMakings learnedProcess "LCL-1").foldlM journalled (Book.new "ACC-1" "P-1", [])).toOption.any
      (fun held => ( replayLean {} "ACC-1" "P-1" held.2).toOption.any fun replayed =>
        proceedsOn "LOT-1" held.1 != proceedsOn "LOT-1" replayed) = true := by
    decide +kernel
  obtain ⟨⟨book, entries⟩, folded, computed⟩ := answered_of computed
  obtain ⟨replayed, again, differ⟩ := answered_of computed
  have replays := claim {} "ACC-1" "P-1" _ book entries (Run.of_foldlM folded)
  rw [replays.same] at again
  cases again
  simp at differ

end Book

end MeridianCore.Bor
