import MeridianCore.Ordered.Lru
import MeridianCore.Ordered.Run
import MeridianCore.Bor.Book.State

namespace MeridianCore.Bor

/-- The sequence of a book's last entry: how far into its journal it is. -/
def reached (book : Book) : Nat :=
  match book.entries.getLast? with
  | some entry => entry.first.sequence
  | none => 0

/-- What a book costs held, roughly. -/
def cost (book : Book) : Nat :=
  1024 + book.positions.size * 640 + book.entries.length * 160 + book.breaks.size * 512 + book.figures.size * 512 +
    book.lifecycleEvents.size * 512 +
    (book.ledger.orders.size + book.ledger.placements.size + book.ledger.executions.size +
      book.ledger.instructions.size) * 768

/-- Accounts' books at their head, the least recently read evicted first. -/
abbrev Books := Lru String Book

namespace Books

/-- A book held, unless a later one of its account is; then the least recently read evicted past the bound. -/
def put (books : Books) (book : Book) (bound : Nat) : Books :=
  -- A book held answers as the record's does: no entry's body in it.
  let book := { book with bodies := ∅ }
  let account := book.accountId
  let newer := (books.held[account]?).any fun (held, _, _) => reached book < reached held
  if newer then books
  else Lru.trim bound ((books.forget account).keep account book (cost book))

def get (books : Books) (account : String) : Option (Book × Books) :=
  match books.held[account]? with
  | some (book, size, used) => some (book, books.touch account book size used)
  | none => none

/-- Whether a book of the account is held. -/
def Holds (books : Books) (account : String) : Prop := (books.held[account]?).isSome

/-- What is held after a put: the book put where none later was, else what was held before. -/
theorem held_put {books : Books} {book held : Book} {bound size used : Nat} {account : String}
    (found : (books.put book bound).held[account]? = some (held, size, used)) :
    (account = book.accountId ∧ held = { book with bodies := ∅ } ∧
        ∀ before size used, books.held[account]? = some (before, size, used) → reached before ≤ reached book) ∨
      (∃ size used, books.held[account]? = some (held, size, used) ∧
        (account = book.accountId → reached book < reached held)) := by
  unfold put at found
  dsimp only at found
  split at found
  · next newer =>
    refine Or.inr ⟨_, _, found, ?_⟩
    rintro rfl
    rw [found] at newer
    exact of_decide_eq_true newer
  · next newest =>
    have kept := Lru.within_trim bound _ account held size used found
    simp only [Lru.keep, Std.ExtTreeMap.getElem?_insert] at kept
    split at kept
    · next same =>
      cases kept
      refine Or.inl ⟨(Std.LawfulEqOrd.eq_of_compare same).symm, rfl, fun before size used earlier => ?_⟩
      rw [← Std.LawfulEqOrd.eq_of_compare same] at earlier
      rw [earlier] at newest
      exact Nat.le_of_not_lt fun later => newest (decide_eq_true later)
    · next other =>
      have apart : account ≠ book.accountId := by
        rintro rfl
        exact other Std.ReflOrd.compare_self
      rw [Lru.forget_other apart] at kept
      exact Or.inr ⟨_, _, kept, fun same => absurd same apart⟩

theorem tidy_put {books : Books} (tidy : books.Tidy) {bound : Nat} (within : books.bytes ≤ bound) (book : Book) :
    (books.put book bound).Tidy ∧ (books.put book bound).bytes ≤ bound := by
  unfold put
  dsimp only
  split
  · exact ⟨tidy, within⟩
  · have kept := Lru.tidy_keep (Lru.tidy_forget tidy book.accountId) (Lru.forget_self books book.accountId)
      { book with bodies := ∅ } (cost { book with bodies := ∅ })
    exact Lru.tidy_trim kept

theorem tidy_get {books after : Books} {account : String} {book : Book} (tidy : books.Tidy)
    (got : books.get account = some (book, after)) : after.Tidy ∧ after.bytes = books.bytes := by
  unfold get at got
  split at got
  · next found =>
    cases got
    exact ⟨Lru.tidy_touch tidy found, rfl⟩
  · cases got

theorem held_get {books after : Books} {account : String} {book : Book} (got : books.get account = some (book, after)) :
    ∃ size used, books.held[account]? = some (book, size, used) ∧
      ∀ (other : String) (held : Book) (size used : Nat), after.held[other]? = some (held, size, used) →
        ∃ size used, books.held[other]? = some (held, size, used) := by
  unfold get at got
  split at got
  · next size used found =>
    cases got
    refine ⟨_, _, found, fun other held size' used' inAfter => ?_⟩
    simp only [Lru.touch, Std.ExtTreeMap.getElem?_insert] at inAfter
    split at inAfter
    · next same =>
      obtain rfl := Std.LawfulEqOrd.eq_of_compare same
      cases inAfter
      exact ⟨_, _, found⟩
    · exact ⟨_, _, inAfter⟩
  · cases got

end Books

/-- The books a store builds from its record, each its account's. -/
structure Record where
  book : String → Book
  named : ∀ account, (book account).accountId = account

/-- The record once a commit leaves an account's book. -/
def Record.committed (record : Record) (book : Book) : Record where
  book account := if book.accountId = account then book else record.book account
  named account := by
    split
    · assumption
    · exact record.named account

/-- A store that holds nothing yet. -/
def Record.new : Record where
  book account := Book.new account "P-1"
  named _ := rfl

/-- A call of `book` that memory did not answer: the account's last commit returned before it, and what it
loaded. -/
structure BookCall where
  account : String
  since : Nat
  loaded : Option Book := none

/-- A store's writer: its record, the commits made and not yet returned, the last one returned of each account,
the calls of `book` under way, and the books in memory. -/
structure Writer where
  record : Record
  committed : List Book := []
  returned : String → Nat := fun _ => 0
  calls : List BookCall := []
  books : Books := {}

namespace Writer

/-- One step of the writer, or of a thread that asks it for a book. -/
inductive Move where
  /-- A command commits: the book it made, its entry after the account's last. -/
  | commits (book : Book)
  /-- The commit's book is put into memory, and its command returns. -/
  | returns (commit : Nat)
  | asks (account : String)
  /-- A call that memory did not answer reads the record. -/
  | loads (call : Nat)
  /-- A call puts what it loaded into memory, and answers it. -/
  | answers (call : Nat)
  | rebuilds

def move (bound : Nat) (writer : Writer) : Move → Option Writer
  | .commits book =>
    if reached (writer.record.book book.accountId) < reached book then
      some { writer with record := writer.record.committed book, committed := writer.committed ++ [book] }
    else none
  | .returns commit => do
    let book ← writer.committed[commit]?
    some { writer with
      committed := writer.committed.eraseIdx commit
      returned := fun account =>
        if book.accountId = account then max (writer.returned account) (reached book) else writer.returned account
      books := writer.books.put book bound }
  | .asks account =>
    match writer.books.get account with
    | some (_, books) => some { writer with books }
    | none => some { writer with calls := writer.calls ++ [{ account, since := writer.returned account }] }
  | .loads call => do
    let asked ← writer.calls[call]?
    if asked.loaded.isSome then none
    else some { writer with
      calls := writer.calls.set call { asked with loaded := some (writer.record.book asked.account) } }
  | .answers call => do
    let asked ← writer.calls[call]?
    let book ← asked.loaded
    some { writer with calls := writer.calls.eraseIdx call, books := writer.books.put book bound }
  | .rebuilds => some { writer with books := {} }

/-- What a call of `book` answers: from memory at once, or what it loaded; with the account's last commit
returned before the call. -/
inductive Answers (writer : Writer) (account : String) : Nat → Book → Prop where
  | held {book : Book} {books : Books} (got : writer.books.get account = some (book, books)) :
    Answers writer account (writer.returned account) book
  | loaded {since : Nat} {book : Book} (called : { account, since, loaded := some book } ∈ writer.calls) :
    Answers writer account since book

/-- Every answer is at or after the last commit returned before its call; and what the books held cost is
within the bound, each held account used last at one tick. -/
structure AnswersFresh (bound : Nat) (writer : Writer) : Prop where
  fresh : ∀ account since book, writer.Answers account since book → since ≤ reached book
  bytes : writer.books.bytes = writer.books.held.sum fun held => held.2.1
  within : writer.books.bytes ≤ bound
  once : ∀ account : String, writer.books.Holds account → ∃! tick : Nat, writer.books.byUse[tick]? = some account
  uses : ∀ (tick : Nat) (account : String), writer.books.byUse[tick]? = some account → writer.books.Holds account

/-- No book is put into memory that holds none of its account and a later commit of it has returned. -/
def PutsLatest (writer : Writer) (book : Book) : Prop :=
  writer.books.Holds book.accountId ∨ writer.returned book.accountId ≤ reached book

def KeepsLatest (writer : Writer) : Move → Prop
  | .returns commit => ∀ book, writer.committed[commit]? = some book → writer.PutsLatest book
  | .answers call => ∀ asked book, writer.calls[call]? = some asked → asked.loaded = some book → writer.PutsLatest book
  | _ => True

/-- What every answer rests on: each book held is at or after its account's last commit returned, and each book
committed or loaded is of the record, which is at or after what it was then. -/
structure Sound (bound : Nat) (writer : Writer) : Prop where
  tidy : writer.books.Tidy
  within : writer.books.bytes ≤ bound
  held : ∀ (account : String) (book : Book) (size used : Nat),
    writer.books.held[account]? = some (book, size, used) → writer.returned account ≤ reached book
  returned : ∀ account, writer.returned account ≤ reached (writer.record.book account)
  committed : ∀ book ∈ writer.committed, reached book ≤ reached (writer.record.book book.accountId)
  loaded : ∀ call ∈ writer.calls, ∀ book, call.loaded = some book →
    book.accountId = call.account ∧ call.since ≤ reached book
  asked : ∀ call ∈ writer.calls, call.since ≤ writer.returned call.account

variable {bound : Nat} {writer after : Writer}

theorem reached_bare (book : Book) : reached { book with bodies := ∅ } = reached book := rfl

/-- Putting a book that is the latest, or is beside one held, leaves each book held at or after what has returned. -/
theorem held_after_put (sound : Sound bound writer) {book : Book} (latest : writer.PutsLatest book) :
    ∀ (account : String) (held : Book) (size used : Nat),
      (writer.books.put book bound).held[account]? = some (held, size, used) →
        writer.returned account ≤ reached held ∧ (account = book.accountId → reached book ≤ reached held) := by
  intro account held size used found
  rcases Books.held_put found with ⟨rfl, rfl, newest⟩ | ⟨size, used, before, newer⟩
  · rw [reached_bare]
    refine ⟨?_, fun _ => le_refl _⟩
    rcases latest with holds | later
    · obtain ⟨⟨earlier, size, used⟩, before⟩ := Option.isSome_iff_exists.mp holds
      exact (sound.held _ earlier size used before).trans (newest earlier size used before)
    · exact later
  · exact ⟨sound.held account held size used before, fun same => (newer same).le⟩

theorem sound_commits (sound : Sound bound writer) {book : Book}
    (next : reached (writer.record.book book.accountId) < reached book) :
    Sound bound { writer with record := writer.record.committed book, committed := writer.committed ++ [book] } := by
  have grows (account : String) :
      reached (writer.record.book account) ≤ reached ((writer.record.committed book).book account) := by
    unfold Record.committed
    dsimp only
    split
    · next same => exact same ▸ next.le
    · exact le_refl _
  refine { sound with
    returned := fun account => (sound.returned account).trans (grows account)
    committed := fun other member => ?_ }
  rcases List.mem_append.mp member with before | own
  · exact (sound.committed other before).trans (grows other.accountId)
  · obtain rfl := List.mem_singleton.mp own
    have own : (writer.record.committed other).book other.accountId = other := if_pos rfl
    rw [own]

theorem sound_returns (sound : Sound bound writer) {commit : Nat} {book : Book} (found : writer.committed[commit]? = some book)
    (latest : writer.PutsLatest book) :
    Sound bound { writer with
      committed := writer.committed.eraseIdx commit
      returned := fun account =>
        if book.accountId = account then max (writer.returned account) (reached book) else writer.returned account
      books := writer.books.put book bound } := by
  have tidy := Books.tidy_put sound.tidy sound.within book
  have grows (account : String) : writer.returned account ≤
      if book.accountId = account then max (writer.returned account) (reached book) else writer.returned account := by
    split
    · exact le_max_left ..
    · exact le_refl _
  refine { tidy := tidy.1, within := tidy.2, held := ?_, returned := ?_, committed := ?_, loaded := sound.loaded, asked := ?_ }
  · intro account held size used inBooks
    obtain ⟨before, own⟩ := held_after_put sound latest account held size used inBooks
    dsimp only
    split
    · next same => exact max_le before (own same.symm)
    · exact before
  · intro account
    dsimp only
    split
    · next same =>
      subst same
      exact max_le (sound.returned _) (sound.committed book (List.mem_of_getElem? found))
    · exact sound.returned account
  · intro other member
    exact sound.committed other (List.mem_of_mem_eraseIdx member)
  · intro call member
    exact (sound.asked call member).trans (grows call.account)

theorem sound_asks (sound : Sound bound writer) {account : String} (asked : writer.move bound (.asks account) = some after) :
    Sound bound after := by
  unfold move at asked
  dsimp only at asked
  split at asked
  · next book books got =>
    cases asked
    obtain ⟨tidy, bytes⟩ := Books.tidy_get sound.tidy got
    obtain ⟨-, -, -, others⟩ := Books.held_get got
    refine { sound with tidy, within := bytes ▸ sound.within, held := fun other held size used inBooks => ?_ }
    obtain ⟨size, used, before⟩ := others other held size used inBooks
    exact sound.held other held size used before
  · cases asked
    refine { sound with loaded := fun call member book loaded => ?_, asked := fun call member => ?_ }
    · rcases List.mem_append.mp member with before | own
      · exact sound.loaded call before book loaded
      · rw [List.mem_singleton.mp own] at loaded
        cases loaded
    · rcases List.mem_append.mp member with before | own
      · exact sound.asked call before
      · rw [List.mem_singleton.mp own]

/-- A call that reads the record after it was made reads all that had returned before it. -/
theorem sound_loads (sound : Sound bound writer) {call : Nat} {asked : BookCall} (found : writer.calls[call]? = some asked) :
    Sound bound { writer with
      calls := writer.calls.set call { asked with loaded := some (writer.record.book asked.account) } } := by
  have before := List.mem_of_getElem? found
  refine { sound with loaded := fun other member book loaded => ?_, asked := fun other member => ?_ }
  · rcases List.mem_or_eq_of_mem_set member with earlier | rfl
    · exact sound.loaded other earlier book loaded
    · cases loaded
      exact ⟨writer.record.named asked.account, (sound.asked asked before).trans (sound.returned asked.account)⟩
  · rcases List.mem_or_eq_of_mem_set member with earlier | rfl
    · exact sound.asked other earlier
    · exact sound.asked asked before

theorem sound_answers (sound : Sound bound writer) {call : Nat} {book : Book} (latest : writer.PutsLatest book) :
    Sound bound { writer with calls := writer.calls.eraseIdx call, books := writer.books.put book bound } := by
  have tidy := Books.tidy_put sound.tidy sound.within book
  refine { sound with
    tidy := tidy.1
    within := tidy.2
    held := fun account held size used found => (held_after_put sound latest account held size used found).1
    loaded := fun other member => sound.loaded other (List.mem_of_mem_eraseIdx member)
    asked := fun other member => sound.asked other (List.mem_of_mem_eraseIdx member) }

theorem sound_rebuilds (sound : Sound bound writer) : Sound bound { writer with books := {} } := by
  refine { sound with tidy := Lru.tidy_empty, within := Nat.zero_le _, held := fun account book size used found => ?_ }
  simp at found

theorem sound_move (sound : Sound bound writer) {label : Move} (latest : writer.KeepsLatest label)
    (moved : writer.move bound label = some after) : Sound bound after := by
  cases label with
  | commits book =>
    simp only [move] at moved
    split at moved
    · next following =>
      cases moved
      exact sound_commits sound following
    · cases moved
  | returns commit =>
    obtain ⟨book, found, moved⟩ := Option.bind_eq_some_iff.mp moved
    cases moved
    exact sound_returns sound found (latest book found)
  | asks account => exact sound_asks sound moved
  | loads call =>
    obtain ⟨asked, found, moved⟩ := Option.bind_eq_some_iff.mp moved
    split at moved
    · cases moved
    · cases moved
      exact sound_loads sound found
  | answers call =>
    obtain ⟨asked, found, moved⟩ := Option.bind_eq_some_iff.mp moved
    obtain ⟨book, loaded, moved⟩ := Option.bind_eq_some_iff.mp moved
    cases moved
    exact sound_answers sound (latest asked book found loaded)
  | rebuilds =>
    cases moved
    exact sound_rebuilds sound

theorem sound_new (bound : Nat) (record : Record) : Sound bound { record } where
  tidy := Lru.tidy_empty
  within := Nat.zero_le _
  held account book size used found := by simp at found
  returned account := Nat.zero_le _
  committed book member := absurd member List.not_mem_nil
  loaded call member := absurd member List.not_mem_nil
  asked call member := absurd member List.not_mem_nil

theorem fresh_of_sound (sound : Sound bound writer) : AnswersFresh bound writer where
  fresh account since book answers := by
    cases answers with
    | held got =>
      obtain ⟨size, used, found, -⟩ := Books.held_get got
      exact sound.held account book size used found
    | loaded called => exact (sound.loaded _ called book rfl).2
  bytes := sound.tidy.bytes
  within := sound.within
  once account holds := by
    obtain ⟨⟨book, size, used⟩, found⟩ := Option.isSome_iff_exists.mp holds
    refine ⟨used, sound.tidy.uses account book size used found, fun tick named => ?_⟩
    obtain ⟨book', size', again⟩ := sound.tidy.keys tick account named
    rw [found] at again
    cases again
    rfl
  uses tick account named := by
    obtain ⟨book, size, found⟩ := sound.tidy.keys tick account named
    exact Option.isSome_iff_exists.mpr ⟨_, found⟩

/-- In every run of a writer that puts no book into memory once a later commit of its account has returned and
memory holds none, every answer is at or after the last commit returned before its call, and the books held are
counted within the bound. -/
theorem answers_fresh_of_run {bound : Nat} {record : Record} {labels : List Move} {writer : Writer}
    (run : Run (fun writer label after => writer.KeepsLatest label ∧ writer.move bound label = some after) { record }
      labels writer) : AnswersFresh bound writer := by
  have sound : Sound bound writer :=
    run.invariant_of (Sound bound) (sound_new bound record) fun before label after sound latest moved =>
      sound_move sound latest moved
  exact fresh_of_sound sound

/-- An account's book whose last entry is of a sequence. -/
def bookAt (account : String) (sequence : Nat) : Book :=
  { Book.new account "P-1" with
    entries := [{
      entryId := "ENT-1", kind := "", effectiveDate := "", first := { sequence }, reversedBy := none
      movesPositions := false, reverses := "", acts := false, rolls := false }] }

/-- A book is asked for and read, then a commit of its account and one of another's return, and the second evicts
what the first put. -/
def readAndEvicted : List Move := [
  .asks "ACC-1", .loads 0,
  .commits (bookAt "ACC-1" 7), .returns 0, .commits (bookAt "ACC-2" 9), .returns 0]

/-- Whether a book to be put is the latest or beside one held. -/
def putsLatestNow (writer : Writer) (book : Book) : Bool :=
  (writer.books.held[book.accountId]?).isSome || writer.returned book.accountId ≤ reached book

def keepsLatestNow (writer : Writer) : Move → Bool
  | .returns commit => (writer.committed[commit]?).all writer.putsLatestNow
  | .answers call => ((writer.calls[call]?).bind BookCall.loaded).all writer.putsLatestNow
  | _ => true

theorem putsLatest_of_now {book : Book} (now : writer.putsLatestNow book = true) : writer.PutsLatest book := by
  rcases Bool.or_eq_true_iff.mp now with holds | latest
  · exact Or.inl holds
  · exact Or.inr (of_decide_eq_true latest)

theorem keepsLatest_of_now {label : Move} (now : writer.keepsLatestNow label = true) : writer.KeepsLatest label := by
  cases label with
  | returns commit =>
    intro book found
    unfold keepsLatestNow at now
    dsimp only at now
    rw [found] at now
    exact putsLatest_of_now now
  | answers call =>
    intro asked book found loaded
    unfold keepsLatestNow at now
    dsimp only at now
    rw [found, Option.bind_some, loaded] at now
    exact putsLatest_of_now now
  | _ => trivial

/-- A step taken by a writer that meets a check. -/
def moveChecked (check : Writer → Move → Bool) (bound : Nat) (writer : Writer) (label : Move) : Result Writer :=
  match if check writer label then writer.move bound label else none with
  | some after => .ok after
  | none => .error (.invalid "unchecked")

theorem moveChecked_ok {check : Writer → Move → Bool} {label : Move}
    (moved : moveChecked check bound writer label = .ok after) :
    check writer label = true ∧ writer.move bound label = some after := by
  unfold moveChecked at moved
  split at moved
  · next found =>
    cases moved
    split at found
    · next checked => exact ⟨checked, found⟩
    · cases found
  · cases moved

/-- Whether memory holds a book that reaches a sequence, and the last commit returned is at another. -/
def holdsNow (writer : Writer) (account : String) (sequence returned : Nat) : Bool :=
  writer.returned account == returned &&
    (writer.books.get account).any fun (book, _) => reached book == sequence

theorem holdsNow_spec {account : String} {sequence returned : Nat}
    (holds : writer.holdsNow account sequence returned = true) :
    ∃ book, writer.Answers account returned book ∧ reached book = sequence := by
  obtain ⟨same, holds⟩ := Bool.and_eq_true_iff.mp holds
  obtain ⟨⟨book, books⟩, got, reaches⟩ := Option.any_eq_true _ _ |>.mp holds
  refine ⟨book, ?_, beq_iff_eq.mp reaches⟩
  rw [← beq_iff_eq.mp same]
  exact .held got

theorem read_then_committed_fresh :
    ∃ writer, Run (fun writer label after => move 1300 writer label = some after) { record := .new }
        [.asks "ACC-1", .loads 0, .answers 0, .commits (bookAt "ACC-1" 7), .returns 0] writer ∧
      (∃ book, writer.Answers "ACC-1" 7 book ∧ reached book = 7) ∧ AnswersFresh 1300 writer := by
  have computed : (([.asks "ACC-1", .loads 0, .answers 0, .commits (bookAt "ACC-1" 7), .returns 0] : List Move).foldlM
      (moveChecked keepsLatestNow 1300) { record := .new }).toOption.any (fun writer : Writer => writer.holdsNow "ACC-1" 7 7) =
        true := by
    decide +kernel
  obtain ⟨writer, folded, holds⟩ := answered_of computed
  have run := (Run.of_foldlM folded).imp fun before label after moved =>
    (show before.KeepsLatest label ∧ before.move 1300 label = some after from
      ⟨keepsLatest_of_now (moveChecked_ok moved).1, (moveChecked_ok moved).2⟩)
  exact ⟨writer, run.forget, holdsNow_spec holds, answers_fresh_of_run run⟩

/-- A book read before a commit is put into memory after the commit's was evicted, and answers in its place. -/
theorem stale_book_answered :
    ¬ ∀ (bound : Nat) (record : Record) (labels : List Move) (writer : Writer),
      Run (fun writer label after => writer.move bound label = some after) { record } labels writer →
        AnswersFresh bound writer := by
  intro claim
  have computed : ((readAndEvicted ++ [Move.answers 0]).foldlM (moveChecked (fun _ _ => true) 1300)
      { record := .new }).toOption.any (fun writer : Writer => writer.holdsNow "ACC-1" 0 7) = true := by
    decide +kernel
  obtain ⟨writer, folded, holds⟩ := answered_of computed
  have run := (Run.of_foldlM folded).imp fun before label after moved =>
    (show before.move 1300 label = some after from (moveChecked_ok moved).2)
  obtain ⟨book, answers, reaches⟩ := holdsNow_spec holds
  have fresh := (claim _ _ _ _ run).fresh "ACC-1" 7 book answers
  rw [reaches] at fresh
  exact absurd fresh (by decide)

end Writer

end MeridianCore.Bor
