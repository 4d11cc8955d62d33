import MeridianCore.Bor.Book.Merged

namespace MeridianCore.Bor

/-- What stays of a lot's record when the lot is carried: all of it but what it is open by. -/
structure SameRecord (a b : Lot) : Prop where
  lotId : a.lotId = b.lotId
  originalQuantity : a.originalQuantity = b.originalQuantity
  cost : a.terms.bind LotTerms.cost = b.terms.bind LotTerms.cost
  holdingPeriodStart : a.terms.map LotTerms.holdingPeriodStart = b.terms.map LotTerms.holdingPeriodStart
  reliefs : a.reliefs = b.reliefs
  adjustedBy : a.adjustedBy = b.adjustedBy

namespace Book

/-- A lot open under the record a merge replaces. -/
structure OpenIn (book : Book) (placeholder : String) (key : Key) (lotId : String) (state : LotState) : Prop where
  under : key.instrument = placeholder
  held : book.lotAt key lotId = some state
  opened : state.lot.openQuantity.units ≠ 0

/-- Each lot open under the placeholder before is open under the instrument after, with the record it had. -/
def RecordsCarried (book after : Book) (placeholder instrument : String) : Prop :=
  ∀ key lotId state, book.OpenIn placeholder key lotId state →
    ∃ now, after.lotAt (ontoKey key instrument) lotId = some now ∧
      now.lot.openQuantity = state.lot.openQuantity ∧ SameRecord now.lot state.lot

/-- Of each lot open under the placeholder, the first position in key order that holds it, the one the lot
is carried to aside, holds its record. -/
def OwnRecordFirst (book : Book) (placeholder instrument : String) : Prop :=
  ∀ key lotId state, book.OpenIn placeholder key lotId state →
    ∀ first source, book.FirstBeside (ontoKey key instrument) lotId first → book.lotAt first lotId = some source →
      SameRecord source.lot state.lot

/-- No lot is open where the position was removed. -/
theorem OpenIn.openUnder {book : Book} (kept : book.LotsKept) {placeholder lotId : String} {key : Key} {state : LotState}
    (opened : book.OpenIn placeholder key lotId state) : book.OpenUnder placeholder key lotId state := by
  obtain ⟨position, found, lot⟩ := lotAt_eq_some.mp opened.held
  refine ⟨opened.under, ⟨position, found, ?_, lot⟩, opened.opened⟩
  by_contra removed
  have closed := kept.cleared key position found (by simpa using removed) lotId
  rw [openAt_of_lotAt opened.held] at closed
  exact opened.opened closed

/-- A replacement followed is made of its body. -/
theorem followed_ok {book : Book} {head : Nat} {ctx : Context} {placeholder instrument : String} {resolved : Bool}
    {act : Made} (followed : followReplacement book head ctx placeholder instrument resolved = .ok (some act)) :
    ∃ draft, draft.body = replacementBody book placeholder instrument ∧ made book head ctx draft = .ok act := by
  unfold followReplacement at followed
  simp only at followed
  split at followed
  · cases followed
  · cases decided : made book head ctx _ with
    | error out =>
      rw [decided] at followed
      cases followed
    | ok made =>
      rw [decided] at followed
      cases followed
      exact ⟨_, rfl, decided⟩

theorem carried_followed {book : Book} (kept : book.LotsKept) {head : Nat} {ctx : Context}
    {placeholder instrument : String} (apart : placeholder ≠ instrument) {resolved : Bool} {act : Made}
    (followed : followReplacement book head ctx placeholder instrument resolved = .ok (some act))
    {key : Key} {lotId : String} {state : LotState} (opened : book.OpenIn placeholder key lotId state) :
    Carried book act.book key (ontoKey key instrument) lotId state := by
  obtain ⟨draft, body, decided⟩ := followed_ok followed
  obtain ⟨applied, -, -⟩ := made_ok decided
  have body' : (draft.entry book head ctx).body = replacementBody book placeholder instrument := body
  obtain ⟨refs, sales, moved, lines, same⟩ :=
    lotAt_of_lines (by rw [body']; rfl) (by rw [body']; rfl) (by rw [body']; rfl) applied
  rw [body'] at lines
  have carried := carried_replacement kept.toLotsNamed apart (opened.openUnder kept) (by rfl) lines
  obtain ⟨source, now, ordinal, from', held, record⟩ := carried.onto
  refine ⟨⟨source, now, ordinal, from', (same _ _).trans held, record⟩, ?_, ?_⟩
  · rw [← carried.closed, openAt, openAt, same]
  · intro other notKey notTarget
    rw [same, carried.beside other notKey notTarget]

/-- A merge carries each open lot with the record it had exactly where the first other position holding the
lot holds that record. -/
theorem records_carried_iff {accountId partition : String} {makings : List Making} {book : Book}
    (kept : book.Kept accountId partition makings) {head : Nat} {ctx : Context} {placeholder instrument : String}
    (apart : placeholder ≠ instrument) {resolved : Bool} {act : Made}
    (followed : followReplacement book head ctx placeholder instrument resolved = .ok (some act)) :
    RecordsCarried book act.book placeholder instrument ↔ OwnRecordFirst book placeholder instrument := by
  have lots := kept.lotsKept
  constructor
  · intro carried key lotId state opened first source least held
    obtain ⟨now, there, -, record⟩ := carried key lotId state opened
    obtain ⟨source', now', ordinal, from', there', made⟩ := (carried_followed lots apart followed opened).onto
    have from'' := carriedLot_eq_some.mpr ⟨first, least, held⟩
    rw [from'] at from''
    obtain rfl := Option.some.inj from''
    rw [there] at there'
    obtain rfl := Option.some.inj there'
    rw [made] at record
    exact ⟨record.lotId, record.originalQuantity, record.cost, record.holdingPeriodStart, record.reliefs,
      record.adjustedBy⟩
  · intro own key lotId state opened
    obtain ⟨source, now, ordinal, from', there, made⟩ := (carried_followed lots apart followed opened).onto
    obtain ⟨first, least, held⟩ := carriedLot_eq_some.mp from'
    have record := own key lotId state opened first source least held
    refine ⟨now, there, by rw [made], ?_⟩
    rw [made]
    exact ⟨record.lotId, record.originalQuantity, record.cost, record.holdingPeriodStart, record.reliefs,
      record.adjustedBy⟩

/-- A lot of a hundred opened on a record. -/
def openingOn (instrument : String) : Making where
  head := 0
  ctx := {}
  draft := {
    entryId := "ENT-1"
    kind := "opening-balance"
    effectiveDate := "2026-01-06"
    body := {
      lines := [{
        instrumentId := instrument
        side := .long
        bucket := .settled
        quantity := some ⟨100, 0⟩
        lotId := "LOT-1"
        opensLot := some { cost := some { amount := some ⟨1000, 0⟩, currencyCode := "USD" } } }] } }

/-- A merge followed, as an act of the account's. -/
def merging (book : Book) (head : Nat) (entryId placeholder instrument : String) : Making where
  head := head
  ctx := {}
  draft := {
    entryId
    kind := instrumentMerged
    effectiveDate := "2026-01-07"
    body := replacementBody book placeholder instrument }

theorem drafted_openingOn (accountId partition instrument : String) :
    (Book.new accountId partition).Drafted (openingOn instrument).draft.body :=
  .minted (fun line _ _ key => by simp [lotAt, Book.new]) (List.nodup_singleton _) rfl

/-- A book whose lots are each held once carries its own record of each. -/
theorem ownRecordFirst_of_alone {book : Book} {placeholder instrument : String}
    (alone : ∀ key other : Key, (book.positions[key]?).isSome → (book.positions[other]?).isSome → key = other) :
    OwnRecordFirst book placeholder instrument := by
  intro key lotId state opened first source least held
  have present {key : Key} {state : LotState} (held : book.lotAt key lotId = some state) :
      (book.positions[key]?).isSome := by
    obtain ⟨position, found, -⟩ := lotAt_eq_some.mp held
    rw [found]
    rfl
  obtain rfl := alone first key (present held) (present opened.held)
  rw [opened.held] at held
  obtain rfl := Option.some.inj held
  exact ⟨rfl, rfl, rfl, rfl, rfl, rfl⟩

theorem alone_of_length {book : Book} (one : book.positions.toList.length = 1) (key other : Key)
    (here : (book.positions[key]?).isSome) (there : (book.positions[other]?).isSome) : key = other := by
  obtain ⟨position, found⟩ := Option.isSome_iff_exists.mp here
  obtain ⟨position', found'⟩ := Option.isSome_iff_exists.mp there
  obtain ⟨only, single⟩ := List.length_eq_one_iff.mp one
  have first := BTreeMap.mem_toList.mpr found
  have second := BTreeMap.mem_toList.mpr found'
  rw [single, List.mem_singleton] at first second
  exact congrArg Prod.fst (first.trans second.symm)

/-- The first merge of a record carries its lot whole. -/
theorem records_carried_once : ∃ (book : Book) (act : Made), RecordsCarried book act.book "LCL-1" "INS-1" ∧
    (act.book.lotAt ⟨"INS-1", .long, ""⟩ "LOT-1").isSome := by
  have computed : (make (Book.new "ACC-1" "P-1") (openingOn "LCL-1")).toOption.any (fun book =>
      book.positions.toList.length == 1 &&
        (followReplacement book 1 {} "LCL-1" "INS-1" false).toOption.any fun followed =>
          followed.any fun act => (act.book.lotAt ⟨"INS-1", .long, ""⟩ "LOT-1").isSome) = true := by
    decide +kernel
  obtain ⟨book, opened, computed⟩ := answered_of computed
  obtain ⟨one, computed⟩ := Bool.and_eq_true_iff.mp computed
  obtain ⟨followed, merged, computed⟩ := answered_of computed
  obtain ⟨act, rfl, there⟩ := (Option.any_eq_true _ _).mp computed
  have kept : book.Kept "ACC-1" "P-1" [openingOn "LCL-1"] :=
    .snoc (.nil _) ⟨drafted_openingOn "ACC-1" "P-1" "LCL-1", opened⟩
  refine ⟨book, act, (records_carried_iff kept (by decide) merged).mpr (ownRecordFirst_of_alone ?_), there⟩
  exact alone_of_length (by simpa using one)

/-- Two merges in a row, the placeholder the lot came from sorting before the one it is in, carry the record
closed under the first. -/
theorem second_merge_loses_record :
    ¬ ∀ (accountId partition : String) (makings : List Making) (book : Book),
      book.Kept accountId partition makings → ∀ (head : Nat) (ctx : Context) (placeholder instrument : String),
        placeholder ≠ instrument → ∀ (resolved : Bool) (act : Made),
          followReplacement book head ctx placeholder instrument resolved = .ok (some act) →
            RecordsCarried book act.book placeholder instrument := by
  intro claim
  have computed : (make (Book.new "ACC-1" "P-1") (openingOn "LCL-1")).toOption.any (fun first =>
      (make first (merging first 1 "ENT-2" "LCL-1" "LCL-2")).toOption.any fun book =>
        (followReplacement book 3 {} "LCL-2" "INS-1" false).toOption.any fun followed =>
          followed.any fun act =>
            (book.lotAt ⟨"LCL-2", .long, ""⟩ "LOT-1").any fun before =>
              !before.lot.openQuantity.isZero &&
                (act.book.lotAt ⟨"INS-1", .long, ""⟩ "LOT-1").any fun now => now.lot.reliefs != before.lot.reliefs) =
      true := by
    decide +kernel
  obtain ⟨first, opened, computed⟩ := answered_of computed
  obtain ⟨book, merged, computed⟩ := answered_of computed
  obtain ⟨followed, again, computed⟩ := answered_of computed
  obtain ⟨act, same', computed⟩ := (Option.any_eq_true _ _).mp computed
  subst same'
  obtain ⟨before, held, computed⟩ := (Option.any_eq_true _ (book.lotAt _ _)).mp computed
  obtain ⟨nonzero, computed⟩ := Bool.and_eq_true_iff.mp computed
  obtain ⟨now, there, differ⟩ := (Option.any_eq_true _ _).mp computed
  have kept : book.Kept "ACC-1" "P-1" [openingOn "LCL-1", merging first 1 "ENT-2" "LCL-1" "LCL-2"] := by
    refine .snoc (.snoc (.nil _) ⟨drafted_openingOn "ACC-1" "P-1" "LCL-1", opened⟩) ⟨?_, merged⟩
    exact .merged "LCL-1" "LCL-2" (by decide) rfl
  have opened' : book.OpenIn "LCL-2" ⟨"LCL-2", .long, ""⟩ "LOT-1" before := by
    refine ⟨rfl, held, ?_⟩
    intro units
    rw [(Exact.isZero_iff _).mpr units] at nonzero
    cases nonzero
  obtain ⟨now', there', -, record⟩ := claim _ _ _ _ kept 3 {} "LCL-2" "INS-1" (by decide) false act again _ _ _ opened'
  have same : now' = now := Option.some.inj (there'.symm.trans there)
  rw [← same, record.reliefs] at differ
  simp at differ

end Book

end MeridianCore.Bor
