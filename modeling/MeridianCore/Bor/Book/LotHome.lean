import MeridianCore.Bor.Book.CarriedRecord

namespace MeridianCore.Bor

namespace Book

/-- Each lot is open on one position at most, and where it is, the book names that position its owner. -/
def LotsHome (book : Book) : Prop :=
  ∀ key lotId, book.openAt key lotId ≠ 0 → book.lotOwner lotId = some key

/-- A cost adjustment of an open lot changes it where it is open, and nowhere else. -/
def AdjustedAtHome (book : Book) : Prop :=
  ∀ key lotId, book.openAt key lotId ≠ 0 → ∀ refs body adjustment after, adjustment.lotId = lotId →
    adjustBasis refs body false book adjustment = .ok after →
      ((after.lotAt key lotId).map fun state => state.lot.adjustedBy) =
        ((book.lotAt key lotId).map fun state => state.lot.adjustedBy ++ [refAt refs key]) ∧
      ∀ other, other ≠ key → after.lotAt other lotId = book.lotAt other lotId

/-- An entry that leaves every lot with its owner: its lines move what a lot's owner holds of it, or nothing
of a lot none of them opens; or it moves a record onto one that sorts before it. -/
inductive KeepsHome (book : Book) (body : Body) : Prop where
  | minted (unheld : ∀ line ∈ body.lines, line.opensLot.isSome → ∀ key, book.lotAt key line.lotId = none)
      (once : ((body.lines.filter fun line => line.opensLot.isSome).map MovementLine.lotId).Nodup)
      (kept : body.tombstones = [])
      (home : ∀ key lotId, (∀ line ∈ body.lines, line.opensLot.isSome → line.lotId ≠ lotId) →
        book.lotOwner lotId ≠ some key → namedUnits body.lines key lotId = 0)
  | merged (placeholder instrument : String) (apart : placeholder ≠ instrument)
      (moves : body = replacementBody book placeholder instrument)
      (before : ∀ key lotId state, book.OpenUnder placeholder key lotId state → compare instrument placeholder = .lt)

theorem KeepsHome.drafted {book : Book} {body : Body} (keeps : book.KeepsHome body) : book.Drafted body := by
  cases keeps with
  | minted unheld once kept home => exact .minted unheld once kept
  | merged placeholder instrument apart moves before => exact .merged placeholder instrument apart moves

section
variable {process : Process} {refs : List (Key × JournalRef)} {sales : List Sale} {sequence : Nat}
  {book after : Book}

/-- A position holds a lot after lines where it held it before them, or where one of them opened it. -/
theorem holder_of_lines {lines : List MovementLine}
    (applied : lines.foldlM (applyLine process refs sales sequence false) book = .ok after) {key : Key} {lotId : String}
    (held : (after.lotAt key lotId).isSome) : (book.lotAt key lotId).isSome ∨
      ∃ line ∈ lines, line.opensLot.isSome ∧ lineKey line = key ∧ line.lotId = lotId := by
  induction lines generalizing book with
  | nil =>
    cases applied
    exact .inl held
  | cons line rest ih =>
    rw [List.foldlM_cons] at applied
    obtain ⟨next, moved, applied⟩ := bind_ok.mp applied
    rcases ih applied with before | ⟨other, member, opens⟩
    · obtain ⟨quantity, -, lots, beside⟩ := lineLots moved
      by_cases here : key = lineKey line ∧ lotId = line.lotId
      · cases lots with
        | unnamed none' same =>
          rw [same] at before
          exact .inl before
        | opened _ opens => exact .inr ⟨line, List.mem_cons_self, opens, here.1.symm, here.2.symm⟩
        | moved _ _ found =>
          rw [here.1, here.2, found]
          exact .inl rfl
      · rw [beside key lotId here] at before
        exact .inl before
    · exact .inr ⟨other, List.mem_cons_of_mem _ member, opens⟩

/-- A position holds a lot after lines where it held it before them. -/
theorem holder_stays {lines : List MovementLine}
    (applied : lines.foldlM (applyLine process refs sales sequence false) book = .ok after) {key : Key} {lotId : String}
    (held : (book.lotAt key lotId).isSome) : (after.lotAt key lotId).isSome := by
  induction lines generalizing book with
  | nil =>
    cases applied
    exact held
  | cons line rest ih =>
    rw [List.foldlM_cons] at applied
    obtain ⟨next, moved, applied⟩ := bind_ok.mp applied
    refine ih applied ?_
    obtain ⟨quantity, -, lots, beside⟩ := lineLots moved
    by_cases here : key = lineKey line ∧ lotId = line.lotId
    · obtain ⟨rfl, rfl⟩ := here
      cases lots with
      | unnamed none' same =>
        rw [same]
        exact held
      | opened _ _ now =>
        rw [now]
        rfl
      | moved _ _ _ _ now =>
        rw [now]
        rfl
    · rw [beside key lotId here]
      exact held

end

theorem isSome_of_openAt {book : Book} {key : Key} {lotId : String} (opened : book.openAt key lotId ≠ 0) :
    (book.lotAt key lotId).isSome := by
  cases held : book.lotAt key lotId with
  | none => exact absurd (openAt_of_none held) opened
  | some state => rfl

/-- Books whose lots are held at the same positions name the same owners. -/
theorem lotOwner_congr {book after : Book} {lotId : String}
    (same : ∀ key, (after.lotAt key lotId).isSome = (book.lotAt key lotId).isSome) :
    after.lotOwner lotId = book.lotOwner lotId := by
  apply Option.ext
  intro key
  have absent (other : Key) : after.lotAt other lotId = none ↔ book.lotAt other lotId = none := by
    rw [← Option.isNone_iff_eq_none, ← Option.isNone_iff_eq_none, ← Option.not_isSome, ← Option.not_isSome, same]
  rw [lotOwner_eq_some, lotOwner_eq_some, same]
  simp only [absent]

theorem LotsHome.of_held {book after : Book} (home : book.LotsHome)
    (same : ∀ key lotId, (after.lotAt key lotId).map LotState.held = (book.lotAt key lotId).map LotState.held) :
    after.LotsHome := by
  intro key lotId opened
  rw [openAt_of_held same] at opened
  rw [lotOwner_congr fun key => by simpa using congrArg Option.isSome (same key lotId)]
  exact home key lotId opened

section
variable {process : Process} {refs : List (Key × JournalRef)} {sales : List Sale} {sequence : Nat}
  {book start after : Book}

/-- Lines that open minted lots only, and move no closed copy of another, leave every lot with its owner. -/
theorem home_minted (home : book.LotsHome) {lines : List MovementLine}
    (unheld : ∀ line ∈ lines, line.opensLot.isSome → ∀ key, book.lotAt key line.lotId = none)
    (once : ((lines.filter fun line => line.opensLot.isSome).map MovementLine.lotId).Nodup)
    (quiet : ∀ key lotId, (∀ line ∈ lines, line.opensLot.isSome → line.lotId ≠ lotId) →
      book.lotOwner lotId ≠ some key → namedUnits lines key lotId = 0)
    (same : start.positions = book.positions)
    (applied : lines.foldlM (applyLine process refs sales sequence false) start = .ok after)
    (namedAfter : after.LotsNamed) : after.LotsHome := by
  have start' (key : Key) (lotId : String) : start.lotAt key lotId = book.lotAt key lotId := lotAt_of_positions same key lotId
  intro key lotId opened
  have held := isSome_of_openAt opened
  by_cases minted : ∃ line ∈ lines, line.opensLot.isSome ∧ line.lotId = lotId
  · -- Only the position a line opens it on holds a minted lot.
    obtain ⟨line, member, opens, rfl⟩ := minted
    have only (other : Key) (holds : (after.lotAt other line.lotId).isSome) : other = lineKey line := by
      rcases holder_of_lines applied holds with before | ⟨line', member', opens', at', names⟩
      · rw [start', unheld line member opens other] at before
        cases before
      · have inFilter : line ∈ lines.filter fun line => line.opensLot.isSome := List.mem_filter.mpr ⟨member, opens⟩
        have inFilter' : line' ∈ lines.filter fun line => line.opensLot.isSome := List.mem_filter.mpr ⟨member', opens'⟩
        obtain rfl := List.inj_on_of_nodup_map once inFilter' inFilter names
        exact at'.symm
    refine lotOwner_eq_some.mpr ⟨held, fun other below => ?_⟩
    cases there : after.lotAt other line.lotId with
    | none => rfl
    | some state =>
      rw [only other (by rw [there]; rfl), only key held, Std.ReflOrd.compare_self] at below
      cases below
  · have quietLines : ∀ line ∈ lines, line.opensLot.isSome → line.lotId ≠ lotId :=
      fun line member opens names => minted ⟨line, member, opens, names⟩
    have nonempty : lotId ≠ "" := by
      rintro rfl
      exact opened (openAt_unnamed namedAfter key)
    have holders (other : Key) : (after.lotAt other lotId).isSome = (book.lotAt other lotId).isSome := by
      apply Bool.eq_iff_iff.mpr
      constructor
      · intro holds
        rcases holder_of_lines applied holds with before | ⟨line, member, opens, -, names⟩
        · rw [start'] at before
          exact before
        · exact absurd names (quietLines line member opens)
      · intro holds
        rw [← start'] at holds
        exact holder_stays applied holds
    rw [lotOwner_congr holders]
    by_contra notOwner
    have sum : after.openAt key lotId = start.openAt key lotId + namedUnits lines key lotId :=
      openAt_lines applied nonempty fun line member opens at' => quietLines line member opens at'.2
    rw [quiet key lotId quietLines notOwner, Int.add_zero, openAt, openAt, start'] at sum
    exact notOwner (home key lotId fun closed => opened (sum.trans closed))

/-- A merge onto a record that sorts before the one it replaces leaves every lot with its owner. -/
theorem home_replacement (named : book.LotsNamed) (home : book.LotsHome) {placeholder instrument : String}
    (apart : placeholder ≠ instrument)
    (before : ∀ key lotId state, book.OpenUnder placeholder key lotId state → compare instrument placeholder = .lt)
    (same : start.positions = book.positions)
    (applied : (replacementBody book placeholder instrument).lines.foldlM
      (applyLine process refs sales sequence false) start = .ok after)
    (namedAfter : after.LotsNamed) : after.LotsHome := by
  intro key lotId opened
  have nonempty : lotId ≠ "" := by
    rintro rfl
    exact opened (openAt_unnamed namedAfter key)
  by_cases somewhere : ∃ holder state, book.OpenUnder placeholder holder lotId state
  · obtain ⟨holder, state, under⟩ := somewhere
    have carried := carried_replacement named apart under same applied
    have owner : book.lotOwner lotId = some holder := by
      refine home holder lotId ?_
      rw [openAt_of_lotAt under.held]
      exact under.opened
    obtain ⟨-, least⟩ := lotOwner_eq_some.mp owner
    have below : compare (ontoKey holder instrument) holder = .lt := by
      have first := before holder lotId state under
      rw [← under.under] at first
      show Ordering.then (compare instrument holder.instrument) _ = .lt
      rw [first]
      rfl
    have here : key = ontoKey holder instrument := by
      by_contra notTarget
      by_cases atHolder : key = holder
      · rw [atHolder] at opened
        exact opened carried.closed
      · rw [openAt, carried.beside key atHolder notTarget] at opened
        have owner' := home key lotId opened
        rw [owner] at owner'
        exact atHolder (Option.some.inj owner').symm
    subst here
    refine lotOwner_eq_some.mpr ⟨isSome_of_openAt opened, fun other less => ?_⟩
    have less' : compare other holder = .lt := Std.TransCmp.lt_trans less below
    have notHolder : other ≠ holder := by
      rintro rfl
      rw [Std.ReflOrd.compare_self] at less'
      cases less'
    have notTarget : other ≠ ontoKey holder instrument := by
      rintro rfl
      rw [Std.ReflOrd.compare_self] at less
      cases less
    rw [carried.beside other notHolder notTarget]
    exact least other less'
  · have same' := uncarried_replacement named nonempty (fun key state under => somewhere ⟨key, state, under⟩) same applied
    rw [openAt, same'] at opened
    have owners : after.lotOwner lotId = book.lotOwner lotId := lotOwner_congr fun key => by rw [same']
    rw [owners]
    exact home key lotId opened

end

/-- An entry that keeps every lot with its owner. -/
theorem home_apply {process : Process} {book after : Book} {entry : Entry} {changes : Changes}
    (kept : book.LotsKept) (home : book.LotsHome) (keeps : book.KeepsHome entry.body)
    (applied : book.apply process entry false = .ok (after, changes)) : after.LotsHome := by
  obtain ⟨refs, sales, moved, lines, held⟩ := lines_of_applied applied
  have namedMoved : moved.LotsNamed := by
    have kin := opensKin_drafted kept.toLotsNamed keeps.drafted
    refine lotsNamed_lines ?_ ?_ lines
    · exact lotsNamed_of_held kept.toLotsNamed fun _ _ => rfl
    · exact ⟨kin.held, kin.alike⟩
  refine LotsHome.of_held ?_ held
  cases keeps with
  | minted unheld once _ quiet => exact home_minted home unheld once quiet (by rfl) lines namedMoved
  | merged placeholder instrument apart moves before =>
    rw [moves] at lines
    exact home_replacement kept.toLotsNamed home apart before (by rfl) lines namedMoved

theorem home_make {book after : Book} {making : Making} (kept : book.LotsKept) (home : book.LotsHome)
    (keeps : book.KeepsHome making.draft.body) (taken : make book making = .ok after) : after.LotsHome := by
  obtain ⟨act, decided, rfl⟩ := make_ok taken
  obtain ⟨applied, -, -⟩ := made_ok decided
  exact (home_apply kept home keeps applied).of_held fun _ _ => rfl

/-- Where each lot is open only with its owner, a cost adjustment changes the open lot. -/
theorem adjusted_of_home {book : Book} (home : book.LotsHome) : book.AdjustedAtHome := by
  rintro key lotId opened refs body adjustment after rfl adjusted
  have owner := home key adjustment.lotId opened
  obtain ⟨state, held⟩ := Option.isSome_iff_exists.mp (isSome_of_openAt opened)
  obtain ⟨position, found, lot⟩ := lotAt_eq_some.mp held
  unfold adjustBasis at adjusted
  simp only [owner, found, lot] at adjusted
  obtain ⟨terms, -, adjusted⟩ := bind_ok.mp adjusted
  cases adjusted
  constructor
  · rw [lotAt_setPosition, if_pos rfl, Std.ExtTreeMap.getElem?_insert_self, held]
    rfl
  · intro other apart
    rw [lotAt_setPosition, if_neg (Ne.symm apart)]

/-- In every run of entries that keep each lot with its owner, each lot is open on one position at most, its
owner's, and a cost adjustment of it changes it there. -/
theorem lots_home_of_run {accountId partition : String} {makings : List Making} {book : Book}
    (run : Run (fun book making after => book.KeepsHome making.draft.body ∧ make book making = .ok after)
      (Book.new accountId partition) makings book) : book.LotsHome ∧ book.AdjustedAtHome := by
  have both : book.LotsKept ∧ book.LotsHome := by
    refine run.invariant_of (fun book => book.LotsKept ∧ book.LotsHome) ⟨LotsKept.new accountId partition, ?_⟩ ?_
    · intro key lotId opened
      simp [openAt, lotAt, Book.new] at opened
    · intro state making after held keeps taken
      exact ⟨lotsKept_make held.1 keeps.drafted taken, home_make held.1 held.2 keeps taken⟩
  exact ⟨both.2, adjusted_of_home both.2⟩

/-- A lot opened and carried onto a record that sorts before its own. -/
theorem lots_home_merged : ∃ book : Book, book.LotsHome ∧ book.lotOwner "LOT-1" = some ⟨"INS-1", .long, ""⟩ := by
  have computed : (make (Book.new "ACC-1" "P-1") (openingOn "LCL-1")).toOption.any (fun first =>
      (make first (merging first 1 "ENT-2" "LCL-1" "INS-1")).toOption.any fun book =>
        book.lotOwner "LOT-1" == some ⟨"INS-1", .long, ""⟩) = true := by
    decide +kernel
  obtain ⟨first, opened, computed⟩ := answered_of computed
  obtain ⟨book, merged, computed⟩ := answered_of computed
  refine ⟨book, (lots_home_of_run (.snoc (.snoc (.nil _) ⟨?_, opened⟩) ⟨?_, merged⟩)).1, by simpa using computed⟩
  · refine .minted (fun line _ _ key => by simp [lotAt, Book.new]) (List.nodup_singleton _) rfl ?_
    intro key lotId quiet _
    have apart : "LOT-1" ≠ lotId := quiet _ (List.mem_singleton_self _) rfl
    simp [openingOn, namedUnits, apart]
  · exact .merged "LCL-1" "INS-1" (by decide) rfl fun _ _ _ _ => by decide

/-- A merge onto a record that sorts after the one it replaces leaves the closed copy the lot's owner. -/
theorem merged_lot_not_home :
    ¬ ∀ (accountId partition : String) (makings : List Making) (book : Book),
      book.Kept accountId partition makings → book.LotsHome := by
  intro claim
  have computed : (make (Book.new "ACC-1" "P-1") (openingOn "LCL-1")).toOption.any (fun first =>
      (make first (merging first 1 "ENT-2" "LCL-1" "LCL-2")).toOption.any fun book =>
        book.openAt ⟨"LCL-2", .long, ""⟩ "LOT-1" != 0 &&
          book.lotOwner "LOT-1" == some ⟨"LCL-1", .long, ""⟩) = true := by
    decide +kernel
  obtain ⟨first, opened, computed⟩ := answered_of computed
  obtain ⟨book, merged, computed⟩ := answered_of computed
  obtain ⟨nonzero, owner⟩ := Bool.and_eq_true_iff.mp computed
  have kept : book.Kept "ACC-1" "P-1" [openingOn "LCL-1", merging first 1 "ENT-2" "LCL-1" "LCL-2"] := by
    refine .snoc (.snoc (.nil _) ⟨drafted_openingOn "ACC-1" "P-1" "LCL-1", opened⟩) ⟨?_, merged⟩
    exact .merged "LCL-1" "LCL-2" (by decide) rfl
  have home := claim _ _ _ _ kept ⟨"LCL-2", .long, ""⟩ "LOT-1" (by simpa using nonzero)
  rw [home] at owner
  simp at owner

end Book

end MeridianCore.Bor
