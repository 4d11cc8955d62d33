import MeridianCore.Bor.OrderDecide.Trade
import MeridianCore.Bor.Book.Accounted

namespace MeridianCore.Bor

/-- A position's lots, closed ones too, in the order its map holds them. -/
def statesOf (book : Book) (key : Key) : List LotState :=
  match book.positions[key]? with
  | some position => position.lots.toList.map Prod.snd
  | none => []

/-- The lot a position holds under a name, the last of several. -/
def heldAs (book : Book) (key : Key) (lotId : String) : Option LotState :=
  (statesOf book key).reverse.find? fun state => state.lot.lotId == lotId

/-- What a line already in the entry moves a lot's open quantity by, as a magnitude. -/
def magnitudeChange (key : Key) (lotId : String) (line : MovementLine) : Int :=
  if lineKey line = key ∧ line.lotId ≠ "" ∧ line.lotId = lotId then
    if key.side = .short then -Book.lineUnits line else Book.lineUnits line
  else 0

/-- How much of a lot is open, by magnitude, once the lines already in the entry have moved it. -/
def openNow (book : Book) (key : Key) (earlier : List MovementLine) (lotId : String) : Int :=
  match heldAs book key lotId with
  | some state => |state.lot.openQuantity.units| + (earlier.map (magnitudeChange key lotId)).sum
  | none => 0

/-- A lot as a sale may relieve it, and the units open on it. -/
def LotView.shape (view : LotView) : LotView × Int := ({ view with openQuantity := Exact.zero }, view.openQuantity.units)

section
variable {book : Book} {key : Key} {earlier : List MovementLine}

theorem heldAs_lotId {lotId : String} {state : LotState} (held : heldAs book key lotId = some state) :
    state ∈ statesOf book key ∧ state.lot.lotId = lotId := by
  refine ⟨List.mem_reverse.mp (List.mem_of_find?_eq_some held), ?_⟩
  have named := List.find?_some held
  exact eq_of_beq named

/-- The views a position's lots make, each under the last lot so named. -/
theorem views_held (states : List LotState) (views : BTreeMap String LotView) (lotId : String) :
    (states.foldl (fun views state =>
      let view := LotView.of state
      views.insert view.lotId view) views)[lotId]? =
      ((states.reverse.find? fun state => state.lot.lotId == lotId).map LotView.of).or views[lotId]? := by
  induction states generalizing views with
  | nil => rfl
  | cons state rest ih =>
    rw [List.foldl_cons, ih, List.reverse_cons, List.find?_append]
    cases found : rest.reverse.find? fun state => state.lot.lotId == lotId with
    | some later => rfl
    | none =>
      rw [Std.ExtTreeMap.getElem?_insert, Option.map_none, Option.none_or, Option.none_or, List.find?_singleton]
      by_cases named : state.lot.lotId = lotId
      · rw [if_pos (Std.compare_eq_iff_eq.mpr (show (LotView.of state).lotId = lotId from named)), if_pos (beq_iff_eq.mpr named)]
        rfl
      · rw [if_neg fun same : compare (LotView.of state).lotId lotId = .eq => named (Std.compare_eq_iff_eq.mp same), if_neg (by rwa [beq_iff_eq])]
        rfl

/-- A line already in the entry moves the view of the lot it names, and no other. -/
theorem shape_earlierOn {views after : BTreeMap String LotView} {line : MovementLine}
    (moved : earlierOn key views line = .ok after) (lotId : String) :
    (after[lotId]?).map LotView.shape =
      (views[lotId]?).map fun view => (view.shape.1, view.shape.2 + magnitudeChange key lotId line) := by
  unfold earlierOn at moved
  by_cases beside : lineKey line ≠ key ∨ line.lotId = ""
  · rw [if_pos beside] at moved
    cases moved
    have still : magnitudeChange key lotId line = 0 := by
      refine if_neg ?_
      rintro ⟨here, named, -⟩
      exact beside.elim (· here) named
    simp only [still, Int.add_zero]
  · rw [if_neg beside] at moved
    push Not at beside
    obtain ⟨here, named⟩ := beside
    obtain ⟨quantity, read, moved⟩ := bind_ok.mp moved
    have units := Book.lineUnits_of_read read
    have change : (if key.side = .short then quantity.negated else quantity).units =
        if key.side = .short then -Book.lineUnits line else Book.lineUnits line := by
      rw [units, apply_ite Exact.units, Exact.units_negated]
    cases found : views[line.lotId]? with
    | none =>
      rw [found] at moved
      cases moved
      by_cases same : line.lotId = lotId
      · rw [← same, found]
        rfl
      · rw [magnitudeChange, if_neg fun on => same on.2.2]
        simp only [Int.add_zero]
    | some view =>
      rw [found] at moved
      obtain ⟨left, summed, moved⟩ := bind_ok.mp moved
      cases moved
      have leftUnits := (Exact.checkedAdd_ok (mapError_ok.mp summed)).1
      rw [change] at leftUnits
      rw [Std.ExtTreeMap.getElem?_insert]
      by_cases same : line.lotId = lotId
      · rw [if_pos (Std.compare_eq_iff_eq.mpr same), ← same, found]
        refine congrArg some (Prod.ext rfl ?_)
        rw [magnitudeChange, if_pos ⟨here, named, rfl⟩]
        exact leftUnits
      · rw [if_neg fun alike => same (Std.compare_eq_iff_eq.mp alike), magnitudeChange, if_neg fun on => same on.2.2]
        simp only [Int.add_zero]

theorem shape_earlier {views after : BTreeMap String LotView} (moved : earlier.foldlM (earlierOn key) views = .ok after)
    (lotId : String) :
    (after[lotId]?).map LotView.shape =
      (views[lotId]?).map fun view => (view.shape.1, view.shape.2 + (earlier.map (magnitudeChange key lotId)).sum) := by
  induction earlier generalizing views with
  | nil =>
    cases moved
    simp only [List.map_nil, List.sum_nil, Int.add_zero]
  | cons line rest ih =>
    rw [List.foldlM_cons] at moved
    obtain ⟨next, stepped, moved⟩ := bind_ok.mp moved
    have first := shape_earlierOn stepped lotId
    rw [ih moved]
    have widened := congrArg (Option.map fun shape : LotView × Int =>
      (shape.1, shape.2 + (rest.map (magnitudeChange key lotId)).sum)) first
    rw [Option.map_map, Option.map_map] at widened
    refine widened.trans ?_
    simp only [List.map_cons, List.sum_cons, ← add_assoc]
    rfl

/-- What the lots open for relief are: one view of each lot open once the lines before have moved
it, in the order of their names. -/
structure OpenLots (book : Book) (key : Key) (earlier : List MovementLine) (lots : List LotView) : Prop where
  ordered : lots.Pairwise fun a b => a.lotId < b.lotId
  viewed : ∀ view ∈ lots, ∃ state, heldAs book key view.lotId = some state ∧
    view = { LotView.of state with openQuantity := view.openQuantity }
  units : ∀ view ∈ lots, view.openQuantity.units = openNow book key earlier view.lotId
  positive : ∀ view ∈ lots, 0 < view.openQuantity.units
  every : ∀ lotId, 0 < openNow book key earlier lotId → ∃ view ∈ lots, view.lotId = lotId

theorem OpenLots.nodup {lots : List LotView} (are : OpenLots book key earlier lots) :
    (lots.map LotView.lotId).Nodup := by
  rw [List.Nodup, List.pairwise_map]
  exact are.ordered.imp fun less => less.ne

theorem openLots_ok {lots : List LotView} (opened : openLots book key earlier = .ok lots) :
    OpenLots book key earlier lots := by
  unfold openLots at opened
  obtain ⟨views, moved, opened⟩ := bind_ok.mp opened
  cases opened
  have viewed (lotId : String) : (views[lotId]?).map LotView.shape =
      (heldAs book key lotId).map fun state =>
        ((LotView.of state).shape.1, openNow book key earlier lotId) := by
    rw [shape_earlier moved lotId, views_held, Std.ExtTreeMap.getElem?_empty, Option.or_none, Option.map_map]
    change (heldAs book key lotId).map _ = _
    unfold openNow
    cases heldAs book key lotId with
    | none => rfl
    | some state => exact congrArg some (Prod.ext rfl (congrArg (· + _) (units_magnitude _)))
  -- each view is under its own name, and is its lot's but for what is open
  have under {lotId : String} {view : LotView} (found : views[lotId]? = some view) :
      ∃ state, heldAs book key lotId = some state ∧ view.lotId = lotId ∧
        view = { LotView.of state with openQuantity := view.openQuantity } ∧
        view.openQuantity.units = openNow book key earlier lotId := by
    have shape := viewed lotId
    rw [found] at shape
    cases held : heldAs book key lotId with
    | none =>
      rw [held] at shape
      cases shape
    | some state =>
      rw [held] at shape
      obtain ⟨alike, units⟩ := Prod.mk.inj (Option.some.inj shape)
      have view' : view = { LotView.of state with openQuantity := view.openQuantity } := by
        have names := congrArg LotView.lotId alike
        have dates := congrArg LotView.acquiredDate alike
        have costs := congrArg LotView.unitCost alike
        have ordinals := congrArg LotView.ordinal alike
        cases view
        simp only [LotView.mk.injEq] at *
        exact ⟨names, trivial, dates, costs, ordinals⟩
      refine ⟨state, rfl, ?_, view', units⟩
      rw [view']
      exact (heldAs_lotId held).2
  have among {view : LotView} (inLots : view ∈ (views.toList.map Prod.snd).filter fun view =>
      !view.openQuantity.isZero && !view.openQuantity.isNegative) :
      views[view.lotId]? = some view ∧ 0 < view.openQuantity.units := by
    obtain ⟨held, isOpen⟩ := List.mem_filter.mp inLots
    obtain ⟨⟨lotId, view'⟩, listed, rfl⟩ := List.mem_map.mp held
    have found := BTreeMap.mem_toList.mp listed
    obtain ⟨state, -, named, -⟩ := under found
    dsimp only at isOpen
    rw [named]
    refine ⟨found, ?_⟩
    simp only [Bool.and_eq_true, Bool.not_eq_true', ← Bool.not_eq_true, Exact.isZero_iff, Exact.isNegative_iff] at isOpen
    change 0 < view'.openQuantity.units
    omega
  refine ⟨?_, fun view inLots => ?_, fun view inLots => ?_, fun view inLots => (among inLots).2, fun lotId isOpen => ?_⟩
  · refine List.Pairwise.filter _ (List.pairwise_map.mpr ?_)
    refine (Std.ExtTreeMap.ordered_keys_toList).imp_of_mem ?_
    rintro ⟨a, viewA⟩ ⟨b, viewB⟩ listedA listedB less
    obtain ⟨-, -, namedA, -⟩ := under (BTreeMap.mem_toList.mp listedA)
    obtain ⟨-, -, namedB, -⟩ := under (BTreeMap.mem_toList.mp listedB)
    rw [namedA, namedB]
    exact compare_lt_iff_lt.mp less
  · obtain ⟨state, held, -, view', -⟩ := under (among inLots).1
    exact ⟨state, held, view'⟩
  · obtain ⟨-, -, -, -, units⟩ := under (among inLots).1
    exact units
  · have shape := viewed lotId
    cases found : views[lotId]? with
    | none =>
      cases held : heldAs book key lotId with
      | none =>
        rw [openNow, held] at isOpen
        exact absurd isOpen (lt_irrefl 0)
      | some state =>
        rw [found, held] at shape
        cases shape
    | some view =>
      obtain ⟨state, -, named, -, units⟩ := under found
      refine ⟨view, List.mem_filter.mpr ⟨List.mem_map.mpr ⟨_, BTreeMap.mem_toList.mpr found, rfl⟩, ?_⟩, named⟩
      rw [← units] at isOpen
      simp only [Bool.and_eq_true, Bool.not_eq_true', ← Bool.not_eq_true, Exact.isZero_iff, Exact.isNegative_iff]
      omega

end

end MeridianCore.Bor
