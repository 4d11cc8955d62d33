import MeridianCore.Sidecar.Queue

/-! Where each delivery pushed to a queue, and each loss told it, comes to be said. Beside the queue a history keeps the
places taken in it, in order: a delivery's, with every delivery put there while it waited, or a gap, with every loss it is of. -/

namespace MeridianCore.Sidecar

variable {δ : Type}

/-- One call of a queue. The queue is under one lock, so every interleaving of its callers is a list of these. -/
inductive Turn (δ : Type) where
  | push (delivery : δ) (row : String) (key : Option String)
  | lose (dropped : Option Nat) (row : Option String)
  | pop

namespace Turn

/-- A loss that is counted is of one delivery or more, as every caller counts it. -/
def Counts : Turn δ → Prop
  | .lose dropped _ => dropped ≠ some 0
  | _ => True

def isPop : Turn δ → Bool
  | .pop => true
  | _ => false

end Turn

def Queue.turn (most : Nat) (queue : Queue δ) : Turn δ → Queue δ × Option (Item δ)
  | .push delivery row key => (queue.pushKeyed most delivery row key, none)
  | .lose dropped row => (queue.lose dropped row, none)
  | .pop => queue.pop

/-- A new queue after its turns, and what was popped of it, in order. -/
def Queue.run (most : Nat) (turns : List (Turn δ)) : Queue δ × List (Item δ) :=
  turns.foldl (fun held turn => ((held.1.turn most turn).1, held.2 ++ (held.1.turn most turn).2.toList)) ({}, [])

def Item.isDelivery : Item δ → Bool
  | .delivery _ => true
  | .lost .. => false

/-- A loss: the turn it was told in, how many deliveries and of which row, where that is known. -/
structure Missed where
  turn : Nat
  dropped : Option Nat
  row : Option String

/-- The losses of a gap together. -/
def tally (missed : List Missed) : Loss := missed.foldl (fun loss miss => loss.add miss.dropped miss.row) {}

/-- A place taken in a queue: a delivery's under its key, with the turn each was pushed in, the one put there last
apart; or a gap's. -/
inductive Place (δ : Type) where
  | spot (key : Option String) (earlier : List (Nat × δ)) (last : Nat × δ)
  | gap (missed : List Missed)

namespace Place

def key : Place δ → Option String
  | .spot key .. => key
  | .gap _ => none

/-- What is popped of it. -/
def item : Place δ → Item δ
  | .spot _ _ last => .delivery last.2
  | .gap missed => (tally missed).delivered

/-- The turns it accounts for. -/
def turns : Place δ → List Nat
  | .spot _ earlier last => (earlier ++ [last]).map Prod.fst
  | .gap missed => missed.map Missed.turn

/-- The turns its place is by: the first delivery's, or every loss's. -/
def taken : Place δ → List Nat
  | .spot _ earlier last => ((earlier ++ [last]).map Prod.fst).take 1
  | .gap missed => missed.map Missed.turn

end Place

/-- A loss told, or a delivery dropped at a full queue. -/
def Missed.Of (turns : List (Turn δ)) (miss : Missed) : Prop :=
  turns[miss.turn]? = some (.lose miss.dropped miss.row) ∨
    ∃ delivery row key, turns[miss.turn]? = some (.push delivery row key) ∧ miss.dropped = some 1 ∧ miss.row = some row

/-- A place is of the turns it accounts for: deliveries pushed one after another under its key, one where it has none;
or losses, one after another. -/
def Place.Holds (turns : List (Turn δ)) : Place δ → Prop
  | .spot key earlier last => ((earlier ++ [last]).map Prod.fst).Pairwise (· < ·) ∧ (key = none → earlier = []) ∧
      ∀ entry ∈ earlier ++ [last], ∃ row, turns[entry.1]? = some (.push entry.2 row key)
  | .gap missed => missed ≠ [] ∧ (missed.map Missed.turn).Pairwise (· < ·) ∧ ∀ miss ∈ missed, miss.Of turns

/-- The turns that push or lose. -/
def told (turns : List (Turn δ)) : List Nat :=
  (List.range turns.length).filter fun i => turns[i]?.any fun turn => !turn.isPop

/-- The places of a queue: those popped, each with the turn that popped it; those that wait; and the losses not yet said. -/
structure History (δ : Type) where
  gone : List (Nat × Place δ) := []
  waiting : List (Place δ) := []
  unsaid : List Missed := []

namespace History

/-- Losses make a gap, and no loss makes none. -/
def gapOf (missed : List Missed) : List (Place δ) := if missed = [] then [] else [.gap missed]

def places (history : History δ) : List (Place δ) := history.gone.map Prod.snd ++ history.waiting ++ gapOf history.unsaid

/-- Each push and each loss is in one place, and the places are in the order they were taken; what is popped was
pushed, or lost, before that. -/
structure Sound (turns : List (Turn δ)) (history : History δ) : Prop where
  once : (history.places.flatMap Place.turns).Perm (told turns)
  holds : ∀ place ∈ history.places, place.Holds turns
  order : history.places.Pairwise fun before after => ∀ i ∈ before.taken, ∀ j ∈ after.taken, i < j
  due : ∀ entry ∈ history.gone, turns[entry.1]? = some .pop ∧ ∀ i ∈ entry.2.turns, i < entry.1
  inTurn : (history.gone.map Prod.fst).Pairwise (· < ·)

/-- A queue, and what was popped of it, are what a history says: no more deliveries wait than may, and a key once. -/
structure Shows (most : Nat) (queue : Queue δ) (popped : List (Item δ)) (history : History δ) : Prop where
  popped : popped = history.gone.map fun entry => entry.2.item
  waits : queue.items = history.waiting.map fun place => (place.key, place.item)
  unsaid : queue.lost = if history.unsaid = [] then none else some (tally history.unsaid)
  counted : queue.waiting = queue.items.countP fun held => held.2.isDelivery
  room : queue.waiting ≤ most
  keys : (queue.items.filterMap Prod.fst).Nodup

end History

/-- A gap's loss states how many and of which rows, sorted and once each; or says either unknown, exactly where some
loss in it was uncounted, or its row unknown. -/
def Exactly (missed : List Missed) (item : Item δ) : Prop :=
  ∃ dropped rows, item = .lost dropped rows ∧ (dropped = 0 ↔ ∃ miss ∈ missed, miss.dropped = none) ∧
    ((∀ miss ∈ missed, miss.dropped ≠ none) → dropped = (missed.filterMap Missed.dropped).sum) ∧
    (rows = [] ↔ ∃ miss ∈ missed, miss.row = none) ∧
    ((∀ miss ∈ missed, miss.row ≠ none) → rows.Pairwise (· < ·) ∧ ∀ row, row ∈ rows ↔ ∃ miss ∈ missed, miss.row = some row)

section tally
variable {missed : List Missed} {miss : Missed}

theorem tally_append (missed : List Missed) (miss : Missed) :
    tally (missed ++ [miss]) = (tally missed).add miss.dropped miss.row := by
  rw [tally, List.foldl_append]
  rfl

theorem Loss.add_counts (loss : Loss) (dropped : Option Nat) (row : Option String) :
    (loss.add dropped row).dropped = loss.dropped + dropped.toList.sum ∧
      ((loss.add dropped row).countUnknown = true ↔ loss.countUnknown = true ∨ dropped = none) := by
  cases dropped <;> cases row <;> simp [Loss.add]

theorem Loss.add_rows (loss : Loss) (dropped : Option Nat) (row : Option String) :
    (∀ each, each ∈ (loss.add dropped row).rows ↔ each ∈ loss.rows ∨ row = some each) ∧
      ((loss.add dropped row).rowsUnknown = true ↔ loss.rowsUnknown = true ∨ row = none) := by
  cases row with
  | none => cases dropped <;> simp [Loss.add]
  | some row =>
    have inserted (each : String) : each ∈ loss.rows.insert row ↔ each ∈ loss.rows ∨ row = each := by
      rw [Std.ExtTreeSet.mem_insert, Std.LawfulEqCmp.compare_eq_iff_eq, or_comm]
    cases dropped <;> simpa [Loss.add] using inserted

theorem tally_counts (missed : List Missed) : (tally missed).dropped = (missed.filterMap Missed.dropped).sum ∧
    ((tally missed).countUnknown = true ↔ ∃ miss ∈ missed, miss.dropped = none) := by
  induction missed using List.reverseRecOn with
  | nil => simp [tally]
  | append_singleton missed miss ih =>
    obtain ⟨dropped, unknown⟩ := (tally missed).add_counts miss.dropped miss.row
    rw [tally_append, dropped, unknown, ih.1, ih.2]
    constructor
    · cases counted : miss.dropped <;> simp [counted]
    · simp [or_and_right, exists_or]

theorem tally_rows (missed : List Missed) :
    (∀ row, row ∈ (tally missed).rows ↔ ∃ miss ∈ missed, miss.row = some row) ∧
      ((tally missed).rowsUnknown = true ↔ ∃ miss ∈ missed, miss.row = none) := by
  induction missed using List.reverseRecOn with
  | nil => simp [tally]
  | append_singleton missed miss ih =>
    obtain ⟨rows, unknown⟩ := (tally missed).add_rows miss.dropped miss.row
    rw [tally_append, unknown, ih.2]
    constructor
    · intro row
      rw [rows, ih.1]
      simp [or_and_right, exists_or]
    · simp [or_and_right, exists_or]

theorem exactly_of_counts (some' : missed ≠ []) (counts : ∀ miss ∈ missed, miss.dropped ≠ some 0) :
    Exactly missed ((tally missed).delivered : Item δ) := by
  obtain ⟨dropped, uncounted⟩ := tally_counts missed
  obtain ⟨rows, unknown⟩ := tally_rows missed
  refine ⟨_, _, rfl, ?_, ?_, ?_, ?_⟩
  · by_cases hidden : (tally missed).countUnknown = true
    · simp only [hidden, if_true, true_iff]
      exact uncounted.mp hidden
    · simp only [hidden, if_false, Bool.false_eq_true]
      refine iff_of_false (fun zero => ?_) (fun found => hidden (uncounted.mpr found))
      obtain ⟨miss, member⟩ := List.exists_mem_of_ne_nil missed some'
      cases counted : miss.dropped with
      | none => exact hidden (uncounted.mpr ⟨miss, member, counted⟩)
      | some count =>
        have within : count ≤ (tally missed).dropped := by
          rw [dropped]
          exact List.le_sum_of_mem (List.mem_filterMap.mpr ⟨miss, member, counted⟩)
        have most : count = 0 := by omega
        exact counts miss member (by rw [counted, most])
  · intro known
    rw [if_neg fun hidden => ?_, dropped]
    obtain ⟨miss, member, none'⟩ := uncounted.mp hidden
    exact known miss member none'
  · by_cases hidden : (tally missed).rowsUnknown = true
    · simp only [hidden, if_true, true_iff]
      exact unknown.mp hidden
    · simp only [hidden, if_false, Bool.false_eq_true]
      refine iff_of_false (fun empty => ?_) (fun found => hidden (unknown.mpr found))
      obtain ⟨miss, member⟩ := List.exists_mem_of_ne_nil missed some'
      cases named : miss.row with
      | none => exact hidden (unknown.mpr ⟨miss, member, named⟩)
      | some row =>
        have held := Std.ExtTreeSet.mem_toList.mpr ((rows row).mpr ⟨miss, member, named⟩)
        rw [empty] at held
        exact List.not_mem_nil held
  · intro known
    rw [if_neg fun hidden => ?_]
    · refine ⟨Std.ExtTreeSet.ordered_toList.imp fun less => compare_lt_iff_lt.mp less, fun row => ?_⟩
      rw [Std.ExtTreeSet.mem_toList, rows]
    · obtain ⟨miss, member, none'⟩ := unknown.mp hidden
      exact known miss member none'

end tally

section turns
variable {turns : List (Turn δ)} {turn : Turn δ} {place : Place δ} {miss : Missed} {i : Nat}

theorem stands {earlier : Turn δ} (found : turns[i]? = some earlier) : (turns ++ [turn])[i]? = some earlier := by
  have inside := (List.getElem?_eq_some_iff.mp found).1
  rw [List.getElem?_append_left inside, found]

theorem now : (turns ++ [turn])[turns.length]? = some turn := by simp

theorem mem_told (member : i ∈ told turns) : i < turns.length := List.mem_range.mp (List.mem_filter.mp member).1

theorem told_append : told (turns ++ [turn]) = told turns ++ if turn.isPop then [] else [turns.length] := by
  have earlier : (List.range turns.length).filter (fun i => (turns ++ [turn])[i]?.any fun turn => !turn.isPop) = told turns := by
    refine List.filter_congr fun i member => ?_
    rw [List.getElem?_append_left (List.mem_range.mp member)]
  rw [told, List.length_append, List.length_singleton, List.range_succ, List.filter_append, earlier]
  cases pops : turn.isPop <;> simp [pops]

theorem Missed.Of.mono (of : miss.Of turns) : miss.Of (turns ++ [turn]) := by
  rcases of with lost | ⟨delivery, row, key, pushed, one, named⟩
  · exact .inl (stands lost)
  · exact .inr ⟨delivery, row, key, stands pushed, one, named⟩

theorem Place.Holds.mono (holds : place.Holds turns) : place.Holds (turns ++ [turn]) := by
  cases place with
  | spot key earlier last =>
    obtain ⟨order, one, pushes⟩ := holds
    refine ⟨order, one, fun entry member => ?_⟩
    obtain ⟨row, pushed⟩ := pushes entry member
    exact ⟨row, stands pushed⟩
  | gap missed =>
    obtain ⟨some', order, each⟩ := holds
    exact ⟨some', order, fun miss member => (each miss member).mono⟩

theorem Place.taken_subset : place.taken ⊆ place.turns := by
  cases place with
  | spot => exact List.take_subset ..
  | gap => exact List.Subset.refl _

end turns

namespace History

variable {turns : List (Turn δ)} {turn : Turn δ} {history : History δ}

theorem turns_gapOf (missed : List Missed) : (gapOf missed : List (Place δ)).flatMap Place.turns = missed.map Missed.turn := by
  unfold gapOf
  split
  · next empty => simp [empty]
  · simp [Place.turns]

theorem Sound.below (sound : Sound turns history) {place : Place δ} (member : place ∈ history.places) {i : Nat}
    (accounts : i ∈ place.turns) : i < turns.length :=
  mem_told (sound.once.subset (List.mem_flatMap.mpr ⟨place, member, accounts⟩))

theorem Sound.due_mono (sound : Sound turns history) :
    ∀ entry ∈ history.gone, (turns ++ [turn])[entry.1]? = some .pop ∧ ∀ i ∈ entry.2.turns, i < entry.1 :=
  fun entry member => ⟨stands (sound.due entry member).1, (sound.due entry member).2⟩

/-- A new place, after every place there. -/
theorem Sound.opened (sound : Sound turns history) (pushes : turn.isPop = false) {place : Place δ}
    (holds : place.Holds (turns ++ [turn])) (accounts : place.turns = [turns.length]) (by_ : place.taken = [turns.length]) :
    Sound (turns ++ [turn]) { history with waiting := history.waiting ++ gapOf history.unsaid ++ [place], unsaid := [] } := by
  have places : History.places { history with waiting := history.waiting ++ gapOf history.unsaid ++ [place], unsaid := [] } =
      history.places ++ [place] := by simp [History.places, gapOf]
  refine ⟨?_, ?_, ?_, sound.due_mono, sound.inTurn⟩
  · rw [places, told_append, pushes, List.flatMap_append, List.flatMap_singleton, accounts]
    exact sound.once.append_right _
  · rw [places]
    intro each member
    rcases List.mem_append.mp member with member | member
    · exact (sound.holds each member).mono
    · rw [List.mem_singleton.mp member]
      exact holds
  · rw [places, List.pairwise_append]
    refine ⟨sound.order, List.pairwise_singleton .., fun before member after last i i_ j j_ => ?_⟩
    rw [List.mem_singleton.mp last, by_] at j_
    rw [List.mem_singleton.mp j_]
    exact sound.below member (Place.taken_subset i_)

/-- A loss, with those not yet said. -/
theorem Sound.missed (sound : Sound turns history) (tells : turn.isPop = false) {miss : Missed} (at_ : miss.turn = turns.length)
    (of : miss.Of (turns ++ [turn])) :
    Sound (turns ++ [turn]) { history with unsaid := history.unsaid ++ [miss] } := by
  have places : History.places { history with unsaid := history.unsaid ++ [miss] } =
      history.gone.map Prod.snd ++ history.waiting ++ [.gap (history.unsaid ++ [miss])] := by simp [History.places, gapOf]
  have earlier : ∀ place ∈ history.gone.map Prod.snd ++ history.waiting, place ∈ history.places :=
    fun place member => List.mem_append_left _ member
  have gap {i : Nat} (member : i ∈ history.unsaid.map Missed.turn) : .gap history.unsaid ∈ (gapOf history.unsaid : List (Place δ)) := by
    unfold gapOf
    rw [if_neg fun empty => ?_]
    · exact List.mem_singleton_self _
    · rw [empty] at member
      exact List.not_mem_nil member
  have below : ∀ i ∈ history.unsaid.map Missed.turn, i < turns.length := by
    intro i member
    exact sound.below (List.mem_append_right _ (gap member)) member
  refine ⟨?_, ?_, ?_, sound.due_mono, sound.inTurn⟩
  · have once := sound.once
    rw [History.places, List.flatMap_append, turns_gapOf] at once
    rw [places, told_append, tells, List.flatMap_append, List.flatMap_singleton, Place.turns, List.map_append,
      ← List.append_assoc, List.map_singleton, at_]
    exact once.append_right _
  · rw [places]
    intro each member
    rcases List.mem_append.mp member with member | member
    · exact (sound.holds each (earlier each member)).mono
    · rw [List.mem_singleton.mp member]
      have held (miss : Missed) (unsaid : miss ∈ history.unsaid) : Place.Holds turns (.gap history.unsaid : Place δ) :=
        sound.holds _ (List.mem_append_right _ (gap (List.mem_map_of_mem unsaid)))
      refine ⟨by simp, ?_, fun each listed => ?_⟩
      · rw [List.map_append, List.pairwise_append]
        refine ⟨?_, List.pairwise_singleton .., fun i member j last => ?_⟩
        · cases unsaid : history.unsaid with
          | nil => exact List.Pairwise.nil
          | cons first rest =>
            rw [← unsaid]
            exact (held first (by simp [unsaid])).2.1
        · rw [List.map_singleton, at_] at last
          rw [List.mem_singleton.mp last]
          exact below i member
      · rcases List.mem_append.mp listed with listed | listed
        · exact ((held each listed).2.2 each listed).mono
        · rw [List.mem_singleton.mp listed]
          exact of
  · rw [places, List.pairwise_append]
    have order := sound.order
    rw [History.places, List.pairwise_append] at order
    refine ⟨order.1, List.pairwise_singleton .., fun before member after last i i_ j j_ => ?_⟩
    rw [List.mem_singleton.mp last, Place.taken, List.map_append, List.map_singleton, at_] at j_
    rcases List.mem_append.mp j_ with j_ | j_
    · exact order.2.2 before member _ (gap j_) i i_ j j_
    · rw [List.mem_singleton.mp j_]
      exact sound.below (earlier before member) (Place.taken_subset i_)

/-- A delivery put in the place its key waits in. -/
theorem Sound.joined {gone : List (Nat × Place δ)} {before after : List (Place δ)} {unsaid : List Missed} {key row : String}
    {earlier : List (Nat × δ)} {last : Nat × δ} {delivery : δ}
    (sound : Sound turns ⟨gone, before ++ .spot (some key) earlier last :: after, unsaid⟩) :
    Sound (turns ++ [.push delivery row (some key)])
      ⟨gone, before ++ .spot (some key) (earlier ++ [last]) (turns.length, delivery) :: after, unsaid⟩ := by
  have places (place : Place δ) : History.places ⟨gone, before ++ place :: after, unsaid⟩ =
      (gone.map Prod.snd ++ before) ++ place :: (after ++ gapOf unsaid) := by simp [History.places]
  obtain ⟨once, holds, order, due, inTurn⟩ := sound
  have below := @Sound.below _ _ _ ⟨once, holds, order, due, inTurn⟩
  rw [places] at once holds order below
  have taken : (Place.spot (some key) (earlier ++ [last]) (turns.length, delivery)).taken =
      (Place.spot (some key) earlier last).taken := by cases earlier <;> rfl
  refine ⟨?_, ?_, ?_, fun entry member => ⟨stands (due entry member).1, (due entry member).2⟩, inTurn⟩
  · have accounts : (Place.spot (some key) (earlier ++ [last]) (turns.length, delivery)).turns =
        (Place.spot (some key) earlier last).turns ++ [turns.length] := by simp [Place.turns]
    have split (place : Place δ) : ((gone.map Prod.snd ++ before) ++ place :: (after ++ gapOf unsaid)).flatMap Place.turns =
        (gone.map Prod.snd ++ before).flatMap Place.turns ++ (place.turns ++ (after ++ gapOf unsaid).flatMap Place.turns) := by
      rw [List.flatMap_append, List.flatMap_cons]
    rw [split] at once
    rw [places, told_append, if_neg (by simp [Turn.isPop]), split, accounts]
    refine List.Perm.trans ?_ (once.append_right [turns.length])
    rw [List.append_assoc, List.append_assoc, List.append_assoc]
    exact (List.perm_append_comm.append_left _).append_left _
  · rw [places]
    intro place member
    rw [List.mem_append, List.mem_cons] at member
    rcases member with member | rfl | member
    · exact (holds place (List.mem_append_left _ member)).mono
    · obtain ⟨ordered, -, pushes⟩ := holds (.spot (some key) earlier last) (by simp)
      refine ⟨?_, fun none' => (Option.some_ne_none _ none').elim, fun entry listed => ?_⟩
      · rw [List.map_append, List.pairwise_append]
        refine ⟨ordered, List.pairwise_singleton .., fun i member j this => ?_⟩
        rw [List.mem_singleton.mp this]
        exact below (show Place.spot (some key) earlier last ∈ _ by simp) member
      · rcases List.mem_append.mp listed with listed | listed
        · obtain ⟨row, pushed⟩ := pushes entry listed
          exact ⟨row, stands pushed⟩
        · rw [List.mem_singleton.mp listed]
          exact ⟨row, now⟩
    · exact (holds place (List.mem_append_right _ (List.mem_cons_of_mem _ member))).mono
  · rw [places]
    rw [List.pairwise_append, List.pairwise_cons] at order ⊢
    obtain ⟨front, ⟨next, back⟩, across⟩ := order
    refine ⟨front, ⟨?_, back⟩, fun place member other => ?_⟩
    · rw [taken]
      exact next
    · rw [List.mem_cons]
      rintro (rfl | later)
      · rw [taken]
        exact across place member _ (List.mem_cons_self)
      · exact across place member other (List.mem_cons_of_mem _ later)

/-- A pop of nothing. -/
theorem Sound.idle (sound : Sound turns history) : Sound (turns ++ [.pop]) history := by
  refine ⟨?_, fun place member => (sound.holds place member).mono, sound.order, sound.due_mono, sound.inTurn⟩
  rw [told_append, if_pos (show (Turn.pop : Turn δ).isPop = true from rfl), List.append_nil]
  exact sound.once

/-- The first place that waits, or the gap after them all, popped. -/
theorem Sound.popped (sound : Sound turns history) {place : Place δ} {waiting : List (Place δ)} {unsaid : List Missed}
    (first : history.waiting ++ gapOf history.unsaid = place :: (waiting ++ gapOf unsaid)) :
    Sound (turns ++ [.pop]) ⟨history.gone ++ [(turns.length, place)], waiting, unsaid⟩ := by
  have same : History.places ⟨history.gone ++ [(turns.length, place)], waiting, unsaid⟩ = history.places := by
    unfold History.places
    rw [List.append_assoc (history.gone.map Prod.snd), first]
    simp
  have member : place ∈ history.places := by
    rw [← same]
    simp [History.places]
  obtain ⟨once, holds, order, due, inTurn⟩ := sound.idle
  refine ⟨same ▸ once, same ▸ holds, same ▸ order, fun entry listed => ?_, ?_⟩
  · rcases List.mem_append.mp listed with listed | listed
    · exact due entry listed
    · rw [List.mem_singleton.mp listed]
      exact ⟨now, fun i accounts => sound.below member accounts⟩
  · rw [List.map_append, List.pairwise_append]
    refine ⟨inTurn, List.pairwise_singleton .., fun i earlier j this => ?_⟩
    rw [List.mem_singleton.mp this]
    obtain ⟨entry, listed, rfl⟩ := List.mem_map.mp earlier
    exact (List.getElem?_eq_some_iff.mp (sound.due entry listed).1).1

section shows
variable {most : Nat} {queue : Queue δ} {popped : List (Item δ)} {key row : String} {delivery : δ}

/-- The place a key waits in, and what putting a delivery there leaves. -/
theorem split_of_find {waiting : List (Place δ)} {item : Option String × Item δ}
    (found : (waiting.map fun place => (place.key, place.item)).find? (fun held => held.1 == some key) = some item) :
    ∃ before earlier last after, waiting = before ++ .spot (some key) earlier last :: after ∧
      ∀ put : Nat × δ, Queue.put key (.delivery put.2) (waiting.map fun place => (place.key, place.item)) =
        (before ++ .spot (some key) (earlier ++ [last]) put :: after).map fun place => (place.key, place.item) := by
  induction waiting with
  | nil => cases found
  | cons place rest ih =>
    rw [List.map_cons, List.find?_cons] at found
    by_cases under : place.key = some key
    · cases place with
      | gap missed => cases under
      | spot held earlier last =>
        obtain rfl : held = some key := under
        exact ⟨[], earlier, last, rest, rfl, fun put => by simp [Queue.put, Place.key, Place.item]⟩
    · have other : (place.key == some key) = false := by simpa using under
      simp only [other] at found
      obtain ⟨before, earlier, last, after, rfl, puts⟩ := ih found
      refine ⟨place :: before, earlier, last, after, rfl, fun put => ?_⟩
      rw [List.map_cons, Queue.put, if_neg under, puts]
      rfl

theorem Shows.joined {gone : List (Nat × Place δ)} {before after : List (Place δ)} {unsaid : List Missed}
    {earlier : List (Nat × δ)} {last put : Nat × δ} {items : List (Option String × Item δ)}
    (shows_ : Shows most queue popped ⟨gone, before ++ .spot (some key) earlier last :: after, unsaid⟩)
    (puts : items = (before ++ .spot (some key) (earlier ++ [last]) put :: after).map fun place => (place.key, place.item)) :
    Shows most { queue with items } popped ⟨gone, before ++ .spot (some key) (earlier ++ [last]) put :: after, unsaid⟩ := by
  obtain ⟨popped', waits, unsaid', counted, room, keys⟩ := shows_
  refine ⟨popped', puts, unsaid', ?_, room, ?_⟩
  · dsimp only
    rw [counted, waits, puts]
    simp [Place.item, Item.isDelivery]
  · rw [waits] at keys
    rw [puts]
    simpa [Place.key] using keys

theorem Shows.missed {history : History δ} (shows_ : Shows most queue popped history) (miss : Missed) :
    Shows most { queue with lost := some ((queue.lost.getD {}).add miss.dropped miss.row) } popped
      { history with unsaid := history.unsaid ++ [miss] } := by
  refine ⟨shows_.popped, shows_.waits, ?_, shows_.counted, shows_.room, shows_.keys⟩
  have unsaid := shows_.unsaid
  dsimp only
  rw [if_neg (by simp), tally_append, unsaid]
  split
  · next empty => rw [empty]; rfl
  · rfl

theorem Shows.opened {history : History δ} (shows_ : Shows most queue popped history) (room : queue.waiting < most)
    {key : Option String} (free : ∀ held ∈ queue.items, key ≠ none → held.1 ≠ key) (put : Nat × δ) :
    Shows most { items := queue.items ++ (match queue.lost with
        | some loss => [(none, loss.delivered)]
        | none => []) ++ [(key, .delivery put.2)], waiting := queue.waiting + 1, lost := none } popped
      { history with waiting := history.waiting ++ gapOf history.unsaid ++ [.spot key [] put], unsaid := [] } := by
  have said : (match queue.lost with
      | some loss => [(none, loss.delivered)]
      | none => ([] : List (Option String × Item δ))) = (gapOf history.unsaid).map fun place => (place.key, place.item) := by
    rw [shows_.unsaid]
    by_cases empty : history.unsaid = []
    · simp [gapOf, empty]
    · simp [gapOf, empty, Place.key, Place.item]
  have lost : ∀ held ∈ (gapOf history.unsaid : List (Place δ)).map fun place => (place.key, place.item),
      held.1 = none ∧ held.2.isDelivery = false := by
    intro held member
    obtain ⟨place, listed, rfl⟩ := List.mem_map.mp member
    unfold gapOf at listed
    split at listed
    · cases listed
    · rw [List.mem_singleton.mp listed]
      exact ⟨rfl, rfl⟩
  rw [said]
  refine ⟨shows_.popped, ?_, by simp, ?_, room, ?_⟩
  · simp [shows_.waits, Place.key, Place.item]
  · have none' : ((gapOf history.unsaid).map fun place : Place δ => (place.key, place.item)).countP (fun held => held.2.isDelivery) = 0 := by
      rw [List.countP_eq_zero]
      intro held member
      simp [(lost held member).2]
    rw [List.countP_append, List.countP_append, none', shows_.counted]
    rfl
  · have none' : ((gapOf history.unsaid).map fun place : Place δ => (place.key, place.item)).filterMap Prod.fst = [] :=
      List.filterMap_eq_nil_iff.mpr fun held member => (lost held member).1
    rw [List.filterMap_append, List.filterMap_append, none', List.append_nil]
    cases key with
    | none => simpa using shows_.keys
    | some key =>
      refine List.nodup_append'.mpr ⟨shows_.keys, by simp, fun each member this => ?_⟩
      obtain ⟨held, listed, under⟩ := List.mem_filterMap.mp member
      simp only [List.filterMap_cons, List.filterMap_nil, List.mem_singleton] at this
      exact free held listed (by simp) (by rw [under, this])

/-- What is first in a queue is what is popped: the first place, or the gap after them all. -/
theorem Shows.popped_next {history : History δ} (shows_ : Shows most queue popped history) (turn : Nat) :
    (history.waiting = [] ∧ history.unsaid = [] ∧ queue.pop = (queue, none)) ∨
      ∃ place waiting unsaid, history.waiting ++ gapOf history.unsaid = place :: (waiting ++ gapOf unsaid) ∧
        queue.pop.2 = some place.item ∧
        Shows most queue.pop.1 (popped ++ [place.item]) ⟨history.gone ++ [(turn, place)], waiting, unsaid⟩ := by
  obtain ⟨gone, waiting, unsaid⟩ := history
  obtain ⟨items, count, lost⟩ := queue
  obtain ⟨said, waits, notYet, counted, room, keys⟩ := shows_
  dsimp only at said waits notYet counted room keys ⊢
  cases waiting with
  | nil =>
    by_cases empty : unsaid = []
    · left
      rw [if_pos empty] at notYet
      subst waits notYet
      exact ⟨rfl, empty, rfl⟩
    · right
      rw [if_neg empty] at notYet
      subst waits notYet
      refine ⟨.gap unsaid, [], [], by simp [gapOf, empty], rfl, ?_⟩
      exact ⟨by simp [said], rfl, rfl, counted, room, keys⟩
  | cons place waiting =>
    right
    refine ⟨place, waiting, unsaid, rfl, ?_, ?_⟩
    · subst waits
      cases place <;> rfl
    · have gone' : popped ++ [place.item] = (gone ++ [(turn, place)]).map fun entry => entry.2.item := by simp [said]
      have rest : (waiting.map fun place => (place.key, place.item)).filterMap Prod.fst |>.Nodup := by
        rw [waits, List.map_cons] at keys
        exact keys.sublist ((List.sublist_cons_self ..).filterMap _)
      subst waits
      cases place with
      | spot key earlier last =>
        rw [List.map_cons, List.countP_cons_of_pos rfl] at counted
        exact ⟨gone', rfl, notYet, Nat.sub_eq_of_eq_add counted, le_trans (Nat.sub_le ..) room, rest⟩
      | gap missed =>
        rw [List.map_cons, List.countP_cons_of_neg (by simp [Place.item, Loss.delivered, Item.isDelivery])] at counted
        exact ⟨gone', rfl, notYet, counted, room, rest⟩

/-- One turn leaves a history that is sound, and that shows the queue it leaves. -/
theorem Shows.after {history : History δ} (sound : Sound turns history) (shows_ : Shows most queue popped history)
    (turn : Turn δ) : ∃ next, Sound (turns ++ [turn]) next ∧
      Shows most (queue.turn most turn).1 (popped ++ (queue.turn most turn).2.toList) next := by
  cases turn with
  | lose dropped row =>
    rw [Queue.turn, Option.toList_none, List.append_nil]
    refine ⟨_, ?_, shows_.missed ⟨turns.length, dropped, row⟩⟩
    exact sound.missed rfl rfl (.inl now)
  | pop =>
    rcases shows_.popped_next turns.length with ⟨-, -, idle⟩ | ⟨place, waiting, unsaid, first, item, next⟩
    · refine ⟨history, sound.idle, ?_⟩
      rw [Queue.turn, idle, Option.toList_none, List.append_nil]
      exact shows_
    · refine ⟨_, sound.popped first, ?_⟩
      rw [Queue.turn, item]
      exact next
  | push delivery row key =>
    rw [Queue.turn, Option.toList_none, List.append_nil]
    dsimp only
    have fresh (free : ∀ held ∈ queue.items, key ≠ none → held.1 ≠ key) : ∃ next,
        Sound (turns ++ [.push delivery row key]) next ∧
          Shows most (if most ≤ queue.waiting then { queue with lost := some ((queue.lost.getD {}).add (some 1) (some row)) }
            else { items := queue.items ++ (match queue.lost with
                | some loss => [(none, loss.delivered)]
                | none => []) ++ [(key, .delivery delivery)], waiting := queue.waiting + 1, lost := none }) popped next := by
      split
      · refine ⟨_, ?_, shows_.missed ⟨turns.length, some 1, some row⟩⟩
        exact sound.missed rfl rfl (.inr ⟨delivery, row, key, now, rfl, rfl⟩)
      · next room =>
        refine ⟨_, ?_, shows_.opened (not_le.mp room) free (turns.length, delivery)⟩
        refine sound.opened rfl ⟨?_, fun _ => rfl, ?_⟩ rfl rfl
        · exact List.pairwise_singleton ..
        · intro entry member
          rw [List.mem_singleton.mp member]
          exact ⟨row, now⟩
    cases key with
    | none => exact fresh fun _ _ some' => absurd rfl some'
    | some key =>
      unfold Queue.pushKeyed Queue.under
      rw [Option.bind_some]
      cases found : queue.items.find? fun item => item.1 == some key with
      | none =>
        refine fresh fun held member _ under => ?_
        have other := List.find?_eq_none.mp found held member
        simp [under] at other
      | some item =>
        have held := found
        rw [shows_.waits] at held
        obtain ⟨before, earlier, last, after, split, puts⟩ := split_of_find held
        obtain ⟨gone, waiting, unsaid⟩ := history
        obtain rfl : waiting = before ++ .spot (some key) earlier last :: after := split
        refine ⟨_, sound.joined, ?_⟩
        refine Shows.joined shows_ ?_
        rw [shows_.waits]
        exact puts (turns.length, delivery)

end shows

/-- Every run of a queue has a history, sound, that shows it. -/
theorem exists_of_run (most : Nat) (turns : List (Turn δ)) : ∃ history, Sound turns history ∧
    Shows most (Queue.run most turns).1 (Queue.run most turns).2 history := by
  induction turns using List.reverseRecOn with
  | nil =>
    refine ⟨{}, ⟨by simp [History.places, gapOf, told], by simp [History.places, gapOf], by simp [History.places, gapOf],
      by simp, by simp⟩, ⟨rfl, rfl, rfl, rfl, Nat.zero_le most, List.nodup_nil⟩⟩
  | append_singleton turns turn ih =>
    obtain ⟨history, sound, shows_⟩ := ih
    obtain ⟨next, sound', shows'⟩ := shows_.after sound turn
    refine ⟨next, sound', ?_⟩
    rw [Queue.run, List.foldl_append]
    exact shows'

theorem Sound.counts {turns : List (Turn δ)} {history : History δ} (sound : Sound turns history)
    (counts : ∀ turn ∈ turns, turn.Counts) {missed : List Missed} (member : .gap missed ∈ history.places) :
    ∀ miss ∈ missed, miss.dropped ≠ some 0 := by
  intro miss listed
  rcases (sound.holds _ member).2.2 miss listed with lost | ⟨_, _, _, -, one, -⟩
  · exact counts _ (List.mem_of_getElem? lost)
  · rw [one]
    decide

theorem Shows.drained {most : Nat} {queue : Queue δ} {popped : List (Item δ)} {history : History δ}
    (shows_ : Shows most queue popped history) (empty : queue.pop.2 = none) : history.places = history.gone.map Prod.snd := by
  rcases shows_.popped_next 0 with ⟨waiting, unsaid, -⟩ | ⟨place, -, -, -, item, -⟩
  · simp [History.places, gapOf, waiting, unsaid]
  · rw [empty] at item
    cases item

end History

open History

/-- Whatever the turns of a queue, every delivery pushed and every loss told has one place, in the order the places were
taken: a delivery with those put after it under its key while it waited, the last of them popped, or a gap, whose loss
states exactly what was lost there. No more deliveries wait than may, and none under a key another waits under; and of
a queue that answers nothing every place was popped. -/
theorem every_loss_said (most : Nat) (turns : List (Turn δ)) (counts : ∀ turn ∈ turns, turn.Counts) :
    ∃ history, Sound turns history ∧ Shows most (Queue.run most turns).1 (Queue.run most turns).2 history ∧
      (∀ missed, .gap missed ∈ history.places → Exactly missed (Place.gap missed : Place δ).item) ∧
      ((Queue.run most turns).1.pop.2 = none → history.places = history.gone.map Prod.snd) := by
  obtain ⟨history, sound, shows_⟩ := exists_of_run most turns
  exact ⟨history, sound, shows_, fun missed member => exactly_of_counts (sound.holds _ member).1 (sound.counts counts member),
    shows_.drained⟩

/-- Of a queue of one place: a delivery replaced, one dropped, and losses uncounted after it. -/
def crowded : List (Turn String) :=
  [.push "first" "prices" (some "k"), .push "latest" "prices" (some "k"), .push "dropped" "orders" none, .lose none none, .pop, .pop]

theorem crowded_said : (∃ history, Sound crowded history ∧ Shows 1 (Queue.run 1 crowded).1 (Queue.run 1 crowded).2 history ∧
      (∀ missed, .gap missed ∈ history.places → Exactly missed (Place.gap missed : Place String).item) ∧
      ((Queue.run 1 crowded).1.pop.2 = none → history.places = history.gone.map Prod.snd)) ∧
    (Queue.run 1 crowded).2 = [.delivery "latest", .lost 0 []] :=
  ⟨every_loss_said 1 crowded (by simp [crowded, Turn.Counts]), rfl⟩

end MeridianCore.Sidecar
