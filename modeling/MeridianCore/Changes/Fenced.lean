import MeridianCore.Ordered.Run

namespace MeridianCore.Changes

/-- A partition's head row: the epoch its writer writes under, and how far its changes are numbered. -/
structure Head where
  epoch : Nat := 1
  sequence : Nat := 0
  deriving DecidableEq, Inhabited

/-- A row captured in a transaction, numbered within its sequence. -/
structure Row where
  sequence : Nat
  ordinal : Nat
  epoch : Nat
  deriving DecidableEq, Inhabited

/-- A connection of a member's pool. -/
structure Connection where
  member : Nat
  place : Nat
  deriving DecidableEq, Inhabited

/-- A transaction committed: the connection it was on, what that named as its epoch, the head row's epoch and its
member's as it committed, and the rows it captured. -/
structure Commit where
  connection : Connection
  named : Option Nat
  head : Nat
  fence : Nat
  rows : List Row
  deriving DecidableEq, Inhabited

/-- Where a member's call that adopts an epoch is. -/
inductive Stage where
  /-- `adopt` read the head row's. -/
  | found (epoch : Nat)
  /-- `take_over` read what it raises the head rows to. -/
  | raising (epoch : Nat)
  /-- `take_over` raised them, and its member has not adopted it yet. -/
  | raised (epoch : Nat)
  deriving DecidableEq, Inhabited

structure Call where
  member : Nat
  stage : Stage
  deriving DecidableEq, Inhabited

/-- A captured store and the members that write it. -/
structure Store where
  head : Head := {}
  /-- The control partition's head row. -/
  control : Head := {}
  /-- The connection whose transaction holds the head row's lock, and the rows it has captured. -/
  lock : Option Connection := none
  rows : List Row := []
  /-- The epochs of `_writer_took_over`, its primary key. -/
  tookOver : List Nat := []
  /-- The epoch each member has adopted; 0 until it has. -/
  fence : Nat → Nat := fun _ => 0
  calls : List Call := []
  /-- What each connection checked out names as its epoch: none where its member had adopted none. -/
  named : Connection → Option (Option Nat) := fun _ => none
  committed : List Commit := []

namespace Store

/-- A member's epoch as a connection names it, the empty setting for none. -/
def setting (epoch : Nat) : Option Nat := if epoch = 0 then none else some epoch

/-- Whether the trigger refuses a connection's row: it names an epoch, and not the head row's. -/
def refuses (named : Option Nat) (head : Nat) : Bool := named.any (· ≠ head)

/-- A member's epoch set. -/
def adopted (store : Store) (member epoch : Nat) : Nat → Nat :=
  fun other => if other = member then epoch else store.fence other

/-- One step of a member, of a connection of its pool, or of a call that adopts an epoch. -/
inductive Move where
  /-- A member calls `adopt`, which reads the head row's epoch. -/
  | adopts (member : Nat)
  /-- A member calls `take_over`, whose statement reads the epochs it raises past. -/
  | takesOver (member : Nat)
  | goesOn (call : Nat)
  /-- A connection is checked out of its pool, and prepared. -/
  | checksOut (connection : Connection)
  /-- A transaction writes a row of a captured table. -/
  | writes (connection : Connection)
  | commits (connection : Connection)
  | rollsBack (connection : Connection)
  deriving DecidableEq

/-- A call that adopts an epoch goes on by one step. -/
def advance (store : Store) (call : Nat) (of : Call) : Option Store :=
  match of.stage with
  | .found epoch =>
    some { store with
      fence := store.adopted of.member (if store.fence of.member = 0 then epoch else store.fence of.member)
      calls := store.calls.eraseIdx call }
  | .raising epoch =>
    -- The update waits for the head row's lock; the takeover recorded under an epoch another took is refused,
    -- and its transaction rolled back.
    if store.lock.isSome then none
    else if epoch ∈ store.tookOver then some { store with calls := store.calls.eraseIdx call }
    else
      some { store with
        head := { store.head with epoch }
        control := { store.control with epoch }
        tookOver := store.tookOver ++ [epoch]
        calls := store.calls.set call { of with stage := .raised epoch } }
  | .raised epoch =>
    some { store with fence := store.adopted of.member epoch, calls := store.calls.eraseIdx call }

/-- The row the trigger captures: the transaction's first takes the next sequence. -/
def captured (store : Store) : Row where
  sequence := store.head.sequence + (if store.rows = [] then 1 else 0)
  ordinal := store.rows.length
  epoch := store.head.epoch

/-- A transaction that holds the head row's lock undone. -/
def rolledBack (store : Store) : Store :=
  { store with
    lock := none
    rows := []
    head := { store.head with sequence := store.head.sequence - 1 } }

/-- A member makes one call that adopts an epoch at a time. -/
def asks (store : Store) (member : Nat) (stage : Stage) : Option Store :=
  if store.calls.any (·.member = member) then none
  else some { store with calls := store.calls ++ [{ member, stage }] }

def move (store : Store) : Move → Option Store
  | .adopts member => store.asks member (.found store.head.epoch)
  | .takesOver member => store.asks member (.raising (max store.head.epoch store.control.epoch + 1))
  | .goesOn call => do
    let of ← store.calls[call]?
    store.advance call of
  | .checksOut connection =>
    if store.lock = some connection then none
    else
      some { store with
        named := fun other =>
          if other = connection then some (setting (store.fence connection.member)) else store.named other }
  | .writes connection => do
    let named ← store.named connection
    -- The trigger takes the head row's lock first.
    if store.lock.all (· = connection) then
      if refuses named store.head.epoch then
        some (if store.lock = some connection then store.rolledBack else store)
      else
        some { store with
          lock := some connection
          rows := store.rows ++ [store.captured]
          head := { store.head with sequence := store.captured.sequence } }
    else none
  | .commits connection => do
    let named ← store.named connection
    if store.lock = some connection then
      some { store with
        lock := none
        rows := []
        committed := store.committed ++
          [{ connection, named, head := store.head.epoch, fence := store.fence connection.member, rows := store.rows }] }
    else none
  | .rollsBack connection =>
    if store.lock = some connection then some store.rolledBack else none

end Store

end MeridianCore.Changes

namespace MeridianCore.Changes.Store

variable {store after : Store} {connection : Connection} {member : Nat}

/-- What a call under way has read or raised, beside the head row's epoch and its member's. -/
def Bounded (store : Store) (call : Call) : Prop :=
  match call.stage with
  | .found epoch => epoch ≤ store.head.epoch
  | .raising epoch => 2 ≤ epoch ∧ epoch ≤ store.head.epoch + 1
  | .raised epoch => epoch ≤ store.head.epoch ∧ store.fence call.member ≤ epoch

/-- What the fence rests on: both head rows at one epoch, every epoch past the first one taken over by one
recorded takeover, and no transaction that holds the lock naming another. -/
structure Sound (store : Store) : Prop where
  control : store.control.epoch = store.head.epoch
  positive : 1 ≤ store.head.epoch
  tookOver : store.tookOver = List.range' 2 (store.head.epoch - 1)
  alone : (store.calls.map (·.member)).Nodup
  calls : ∀ call ∈ store.calls, store.Bounded call
  fence : ∀ member, store.fence member ≤ store.head.epoch
  named : ∀ connection epoch, store.named connection = some (some epoch) → epoch ≤ store.fence connection.member
  lock : ∀ connection named, store.lock = some connection → store.named connection = some named →
    refuses named store.head.epoch = false
  rows : ∀ row ∈ store.rows, row.epoch = store.head.epoch
  free : store.lock = none → store.rows = []

/-- Every change committed carries the head row's epoch, which only rises; one committed on a connection that
names an epoch names that one, its member's adopted epoch; and the epochs taken over strictly rise, the
partition's and the control partition's head rows at the last of them. -/
structure Fenced (store : Store) : Prop where
  carries : ∀ commit ∈ store.committed, ∀ row ∈ commit.rows, row.epoch = commit.head
  named : ∀ commit ∈ store.committed, ∀ epoch, commit.named = some epoch →
    epoch = commit.head ∧ commit.fence = commit.head
  rises : store.committed.Pairwise fun earlier later => earlier.head ≤ later.head
  reached : ∀ commit ∈ store.committed, commit.head ≤ store.head.epoch
  taken : store.tookOver.Pairwise (· < ·)
  head : store.head.epoch = store.tookOver.getLast?.getD 1
  control : store.control.epoch = store.head.epoch

theorem refuses_some {named : Option Nat} {head epoch : Nat} (passes : refuses named head = false)
    (names : named = some epoch) : epoch = head := by
  subst names
  simpa [refuses] using passes

theorem le_of_setting {epoch named : Nat} (names : setting epoch = some named) : named ≤ epoch := by
  unfold setting at names
  split at names
  · cases names
  · exact (Option.some.inj names).ge

/-- The epochs taken over, and the one past them. -/
theorem range_snoc {epoch : Nat} (positive : 1 ≤ epoch) :
    List.range' 2 (epoch - 1) ++ [epoch + 1] = List.range' 2 (epoch + 1 - 1) := by
  obtain ⟨before, rfl⟩ := Nat.exists_eq_add_of_le' positive
  rw [show before + 1 + 1 - 1 = before + 1 by omega, List.range'_concat]
  congr 2
  omega

theorem Sound.of_lock (sound : Sound store) (lock : Option Connection) (rows : List Row) (sequence : Nat)
    (passes : ∀ connection named, lock = some connection → store.named connection = some named →
      refuses named store.head.epoch = false)
    (carried : ∀ row ∈ rows, row.epoch = store.head.epoch) (free : lock = none → rows = []) :
    Sound { store with lock := lock, rows := rows, head := { store.head with sequence := sequence } } :=
  { sound with lock := passes, rows := carried, free := free }

theorem sound_rolledBack (sound : Sound store) : Sound store.rolledBack :=
  sound.of_lock none [] _ (fun _ _ held => nomatch held) (fun _ held => absurd held List.not_mem_nil) fun _ => rfl

theorem sound_asks {stage : Stage} (sound : Sound store) (bounded : store.Bounded { member, stage })
    (moved : store.asks member stage = some after) : Sound after := by
  unfold asks at moved
  split at moved
  · cases moved
  · next fresh =>
    cases moved
    refine { sound with alone := ?_, calls := ?_ }
    · rw [List.map_append, List.nodup_append]
      refine ⟨sound.alone, List.nodup_singleton _, ?_⟩
      intro earlier held own asked same
      obtain ⟨call, underWay, named⟩ := List.mem_map.mp held
      have isOwn : own = member := List.mem_singleton.mp asked
      have again : call.member = member := named.trans (same.trans isOwn)
      exact fresh (List.any_eq_true.mpr ⟨call, underWay, decide_eq_true again⟩)
    · intro call held
      rcases List.mem_append.mp held with earlier | own
      · exact sound.calls call earlier
      · rw [List.mem_singleton.mp own]
        exact bounded

/-- The calls left beside one of a member are other members'. -/
theorem apart_of_left {calls : List Call} {call : Nat} {of other : Call} (alone : (calls.map (·.member)).Nodup)
    (found : calls[call]? = some of) (left : other ∈ calls.eraseIdx call) : other.member ≠ of.member := by
  obtain ⟨place, differs, at_⟩ := List.mem_eraseIdx_iff_getElem?.mp left
  intro alike
  have inside : place < (calls.map (·.member)).length := by
    rw [List.length_map]
    exact (List.getElem?_eq_some_iff.mp at_).1
  refine differs ((List.getElem?_inj inside alone).mp ?_)
  rw [List.getElem?_map, List.getElem?_map, at_, found]
  exact congrArg some alike

/-- A call that ended leaves the others of other members, each bounded as before. -/
theorem sound_ended {call epoch : Nat} {of : Call} (sound : Sound store) (found : store.calls[call]? = some of)
    (grows : store.fence of.member ≤ epoch) (reached : epoch ≤ store.head.epoch) :
    Sound { store with fence := store.adopted of.member epoch, calls := store.calls.eraseIdx call } := by
  have kept (member : Nat) : store.fence member ≤ store.adopted of.member epoch member := by
    unfold adopted
    split
    · next own => exact own ▸ grows
    · exact le_refl _
  refine { sound with alone := ?_, calls := ?_, fence := ?_, named := ?_ }
  · exact sound.alone.sublist ((List.eraseIdx_sublist _ _).map _)
  · intro other held
    have bounded := sound.calls other (List.mem_of_mem_eraseIdx held)
    have apart := apart_of_left sound.alone found held
    unfold Bounded at bounded ⊢
    simp only [adopted, if_neg apart]
    exact bounded
  · intro member
    dsimp only [adopted]
    split
    · exact reached
    · exact sound.fence member
  · intro connection named names
    exact (sound.named connection named names).trans (kept connection.member)

/-- A takeover recorded raises both head rows by one. -/
theorem sound_raised {call epoch : Nat} {of : Call} (sound : Sound store) (found : store.calls[call]? = some of)
    (stage : of.stage = .raising epoch) (unlocked : store.lock = none) (fresh : epoch ∉ store.tookOver) :
    epoch = store.head.epoch + 1 ∧
      Sound { store with
        head := { store.head with epoch }
        control := { store.control with epoch }
        tookOver := store.tookOver ++ [epoch]
        calls := store.calls.set call { of with stage := .raised epoch } } := by
  have bounded := sound.calls of (List.mem_of_getElem? found)
  simp only [Bounded, stage] at bounded
  have next : epoch = store.head.epoch + 1 := by
    by_contra below
    refine fresh ?_
    rw [sound.tookOver, List.mem_range'_1]
    omega
  refine ⟨next, ?_⟩
  have empty := sound.free unlocked
  refine {
    control := rfl
    positive := by dsimp only; omega
    tookOver := ?_
    alone := ?_
    calls := ?_
    fence := fun member => (sound.fence member).trans (by dsimp only; omega)
    named := sound.named
    lock := fun connection named held => by simp only [unlocked] at held; cases held
    rows := fun row held => by simp only [empty] at held; cases held
    free := fun _ => empty }
  · dsimp only
    rw [sound.tookOver, next, range_snoc sound.positive]
  · have members : (store.calls.set call { of with stage := .raised epoch }).map (·.member) =
        store.calls.map (·.member) := by
      obtain ⟨inside, rfl⟩ := List.getElem?_eq_some_iff.mp found
      have unchanged := congrArg (List.map (·.member)) (List.set_getElem_self inside)
      rw [List.map_set] at unchanged ⊢
      exact unchanged
    rw [members]
    exact sound.alone
  · intro other held
    rcases List.mem_or_eq_of_mem_set held with earlier | own
    · have before := sound.calls other earlier
      unfold Bounded at before ⊢
      dsimp only at before ⊢
      split at before <;> omega
    · subst own
      refine ⟨le_refl _, ?_⟩
      exact (sound.fence of.member).trans (by omega)

/-- A row captured is of the epoch the head row's lock keeps it at. -/
theorem sound_captured {named : Option Nat} (sound : Sound store) (named_ : store.named connection = some named)
    (passes : refuses named store.head.epoch = false) :
    Sound { store with
      lock := some connection
      rows := store.rows ++ [store.captured]
      head := { store.head with sequence := store.captured.sequence } } := by
  refine sound.of_lock _ _ _ ?_ ?_ fun none_ => nomatch none_
  · intro other other' held names
    obtain rfl := Option.some.inj held
    obtain rfl := Option.some.inj (named_.symm.trans names)
    exact passes
  · intro row held
    rcases List.mem_append.mp held with earlier | own
    · exact sound.rows row earlier
    · rw [List.mem_singleton.mp own]
      rfl

theorem sound_move {label : Move} (sound : Sound store) (moved : store.move label = some after) : Sound after := by
  cases label with
  | adopts member => exact sound_asks sound (le_refl _) moved
  | takesOver member =>
    refine sound_asks sound ?_ moved
    have positive := sound.positive
    simp only [Bounded, sound.control, max_self]
    omega
  | goesOn call =>
    obtain ⟨of, found, moved⟩ := Option.bind_eq_some_iff.mp moved
    have bounded := sound.calls of (List.mem_of_getElem? found)
    unfold advance at moved
    split at moved
    · next epoch stage =>
      simp only [Bounded, stage] at bounded
      cases moved
      refine sound_ended sound found ?_ ?_
      · split <;> omega
      · split
        · exact bounded
        · exact sound.fence of.member
    · next epoch stage =>
      split at moved
      · cases moved
      · next unlocked =>
        split at moved
        · next taken =>
          cases moved
          refine { sound with alone := ?_, calls := ?_ }
          · exact sound.alone.sublist ((List.eraseIdx_sublist _ _).map _)
          · intro other held
            exact sound.calls other (List.mem_of_mem_eraseIdx held)
        · next fresh =>
          cases moved
          exact (sound_raised sound found stage (by simpa using unlocked) fresh).2
    · next epoch stage =>
      simp only [Bounded, stage] at bounded
      cases moved
      exact sound_ended sound found bounded.2 bounded.1
  | checksOut connection =>
    simp only [move] at moved
    split at moved
    · cases moved
    · next apart =>
      cases moved
      refine { sound with named := ?_, lock := ?_ }
      · intro other epoch names
        dsimp only at names
        split at names
        · next own =>
          subst own
          exact le_of_setting (Option.some.inj names)
        · exact sound.named other epoch names
      · intro other named held names
        have differs : other ≠ connection := by
          rintro rfl
          exact apart held
        dsimp only at names
        rw [if_neg differs] at names
        exact sound.lock other named held names
  | writes connection =>
    obtain ⟨named, names, moved⟩ := Option.bind_eq_some_iff.mp moved
    split at moved
    · split at moved
      · cases moved
        split
        · exact sound_rolledBack sound
        · exact sound
      · next passes =>
        cases moved
        exact sound_captured sound names (by simpa using passes)
    · cases moved
  | commits connection =>
    obtain ⟨named, names, moved⟩ := Option.bind_eq_some_iff.mp moved
    split at moved
    · cases moved
      exact { sound_rolledBack sound with }
    · cases moved
  | rollsBack connection =>
    simp only [move] at moved
    split at moved
    · cases moved
      exact sound_rolledBack sound
    · cases moved

/-- A step raises the head row's epoch or leaves it, and commits a transaction or leaves what was committed. -/
theorem move_cases {label : Move} (sound : Sound store) (moved : store.move label = some after) :
    store.head.epoch ≤ after.head.epoch ∧
      (after.committed = store.committed ∨
        ∃ connection named, store.lock = some connection ∧ store.named connection = some named ∧
          after.head.epoch = store.head.epoch ∧
          after.committed = store.committed ++
            [{ connection, named, head := store.head.epoch, fence := store.fence connection.member,
               rows := store.rows }]) := by
  cases label with
  | adopts member =>
    simp only [move, asks] at moved
    split at moved <;> cases moved
    exact ⟨le_refl _, Or.inl rfl⟩
  | takesOver member =>
    simp only [move, asks] at moved
    split at moved <;> cases moved
    exact ⟨le_refl _, Or.inl rfl⟩
  | goesOn call =>
    obtain ⟨of, found, moved⟩ := Option.bind_eq_some_iff.mp moved
    unfold advance at moved
    split at moved
    · cases moved
      exact ⟨le_refl _, Or.inl rfl⟩
    · next epoch stage =>
      split at moved
      · cases moved
      · next unlocked =>
        split at moved
        · cases moved
          exact ⟨le_refl _, Or.inl rfl⟩
        · next fresh =>
          have next := (sound_raised sound found stage (by simpa using unlocked) fresh).1
          cases moved
          exact ⟨by simp only [next]; omega, Or.inl rfl⟩
    · cases moved
      exact ⟨le_refl _, Or.inl rfl⟩
  | checksOut connection =>
    simp only [move] at moved
    split at moved <;> cases moved
    exact ⟨le_refl _, Or.inl rfl⟩
  | writes connection =>
    obtain ⟨named, names, moved⟩ := Option.bind_eq_some_iff.mp moved
    split at moved
    · split at moved
      · cases moved
        split
        · exact ⟨le_refl _, Or.inl rfl⟩
        · exact ⟨le_refl _, Or.inl rfl⟩
      · cases moved
        exact ⟨le_refl _, Or.inl rfl⟩
    · cases moved
  | commits connection =>
    obtain ⟨named, names, moved⟩ := Option.bind_eq_some_iff.mp moved
    split at moved
    · next held =>
      cases moved
      exact ⟨le_refl _, Or.inr ⟨connection, named, held, names, rfl, rfl⟩⟩
    · cases moved
  | rollsBack connection =>
    simp only [move] at moved
    split at moved <;> cases moved
    exact ⟨le_refl _, Or.inl rfl⟩

/-- A transaction that commits on a connection that names an epoch names the head row's, its member's. -/
theorem named_of_lock {named : Option Nat} {epoch : Nat} (sound : Sound store) (held : store.lock = some connection)
    (names : store.named connection = some named) (own : named = some epoch) :
    epoch = store.head.epoch ∧ store.fence connection.member = store.head.epoch := by
  have same := refuses_some (sound.lock connection named held names) own
  have adopted := sound.named connection epoch (own ▸ names)
  have bound := sound.fence connection.member
  exact ⟨same, by omega⟩

/-- What the transactions committed so far keep. -/
structure Carried (store : Store) : Prop where
  carries : ∀ commit ∈ store.committed, ∀ row ∈ commit.rows, row.epoch = commit.head
  named : ∀ commit ∈ store.committed, ∀ epoch, commit.named = some epoch →
    epoch = commit.head ∧ commit.fence = commit.head
  rises : store.committed.Pairwise fun earlier later => earlier.head ≤ later.head
  reached : ∀ commit ∈ store.committed, commit.head ≤ store.head.epoch

theorem carried_move {label : Move} (sound : Sound store) (carried : Carried store)
    (moved : store.move label = some after) : Carried after := by
  obtain ⟨grows, committed | ⟨connection, named, held, names, same, committed⟩⟩ := move_cases sound moved
  · exact {
      carries := committed ▸ carried.carries
      named := committed ▸ carried.named
      rises := committed ▸ carried.rises
      reached := fun commit made => (carried.reached commit (committed ▸ made)).trans grows }
  · refine { carries := ?_, named := ?_, rises := ?_, reached := ?_ }
    · intro commit made
      rcases List.mem_append.mp (committed ▸ made) with earlier | own
      · exact carried.carries commit earlier
      · rw [List.mem_singleton.mp own]
        exact sound.rows
    · intro commit made
      rcases List.mem_append.mp (committed ▸ made) with earlier | own
      · exact carried.named commit earlier
      · rw [List.mem_singleton.mp own]
        exact fun epoch names' => named_of_lock sound held names names'
    · rw [committed, List.pairwise_append]
      refine ⟨carried.rises, List.pairwise_singleton _ _, ?_⟩
      intro earlier before later own
      rw [List.mem_singleton.mp own]
      exact carried.reached earlier before
    · intro commit made
      rcases List.mem_append.mp (committed ▸ made) with earlier | own
      · exact (carried.reached commit earlier).trans grows
      · rw [List.mem_singleton.mp own]
        exact grows

/-- The log as it is installed, no member started. -/
theorem sound_installed : Sound {} where
  control := rfl
  positive := le_refl _
  tookOver := rfl
  alone := List.nodup_nil
  calls call held := absurd held List.not_mem_nil
  fence member := Nat.zero_le _
  named connection epoch names := nomatch names
  lock connection named held := nomatch held
  rows row held := absurd held List.not_mem_nil
  free _ := rfl

theorem carried_installed : Carried {} where
  carries commit made := absurd made List.not_mem_nil
  named commit made := absurd made List.not_mem_nil
  rises := List.Pairwise.nil
  reached commit made := absurd made List.not_mem_nil

theorem fenced_of_sound (sound : Sound store) (carried : Carried store) : Fenced store where
  carries := carried.carries
  named := carried.named
  rises := carried.rises
  reached := carried.reached
  taken := sound.tookOver ▸ List.pairwise_lt_range'
  head := by
    rw [sound.tookOver]
    obtain ⟨before, same⟩ := Nat.exists_eq_add_of_le' sound.positive
    cases before with
    | zero => simp [same]
    | succ before =>
      rw [same, show before + 1 + 1 - 1 = before + 1 by omega, List.range'_concat]
      simp
      omega
  control := sound.control

/-- In every run of members starting, transactions and takeovers, every change committed carries the head row's
epoch at its commit; on a connection that names an epoch that is its member's adopted epoch; and the epochs taken
over strictly rise, each by one takeover. -/
theorem fenced_of_run {labels : List Move} (run : Run (fun store label after => store.move label = some after) {}
    labels store) : Fenced store := by
  have kept : Sound store ∧ Carried store :=
    run.invariant (fun store => Sound store ∧ Carried store) ⟨sound_installed, carried_installed⟩
      fun before label after held moved => ⟨sound_move held.1 moved, carried_move held.1 held.2 moved⟩
  exact fenced_of_sound kept.1 kept.2

/-- One member adopts its epoch and writes, another takes the store over and writes. -/
def takenOver : List Move := [
  .adopts 1, .goesOn 0, .checksOut ⟨1, 0⟩, .writes ⟨1, 0⟩, .commits ⟨1, 0⟩,
  .takesOver 2, .goesOn 0, .goesOn 0, .checksOut ⟨2, 0⟩, .writes ⟨1, 0⟩, .writes ⟨2, 0⟩, .commits ⟨2, 0⟩]

theorem taken_over_fenced : ∃ store, Run (fun store label after => store.move label = some after) {} takenOver store ∧
    store.committed.map (·.head) = [1, 2] ∧ Fenced store := by
  have computed : (takenOver.foldlM move {}).any (fun store => store.committed.map (·.head) == [1, 2]) = true := by
    decide +kernel
  obtain ⟨store, run, heads⟩ := Run.of_any computed
  exact ⟨store, run, beq_iff_eq.mp heads, fenced_of_run run⟩

/-- A member that has adopted no epoch checks a connection out, another takes the store over, and the first
commits. -/
def unnamed : List Move := [
  .checksOut ⟨1, 0⟩, .takesOver 2, .goesOn 0, .goesOn 0, .writes ⟨1, 0⟩, .commits ⟨1, 0⟩]

/-- A connection that names no epoch is not fenced. -/
theorem unadopted_commits :
    ¬ ∀ (labels : List Move) (store : Store), Run (fun store label after => store.move label = some after) {} labels
      store → ∀ commit ∈ store.committed, 1 < commit.head → commit.fence = commit.head := by
  intro claim
  have computed : (unnamed.foldlM move {}).any (fun store =>
      store.committed.any fun commit => 1 < commit.head && commit.fence != commit.head) = true := by
    decide +kernel
  obtain ⟨store, run, unfenced⟩ := Run.of_any computed
  obtain ⟨commit, made, taken⟩ := List.any_eq_true.mp unfenced
  obtain ⟨taken, differs⟩ := Bool.and_eq_true_iff.mp taken
  exact bne_iff_ne.mp differs (claim _ _ run commit made (of_decide_eq_true taken))

end MeridianCore.Changes.Store
