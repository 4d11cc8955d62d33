import Mathlib

namespace MeridianCore.AnalyticsEngine.Threads

/-- What a thread is at: about to take the next unit, computing one, or done. -/
inductive Hand where
  | idle
  | holds (index : Nat)
  | stopped
  deriving DecidableEq

/-- The next unit's place, each thread's hand, and the answers so far. -/
structure State (α : Type) where
  next : Nat
  hands : List Hand
  done : List (Option α)

/-- One thread's turn: it takes the next unit left, or stops where none is; or it puts down the answer of the one
it holds. -/
inductive Turn where
  | take (thread : Nat)
  | finish (thread : Nat)

variable {α : Type}

def start (n count : Nat) : State α := ⟨0, List.replicate (max n 1) .idle, List.replicate count none⟩

def turn (count : Nat) (compute : Nat → α) (state : State α) : Turn → State α
  | .take thread =>
    if state.hands[thread]? = some .idle then
      { state with
        next := state.next + 1
        hands := state.hands.set thread (if state.next < count then .holds state.next else .stopped) }
    else state
  | .finish thread =>
    match state.hands[thread]? with
    | some (.holds index) =>
      { state with hands := state.hands.set thread .idle, done := state.done.set index (some (compute index)) }
    | _ => state

def run (n count : Nat) (compute : Nat → α) (turns : List Turn) : State α := turns.foldl (turn count compute) (start n count)

/-- Every thread is done. -/
def Finished (state : State α) : Prop := ∀ hand ∈ state.hands, hand = Hand.stopped

/-- Every unit taken is answered, or in a thread's hand; a thread stops only where every unit is taken. -/
structure Shared (n count : Nat) (compute : Nat → α) (state : State α) : Prop where
  threads : state.hands.length = max n 1
  length : state.done.length = count
  answers : ∀ (i : Nat) (answer : α), state.done[i]? = some (some answer) → answer = compute i
  taken : ∀ i < count, i < state.next → state.done[i]? = some (some (compute i)) ∨ .holds i ∈ state.hands
  stopped : Hand.stopped ∈ state.hands → count ≤ state.next

variable {n count : Nat} {compute : Nat → α} {state : State α}

theorem shared_start : Shared n count compute (start n count) where
  threads := List.length_replicate
  length := List.length_replicate
  answers i answer held := by
    have none := List.eq_of_mem_replicate (List.mem_of_getElem? held)
    cases none
  taken i _ impossible := absurd impossible (Nat.not_lt_zero i)
  stopped member := by
    have idle := List.eq_of_mem_replicate member
    cases idle

/-- A hand a thread's turn does not replace is still in a hand. -/
theorem mem_set_of_ne {hands : List Hand} {thread : Nat} {old new hand : Hand} (held : hands[thread]? = some old)
    (member : hand ∈ hands) (other : hand ≠ old) : hand ∈ hands.set thread new := by
  obtain ⟨at_, atIs⟩ := List.getElem?_of_mem member
  have apart : thread ≠ at_ := by
    rintro rfl
    rw [held] at atIs
    exact other (Option.some.inj atIs).symm
  refine List.mem_of_getElem? (i := at_) ?_
  rw [List.getElem?_set_ne apart, atIs]

theorem shared_turn (shared : Shared n count compute state) (next : Turn) : Shared n count compute (turn count compute state next) := by
  cases next with
  | take thread =>
    rw [turn]
    split
    · next idle =>
      have inside : thread < state.hands.length := (List.getElem?_eq_some_iff.mp idle).1
      refine ⟨by rw [List.length_set, shared.threads], shared.length, shared.answers, ?_, ?_⟩
      · intro i below before
        dsimp only at before
        rcases Nat.lt_or_ge i state.next with taken | new
        · rcases shared.taken i below taken with done | held
          · exact Or.inl done
          · exact Or.inr (mem_set_of_ne idle held (by simp))
        · obtain rfl : i = state.next := by omega
          refine Or.inr ?_
          rw [if_pos below]
          exact List.mem_set inside _
      · intro member
        dsimp only at member ⊢
        rcases List.mem_or_eq_of_mem_set member with before | same
        · have all := shared.stopped before
          omega
        · by_contra less
          rw [if_pos (by omega)] at same
          cases same
    · exact shared
  | finish thread =>
    rw [turn]
    split
    · next index holds =>
      refine ⟨by rw [List.length_set, shared.threads], by rw [List.length_set, shared.length], ?_, ?_, ?_⟩
      · intro i answer held
        dsimp only at held
        by_cases same : index = i
        · subst same
          rw [List.getElem?_set_self'] at held
          cases before : state.done[index]? with
          | none =>
            rw [before] at held
            cases held
          | some old =>
            rw [before] at held
            exact (Option.some.inj (Option.some.inj held)).symm
        · rw [List.getElem?_set_ne same] at held
          exact shared.answers i answer held
      · intro i below before
        dsimp only at before ⊢
        by_cases same : index = i
        · subst same
          refine Or.inl ?_
          rw [List.getElem?_set_self (by rw [shared.length]; exact below)]
        · rw [List.getElem?_set_ne same]
          rcases shared.taken i below before with done | held
          · exact Or.inl done
          · refine Or.inr (mem_set_of_ne holds held ?_)
            intro equal
            exact same (Hand.holds.inj equal).symm
      · intro member
        rcases List.mem_or_eq_of_mem_set member with before | same
        · exact shared.stopped before
        · cases same
    · exact shared

theorem shared_run (turns : List Turn) : Shared n count compute (run n count compute turns) := by
  unfold run
  generalize from_ : (start n count : State α) = state
  have shared : Shared n count compute state := from_ ▸ shared_start
  clear from_
  induction turns generalizing state with
  | nil => exact shared
  | cons next turns ih => exact ih _ (shared_turn shared next)

/-- However the threads take turns, when all are done each unit's answer is its own, in its place. -/
theorem done_of_finished {turns : List Turn} (finished : Finished (run n count compute turns)) :
    (run n count compute turns).done = (List.range count).map fun i => some (compute i) := by
  have shared := @shared_run α n count compute turns
  generalize run n count compute turns = state at finished shared
  have all : count ≤ state.next := by
    have some : state.hands ≠ [] := by
      intro empty
      have threads := shared.threads
      rw [empty] at threads
      simp at threads
      omega
    obtain ⟨hand, member⟩ := List.exists_mem_of_ne_nil _ some
    exact shared.stopped (finished hand member ▸ member)
  refine List.ext_getElem? fun i => ?_
  rw [List.getElem?_map]
  rcases Nat.lt_or_ge i count with below | past
  · rw [List.getElem?_range below]
    rcases shared.taken i below (by omega) with done | held
    · exact done
    · cases finished _ held
  · rw [List.getElem?_eq_none (by rw [shared.length]; exact past), List.getElem?_eq_none (by simp; exact past)]
    rfl

section ends

/-- The turns a hand still has before the units run out. -/
def Hand.left : Hand → Nat
  | .idle => 1
  | .holds _ => 2
  | .stopped => 0

def left (count : Nat) (state : State α) : Nat := 2 * (count - state.next) + (state.hands.map Hand.left).sum

theorem sum_set {hands : List Hand} {thread : Nat} {old : Hand} (new : Hand) (held : hands[thread]? = some old) :
    ((hands.set thread new).map Hand.left).sum + old.left = (hands.map Hand.left).sum + new.left := by
  induction hands generalizing thread with
  | nil => cases held
  | cons hand rest ih =>
    cases thread with
    | zero =>
      obtain rfl := Option.some.inj held
      simp only [List.set_cons_zero, List.map_cons, List.sum_cons]
      omega
    | succ thread =>
      have rest := ih held
      simp only [List.set_cons_succ, List.map_cons, List.sum_cons]
      omega

/-- A thread that is not done has a turn, and a turn leaves fewer. -/
theorem turn_left (some_ : ∃ hand ∈ state.hands, hand ≠ Hand.stopped) :
    ∃ next, left count (turn count compute state next) < left count state := by
  obtain ⟨hand, member, going⟩ := some_
  obtain ⟨thread, held⟩ := List.getElem?_of_mem member
  cases hand with
  | idle =>
    have sum := sum_set (if state.next < count then .holds state.next else .stopped) held
    refine ⟨.take thread, ?_⟩
    rw [turn, if_pos held]
    unfold left
    dsimp only
    by_cases more : state.next < count
    · simp only [if_pos more, Hand.left] at sum ⊢
      omega
    · simp only [if_neg more, Hand.left] at sum ⊢
      omega
  | holds index =>
    have sum := sum_set .idle held
    refine ⟨.finish thread, ?_⟩
    simp only [turn, held, left, Hand.left] at sum ⊢
    omega
  | stopped => exact absurd rfl going

/-- Every run comes to its end. -/
theorem exists_finished (turns : List Turn) : ∃ more, Finished (run n count compute (turns ++ more)) := by
  generalize size : left count (run n count compute turns) = size_
  induction size_ using Nat.strongRecOn generalizing turns with
  | ind size_ ih =>
    by_cases going : ∃ hand ∈ (run n count compute turns).hands, hand ≠ Hand.stopped
    · obtain ⟨next, fewer⟩ := @turn_left α count compute _ going
      have one : turn count compute (run n count compute turns) next = run n count compute (turns ++ [next]) := by
        rw [run, run, List.foldl_append]
        rfl
      rw [one, size] at fewer
      obtain ⟨more, finished⟩ := ih _ fewer (turns ++ [next]) rfl
      exact ⟨next :: more, by rwa [List.append_assoc] at finished⟩
    · refine ⟨[], ?_⟩
      intro hand member
      rw [List.append_nil] at member
      by_contra other
      exact going ⟨hand, member, other⟩

end ends

end MeridianCore.AnalyticsEngine.Threads
