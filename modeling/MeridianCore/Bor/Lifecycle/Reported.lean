import MeridianCore.Bor.Lifecycle.MovedOnce

namespace MeridianCore.Bor.Lifecycle

/-- The event a thing sent moves, where it moves one: a report's, or the proposal's a release releases. -/
def movedBy (book : Book) : Sent → Option (Context × LifecycleEvent)
  | .report _ ctx request => request.event.map fun event => (ctx, event)
  | .release _ ctx request =>
    if (heldIn book request.eventId .claimOpen).isSome then none
    else (heldIn book request.eventId .proposed).map fun event => (ctx, event)
  | _ => none

/-- An event whose movement an entry booked: the account before it, and the lines booked. -/
structure Happened where
  book : Book
  ctx : Context
  event : LifecycleEvent
  lines : List MovementLine

/-- An account, and the events whose movements it has booked. -/
structure Holder where
  book : Book
  happened : List Happened := []

/-- The account once something is sent it: as it was, where it refuses. -/
def hold (holder : Holder) (sent : Sent) : Holder :=
  match sent.answer holder.book with
  | .ok act =>
    { book := act.held
      happened := holder.happened ++ ((movedBy holder.book sent).map fun stated =>
        ⟨holder.book, stated.1, stated.2, act.entry.body.lines⟩).toList }
  | .error _ => holder

/-- Whether it is an act of another kind than a report, a proposal or a release. -/
def Sent.isOther : Sent → Bool
  | .other _ _ _ => true
  | _ => false

section

variable {book : Book} {head : Nat} {ctx : Context} {act : Made}

/-- An entry without acts leaves every order, booking and received allocation as it was. -/
theorem ledger_of_actless {draft : Draft} (decided : made book head ctx draft = .ok act) (actless : draft.body.acts = []) :
    act.held.ledger = book.ledger ∧ act.held.accountId = book.accountId := by
  obtain ⟨phases⟩ := Book.phases (made_ok decided).1
  have acts := phases.acts
  unfold Book.applyActs at acts
  rw [if_pos (show (draft.entry book head ctx).body.acts = [] from actless)] at acts
  obtain ⟨acted, -⟩ := Prod.mk.inj (Except.ok.inj acts)
  have before := phases.recorded_ledger
  have account : phases.recorded.accountId = book.accountId := by
    rw [Book.onlyPositions_recordPositions phases.records, Book.onlyPositions_applyPositions phases.moves]
  rw [Made.held, Book.holdBody, phases.closed, Book.closeEntry, ← acted]
  exact ⟨before, account⟩

/-- An event checked on the account it happened to, and its movement booked. -/
structure Happened.Booked (happened : Happened) : Prop where
  passed : ∃ path, checked happened.book happened.ctx happened.event path = .ok ()
  moving : ∃ moves, moved happened.book happened.ctx happened.event = .ok moves ∧ happened.lines = moves.lines

/-- What an act that reports, proposes or releases leaves: the ledger as it was, and the movement of its
event booked. -/
theorem answer_ok {sent : Sent} (answer : sent.answer book = .ok act) :
    sent.isOther = true ∨
      ((act.held.ledger = book.ledger ∧ act.held.accountId = book.accountId) ∧
        ∀ stated ∈ movedBy book sent, Happened.Booked ⟨book, stated.1, stated.2, act.entry.body.lines⟩) := by
  cases sent with
  | other head ctx draft => exact .inl rfl
  | report head ctx request =>
    right
    change record book head ctx request = .ok act at answer
    unfold record at answer
    obtain ⟨opening, -, answer⟩ := bind_ok.mp answer
    cases stated : request.event with
    | none =>
      rw [stated] at answer
      cases answer
    | some event =>
      rw [stated] at answer
      obtain ⟨⟨⟩, passed, answer⟩ := bind_ok.mp answer
      cases already : heldAlready book event with
      | some held =>
        simp only [already] at answer
        cases answer
      | none =>
        simp only [already] at answer
        obtain ⟨moves, moving, decided⟩ := bind_ok.mp answer
        refine ⟨ledger_of_actless decided rfl, fun booked among => ?_⟩
        unfold movedBy at among
        dsimp only at among
        rw [stated] at among
        cases among
        refine ⟨⟨_, passed⟩, moves, moving, ?_⟩
        rw [(made_ok decided).2.2]
        rfl
  | propose head ctx events =>
    right
    change propose book head ctx events = .ok act at answer
    unfold propose at answer
    obtain ⟨opening, -, answer⟩ := bind_ok.mp answer
    obtain ⟨records, -, decided⟩ := bind_ok.mp answer
    exact ⟨ledger_of_actless decided rfl, fun _ among => nomatch among⟩
  | release head ctx request =>
    right
    change release book head ctx request = .ok act at answer
    unfold release at answer
    obtain ⟨-, answer⟩ := guard_ok.mp answer
    obtain ⟨-, answer⟩ := guard_ok.mp answer
    unfold movedBy
    dsimp only
    cases open' : heldIn book request.eventId .claimOpen with
    | some claim =>
      rw [open'] at answer
      dsimp only at answer
      unfold claimSettled at answer
      obtain ⟨⟨⟩, -, answer⟩ := bind_ok.mp answer
      cases stated : claim.cash with
      | none =>
        rw [stated] at answer
        cases answer
      | some cash =>
        rw [stated] at answer
        obtain ⟨amount, -, answer⟩ := bind_ok.mp answer
        obtain ⟨instrument, -, decided⟩ := bind_ok.mp answer
        exact ⟨ledger_of_actless decided rfl, fun _ among => nomatch among⟩
    | none =>
      rw [open'] at answer
      dsimp only at answer
      unfold releaseProposal at answer
      cases waiting : heldIn book request.eventId .proposed with
      | none =>
        rw [waiting] at answer
        cases answer
      | some proposal =>
        rw [waiting] at answer
        obtain ⟨⟨⟩, passed, answer⟩ := bind_ok.mp answer
        obtain ⟨moves, moving, decided⟩ := bind_ok.mp answer
        refine ⟨ledger_of_actless decided rfl, fun booked among => ?_⟩
        cases among
        refine ⟨⟨_, passed⟩, moves, moving, ?_⟩
        rw [(made_ok decided).2.2]
        rfl

/-- What something sent leaves: all as it was; an act of another kind made; or the ledger as it was, and
one event at most happened. -/
theorem hold_cases (holder : Holder) (sent : Sent) :
    hold holder sent = holder ∨
      (sent.isOther = true ∧ (hold holder sent).happened = holder.happened) ∨
      (((hold holder sent).book.ledger = holder.book.ledger ∧ (hold holder sent).book.accountId = holder.book.accountId) ∧
        ((hold holder sent).happened = holder.happened ∨
          ∃ ctx event act, movedBy holder.book sent = some (ctx, event) ∧ sent.answer holder.book = .ok act ∧
            Happened.Booked ⟨holder.book, ctx, event, act.entry.body.lines⟩ ∧
            (hold holder sent).happened = holder.happened ++ [⟨holder.book, ctx, event, act.entry.body.lines⟩])) := by
  unfold hold
  cases answer : sent.answer holder.book with
  | error out => exact .inl rfl
  | ok act =>
    right
    dsimp only
    rcases answer_ok answer with other | ⟨still, books⟩
    · refine .inl ⟨other, ?_⟩
      cases sent with
      | other head ctx draft => exact List.append_nil _
      | _ => cases other
    · refine .inr ⟨still, ?_⟩
      cases moved' : movedBy holder.book sent with
      | none => exact .inl (List.append_nil _)
      | some stated => exact .inr ⟨stated.1, stated.2, act, rfl, rfl, books stated moved', rfl⟩

end

/-- The account once something is sent it that meets a check. -/
def holdChecked (check : Holder → Sent → Bool) (holder : Holder) (sent : Sent) : Option Holder :=
  if check holder sent then some (hold holder sent) else none

theorem holdChecked_some {check : Holder → Sent → Bool} {holder after : Holder} {sent : Sent}
    (taken : holdChecked check holder sent = some after) : check holder sent = true ∧ hold holder sent = after := by
  unfold holdChecked at taken
  split at taken
  · next checked =>
    cases taken
    exact ⟨checked, rfl⟩
  · cases taken

end MeridianCore.Bor.Lifecycle
