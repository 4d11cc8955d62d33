import MeridianCore.Bor.Book.Applied
import MeridianCore.Bor.Lifecycle.Record

namespace MeridianCore.Bor.Lifecycle

/-- An event as its writer left it, the change it was journalled as apart. -/
def bare (event : LifecycleEvent) : LifecycleEvent := { event with lastChange := none }

/-- The event an account holds under an identifier, as its writer left it. -/
def eventOf (book : Book) (id : String) : Option LifecycleEvent := (book.lifecycleEvents[id]?).map bare

section Applied

theorem insertEach_getElem? (records : List LifecycleEvent) (events : BTreeMap String LifecycleEvent) (id : String)
    (distinct : (records.map LifecycleEvent.eventId).Nodup) :
    (records.foldl (fun held record => held.insert record.eventId record) events)[id]? =
      (records.find? fun record => record.eventId == id).or events[id]? := by
  induction records generalizing events with
  | nil => rfl
  | cons record rest ih =>
    rw [List.map_cons, List.nodup_cons] at distinct
    rw [List.foldl_cons, ih _ distinct.2, Std.ExtTreeMap.getElem?_insert]
    by_cases named : record.eventId = id
    · have others : (rest.find? fun record => record.eventId == id) = none := by
        rw [List.find?_eq_none]
        intro other member same
        have held := List.mem_map_of_mem (f := LifecycleEvent.eventId) member
        rw [beq_iff_eq.mp same, ← named] at held
        exact distinct.1 held
      simp [named, others]
    · simp [named]

theorem find?_bare (records : List LifecycleEvent) (id : String) :
    (records.find? fun record => record.eventId == id).map bare =
      (records.map bare).find? fun record => record.eventId == id := by
  rw [List.find?_map]
  rfl

theorem applyActs_lifecycleEvents {book acted : Book} {entry : Entry} {changes changed : Changes} {refs : Refs}
    (applied : book.applyActs entry changes refs = .ok (acted, changed)) :
    acted.lifecycleEvents = book.lifecycleEvents := by
  unfold Book.applyActs at applied
  split at applied
  · cases applied
    rfl
  · obtain ⟨-, -, applied⟩ := bind_ok.mp applied
    obtain ⟨-, -, applied⟩ := bind_ok.mp applied
    obtain ⟨orders, -, applied⟩ := bind_ok.mp applied
    obtain ⟨placements, -, applied⟩ := bind_ok.mp applied
    obtain ⟨locates, -, applied⟩ := bind_ok.mp applied
    obtain ⟨bookings, -, applied⟩ := bind_ok.mp applied
    cases applied
    rfl

/-- What an entry leaves under an identifier: its own record, or what was held. -/
theorem eventOf_held {book : Book} {head : Nat} {ctx : Context} {draft : Draft} {act : Made}
    (decided : made book head ctx draft = .ok act)
    (distinct : (draft.body.lifecycleEvents.map LifecycleEvent.eventId).Nodup) (id : String) :
    eventOf act.held id =
      ((draft.body.lifecycleEvents.find? fun record => record.eventId == id).map bare).or (eventOf book id) := by
  obtain ⟨phases⟩ := Book.phases (made_ok decided).1
  let entry := draft.entry book head ctx
  let numbered := (book.number entry).1.lifecycleEvents.map fun row => { row.1 with lastChange := some row.2 }
  have records : numbered.map bare = draft.body.lifecycleEvents.map bare := by
    have rows : (book.number entry).1.lifecycleEvents.map Prod.fst = draft.body.lifecycleEvents := by
      simp only [entry, Book.number, refsOf, List.map_map]
      exact Chained.Counter.each_map_fst _ _ _
    rw [← rows, List.map_map, List.map_map]
    rfl
  have names : numbered.map LifecycleEvent.eventId = draft.body.lifecycleEvents.map LifecycleEvent.eventId := by
    have plain (events : List LifecycleEvent) :
        (events.map bare).map LifecycleEvent.eventId = events.map LifecycleEvent.eventId := by
      rw [List.map_map]
      rfl
    rw [← plain numbered, records, plain]
  have before : phases.recorded.lifecycleEvents = book.lifecycleEvents := by
    rw [Book.onlyPositions_recordPositions phases.records, Book.onlyPositions_applyPositions phases.moves]
  have after : act.held.lifecycleEvents =
      numbered.foldl (fun held record => held.insert record.eventId record) book.lifecycleEvents := by
    rw [Made.held, Book.holdBody, phases.closed, Book.closeEntry]
    dsimp only
    rw [applyActs_lifecycleEvents phases.acts, Book.setRecords]
    dsimp only
    rw [before]
  rw [eventOf, after, insertEach_getElem? _ _ _ (names ▸ distinct), eventOf, find?_bare, ← records, ← find?_bare]
  cases numbered.find? fun record => record.eventId == id <;> rfl

end Applied

/-- Whether the account holds a booked event that `p` holds of. -/
def HeldBooked (book : Book) (p : LifecycleEvent → Prop) : Prop :=
  ∃ id held, eventOf book id = some held ∧ held.state = .booked ∧ p held

/-- A record that overwrites no booked event, and opens a claim only for a factor revision. -/
structure Writes (book : Book) (record : LifecycleEvent) : Prop where
  unbooked : ∀ held, eventOf book record.eventId = some held → held.state ≠ .booked
  claims : record.state = .claimOpen → record.kind = .factorRevision

/-- An entry made on an account, and what its records may overwrite. -/
structure Wrote (book : Book) (act : Made) : Prop where
  decided : ∃ head ctx draft, made book head ctx draft = .ok act
  distinct : (act.entry.body.lifecycleEvents.map LifecycleEvent.eventId).Nodup
  writes : ∀ record ∈ act.entry.body.lifecycleEvents, Writes book record

namespace Wrote

variable {book : Book} {act : Made}

theorem eventOf (wrote : Wrote book act) (id : String) :
    eventOf act.held id =
      ((act.entry.body.lifecycleEvents.find? fun record => record.eventId == id).map bare).or (eventOf book id) := by
  obtain ⟨head, ctx, draft, decided⟩ := wrote.decided
  have same : act.entry.body = draft.body := by rw [(made_ok decided).2.2]; rfl
  rw [same]
  exact eventOf_held decided (same ▸ wrote.distinct) id

theorem found (wrote : Wrote book act) {record : LifecycleEvent} (member : record ∈ act.entry.body.lifecycleEvents) :
    Lifecycle.eventOf act.held record.eventId = some (bare record) := by
  have distinct := wrote.distinct
  have find : (act.entry.body.lifecycleEvents.find? fun other => other.eventId == record.eventId) = some record := by
    generalize act.entry.body.lifecycleEvents = records at member distinct
    induction records with
    | nil => cases member
    | cons first rest ih =>
      rw [List.map_cons, List.nodup_cons] at distinct
      rw [List.find?_cons]
      rcases List.mem_cons.mp member with rfl | later
      · simp
      · have differs : first.eventId ≠ record.eventId := fun same =>
          distinct.1 (same ▸ List.mem_map_of_mem (f := LifecycleEvent.eventId) later)
        rw [beq_eq_false_iff_ne.mpr differs]
        exact ih later distinct.2
  rw [wrote.eventOf, find]
  rfl

/-- What is held after an entry is one of its records or was held before. -/
theorem held_cases (wrote : Wrote book act) {id : String} {held : LifecycleEvent}
    (after : Lifecycle.eventOf act.held id = some held) :
    (∃ record ∈ act.entry.body.lifecycleEvents, record.eventId = id ∧ held = bare record) ∨
      Lifecycle.eventOf book id = some held := by
  rw [wrote.eventOf] at after
  cases find : act.entry.body.lifecycleEvents.find? fun record => record.eventId == id with
  | none =>
    rw [find] at after
    exact .inr after
  | some record =>
    rw [find] at after
    refine .inl ⟨record, List.mem_of_find?_eq_some find, ?_, (Option.some.inj after).symm⟩
    have named := List.find?_some find
    exact beq_iff_eq.mp named

/-- An entry keeps what is booked, and adds what it books. -/
theorem heldBooked (wrote : Wrote book act) {p : LifecycleEvent → Prop} (reads : ∀ event, p (bare event) ↔ p event) :
    HeldBooked act.held p ↔
      HeldBooked book p ∨ ∃ record ∈ act.entry.body.lifecycleEvents, record.state = .booked ∧ p record := by
  constructor
  · rintro ⟨id, held, after, booked, holds⟩
    rcases wrote.held_cases after with ⟨record, member, -, rfl⟩ | before
    · exact .inr ⟨record, member, booked, (reads record).mp holds⟩
    · exact .inl ⟨id, held, before, booked, holds⟩
  · rintro (⟨id, held, before, booked, holds⟩ | ⟨record, member, booked, holds⟩)
    · have untouched : (act.entry.body.lifecycleEvents.find? fun record => record.eventId == id) = none := by
        rw [List.find?_eq_none]
        intro record member same
        have named : record.eventId = id := beq_iff_eq.mp same
        exact (wrote.writes record member).unbooked held (named ▸ before) booked
      refine ⟨id, held, ?_, booked, holds⟩
      rw [wrote.eventOf, untouched]
      exact before
    · exact ⟨record.eventId, bare record, wrote.found member, booked, (reads record).mpr holds⟩

end Wrote

/-- What is sent of an account's lifecycle events, and every other act. -/
inductive Sent where
  | report (head : Nat) (ctx : Context) (request : RecordLifecycleEventRequest)
  | propose (head : Nat) (ctx : Context) (events : List (Nat × LifecycleEvent))
  | release (head : Nat) (ctx : Context) (request : ReleaseLifecycleEventRequest)
  | other (head : Nat) (ctx : Context) (draft : Draft)

namespace Sent

def answer (book : Book) : Sent → Result Made
  | .report head ctx request => record book head ctx request
  | .propose head ctx events => Lifecycle.propose book head ctx events
  | .release head ctx request => Lifecycle.release book head ctx request
  | .other head ctx draft => made book head ctx draft

def isReport : Sent → Bool
  | .report _ _ _ => true
  | _ => false

def isRelease : Sent → Bool
  | .release _ _ _ => true
  | _ => false

/-- The identifiers the events it records take, in their order. -/
def identifiers : Sent → List String
  | .report _ ctx _ => [ctx.minted "LCE" 0]
  | .propose _ ctx events => (List.range events.length).map (ctx.minted "LCE")
  | .release _ ctx _ => [ctx.minted "LCE" 0]
  | .other _ _ draft => draft.body.lifecycleEvents.map LifecycleEvent.eventId

/-- The events an act of another kind writes. -/
def asides : Sent → List LifecycleEvent
  | .other _ _ draft => draft.body.lifecycleEvents
  | _ => []

/-- Each identifier minted is new, and an act of another kind writes factor revisions only. -/
structure Fresh (book : Book) (sent : Sent) : Prop where
  distinct : sent.identifiers.Nodup
  unheld : ∀ id ∈ sent.identifiers, book.lifecycleEvents[id]? = none
  revises : ∀ record ∈ sent.asides, record.kind = .factorRevision

instance (book : Book) (sent : Sent) : Decidable (sent.Fresh book) :=
  decidable_of_iff (sent.identifiers.Nodup ∧ (∀ id ∈ sent.identifiers, book.lifecycleEvents[id]? = none) ∧
      ∀ record ∈ sent.asides, record.kind = .factorRevision)
    ⟨fun ⟨distinct, unheld, revises⟩ => ⟨distinct, unheld, revises⟩,
      fun fresh => ⟨fresh.distinct, fresh.unheld, fresh.revises⟩⟩

end Sent

/-- A thing sent that was taken, and the entry made of it. -/
structure Taken where
  sent : Sent
  act : Made

namespace Taken

/-- Whether its entry books a movement of the account, instrument, kind and date. -/
def moves (key : EventKey) (taken : Taken) : Bool :=
  taken.act.entry.body.lifecycleEvents.any fun record => record.state = .booked ∧ keyOf record = key

def reports (key : EventKey) (taken : Taken) : Bool := taken.sent.isReport && taken.moves key

def releases (key : EventKey) (taken : Taken) : Bool := taken.sent.isRelease && taken.moves key

/-- Whether it books a report of the external event. -/
def reportsAs (externalEventId : String) (taken : Taken) : Bool :=
  taken.sent.isReport && taken.act.entry.body.lifecycleEvents.any fun record =>
    record.state = .booked ∧ record.externalEventId = externalEventId

end Taken

/-- One account, and all it has taken. -/
structure Account where
  book : Book
  taken : List Taken := []

/-- The account once something is sent it: as it was, where it refuses. -/
def send (account : Account) (sent : Sent) : Account :=
  match sent.answer account.book with
  | .ok act => { book := act.held, taken := account.taken ++ [⟨sent, act⟩] }
  | .error _ => account

def Step (account : Account) (sent : Sent) (after : Account) : Prop :=
  sent.Fresh account.book ∧ send account sent = after

/-- What was reported or released is booked once: a released movement by its one release and no report,
and a report under its external identifier once. -/
structure BookedOnce (account : Account) : Prop where
  releasedOnce : ∀ key : EventKey, key.kind ≠ .factorRevision → account.taken.countP (Taken.releases key) ≤ 1
  neverBoth : ∀ key : EventKey, key.kind ≠ .factorRevision → account.taken.any (Taken.releases key) = true →
    account.taken.any (Taken.reports key) = false
  reportedOnce : ∀ external, external ≠ "" → account.taken.countP (Taken.reportsAs external) ≤ 1

/-- No report comes of what was released, and no proposal is released of what is booked. -/
def Sent.Awaited (account : Account) : Sent → Prop
  | .report _ _ request => ∀ event ∈ request.event, account.taken.any (Taken.releases (keyOf event)) = false
  | .release _ _ request => ∀ proposal ∈ heldIn account.book request.eventId .proposed,
      ∀ held ∈ account.book.lifecycleEvents.toList.map Prod.snd, held.state = .booked → keyOf held ≠ keyOf proposal
  | _ => True

instance (account : Account) (sent : Sent) : Decidable (sent.Awaited account) := by
  cases sent <;> unfold Sent.Awaited <;> infer_instance

section Spec

variable {book : Book} {head : Nat} {ctx : Context} {act : Made}

theorem eventOf_eq_some {id : String} {held : LifecycleEvent} (found : book.lifecycleEvents[id]? = some held) :
    eventOf book id = some (bare held) := by
  rw [eventOf, found]
  rfl

theorem eventOf_eq_none {id : String} (absent : book.lifecycleEvents[id]? = none) : eventOf book id = none := by
  rw [eventOf, absent]
  rfl

theorem checked_kind {event : LifecycleEvent} {path : String} (passed : checked book ctx event path = .ok ()) :
    event.kind ≠ .factorRevision := by
  unfold checked at passed
  obtain ⟨-, passed⟩ := guard_ok.mp passed
  obtain ⟨⟨⟩, -, passed⟩ := bind_ok.mp passed
  obtain ⟨⟨⟩, kind, -⟩ := bind_ok.mp passed
  unfold kindChecked at kind
  obtain ⟨-, kind⟩ := guard_ok.mp kind
  exact (guard_ok.mp kind).1

/-- What a report taken wrote: no event of its external identifier was held, and it books its own event. -/
theorem record_ok {request : RecordLifecycleEventRequest} (taken : record book head ctx request = .ok act) :
    ∃ event, request.event = some event ∧ event.kind ≠ .factorRevision ∧ heldAlready book event = none ∧
      (∃ draft, made book head ctx draft = .ok act) ∧
      act.entry.body.lifecycleEvents = bookedBy book ctx event := by
  unfold record at taken
  obtain ⟨opening, -, taken⟩ := bind_ok.mp taken
  cases stated : request.event with
  | none =>
    rw [stated] at taken
    cases taken
  | some event =>
    rw [stated] at taken
    obtain ⟨⟨⟩, passed, taken⟩ := bind_ok.mp taken
    refine ⟨event, rfl, checked_kind passed, ?_⟩
    cases already : heldAlready book event with
    | some held =>
      simp only [already] at taken
      cases taken
    | none =>
      simp only [already] at taken
      obtain ⟨moves, -, decided⟩ := bind_ok.mp taken
      refine ⟨rfl, ⟨_, decided⟩, ?_⟩
      rw [(made_ok decided).2.2]
      rfl

theorem proposals_ok {i : Nat} {events : List (Nat × LifecycleEvent)} {records : List LifecycleEvent}
    (answered : proposals book ctx i events = .ok records) :
    records.map LifecycleEvent.eventId = (List.range' i events.length).map (ctx.minted "LCE") ∧
      ∀ record ∈ records, record.state = .proposed := by
  induction events generalizing i records with
  | nil =>
    cases answered
    exact ⟨rfl, by simp⟩
  | cons entry rest ih =>
    obtain ⟨at_, event⟩ := entry
    rw [proposals] at answered
    obtain ⟨first, one, answered⟩ := bind_ok.mp answered
    obtain ⟨others, later, answered⟩ := bind_ok.mp answered
    cases answered
    unfold proposal at one
    obtain ⟨⟨⟩, -, one⟩ := bind_ok.mp one
    obtain ⟨⟨⟩, -, one⟩ := bind_ok.mp one
    obtain ⟨-, one⟩ := guard_ok.mp one
    cases one
    obtain ⟨names, states⟩ := ih later
    refine ⟨?_, ?_⟩
    · rw [List.map_cons, names]
      rfl
    · intro record member
      rcases List.mem_cons.mp member with rfl | other
      · rfl
      · exact states record other

/-- What proposals taken wrote: their own records, each proposed under an identifier minted. -/
theorem propose_ok {events : List (Nat × LifecycleEvent)} (taken : propose book head ctx events = .ok act) :
    (∃ draft, made book head ctx draft = .ok act) ∧
      act.entry.body.lifecycleEvents.map LifecycleEvent.eventId =
        (List.range events.length).map (ctx.minted "LCE") ∧
      ∀ record ∈ act.entry.body.lifecycleEvents, record.state = .proposed := by
  unfold propose at taken
  obtain ⟨opening, -, taken⟩ := bind_ok.mp taken
  obtain ⟨records, answered, decided⟩ := bind_ok.mp taken
  refine ⟨⟨_, decided⟩, ?_⟩
  rw [(made_ok decided).2.2, List.range_eq_range']
  exact proposals_ok answered

theorem heldIn_eq_some {id : String} {state : LifecycleEventState} {held : LifecycleEvent}
    (found : heldIn book id state = some held) : book.lifecycleEvents[id]? = some held ∧ held.state = state := by
  obtain ⟨found, inState⟩ := Option.filter_eq_some_iff.mp found
  exact ⟨found, of_decide_eq_true inState⟩

/-- What a release taken wrote: an open claim marked settled, or a proposal booked and answered. -/
theorem release_ok {request : ReleaseLifecycleEventRequest} (taken : release book head ctx request = .ok act) :
    (∃ draft, made book head ctx draft = .ok act) ∧
      ((∃ claim, heldIn book request.eventId .claimOpen = some claim ∧
          act.entry.body.lifecycleEvents = [{ claim with state := .booked, lastChange := none }]) ∨
        ∃ proposal, heldIn book request.eventId .proposed = some proposal ∧ proposal.kind ≠ .factorRevision ∧
          act.entry.body.lifecycleEvents = [releasedFrom ctx proposal, answered proposal]) := by
  unfold release at taken
  obtain ⟨-, taken⟩ := guard_ok.mp taken
  obtain ⟨-, taken⟩ := guard_ok.mp taken
  cases open_ : heldIn book request.eventId .claimOpen with
  | some claim =>
    rw [open_] at taken
    dsimp only at taken
    unfold claimSettled at taken
    obtain ⟨⟨⟩, -, taken⟩ := bind_ok.mp taken
    cases stated : claim.cash with
    | none =>
      rw [stated] at taken
      cases taken
    | some cash =>
      rw [stated] at taken
      obtain ⟨amount, -, taken⟩ := bind_ok.mp taken
      obtain ⟨instrument, -, decided⟩ := bind_ok.mp taken
      refine ⟨⟨_, decided⟩, .inl ⟨claim, rfl, ?_⟩⟩
      rw [(made_ok decided).2.2, stated]
      rfl
  | none =>
    rw [open_] at taken
    dsimp only at taken
    unfold releaseProposal at taken
    cases waiting : heldIn book request.eventId .proposed with
    | none =>
      rw [waiting] at taken
      cases taken
    | some proposal =>
      rw [waiting] at taken
      obtain ⟨⟨⟩, passed, taken⟩ := bind_ok.mp taken
      obtain ⟨moves, -, decided⟩ := bind_ok.mp taken
      refine ⟨⟨_, decided⟩, .inr ⟨proposal, rfl, checked_kind passed, ?_⟩⟩
      rw [(made_ok decided).2.2]
      rfl

end Spec

/-- What an account's events keep: each is held under its own identifier, and only a factor revision's
claim is open. -/
structure Kept (book : Book) : Prop where
  own : ∀ id held, eventOf book id = some held → held.eventId = id
  claims : ∀ id held, eventOf book id = some held → held.state = .claimOpen → held.kind = .factorRevision

section Kept

variable {book : Book} {act : Made}

theorem Wrote.kept (wrote : Wrote book act) (kept : Kept book) : Kept act.held where
  own id held after := by
    rcases wrote.held_cases after with ⟨record, -, named, rfl⟩ | before
    · exact named
    · exact kept.own id held before
  claims id held after claim := by
    rcases wrote.held_cases after with ⟨record, member, -, rfl⟩ | before
    · exact (wrote.writes record member).claims claim
    · exact kept.claims id held before claim

theorem writes_fresh {record : LifecycleEvent} (absent : book.lifecycleEvents[record.eventId]? = none)
    (claims : record.state = .claimOpen → record.kind = .factorRevision) : Writes book record where
  unbooked held found := by
    rw [eventOf_eq_none absent] at found
    cases found
  claims := claims

/-- A record that takes the place of one that waits. -/
theorem writes_waiting {record held : LifecycleEvent} (found : book.lifecycleEvents[record.eventId]? = some held)
    (waits : held.state ≠ .booked) (closes : record.state ≠ .claimOpen) : Writes book record where
  unbooked other held := by
    rw [eventOf_eq_some found] at held
    cases held
    exact waits
  claims claim := absurd claim closes

/-- What is held under an identifier is recorded under it again. -/
theorem Kept.found (kept : Kept book) {id : String} {held : LifecycleEvent}
    (found : book.lifecycleEvents[id]? = some held) : book.lifecycleEvents[held.eventId]? = some held := by
  have named : held.eventId = id := kept.own id (bare held) (eventOf_eq_some found)
  rw [named]
  exact found

theorem proposalAnswered_eq_some {event proposal : LifecycleEvent}
    (answers : proposalAnswered book event = some proposal) :
    (∃ id : String, book.lifecycleEvents[id]? = some proposal) ∧ proposal.state = .proposed := by
  obtain ⟨⟨id, held⟩, found, rfl⟩ := Option.map_eq_some_iff.mp answers
  obtain ⟨held, alike, -⟩ := BTreeMap.find?_eq_some.mp found
  simp only [Bool.and_eq_true, decide_eq_true_eq] at alike
  exact ⟨⟨id, held⟩, alike.1⟩

theorem wrote_report {head : Nat} {ctx : Context} {request : RecordLifecycleEventRequest} (kept : Kept book)
    (fresh : (Sent.report head ctx request).Fresh book) (taken : record book head ctx request = .ok act) :
    Wrote book act := by
  obtain ⟨event, -, -, -, decided, records⟩ := record_ok taken
  have unheld : book.lifecycleEvents[ctx.minted "LCE" 0]? = none := fresh.unheld _ (by simp [Sent.identifiers])
  unfold bookedBy at records
  cases answers : proposalAnswered book event with
  | none =>
    rw [answers] at records
    refine ⟨⟨_, _, decided⟩, ?_, ?_⟩
    · simp [records]
    · simp only [records, List.mem_singleton, forall_eq]
      exact writes_fresh unheld nofun
  | some proposal =>
    rw [answers] at records
    obtain ⟨⟨id, found⟩, waits⟩ := proposalAnswered_eq_some answers
    have again := kept.found found
    refine ⟨⟨_, _, decided⟩, ?_, ?_⟩
    · have apart : ctx.minted "LCE" 0 ≠ proposal.eventId := by
        intro same
        rw [same, again] at unheld
        cases unheld
      simp [records, Lifecycle.answered, apart]
    · simp only [records, List.mem_cons, List.not_mem_nil, or_false, forall_eq_or_imp, forall_eq]
      refine ⟨writes_fresh unheld nofun, @writes_waiting _ _ proposal again ?_ nofun⟩
      rw [waits]
      nofun

theorem wrote_propose {head : Nat} {ctx : Context} {events : List (Nat × LifecycleEvent)}
    (fresh : (Sent.propose head ctx events).Fresh book) (taken : propose book head ctx events = .ok act) :
    Wrote book act := by
  obtain ⟨decided, names, states⟩ := propose_ok taken
  refine ⟨⟨_, _, decided⟩, names ▸ fresh.distinct, fun record member => ?_⟩
  have minted : record.eventId ∈ (Sent.propose head ctx events).identifiers := by
    rw [Sent.identifiers, ← names]
    exact List.mem_map_of_mem member
  refine writes_fresh (fresh.unheld _ minted) ?_
  rw [states record member]
  nofun

theorem wrote_release {head : Nat} {ctx : Context} {request : ReleaseLifecycleEventRequest} (kept : Kept book)
    (fresh : (Sent.release head ctx request).Fresh book) (taken : release book head ctx request = .ok act) :
    Wrote book act := by
  have unheld : book.lifecycleEvents[ctx.minted "LCE" 0]? = none := fresh.unheld _ (by simp [Sent.identifiers])
  obtain ⟨decided, ⟨claim, held, records⟩ | ⟨proposal, held, -, records⟩⟩ := release_ok taken
  · obtain ⟨found, waits⟩ := heldIn_eq_some held
    refine ⟨⟨_, _, decided⟩, by simp [records], ?_⟩
    simp only [records, List.mem_singleton, forall_eq]
    refine @writes_waiting _ _ claim (kept.found found) ?_ nofun
    rw [waits]
    nofun
  · obtain ⟨found, waits⟩ := heldIn_eq_some held
    have again := kept.found found
    have apart : ctx.minted "LCE" 0 ≠ proposal.eventId := by
      intro same
      rw [same, again] at unheld
      cases unheld
    refine ⟨⟨_, _, decided⟩, by simp [records, releasedFrom, answered, apart], ?_⟩
    simp only [records, List.mem_cons, List.not_mem_nil, or_false, forall_eq_or_imp, forall_eq]
    refine ⟨writes_fresh unheld nofun, @writes_waiting _ _ proposal again ?_ nofun⟩
    rw [waits]
    nofun

theorem wrote_other {head : Nat} {ctx : Context} {draft : Draft} (fresh : (Sent.other head ctx draft).Fresh book)
    (taken : made book head ctx draft = .ok act) : Wrote book act := by
  have same : act.entry.body.lifecycleEvents = draft.body.lifecycleEvents := by rw [(made_ok taken).2.2]; rfl
  refine ⟨⟨_, _, _, taken⟩, same ▸ fresh.distinct, fun record member => ?_⟩
  rw [same] at member
  exact writes_fresh (fresh.unheld _ (List.mem_map_of_mem member)) fun _ => fresh.revises record member

/-- An act sent and taken overwrites nothing booked. -/
theorem wrote_of_answer {sent : Sent} (kept : Kept book) (fresh : sent.Fresh book)
    (taken : sent.answer book = .ok act) : Wrote book act := by
  cases sent with
  | report head ctx request => exact wrote_report kept fresh taken
  | propose head ctx events => exact wrote_propose fresh taken
  | release head ctx request => exact wrote_release kept fresh taken
  | other head ctx draft => exact wrote_other fresh taken

end Kept

/-- What an account's ledger and its events say of each other: what moved is held booked, and what is
held booked moved. -/
structure Tracked (account : Account) : Prop where
  kept : Kept account.book
  moved : ∀ key, account.taken.any (Taken.moves key) = true ↔ HeldBooked account.book fun held => keyOf held = key
  reported : ∀ external, account.taken.any (Taken.reportsAs external) = true →
    HeldBooked account.book fun held => held.externalEventId = external

section Run

variable {account after : Account} {sent : Sent}

theorem send_cases (step : Step account sent after) :
    after = account ∨ ∃ act, sent.answer account.book = .ok act ∧
      after = { book := act.held, taken := account.taken ++ [⟨sent, act⟩] } := by
  obtain ⟨-, rfl⟩ := step
  unfold send
  cases answer : sent.answer account.book with
  | error out => exact .inl rfl
  | ok act => exact .inr ⟨act, rfl, rfl⟩

theorem moves_iff {key : EventKey} {taken : Taken} :
    taken.moves key = true ↔
      ∃ record ∈ taken.act.entry.body.lifecycleEvents, record.state = .booked ∧ keyOf record = key := by
  simp [Taken.moves]

theorem reportsAs_iff {external : String} {taken : Taken} :
    taken.reportsAs external = true ↔ taken.sent.isReport = true ∧
      ∃ record ∈ taken.act.entry.body.lifecycleEvents, record.state = .booked ∧ record.externalEventId = external := by
  simp [Taken.reportsAs]

theorem tracked_step (tracked : Tracked account) (step : Step account sent after) : Tracked after := by
  rcases send_cases step with rfl | ⟨act, answer, rfl⟩
  · exact tracked
  have wrote := wrote_of_answer tracked.kept step.1 answer
  refine ⟨wrote.kept tracked.kept, fun key => ?_, fun external => ?_⟩
  · have booked := wrote.heldBooked (p := fun held => keyOf held = key) fun event => Iff.rfl
    rw [booked, ← tracked.moved key, List.any_append, Bool.or_eq_true, List.any_cons, List.any_nil, Bool.or_false,
      moves_iff]
  · have booked := wrote.heldBooked (p := fun held => held.externalEventId = external) fun event => Iff.rfl
    rw [booked, List.any_append, Bool.or_eq_true, List.any_cons, List.any_nil, Bool.or_false, reportsAs_iff]
    rintro (before | ⟨-, now⟩)
    · exact .inl (tracked.reported external before)
    · exact .inr now

/-- What a report taken moves: its own account, instrument, kind and date. -/
theorem bookedBy_booked {book : Book} {ctx : Context} {event record : LifecycleEvent}
    (member : record ∈ bookedBy book ctx event) (booked : record.state = .booked) :
    keyOf record = keyOf event ∧ record.externalEventId = event.externalEventId := by
  unfold bookedBy at member
  cases answers : proposalAnswered book event with
  | none =>
    rw [answers] at member
    obtain rfl := List.mem_singleton.mp member
    exact ⟨rfl, rfl⟩
  | some proposal =>
    rw [answers] at member
    rcases List.mem_cons.mp member with rfl | other
    · exact ⟨rfl, rfl⟩
    · obtain rfl := List.mem_singleton.mp other
      cases booked

/-- An external identifier under which nothing is held booked where a report of it is taken. -/
theorem unreported_of_heldAlready {event : LifecycleEvent} (stated : event.externalEventId ≠ "")
    (tracked : Tracked account) (already : heldAlready account.book event = none) :
    account.taken.any (Taken.reportsAs event.externalEventId) = false := by
  rw [← Bool.not_eq_true]
  intro told
  obtain ⟨id, held, found, booked, same⟩ := tracked.reported _ told
  obtain ⟨record, stands, rfl⟩ := Option.map_eq_some_iff.mp found
  unfold heldAlready at already
  rw [if_neg stated, Option.map_eq_none_iff, BTreeMap.find?_eq_none] at already
  have alike := already id record stands
  have external : record.externalEventId = event.externalEventId := same
  have state : record.state = .booked := booked
  simp [external, state] at alike

theorem heldBooked_of_mem {book : Book} {p : LifecycleEvent → Prop}
    (reads : ∀ event, p (bare event) ↔ p event) :
    HeldBooked book p ↔ ∃ held ∈ book.lifecycleEvents.toList.map Prod.snd, held.state = .booked ∧ p held := by
  constructor
  · rintro ⟨id, held, found, booked, holds⟩
    obtain ⟨record, stands, rfl⟩ := Option.map_eq_some_iff.mp found
    have member : record ∈ book.lifecycleEvents.toList.map Prod.snd :=
      List.mem_map_of_mem (BTreeMap.mem_toList.mpr stands)
    exact ⟨record, member, booked, (reads record).mp holds⟩
  · rintro ⟨held, member, booked, holds⟩
    obtain ⟨⟨id, record⟩, found, rfl⟩ := List.mem_map.mp member
    exact ⟨id, bare record, eventOf_eq_some (BTreeMap.mem_toList.mp found), booked, (reads record).mpr holds⟩

theorem any_of_moves {taken : List Taken} {key : EventKey} (unmoved : taken.any (Taken.moves key) = false) :
    taken.any (Taken.releases key) = false ∧ taken.any (Taken.reports key) = false := by
  simp only [List.any_eq_false, Taken.releases, Taken.reports, Bool.and_eq_true, not_and] at unmoved ⊢
  exact ⟨fun other member _ => unmoved other member, fun other member _ => unmoved other member⟩

theorem countP_append_le {taken : List Taken} {last : Taken} {p : Taken → Bool} (once : taken.countP p ≤ 1)
    (first : p last = true → taken.any p = false) : (taken ++ [last]).countP p ≤ 1 := by
  rw [List.countP_append, List.countP_singleton]
  split
  · next now =>
    have none_ : taken.countP p = 0 := by
      rw [List.countP_eq_zero]
      exact List.any_eq_false.mp (first now)
    omega
  · omega

/-- One more entry, that releases nothing which moved, reports nothing released and no external event twice. -/
theorem BookedOnce.append {book : Book} {last : Taken} (once : BookedOnce account)
    (releases : ∀ key : EventKey, key.kind ≠ .factorRevision → last.releases key = true →
      account.taken.any (Taken.moves key) = false)
    (reports : ∀ key : EventKey, last.reports key = true → account.taken.any (Taken.releases key) = false)
    (external : ∀ external, external ≠ "" → last.reportsAs external = true →
      account.taken.any (Taken.reportsAs external) = false) :
    BookedOnce { book, taken := account.taken ++ [last] } where
  releasedOnce key other := countP_append_le (once.releasedOnce key other) fun now =>
    (any_of_moves (releases key other now)).1
  neverBoth key other released := by
    simp only [List.any_append, List.any_cons, List.any_nil, Bool.or_false, Bool.or_eq_true, Bool.or_eq_false_iff]
      at released ⊢
    rcases released with before | now
    · refine ⟨once.neverBoth key other before, ?_⟩
      rw [← Bool.not_eq_true]
      intro reported
      rw [reports key reported] at before
      cases before
    · refine ⟨(any_of_moves (releases key other now)).2, ?_⟩
      rw [Taken.releases, Bool.and_eq_true] at now
      rw [Taken.reports, Bool.and_eq_false_iff]
      left
      cases sent : last.sent with
      | release head ctx request => rfl
      | _ => simp [sent, Sent.isRelease] at now
  reportedOnce named other := countP_append_le (once.reportedOnce named other) (external named other)

theorem once_step (tracked : Tracked account) (once : BookedOnce account) (awaited : sent.Awaited account)
    (step : Step account sent after) : BookedOnce after := by
  rcases send_cases step with rfl | ⟨act, answer, rfl⟩
  · exact once
  cases sent with
  | report head ctx request =>
    obtain ⟨event, stated, -, already, -, records⟩ := record_ok answer
    refine once.append (fun _ _ released => nomatch released) (fun key reported => ?_) fun external other told => ?_
    · obtain ⟨-, moves⟩ := Bool.and_eq_true_iff.mp reported
      obtain ⟨record, member, booked, rfl⟩ := moves_iff.mp moves
      rw [(bookedBy_booked (records ▸ member) booked).1]
      exact awaited event stated
    · obtain ⟨-, record, member, booked, rfl⟩ := reportsAs_iff.mp told
      have same := (bookedBy_booked (records ▸ member) booked).2
      rw [same] at other ⊢
      exact unreported_of_heldAlready other tracked already
  | propose head ctx events =>
    exact once.append (fun _ _ released => nomatch released) (fun _ reported => nomatch reported)
      fun _ _ told => nomatch told
  | release head ctx request =>
    refine once.append (fun key other released => ?_) (fun _ reported => nomatch reported) fun _ _ told => nomatch told
    obtain ⟨-, moves⟩ := Bool.and_eq_true_iff.mp released
    obtain ⟨record, member, booked, rfl⟩ := moves_iff.mp moves
    obtain ⟨-, ⟨claim, held, records⟩ | ⟨proposal, held, -, records⟩⟩ := release_ok answer
    · rw [records] at member
      obtain rfl := List.mem_singleton.mp member
      obtain ⟨found, waits⟩ := heldIn_eq_some held
      exact absurd (tracked.kept.claims _ (bare claim) (eventOf_eq_some found) waits) other
    · rw [records] at member
      rcases List.mem_cons.mp member with rfl | answer
      · have reads := @heldBooked_of_mem account.book (fun held => keyOf held = keyOf (releasedFrom ctx proposal))
          fun event => Iff.rfl
        rw [← Bool.not_eq_true, tracked.moved, reads]
        rintro ⟨earlier, stands, state, same⟩
        exact awaited proposal held earlier stands state same
      · obtain rfl := List.mem_singleton.mp answer
        cases booked
  | other head ctx draft =>
    refine once.append (fun _ _ released => nomatch released) (fun _ reported => nomatch reported)
      fun _ _ told => nomatch told

theorem tracked_new (accountId partition : String) : Tracked { book := Book.new accountId partition } where
  kept := ⟨fun id held found => by simp [eventOf, Book.new] at found, fun id held found => by simp [eventOf, Book.new] at found⟩
  moved key := by simp [HeldBooked, eventOf, Book.new]
  reported external := by simp

theorem bookedOnce_new (accountId partition : String) : BookedOnce { book := Book.new accountId partition } where
  releasedOnce := by simp
  neverBoth := by simp
  reportedOnce := by simp

end Run

/-- A run in which no report comes of what was released, and no proposal is released of what is booked,
books each event once. -/
theorem booked_once_of_run {accountId partition : String} {sents : List Sent} {account : Account}
    (run : Run (fun before sent after => sent.Awaited before ∧ Step before sent after)
      { book := Book.new accountId partition } sents account) : BookedOnce account := by
  have both : Tracked account ∧ BookedOnce account := by
    refine run.invariant_of (fun account => Tracked account ∧ BookedOnce account)
      ⟨tracked_new accountId partition, bookedOnce_new accountId partition⟩ ?_
    rintro before sent after ⟨tracked, once⟩ awaited step
    exact ⟨tracked_step tracked step, once_step tracked once awaited step⟩
  exact both.2

/-- The account once something is sent it that meets a check. -/
def sendChecked (check : Account → Sent → Bool) (account : Account) (sent : Sent) : Except Unit Account :=
  if sent.Fresh account.book ∧ check account sent then .ok (send account sent) else .error ()

theorem sendChecked_ok {check : Account → Sent → Bool} {account after : Account} {sent : Sent}
    (sentOn : sendChecked check account sent = .ok after) : check account sent = true ∧ Step account sent after := by
  unfold sendChecked at sentOn
  split at sentOn
  · next held =>
    cases sentOn
    exact ⟨held.2, held.1, rfl⟩
  · cases sentOn

def servicing (step : String) : Context where
  instanceId := "SERVICING-1"
  records := (∅ : BTreeMap String RecordSays).insert "FUT-1" { instrumentType := .future }
  minted identifier count := identifier ++ "-" ++ step ++ toString count

/-- A future's variation of a day, as it is proposed. -/
def variation : LifecycleEvent where
  accountId := "ACC-1"
  instrumentId := "FUT-1"
  kind := .settlementVariation
  quantity := some ⟨1, 0⟩
  eventDate := "2026-01-05"
  cash := some { amount := some ⟨100, 0⟩, currencyCode := "USD", instrumentId := "CASH-USD" }
  settlementPrice := some { amount := some ⟨50, 0⟩, currencyCode := "USD", instrumentId := "CASH-USD" }

/-- The account entered, and the variation proposed. -/
def proposedVariation : List Sent := [
  .other 0 {} {
    entryId := "ENT-1"
    kind := "opening-balance"
    effectiveDate := "2026-01-02"
    body := {
      opening := some { entryId := "ENT-1", asOfDate := "2026-01-02" }
      attributes := some { accountId := "ACC-1" } } },
  .propose 10 (servicing "A") [(0, variation)]]

def brokerReport (step : String) (head : Nat) : Sent :=
  .report head (servicing step) { event := some { variation with externalEventId := "BROKER-1" } }

def operationsRelease (step eventId : String) (head : Nat) : Sent :=
  .release head (servicing step) { eventId, note := "no report came" }

/-- The proposal answered by its report, and the report sent again. -/
theorem reported_variation_once :
    ∃ account, Run Step { book := Book.new "ACC-1" "P-1" }
        (proposedVariation ++ [brokerReport "B" 20, brokerReport "C" 30]) account ∧
      account.taken.any (Taken.reports (keyOf variation)) = true ∧ BookedOnce account := by
  have computed : ((proposedVariation ++ [brokerReport "B" 20, brokerReport "C" 30]).foldlM
      (sendChecked fun account sent => decide (sent.Awaited account)) { book := Book.new "ACC-1" "P-1" }).toOption.any
        (fun account => account.taken.any (Taken.reports (keyOf variation))) = true := by
    decide +kernel
  cases folded : (proposedVariation ++ [brokerReport "B" 20, brokerReport "C" 30]).foldlM
      (sendChecked fun account sent => decide (sent.Awaited account)) { book := Book.new "ACC-1" "P-1" } with
  | error out =>
    rw [folded] at computed
    cases computed
  | ok account =>
    rw [folded] at computed
    have run := (Run.of_foldlM folded).imp fun before sent after sentOn =>
      (show sent.Awaited before ∧ Step before sent after from
        ⟨of_decide_eq_true (sendChecked_ok sentOn).1, (sendChecked_ok sentOn).2⟩)
    exact ⟨account, run.forget, computed, booked_once_of_run run⟩

/-- The report of a released proposal comes late, and both move it. -/
theorem released_variation_reported :
    ¬ ∀ (accountId partition : String) (sents : List Sent) (account : Account),
      Run Step { book := Book.new accountId partition } sents account → BookedOnce account := by
  intro claim
  have computed : ((proposedVariation ++ [operationsRelease "B" "LCE-A0" 20, brokerReport "C" 30]).foldlM
      (sendChecked fun _ _ => true) { book := Book.new "ACC-1" "P-1" }).toOption.any (fun account =>
        account.taken.any (Taken.releases (keyOf variation)) && account.taken.any (Taken.reports (keyOf variation))) =
      true := by
    decide +kernel
  cases folded : (proposedVariation ++ [operationsRelease "B" "LCE-A0" 20, brokerReport "C" 30]).foldlM
      (sendChecked fun _ _ => true) { book := Book.new "ACC-1" "P-1" } with
  | error out =>
    rw [folded] at computed
    cases computed
  | ok account =>
    rw [folded] at computed
    obtain ⟨released, reported⟩ := Bool.and_eq_true_iff.mp computed
    have run := (Run.of_foldlM folded).imp fun before sent after sentOn => (sendChecked_ok sentOn).2
    have never := (claim _ _ _ _ run).neverBoth (keyOf variation) (by decide) released
    rw [reported] at never
    cases never

end MeridianCore.Bor.Lifecycle
