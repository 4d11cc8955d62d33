import MeridianCore.Runtime.Lease
import Mathlib

/-! Members of a component looking at one lease at once: reads and writes on their way to the API, answered late, lost, or taken
after the member gave up waiting. Whatever the order, no two members hold the lease within their deadlines at once. -/

namespace MeridianCore.Lease

/-- What a member is at. -/
inductive Phase where
  | idle
  | reading (now : Nat) (wallNs : Int)
  /-- The API has answered the read; the answer is on its way. -/
  | served (now : Nat) (wallNs : Int) (answer : Option Record)
  | writing (now : Nat) (asked : Asks) (request : Nat)
  | answered (now : Nat) (asked : Asks) (answer : Wrote)
  | releasing (request : Nat)

structure Member where
  elector : Elector
  phase : Phase := .idle

/-- A write on its way to the API, conditional on a version, or on there being no lease. -/
structure Request where
  id : Nat
  sender : String
  expects : Option Nat
  record : Record
  deriving DecidableEq

/-- The lease as the API has it, and the writes on their way to it. -/
structure Wire where
  now : Nat := 0
  lease : Option Record := none
  /-- How many writes the lease has had: the version of the last. -/
  version : Nat := 0
  writtenAt : Nat := 0
  requests : List Request := []
  sent : Nat := 0

namespace Wire

/-- A write sent. -/
def send (wire : Wire) (sender : String) (expects : Option Nat) (record : Record) : Wire :=
  { wire with requests := wire.requests ++ [⟨wire.sent, sender, expects, record⟩], sent := wire.sent + 1 }

/-- Whether the lease is as a write expects it. -/
def expected (wire : Wire) (request : Request) : Bool :=
  match request.expects with
  | none => wire.lease.isNone
  | some version => wire.lease.any fun record => record.resourceVersion == version

/-- The API takes a write, or answers that the lease was written first. -/
def apply (wire : Wire) (request : Request) : Wire × Wrote :=
  if wire.expected request then
    ({ wire with
      lease := some { request.record with resourceVersion := wire.version + 1 }
      version := wire.version + 1
      writtenAt := wire.now
      requests := wire.requests.erase request }, .done (wire.version + 1))
  else ({ wire with requests := wire.requests.erase request }, .conflict)

end Wire

/-- The lease, and each member's own view of it. -/
structure State where
  wire : Wire := {}
  members : String → Member

/-- What every member of a component is configured with. -/
structure Shared where
  name : String
  renew : Nat
  duration : Nat

def Shared.settings (shared : Shared) (holder : String) : Settings := ⟨shared.name, holder, shared.renew, shared.duration⟩

namespace State

def start (shared : Shared) : State := { members := fun holder => { elector := { settings := shared.settings holder } } }

/-- One member changed. -/
def set (state : State) (holder : String) (member : Member) : State :=
  { state with members := fun other => if other = holder then member else state.members other }

/-- A member's write sent. -/
def send (state : State) (holder : String) (expects : Option Nat) (record : Record) : State :=
  { state with wire := state.wire.send holder expects record }

end State

/-- A write's answer reaches the member that waits for it, if it still does. -/
def Member.answer (member : Member) (request : Nat) (answer : Wrote) : Member :=
  match member.phase with
  | .writing now asked id => if id = request then { member with phase := .answered now asked answer } else member
  | _ => member

inductive Event where
  /-- A member starts a look, the wall clock at a time. -/
  | look (holder : String) (wallNs : Int)
  /-- The API answers a member's read. -/
  | serve (holder : String)
  /-- A member takes its read's answer, and writes or waits. -/
  | hear (holder : String)
  /-- The API takes a write that was sent. -/
  | apply (request : Request)
  /-- A member takes its write's answer. -/
  | take (holder : String)
  /-- A member's look fails: its request timed out, or its answer was lost. -/
  | fail (holder : String)
  /-- A member gives its lease up. -/
  | release (holder : String) (wallNs : Int)
  /-- A member is done giving its lease up, answered or not. -/
  | released (holder : String)

/-- One event at a time. -/
def step (state : State) (event : Event) : Option State :=
  match event with
  | .look holder wallNs =>
    let member := state.members holder
    match member.phase with
    | .idle => if holder.isEmpty then none else some (state.set holder { member with phase := .reading state.wire.now wallNs })
    | _ => none
  | .serve holder =>
    let member := state.members holder
    match member.phase with
    | .reading now wallNs => some (state.set holder { member with phase := .served now wallNs state.wire.lease })
    | _ => none
  | .hear holder =>
    let member := state.members holder
    match member.phase with
    | .served now wallNs answer =>
      let (elector, asks) := member.elector.read now wallNs answer
      match asks with
      | .create record => some ((state.set holder ⟨elector, .writing now asks state.wire.sent⟩).send holder none record)
      | .update record _ =>
        some ((state.set holder ⟨elector, .writing now asks state.wire.sent⟩).send holder (some record.resourceVersion) record)
      | .waits _ => some (state.set holder ⟨elector, .idle⟩)
    | _ => none
  | .apply request =>
    if request ∈ state.wire.requests then
      let (wire, wrote) := state.wire.apply request
      some ({ state with wire }.set request.sender ((state.members request.sender).answer request.id wrote))
    else none
  | .take holder =>
    let member := state.members holder
    match member.phase with
    | .answered now asked answer => some (state.set holder ⟨(member.elector.written now asked answer).1, .idle⟩)
    | _ => none
  | .fail holder =>
    let member := state.members holder
    match member.phase with
    | .releasing _ => none
    | _ => some (state.set holder { member with phase := .idle })
  | .release holder wallNs =>
    let member := state.members holder
    match member.phase with
    | .idle =>
      match member.elector.releases wallNs with
      | none => some state
      | some record =>
        some ((state.set holder { member with phase := .releasing state.wire.sent }).send holder (some record.resourceVersion) record)
    | _ => none
  | .released holder =>
    let member := state.members holder
    match member.phase with
    | .releasing _ => some (state.set holder ⟨member.elector.released, .idle⟩)
    | _ => none

/-- An event at a time no earlier than the last. -/
def stepAt (state : State) (at_ : Nat) (event : Event) : Option State :=
  if state.wire.now ≤ at_ then step { state with wire.now := at_ } event else none

/-- A read is answered within one renewal of its look's instant: a request lasts no longer. -/
def prompt (shared : Shared) (state : State) (at_ : Nat) (event : Event) : Bool :=
  match event with
  | .serve holder =>
    match (state.members holder).phase with
    | .reading now _ => decide (at_ ≤ now + shared.renew)
    | _ => true
  | _ => true

/-- What a component's members come to, in any order of their events. -/
inductive Reaches (shared : Shared) : State → Prop where
  | start : Reaches shared (State.start shared)
  | step {state next : State} (at_ : Nat) (event : Event) (reaches : Reaches shared state) (prompt : prompt shared state at_ event = true)
      (stepped : stepAt state at_ event = some next) : Reaches shared next

/-- Whether a member counts itself the holder at a time: it renewed no longer ago than its deadline, and has not given the lease up. -/
def Holds (state : State) (holder : String) (time : Nat) : Prop :=
  (∀ request, (state.members holder).phase ≠ .releasing request) ∧
    ∃ renewed, (state.members holder).elector.renewedAt = some renewed ∧
      time < renewed + (state.members holder).elector.settings.renewDeadline

/-- The record a look writes. -/
def Asks.record : Asks → Option Record
  | .create record => some record
  | .update record _ => some record
  | .waits _ => none

section Invariant

variable (shared : Shared)

/-- A member's claim since an instant: the lease says it holds it, written no earlier; or the lease was written past its deadline. -/
def Claims (wire : Wire) (holder : String) (since : Nat) : Prop :=
  holder ≠ "" ∧ ∃ record, wire.lease = some record ∧
    ((record.holder = holder ∧ since ≤ wire.writtenAt) ∨ since + (shared.duration - shared.renew) ≤ wire.writtenAt)

/-- What a member knows of a record it first read at an instant: where it is still the lease, it was not written long after that
instant, unless by the member itself. -/
structure Seen (wire : Wire) (holder : String) (record : Record) (at_ : Nat) : Prop where
  version : record.resourceVersion ≤ wire.version
  latest : record.resourceVersion = wire.version →
    wire.lease = some record ∧ (record.holder = holder ∨ wire.writtenAt ≤ at_ + shared.renew)

/-- Whether a member counts itself the holder, or is about to. -/
def Claiming (member : Member) : Prop :=
  member.elector.renewedAt ≠ none ∨ ∃ now asked version, member.phase = .answered now asked (.done version)

/-- A write that takes or renews the lease: where it would succeed, the lease is free, the member's own, or past its deadline. -/
structure Taking (wire : Wire) (request : Request) : Prop where
  own : request.record.holder = request.sender
  lasts : request.record.durationSeconds = shared.duration / secondNs
  due : ∀ current, wire.lease = some current → request.expects = some wire.version →
    (current.holder = "" ∨ current.holder = request.sender ∨ wire.writtenAt + (shared.duration - shared.renew) ≤ wire.now) ∧
      request.record.transitions = current.transitions + if current.holder = request.sender then 0 else 1

/-- A write that gives the lease up: where it would succeed, the lease is the member's, and the member claims it no more. -/
structure Leaving (wire : Wire) (member : Member) (request : Request) : Prop where
  free : request.record.holder = ""
  conditional : request.expects ≠ none
  due : ∀ current, wire.lease = some current → request.expects = some wire.version →
    current.holder = request.sender ∧ request.record.transitions = current.transitions
  quiet : member.phase = .releasing request.id ∨ (∀ version ∈ request.expects, version < wire.version) ∨ ¬ Claiming member

structure RequestInv (wire : Wire) (member : Member) (request : Request) : Prop where
  id : request.id < wire.sent
  named : request.sender ≠ ""
  version : ∀ version ∈ request.expects, version ≤ wire.version
  kind : Taking shared wire request ∨ Leaving wire member request

def PhaseInv (wire : Wire) (holder : String) : Phase → Prop
  | .idle => True
  | .reading now _ => holder ≠ "" ∧ now ≤ wire.now
  | .served now _ answer => holder ≠ "" ∧ now ≤ wire.now ∧ ∀ record ∈ answer, Seen shared wire holder record now
  | .writing now asked id => now ≤ wire.now ∧ id < wire.sent ∧ ∀ request ∈ wire.requests, request.id = id →
      request.sender = holder ∧ request.record.holder = holder ∧ asked.record = some request.record
  | .answered now asked answer => ∀ version, answer = .done version → Claims shared wire holder now ∧
      ∀ record ∈ asked.record, record.holder = holder ∧ Seen shared wire holder { record with resourceVersion := version } now
  | .releasing id => id < wire.sent

structure MemberInv (wire : Wire) (holder : String) (member : Member) : Prop where
  settings : member.elector.settings = shared.settings holder
  observed : ∀ seen at_, member.elector.observed = some (seen, at_) → holder ≠ "" ∧ Seen shared wire holder seen at_
  renewed : ∀ since, member.elector.renewedAt = some since → (∀ request, member.phase ≠ .releasing request) →
    Claims shared wire holder since
  phase : PhaseInv shared wire holder member.phase

structure Inv (state : State) : Prop where
  written : state.wire.writtenAt ≤ state.wire.now
  lease : ∀ record, state.wire.lease = some record → record.resourceVersion = state.wire.version ∧
    (record.holder ≠ "" → record.durationSeconds = shared.duration / secondNs)
  requests : ∀ request ∈ state.wire.requests, RequestInv shared state.wire (state.members request.sender) request
  members : ∀ holder, MemberInv shared state.wire holder (state.members holder)

end Invariant

section Onward

variable {shared : Shared} {wire wire' : Wire} {holder : String} {member : Member} {request : Request}

/-- What is on the wire moves on without the lease being written: time passes, writes are sent, or one is refused. -/
structure Onward (wire wire' : Wire) : Prop where
  lease : wire'.lease = wire.lease
  version : wire'.version = wire.version
  writtenAt : wire'.writtenAt = wire.writtenAt
  now : wire.now ≤ wire'.now
  sent : wire.sent ≤ wire'.sent
  requests : ∀ request ∈ wire'.requests, request ∈ wire.requests ∨ wire.sent ≤ request.id

theorem Onward.refl (wire : Wire) : Onward wire wire := ⟨rfl, rfl, rfl, le_rfl, le_rfl, fun _ => .inl⟩

theorem onward_send (wire : Wire) (sender : String) (expects : Option Nat) (record : Record) :
    Onward wire (wire.send sender expects record) where
  lease := rfl
  version := rfl
  writtenAt := rfl
  now := le_rfl
  sent := Nat.le_succ wire.sent
  requests := by
    intro request among
    rcases List.mem_append.mp among with earlier | last
    · exact .inl earlier
    · rw [List.mem_singleton.mp last]
      exact .inr le_rfl

theorem Claims.onward {since : Nat} (claims : Claims shared wire holder since) (onward : Onward wire wire') :
    Claims shared wire' holder since := by
  unfold Claims at claims ⊢
  rwa [onward.lease, onward.writtenAt]

theorem Seen.onward {record : Record} {at_ : Nat} (seen : Seen shared wire holder record at_) (onward : Onward wire wire') :
    Seen shared wire' holder record at_ where
  version := by
    rw [onward.version]
    exact seen.version
  latest := by
    rw [onward.version, onward.lease, onward.writtenAt]
    exact seen.latest

theorem Taking.onward (taking : Taking shared wire request) (onward : Onward wire wire') : Taking shared wire' request where
  own := taking.own
  lasts := taking.lasts
  due := by
    rw [onward.version, onward.lease, onward.writtenAt]
    intro current held expects
    obtain ⟨free | own | past, changes⟩ := taking.due current held expects
    · exact ⟨.inl free, changes⟩
    · exact ⟨.inr (.inl own), changes⟩
    · exact ⟨.inr (.inr (past.trans onward.now)), changes⟩

theorem Leaving.onward (leaving : Leaving wire member request) (onward : Onward wire wire') : Leaving wire' member request where
  free := leaving.free
  conditional := leaving.conditional
  due := by
    rw [onward.version, onward.lease]
    exact leaving.due
  quiet := by
    rw [onward.version]
    exact leaving.quiet

theorem RequestInv.onward (inv : RequestInv shared wire member request) (onward : Onward wire wire') :
    RequestInv shared wire' member request where
  id := lt_of_lt_of_le inv.id onward.sent
  named := inv.named
  version := by
    rw [onward.version]
    exact inv.version
  kind := inv.kind.imp (fun taking => taking.onward onward) fun leaving => leaving.onward onward

theorem PhaseInv.onward {phase : Phase} (inv : PhaseInv shared wire holder phase) (onward : Onward wire wire') :
    PhaseInv shared wire' holder phase := by
  cases phase with
  | idle => trivial
  | reading now wallNs => exact ⟨inv.1, inv.2.trans onward.now⟩
  | served now wallNs answer => exact ⟨inv.1, inv.2.1.trans onward.now, fun record among => (inv.2.2 record among).onward onward⟩
  | writing now asked id =>
    obtain ⟨before, sent, own⟩ := inv
    refine ⟨before.trans onward.now, lt_of_lt_of_le sent onward.sent, fun request among same => ?_⟩
    rcases onward.requests request among with earlier | later
    · exact own request earlier same
    · omega
  | answered now asked answer =>
    intro version done
    obtain ⟨claims, seen⟩ := inv version done
    exact ⟨claims.onward onward, fun record among => ⟨(seen record among).1, (seen record among).2.onward onward⟩⟩
  | releasing id => exact lt_of_lt_of_le inv onward.sent

theorem MemberInv.onward (inv : MemberInv shared wire holder member) (onward : Onward wire wire') :
    MemberInv shared wire' holder member where
  settings := inv.settings
  observed := fun seen at_ noted => ⟨(inv.observed seen at_ noted).1, (inv.observed seen at_ noted).2.onward onward⟩
  renewed := fun since renewed quiet => (inv.renewed since renewed quiet).onward onward
  phase := inv.phase.onward onward

theorem State.set_members (state : State) (holder other : String) (member : Member) :
    (state.set holder member).members other = if other = holder then member else state.members other := rfl

variable {state : State}

/-- One member changes, and sends at most one write: nobody else's view moves. -/
theorem Inv.change {member' : Member} (inv : Inv shared state) (onward : Onward state.wire wire')
    (own : MemberInv shared wire' holder member')
    (quiet : (∀ id, (state.members holder).phase ≠ .releasing id) ∧ (Claiming member' → Claiming (state.members holder)) ∨
      ¬ Claiming member')
    (fresh : ∀ request ∈ wire'.requests, request ∉ state.wire.requests → request.sender = holder ∧ RequestInv shared wire' member' request) :
    Inv shared ({ state with wire := wire' }.set holder member') where
  written := by
    change wire'.writtenAt ≤ wire'.now
    rw [onward.writtenAt]
    exact inv.written.trans onward.now
  lease := by
    change ∀ record, wire'.lease = some record → record.resourceVersion = wire'.version ∧ _
    rw [onward.lease, onward.version]
    exact inv.lease
  requests := by
    intro request among
    rw [State.set_members]
    change request ∈ wire'.requests at among
    by_cases old : request ∈ state.wire.requests
    · have before := (inv.requests request old).onward onward
      by_cases same : request.sender = holder
      · rw [if_pos same]
        refine ⟨before.id, before.named, before.version, before.kind.imp_right fun leaving => ⟨leaving.free, leaving.conditional, leaving.due, ?_⟩⟩
        have quiet' := leaving.quiet
        rw [same] at quiet'
        rcases quiet with ⟨notReleasing, claims⟩ | notClaiming
        · rcases quiet' with releasing | past | none'
          · exact absurd releasing (notReleasing request.id)
          · exact .inr (.inl past)
          · exact .inr (.inr fun claiming => none' (claims claiming))
        · exact .inr (.inr notClaiming)
      · rw [if_neg same]
        exact before
    · obtain ⟨same, made⟩ := fresh request among old
      rw [if_pos same]
      exact made
  members := by
    intro other
    rw [State.set_members]
    by_cases same : other = holder
    · rw [if_pos same, same]
      exact own
    · rw [if_neg same]
      exact (inv.members other).onward onward

theorem Inv.later {at_ : Nat} (inv : Inv shared state) (later : state.wire.now ≤ at_) :
    Inv shared { state with wire.now := at_ } := by
  have onward : Onward state.wire { state.wire with now := at_ } := ⟨rfl, rfl, rfl, later, le_rfl, fun _ => .inl⟩
  exact ⟨inv.written.trans later, inv.lease, fun request among => (inv.requests request among).onward onward,
    fun holder => (inv.members holder).onward onward⟩

end Onward

section Look

variable (elector : Elector) (now : Nat) (wallNs : Int) (current : Record) (seenAt : Nat)

/-- What a look notes is the record it read, first seen then or as it was noted before. -/
theorem note_cases : ((elector.note now current).1.resourceVersion = current.resourceVersion) ∧
    (elector.note now current = (current, now) ∨ elector.observed = some (elector.note now current)) := by
  unfold Elector.note
  cases noted : elector.observed with
  | none => exact ⟨rfl, .inl rfl⟩
  | some observed =>
    obtain ⟨seen, at_⟩ := observed
    dsimp only
    by_cases unchanged : sameSpec seen current = true
    · rw [if_pos unchanged]
      refine ⟨?_, .inr rfl⟩
      unfold sameSpec at unchanged
      simp only [Bool.and_eq_true, beq_iff_eq] at unchanged
      exact unchanged.1.1.1.1
    · rw [if_neg unchanged]
      exact ⟨rfl, .inl rfl⟩

/-- What a look writes over the lease it read: a record of its own, where the lease is free, its own, or has not changed for as
long as it lasts. -/
structure Writes (elector : Elector) (now : Nat) (current : Record) (seenAt : Nat) (record : Record) : Prop where
  holder : record.holder = elector.settings.holder
  lasts : record.durationSeconds = elector.settings.duration / secondNs
  version : record.resourceVersion = current.resourceVersion
  transitions : record.transitions = current.transitions + if current.holder = elector.settings.holder then 0 else 1
  due : current.holder = "" ∨ current.holder = elector.settings.holder ∨ max current.durationSeconds 1 * secondNs ≤ now - seenAt

theorem asks_cases : (∃ standing, elector.asks now wallNs current seenAt = .waits standing) ∨
    ∃ record, elector.asks now wallNs current seenAt = .update record current ∧ Writes elector now current seenAt record := by
  unfold Elector.asks
  dsimp only
  by_cases waits : (!current.holder.isEmpty && !(current.holder == elector.settings.holder) &&
      decide (now - seenAt < max current.durationSeconds 1 * secondNs)) = true
  · rw [if_pos waits]
    exact .inl ⟨_, rfl⟩
  · rw [if_neg waits]
    refine .inr ⟨_, rfl, rfl, rfl, rfl, ?_, ?_⟩
    · by_cases mine : current.holder = elector.settings.holder <;> simp [mine]
    · rw [Bool.and_eq_true, Bool.and_eq_true, Bool.not_eq_true', Bool.not_eq_true', decide_eq_true_eq, beq_eq_false_iff_ne,
        not_and_or, not_and_or, not_not, not_lt, Bool.not_eq_false, String.isEmpty_iff, or_assoc] at waits
      exact waits

end Look

section Events

variable {shared : Shared} {state : State} {holder : String} {now : Nat} {wallNs : Int}

/-- A member sends a write that takes or renews the lease. -/
theorem Inv.sends {elector : Elector} {asked : Asks} {expects : Option Nat} {record : Record} (inv : Inv shared state)
    (notReleasing : ∀ id, (state.members holder).phase ≠ .releasing id)
    (kept : elector.renewedAt = (state.members holder).elector.renewedAt)
    (settings : elector.settings = shared.settings holder)
    (observed : ∀ seen at_, elector.observed = some (seen, at_) → holder ≠ "" ∧ Seen shared state.wire holder seen at_)
    (before : now ≤ state.wire.now) (named : holder ≠ "") (writes : asked.record = some record)
    (version : ∀ version ∈ expects, version ≤ state.wire.version)
    (taking : Taking shared state.wire ⟨state.wire.sent, holder, expects, record⟩) :
    Inv shared ((state.set holder ⟨elector, .writing now asked state.wire.sent⟩).send holder expects record) := by
  have onward := onward_send state.wire holder expects record
  refine inv.change onward ?_ (.inl ⟨notReleasing, fun claiming => ?_⟩) fun request among new => ?_
  · refine ⟨settings, fun seen at_ noted => ⟨named, (observed seen at_ noted).2.onward onward⟩, fun since renewed _ => ?_, ?_⟩
    · exact ((inv.members holder).renewed since (kept.symm.trans renewed) notReleasing).onward onward
    · refine ⟨before, Nat.lt_succ_self _, fun request among same => ?_⟩
      rcases List.mem_append.mp among with earlier | last
      · exact absurd same (inv.requests request earlier).id.ne
      · rw [List.mem_singleton.mp last]
        exact ⟨rfl, taking.own, writes⟩
  · rcases claiming with renewed | ⟨_, _, _, answered⟩
    · exact .inl (kept ▸ renewed)
    · cases answered
  · rcases List.mem_append.mp among with earlier | last
    · exact absurd earlier new
    · rw [List.mem_singleton.mp last]
      exact ⟨rfl, Nat.lt_succ_self _, named, fun expected held => version expected held, .inl (taking.onward onward)⟩

/-- A member takes its read's answer. -/
theorem Inv.hear {next : State} (inv : Inv shared state) (whole : secondNs ∣ shared.duration) (least : shared.renew ≤ shared.duration)
    (stepped : step state (.hear holder) = some next) : Inv shared next := by
  have own := inv.members holder
  unfold step at stepped
  dsimp only at stepped
  cases phase : (state.members holder).phase with
  | served now wallNs answer =>
    rw [phase] at stepped
    dsimp only at stepped
    have at_ := own.phase
    rw [phase] at at_
    obtain ⟨named, before, seen⟩ := at_
    have notReleasing : ∀ id, (state.members holder).phase ≠ .releasing id := by
      rw [phase]
      intro id same
      cases same
    have me : (state.members holder).elector.settings = shared.settings holder := own.settings
    cases answer with
    | none =>
      obtain rfl := Option.some.inj stepped
      refine inv.sends notReleasing rfl me own.observed before named rfl (by simp) ⟨?_, ?_, ?_⟩
      · exact congrArg Settings.holder me
      · exact congrArg (fun settings => settings.duration / secondNs) me
      · intro current held expects
        cases expects
    | some current =>
      have known := seen current rfl
      obtain ⟨noted, first⟩ := note_cases (state.members holder).elector now current
      have observed : Seen shared state.wire holder ((state.members holder).elector.note now current).1
          ((state.members holder).elector.note now current).2 := by
        rcases first with same | earlier
        · rw [same]
          exact known
        · exact (own.observed _ _ earlier).2
      unfold Elector.read at stepped
      dsimp only at stepped
      rcases asks_cases (state.members holder).elector now wallNs current ((state.members holder).elector.note now current).2 with
        ⟨standing, waits⟩ | ⟨record, updates, writes⟩
      · rw [waits] at stepped
        obtain rfl := Option.some.inj stepped
        refine inv.change (.refl _) ⟨me, fun seen at_ same => ?_, fun since renewed _ => own.renewed since renewed notReleasing, trivial⟩
          (.inl ⟨notReleasing, fun claiming => ?_⟩) fun request among new => absurd among new
        · rw [Option.some.injEq] at same
          rw [same] at observed
          exact ⟨named, observed⟩
        · rcases claiming with renewed | ⟨_, _, _, answered⟩
          · exact .inl renewed
          · cases answered
      · rw [updates] at stepped
        obtain rfl := Option.some.inj stepped
        have mine : (state.members holder).elector.settings.holder = holder := congrArg Settings.holder me
        refine inv.sends notReleasing rfl me (fun seen at_ same => ?_) before named rfl (fun version same => ?_) ⟨?_, ?_, ?_⟩
        · rw [Option.some.injEq] at same
          rw [same] at observed
          exact ⟨named, observed⟩
        · rw [← Option.some.inj same, writes.version]
          exact known.version
        · exact writes.holder.trans mine
        · exact writes.lasts.trans (congrArg (fun settings => settings.duration / secondNs) me)
        · intro leased held expects
          have latest : current.resourceVersion = state.wire.version := writes.version.symm.trans (Option.some.inj expects)
          obtain rfl : leased = current := Option.some.inj (held.symm.trans (known.latest latest).1)
          refine ⟨?_, by rw [writes.transitions, mine]⟩
          rcases writes.due with free | same | past
          · exact .inl free
          · exact .inr (.inl (same.trans mine))
          · by_cases free : leased.holder = ""
            · exact .inl free
            · by_cases same : leased.holder = holder
              · exact .inr (.inl same)
              · have lasts := (inv.lease leased held).2 free
                obtain ⟨sameLease, recent⟩ := observed.latest (noted.trans latest)
                have sameRecord : ((state.members holder).elector.note now leased).1 = leased :=
                  Option.some.inj (sameLease.symm.trans held)
                rw [sameRecord] at recent
                have written := recent.resolve_left same
                obtain ⟨seconds, duration⟩ := whole
                have positive : 0 < secondNs := by decide
                rw [lasts, duration, Nat.mul_div_cancel_left _ positive] at past
                have lapse : secondNs * seconds ≤ max seconds 1 * secondNs := by
                  rw [Nat.mul_comm]
                  exact Nat.mul_le_mul_right _ (le_max_left _ _)
                have some' : secondNs ≤ max seconds 1 * secondNs := Nat.le_mul_of_pos_left _ (by omega)
                rw [← duration] at lapse
                omega
  | _ =>
    rw [phase] at stepped
    cases stepped

/-- A write that succeeds over a lease expected its version. -/
theorem Inv.expects {request : Request} {current : Record} (inv : Inv shared state) (expected : state.wire.expected request = true)
    (held : state.wire.lease = some current) : request.expects = some state.wire.version := by
  unfold Wire.expected at expected
  cases stated : request.expects with
  | none =>
    rw [stated, held] at expected
    cases expected
  | some version =>
    rw [stated, held] at expected
    have same : current.resourceVersion = version := by simpa using expected
    rw [← same, (inv.lease current held).1]

/-- A claim stands when the lease is written, but for one the member itself gives up. -/
theorem Claims.written {request : Request} {since : Nat} (inv : Inv shared state) (among : request ∈ state.wire.requests)
    (expected : state.wire.expected request = true) (claims : Claims shared state.wire holder since)
    (own : Claiming (state.members holder) ∧ ∀ id, (state.members holder).phase ≠ .releasing id) :
    Claims shared (state.wire.apply request).1 holder since := by
  obtain ⟨named, current, held, since_⟩ := claims
  have applied : (state.wire.apply request).1.lease = some { request.record with resourceVersion := state.wire.version + 1 } ∧
      (state.wire.apply request).1.writtenAt = state.wire.now := by
    unfold Wire.apply
    rw [if_pos expected]
    exact ⟨rfl, rfl⟩
  refine ⟨named, _, applied.1, ?_⟩
  rw [applied.2]
  rcases since_ with ⟨mine, recent⟩ | past
  · have expects := inv.expects expected held
    rcases (inv.requests request among).kind with taking | leaving
    · rcases (taking.due current held expects).1 with free | same | late
      · exact absurd (mine.symm.trans free) named
      · refine .inl ⟨?_, recent.trans inv.written⟩
        exact taking.own.trans (same.symm.trans mine)
      · exact .inr (by omega)
    · have sender : request.sender = holder := (leaving.due current held expects).1.symm.trans mine
      have quiet := leaving.quiet
      rw [sender] at quiet
      rcases quiet with releasing | older | none'
      · exact absurd releasing (own.2 request.id)
      · exact absurd (older state.wire.version expects) (lt_irrefl _)
      · exact absurd own.1 none'
  · exact .inr (past.trans inv.written)

/-- What a member read before is an older version once the lease is written. -/
theorem Seen.written {request : Request} {record : Record} {at_ : Nat} (expected : state.wire.expected request = true)
    (seen : Seen shared state.wire holder record at_) : Seen shared (state.wire.apply request).1 holder record at_ := by
  have version : (state.wire.apply request).1.version = state.wire.version + 1 := by
    unfold Wire.apply
    rw [if_pos expected]
  have older := seen.version
  refine ⟨by omega, fun latest => ?_⟩
  omega

theorem apply_refused {request : Request} (refused : ¬ state.wire.expected request = true) :
    state.wire.apply request = ({ state.wire with requests := state.wire.requests.erase request }, .conflict) := by
  unfold Wire.apply
  rw [if_neg refused]

theorem apply_done {request : Request} (expected : state.wire.expected request = true) :
    state.wire.apply request = ({ state.wire with
      lease := some { request.record with resourceVersion := state.wire.version + 1 }
      version := state.wire.version + 1
      writtenAt := state.wire.now
      requests := state.wire.requests.erase request }, .done (state.wire.version + 1)) := by
  unfold Wire.apply
  rw [if_pos expected]

/-- What the API answers reaches a member that waits for it, and leaves any other as it is. -/
theorem answer_cases (member : Member) (request : Nat) (answer : Wrote) : member.answer request answer = member ∨
    ∃ now asked, member.phase = .writing now asked request ∧ member.answer request answer = ⟨member.elector, .answered now asked answer⟩ := by
  unfold Member.answer
  cases phase : member.phase with
  | writing now asked id =>
    dsimp only
    by_cases same : id = request
    · rw [if_pos same]
      exact .inr ⟨now, asked, by rw [same], rfl⟩
    · rw [if_neg same]
      exact .inl rfl
  | _ => exact .inl rfl

theorem Inv.refused {request : Request} (inv : Inv shared state) (refused : ¬ state.wire.expected request = true) :
    Inv shared ({ state with wire := (state.wire.apply request).1 }.set request.sender
      ((state.members request.sender).answer request.id (state.wire.apply request).2)) := by
  rw [apply_refused refused]
  have own := inv.members request.sender
  have onward : Onward state.wire { state.wire with requests := state.wire.requests.erase request } :=
    ⟨rfl, rfl, rfl, le_rfl, le_rfl, fun other among => .inl (List.mem_of_mem_erase among)⟩
  have fresh (member : Member) : ∀ other ∈ state.wire.requests.erase request, other ∉ state.wire.requests →
      other.sender = request.sender ∧ RequestInv shared { state.wire with requests := state.wire.requests.erase request } member other :=
    fun other among new => absurd (List.mem_of_mem_erase among) new
  rcases answer_cases (state.members request.sender) request.id .conflict with same | ⟨now, asked, phase, same⟩
  · rw [same]
    by_cases releasing : ∃ id, (state.members request.sender).phase = .releasing id
    · refine ⟨inv.written, inv.lease, fun other among => ?_, fun other => ?_⟩
      · rw [State.set_members]
        split
        · next sender =>
          rw [← sender]
          exact (inv.requests other (List.mem_of_mem_erase among)).onward onward
        · exact (inv.requests other (List.mem_of_mem_erase among)).onward onward
      · rw [State.set_members]
        split
        · next sender =>
          rw [sender]
          exact own.onward onward
        · exact (inv.members other).onward onward
    · exact inv.change onward (own.onward onward) (.inl ⟨fun id same => releasing ⟨id, same⟩, id⟩) (fresh _)
  · rw [same]
    refine inv.change onward ⟨own.settings, fun seen at_ noted => ⟨(own.observed seen at_ noted).1, (own.observed seen at_ noted).2.onward onward⟩,
      fun since renewed _ => (own.renewed since renewed fun id held => ?_).onward onward, fun version done => ?_⟩
      (.inl ⟨fun id held => ?_, fun claiming => ?_⟩) (fresh _)
    · rw [phase] at held
      cases held
    · cases done
    · rw [phase] at held
      cases held
    · rcases claiming with renewed | ⟨_, _, _, answered⟩
      · exact .inl renewed
      · cases answered

/-- The lease written: each other member's claim and what it read stand, and the writer's claim is the lease's own. -/
theorem Inv.taken {request : Request} (inv : Inv shared state) (among : request ∈ state.wire.requests)
    (expected : state.wire.expected request = true) :
    Inv shared ({ state with wire := (state.wire.apply request).1 }.set request.sender
      ((state.members request.sender).answer request.id (state.wire.apply request).2)) := by
  have member_written {other : String} {member : Member} (own : MemberInv shared state.wire other member)
      (same : member = state.members other) : MemberInv shared (state.wire.apply request).1 other member := by
    subst same
    refine ⟨own.settings, fun seen at_ noted => ⟨(own.observed seen at_ noted).1, (own.observed seen at_ noted).2.written expected⟩,
      fun since renewed quiet => ?_, ?_⟩
    · refine (own.renewed since renewed quiet).written inv among expected ⟨.inl ?_, quiet⟩
      rw [renewed]
      exact Option.some_ne_none since
    · have phase := own.phase
      rw [apply_done expected]
      cases at_ : (state.members other).phase with
      | idle => trivial
      | reading now wallNs =>
        rw [at_] at phase
        exact phase
      | served now wallNs answer =>
        rw [at_] at phase
        refine ⟨phase.1, phase.2.1, fun record held => ?_⟩
        have written := (phase.2.2 record held).written expected
        rwa [apply_done expected] at written
      | writing now asked id =>
        rw [at_] at phase
        exact ⟨phase.1, phase.2.1, fun later held => phase.2.2 later (List.mem_of_mem_erase held)⟩
      | answered now asked answer =>
        rw [at_] at phase
        intro version done
        obtain ⟨claims, seen⟩ := phase version done
        have quiet : ∀ id, (state.members other).phase ≠ .releasing id := by
          rw [at_]
          intro id same
          cases same
        have claims' := claims.written inv among expected ⟨.inr ⟨now, asked, version, by rw [at_, done]⟩, quiet⟩
        rw [apply_done expected] at claims'
        refine ⟨claims', fun record held => ⟨(seen record held).1, ?_⟩⟩
        have written := (seen record held).2.written expected
        rwa [apply_done expected] at written
      | releasing id =>
        rw [at_] at phase
        exact phase
  have inv' := inv.requests request among
  have wrote : (state.wire.apply request).2 = .done (state.wire.version + 1) := by rw [apply_done expected]
  rw [wrote]
  refine ⟨?_, ?_, fun other held => ?_, fun other => ?_⟩
  · change (state.wire.apply request).1.writtenAt ≤ (state.wire.apply request).1.now
    rw [apply_done expected]
  · change ∀ record, (state.wire.apply request).1.lease = some record → record.resourceVersion = (state.wire.apply request).1.version ∧ _
    rw [apply_done expected]
    intro record same
    obtain rfl := Option.some.inj same
    refine ⟨rfl, fun named => ?_⟩
    rcases inv'.kind with taking | leaving
    · exact taking.lasts
    · exact absurd leaving.free named
  · have earlier : other ∈ state.wire.requests := by
      change other ∈ (state.wire.apply request).1.requests at held
      rw [apply_done expected] at held
      exact List.mem_of_mem_erase held
    have before := inv.requests other earlier
    have version : (state.wire.apply request).1.version = state.wire.version + 1 := by rw [apply_done expected]
    have sent : (state.wire.apply request).1.sent = state.wire.sent := by rw [apply_done expected]
    have older : ∀ expected ∈ other.expects, expected < (state.wire.apply request).1.version := by
      intro version' stated
      have le := before.version version' stated
      omega
    refine ⟨?_, before.named, fun version' stated => (older version' stated).le, ?_⟩
    · change other.id < (state.wire.apply request).1.sent
      rw [sent]
      exact before.id
    · rcases before.kind with taking | leaving
      · refine .inl ⟨taking.own, taking.lasts, fun current _ expects => ?_⟩
        exact absurd (older _ expects) (lt_irrefl _)
      · refine .inr ⟨leaving.free, leaving.conditional, fun current _ expects => ?_, .inr (.inl older)⟩
        exact absurd (older _ expects) (lt_irrefl _)
  · rw [State.set_members]
    change MemberInv shared (state.wire.apply request).1 other _
    split
    · next sender =>
      subst sender
      rcases answer_cases (state.members request.sender) request.id (.done (state.wire.version + 1)) with
        same | ⟨now, asked, phase, same⟩
      · rw [same]
        exact member_written (inv.members request.sender) rfl
      · rw [same]
        have own := inv.members request.sender
        have written := member_written own rfl
        have at_ := own.phase
        rw [phase] at at_
        obtain ⟨before, -, sent⟩ := at_
        obtain ⟨-, mine, writes⟩ := sent request among rfl
        have notReleasing : ∀ id, (state.members request.sender).phase ≠ .releasing id := by
          rw [phase]
          intro id same
          cases same
        refine ⟨own.settings, written.observed, fun since renewed _ => written.renewed since renewed notReleasing, fun version done => ?_⟩
        obtain rfl := Wrote.done.inj done
        rw [apply_done expected]
        refine ⟨⟨inv'.named, _, rfl, .inl ⟨mine, before⟩⟩, fun record held => ?_⟩
        obtain rfl := Option.some.inj (writes.symm.trans held)
        exact ⟨mine, le_rfl, fun _ => ⟨rfl, .inl mine⟩⟩
    · exact member_written (inv.members other) rfl

/-- A member moves on to a phase in which nothing is claimed and no write is waited for. -/
theorem Inv.moves {member : Member} (inv : Inv shared state) (notReleasing : ∀ id, (state.members holder).phase ≠ .releasing id)
    (elector : member.elector = (state.members holder).elector) (phase : PhaseInv shared state.wire holder member.phase)
    (claimed : ∀ now asked answer, member.phase ≠ .answered now asked answer) : Inv shared (state.set holder member) := by
  have own := inv.members holder
  refine inv.change (.refl _) ⟨elector ▸ own.settings, fun seen at_ noted => own.observed seen at_ (elector ▸ noted),
    fun since renewed _ => own.renewed since (elector ▸ renewed) notReleasing, phase⟩ (.inl ⟨notReleasing, fun claiming => ?_⟩)
    fun request among new => absurd among new
  rcases claiming with renewed | ⟨now, asked, version, answered⟩
  · exact .inl (elector ▸ renewed)
  · exact absurd answered (claimed now asked _)

theorem Inv.look {next : State} (inv : Inv shared state) (stepped : step state (.look holder wallNs) = some next) : Inv shared next := by
  unfold step at stepped
  dsimp only at stepped
  cases phase : (state.members holder).phase with
  | idle =>
    rw [phase] at stepped
    dsimp only at stepped
    split at stepped
    · cases stepped
    · next named =>
      obtain rfl := Option.some.inj stepped
      refine inv.moves (fun id same => ?_) rfl ⟨fun none' => named (String.isEmpty_iff.mpr none'), le_rfl⟩ fun _ _ _ same => ?_
      · rw [phase] at same
        cases same
      · cases same
  | _ =>
    rw [phase] at stepped
    cases stepped

theorem Inv.serve {next : State} (inv : Inv shared state) (least : prompt shared state state.wire.now (.serve holder) = true)
    (stepped : step state (.serve holder) = some next) : Inv shared next := by
  have own := (inv.members holder).phase
  unfold step at stepped
  unfold prompt at least
  dsimp only at stepped least
  cases phase : (state.members holder).phase with
  | reading now wallNs =>
    rw [phase] at stepped own least
    obtain rfl := Option.some.inj stepped
    have soon : state.wire.now ≤ now + shared.renew := of_decide_eq_true least
    refine inv.moves (fun id same => ?_) rfl ⟨own.1, own.2, fun record held => ?_⟩ fun _ _ _ same => ?_
    · rw [phase] at same
      cases same
    · exact ⟨((inv.lease record held).1).le, fun _ => ⟨held, .inr (inv.written.trans soon)⟩⟩
    · cases same
  | _ =>
    rw [phase] at stepped
    cases stepped

theorem Inv.fail {next : State} (inv : Inv shared state) (stepped : step state (.fail holder) = some next) : Inv shared next := by
  unfold step at stepped
  dsimp only at stepped
  by_cases releasing : ∃ id, (state.members holder).phase = .releasing id
  · obtain ⟨id, phase⟩ := releasing
    rw [phase] at stepped
    cases stepped
  · have same : some (state.set holder { state.members holder with phase := .idle }) = some next := by
      rw [← stepped]
      cases phase : (state.members holder).phase with
      | releasing id => exact absurd ⟨id, phase⟩ releasing
      | _ => rfl
    obtain rfl := Option.some.inj same
    refine inv.moves (fun id phase => releasing ⟨id, phase⟩) rfl trivial fun _ _ _ same => ?_
    cases same

/-- A member's view once its write is answered: what it noted and when it renewed are the write's, or what they were. -/
theorem written_cases (elector : Elector) (now : Nat) (asked : Asks) (answer : Wrote) :
    (elector.written now asked answer).1.settings = elector.settings ∧
      ((∃ record version, asked.record = some record ∧ answer = .done version ∧
        (elector.written now asked answer).1.observed = some ({ record with resourceVersion := version }, now) ∧
        (elector.written now asked answer).1.renewedAt = some now) ∨
      ((elector.written now asked answer).1.observed = elector.observed ∧
        ((elector.written now asked answer).1.renewedAt = elector.renewedAt ∨ (elector.written now asked answer).1.renewedAt = none))) := by
  unfold Elector.written
  cases asked with
  | waits standing => exact ⟨rfl, .inr ⟨rfl, .inl rfl⟩⟩
  | create record =>
    cases answer with
    | conflict => exact ⟨rfl, .inr ⟨rfl, .inl rfl⟩⟩
    | done version => exact ⟨rfl, .inl ⟨record, version, rfl, rfl, rfl, rfl⟩⟩
  | update record current =>
    cases answer with
    | conflict => exact ⟨rfl, .inr ⟨rfl, .inr rfl⟩⟩
    | done version =>
      dsimp only
      split
      · exact ⟨rfl, .inl ⟨record, version, rfl, rfl, rfl, rfl⟩⟩
      · exact ⟨rfl, .inl ⟨record, version, rfl, rfl, rfl, rfl⟩⟩

theorem Inv.take {next : State} (inv : Inv shared state) (stepped : step state (.take holder) = some next) : Inv shared next := by
  have own := inv.members holder
  unfold step at stepped
  dsimp only at stepped
  cases phase : (state.members holder).phase with
  | answered now asked answer =>
    rw [phase] at stepped
    obtain rfl := Option.some.inj stepped
    have notReleasing : ∀ id, (state.members holder).phase ≠ .releasing id := by
      rw [phase]
      intro id same
      cases same
    have at_ := own.phase
    rw [phase] at at_
    obtain ⟨settings, ⟨record, version, writes, done, observed, renewed⟩ | ⟨observed, renewed⟩⟩ :=
      written_cases (state.members holder).elector now asked answer
    · obtain ⟨claims, seen⟩ := at_ version done
      refine inv.change (.refl _) ⟨settings.trans own.settings, fun seen' at_' noted => ?_, fun since same _ => ?_, trivial⟩
        (.inl ⟨notReleasing, fun _ => .inr ⟨now, asked, version, by rw [phase, done]⟩⟩) fun request among new => absurd among new
      · obtain ⟨rfl, rfl⟩ := Prod.mk.inj (Option.some.inj (observed.symm.trans noted))
        exact ⟨claims.1, (seen record writes).2⟩
      · obtain rfl := Option.some.inj (renewed.symm.trans same)
        exact claims
    · refine inv.change (.refl _) ⟨settings.trans own.settings, fun seen at_' noted => own.observed seen at_' (observed.symm.trans noted),
        fun since same _ => ?_, trivial⟩ (.inl ⟨notReleasing, fun claiming => ?_⟩) fun request among new => absurd among new
      · rcases renewed with kept | none'
        · exact own.renewed since (kept.symm.trans same) notReleasing
        · cases none'.symm.trans same
      · rcases claiming with some' | ⟨_, _, _, answered⟩
        · rcases renewed with kept | none'
          · exact .inl (kept ▸ some')
          · exact absurd none' some'
        · cases answered
  | _ =>
    rw [phase] at stepped
    cases stepped

theorem Inv.release {next : State} (inv : Inv shared state) (stepped : step state (.release holder wallNs) = some next) :
    Inv shared next := by
  have own := inv.members holder
  unfold step at stepped
  dsimp only at stepped
  cases phase : (state.members holder).phase with
  | idle =>
    rw [phase] at stepped
    dsimp only at stepped
    have notReleasing : ∀ id, (state.members holder).phase ≠ .releasing id := by
      rw [phase]
      intro id same
      cases same
    cases gives : (state.members holder).elector.releases wallNs with
    | none =>
      rw [gives] at stepped
      obtain rfl := Option.some.inj stepped
      exact inv
    | some record =>
      rw [gives] at stepped
      obtain rfl := Option.some.inj stepped
      unfold Elector.releases at gives
      cases noted : (state.members holder).elector.observed with
      | none =>
        rw [noted] at gives
        cases gives
      | some observed =>
        obtain ⟨seen, at_⟩ := observed
        rw [noted] at gives
        dsimp only at gives
        split at gives
        · cases gives
        · next holds =>
          rw [not_or, not_not] at holds
          obtain rfl := Option.some.inj gives
          obtain ⟨named, known⟩ := own.observed seen at_ noted
          have mine : seen.holder = holder := holds.1.trans (congrArg Settings.holder own.settings)
          have onward := onward_send state.wire holder (some seen.resourceVersion)
            { seen with holder := "", durationSeconds := 1, renewTime := microTime wallNs }
          refine inv.change onward ⟨own.settings, fun seen at_ noted => ⟨named, (own.observed seen at_ noted).2.onward onward⟩,
            fun since renewed quiet => absurd rfl (quiet state.wire.sent), Nat.lt_succ_self _⟩
            (.inl ⟨notReleasing, fun claiming => ?_⟩) fun request among new => ?_
          · rcases claiming with renewed | ⟨_, _, _, answered⟩
            · exact .inl renewed
            · cases answered
          · rcases List.mem_append.mp among with earlier | last
            · exact absurd earlier new
            · rw [List.mem_singleton.mp last]
              refine ⟨rfl, Nat.lt_succ_self _, named, fun version same => ?_, .inr ⟨rfl, Option.some_ne_none _, fun current held expects => ?_,
                .inl rfl⟩⟩
              · rw [← Option.some.inj same]
                exact known.version
              · obtain ⟨lease, -⟩ := known.latest (Option.some.inj expects)
                obtain rfl := Option.some.inj (held.symm.trans lease)
                exact ⟨mine, rfl⟩
  | _ =>
    rw [phase] at stepped
    cases stepped

theorem Inv.released {next : State} (inv : Inv shared state) (stepped : step state (.released holder) = some next) : Inv shared next := by
  have own := inv.members holder
  unfold step at stepped
  dsimp only at stepped
  cases phase : (state.members holder).phase with
  | releasing id =>
    rw [phase] at stepped
    obtain rfl := Option.some.inj stepped
    refine inv.change (.refl _) ⟨own.settings, own.observed, fun since renewed _ => ?_, trivial⟩ (.inr fun claiming => ?_)
      fun request among new => absurd among new
    · cases renewed
    · rcases claiming with renewed | ⟨_, _, _, answered⟩
      · exact renewed rfl
      · cases answered
  | _ =>
    rw [phase] at stepped
    cases stepped

/-- Every event keeps what members and the lease know of each other. -/
theorem Inv.step {next : State} {at_ : Nat} {event : Event} (inv : Inv shared state) (whole : secondNs ∣ shared.duration)
    (least : shared.renew ≤ shared.duration) (prompt : prompt shared state at_ event = true)
    (stepped : stepAt state at_ event = some next) : Inv shared next := by
  unfold stepAt at stepped
  split at stepped
  · next later =>
    have inv := inv.later later
    cases event with
    | look holder wallNs => exact inv.look stepped
    | serve holder => exact inv.serve prompt stepped
    | hear holder => exact inv.hear whole least stepped
    | apply request =>
      unfold Lease.step at stepped
      dsimp only at stepped
      split at stepped
      · next among =>
        obtain rfl := Option.some.inj stepped
        by_cases expected : ({ state.wire with now := at_ } : Wire).expected request = true
        · exact inv.taken among expected
        · exact inv.refused expected
      · cases stepped
    | take holder => exact inv.take stepped
    | fail holder => exact inv.fail stepped
    | release holder wallNs => exact inv.release stepped
    | released holder => exact inv.released stepped
  · cases stepped

theorem Inv.start : Inv shared (State.start shared) where
  written := le_rfl
  lease := fun record held => by cases held
  requests := fun request among => by cases among
  members := fun holder => ⟨rfl, fun _ _ noted => (by cases noted), fun _ renewed => (by cases renewed), trivial⟩

theorem Reaches.inv (whole : secondNs ∣ shared.duration) (least : shared.renew ≤ shared.duration) (reaches : Reaches shared state) :
    Inv shared state := by
  induction reaches with
  | start => exact Inv.start
  | step at_ event _ prompt stepped ih => exact ih.step whole least prompt stepped

end Events

/-- Whatever the order of reads, writes, lost answers and late ones, two members never hold the lease within their deadlines at
once: where a lease lasts whole seconds, two renewals at least, and a read is answered within a renewal. -/
theorem one_holder {shared : Shared} {state : State} {a b : String} {time : Nat} (whole : secondNs ∣ shared.duration)
    (twice : 2 * shared.renew ≤ shared.duration) (reaches : Reaches shared state) (later : state.wire.now ≤ time) (apart : a ≠ b)
    (holds : Holds state a time) : ¬ Holds state b time := by
  intro other
  have inv := reaches.inv whole (by omega)
  have own (holder : String) (holds : Holds state holder time) : ∃ record, state.wire.lease = some record ∧ record.holder = holder := by
    obtain ⟨quiet, renewed, since, within⟩ := holds
    have member := inv.members holder
    obtain ⟨-, record, held, ⟨mine, -⟩ | past⟩ := member.renewed renewed since quiet
    · exact ⟨record, held, mine⟩
    · have deadline : (state.members holder).elector.settings.renewDeadline = shared.duration - shared.renew := by
        rw [member.settings, Settings.renewDeadline, Shared.settings]
        exact max_eq_left (show shared.renew ≤ shared.duration - shared.renew by omega)
      have written := inv.written
      omega
  obtain ⟨record, held, mine⟩ := own a holds
  obtain ⟨record', held', mine'⟩ := own b other
  obtain rfl := Option.some.inj (held.symm.trans held')
  exact apart (mine.symm.trans mine')

/-- Only the API's taking a write changes the lease. -/
theorem lease_kept {state next : State} {event : Event} (other : ∀ request, event ≠ .apply request)
    (stepped : step state event = some next) : next.wire.lease = state.wire.lease := by
  unfold step at stepped
  cases event with
  | apply request => exact absurd rfl (other request)
  | hear holder =>
    dsimp only at stepped
    split at stepped
    · split at stepped <;> cases stepped <;> rfl
    · cases stepped
  | release holder wallNs =>
    dsimp only at stepped
    split at stepped
    · split at stepped <;> cases stepped <;> rfl
    · cases stepped
  | look holder wallNs =>
    dsimp only at stepped
    split at stepped
    · split at stepped <;> cases stepped
      rfl
    · cases stepped
  | _ =>
    dsimp only at stepped
    split at stepped <;> cases stepped
    rfl

/-- How a lease is followed by another: renewed by its holder, given up by it, or taken by another member, once it was given up or
is past its deadline. -/
inductive Follows (shared : Shared) (current : Record) (writtenAt at_ : Nat) (later : Record) : Prop where
  | renewed (same : later.holder = current.holder) (transitions : later.transitions = current.transitions)
  | givenUp (held : current.holder ≠ "") (free : later.holder = "") (transitions : later.transitions = current.transitions)
  | taken (another : later.holder ≠ current.holder) (named : later.holder ≠ "")
      (due : current.holder = "" ∨ writtenAt + (shared.duration - shared.renew) ≤ at_)
      (transitions : later.transitions = current.transitions + 1)

/-- The API's taking a write leaves the lease, or has it followed. -/
theorem applied_follows {shared : Shared} {state : State} {request : Request} {current : Record} (inv : Inv shared state)
    (among : request ∈ state.wire.requests) (held : state.wire.lease = some current) :
    (state.wire.apply request).1.lease = some current ∨ ∃ later, (state.wire.apply request).1.lease = some later ∧
      later.resourceVersion = current.resourceVersion + 1 ∧
      Follows shared current state.wire.writtenAt state.wire.now later := by
  by_cases expected : state.wire.expected request = true
  · have expects := inv.expects expected held
    have request' := inv.requests request among
    rw [apply_done expected]
    refine .inr ⟨_, rfl, congrArg (· + 1) (inv.lease current held).1.symm, ?_⟩
    rcases request'.kind with taking | leaving
    · obtain ⟨due, transitions⟩ := taking.due current held expects
      by_cases same : current.holder = request.sender
      · rw [if_pos same] at transitions
        exact .renewed (taking.own.trans same.symm) transitions
      · rw [if_neg same] at transitions
        refine .taken (fun mine => same (mine.symm.trans taking.own)) (fun none' => request'.named (taking.own.symm.trans none')) ?_
          transitions
        rcases due with free | mine | past
        · exact .inl free
        · exact absurd mine same
        · exact .inr past
    · obtain ⟨mine, transitions⟩ := leaving.due current held expects
      exact .givenUp (fun none' => request'.named (mine.symm.trans none')) leaving.free transitions
  · rw [apply_refused expected]
    exact .inl held

/-- In every run, a lease once made is never unmade: it is left as it is, or followed by its next version, and passes to another
member only once its holder gave it up or has not renewed it for its deadline; it counts each time it passes. -/
theorem lease_follows {shared : Shared} {state next : State} {at_ : Nat} {event : Event} {current : Record}
    (whole : secondNs ∣ shared.duration) (least : shared.renew ≤ shared.duration) (reaches : Reaches shared state)
    (stepped : stepAt state at_ event = some next) (held : state.wire.lease = some current) :
    next.wire.lease = some current ∨ ∃ later, next.wire.lease = some later ∧
      later.resourceVersion = current.resourceVersion + 1 ∧ Follows shared current state.wire.writtenAt at_ later := by
  unfold stepAt at stepped
  split at stepped
  · next after =>
    have inv := (reaches.inv whole least).later after
    by_cases writes : ∃ request, event = .apply request
    · obtain ⟨request, rfl⟩ := writes
      unfold step at stepped
      dsimp only at stepped
      split at stepped
      · next among =>
        obtain rfl := Option.some.inj stepped
        exact applied_follows inv among held
      · cases stepped
    · exact .inl ((lease_kept (fun request same => writes ⟨request, same⟩) stepped).trans held)
  · cases stepped

section Run

/-- Events in their order, each read prompt. -/
def runs (shared : Shared) (state : State) (events : List (Nat × Event)) : Option State :=
  events.foldlM (fun state event => if prompt shared state event.1 event.2 then stepAt state event.1 event.2 else none) state

theorem reaches_of_runs {shared : Shared} {events : List (Nat × Event)} {start state : State} (reaches : Reaches shared start)
    (ran : runs shared start events = some state) : Reaches shared state := by
  unfold runs at ran
  induction events generalizing start with
  | nil =>
    obtain rfl := Option.some.inj ran
    exact reaches
  | cons event rest ih =>
    rw [List.foldlM_cons] at ran
    obtain ⟨next, one, ran⟩ := Option.bind_eq_some_iff.mp ran
    split at one
    · next prompt => exact ih (.step event.1 event.2 reaches prompt one) ran
    · cases one

def twoAndSix : Shared := ⟨"book-writer", 2000000000, 6000000000⟩

/-- A member creates the lease and renews it no more; another sees it, waits its six seconds out and takes it. -/
def takenOver : List (Nat × Event) :=
  let created : Request := ⟨0, "a", none, ⟨"a", 6, microTime 0, microTime 0, 0, 0⟩⟩
  let taken : Request := ⟨1, "b", some 1, ⟨"b", 6, microTime 7000000000, microTime 7000000000, 1, 1⟩⟩
  [(0, .look "a" 0), (0, .serve "a"), (0, .hear "a"), (10, .apply created), (20, .take "a"),
    (1000000000, .look "b" 1000000000), (1000000005, .serve "b"), (1000000006, .hear "b"),
    (7000000000, .look "b" 7000000000), (7000000001, .serve "b"), (7000000002, .hear "b"), (7000000003, .apply taken), (7000000004, .take "b")]

/-- Whether a member counts itself the holder at a time, computed. -/
def holdsAt (state : State) (holder : String) (time : Nat) : Bool :=
  let member := state.members holder
  (match member.phase with
  | .releasing _ => false
  | _ => true) && member.elector.renewedAt.any fun renewed => decide (time < renewed + member.elector.settings.renewDeadline)

theorem holds_of_holdsAt {state : State} {holder : String} {time : Nat} (holds : holdsAt state holder time = true) :
    Holds state holder time := by
  unfold holdsAt at holds
  rw [Bool.and_eq_true, Option.any_eq_true] at holds
  obtain ⟨quiet, renewed, since, within⟩ := holds
  refine ⟨fun id same => ?_, renewed, since, of_decide_eq_true within⟩
  rw [same] at quiet
  cases quiet

end Run

theorem one_holder_takenOver : ∃ state, runs twoAndSix (State.start twoAndSix) takenOver = some state ∧
    (state.members "a").elector.renewedAt = some 0 ∧ ¬ Holds state "a" 7000000005 := by
  have ran : (runs twoAndSix (State.start twoAndSix) takenOver).any (fun state => holdsAt state "b" 7000000005 &&
      decide (state.wire.now ≤ 7000000005) && decide ((state.members "a").elector.renewedAt = some 0)) = true := by decide +kernel
  obtain ⟨state, ran, facts⟩ := (Option.any_eq_true _ _).mp ran
  rw [Bool.and_eq_true, Bool.and_eq_true, decide_eq_true_eq, decide_eq_true_eq] at facts
  exact ⟨state, ran, facts.2, one_holder (by decide) (by decide) (reaches_of_runs .start ran) facts.1.2 (by decide)
    (holds_of_holdsAt facts.1.1)⟩

/-- Another member's write over a lease six seconds old, as the API takes it. -/
theorem lease_follows_takenOver : ∃ state next : State, runs twoAndSix (State.start twoAndSix) (takenOver.take 11) = some state ∧
    (next.wire.lease = state.wire.lease ∨ ∃ current later, state.wire.lease = some current ∧ next.wire.lease = some later ∧
      later.resourceVersion = current.resourceVersion + 1 ∧ Follows twoAndSix current state.wire.writtenAt 7000000003 later) := by
  have ran : (runs twoAndSix (State.start twoAndSix) (takenOver.take 11)).any (fun state => state.wire.lease.isSome &&
      ((takenOver[11]?).bind fun event => stepAt state event.1 event.2).isSome) = true := by decide +kernel
  obtain ⟨state, ran, facts⟩ := (Option.any_eq_true _ _).mp ran
  rw [Bool.and_eq_true] at facts
  obtain ⟨current, held⟩ := Option.isSome_iff_exists.mp facts.1
  obtain ⟨next, stepped⟩ := Option.isSome_iff_exists.mp facts.2
  refine ⟨state, next, ran, ?_⟩
  rcases lease_follows (by decide) (by decide) (reaches_of_runs .start ran) stepped held with same | ⟨later, leased, version, follows⟩
  · exact .inl (same.trans held.symm)
  · exact .inr ⟨current, later, held, leased, version, follows⟩

end MeridianCore.Lease
