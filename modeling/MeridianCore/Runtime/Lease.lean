import MeridianCore.Domain.Date

/-! A writer's lease: which member of a component should write. A member looks at its lease, takes it where it is free or lapsed,
renews it where it holds it, and releases it on a planned stop; every write is conditional on the version read. Times are
nanoseconds, an instant's by a clock that only goes forward. -/

namespace MeridianCore.Lease

def secondNs : Nat := 1000000000

/-- How a member takes and keeps its lease. -/
structure Settings where
  name : String
  /-- This member. -/
  holder : String
  /-- How often the holder renews. -/
  renew : Nat
  /-- How long a lease lasts unrenewed. -/
  duration : Nat
  deriving DecidableEq

namespace Settings

/-- The longest a holder goes without renewing before it steps down. -/
def renewDeadline (settings : Settings) : Nat := max (settings.duration - settings.renew) settings.renew

/-- How often a standby looks at the lease. -/
def lookEvery (settings : Settings) : Nat := max (settings.renew / 2) 250000000

def check (settings : Settings) : Except String Unit :=
  if settings.name.isEmpty ∨ settings.holder.isEmpty then .error "a lease needs its name and this member's name"
  else if settings.renew = 0 ∨ settings.duration ≤ settings.renew then
    .error ("leases.renewSeconds (" ++ toString (settings.renew / secondNs) ++ ") must be above 0 and below leases.durationSeconds (" ++
      toString (settings.duration / secondNs) ++ "): a holder renews several times within its lease")
  else .ok ()

end Settings

/-- A lease as read: what its spec says, and the version a write is conditional on. -/
structure Record where
  holder : String
  durationSeconds : Nat
  acquireTime : String
  renewTime : String
  transitions : Nat
  /-- The version the API gave it, a new one at each write; zero for a record not written yet. -/
  resourceVersion : Nat := 0
  deriving DecidableEq

/-- What a write of a lease answered. -/
inductive Wrote where
  | done (version : Nat)
  | conflict
  deriving DecidableEq

/-- Where a member stands after a look at its lease. -/
inductive Standing where
  | held
  | heldBy (holder : String)
  deriving DecidableEq

/-- A wall-clock time as the record's own fields give it, with microseconds. -/
def microTime (wallNs : Int) : String :=
  let secs := wallNs / 1000000000
  let micros := wallNs % 1000000000 / 1000
  let days := secs / 86400
  let ofDay := secs % 86400
  let (year, month, day) := civil days
  pad 4 year ++ "-" ++ pad 2 month ++ "-" ++ pad 2 day ++ "T" ++ pad 2 (ofDay / 3600) ++ ":" ++ pad 2 (ofDay / 60 % 60) ++ ":" ++
    pad 2 (ofDay % 60) ++ "." ++ pad 6 micros ++ "Z"
where
  /-- A number in no fewer digits than a width. -/
  pad (width : Nat) (value : Int) : String :=
    let digits := toString value.natAbs
    (if value < 0 then "-" else "") ++ String.ofList (List.replicate (width - digits.length - if value < 0 then 1 else 0) '0') ++ digits
  /-- The civil date of a day count since 1970-01-01. -/
  civil (days : Int) : Int × Int × Int :=
    let z := days + 719468
    let era := z / 146097
    let doe := z % 146097
    let yoe := (doe - doe / 1460 + doe / 36524 - doe / 146096) / 365
    let doy := doe - (365 * yoe + yoe / 4 - yoe / 100)
    let mp := (5 * doy + 2) / 153
    let day := doy - (153 * mp + 2) / 5 + 1
    let month := if mp < 10 then mp + 3 else mp - 9
    (yoe + era * 400 + (if month ≤ 2 then 1 else 0), month, day)

/-- Whether two records are the same holding unrenewed. -/
def sameSpec (a b : Record) : Bool :=
  a.resourceVersion == b.resourceVersion && a.holder == b.holder && a.renewTime == b.renewTime && a.transitions == b.transitions &&
    a.durationSeconds == b.durationSeconds

/-- One member's view of its lease, kept between looks. -/
structure Elector where
  settings : Settings
  /-- The record last seen, and when it was first seen as it is. -/
  observed : Option (Record × Nat) := none
  /-- When this member last wrote the lease as its holder. -/
  renewedAt : Option Nat := none
  /-- Whom it took the lease from, the last time it took it: nobody where it was released, none where nobody had ever held it. -/
  tookFrom : Option (Option String) := none
  deriving DecidableEq

/-- What a look asks of the API once it has read the lease, or where the member stands without asking. -/
inductive Asks where
  | create (record : Record)
  | update (record current : Record)
  | waits (standing : Standing)
  deriving DecidableEq

namespace Elector

/-- The record last seen, noted anew where it changed. -/
def note (elector : Elector) (now : Nat) (current : Record) : Record × Nat :=
  match elector.observed with
  | none => (current, now)
  | some (seen, at_) => if sameSpec seen current then (seen, at_) else (current, now)

/-- What a look does with the lease it read, first seen as it is at an instant. -/
def asks (elector : Elector) (now : Nat) (wallNs : Int) (current : Record) (seenAt : Nat) : Asks :=
  let me := elector.settings.holder
  let stamp := microTime wallNs
  let lapse := max current.durationSeconds 1 * secondNs
  let mine := current.holder == me
  if !current.holder.isEmpty && !mine && decide (now - seenAt < lapse) then .waits (.heldBy current.holder)
  else
    .update {
      holder := me
      durationSeconds := elector.settings.duration / secondNs
      acquireTime := if mine then current.acquireTime else stamp
      renewTime := stamp
      transitions := if mine then current.transitions else current.transitions + 1
      resourceVersion := current.resourceVersion } current

/-- A look once the lease is read: the record noted where it changed, and what is written. -/
def read (elector : Elector) (now : Nat) (wallNs : Int) (answer : Option Record) : Elector × Asks :=
  match answer with
  | none =>
    (elector, .create {
      holder := elector.settings.holder
      durationSeconds := elector.settings.duration / secondNs
      acquireTime := microTime wallNs
      renewTime := microTime wallNs
      transitions := 0 })
  | some current =>
    let observed := elector.note now current
    ({ elector with observed := some observed }, elector.asks now wallNs current observed.2)

def wrote (elector : Elector) (record : Record) (version now : Nat) : Elector :=
  { elector with observed := some ({ record with resourceVersion := version }, now), renewedAt := some now }

/-- A look once its write is answered. -/
def written (elector : Elector) (now : Nat) (asked : Asks) (answer : Wrote) : Elector × Standing :=
  match asked, answer with
  | .create record, .done version => ({ elector.wrote record version now with tookFrom := some none }, .held)
  | .create _, .conflict => (elector, .heldBy "")
  | .update record current, .done version =>
    let elector' := elector.wrote record version now
    (if current.holder == elector.settings.holder then elector' else { elector' with tookFrom := some (some current.holder) }, .held)
  | .update _ current, .conflict => ({ elector with renewedAt := none }, .heldBy current.holder)
  | .waits standing, _ => (elector, standing)

/-- What giving the lease up writes, where this member holds it. -/
def releases (elector : Elector) (wallNs : Int) : Option Record :=
  match elector.observed with
  | none => none
  | some (seen, _) =>
    if seen.holder ≠ elector.settings.holder ∨ elector.renewedAt = none then none
    else some { seen with holder := "", durationSeconds := 1, renewTime := microTime wallNs }

/-- Whatever the release is answered, or where it fails, the member no longer counts itself the holder. -/
def released (elector : Elector) : Elector := { elector with renewedAt := none }

end Elector

end MeridianCore.Lease
