import MeridianCore.Domain.Exact
import MeridianCore.Domain.OrderRecords

namespace MeridianCore.Bor

inductive RefusalReason where
  | actorRequired
  | reasonRequired
  | lotsUnbalanced
  | referenceUnavailable
  | unsupportedAction
  | nothingToMove
  | allocationUnbalanced
  | checkBlocks
  | approvalRequired
  | orderState
  | claimed
  | connectivityNotAllowed
  | agentLiveOrder
  | bookingUnbalanced
  | accountNotInstructed
  | noOpeningBalance
  | incomplete
  deriving DecidableEq

/-- Why a decision was not made, or a fact was not applied. -/
inductive StoreError where
  | unavailable (words : String)
  /-- A record outside the write scope a command was sent with. -/
  | denied (words : String)
  | refused (reason : RefusalReason) (words : String) (fields : List String)
  | invalid (words : String)
  | malformed (fields : List String) (words : String)
  /-- A fact already held, answered as it stands. -/
  | repeated (reply : FactReply)
  /-- A lifecycle event already held, answered as it stands. -/
  | repeatedEvent (held : LifecycleEvent)
  | bodiesNeeded (entries : List String)
  /-- A fact this account does not take, kept unplaced by the service. -/
  | unplace (reason : UnplacedReason) (words : String)
  /-- A recursion over child orders that does not end: the source runs out of stack. -/
  | overflowed
  deriving DecidableEq

abbrev Result (α : Type) := Except StoreError α

/-- Whether the key is an account's, and not the control partition's. -/
def isAccount (key : String) : Bool := key.toList.head? != some '~'

def refused (reason : RefusalReason) (words : String) : StoreError := .refused reason words []

def malformed (fields : List String) (words : String) : StoreError := .malformed fields words

namespace numbers

def read (field : String) (wire : Decimal) : Result Exact :=
  (Exact.fromWire wire).mapError fun out => .invalid s!"{field} {out.words}"

/-- A quantity the wire carried, refused naming its field when it is unset or out of range. -/
def required (field : String) (wire : Option Decimal) : Result Exact :=
  match wire with
  | some wire => read field wire
  | none => .error (.invalid s!"{field} is required; unset is not zero")

/-- A quantity the wire may leave unset, which is unknown and never zero. -/
def optional (field : String) (wire : Option Decimal) : Result (Option Exact) :=
  match wire with
  | some wire => (read field wire).map some
  | none => .ok none

/-- The exact sum, or the refusal naming what overflowed. -/
def add (field : String) (a b : Exact) : Result Exact :=
  (a.checkedAdd b).mapError fun out => .invalid s!"{field} {out.words} once summed"

def wire (value : Exact) : Option Decimal := some value.toWire

def amount (field : String) (money : Money) : Result Exact := required s!"{field}.amount" money.amount

/-- Two amounts summed, in one currency or refused. -/
def addMoney (field : String) (a b : Money) : Result Money := do
  if a.currencyCode ≠ b.currencyCode then
    throw (.invalid
      (s!"{field} is in {a.currencyCode} and the change in {b.currencyCode}; " ++
        "an amount is summed only in its own currency"))
  let held ← amount field a
  let change ← amount field b
  let sum ← add field held change
  return { amount := wire sum, currencyCode := a.currencyCode, instrumentId := "" }

/-- An amount to the cent, half-even. -/
def cents (field : String) (value : Exact) : Result Exact :=
  if value.scale ≤ 2 then .ok value
  else
    let q := roundHalfEven value.integer.natAbs (10 ^ (value.scale - 2))
    (Exact.new (if value.integer < 0 then -(q : Int) else q) 2).mapError fun out =>
      .invalid s!"{field} {out.words}"

end numbers

/-- A product's trailing zeros taken off where the wire's places would not hold it. -/
def trimmed (integer : Int) : Nat → Int × Nat
  | 0 => (integer, 0)
  | scale + 1 =>
    if 18 < scale + 1 ∧ integer % 10 = 0 then trimmed (integer / 10) scale else (integer, scale + 1)

/-- `a × b`, exact: refused, never rounded, where it does not fit. -/
def multiply (field : String) (a b : Exact) : Result Exact :=
  match i128 (a.integer * b.integer) with
  | .error _ => .error (.invalid s!"{field} {a} × {b} does not fit an exact decimal")
  | .ok product =>
    let held := trimmed product (a.scale + b.scale)
    (Exact.new held.1 held.2).mapError fun out => .invalid s!"{field} {out.words}"

def zeroFloor (value : Exact) : Exact := if value.isNegative then Exact.zero else value

def sub (field : String) (a b : Exact) : Result Exact := numbers.add field a b.negated

theorem mapError_ok {ε ε' α : Type} {f : ε → ε'} {result : Except ε α} {value : α} :
    result.mapError f = .ok value ↔ result = .ok value := by
  cases result <;> simp [Except.mapError]

theorem map_ok {α β : Type} {f : α → β} {result : Result α} {answer : β} (mapped : result.map f = .ok answer) :
    ∃ value, result = .ok value ∧ f value = answer := by
  cases result with
  | error out => cases mapped
  | ok value => exact ⟨value, rfl, Except.ok.inj mapped⟩

/-- From a bind that answered, what its first half answered. -/
theorem bind_ok {α β : Type} {first : Result α} {next : α → Result β} {answer : β} :
    (first >>= next) = .ok answer ↔ ∃ value, first = .ok value ∧ next value = .ok answer := by
  cases first <;> simp [bind, Except.bind]

/-- From a refusal not made, that its condition fails, and what comes after it. -/
theorem guard_ok {c : Prop} [Decidable c] {α : Type} {out : StoreError} {next : Unit → Result α} {answer : α} :
    (if c then (throw out : Result Unit) >>= next else next ()) = .ok answer ↔ ¬ c ∧ next () = .ok answer := by
  by_cases holds : c
  · simp [holds, bind, Except.bind, throw, throwThe, MonadExceptOf.throw]
  · simp [holds]

/-- An answer read off a result that is computed. -/
theorem answered_of {α : Type} {result : Result α} {holds : α → Bool} (computed : result.toOption.any holds = true) :
    ∃ value, result = .ok value ∧ holds value = true := by
  cases result with
  | error out => cases computed
  | ok value => exact ⟨value, rfl, computed⟩

theorem ok_of_toOption {ε α : Type} {result : Except ε α} {value : α} (held : result.toOption = some value) :
    result = .ok value := by
  cases result with
  | error out => cases held
  | ok other =>
    cases held
    rfl

theorem mapM_ok {α β : Type} {read : α → Result β} {entries : List α} {answers : List β}
    (answered : entries.mapM read = .ok answers) :
    List.Forall₂ (fun entry answer => read entry = .ok answer) entries answers := by
  induction entries generalizing answers with
  | nil =>
    cases answered
    exact .nil
  | cons entry rest ih =>
    rw [List.mapM_cons] at answered
    obtain ⟨first, read, answered⟩ := bind_ok.mp answered
    obtain ⟨others, later, answered⟩ := bind_ok.mp answered
    cases answered
    exact .cons read (ih later)

/-- Each answer is of one of the entries. -/
theorem mapM_entry {α β : Type} {read : α → Result β} {entries : List α} {answers : List β}
    (answered : entries.mapM read = .ok answers) {answer : β} (member : answer ∈ answers) :
    ∃ entry ∈ entries, read entry = .ok answer := by
  have matched := mapM_ok answered
  clear answered
  induction matched with
  | nil => cases member
  | cons first rest ih =>
    rcases List.mem_cons.mp member with rfl | later
    · exact ⟨_, List.mem_cons_self, first⟩
    · obtain ⟨entry, held, read⟩ := ih later
      exact ⟨entry, List.mem_cons_of_mem _ held, read⟩

/-- Each entry has its answer. -/
theorem mapM_answer {α β : Type} {read : α → Result β} {entries : List α} {answers : List β}
    (answered : entries.mapM read = .ok answers) {entry : α} (member : entry ∈ entries) :
    ∃ answer ∈ answers, read entry = .ok answer := by
  have matched := mapM_ok answered
  clear answered
  induction matched with
  | nil => cases member
  | cons first rest ih =>
    rcases List.mem_cons.mp member with rfl | later
    · exact ⟨_, List.mem_cons_self, first⟩
    · obtain ⟨answer, held, read⟩ := ih later
      exact ⟨answer, List.mem_cons_of_mem _ held, read⟩

/-- Folds whose steps answer the same answer the same. -/
theorem foldlM_congr {α β : Type} {step after : β → α → Result β} (entries : List α)
    (same : ∀ total, ∀ entry ∈ entries, after total entry = step total entry) (total : β) :
    entries.foldlM after total = entries.foldlM step total := by
  induction entries generalizing total with
  | nil => rfl
  | cons entry rest ih =>
    rw [List.foldlM_cons, List.foldlM_cons, same total entry List.mem_cons_self]
    exact congrArg _ (funext (ih fun total entry member => same total entry (List.mem_cons_of_mem _ member)))

/-- A property each step of a fold keeps holds of what the fold answers. -/
theorem foldlM_keeps {α β : Type} {step : β → α → Result β} {holds : β → Prop}
    (keeps : ∀ total entry after, holds total → step total entry = .ok after → holds after) (entries : List α)
    {total after : β} (held : holds total) (folded : entries.foldlM step total = .ok after) : holds after := by
  induction entries generalizing total with
  | nil =>
    cases folded
    exact held
  | cons entry rest ih =>
    rw [List.foldlM_cons] at folded
    obtain ⟨next, stepped, folded⟩ := bind_ok.mp folded
    exact ih (keeps total entry next held stepped) folded

/-- A fold that adds to a total what each entry is worth. -/
theorem foldlM_adds {α : Type} {step : Exact → α → Result Exact} {worth : α → Int}
    (adds : ∀ total entry after, step total entry = .ok after → after.units = total.units + worth entry)
    (entries : List α) {total after : Exact} (folded : entries.foldlM step total = .ok after) :
    after.units = total.units + (entries.map worth).sum := by
  induction entries generalizing total with
  | nil =>
    cases folded
    simp
  | cons entry rest ih =>
    rw [List.foldlM_cons] at folded
    obtain ⟨next, stepped, folded⟩ := bind_ok.mp folded
    rw [ih folded, adds total entry next stepped, List.map_cons, List.sum_cons]
    omega

/-- Two binds whose first halves answer the same, and whose second halves do on what it answers. -/
theorem bind_congr_ok {α β : Type} {first other : Result α} {next after : α → Result β} (firsts : first = other)
    (rest : ∀ value, other = .ok value → next value = after value) : first >>= next = other >>= after := by
  subst firsts
  cases read : first with
  | error out => rfl
  | ok value => exact rest value read

theorem add_ok {field : String} {a b sum : Exact} (added : numbers.add field a b = .ok sum) :
    sum.units = a.units + b.units :=
  (Exact.checkedAdd_ok (mapError_ok.mp added)).1

@[simp] theorem add_zero (field : String) (a : Exact) : numbers.add field a Exact.zero = .ok a := by
  rw [numbers.add, Exact.checkedAdd_zero]
  rfl

@[simp] theorem required_wire (field : String) (value : Exact) :
    numbers.required field (numbers.wire value) = .ok value := by
  rw [numbers.wire, numbers.required, numbers.read, Exact.fromWire_toWire]
  rfl

end MeridianCore.Bor
