import Mathlib

namespace MeridianCore.Chained

variable {κ α : Type*} [DecidableEq κ]

/-- The next number to give, and the last each chain took. -/
structure Counter (κ : Type*) where
  next : Nat
  last : κ → Nat

/-- A number taken, and the one its chain took before it. -/
structure Taken where
  number : Nat
  previous : Nat
  deriving DecidableEq, Repr

namespace Counter

def take (counter : Counter κ) (chain : κ) : Counter κ where
  next := counter.next + 1
  last := Function.update counter.last chain counter.next

def taken (counter : Counter κ) (chain : κ) : Taken := ⟨counter.next, counter.last chain⟩

/-- A number of the chain for each of the entries, in their order. -/
def each (chain : κ) : List α → Counter κ → List (α × Taken)
  | [], _ => []
  | entry :: rest, counter => (entry, counter.taken chain) :: each chain rest (counter.take chain)

/-- The counter once each of the entries has its number. -/
def after (chain : κ) : List α → Counter κ → Counter κ
  | [], counter => counter
  | _ :: rest, counter => after chain rest (counter.take chain)

theorem each_map_fst (chain : κ) (entries : List α) (counter : Counter κ) :
    (each chain entries counter).map Prod.fst = entries := by
  induction entries generalizing counter with
  | nil => rfl
  | cons entry rest ih => simp [each, ih]

end Counter

end MeridianCore.Chained
