import MeridianCore.Ordered.Run
import MeridianCore.Sidecar.Subscriptions

namespace MeridianCore.Sidecar

/-- Deliveries dropped since the last said lost: how many and of which rows, where this knows. -/
structure Loss where
  dropped : Nat := 0
  rows : BTreeSet String := ∅
  countUnknown : Bool := false
  rowsUnknown : Bool := false

namespace Loss

def add (loss : Loss) (dropped : Option Nat) (row : Option String) : Loss :=
  let counted := match dropped with
    | some dropped => { loss with dropped := loss.dropped + dropped }
    | none => { loss with countUnknown := true }
  match row with
  | some row => { counted with rows := counted.rows.insert row }
  | none => { counted with rowsUnknown := true }

end Loss

/-- What a stream's plugin is given: a delivery, or what it lost. -/
inductive Item (δ : Type) where
  | delivery (delivery : δ)
  | lost (dropped : Nat) (rows : List String)

def Loss.delivered {δ : Type} (loss : Loss) : Item δ :=
  .lost (if loss.countUnknown then 0 else loss.dropped) (if loss.rowsUnknown then [] else loss.rows.toList)

/-- What waits for the plugin, in order, and a loss not yet said. -/
structure Queue (δ : Type) where
  items : List (Option String × Item δ) := []
  /-- Deliveries waiting, its losses not counted. -/
  waiting : Nat := 0
  lost : Option Loss := none

namespace Queue

variable {δ : Type}

/-- The item waiting under a key. -/
def under (queue : Queue δ) (key : Option String) : Option (Item δ) :=
  key.bind fun key => (queue.items.find? fun item => item.1 == some key).map Prod.snd

/-- The first item under a key, put in its place. -/
def put (key : String) (item : Item δ) : List (Option String × Item δ) → List (Option String × Item δ)
  | [] => []
  | held :: rest => if held.1 = some key then (held.1, item) :: rest else held :: put key item rest

/-- A delivery queued, or, for a conflated row whose key already waits, put in its place; dropped and
counted where `most` wait. -/
def pushKeyed (most : Nat) (queue : Queue δ) (delivery : δ) (row : String) (key : Option String) : Queue δ :=
  match key, queue.under key with
  | some key, some _ => { queue with items := put key (.delivery delivery) queue.items }
  | _, _ =>
    if most ≤ queue.waiting then { queue with lost := some ((queue.lost.getD {}).add (some 1) (some row)) }
    else
      let said := match queue.lost with
        | some loss => [(none, loss.delivered)]
        | none => []
      { items := queue.items ++ said ++ [(key, .delivery delivery)], waiting := queue.waiting + 1, lost := none }

/-- Deliveries lost before they reached this, said in the stream's order. -/
def lose (queue : Queue δ) (dropped : Option Nat) (row : Option String) : Queue δ :=
  { queue with lost := some ((queue.lost.getD {}).add dropped row) }

/-- The next item: a delivery, or, once every delivery before it has gone, the loss after them. -/
def pop (queue : Queue δ) : Queue δ × Option (Item δ) :=
  match queue.items with
  | (_, .delivery delivery) :: rest => ({ queue with items := rest, waiting := queue.waiting - 1 }, some (.delivery delivery))
  | (_, lost) :: rest => ({ queue with items := rest }, some lost)
  | [] => ({ queue with lost := none }, queue.lost.map Loss.delivered)

end Queue

end MeridianCore.Sidecar
