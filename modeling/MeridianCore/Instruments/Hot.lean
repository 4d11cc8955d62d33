import MeridianCore.Instruments.Store
import MeridianCore.Ordered.Map
import MeridianCore.Ordered.Lru

namespace MeridianCore.Instruments

/-- What is answered of an ID: its record, or what it became. -/
inductive Answer where
  | record (read : Option Instrument)
  | became (read : Option String)
  deriving DecidableEq, Inhabited

/-- Records by ID, where the first is true, and what each ID became. -/
abbrev Layer := Lru (Bool × String) Answer

def Held.answer (held : Held) : Bool × String → Answer
  | (true, id) => .record held.byId[id]?
  | (false, id) => .became held.replacements[id]?

/-- What holding an answer costs, where a record's encoding is of that length. -/
def Answer.cost (encodedLen : Instrument → Nat) (id : String) : Answer → Nat
  | .record read => (read.map fun record => encodedLen record * 2).getD 0 + id.utf8ByteSize + 160
  | .became _ => id.utf8ByteSize + 96

namespace Layer

/-- The least recently used, taken from the uses and then forgotten. -/
def pop (layer : Layer) (used : Nat) (key : Bool × String) : Layer :=
  Lru.forget { layer with byUse := layer.byUse.erase used } key

/-- The least recently used popped, so many at most, while what is held is past the bound. -/
def trimWithin (bound : Nat) : Nat → Layer → Layer
  | 0, layer => layer
  | fuel + 1, layer =>
    if bound < layer.bytes then
      match layer.byUse.toList.head? with
      | some (used, key) => trimWithin bound fuel (layer.pop used key)
      | none => layer
    else layer

def trim (bound : Nat) (layer : Layer) : Layer := trimWithin bound (layer.byUse.size + 1) layer

def get (layer : Layer) (key : Bool × String) : Option (Answer × Layer) :=
  match layer.held[key]? with
  | some (answer, size, used) => some (answer, layer.touch key answer size used)
  | none => none

/-- What was read from the record, held in place of what was. -/
def insert (encodedLen : Instrument → Nat) (bound : Nat) (layer : Layer) (key : Bool × String) (answer : Answer) : Layer :=
  trim bound ((layer.forget key).keep key answer (answer.cost encodedLen key.2))

def evict (layer : Layer) (id : String) : Layer := (layer.forget (true, id)).forget (false, id)

end Layer

/-- What a write takes from the layer once the record has answered it. -/
inductive Eviction where
  | one (id : String)
  | all
  deriving DecidableEq

def Eviction.reaches : Eviction → Bool × String → Bool
  | .one id, key => key.2 = id
  | .all, _ => true

def Layer.after (layer : Layer) : Eviction → Layer
  | .one id => layer.evict id
  | .all => {}

/-- How a write to the record went. -/
inductive Outcome where
  | done
  /-- The record took it, and its answer was lost. -/
  | lost
  /-- The record took nothing of it. -/
  | failed
  deriving DecidableEq

/-- What a write evicts, of a store that held this: a venue, a calendar, a template or a company is no call
that changes what is modelled here. -/
def Held.evictions (held : Held) (outcome : Outcome) : Option Call → List Eviction
  | some (.write record _) => [.one record.instrumentId]
  | some (.mint candidate key) =>
    .one candidate.instrumentId ::
      if outcome = .done then [.one (held.minted candidate key).1.instrumentId] else []
  | some (.replace _ _) | some (.readTo _) | none => [.all]

/-- What a write may change the answer of. -/
def Call.keys : Call → List (Bool × String)
  | .write record _ => [(true, record.instrumentId)]
  | .mint candidate _ => [(true, candidate.instrumentId)]
  | .replace replacedId _ => [(false, replacedId)]
  | .readTo _ => []

/-- A write the record has answered: how many it had with it, what it may have changed, and what it has yet to
evict. -/
structure WriteCall where
  index : Nat
  keys : List (Bool × String)
  evictions : List Eviction

/-- A read the layer did not answer: the last write of its key returned before it, and what it loaded, with how
many writes the record had. -/
structure ReadCall where
  key : Bool × String
  since : Nat
  loaded : Option (Nat × Answer) := none

/-- A store with its layer: the record, what it was before each write, the writes and reads under way, the last
write that evicted each key and the last returned that wrote it, and the layer. -/
structure HotStore where
  record : Held
  past : List Held := []
  writes : List WriteCall := []
  reads : List ReadCall := []
  evicted : Bool × String → Nat := fun _ => 0
  returned : Bool × String → Nat := fun _ => 0
  layer : Layer := {}

namespace HotStore

/-- The record once it had so many writes. -/
def stateAt (store : HotStore) (index : Nat) : Option Held := (store.past ++ [store.record])[index]?

/-- One step of a thread that writes or reads through the layer. -/
inductive Move where
  /-- The record answers a write. -/
  | commits (call : Option Call) (outcome : Outcome)
  /-- A write evicts the next it has to. -/
  | evicts (write : Nat)
  | returns (write : Nat)
  | asks (key : Bool × String)
  /-- A read the layer did not answer reads the record. -/
  | loads (read : Nat)
  /-- A read puts what it loaded into the layer, and answers it. -/
  | answers (read : Nat)
  /-- The record answers a read with an error. -/
  | fails (read : Nat)

/-- The record after a write. -/
def written (held : Held) (call : Option Call) : Outcome → Held
  | .failed => held
  | .done | .lost => (call.map held.call).getD held

def move (encodedLen : Instrument → Nat) (bound : Nat) (store : HotStore) : Move → Option HotStore
  | .commits call outcome => some { store with
      record := written store.record call outcome
      past := store.past ++ [store.record]
      writes := store.writes ++ [{
        index := store.past.length + 1
        keys := (call.map Call.keys).getD []
        evictions := store.record.evictions outcome call }] }
  | .evicts write => do
    let call ← store.writes[write]?
    let eviction ← call.evictions.head?
    some { store with
      writes := store.writes.set write { call with evictions := call.evictions.tail }
      evicted := fun key => if eviction.reaches key then max (store.evicted key) call.index else store.evicted key
      layer := store.layer.after eviction }
  | .returns write => do
    let call ← store.writes[write]?
    if call.evictions = [] then
      some { store with
        writes := store.writes.eraseIdx write
        returned := fun key => if key ∈ call.keys then max (store.returned key) call.index else store.returned key }
    else none
  | .asks key =>
    match store.layer.get key with
    | some (_, layer) => some { store with layer }
    | none => some { store with reads := store.reads ++ [{ key, since := store.returned key }] }
  | .loads read => do
    let asked ← store.reads[read]?
    if asked.loaded.isSome then none
    else some { store with
      reads := store.reads.set read { asked with loaded := some (store.past.length, store.record.answer asked.key) } }
  | .answers read => do
    let asked ← store.reads[read]?
    let loaded ← asked.loaded
    some { store with
      reads := store.reads.eraseIdx read
      layer := store.layer.insert encodedLen bound asked.key loaded.2 }
  | .fails read => do
    let _ ← store.reads[read]?
    some { store with reads := store.reads.eraseIdx read }

end HotStore

end MeridianCore.Instruments
