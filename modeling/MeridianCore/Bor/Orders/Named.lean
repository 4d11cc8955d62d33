import MeridianCore.Bor.Orders.Depth
import MeridianCore.Bor.Orders.Living
import MeridianCore.Bor.Orders.OrderAfter

namespace MeridianCore.Bor

/-- The placements and the child orders an order names. -/
abbrev PartsNamed := List String × List String

namespace Ledger

def named (ledger : Ledger) (orderId : String) : Option PartsNamed :=
  (ledger.orders[orderId]?).map fun held => (held.placements, held.children)

/-- What an order linked under another leaves of the parts the other names. -/
def namedUnder (orderId : String) (order : Order) (before : Option PartsNamed) : Option PartsNamed :=
  match order.link with
  | some link =>
    if link.parentOrderId = orderId then before.map fun parts => (parts.1, pushNew parts.2 order.orderId) else before
  | none => before

/-- What one act leaves of the parts an order names. -/
def namedAfter (orderId : String) (before : Option PartsNamed) : Act → Option PartsNamed
  | .opened order _ =>
    let under := namedUnder orderId order before
    if order.orderId = orderId then some (under.getD ([], [])) else under
  | .placementOpened placement =>
    if placement.orderId = orderId then before.map fun parts => (pushNew parts.1 placement.placementId, parts.2)
    else before
  | _ => before

/-- An act changes the parts an order names by what it opens alone. -/
theorem named_apply (ledger : Ledger) (act : Act) (entryId : String) (versions : BTreeMap String Nat)
    (orderId : String) :
    (ledger.apply act entryId versions).named orderId = namedAfter orderId (ledger.named orderId) act := by
  rw [named, named, order_apply]
  generalize ledger.orders[orderId]? = before
  cases act with
  | opened order released =>
    simp only [orderAfter, namedAfter, namedUnder]
    cases order.link with
    | none =>
      dsimp only
      split <;> cases before <;> rfl
    | some link =>
      dsimp only
      split <;> split <;> cases before <;> rfl
  | accepted ids id placementId counts note => exact read_accepted (fun _ _ => rfl) ..
  | sleeveCrossed cross => exact read_sleeveCrossed (fun _ _ => rfl) ..
  | _ =>
    simp only [orderAfter, namedAfter]
    try split
    all_goals simp only [Option.map_map] <;> rfl

theorem parents_iff {ledger : Ledger} {parent child : String} :
    ledger.Parents parent child ↔ ∃ parts, ledger.named parent = some parts ∧ child ∈ parts.2 := by
  unfold Parents named
  constructor
  · rintro ⟨held, found, member⟩
    exact ⟨_, by rw [found]; rfl, member⟩
  · rintro ⟨parts, found, member⟩
    obtain ⟨held, inOrders, rfl⟩ := Option.map_eq_some_iff.mp found
    exact ⟨held, inOrders, member⟩

/-- Children that are each an order held, none of them among its own descendants. -/
structure Rooted (ledger : Ledger) : Prop where
  acyclic : ledger.Acyclic
  held : ∀ parent child, ledger.Parents parent child → ledger.named child ≠ none

theorem rooted_of_named {a b : Ledger} (same : ∀ id, b.named id = a.named id) (rooted : a.Rooted) : b.Rooted := by
  have parents : b.Parents = a.Parents := by
    funext parent child
    rw [eq_iff_iff, parents_iff, parents_iff, same]
  constructor
  · intro orderId cycle
    rw [parents] at cycle
    exact rooted.acyclic orderId cycle
  · intro parent child below
    rw [parents] at below
    rw [same]
    exact rooted.held parent child below

/-- An order opened under a new ID has no children, and adds a child to its parent alone. -/
theorem rooted_opened {ledger : Ledger} (rooted : ledger.Rooted) {order : Order} (released : Bool)
    (fresh : ledger.named order.orderId = none) (entryId : String) (versions : BTreeMap String Nat) :
    (ledger.apply (.opened order released) entryId versions).Rooted := by
  have after (id : String) := named_apply ledger (.opened order released) entryId versions id
  generalize ledger.apply (.opened order released) entryId versions = later at after
  have own : later.named order.orderId = some ([], []) := by
    rw [after, namedAfter, if_pos rfl, fresh]
    unfold namedUnder
    split
    · split <;> rfl
    · rfl
  have kept {id : String} {parts : PartsNamed} (found : ledger.named id = some parts) : later.named id ≠ none := by
    rw [after, namedAfter]
    unfold namedUnder
    split
    · rintro ⟨⟩
    · split
      · split <;> simp [found]
      · simp [found]
  have childless (child : String) : ¬ later.Parents order.orderId child := by
    rw [parents_iff, own]
    rintro ⟨parts, same, member⟩
    cases same
    cases member
  have edges {parent child : String} (below : later.Parents parent child) (other : child ≠ order.orderId) :
      ledger.Parents parent child := by
    have parentOther : parent ≠ order.orderId := by
      rintro rfl
      exact childless child below
    rw [parents_iff, after, namedAfter, if_neg (Ne.symm parentOther)] at below
    rw [parents_iff]
    obtain ⟨parts, found, member⟩ := below
    unfold namedUnder at found
    split at found
    · split at found
      · obtain ⟨before, inBefore, rfl⟩ := Option.map_eq_some_iff.mp found
        refine ⟨before, inBefore, ?_⟩
        unfold pushNew at member
        split at member
        · exact member
        · rcases List.mem_append.mp member with member | last
          · exact member
          · exact absurd (List.mem_singleton.mp last) other
      · exact ⟨parts, found, member⟩
    · exact ⟨parts, found, member⟩
  constructor
  · -- Every order on a cycle has a child, which the one opened has not.
    have inner {first last : String} (path : Relation.TransGen later.Parents first last) (child : String)
        (below : later.Parents last child) : Relation.TransGen ledger.Parents first last := by
      induction path generalizing child with
      | single step =>
        exact .single (edges step (by rintro rfl; exact childless child below))
      | tail path step ih =>
        exact (ih _ step).tail (edges step (by rintro rfl; exact childless child below))
    intro orderId cycle
    obtain ⟨child, below, -⟩ := Relation.TransGen.head'_iff.mp cycle
    exact rooted.acyclic orderId (inner cycle child below)
  · intro parent child below
    by_cases same : child = order.orderId
    · subst same
      rw [own]
      rintro ⟨⟩
    · obtain ⟨parts, found⟩ := Option.ne_none_iff_exists'.mp (rooted.held parent child (edges below same))
      exact kept found

/-- Acts that open orders only under IDs no order has. -/
def OpensFresh (ledger : Ledger) : List Act → Prop
  | [] => True
  | act :: rest =>
    (∀ order released, act = .opened order released → ledger.named order.orderId = none) ∧
      OpensFresh (ledger.apply act "" ∅) rest

theorem rooted_apply {ledger : Ledger} (rooted : ledger.Rooted) {act : Act}
    (fresh : ∀ order released, act = .opened order released → ledger.named order.orderId = none) (entryId : String)
    (versions : BTreeMap String Nat) : (ledger.apply act entryId versions).Rooted := by
  have after (id : String) := named_apply ledger act entryId versions id
  cases act with
  | opened order released => exact rooted_opened rooted released (fresh order released rfl) entryId versions
  | placementOpened placement =>
    have parents : (ledger.apply (.placementOpened placement) entryId versions).Parents = ledger.Parents := by
      funext parent child
      rw [eq_iff_iff, parents_iff, parents_iff, after, namedAfter]
      split <;> cases ledger.named parent <;> simp
    constructor
    · intro orderId cycle
      rw [parents] at cycle
      exact rooted.acyclic orderId cycle
    · intro parent child below
      rw [parents] at below
      rw [after, namedAfter]
      have found := rooted.held parent child below
      split <;> simpa using found
  | _ => exact rooted_of_named after rooted

theorem rooted_applyAll {ledger : Ledger} (rooted : ledger.Rooted) {acts : List Act} (fresh : ledger.OpensFresh acts) :
    (ledger.applyAll acts "" ∅).Rooted := by
  induction acts generalizing ledger with
  | nil => exact rooted
  | cons act rest ih => exact ih (rooted_apply rooted fresh.1 "" ∅) fresh.2

theorem named_of_live {a b : Ledger} (alike : LiveAlike a b) (id : String) : b.named id = a.named id :=
  alike.orders.further (fun living => (living.placements, living.filling.children)) id

theorem rooted_empty : ({} : Ledger).Rooted := by
  have parents (parent child : String) : ¬ ({} : Ledger).Parents parent child := by
    rintro ⟨held, found, -⟩
    cases found
  constructor
  · intro orderId cycle
    obtain ⟨child, below, -⟩ := Relation.TransGen.head'_iff.mp cycle
    exact parents _ _ below
  · intro parent child below
    exact (parents _ _ below).elim

end Ledger

end MeridianCore.Bor
