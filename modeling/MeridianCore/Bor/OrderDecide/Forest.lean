import MeridianCore.Bor.OrderDecide.Change
import MeridianCore.Bor.OrderDecide.Command
import MeridianCore.Bor.OrderDecide.Settled
import MeridianCore.Bor.OrderDecide.Waiting
import MeridianCore.Bor.Orders.Touched

/-! The tree of an account's orders: the children each lists, the parent each names, and the recursions over them. -/

namespace MeridianCore.Bor

/-- The child entry linking a net's member to the net: the book's act in the member's own account. None where it is
linked already. -/
def linkNetMember (book : Book) (head : Nat) (ctx : Context) (memberOrderId netOrderId netAccountId : String) :
    Result (Option Made) := do
  let member ← heldOrder book memberOrderId
  if member.order.link.any fun link => decide (link.kind = .net) && decide (link.parentOrderId = netOrderId) then
    return none
  return some (← finish book head ctx {
    kind := "net-member-linked"
    actor := ctx.actor
    acts := [.netLinked memberOrderId netOrderId netAccountId]
    reason := s!"a member of net order {netOrderId} in account {netAccountId}" })

theorem nodup_pushNew {list : List String} {id : String} (once : list.Nodup) : (pushNew list id).Nodup := by
  unfold pushNew
  split
  · exact once
  · next absent => exact once.append (List.nodup_singleton id) (by simpa using absent)

/-- What of an order the tree is made of: the children it lists, and the link it is under. -/
structure Tied where
  orderId : String
  children : List String
  link : Option OrderLink

def OrderHeld.tied (held : OrderHeld) : Tied := ⟨held.order.orderId, held.children, held.order.link⟩

namespace Ledger

def tied (ledger : Ledger) (orderId : String) : Option Tied := (ledger.orders[orderId]?).map OrderHeld.tied

/-- The parent an order was split from. -/
def splitParent (ledger : Ledger) : Pointers String := fun orderId =>
  (ledger.tied orderId).bind fun tied => tied.link.bind fun link => if link.kind = .split then some link.parentOrderId else none

/-- What an order linked under another leaves of the ties of the other. -/
def tiedUnder (orderId : String) (order : Order) (before : Option Tied) : Option Tied :=
  match order.link with
  | some link =>
    if link.parentOrderId = orderId then before.map fun tied => { tied with children := pushNew tied.children order.orderId }
    else before
  | none => before

/-- What one act leaves of an order's ties. -/
def tiedAfter (orderId : String) (before : Option Tied) : Act → Option Tied
  | .opened order _ =>
    let under := tiedUnder orderId order before
    if order.orderId = orderId then some ⟨order.orderId, (under.map Tied.children).getD [], order.link⟩ else under
  | .terms order =>
    if order.orderId = orderId then before.map fun tied => { tied with orderId := order.orderId, link := order.link }
    else before
  | .netLinked member netOrderId _ =>
    if member = orderId then before.map fun tied => { tied with link := some { kind := .net, parentOrderId := netOrderId } }
    else before
  | _ => before

theorem tied_orderAfter (versions : BTreeMap String Nat) (orderId : String) (before : Option OrderHeld) (act : Act) :
    (orderAfter versions orderId before act).map OrderHeld.tied = tiedAfter orderId (before.map OrderHeld.tied) act := by
  cases act with
  | opened order released =>
    simp only [orderAfter, tiedAfter, tiedUnder]
    cases linked : order.link with
    | none =>
      dsimp only
      split <;> cases before <;> first | rfl | exact congrArg (fun link => some (Tied.mk _ _ link)) linked
    | some link =>
      dsimp only
      split <;> split <;> cases before <;> first | rfl | exact congrArg (fun link => some (Tied.mk _ _ link)) linked
  | accepted ids id placementId counts note => exact read_accepted (fun _ _ => rfl) ..
  | sleeveCrossed cross =>
    refine @read_foldl _ _ _ (Option.map OrderHeld.tied) _ (fun before id => ?_) cross.orderIds before
    dsimp only
    split
    · rw [Option.map_map]
      rfl
    · rfl
  | _ =>
    simp only [orderAfter, tiedAfter]
    try split
    all_goals simp only [Option.map_map] <;> rfl

theorem tied_apply (ledger : Ledger) (act : Act) (entryId : String) (versions : BTreeMap String Nat) (orderId : String) :
    (ledger.apply act entryId versions).tied orderId = tiedAfter orderId (ledger.tied orderId) act := by
  rw [tied, tied, order_apply, tied_orderAfter]

theorem tied_foldl (versions : BTreeMap String Nat) (orderId : String) (acts : List Act) (before : Option OrderHeld) :
    (acts.foldl (orderAfter versions orderId) before).map OrderHeld.tied =
      acts.foldl (tiedAfter orderId) (before.map OrderHeld.tied) := by
  induction acts generalizing before with
  | nil => rfl
  | cons act rest ih => rw [List.foldl_cons, List.foldl_cons, ih, tied_orderAfter]

theorem tied_applyAll (ledger : Ledger) (acts : List Act) (entryId : String) (versions : BTreeMap String Nat) (orderId : String) :
    (ledger.applyAll acts entryId versions).tied orderId = acts.foldl (tiedAfter orderId) (ledger.tied orderId) := by
  rw [tied, tied, order_applyAll, tied_foldl]

/-- An entry applied changes an order's ties as its acts say. -/
theorem tied_of_applied {process : Process} {book after : Book} {entry : Entry} {lenient : Bool} {changes : Changes}
    (applied : book.apply process entry lenient = .ok (after, changes)) (orderId : String) :
    after.ledger.tied orderId = (book.ledger.applyAll entry.body.acts "" ∅).tied orderId := by
  obtain ⟨versions, same⟩ := Book.order_of_applied applied orderId
  have read (held : Option OrderHeld) : (held.map OrderHeld.unsigned).map OrderHeld.tied = held.map OrderHeld.tied := by
    rw [Option.map_map]
    rfl
  have ties := congrArg (Option.map OrderHeld.tied) same
  rw [tied_foldl, read, read] at ties
  rw [tied_applyAll]
  exact ties

theorem parents_tied {ledger : Ledger} {parent child : String} :
    ledger.Parents parent child ↔ ∃ tied, ledger.tied parent = some tied ∧ child ∈ tied.children := by
  unfold Parents tied
  constructor
  · rintro ⟨held, found, member⟩
    exact ⟨_, by rw [found]; rfl, member⟩
  · rintro ⟨tied, found, member⟩
    obtain ⟨held, inOrders, rfl⟩ := Option.map_eq_some_iff.mp found
    exact ⟨held, inOrders, member⟩

theorem tied_none_iff {ledger : Ledger} {orderId : String} : ledger.tied orderId = none ↔ ledger.named orderId = none := by
  unfold tied named
  rw [Option.map_eq_none_iff, Option.map_eq_none_iff]

/-- Children each listed by one order, once, that each names as its parent where it names one. -/
structure Grown (ledger : Ledger) : Prop where
  rooted : ledger.Rooted
  listed : ∀ child parent, ledger.splitParent child = some parent → ledger.Parents parent child
  one : ∀ first second child, ledger.Parents first child → ledger.Parents second child → first = second
  once : ∀ orderId tied, ledger.tied orderId = some tied → tied.children.Nodup
  keyed : ∀ orderId tied, ledger.tied orderId = some tied → tied.orderId = orderId

/-- Each child names the order that lists it. -/
def ParentNamed (ledger : Ledger) : Prop := ∀ parent child, ledger.Parents parent child → ledger.splitParent child = some parent

/-- What the deciders' acts do of links: an order opened is new, under no other or split from one held; and its terms
keep its link. -/
def KeepsLinks (ledger : Ledger) : Act → Prop
  | .opened order _ => ledger.tied order.orderId = none ∧
      ∀ link, order.link = some link → link.kind = .split ∧ ledger.tied link.parentOrderId ≠ none
  | .terms order => ∀ tied, ledger.tied order.orderId = some tied → tied.link = order.link
  | _ => True

/-- No order linked to a net was split from another. -/
def NetsApart (ledger : Ledger) : Act → Prop
  | .netLinked member _ _ => ledger.splitParent member = none
  | _ => True

/-- Acts each of which meets its condition in what those before it leave. -/
def Each (Met : Ledger → Act → Prop) (ledger : Ledger) : List Act → Prop
  | [] => True
  | act :: rest => Met ledger act ∧ Each Met (ledger.apply act "" ∅) rest

section apply
variable {ledger : Ledger} {act : Act} {entryId : String} {versions : BTreeMap String Nat}

theorem parents_of_tied {a b : Ledger} (same : ∀ id, b.tied id = a.tied id) : b.Parents = a.Parents := by
  funext parent child
  rw [eq_iff_iff, parents_tied, parents_tied, same]

theorem splitParent_of_tied {a b : Ledger} (same : ∀ id, b.tied id = a.tied id) : b.splitParent = a.splitParent := by
  funext orderId
  rw [splitParent, splitParent, same]

theorem grown_of_tied {a b : Ledger} (same : ∀ id, b.tied id = a.tied id) (grown : a.Grown) : b.Grown := by
  have parents := parents_of_tied same
  have above := splitParent_of_tied same
  refine ⟨⟨?_, ?_⟩, ?_, ?_, ?_, ?_⟩
  · intro orderId cycle
    rw [parents] at cycle
    exact grown.rooted.acyclic orderId cycle
  · intro parent child below
    rw [parents] at below
    rw [ne_eq, ← tied_none_iff, same, tied_none_iff]
    exact grown.rooted.held parent child below
  · rw [parents, above]
    exact grown.listed
  · rw [parents]
    exact grown.one
  · intro orderId tied found
    exact grown.once orderId tied (same orderId ▸ found)
  · intro orderId tied found
    exact grown.keyed orderId tied (same orderId ▸ found)

theorem parentNamed_of_tied {a b : Ledger} (same : ∀ id, b.tied id = a.tied id) (named : a.ParentNamed) : b.ParentNamed := by
  unfold ParentNamed
  rw [parents_of_tied same, splitParent_of_tied same]
  exact named

/-- An order opened is listed by the parent it names, and lists none. -/
theorem parents_opened {order : Order} {released : Bool} (keeps : ledger.KeepsLinks (.opened order released)) (parent child : String) :
    (ledger.apply (.opened order released) entryId versions).Parents parent child ↔
      ledger.Parents parent child ∨ child = order.orderId ∧ ∃ link, order.link = some link ∧ link.parentOrderId = parent := by
  obtain ⟨fresh, under⟩ := keeps
  rw [parents_tied, parents_tied, tied_apply, tiedAfter]
  by_cases own : order.orderId = parent
  · subst own
    have other (link : OrderLink) (linked : order.link = some link) : link.parentOrderId ≠ order.orderId := by
      intro same
      exact (under link linked).2 (same ▸ fresh)
    rw [if_pos rfl, fresh]
    have none' : tiedUnder order.orderId order none = none := by
      unfold tiedUnder
      split
      · split <;> rfl
      · rfl
    rw [none']
    constructor
    · rintro ⟨tied, same, member⟩
      cases same
      cases member
    · rintro (⟨tied, same, -⟩ | ⟨-, link, linked, same⟩)
      · cases same
      · exact absurd same (other link linked)
  · rw [if_neg own, tiedUnder]
    cases linked : order.link with
    | none => simp
    | some link =>
      dsimp only
      by_cases at_ : link.parentOrderId = parent
      · subst at_
        obtain ⟨held, found⟩ := Option.ne_none_iff_exists'.mp (under link linked).2
        simp [found, mem_pushNew]
      · simp [at_]

theorem splitParent_opened {order : Order} {released : Bool} (keeps : ledger.KeepsLinks (.opened order released)) (orderId : String) :
    (ledger.apply (.opened order released) entryId versions).splitParent orderId =
      if order.orderId = orderId then order.link.map OrderLink.parentOrderId else ledger.splitParent orderId := by
  rw [splitParent, splitParent, tied_apply, tiedAfter]
  split
  · cases linked : order.link with
    | none => rfl
    | some link =>
      rw [Option.bind_some, Option.bind_some, if_pos (keeps.2 link linked).1]
      rfl
  · unfold tiedUnder
    split
    · split
      · cases ledger.tied orderId <;> rfl
      · rfl
    · rfl

theorem grown_opened (grown : ledger.Grown) {order : Order} {released : Bool}
    (keeps : ledger.KeepsLinks (.opened order released)) : (ledger.apply (.opened order released) entryId versions).Grown := by
  have parents := @parents_opened ledger entryId versions order released keeps
  have above := @splitParent_opened ledger entryId versions order released keeps
  obtain ⟨fresh, under⟩ := keeps
  have unlisted (parent : String) : ¬ ledger.Parents parent order.orderId := fun below =>
    grown.rooted.held parent order.orderId below (tied_none_iff.mp fresh)
  have under' (orderId : String) (tied : Tied) (found : tiedUnder orderId order (ledger.tied orderId) = some tied) :
      tied.children.Nodup ∧ tied.orderId = orderId := by
    unfold tiedUnder at found
    split at found
    · split at found
      · obtain ⟨earlier, inLedger, rfl⟩ := Option.map_eq_some_iff.mp found
        exact ⟨nodup_pushNew (grown.once orderId earlier inLedger), grown.keyed orderId earlier inLedger⟩
      · exact ⟨grown.once orderId tied found, grown.keyed orderId tied found⟩
    · exact ⟨grown.once orderId tied found, grown.keyed orderId tied found⟩
  refine ⟨rooted_opened grown.rooted released (tied_none_iff.mp fresh) entryId versions, ?_, ?_, ?_, ?_⟩
  · intro child parent leads
    rw [above] at leads
    rw [parents]
    split at leads
    · next own =>
      obtain ⟨link, linked, same⟩ := Option.map_eq_some_iff.mp leads
      exact .inr ⟨own.symm, link, linked, same⟩
    · exact .inl (grown.listed child parent leads)
  · intro first second child below below'
    rw [parents] at below below'
    rcases below with below | ⟨own, link, linked, same⟩ <;> rcases below' with below' | ⟨own', link', linked', same'⟩
    · exact grown.one first second child below below'
    · exact absurd (own' ▸ below) (unlisted first)
    · exact absurd (own ▸ below') (unlisted second)
    · rw [linked] at linked'
      cases linked'
      exact same.symm.trans same'
  · intro orderId tied found
    rw [tied_apply, tiedAfter] at found
    split at found
    · cases found
      cases earlier : tiedUnder orderId order (ledger.tied orderId) with
      | none => exact List.nodup_nil
      | some tied => exact (under' orderId tied earlier).1
    · exact (under' orderId tied found).1
  · intro orderId tied found
    rw [tied_apply, tiedAfter] at found
    split at found
    · next own =>
      cases found
      exact own
    · exact (under' orderId tied found).2

/-- A link to a net takes the place of the order's own: what it was split from still lists it. -/
theorem parents_netLinked (member netOrderId netAccountId : String) :
    (ledger.apply (.netLinked member netOrderId netAccountId) entryId versions).Parents = ledger.Parents := by
  funext parent child
  rw [eq_iff_iff, parents_tied, parents_tied, tied_apply, tiedAfter]
  split <;> cases ledger.tied parent <;> simp

theorem splitParent_netLinked (member netOrderId netAccountId orderId : String) :
    (ledger.apply (.netLinked member netOrderId netAccountId) entryId versions).splitParent orderId =
      if member = orderId then none else ledger.splitParent orderId := by
  rw [splitParent, splitParent, tied_apply, tiedAfter]
  split
  · cases ledger.tied orderId <;> rfl
  · rfl

theorem grown_apply (grown : ledger.Grown) (keeps : ledger.KeepsLinks act) : (ledger.apply act entryId versions).Grown := by
  cases act with
  | opened order released => exact grown_opened grown keeps
  | terms order =>
    refine grown_of_tied (fun id => ?_) grown
    rw [tied_apply, tiedAfter]
    split
    · next own =>
      subst own
      cases found : ledger.tied order.orderId with
      | none => rfl
      | some tied => rw [Option.map_some, ← keeps tied found, ← grown.keyed _ tied found]
    · rfl
  | netLinked member netOrderId netAccountId =>
    have parents := @parents_netLinked ledger entryId versions member netOrderId netAccountId
    refine ⟨rooted_apply grown.rooted (fun _ _ other => by cases other) entryId versions, ?_, ?_, ?_, ?_⟩
    · intro child parent leads
      rw [splitParent_netLinked] at leads
      rw [parents]
      split at leads
      · cases leads
      · exact grown.listed child parent leads
    · rw [parents]
      exact grown.one
    · intro orderId tied found
      rw [tied_apply, tiedAfter] at found
      split at found
      · obtain ⟨earlier, inLedger, rfl⟩ := Option.map_eq_some_iff.mp found
        exact grown.once orderId earlier inLedger
      · exact grown.once orderId tied found
    · intro orderId tied found
      rw [tied_apply, tiedAfter] at found
      split at found
      · obtain ⟨earlier, inLedger, rfl⟩ := Option.map_eq_some_iff.mp found
        exact grown.keyed orderId earlier inLedger
      · exact grown.keyed orderId tied found
  | _ => exact grown_of_tied (fun id => tied_apply ..) grown

theorem parentNamed_apply (grown : ledger.Grown) (named : ledger.ParentNamed) (keeps : ledger.KeepsLinks act) (apart : ledger.NetsApart act) :
    (ledger.apply act entryId versions).ParentNamed := by
  cases act with
  | opened order released =>
    intro parent child below
    rw [parents_opened keeps] at below
    rw [splitParent_opened keeps]
    rcases below with below | ⟨rfl, link, linked, same⟩
    · have other : order.orderId ≠ child := by
        rintro rfl
        exact grown.rooted.held parent _ below (tied_none_iff.mp keeps.1)
      rw [if_neg other]
      exact named parent child below
    · rw [if_pos rfl, linked]
      exact congrArg some same
  | terms order =>
    refine parentNamed_of_tied (fun id => ?_) named
    rw [tied_apply, tiedAfter]
    split
    · next own =>
      subst own
      cases found : ledger.tied order.orderId with
      | none => rfl
      | some tied => rw [Option.map_some, ← keeps tied found, ← grown.keyed _ tied found]
    · rfl
  | netLinked member netOrderId netAccountId =>
    intro parent child below
    rw [parents_netLinked] at below
    rw [splitParent_netLinked]
    have split := named parent child below
    rw [if_neg]
    · exact split
    · rintro rfl
      rw [show ledger.splitParent member = none from apart] at split
      cases split
  | _ => exact parentNamed_of_tied (fun id => tied_apply ..) named

end apply

/-- The recursions over the tree answer or refuse, and the parents walked up to are all in the walk. -/
structure Recurses (ledger : Ledger) : Prop where
  filled : ∀ orderId, Returns (ledger.filled orderId)
  committed : ∀ orderId, Returns (ledger.committed orderId)
  state : ∀ orderId, Returns (ledger.state orderId)
  orderLive : ∀ orderId, Returns (ledger.orderLive orderId)
  cancelParts : ∀ ctx ending reason orderId acts, Returns (cancelPartsWithin ledger ctx ending reason ledger.depth orderId acts)
  walk : ∀ acts, ∀ orderId ∈ (ledger.touched acts).orders, ∀ parent,
    ledger.parentOf (openedParents acts) orderId = some parent → parent ∈ (ledger.touched acts).orders

/-- Split parents followed from any order end at one that has none, and come to no order twice. -/
structure Climbs (ledger : Ledger) : Prop where
  unwound : ledger.splitParent.Unwound
  ends : ∀ orderId, ∃ root, ledger.splitParent.EndsAt orderId root

/-- The tree of orders is a forest: each is split from at most one, up to a root, and is listed by that one alone, once. -/
structure Forest (ledger : Ledger) : Prop where
  climbs : ledger.Climbs
  listed : ∀ parent child, ledger.Parents parent child ↔ ledger.splitParent child = some parent
  once : ∀ (orderId : String) (held : OrderHeld), ledger.orders[orderId]? = some held → held.children.Nodup

section
variable {ledger : Ledger}

theorem climbs_of_grown (grown : ledger.Grown) : ledger.Climbs := by
  have unwound : ledger.splitParent.Unwound := by
    intro orderId cycle
    refine grown.rooted.acyclic orderId (Relation.transGen_swap.mp ?_)
    exact Relation.TransGen.mono (fun child parent step => grown.listed child parent step) _ _ cycle
  refine ⟨unwound, Pointers.exists_endsAt unwound (m := ledger.orders) fun child parent leads => ?_⟩
  obtain ⟨tied, found, -⟩ := Option.bind_eq_some_iff.mp leads
  obtain ⟨held, inOrders, -⟩ := Option.map_eq_some_iff.mp found
  exact Std.ExtTreeMap.mem_iff_isSome_getElem?.mpr (by rw [inOrders]; rfl)

theorem subset_liveOf {live : String → Result Bool} {ids alive : List String} (read : liveOf live ids = .ok alive) : alive ⊆ ids := by
  induction ids generalizing alive with
  | nil =>
    cases read
    exact List.Subset.refl _
  | cons id rest ih =>
    unfold liveOf at read
    obtain ⟨lives, -, read⟩ := bind_ok.mp read
    obtain ⟨others, below, read⟩ := bind_ok.mp read
    cases read
    split
    · exact List.cons_subset_cons id (ih below)
    · exact List.Subset.trans (ih below) (List.subset_cons_self id rest)

/-- Asking an order's parts to cancel goes down its children, fewer orders under each. -/
theorem returns_cancelPartsWithin (acyclic : ledger.Acyclic) {ctx : Context} {ending : OrderState} {reason : String} {depth : Nat}
    {orderId : String} (deep : (ledger.orders.reached ledger.Parents orderId).card < depth) (acts : List Act) :
    Returns (cancelPartsWithin ledger ctx ending reason depth orderId acts) := by
  induction depth generalizing orderId acts with
  | zero => exact (Nat.not_lt_zero _ deep).elim
  | succ depth ih =>
    unfold cancelPartsWithin
    refine Returns.bind (returns_liveParts acyclic orderId) fun live parts => ?_
    obtain ⟨placements, children⟩ := live
    refine Returns.foldlM _ (fun acts child member => ?_) _
    refine Returns.bind (ih ?_ _) fun _ _ => Returns.ok _
    unfold liveParts at parts
    split at parts
    · cases parts
      cases member
    · next held found =>
      obtain ⟨live, -, parts⟩ := bind_ok.mp parts
      obtain ⟨alive, below, parts⟩ := bind_ok.mp parts
      cases parts
      have fewer := BTreeMap.card_reached_lt (acyclic orderId) ⟨held, found, subset_liveOf below member⟩
        (Std.ExtTreeMap.mem_iff_isSome_getElem?.mpr (by rw [found]; rfl))
      omega

theorem returns_committed (acyclic : ledger.Acyclic) (orderId : String) : Returns (ledger.committed orderId) := by
  unfold committed
  split
  · exact Returns.ok _
  · refine returns_committedBy acyclic fun child _ => ?_
    exact returns_stateWithin acyclic (Nat.lt_succ_of_le (BTreeMap.card_reached_le ledger.orders ledger.Parents child))

/-- The parents an entry's own acts name are as many as its acts at most. -/
theorem size_openedParents (acts : List Act) : (openedParents acts).size ≤ acts.length := by
  have fold (acts : List Act) (parents : BTreeMap String String) : (acts.foldl (fun parents act =>
      match act with
      | .opened order _ | .terms order =>
        match order.link with
        | some link => parents.insert order.orderId link.parentOrderId
        | none => parents
      | _ => parents) parents).size ≤ parents.size + acts.length := by
    induction acts generalizing parents with
    | nil => exact le_refl _
    | cons act rest ih =>
      rw [List.foldl_cons, List.length_cons]
      refine (ih _).trans ?_
      have more (orderId parent : String) : (parents.insert orderId parent).size ≤ parents.size + 1 :=
        Std.ExtTreeMap.size_insert_le
      have grew : ∀ next : BTreeMap String String, next.size ≤ parents.size + 1 →
          next.size + rest.length ≤ parents.size + (rest.length + 1) := fun next few => by omega
      split
      · split
        · exact grew _ (more ..)
        · omega
      · split
        · exact grew _ (more ..)
        · omega
      · omega
  have all := fold acts ∅
  rwa [Std.ExtTreeMap.size_empty, Nat.zero_add] at all

/-- The walk up to the parents of what an entry touches stops with each parent in it. -/
theorem walk_closed (ledger : Ledger) (acts : List Act) : ∀ orderId ∈ (ledger.touched acts).orders, ∀ parent,
    ledger.parentOf (openedParents acts) orderId = some parent → parent ∈ (ledger.touched acts).orders := by
  have few := size_openedParents acts
  unfold touched
  generalize openedParents acts = opened at few ⊢
  have from_ (orderId parent : String) (leads : ledger.parentOf opened orderId = some parent) :
      orderId ∈ ledger.orders.keys ++ opened.keys := by
    obtain ⟨either, -⟩ := Option.filter_eq_some_iff.mp leads
    rw [List.mem_append, Std.ExtTreeMap.mem_keys, Std.ExtTreeMap.mem_keys]
    rcases Option.or_eq_some_iff.mp either with linked | ⟨-, found⟩
    · obtain ⟨held, found, -⟩ := Option.bind_eq_some_iff.mp linked
      exact .inl (Std.ExtTreeMap.mem_iff_isSome_getElem?.mpr (by rw [found]; rfl))
    · exact .inr (Std.ExtTreeMap.mem_iff_isSome_getElem?.mpr (by rw [found]; rfl))
  let pool := ((ledger.orders.keys ++ opened.keys).map fun orderId => (ledger.parentOf opened orderId).getD "").toFinset
  refine Worklist.close_closed _ pool (fun orderId parent leads => ?_) _ _ 0 ?_ fun i below => absurd below (Nat.not_lt_zero i)
  · rw [List.mem_toFinset, List.mem_map]
    exact ⟨orderId, from_ orderId parent leads, by rw [leads]; rfl⟩
  · have all := List.toFinset_card_le ((ledger.orders.keys ++ opened.keys).map fun orderId => (ledger.parentOf opened orderId).getD "")
    rw [List.length_map, List.length_append, Std.ExtTreeMap.length_keys, Std.ExtTreeMap.length_keys] at all
    refine (Nat.add_le_add_left (Finset.card_le_card Finset.sdiff_subset) _).trans ?_
    have possible : pool.card ≤ ledger.orders.size + opened.size := all
    omega

theorem recurses_of_grown (grown : ledger.Grown) : ledger.Recurses where
  filled := returns_filled grown.rooted.acyclic
  committed := returns_committed grown.rooted.acyclic
  state orderId := returns_stateWithin grown.rooted.acyclic
    (Nat.lt_succ_of_le (BTreeMap.card_reached_le ledger.orders ledger.Parents orderId))
  orderLive := returns_orderLive grown.rooted.acyclic
  cancelParts ctx ending reason orderId acts := returns_cancelPartsWithin grown.rooted.acyclic
    (Nat.lt_succ_of_le (BTreeMap.card_reached_le ledger.orders ledger.Parents orderId)) acts
  walk := walk_closed ledger

theorem forest_of_named (grown : ledger.Grown) (named : ledger.ParentNamed) : ledger.Forest where
  climbs := climbs_of_grown grown
  listed parent child := ⟨named parent child, grown.listed child parent⟩
  once orderId held found := grown.once orderId held.tied (by rw [tied, found]; rfl)

theorem grown_empty : ({} : Ledger).Grown := by
  have parents (parent child : String) : ¬ ({} : Ledger).Parents parent child := by
    rintro ⟨held, found, -⟩
    cases found
  refine ⟨rooted_empty, ?_, ?_, ?_, ?_⟩
  · intro child parent leads
    cases leads
  · intro first second child below
    exact (parents _ _ below).elim
  all_goals
    intro orderId tied found
    cases found

theorem parentNamed_empty : ({} : Ledger).ParentNamed := by
  rintro parent child ⟨held, found, -⟩
  cases found

theorem grown_applyAll {acts : List Act} (grown : ledger.Grown) (keeps : Each KeepsLinks ledger acts) :
    (ledger.applyAll acts "" ∅).Grown := by
  induction acts generalizing ledger with
  | nil => exact grown
  | cons act rest ih => exact ih (grown_apply grown keeps.1) keeps.2

theorem parentNamed_applyAll {acts : List Act} (grown : ledger.Grown) (named : ledger.ParentNamed) (keeps : Each KeepsLinks ledger acts)
    (apart : Each NetsApart ledger acts) : (ledger.applyAll acts "" ∅).ParentNamed := by
  induction acts generalizing ledger with
  | nil => exact named
  | cons act rest ih =>
    exact ih (grown_apply grown keeps.1) (parentNamed_apply grown named keeps.1 apart.1) keeps.2 apart.2

theorem each_append {Met : Ledger → Act → Prop} {first rest : List Act} :
    Each Met ledger (first ++ rest) ↔ Each Met ledger first ∧ Each Met (ledger.applyAll first "" ∅) rest := by
  induction first generalizing ledger with
  | nil => exact ⟨fun all => ⟨trivial, all⟩, And.right⟩
  | cons act first ih =>
    rw [List.cons_append, Each, ih, Each, and_assoc]
    rfl

/-- A change's acts keep links where the order is under the ID its terms carry. -/
theorem each_of_changeActs {order : Order} {acts : List Act} (changes : ChangeActs order acts)
    (own : ∀ tied, ledger.tied order.orderId = some tied → tied.link = order.link) : Each KeepsLinks ledger acts := by
  induction acts generalizing ledger with
  | nil => trivial
  | cons act rest ih =>
    have change := changes act List.mem_cons_self
    refine ⟨?_, ih (fun other member => changes other (List.mem_cons_of_mem act member)) fun tied found => ?_⟩
    · cases change with
      | terms same link =>
        intro tied found
        rw [same] at found
        rw [link]
        exact own tied found
      | _ => trivial
    · rw [tied_apply] at found
      cases change with
      | terms same link =>
        rw [tiedAfter, if_pos same] at found
        obtain ⟨earlier, -, rfl⟩ := Option.map_eq_some_iff.mp found
        exact link
      | _ => exact own tied found

theorem each_of_settleActs {acts : List Act} (settles : ∀ act ∈ acts, SettleAct act) : Each KeepsLinks ledger acts := by
  induction acts generalizing ledger with
  | nil => trivial
  | cons act rest ih =>
    refine ⟨?_, ih fun other member => settles other (List.mem_cons_of_mem act member)⟩
    cases settles act List.mem_cons_self <;> trivial

end

end Ledger

/-- An entry the deciders make: an order proposed under an ID minted fresh, a change asked for, a member linked to its net,
and any other, whose acts keep the links there are. -/
inductive LinksDecided (book : Book) : Made → Prop where
  | proposed {head : Nat} {ctx : Context} {terms : Order} {key : String} {act : Made}
      (decided : proposed book head ctx terms key = .ok act) (fresh : book.ledger.tied (ctx.minted "ORD" 0) = none) :
      LinksDecided book act
  | changed {head : Nat} {ctx : Context} {request : RequestOrderChangeRequest} {act : Made} {changeId : String}
      (decided : requestOrderChange book head ctx request = .ok (act, changeId)) : LinksDecided book act
  | linked {head : Nat} {ctx : Context} {member netOrderId netAccountId : String} {act : Made}
      (decided : linkNetMember book head ctx member netOrderId netAccountId = .ok (some act)) : LinksDecided book act
  | other {head : Nat} {ctx : Context} {draft : Draft} {act : Made} (decided : made book head ctx draft = .ok act)
      (keeps : book.ledger.Each Ledger.KeepsLinks draft.body.acts) : LinksDecided book act

/-- An entry made of acts that keep links. -/
def KeepsAll (book : Book) (act : Made) : Prop :=
  ∃ head ctx draft, made book head ctx draft = .ok act ∧ book.ledger.Each Ledger.KeepsLinks draft.body.acts

theorem keeps_of_finish {book : Book} {head : Nat} {ctx : Context} {plan : Plan} {act : Made}
    (finished : finish book head ctx plan = .ok act) (keeps : book.ledger.Each Ledger.KeepsLinks plan.acts) : KeepsAll book act := by
  obtain ⟨more, settles, decided⟩ := finish_ok finished
  exact ⟨head, ctx, _, decided, Ledger.each_append.mpr ⟨keeps, Ledger.each_of_settleActs settles⟩⟩

theorem tied_of_held {book : Book} {orderId : String} {held : OrderHeld} (found : book.ledger.orders[orderId]? = some held) :
    book.ledger.tied orderId = some held.tied := by
  rw [Ledger.tied, found]
  rfl

theorem keeps_of_proposed {book : Book} {head : Nat} {ctx : Context} {terms : Order} {key : String} {act : Made}
    (decided : proposed book head ctx terms key = .ok act) (fresh : book.ledger.tied (ctx.minted "ORD" 0) = none) :
    KeepsAll book act := by
  unfold proposed at decided
  dsimp only at decided
  split at decided
  · next alone =>
    refine keeps_of_finish decided ⟨⟨fresh, fun link linked => ?_⟩, trivial⟩
    rw [show terms.link = some link from linked] at alone
    cases alone
  · next link linked =>
    obtain ⟨kind, decided⟩ := guard_ok.mp decided
    obtain ⟨parent, found, decided⟩ := bind_ok.mp decided
    obtain ⟨-, decided⟩ := guard_ok.mp decided
    obtain ⟨-, decided⟩ := guard_ok.mp decided
    obtain ⟨-, decided⟩ := guard_ok.mp decided
    obtain ⟨state, -, decided⟩ := bind_ok.mp decided
    obtain ⟨-, decided⟩ := guard_ok.mp decided
    obtain ⟨-, decided⟩ := guard_ok.mp decided
    refine keeps_of_finish decided ⟨⟨fresh, fun other same => ?_⟩, trivial⟩
    rw [show terms.link = some other from same] at linked
    cases linked
    refine ⟨not_not.mp kind, ?_⟩
    rw [tied_of_held (heldOrder_ok found)]
    rintro ⟨⟩

theorem keeps_of_changed {book : Book} {head : Nat} {ctx : Context} {request : RequestOrderChangeRequest} {act : Made}
    {changeId : String} (grown : book.ledger.Grown) (decided : requestOrderChange book head ctx request = .ok (act, changeId)) :
    KeepsAll book act := by
  unfold requestOrderChange at decided
  obtain ⟨order, found, decided⟩ := bind_ok.mp decided
  obtain ⟨-, -, decided⟩ := bind_ok.mp decided
  obtain ⟨-, -, decided⟩ := bind_ok.mp decided
  have held := tied_of_held (heldOrder_ok found)
  have keyed : order.order.orderId = request.orderId := grown.keyed _ _ held
  split at decided
  · next change =>
    obtain ⟨-, -, decided⟩ := bind_ok.mp decided
    obtain ⟨state, -, decided⟩ := bind_ok.mp decided
    obtain ⟨⟨row, kind, acts⟩, changes, decided⟩ := bind_ok.mp decided
    obtain ⟨finished, made, decided⟩ := bind_ok.mp decided
    have keeps := keeps_of_finish made (Ledger.each_of_changeActs (changeActs_spec changes) fun tied same => by
      rw [keyed, held] at same
      cases same
      rfl)
    split at decided
    · obtain ⟨-, -, decided⟩ := bind_ok.mp decided
      cases decided
      exact keeps
    · cases decided
      exact keeps
  · cases decided

theorem keeps_of_linked {book : Book} {head : Nat} {ctx : Context} {member netOrderId netAccountId : String} {act : Made}
    (decided : linkNetMember book head ctx member netOrderId netAccountId = .ok (some act)) : KeepsAll book act := by
  unfold linkNetMember at decided
  obtain ⟨held, -, decided⟩ := bind_ok.mp decided
  split at decided
  · cases decided
  · obtain ⟨made, finished, decided⟩ := bind_ok.mp decided
    cases decided
    exact keeps_of_finish finished ⟨trivial, trivial⟩

theorem LinksDecided.keeps {book : Book} {act : Made} (grown : book.ledger.Grown) (decided : LinksDecided book act) :
    KeepsAll book act := by
  cases decided with
  | proposed decided fresh => exact keeps_of_proposed decided fresh
  | changed decided => exact keeps_of_changed grown decided
  | linked decided => exact keeps_of_linked decided
  | other decided keeps => exact ⟨_, _, _, decided, keeps⟩

theorem grown_of_decided {book : Book} {act : Made} (grown : book.ledger.Grown) (decided : LinksDecided book act) :
    act.held.ledger.Grown := by
  obtain ⟨head, ctx, draft, made, keeps⟩ := decided.keeps grown
  obtain ⟨applied, -, -⟩ := made_ok made
  have after : (book.ledger.applyAll draft.body.acts "" ∅).Grown := Ledger.grown_applyAll grown keeps
  have ties := Ledger.tied_of_applied applied
  exact Ledger.grown_of_tied ties after

theorem parentNamed_of_decided {book : Book} {act : Made} (grown : book.ledger.Grown) (named : book.ledger.ParentNamed)
    (decided : LinksDecided book act) (apart : book.ledger.Each Ledger.NetsApart act.entry.body.acts) : act.held.ledger.ParentNamed := by
  obtain ⟨head, ctx, draft, made, keeps⟩ := decided.keeps grown
  obtain ⟨applied, -, -⟩ := made_ok made
  rw [acts_of_made made] at apart
  have after : (book.ledger.applyAll draft.body.acts "" ∅).ParentNamed := Ledger.parentNamed_applyAll grown named keeps apart
  have ties := Ledger.tied_of_applied applied
  exact Ledger.parentNamed_of_tied ties after

/-- In every run of the deciders' entries split parents end at a root and the recursions over the tree return; and where
no order linked to a net was split from another, the tree is a forest. -/
theorem orders_forest (accountId partition : String) (acts : List Made) (book : Book) :
    (Run (fun book act after => LinksDecided book act ∧ after = act.held) (Book.new accountId partition) acts book →
      book.ledger.Climbs ∧ book.ledger.Recurses) ∧
    (Run (fun book act after => book.ledger.Each Ledger.NetsApart act.entry.body.acts ∧ LinksDecided book act ∧ after = act.held)
      (Book.new accountId partition) acts book → book.ledger.Forest) := by
  constructor
  · intro run
    have grown : book.ledger.Grown := by
      refine run.invariant (fun book => book.ledger.Grown) Ledger.grown_empty fun before act after held taken => ?_
      obtain ⟨decided, rfl⟩ := taken
      exact grown_of_decided held decided
    exact ⟨Ledger.climbs_of_grown grown, Ledger.recurses_of_grown grown⟩
  · intro run
    have both : book.ledger.Grown ∧ book.ledger.ParentNamed := by
      refine run.invariant (fun book => book.ledger.Grown ∧ book.ledger.ParentNamed)
        ⟨Ledger.grown_empty, Ledger.parentNamed_empty⟩ fun before act after held taken => ?_
      obtain ⟨apart, decided, rfl⟩ := taken
      exact ⟨grown_of_decided held.1 decided, parentNamed_of_decided held.1 held.2 decided apart⟩
    exact Ledger.forest_of_named both.1 both.2

/-- The act links no order to a net. -/
def netless : Act → Bool
  | .netLinked _ _ _ => false
  | _ => true

theorem each_apart_of_netless {ledger : Ledger} {acts : List Act} (none : acts.all netless = true) :
    ledger.Each Ledger.NetsApart acts := by
  induction acts generalizing ledger with
  | nil => trivial
  | cons act rest ih =>
    rw [List.all_cons, Bool.and_eq_true] at none
    refine ⟨?_, ih none.2⟩
    cases act with
    | netLinked member netOrderId netAccountId => cases none.1
    | _ => trivial

/-- An order recorded, one split from it, and what linking that one to a net comes to. -/
def splitThenNet : Result (Made × Made × Option Made) := do
  let recorded ← made (Book.new "ACC-1" "P-1") 0 {} {
    entryId := "ENT-0", kind := "order-recorded", effectiveDate := "2026-10-16"
    body := { acts := [.opened { orderId := "ORD-P", instrumentId := "EUR", side := .buy, quantity := some ⟨100, 0⟩ } true] } }
  let split ← proposed recorded.held 1 { minted := fun identifier count => identifier ++ "-1-" ++ toString count } {
    instrumentId := "EUR", side := .buy, quantity := some ⟨40, 0⟩
    link := some { kind := .split, parentOrderId := "ORD-P" } } ""
  let linked ← linkNetMember split.held 2 { minted := fun identifier count => identifier ++ "-2-" ++ toString count }
    "ORD-1-0" "ORD-N" "ACC-A"
  return (recorded, split, linked)

theorem splitThenNet_decided : ∃ recorded split linked, LinksDecided (Book.new "ACC-1" "P-1") recorded ∧
    LinksDecided recorded.held split ∧ LinksDecided split.held linked ∧ recorded.entry.body.acts.all netless = true ∧
      split.entry.body.acts.all netless = true ∧ split.held.ledger.Parents "ORD-P" "ORD-1-0" ∧
        linked.held.ledger.Parents "ORD-P" "ORD-1-0" ∧ linked.held.ledger.splitParent "ORD-1-0" = none := by
  have computed : splitThenNet.toOption.any (fun (recorded, split, linked) =>
      recorded.entry.body.acts.all netless && (split.entry.body.acts.all netless &&
        ((split.held.ledger.tied "ORD-P").any (fun tied => tied.children.contains "ORD-1-0") &&
        ((recorded.held.ledger.tied "ORD-1-0").isNone && linked.any fun linked =>
          (linked.held.ledger.tied "ORD-P").any (fun tied => tied.children.contains "ORD-1-0") &&
            (linked.held.ledger.splitParent "ORD-1-0").isNone)))) = true := by
    decide +kernel
  have lists {ledger : Ledger} (found : (ledger.tied "ORD-P").any (fun tied => tied.children.contains "ORD-1-0") = true) :
      ledger.Parents "ORD-P" "ORD-1-0" := by
    obtain ⟨tied, inLedger, member⟩ := (Option.any_eq_true _ _).mp found
    exact Ledger.parents_tied.mpr ⟨tied, inLedger, List.contains_iff_mem.mp member⟩
  obtain ⟨⟨recorded, split, linked⟩, done, read⟩ := answered_of computed
  simp only [Bool.and_eq_true, Option.any_eq_true, Option.isNone_iff_eq_none] at read
  obtain ⟨first, second, listed, fresh, after, rfl, listed', unlinked⟩ := read
  unfold splitThenNet at done
  obtain ⟨_, made, done⟩ := bind_ok.mp done
  obtain ⟨_, proposed, done⟩ := bind_ok.mp done
  obtain ⟨_, linked, done⟩ := bind_ok.mp done
  cases done
  refine ⟨recorded, split, after, .other made ⟨⟨rfl, fun link none => by cases none⟩, trivial⟩, .proposed proposed fresh,
    .linked linked, first, second, lists ?_, lists ?_, unlinked⟩
  · exact (Option.any_eq_true _ _).mpr listed
  · exact (Option.any_eq_true _ _).mpr listed'

/-- A split child named a member of a net is still listed by the order it was split from, and names no parent. -/
theorem netted_child_unnamed : ∃ acts book,
    Run (fun book act after => LinksDecided book act ∧ after = act.held) (Book.new "ACC-1" "P-1") acts book ∧
      book.ledger.Parents "ORD-P" "ORD-1-0" ∧ book.ledger.splitParent "ORD-1-0" = none ∧ ¬ book.ledger.Forest := by
  obtain ⟨recorded, split, linked, first, second, third, -, -, -, listed, unnamed⟩ := splitThenNet_decided
  refine ⟨_, linked.held, (((Run.nil _).snoc ⟨first, rfl⟩).snoc ⟨second, rfl⟩).snoc ⟨third, rfl⟩, listed, unnamed, fun forest => ?_⟩
  have named := (forest.listed "ORD-P" "ORD-1-0").mp listed
  rw [unnamed] at named
  cases named

/-- An order recorded and one split from it are a tree, and what is asked of it is answered. -/
theorem split_child_forest : ∃ acts book,
    Run (fun book act after => LinksDecided book act ∧ after = act.held) (Book.new "ACC-1" "P-1") acts book ∧
      book.ledger.Parents "ORD-P" "ORD-1-0" ∧ book.ledger.Climbs ∧ book.ledger.Recurses ∧ book.ledger.Forest := by
  obtain ⟨recorded, split, -, first, second, -, netless, netless', listed, -, -⟩ := splitThenNet_decided
  have run : Run (fun book act after => LinksDecided book act ∧ after = act.held) (Book.new "ACC-1" "P-1") _ split.held :=
    ((Run.nil _).snoc ⟨first, rfl⟩).snoc ⟨second, rfl⟩
  obtain ⟨each, apart⟩ := orders_forest "ACC-1" "P-1" _ split.held
  have forest := apart (((Run.nil _).snoc ⟨each_apart_of_netless netless, first, rfl⟩).snoc
    ⟨each_apart_of_netless netless', second, rfl⟩)
  exact ⟨_, split.held, run, listed, (each run).1, (each run).2, forest⟩

end MeridianCore.Bor
