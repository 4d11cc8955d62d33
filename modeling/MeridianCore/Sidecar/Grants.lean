import MeridianCore.Bus.Topics
import MeridianCore.Ordered.Map

/-! What a plugin is allowed to do, from the contract: a role holds a topic exactly where a row of the contract names it as that
topic's publisher or subscriber. -/

namespace MeridianCore.Sidecar
open Bus Segmented

/-- The roles renamed, each old name and the name it became. -/
def renamedRoles : List (String × String) := [("ccm", "connectivity"), ("dgm", "data"), ("match", "confirmation")]

/-- A role's name now. -/
def roleNow (role : String) : String := (renamedRoles.find? fun renamed => renamed.1 == role).elim role Prod.snd

def rolesNow (roles : List String) : List String := roles.map roleNow

/-- The patterns a plugin may publish on and subscribe to. -/
structure Grants where
  publish : List String := []
  subscribe : List String := []
  deriving DecidableEq

/-- Does a grant permit everything a request would deliver? -/
def covers (grant request : String) : Bool :=
  if grant = request then true
  else if '*' ∉ request.toList then topicMatches grant request
  else
    match stripSuffix ".**" grant with
    -- The point matters: a grant on one name is not one on a longer name that starts with it.
    | some head => head.toList ++ ['.'] <+: request.toList
    | none => false

namespace Grants

/-- May this plugin publish on a topic? -/
def mayPublish (grants : Grants) (topic : String) : Bool := grants.publish.any fun pattern => topicMatches pattern topic

/-- May this plugin subscribe to a pattern? The request must be no wider than a grant. -/
def maySubscribe (grants : Grants) (pattern : String) : Bool := grants.subscribe.any fun granted => covers granted pattern

end Grants

structure Contract.Row where
  /-- With a star for an instance segment. -/
  topic : String
  publishers : List String
  subscribers : List String

/-- The contract's topic rows, and the names that are roles and components. -/
structure Contract where
  rows : List Contract.Row
  roles : BTreeSet String
  components : BTreeSet String

/-- Texts once each, in their order. -/
def sortedSet (texts : List String) : List String := (texts.foldl (fun set text => set.insert text) (∅ : BTreeSet String)).toList

theorem mem_sortedSet {text : String} {texts : List String} : text ∈ sortedSet texts ↔ text ∈ texts := by
  have folded (set : BTreeSet String) : text ∈ texts.foldl (fun set text => set.insert text) set ↔ text ∈ set ∨ text ∈ texts := by
    induction texts generalizing set with
    | nil => simp
    | cons first rest ih =>
      rw [List.foldl_cons, ih, Std.ExtTreeSet.mem_insert, Std.LawfulEqCmp.compare_eq_iff_eq, List.mem_cons, or_comm (a := first = text)]
      rw [or_assoc, eq_comm (a := first)]
  rw [sortedSet, Std.ExtTreeSet.mem_toList, folded]
  simp

namespace Contract

def isRole (contract : Contract) (name : String) : Bool := contract.roles.contains name

def isComponent (contract : Contract) (name : String) : Bool := contract.components.contains name

/-- Everything the rows naming any of some names give them. -/
def named (contract : Contract) (names : List String) : Grants where
  publish := sortedSet ((contract.rows.filter fun row => row.publishers.any names.contains).map Contract.Row.topic)
  subscribe := sortedSet ((contract.rows.filter fun row => row.subscribers.any names.contains).map Contract.Row.topic)

/-- A plugin's grants, the union of its roles'; refused for a name that is not a role, rather than granted nothing. -/
def grantsFor (contract : Contract) (roles : List String) : Except String Grants :=
  match (rolesNow roles).find? fun role => !contract.isRole role with
  | some stranger =>
    .error (if contract.isComponent stranger then
        "`" ++ stranger ++ "` is one of the deployment's own components, not a role a plugin may hold"
      else "`" ++ stranger ++ "` is not a role; the roles are " ++ ", ".intercalate contract.roles.toList)
  | none => .ok (contract.named (rolesNow roles))

/-- A component's own rows. -/
def component (contract : Contract) (name : String) : Grants := contract.named [name]

/-- Which of a plugin's roles hold a topic to publish, in the plugin's order. -/
def rolesGranting (contract : Contract) (roles : List String) (topic : String) : List String :=
  roles.filter fun role => (contract.named [role]).mayPublish topic

/-- Which of a plugin's roles hear a topic. -/
def rolesHearing (contract : Contract) (roles : List String) (topic : String) : List String :=
  roles.filter fun role => (contract.named [role]).maySubscribe topic

end Contract

section Covers

variable {grant request topic : String} {grants : Grants}

theorem pieces_append (before after : List Char) :
    pieces (String.ofList (before ++ '.' :: after)) = pieces (String.ofList before) ++ pieces (String.ofList after) := by
  rw [pieces, segments_append, List.map_append]
  rfl

/-- A grant that covers a request takes every topic the request does. -/
theorem covers_delivers (covered : covers grant request = true) (delivers : Delivers (pieces request) (segments topic)) :
    Delivers (pieces grant) (segments topic) := by
  unfold covers at covered
  by_cases same : grant = request
  · rwa [same]
  · rw [if_neg same] at covered
    by_cases plain : '*' ∉ request.toList
    · rw [if_pos plain, topicMatches_iff] at covered
      rw [pieces_literal plain, delivers_literals] at delivers
      rwa [delivers] at covered
    · rw [if_neg plain] at covered
      cases stripped : stripSuffix ".**" grant with
      | none =>
        rw [stripped] at covered
        cases covered
      | some head =>
        rw [stripped] at covered
        obtain ⟨more, within⟩ := of_decide_eq_true covered
        have whole : request = String.ofList (head.toList ++ '.' :: more) := by
          apply String.toList_injective
          rw [← within, String.toList_ofList, List.append_assoc, List.singleton_append]
        have wide : grant = String.ofList (head.toList ++ '.' :: ['*', '*']) := by
          rw [stripSuffix_some stripped]
          apply String.toList_injective
          exact String.toList_append.trans String.toList_ofList.symm
        rw [whole, pieces_append] at delivers
        rw [wide, pieces_append, show pieces (String.ofList ['*', '*']) = [.tail] by decide +kernel]
        refine delivers.widened fun none' => segments_some (String.ofList more) ?_
        exact List.map_eq_nil_iff.mp none'

theorem covers_matches (covered : covers grant request = true) (delivered : topicMatches request topic = true) :
    topicMatches grant topic = true := by
  rw [topicMatches_iff] at delivered ⊢
  exact covers_delivers covered delivered

/-- A subscription a plugin may make delivers nothing its grants do not take. -/
theorem subscription_granted (grants : Grants) (pattern topic : String) (may : grants.maySubscribe pattern = true)
    (delivered : topicMatches pattern topic = true) : ∃ granted ∈ grants.subscribe, topicMatches granted topic = true := by
  obtain ⟨granted, among, covered⟩ := List.any_eq_true.mp may
  exact ⟨granted, among, covers_matches covered delivered⟩

def streetGrants : Grants := { subscribe := ["platform.*.**"] }

theorem subscription_granted_street :
    ∃ granted ∈ streetGrants.subscribe, topicMatches granted "platform.street.event.position-updated" = true :=
  subscription_granted streetGrants "platform.*.event.*" "platform.street.event.position-updated" (by decide +kernel) (by decide +kernel)

end Covers

section Rows

variable {contract : Contract} {roles names : List String} {grants : Grants} {pattern topic : String}

theorem mem_column (column : Contract.Row → List String) : pattern ∈ sortedSet ((contract.rows.filter fun row =>
    (column row).any names.contains).map Contract.Row.topic) ↔
      ∃ row ∈ contract.rows, (∃ name ∈ column row, name ∈ names) ∧ row.topic = pattern := by
  rw [mem_sortedSet, List.mem_map]
  refine exists_congr fun row => ?_
  rw [List.mem_filter, List.any_eq_true, and_assoc]
  simp only [List.contains_iff_mem]

theorem mayPublish_named : (contract.named names).mayPublish topic = true ↔
    ∃ row ∈ contract.rows, (∃ name ∈ row.publishers, name ∈ names) ∧ topicMatches row.topic topic = true := by
  unfold Grants.mayPublish Contract.named
  rw [List.any_eq_true]
  constructor
  · rintro ⟨pattern, among, matched⟩
    obtain ⟨row, listed, named, rfl⟩ := (mem_column Contract.Row.publishers).mp among
    exact ⟨row, listed, named, matched⟩
  · rintro ⟨row, listed, named, matched⟩
    exact ⟨row.topic, (mem_column Contract.Row.publishers).mpr ⟨row, listed, named, rfl⟩, matched⟩

theorem grantsFor_ok : contract.grantsFor roles = .ok grants ↔
    (∀ role ∈ rolesNow roles, contract.isRole role = true) ∧ grants = contract.named (rolesNow roles) := by
  unfold Contract.grantsFor
  cases stranger : (rolesNow roles).find? fun role => !contract.isRole role with
  | none =>
    rw [List.find?_eq_none] at stranger
    dsimp only
    constructor
    · intro same
      exact ⟨fun role among => by simpa using stranger role among, (Except.ok.inj same).symm⟩
    · rintro ⟨-, rfl⟩
      rfl
  | some role =>
    dsimp only
    refine ⟨fun never => (by cases never), fun both => ?_⟩
    have held := both.1 role (List.mem_of_find?_eq_some stranger)
    have other := List.find?_some stranger
    rw [held] at other
    cases other

/-- A plugin of some roles may send exactly what a row names one of them, by its name now, as a publisher of, which is what one of
them alone may send; and whatever it may hear comes of a row naming one of them as a subscriber. -/
theorem grants_are_rows (contract : Contract) (roles : List String) (grants : Grants) (granted : contract.grantsFor roles = .ok grants) :
    (∀ role ∈ rolesNow roles, contract.isRole role = true) ∧
    (∀ topic, grants.mayPublish topic = true ↔
      ∃ row ∈ contract.rows, (∃ name ∈ row.publishers, name ∈ rolesNow roles) ∧ topicMatches row.topic topic = true) ∧
    (∀ topic, grants.mayPublish topic = true ↔ contract.rolesGranting (rolesNow roles) topic ≠ []) ∧
    ∀ pattern topic, grants.maySubscribe pattern = true → topicMatches pattern topic = true →
      ∃ row ∈ contract.rows, (∃ name ∈ row.subscribers, name ∈ rolesNow roles) ∧ topicMatches row.topic topic = true := by
  obtain ⟨all, rfl⟩ := grantsFor_ok.mp granted
  refine ⟨all, fun topic => mayPublish_named, fun topic => ?_, fun pattern topic may delivered => ?_⟩
  · rw [mayPublish_named, Contract.rolesGranting, Ne, List.filter_eq_nil_iff]
    push Not
    constructor
    · rintro ⟨row, listed, ⟨name, publishes, held⟩, matched⟩
      exact ⟨name, held, mayPublish_named.mpr ⟨row, listed, ⟨name, publishes, List.mem_singleton_self name⟩, matched⟩⟩
    · rintro ⟨role, held, may⟩
      obtain ⟨row, listed, ⟨name, publishes, same⟩, matched⟩ := mayPublish_named.mp may
      exact ⟨row, listed, ⟨name, publishes, List.mem_singleton.mp same ▸ held⟩, matched⟩
  · obtain ⟨granted', among, covered⟩ := List.any_eq_true.mp may
    obtain ⟨row, listed, named, rfl⟩ := (mem_column Contract.Row.subscribers).mp among
    exact ⟨row, listed, named, covers_matches covered delivered⟩

def dataContract : Contract where
  rows := [⟨"platform.data.command.record", ["data"], ["lake"]⟩, ⟨"platform.lake.**", ["lake"], ["data", "signal"]⟩]
  roles := (∅ : BTreeSet String).insert "data"
  components := (∅ : BTreeSet String).insert "lake"

theorem grants_are_rows_renamed : (dataContract.named ["data"]).maySubscribe "platform.lake.*" = true ∧
    ∃ row ∈ dataContract.rows, (∃ name ∈ row.subscribers, name ∈ rolesNow ["dgm"]) ∧
      topicMatches row.topic "platform.lake.prices" = true := by
  have may : (dataContract.named ["data"]).maySubscribe "platform.lake.*" = true := by decide +kernel
  have granted : dataContract.grantsFor ["dgm"] = .ok (dataContract.named ["data"]) := grantsFor_ok.mpr ⟨by decide +kernel, by rfl⟩
  exact ⟨may, (grants_are_rows dataContract ["dgm"] _ granted).2.2.2 "platform.lake.*" "platform.lake.prices" may (by decide +kernel)⟩

end Rows

end MeridianCore.Sidecar
