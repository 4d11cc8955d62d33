import MeridianCore.Ordered.Map

/-! Who may reach what, evaluated from the records a deployment admin authors. Access only adds up, permission by permission:
each contributes only its own accounts, at its own level, to the plugin and the role its entry names. -/

namespace MeridianCore.Permitted

/-- A level an access entry names, unspecified for a number the schema does not define. -/
inductive AccessLevel where
  | unspecified
  | read
  | write
  | admin
  deriving DecidableEq

inductive AccountState where
  | unspecified
  | open_
  | closed
  deriving DecidableEq

structure AccountRecord where
  accountId : String
  state : AccountState
  deriving DecidableEq

structure UserGroup where
  userGroupId : String
  name : String := ""
  logins : List String := []
  directoryGroups : List String := []

structure AccessEntry where
  pluginInstanceId : String
  /-- Empty on a plugin holding no role. -/
  role : String := ""
  level : AccessLevel

structure AccessGroup where
  accessGroupId : String
  entries : List AccessEntry

structure AccountGroup where
  accountGroupId : String
  accountIds : List String := []
  builtIn : Bool := false

structure Permission where
  userGroupId : String
  accessGroupId : String
  accountGroupId : String := ""

structure Person where
  subject : String
  displayName : String := ""
  directoryGroups : List String := []
  signedInAtNs : Int := 0

structure KnownPlugin where
  pluginInstanceId : String
  roles : List String

structure AccessRecords where
  accounts : List AccountRecord := []
  userGroups : List UserGroup := []
  accessGroups : List AccessGroup := []
  accountGroups : List AccountGroup := []
  permissions : List Permission := []
  people : List Person := []
  knownPlugins : List KnownPlugin := []

structure ExternalAccountLink where
  pluginInstanceId : String
  accountId : String

/-- The built-in access group of the dashboard's own capabilities. -/
def deploymentAdmin : String := "deployment-admin"

/-- The built-in access group granting admin on every plugin, and no account. -/
def allPluginsAdmin : String := "all-plugins-admin"

def isBuiltInAccessGroup (accessGroupId : String) : Bool := accessGroupId == deploymentAdmin || accessGroupId == allPluginsAdmin

/-- The accounts reachable at each level. -/
structure Levels where
  read : Finset String := ∅
  write : Finset String := ∅
  deriving DecidableEq

namespace Levels

def add (levels other : Levels) : Levels := ⟨levels.read ∪ other.read, levels.write ∪ other.write⟩

end Levels

/-- The higher of two data levels, write including read. -/
def higher (one other : Option AccessLevel) : Option AccessLevel :=
  if one = some .write ∨ other = some .write then some .write
  else if one = some .read ∨ other = some .read then some .read
  else none

/-- What a person holds on one role of a plugin, or on a plugin holding none as a whole: whether they administer it, their data
level, the higher one granted, and the accounts that level reaches. -/
structure Held where
  admin : Bool := false
  data : Option AccessLevel := none
  accounts : Levels := {}
  deriving DecidableEq

namespace Held

def add (held other : Held) : Held := ⟨held.admin || other.admin, higher held.data other.data, held.accounts.add other.accounts⟩

end Held

/-- What a person holds on one plugin, role by role, the empty role for a plugin holding none. -/
structure PluginHeld where
  roles : BTreeMap String Held := ∅

abbrev PluginLevels := BTreeMap String PluginHeld

namespace PluginHeld

def add (plugin : PluginHeld) (role : String) (held : Held) : PluginHeld :=
  ⟨plugin.roles.insert role ((plugin.roles[role]?.getD {}).add held)⟩

/-- The union over the roles. -/
def union (plugin : PluginHeld) : Held := (plugin.roles.valuesOf).foldl Held.add {}

end PluginHeld

/-- The roles the records know a plugin holds; none for a plugin they do not list. -/
def knownRoles (records : AccessRecords) (pluginInstanceId : String) : Option (List String) :=
  (records.knownPlugins.find? fun known => known.pluginInstanceId == pluginInstanceId).map KnownPlugin.roles

/-- Whether an entry naming a role on a plugin holds anything: a role the plugin holds, or no role on a plugin holding none. A
plugin the records do not list is read as written. -/
def entryHolds (records : AccessRecords) (pluginInstanceId role : String) : Bool :=
  match knownRoles records pluginInstanceId with
  | none => true
  | some [] => role.isEmpty
  | some roles => !role.isEmpty && roles.any fun held => held == role

/-- The roles a grant on a plugin is held on: those the records know, the empty role for a plugin holding none or not listed. -/
def rolesOf (known : BTreeMap String (List String)) (pluginInstanceId : String) : List String :=
  match known[pluginInstanceId]? with
  | some (role :: roles) => role :: roles
  | _ => [""]

/-- One person's access, as the dashboard evaluates it. -/
structure Access where
  deploymentAdmin : Bool := false
  allPluginsAdmin : Bool := false
  userGroupIds : Finset String
  plugins : PluginLevels := ∅
  knownRoles : BTreeMap String (List String)

namespace Access

/-- A role held, marked administered. -/
def administered (roles : BTreeMap String Held) (role : String) : BTreeMap String Held :=
  roles.insert role { roles[role]?.getD {} with admin := true }

/-- What a person holds on each role of one plugin, All plugins (admin) marking admin on every role it holds. -/
def plugin (access : Access) (pluginInstanceId : String) : PluginHeld :=
  let held := access.plugins[pluginInstanceId]?.getD {}
  if access.allPluginsAdmin then ⟨(rolesOf access.knownRoles pluginInstanceId).foldl administered held.roles⟩ else held

end Access

/-- The user groups a person belongs to: one of their logins, or at sign-in in one of their directory groups. -/
def userGroupsOf (records : AccessRecords) (subject : String) (directoryGroups : List String) : List UserGroup :=
  records.userGroups.filter fun group =>
    group.logins.any (fun login => login == subject) || group.directoryGroups.any fun named => directoryGroups.contains named

/-- The accounts an account group reaches that exist: every account the records hold for All accounts, and for any other the
ones it lists. -/
def accountsOfGroup (records : AccessRecords) (accountGroupId : String) : List AccountRecord :=
  match records.accountGroups.find? fun group => group.accountGroupId == accountGroupId with
  | none => []
  | some group =>
    if group.builtIn then records.accounts
    else group.accountIds.filterMap fun id => records.accounts.find? fun account => account.accountId == id

/-- What one entry holds over the accounts of its permission, none where it names no level. -/
def heldBy (accounts : List AccountRecord) (level : AccessLevel) : Option Held :=
  match level with
  | .admin => some { admin := true }
  | .read => some { data := some .read, accounts := { read := (accounts.map AccountRecord.accountId).toFinset } }
  | .write =>
    let writable := accounts.filter fun account => account.state ≠ .closed
    some { data := some .write, accounts := ⟨(accounts.map AccountRecord.accountId).toFinset, (writable.map AccountRecord.accountId).toFinset⟩ }
  | .unspecified => none

/-- One entry's contribution: its own accounts, at its own level, to the plugin and role it names. -/
def foldEntry (records : AccessRecords) (accounts : List AccountRecord) (into : PluginLevels) (entry : AccessEntry) : PluginLevels :=
  match heldBy accounts entry.level with
  | none => into
  | some held =>
    if entryHolds records entry.pluginInstanceId entry.role then
      into.insert entry.pluginInstanceId ((into[entry.pluginInstanceId]?.getD {}).add entry.role held)
    else into

/-- One permission's contribution. -/
def fold (records : AccessRecords) (into : PluginLevels) (permission : Permission) : PluginLevels :=
  match records.accessGroups.find? fun group => group.accessGroupId == permission.accessGroupId with
  | none => into
  | some accessGroup => accessGroup.entries.foldl (foldEntry records (accountsOfGroup records permission.accountGroupId)) into

/-- A permission taken into an access. -/
def take (records : AccessRecords) (access : Access) (permission : Permission) : Access :=
  if permission.accessGroupId = deploymentAdmin then { access with deploymentAdmin := true }
  else if permission.accessGroupId = allPluginsAdmin then { access with allPluginsAdmin := true }
  else { access with plugins := fold records access.plugins permission }

/-- Access held through a set of user groups. -/
def accessOfGroups (records : AccessRecords) (userGroupIds : Finset String) : Access :=
  (records.permissions.filter fun permission => permission.userGroupId ∈ userGroupIds).foldl (take records)
    { userGroupIds
      knownRoles := records.knownPlugins.foldl (fun known plugin => known.insert plugin.pluginInstanceId plugin.roles) ∅ }

/-- A person's access, from who they are and the directory groups they presented at this sign-in. -/
def personAccess (records : AccessRecords) (subject : String) (directoryGroups : List String) : Access :=
  accessOfGroups records ((userGroupsOf records subject directoryGroups).map UserGroup.userGroupId).toFinset

/-- The role that holds no permission-derived scope. -/
def connectivity : String := "connectivity"

/-- A link's account, where the records hold it, written unless it is closed. -/
def linked (records : AccessRecords) (scope : Levels) (link : ExternalAccountLink) : Levels :=
  match records.accounts.find? fun account => account.accountId == link.accountId with
  | none => scope
  | some account =>
    { read := insert account.accountId scope.read
      write := if account.state ≠ .closed then insert account.accountId scope.write else scope.write }

/-- A plugin's account scope: every account anybody may read or write through it on any of its roles but connectivity, and
every account one of its external accounts is linked to. -/
def pluginScope (records : AccessRecords) (links : List ExternalAccountLink) (pluginInstanceId : String) : Levels :=
  let all := (records.permissions.filter fun permission => !isBuiltInAccessGroup permission.accessGroupId).foldl (fold records) ∅
  let scope := match all[pluginInstanceId]? with
    | none => {}
    | some held => (PluginHeld.mk (held.roles.erase connectivity)).union.accounts
  (links.filter fun link => link.pluginInstanceId == pluginInstanceId).foldl (linked records) scope

end MeridianCore.Permitted
