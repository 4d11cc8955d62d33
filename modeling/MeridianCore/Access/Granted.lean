import MeridianCore.Access.Records

/-! What a person's access comes to: on each role of each plugin, exactly what some permission of theirs grants there, whatever
the order of the permissions. -/

namespace MeridianCore.Permitted

/-- What is held on a role of a plugin, nothing where nothing is. -/
def PluginHeld.on (plugin : PluginHeld) (role : String) : Held := plugin.roles[role]?.getD {}

def heldOn (levels : PluginLevels) (pluginInstanceId role : String) : Held := (levels[pluginInstanceId]?.getD {}).on role

/-- A fact two grants together give where one of them does, and none alone. -/
structure Additive (fact : Held → Prop) : Prop where
  none : ¬ fact {}
  add : ∀ one other, fact (one.add other) ↔ fact one ∨ fact other

theorem additive_read (account : String) : Additive fun held => account ∈ held.accounts.read where
  none := Finset.notMem_empty account
  add _ _ := Finset.mem_union

theorem additive_write (account : String) : Additive fun held => account ∈ held.accounts.write where
  none := Finset.notMem_empty account
  add _ _ := Finset.mem_union

theorem additive_admin : Additive fun held => held.admin = true where
  none := Bool.false_ne_true
  add one other := by rw [Held.add, Bool.or_eq_true]

section Add

variable {levels : PluginLevels} {plugin : PluginHeld} {held : Held} {pluginInstanceId role : String} {fact : Held → Prop}

theorem on_add (plugin : PluginHeld) (other : String) (held : Held) (role : String) :
    (plugin.add other held).on role = if other = role then (plugin.on role).add held else plugin.on role := by
  unfold PluginHeld.on PluginHeld.add
  dsimp only
  rw [Std.ExtTreeMap.getElem?_insert]
  by_cases same : other = role
  · subst same
    rw [if_pos Std.ReflOrd.compare_self, if_pos rfl]
    rfl
  · rw [if_neg (by simpa using same), if_neg same]

/-- One entry's grant: its own, to the plugin and the role it names. -/
theorem heldOn_foldEntry (records : AccessRecords) (accounts : List AccountRecord) (levels : PluginLevels) (entry : AccessEntry)
    (pluginInstanceId role : String) : heldOn (foldEntry records accounts levels entry) pluginInstanceId role =
      if entry.pluginInstanceId = pluginInstanceId ∧ entry.role = role ∧ entryHolds records pluginInstanceId role = true then
        ((heldBy accounts entry.level).map (heldOn levels pluginInstanceId role).add).getD (heldOn levels pluginInstanceId role)
      else heldOn levels pluginInstanceId role := by
  unfold foldEntry
  cases grants : heldBy accounts entry.level with
  | none =>
    dsimp only
    rw [Option.map_none, Option.getD_none, ite_self]
  | some held =>
    dsimp only
    rw [Option.map_some, Option.getD_some]
    by_cases holds : entryHolds records entry.pluginInstanceId entry.role = true
    · rw [if_pos holds]
      unfold heldOn
      rw [Std.ExtTreeMap.getElem?_insert]
      by_cases same : entry.pluginInstanceId = pluginInstanceId
      · subst same
        rw [if_pos Std.ReflOrd.compare_self, Option.getD_some, on_add]
        by_cases own : entry.role = role
        · subst own
          rw [if_pos rfl, if_pos ⟨rfl, rfl, holds⟩]
        · rw [if_neg own, if_neg fun both => own both.2.1]
      · rw [if_neg (by simpa using same), if_neg fun both => same both.1]
    · rw [if_neg holds]
      refine (if_neg ?_).symm
      rintro ⟨rfl, rfl, holds'⟩
      exact holds holds'

/-- What an entry over some accounts gives of a fact, on a role of a plugin. -/
def Gives (records : AccessRecords) (fact : Held → Prop) (pluginInstanceId role : String) (accounts : List AccountRecord)
    (entry : AccessEntry) : Prop :=
  entry.pluginInstanceId = pluginInstanceId ∧ entry.role = role ∧ entryHolds records pluginInstanceId role = true ∧
    ∃ held, heldBy accounts entry.level = some held ∧ fact held

theorem fact_foldEntry (additive : Additive fact) (records : AccessRecords) (accounts : List AccountRecord) (levels : PluginLevels)
    (entry : AccessEntry) : fact (heldOn (foldEntry records accounts levels entry) pluginInstanceId role) ↔
      fact (heldOn levels pluginInstanceId role) ∨ Gives records fact pluginInstanceId role accounts entry := by
  rw [heldOn_foldEntry]
  by_cases named : entry.pluginInstanceId = pluginInstanceId ∧ entry.role = role ∧ entryHolds records pluginInstanceId role = true
  · rw [if_pos named]
    obtain ⟨own, ownRole, holds⟩ := named
    cases grants : heldBy accounts entry.level with
    | none =>
      rw [Option.map_none, Option.getD_none]
      refine ⟨.inl, fun either => either.elim id fun gives => ?_⟩
      obtain ⟨-, -, -, held, some', -⟩ := gives
      rw [grants] at some'
      cases some'
    | some held =>
      rw [Option.map_some, Option.getD_some, additive.add]
      refine or_congr_right ⟨fun given => ⟨own, ownRole, holds, held, grants, given⟩, fun gives => ?_⟩
      obtain ⟨-, -, -, held', some', given⟩ := gives
      rw [grants] at some'
      rwa [Option.some.inj some']
  · rw [if_neg named]
    refine ⟨.inl, fun either => either.elim id fun gives => absurd ⟨gives.1, gives.2.1, gives.2.2.1⟩ named⟩

/-- What a permission gives of a fact: what an entry of its access group does, over the accounts of its account group. -/
def Grants (records : AccessRecords) (fact : Held → Prop) (pluginInstanceId role : String) (permission : Permission) : Prop :=
  ∃ group, (records.accessGroups.find? fun group => group.accessGroupId == permission.accessGroupId) = some group ∧
    ∃ entry ∈ group.entries, Gives records fact pluginInstanceId role (accountsOfGroup records permission.accountGroupId) entry

theorem fact_fold (additive : Additive fact) (records : AccessRecords) (levels : PluginLevels) (permission : Permission) :
    fact (heldOn (fold records levels permission) pluginInstanceId role) ↔
      fact (heldOn levels pluginInstanceId role) ∨ Grants records fact pluginInstanceId role permission := by
  unfold fold Grants
  cases found : records.accessGroups.find? fun group => group.accessGroupId == permission.accessGroupId with
  | none =>
    refine ⟨.inl, fun either => either.elim id fun grants => ?_⟩
    obtain ⟨group, some', -⟩ := grants
    cases some'
  | some group =>
    dsimp only
    have entries (entries : List AccessEntry) (levels : PluginLevels) :
        fact (heldOn (entries.foldl (foldEntry records (accountsOfGroup records permission.accountGroupId)) levels) pluginInstanceId role) ↔
          fact (heldOn levels pluginInstanceId role) ∨
            ∃ entry ∈ entries, Gives records fact pluginInstanceId role (accountsOfGroup records permission.accountGroupId) entry := by
      induction entries generalizing levels with
      | nil => simp
      | cons entry rest ih => rw [List.foldl_cons, ih, fact_foldEntry additive, or_assoc, List.exists_mem_cons_iff]
    rw [entries]
    simp

theorem fact_folds (additive : Additive fact) (records : AccessRecords) (permissions : List Permission) (levels : PluginLevels) :
    fact (heldOn (permissions.foldl (fold records) levels) pluginInstanceId role) ↔
      fact (heldOn levels pluginInstanceId role) ∨ ∃ permission ∈ permissions, Grants records fact pluginInstanceId role permission := by
  induction permissions generalizing levels with
  | nil => simp
  | cons permission rest ih => rw [List.foldl_cons, ih, fact_fold additive, or_assoc, List.exists_mem_cons_iff]

theorem fact_empty (additive : Additive fact) : ¬ fact (heldOn ∅ pluginInstanceId role) := by
  unfold heldOn PluginHeld.on
  rw [Std.ExtTreeMap.getElem?_empty, Option.getD_none]
  change ¬ fact ((∅ : BTreeMap String Held)[role]?.getD {})
  rw [Std.ExtTreeMap.getElem?_empty, Option.getD_none]
  exact additive.none

end Add

/-- A permission of some user groups grants a level on a role of a plugin, over some accounts. -/
def Granted (records : AccessRecords) (groups : String → Prop) (pluginInstanceId role : String) (level : AccessLevel)
    (accounts : List AccountRecord) : Prop :=
  ∃ permission ∈ records.permissions, groups permission.userGroupId ∧ isBuiltInAccessGroup permission.accessGroupId = false ∧
    ∃ group, (records.accessGroups.find? fun group => group.accessGroupId == permission.accessGroupId) = some group ∧
      (∃ entry ∈ group.entries, entry.pluginInstanceId = pluginInstanceId ∧ entry.role = role ∧ entry.level = level) ∧
      entryHolds records pluginInstanceId role = true ∧ accounts = accountsOfGroup records permission.accountGroupId

section Grants

variable {records : AccessRecords} {groups : String → Prop} {pluginInstanceId role account : String} {fact : Held → Prop}
  {levels : AccessLevel → List AccountRecord → Prop}

/-- Where a fact comes with certain levels and accounts, some permission grants it where one grants such a level. -/
theorem granted_iff (comes : ∀ level accounts, (∃ held, heldBy accounts level = some held ∧ fact held) ↔ levels level accounts) :
    (∃ permission ∈ records.permissions, groups permission.userGroupId ∧ isBuiltInAccessGroup permission.accessGroupId = false ∧
      Grants records fact pluginInstanceId role permission) ↔
      ∃ level accounts, Granted records groups pluginInstanceId role level accounts ∧ levels level accounts := by
  constructor
  · rintro ⟨permission, among, member, notBuiltIn, group, found, entry, listed, own, ownRole, holds, given⟩
    exact ⟨entry.level, accountsOfGroup records permission.accountGroupId,
      ⟨permission, among, member, notBuiltIn, group, found, ⟨entry, listed, own, ownRole, rfl⟩, holds, rfl⟩, (comes _ _).mp given⟩
  · rintro ⟨level, accounts, ⟨permission, among, member, notBuiltIn, group, found, ⟨entry, listed, own, ownRole, rfl⟩, holds, rfl⟩, given⟩
    exact ⟨permission, among, member, notBuiltIn, group, found, entry, listed, own, ownRole, holds, (comes _ _).mpr given⟩

theorem comes_read (level : AccessLevel) (accounts : List AccountRecord) :
    (∃ held, heldBy accounts level = some held ∧ account ∈ held.accounts.read) ↔
      (level = .read ∨ level = .write) ∧ account ∈ accounts.map AccountRecord.accountId := by
  cases level <;> simp [heldBy]

theorem comes_write (level : AccessLevel) (accounts : List AccountRecord) :
    (∃ held, heldBy accounts level = some held ∧ account ∈ held.accounts.write) ↔
      level = .write ∧ ∃ record ∈ accounts, record.accountId = account ∧ record.state ≠ .closed := by
  cases level <;> simp [heldBy, and_assoc, and_comm]

theorem comes_admin (level : AccessLevel) (accounts : List AccountRecord) :
    (∃ held, heldBy accounts level = some held ∧ held.admin = true) ↔ level = .admin := by
  cases level <;> simp [heldBy]

end Grants

section People

variable {records : AccessRecords} {userGroupIds : Finset String} {pluginInstanceId role account : String} {fact : Held → Prop}

theorem taken (permissions : List Permission) (access : Access) :
    (permissions.foldl (take records) access).plugins =
        (permissions.filter fun permission => !isBuiltInAccessGroup permission.accessGroupId).foldl (fold records) access.plugins ∧
      (permissions.foldl (take records) access).knownRoles = access.knownRoles ∧
      (permissions.foldl (take records) access).userGroupIds = access.userGroupIds ∧
      ((permissions.foldl (take records) access).allPluginsAdmin = true ↔
        access.allPluginsAdmin = true ∨ ∃ permission ∈ permissions, permission.accessGroupId = allPluginsAdmin) := by
  induction permissions generalizing access with
  | nil => simp
  | cons permission rest ih =>
    rw [List.foldl_cons]
    obtain ⟨plugins, known, groups, admin⟩ := ih (take records access permission)
    rw [plugins, known, groups, admin, List.filter_cons]
    unfold take
    by_cases deployment : permission.accessGroupId = deploymentAdmin
    · have other : ¬ deploymentAdmin = allPluginsAdmin := by decide
      simp [deployment, isBuiltInAccessGroup, other]
    · rw [if_neg deployment]
      by_cases all : permission.accessGroupId = allPluginsAdmin
      · simp [all, isBuiltInAccessGroup]
      · simp [all, deployment, isBuiltInAccessGroup]

/-- A fact held through a set of user groups is one a permission of theirs grants. -/
theorem fact_accessOfGroups (additive : Additive fact) :
    fact (heldOn (accessOfGroups records userGroupIds).plugins pluginInstanceId role) ↔
      ∃ permission ∈ records.permissions, permission.userGroupId ∈ userGroupIds ∧
        isBuiltInAccessGroup permission.accessGroupId = false ∧ Grants records fact pluginInstanceId role permission := by
  unfold accessOfGroups
  rw [(taken _ _).1, fact_folds additive]
  constructor
  · rintro (none' | ⟨permission, among, grants⟩)
    · exact absurd none' (fact_empty additive)
    · rw [List.mem_filter, List.mem_filter, decide_eq_true_eq, Bool.not_eq_true'] at among
      exact ⟨permission, among.1.1, among.1.2, among.2, grants⟩
  · rintro ⟨permission, among, member, notBuiltIn, grants⟩
    refine .inr ⟨permission, ?_, grants⟩
    rw [List.mem_filter, List.mem_filter, decide_eq_true_eq, Bool.not_eq_true']
    exact ⟨⟨among, member⟩, notBuiltIn⟩

/-- All plugins (admin) marks a role administered, and leaves what is held there otherwise. -/
theorem on_administered (roles : List String) (held : BTreeMap String Held) (role : String) :
    let after := (PluginHeld.mk (roles.foldl Access.administered held)).on role
    let before := (PluginHeld.mk held).on role
    after.data = before.data ∧ after.accounts = before.accounts ∧ (after.admin = true ↔ before.admin = true ∨ role ∈ roles) := by
  induction roles generalizing held with
  | nil => simp
  | cons first rest ih =>
    intro after before
    obtain ⟨data, accounts, admin⟩ := ih (Access.administered held first)
    have one : (PluginHeld.mk (Access.administered held first)).on role =
        if first = role then { (PluginHeld.mk held).on role with admin := true } else (PluginHeld.mk held).on role := by
      unfold PluginHeld.on Access.administered
      dsimp only
      rw [Std.ExtTreeMap.getElem?_insert]
      by_cases same : first = role
      · subst same
        rw [if_pos Std.ReflOrd.compare_self, if_pos rfl, Option.getD_some]
      · rw [if_neg (by simpa using same), if_neg same]
    rw [one] at data accounts admin
    refine ⟨data.trans ?_, accounts.trans ?_, admin.trans ?_⟩
    · split <;> rfl
    · split <;> rfl
    · by_cases same : first = role
      · subst same
        simp
      · rw [if_neg same, List.mem_cons]
        exact or_congr_right ⟨.inr, fun either => either.resolve_left fun other => same other.symm⟩

theorem on_plugin (access : Access) (pluginInstanceId role : String) :
    let held := (access.plugin pluginInstanceId).on role
    let granted := heldOn access.plugins pluginInstanceId role
    held.data = granted.data ∧ held.accounts = granted.accounts ∧ (held.admin = true ↔ granted.admin = true ∨
      access.allPluginsAdmin = true ∧ role ∈ rolesOf access.knownRoles pluginInstanceId) := by
  intro held granted
  by_cases all : access.allPluginsAdmin = true
  · have same : held = (PluginHeld.mk ((rolesOf access.knownRoles pluginInstanceId).foldl Access.administered
        (access.plugins[pluginInstanceId]?.getD {}).roles)).on role := by
      change (access.plugin pluginInstanceId).on role = _
      unfold Access.plugin
      rw [if_pos all]
    obtain ⟨data, accounts, admin⟩ :=
      on_administered (rolesOf access.knownRoles pluginInstanceId) (access.plugins[pluginInstanceId]?.getD {}).roles role
    rw [same]
    refine ⟨data, accounts, admin.trans (or_congr_right ?_)⟩
    exact ⟨fun named => ⟨all, named⟩, fun both => both.2⟩
  · have same : held = granted := by
      change (access.plugin pluginInstanceId).on role = _
      unfold Access.plugin
      rw [if_neg all]
      rfl
    rw [same]
    refine ⟨rfl, rfl, ⟨.inl, fun either => either.elim id fun both => absurd both.1 all⟩⟩

/-- On each role of a plugin a person reads exactly the accounts some permission of theirs grants to read or write there, writes
exactly those granted to write that are not closed, and administers it where one grants it or they administer every plugin: no level
on one account or role reaches another. -/
theorem person_granted (records : AccessRecords) (subject : String) (directoryGroups : List String) (pluginInstanceId role : String) :
    let access := personAccess records subject directoryGroups
    let held := (access.plugin pluginInstanceId).on role
    let mine : String → Prop := fun userGroupId => ∃ group ∈ userGroupsOf records subject directoryGroups, group.userGroupId = userGroupId
    (∀ account, account ∈ held.accounts.read ↔ ∃ level accounts, Granted records mine pluginInstanceId role level accounts ∧
      (level = .read ∨ level = .write) ∧ account ∈ accounts.map AccountRecord.accountId) ∧
    (∀ account, account ∈ held.accounts.write ↔ ∃ level accounts, Granted records mine pluginInstanceId role level accounts ∧
      level = .write ∧ ∃ record ∈ accounts, record.accountId = account ∧ record.state ≠ .closed) ∧
    (held.admin = true ↔ (∃ level accounts, Granted records mine pluginInstanceId role level accounts ∧ level = .admin) ∨
      (∃ permission ∈ records.permissions, mine permission.userGroupId ∧ permission.accessGroupId = allPluginsAdmin) ∧
        role ∈ rolesOf access.knownRoles pluginInstanceId) := by
  intro access held mine
  have member (userGroupId : String) :
      userGroupId ∈ ((userGroupsOf records subject directoryGroups).map UserGroup.userGroupId).toFinset ↔ mine userGroupId := by
    rw [List.mem_toFinset, List.mem_map]
  have fact_iff {fact : Held → Prop} {levels : AccessLevel → List AccountRecord → Prop} (additive : Additive fact)
      (comes : ∀ level accounts, (∃ held, heldBy accounts level = some held ∧ fact held) ↔ levels level accounts) :
      fact (heldOn access.plugins pluginInstanceId role) ↔
        ∃ level accounts, Granted records mine pluginInstanceId role level accounts ∧ levels level accounts := by
    rw [← granted_iff comes]
    refine (fact_accessOfGroups additive).trans (exists_congr fun permission => and_congr_right fun _ => and_congr_left fun _ => ?_)
    exact member permission.userGroupId
  obtain ⟨-, accounts, admin⟩ := on_plugin access pluginInstanceId role
  refine ⟨fun account => ?_, fun account => ?_, ?_⟩
  · change account ∈ held.accounts.read ↔ _
    rw [show held.accounts = _ from accounts]
    exact fact_iff (additive_read account) comes_read
  · change account ∈ held.accounts.write ↔ _
    rw [show held.accounts = _ from accounts]
    exact fact_iff (additive_write account) comes_write
  · refine admin.trans (or_congr (fact_iff additive_admin comes_admin) (and_congr_left fun _ => ?_))
    refine (taken _ _).2.2.2.trans ?_
    constructor
    · rintro (none' | ⟨permission, among, all⟩)
      · cases none'
      · rw [List.mem_filter, decide_eq_true_eq] at among
        exact ⟨permission, among.1, (member _).mp among.2, all⟩
    · rintro ⟨permission, among, own, all⟩
      refine .inr ⟨permission, ?_, all⟩
      rw [List.mem_filter, decide_eq_true_eq]
      exact ⟨among, (member _).mpr own⟩

end People

section Union

variable {plugin : PluginHeld} {role : String} {held : Held} {fact : Held → Prop}

theorem fact_union (additive : Additive fact) (plugin : PluginHeld) :
    fact plugin.union ↔ ∃ (role : String) (held : Held), plugin.roles[role]? = some held ∧ fact held := by
  have folded (values : List Held) (start : Held) : fact (values.foldl Held.add start) ↔ fact start ∨ ∃ held ∈ values, fact held := by
    induction values generalizing start with
    | nil => simp
    | cons first rest ih => rw [List.foldl_cons, ih, additive.add, or_assoc, List.exists_mem_cons_iff]
  unfold PluginHeld.union
  rw [folded]
  constructor
  · rintro (none' | ⟨held, among, given⟩)
    · exact absurd none' additive.none
    · obtain ⟨⟨role, _⟩, entry, rfl⟩ := List.mem_map.mp among
      exact ⟨role, _, BTreeMap.mem_toList.mp entry, given⟩
  · rintro ⟨role, held, found, given⟩
    exact .inr ⟨held, List.mem_map.mpr ⟨(role, held), BTreeMap.mem_toList.mpr found, rfl⟩, given⟩

theorem on_of_found (found : plugin.roles[role]? = some held) : plugin.on role = held := by
  unfold PluginHeld.on
  rw [found]
  rfl

end Union

section Scope

variable {plugin : PluginHeld} {fact : Held → Prop}

theorem union_erase (additive : Additive fact) (plugin : PluginHeld) :
    fact (PluginHeld.mk (plugin.roles.erase connectivity)).union ↔ ∃ role, role ≠ connectivity ∧ fact (plugin.on role) := by
  refine (fact_union additive _).trans (exists_congr fun role => ?_)
  dsimp only
  rw [Std.ExtTreeMap.getElem?_erase]
  by_cases own : connectivity = role
  · rw [if_pos (by simpa using own)]
    constructor
    · rintro ⟨held, found, -⟩
      cases found
    · rintro ⟨other, -⟩
      exact absurd own.symm other
  · rw [if_neg (by simpa using own)]
    constructor
    · rintro ⟨held, found, given⟩
      exact ⟨fun same => own same.symm, by rwa [on_of_found found]⟩
    · rintro ⟨-, given⟩
      cases found : plugin.roles[role]? with
      | none =>
        unfold PluginHeld.on at given
        rw [found] at given
        exact absurd given additive.none
      | some held => exact ⟨held, rfl, by rwa [on_of_found found] at given⟩

theorem mem_linked (records : AccessRecords) (account : String) (links : List ExternalAccountLink) (scope : Levels) :
    (account ∈ (links.foldl (linked records) scope).read ↔ account ∈ scope.read ∨ ∃ link ∈ links, ∃ record,
      (records.accounts.find? fun held => held.accountId == link.accountId) = some record ∧ record.accountId = account) ∧
    (account ∈ (links.foldl (linked records) scope).write ↔ account ∈ scope.write ∨ ∃ link ∈ links, ∃ record,
      (records.accounts.find? fun held => held.accountId == link.accountId) = some record ∧ record.accountId = account ∧
        record.state ≠ .closed) := by
  induction links generalizing scope with
  | nil => simp
  | cons link rest ih =>
    rw [List.foldl_cons, (ih _).1, (ih _).2, List.exists_mem_cons_iff, List.exists_mem_cons_iff, ← or_assoc, ← or_assoc]
    refine ⟨or_congr_left ?_, or_congr_left ?_⟩
    · unfold linked
      cases found : records.accounts.find? fun held => held.accountId == link.accountId with
      | none => simp
      | some record => simp [or_comm, eq_comm]
    · unfold linked
      cases found : records.accounts.find? fun held => held.accountId == link.accountId with
      | none => simp
      | some record =>
        by_cases open' : record.state = .closed
        · simp [open']
        · simp [open', or_comm, @eq_comm _ account]

/-- The accounts of a scope before its links, as a fact about what is held on the plugin. -/
theorem fact_scope (additive : Additive fact) (records : AccessRecords) (pluginInstanceId : String)
    {levels : AccessLevel → List AccountRecord → Prop}
    (comes : ∀ level accounts, (∃ held, heldBy accounts level = some held ∧ fact held) ↔ levels level accounts) :
    (∃ role, role ≠ connectivity ∧ fact (heldOn ((records.permissions.filter fun permission =>
      !isBuiltInAccessGroup permission.accessGroupId).foldl (fold records) ∅) pluginInstanceId role)) ↔
      ∃ role, role ≠ connectivity ∧ ∃ level accounts, Granted records (fun _ => True) pluginInstanceId role level accounts ∧
        levels level accounts := by
  refine exists_congr fun role => and_congr_right fun _ => ?_
  rw [← granted_iff comes, fact_folds additive, or_iff_right (fact_empty additive)]
  refine exists_congr fun permission => ?_
  rw [List.mem_filter, Bool.not_eq_true', true_and, and_assoc]

/-- A plugin's scope reads exactly the accounts somebody is granted to read or write through it on a role but connectivity, with
the accounts it is linked to, and writes exactly those granted to write or linked that are not closed. -/
theorem scope_granted (records : AccessRecords) (links : List ExternalAccountLink) (pluginInstanceId account : String) :
    let scope := pluginScope records links pluginInstanceId
    let linkedTo : AccountRecord → Prop := fun record => ∃ link ∈ links, link.pluginInstanceId = pluginInstanceId ∧
      (records.accounts.find? fun held => held.accountId == link.accountId) = some record
    (account ∈ scope.read ↔
      (∃ role, role ≠ connectivity ∧ ∃ level accounts, Granted records (fun _ => True) pluginInstanceId role level accounts ∧
        (level = .read ∨ level = .write) ∧ account ∈ accounts.map AccountRecord.accountId) ∨
      ∃ record, linkedTo record ∧ record.accountId = account) ∧
    (account ∈ scope.write ↔
      (∃ role, role ≠ connectivity ∧ ∃ level accounts, Granted records (fun _ => True) pluginInstanceId role level accounts ∧
        level = .write ∧ ∃ record ∈ accounts, record.accountId = account ∧ record.state ≠ .closed) ∨
      ∃ record, linkedTo record ∧ record.accountId = account ∧ record.state ≠ .closed) := by
  intro scope linkedTo
  have links' (extra : AccountRecord → Prop) :
      (∃ link ∈ links.filter fun link => link.pluginInstanceId == pluginInstanceId, ∃ record,
        (records.accounts.find? fun held => held.accountId == link.accountId) = some record ∧ extra record) ↔
      ∃ record, linkedTo record ∧ extra record := by
    constructor
    · rintro ⟨link, among, record, found, given⟩
      rw [List.mem_filter, beq_iff_eq] at among
      exact ⟨record, ⟨link, among.1, among.2, found⟩, given⟩
    · rintro ⟨record, ⟨link, among, own, found⟩, given⟩
      exact ⟨link, List.mem_filter.mpr ⟨among, beq_iff_eq.mpr own⟩, record, found, given⟩
  rw [← fact_scope (additive_read account) records pluginInstanceId comes_read,
    ← fact_scope (additive_write account) records pluginInstanceId comes_write,
    ← links' fun record => record.accountId = account, ← links' fun record => record.accountId = account ∧ record.state ≠ .closed]
  change (account ∈ (pluginScope records links pluginInstanceId).read ↔ _) ∧ (account ∈ (pluginScope records links pluginInstanceId).write ↔ _)
  unfold pluginScope
  dsimp only
  rw [(mem_linked records account _ _).1, (mem_linked records account _ _).2]
  unfold heldOn
  generalize (records.permissions.filter fun permission => !isBuiltInAccessGroup permission.accessGroupId).foldl (fold records) ∅ = all
  cases all[pluginInstanceId]? with
  | none =>
    have nothing (role : String) : (PluginHeld.mk ∅).on role = {} := by
      unfold PluginHeld.on
      rw [Std.ExtTreeMap.getElem?_empty, Option.getD_none]
    simp [nothing]
  | some held =>
    rw [Option.getD_some, ← union_erase (additive_read account), ← union_erase (additive_write account)]
    exact ⟨.rfl, .rfl⟩

end Scope

end MeridianCore.Permitted
