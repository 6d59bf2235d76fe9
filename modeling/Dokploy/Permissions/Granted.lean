import Dokploy.Foundation.Json
import Dokploy.Permissions.Statements

namespace Dokploy
namespace Permissions

open Foundation

/-!
# The permissions that are shown and those that are enforced

`checkPermission` decides about a set of pairs at once, `resolvePermissions` about
each pair of the table.  Both resolve the role in the same way, and a member who has
the free role may have more by the flags of earlier versions.

The set is granted when the role grants all of it, or the flags do.  A pair is shown
when the role grants it, or the flags do.  The two differ for a set that takes some
pairs from the role and some from the flags.

The role's own decision is that of the access control library.  It is a parameter,
with what the library documents.
-/

/-- The fields of the member that decide about permissions. -/
structure MemberRecord where
  organizationId : String
  role : String
  canCreateProjects : Bool := false
  canDeleteProjects : Bool := false
  canCreateServices : Bool := false
  canDeleteServices : Bool := false
  canCreateEnvironments : Bool := false
  canDeleteEnvironments : Bool := false
  canAccessToTraefikFiles : Bool := false
  canAccessToDocker : Bool := false
  canAccessToAPI : Bool := false
  canAccessToSSHKeys : Bool := false
  canAccessToGitProviders : Bool := false
deriving DecidableEq

structure OrganizationRole where
  organizationId : String
  role : String
  permission : List Char

/-- What the database holds about the organization. -/
structure RoleStore where
  hasValidLicense : String -> Bool
  organizationRole : List OrganizationRole

inductive PermissionFailure where
  | unauthorized (message : String)
  | typeError
  | syntaxError
deriving DecidableEq

/-- What every object of the language has without an entry of its own. -/
def inheritedNames : List String :=
  ["constructor", "__defineGetter__", "__defineSetter__", "hasOwnProperty", "__lookupGetter__", "__lookupSetter__",
    "isPrototypeOf", "propertyIsEnumerable", "toString", "valueOf", "__proto__", "toLocaleString"]

/-- A role, or a value that every object has and that cannot authorize. -/
inductive ResolvedRole where
  | granting (role : Role)
  | inherited
deriving DecidableEq

/-- `...actions`.  Only texts can be asked for, the other items are left out. -/
def spread : Json -> Except PermissionFailure (List String)
  | .array items => .ok (items.filterMap fun item => match item with
      | .string text => some (String.ofList text)
      | _ => none)
  | .string text => .ok (text.map fun char => String.ofList [char])
  | _ => .error .typeError

/-- `Object.entries`.  A key that is given twice keeps its first place and its last value. -/
def objectEntries : Json -> Except PermissionFailure (List (String × Json))
  | .null => .error .typeError
  | .object entries => .ok ((rebuild id id entries).map fun entry => (String.ofList entry.1, entry.2))
  | .array items => .ok (items.mapIdx fun index item => (toString index, item))
  | .string text => .ok (text.mapIdx fun index char => (toString index, .string [char]))
  | _ => .ok []

/-- One resource of a stored role is merged. -/
def mergeResource (merged : Role) (entry : String × Json) : Except PermissionFailure Role :=
  match getEntry merged entry.1 with
  | some actions => (spread entry.2).map fun more => setEntry merged entry.1 (actions ++ more).eraseDups
  | none =>
      if entry.1 ∈ inheritedNames then .error .typeError
      else (spread entry.2).map fun more => setEntry merged entry.1 more.eraseDups

def mergeEntry (merged : Role) (row : OrganizationRole) : Except PermissionFailure Role :=
  match Json.parse row.permission with
  | none => .error .syntaxError
  | some parsed => (objectEntries parsed).bind fun entries => entries.foldlM mergeResource merged

def resolveRole (store : RoleStore) (roleName organizationId : String) :
    Except PermissionFailure (Option ResolvedRole) :=
  match getEntry staticRoles roleName with
  | some role => .ok (some (.granting role))
  | none =>
      if roleName ∈ inheritedNames then .ok (some .inherited)
      else if store.hasValidLicense organizationId = false then .ok none
      else
        match store.organizationRole.filter fun row => row.organizationId == organizationId && row.role == roleName with
        | [] => .ok none
        | customRoles => (customRoles.foldlM mergeEntry []).map fun merged => some (.granting merged)

def getLegacyOverrides (memberRecord : MemberRecord) : List (String × List (String × Bool)) :=
  [("project", [("create", memberRecord.canCreateProjects), ("delete", memberRecord.canDeleteProjects)]),
    ("service", [("create", memberRecord.canCreateServices), ("delete", memberRecord.canDeleteServices)]),
    ("environment", [("create", memberRecord.canCreateEnvironments), ("delete", memberRecord.canDeleteEnvironments)]),
    ("traefikFiles", [("read", memberRecord.canAccessToTraefikFiles)]),
    ("docker", [("read", memberRecord.canAccessToDocker)]),
    ("api", [("read", memberRecord.canAccessToAPI)]),
    ("sshKeys", [("read", memberRecord.canAccessToSSHKeys), ("create", memberRecord.canAccessToSSHKeys),
      ("delete", memberRecord.canAccessToSSHKeys)]),
    ("gitProviders", [("read", memberRecord.canAccessToGitProviders), ("create", memberRecord.canAccessToGitProviders),
      ("delete", memberRecord.canAccessToGitProviders)])]

/-- `!!overrides[resource]?.[action]` -/
def overridden (overrides : List (String × List (String × Bool))) (resource action : String) : Bool :=
  ((getEntry overrides resource).bind fun actions => getEntry actions action).getD false

structure AuthorizeResponse where
  success : Bool
  error : Option String

structure RequestedPermissions where
  entries : Role
  distinct : (entries.map Prod.fst).Nodup
  inhabited : entries ≠ []
  named : forall resource actions, (resource, actions) ∈ entries -> actions ≠ []
  known : forall resource actions action, (resource, actions) ∈ entries -> action ∈ actions -> Known resource action

def RequestedPermissions.Asks (permissions : RequestedPermissions) (resource action : String) : Prop :=
  Exists fun actions => (resource, actions) ∈ permissions.entries ∧ action ∈ actions

variable (authorize : Role -> Role -> AuthorizeResponse)

def isPrivileged (memberRecord : MemberRecord) : Bool := memberRecord.role == "owner" || memberRecord.role == "admin"

def allGranted (overrides : List (String × List (String × Bool))) (permissions : RequestedPermissions) : Bool :=
  permissions.entries.all fun entry => entry.2.all fun action => overridden overrides entry.1 action

def checkPermission (store : RoleStore) (memberRecord : MemberRecord) (permissions : RequestedPermissions) :
    Except PermissionFailure Unit :=
  if isPrivileged memberRecord &&
      permissions.entries.all fun entry => enterpriseOnlyResources.contains entry.1 then .ok ()
  else
    (resolveRole store memberRecord.role memberRecord.organizationId).bind fun role =>
      match role with
      | none => .error (.unauthorized "Invalid role")
      | some .inherited => .error .typeError
      | some (.granting role) =>
          let result := authorize role permissions.entries
          if result.success then .ok ()
          else if memberRecord.role == "member" && allGranted (getLegacyOverrides memberRecord) permissions then .ok ()
          else .error (.unauthorized (match result.error with
            | none | some "" => "Permission denied"
            | some error => error))

/-- What is shown for one pair, given a role that can authorize. -/
def resolvedAnswer (memberRecord : MemberRecord) (role : Option Role) (resource action : String) : Bool :=
  if isPrivileged memberRecord && enterpriseOnlyResources.contains resource then true
  else
    match role with
    | none => false
    | some role =>
        (authorize role [(resource, [action])]).success ||
          overridden (if memberRecord.role == "member" then getLegacyOverrides memberRecord else []) resource action

/-- The answers for the table.  A value that cannot authorize throws at the first pair that asks it. -/
def resolvePermissions (store : RoleStore) (memberRecord : MemberRecord) :
    Except PermissionFailure (List (String × List (String × Bool))) :=
  (resolveRole store memberRecord.role memberRecord.organizationId).bind fun role =>
    match role with
    | some .inherited => .error .typeError
    | none => .ok (answers none)
    | some (.granting role) => .ok (answers (some role))
where
  answers (role : Option Role) : List (String × List (String × Bool)) :=
    statements.map fun statement =>
      (statement.1, statement.2.map fun action =>
        (action, resolvedAnswer authorize memberRecord role statement.1 action))

/-- A request for resources of the table is granted exactly when the role grants each action that it asks for. -/
def Authorizes (authorize : Role -> Role -> AuthorizeResponse) : Prop :=
  forall role request, request ≠ [] -> (request.map Prod.fst).Nodup ->
    (forall entry, entry ∈ request -> entry.1 ∈ statements.map Prod.fst) ->
      ((authorize role request).success = true <->
        forall entry, entry ∈ request -> Exists fun allowed =>
          getEntry role entry.1 = some allowed ∧ forall action, action ∈ entry.2 -> action ∈ allowed)

variable {authorize} {store : RoleStore} {memberRecord : MemberRecord} {permissions : RequestedPermissions}
  {role : Role} {resource action : String}

theorem Known.listed (known : Known resource action) : resource ∈ statements.map Prod.fst := by
  rcases known with ⟨allowed, isAllowed, _⟩
  exact getEntry_isSome.mp (isAllowed ▸ rfl)

theorem Authorizes.pair (lawful : Authorizes authorize) (known : Known resource action) :
    (authorize role [(resource, [action])]).success = true <-> Grants role resource action := by
  rw [lawful role [(resource, [action])] (by simp) (by simp) (by simpa using known.listed)]
  simp [Grants]

theorem Authorizes.set (lawful : Authorizes authorize) :
    (authorize role permissions.entries).success = true <->
      forall resource action, permissions.Asks resource action -> Grants role resource action := by
  have listed : forall entry, entry ∈ permissions.entries -> entry.1 ∈ statements.map Prod.fst := by
    rintro ⟨resource, actions⟩ member
    rcases List.exists_mem_of_ne_nil _ (permissions.named resource actions member) with ⟨action, inside⟩
    exact (permissions.known resource actions action member inside).listed
  rw [lawful role permissions.entries permissions.inhabited permissions.distinct listed]
  constructor
  · rintro granted resource action ⟨actions, member, inside⟩
    rcases granted (resource, actions) member with ⟨allowed, isAllowed, all⟩
    exact ⟨allowed, isAllowed, all action inside⟩
  · rintro granted ⟨resource, actions⟩ member
    rcases List.exists_mem_of_ne_nil _ (permissions.named resource actions member) with ⟨first, isFirst⟩
    rcases granted resource first ⟨actions, member, isFirst⟩ with ⟨allowed, isAllowed, _⟩
    refine ⟨allowed, isAllowed, fun action inside => ?_⟩
    rcases granted resource action ⟨actions, member, inside⟩ with ⟨other, isOther, granting⟩
    rw [isAllowed] at isOther
    cases isOther
    exact granting

theorem RequestedPermissions.Asks.known (asks : permissions.Asks resource action) : Known resource action := by
  rcases asks with ⟨actions, member, inside⟩
  exact permissions.known resource actions action member inside

theorem asks_some (permissions : RequestedPermissions) : Exists fun resource => Exists fun action =>
    permissions.Asks resource action := by
  rcases List.exists_mem_of_ne_nil _ permissions.inhabited with ⟨⟨resource, actions⟩, member⟩
  rcases List.exists_mem_of_ne_nil _ (permissions.named resource actions member) with ⟨action, inside⟩
  exact ⟨resource, action, actions, member, inside⟩

theorem allGranted_iff {overrides : List (String × List (String × Bool))} :
    allGranted overrides permissions = true <->
      forall resource action, permissions.Asks resource action -> overridden overrides resource action = true := by
  simp only [allGranted, List.all_eq_true]
  constructor
  · rintro all resource action ⟨actions, member, inside⟩
    exact all (resource, actions) member action inside
  · rintro all ⟨resource, actions⟩ member action inside
    exact all resource action ⟨actions, member, inside⟩

theorem allEnterprise_iff :
    (permissions.entries.all fun entry => enterpriseOnlyResources.contains entry.1) = true <->
      forall resource action, permissions.Asks resource action -> resource ∈ enterpriseOnlyResources := by
  simp only [List.all_eq_true, List.contains_iff_mem]
  constructor
  · rintro all resource action ⟨actions, member, _⟩
    exact all (resource, actions) member
  · rintro all ⟨resource, actions⟩ member
    rcases List.exists_mem_of_ne_nil _ (permissions.named resource actions member) with ⟨action, inside⟩
    exact all resource action ⟨actions, member, inside⟩

def Shown (authorize : Role -> Role -> AuthorizeResponse) (store : RoleStore) (memberRecord : MemberRecord)
    (resource action : String) : Prop :=
  Exists fun answers => resolvePermissions authorize store memberRecord = .ok answers ∧
    ((getEntry answers resource).bind fun actions => getEntry actions action) = some true

theorem getEntry_answered (entries : Role) (answer : String -> String -> Bool)
    (granted : Grants entries resource action) :
    ((getEntry (entries.map fun entry => (entry.1, entry.2.map fun action => (action, answer entry.1 action))) resource).bind
      fun actions => getEntry actions action) = some (answer resource action) := by
  rcases granted with ⟨allowed, isAllowed, member⟩
  rw [getEntry_map_values entries (fun resource actions => actions.map fun action => (action, answer resource action)),
    isAllowed, Option.map_some, Option.bind_some]
  exact getEntry_map_keys allowed (answer resource) member

theorem shown_iff (lawful : Authorizes authorize)
    (resolved : resolveRole store memberRecord.role memberRecord.organizationId = .ok (some (.granting role)))
    (known : Known resource action) :
    Shown authorize store memberRecord resource action <->
      (isPrivileged memberRecord = true ∧ resource ∈ enterpriseOnlyResources) ∨ Grants role resource action ∨
        (memberRecord.role = "member" ∧ overridden (getLegacyOverrides memberRecord) resource action = true) := by
  have answered := getEntry_answered statements
    (fun resource action => resolvedAnswer authorize memberRecord (some role) resource action) known
  have shown : Shown authorize store memberRecord resource action <->
      resolvedAnswer authorize memberRecord (some role) resource action = true := by
    unfold Shown resolvePermissions
    rw [resolved, Except.bind]
    constructor
    · rintro ⟨answers, isAnswers, isTrue⟩
      cases isAnswers
      exact Option.some.inj (answered.symm.trans isTrue)
    · intro isTrue
      exact ⟨_, rfl, answered.trans (congrArg some isTrue)⟩
  rw [shown, resolvedAnswer]
  by_cases bypass : isPrivileged memberRecord = true ∧ resource ∈ enterpriseOnlyResources
  · simp [bypass]
  · have noBypass : (isPrivileged memberRecord && enterpriseOnlyResources.contains resource) ≠ true := by
      simpa using bypass
    rw [if_neg noBypass, Bool.or_eq_true, lawful.pair known, or_iff_right bypass]
    refine or_congr_right ?_
    by_cases isMember : memberRecord.role = "member"
    · simp [isMember]
    · simp [isMember, overridden]

theorem check_iff (lawful : Authorizes authorize)
    (resolved : resolveRole store memberRecord.role memberRecord.organizationId = .ok (some (.granting role))) :
    checkPermission authorize store memberRecord permissions = .ok () <->
      (isPrivileged memberRecord = true ∧
          forall resource action, permissions.Asks resource action -> resource ∈ enterpriseOnlyResources) ∨
        (forall resource action, permissions.Asks resource action -> Grants role resource action) ∨
          (memberRecord.role = "member" ∧ forall resource action, permissions.Asks resource action ->
            overridden (getLegacyOverrides memberRecord) resource action = true) := by
  rw [← lawful.set, ← allEnterprise_iff, ← allGranted_iff, checkPermission, resolved, Except.bind]
  by_cases bypass : (isPrivileged memberRecord &&
      permissions.entries.all fun entry => enterpriseOnlyResources.contains entry.1) = true
  · rw [if_pos bypass]
    rw [Bool.and_eq_true] at bypass
    exact iff_of_true rfl (Or.inl bypass)
  · rw [if_neg bypass]
    rw [Bool.and_eq_true] at bypass
    rw [or_iff_right bypass]
    by_cases success : (authorize role permissions.entries).success = true
    · simp [success]
    · by_cases legacy : memberRecord.role = "member" ∧ allGranted (getLegacyOverrides memberRecord) permissions = true
      · simp [success, legacy]
      · have noLegacy : (memberRecord.role == "member" &&
            allGranted (getLegacyOverrides memberRecord) permissions) ≠ true := by
          simpa using legacy
        simp [success, noLegacy, legacy]

/-- A member with the free role asks for pairs that are all granted, some only by the flags and some only by the role. -/
def Mixed (memberRecord : MemberRecord) (permissions : RequestedPermissions) : Prop :=
  memberRecord.role = "member" ∧
    (forall resource action, permissions.Asks resource action ->
      Grants memberRole resource action ∨ overridden (getLegacyOverrides memberRecord) resource action = true) ∧
    (Exists fun resource => Exists fun action => permissions.Asks resource action ∧
      ¬ Grants memberRole resource action) ∧
    Exists fun resource => Exists fun action => permissions.Asks resource action ∧
      overridden (getLegacyOverrides memberRecord) resource action ≠ true

def AllShown (authorize : Role -> Role -> AuthorizeResponse) (store : RoleStore) (memberRecord : MemberRecord)
    (permissions : RequestedPermissions) : Prop :=
  forall resource action, permissions.Asks resource action -> Shown authorize store memberRecord resource action

theorem member_agrees_iff (lawful : Authorizes authorize) (isMember : memberRecord.role = "member") :
    (checkPermission authorize store memberRecord permissions = .ok () <->
        AllShown authorize store memberRecord permissions) <-> ¬ Mixed memberRecord permissions := by
  have resolved : resolveRole store memberRecord.role memberRecord.organizationId =
      .ok (some (.granting memberRole)) := by
    rw [isMember]
    rfl
  have unprivileged : ¬ isPrivileged memberRecord = true := by
    rw [isPrivileged, isMember]
    decide
  have enforced : checkPermission authorize store memberRecord permissions = .ok () <-> _ := check_iff lawful resolved
  have shown : AllShown authorize store memberRecord permissions <->
      forall resource action, permissions.Asks resource action -> Grants memberRole resource action ∨
        overridden (getLegacyOverrides memberRecord) resource action = true := by
    refine forall_congr' fun resource => forall_congr' fun action => forall_congr' fun asks => ?_
    rw [shown_iff lawful resolved asks.known]
    simp [unprivileged, isMember]
  rw [enforced, shown]
  simp only [unprivileged, Bool.false_eq_true, false_and, false_or, isMember, true_and, Mixed]
  constructor
  · rintro agrees ⟨all, ⟨resource, action, asks, notByRole⟩, other, otherAction, asksOther, notByFlags⟩
    rcases agrees.mpr all with byRole | byFlags
    · exact notByRole (byRole resource action asks)
    · exact notByFlags (byFlags other otherAction asksOther)
  · intro notMixed
    constructor
    · rintro (byRole | byFlags) resource action asks
      · exact Or.inl (byRole resource action asks)
      · exact Or.inr (byFlags resource action asks)
    · intro all
      by_contra neither
      rw [not_or] at neither
      simp only [not_forall] at neither
      rcases neither with ⟨⟨resource, action, asks, notByRole⟩, other, otherAction, asksOther, notByFlags⟩
      exact notMixed ⟨all, ⟨resource, action, asks, notByRole⟩, other, otherAction, asksOther, notByFlags⟩

theorem privileged_agrees (lawful : Authorizes authorize) (isRole : isPrivileged memberRecord = true) :
    checkPermission authorize store memberRecord permissions = .ok () <->
      AllShown authorize store memberRecord permissions := by
  have static : Exists fun role => role ∈ [ownerRole, adminRole] ∧
      resolveRole store memberRecord.role memberRecord.organizationId = .ok (some (.granting role)) := by
    rw [isPrivileged, Bool.or_eq_true, beq_iff_eq, beq_iff_eq] at isRole
    rcases isRole with owner | admin
    · exact ⟨ownerRole, List.mem_cons_self, by rw [owner]; rfl⟩
    · exact ⟨adminRole, List.mem_cons_of_mem _ List.mem_cons_self, by rw [admin]; rfl⟩
  rcases static with ⟨role, privileged, resolved⟩
  have notMember : memberRecord.role ≠ "member" := by
    intro same
    rw [isPrivileged, same] at isRole
    exact absurd isRole (by decide)
  rw [check_iff lawful resolved]
  constructor
  · intro enforced resource action asks
    rw [shown_iff lawful resolved asks.known]
    rcases enforced with ⟨_, enterprise⟩ | byRole | ⟨same, _⟩
    · exact Or.inl ⟨isRole, enterprise resource action asks⟩
    · exact Or.inr (Or.inl (byRole resource action asks))
    · exact absurd same notMember
  · intro shown
    refine Or.inr (Or.inl fun resource action asks => ?_)
    rcases (shown_iff lawful resolved asks.known).mp (shown resource action asks) with
      ⟨_, enterprise⟩ | byRole | ⟨same, _⟩
    · exact privileged_grants privileged asks.known enterprise
    · exact byRole
    · exact absurd same notMember

theorem custom_agrees (lawful : Authorizes authorize) (notPrivileged : ¬ isPrivileged memberRecord = true)
    (notMember : memberRecord.role ≠ "member") :
    checkPermission authorize store memberRecord permissions = .ok () <->
      AllShown authorize store memberRecord permissions := by
  have noBypass : ¬ (isPrivileged memberRecord &&
      permissions.entries.all fun entry => enterpriseOnlyResources.contains entry.1) = true := by
    simp [notPrivileged]
  rcases asks_some permissions with ⟨first, firstAction, asksFirst⟩
  cases resolved : resolveRole store memberRecord.role memberRecord.organizationId with
  | error failure =>
      refine iff_of_false ?_ fun shown => ?_
      · rw [checkPermission, if_neg noBypass, resolved]
        exact fun accepted => nomatch accepted
      · rcases shown first firstAction asksFirst with ⟨answers, isAnswers, _⟩
        rw [resolvePermissions, resolved] at isAnswers
        cases isAnswers
  | ok found =>
      cases found with
      | none =>
          refine iff_of_false ?_ fun shown => ?_
          · rw [checkPermission, if_neg noBypass, resolved]
            exact fun accepted => nomatch accepted
          · rcases shown first firstAction asksFirst with ⟨answers, isAnswers, isTrue⟩
            rw [resolvePermissions, resolved] at isAnswers
            cases isAnswers
            have answered := getEntry_answered statements
              (fun resource action => resolvedAnswer authorize memberRecord none resource action) asksFirst.known
            have shownTrue : resolvedAnswer authorize memberRecord none first firstAction = true :=
              Option.some.inj (answered.symm.trans isTrue)
            simp [resolvedAnswer, notPrivileged] at shownTrue
      | some value =>
          cases value with
          | inherited =>
              refine iff_of_false ?_ fun shown => ?_
              · rw [checkPermission, if_neg noBypass, resolved]
                exact fun accepted => nomatch accepted
              · rcases shown first firstAction asksFirst with ⟨answers, isAnswers, _⟩
                rw [resolvePermissions, resolved] at isAnswers
                cases isAnswers
          | granting role =>
              rw [check_iff lawful resolved]
              simp only [notPrivileged, Bool.false_eq_true, notMember, false_and, false_or, or_false]
              refine forall_congr' fun resource => forall_congr' fun action => forall_congr' fun asks => ?_
              rw [shown_iff lawful resolved asks.known]
              simp [notPrivileged, notMember]

/-- The set is granted exactly when each of its pairs is shown, unless it takes some pairs from the free role and some
from the flags. -/
theorem permissions_agree_iff (authorize : Role -> Role -> AuthorizeResponse) (lawful : Authorizes authorize)
    (store : RoleStore) (memberRecord : MemberRecord) (permissions : RequestedPermissions) :
    (checkPermission authorize store memberRecord permissions = .ok () <->
        AllShown authorize store memberRecord permissions) <-> ¬ Mixed memberRecord permissions := by
  by_cases isMember : memberRecord.role = "member"
  · exact member_agrees_iff lawful isMember
  · have notMixed : ¬ Mixed memberRecord permissions := fun mixed => isMember mixed.1
    by_cases privileged : isPrivileged memberRecord = true
    · exact iff_of_true (privileged_agrees lawful privileged) notMixed
    · exact iff_of_true (custom_agrees lawful privileged isMember) notMixed

/-- The decision as the library makes it. -/
def decideRequest (role request : Role) : AuthorizeResponse :=
  match request.find? fun entry =>
      !((getEntry role entry.1).any fun allowed => entry.2.all fun action => allowed.contains action) with
  | some refused =>
      if (getEntry role refused.1).isNone then
        { success := false, error := some ("You are not allowed to access resource: " ++ refused.1) }
      else { success := false, error := some ("unauthorized to access resource \"" ++ refused.1 ++ "\"") }
  | none =>
      if request.isEmpty then { success := false, error := some "Not authorized" }
      else { success := true, error := none }

theorem decideRequest_authorizes : Authorizes decideRequest := by
  intro role request inhabited _ _
  have granted : forall entry : String × List String,
      ((getEntry role entry.1).any fun allowed => entry.2.all fun action => allowed.contains action) = true <->
        Exists fun allowed => getEntry role entry.1 = some allowed ∧
          forall action, action ∈ entry.2 -> action ∈ allowed := by
    intro entry
    cases getEntry role entry.1 with
    | none => simp
    | some allowed => simp
  simp only [← granted]
  unfold decideRequest
  split
  · rename_i refused found
    have isRefused := List.find?_some found
    have member := List.mem_of_find?_eq_some found
    refine iff_of_false ?_ fun all => ?_
    · split
      · exact Bool.false_ne_true
      · exact Bool.false_ne_true
    · rw [all refused member] at isRefused
      cases isRefused
  · rename_i none
    have all := List.find?_eq_none.mp none
    rw [if_neg (by simpa using inhabited)]
    exact iff_of_true rfl fun entry member => by simpa using all entry member

def noRoles : RoleStore := { hasValidLicense := fun _ => false, organizationRole := [] }

/-- A member who may create services, by the flag. -/
def serviceCreator : MemberRecord := { organizationId := "organization", role := "member", canCreateServices := true }

def readAndCreate : RequestedPermissions where
  entries := [("service", ["read", "create"])]
  distinct := by decide
  inhabited := by decide
  named := by
    intro resource actions member
    cases List.mem_singleton.mp member
    decide
  known := by
    intro resource actions action member inside
    cases List.mem_singleton.mp member
    rcases List.mem_cons.mp inside with first | rest
    · rw [first]
      decide
    · rw [List.mem_singleton.mp rest]
      decide

theorem readAndCreate_shown_but_refused : Authorizes decideRequest ∧
    AllShown decideRequest noRoles serviceCreator readAndCreate ∧
      checkPermission decideRequest noRoles serviceCreator readAndCreate =
        .error (.unauthorized "unauthorized to access resource \"service\"") := by
  refine ⟨decideRequest_authorizes, ?_, by decide⟩
  rintro resource action ⟨actions, member, inside⟩
  cases List.mem_singleton.mp member
  refine ⟨_, rfl, ?_⟩
  rcases List.mem_cons.mp inside with first | rest
  · rw [first]
    decide
  · rw [List.mem_singleton.mp rest]
    decide

/-- An owner asks for the same. -/
theorem owner_agrees :
    (checkPermission decideRequest noRoles { serviceCreator with role := "owner" } readAndCreate = .ok () <->
      AllShown decideRequest noRoles { serviceCreator with role := "owner" } readAndCreate) :=
  (permissions_agree_iff decideRequest decideRequest_authorizes noRoles { serviceCreator with role := "owner" }
    readAndCreate).mpr fun mixed => absurd mixed.1 (by decide)

end Permissions
end Dokploy
