import Dokploy.Foundation.Objects

namespace Dokploy
namespace Permissions

open Foundation

/-!
# Statements and roles

The resources of the platform with the actions on each, the roles that are built
in, and the resources that only matter for roles of an organization's own.  A role
is the object of the actions that it grants on each resource.
-/

abbrev Role := List (String × List String)

def statements : Role :=
  [("organization", ["update", "delete"]), ("member", ["read", "create", "update", "delete"]),
    ("invitation", ["create", "cancel"]), ("team", ["create", "update", "delete"]),
    ("ac", ["create", "read", "update", "delete"]), ("project", ["create", "delete"]),
    ("service", ["create", "read", "delete"]), ("environment", ["create", "read", "delete"]), ("docker", ["read"]),
    ("sshKeys", ["read", "create", "delete"]), ("gitProviders", ["read", "create", "delete"]),
    ("traefikFiles", ["read", "write"]), ("api", ["read"]), ("volume", ["read", "create", "delete"]),
    ("deployment", ["read", "create", "cancel", "priority"]), ("envVars", ["read", "write"]),
    ("projectEnvVars", ["read", "write"]), ("environmentEnvVars", ["read", "write"]),
    ("server", ["read", "create", "delete", "terminal"]), ("registry", ["read", "create", "delete"]),
    ("certificate", ["read", "create", "update", "delete"]),
    ("backup", ["read", "create", "update", "delete", "restore"]),
    ("volumeBackup", ["read", "create", "update", "delete", "restore"]),
    ("schedule", ["read", "create", "update", "delete"]), ("domain", ["read", "create", "delete"]),
    ("destination", ["read", "create", "delete"]), ("cloudflare", ["read", "create", "update", "delete"]),
    ("notification", ["read", "create", "update", "delete"]), ("tag", ["read", "create", "update", "delete"]),
    ("network", ["read", "create", "delete"]), ("logs", ["read"]), ("monitoring", ["read"]), ("auditLog", ["read"]),
    ("vaultProvider", ["read", "create", "update", "delete"]), ("dnsProvider", ["read", "create", "update", "delete"])]

def enterpriseOnlyResources : List String :=
  ["volume", "deployment", "envVars", "projectEnvVars", "environmentEnvVars", "server", "registry", "certificate",
    "backup", "volumeBackup", "schedule", "domain", "destination", "cloudflare", "notification", "tag", "network",
    "logs", "monitoring", "auditLog", "vaultProvider", "dnsProvider"]

def ownerRole : Role :=
  [("organization", ["update", "delete"]), ("member", ["read", "create", "update", "delete"]),
    ("invitation", ["create", "cancel"]), ("team", ["create", "update", "delete"]),
    ("ac", ["create", "read", "update", "delete"]), ("project", ["create", "delete"]),
    ("service", ["create", "read", "delete"]), ("environment", ["create", "read", "delete"]), ("docker", ["read"]),
    ("sshKeys", ["read", "create", "delete"]), ("gitProviders", ["read", "create", "delete"]),
    ("traefikFiles", ["read", "write"]), ("api", ["read"]), ("volume", ["read", "create", "delete"]),
    ("deployment", ["read", "create", "cancel", "priority"]), ("envVars", ["read", "write"]),
    ("projectEnvVars", ["read", "write"]), ("environmentEnvVars", ["read", "write"]),
    ("server", ["read", "create", "delete", "terminal"]), ("registry", ["read", "create", "delete"]),
    ("certificate", ["read", "create", "update", "delete"]),
    ("backup", ["read", "create", "update", "delete", "restore"]),
    ("volumeBackup", ["read", "create", "update", "delete", "restore"]),
    ("schedule", ["read", "create", "update", "delete"]), ("domain", ["read", "create", "delete"]),
    ("destination", ["read", "create", "delete"]), ("cloudflare", ["read", "create", "update", "delete"]),
    ("notification", ["read", "create", "update", "delete"]), ("tag", ["read", "create", "update", "delete"]),
    ("network", ["read", "create", "delete"]), ("logs", ["read"]), ("monitoring", ["read"]), ("auditLog", ["read"]),
    ("vaultProvider", ["read", "create", "update", "delete"]), ("dnsProvider", ["read", "create", "update", "delete"])]

/-- Everything but to delete the organization. -/
def adminRole : Role :=
  [("organization", ["update"]), ("member", ["read", "create", "update", "delete"]),
    ("invitation", ["create", "cancel"]), ("team", ["create", "update", "delete"]),
    ("ac", ["create", "read", "update", "delete"]), ("project", ["create", "delete"]),
    ("service", ["create", "read", "delete"]), ("environment", ["create", "read", "delete"]), ("docker", ["read"]),
    ("sshKeys", ["read", "create", "delete"]), ("gitProviders", ["read", "create", "delete"]),
    ("traefikFiles", ["read", "write"]), ("api", ["read"]), ("volume", ["read", "create", "delete"]),
    ("deployment", ["read", "create", "cancel", "priority"]), ("envVars", ["read", "write"]),
    ("projectEnvVars", ["read", "write"]), ("environmentEnvVars", ["read", "write"]),
    ("server", ["read", "create", "delete", "terminal"]), ("registry", ["read", "create", "delete"]),
    ("certificate", ["read", "create", "update", "delete"]),
    ("backup", ["read", "create", "update", "delete", "restore"]),
    ("volumeBackup", ["read", "create", "update", "delete", "restore"]),
    ("schedule", ["read", "create", "update", "delete"]), ("domain", ["read", "create", "delete"]),
    ("destination", ["read", "create", "delete"]), ("cloudflare", ["read", "create", "update", "delete"]),
    ("notification", ["read", "create", "update", "delete"]), ("tag", ["read", "create", "update", "delete"]),
    ("network", ["read", "create", "delete"]), ("logs", ["read"]), ("monitoring", ["read"]), ("auditLog", ["read"]),
    ("vaultProvider", ["read", "create", "update", "delete"]), ("dnsProvider", ["read", "create", "update", "delete"])]

def memberRole : Role :=
  [("organization", []), ("member", []), ("invitation", []), ("team", []), ("ac", ["read"]), ("project", []),
    ("service", ["read"]), ("environment", ["read"]), ("docker", []), ("sshKeys", []), ("gitProviders", []),
    ("traefikFiles", []), ("api", []), ("volume", ["read", "create", "delete"]),
    ("deployment", ["read", "create", "cancel"]), ("envVars", ["read", "write"]), ("projectEnvVars", ["read", "write"]),
    ("environmentEnvVars", ["read", "write"]), ("backup", ["read", "create", "update", "delete", "restore"]),
    ("volumeBackup", ["read", "create", "update", "delete", "restore"]),
    ("schedule", ["read", "create", "update", "delete"]), ("domain", ["read", "create", "delete"]), ("logs", ["read"]),
    ("monitoring", ["read"]), ("server", []), ("registry", []), ("certificate", []), ("destination", []),
    ("cloudflare", []), ("notification", []), ("tag", ["read"]), ("network", []), ("auditLog", []),
    ("vaultProvider", ["read"]), ("dnsProvider", [])]

def staticRoles : List (String × Role) := [("owner", ownerRole), ("admin", adminRole), ("member", memberRole)]

/-- The role grants the action on the resource. -/
def Grants (role : Role) (resource action : String) : Prop :=
  Exists fun allowed => getEntry role resource = some allowed ∧ action ∈ allowed

instance (role : Role) (resource action : String) : Decidable (Grants role resource action) :=
  match found : getEntry role resource with
  | none => isFalse fun ⟨_, isAllowed, _⟩ => nomatch found.symm.trans isAllowed
  | some allowed =>
      if member : action ∈ allowed then isTrue ⟨allowed, found, member⟩
      else isFalse fun ⟨_, isAllowed, isMember⟩ => member (Option.some.inj (found.symm.trans isAllowed) ▸ isMember)

abbrev Known (resource action : String) : Prop := Grants statements resource action

theorem privileged_grants {role : Role} (privileged : role ∈ [ownerRole, adminRole]) {resource action : String}
    (known : Known resource action) (enterprise : resource ∈ enterpriseOnlyResources) : Grants role resource action := by
  have inside : ([ownerRole, adminRole].all fun role => enterpriseOnlyResources.all fun resource =>
      getEntry role resource == getEntry statements resource) = true := by decide
  have same := List.all_eq_true.mp (List.all_eq_true.mp inside role privileged) resource enterprise
  rcases known with ⟨allowed, isAllowed, member⟩
  exact ⟨allowed, (beq_iff_eq.mp same).trans isAllowed, member⟩

end Permissions
end Dokploy
