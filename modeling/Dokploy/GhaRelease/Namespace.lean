import Dokploy.DeployGate.Results
import Dokploy.GhaRelease.ActionsApi

namespace Dokploy
namespace GhaRelease

open DeployGate

/-!
# What a connection may release

A release may only name images in the namespace of its own connection, of
repositories the service already runs, and the environment of the connection may
only be deployed to from the tracked branch.
-/

variable (platform : Platform)

/-- What the language takes off both ends of a text. -/
def isBlank (char : Char) : Bool :=
  decide (9 ≤ char.toNat ∧ char.toNat ≤ 13) || decide (0x2000 ≤ char.toNat ∧ char.toNat ≤ 0x200A) ||
    [0x20, 0xA0, 0x1680, 0x2028, 0x2029, 0x202F, 0x205F, 0x3000, 0xFEFF].contains char.toNat

def trim (text : String) : String :=
  String.ofList (((text.toList.dropWhile isBlank).reverse.dropWhile isBlank).reverse)

def lower (value : String) : String := platform.toLowerCase (trim value)

def normalizePrefix (registryPrefix : String) : String :=
  String.ofList (((lower platform registryPrefix).toList.reverse.dropWhile (· == '/')).reverse)

/-- The repositories of a connection begin with one of these. -/
def allowedNamespaces (owner repo : String) (registryPrefix : Option String) : List String :=
  let own := s!"ghcr.io/{lower platform owner}/{lower platform repo}/"
  match registryPrefix with
  | none => [own]
  | some mirror => if mirror = "" then [own] else [own, s!"{normalizePrefix platform mirror}/{lower platform repo}/"]

/-- The rest of a text behind another one. -/
def after (start text : String) : Option String :=
  if start.toList.isPrefixOf text.toList then some (String.ofList (text.toList.drop start.toList.length)) else none

/-- The repository a mirrored image was copied from. -/
def canonicalRepository (repository owner : String) (registryPrefix : Option String) : Option String :=
  match registryPrefix with
  | none => none
  | some mirror =>
      if mirror = "" then none
      else
        (after s!"{normalizePrefix platform mirror}/" (lower platform repository)).map fun name =>
          s!"ghcr.io/{lower platform owner}/{name}"

inductive RepositoryCode where
  | namespaceOf
  | repository
  deriving DecidableEq, Repr

/-- A repository outside the namespace, of a preview, or that the service does
not run. -/
def checkImageRepository (repository : String) (namespaces currentRepositories : List String) :
    Option (RepositoryCode × String) :=
  let listed := ", ".intercalate namespaces
  let current := ", ".intercalate currentRepositories
  match namespaces.findSome? fun known => after known (lower platform repository) with
  | none => some (.namespaceOf, s!"{repository} is outside this connection's registry namespace ({listed})")
  | some name =>
      if "preview/".toList.isPrefixOf name.toList then
        some (.namespaceOf, s!"{repository} belongs to pull request previews, which a service release never uses")
      else if currentRepositories ≠ [] ∧ lower platform repository ∉ currentRepositories.map (lower platform) then
        some (.repository, s!"{repository} is not an image this service runs ({current})")
      else none

structure RepositoryParts where
  host : String
  name : String
  deriving DecidableEq, Repr

/-- The host and the name of a repository; none, where there is no host. -/
def splitRepository (repository : String) : Option RepositoryParts :=
  let host := repository.toList.takeWhile (· != '/')
  if host = [] ∨ host.length = repository.toList.length then none
  else if !host.contains '.' && !host.contains ':' && !decide (host = "localhost".toList) then none
  else some ⟨platform.toLowerCase (String.ofList host), String.ofList (repository.toList.drop (host.length + 1))⟩

/-- What is wrong with the branches that may deploy to the environment. -/
def evaluateEnvironmentPolicy (policy : EnvironmentPolicy) (trackedBranch : String) : Option String :=
  if !policy.customBranchPolicies then
    some (if policy.protectedBranches then
      "The environment allows every protected branch, not only the tracked branch"
    else "The environment allows every branch")
  else
    match policy.policies with
    | [only] =>
        if only.type ≠ "branch" ∨ only.name ≠ trackedBranch then
          some s!"The environment allows {only.name} ({only.type}), not only {trackedBranch}"
        else none
    | _ => some "The environment must allow exactly one deployment branch, the tracked branch"

end GhaRelease
end Dokploy
