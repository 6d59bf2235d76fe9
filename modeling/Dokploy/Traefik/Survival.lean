import Dokploy.Traefik.FileAccess
import Dokploy.Traefik.SharedFile

namespace Dokploy
namespace Traefik

open Foundation
open Losses

/-!
# What a call leaves of others

A call is made for one domain of an application.  The routers and services of the
application's other domains, and the middlewares of all other domains and
applications, are those of others.  A file that cannot be parsed holds its text.
-/

inductive Place where
  | appText
  | router (name : String)
  | service (name : String)
  | sharedText
  | middleware (name : String)
deriving DecidableEq

inductive Entry where
  | text (text : String)
  | router (router : HttpRouter)
  | service (service : HttpService)
  | middleware (middleware : HttpMiddleware)
deriving DecidableEq

namespace Content

def text : Content -> Option String
  | unparsable text => some text
  | _ => none

def config : Content -> FileConfig
  | parsed (some config) => config
  | _ => {}

end Content

def Files.entry (files : Files) : Place -> Option Entry
  | .appText => files.app.text.map .text
  | .router name => (getEntry files.app.config.routers name).map .router
  | .service name => (getEntry files.app.config.services name).map .service
  | .sharedText => files.shared.text.map .text
  | .middleware name => (getEntry files.shared.config.middlewares name).map .middleware

def Place.InApp : Place -> Prop
  | .appText | .router _ | .service _ => True
  | _ => False

def Place.InShared : Place -> Prop
  | .sharedText | .middleware _ => True
  | _ => False

/-- The middlewares that are named after a domain of an application. -/
def domainMiddlewares (appName : String) (key : Nat) : List String :=
  [addPrefixName appName key, stripPrefixName appName key, forwardAuthMiddlewareName appName key,
    forwardAuthErrorsName appName key]

def OfOthers (appName : String) (key : Nat) : Place -> Prop
  | .appText | .sharedText => True
  | .router name => Exists fun other => other ≠ key ∧ (name = routerName appName other ∨ name = routerNameSecure appName other)
  | .service name => Exists fun other => other ≠ key ∧ name = serviceName appName other
  | .middleware name => name ∉ domainMiddlewares appName key

/-- Everything of others is still there, unchanged. -/
abbrev Survives (appName : String) (key : Nat) (before after : Files) : Prop :=
  Keeps (OfOthers appName key) Files.entry before after

variable {appName : String}

theorem named_ne {kind : String} {key other : Nat} (different : other ≠ key) :
    appName ++ kind ++ toString other ≠ appName ++ kind ++ toString key := by
  intro same
  have characters := congrArg String.toList same
  simp only [String.toList_append, toList_toString] at characters
  exact different (decimal_injective (List.append_cancel_left characters))

theorem routerName_ne {key other : Nat} (different : other ≠ key) :
    routerName appName other ≠ routerName appName key := named_ne different

theorem routerNameSecure_ne {key other : Nat} (different : other ≠ key) :
    routerNameSecure appName other ≠ routerNameSecure appName key := named_ne different

theorem serviceName_ne {key other : Nat} (different : other ≠ key) :
    serviceName appName other ≠ serviceName appName key := named_ne different

theorem routerName_ne_secure {key other : Nat} :
    routerName appName key ≠ routerNameSecure appName other := by
  intro same
  have characters := congrArg String.toList same
  have isSecure : "-router-websecure-".toList = "-router-".toList ++ "websecure-".toList := by decide
  simp only [routerName, routerNameSecure, String.toList_append, toList_toString, isSecure, List.append_assoc]
    at characters
  have numbers := List.append_cancel_left (List.append_cancel_left characters)
  have member : 'w' ∈ Numerals.decimal key := by
    rw [numbers]
    exact List.mem_append_left _ (by decide)
  exact absurd (Numerals.isDigit_of_mem_decimal member) (by decide)

section Configs

variable {appName : String} {key : Nat} {name : String}

theorem managedConfig_routers (toPunycode : String -> String) (application : Application) (domain : Domain)
    (config : FileConfig) : (managedConfig toPunycode application domain config).routers =
      managedRouters toPunycode application domain config.routers := by
  rcases config with ⟨http, other⟩
  cases http with
  | none => rfl
  | some http => rfl

theorem managedConfig_services (toPunycode : String -> String) (application : Application) (domain : Domain)
    (config : FileConfig) : (managedConfig toPunycode application domain config).services =
      setEntry config.services (serviceName application.appName domain.uniqueConfigKey)
        (createServiceConfig application.appName domain) := by
  rcases config with ⟨http, other⟩
  cases http with
  | none => rfl
  | some http => rfl

theorem getEntry_managedRouters (toPunycode : String -> String) {application : Application} {domain : Domain}
    (routers : List (String × HttpRouter)) (notPlain : name ≠ routerName application.appName domain.uniqueConfigKey)
    (notSecure : name ≠ routerNameSecure application.appName domain.uniqueConfigKey) :
    getEntry (managedRouters toPunycode application domain routers) name = getEntry routers name := by
  unfold managedRouters
  split
  · rw [getEntry_setEntry_other _ _ notSecure, getEntry_setEntry_other _ _ notPlain]
  · rw [getEntry_deleteEntry_other _ notSecure, getEntry_setEntry_other _ _ notPlain]

theorem getEntry_removedRouters (config : FileConfig) (notPlain : name ≠ routerName appName key)
    (notSecure : name ≠ routerNameSecure appName key) :
    getEntry (removedConfig appName key config).routers name = getEntry config.routers name := by
  rcases config with ⟨http, other⟩
  cases http with
  | none => rfl
  | some http =>
      rcases http with ⟨routers, services, middlewares, rest⟩
      cases routers with
      | none => rfl
      | some routers =>
          exact (getEntry_deleteEntry_other _ notSecure).trans (getEntry_deleteEntry_other _ notPlain)

theorem getEntry_removedServices (config : FileConfig) (notOwn : name ≠ serviceName appName key) :
    getEntry (removedConfig appName key config).services name = getEntry config.services name := by
  rcases config with ⟨http, other⟩
  cases http with
  | none => rfl
  | some http =>
      rcases http with ⟨routers, services, middlewares, rest⟩
      cases services with
      | none => rfl
      | some services => exact getEntry_deleteEntry_other _ notOwn

/-- The routers and services of others in the application's file. -/
structure SameOthers (appName : String) (key : Nat) (before after : FileConfig) : Prop where
  routers : forall name, OfOthers appName key (.router name) ->
    getEntry after.routers name = getEntry before.routers name
  services : forall name, OfOthers appName key (.service name) ->
    getEntry after.services name = getEntry before.services name

theorem router_not_own (others : OfOthers appName key (.router name)) :
    name ≠ routerName appName key ∧ name ≠ routerNameSecure appName key := by
  rcases others with ⟨other, different, plain | secure⟩
  · rw [plain]
    exact ⟨routerName_ne different, routerName_ne_secure⟩
  · rw [secure]
    exact ⟨routerName_ne_secure.symm, routerNameSecure_ne different⟩

theorem service_not_own (others : OfOthers appName key (.service name)) : name ≠ serviceName appName key := by
  rcases others with ⟨other, different, named⟩
  rw [named]
  exact serviceName_ne different

theorem managedConfig_sameOthers (toPunycode : String -> String) (application : Application) (domain : Domain)
    (config : FileConfig) : SameOthers application.appName domain.uniqueConfigKey config
      (managedConfig toPunycode application domain config) where
  routers := by
    intro name others
    rw [managedConfig_routers]
    exact getEntry_managedRouters toPunycode _ (router_not_own others).1 (router_not_own others).2
  services := by
    intro name others
    rw [managedConfig_services]
    exact getEntry_setEntry_other _ _ (service_not_own others)

theorem removedConfig_sameOthers (config : FileConfig) :
    SameOthers appName key config (removedConfig appName key config) where
  routers := fun _ others => getEntry_removedRouters config (router_not_own others).1 (router_not_own others).2
  services := fun _ others => getEntry_removedServices config (service_not_own others)

def entriesOf (file : MiddlewaresFile) : List (String × HttpMiddleware) := (Content.parsed file).config.middlewares

def EffectKeeps (appName : String) (key : Nat) (effect : MiddlewaresFile -> Option MiddlewaresFile) : Prop :=
  forall file after, effect file = some after -> forall name, name ∉ domainMiddlewares appName key ->
    getEntry (entriesOf after) name = getEntry (entriesOf file) name

theorem entriesOf_getD (file : MiddlewaresFile) : (file.getD {}).middlewares = entriesOf file := by
  cases file <;> rfl

theorem pathMiddlewares_named {domain : Domain} {entry : String × HttpMiddleware}
    (member : entry ∈ pathMiddlewares appName domain) :
    entry.1 ∈ domainMiddlewares appName domain.uniqueConfigKey := by
  rcases List.mem_append.mp member with internal | stripped
  · rcases Option.map_eq_some_iff.mp (Option.mem_toList.mp internal) with ⟨_, _, isEntry⟩
    rw [← isEntry]
    exact List.mem_cons_self
  · rcases Option.map_eq_some_iff.mp (Option.mem_toList.mp stripped) with ⟨_, _, isEntry⟩
    rw [← isEntry]
    exact List.mem_cons_of_mem _ List.mem_cons_self

theorem createPath_effectKeeps (domain : Domain) :
    EffectKeeps appName domain.uniqueConfigKey (createPathMiddlewares · appName domain) := by
  intro file after made name others
  simp only [createPathMiddlewares] at made
  split at made
  · cases made
  · cases made
    rw [← entriesOf_getD file]
    refine FileConfig.getEntry_setMiddlewares _ fun member => ?_
    rcases List.mem_map.mp member with ⟨entry, isEntry, isName⟩
    exact others (isName ▸ pathMiddlewares_named isEntry)

theorem removePath_effectKeeps : EffectKeeps appName key (removePathMiddlewares · appName key) := by
  intro file after made name others
  cases file with
  | none => cases made
  | some config =>
      cases made
      have kept : getEntry (config.deleteMiddlewares [addPrefixName appName key, stripPrefixName appName key]).middlewares
          name = getEntry config.middlewares name :=
        FileConfig.getEntry_deleteMiddlewares config fun member => others (List.mem_append_left [_, _] member)
      exact (congrArg (getEntry · name) (middlewares_dropEmpty _)).trans kept

theorem createForwardAuth_effectKeeps (domain : Domain) (authGate : Option AuthGate) :
    EffectKeeps appName domain.uniqueConfigKey (createForwardAuthMiddleware · appName domain authGate) := by
  intro file after made name others
  simp only [createForwardAuthMiddleware] at made
  split at made
  · split at made
    · cases made
      exact FileConfig.getEntry_setMiddlewares _ fun member => others (List.mem_append_right [_, _] member)
    · cases made
  · cases made

theorem removeForwardAuth_effectKeeps : EffectKeeps appName key (removeForwardAuthMiddleware · appName key) := by
  intro file after made name others
  cases file with
  | none => cases made
  | some config =>
      simp only [removeForwardAuthMiddleware] at made
      split at made
      · cases made
        exact FileConfig.getEntry_deleteMiddlewares _ fun member => others (List.mem_append_right [_, _] member)
      · cases made

end Configs

end Traefik
end Dokploy
