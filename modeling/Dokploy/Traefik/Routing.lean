import Dokploy.Foundation.Machine
import Dokploy.Foundation.Swaps
import Dokploy.Traefik.Patches

namespace Dokploy
namespace Traefik

open Foundation

/-!
# The routers of an application over time

The database holds the domains, redirects and users of an application.  Each
operation changes one of them and then the files.  A domain's routers are written
whole, while a redirect or a user is patched into the routers that are there.

What has to hold is that the two agree: the file has the routers that would be
made from the database now, and what they name is defined.
-/

structure Routing where
  application : Application
  domains : List Domain
  files : Files
deriving DecidableEq

/-- A user is created with the hash of the password, a domain is managed with the auth domain of the server. -/
inductive Operation where
  | manageDomain (domain : Domain) (authGate : Option AuthGate)
  | removeDomain (key : Nat)
  | createSecurity (data : Security) (hash : String)
  | removeSecurity (username : String)
  | createRedirect (data : Redirect)
  | removeRedirect (data : Redirect)
deriving DecidableEq

def succeeding (authGate : Option AuthGate) : Outcomes where
  app := { read := .succeeds, write := .succeeds }
  path := { read := .succeeds, write := .succeeds }
  forwardAuth := { read := .succeeds, write := .succeeds }
  authGate := some authGate

/-- The row of a domain is inserted or changed. -/
def setDomain (domains : List Domain) (domain : Domain) : List Domain :=
  if domain.uniqueConfigKey ∈ domains.map Domain.uniqueConfigKey then
    domains.map fun other => if other.uniqueConfigKey = domain.uniqueConfigKey then domain else other
  else domains ++ [domain]

def deleteDomain (domains : List Domain) (key : Nat) : List Domain :=
  domains.filter fun domain => domain.uniqueConfigKey ≠ key

namespace Routing

variable (toPunycode : String -> String) (remote : Bool)

/-- An operation that creates a row is rolled back when the files cannot be changed, one that removes a row is not. -/
def step (state : Routing) (operation : Operation) : Option (Routing × List Operation) :=
  let application := state.application
  match operation with
  | .manageDomain domain authGate =>
      some ({ state with
        domains := setDomain state.domains domain
        files := (Fallible.manageDomain toPunycode remote (succeeding authGate) application domain state.files).after },
        [operation])
  | .removeDomain key =>
      some ({ state with
        domains := deleteDomain state.domains key
        files := (Fallible.removeDomain remote (succeeding none) application.appName key state.files).after },
        [operation])
  | .createSecurity data hash =>
      if data.username ∈ application.security.map Security.username then none
      else
        (Patched.createSecurityMiddleware remote application.appName (data.username ++ ":" ++ hash) state.files).map
          fun files =>
            ({ state with application := { application with security := application.security ++ [data] }, files := files },
              [operation])
  | .removeSecurity username =>
      if username ∈ application.security.map Security.username then
        some ({ state with
          application := { application with
            security := application.security.filter fun data => data.username ≠ username }
          files := (Patched.removeSecurityMiddleware remote application.appName username state.files).getD state.files },
          [operation])
      else none
  | .createRedirect data =>
      if data.uniqueConfigKey ∈ application.redirects.map Redirect.uniqueConfigKey then none
      else
        (Patched.createRedirectMiddleware remote application.appName data state.files).map fun files =>
          ({ state with application := { application with redirects := application.redirects ++ [data] }, files := files },
            [operation])
  | .removeRedirect data =>
      if data ∈ application.redirects then
        some ({ state with
          application := { application with
            redirects := application.redirects.filter fun other => other.uniqueConfigKey ≠ data.uniqueConfigKey }
          files := (Patched.removeRedirectMiddleware remote application.appName data state.files).getD state.files },
          [operation])
      else none

/-- An application begins without domains, redirects and users. -/
def machine (appName : String) (files : Files) : Machine Routing Operation Operation where
  initial := { application := { appName := appName, redirects := [], security := [] }, domains := [], files := files }
  step := step toPunycode remote

def Enabled (state : Routing) (domain : Domain) : Prop := domain ∈ state.domains ∧ domain.enabled = true

end Routing

section Agreement

variable (toPunycode : String -> String) (independent : String -> String -> Prop)

/-- A router is the expected one, with its middlewares in the same order as far as it matters. -/
def Alike (found expected : HttpRouter) : Prop :=
  Exists fun middlewares => found = { expected with middlewares := some middlewares } ∧
    Swaps independent middlewares (expected.middlewares.getD [])

def HasRouter (state : Routing) (name : String) (expected : HttpRouter) : Prop :=
  Exists fun found => state.files.router name = some found ∧ Alike independent found expected

/-- The routers are those that would be made now, and the application's middlewares that they name are defined. -/
structure Agrees (state : Routing) : Prop where
  plain : forall domain, state.Enabled domain ->
    HasRouter independent state (routerName state.application.appName domain.uniqueConfigKey)
      (createRouterConfig toPunycode state.application domain (domain.ownEntryPoint.getD "web"))
  secure : forall domain, state.Enabled domain -> domain.hasSecureRouter = true ->
    HasRouter independent state (routerNameSecure state.application.appName domain.uniqueConfigKey)
      (createRouterConfig toPunycode state.application domain "websecure")
  only : forall name, (state.files.router name).isSome = true -> Exists fun domain => state.Enabled domain ∧
    (name = routerName state.application.appName domain.uniqueConfigKey ∨
      (domain.hasSecureRouter = true ∧ name = routerNameSecure state.application.appName domain.uniqueConfigKey))
  defined : forall name router middleware, state.files.router name = some router ->
    middleware ∈ router.middlewares.getD [] -> NamedAfter state.application.appName middleware ->
      (state.files.middleware middleware).isSome = true

end Agreement

section Condition

variable (independent : String -> String -> Prop) (state : Routing)

/-- The middlewares that managing a domain defines. -/
def definedBy (appName : String) (domain : Domain) : List String :=
  (pathMiddlewares appName domain).map Prod.fst ++ loginNames appName domain

/-- No other domain names a middleware of this one by hand. -/
def NotNamedByHand (key : Nat) : Prop :=
  forall domain, state.Enabled domain -> domain.uniqueConfigKey ≠ key ->
    forall name, name ∈ domainMiddlewares state.application.appName key -> name ∉ domain.custom

/-- A new redirect is last on the domain's routers, where a new router would have it before the rest. -/
def TakesRedirect (name : String) (domain : Domain) : Prop :=
  domain.redirectsToHttps = false ∧
    if domain.isPreview then name ∈ domain.custom
    else name ∉ domain.custom ∧
      forall later, later ∈ gateNames state.application domain ++ loginNames state.application.appName domain ++
        domain.custom -> independent later name

/-- The same for the password gate, which is pushed by each new user unless the router has it. -/
def TakesGate (domain : Domain) : Prop :=
  domain.redirectsToHttps = false ∧
    if state.application.security = [] then
      gateName state.application.appName domain = authName state.application.appName ∧
        authName state.application.appName ∉ domain.custom ∧
        forall later, later ∈ loginNames state.application.appName domain ++ domain.custom ->
          independent later (authName state.application.appName)
    else gateName state.application.appName domain = authName state.application.appName ∨
      authName state.application.appName ∈ domain.custom

/-- The condition under which a step keeps the agreement.  Where a domain asks for a login, the server has an auth
domain. -/
def Harmless : Operation -> Prop
  | .manageDomain domain authGate =>
      if domain.enabled then
        (domain.forwardAuthEnabled = true -> authGate.isSome = true) ∧
          forall name, name ∈ domain.custom -> NamedAfter state.application.appName name ->
            name ∈ definedBy state.application.appName domain ∨ (state.files.middleware name).isSome = true
      else NotNamedByHand state domain.uniqueConfigKey
  | .removeDomain key => NotNamedByHand state key
  | .createSecurity _ _ =>
      (state.files.shared.config.http.bind (·.middlewares)).isSome = true ∧
        forall domain, state.Enabled domain -> TakesGate independent state domain
  | .removeSecurity username =>
      (forall data, data ∈ state.application.security -> (userName data.username = username <-> data.username = username)) ∧
        ((forall data, data ∈ state.application.security -> data.username = username) ->
          forall domain, state.Enabled domain ->
            gateName state.application.appName domain = authName state.application.appName ∧
              authName state.application.appName ∉ domain.custom)
  | .createRedirect data =>
      state.files.shared.config.http.isSome = true ∧
        forall domain, state.Enabled domain ->
          TakesRedirect independent state (redirectName state.application.appName data.uniqueConfigKey) domain
  | .removeRedirect data =>
      forall domain, state.Enabled domain ->
        redirectName state.application.appName data.uniqueConfigKey ∉ domain.custom

end Condition

end Traefik
end Dokploy
