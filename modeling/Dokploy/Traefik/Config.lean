import Dokploy.Foundation.Objects

namespace Dokploy
namespace Traefik

open Foundation

/-!
# Dynamic configuration files of Traefik

Each application has a file with its routers and services.  One more file on each
server holds the middlewares of all its applications.  A file is given by what
the YAML parser reads from it, and the keys of a file that no function here looks
at are kept as they are.
-/

structure BasicAuth where
  users : Option (List String)
  removeHeader : Option Bool
  other : List (String × String)
deriving DecidableEq

inductive HttpMiddleware where
  | basicAuth (settings : BasicAuth)
  | redirectRegex (regex replacement : String) (permanent : Bool)
  | addPrefix (path : String)
  | stripPrefix (prefixes : List String)
  | forwardAuth (address : String) (trustForwardHeader : Bool) (authResponseHeaders : List String)
  | errors (status : List String) (service query : String) (statusRewrites : List (String × Nat))
  | other (text : String)
deriving DecidableEq

structure TlsConfig where
  certResolver : Option String
  other : List (String × String)
deriving DecidableEq

structure HttpRouter where
  rule : String
  service : String
  middlewares : Option (List String)
  entryPoints : Option (List String)
  tls : Option TlsConfig
  other : List (String × String)
deriving DecidableEq

inductive HttpService where
  | loadBalancer (urls : List String) (passHostHeader : Bool)
  | other (text : String)
deriving DecidableEq

structure HttpConfig where
  routers : Option (List (String × HttpRouter)) := none
  services : Option (List (String × HttpService)) := none
  middlewares : Option (List (String × HttpMiddleware)) := none
  other : List (String × String) := []
deriving DecidableEq

structure FileConfig where
  http : Option HttpConfig := none
  other : List (String × String) := []
deriving DecidableEq

/-- `Object.keys(config.http).length === 0` -/
def HttpConfig.isEmpty (http : HttpConfig) : Bool :=
  http.routers.isNone && http.services.isNone && http.middlewares.isNone && http.other.isEmpty

namespace FileConfig

/-- The `http` section, where a file may lack it. -/
def httpOrEmpty (config : FileConfig) : HttpConfig := config.http.getD {}

def routers (config : FileConfig) : List (String × HttpRouter) := (config.http.bind (·.routers)).getD []

def services (config : FileConfig) : List (String × HttpService) := (config.http.bind (·.services)).getD []

def middlewares (config : FileConfig) : List (String × HttpMiddleware) := (config.http.bind (·.middlewares)).getD []

/-- The same file with other middlewares. -/
def withMiddlewares (config : FileConfig) (middlewares : List (String × HttpMiddleware)) : FileConfig :=
  { config with http := some { config.httpOrEmpty with middlewares := some middlewares } }

@[simp] theorem middlewares_withMiddlewares (config : FileConfig) (middlewares : List (String × HttpMiddleware)) :
    (config.withMiddlewares middlewares).middlewares = middlewares := rfl

end FileConfig

inductive DomainType where
  | application
  | compose
  | preview
deriving DecidableEq

inductive CertificateType where
  | letsencrypt
  | none
  | custom
deriving DecidableEq

structure Redirect where
  uniqueConfigKey : Nat
  regex : String
  replacement : String
  permanent : Bool
deriving DecidableEq

structure Security where
  username : String
  password : String
deriving DecidableEq

structure Domain where
  uniqueConfigKey : Nat
  enabled : Bool
  host : String
  path : Option String
  internalPath : Option String
  stripPath : Bool
  https : Bool
  port : Option Nat
  customEntrypoint : Option String
  publishToCloudflare : Bool
  domainType : DomainType
  forwardAuthEnabled : Bool
  middlewares : Option (List String)
  certificateType : CertificateType
  customCertResolver : Option String
deriving DecidableEq

structure Application where
  appName : String
  redirects : List Redirect
  security : List Security
deriving DecidableEq

structure AuthGate where
  authDomain : String
  https : Bool
deriving DecidableEq

def authName (appName : String) : String := "auth-" ++ appName

def redirectName (appName : String) (key : Nat) : String := "redirect-" ++ appName ++ "-" ++ toString key

def addPrefixName (appName : String) (key : Nat) : String := "addprefix-" ++ appName ++ "-" ++ toString key

def stripPrefixName (appName : String) (key : Nat) : String := "stripprefix-" ++ appName ++ "-" ++ toString key

def forwardAuthMiddlewareName (appName : String) (key : Nat) : String := "forward-auth-" ++ appName ++ "-" ++ toString key

def forwardAuthErrorsName (appName : String) (key : Nat) : String := forwardAuthMiddlewareName appName key ++ "-errors"

def routerName (appName : String) (key : Nat) : String := appName ++ "-router-" ++ toString key

def routerNameSecure (appName : String) (key : Nat) : String := appName ++ "-router-websecure-" ++ toString key

def serviceName (appName : String) (key : Nat) : String := appName ++ "-service-" ++ toString key

def filled (text : Option String) : Option String := text.filter (· ≠ "")

namespace Domain

def needsInternalPath (domain : Domain) : Option String :=
  (filled domain.internalPath).filter fun internalPath => internalPath ≠ "/" ∧ domain.path ≠ some internalPath

def needsStripPath (domain : Domain) : Option String :=
  if domain.stripPath then (filled domain.path).filter (· ≠ "/") else none

end Domain

end Traefik
end Dokploy
