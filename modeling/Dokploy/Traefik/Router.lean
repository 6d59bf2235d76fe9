import Dokploy.Traefik.Config

namespace Dokploy
namespace Traefik

open Foundation

/-!
# Routers of a domain

A domain has a router for plain connections and, when it is served over HTTPS at
the usual entry points, one more for secure connections.  Both are made from the
application and the domain as they are at that moment.
-/

/-- The characters that a regular expression escapes. -/
def specialCharacters : List Char := ".*+?^$\x7b\x7d()|[]\\".toList

def wildcardHostRegexp (host : String) : String :=
  "^[a-zA-Z0-9-]+\\." ++
    String.ofList ((host.toList.drop 2).flatMap fun char => if char ∈ specialCharacters then ['\\', char] else [char]) ++
    "\\z"

/-- `appName.replace(/^preview-(.+)-[^-]+$/, "$1")` -/
def previewParent (appName : String) : String :=
  if "preview-".toList.isPrefixOf appName.toList then
    let backwards := (appName.toList.drop "preview-".length).reverse
    match backwards.dropWhile (· ≠ '-') with
    | _ :: front =>
        if backwards.head? ≠ some '-' ∧ front ≠ [] ∧
            front.all (fun char => char ∉ ['\n', '\r', '\u2028', '\u2029']) = true then
          String.ofList front.reverse
        else appName
    | [] => appName
  else appName

namespace Domain

def isWildcard (domain : Domain) : Bool := domain.host.toList.take 2 = ['*', '.']

/-- The entry point of the domain's own, where it has one. -/
def ownEntryPoint (domain : Domain) : Option String := filled domain.customEntrypoint

/-- The web router only redirects to the secure one. -/
def redirectsToHttps (domain : Domain) : Bool :=
  domain.https && domain.ownEntryPoint.isNone && !domain.publishToCloudflare

def isPreview (domain : Domain) : Bool := domain.domainType = .preview

end Domain

variable (toPunycode : String -> String)

def hostRule (domain : Domain) : String :=
  if domain.isWildcard then "HostRegexp(`" ++ wildcardHostRegexp domain.host ++ "`)"
  else "Host(`" ++ toPunycode domain.host ++ "`)"

def routerRule (domain : Domain) : String :=
  hostRule toPunycode domain ++
    match domain.path with
    | some path => if path ≠ "/" then " && PathPrefix(`" ++ path ++ "`)" else ""
    | none => ""

/-- The password gate of a preview is the one of the application it is a preview of. -/
def gateName (appName : String) (domain : Domain) : String :=
  authName (if domain.isPreview then previewParent appName else appName)

def pathNames (appName : String) (domain : Domain) : List String :=
  (domain.needsStripPath.map fun _ => stripPrefixName appName domain.uniqueConfigKey).toList ++
    (domain.needsInternalPath.map fun _ => addPrefixName appName domain.uniqueConfigKey).toList

def redirectNames (application : Application) (domain : Domain) : List String :=
  if domain.isPreview then []
  else application.redirects.map fun redirect => redirectName application.appName redirect.uniqueConfigKey

def gateNames (application : Application) (domain : Domain) : List String :=
  if application.security = [] then [] else [gateName application.appName domain]

/-- The error page comes first, so that it sees what the login answers. -/
def loginNames (appName : String) (domain : Domain) : List String :=
  if domain.forwardAuthEnabled then
    [forwardAuthErrorsName appName domain.uniqueConfigKey, forwardAuthMiddlewareName appName domain.uniqueConfigKey]
  else []

def Domain.custom (domain : Domain) : List String := domain.middlewares.getD []

/-- The middlewares of a router that serves the application. -/
def servingMiddlewares (application : Application) (domain : Domain) : List String :=
  pathNames application.appName domain ++ redirectNames application domain ++ gateNames application domain ++
    loginNames application.appName domain ++ domain.custom

def routerTls (domain : Domain) : Option TlsConfig :=
  match domain.certificateType with
  | .letsencrypt => some { certResolver := some "letsencrypt", other := [] }
  | .custom => (filled domain.customCertResolver).map fun resolver => { certResolver := some resolver, other := [] }
  | .none => none

def createRouterConfig (application : Application) (domain : Domain) (entryPoint : String) : HttpRouter where
  rule := routerRule toPunycode domain
  service := serviceName application.appName domain.uniqueConfigKey
  middlewares := some
    (if entryPoint = "web" ∧ domain.redirectsToHttps = true then ["redirect-to-https"]
    else servingMiddlewares application domain)
  entryPoints := some [entryPoint]
  tls := if entryPoint = "websecure" ∨ (domain.ownEntryPoint.isSome ∧ domain.https = true) then routerTls domain
    else none
  other := []

def createServiceConfig (appName : String) (domain : Domain) : HttpService :=
  .loadBalancer ["http://" ++ appName ++ ":" ++ toString ((domain.port.filter (· ≠ 0)).getD 80)] true

/-- `{ http: { routers: {}, services: {} } }` -/
def createdConfig : FileConfig := { http := some { routers := some [], services := some [] } }

/-- The domain has a secure router of its own. -/
def Domain.hasSecureRouter (domain : Domain) : Bool := domain.ownEntryPoint.isNone && domain.https

def managedRouters (application : Application) (domain : Domain) (routers : List (String × HttpRouter)) :
    List (String × HttpRouter) :=
  let key := domain.uniqueConfigKey
  let plain := setEntry routers (routerName application.appName key)
    (createRouterConfig toPunycode application domain (domain.ownEntryPoint.getD "web"))
  if domain.hasSecureRouter then
    setEntry plain (routerNameSecure application.appName key)
      (createRouterConfig toPunycode application domain "websecure")
  else deleteEntry plain (routerNameSecure application.appName key)

def managedConfig (application : Application) (domain : Domain) (config : FileConfig) : FileConfig :=
  let http := config.http.getD { routers := some [], services := some [] }
  { config with
    http := some { http with
      routers := some (managedRouters toPunycode application domain (http.routers.getD []))
      services := some (setEntry (http.services.getD [])
        (serviceName application.appName domain.uniqueConfigKey) (createServiceConfig application.appName domain)) } }

def removedConfig (appName : String) (key : Nat) (config : FileConfig) : FileConfig :=
  { config with
    http := config.http.map fun http =>
      { http with
        routers := http.routers.map fun routers =>
          deleteEntry (deleteEntry routers (routerName appName key)) (routerNameSecure appName key)
        services := http.services.map fun services => deleteEntry services (serviceName appName key) } }

/-- No router is left, so that the file is removed. -/
def FileConfig.lastRouter (config : FileConfig) : Bool := config.http.bind (·.routers) = some []

end Traefik
end Dokploy
