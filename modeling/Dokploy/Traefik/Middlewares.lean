import Dokploy.Traefik.Config

namespace Dokploy
namespace Traefik

open Foundation

/-!
# The middlewares of all applications

What each operation makes of the shared middlewares file once it has read it.
`none` is an operation that does not write, because there is nothing to do or
because it fails on what it read.
-/

/-- What a middlewares file holds: an empty file is read as `null`. -/
abbrev MiddlewaresFile := Option FileConfig

namespace FileConfig

/-- Several middlewares are set, one after the other. -/
def setMiddlewares (config : FileConfig) (entries : List (String × HttpMiddleware)) : FileConfig :=
  config.withMiddlewares (entries.foldl (fun middlewares entry => setEntry middlewares entry.1 entry.2)
    config.middlewares)

/-- Several middlewares are deleted from the section, where there is one. -/
def deleteMiddlewares (config : FileConfig) (names : List String) : FileConfig :=
  if (config.http.bind (·.middlewares)).isSome then config.withMiddlewares (names.foldl deleteEntry config.middlewares)
  else config

end FileConfig

open FileConfig

/-- `user.split(":")[0]` -/
def userName (user : String) : String := String.ofList (user.toList.takeWhile (· ≠ ':'))

/-- `user` is the new line of the password file, with the hash of the password. -/
def createSecurityMiddleware (file : MiddlewaresFile) (appName user : String) : Option MiddlewaresFile :=
  match file with
  | none => none
  | some config =>
      if (config.http.bind (·.middlewares)).isSome then
        match getEntry config.middlewares (authName appName) with
        | some (.basicAuth settings) =>
            some (some (config.setMiddlewares [(authName appName,
              .basicAuth { settings with users := some (settings.users.getD [] ++ [user]) })]))
        | _ =>
            some (some (config.setMiddlewares [(authName appName,
              .basicAuth { users := some [user], removeHeader := some true, other := [] })]))
      else some (some config)

/-- The users that are left, where the application has a password gate. -/
def remainingUsers (config : FileConfig) (appName username : String) : Option (BasicAuth × List String) :=
  match getEntry config.middlewares (authName appName) with
  | some (.basicAuth settings) => some (settings, (settings.users.getD []).filter fun user => userName user ≠ username)
  | _ => none

def removeSecurityMiddleware (file : MiddlewaresFile) (appName username : String) : Option MiddlewaresFile :=
  match file with
  | none => none
  | some config =>
      match remainingUsers config appName username with
      | some (settings, []) => some (some (config.deleteMiddlewares [authName appName]))
      | some (settings, users) =>
          some (some (config.setMiddlewares [(authName appName, .basicAuth { settings with users := some users })]))
      | none => some (some config)

def createRedirectMiddleware (file : MiddlewaresFile) (appName : String) (data : Redirect) : Option MiddlewaresFile :=
  match file with
  | none => some none
  | some config =>
      if config.http.isSome then
        some (some (config.setMiddlewares [(redirectName appName data.uniqueConfigKey,
          .redirectRegex data.regex data.replacement data.permanent)]))
      else some (some config)

def removeRedirectMiddleware (file : MiddlewaresFile) (appName : String) (data : Redirect) : Option MiddlewaresFile :=
  some (file.map fun config => config.deleteMiddlewares [redirectName appName data.uniqueConfigKey])

def pathMiddlewares (appName : String) (domain : Domain) : List (String × HttpMiddleware) :=
  (domain.needsInternalPath.map fun internalPath =>
    (addPrefixName appName domain.uniqueConfigKey, HttpMiddleware.addPrefix internalPath)).toList ++
  (domain.needsStripPath.map fun path =>
    (stripPrefixName appName domain.uniqueConfigKey, HttpMiddleware.stripPrefix [path])).toList

def createPathMiddlewares (file : MiddlewaresFile) (appName : String) (domain : Domain) : Option MiddlewaresFile :=
  if pathMiddlewares appName domain = [] then none
  else some (some ((file.getD {}).setMiddlewares (pathMiddlewares appName domain)))

/-- Sections that became empty are removed. -/
def dropEmpty (config : FileConfig) : FileConfig :=
  match config.http with
  | none => config
  | some http =>
      let kept : HttpConfig := if http.middlewares = some [] then { http with middlewares := none } else http
      { config with http := if kept.isEmpty then none else some kept }

def removePathMiddlewares (file : MiddlewaresFile) (appName : String) (key : Nat) : Option MiddlewaresFile :=
  file.map fun config =>
    some (dropEmpty (config.deleteMiddlewares [addPrefixName appName key, stripPrefixName appName key]))

def TRAEFIK_SERVICE : String := "forward-auth-proxy"

def forwardAuthMiddlewares (appName : String) (key : Nat) (authGate : AuthGate) : List (String × HttpMiddleware) :=
  [(forwardAuthMiddlewareName appName key,
      .forwardAuth ((if authGate.https then "https" else "http") ++ "://" ++ authGate.authDomain ++ "/oauth2/auth") true
        ["X-Auth-Request-User", "X-Auth-Request-Email", "X-Auth-Request-Preferred-Username", "Authorization"]),
    (forwardAuthErrorsName appName key,
      .errors ["401-403"] TRAEFIK_SERVICE "/oauth2/sign_in?rd=\x7burl\x7d" [("401", 302)])]

def createForwardAuthMiddleware (file : MiddlewaresFile) (appName : String) (domain : Domain)
    (authGate : Option AuthGate) : Option MiddlewaresFile :=
  if domain.forwardAuthEnabled then
    match authGate, file with
    | some gate, some config =>
        some (some (config.setMiddlewares (forwardAuthMiddlewares appName domain.uniqueConfigKey gate)))
    | _, _ => none
  else none

def removeForwardAuthMiddleware (file : MiddlewaresFile) (appName : String) (key : Nat) : Option MiddlewaresFile :=
  let names := [forwardAuthMiddlewareName appName key, forwardAuthErrorsName appName key]
  match file with
  | some config =>
      if names.any fun name => (getEntry config.middlewares name).isSome then
        some (some (config.deleteMiddlewares names))
      else none
  | none => none

end Traefik
end Dokploy
