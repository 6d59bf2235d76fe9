import Dokploy.Foundation.Losses
import Dokploy.Traefik.Middlewares
import Dokploy.Traefik.Router

namespace Dokploy
namespace Traefik

open Foundation

/-!
# Reading and writing the files, when that can fail

A file may be missing, and its text may be one that the YAML parser refuses.  A
read can fail although the file is there, and on the Dokploy host `existsSync`
can also fail to see the file.  A write that fails leaves the file as it was, or
empty when it was opened already.
-/

inductive Content where
  | missing
  | unparsable (text : String)
  | parsed (file : MiddlewaresFile)
deriving DecidableEq

inductive ReadOutcome where
  | succeeds
  | hidden
  | fails
deriving DecidableEq

inductive WriteOutcome where
  | succeeds
  | truncates
  | fails
deriving DecidableEq

/-- How the read and the write of one step end. -/
structure Access where
  read : ReadOutcome
  write : WriteOutcome
deriving DecidableEq

structure Files where
  app : Content
  shared : Content
deriving DecidableEq

namespace Content

/-- The file is there, is read and is parsed. -/
def isReadable (read : ReadOutcome) : Content -> Bool
  | parsed _ => read = .succeeds
  | _ => false

def write (outcome : WriteOutcome) (file : MiddlewaresFile) (content : Content) : Content :=
  match outcome with
  | .succeeds => parsed file
  | .truncates => parsed none
  | .fails => content

/-- `rm -f` either removes the file or leaves it. -/
def remove (outcome : WriteOutcome) (content : Content) : Content :=
  if outcome = .succeeds then missing else content

end Content

/-- `none` is an error that is thrown. -/
def loadOrCreateConfig (read : ReadOutcome) : Content -> Option FileConfig
  | .missing => some createdConfig
  | .unparsable _ => if read = .hidden then some createdConfig else none
  | .parsed file =>
      match read with
      | .succeeds => some (file.getD createdConfig)
      | .hidden => some createdConfig
      | .fails => none

def loadOrCreateConfigRemote (read : ReadOutcome) : Content -> FileConfig
  | .parsed file => if read = .succeeds then file.getD createdConfig else createdConfig
  | _ => createdConfig

/-- The file of the application, on a remote host or on this one. -/
def loadAppConfig (remote : Bool) (read : ReadOutcome) (content : Content) : Option FileConfig :=
  if remote then some (loadOrCreateConfigRemote read content) else loadOrCreateConfig read content

/-- `loadRemoteMiddlewares` and `loadMiddlewares`, which throw under the same conditions. -/
def loadMiddlewares (read : ReadOutcome) : Content -> Option MiddlewaresFile
  | .parsed file => if read = .succeeds then some file else none
  | _ => none

/-- `{ http: { middlewares: {} } }` -/
def noMiddlewares : MiddlewaresFile := some { http := some { middlewares := some [] } }

def loadOrEmptyMiddlewares (read : ReadOutcome) (content : Content) : MiddlewaresFile :=
  (loadMiddlewares read content).getD noMiddlewares

/-- A local write of the middlewares throws when it fails, a remote one is only logged. -/
def persistMiddlewares (remote : Bool) (outcome : WriteOutcome) (file : MiddlewaresFile) (files : Files) :
    Attempt Files where
  after := { files with shared := files.shared.write outcome file }
  goesOn := remote || outcome = .succeeds

/-- A write of the application's file is logged when it fails, here and on a remote host. -/
def writeTraefikConfig (outcome : WriteOutcome) (config : FileConfig) (files : Files) : Attempt Files where
  after := { files with app := files.app.write outcome (some config) }
  goesOn := true

def removeTraefikConfig (outcome : WriteOutcome) (files : Files) : Attempt Files where
  after := { files with app := files.app.remove outcome }
  goesOn := true

/-- How the accesses of a call end.  The query for the auth domain gives `none` when it fails. -/
structure Outcomes where
  app : Access
  path : Access
  forwardAuth : Access
  authGate : Option (Option AuthGate)
deriving DecidableEq

namespace Fallible

variable (toPunycode : String -> String) (remote : Bool)

def createPathMiddlewares (access : Access) (appName : String) (domain : Domain) (files : Files) : Attempt Files :=
  match Traefik.createPathMiddlewares (loadOrEmptyMiddlewares access.read files.shared) appName domain with
  | none => { after := files, goesOn := true }
  | some file => persistMiddlewares remote access.write file files

/-- The loaded file may be `null`, on which the function throws. -/
def createForwardAuthMiddleware (access : Access) (authGate : Option (Option AuthGate)) (appName : String)
    (domain : Domain) (files : Files) : Attempt Files :=
  if domain.forwardAuthEnabled then
    match authGate with
    | none => { after := files, goesOn := false }
    | some none => { after := files, goesOn := true }
    | some (some gate) =>
        match Traefik.createForwardAuthMiddleware (loadOrEmptyMiddlewares access.read files.shared) appName domain
            (some gate) with
        | none => { after := files, goesOn := false }
        | some file => persistMiddlewares remote access.write file files
  else { after := files, goesOn := true }

def removePathMiddlewares (access : Access) (appName : String) (key : Nat) (files : Files) : Attempt Files :=
  match loadMiddlewares access.read files.shared with
  | none => { after := files, goesOn := true }
  | some loaded =>
      match Traefik.removePathMiddlewares loaded appName key with
      | none => { after := files, goesOn := true }
      | some file => persistMiddlewares remote access.write file files

/-- Here too the function throws when the loaded file is `null`. -/
def removeForwardAuthMiddleware (access : Access) (appName : String) (key : Nat) (files : Files) : Attempt Files :=
  match loadMiddlewares access.read files.shared with
  | none => { after := files, goesOn := true }
  | some none => { after := files, goesOn := false }
  | some (some config) =>
      match Traefik.removeForwardAuthMiddleware (some config) appName key with
      | none => { after := files, goesOn := true }
      | some file => persistMiddlewares remote access.write file files

def writeOrRemove (outcome : WriteOutcome) (config : FileConfig) (files : Files) : Attempt Files :=
  if config.lastRouter then removeTraefikConfig outcome files else writeTraefikConfig outcome config files

def removeDomain (outcomes : Outcomes) (appName : String) (key : Nat) (files : Files) : Attempt Files :=
  match loadAppConfig remote outcomes.app.read files.app with
  | none => { after := files, goesOn := false }
  | some config =>
      ((removePathMiddlewares remote outcomes.path appName key files).next
        (removeForwardAuthMiddleware remote outcomes.forwardAuth appName key)).next
          (writeOrRemove outcomes.app.write (removedConfig appName key config))

def manageDomain (outcomes : Outcomes) (application : Application) (domain : Domain) (files : Files) :
    Attempt Files :=
  if domain.enabled then
    match loadAppConfig remote outcomes.app.read files.app with
    | none => { after := files, goesOn := false }
    | some config =>
        ((createPathMiddlewares remote outcomes.path application.appName domain files).next
          (createForwardAuthMiddleware remote outcomes.forwardAuth outcomes.authGate application.appName domain)).next
            (writeTraefikConfig outcomes.app.write (managedConfig toPunycode application domain config))
  else removeDomain remote outcomes application.appName domain.uniqueConfigKey files

end Fallible

end Traefik
end Dokploy
