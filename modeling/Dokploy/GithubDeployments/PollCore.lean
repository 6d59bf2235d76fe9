import Mathlib.Algebra.Group.Int.Defs
import Dokploy.Foundation.Program
import Dokploy.GithubDeployments.Watch

namespace Dokploy
namespace GithubDeployments

open Foundation

/-!
# One poll of a watch

A poll reads the deployments of the environment and answers every new one, the
oldest first.  It talks to GitHub, to the stored watch and to the queue, and all
of that is an operation here; what the poll itself remembers between two polls,
the number of attempts and the times before which nobody is called, is read and
written by operations as well.

Reading a pinned image, a link and an error text are parameters.
-/

structure DokployPayload where
  serviceId : Option String
  image : Option String
  runUrl : Option String
  deriving DecidableEq, Repr

structure GithubDeployment where
  id : Nat
  dokploy : Option DokployPayload
  deriving DecidableEq, Repr

/-- An answer of the API: `retryAt` is the time a rate limit names, `body` the
list it carries, without what is no deployment in it. -/
structure HttpResponse where
  status : Nat
  retryAt : Option Int
  body : Option (List (Option GithubDeployment))
  etag : Option String
  deriving DecidableEq, Repr

inductive ListResult where
  | notModified
  | ok (deployments : List GithubDeployment) (etag : Option String)
  | rateLimited (retryAt : Int)
  | unauthorized
  | forbidden (message : String)
  | notFound
  | error (status : Nat)
  deriving DecidableEq, Repr

inductive DeploymentState where
  | inProgress
  | success
  | failure
  | error
  | inactive
  | queued
  deriving DecidableEq, Repr

structure StatusPost where
  deploymentId : Nat
  state : DeploymentState
  description : String
  logUrl : Option String
  environmentUrl : Option String
  autoInactive : Bool
  deriving DecidableEq, Repr

inductive StatusResult where
  | ok
  | failed (status : Nat) (rateLimitedUntil : Option Int)
  deriving DecidableEq, Repr

structure PinnedImage where
  image : String
  repository : String
  digest : String
  deriving DecidableEq, Repr

structure DeployPayload where
  image : String
  repository : String
  digest : String
  buildRunUrl : Option String
  deriving DecidableEq, Repr

inductive Classified where
  | ignore (reason : String)
  | invalid (reason : String) (statusText : Option String)
  | deploy (payload : DeployPayload)
  | superseded
  | hold (reason : String)
  deriving DecidableEq, Repr

structure Texts where
  parsePinnedImage : String -> Option PinnedImage
  watchedRunUrl : Option String -> String -> String -> Option String
  describeError : String -> Nat -> String

/-- What a deployment is for the watch of a service. -/
def parseDeploymentPayload (texts : Texts) (watch : WatchRow) (deployment : GithubDeployment) : Classified :=
  match deployment.dokploy with
  | none => .ignore "no dokploy payload"
  | some dokploy =>
      if dokploy.serviceId ≠ some watch.serviceId then .ignore "payload names another service"
      else
        match dokploy.image.bind texts.parsePinnedImage with
        | none =>
            .invalid "dokploy.image must be <repository>@sha256:<64 hex>; an image that is not pinned by digest is never deployed"
              none
        | some pinned =>
            .deploy ⟨pinned.image, pinned.repository, pinned.digest,
              texts.watchedRunUrl dokploy.runUrl watch.owner watch.repo⟩

inductive InflightState where
  | running
  | done (logUrl : Option String)
  | error (logUrl : Option String)
  | cancelled (logUrl : Option String)
  | missing
  deriving DecidableEq, Repr

inductive EndState where
  | done (logUrl : Option String)
  | error (logUrl : Option String)
  | cancelled (logUrl : Option String)
  | timeout
  | lost
  deriving DecidableEq, Repr

/-- What the transaction of a start decided, before anything is enqueued. -/
inductive Prepared where
  | stale
  | rejected (reason : String)
  | prepared
  deriving DecidableEq, Repr

inductive StartOutcome where
  | started (logUrl : Option String)
  | stale
  | rejected (reason : String)
  deriving DecidableEq, Repr

inductive BlockKey where
  | connection (connectionId : String)
  | watch (watchId : String)
  deriving DecidableEq, Repr

inductive PollOp where
  | now
  | blockedUntil (key : BlockKey)
  | block (key : BlockKey) (time : Int)
  | loadToken (connectionId : String)
  | markRevoked (connectionId : String)
  | patchWatch (patch : WatchPatch) (ifCursor : Option (Option Nat))
  | fetchPage (page : Nat) (etag : Option String)
  | createStatus (post : StatusPost)
  | inspectInflight
  | onDeployEnded (ended : EndState)
  | environmentUrl
  | prepareStart (watch : WatchRow) (deployment : GithubDeployment) (payload : DeployPayload)
  | enqueue (deployment : GithubDeployment) (payload : DeployPayload)
  | undoStart (watch : WatchRow) (deployment : GithubDeployment)
  | serviceLink
  | statusAttempts (deploymentId : Nat) (state : DeploymentState)
  | setStatusAttempts (deploymentId : Nat) (state : DeploymentState) (attempts : Nat)
  | startAttempts (deploymentId : Nat)
  | setStartAttempts (deploymentId : Nat) (attempts : Nat)
  | log (message : String)
  deriving DecidableEq, Repr

/-- What an operation answers; one that can throw answers with the error. -/
@[reducible] def PollOp.Answer : PollOp -> Type
  | .now => Int
  | .blockedUntil _ => Option Int
  | .loadToken _ => Except String (Option String)
  | .markRevoked _ => Except String Unit
  | .patchWatch _ _ => Except String Bool
  | .fetchPage _ _ => Option HttpResponse
  | .createStatus _ => StatusResult
  | .inspectInflight => Except String InflightState
  | .onDeployEnded _ => Except String Unit
  | .environmentUrl => Option String
  | .prepareStart _ _ _ => Except String Prepared
  | .enqueue _ _ => Except String Unit
  | .undoStart _ _ => Except String Unit
  | .serviceLink => Option String
  | .statusAttempts _ _ => Nat
  | .startAttempts _ => Nat
  | .block _ _ | .setStatusAttempts _ _ _ | .setStartAttempts _ _ | .log _ => Unit

abbrev Task := Program PollOp PollOp.Answer String

def call (op : PollOp) : Task op.Answer := Program.perform op

def writeWatch (patch : WatchPatch) (ifCursor : Option (Option Nat)) : Task Bool :=
  Program.orThrow (call (.patchWatch patch ifCursor))

def DEPLOYMENTS_PER_PAGE : Nat := 30

def MAX_DEPLOYMENT_PAGES : Nat := 5

/-- What an answer to the listing of a page says; no answer is an error. -/
def pageResult : Option HttpResponse -> ListResult
  | none => .error 0
  | some response =>
      if response.status = 304 then .notModified
      else if response.status = 401 then .unauthorized
      else if response.status = 404 then .notFound
      else if response.status = 403 ∨ response.status = 429 then
        match response.retryAt with
        | some time => .rateLimited time
        | none => .forbidden "GitHub refused access to this repository"
      else if response.status < 200 ∨ 299 < response.status then .error response.status
      else
        match response.body with
        | none => .error response.status
        | some items => .ok (items.filterMap id) response.etag

def fetchDeploymentsPage (page : Nat) (etag : Option String) : Task ListResult := do
  let response : Option HttpResponse <- call (.fetchPage page etag)
  pure (pageResult response)

/-- Is there nothing to find on an older page? -/
def lastPage (lastSeen : Option Nat) (deployments : List GithubDeployment) : Bool :=
  (match lastSeen with
    | none => true
    | some handled => deployments.any fun deployment => decide (deployment.id ≤ handled)) ||
    decide (deployments.length < DEPLOYMENTS_PER_PAGE)

/-- The pages after the ones that were read, at most `left` of them. -/
def listOlderPages (lastSeen : Option Nat) : Nat -> Nat -> List GithubDeployment -> Option String -> Task ListResult
  | 0, _, all, etag => pure (.ok all etag)
  | left + 1, page, all, etag => do
      let result <- fetchDeploymentsPage page none
      match result with
      | .ok deployments _ =>
          if lastPage lastSeen deployments then pure (.ok (all ++ deployments) etag)
          else listOlderPages lastSeen left (page + 1) (all ++ deployments) etag
      | failure => pure failure

/-- The deployments, newest first, until one that was handled, a page that is
not full, or the last page that is read. -/
def listDeployments (etag : Option String) (lastSeen : Option Nat) : Task ListResult := do
  let result <- fetchDeploymentsPage 1 etag
  match result with
  | .ok deployments firstEtag =>
      if lastPage lastSeen deployments then pure (.ok deployments firstEtag)
      else listOlderPages lastSeen (MAX_DEPLOYMENT_PAGES - 1) 2 deployments firstEtag
  | failure => pure failure

def selectNewDeployments (deployments : List GithubDeployment) (lastSeen : Nat) : List GithubDeployment :=
  (deployments.filter fun deployment => decide (lastSeen < deployment.id)).mergeSort fun first second =>
    decide (first.id ≤ second.id)

def maxDeploymentId (deployments : List GithubDeployment) : Nat :=
  deployments.foldl (fun highest deployment => if highest < deployment.id then deployment.id else highest) 0

def GITHUB_DEPLOYMENTS_POLL_INTERVAL_MS : Int := 20000

def INFLIGHT_TIMEOUT_MS : Int := 90 * 60 * 1000

def INFLIGHT_ROW_GRACE_MS : Int := 10 * 60 * 1000

def WATCH_ERROR_BACKOFF_MS : Int := 5 * 60 * 1000

def MAX_START_ATTEMPTS : Nat := 3

def MAX_STATUS_ATTEMPTS : Nat := 5

def STATUS_RETRY_BASE_MS : Int := 30000

def STATUS_RETRY_MAX_MS : Int := 5 * 60 * 1000

def short (text : String) (limit : Nat) : String :=
  if text.length ≤ limit then text else String.ofList (text.toList.take (limit - 3)) ++ "..."

def statusRetryDelay (attempts : Nat) : Int :=
  min STATUS_RETRY_MAX_MS (STATUS_RETRY_BASE_MS * 2 ^ (attempts - 1))

def statusProblem (status : Nat) : String :=
  if 0 < status then s!"GitHub did not accept the deployment status (HTTP {status})."
  else "GitHub could not be reached to report the deployment status."

inductive Settled where
  | settled (problem : Option String)
  | notYet
  deriving DecidableEq, Repr

/-- Nobody can use a status of this deployment. -/
def gone (status : Nat) : Bool := status == 404 || status == 410 || status == 422

def postStatus (watch : WatchRow) (deploymentId : Nat) (state : DeploymentState) (description : String)
    (logUrl environmentUrl : Option String) : Task Settled := do
  let result : StatusResult <- call (.createStatus ⟨deploymentId, state, description,
    if watch.postLogUrl then logUrl else none, environmentUrl, watch.ghaConnectionId.isNone⟩)
  match result with
  | .ok => do
      call (.setStatusAttempts deploymentId state 0)
      pure (.settled none)
  | .failed _ (some time) => do
      call (.block (.connection watch.connectionId) time)
      pure .notYet
  | .failed status none =>
      if status = 401 then do
        Program.orThrow (call (.markRevoked watch.connectionId))
        pure .notYet
      else if gone status then do
        call (.setStatusAttempts deploymentId state 0)
        pure (.settled none)
      else do
        let earlier : Nat <- call (.statusAttempts deploymentId state)
        if MAX_STATUS_ATTEMPTS ≤ earlier + 1 then do
          call (.setStatusAttempts deploymentId state 0)
          pure (.settled (some (statusProblem status)))
        else do
          call (.setStatusAttempts deploymentId state (earlier + 1))
          let now : Int <- call .now
          call (.block (.watch watch.watchId) (now + statusRetryDelay (earlier + 1)))
          pure .notYet

end GithubDeployments
end Dokploy
