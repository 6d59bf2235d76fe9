import Dokploy.GithubDeployments.PollCore

namespace Dokploy
namespace GithubDeployments

open Foundation

/-!
# The pass over the new deployments

A poll first deals with the deployment that is on its way, then lists the
deployments.  A watch without a cursor only remembers where the history ends.
Otherwise the new deployments are walked, the oldest first: each one is skipped,
answered, or started, and the cursor is moved to it; what cannot be settled yet
ends the pass before it.
-/

structure StatusText where
  accepted : String := "Dokploy accepted the deployment"
  done : String := "Deployed by Dokploy"
  failed : String := "Dokploy deployment failed; see the Dokploy dashboard"
  cancelled : String := "The Dokploy deployment was cancelled"
  timeout : String := "Dokploy did not finish this deployment in time"
  lost : String := "Dokploy has no record of this deployment"
  rejected : String := "Dokploy rejected this deployment; see the Dokploy dashboard"
  unreadable : String := "Dokploy could not read the payload of this deployment"
  notQueued : String := "Dokploy could not queue this deployment; see the Dokploy dashboard"
  superseded : String := "Superseded by a newer deployment; Dokploy deployed the newest only"

def STATUS_TEXT : StatusText := {}

def EndState.text : EndState -> String
  | .done _ => STATUS_TEXT.done
  | .error _ => STATUS_TEXT.failed
  | .cancelled _ => STATUS_TEXT.cancelled
  | .timeout => STATUS_TEXT.timeout
  | .lost => STATUS_TEXT.lost

def EndState.logUrl : EndState -> Option String
  | .done url | .error url | .cancelled url => url
  | .timeout | .lost => none

def EndState.isDone : EndState -> Bool
  | .done _ => true
  | _ => false

/-- The link GitHub shows for a deployment of a connection. -/
def environmentUrlOf (watch : WatchRow) (ended : EndState) : Task (Option String) :=
  if ended.isDone && watch.ghaConnectionId.isSome then call .environmentUrl else pure none

def reportEnd (watch : WatchRow) (inflight : Nat) (ended : EndState) : Task Settled := do
  let environmentUrl <- environmentUrlOf watch ended
  postStatus watch inflight (if ended.isDone then .success else .failure) ended.text ended.logUrl environmentUrl

/-- How the deployment on its way has ended, if it has. -/
def endOf (state : InflightState) (age : Int) : Option EndState :=
  match state with
  | .running => if INFLIGHT_TIMEOUT_MS < age then some .timeout else none
  | .missing => if INFLIGHT_ROW_GRACE_MS < age then some .lost else none
  | .done url => some (.done url)
  | .error url => some (.error url)
  | .cancelled url => some (.cancelled url)

/-- A connection is told before GitHub is. -/
def tellConnection (watch : WatchRow) (ended : EndState) : Task Unit :=
  if watch.ghaConnectionId.isSome then Program.orThrow (call (.onDeployEnded ended)) else pure ()

def handleInflight (watch : WatchRow) (now : Int) (inflight : Nat) : Task Unit := do
  let state : InflightState <- Program.orThrow (call .inspectInflight)
  match endOf state (now - watch.inflightStartedAt.getD now) with
  | none => pure ()
  | some ended => do
      tellConnection watch ended
      let reported <- reportEnd watch inflight ended
      match reported with
      | .notYet => pure ()
      | .settled problem => do
          let patch : WatchPatch :=
            { inflightDeploymentId := some none
              inflightStartedAt := some none
              lastError := some problem }
          let _ <- writeWatch patch none
          pure ()

structure TickInput where
  now : Int
  deployments : List GithubDeployment
  etag : Option String
  lastSeen : Nat
  notModified : Bool
  deriving DecidableEq, Repr

structure PrepareOptions where
  continueOnNotModified : Bool := false
  isNewOnBaseline : Option (GithubDeployment -> Bool) := none

def lowestDeploymentId (first : GithubDeployment) (others : List GithubDeployment) : Nat :=
  others.foldl (fun lowest deployment => min lowest deployment.id) first.id

/-- The first poll remembers where the history ends. -/
def baseline (options : PrepareOptions) (now : Int) (deployments : List GithubDeployment) (etag : Option String) :
    Task (Option TickInput) :=
  match (options.isNewOnBaseline.map deployments.filter).getD [] with
  | [] => do
      let patch : WatchPatch :=
        { lastSeenDeploymentId := some (maxDeploymentId deployments)
          etag := some etag
          lastCheckedAt := some now
          lastError := some none }
      let _ <- writeWatch patch (some none)
      pure none
  | first :: others => do
      -- The history ends just before the oldest deployment that must still run.
      let start := lowestDeploymentId first others - 1
      let patch : WatchPatch :=
        { lastSeenDeploymentId := some start
          lastCheckedAt := some now
          lastError := some none }
      let written <- writeWatch patch (some none)
      if written then pure (some ⟨now, deployments, etag, start, false⟩) else pure none

def secondsLeft (retryAt now : Int) : Int := -(-(retryAt - now) / 1000)

def prepareListed (watch : WatchRow) (options : PrepareOptions) (now : Int) (listed : ListResult) :
    Task (Option TickInput) :=
  match listed with
  | .notModified => do
      let _ <- writeWatch { lastCheckedAt := some now, lastError := some none } (some watch.lastSeenDeploymentId)
      match watch.lastSeenDeploymentId with
      | some lastSeen =>
          if options.continueOnNotModified then pure (some ⟨now, [], watch.etag, lastSeen, true⟩) else pure none
      | none => pure none
  | .rateLimited retryAt => do
      call (.block (.connection watch.connectionId) retryAt)
      call (.log s!"github deployments: rate limited, pausing connection {watch.connectionId} for {secondsLeft retryAt now}s")
      pure none
  | .unauthorized => do
      Program.orThrow (call (.markRevoked watch.connectionId))
      pure none
  | .notFound => do
      let message := s!"GitHub cannot find {watch.owner}/{watch.repo}, or the connected account cannot see it."
      let _ <- writeWatch { lastError := some (some message) } none
      call (.block (.watch watch.watchId) (now + WATCH_ERROR_BACKOFF_MS))
      pure none
  | .forbidden message => do
      let _ <- writeWatch { lastError := some (some message) } none
      call (.block (.watch watch.watchId) (now + WATCH_ERROR_BACKOFF_MS))
      pure none
  | .error status => do
      let shown := if status = 0 then "" else s!" (HTTP {status})"
      let _ <- writeWatch { lastError := some (some s!"GitHub answered with an error{shown}.") } none
      call (.block (.watch watch.watchId) (now + GITHUB_DEPLOYMENTS_POLL_INTERVAL_MS * 3))
      pure none
  | .ok deployments etag =>
      match watch.lastSeenDeploymentId with
      | none => baseline options now deployments etag
      | some lastSeen => pure (some ⟨now, deployments, etag, lastSeen, false⟩)

/-- Is the caller to wait before this time? -/
def blocked (time : Option Int) (now : Int) : Bool := time.any fun until_ => decide (now < until_)

/-- Everything up to the list and the first poll; none, when there is nothing
more to do. -/
def prepareTick (watch : WatchRow) (options : PrepareOptions) : Task (Option TickInput) :=
  if !watch.enabled then pure none
  else do
    let now : Int <- call .now
    let watchBlock : Option Int <- call (.blockedUntil (.watch watch.watchId))
    if blocked watchBlock now then pure none
    else do
      let connBlock : Option Int <- call (.blockedUntil (.connection watch.connectionId))
      if blocked connBlock now then pure none
      else do
        let token : Option String <- Program.orThrow (call (.loadToken watch.connectionId))
        if token = none then do
          let message := "The GitHub connection is missing or was revoked. Connect GitHub again."
          let _ <- writeWatch { lastError := some (some message) } none
          call (.block (.watch watch.watchId) (now + WATCH_ERROR_BACKOFF_MS))
          pure none
        else
          match watch.inflightDeploymentId with
          | some inflight => do
              handleInflight watch now inflight
              pure none
          | none => do
              let listed <- listDeployments watch.etag watch.lastSeenDeploymentId
              prepareListed watch options now listed

structure Pass where
  watch : WatchRow
  tick : TickInput
  /-- By the id of the deployment. -/
  classified : Nat -> Option Classified
  targetId : Option Nat

inductive PassStep where
  | stop
  | next (cursor : Option Nat) (problem : Option String)
  deriving DecidableEq, Repr

variable (texts : Texts) (pass : Pass)

/-- Move the cursor on; a watch that was reset ends the pass. -/
def advance (cursor : Option Nat) (deploymentId : Nat) (problem : Option String) : Task PassStep := do
  let written <- writeWatch { lastSeenDeploymentId := some deploymentId } (some cursor)
  if written then pure (.next (some (max (cursor.getD 0) deploymentId)) problem) else pure .stop

/-- Answer a deployment and move the cursor on, once the answer is settled. -/
def answer (cursor : Option Nat) (deploymentId : Nat) (state : DeploymentState) (text : String)
    (problem : Option String) : Task PassStep := do
  let answered <- postStatus pass.watch deploymentId state text none none
  match answered with
  | .notYet => pure .stop
  | .settled _ => advance cursor deploymentId problem

/-- Put back what the claim wrote; that this fails is only logged. -/
def undoStart (watch : WatchRow) (deployment : GithubDeployment) : Task Unit := do
  let undone : Except String Unit <- call (.undoStart watch deployment)
  match undone with
  | .error undoError =>
      let described := texts.describeError undoError 160
      call (.log s!"github deployments: could not undo watch {watch.watchId}: {described}")
  | .ok _ => pure ()

/-- The link to the deploy, for a watch that sends it. -/
def logUrlOf (watch : WatchRow) : Task (Option String) := if watch.postLogUrl then call .serviceLink else pure none

/-- Claim the deployment in the database, then enqueue it.  What was written is
put back when it cannot be enqueued. -/
def startDeploy (watch : WatchRow) (deployment : GithubDeployment) (payload : DeployPayload) : Task StartOutcome := do
  let decided : Prepared <- Program.orThrow (call (.prepareStart watch deployment payload))
  match decided with
  | .stale => pure .stale
  | .rejected reason => pure (.rejected reason)
  | .prepared => do
      let enqueued : Except String Unit <- call (.enqueue deployment payload)
      match enqueued with
      | .error error => do
          undoStart texts watch deployment
          .thrown error
      | .ok _ => do
          let logUrl <- logUrlOf watch
          pure (.started logUrl)

/-- The target could not be started: tried again a few times, then answered. -/
def startFailed (cursor : Option Nat) (deploymentId : Nat) (error : String) : Task PassStep := do
  let earlier : Nat <- call (.startAttempts deploymentId)
  call (.setStartAttempts deploymentId (earlier + 1))
  if earlier + 1 < MAX_START_ATTEMPTS then .thrown error
  else do
    call (.setStartAttempts deploymentId 0)
    let described := texts.describeError error 120
    answer pass cursor deploymentId .failure STATUS_TEXT.notQueued
      (some s!"Deployment #{deploymentId} could not be queued: {described}")

/-- The cursor and the deployment on its way were saved with the claim. -/
def accepted (deploymentId : Nat) (logUrl : Option String) : Task PassStep := do
  let _ <- postStatus pass.watch deploymentId .inProgress STATUS_TEXT.accepted logUrl none
  let _ <- writeWatch { lastCheckedAt := some pass.tick.now, lastError := some none } none
  pure .stop

def startTarget (cursor : Option Nat) (deployment : GithubDeployment) (payload : DeployPayload) : Task PassStep := do
  let outcome <- (startDeploy texts { pass.watch with lastSeenDeploymentId := cursor } deployment payload).attempt
  match outcome with
  | .error error => startFailed texts pass cursor deployment.id error
  | .ok outcome => do
      call (.setStartAttempts deployment.id 0)
      match outcome with
      | .stale => pure .stop
      | .rejected reason =>
          answer pass cursor deployment.id .failure STATUS_TEXT.rejected
            (some s!"Deployment #{deployment.id} was rejected: {short reason 200}")
      | .started logUrl => accepted pass deployment.id logUrl

def handleOne (cursor : Option Nat) (problem : Option String) (deployment : GithubDeployment) : Task PassStep :=
  match pass.classified deployment.id with
  | none | some (.ignore _) => advance cursor deployment.id problem
  | some (.hold reason) => do
      let _ <- writeWatch { lastCheckedAt := some pass.tick.now, lastError := some (some (short reason 200)) } none
      pure .stop
  | some (.invalid reason statusText) =>
      answer pass cursor deployment.id .failure (statusText.getD STATUS_TEXT.unreadable)
        (some s!"Deployment #{deployment.id}: {short reason 200}")
  | some .superseded => answer pass cursor deployment.id .inactive STATUS_TEXT.superseded problem
  | some (.deploy payload) =>
      if some deployment.id ≠ pass.targetId then
        answer pass cursor deployment.id .inactive STATUS_TEXT.superseded problem
      else startTarget texts pass cursor deployment payload

/-- Walk the new deployments.  When every one was answered or skipped, the list
is fully handled. -/
def handleFresh : List GithubDeployment -> Option Nat -> Option String -> Task Unit
  | [], cursor, problem => do
      let patch : WatchPatch :=
        { etag := some pass.tick.etag
          lastCheckedAt := some pass.tick.now
          lastError := some problem }
      let _ <- writeWatch patch (some cursor)
      pure ()
  | deployment :: rest, cursor, problem => do
      let step <- handleOne texts pass cursor problem deployment
      match step with
      | .stop => pure ()
      | .next cursor problem => handleFresh rest cursor problem

/-- The classification of a deployment, by its id. -/
def classification (classify : GithubDeployment -> Classified) (fresh : List GithubDeployment) (id : Nat) :
    Option Classified :=
  (fresh.reverse.find? fun deployment => deployment.id == id).map classify

def Classified.isDeploy : Classified -> Bool
  | .deploy _ => true
  | _ => false

/-- The newest deployment that can be deployed. -/
def newestDeploy (classified : Nat -> Option Classified) (fresh : List GithubDeployment) : Option Nat :=
  (fresh.reverse.find? fun deployment => (classified deployment.id).any Classified.isDeploy).map GithubDeployment.id

def passOf (classify : GithubDeployment -> Classified) (watch : WatchRow) (tick : TickInput) : Pass :=
  let fresh := selectNewDeployments tick.deployments tick.lastSeen
  ⟨watch, tick, classification classify fresh, newestDeploy (classification classify fresh) fresh⟩

def pollWatchInner (classify : WatchRow -> GithubDeployment -> Classified) (watch : WatchRow) : Task Unit := do
  let begun <- prepareTick watch {}
  match begun with
  | none => pure ()
  | some tick =>
      handleFresh texts (passOf (classify watch) watch tick) (selectNewDeployments tick.deployments tick.lastSeen)
        (some tick.lastSeen) none

/-- One poll of a watch.  An error is kept on the watch, and the watch waits. -/
def pollWatch (classify : WatchRow -> GithubDeployment -> Classified) (watch : WatchRow) : Task Unit := do
  let polled <- (pollWatchInner texts classify watch).attempt
  match polled with
  | .ok _ => pure ()
  | .error error => do
      let message := texts.describeError error 160
      call (.log s!"github deployments: watch {watch.watchId} failed: {message}")
      let _ <- (writeWatch { lastError := some (some message) } none).attempt
      let now : Int <- call .now
      call (.block (.watch watch.watchId) (now + WATCH_ERROR_BACKOFF_MS))

end GithubDeployments
end Dokploy
