import Dokploy.RegistryRetention.Plan
import Dokploy.Foundation.Program

namespace Dokploy
namespace RegistryRetention

open Foundation

/-!
# Planning a deletion job

A run lists the tags of each repository, resolves every tag that stays and then
the old ones a wave at a time, and queues the digests that nothing needs.  The
registry answers each batch of requests as it likes or not at all, the clock may
run out anywhere, and what earlier runs remember is shared with other runs, so all
of it is asked for.
-/

inductive Method where
  | GET
  | HEAD
  | DELETE
deriving DecidableEq, Repr

structure RegistryRequest where
  id : Int
  method : Method
  url : Text
  manifest : Bool
  includeHeaders : Bool
deriving DecidableEq, Repr

abbrev Responses := Int -> Option RegistryResponse

inductive Failure where
  | aborted (message : Text)
  | budgetSpent
deriving DecidableEq, Repr

/-- What earlier runs learned about the old tags of a repository. -/
structure RepoMemory where
  dangling : Text -> Option Int
  shared : Text -> Option Text

inductive RetentionOp where
  | runAll (requests : List RegistryRequest)
  | outOfTime
  | cancelled
  | now
  | recall (repo : Text)
  | memorize (repo : Text) (change : RepoMemory -> RepoMemory)
  | log (line : Text)

abbrev Answer : RetentionOp -> Type
  | .runAll _ => Except Failure Responses
  | .outOfTime => Bool
  | .cancelled => Bool
  | .now => Int
  | .recall _ => RepoMemory
  | .memorize _ _ => Unit
  | .log _ => Unit

abbrev Pruning (Result : Type) := Program RetentionOp Answer Failure Result

def ask (op : RetentionOp) : Pruning (Answer op) := Program.perform op

def runAll (requests : List RegistryRequest) : Pruning Responses :=
  Program.orThrow (ask (.runAll requests))

def log (line : Text) : Pruning Unit := ask (.log line)

def assertTime : Pruning Unit := do
  let spent <- ask .outOfTime
  if spent then .thrown .budgetSpent else pure ()

def LATEST_TAG : Text := "latest".toList

def MAX_TAG_PAGES : Nat := 10

def MAX_DELETIONS_PER_RUN : Nat := 50

def DELETE_JOB_TARGET_MS : Nat := 600000

def ESTIMATED_DELETE_BASE_MS : Nat := 1300

def ESTIMATED_DELETE_MS_PER_TAG : Nat := 80

def WAVE_SIZE : Nat := 60

def DANGLING_RECHECK_MS : Int := 21600000

def MAX_GUARD_TAGS : Nat := 8

def getTagsListUrl (base repo : Text) : Text := base ++ v2Path repo ++ "?n=1000".toList

def getManifestUrl (base repo reference : Text) : Text :=
  base ++ "/v2/".toList ++ repo ++ "/manifests/".toList ++ reference

def numeral (number : Nat) : Text := (toString number).toList

def cleanup : Text := "Build registry cleanup ".toList

def warning : Text := "Warning: ⚠️ Build registry cleanup skipped ".toList

/-- A status after which no further request can succeed. -/
def failIfSystemic (status : Nat) (action : Text) : Except Failure Unit :=
  if status = 0 then .error (.aborted "the registry could not be reached from the build server".toList)
  else if status = 401 ∨ status = 403 then
    .error (.aborted ("the registry refused the stored credentials (HTTP ".toList ++ numeral status ++ ") while ".toList ++
      action ++ "; token-authenticated registries are not supported".toList))
  else if status = 405 ∨ status = 501 then
    .error (.aborted ("the registry does not allow ".toList ++ action ++ " (HTTP ".toList ++ numeral status ++
      ("); the v2 delete API is disabled or unsupported (registry:2 needs " ++
        "REGISTRY_STORAGE_DELETE_ENABLED=true)").toList))
  else .ok ()

def orFail {Result : Type} : Except Failure Result -> Pruning Result
  | .ok result => .done result
  | .error failure => .thrown failure

section Listing

def listRequest (id : Nat) (url : Text) : RegistryRequest := ⟨id, .GET, url, false, true⟩

/-- Where a page of a listing leads: nowhere when its headers are repeated. -/
def nextPage (library : UrlLibrary) (base repo : Text) (response : RegistryResponse) : NextTagsPage :=
  if hasRepeatedHeader response [linkHeader] then .unusable "the response has more than one Link header".toList
  else if hasRepeatedHeader response RELIED_ON_HEADERS then
    .unusable "the response repeats its Content-Length or Content-Type header".toList
  else getNextTagsPageUrl library base repo (response.headers linkHeader)

def skipListing (repo reason : Text) : Pruning (Option (List Text)) := do
  log (warning ++ repo ++ reason)
  pure none

/-- The pages of a listing from one response on, with as many pages after it as are left. -/
def listPages (library : UrlLibrary) (base repo : Text) :
    Nat -> List Text -> List Text -> Option RegistryResponse -> Pruning (Option (List Text))
  | _, _, _, none => do
      assertTime
      log (cleanup ++ "left ".toList ++ repo ++
        " for the next deploy: its tag listing did not arrive in time.".toList)
      pure none
  | left, tags, seen, some response => do
      orFail (failIfSystemic response.status "listing tags".toList)
      if response.status = 404 then pure none
      else if response.status ≠ 200 then
        skipListing repo (": listing tags returned HTTP ".toList ++ numeral response.status ++ ".".toList)
      else
        match parseTagList response.body with
        | none => skipListing repo ": unreadable tag list.".toList
        | some pageTags =>
            match nextPage library base repo response with
            | .complete => pure (some (tags ++ pageTags))
            | .unusable reason =>
                skipListing repo (": the tag listing may be incomplete, ".toList ++ reason ++ ".".toList)
            | .next url =>
                if url ∈ seen then skipListing repo ": the tag listing is paged in a loop.".toList
                else
                  match left with
                  | 0 =>
                      skipListing repo (": its tag listing has more than ".toList ++ numeral MAX_TAG_PAGES ++
                        " pages (".toList ++ numeral (tags ++ pageTags).length ++
                        " tags so far); nothing is pruned from a partial listing.".toList)
                  | left + 1 => do
                      assertTime
                      let responses <- runAll [listRequest 0 url]
                      listPages library base repo left (tags ++ pageTags) (url :: seen) (responses 0)

/-- Every tag of a repository, none when the listing cannot be trusted whole. -/
def listTags (library : UrlLibrary) (base repo : Text) (first : Option RegistryResponse) :
    Pruning (Option (List Text)) :=
  match library.newURL (getTagsListUrl base repo) none with
  | none => .thrown (.aborted "Invalid URL".toList)
  | some url => listPages library base repo (MAX_TAG_PAGES - 1) [] [url.href] first

end Listing

section Queueing

structure DeleteEntry where
  repo : Text
  digest : Text
  tags : List Text
  guardTags : List Text
deriving DecidableEq, Repr

structure Job where
  queue : List DeleteEntry
  queuedKeys : List Text
  queuedMs : Nat
  full : Bool
deriving DecidableEq, Repr

def queueKey (repo digest : Text) : Text := repo ++ '@' :: digest

/-- Adds an entry unless the job has no room for it. -/
def tryQueue (job : Job) (entry : DeleteEntry) (listedTags : Nat) : Job × Bool :=
  let cost := ESTIMATED_DELETE_BASE_MS + ESTIMATED_DELETE_MS_PER_TAG * listedTags
  if MAX_DELETIONS_PER_RUN ≤ job.queue.length ∨ 0 < job.queue.length ∧ DELETE_JOB_TARGET_MS < job.queuedMs + cost then
    ({ job with full := true }, false)
  else
    let queue := job.queue ++ [entry]
    let queuedMs := job.queuedMs + cost
    ({ queue
       queuedKeys := job.queuedKeys ++ [queueKey entry.repo entry.digest]
       queuedMs
       full := job.full || decide (MAX_DELETIONS_PER_RUN ≤ queue.length ∨ DELETE_JOB_TARGET_MS ≤ queuedMs) }, true)

/-- Adds entries up to the first there is no room for, and counts those that were added. -/
def queueAll (listedTags : Nat) : Job -> List DeleteEntry -> Job × Nat
  | job, [] => (job, 0)
  | job, entry :: entries =>
      match tryQueue job entry listedTags with
      | (job, false) => (job, 0)
      | (job, true) => ((queueAll listedTags job entries).1, (queueAll listedTags job entries).2 + 1)

end Queueing

section Gathering

def keptRequest (base repo : Text) (kept : Text × Nat) : RegistryRequest :=
  ⟨kept.2, .GET, getManifestUrl base repo kept.1, true, true⟩

def headRequest (base repo : Text) (old : Text × Nat) : RegistryRequest :=
  ⟨old.2, .HEAD, getManifestUrl base repo old.1, true, false⟩

/-- What a tag that stays says about the digests that must stay. -/
inductive KeptTag where
  | unanswered
  | missing
  | protects (digest : Text) (children : List Text)
  | skips (reason : Text)

def unreadable (tag : Text) (status : Nat) : KeptTag :=
  .skips (": could not read the kept tag ".toList ++ tag ++ " (HTTP ".toList ++ numeral status ++ ").".toList)

def readKeptTag (required : List Text) (tag : Text) : Option RegistryResponse -> Except Failure KeptTag
  | none => .ok .unanswered
  | some response => do
      failIfSystemic response.status "reading manifests".toList
      if hasRepeatedHeader response RELIED_ON_HEADERS then .ok .unanswered
      else if response.status = 404 then
        if tag = LATEST_TAG ∧ tag ∉ required then .ok .missing else .ok (unreadable tag 404)
      else
        match response.headers contentDigest with
        | none => .ok (unreadable tag response.status)
        | some digest =>
            if response.status ≠ 200 ∨ isValidDigest digest = false then .ok (unreadable tag response.status)
            else if isBodyTruncated response then .ok .unanswered
            else
              match getNestedIndexReason response.body with
              | some nested =>
                  .ok (.skips (": the kept tag ".toList ++ tag ++
                    " is an index whose children may be indexes themselves (".toList ++ nested ++
                    "); nested indexes are not pruned.".toList))
              | none =>
                  match getManifestChildDigests response.body with
                  | none => .ok .unanswered
                  | some children => .ok (.protects digest children)

/-- The digests that stay and the number of tags without an answer; none when the repository is skipped. -/
def readKept (repo : Text) (required : List Text) (kept : Responses) :
    List (Text × Nat) -> List Text -> Nat -> Pruning (Option (List Text × Nat))
  | [], protectedDigests, unanswered => pure (some (protectedDigests, unanswered))
  | (tag, id) :: rest, protectedDigests, unanswered => do
      let read <- orFail (readKeptTag required tag (kept id))
      match read with
      | .unanswered => readKept repo required kept rest protectedDigests (unanswered + 1)
      | .missing => readKept repo required kept rest protectedDigests unanswered
      | .protects digest children =>
          readKept repo required kept rest (protectedDigests ++ digest :: children) unanswered
      | .skips reason => do
          log (warning ++ repo ++ reason)
          pure none

/-- Tags that are no longer listed are forgotten. -/
def forgetUnlisted (listed : List Text) (memory : RepoMemory) : RepoMemory where
  dangling := fun tag => if tag ∈ listed then memory.dangling tag else none
  shared := fun tag => if tag ∈ listed then memory.shared tag else none

def setDangling (tag : Text) (time : Int) (memory : RepoMemory) : RepoMemory where
  dangling := Function.update memory.dangling tag (some time)
  shared := Function.update memory.shared tag none

def setShared (tag : Text) (digest : Option Text) (memory : RepoMemory) : RepoMemory :=
  { memory with shared := Function.update memory.shared tag digest }

/-- Whether an old tag is worth asking for: not known to dangle, nor to share a digest that stays. -/
def isCandidate (memory : RepoMemory) (protectedDigests : List Text) (now : Int) (tag : Text) : Bool :=
  match memory.dangling tag with
  | some seen => if now - seen < DANGLING_RECHECK_MS then false else notShared
  | none => notShared
where
  notShared : Bool :=
    match memory.shared tag with
    | some sharedWith => !(!sharedWith.isEmpty && protectedDigests.contains sharedWith)
    | none => true

inductive OldTag where
  | left
  | dangles
  | shares (digest : Text)
  | doomed (digest : Text)

def readOldTag (protectedDigests : List Text) : Option RegistryResponse -> Except Failure OldTag
  | none => .ok .left
  | some response => do
      failIfSystemic response.status "reading manifests".toList
      if hasRepeatedHeader response RELIED_ON_HEADERS then .ok .left
      else if response.status = 404 then .ok .dangles
      else
        match response.headers contentDigest with
        | none => .ok .left
        | some digest =>
            if response.status ≠ 200 ∨ isValidDigest digest = false then .ok .left
            else if digest ∈ protectedDigests then .ok (.shares digest)
            else .ok (.doomed digest)

def readWave (repo : Text) (protectedDigests queuedKeys : List Text) (heads : Responses) :
    List (Text × Nat) -> List (Text × Text) -> Pruning (List (Text × Text))
  | [], doomedDigests => pure doomedDigests
  | (tag, id) :: rest, doomedDigests => do
      let read <- orFail (readOldTag protectedDigests (heads id))
      match read with
      | .left => readWave repo protectedDigests queuedKeys heads rest doomedDigests
      | .dangles => do
          let time <- ask .now
          let _ <- ask (.memorize repo (setDangling tag time))
          readWave repo protectedDigests queuedKeys heads rest doomedDigests
      | .shares digest => do
          let _ <- ask (.memorize repo (setShared tag (some digest)))
          readWave repo protectedDigests queuedKeys heads rest doomedDigests
      | .doomed digest => do
          let _ <- ask (.memorize repo (setShared tag none))
          readWave repo protectedDigests queuedKeys heads rest
            (if queueKey repo digest ∈ queuedKeys then doomedDigests else doomedDigests ++ [(tag, digest)])

def guardTagsOf (required : List Text) : List Text := (LATEST_TAG :: required).eraseDups.take MAX_GUARD_TAGS

/-- The entries of a wave, one for each digest. -/
def entriesOf (repo : Text) (required : List Text) (doomedDigests : List (Text × Text)) (protectedDigests : List Text) :
    List DeleteEntry :=
  (selectDigestsToDelete doomedDigests protectedDigests).deleteDigests.map fun digest =>
    { repo
      digest
      tags := (doomedDigests.filter fun doomed => doomed.2 = digest).map Prod.fst
      guardTags := guardTagsOf required }

def wavesOf : Nat -> List Text -> List (List Text)
  | 0, _ => []
  | _ + 1, [] => []
  | fuel + 1, tag :: tags => (tag :: tags).take WAVE_SIZE :: wavesOf fuel ((tag :: tags).drop WAVE_SIZE)

def gatherWaves (base repo : Text) (required protectedDigests : List Text) (listedTags : Nat) :
    List (List Text) -> Job -> Pruning Job
  | [], job => pure job
  | wave :: waves, job =>
      if job.full then pure job
      else do
        assertTime
        let heads <- runAll (wave.zipIdx.map (headRequest base repo))
        let doomedDigests <- readWave repo protectedDigests job.queuedKeys heads wave.zipIdx []
        let queued := queueAll listedTags job (entriesOf repo required doomedDigests protectedDigests)
        if 0 < queued.2 ∨ queued.1.full = true then pure queued.1
        else gatherWaves base repo required protectedDigests listedTags waves queued.1

def leftTags (count : Nat) : Text :=
  numeral count ++ (if count = 1 then " kept tag".toList else " kept tags".toList)

/-- Resolves the tags of one repository and queues what nothing needs. -/
def gatherRepo (base repo : Text) (listed doomed resolve required : List Text) (job : Job) : Pruning Job := do
  let kept <- runAll (resolve.zipIdx.map (keptRequest base repo))
  let read <- readKept repo required kept resolve.zipIdx [] 0
  match read with
  | none => pure job
  | some (protectedDigests, unanswered) =>
      if 0 < unanswered then do
        assertTime
        log (cleanup ++ "left ".toList ++ repo ++ " for the next deploy: ".toList ++ leftTags unanswered ++
          " did not resolve in time or came back cut off or ambiguous.".toList)
        pure job
      else do
        let memory <- ask (.recall repo)
        let _ <- ask (.memorize repo (forgetUnlisted listed))
        let now <- ask .now
        let candidates := doomed.filter (isCandidate (forgetUnlisted listed memory) protectedDigests now)
        gatherWaves base repo required protectedDigests listed.length (wavesOf candidates.length candidates) job

end Gathering

section Repositories

/-- What a run knows before it lists anything. -/
structure RunInput where
  library : UrlLibrary
  base : Text
  /-- The tags the release files name, by repository. -/
  protectedByRepo : List (Text × List Text)
  tagTimes : Text -> Option Int
  keep : Int
  /-- The repository the last run stopped at. -/
  resumeAt : Option Text

def RunInput.repos (input : RunInput) : List Text := input.protectedByRepo.map Prod.fst

/-- The tags the release files name in a repository. -/
def RunInput.required (input : RunInput) (repo : Text) : List Text :=
  match input.protectedByRepo.find? fun entry => entry.1 = repo with
  | some entry => entry.2
  | none => []

/-- The repositories in turn, from where the last run stopped. -/
def RunInput.ordered (input : RunInput) : List Text :=
  let first := match input.resumeAt with
    | some repo => if repo ∈ input.repos then input.repos.idxOf repo else 0
    | none => 0
  input.repos.drop first ++ input.repos.take first

/-- The part of a run that is about one repository. -/
def pruneRepo (input : RunInput) (firstPages : Responses) (repo : Text) (job : Job) : Pruning Job := do
  assertTime
  let tags <- listTags input.library input.base repo (firstPages (input.repos.idxOf repo))
  match tags with
  | none => pure job
  | some tags =>
      let required := input.required repo
      let plan := planRepoTags tags required input.tagTimes input.keep
      if plan.doomedTags.isEmpty then pure job
      else
        gatherRepo input.base repo tags plan.doomedTags
          (plan.keptTags ++ required ++ [LATEST_TAG]).eraseDups required job

/-- What the run has gathered, and where and why it ended. -/
structure Gathered where
  job : Job
  position : Nat
  interrupted : Bool
  starved : Bool
  reposInRun : List Text

/-- One repository after the other, until the job is full or the time is up. -/
def gatherRepos (input : RunInput) (firstPages : Responses) : List Text -> Gathered -> Pruning Gathered
  | [], gathered => pure gathered
  | repo :: repos, gathered =>
      if gathered.job.full then pure gathered
      else do
        let result <- (pruneRepo input firstPages repo gathered.job).attempt
        match result with
        | .ok job =>
            gatherRepos input firstPages repos
              { gathered with
                job
                position := gathered.position + 1
                reposInRun :=
                  if gathered.job.queue.length < job.queue.length then gathered.reposInRun ++ [repo]
                  else gathered.reposInRun
                starved := gathered.starved || (decide (job.queue.length ≤ gathered.job.queue.length) && job.full) }
        | .error .budgetSpent => do
            let cancelled <- ask .cancelled
            if cancelled then .thrown .budgetSpent else pure { gathered with interrupted := true }
        | .error failure => .thrown failure

def emptyJob : Job := ⟨[], [], 0, false⟩

/-- Steps 5 and 6 of a run: list, resolve and queue.  Nothing is deleted here. -/
def gatherAll (input : RunInput) : Pruning Gathered := do
  let firstPages <- runAll (input.repos.zipIdx.map fun repo => listRequest repo.2 (getTagsListUrl input.base repo.1))
  gatherRepos input firstPages input.ordered ⟨emptyJob, 0, false, false, []⟩

end Repositories

end RegistryRetention
end Dokploy
