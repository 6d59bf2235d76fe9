import Mathlib.Logic.Function.Basic
import Dokploy.ComposeImages.Services
import Dokploy.Foundation.Program

namespace Dokploy
namespace ComposeImages

open Foundation
open RegistryRetention (Text)

/-!
# The script that tags and pushes

After the build the script takes one local image after the other: it makes sure
that the image is still there, tags it with its two references and pushes both.
Other jobs may remove local images at any time.  What is proved of every run of
the script is what the registry holds under a reference when the script ends.
-/

/-- The registry that a name begins with, and the rest of the name. -/
def splitDomain (name : Text) : Text × Text :=
  let head := name.takeWhile (· != '/')
  let rest := name.dropWhile (· != '/')
  if rest = [] ∨ ('.' ∉ head ∧ ':' ∉ head ∧ head ≠ "localhost".toList ∧ head.map Char.toLower = head) then
    ("docker.io".toList, name)
  else if head = "index.docker.io".toList then ("docker.io".toList, rest.tail)
  else (head, rest.tail)

def withTag (name : Text) : Text :=
  if ':' ∈ name.rtakeWhile (· != '/') then name else name ++ ":latest".toList

/-- The full name: with its registry, the library of the first registry, and a tag. -/
def fullName (name : Text) : Text :=
  let parts := splitDomain name
  let path := if parts.1 = "docker.io".toList ∧ '/' ∉ parts.2 then "library/".toList ++ parts.2 else parts.2
  parts.1 ++ '/' :: withTag path

/-- An image, with the name under which it was built. -/
structure Image where
  builtAs : Text
  id : Nat
  deriving DecidableEq, Repr

/-- The images by their full names, on the build server and in the registry. -/
structure Docker where
  onServer : Text -> Option Image
  inRegistry : Text -> Option Image

inductive Op where
  | say (text : Text)
  | shell (command : Text)
  | sleep (seconds : Nat)
  | makeTemporary
  | inspect (name : Text)
  | build (service : Text)
  | tag (source target : Text)
  | push (ref : Text)
  | prune

/-- How a push ends; a transient failure is one that the output is worth another attempt for. -/
inductive PushAnswer where
  | pushed
  | failed (transient : Bool)
  deriving DecidableEq, Repr

def Op.Answer : Op -> Type
  | .say _ | .shell _ | .sleep _ | .prune => Unit
  | .makeTemporary | .inspect _ | .build _ | .tag _ _ => Bool
  | .push _ => PushAnswer

abbrev Script (Result : Type) : Type := Program Op Op.Answer Nat Result

def say (text : Text) : Script Unit := Program.perform (Op.say text)

def shell (command : Text) : Script Unit := Program.perform (Op.shell command)

def sleep (seconds : Nat) : Script Unit := Program.perform (Op.sleep seconds)

def makeTemporary : Script Bool := Program.perform Op.makeTemporary

def dockerInspect (name : Text) : Script Bool := Program.perform (Op.inspect name)

def composeBuild (service : Text) : Script Bool := Program.perform (Op.build service)

def dockerTag (source target : Text) : Script Bool := Program.perform (Op.tag source target)

def dockerPush (ref : Text) : Script PushAnswer := Program.perform (Op.push ref)

def dockerPrune : Script Unit := Program.perform Op.prune

def DOCKER_PUSH_RETRY_DELAYS_SECONDS : List Nat := [15, 45]

/-- `dokploy_push_retry docker push`, with the delays before the further attempts.  Without a place for
its output there is one attempt. -/
def pushRetry (ref : Text) : List Nat -> Script Bool
  | [] => do
      let _ <- makeTemporary
      let answer <- dockerPush ref
      pure (answer == .pushed)
  | delay :: later => do
      let made <- makeTemporary
      let answer <- dockerPush ref
      match answer with
      | .pushed => pure true
      | .failed transient =>
          if made && transient then do
            say "⚠️ Registry push failed with a transient error, retrying".toList
            sleep delay
            pushRetry ref later
          else pure false

/-- `command || { echo message; exit 1; }` -/
def orExit (message : Text) (succeeded : Bool) : Script Unit :=
  if succeeded then pure () else do
    say message
    .thrown 1

def missing (image : ComposePushedImage) : Text :=
  "❌ The build did not produce image ".toList ++ image.localImage ++ " for service ".toList ++ image.service

/-- The image is on the build server; with `rebuildService` it is built again if it is not. -/
def ensurePresent (rebuildService : Bool) (image : ComposePushedImage) : Script Unit := do
  let present <- dockerInspect image.localImage
  if present then pure ()
  else if rebuildService then do
    say ("⚠️ Image ".toList ++ image.localImage ++
      " is no longer on the build server (removed after the build); rebuilding service ".toList ++ image.service ++
      " from the layer cache".toList)
    shell "date -u +\"%Y-%m-%dT%H:%M:%SZ\"".toList
    let rebuilt <- composeBuild image.service
    orExit ("❌ Rebuilding service ".toList ++ image.service ++ " failed".toList) rebuilt
    let again <- dockerInspect image.localImage
    orExit (missing image) again
  else orExit (missing image) false

def tagAndPush (rebuildService : Bool) (image : ComposePushedImage) : Script Unit := do
  say ("📦 ".toList ++ image.service ++ ": ".toList ++ image.localImage ++ " -> ".toList ++ image.ref)
  ensurePresent rebuildService image
  let tagged <- dockerTag image.localImage image.ref
  orExit "❌ Error tagging image".toList tagged
  let taggedLatest <- dockerTag image.localImage image.latestRef
  orExit "❌ Error tagging image".toList taggedLatest
  let pushed <- pushRetry image.ref DOCKER_PUSH_RETRY_DELAYS_SECONDS
  orExit "❌ Error pushing image".toList pushed
  let pushedLatest <- pushRetry image.latestRef DOCKER_PUSH_RETRY_DELAYS_SECONDS
  orExit "❌ Error pushing image".toList pushedLatest
  say ("✅ ".toList ++ image.service ++ " pushed".toList)

def tagAndPushAll (rebuildService : Bool) : List ComposePushedImage -> Script Unit
  | [] => pure ()
  | image :: rest => do
      tagAndPush rebuildService image
      tagAndPushAll rebuildService rest

/-- What runs before anything is pushed, if anything does. -/
def beforeAll (beforePush : Option Text) : Script Unit :=
  match beforePush with
  | some command => shell command
  | none => pure ()

def getTagAndPushCommand (images : List ComposePushedImage) (registryLabel : Text) (rebuildService : Bool)
    (beforePush : Option Text) : Script Unit := do
  beforeAll beforePush
  say ("🔑 Logging in to registry ".toList ++ registryLabel)
  say "✅ Registry Login Success".toList
  tagAndPushAll rebuildService images
  dockerPrune

section Docker

variable (accepts : Text -> Prop) (built : List ComposeBuiltService)

/-- A build gives names to the images that it builds under them; one that succeeds has built its service. -/
structure Rebuilds (service : Text) (before : Docker) (answer : Bool) (after : Docker) : Prop where
  registry : after.inRegistry = before.inRegistry
  named : forall name, after.onServer name = before.onServer name ∨
    Exists fun image => after.onServer name = some image ∧ image.builtAs = name
  succeeded : answer = true -> forall service', service' ∈ built -> service'.service = service ->
    Exists fun image => after.onServer (fullName service'.localImage) = some image ∧
      image.builtAs = fullName service'.localImage

/-- Docker tags what it finds under a name, and it refuses names that are no references. -/
def Tags (source target : Text) (before : Docker) (answer : Bool) (after : Docker) : Prop :=
  match answer with
  | false => after = before
  | true => accepts source ∧ accepts target ∧ Exists fun image => before.onServer (fullName source) = some image ∧
      after = { before with onServer := Function.update before.onServer (fullName target) (some image) }

def Stored (ref : Text) (before after : Docker) : Prop :=
  Exists fun image => before.onServer (fullName ref) = some image ∧
    after = { before with inRegistry := Function.update before.inRegistry (fullName ref) (some image) }

/-- A push that failed may have come to its end in the registry. -/
def Pushes (ref : Text) (before : Docker) (answer : PushAnswer) (after : Docker) : Prop :=
  match answer with
  | .pushed => Stored ref before after
  | .failed _ => after = before ∨ Stored ref before after

def performs (before : Docker) : (op : Op) -> op.Answer -> Docker -> Prop
  | .inspect name, answer, after => after = before ∧ (answer = true -> before.onServer (fullName name) ≠ none)
  | .build service, answer, after => Rebuilds built service before answer after
  | .tag source target, answer, after => Tags accepts source target before answer after
  | .push ref, answer, after => Pushes ref before answer after
  | _, _, after => after = before

def Removes (before after : Docker) : Prop :=
  after.inRegistry = before.inRegistry ∧
    forall name, after.onServer name = before.onServer name ∨ after.onServer name = none

def world : World Docker Op Op.Answer where
  performs := performs accepts built
  others := Removes

end Docker

/-- Docker accepts the three names of an image. -/
def Accepted (accepts : Text -> Prop) (image : ComposePushedImage) : Prop :=
  accepts image.localImage ∧ accepts image.ref ∧ accepts image.latestRef

/-- What has the image's local name was built under it. -/
def BuiltOwn (docker : Docker) (image : ComposePushedImage) : Prop :=
  forall content, docker.onServer (fullName image.localImage) = some content ->
    content.builtAs = fullName image.localImage

/-- The registry has the image under its reference. -/
def Held (docker : Docker) (image : ComposePushedImage) : Prop :=
  Exists fun content => docker.inRegistry (fullName image.ref) = some content ∧
    content.builtAs = fullName image.localImage

def IsRefOf (image : ComposePushedImage) (name : Text) : Prop :=
  name = fullName image.ref ∨ name = fullName image.latestRef

/-- How far the script has come with an image: nothing yet, the first tag, both tags, the first push. -/
structure Stage (accepts : Text -> Prop) (start : Docker) (image : ComposePushedImage) (stage : Nat)
    (docker : Docker) : Prop where
  server : forall name content, docker.onServer name = some content ->
    start.onServer name = some content ∨ content.builtAs = name ∨
      (IsRefOf image name ∧ (BuiltOwn start image -> content.builtAs = fullName image.localImage))
  registry : forall name, ¬ IsRefOf image name -> docker.inRegistry name = start.inRegistry name
  ref : 1 ≤ stage -> accepts image.localImage ∧ accepts image.ref ∧ (BuiltOwn start image -> forall content,
    docker.onServer (fullName image.ref) = some content -> content.builtAs = fullName image.localImage)
  latest : 2 ≤ stage -> accepts image.latestRef ∧ (BuiltOwn start image -> forall content,
    docker.onServer (fullName image.latestRef) = some content -> content.builtAs = fullName image.localImage)
  held : 3 ≤ stage -> BuiltOwn start image -> Held docker image

section Stages

variable {accepts : Text -> Prop} {built : List ComposeBuiltService} {start before after docker : Docker}
  {image : ComposePushedImage} {stage : Nat}

theorem Stage.initial (start : Docker) (image : ComposePushedImage) : Stage accepts start image 0 start where
  server _ _ found := Or.inl found
  registry _ _ := rfl
  ref begun := absurd begun (by decide)
  latest begun := absurd begun (by decide)
  held begun := absurd begun (by decide)

theorem Stage.own (reached : Stage accepts start image stage docker) (own : BuiltOwn start image) :
    BuiltOwn docker image := by
  intro content found
  rcases reached.server _ _ found with old | asBuilt | ⟨_, tagged⟩
  · exact own content old
  · exact asBuilt
  · exact tagged own

theorem Stage.removes (reached : Stage accepts start image stage before) (removes : Removes before after) :
    Stage accepts start image stage after := by
  have still : forall name content, after.onServer name = some content -> before.onServer name = some content := by
    intro name content found
    rcases removes.2 name with same | removed
    · rw [← same]
      exact found
    · rw [removed] at found
      cases found
  refine ⟨fun name content found => reached.server name content (still _ _ found), ?_, fun begun => ?_,
    fun begun => ?_, fun begun own => ?_⟩
  · intro name other
    rw [removes.1]
    exact reached.registry name other
  · rcases reached.ref begun with ⟨source, target, tagged⟩
    exact ⟨source, target, fun own content found => tagged own content (still _ _ found)⟩
  · rcases reached.latest begun with ⟨target, tagged⟩
    exact ⟨target, fun own content found => tagged own content (still _ _ found)⟩
  · unfold Held
    rw [removes.1]
    exact reached.held begun own

theorem Stage.meanwhile (reached : Stage accepts start image stage before)
    (meanwhile : (world accepts built).Meanwhile before after) : Stage accepts start image stage after :=
  World.Meanwhile.keeps meanwhile reached fun _ _ holds removes => holds.removes removes

theorem Stage.rebuilds {service : Text} {answer : Bool} (reached : Stage accepts start image 0 before)
    (rebuilds : Rebuilds built service before answer after) : Stage accepts start image 0 after := by
  refine ⟨fun name content found => ?_, fun name other => ?_, fun begun => absurd begun (by decide),
    fun begun => absurd begun (by decide), fun begun => absurd begun (by decide)⟩
  · rcases rebuilds.named name with same | ⟨new, isNew, asBuilt⟩
    · exact reached.server name content (same ▸ found)
    · rw [isNew] at found
      cases found
      exact Or.inr (Or.inl asBuilt)
  · rw [rebuilds.registry]
    exact reached.registry name other

theorem Stage.server_update (reached : Stage accepts start image stage before) {target : Text} {content : Image}
    (found : before.onServer (fullName image.localImage) = some content) (isRef : IsRefOf image (fullName target)) :
    forall name other, Function.update before.onServer (fullName target) (some content) name = some other ->
      start.onServer name = some other ∨ other.builtAs = name ∨
        (IsRefOf image name ∧ (BuiltOwn start image -> other.builtAs = fullName image.localImage)) := by
  intro name other isOther
  by_cases here : name = fullName target
  · rw [here, Function.update_self] at isOther
    cases isOther
    exact Or.inr (Or.inr ⟨here ▸ isRef, fun own => reached.own own content found⟩)
  · rw [Function.update_of_ne here] at isOther
    exact reached.server name other isOther

theorem Stage.tagged_update (reached : Stage accepts start image stage before) {target name : Text} {content : Image}
    (found : before.onServer (fullName image.localImage) = some content)
    (tagged : name = fullName target ∨ (BuiltOwn start image -> forall other, before.onServer name = some other ->
      other.builtAs = fullName image.localImage)) :
    BuiltOwn start image -> forall other,
      Function.update before.onServer (fullName target) (some content) name = some other ->
        other.builtAs = fullName image.localImage := by
  intro own other isOther
  by_cases here : name = fullName target
  · rw [here, Function.update_self] at isOther
    cases isOther
    exact reached.own own content found
  · rw [Function.update_of_ne here] at isOther
    exact (tagged.resolve_left here) own other isOther

theorem Stage.tagsRef (reached : Stage accepts start image 0 before)
    (tags : Tags accepts image.localImage image.ref before true after) : Stage accepts start image 1 after := by
  rcases tags with ⟨source, target, content, found, rfl⟩
  exact ⟨reached.server_update found (Or.inl rfl), reached.registry,
    fun _ => ⟨source, target, reached.tagged_update found (Or.inl rfl)⟩, fun begun => absurd begun (by decide),
    fun begun => absurd begun (by decide)⟩

theorem Stage.tagsLatest (reached : Stage accepts start image 1 before)
    (tags : Tags accepts image.localImage image.latestRef before true after) : Stage accepts start image 2 after := by
  rcases tags with ⟨source, target, content, found, rfl⟩
  rcases reached.ref (by decide) with ⟨_, accepted, tagged⟩
  exact ⟨reached.server_update found (Or.inr rfl), reached.registry,
    fun _ => ⟨source, accepted, reached.tagged_update found (Or.inr tagged)⟩,
    fun _ => ⟨target, reached.tagged_update found (Or.inl rfl)⟩, fun begun => absurd begun (by decide)⟩

theorem Stage.stores (reached : Stage accepts start image 2 before) {ref : Text}
    (isRef : ref = image.ref ∨ ref = image.latestRef) (stored : Stored ref before after) :
    Stage accepts start image 2 after := by
  rcases stored with ⟨content, found, rfl⟩
  refine ⟨reached.server, fun name other => ?_, reached.ref, reached.latest, fun begun => absurd begun (by decide)⟩
  have elsewhere : name ≠ fullName ref := by
    intro here
    refine other ?_
    rcases isRef with first | second
    · exact Or.inl (first ▸ here)
    · exact Or.inr (second ▸ here)
  exact (Function.update_of_ne elsewhere _ _).trans (reached.registry name other)

theorem Stage.held_of_stored (reached : Stage accepts start image 2 before) (stored : Stored image.ref before after) :
    Stage accepts start image 3 after := by
  have kept := reached.stores (Or.inl rfl) stored
  rcases stored with ⟨content, found, rfl⟩
  refine ⟨kept.server, kept.registry, fun _ => kept.ref (by decide), fun _ => kept.latest (by decide), fun _ own => ?_⟩
  exact ⟨content, Function.update_self _ _ _, (reached.ref (by decide)).2.2 own content found⟩

theorem Stage.keeps_held (reached : Stage accepts start image 3 before) (stored : Stored image.latestRef before after) :
    Stage accepts start image 3 after := by
  have weaker : Stage accepts start image 2 before := ⟨reached.server, reached.registry,
    fun _ => reached.ref (by decide), fun _ => reached.latest (by decide), fun begun => absurd begun (by decide)⟩
  have kept := weaker.stores (Or.inr rfl) stored
  rcases stored with ⟨content, found, rfl⟩
  refine ⟨kept.server, kept.registry, fun _ => kept.ref (by decide), fun _ => kept.latest (by decide), fun _ own => ?_⟩
  rcases reached.held (by decide) own with ⟨first, isFirst, asBuilt⟩
  by_cases same : fullName image.ref = fullName image.latestRef
  · refine ⟨content, ?_, (reached.latest (by decide)).2 own content found⟩
    rw [same]
    exact Function.update_self _ _ _
  · exact ⟨first, (Function.update_of_ne same _ _).trans isFirst, asBuilt⟩

end Stages

section Runs

variable {accepts : Text -> Prop} {built : List ComposeBuiltService} {start docker : Docker}
  {image : ComposePushedImage} {stage : Nat} {past : List (Event Docker Op Op.Answer)}

/-- What a script makes sure of when it goes on, whatever its other outcomes are. -/
def Reaches (accepts : Text -> Prop) (built : List ComposeBuiltService) {Result : Type} (script : Script Result)
    (post : Result -> Docker -> Prop) (past : List (Event Docker Op Op.Answer)) (docker : Docker) : Prop :=
  (world accepts built).Ensures (fun _ _ => True) script
    (fun result _ last => forall value, result = .ok value -> post value last) past docker

theorem Reaches.pure {Result : Type} {value : Result} {post : Result -> Docker -> Prop} (holds : post value docker) :
    Reaches accepts built (pure value : Script Result) post past docker := by
  rintro other ⟨⟩
  exact holds

theorem Reaches.bind {First Second : Type} {script : Script First} {next : First -> Script Second}
    {between : First -> Docker -> Prop} {post : Second -> Docker -> Prop}
    (first : Reaches accepts built script between past docker)
    (second : forall value past docker, between value docker -> Reaches accepts built (next value) post past docker) :
    Reaches accepts built (script >>= next) post past docker := by
  refine World.Ensures.bind (World.Ensures.mono first ?_)
  intro result after last reached
  cases result with
  | ok value => exact second value after last (reached value rfl)
  | error code =>
      rintro value ⟨⟩

theorem Reaches.perform {op : Op} {post : op.Answer -> Docker -> Prop}
    (each : forall before, (world accepts built).Meanwhile docker before -> forall answer after,
      performs accepts built before op answer after -> post answer after) :
    Reaches accepts built (Program.perform op) post past docker := by
  refine World.Ensures.perform fun before meanwhile answer after performed => ⟨trivial, ?_⟩
  rintro value ⟨⟩
  exact each before meanwhile answer after performed

theorem Stage.idle (reached : Stage accepts start image stage docker) (op : Op)
    (idle : forall before answer after, performs accepts built before op answer after -> after = before) :
    Reaches accepts built (Program.perform op) (fun _ last => Stage accepts start image stage last) past docker :=
  Reaches.perform fun before meanwhile answer after performed =>
    idle before answer after performed ▸ reached.meanwhile meanwhile

theorem Stage.afterSay (reached : Stage accepts start image stage docker) (text : Text) :
    Reaches accepts built (say text) (fun _ last => Stage accepts start image stage last) past docker :=
  reached.idle (.say text) fun _ _ _ performed => performed

theorem Reaches.orExit {message : Text} {succeeded : Bool} {holds : Docker -> Prop}
    (reached : succeeded = true -> holds docker) :
    Reaches accepts built (orExit message succeeded) (fun _ last => holds last) past docker := by
  cases succeeded with
  | true => exact Reaches.pure (reached rfl)
  | false =>
      intro before meanwhile answer after performed
      refine ⟨trivial, ?_⟩
      rintro value ⟨⟩

theorem Stage.inspects (reached : Stage accepts start image stage docker) :
    Reaches accepts built (dockerInspect image.localImage) (fun _ last => Stage accepts start image stage last) past
      docker :=
  reached.idle (.inspect _) fun _ _ _ performed => performed.1

theorem Stage.ensuresPresent (reached : Stage accepts start image 0 docker) (rebuildService : Bool) :
    Reaches accepts built (ensurePresent rebuildService image) (fun _ last => Stage accepts start image 0 last) past
      docker := by
  refine reached.inspects.bind fun present past docker reached => ?_
  cases present with
  | true => exact Reaches.pure reached
  | false =>
      cases rebuildService with
      | false => exact Reaches.orExit fun succeeded => nomatch succeeded
      | true =>
          refine (reached.afterSay _).bind fun _ past docker reached => ?_
          refine (reached.idle (.shell _) fun _ _ _ performed => performed).bind fun _ past docker reached => ?_
          have builds : Reaches accepts built (composeBuild image.service)
              (fun _ last => Stage accepts start image 0 last) past docker :=
            Reaches.perform fun before meanwhile answer after rebuilds =>
              (reached.meanwhile meanwhile).rebuilds rebuilds
          refine builds.bind fun rebuilt past docker reached => ?_
          refine (Reaches.orExit fun _ => reached).bind fun _ past docker reached => ?_
          exact reached.inspects.bind fun again past docker reached => Reaches.orExit fun _ => reached

/-- The attempts to push a reference: what one push gives holds once an attempt has succeeded, and what
failed pushes keep holds otherwise. -/
theorem pushRetry_reaches {ref : Text} {holds stored : Docker -> Prop} (delays : List Nat)
    (others : forall before after, holds before -> Removes before after -> holds after)
    (kept : forall before after, holds before -> Stored ref before after -> holds after)
    (pushes : forall before after, holds before -> Stored ref before after -> stored after) (initially : holds docker) :
    Reaches accepts built (pushRetry ref delays) (fun pushed last => pushed = true -> stored last) past docker := by
  have idle (op : Op) {past : List (Event Docker Op Op.Answer)} {docker : Docker} (initially : holds docker)
      (idle : forall before answer after, performs accepts built before op answer after -> after = before) :
      Reaches accepts built (Program.perform op) (fun _ last => holds last) past docker :=
    Reaches.perform fun before meanwhile answer after performed =>
      idle before answer after performed ▸ World.Meanwhile.keeps meanwhile initially others
  have push {past : List (Event Docker Op Op.Answer)} {docker : Docker} (initially : holds docker) :
      Reaches accepts built (dockerPush ref)
        (fun answer last => match answer with | .pushed => stored last | .failed _ => holds last) past docker := by
    refine Reaches.perform fun before meanwhile answer after performed => ?_
    have reached := World.Meanwhile.keeps meanwhile initially others
    cases answer with
    | pushed => exact pushes before after reached performed
    | failed transient =>
        rcases performed with same | finished
        · exact same ▸ reached
        · exact kept before after reached finished
  induction delays generalizing past docker with
  | nil =>
      refine (idle .makeTemporary initially fun _ _ _ performed => performed).bind fun _ past docker reached => ?_
      refine (push reached).bind fun answer past docker reached => Reaches.pure fun pushed => ?_
      cases answer with
      | pushed => exact reached
      | failed transient => cases pushed
  | cons delay later ih =>
      refine (idle .makeTemporary initially fun _ _ _ performed => performed).bind fun made past docker reached => ?_
      refine (push reached).bind fun answer past docker reached => ?_
      cases answer with
      | pushed => exact Reaches.pure fun _ => reached
      | failed transient =>
          cases again : made && transient with
          | false =>
              simp only [again]
              exact Reaches.pure fun pushed => nomatch pushed
          | true =>
              simp only [again]
              refine (idle (.say _) reached fun _ _ _ performed => performed).bind fun _ past docker reached => ?_
              refine (idle (.sleep _) reached fun _ _ _ performed => performed).bind fun _ past docker reached => ?_
              exact ih reached

theorem Stage.tagsAndPushes (start : Docker) (rebuildService : Bool) (image : ComposePushedImage) :
    Reaches accepts built (tagAndPush rebuildService image) (fun _ last => Stage accepts start image 3 last) past
      start := by
  refine ((Stage.initial start image).afterSay _).bind fun _ past docker reached => ?_
  refine (reached.ensuresPresent rebuildService).bind fun _ past docker reached => ?_
  have tagsRef : Reaches accepts built (dockerTag image.localImage image.ref)
      (fun tagged last => tagged = true -> Stage accepts start image 1 last) past docker :=
    Reaches.perform fun before meanwhile answer after tags succeeded =>
      (reached.meanwhile meanwhile).tagsRef (succeeded ▸ tags)
  refine tagsRef.bind fun tagged past docker reached => ?_
  refine (Reaches.orExit reached).bind fun _ past docker reached => ?_
  have tagsLatest : Reaches accepts built (dockerTag image.localImage image.latestRef)
      (fun tagged last => tagged = true -> Stage accepts start image 2 last) past docker :=
    Reaches.perform fun before meanwhile answer after tags succeeded =>
      (reached.meanwhile meanwhile).tagsLatest (succeeded ▸ tags)
  refine tagsLatest.bind fun tagged past docker reached => ?_
  refine (Reaches.orExit reached).bind fun _ past docker reached => ?_
  have pushesRef : Reaches accepts built (pushRetry image.ref DOCKER_PUSH_RETRY_DELAYS_SECONDS)
      (fun pushed last => pushed = true -> Stage accepts start image 3 last) past docker :=
    pushRetry_reaches DOCKER_PUSH_RETRY_DELAYS_SECONDS
      (fun _ _ holds removes => Stage.removes holds removes) (fun _ _ holds => Stage.stores holds (Or.inl rfl))
      (fun _ _ holds => Stage.held_of_stored holds) reached
  refine pushesRef.bind fun pushed past docker reached => ?_
  refine (Reaches.orExit reached).bind fun _ past docker reached => ?_
  have pushesLatest : Reaches accepts built (pushRetry image.latestRef DOCKER_PUSH_RETRY_DELAYS_SECONDS)
      (fun pushed last => pushed = true -> Stage accepts start image 3 last) past docker :=
    pushRetry_reaches DOCKER_PUSH_RETRY_DELAYS_SECONDS
      (fun _ _ holds removes => Stage.removes holds removes) (fun _ _ holds => Stage.keeps_held holds)
      (fun _ _ holds => Stage.keeps_held holds) reached
  refine pushesLatest.bind fun pushed past docker reached => ?_
  refine (Reaches.orExit reached).bind fun _ past docker reached => ?_
  exact reached.afterSay _

end Runs

section All

variable {accepts : Text -> Prop} {built : List ComposeBuiltService} {docker : Docker}
  {past : List (Event Docker Op Op.Answer)} {apart : Prop} {passed rest : List ComposePushedImage}

def Foreign (first second : ComposePushedImage) : Prop := forall name, IsRefOf first name -> ¬ IsRefOf second name

/-- The local name of the second is no reference of the first, unless both are built under one name. -/
def Untouched (first second : ComposePushedImage) : Prop :=
  IsRefOf first (fullName second.localImage) -> fullName second.localImage = fullName first.localImage

/-- How far the script has come: where the images stay apart, the ones to come are as they were built,
and the others are in the registry. -/
structure Progress (accepts : Text -> Prop) (apart : Prop) (passed rest : List ComposePushedImage)
    (docker : Docker) : Prop where
  accepted : forall image, image ∈ passed -> Accepted accepts image
  own : apart -> forall image, image ∈ rest -> BuiltOwn docker image
  held : apart -> forall image, image ∈ passed -> Held docker image

theorem Progress.removes {before after : Docker} (progress : Progress accepts apart passed rest before)
    (removes : Removes before after) : Progress accepts apart passed rest after := by
  refine ⟨progress.accepted, fun isApart image member content found => ?_, fun isApart image member => ?_⟩
  · rcases removes.2 (fullName image.localImage) with same | removed
    · exact progress.own isApart image member content (same ▸ found)
    · rw [removed] at found
      cases found
  · unfold Held
    rw [removes.1]
    exact progress.held isApart image member

theorem Progress.meanwhile {before after : Docker} (progress : Progress accepts apart passed rest before)
    (meanwhile : (world accepts built).Meanwhile before after) : Progress accepts apart passed rest after :=
  World.Meanwhile.keeps meanwhile progress fun _ _ holds removes => holds.removes removes

theorem Progress.idle (progress : Progress accepts apart passed rest docker) (op : Op)
    (idle : forall before answer after, performs accepts built before op answer after -> after = before) :
    Reaches accepts built (Program.perform op) (fun _ last => Progress accepts apart passed rest last) past docker :=
  Reaches.perform fun before meanwhile answer after performed =>
    idle before answer after performed ▸ progress.meanwhile meanwhile

theorem Progress.next {image : ComposePushedImage} {last : Docker}
    (progress : Progress accepts apart passed (image :: rest) docker)
    (foreign : apart -> (passed ++ image :: rest).Pairwise Foreign)
    (untouched : apart -> (passed ++ image :: rest).Pairwise Untouched)
    (reached : Stage accepts docker image 3 last) : Progress accepts apart (passed ++ [image]) rest last := by
  have own (isApart : apart) := progress.own isApart image List.mem_cons_self
  refine ⟨fun other member => ?_, fun isApart other member content found => ?_, fun isApart other member => ?_⟩
  · rcases List.mem_append.mp member with before | here
    · exact progress.accepted other before
    · rw [List.mem_singleton.mp here]
      rcases reached.ref (by decide) with ⟨source, target, _⟩
      exact ⟨source, target, (reached.latest (by decide)).1⟩
  · rcases reached.server _ _ found with old | asBuilt | ⟨isRef, tagged⟩
    · exact progress.own isApart other (List.mem_cons_of_mem _ member) content old
    · exact asBuilt
    · have later := (List.pairwise_append.mp (untouched isApart)).2.1
      rw [tagged (own isApart), (List.pairwise_cons.mp later).1 other member isRef]
  · rcases List.mem_append.mp member with before | here
    · have between := (List.pairwise_append.mp (foreign isApart)).2.2 other before image List.mem_cons_self
      unfold Held
      rw [reached.registry _ (between _ (Or.inl rfl))]
      exact progress.held isApart other before
    · rw [List.mem_singleton.mp here]
      exact reached.held (by decide) (own isApart)

theorem Progress.all (rebuildService : Bool) (progress : Progress accepts apart passed rest docker)
    (foreign : apart -> (passed ++ rest).Pairwise Foreign)
    (untouched : apart -> (passed ++ rest).Pairwise Untouched) :
    Reaches accepts built (tagAndPushAll rebuildService rest)
      (fun _ last => Progress accepts apart (passed ++ rest) [] last) past docker := by
  induction rest generalizing passed docker past with
  | nil =>
      refine Reaches.pure ?_
      rw [List.append_nil]
      exact progress
  | cons image later ih =>
      refine (Stage.tagsAndPushes docker rebuildService image).bind fun _ past last reached => ?_
      have grouped : passed ++ image :: later = (passed ++ [image]) ++ later := by simp
      have goesOn := progress.next foreign untouched reached
      rw [grouped] at foreign untouched ⊢
      exact ih goesOn foreign untouched

theorem command_progress {images : List ComposePushedImage} {registryLabel : Text} {rebuildService : Bool}
    {beforePush : Option Text} {start final : Docker} {events : List (Event Docker Op Op.Answer)}
    (own : apart -> forall image, image ∈ images -> BuiltOwn start image)
    (foreign : apart -> images.Pairwise Foreign) (untouched : apart -> images.Pairwise Untouched)
    (runs : (world accepts built).Runs start
      (getTagAndPushCommand images registryLabel rebuildService beforePush) events final (.done ())) :
    Progress accepts apart images [] final := by
  have initially : Progress accepts apart [] images start :=
    ⟨fun _ none => absurd none List.not_mem_nil, own, fun _ _ none => absurd none List.not_mem_nil⟩
  have whole : Reaches accepts built (getTagAndPushCommand images registryLabel rebuildService beforePush)
      (fun _ last => Progress accepts apart images [] last) [] start := by
    have begins : Reaches accepts built (beforeAll beforePush)
        (fun _ last => Progress accepts apart [] images last) [] start := by
      cases beforePush with
      | none => exact Reaches.pure initially
      | some command => exact initially.idle (.shell command) fun _ _ _ performed => performed
    refine begins.bind fun _ past docker progress => ?_
    refine (progress.idle (.say _) fun _ _ _ performed => performed).bind fun _ past docker progress => ?_
    refine (progress.idle (.say _) fun _ _ _ performed => performed).bind fun _ past docker progress => ?_
    refine (progress.all rebuildService foreign untouched).bind fun _ past docker progress => ?_
    exact progress.idle .prune fun _ _ _ performed => performed
  rcases World.Ensures.of_done whole runs with ⟨reached, meanwhile, ended⟩
  exact (ended () rfl).meanwhile meanwhile

end All

end ComposeImages
end Dokploy
