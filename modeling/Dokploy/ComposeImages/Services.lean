import Mathlib.Data.List.Pairwise
import Mathlib.Data.List.Sort
import Dokploy.ComposeImages.Names
import Dokploy.Foundation.Objects
import Dokploy.Foundation.Splits

namespace Dokploy
namespace ComposeImages

open Foundation
open RegistryRetention (Text isWhitespace decimalValue)

/-!
# Built services and the references they are pushed as

The services with a build section are read from the configuration that the build
server prints.  Those that share a local image are one push, named after the
first of them; the override pins every built service to its reference.
-/

structure ComposeBuiltService where
  service : Text
  localImage : Text
  deriving DecidableEq, Repr

structure ComposePushedImage extends ComposeBuiltService where
  ref : Text
  latestRef : Text
  deriving DecidableEq, Repr

/-- An integer that the language puts in front of an object's other keys. -/
def isIndexKey (key : Text) : Bool :=
  key == ['0'] || (!key.isEmpty && key.head? != some '0' && key.all Json.isDigit && decimalValue key < 4294967295)

/-- Object.entries of a parsed object: the last value of a key, where the key was first seen. -/
def ownEntries (entries : List (Text × Json)) : List (Text × Json) :=
  let assigned := rebuild id id entries
  (assigned.filter (isIndexKey ·.1)).insertionSort (fun first second => decimalValue first.1 ≤ decimalValue second.1) ++
    assigned.filter (!isIndexKey ·.1)

/-- A number is zero when no digit before its exponent is another one. -/
def isTruthy : Json -> Bool
  | .null => false
  | .bool value => value
  | .number literal =>
      (literal.takeWhile fun char => char != 'e' && char != 'E').any fun char => '1' ≤ char && char ≤ '9'
  | .string text => !text.isEmpty
  | .array _ | .object _ => true

def trim (text : Text) : Text := (text.dropWhile isWhitespace).rdropWhile isWhitespace

def imageOf (project service : Text) (definition : Json) : Text :=
  match definition.field "image".toList with
  | some (.string image) => if (trim image).isEmpty then project ++ '-' :: service else trim image
  | _ => project ++ '-' :: service

def builtService (project : Text) (entry : Text × Json) : Option ComposeBuiltService :=
  match entry.2.field "build".toList with
  | some build => if isTruthy build then some ⟨entry.1, imageOf project entry.1 entry.2⟩ else none
  | none => none

def noOutput : Text :=
  "Could not read the compose configuration on the build server (no JSON output).".toList

def notParsed : Text :=
  "Could not parse the compose configuration printed by the build server.".toList

/-- Compose prints a name that is a text and services that are an object, if it prints them. -/
def parseBuiltServices (configJson projectName : Text) : Except Text (List ComposeBuiltService) :=
  match configJson.dropWhile (· != '\x7b') with
  | [] => .error noOutput
  | start =>
      match Json.parse start with
      | none => .error notParsed
      | some parsed =>
          let project := match parsed.field "name".toList with
            | some (.string name) => if name.isEmpty then projectName else name
            | _ => projectName
          match parsed.field "services".toList with
          | some (.object entries) => .ok ((ownEntries entries).filterMap (builtService project))
          | _ => .ok []

inductive RegistryType where
  | selfHosted
  | cloud
  | awsEcr
  deriving DecidableEq, Repr

structure Registry where
  registryUrl : Text
  imagePrefix : Option Text
  username : Text
  registryType : RegistryType

def extractRepositoryName (imageName : Text) : Text := imageName.rtakeWhile (· != '/')

def Registry.targetPrefix (registry : Registry) : Text :=
  toLowerCase (match registry.imagePrefix with
    | some imagePrefix => if imagePrefix.isEmpty then registry.username else imagePrefix
    | none => registry.username)

def getRegistryTag (registry : Registry) (imageName : Text) : Text :=
  let finalRegistry := registry.registryUrl
  if registry.registryType = .awsEcr ∧ finalRegistry ≠ [] then
    let withoutHost :=
      if (finalRegistry ++ ['/']).isPrefixOf imageName then imageName.drop (finalRegistry.length + 1) else imageName
    finalRegistry ++ '/' :: withoutHost
  else
    let repositoryName := extractRepositoryName imageName
    if finalRegistry ≠ [] then finalRegistry ++ '/' :: (registry.targetPrefix ++ '/' :: repositoryName)
    else registry.targetPrefix ++ '/' :: repositoryName

/-- [A-Za-z0-9_.-] -/
def isTagChar (char : Char) : Bool :=
  ('A' ≤ char && char ≤ 'Z') || ('a' ≤ char && char ≤ 'z') || ('0' ≤ char && char ≤ '9') || isSeparator char

/-- Every code unit that is not allowed becomes a dash. -/
def tagChar (char : Char) : Text :=
  if isTagChar char then [char] else if char.toNat < 0x10000 then ['-'] else ['-', '-']

def getBuiltImageTag (deploymentId : Text) : Text := (("dpl-".toList ++ deploymentId).flatMap tagChar).take 128

inductive ComposeType where
  | dockerCompose
  | stack
  deriving DecidableEq, Repr

/-- What the references are made from; `now` is the clock in base 36. -/
structure BuildInput where
  appName : Text
  registry : Registry
  deploymentId : Option Text
  now : Text
  configJson : Text
  composeType : ComposeType

namespace BuildInput

variable (input : BuildInput)

/-- Nothing is built when the configuration cannot be read. -/
def builtServices : List ComposeBuiltService :=
  match parseBuiltServices input.configJson input.appName with
  | .ok built => built
  | .error _ => []

def tag : Text := getBuiltImageTag (input.deploymentId.getD input.now)

def pushed (built : ComposeBuiltService) : ComposePushedImage :=
  let repo := getBuiltImageRepoName input.appName built.service
  { built with
    ref := getRegistryTag input.registry (repo ++ ':' :: input.tag)
    latestRef := getRegistryTag input.registry (repo ++ ':' :: "latest".toList) }

/-- The images of the services, and the map from local images to what is pushed for them. -/
def references (byLocalImage : List (Text × ComposePushedImage)) :
    List ComposeBuiltService -> List ComposePushedImage × List (Text × ComposePushedImage)
  | [] => ([], byLocalImage)
  | built :: rest =>
      match getEntry byLocalImage built.localImage with
      | some shared =>
          let later := references byLocalImage rest
          ({ built with ref := shared.ref, latestRef := shared.latestRef } :: later.1, later.2)
      | none =>
          let pushed := input.pushed built
          let later := references (setEntry byLocalImage built.localImage pushed) rest
          (pushed :: later.1, later.2)

def images : List ComposePushedImage := (references input [] input.builtServices).1

def pushes : List ComposePushedImage := (references input [] input.builtServices).2.map Prod.snd

end BuildInput

structure OverrideService where
  image : Text
  pullPolicy : Option Text
  deriving DecidableEq, Repr

def prototypeKey : Text := "__proto__".toList

def overrideOf (composeType : ComposeType) (image : ComposePushedImage) : OverrideService :=
  match composeType with
  | .stack => ⟨image.ref, none⟩
  | .dockerCompose => ⟨image.ref, some "missing".toList⟩

/-- An assignment to the key of the prototype makes no entry. -/
def addOverride (composeType : ComposeType) (services : List (Text × OverrideService)) (image : ComposePushedImage) :
    List (Text × OverrideService) :=
  if image.service = prototypeKey then services else setEntry services image.service (overrideOf composeType image)

def buildComposeOverride (composeType : ComposeType) (images : List ComposePushedImage) : List (Text × OverrideService) :=
  images.foldl (addOverride composeType) []

theorem nodup_ownEntries (entries : List (Text × Json)) : ((ownEntries entries).map Prod.fst).Nodup := by
  have assigned := nodup_rebuild (id : Text -> Text) (id : Json -> Json) entries
  refine (List.Perm.nodup_iff (List.Perm.map Prod.fst ?_)).mpr assigned
  exact ((List.perm_insertionSort _ _).append_right _).trans (List.filter_append_perm _ _)

theorem services_sublist (project : Text) (entries : List (Text × Json)) :
    ((entries.filterMap (builtService project)).map (·.service)).Sublist (entries.map Prod.fst) := by
  induction entries with
  | nil => exact List.Sublist.slnil
  | cons entry rest ih =>
      cases isBuilt : builtService project entry with
      | none =>
          rw [List.filterMap_cons_none isBuilt, List.map_cons]
          exact ih.cons _
      | some built =>
          have named : built.service = entry.1 := by
            unfold builtService at isBuilt
            split at isBuilt
            · split at isBuilt
              · cases isBuilt
                rfl
              · cases isBuilt
            · cases isBuilt
          rw [List.filterMap_cons_some isBuilt, List.map_cons, List.map_cons, named]
          exact ih.cons_cons _

theorem nodup_parseBuiltServices {configJson projectName : Text} {built : List ComposeBuiltService}
    (parsed : parseBuiltServices configJson projectName = .ok built) : (built.map (·.service)).Nodup := by
  unfold parseBuiltServices at parsed
  split at parsed
  · cases parsed
  · split at parsed
    · cases parsed
    · dsimp only at parsed
      split at parsed
      · cases parsed
        exact (nodup_ownEntries _).sublist (services_sublist _ _)
      · cases parsed
        exact List.nodup_nil

theorem nodup_builtServices (input : BuildInput) : (input.builtServices.map (·.service)).Nodup := by
  unfold BuildInput.builtServices
  split
  · rename_i parsed
    exact nodup_parseBuiltServices parsed
  · exact List.nodup_nil

theorem override_outside (composeType : ComposeType) (images : List ComposePushedImage) {service : Text}
    (outside : forall image, image ∈ images -> image.service ≠ service ∨ image.service = prototypeKey)
    (services : List (Text × OverrideService)) :
    getEntry (images.foldl (addOverride composeType) services) service = getEntry services service := by
  induction images generalizing services with
  | nil => rfl
  | cons image rest ih =>
      rw [List.foldl_cons, ih fun other member => outside other (List.mem_cons_of_mem _ member), addOverride]
      split
      · rfl
      · rename_i plain
        have other := (outside image List.mem_cons_self).resolve_right plain
        exact getEntry_setEntry_other _ _ other.symm

theorem override_of_image (composeType : ComposeType) {images : List ComposePushedImage}
    (nodup : (images.map (·.service)).Nodup) {image : ComposePushedImage} (member : image ∈ images)
    (plain : image.service ≠ prototypeKey) :
    getEntry (buildComposeOverride composeType images) image.service = some (overrideOf composeType image) := by
  rcases List.append_of_mem member with ⟨before, after, rfl⟩
  rw [List.map_append, List.map_cons] at nodup
  have unique := (List.nodup_cons.mp (List.nodup_append.mp nodup).2.1).1
  have later : forall other, other ∈ after -> other.service ≠ image.service ∨ other.service = prototypeKey :=
    fun other among => Or.inl fun same => unique (List.mem_map.mpr ⟨other, among, same⟩)
  rw [buildComposeOverride, List.foldl_append, List.foldl_cons, override_outside composeType after later, addOverride,
    if_neg plain, getEntry_setEntry_self]

theorem override_of_prototype (composeType : ComposeType) (images : List ComposePushedImage) :
    getEntry (buildComposeOverride composeType images) prototypeKey = none :=
  override_outside composeType images (fun _ _ => Classical.or_iff_not_imp_left.mpr fun same => not_not.mp same) []

/-- The services whose local image is not among those, and that no earlier one shares. -/
def firstsAfter (seen : List Text) : List ComposeBuiltService -> List ComposeBuiltService
  | [] => []
  | built :: rest =>
      if built.localImage ∈ seen then firstsAfter seen rest
      else built :: firstsAfter (seen ++ [built.localImage]) rest

/-- Of the services that share a local image the first one. -/
def firsts (built : List ComposeBuiltService) : List ComposeBuiltService := firstsAfter [] built

theorem mem_of_mem_firstsAfter {built : List ComposeBuiltService} {seen : List Text} {first : ComposeBuiltService}
    (member : first ∈ firstsAfter seen built) : first ∈ built ∧ first.localImage ∉ seen := by
  induction built generalizing seen with
  | nil => cases member
  | cons head rest ih =>
      rw [firstsAfter] at member
      split at member
      · rcases ih member with ⟨later, fresh⟩
        exact ⟨List.mem_cons_of_mem _ later, fresh⟩
      · rename_i unseen
        rcases List.mem_cons.mp member with here | member
        · rw [here]
          exact ⟨List.mem_cons_self, unseen⟩
        · rcases ih member with ⟨later, fresh⟩
          exact ⟨List.mem_cons_of_mem _ later, fun old => fresh (List.mem_append_left _ old)⟩

theorem firstsAfter_nodup (built : List ComposeBuiltService) (seen : List Text) :
    ((firstsAfter seen built).map (·.localImage)).Nodup := by
  induction built generalizing seen with
  | nil => exact List.nodup_nil
  | cons head rest ih =>
      rw [firstsAfter]
      split
      · exact ih seen
      · refine List.nodup_cons.mpr ⟨fun again => ?_, ih _⟩
        rcases List.mem_map.mp again with ⟨other, member, same⟩
        have fresh := (mem_of_mem_firstsAfter member).2
        exact fresh (List.mem_append_right _ (List.mem_singleton.mpr same))

/-- The map after these services were the first ones: every entry is the push of a service with that local image. -/
def pushedOf (input : BuildInput) (known : List ComposeBuiltService) : List (Text × ComposePushedImage) :=
  known.map fun built => (built.localImage, input.pushed built)

theorem getEntry_pushedOf (input : BuildInput) (known : List ComposeBuiltService) (name : Text) :
    getEntry (pushedOf input known) name = (known.find? fun built => built.localImage = name).map input.pushed := by
  induction known with
  | nil => rfl
  | cons built rest ih =>
      have split : pushedOf input (built :: rest) = (built.localImage, input.pushed built) :: pushedOf input rest := rfl
      rw [split, getEntry_cons, ih, List.find?_cons]
      by_cases same : built.localImage = name
      · simp [same]
      · simp [same]

/-- The pass over the services: the map grows by the first service of each new local image, and every
image is the push of a service with its local image. -/
theorem references_spec (input : BuildInput) (built known : List ComposeBuiltService) :
    (input.references (pushedOf input known) built).2 =
        pushedOf input (known ++ firstsAfter (known.map (·.localImage)) built) ∧
      (input.references (pushedOf input known) built).1.map (·.toComposeBuiltService) = built ∧
      forall image, image ∈ (input.references (pushedOf input known) built).1 ->
        Exists fun first => first ∈ known ++ firstsAfter (known.map (·.localImage)) built ∧
          first.localImage = image.localImage ∧ image.ref = (input.pushed first).ref ∧
          image.latestRef = (input.pushed first).latestRef := by
  induction built generalizing known with
  | nil =>
      refine ⟨?_, rfl, fun image member => absurd member List.not_mem_nil⟩
      rw [firstsAfter, List.append_nil]
      rfl
  | cons head rest ih =>
      have found := getEntry_pushedOf input known head.localImage
      cases isShared : known.find? fun built => built.localImage = head.localImage with
      | some owner =>
          rw [isShared, Option.map_some] at found
          have member := List.mem_of_find?_eq_some isShared
          have same : owner.localImage = head.localImage := by
            have found := List.find?_some isShared
            exact of_decide_eq_true found
          have seen : head.localImage ∈ known.map (·.localImage) := List.mem_map.mpr ⟨owner, member, same⟩
          rcases ih known with ⟨grown, services, owners⟩
          simp only [BuildInput.references, found, firstsAfter, if_pos seen]
          refine ⟨grown, congrArg (head :: ·) services, fun image among => ?_⟩
          rcases List.mem_cons.mp among with here | later
          · rw [here]
            exact ⟨owner, List.mem_append_left _ member, same, rfl, rfl⟩
          · exact owners image later
      | none =>
          rw [isShared, Option.map_none] at found
          have unseen : head.localImage ∉ known.map (·.localImage) := by
            intro seen
            rcases List.mem_map.mp seen with ⟨owner, member, same⟩
            have missing := List.find?_eq_none.mp isShared owner member
            exact missing (decide_eq_true same)
          have keys : (pushedOf input known).map Prod.fst = known.map (·.localImage) := by
            rw [pushedOf, List.map_map]
            rfl
          have added : setEntry (pushedOf input known) head.localImage (input.pushed head) = pushedOf input (known ++ [head]) := by
            rw [setEntry_new _ (keys ▸ unseen), pushedOf, pushedOf, List.map_append]
            rfl
          have more : (known ++ [head]).map (·.localImage) = known.map (·.localImage) ++ [head.localImage] := by
            rw [List.map_append]
            rfl
          rcases ih (known ++ [head]) with ⟨grown, services, owners⟩
          simp only [BuildInput.references, found, firstsAfter, if_neg unseen, added]
          rw [more, List.append_assoc, List.singleton_append] at grown owners
          refine ⟨grown, congrArg (head :: ·) services, fun image among => ?_⟩
          rcases List.mem_cons.mp among with here | later
          · rw [here]
            exact ⟨head, List.mem_append_right _ List.mem_cons_self, rfl, rfl, rfl⟩
          · exact owners image later

variable (input : BuildInput)

theorem pushes_eq : input.pushes = (firsts input.builtServices).map input.pushed := by
  have grown := (references_spec input input.builtServices []).1
  rw [List.nil_append] at grown
  rw [BuildInput.pushes, show ([] : List (Text × ComposePushedImage)) = pushedOf input [] from rfl, grown, pushedOf,
    List.map_map]
  rfl

theorem services_images : input.images.map (·.toComposeBuiltService) = input.builtServices :=
  (references_spec input input.builtServices []).2.1

theorem owner_of_image {image : ComposePushedImage} (member : image ∈ input.images) :
    Exists fun first => first ∈ firsts input.builtServices ∧ first.localImage = image.localImage ∧
      image.ref = (input.pushed first).ref ∧ image.latestRef = (input.pushed first).latestRef :=
  (references_spec input input.builtServices []).2.2 image member

theorem image_of_first {first : ComposeBuiltService} (member : first ∈ firsts input.builtServices) :
    Exists fun image => image ∈ input.images ∧ image.toComposeBuiltService = first ∧
      image.ref = (input.pushed first).ref ∧ image.latestRef = (input.pushed first).latestRef := by
  have built : first ∈ input.images.map (·.toComposeBuiltService) := by
    rw [services_images]
    exact (mem_of_mem_firstsAfter member).1
  rcases List.mem_map.mp built with ⟨image, among, isFirst⟩
  rcases owner_of_image input among with ⟨owner, isOwner, sameLocal, ref, latestRef⟩
  rw [isFirst] at sameLocal
  have same := List.inj_on_of_nodup_map (firstsAfter_nodup input.builtServices []) isOwner member sameLocal
  exact ⟨image, among, isFirst, same ▸ ref, same ▸ latestRef⟩

/-- Where the registry's repositories are. -/
def Registry.address (registry : Registry) : Text :=
  if registry.registryType = .awsEcr ∧ registry.registryUrl ≠ [] then registry.registryUrl ++ ['/']
  else if registry.registryUrl ≠ [] then registry.registryUrl ++ '/' :: registry.targetPrefix ++ ['/']
  else registry.targetPrefix ++ ['/']

theorem getRegistryTag_eq (registry : Registry) {imageName : Text} (plain : '/' ∉ imageName) :
    getRegistryTag registry imageName = registry.address ++ imageName := by
  have whole : extractRepositoryName imageName = imageName := by
    refine List.rtakeWhile_eq_self_iff.mpr fun char member => ?_
    rw [bne_iff_ne]
    exact fun slash => plain (slash ▸ member)
  have notHosted : (registry.registryUrl ++ ['/']).isPrefixOf imageName = false := by
    rw [Bool.eq_false_iff]
    intro hosted
    rcases List.isPrefixOf_iff_prefix.mp hosted with ⟨rest, same⟩
    refine plain (same ▸ ?_)
    exact List.mem_append_left _ (List.mem_append_right _ List.mem_cons_self)
  simp only [getRegistryTag, Registry.address, whole, notHosted, Bool.false_eq_true, if_false]
  split
  · rw [List.append_assoc, List.singleton_append]
  · split
    · rw [List.append_assoc, List.append_assoc, List.cons_append, List.singleton_append]
    · rw [List.append_assoc, List.singleton_append]

theorem address_ends (registry : Registry) : Exists fun front => registry.address = front ++ ['/'] := by
  unfold Registry.address
  split
  · exact ⟨_, rfl⟩
  · split <;> exact ⟨_, rfl⟩

theorem not_mem_repo {char : Char} (noWord : isWordChar char = false) (noSeparator : isSeparator char = false)
    (name : Text) : char ∉ sanitizeImageRepoName name := by
  rw [sanitizeImageRepoName_eq]
  intro member
  rcases List.mem_map.mp member with ⟨sound, among, isChar⟩
  rcases mem_sounds among with ⟨word, _⟩ | ⟨separates, _⟩
  · rw [isChar, noWord] at word
    cases word
  · rw [isChar, noSeparator] at separates
    cases separates

theorem not_mem_tag {char : Char} (refused : isTagChar char = false) (deploymentId : Text) :
    char ∉ getBuiltImageTag deploymentId := by
  intro member
  rcases List.mem_flatMap.mp (List.mem_of_mem_take member) with ⟨source, _, among⟩
  have allowed : isTagChar char = true := by
    unfold tagChar at among
    split at among
    · rename_i taken
      rw [List.mem_singleton.mp among]
      exact taken
    · split at among
      · rw [List.mem_singleton.mp among]
        rfl
      · have dash : char = '-' := by simpa using among
        rw [dash]
        rfl
  rw [refused] at allowed
  cases allowed

/-- What a service is pushed as under a tag. -/
def BuildInput.refWith (built : ComposeBuiltService) (tag : Text) : Text :=
  input.registry.address ++ (getBuiltImageRepoName input.appName built.service ++ ':' :: tag)

theorem slash_not_mem_named (built : ComposeBuiltService) {tag : Text} (plain : '/' ∉ tag) :
    '/' ∉ getBuiltImageRepoName input.appName built.service ++ ':' :: tag := by
  intro member
  rcases List.mem_append.mp member with repo | tagged
  · exact not_mem_repo rfl rfl _ repo
  · rcases List.mem_cons.mp tagged with colon | inTag
    · exact absurd colon (by decide)
    · exact plain inTag

theorem ref_eq (built : ComposeBuiltService) : (input.pushed built).ref = input.refWith built input.tag :=
  getRegistryTag_eq _ (slash_not_mem_named input built (not_mem_tag rfl _))

theorem latestRef_eq (built : ComposeBuiltService) :
    (input.pushed built).latestRef = input.refWith built "latest".toList :=
  getRegistryTag_eq _ (slash_not_mem_named input built (by decide))

theorem repo_eq_iff (first second : ComposeBuiltService) :
    getBuiltImageRepoName input.appName first.service = getBuiltImageRepoName input.appName second.service <->
      Alike first.service second.service := by
  rw [getBuiltImageRepoName, getBuiltImageRepoName, sanitizeImageRepoName_eq_iff, alike_behind]

def repositoryOf (ref : Text) : Text := (ref.rdropWhile (· != ':')).dropLast

theorem repositoryOf_refWith (built : ComposeBuiltService) {tag : Text} (plain : ':' ∉ tag) :
    repositoryOf (input.refWith built tag) =
      input.registry.address ++ getBuiltImageRepoName input.appName built.service := by
  have dropped : tag.rdropWhile (· != ':') = [] :=
    List.rdropWhile_eq_nil_iff.mpr fun char member => bne_iff_ne.mpr fun colon => plain (colon ▸ member)
  rw [repositoryOf, BuildInput.refWith, ← List.append_assoc, rdropWhile_behind (by decide), dropped,
    List.dropLast_concat]

theorem repositoryOf_pushed (built : ComposeBuiltService) {ref : Text}
    (isPushed : ref = (input.pushed built).ref ∨ ref = (input.pushed built).latestRef) :
    repositoryOf ref = input.registry.address ++ getBuiltImageRepoName input.appName built.service := by
  rcases isPushed with isRef | isLatest
  · rw [isRef, ref_eq]
    exact repositoryOf_refWith input built (not_mem_tag rfl _)
  · rw [isLatest, latestRef_eq]
    exact repositoryOf_refWith input built (by decide)

theorem address_split {registry other : Registry} {name another : Text} (plain : '/' ∉ name) (otherPlain : '/' ∉ another)
    (same : registry.address ++ name = other.address ++ another) : registry.address = other.address ∧ name = another := by
  rcases address_ends registry with ⟨front, isAddress⟩
  rcases address_ends other with ⟨otherFront, isOther⟩
  rw [isAddress, isOther, List.append_assoc, List.append_assoc] at same
  rcases split_at_last plain otherPlain same with ⟨fronts, names⟩
  exact ⟨by rw [isAddress, isOther, fronts], names⟩

/-- Nothing that is pushed for one compose is pushed for the other, and none of their repositories is the same. -/
def ShareNothing (input other : BuildInput) : Prop :=
  input.appName ≠ other.appName -> forall image, image ∈ input.images -> forall another, another ∈ other.images ->
    repositoryOf image.ref ≠ repositoryOf another.ref ∧
      forall ref, ref = image.ref ∨ ref = image.latestRef -> ref ≠ another.ref ∧ ref ≠ another.latestRef

/-- At one registry no two of the names that the services are pushed under are alike. -/
def NamedApart (input other : BuildInput) : Prop :=
  input.appName ≠ other.appName -> input.registry.address = other.registry.address ->
    forall first, first ∈ firsts input.builtServices -> forall second, second ∈ firsts other.builtServices ->
      ¬ Alike (input.appName ++ '-' :: first.service) (other.appName ++ '-' :: second.service)

theorem shareNothing_iff (input other : BuildInput) : ShareNothing input other <-> NamedApart input other := by
  constructor
  · intro apart different address first isFirst second isSecond alike
    rcases image_of_first input isFirst with ⟨image, among, _, ref, _⟩
    rcases image_of_first other isSecond with ⟨another, amongOther, _, otherRef, _⟩
    refine (apart different image among another amongOther).1 ?_
    rw [repositoryOf_pushed input first (Or.inl ref), repositoryOf_pushed other second (Or.inl otherRef), address]
    exact congrArg (_ ++ ·) ((sanitizeImageRepoName_eq_iff _ _).mpr alike)
  · intro apart different image among another amongOther
    rcases owner_of_image input among with ⟨first, isFirst, _, ref, latestRef⟩
    rcases owner_of_image other amongOther with ⟨second, isSecond, _, otherRef, otherLatestRef⟩
    have repositories : forall ref another, ref = (input.pushed first).ref ∨ ref = (input.pushed first).latestRef ->
        another = (other.pushed second).ref ∨ another = (other.pushed second).latestRef ->
        repositoryOf ref ≠ repositoryOf another := by
      intro ref another isPushed isOther same
      rw [repositoryOf_pushed input first isPushed, repositoryOf_pushed other second isOther] at same
      rcases address_split (not_mem_repo rfl rfl _) (not_mem_repo rfl rfl _) same with ⟨address, names⟩
      exact apart different address first isFirst second isSecond ((sanitizeImageRepoName_eq_iff _ _).mp names)
    refine ⟨repositories _ _ (Or.inl ref) (Or.inl otherRef), fun pushed isPushed => ?_⟩
    have isOwn : pushed = (input.pushed first).ref ∨ pushed = (input.pushed first).latestRef := by
      rw [← ref, ← latestRef]
      exact isPushed
    exact ⟨fun same => repositories _ _ isOwn (Or.inl otherRef) (congrArg repositoryOf same),
      fun same => repositories _ _ isOwn (Or.inr otherLatestRef) (congrArg repositoryOf same)⟩

end ComposeImages
end Dokploy
