import Dokploy.ComposeImages.Push

namespace Dokploy
namespace ComposeImages

open Foundation
open RegistryRetention (Text)

/-!
# Every built service runs its own image

The script is right for all names that stay apart on their way to a reference.
`own_images_iff` says which names those are: a run in which nothing fails shows
that no other names are right.
-/

theorem withTag_behind (front : Text) {name : Text} (plain : '/' ∉ name) (tagged : ':' ∈ name) :
    withTag (front ++ name) = front ++ name := by
  have noSlash : forall char, char ∈ name.reverse -> (char != '/') = true := fun char member =>
    bne_iff_ne.mpr fun slash => plain (slash ▸ List.mem_reverse.mp member)
  refine if_pos ?_
  rw [List.rtakeWhile, List.reverse_append, List.takeWhile_append_of_pos noSlash, List.reverse_append,
    List.reverse_reverse]
  exact List.mem_append_right _ tagged

theorem fullName_behind (registry : Registry) : Exists fun front => forall name, '/' ∉ name -> ':' ∈ name ->
    fullName (registry.address ++ name) = front ++ name := by
  have slash : '/' ∈ registry.address := by
    rcases address_ends registry with ⟨front, isAddress⟩
    rw [isAddress]
    exact List.mem_append_right _ List.mem_cons_self
  rcases List.eq_append_cons_of_mem slash with ⟨head, more, isAddress, noSlash⟩
  have passes : forall char, char ∈ head -> (char != '/') = true := fun char member =>
    bne_iff_ne.mpr fun isSlash => noSlash (isSlash ▸ member)
  have whole (name : Text) : registry.address ++ name = head ++ '/' :: (more ++ name) := by
    rw [isAddress, List.append_assoc, List.cons_append]
  have isHead (name : Text) : (registry.address ++ name).takeWhile (· != '/') = head := by
    rw [whole, List.takeWhile_append_of_pos passes, List.takeWhile_cons_of_neg (by decide), List.append_nil]
  have isRest (name : Text) : (registry.address ++ name).dropWhile (· != '/') = '/' :: (more ++ name) := by
    rw [whole, List.dropWhile_append_of_pos passes, List.dropWhile_cons_of_neg (by decide)]
  by_cases firstRegistry : '.' ∉ head ∧ ':' ∉ head ∧ head ≠ "localhost".toList ∧ head.map Char.toLower = head
  · refine ⟨"docker.io".toList ++ '/' :: registry.address, fun name plain tagged => ?_⟩
    have parts : splitDomain (registry.address ++ name) = ("docker.io".toList, registry.address ++ name) := by
      simp only [splitDomain, isHead, isRest]
      exact if_pos (Or.inr firstRegistry)
    have hasSlash : '/' ∈ registry.address ++ name := List.mem_append_left _ slash
    simp only [fullName, parts]
    rw [if_neg fun both => both.2 hasSlash, withTag_behind _ plain tagged, List.append_assoc, List.cons_append]
  · have parts (name : Text) : splitDomain (registry.address ++ name) =
        (if head = "index.docker.io".toList then "docker.io".toList else head, more ++ name) := by
      simp only [splitDomain, isHead, isRest]
      rw [if_neg (by simpa using firstRegistry)]
      split <;> rfl
    generalize (if head = "index.docker.io".toList then "docker.io".toList else head) = domain at parts
    by_cases inLibrary : domain = "docker.io".toList ∧ '/' ∉ more
    · refine ⟨domain ++ '/' :: ("library/".toList ++ more), fun name plain tagged => ?_⟩
      have noSlash : '/' ∉ more ++ name := fun member => (List.mem_append.mp member).elim inLibrary.2 plain
      simp only [fullName, parts]
      rw [if_pos ⟨inLibrary.1, noSlash⟩, ← List.append_assoc, withTag_behind _ plain tagged, List.append_assoc domain,
        List.cons_append]
    · refine ⟨domain ++ '/' :: more, fun name plain tagged => ?_⟩
      have outside : ¬ (domain = "docker.io".toList ∧ '/' ∉ more ++ name) := fun both =>
        inLibrary ⟨both.1, fun member => both.2 (List.mem_append_left _ member)⟩
      simp only [fullName, parts]
      rw [if_neg outside, withTag_behind _ plain tagged, List.append_assoc, List.cons_append]

variable (input : BuildInput)

theorem foreign_of_names {first second : ComposeBuiltService} (different : ¬ Alike first.service second.service) :
    Foreign (input.pushed first) (input.pushed second) := by
  rcases fullName_behind input.registry with ⟨front, isFront⟩
  have full (built : ComposeBuiltService) {name : Text} (isRef : IsRefOf (input.pushed built) name) :
      Exists fun tag => ':' ∉ tag ∧
        name = front ++ (getBuiltImageRepoName input.appName built.service ++ ':' :: tag) := by
    have colon (tag : Text) : ':' ∈ getBuiltImageRepoName input.appName built.service ++ ':' :: tag :=
      List.mem_append_right _ List.mem_cons_self
    rcases isRef with isRef | isLatest
    · refine ⟨input.tag, not_mem_tag rfl _, ?_⟩
      rw [isRef, ref_eq, BuildInput.refWith]
      exact isFront _ (slash_not_mem_named input built (not_mem_tag rfl _)) (colon _)
    · refine ⟨"latest".toList, by decide, ?_⟩
      rw [isLatest, latestRef_eq, BuildInput.refWith]
      exact isFront _ (slash_not_mem_named input built (by decide)) (colon _)
  intro name isFirst isSecond
  rcases full first isFirst with ⟨tag, plain, asFirst⟩
  rcases full second isSecond with ⟨otherTag, otherPlain, asSecond⟩
  have same := List.append_cancel_left (asFirst.symm.trans asSecond)
  exact different ((repo_eq_iff input first second).mp (split_at_last plain otherPlain same).1)

section Smooth

variable {accepts : Text -> Prop} {built : List ComposeBuiltService} {docker : Docker} {image : ComposePushedImage}

/-- The script can end there with this result. -/
def Ends (accepts : Text -> Prop) (built : List ComposeBuiltService) {Result : Type} (docker : Docker)
    (script : Script Result) (result : Result) (last : Docker) : Prop :=
  Exists fun events => (world accepts built).Runs docker script events last (.done result)

theorem Ends.pure {Result : Type} (result : Result) (docker : Docker) :
    Ends accepts built docker (Pure.pure result : Script Result) result docker :=
  ⟨[], .start⟩

theorem Ends.perform (op : Op) (answer : op.Answer) {after : Docker}
    (performed : performs accepts built docker op answer after) :
    Ends accepts built docker (Program.perform op) answer after :=
  ⟨_, World.Runs.step .start answer after performed⟩

theorem Ends.bind {First Second : Type} {script : Script First} {next : First -> Script Second} {value : First}
    {result : Second} {middle last : Docker} (first : Ends accepts built docker script value middle)
    (second : Ends accepts built middle (next value) result last) :
    Ends accepts built docker (script >>= next) result last := by
  rcases first with ⟨events, runs⟩
  rcases second with ⟨later, goesOn⟩
  exact ⟨events ++ later, (runs.bind next).trans goesOn⟩

/-- The image has both of its references, on the build server and in the registry. -/
def settled (docker : Docker) (image : ComposePushedImage) (content : Image) : Docker where
  onServer := Function.update (Function.update docker.onServer (fullName image.ref) (some content))
    (fullName image.latestRef) (some content)
  inRegistry := Function.update (Function.update docker.inRegistry (fullName image.ref) (some content))
    (fullName image.latestRef) (some content)

theorem ends_pushRetry {ref : Text} {content : Image} (found : docker.onServer (fullName ref) = some content)
    (delays : List Nat) : Ends accepts built docker (pushRetry ref delays) true
      { docker with inRegistry := Function.update docker.inRegistry (fullName ref) (some content) } := by
  have stored : Stored ref docker
      { docker with inRegistry := Function.update docker.inRegistry (fullName ref) (some content) } :=
    ⟨content, found, rfl⟩
  cases delays with
  | nil =>
      refine (Ends.perform .makeTemporary true rfl).bind ?_
      exact (Ends.perform (.push ref) .pushed stored).bind (Ends.pure true _)
  | cons delay later =>
      refine (Ends.perform .makeTemporary true rfl).bind ?_
      exact (Ends.perform (.push ref) .pushed stored).bind (Ends.pure true _)

theorem ends_tagAndPush (rebuildService : Bool) {content : Image}
    (found : docker.onServer (fullName image.localImage) = some content) (accepted : Accepted accepts image) :
    Ends accepts built docker (tagAndPush rebuildService image) () (settled docker image content) := by
  rcases accepted with ⟨source, target, latest⟩
  have still : Function.update docker.onServer (fullName image.ref) (some content) (fullName image.localImage) =
      some content := by
    by_cases same : fullName image.localImage = fullName image.ref
    · rw [same, Function.update_self]
    · rw [Function.update_of_ne same, found]
  have tagged : Function.update (Function.update docker.onServer (fullName image.ref) (some content))
      (fullName image.latestRef) (some content) (fullName image.ref) = some content := by
    by_cases same : fullName image.ref = fullName image.latestRef
    · rw [same, Function.update_self]
    · rw [Function.update_of_ne same, Function.update_self]
  have present : performs accepts built docker (.inspect image.localImage) true docker :=
    ⟨rfl, fun _ none => by rw [found] at none; cases none⟩
  refine (Ends.perform (.say _) () rfl).bind ?_
  refine Ends.bind ((Ends.perform (.inspect _) true present).bind (Ends.pure () docker)) ?_
  refine (Ends.perform (.tag _ _) true ⟨source, target, content, found, rfl⟩).bind ?_
  refine (Ends.pure () _).bind ?_
  refine (Ends.perform (.tag _ _) true ⟨source, latest, content, still, rfl⟩).bind ?_
  refine (Ends.pure () _).bind ?_
  refine (ends_pushRetry tagged _).bind ?_
  refine (Ends.pure () _).bind ?_
  refine (ends_pushRetry (Function.update_self _ _ _) _).bind ?_
  refine (Ends.pure () _).bind ?_
  exact Ends.perform (.say _) () rfl

end Smooth

section All

variable {accepts : Text -> Prop} {built : List ComposeBuiltService} {docker : Docker}

/-- Where the script ends when every local image is there and nothing fails. -/
def settledAll (docker : Docker) : List ComposePushedImage -> Docker
  | [] => docker
  | image :: rest =>
      match docker.onServer (fullName image.localImage) with
      | some content => settledAll (settled docker image content) rest
      | none => docker

theorem onServer_settled (image : ComposePushedImage) (content : Image) {name : Text} (isRef : IsRefOf image name) :
    (settled docker image content).onServer name = some content := by
  by_cases latest : name = fullName image.latestRef
  · exact latest ▸ Function.update_self _ _ _
  · have first := isRef.resolve_right latest
    refine (Function.update_of_ne latest _ _).trans ?_
    rw [first, Function.update_self]

theorem inRegistry_settled (image : ComposePushedImage) (content : Image) :
    (settled docker image content).inRegistry (fullName image.ref) = some content := by
  by_cases same : fullName image.ref = fullName image.latestRef
  · rw [same]
    exact Function.update_self _ _ _
  · exact (Function.update_of_ne same _ _).trans (Function.update_self _ _ _)

theorem settled_outside (image : ComposePushedImage) (content : Image) {name : Text} (outside : ¬ IsRefOf image name) :
    (settled docker image content).onServer name = docker.onServer name ∧
      (settled docker image content).inRegistry name = docker.inRegistry name := by
  have notRef : name ≠ fullName image.ref := fun same => outside (Or.inl same)
  have notLatest : name ≠ fullName image.latestRef := fun same => outside (Or.inr same)
  constructor
  · exact (Function.update_of_ne notLatest _ _).trans (Function.update_of_ne notRef _ _)
  · exact (Function.update_of_ne notLatest _ _).trans (Function.update_of_ne notRef _ _)

theorem present_settled (image : ComposePushedImage) (content : Image) {name : Text}
    (present : docker.onServer name ≠ none) : (settled docker image content).onServer name ≠ none := by
  by_cases isRef : IsRefOf image name
  · rw [onServer_settled image content isRef]
    exact Option.some_ne_none content
  · rw [(settled_outside image content isRef).1]
    exact present

theorem ends_tagAndPushAll (rebuildService : Bool) (images : List ComposePushedImage)
    (present : forall image, image ∈ images -> docker.onServer (fullName image.localImage) ≠ none)
    (accepted : forall image, image ∈ images -> Accepted accepts image) :
    Ends accepts built docker (tagAndPushAll rebuildService images) () (settledAll docker images) := by
  induction images generalizing docker with
  | nil => exact Ends.pure () docker
  | cons image rest ih =>
      rcases Option.ne_none_iff_exists'.mp (present image List.mem_cons_self) with ⟨content, found⟩
      have goesOn : settledAll docker (image :: rest) = settledAll (settled docker image content) rest := by
        simp only [settledAll, found]
      rw [goesOn]
      refine (ends_tagAndPush rebuildService found (accepted image List.mem_cons_self)).bind ?_
      exact ih
        (fun other member => present_settled image content (present other (List.mem_cons_of_mem _ member)))
        (fun other member => accepted other (List.mem_cons_of_mem _ member))

theorem ends_command (registryLabel : Text) (images : List ComposePushedImage)
    (present : forall image, image ∈ images -> docker.onServer (fullName image.localImage) ≠ none)
    (accepted : forall image, image ∈ images -> Accepted accepts image) :
    Ends accepts built docker (getTagAndPushCommand images registryLabel false none) () (settledAll docker images) := by
  refine (Ends.pure () docker).bind ?_
  refine (Ends.perform (.say _) () rfl).bind ?_
  refine (Ends.perform (.say _) () rfl).bind ?_
  refine (ends_tagAndPushAll false images present accepted).bind ?_
  exact Ends.perform .prune () rfl

theorem inRegistry_settledAll (images : List ComposePushedImage) {name : Text}
    (outside : forall image, image ∈ images -> ¬ IsRefOf image name) :
    (settledAll docker images).inRegistry name = docker.inRegistry name := by
  induction images generalizing docker with
  | nil => rfl
  | cons image rest ih =>
      unfold settledAll
      split
      · rw [ih fun other member => outside other (List.mem_cons_of_mem _ member)]
        exact (settled_outside image _ (outside image List.mem_cons_self)).2
      · rfl

/-- What has an image's local name when its turn comes is stored under its reference: the induction is on
the images before it, none of which has that name as a reference. -/
theorem registered {image : ComposePushedImage} {content : Image} (before after : List ComposePushedImage)
    (found : docker.onServer (fullName image.localImage) = some content)
    (present : forall other, other ∈ before -> docker.onServer (fullName other.localImage) ≠ none)
    (untouched : forall other, other ∈ before -> ¬ IsRefOf other (fullName image.localImage))
    (foreign : forall other, other ∈ after -> Foreign image other) :
    (settledAll docker (before ++ image :: after)).inRegistry (fullName image.ref) = some content := by
  induction before generalizing docker with
  | nil =>
      have goesOn : settledAll docker (image :: after) = settledAll (settled docker image content) after := by
        simp only [settledAll, found]
      rw [List.nil_append, goesOn, inRegistry_settledAll after fun other member => foreign other member _ (Or.inl rfl)]
      exact inRegistry_settled image content
  | cons first rest ih =>
      rcases Option.ne_none_iff_exists'.mp (present first List.mem_cons_self) with ⟨other, isOther⟩
      have goesOn : settledAll docker (first :: rest ++ image :: after) =
          settledAll (settled docker first other) (rest ++ image :: after) := by
        simp only [List.cons_append, settledAll, isOther]
      rw [goesOn]
      refine ih ?_
        (fun another member => present_settled first other (present another (List.mem_cons_of_mem _ member)))
        (fun another member => untouched another (List.mem_cons_of_mem _ member))
      rw [(settled_outside first other (untouched first List.mem_cons_self)).1]
      exact found

/-- Where every image ends at its own reference, no local name was a reference of an earlier image. -/
theorem untouched_of_held (images : List ComposePushedImage) (foreign : images.Pairwise Foreign)
    (present : forall image, image ∈ images -> docker.onServer (fullName image.localImage) ≠ none)
    (own : forall image, image ∈ images -> BuiltOwn docker image)
    (held : forall image, image ∈ images -> Held (settledAll docker images) image) : images.Pairwise Untouched := by
  induction images generalizing docker with
  | nil => exact List.Pairwise.nil
  | cons first rest ih =>
      rcases Option.ne_none_iff_exists'.mp (present first List.mem_cons_self) with ⟨content, found⟩
      rcases List.pairwise_cons.mp foreign with ⟨apart, later⟩
      have goesOn : settledAll docker (first :: rest) = settledAll (settled docker first content) rest := by
        simp only [settledAll, found]
      rw [goesOn] at held
      have stillPresent : forall image, image ∈ rest ->
          (settled docker first content).onServer (fullName image.localImage) ≠ none := fun image member =>
        present_settled first content (present image (List.mem_cons_of_mem _ member))
      have head : forall image, image ∈ rest -> Untouched first image := by
        intro image member isRef
        rcases List.append_of_mem member with ⟨before, after, rfl⟩
        rcases List.pairwise_append.mp later with ⟨_, behind, _⟩
        have atTurn : (settled docker first content).onServer (fullName image.localImage) = some content :=
          onServer_settled first content isRef
        have stored := registered before after atTurn
          (fun other among => stillPresent other (List.mem_append_left _ among))
          (fun other among => apart other (List.mem_append_left _ among) _ isRef)
          (List.pairwise_cons.mp behind).1
        rcases held image (List.mem_cons_of_mem _ member) with ⟨kept, isKept, asBuilt⟩
        rw [stored] at isKept
        cases isKept
        rw [← asBuilt]
        exact own first List.mem_cons_self content found
      refine List.pairwise_cons.mpr ⟨head, ih later stillPresent (fun image member => ?_)
        fun image member => held image (List.mem_cons_of_mem _ member)⟩
      intro other isOther
      by_cases isRef : IsRefOf first (fullName image.localImage)
      · rw [onServer_settled first content isRef] at isOther
        cases isOther
        rw [head image member isRef]
        exact own first List.mem_cons_self content found
      · rw [(settled_outside first content isRef).1] at isOther
        exact own image (List.mem_cons_of_mem _ member) other isOther

end All

section Claim

variable (accepts : Text -> Prop) (input other : BuildInput)

/-- The build has just succeeded: a local image that is still there is what was built under its name. -/
def Ready (start : Docker) : Prop :=
  forall built, built ∈ input.builtServices -> forall content,
    start.onServer (fullName built.localImage) = some content -> content.builtAs = fullName built.localImage

/-- Whenever the script ends well, the override pins every built service, and the registry has under that
reference the image with the service's local name. -/
def RunsOwn : Prop :=
  forall registryLabel rebuildService beforePush start events final, Ready input start ->
    (world accepts input.builtServices).Runs start
      (getTagAndPushCommand input.pushes registryLabel rebuildService beforePush) events final (.done ()) ->
    forall image, image ∈ input.images -> Exists fun pinned =>
      getEntry (buildComposeOverride input.composeType input.images) image.service = some pinned ∧
        Exists fun content => final.inRegistry (fullName pinned.image) = some content ∧
          content.builtAs = fullName image.localImage

/-- Two services with one reference have one local image. -/
def SharesOnlyOne : Prop :=
  forall first, first ∈ input.images -> forall second, second ∈ input.images ->
    first.ref = second.ref -> first.localImage = second.localImage

/-- Every built service of the compose runs its own image, and another compose pushes nothing there. -/
structure OwnImages : Prop where
  runsOwn : RunsOwn accepts input
  sharesOnlyOne : SharesOnlyOne input
  shareNothing : ShareNothing input other

/-- Docker accepts every name in the script. -/
def AllAccepted : Prop := forall image, image ∈ input.pushes -> Accepted accepts image

/-- The names of the services that are pushed are not alike, also not with those of the other compose; and
where Docker accepts all names, no built service is named like the prototype and no local image is named
like an earlier reference. -/
structure NamedWell : Prop where
  names : (firsts input.builtServices).Pairwise fun first second => ¬ Alike first.service second.service
  plain : AllAccepted accepts input -> forall built, built ∈ input.builtServices -> built.service ≠ prototypeKey
  untouched : AllAccepted accepts input -> input.pushes.Pairwise Untouched
  apart : NamedApart input other

variable {accepts input other}

theorem nodup_images (input : BuildInput) : (input.images.map (·.service)).Nodup := by
  have services := nodup_builtServices input
  rw [← services_images, List.map_map] at services
  exact services

theorem overrideOf_image (composeType : ComposeType) (image : ComposePushedImage) :
    (overrideOf composeType image).image = image.ref := by
  cases composeType <;> rfl

theorem foreign_pushes (names : (firsts input.builtServices).Pairwise fun first second =>
    ¬ Alike first.service second.service) : input.pushes.Pairwise Foreign := by
  rw [pushes_eq]
  exact List.pairwise_map.mpr (names.imp fun different => foreign_of_names input different)

theorem own_of_ready {start : Docker} (ready : Ready input start) :
    forall image, image ∈ input.pushes -> BuiltOwn start image := by
  intro image member
  rw [pushes_eq] at member
  rcases List.mem_map.mp member with ⟨built, isFirst, rfl⟩
  exact ready built (mem_of_mem_firstsAfter isFirst).1

theorem runsOwn_of_named (named : NamedWell accepts input other) : RunsOwn accepts input := by
  intro registryLabel rebuildService beforePush start events final ready runs image among
  have progress := command_progress (fun _ => own_of_ready ready) (fun _ => foreign_pushes named.names)
    (fun isApart : input.pushes.Pairwise Untouched => isApart) runs
  have allAccepted : AllAccepted accepts input := progress.accepted
  rcases owner_of_image input among with ⟨first, isFirst, sameLocal, ref, _⟩
  have service : image.toComposeBuiltService ∈ input.builtServices := by
    rw [← services_images]
    exact List.mem_map_of_mem among
  have isPushed : input.pushed first ∈ input.pushes := by
    rw [pushes_eq]
    exact List.mem_map_of_mem isFirst
  rcases progress.held (named.untouched allAccepted) _ isPushed with ⟨content, stored, asBuilt⟩
  refine ⟨_, override_of_image input.composeType (nodup_images input) among (named.plain allAccepted _ service), content, ?_, ?_⟩
  · rw [overrideOf_image, ref]
    exact stored
  · rw [← sameLocal]
    exact asBuilt

theorem sharesOnlyOne_iff : SharesOnlyOne input <->
    (firsts input.builtServices).Pairwise fun first second => ¬ Alike first.service second.service := by
  have apart := List.pairwise_map.mp (firstsAfter_nodup input.builtServices [])
  constructor
  · intro shares
    refine apart.imp_of_mem ?_
    intro first second isFirst isSecond different alike
    rcases image_of_first input isFirst with ⟨image, among, isImage, ref, _⟩
    rcases image_of_first input isSecond with ⟨another, amongToo, isAnother, otherRef, _⟩
    have repositories := (repo_eq_iff input first second).mpr alike
    have refs : image.ref = another.ref := by
      rw [ref, otherRef, ref_eq, ref_eq, BuildInput.refWith, BuildInput.refWith, repositories]
    have same := shares image among another amongToo refs
    rw [isImage, isAnother] at same
    exact different same
  · intro names image among another amongToo refs
    rcases owner_of_image input among with ⟨first, isFirst, sameLocal, ref, _⟩
    rcases owner_of_image input amongToo with ⟨second, isSecond, otherLocal, otherRef, _⟩
    have alike : Alike first.service second.service := by
      rw [ref, otherRef, ref_eq, ref_eq] at refs
      exact (repo_eq_iff input first second).mp (split_at_last (not_mem_tag rfl _) (not_mem_tag rfl _)
        (List.append_cancel_left refs)).1
    have spelled : ((firsts input.builtServices).map fun built => sounds .outside (toLowerCase built.service)).Nodup :=
      List.pairwise_map.mpr names
    have same := List.inj_on_of_nodup_map spelled isFirst isSecond alike
    rw [← sameLocal, ← otherLocal, same]

/-- Where nothing fails, everything that has a name was built under it. -/
def freshlyBuilt : Docker where
  onServer name := some ⟨name, 0⟩
  inRegistry _ := none

theorem named_of_runsOwn (runsOwn : RunsOwn accepts input) (allAccepted : AllAccepted accepts input) :
    (forall built, built ∈ input.builtServices -> built.service ≠ prototypeKey) ∧
      forall image, image ∈ input.pushes -> Held (settledAll freshlyBuilt input.pushes) image := by
  have ready : Ready input freshlyBuilt := by
    rintro built _ content ⟨⟩
    rfl
  have present : forall image, image ∈ input.pushes -> freshlyBuilt.onServer (fullName image.localImage) ≠ none :=
    fun _ _ => Option.some_ne_none _
  have ends : Ends accepts input.builtServices freshlyBuilt (getTagAndPushCommand input.pushes [] false none) ()
      (settledAll freshlyBuilt input.pushes) := ends_command [] input.pushes present allAccepted
  rcases ends with ⟨events, runs⟩
  have each := runsOwn _ _ _ _ _ _ ready runs
  have plain : forall built, built ∈ input.builtServices -> built.service ≠ prototypeKey := by
    intro built member isPrototype
    rw [← services_images] at member
    rcases List.mem_map.mp member with ⟨image, among, isBuilt⟩
    rcases each image among with ⟨pinned, isPinned, _⟩
    have named : image.service = prototypeKey := by
      rw [← isPrototype, ← isBuilt]
    rw [named, override_of_prototype] at isPinned
    cases isPinned
  refine ⟨plain, fun push isPush => ?_⟩
  rw [pushes_eq] at isPush
  rcases List.mem_map.mp isPush with ⟨first, isFirst, rfl⟩
  rcases image_of_first input isFirst with ⟨image, among, isImage, ref, _⟩
  have service : image.service ≠ prototypeKey := by
    have named := plain first (mem_of_mem_firstsAfter isFirst).1
    rw [← isImage] at named
    exact named
  rcases each image among with ⟨pinned, isPinned, content, stored, asBuilt⟩
  rw [override_of_image input.composeType (nodup_images input) among service] at isPinned
  cases isPinned
  rw [overrideOf_image, ref] at stored
  refine ⟨content, stored, ?_⟩
  rw [asBuilt, show image.localImage = first.localImage from isImage ▸ rfl]
  rfl

/-- Two services of one compose whose names differ in the number of dashes. -/
def dashedTwice : BuildInput where
  appName := "shop-k3x9qa".toList
  registry := ⟨"registry.example.com".toList, none, "acme".toList, .cloud⟩
  deploymentId := some "V1StGXR8".toList
  now := []
  configJson :=
    "\x7b\"name\":\"shop-k3x9qa\",\"services\":\x7b\"api--v2\":\x7b\"build\":\x7b\x7d\x7d,\"api-v2\":\x7b\"build\":\x7b\x7d\x7d\x7d\x7d".toList
  composeType := .dockerCompose

/-- A compose whose app name goes on with what another one's service is called. -/
def longerName : BuildInput where
  appName := "shop-k3x9qa-api".toList
  registry := dashedTwice.registry
  deploymentId := some "Z5TdHiB9".toList
  now := []
  configJson := "\x7b\"services\":\x7b\"v2\":\x7b\"build\":\x7b\x7d\x7d\x7d\x7d".toList
  composeType := .dockerCompose

end Claim

end ComposeImages
end Dokploy
