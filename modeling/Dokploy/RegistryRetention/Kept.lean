import Dokploy.RegistryRetention.Prune

namespace Dokploy
namespace RegistryRetention

open Foundation

/-!
# What a run knows of the tags that stay

The registry answers as it likes, so nothing is known of it but what it answered.
A digest is justified when the listing was answered page after page to its end, every
tag that stays was answered with a manifest that can be read whole, the digest is in
none of them, and an old tag was answered with it.  Answers that are known stay known,
and each part of a run adds what the next one needs.
-/

abbrev RetentionEvent := Event Unit RetentionOp Answer

def anyWorld : World Unit RetentionOp Answer where
  performs := fun _ _ _ _ => True
  others := fun _ _ => False

/-- In some batch the registry answered this request so. -/
def Answered (events : List RetentionEvent) (request : RegistryRequest) (response : RegistryResponse) : Prop :=
  Exists fun requests : List RegistryRequest => Exists fun responses : Responses =>
    ⟨(), .runAll requests, .ok responses, ()⟩ ∈ events ∧ request ∈ requests ∧ responses request.id = some response

/-- The pages of a listing from a URL on, up to one without a Link header, and all their tags. -/
inductive ReadPages (names : Text -> Option (List Text)) (library : UrlLibrary) (base repo : Text)
    (events : List RetentionEvent) : Text -> List Text -> Prop
  | last {id : Nat} {url : Text} {response : RegistryResponse} {tags : List Text}
      (answered : Answered events (listRequest id url) response) (ok : response.status = 200)
      (listed : names response.body = some tags) (unique : hasRepeatedHeader response [linkHeader] = false)
      (noLink : response.headers linkHeader = none) : ReadPages names library base repo events url tags
  | more {id : Nat} {url next : Text} {response : RegistryResponse} {tags later : List Text}
      (answered : Answered events (listRequest id url) response) (ok : response.status = 200)
      (listed : names response.body = some tags) (unique : hasRepeatedHeader response [linkHeader] = false)
      (leads : getNextTagsPageUrl library base repo (response.headers linkHeader) = .next next)
      (rest : ReadPages names library base repo events next later) :
      ReadPages names library base repo events url (tags ++ later)

/-- A manifest was found under one valid digest. -/
structure Resolves (response : RegistryResponse) (digest : Text) : Prop where
  ok : response.status = 200
  unique : hasRepeatedHeader response RELIED_ON_HEADERS = false
  header : response.headers contentDigest = some digest
  valid : isValidDigest digest = true

/-- A child that is the manifest of one image. -/
structure IsImage (manifest : Json) (digest : Text) : Prop where
  image : Exists fun mediaType => mediaType ∈ IMAGE_MANIFEST_MEDIA_TYPES ∧
    manifest.field mediaTypeKey = some (.string mediaType)
  named : manifest.field digestKey = some (.string digest)
  valid : isValidDigest digest = true

/-- A whole manifest, and its children, each an image of one platform. -/
structure WholeManifest (response : RegistryResponse) (children : List Text) : Prop where
  whole : isBodyTruncated response = false
  readable : Exists fun entries => Json.parse response.body = some (.object entries) ∧
    ((Json.object entries).field manifestsKey = none ∧ children = [] ∨
      Exists fun manifests => (Json.object entries).field manifestsKey = some (.array manifests) ∧
        List.Forall₂ IsImage manifests children)

/-- The tags that stay: those of releases, and the listed ones that are not dpl- tags or
among the newest of these. -/
def Kept (input : RunInput) (repo : Text) (tags : List Text) (tag : Text) : Prop :=
  tag ∈ input.required repo ∨
    tag ∈ tags ∧ (isDplTag tag = false ∨ (newerTags tags input.tagTimes tag).length < input.keep.toNat)

/-- A tag was answered with a whole manifest that has nothing to do with a digest. -/
def Apart (base repo : Text) (events : List RetentionEvent) (digest tag : Text) : Prop :=
  Exists fun id => Exists fun response => Exists fun own => Exists fun children =>
    Answered events (keptRequest base repo (tag, id)) response ∧ Resolves response own ∧
      WholeManifest response children ∧ digest ≠ own ∧ digest ∉ children

/-- latest was answered: it does not exist. -/
def LatestMissing (base repo : Text) (events : List RetentionEvent) : Prop :=
  Exists fun id => Exists fun response =>
    Answered events (keptRequest base repo (LATEST_TAG, id)) response ∧ response.status = 404

/-- An old tag was answered with the digest. -/
def Doomed (input : RunInput) (repo : Text) (tags : List Text) (events : List RetentionEvent)
    (digest tag : Text) : Prop :=
  tag ∈ tags ∧ isDplTag tag = true ∧ ¬ Kept input repo tags tag ∧
    Exists fun id => Exists fun response =>
      Answered events (headRequest input.base repo (tag, id)) response ∧ Resolves response digest

/-- Everything a run must have been told before it queues a digest. -/
structure Justified (names : Text -> Option (List Text)) (input : RunInput) (events : List RetentionEvent)
    (repo digest : Text) (tags : List Text) : Prop where
  listed : ReadPages names input.library input.base repo events (getTagsListUrl input.base repo) tags
  doomed : Exists fun tag => Doomed input repo tags events digest tag
  kept : forall tag, Kept input repo tags tag ∨ tag = LATEST_TAG -> Apart input.base repo events digest tag ∨
    tag = LATEST_TAG ∧ tag ∉ input.required repo ∧ LatestMissing input.base repo events

section Growing

variable {events later : List RetentionEvent}

theorem Answered.grow (grown : events <+: later) {request : RegistryRequest} {response : RegistryResponse}
    (answered : Answered events request response) : Answered later request response := by
  rcases answered with ⟨requests, responses, member, asked, given⟩
  exact ⟨requests, responses, grown.subset member, asked, given⟩

theorem ReadPages.grow (grown : events <+: later) {names : Text -> Option (List Text)} {library : UrlLibrary}
    {base repo url : Text} {tags : List Text} (pages : ReadPages names library base repo events url tags) :
    ReadPages names library base repo later url tags := by
  induction pages with
  | last answered ok listed unique noLink => exact .last (answered.grow grown) ok listed unique noLink
  | more answered ok listed unique leads _ ih =>
      exact .more (answered.grow grown) ok listed unique leads ih

theorem Apart.grow (grown : events <+: later) {base repo digest tag : Text} (apart : Apart base repo events digest tag) :
    Apart base repo later digest tag := by
  rcases apart with ⟨id, response, own, children, answered, rest⟩
  exact ⟨id, response, own, children, answered.grow grown, rest⟩

theorem Justified.grow (grown : events <+: later) {names : Text -> Option (List Text)} {input : RunInput}
    {repo digest : Text} {tags : List Text} (justified : Justified names input events repo digest tags) :
    Justified names input later repo digest tags where
  listed := justified.listed.grow grown
  doomed := by
    rcases justified.doomed with ⟨tag, member, dpl, notKept, id, response, answered, resolves⟩
    exact ⟨tag, member, dpl, notKept, id, response, answered.grow grown, resolves⟩
  kept := by
    intro tag kept
    rcases justified.kept tag kept with apart | ⟨latest, notRequired, id, response, answered, missing⟩
    · exact Or.inl (apart.grow grown)
    · exact Or.inr ⟨latest, notRequired, id, response, answered.grow grown, missing⟩

end Growing

section Giving

variable {Result Other : Type} {past : List RetentionEvent}

/-- Whatever is answered, a result of the program is good, and nothing is forgotten. -/
def Gives (past : List RetentionEvent) (program : Pruning Result) (good : Result -> List RetentionEvent -> Prop) : Prop :=
  anyWorld.Ensures (fun _ _ => True) program
    (fun result after _ => past <+: after ∧ forall value, result = .ok value -> good value after) past ()

variable {good : Result -> List RetentionEvent -> Prop}

theorem Gives.pure {value : Result} (holds : good value past) :
    Gives past (Pure.pure value) good :=
  ⟨List.prefix_rfl, fun _ same => Except.ok.inj same ▸ holds⟩

theorem Gives.thrown {failure : Failure} :
    Gives past (.thrown failure) good :=
  ⟨List.prefix_rfl, fun _ same => nomatch same⟩

theorem Gives.ask {op : RetentionOp} {good : Answer op -> List RetentionEvent -> Prop}
    (each : forall answer, good answer (past ++ [⟨(), op, answer, ()⟩])) : Gives past (ask op) good :=
  fun _ _ answer _ _ => ⟨trivial, List.prefix_append _ _, fun _ same => Except.ok.inj same ▸ each answer⟩

variable {program : Pruning Result}

theorem Gives.bind {next : Result -> Pruning Other}
    {good : Other -> List RetentionEvent -> Prop} (middle : Result -> List RetentionEvent -> Prop)
    (first : Gives past program middle)
    (second : forall value after, past <+: after -> middle value after -> Gives after (next value) good) :
    Gives past (program >>= next) good := by
  apply World.Ensures.bind
  apply World.Ensures.mono first
  intro result after last ⟨grown, holds⟩
  cases result with
  | error failure => exact ⟨grown, fun _ same => nomatch same⟩
  | ok value =>
      apply (second value after grown (holds value rfl)).mono
      exact fun _ _ _ ⟨further, good⟩ => ⟨grown.trans further, good⟩

theorem Gives.anything : Gives past program fun _ _ => True := by
  have holds : anyWorld.Ensures (fun _ _ => True) program (fun _ _ _ => True) past () :=
    World.Ensures.of_all fun _ _ _ => trivial
  exact holds.extending.mono fun _ _ _ both => ⟨both.2, fun _ _ => trivial⟩

theorem Gives.after {next : Result -> Pruning Other}
    {good : Other -> List RetentionEvent -> Prop}
    (second : forall value after, past <+: after -> Gives after (next value) good) :
    Gives past (program >>= next) good :=
  Gives.bind _ Gives.anything fun value after grown _ => second value after grown

theorem Gives.mono {better : Result -> List RetentionEvent -> Prop}
    (gives : Gives past program better) (weaker : forall value after, past <+: after -> better value after -> good value after) :
    Gives past program good :=
  World.Ensures.mono gives fun _ after _ ⟨grown, holds⟩ => ⟨grown, fun value same => weaker value after grown (holds value same)⟩

theorem Gives.attempt
    (gives : Gives past program good) :
    Gives past program.attempt fun result after => forall value, result = .ok value -> good value after := by
  apply World.Ensures.attempt
  exact World.Ensures.mono gives fun _ _ _ ⟨grown, holds⟩ => ⟨grown, fun _ same value is => holds value (Except.ok.inj same ▸ is)⟩

theorem Gives.runAll {requests : List RegistryRequest} {good : Responses -> List RetentionEvent -> Prop}
    (each : forall responses, good responses (past ++ [⟨(), .runAll requests, .ok responses, ()⟩])) :
    Gives past (runAll requests) good := by
  apply Gives.bind (fun answer after => after = past ++ [⟨(), .runAll requests, answer, ()⟩])
  · exact Gives.ask fun _ => rfl
  · rintro (failure | responses) after _ rfl
    · exact Gives.thrown
    · exact Gives.pure (each responses)

theorem Gives.orFail {found : Except Failure Result}
    (holds : forall value, found = .ok value -> good value past) : Gives past (orFail found) good := by
  cases found with
  | error failure => exact Gives.thrown
  | ok value => exact Gives.pure (holds value rfl)

end Giving

section Listing

variable {library : UrlLibrary} {base repo : Text}

theorem noLink_of_complete {link : Option Text} (complete : getNextTagsPageUrl library base repo link = .complete) :
    link = none := by
  cases link with
  | none => rfl
  | some header =>
      rw [getNextTagsPageUrl] at complete
      repeat' split at complete
      all_goals cases complete

theorem unique_of_nextPage {response : RegistryResponse} {next : NextTagsPage}
    (leads : nextPage library base repo response = next) (usable : forall reason, next ≠ .unusable reason) :
    hasRepeatedHeader response [linkHeader] = false ∧
      getNextTagsPageUrl library base repo (response.headers linkHeader) = next := by
  unfold nextPage at leads
  split at leads
  · exact absurd leads.symm (usable _)
  · rename_i unique
    split at leads
    · exact absurd leads.symm (usable _)
    · exact ⟨Bool.eq_false_iff.mpr unique, leads⟩

/-- What the listing of a repository is good for. -/
def ListedFrom (library : UrlLibrary) (base repo url : Text) (tags : List Text) (result : Option (List Text))
    (after : List RetentionEvent) : Prop :=
  forall all, result = some all ->
    Exists fun listed => all = tags ++ listed ∧ ReadPages parseTagList library base repo after url listed

theorem ListedFrom.nothing {url : Text} {tags : List Text} {after : List RetentionEvent} :
    ListedFrom library base repo url tags none after := fun _ same => nomatch same

variable {past : List RetentionEvent}

theorem skipListing_gives {url reason : Text} {tags : List Text} :
    Gives past (skipListing repo reason) (ListedFrom library base repo url tags) :=
  Gives.after fun _ _ _ => Gives.pure ListedFrom.nothing

theorem listPages_gives (left : Nat) {tags seen : List Text} {url : Text} {found : Option RegistryResponse}
    (answered : forall response, found = some response -> Exists fun id => Answered past (listRequest id url) response) :
    Gives past (listPages library base repo left tags seen found) (ListedFrom library base repo url tags) := by
  induction left using Nat.strong_induction_on generalizing tags seen url found past with
  | _ left ih =>
      cases found with
      | none =>
          unfold listPages
          exact Gives.after fun _ _ _ => Gives.after fun _ _ _ => Gives.pure ListedFrom.nothing
      | some response =>
          rcases answered response rfl with ⟨id, known⟩
          unfold listPages
          refine Gives.after fun _ asked grown => ?_
          split
          · exact Gives.pure ListedFrom.nothing
          · split
            · exact skipListing_gives
            · rename_i ok
              have ok : response.status = 200 := not_not.mp ok
              split
              · exact skipListing_gives
              · rename_i pageTags named
                split
                · rename_i leads
                  have only := unique_of_nextPage leads fun _ same => nomatch same
                  apply Gives.pure
                  intro all same
                  exact ⟨pageTags, (Option.some.inj same).symm,
                    .last (known.grow grown) ok named only.1 (noLink_of_complete only.2)⟩
                · exact skipListing_gives
                · rename_i next leads
                  have only := unique_of_nextPage leads fun _ same => nomatch same
                  split
                  · exact skipListing_gives
                  · split
                    · exact skipListing_gives
                    · rename_i fewer
                      refine Gives.after fun _ timed grownToo => ?_
                      apply Gives.bind (fun responses after => forall response, responses 0 = some response ->
                        Exists fun id => Answered after (listRequest id next) response)
                      · apply Gives.runAll
                        intro responses response given
                        exact ⟨0, _, responses, List.mem_append_right _ List.mem_cons_self, List.mem_cons_self, given⟩
                      · intro responses after grownMore found
                        apply (ih fewer (Nat.lt_succ_self fewer) found).mono
                        intro result last further listed all same
                        rcases listed all same with ⟨later, rfl, pages⟩
                        exact ⟨pageTags ++ later, List.append_assoc _ _ _,
                          .more (known.grow (grown.trans (grownToo.trans (grownMore.trans further)))) ok named only.1
                            only.2 pages⟩

theorem listTags_gives {id : Nat} {found : Option RegistryResponse}
    (answered : forall response, found = some response ->
      Answered past (listRequest id (getTagsListUrl base repo)) response) :
    Gives past (listTags library base repo found) fun result after => forall tags, result = some tags ->
      ReadPages parseTagList library base repo after (getTagsListUrl base repo) tags := by
  unfold listTags
  split
  · exact Gives.thrown
  · apply (listPages_gives _ fun response same => ⟨id, answered response same⟩).mono
    intro result after _ listed tags same
    rcases listed tags same with ⟨all, rfl, pages⟩
    exact pages

end Listing

section Reading

theorem mediaType_of_notNested {manifest : Json} (flat : nestedChildReason manifest = none) :
    Exists fun mediaType => mediaType ∈ IMAGE_MANIFEST_MEDIA_TYPES ∧
      manifest.field mediaTypeKey = some (.string mediaType) := by
  unfold nestedChildReason at flat
  split at flat
  · rename_i mediaType has
    split at flat
    · cases flat
    · split at flat
      · rename_i image
        exact ⟨mediaType, image, has⟩
      · cases flat
  · cases flat

theorem named_of_childDigest {manifest : Json} {digest : Text} (has : childDigest manifest = some digest) :
    manifest.field digestKey = some (.string digest) ∧ isValidDigest digest = true := by
  unfold childDigest at has
  split at has
  · rename_i found named
    split at has
    · rename_i valid
      cases has
      exact ⟨named, valid⟩
    · cases has
  · cases has

theorem images_of_childDigests {manifests : List Json} {children : List Text}
    (flat : manifests.findSome? nestedChildReason = none) (read : childDigests manifests = some children) :
    List.Forall₂ IsImage manifests children := by
  induction manifests generalizing children with
  | nil =>
      cases read
      exact .nil
  | cons manifest rest ih =>
      have each := List.findSome?_eq_none_iff.mp flat
      rw [childDigests] at read
      cases has : childDigest manifest with
      | none => simp [has] at read
      | some digest =>
          simp only [has] at read
          rcases Option.map_eq_some_iff.mp read with ⟨others, readRest, rfl⟩
          have named := named_of_childDigest has
          exact .cons ⟨mediaType_of_notNested (each manifest List.mem_cons_self), named.1, named.2⟩
            (ih (List.findSome?_eq_none_iff.mpr fun other among =>
              each other (List.mem_cons_of_mem _ among)) readRest)

theorem wholeManifest_of_children {response : RegistryResponse} {children : List Text}
    (whole : isBodyTruncated response = false) (read : getManifestChildDigests response.body = some children) :
    WholeManifest response children where
  whole := whole
  readable := by
    unfold getManifestChildDigests at read
    split at read
    · cases read
    · rename_i flat
      split at read
      · rename_i entries parsed
        refine ⟨entries, parsed, ?_⟩
        split at read
        · rename_i absent
          exact Or.inl ⟨absent, (Option.some.inj read).symm⟩
        · rename_i manifests listed
          rw [getNestedIndexReason, parsed] at flat
          simp only [listed] at flat
          exact Or.inr ⟨manifests, listed, images_of_childDigests flat read⟩
        · cases read
      · cases read

variable {required : List Text} {tag : Text} {found : Option RegistryResponse}

/-- What has been answered when a kept tag reads so. -/
def KeptTag.Means (required : List Text) (tag : Text) (found : Option RegistryResponse) : KeptTag -> Prop
  | .unanswered => True
  | .skips _ => True
  | .missing => tag = LATEST_TAG ∧ tag ∉ required ∧
      Exists fun response => found = some response ∧ response.status = 404
  | .protects digest children =>
      Exists fun response => found = some response ∧ Resolves response digest ∧ WholeManifest response children

theorem readKeptTag_means {read : KeptTag} (found_read : readKeptTag required tag found = .ok read) :
    read.Means required tag found := by
  cases found with
  | none =>
      cases found_read
      trivial
  | some response =>
      rw [readKeptTag] at found_read
      cases usable : failIfSystemic response.status "reading manifests".toList with
      | error failure =>
          rw [usable] at found_read
          cases found_read
      | ok _ =>
          rw [usable] at found_read
          change (if hasRepeatedHeader response RELIED_ON_HEADERS = true then _ else _) = _ at found_read
          split at found_read
          · cases found_read
            trivial
          · rename_i unique
            split at found_read
            · rename_i missing
              split at found_read
              · rename_i latest
                cases found_read
                exact ⟨latest.1, latest.2, response, rfl, missing⟩
              · cases found_read
                trivial
            · split at found_read
              · cases found_read
                trivial
              · rename_i own header
                split at found_read
                · cases found_read
                  trivial
                · rename_i ok
                  rcases not_or.mp ok with ⟨status, valid⟩
                  have resolves : Resolves response own :=
                    ⟨not_not.mp status, Bool.eq_false_iff.mpr unique, header, Bool.not_eq_false _ ▸ valid⟩
                  split at found_read
                  · cases found_read
                    trivial
                  · rename_i whole
                    split at found_read
                    · cases found_read
                      trivial
                    · split at found_read
                      · cases found_read
                        trivial
                      · rename_i children readable
                        cases found_read
                        exact ⟨response, rfl, resolves,
                          wholeManifest_of_children (Bool.eq_false_iff.mpr whole) readable⟩

/-- What the answers for the kept tags protect: the digests there were, and those of every tag. -/
structure Protects (required : List Text) (kept : Responses) (tags : List (Text × Nat)) (before after : List Text) :
    Prop where
  more : before ⊆ after
  each : forall entry, entry ∈ tags ->
    entry.1 = LATEST_TAG ∧ entry.1 ∉ required ∧ (Exists fun response => kept entry.2 = some response ∧ response.status = 404) ∨
    Exists fun response => Exists fun digest => Exists fun children =>
      kept entry.2 = some response ∧ Resolves response digest ∧ WholeManifest response children ∧
        digest ∈ after ∧ children ⊆ after

theorem readKept_gives {repo : Text} {kept : Responses} (tags : List (Text × Nat)) {before : List Text}
    {unanswered : Nat} {past : List RetentionEvent} :
    Gives past (readKept repo required kept tags before unanswered) fun result _ => forall after left,
      result = some (after, left) -> unanswered ≤ left ∧ (left = unanswered -> Protects required kept tags before after) := by
  induction tags generalizing before unanswered past with
  | nil =>
      apply Gives.pure
      rintro after left same
      cases same
      exact ⟨Nat.le_refl _, fun _ => ⟨List.Subset.refl _, fun _ none => nomatch none⟩⟩
  | cons entry rest ih =>
      rcases entry with ⟨tag, id⟩
      rw [readKept]
      apply Gives.bind (fun read _ => read.Means required tag (kept id))
      · exact Gives.orFail fun read same => readKeptTag_means same
      · intro read asked _ means
        cases read with
        | unanswered =>
            apply ih.mono
            intro result _ _ reads after left same
            have more := (reads after left same).1
            exact ⟨by omega, fun none => by omega⟩
        | missing =>
            apply ih.mono
            intro result _ _ reads after left same
            rcases reads after left same with ⟨more, protects⟩
            refine ⟨more, fun none => ⟨(protects none).more, ?_⟩⟩
            rintro other (_ | ⟨_, later⟩)
            · exact Or.inl means
            · exact (protects none).each other later
        | protects digest children =>
            rcases means with ⟨response, found, resolves, whole⟩
            apply ih.mono
            intro result _ _ reads after left same
            rcases reads after left same with ⟨more, protects⟩
            refine ⟨more, fun none => ?_⟩
            have all := (protects none).more
            refine ⟨fun _ member => all (List.mem_append_left _ member), ?_⟩
            rintro other (_ | ⟨_, later⟩)
            · exact Or.inr ⟨response, digest, children, found, resolves, whole,
                all (List.mem_append_right _ List.mem_cons_self),
                fun _ member => all (List.mem_append_right _ (List.mem_cons_of_mem _ member))⟩
            · exact (protects none).each other later
        | skips reason =>
            refine Gives.after fun _ _ _ => Gives.pure ?_
            intro after left same
            cases same

theorem readOldTag_doomed {protectedDigests : List Text} {digest : Text}
    (read : readOldTag protectedDigests found = .ok (.doomed digest)) :
    Exists fun response => found = some response ∧ Resolves response digest := by
  cases found with
  | none => cases read
  | some response =>
      rw [readOldTag] at read
      cases usable : failIfSystemic response.status "reading manifests".toList with
      | error failure =>
          rw [usable] at read
          cases read
      | ok _ =>
          rw [usable] at read
          change (if hasRepeatedHeader response RELIED_ON_HEADERS = true then _ else _) = _ at read
          split at read
          · cases read
          · rename_i unique
            split at read
            · cases read
            · split at read
              · cases read
              · rename_i own header
                split at read
                · cases read
                · rename_i ok
                  rcases not_or.mp ok with ⟨status, valid⟩
                  split at read
                  · cases read
                  · cases read
                    exact ⟨response, rfl, not_not.mp status, Bool.eq_false_iff.mpr unique, header,
                      Bool.not_eq_false _ ▸ valid⟩

/-- The digests that old tags were answered with. -/
def FoundIn (heads : Responses) (tags : List (Text × Nat)) (doomed : Text × Text) : Prop :=
  Exists fun id => (doomed.1, id) ∈ tags ∧ Exists fun response => heads id = some response ∧ Resolves response doomed.2

theorem readWave_gives {repo : Text} {protectedDigests queuedKeys : List Text} {heads : Responses}
    (tags : List (Text × Nat)) {before : List (Text × Text)} {past : List RetentionEvent} :
    Gives past (readWave repo protectedDigests queuedKeys heads tags before) fun after _ =>
      forall doomed, doomed ∈ after -> doomed ∈ before ∨ FoundIn heads tags doomed := by
  induction tags generalizing before past with
  | nil => exact Gives.pure fun _ member => Or.inl member
  | cons entry rest ih =>
      rcases entry with ⟨tag, id⟩
      have later : forall {doomed}, FoundIn heads rest doomed -> FoundIn heads ((tag, id) :: rest) doomed :=
        fun ⟨other, among, given⟩ => ⟨other, List.mem_cons_of_mem _ among, given⟩
      rw [readWave]
      apply Gives.bind (fun read _ => forall digest, read = .doomed digest ->
        Exists fun response => heads id = some response ∧ Resolves response digest)
      · exact Gives.orFail fun read same digest is => readOldTag_doomed (is ▸ same)
      · intro read asked _ means
        cases read with
        | left => exact ih.mono fun _ _ _ holds doomed member => (holds doomed member).imp_right later
        | dangles =>
            refine Gives.after fun _ _ _ => Gives.after fun _ _ _ => ?_
            exact ih.mono fun _ _ _ holds doomed member => (holds doomed member).imp_right later
        | shares digest =>
            refine Gives.after fun _ _ _ => ?_
            exact ih.mono fun _ _ _ holds doomed member => (holds doomed member).imp_right later
        | doomed digest =>
            refine Gives.after fun _ _ _ => ?_
            apply ih.mono
            intro after _ _ holds doomed member
            rcases holds doomed member with early | found
            · split at early
              · exact Or.inl early
              · rcases List.mem_append.mp early with earlier | new
                · exact Or.inl earlier
                · rcases List.mem_singleton.mp new with rfl
                  exact Or.inr ⟨id, List.mem_cons_self, means digest rfl⟩
            · exact Or.inr (later found)

end Reading

section Queueing

variable {protectedDigests : List Text}

theorem selectDigestsToDelete_sound (doomedDigests : List (Text × Text)) {selected : SelectedDigests}
    {digest : Text} (member : digest ∈ (doomedDigests.foldl (selectOne protectedDigests) selected).deleteDigests) :
    digest ∈ selected.deleteDigests ∨
      digest ∉ protectedDigests ∧ Exists fun tag => (tag, digest) ∈ doomedDigests := by
  induction doomedDigests generalizing selected with
  | nil => exact Or.inl member
  | cons doomed rest ih =>
      rcases ih member with before | ⟨apart, tag, among⟩
      · unfold selectOne at before
        split at before
        · exact Or.inl before
        · rename_i apart
          simp only at before
          split at before
          · exact Or.inl before
          · rcases List.mem_append.mp before with before | new
            · exact Or.inl before
            · rcases List.mem_singleton.mp new with rfl
              exact Or.inr ⟨apart, doomed.1, List.mem_cons_self⟩
      · exact Or.inr ⟨apart, tag, List.mem_cons_of_mem _ among⟩

theorem mem_entriesOf {repo : Text} {required : List Text} {doomedDigests : List (Text × Text)} {entry : DeleteEntry}
    (member : entry ∈ entriesOf repo required doomedDigests protectedDigests) :
    entry.repo = repo ∧ entry.digest ∉ protectedDigests ∧ Exists fun tag => (tag, entry.digest) ∈ doomedDigests := by
  rcases List.mem_map.mp member with ⟨digest, selected, rfl⟩
  rcases selectDigestsToDelete_sound doomedDigests selected with none | sound
  · exact absurd none List.not_mem_nil
  · exact ⟨rfl, sound⟩

theorem mem_tryQueue {job : Job} {entry other : DeleteEntry} {listedTags : Nat}
    (member : other ∈ (tryQueue job entry listedTags).1.queue) : other ∈ job.queue ∨ other = entry := by
  unfold tryQueue at member
  simp only at member
  split at member
  · exact Or.inl member
  · rcases List.mem_append.mp member with before | new
    · exact Or.inl before
    · exact Or.inr (List.mem_singleton.mp new)

theorem mem_queueAll {listedTags : Nat} (entries : List DeleteEntry) {job : Job} {other : DeleteEntry}
    (member : other ∈ (queueAll listedTags job entries).1.queue) : other ∈ job.queue ∨ other ∈ entries := by
  induction entries generalizing job with
  | nil => exact Or.inl member
  | cons entry rest ih =>
      rw [queueAll] at member
      have one := @mem_tryQueue job entry other listedTags
      generalize tryQueue job entry listedTags = tried at one member
      have queued : other ∈ tried.1.queue -> other ∈ job.queue ∨ other ∈ entry :: rest := by
        intro before
        rcases one before with before | rfl
        · exact Or.inl before
        · exact Or.inr List.mem_cons_self
      rcases tried with ⟨after, _ | _⟩
      · exact queued member
      · rcases ih member with before | later
        · exact queued before
        · exact Or.inr (List.mem_cons_of_mem _ later)

theorem mem_wavesOf (fuel : Nat) {tags wave : List Text} (among : wave ∈ wavesOf fuel tags) : wave ⊆ tags := by
  induction fuel generalizing tags with
  | zero => exact absurd among List.not_mem_nil
  | succ fuel ih =>
      cases tags with
      | nil => exact absurd among List.not_mem_nil
      | cons tag rest =>
          rcases List.mem_cons.mp among with rfl | later
          · exact List.take_subset _ _
          · exact List.Subset.trans (ih later) (List.drop_subset _ _)

theorem mem_zipIdx_fst {tags : List Text} {entry : Text × Nat} (among : entry ∈ tags.zipIdx) : entry.1 ∈ tags := by
  have position := List.mem_zipIdx_iff_getElem?.mp among
  exact List.mem_of_getElem? position

theorem gatherWaves_gives {base repo : Text} {required candidates : List Text} {listedTags : Nat}
    (waves : List (List Text)) (among : forall wave, wave ∈ waves -> wave ⊆ candidates) {job : Job}
    {past : List RetentionEvent} :
    Gives past (gatherWaves base repo required protectedDigests listedTags waves job) fun after events =>
      forall entry, entry ∈ after.queue -> entry ∈ job.queue ∨
        entry.repo = repo ∧ entry.digest ∉ protectedDigests ∧
          Exists fun tag => tag ∈ candidates ∧ Exists fun id => Exists fun response =>
            Answered events (headRequest base repo (tag, id)) response ∧ Resolves response entry.digest := by
  induction waves generalizing job past with
  | nil => exact Gives.pure fun _ member => Or.inl member
  | cons wave waves ih =>
      rw [gatherWaves]
      split
      · exact Gives.pure fun _ member => Or.inl member
      · refine Gives.after fun _ _ _ => ?_
        apply Gives.bind (fun heads events =>
          forall entry, entry ∈ wave.zipIdx -> forall response, heads entry.2 = some response ->
            Answered events (headRequest base repo entry) response)
        · apply Gives.runAll
          intro responses entry member response given
          exact ⟨_, responses, List.mem_append_right _ List.mem_cons_self, List.mem_map_of_mem member, given⟩
        · intro heads asked grown answered
          apply Gives.bind _ (readWave_gives wave.zipIdx)
          intro doomedDigests found further sound
          have entries : forall entry, entry ∈ entriesOf repo required doomedDigests protectedDigests ->
              entry.repo = repo ∧ entry.digest ∉ protectedDigests ∧
                Exists fun tag => tag ∈ candidates ∧ Exists fun id => Exists fun response =>
                  Answered found (headRequest base repo (tag, id)) response ∧ Resolves response entry.digest := by
            intro entry member
            rcases mem_entriesOf member with ⟨same, apart, tag, doomed⟩
            rcases sound _ doomed with none | ⟨id, position, response, given, resolves⟩
            · exact absurd none List.not_mem_nil
            · exact ⟨same, apart, tag, among wave List.mem_cons_self (mem_zipIdx_fst position), id, response,
                (answered _ position response given).grow further, resolves⟩
          simp only
          split
          · apply Gives.pure
            intro entry member
            exact (mem_queueAll _ member).imp_right (entries entry)
          · apply (ih fun other member => among other (List.mem_cons_of_mem _ member)).mono
            intro after last grownMore holds entry member
            rcases holds entry member with queued | later
            · rcases mem_queueAll _ queued with before | new
              · exact Or.inl before
              · rcases entries entry new with ⟨same, apart, tag, candidate, id, response, known, resolves⟩
                exact Or.inr ⟨same, apart, tag, candidate, id, response, known.grow grownMore, resolves⟩
            · exact Or.inr later

end Queueing

section Repositories

variable {input : RunInput}

/-- The digests queued so far are justified, each by a listing of its repository. -/
def AllJustified (input : RunInput) (queue : List DeleteEntry) (events : List RetentionEvent) : Prop :=
  forall entry, entry ∈ queue -> entry.repo ∈ input.repos ∧
    Exists fun tags => Justified parseTagList input events entry.repo entry.digest tags

theorem AllJustified.grow {queue : List DeleteEntry} {events later : List RetentionEvent} (grown : events <+: later)
    (all : AllJustified input queue events) : AllJustified input queue later := by
  intro entry member
  rcases all entry member with ⟨known, tags, justified⟩
  exact ⟨known, tags, justified.grow grown⟩

theorem mem_resolve {repo tag : Text} {tags : List Text} (stays : Kept input repo tags tag ∨ tag = LATEST_TAG) :
    tag ∈ ((planRepoTags tags (input.required repo) input.tagTimes input.keep).keptTags ++ input.required repo ++
      [LATEST_TAG]).eraseDups := by
  rw [List.mem_eraseDups, List.mem_append, List.mem_append, List.mem_singleton]
  rcases stays with (required | ⟨listed, newest⟩) | latest
  · exact Or.inl (Or.inr required)
  · refine Or.inl (Or.inl (mem_keptTags.mpr ⟨listed, fun doomed => ?_⟩))
    have old := mem_doomedTags.mp doomed
    rcases newest with other | first
    · exact absurd old.2.1 (Bool.eq_false_iff.mp other)
    · exact old.2.2.2 first
  · exact Or.inr latest

theorem not_kept_of_doomed {repo tag : Text} {tags : List Text}
    (doomed : tag ∈ (planRepoTags tags (input.required repo) input.tagTimes input.keep).doomedTags) :
    tag ∈ tags ∧ isDplTag tag = true ∧ ¬ Kept input repo tags tag := by
  rcases mem_doomedTags.mp doomed with ⟨listed, dpl, notRequired, old⟩
  refine ⟨listed, dpl, ?_⟩
  rintro (required | ⟨_, other | newest⟩)
  · exact notRequired required
  · exact Bool.eq_false_iff.mp other dpl
  · exact old newest

theorem kept_of_protects {base repo digest : Text} {required resolve : List Text} {kept : Responses}
    {protectedDigests : List Text} {events : List RetentionEvent}
    (answered : forall entry, entry ∈ resolve.zipIdx -> forall response, kept entry.2 = some response ->
      Answered events (keptRequest base repo entry) response)
    (protects : Protects required kept resolve.zipIdx [] protectedDigests) (apart : digest ∉ protectedDigests)
    {tag : Text} (asked : tag ∈ resolve) : Apart base repo events digest tag ∨
      tag = LATEST_TAG ∧ tag ∉ required ∧ LatestMissing base repo events := by
  rcases List.mem_iff_getElem?.mp asked with ⟨id, position⟩
  have among : (tag, id) ∈ resolve.zipIdx := List.mem_zipIdx_iff_getElem?.mpr position
  rcases protects.each (tag, id) among with ⟨rfl, notRequired, response, given, missing⟩ |
    ⟨response, own, children, given, resolves, whole, ownProtected, childrenProtected⟩
  · exact Or.inr ⟨rfl, notRequired, id, response, answered _ among response given, missing⟩
  · exact Or.inl ⟨id, response, own, children, answered _ among response given, resolves, whole,
      fun same => apart (same ▸ ownProtected), fun child => apart (childrenProtected child)⟩

variable {past : List RetentionEvent}

theorem gatherRepo_gives {repo : Text} (known : repo ∈ input.repos) {tags : List Text} {job : Job}
    (listed : ReadPages parseTagList input.library input.base repo past (getTagsListUrl input.base repo) tags)
    (queued : AllJustified input job.queue past) :
    Gives past
      (gatherRepo input.base repo tags (planRepoTags tags (input.required repo) input.tagTimes input.keep).doomedTags
        ((planRepoTags tags (input.required repo) input.tagTimes input.keep).keptTags ++ input.required repo ++
          [LATEST_TAG]).eraseDups (input.required repo) job)
      fun after events => AllJustified input after.queue events := by
  have inTurn := fun tag => @mem_resolve input repo tag tags
  generalize ((planRepoTags tags (input.required repo) input.tagTimes input.keep).keptTags ++ input.required repo ++
    [LATEST_TAG]).eraseDups = resolve at inTurn ⊢
  unfold gatherRepo
  apply Gives.bind (fun kept events =>
    forall entry, entry ∈ resolve.zipIdx -> forall response, kept entry.2 = some response ->
      Answered events (keptRequest input.base repo entry) response)
  · apply Gives.runAll
    intro responses entry member response given
    exact ⟨_, responses, List.mem_append_right _ List.mem_cons_self, List.mem_map_of_mem member, given⟩
  · intro kept asked grown answered
    apply Gives.bind _ (readKept_gives resolve.zipIdx)
    intro read found further reads
    cases read with
    | none => exact Gives.pure (queued.grow (grown.trans further))
    | some result =>
        rcases result with ⟨protectedDigests, unanswered⟩
        simp only
        split
        · refine Gives.after fun _ _ timed => Gives.after fun _ _ logged => Gives.pure ?_
          exact queued.grow (grown.trans (further.trans (timed.trans logged)))
        · rename_i none
          have protects := (reads protectedDigests unanswered rfl).2 (Nat.eq_zero_of_not_pos none)
          refine Gives.after fun memory _ recalled => Gives.after fun _ _ forgot => Gives.after fun now start asked => ?_
          have since : found <+: start := recalled.trans (forgot.trans asked)
          apply (gatherWaves_gives _ fun wave => mem_wavesOf _).mono
          intro after last later holds entry member
          rcases holds entry member with before | ⟨rfl, apart, tag, candidate, id, response, head, resolves⟩
          · exact queued.grow (grown.trans (further.trans (since.trans later))) entry before
          · refine ⟨known, tags, listed.grow (grown.trans (further.trans (since.trans later))), ?_, ?_⟩
            · rcases not_kept_of_doomed (List.mem_filter.mp candidate).1 with ⟨old, dpl, notKept⟩
              exact ⟨tag, old, dpl, notKept, id, response, head, resolves⟩
            · intro other stays
              apply kept_of_protects _ protects apart (inTurn other stays)
              exact fun entry among response given =>
                (answered entry among response given).grow (further.trans (since.trans later))

theorem pruneRepo_gives {firstPages : Responses} {repo : Text} (known : repo ∈ input.repos) {job : Job}
    (answered : forall response, firstPages (input.repos.idxOf repo) = some response ->
      Answered past (listRequest (input.repos.idxOf repo) (getTagsListUrl input.base repo)) response)
    (queued : AllJustified input job.queue past) :
    Gives past (pruneRepo input firstPages repo job) fun after events => AllJustified input after.queue events := by
  unfold pruneRepo
  refine Gives.after fun _ timed grown => ?_
  apply Gives.bind _ (listTags_gives fun response given => (answered response given).grow grown)
  intro tags found further listed
  cases tags with
  | none => exact Gives.pure (queued.grow (grown.trans further))
  | some tags =>
      simp only
      split
      · exact Gives.pure (queued.grow (grown.trans further))
      · exact gatherRepo_gives known (listed tags rfl) (queued.grow (grown.trans further))

theorem gatherRepos_gives {firstPages : Responses} (repos : List Text) (known : repos ⊆ input.repos) {gathered : Gathered}
    (answered : forall repo, repo ∈ input.repos -> forall response, firstPages (input.repos.idxOf repo) = some response ->
      Answered past (listRequest (input.repos.idxOf repo) (getTagsListUrl input.base repo)) response)
    (queued : AllJustified input gathered.job.queue past) :
    Gives past (gatherRepos input firstPages repos gathered) fun after events =>
      AllJustified input after.job.queue events := by
  induction repos generalizing gathered past with
  | nil => exact Gives.pure queued
  | cons repo repos ih =>
      rw [gatherRepos]
      split
      · exact Gives.pure queued
      · have isKnown := known List.mem_cons_self
        apply Gives.bind _ (pruneRepo_gives isKnown (answered repo isKnown) queued).attempt
        intro result after grown justified
        cases result with
        | ok job =>
            apply ih (List.Subset.trans (List.subset_cons_self _ _) known)
            · exact fun other among response given => (answered other among response given).grow grown
            · exact justified job rfl
        | error failure =>
            cases failure with
            | aborted message => exact Gives.thrown
            | budgetSpent =>
                refine Gives.after fun cancelled _ asked => ?_
                split
                · exact Gives.thrown
                · exact Gives.pure (queued.grow (grown.trans asked))

theorem ordered_subset : input.ordered ⊆ input.repos := by
  intro repo member
  rcases List.mem_append.mp member with late | early
  · exact List.mem_of_mem_drop late
  · exact List.mem_of_mem_take early

theorem listRequest_asked {repo : Text} (known : repo ∈ input.repos) :
    listRequest (input.repos.idxOf repo) (getTagsListUrl input.base repo) ∈
      input.repos.zipIdx.map fun repo => listRequest repo.2 (getTagsListUrl input.base repo.1) := by
  apply List.mem_map.mpr
  refine ⟨(repo, input.repos.idxOf repo), List.mem_zipIdx_iff_getElem?.mpr ?_, rfl⟩
  exact List.getElem?_idxOf known

theorem gatherAll_gives : Gives [] (gatherAll input) fun after events => AllJustified input after.job.queue events := by
  unfold gatherAll
  apply Gives.bind (fun firstPages events => forall repo, repo ∈ input.repos -> forall response,
    firstPages (input.repos.idxOf repo) = some response ->
      Answered events (listRequest (input.repos.idxOf repo) (getTagsListUrl input.base repo)) response)
  · apply Gives.runAll
    intro responses repo known response given
    exact ⟨_, responses, List.mem_append_right _ List.mem_cons_self, listRequest_asked known, given⟩
  · intro firstPages after _ answered
    exact gatherRepos_gives input.ordered ordered_subset answered fun _ none => nomatch none

end Repositories

/-- Whatever the registry answers, every digest that a run queues is of a repository whose
listing was read to its end, was answered for an old tag of it, and is neither the digest nor a
child of any tag that stays, all of which were answered with whole manifests. -/
theorem queued_justified (input : RunInput) (events : List RetentionEvent) (gathered : Gathered)
    (runs : anyWorld.Runs () (gatherAll input) events () (.done gathered)) (entry : DeleteEntry)
    (queued : entry ∈ gathered.job.queue) : entry.repo ∈ input.repos ∧
      Exists fun tags => Justified parseTagList input events entry.repo entry.digest tags := by
  have gives : Gives [] (gatherAll input) fun after events => AllJustified input after.job.queue events := gatherAll_gives
  rcases gives.of_done runs with ⟨_, _, _, justified⟩
  exact justified gathered rfl entry queued

section Registry

/-!
A registry with one repository, whose listing has one page with six dpl- tags and a
name that is not a tag.  Every tag but the oldest is answered with one digest.
-/

def exampleRepo : Text := "app".toList

def exampleBase : Text := "https://registry".toList

def exampleListing : Text := getTagsListUrl exampleBase exampleRepo

def exampleLibrary : UrlLibrary where
  newURL := fun target base =>
    if target = exampleListing ∧ base = none then
      some { origin := exampleBase, username := [], password := [], pathname := v2Path exampleRepo, href := target
             withoutHash := target }
    else none
  decodeURIComponent := some

def exampleDigest (char : Char) : Text := digestPrefix ++ List.replicate 64 char

def noName : Text := "not a tag".toList

def exampleNames : Text :=
  "\x7b\"tags\":[\"not a tag\",\"dpl-a\",\"dpl-b\",\"dpl-c\",\"dpl-d\",\"dpl-e\",\"dpl-f\"]\x7d".toList

def exampleManifest (digest : Text) : RegistryResponse where
  status := 200
  headers := fun name => if name = contentDigest then some digest else none
  repeatedHeaders := []
  body := "\x7b\x7d".toList

def exampleResponse (request : RegistryRequest) : RegistryResponse :=
  if request.url = exampleListing then
    { status := 200, headers := fun _ => none, repeatedHeaders := [], body := exampleNames }
  else if request.method = .HEAD then exampleManifest (exampleDigest '1')
  else exampleManifest (exampleDigest '0')

def exampleAnswers : forall op, Answer op
  | .runAll requests => .ok fun id => (requests.find? fun request => request.id = id).map exampleResponse
  | .outOfTime => false
  | .cancelled => false
  | .now => (0 : Int)
  | .recall _ => { dangling := fun _ => none, shared := fun _ => none }
  | .memorize _ _ => ()
  | .log _ => ()

def exampleInput : RunInput where
  library := exampleLibrary
  base := exampleBase
  protectedByRepo := [(exampleRepo, ["dpl-f".toList])]
  tagTimes := fun _ => none
  keep := BUILD_REGISTRY_KEEP_DPL_TAGS
  resumeAt := none

def exampleRun : List RetentionEvent × Except Failure Gathered :=
  Program.answeredBy () exampleAnswers (gatherAll exampleInput)

def queuedBy : Except Failure Gathered -> List (Text × Text)
  | .ok gathered => gathered.job.queue.map fun entry => (entry.repo, entry.digest)
  | .error _ => []

theorem exampleRun_queues : Exists fun gathered : Gathered =>
    anyWorld.Runs () (gatherAll exampleInput) exampleRun.1 () (.done gathered) ∧
      Exists fun entry => entry ∈ gathered.job.queue ∧ entry.repo = exampleRepo ∧ entry.digest = exampleDigest '1' := by
  have queued : (exampleRepo, exampleDigest '1') ∈ queuedBy exampleRun.2 := by decide +kernel
  cases ended : exampleRun.2 with
  | error failure =>
      rw [ended] at queued
      exact absurd queued List.not_mem_nil
  | ok gathered =>
      rw [ended] at queued
      rcases List.mem_map.mp queued with ⟨entry, member, same⟩
      refine ⟨gathered, World.Runs.of_answers (fun _ => trivial) (gatherAll exampleInput) ended, entry, member, ?_⟩
      exact ⟨congrArg Prod.fst same, congrArg Prod.snd same⟩

/-- What a batch was answered: URLs and bodies. -/
def bodiesOf : RetentionEvent -> List (Text × Text)
  | ⟨_, .runAll requests, .ok responses, _⟩ =>
      requests.filterMap fun request => (responses request.id).map fun response => (request.url, response.body)
  | _ => []

theorem mem_bodies_of_answered {events : List RetentionEvent} {request : RegistryRequest} {response : RegistryResponse}
    (answered : Answered events request response) : (request.url, response.body) ∈ events.flatMap bodiesOf := by
  rcases answered with ⟨requests, responses, member, asked, given⟩
  apply List.mem_flatMap.mpr
  refine ⟨_, member, List.mem_filterMap.mpr ⟨request, asked, ?_⟩⟩
  rw [given, Option.map_some]

theorem ReadPages.first {names : Text -> Option (List Text)} {library : UrlLibrary} {base repo url : Text}
    {events : List RetentionEvent} {tags : List Text} (pages : ReadPages names library base repo events url tags) :
    Exists fun body => Exists fun listed => (url, body) ∈ events.flatMap bodiesOf ∧ names body = some listed ∧
      listed ⊆ tags := by
  cases pages with
  | last answered _ listed _ _ => exact ⟨_, tags, mem_bodies_of_answered answered, listed, List.Subset.refl _⟩
  | more answered _ listed _ _ _ => exact ⟨_, _, mem_bodies_of_answered answered, listed, List.subset_append_left _ _⟩

end Registry

/-- The run of the example is justified. -/
theorem exampleRun_justified : Exists fun gathered : Gathered =>
    anyWorld.Runs () (gatherAll exampleInput) exampleRun.1 () (.done gathered) ∧
      Exists fun entry => entry ∈ gathered.job.queue ∧ entry.repo ∈ exampleInput.repos ∧
        Exists fun tags => Justified parseTagList exampleInput exampleRun.1 entry.repo entry.digest tags := by
  rcases exampleRun_queues with ⟨gathered, runs, entry, member, _⟩
  exact ⟨gathered, runs, entry, member, queued_justified exampleInput exampleRun.1 gathered runs entry member⟩

/-- A listed name that is not a tag is not asked for, although it is not a dpl- tag. -/
theorem listed_name_unasked : ¬ forall (input : RunInput) (events : List RetentionEvent) (gathered : Gathered),
    anyWorld.Runs () (gatherAll input) events () (.done gathered) -> forall entry, entry ∈ gathered.job.queue ->
      entry.repo ∈ input.repos ∧
        Exists fun tags => Justified listedNames input events entry.repo entry.digest tags := by
  intro claim
  rcases exampleRun_queues with ⟨gathered, runs, entry, member, repo, _⟩
  rcases claim exampleInput exampleRun.1 gathered runs entry member with ⟨_, tags, justified⟩
  rw [repo] at justified
  rcases justified.listed.first with ⟨body, listed, answered, names, all⟩
  have listsIt : forall known, known ∈ exampleRun.1.flatMap bodiesOf -> known.1 = exampleListing ->
      (listedNames known.2).map (·.contains noName) = some true := by decide +kernel
  have contains := listsIt _ answered rfl
  rw [names, Option.map_some, Option.some_inj, List.contains_iff_mem] at contains
  have stays : Kept exampleInput exampleRepo tags noName := Or.inr ⟨all contains, Or.inl (by decide +kernel)⟩
  have unasked : forall known, known ∈ exampleRun.1.flatMap bodiesOf ->
      known.1 ≠ getManifestUrl exampleBase exampleRepo noName := by decide +kernel
  rcases justified.kept noName (Or.inl stays) with ⟨id, response, own, children, known, _⟩ | ⟨latest, _⟩
  · exact unasked _ (mem_bodies_of_answered known) rfl
  · exact absurd latest (by decide +kernel)

end RegistryRetention
end Dokploy
