import Dokploy.BackupRetention.Names
import Dokploy.Foundation.Unicode

namespace Dokploy
namespace BuildPolicy

open Foundation.Unicode (utf16)
open RegistryRetention (Text trim)
open BackupRetention (trimTrailingSlashes)

/-!
# The paths a unit watches when it was given none

They are derived from where the unit builds: its build path, the directory of its
Dockerfile, its Docker context, or the directory of its compose file.  The derivation
cleans these settings as texts, while the build joins them to the checkout.  Whether a
changed file matches is left to micromatch, of which only documented rules are used.
-/

inductive SourceType where
  | github | docker | git | gitlab | bitbucket | gitea | drop | raw
deriving DecidableEq

inductive UnitType where
  | application | compose
deriving DecidableEq

structure WatchPathsInput where
  unitType : UnitType
  sourceType : Option SourceType := none
  buildPath : Option Text := none
  gitlabBuildPath : Option Text := none
  bitbucketBuildPath : Option Text := none
  giteaBuildPath : Option Text := none
  dropBuildPath : Option Text := none
  customGitBuildPath : Option Text := none
  dockerfile : Option Text := none
  dockerContextPath : Option Text := none
  composePath : Option Text := none

variable (input : WatchPathsInput)

def buildPathForSource : Option Text :=
  match input.sourceType with
  | some .github | none => input.buildPath
  | some .gitlab => input.gitlabBuildPath
  | some .bitbucket => input.bitbucketBuildPath
  | some .gitea => input.giteaBuildPath
  | some .drop => input.dropBuildPath
  | some .git => input.customGitBuildPath
  | some .docker | some .raw => none

def ROOT : Text := ['*', '*']

/-- replace(/^\.\//, "") -/
def dropDotSlash : Text -> Text
  | '.' :: '/' :: rest => rest
  | text => text

def normalizeDir : Option Text -> Option Text
  | none => none
  | some value =>
      if trim value = [] then none
      else
        let cleaned := trimTrailingSlashes ((dropDotSlash ((trim value).map fun char =>
          if char = '\\' then '/' else char)).dropWhile (· = '/'))
        some (if cleaned = ['.'] then [] else cleaned)

def dirnameOf (filePath : Option Text) : Option Text :=
  (normalizeDir filePath).map fun normalized =>
    if '/' ∈ normalized then (normalized.rdropWhile (· ≠ '/')).dropLast else []

def joinDirs (base child : Text) : Text :=
  if base = [] then child else if child = [] then base else base ++ '/' :: child

/-- Drop any directory already covered by a shallower one. -/
def dropContained (dirs : List Text) : List Text :=
  dirs.filter fun dir => !dirs.any fun other => other ≠ dir && (other ++ ['/']).isPrefixOf dir

def candidates : List (Option Text) :=
  match input.unitType with
  | .compose => [dirnameOf input.composePath]
  | .application =>
      let buildPath := (normalizeDir (buildPathForSource input)).getD []
      [some buildPath, (dirnameOf input.dockerfile).map (joinDirs buildPath), normalizeDir input.dockerContextPath]

def watchPathsOf (dirs : List Text) : List Text :=
  if dirs = [] ∨ [] ∈ dirs then [ROOT]
  else ((dropContained dirs.eraseDups).mergeSort fun first second => utf16 first ≤ utf16 second).map (· ++ '/' :: ROOT)

def deriveDefaultWatchPaths : List Text := watchPathsOf ((candidates input).filterMap id)

def shouldDeploy (micromatch : List Text -> List Text -> List Text) (watchPaths : Option (List Text))
    (modifiedFiles : Option (List (Option Text))) : Bool :=
  match watchPaths with
  | none | some [] => true
  | some watchPaths => 0 < (micromatch ((modifiedFiles.getD []).filterMap id) watchPaths).length

/-- path.join, where the directory is absolute and given by its segments. -/
def joinPath (directory : List Text) (value : Text) : List Text :=
  (value.splitOn '/').foldl (fun path name =>
    if name = [] ∨ name = ['.'] then path else if name = ['.', '.'] then path.dropLast else path ++ [name]) directory

/-- [\u0000-\u001f\u007f] -/
def isControl (char : Char) : Bool := char.toNat ≤ 0x1F || char.toNat == 0x7F

/-- The joined path, given below the checkout, when it is inside. -/
def joinInsideCodeDirectory (codeDirectory directory : List Text) (value : Text) : Option (List Text) :=
  if value.any isControl || value.contains '\\' then none
  else if codeDirectory.isPrefixOf (joinPath directory value) then some (joinPath directory value)
  else none

/-- getStoredComposePathError finds nothing. -/
def isComposePath (composePath : Text) : Bool :=
  trim composePath ≠ [] && (utf16 composePath).length ≤ 4096 && !composePath.any isControl &&
    !composePath.any ("`$;&|<>()'\"\\".toList.contains ·) && !(['/', '~'].contains (composePath.headD ' ')) &&
    !(composePath.splitOn '/').contains ['.', '.']

/-- A setting that is there and not empty. -/
def setting (value : Option Text) : Option Text := value.filter (· ≠ [])

variable (codeDirectory : List Text)

def below (path : List Text) : List Text := path.drop codeDirectory.length

/-- The directories a build uses for the settings that are set; nothing when the deploy refuses one of them. -/
def usedDirectories (dockerfileBuild : Bool) : Option (List (List Text)) :=
  match input.unitType, input.sourceType with
  | .application, none => none
  | .application, some _ => do
      let set := setting (buildPathForSource input)
      let build <- joinInsideCodeDirectory codeDirectory codeDirectory (set.getD [])
      let builds := if set.isSome then [below codeDirectory build] else []
      if dockerfileBuild then
        let dockerfile <- (setting input.dockerfile).mapM (joinInsideCodeDirectory codeDirectory build)
        let context <- (setting input.dockerContextPath).mapM (joinInsideCodeDirectory codeDirectory codeDirectory)
        some (builds ++ (dockerfile.map fun path => below codeDirectory path.dropLast).toList ++
          (context.map (below codeDirectory)).toList)
      else some builds
  | .compose, some .raw => some []
  | .compose, _ =>
      match input.composePath with
      | some composePath =>
          if isComposePath composePath then some [below codeDirectory (joinPath codeDirectory composePath).dropLast] else none
      | none => none

def isDotted (name : Text) : Bool := name.head? == some '.'

def joined : List Text -> Text
  | [] => []
  | [name] => name
  | name :: rest => name ++ '/' :: joined rest

/-- A segment of the path of a file. -/
structure IsName (name : Text) : Prop where
  nonempty : name ≠ []
  whole : '/' ∉ name
  notHere : name ≠ ['.']
  notParent : name ≠ ['.', '.']

abbrev AreNames (names : List Text) : Prop := forall name, name ∈ names -> IsName name

/-- A segment in which no character means anything to a glob or to the path functions. -/
structure IsPlain (name : Text) : Prop extends IsName name where
  literal : name.any "\\*?[]()\x7b\x7d!|\"".toList.contains = false

abbrev ArePlain (names : List Text) : Prop := forall name, name ∈ names -> IsPlain name

/-- A pattern that is not negated matches by itself, a double star matches segments that do not begin with a dot, and
other characters match themselves. -/
structure FollowsGlobRules (micromatch : List Text -> List Text -> List Text) (globs : Text -> Text -> Prop) : Prop where
  keeps : forall files patterns, (forall pattern, pattern ∈ patterns -> pattern.head? ≠ some '!') -> forall file,
    file ∈ micromatch files patterns <-> file ∈ files ∧ Exists fun pattern => pattern ∈ patterns ∧ globs pattern file
  everywhere : forall names, names ≠ [] -> AreNames names ->
    (globs ROOT (joined names) <-> forall name, name ∈ names -> isDotted name = false)
  inside : forall dir names, dir ≠ [] -> ArePlain dir -> names ≠ [] ->
    AreNames names ->
    (globs (joined dir ++ '/' :: ROOT) (joined (dir ++ names)) <-> forall name, name ∈ names -> isDotted name = false)
  outside : forall dir names, dir ≠ [] -> ArePlain dir -> names ≠ [] ->
    AreNames names -> ¬ dir <+: names -> ¬ globs (joined dir ++ '/' :: ROOT) (joined names)

def slashes (count : Nat) : Text := List.replicate count '/'

/-- Slashes or one ./ before plain segments, slashes behind them, and no blanks around. -/
structure Spells (text : Text) (names : List Text) : Prop where
  plain : ArePlain names
  trimmed : trim text = text
  spelled : (text = ['.'] ∧ names = []) ∨ Exists fun lead => Exists fun trail =>
    text = slashes lead ++ (joined names ++ slashes trail) ∨ text = '.' :: slashes (lead + 1) ++ (joined names ++ slashes trail)

inductive Reads : Option Text -> Option (List Text) -> Prop
  | unset {value : Option Text} (isUnset : setting value = none) : Reads value none
  | set {text : Text} {names : List Text} (nonempty : text ≠ []) (spells : Spells text names) : Reads (some text) (some names)

/-- The directories that the settings name.  An application without a build path builds from the top. -/
inductive Names (input : WatchPathsInput) : List (List Text) -> Prop
  | application {build dockerfile context : Option (List Text)} (isApplication : input.unitType = .application)
      (builds : Reads (buildPathForSource input) build) (files : Reads input.dockerfile dockerfile) (isFile : dockerfile ≠ some [])
      (contexts : Reads input.dockerContextPath context) :
      Names input (build.getD [] :: ((dockerfile.map fun names => build.getD [] ++ names.dropLast).toList ++ context.toList))
  | compose {text : Text} {names : List Text} (isCompose : input.unitType = .compose) (isSet : input.composePath = some text)
      (nonempty : text ≠ []) (spells : Spells text names) (isFile : names ≠ []) : Names input [names.dropLast]

/-- Below every directory that holds the file, no segment of its path begins with a dot. -/
def Undotted (dirs : List (List Text)) (file : List Text) : Prop :=
  forall dir, dir ∈ dirs -> dir <+: file -> forall name, name ∈ file.drop dir.length -> isDotted name = false

theorem joined_cons {name : Text} {rest : List Text} (more : rest ≠ []) : joined (name :: rest) = name ++ '/' :: joined rest := by
  cases rest with
  | nil => exact absurd rfl more
  | cons other rest => rfl

theorem joined_append {first second : List Text} (some : first ≠ []) (more : second ≠ []) :
    joined (first ++ second) = joined first ++ '/' :: joined second := by
  induction first with
  | nil => exact absurd rfl some
  | cons name rest ih =>
      cases rest with
      | nil => rw [List.singleton_append, joined_cons more]; rfl
      | cons other rest =>
          rw [List.cons_append, joined_cons (List.append_ne_nil_of_right_ne_nil _ more), joined_cons (List.cons_ne_nil _ _),
            ih (List.cons_ne_nil _ _), List.append_assoc, List.cons_append]

theorem splitOn_joined {names : List Text} (some : names ≠ []) (whole : forall name, name ∈ names -> '/' ∉ name) :
    (joined names).splitOn '/' = names := by
  induction names with
  | nil => exact absurd rfl some
  | cons name rest ih =>
      have first := List.splitOn_eq_singleton (whole name List.mem_cons_self)
      cases rest with
      | nil => exact first
      | cons other rest =>
          rw [joined_cons (List.cons_ne_nil _ _), List.splitOn_append_cons_self, first,
            ih (List.cons_ne_nil _ _) fun name among => whole name (List.mem_cons_of_mem _ among)]
          rfl

theorem splitOn_trail {name : Text} {others : List Text} (areNames : AreNames (name :: others)) (count : Nat) :
    Exists fun more => (joined (name :: others) ++ slashes count).splitOn '/' = name :: more := by
  have split := splitOn_joined (List.cons_ne_nil name others) fun name among => (areNames name among).whole
  cases count with
  | zero => exact ⟨others, by rw [show slashes 0 = [] from rfl, List.append_nil, split]⟩
  | succ count => exact ⟨_, by rw [show slashes (count + 1) = '/' :: slashes count from rfl, List.splitOn_append_cons_self, split]; rfl⟩

theorem joined_ne_nil {names : List Text} (some : names ≠ []) (nonempty : forall name, name ∈ names -> name ≠ []) : joined names ≠ [] := by
  cases names with
  | nil => exact absurd rfl some
  | cons name rest =>
      cases rest with
      | nil => exact nonempty name List.mem_cons_self
      | cons other rest => exact List.append_ne_nil_of_right_ne_nil _ (List.cons_ne_nil _ _)

/-- A directory covers another one as a text when it does so by its segments. -/
theorem covers_iff {other dir : List Text} (someOther : other ≠ []) (some : dir ≠ []) (wholeOther : forall name, name ∈ other -> '/' ∉ name)
    (whole : forall name, name ∈ dir -> '/' ∉ name) : (joined other ++ ['/']) <+: joined dir <-> other <+: dir ∧ other ≠ dir := by
  constructor
  · rintro ⟨rest, same⟩
    have split := congrArg (List.splitOn '/') same
    rw [List.append_assoc, List.singleton_append, List.splitOn_append_cons_self, splitOn_joined someOther wholeOther,
      splitOn_joined some whole] at split
    refine ⟨⟨_, split⟩, fun equal => ?_⟩
    rw [equal] at split
    exact List.splitOn_ne_nil '/' rest (List.append_right_eq_self.mp split)
  · rintro ⟨⟨more, rfl⟩, differs⟩
    have someMore : more ≠ [] := by
      rintro rfl
      exact differs (List.append_nil _).symm
    exact ⟨joined more, by rw [joined_append someOther someMore, List.append_assoc, List.singleton_append]⟩

theorem joined_begins {names : List Text} (some : names ≠ []) (areNames : AreNames names) :
    Exists fun char => Exists fun rest => joined names = char :: rest ∧ Exists fun name => name ∈ names ∧ char ∈ name := by
  cases names with
  | nil => exact absurd rfl some
  | cons name others =>
      rcases List.exists_cons_of_ne_nil (areNames name List.mem_cons_self).nonempty with ⟨char, rest, isName⟩
      have among : Exists fun found => found ∈ name :: others ∧ char ∈ found := ⟨name, List.mem_cons_self, isName ▸ List.mem_cons_self⟩
      cases others with
      | nil => exact ⟨char, rest, isName, among⟩
      | cons other others => exact ⟨char, rest ++ '/' :: joined (other :: others), by rw [joined_cons (List.cons_ne_nil _ _), isName]; rfl, among⟩

theorem mem_joined {names : List Text} {char : Char} (among : char ∈ joined names) : char = '/' ∨ Exists fun name => name ∈ names ∧ char ∈ name := by
  induction names with
  | nil => cases among
  | cons name rest ih =>
      cases rest with
      | nil => exact Or.inr ⟨name, List.mem_cons_self, among⟩
      | cons other rest =>
          rw [joined_cons (List.cons_ne_nil _ _), List.mem_append, List.mem_cons] at among
          rcases among with first | isSlash | later
          · exact Or.inr ⟨name, List.mem_cons_self, first⟩
          · exact Or.inl isSlash
          · exact (ih later).imp_right fun ⟨found, isFound, within⟩ => ⟨found, List.mem_cons_of_mem _ isFound, within⟩

theorem joined_snoc {front : List Text} (some : front ≠ []) (name : Text) : joined (front ++ [name]) = joined front ++ '/' :: name :=
  joined_append some (List.cons_ne_nil _ _)

theorem trimTrailingSlashes_slashes (text : Text) (count : Nat) : trimTrailingSlashes (text ++ slashes count) = trimTrailingSlashes text := by
  induction count with
  | zero => rw [slashes, List.replicate_zero, List.append_nil]
  | succ count ih =>
      rw [slashes, List.replicate_succ', ← List.append_assoc, trimTrailingSlashes, List.rdropWhile_concat_pos _ _ _ (by decide)]
      exact ih

theorem trimTrailingSlashes_joined {names : List Text} (areNames : AreNames names) :
    trimTrailingSlashes (joined names) = joined names := by
  rcases List.eq_nil_or_concat names with rfl | ⟨front, last, rfl⟩
  · rfl
  · rw [List.concat_eq_append] at areNames ⊢
    have isName := areNames last (by simp)
    rcases (List.eq_nil_or_concat last).resolve_left isName.nonempty with ⟨start, char, isLast⟩
    have notSlash : char ≠ '/' := fun same => isName.whole (by rw [isLast, same]; simp)
    have ended : Exists fun text => joined (front ++ [last]) = text ++ [char] := by
      cases front with
      | nil => exact ⟨start, isLast.trans List.concat_eq_append⟩
      | cons first rest =>
          exact ⟨joined (first :: rest) ++ '/' :: start, by
            rw [joined_snoc (List.cons_ne_nil _ _), isLast, List.concat_eq_append, List.append_assoc, List.cons_append]⟩
    rcases ended with ⟨text, isText⟩
    rw [isText, trimTrailingSlashes, List.rdropWhile_concat_neg _ _ _ (by simpa using notSlash)]

theorem cleaned_joined {names : List Text} (areNames : AreNames names) (lead trail : Nat) :
    trimTrailingSlashes ((slashes lead ++ (joined names ++ slashes trail)).dropWhile (· = '/')) = joined names := by
  have isSlash : forall count char, char ∈ slashes count -> decide (char = '/') = true :=
    fun _ _ among => decide_eq_true (List.eq_of_mem_replicate among)
  rw [List.dropWhile_append_of_pos (isSlash lead)]
  by_cases some : names = []
  · rw [some, show joined [] = [] from rfl, List.nil_append, ← List.append_nil (slashes trail), List.dropWhile_append_of_pos (isSlash trail)]
    rfl
  · rcases joined_begins some areNames with ⟨char, rest, begins, name, isName, within⟩
    have notSlash : ¬ decide (char = '/') = true := fun same => (areNames name isName).whole (of_decide_eq_true same ▸ within)
    rw [begins, List.cons_append, List.dropWhile_cons, if_neg notSlash, ← List.cons_append, ← begins, trimTrailingSlashes_slashes,
      trimTrailingSlashes_joined areNames]

section Setting

variable {text : Text} {names : List Text} (spells : Spells text names)

include spells

theorem Spells.areNames : AreNames names := fun name among => (spells.plain name among).toIsName

theorem Spells.backslash_free : (text.map fun char => if char = '\\' then '/' else char) = text := by
  have inNames : forall char, char ∈ joined names -> char ≠ '\\' := by
    rintro char among rfl
    rcases mem_joined among with isSlash | ⟨name, isName, within⟩
    · cases isSlash
    · exact List.any_eq_false.mp (spells.plain name isName).literal _ within (by decide)
  have free : forall char, char ∈ text -> char ≠ '\\' := by
    have inSlashes : forall count, '\\' ∉ slashes count := fun count among => by cases List.eq_of_mem_replicate among
    rintro char among rfl
    rcases spells.spelled with ⟨rfl, _⟩ | ⟨lead, trail, rfl | rfl⟩
    · cases List.mem_singleton.mp among
    · simp only [List.mem_append] at among
      rcases among with front | inside | behind
      · exact inSlashes _ front
      · exact inNames _ inside rfl
      · exact inSlashes _ behind
    · simp only [List.cons_append, List.mem_cons, List.mem_append] at among
      rcases among with isDot | front | inside | behind
      · cases isDot
      · exact inSlashes _ front
      · exact inNames _ inside rfl
      · exact inSlashes _ behind
  calc
    (text.map fun char => if char = '\\' then '/' else char) = text.map id := List.map_congr_left fun char among => if_neg (free char among)
    _ = text := List.map_id text

theorem normalizeDir_spells (nonempty : text ≠ []) : normalizeDir (some text) = some (joined names) := by
  have areNames := spells.areNames
  have notDot : joined names ≠ ['.'] := by
    intro same
    have some : names ≠ [] := by
      rintro rfl
      cases same
    have split := splitOn_joined some fun name among => (areNames name among).whole
    rw [same, List.splitOn_eq_singleton (by decide)] at split
    exact (areNames ['.'] (split ▸ List.mem_cons_self)).notHere rfl
  rw [normalizeDir]
  simp only [spells.trimmed, if_neg nonempty, spells.backslash_free]
  rcases spells.spelled with ⟨rfl, rfl⟩ | ⟨lead, trail, isText | isText⟩
  · rfl
  · have unchanged : dropDotSlash text = text := by
      unfold dropDotSlash
      split
      · rename_i rest
        have first : ('.' :: '/' :: rest : Text).splitOn '/' = ['.'] :: rest.splitOn '/' := List.splitOn_append_cons_self ['.'] rest
        cases lead with
        | succ lead => cases isText
        | zero =>
            cases names with
            | nil => cases trail <;> cases isText
            | cons name others =>
                rcases splitOn_trail areNames trail with ⟨more, split⟩
                rw [isText, show slashes 0 = [] from rfl, List.nil_append, split] at first
                exact absurd (List.cons.inj first).1 (areNames name List.mem_cons_self).notHere
      · rfl
    rw [unchanged, isText, cleaned_joined areNames, if_neg notDot]
  · rw [isText, show dropDotSlash ('.' :: slashes (lead + 1) ++ (joined names ++ slashes trail)) =
      slashes lead ++ (joined names ++ slashes trail) from rfl, cleaned_joined areNames, if_neg notDot]

theorem dirnameOf_spells (nonempty : text ≠ []) (isFile : names ≠ []) : dirnameOf (some text) = some (joined names.dropLast) := by
  rw [dirnameOf, normalizeDir_spells spells nonempty, Option.map_some]
  rcases (List.eq_nil_or_concat names).resolve_left isFile with ⟨front, last, isConcat⟩
  rw [List.concat_eq_append] at isConcat
  have whole : '/' ∉ last := (spells.areNames last (by rw [isConcat]; simp)).whole
  rw [isConcat, List.dropLast_concat]
  cases front with
  | nil => rw [List.nil_append, show joined [last] = last from rfl, if_neg whole]; rfl
  | cons first rest =>
      have passed : forall char, char ∈ last.reverse -> decide (char ≠ '/') = true :=
        fun char among => decide_eq_true fun same => whole (same ▸ List.mem_reverse.mp among)
      rw [joined_snoc (List.cons_ne_nil _ _), if_pos (List.mem_append_right _ List.mem_cons_self), List.rdropWhile, List.reverse_append,
        List.reverse_cons, List.append_assoc, List.dropWhile_append_of_pos passed, List.singleton_append,
        List.dropWhile_cons_of_neg (by decide), List.reverse_cons, List.reverse_reverse, List.dropLast_concat]

end Setting

theorem joinDirs_joined {base child : List Text} (areNames : AreNames (base ++ child)) :
    joinDirs (joined base) (joined child) = joined (base ++ child) := by
  have nonempty (name : Text) (among : name ∈ base ++ child) := (areNames name among).nonempty
  by_cases isTop : base = []
  · rw [isTop, joinDirs, if_pos (show joined [] = [] from rfl), List.nil_append]
  · rw [joinDirs, if_neg (joined_ne_nil isTop fun name among => nonempty name (List.mem_append_left _ among))]
    by_cases isSame : child = []
    · rw [isSame, if_pos (show joined [] = [] from rfl), List.append_nil]
    · rw [if_neg (joined_ne_nil isSame fun name among => nonempty name (List.mem_append_right _ among)), joined_append isTop isSame]

theorem normalizeDir_reads {value : Option Text} {names : Option (List Text)} (reads : Reads value names) : normalizeDir value = names.map joined := by
  cases reads with
  | unset isUnset =>
      cases value with
      | none => rfl
      | some value =>
          have empty : value = [] := by simpa [setting, Option.filter_eq_none_iff] using isUnset
          rw [empty]
          rfl
  | set nonempty spells => exact normalizeDir_spells spells nonempty

theorem Reads.plain {value : Option Text} {names : Option (List Text)} (reads : Reads value names) : ArePlain (names.getD []) := by
  cases reads with
  | unset => exact fun name among => by cases among
  | set nonempty spells => exact spells.plain

theorem candidates_names {dirs : List (List Text)} (named : Names input dirs) : (candidates input).filterMap id = dirs.map joined := by
  cases named with
  | @application build dockerfile context isApplication builds files isFile contexts =>
      have top : (normalizeDir (buildPathForSource input)).getD [] = joined (build.getD []) := by
        rw [normalizeDir_reads builds]
        cases build <;> rfl
      have dockerfileDir : (dirnameOf input.dockerfile).map (joinDirs (joined (build.getD []))) =
          (dockerfile.map fun names => build.getD [] ++ names.dropLast).map joined := by
        generalize input.dockerfile = value at files
        cases files with
        | unset isUnset =>
            rw [dirnameOf, normalizeDir_reads (Reads.unset isUnset)]
            rfl
        | @set text names nonempty spells =>
            rw [dirnameOf_spells spells nonempty fun empty => isFile (congrArg some empty), Option.map_some, Option.map_some, Option.map_some,
              joinDirs_joined]
            intro name among
            rcases List.mem_append.mp among with inBuild | inFile
            · exact (builds.plain name inBuild).toIsName
            · exact spells.areNames name (List.dropLast_subset _ inFile)
      simp only [candidates, isApplication, top, dockerfileDir, normalizeDir_reads contexts]
      cases dockerfile <;> cases context <;> rfl
  | compose isCompose isSet nonempty spells isFile =>
      simp only [candidates, isCompose, isSet, dirnameOf_spells spells nonempty isFile]
      rfl

theorem joinPath_slash (path : List Text) (first rest : Text) : joinPath path (first ++ '/' :: rest) = joinPath (joinPath path first) rest := by
  unfold joinPath
  rw [List.splitOn_append_cons_self, List.foldl_append]

theorem joinPath_slashes (path : List Text) (count : Nat) (rest : Text) : joinPath path (slashes count ++ rest) = joinPath path rest := by
  induction count with
  | zero => rfl
  | succ count ih => exact (joinPath_slash path [] (slashes count ++ rest)).trans ih

theorem joinPath_joined {names : List Text} (areNames : AreNames names) (path : List Text) :
    joinPath path (joined names) = path ++ names := by
  induction names generalizing path with
  | nil => exact (List.append_nil path).symm
  | cons name rest ih =>
      have isName := areNames name List.mem_cons_self
      have first : joinPath path name = path ++ [name] := by
        rw [joinPath, List.splitOn_eq_singleton isName.whole, List.foldl_cons, List.foldl_nil,
          if_neg (not_or.mpr ⟨isName.nonempty, isName.notHere⟩), if_neg isName.notParent]
      cases rest with
      | nil => exact first
      | cons other rest =>
          rw [joined_cons (List.cons_ne_nil _ _), joinPath_slash, first, ih fun name among => areNames name (List.mem_cons_of_mem _ among),
            List.append_assoc, List.singleton_append]

theorem joinPath_spells {text : Text} {names : List Text} (spells : Spells text names) (path : List Text) : joinPath path text = path ++ names := by
  have behind (path : List Text) (trail : Nat) : joinPath path (joined names ++ slashes trail) = path ++ names := by
    rw [← joinPath_joined spells.areNames path]
    cases trail with
    | zero => rw [show slashes 0 = [] from rfl, List.append_nil]
    | succ trail =>
        refine (joinPath_slash path (joined names) (slashes trail)).trans ?_
        rw [← List.append_nil (slashes trail), joinPath_slashes]
        rfl
  rcases spells.spelled with ⟨rfl, rfl⟩ | ⟨lead, trail, rfl | rfl⟩
  · exact (List.append_nil path).symm
  · rw [joinPath_slashes, behind]
  · refine (joinPath_slash path ['.'] (slashes lead ++ (joined names ++ slashes trail))).trans ?_
    rw [joinPath_slashes, behind]
    rfl

variable {codeDirectory}

theorem inside_reads {value : Option Text} {names : Option (List Text)} {directory path : List Text} (reads : Reads value names)
    (isPath : joinInsideCodeDirectory codeDirectory directory ((setting value).getD []) = some path) : path = directory ++ names.getD [] := by
  have isJoined : path = joinPath directory ((setting value).getD []) := by
    unfold joinInsideCodeDirectory at isPath
    split at isPath
    · cases isPath
    · split at isPath
      · exact (Option.some.inj isPath).symm
      · cases isPath
  rw [isJoined]
  cases reads with
  | unset isUnset => rw [isUnset]; exact (List.append_nil directory).symm
  | @set text names nonempty spells =>
      rw [show setting (some text) = some text by simp [setting, Option.filter, nonempty]]
      exact joinPath_spells spells directory

theorem mapM_reads {value : Option Text} {names : Option (List Text)} {directory : List Text} {found : Option (List Text)}
    (reads : Reads value names) (isFound : (setting value).mapM (joinInsideCodeDirectory codeDirectory directory) = some found) :
    found = names.map (directory ++ ·) := by
  cases isSet : setting value with
  | none =>
      rw [isSet] at isFound
      cases isFound
      cases reads with
      | unset => rfl
      | set nonempty => simp [setting, Option.filter, nonempty] at isSet
  | some text =>
      rw [isSet] at isFound
      have mapped : (joinInsideCodeDirectory codeDirectory directory text).map some = some found := isFound
      rcases Option.map_eq_some_iff.mp mapped with ⟨path, isPath, rfl⟩
      have inside := inside_reads reads (by rw [isSet]; exact isPath)
      cases reads with
      | unset isUnset => rw [isSet] at isUnset; cases isUnset
      | set => rw [inside]; rfl

/-- What the build uses is what the settings name. -/
theorem used_named {dirs used : List (List Text)} {dockerfileBuild : Bool} (named : Names input dirs)
    (accepted : usedDirectories input codeDirectory dockerfileBuild = some used) : used ⊆ dirs := by
  have below_append (path : List Text) : below codeDirectory (codeDirectory ++ path) = path := List.drop_left
  cases named with
  | @application build dockerfile context isApplication builds files isFile contexts =>
      unfold usedDirectories at accepted
      rw [isApplication] at accepted
      cases isSource : input.sourceType with
      | none => simp [isSource] at accepted
      | some source =>
          simp only [isSource] at accepted
          rcases Option.bind_eq_some_iff.mp accepted with ⟨path, isPath, accepted⟩
          have isBuild := inside_reads builds isPath
          have built : (if (setting (buildPathForSource input)).isSome then [below codeDirectory path] else []) ⊆ [build.getD []] := by
            rw [isBuild, below_append]
            split
            · exact List.Subset.refl _
            · exact List.nil_subset _
          split at accepted
          · rcases Option.bind_eq_some_iff.mp accepted with ⟨file, isFound, accepted⟩
            rcases Option.bind_eq_some_iff.mp accepted with ⟨around, isAround, accepted⟩
            have inFile := mapM_reads files isFound
            have inContext := mapM_reads contexts isAround
            cases accepted
            subst inFile inContext
            rw [isBuild] at built ⊢
            refine List.append_subset.mpr ⟨List.append_subset.mpr ⟨fun dir among => ?_, ?_⟩, ?_⟩
            · exact List.mem_cons.mpr (Or.inl (List.mem_singleton.mp (built among)))
            · cases dockerfile with
              | none => exact List.nil_subset _
              | some names =>
                  have isDirectory : below codeDirectory (codeDirectory ++ build.getD [] ++ names).dropLast = build.getD [] ++ names.dropLast := by
                    rw [List.dropLast_append_of_ne_nil fun empty => isFile (congrArg some empty), List.append_assoc, below_append]
                  rw [Option.map_some, Option.map_some, isDirectory]
                  simp
            · cases context with
              | none => exact List.nil_subset _
              | some names => simp [below_append]
          · cases accepted
            exact fun dir among => List.mem_cons.mpr (Or.inl (List.mem_singleton.mp (built among)))
  | @compose text names isCompose isSet nonempty spells isFile =>
      have isDirectory : below codeDirectory (joinPath codeDirectory text).dropLast = names.dropLast := by
        rw [joinPath_spells spells, List.dropLast_append_of_ne_nil isFile, below_append]
      unfold usedDirectories at accepted
      rw [isCompose, isSet] at accepted
      simp only [isDirectory] at accepted
      split at accepted
      · cases accepted
      · contradiction
      · cases accepted
        exact List.nil_subset _
      · split at accepted
        · cases accepted
          exact List.Subset.refl _
        · cases accepted

/-- A directory lies in one that no other directory covers. -/
theorem exists_shallowest {dirs : List (List Text)} {dir : List Text} (among : dir ∈ dirs) : Exists fun least =>
    least ∈ dirs ∧ least <+: dir ∧ forall other, other ∈ dirs -> other <+: least -> other = least := by
  induction isLength : dir.length using Nat.strong_induction_on generalizing dir with
  | _ length ih =>
      by_cases isLeast : forall other, other ∈ dirs -> other <+: dir -> other = dir
      · exact ⟨dir, among, List.prefix_rfl, isLeast⟩
      · simp only [not_forall] at isLeast
        rcases isLeast with ⟨other, isOther, inside, differs⟩
        have shorter : other.length < length := by
          refine isLength ▸ Nat.lt_of_le_of_ne inside.length_le fun same => differs (inside.eq_of_length same)
        rcases ih _ shorter isOther rfl with ⟨least, isDir, covers, isLeast⟩
        exact ⟨least, isDir, covers.trans inside, isLeast⟩

theorem watchPathsOf_top {dirs : List (List Text)} (isTop : [] ∈ dirs) : watchPathsOf (dirs.map joined) = [ROOT] :=
  if_pos (Or.inr (List.mem_map.mpr ⟨[], isTop, rfl⟩))

section Watched

variable {dirs : List (List Text)} (plain : forall dir, dir ∈ dirs -> ArePlain dir)

include plain

theorem mem_watchPathsOf (noTop : [] ∉ dirs) (some : dirs ≠ []) (pattern : Text) : pattern ∈ watchPathsOf (dirs.map joined) <->
    Exists fun dir => dir ∈ dirs ∧ pattern = joined dir ++ '/' :: ROOT ∧ forall other, other ∈ dirs -> other <+: dir -> other = dir := by
  have filled {dir : List Text} (among : dir ∈ dirs) : dir ≠ [] := fun empty => noTop (empty ▸ among)
  have whole {dir : List Text} (among : dir ∈ dirs) (name : Text) (within : name ∈ dir) : '/' ∉ name := (plain dir among name within).whole
  have nonempty {dir : List Text} (among : dir ∈ dirs) : joined dir ≠ [] :=
    joined_ne_nil (filled among) fun name within => (plain dir among name within).nonempty
  have noRoot : ¬ (dirs.map joined = [] ∨ [] ∈ dirs.map joined) := by
    rintro (empty | among)
    · exact some (List.map_eq_nil_iff.mp empty)
    · rcases List.mem_map.mp among with ⟨dir, isDir, same⟩
      exact nonempty isDir same
  have covered {dir other : List Text} (among : dir ∈ dirs) (isOther : other ∈ dirs) :
      (decide (joined other ≠ joined dir) && (joined other ++ ['/']).isPrefixOf (joined dir)) = true <-> other <+: dir ∧ other ≠ dir := by
    rw [Bool.and_eq_true, decide_eq_true_eq, List.isPrefixOf_iff_prefix,
      covers_iff (filled isOther) (filled among) (whole isOther) (whole among)]
    refine and_iff_right_of_imp fun ⟨_, differs⟩ same => differs ?_
    have split := congrArg (List.splitOn '/') same
    rwa [splitOn_joined (filled isOther) (whole isOther), splitOn_joined (filled among) (whole among)] at split
  rw [watchPathsOf, if_neg noRoot, List.mem_map]
  constructor
  · rintro ⟨text, among, rfl⟩
    rcases List.mem_filter.mp (List.mem_mergeSort.mp among) with ⟨isText, uncovered⟩
    rcases List.mem_map.mp (List.mem_eraseDups.mp isText) with ⟨dir, isDir, rfl⟩
    refine ⟨dir, isDir, rfl, fun other isOther inside => ?_⟩
    by_contra differs
    rw [Bool.not_eq_true', List.any_eq_false] at uncovered
    exact uncovered (joined other) (List.mem_eraseDups.mpr (List.mem_map.mpr ⟨other, isOther, rfl⟩)) ((covered isDir isOther).mpr ⟨inside, differs⟩)
  · rintro ⟨dir, isDir, rfl, least⟩
    refine ⟨joined dir, List.mem_mergeSort.mpr (List.mem_filter.mpr ⟨List.mem_eraseDups.mpr (List.mem_map.mpr ⟨dir, isDir, rfl⟩), ?_⟩), rfl⟩
    rw [Bool.not_eq_true', List.any_eq_false]
    intro text among
    rcases List.mem_map.mp (List.mem_eraseDups.mp among) with ⟨other, isOther, rfl⟩
    exact fun covers => ((covered isDir isOther).mp covers).2 (least other isOther ((covered isDir isOther).mp covers).1)

variable {micromatch : List Text -> List Text -> List Text} {globs : Text -> Text -> Prop} (rules : FollowsGlobRules micromatch globs)
  {file : List Text} (isFile : AreNames file) (held : Exists fun dir => dir ∈ dirs ∧ dir <+: file ∧ dir ≠ file)

include rules isFile held

theorem watched_iff : (Exists fun pattern => pattern ∈ watchPathsOf (dirs.map joined) ∧ globs pattern (joined file)) <-> Undotted dirs file := by
  rcases held with ⟨dir, isDir, inside, differs⟩
  have nonempty : file ≠ [] := by
    rintro rfl
    exact differs (List.prefix_nil.mp inside)
  by_cases isTop : [] ∈ dirs
  · rw [watchPathsOf_top isTop]
    simp only [List.mem_singleton, exists_eq_left, rules.everywhere file nonempty isFile]
    exact ⟨fun undotted _ _ _ name among => undotted name (List.mem_of_mem_drop among), fun undotted => undotted [] isTop List.nil_prefix⟩
  · have filled {dir : List Text} (among : dir ∈ dirs) : dir ≠ [] := fun empty => isTop (empty ▸ among)
    have patterns := mem_watchPathsOf plain isTop (List.ne_nil_of_mem isDir)
    have match_iff {least more : List Text} (isLeast : least ∈ dirs) (isMore : least ++ more = file) (some : more ≠ []) :
        globs (joined least ++ '/' :: ROOT) (joined file) <-> forall name, name ∈ more -> isDotted name = false := by
      rw [← isMore]
      exact rules.inside least more (filled isLeast) (plain least isLeast) some fun name among =>
        isFile name (isMore ▸ List.mem_append_right _ among)
    constructor
    · rintro ⟨pattern, among, matched⟩
      rcases (patterns pattern).mp among with ⟨least, isLeast, rfl, minimal⟩
      have within : least <+: file := by
        by_contra outside
        exact rules.outside least file (filled isLeast) (plain least isLeast) nonempty isFile outside matched
      rcases within with ⟨more, isMore⟩
      have some : more ≠ [] := by
        rintro rfl
        rw [List.append_nil] at isMore
        exact differs ((minimal dir isDir (isMore ▸ inside)).trans isMore)
      intro other isOther holds name isName
      refine (match_iff isLeast isMore some).mp matched name ?_
      have longer : least.length ≤ other.length := by
        rcases List.prefix_or_prefix_of_prefix holds ⟨more, isMore⟩ with covers | covered
        · rw [minimal other isOther covers]
        · exact covered.length_le
      rw [← isMore, List.drop_append, List.drop_eq_nil_of_le longer, List.nil_append] at isName
      exact List.mem_of_mem_drop isName
    · intro undotted
      rcases exists_shallowest isDir with ⟨least, isLeast, covers, minimal⟩
      rcases covers.trans inside with ⟨more, isMore⟩
      have some : more ≠ [] := by
        rintro rfl
        rw [List.append_nil] at isMore
        exact differs (inside.eq_of_length (Nat.le_antisymm inside.length_le (isMore ▸ covers.length_le)))
      refine ⟨_, (patterns _).mpr ⟨least, isLeast, rfl, minimal⟩, (match_iff isLeast isMore some).mpr fun name among => ?_⟩
      exact undotted least isLeast ⟨more, isMore⟩ name (by rw [← isMore, List.drop_left]; exact among)

end Watched

theorem Names.plain {dirs : List (List Text)} (named : Names input dirs) (dir : List Text) (among : dir ∈ dirs) : ArePlain dir := by
  intro name within
  cases named with
  | @application build dockerfile context isApplication builds files isFile contexts =>
      rcases List.mem_cons.mp among with rfl | among
      · exact builds.plain name within
      · rcases List.mem_append.mp among with inFile | inContext
        · cases dockerfile with
          | none => cases inFile
          | some names =>
              rw [List.mem_singleton.mp inFile] at within
              rcases List.mem_append.mp within with inBuild | inNames
              · exact builds.plain name inBuild
              · exact files.plain name (List.dropLast_subset names inNames)
        · cases context with
          | none => cases inContext
          | some names =>
              rw [List.mem_singleton.mp inContext] at within
              exact contexts.plain name within
  | compose isCompose isSet nonempty spells isFile =>
      rw [List.mem_singleton.mp among] at within
      exact spells.plain name (List.dropLast_subset _ within)

section Derived

variable {dirs : List (List Text)} (plain : forall dir, dir ∈ dirs -> ArePlain dir) (some : dirs ≠ [])

include plain some

theorem watchPathsOf_ne_nil : watchPathsOf (dirs.map joined) ≠ [] := by
  by_cases isTop : [] ∈ dirs
  · rw [watchPathsOf_top isTop]
    exact List.cons_ne_nil _ _
  · rcases List.exists_mem_of_ne_nil dirs some with ⟨dir, isDir⟩
    rcases exists_shallowest isDir with ⟨least, isLeast, _, minimal⟩
    exact List.ne_nil_of_mem ((mem_watchPathsOf plain isTop some _).mpr ⟨least, isLeast, rfl, minimal⟩)

theorem watchPathsOf_positive (pattern : Text) (among : pattern ∈ watchPathsOf (dirs.map joined)) : pattern.head? ≠ Option.some '!' := by
  by_cases isTop : [] ∈ dirs
  · rw [watchPathsOf_top isTop] at among
    rw [List.mem_singleton.mp among]
    decide
  · rcases (mem_watchPathsOf plain isTop some pattern).mp among with ⟨dir, isDir, rfl, _⟩
    rcases joined_begins (fun empty => isTop (empty ▸ isDir)) fun name within => (plain dir isDir name within).toIsName with
      ⟨char, rest, begins, name, isName, within⟩
    rw [begins, List.cons_append, List.head?_cons]
    intro same
    cases same
    exact List.any_eq_false.mp (plain dir isDir name isName).literal '!' within (by decide)

end Derived

section Deploys

variable {micromatch : List Text -> List Text -> List Text} {globs : Text -> Text -> Prop} (rules : FollowsGlobRules micromatch globs)

include rules

theorem shouldDeploy_iff {patterns : List Text} (filled : patterns ≠ [])
    (positive : forall pattern, pattern ∈ patterns -> pattern.head? ≠ some '!') (changed : List (Option Text)) :
    shouldDeploy micromatch (some patterns) (some changed) = true <->
      Exists fun file => some file ∈ changed ∧ Exists fun pattern => pattern ∈ patterns ∧ globs pattern file := by
  cases patterns with
  | nil => exact absurd rfl filled
  | cons pattern rest =>
      show decide (0 < (micromatch (changed.filterMap id) (pattern :: rest)).length) = true <-> _
      rw [decide_eq_true_eq, List.length_pos_iff_exists_mem]
      refine exists_congr fun file => ?_
      rw [rules.keeps _ _ positive, List.mem_filterMap]
      simp only [id, exists_eq_right]

end Deploys

def plainGlobs (pattern file : Text) : Bool :=
  let dir := (pattern.splitOn '/').dropLast
  dir.isPrefixOf (file.splitOn '/') && ((file.splitOn '/').drop dir.length).all fun name => !isDotted name

def plainMicromatch (files patterns : List Text) : List Text :=
  files.filter fun file => patterns.any fun pattern => plainGlobs pattern file

theorem plainGlobs_iff {dir names : List Text} (some : names ≠ []) (wholeDir : forall name, name ∈ dir -> '/' ∉ name)
    (whole : forall name, name ∈ names -> '/' ∉ name) : plainGlobs (joined (dir ++ [ROOT])) (joined names) = true <->
      dir <+: names ∧ forall name, name ∈ names.drop dir.length -> isDotted name = false := by
  have pattern : ((joined (dir ++ [ROOT])).splitOn '/').dropLast = dir := by
    rw [splitOn_joined (List.append_ne_nil_of_right_ne_nil _ (List.cons_ne_nil _ _)), List.dropLast_concat]
    intro name among
    rcases List.mem_append.mp among with inDir | isRoot
    · exact wholeDir name inDir
    · rw [List.mem_singleton.mp isRoot]
      decide
  simp only [plainGlobs, pattern, splitOn_joined some whole, Bool.and_eq_true, List.isPrefixOf_iff_prefix, List.all_eq_true,
    Bool.not_eq_true']

theorem plainMicromatch_rules : FollowsGlobRules plainMicromatch fun pattern file => plainGlobs pattern file = true where
  keeps files patterns _ file := by rw [plainMicromatch, List.mem_filter, List.any_eq_true]
  everywhere names nonempty isName := by
    rw [show ROOT = joined ([] ++ [ROOT]) from rfl, plainGlobs_iff nonempty (fun _ among => by cases among) fun name among => (isName name among).whole]
    exact and_iff_right List.nil_prefix
  inside dir names filled plain nonempty isName := by
    rw [← joined_snoc filled, plainGlobs_iff (List.append_ne_nil_of_right_ne_nil _ nonempty) fun name among => (plain name among).whole]
    · rw [List.drop_left]
      exact and_iff_right (List.prefix_append dir names)
    · intro name among
      rcases List.mem_append.mp among with inDir | inNames
      · exact (plain name inDir).whole
      · exact (isName name inNames).whole
  outside dir names filled plain nonempty isName apart := by
    rw [← joined_snoc filled, plainGlobs_iff nonempty (fun name among => (plain name among).whole) fun name among => (isName name among).whole]
    exact fun both => apart both.1

def exampleInput : WatchPathsInput := { unitType := .application, sourceType := some .github, buildPath := some "/app".toList }

def exampleCheckout : List Text := ["srv".toList, "code".toList]

theorem exampleSpells : Spells "/app".toList ["app".toList] where
  plain name among := by
    rw [List.mem_singleton.mp among]
    exact { nonempty := by decide, whole := by decide, notHere := by decide, notParent := by decide, literal := by decide }
  trimmed := by decide
  spelled := Or.inr ⟨1, 0, Or.inl rfl⟩

theorem exampleNamed : Names exampleInput [["app".toList]] :=
  @Names.application exampleInput (some ["app".toList]) none none rfl (Reads.set (by decide) exampleSpells) (Reads.unset rfl) (by decide)
    (Reads.unset rfl)

theorem exampleUsed : usedDirectories exampleInput exampleCheckout false = some [["app".toList]] := by decide

end BuildPolicy
end Dokploy
