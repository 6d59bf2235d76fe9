import Dokploy.Traefik.Survival

namespace Dokploy
namespace Traefik

open Foundation
open Losses

/-!
# What each step loses

A file whose read failed is taken for an empty one.  If it is then written, or
removed because no router seems to be left, everything that others had in it is
gone.  The same is lost by a write that fails after it has emptied the file, and
with the last router of a file its services are removed too.
-/

/-- The step writes a file it could not read, or empties it. -/
def Overwrites (access : Access) (content : Content) : Prop :=
  access.write = .truncates ∨ (access.write = .succeeds ∧ content.isReadable access.read = false)

theorem isReadable_iff {content : Content} {read : ReadOutcome} :
    content.isReadable read = true <-> read = .succeeds ∧ Exists fun file => content = .parsed file := by
  cases content with
  | missing => simp [Content.isReadable]
  | unparsable text => simp [Content.isReadable]
  | parsed file => simp [Content.isReadable]

theorem loadMiddlewares_of_readable {read : ReadOutcome} {file : MiddlewaresFile}
    (readable : (Content.parsed file).isReadable read = true) : loadMiddlewares read (.parsed file) = some file := by
  rw [loadMiddlewares, if_pos (isReadable_iff.mp readable).1]

theorem loadMiddlewares_of_not {content : Content} {read : ReadOutcome} (unreadable : content.isReadable read = false) :
    loadMiddlewares read content = none := by
  cases content with
  | missing => rfl
  | unparsable text => rfl
  | parsed file => exact if_neg (of_decide_eq_false unreadable)

section Shared

variable {appName : String} {key : Nat} {files : Files} {access : Access} {file : MiddlewaresFile} {remote : Bool}

theorem clears_shared {after : Files} (sameApp : after.app = files.app) (noText : after.shared.text = none)
    (none : forall name, name ∉ domainMiddlewares appName key ->
      getEntry after.shared.config.middlewares name = none) :
    Clears (OfOthers appName key) Files.entry Place.InShared files after := by
  intro place others
  cases place with
  | appText => exact ⟨False.elim, fun _ => by rw [Files.entry, Files.entry, sameApp]⟩
  | router name => exact ⟨False.elim, fun _ => by rw [Files.entry, Files.entry, sameApp]⟩
  | service name => exact ⟨False.elim, fun _ => by rw [Files.entry, Files.entry, sameApp]⟩
  | sharedText => exact ⟨fun _ => by rw [Files.entry, noText, Option.map_none], fun outside => absurd trivial outside⟩
  | middleware name =>
      exact ⟨fun _ => by rw [Files.entry, none name others, Option.map_none], fun outside => absurd trivial outside⟩

theorem keeps_shared {after : Files} (sameApp : after.app = files.app) (sameText : after.shared.text = files.shared.text)
    (same : forall name, name ∉ domainMiddlewares appName key ->
      getEntry after.shared.config.middlewares name = getEntry files.shared.config.middlewares name) :
    Survives appName key files after := by
  intro place others
  cases place with
  | appText => rw [Files.entry, Files.entry, sameApp]
  | router name => rw [Files.entry, Files.entry, sameApp]
  | service name => rw [Files.entry, Files.entry, sameApp]
  | sharedText => rw [Files.entry, Files.entry, sameText]
  | middleware name => rw [Files.entry, Files.entry, same name others]

/-- What a step loses of the shared file. -/
structure SharedStep (appName : String) (key : Nat) (lost : Prop) (files after : Files) : Prop where
  clears : lost -> Clears (OfOthers appName key) Files.entry Place.InShared files after
  keeps : ¬ lost -> Survives appName key files after

theorem SharedStep.unchanged {lost : Prop} (nothing : lost -> files.shared = .parsed none) :
    SharedStep appName key lost files files where
  clears := by
    intro isLost
    refine clears_shared rfl ?_ fun name _ => ?_
    · rw [nothing isLost]
      rfl
    · rw [nothing isLost]
      rfl
  keeps := fun _ => Keeps.refl files

theorem persist_sharedStep {effect : MiddlewaresFile -> Option MiddlewaresFile}
    (effectKeeps : EffectKeeps appName key effect)
    (made : effect (loadOrEmptyMiddlewares access.read files.shared) = some file) :
    SharedStep appName key (Overwrites access files.shared) files
      (persistMiddlewares remote access.write file files).after where
  clears := by
    rintro (truncates | ⟨succeeds, unreadable⟩)
    · rw [truncates]
      exact clears_shared rfl rfl fun _ _ => rfl
    · rw [succeeds]
      refine clears_shared rfl rfl fun name others => ?_
      rw [loadOrEmptyMiddlewares, loadMiddlewares_of_not unreadable] at made
      exact effectKeeps _ file made name others
  keeps := by
    intro kept
    cases isWrite : access.write with
    | truncates => exact absurd (Or.inl isWrite) kept
    | fails => exact Keeps.refl files
    | succeeds =>
        cases readable : files.shared.isReadable access.read with
        | false => exact absurd (Or.inr ⟨isWrite, readable⟩) kept
        | true =>
            rcases (isReadable_iff.mp readable).2 with ⟨held, isHeld⟩
            rw [isHeld] at readable
            rw [loadOrEmptyMiddlewares, isHeld, loadMiddlewares_of_readable readable] at made
            refine keeps_shared rfl (by rw [isHeld]; rfl) fun name others => ?_
            rw [isHeld]
            exact effectKeeps _ file made name others

theorem SharedStep.congr {lost alsoLost : Prop} {after : Files} (step : SharedStep appName key lost files after)
    (same : lost <-> alsoLost) : SharedStep appName key alsoLost files after where
  clears := fun isLost => step.clears (same.mpr isLost)
  keeps := fun kept => step.keeps fun isLost => kept (same.mp isLost)

theorem null_of_loadOrEmpty {content : Content} {read : ReadOutcome}
    (isNull : loadOrEmptyMiddlewares read content = none) : content = .parsed none := by
  cases readable : content.isReadable read with
  | false =>
      rw [loadOrEmptyMiddlewares, loadMiddlewares_of_not readable] at isNull
      cases isNull
  | true =>
      rcases (isReadable_iff.mp readable).2 with ⟨held, isHeld⟩
      rw [isHeld] at readable isNull ⊢
      rw [loadOrEmptyMiddlewares, loadMiddlewares_of_readable readable] at isNull
      exact congrArg Content.parsed isNull

theorem overwrites_of_readable (readable : files.shared.isReadable access.read = true) :
    Overwrites access files.shared <-> access.write = .truncates := by
  rw [Overwrites, readable]
  exact ⟨fun either => either.resolve_right fun both => Bool.noConfusion both.2, Or.inl⟩

end Shared

section Steps

variable (remote : Bool) (access : Access) (appName : String) (domain : Domain) (key : Nat)
  (authGate : Option (Option AuthGate)) (files : Files)

theorem createPath_step :
    SharedStep appName domain.uniqueConfigKey
      (pathMiddlewares appName domain ≠ [] ∧ Overwrites access files.shared) files
      (Fallible.createPathMiddlewares remote access appName domain files).after := by
  unfold Fallible.createPathMiddlewares
  cases made : createPathMiddlewares (loadOrEmptyMiddlewares access.read files.shared) appName domain with
  | none =>
      refine SharedStep.unchanged fun lost => ?_
      rw [createPathMiddlewares, if_neg lost.1] at made
      cases made
  | some file =>
      have needed : pathMiddlewares appName domain ≠ [] := by
        intro nothing
        rw [createPathMiddlewares, if_pos nothing] at made
        cases made
      exact (persist_sharedStep (createPath_effectKeeps domain) made).congr ⟨fun lost => ⟨needed, lost⟩, And.right⟩

/-- The domain asks for a login, and the server has a domain for it. -/
def NeedsForwardAuth (domain : Domain) (authGate : Option (Option AuthGate)) : Prop :=
  domain.forwardAuthEnabled = true ∧ Exists fun gate => authGate = some (some gate)

theorem createForwardAuth_step :
    SharedStep appName domain.uniqueConfigKey
      (NeedsForwardAuth domain authGate ∧ Overwrites access files.shared) files
      (Fallible.createForwardAuthMiddleware remote access authGate appName domain files).after := by
  unfold Fallible.createForwardAuthMiddleware
  split
  · rename_i enabled
    rcases authGate with failed | none | gate
    · refine SharedStep.unchanged fun lost => ?_
      rcases lost.1.2 with ⟨_, impossible⟩
      cases impossible
    · refine SharedStep.unchanged fun lost => ?_
      rcases lost.1.2 with ⟨_, impossible⟩
      cases impossible
    · dsimp only
      cases made : createForwardAuthMiddleware (loadOrEmptyMiddlewares access.read files.shared) appName domain
          (some gate) with
      | none =>
          refine SharedStep.unchanged fun _ => ?_
          cases isLoaded : loadOrEmptyMiddlewares access.read files.shared with
          | none => exact null_of_loadOrEmpty isLoaded
          | some config =>
              rw [isLoaded, createForwardAuthMiddleware, if_pos enabled] at made
              cases made
      | some file =>
          exact (persist_sharedStep (createForwardAuth_effectKeeps domain _) made).congr
            ⟨fun lost => ⟨⟨enabled, gate, rfl⟩, lost⟩, And.right⟩
  · rename_i disabled
    exact SharedStep.unchanged fun lost => absurd lost.1.1 disabled

theorem removePath_step :
    SharedStep appName key (files.shared.isReadable access.read = true ∧ access.write = .truncates) files
      (Fallible.removePathMiddlewares remote access appName key files).after := by
  unfold Fallible.removePathMiddlewares
  cases readable : files.shared.isReadable access.read with
  | false =>
      rw [loadMiddlewares_of_not readable]
      exact SharedStep.unchanged fun lost => Bool.noConfusion lost.1
  | true =>
      rcases (isReadable_iff.mp readable).2 with ⟨loaded, isLoaded⟩
      have read : loadMiddlewares access.read files.shared = some loaded := by
        rw [isLoaded] at readable ⊢
        exact loadMiddlewares_of_readable readable
      rw [read]
      dsimp only
      cases made : removePathMiddlewares loaded appName key with
      | none =>
          refine SharedStep.unchanged fun _ => ?_
          cases loaded with
          | none => exact isLoaded
          | some config => cases made
      | some file =>
          refine (persist_sharedStep removePath_effectKeeps ?_).congr ?_
          · rw [loadOrEmptyMiddlewares, read]
            exact made
          · rw [overwrites_of_readable readable]
            exact ⟨fun lost => ⟨rfl, lost⟩, And.right⟩

/-- The shared file has a login of the domain. -/
def hasForwardAuth (appName : String) (key : Nat) (content : Content) : Bool :=
  [forwardAuthMiddlewareName appName key, forwardAuthErrorsName appName key].any fun name =>
    (getEntry content.config.middlewares name).isSome

theorem removeForwardAuth_step :
    SharedStep appName key (files.shared.isReadable access.read = true ∧
      hasForwardAuth appName key files.shared = true ∧ access.write = .truncates) files
      (Fallible.removeForwardAuthMiddleware remote access appName key files).after := by
  unfold Fallible.removeForwardAuthMiddleware
  cases readable : files.shared.isReadable access.read with
  | false =>
      rw [loadMiddlewares_of_not readable]
      exact SharedStep.unchanged fun lost => Bool.noConfusion lost.1
  | true =>
      rcases (isReadable_iff.mp readable).2 with ⟨loaded, isLoaded⟩
      have read : loadMiddlewares access.read files.shared = some loaded := by
        rw [isLoaded] at readable ⊢
        exact loadMiddlewares_of_readable readable
      rw [read]
      cases loaded with
      | none => exact SharedStep.unchanged fun _ => isLoaded
      | some config =>
          dsimp only
          cases has : hasForwardAuth appName key files.shared with
          | false =>
              rw [isLoaded] at has
              have made : removeForwardAuthMiddleware (some config) appName key = none :=
                if_neg fun present => Bool.false_ne_true (has.symm.trans present)
              rw [made]
              exact SharedStep.unchanged fun lost => Bool.noConfusion lost.2.1
          | true =>
              rw [isLoaded] at has
              have made : removeForwardAuthMiddleware (some config) appName key = some (some (config.deleteMiddlewares
                  [forwardAuthMiddlewareName appName key, forwardAuthErrorsName appName key])) := if_pos has
              rw [made]
              refine (persist_sharedStep removeForwardAuth_effectKeeps ?_).congr ?_
              · rw [loadOrEmptyMiddlewares, read]
                exact made
              · rw [overwrites_of_readable readable]
                exact ⟨fun lost => ⟨rfl, rfl, lost⟩, fun lost => lost.2.2⟩

end Steps

section App

variable {appName : String} {key : Nat} {files : Files} {read : ReadOutcome} {remote : Bool} {config : FileConfig}

theorem clears_app {after : Files} (sameShared : after.shared = files.shared) (noText : after.app.text = none)
    (others : SameOthers appName key createdConfig after.app.config) :
    Clears (OfOthers appName key) Files.entry Place.InApp files after := by
  intro place ofOthers
  cases place with
  | appText => exact ⟨fun _ => by rw [Files.entry, noText, Option.map_none], fun outside => absurd trivial outside⟩
  | router name =>
      exact ⟨fun _ => by rw [Files.entry, others.routers name ofOthers]; rfl, fun outside => absurd trivial outside⟩
  | service name =>
      exact ⟨fun _ => by rw [Files.entry, others.services name ofOthers]; rfl, fun outside => absurd trivial outside⟩
  | sharedText => exact ⟨False.elim, fun _ => by rw [Files.entry, Files.entry, sameShared]⟩
  | middleware name => exact ⟨False.elim, fun _ => by rw [Files.entry, Files.entry, sameShared]⟩

theorem keeps_app {after : Files} (sameShared : after.shared = files.shared) (sameText : after.app.text = files.app.text)
    (others : SameOthers appName key files.app.config after.app.config) : Survives appName key files after := by
  intro place ofOthers
  cases place with
  | appText => rw [Files.entry, Files.entry, sameText]
  | router name => rw [Files.entry, Files.entry, others.routers name ofOthers]
  | service name => rw [Files.entry, Files.entry, others.services name ofOthers]
  | sharedText => rw [Files.entry, Files.entry, sameShared]
  | middleware name => rw [Files.entry, Files.entry, sameShared]

theorem loadAppConfig_cases {content : Content} (loaded : loadAppConfig remote read content = some config) :
    (content.isReadable read = true ∧ Exists fun file => content = .parsed file ∧ config = file.getD createdConfig) ∨
      (content.isReadable read = false ∧ config = createdConfig) := by
  unfold loadAppConfig at loaded
  cases content with
  | missing =>
      refine Or.inr ⟨rfl, ?_⟩
      split at loaded
      · exact (Option.some.inj loaded).symm
      · exact (Option.some.inj loaded).symm
  | unparsable text =>
      refine Or.inr ⟨rfl, ?_⟩
      split at loaded
      · exact (Option.some.inj loaded).symm
      · simp only [loadOrCreateConfig] at loaded
        split at loaded
        · exact (Option.some.inj loaded).symm
        · cases loaded
  | parsed file =>
      cases read with
      | succeeds =>
          refine Or.inl ⟨rfl, file, rfl, ?_⟩
          split at loaded
          · exact (Option.some.inj loaded).symm
          · exact (Option.some.inj loaded).symm
      | hidden =>
          refine Or.inr ⟨rfl, ?_⟩
          split at loaded
          · exact (Option.some.inj loaded).symm
          · exact (Option.some.inj loaded).symm
      | fails =>
          refine Or.inr ⟨rfl, ?_⟩
          split at loaded
          · exact (Option.some.inj loaded).symm
          · cases loaded

theorem SameOthers.getD_created {file : MiddlewaresFile} {after : FileConfig}
    (others : SameOthers appName key (file.getD createdConfig) after) :
    SameOthers appName key (Content.parsed file).config after := by
  cases file with
  | none => exact ⟨others.routers, others.services⟩
  | some config => exact others

theorem write_step {changed : FileConfig} {access : Access} (loaded : loadAppConfig remote access.read files.app = some config)
    (others : SameOthers appName key config changed) :
    (Overwrites access files.app -> Clears (OfOthers appName key) Files.entry Place.InApp files
      (writeTraefikConfig access.write changed files).after) ∧
    (¬ Overwrites access files.app -> Survives appName key files
      (writeTraefikConfig access.write changed files).after) := by
  constructor
  · rintro (truncates | ⟨succeeds, unreadable⟩)
    · rw [truncates]
      exact clears_app rfl rfl ⟨fun _ _ => rfl, fun _ _ => rfl⟩
    · rw [succeeds]
      rcases loadAppConfig_cases loaded with ⟨readable, _⟩ | ⟨_, isCreated⟩
      · rw [unreadable] at readable
        cases readable
      · rw [isCreated] at others
        exact clears_app rfl rfl others
  · intro kept
    cases isWrite : access.write with
    | truncates => exact absurd (Or.inl isWrite) kept
    | fails => exact Keeps.refl files
    | succeeds =>
        rcases loadAppConfig_cases loaded with ⟨_, file, isFile, isConfig⟩ | ⟨unreadable, _⟩
        · rw [isConfig] at others
          refine keeps_app rfl (by rw [isFile]; rfl) ?_
          rw [isFile]
          exact others.getD_created
        · exact absurd (Or.inr ⟨isWrite, unreadable⟩) kept

/-- All routers of the file are those of one domain. -/
def onlyOwnRouters (appName : String) (key : Nat) (content : Content) : Bool :=
  match content.config.http.bind (·.routers) with
  | some routers => routers.all fun entry => entry.1 = routerName appName key ∨ entry.1 = routerNameSecure appName key
  | none => false

/-- No router seems to be left when the domain is removed. -/
def removesFile (appName : String) (key : Nat) (read : ReadOutcome) (content : Content) : Bool :=
  !content.isReadable read || onlyOwnRouters appName key content

/-- The file of the application loses what is in it when a domain is removed. -/
def LosesAppFile (appName : String) (key : Nat) (access : Access) (content : Content) : Prop :=
  if removesFile appName key access.read content = true then access.write = .succeeds else access.write = .truncates

theorem deleteEntry_eq_nil {Value : Type} {entries : List (String × Value)} {first second : String} :
    deleteEntry (deleteEntry entries first) second = [] <->
      (entries.all fun entry => entry.1 = first ∨ entry.1 = second) = true := by
  rw [deleteEntry, deleteEntry, List.filter_filter, List.filter_eq_nil_iff, List.all_eq_true]
  constructor
  · intro none entry member
    have gone := none entry member
    simp only [ne_eq, decide_not, Bool.and_eq_true, Bool.not_eq_true', decide_eq_false_iff_not] at gone
    exact decide_eq_true (by tauto)
  · intro own entry member
    have isOwn := of_decide_eq_true (own entry member)
    simp only [ne_eq, decide_not, Bool.and_eq_true, Bool.not_eq_true', decide_eq_false_iff_not]
    tauto

theorem lastRouter_removedConfig (config : FileConfig) :
    (removedConfig appName key config).lastRouter = onlyOwnRouters appName key (.parsed (some config)) := by
  rcases config with ⟨http, other⟩
  cases http with
  | none => rfl
  | some http =>
      rcases http with ⟨routers, services, middlewares, rest⟩
      cases routers with
      | none => rfl
      | some routers =>
          apply Bool.eq_iff_iff.mpr
          exact (decide_eq_true_iff.trans Option.some_inj).trans deleteEntry_eq_nil

theorem remove_of_ne {outcome : WriteOutcome} (kept : outcome ≠ .succeeds) (files : Files) :
    (removeTraefikConfig outcome files).after = files := by
  rw [removeTraefikConfig, Content.remove, if_neg kept]

theorem remove_clears : Clears (OfOthers appName key) Files.entry Place.InApp files
    (removeTraefikConfig .succeeds files).after :=
  clears_app rfl rfl ⟨fun _ _ => rfl, fun _ _ => rfl⟩

theorem writeOrRemove_step (appName : String) (key : Nat) {access : Access} (loaded : loadAppConfig remote access.read files.app = some config) :
    (LosesAppFile appName key access files.app -> Clears (OfOthers appName key) Files.entry Place.InApp files
      (Fallible.writeOrRemove access.write (removedConfig appName key config) files).after) ∧
    (¬ LosesAppFile appName key access files.app -> Survives appName key files
      (Fallible.writeOrRemove access.write (removedConfig appName key config) files).after) := by
  unfold Fallible.writeOrRemove
  rcases loadAppConfig_cases loaded with ⟨readable, file, isFile, isConfig⟩ | ⟨unreadable, isCreated⟩
  · cases file with
    | none =>
        have removes : (removedConfig appName key config).lastRouter = true := by
          rw [isConfig]
          rfl
        have isEmpty : forall outcome, (files.app.remove outcome).text = none ∧
            (files.app.remove outcome).config = {} := by
          intro outcome
          rw [isFile, Content.remove]
          split
          · exact ⟨rfl, rfl⟩
          · exact ⟨rfl, rfl⟩
        have same : SameOthers appName key {} (files.app.remove access.write).config := by
          rw [(isEmpty access.write).2]
          exact ⟨fun _ _ => rfl, fun _ _ => rfl⟩
        rw [if_pos removes]
        refine ⟨fun _ => clears_app rfl (isEmpty access.write).1 ⟨same.routers, same.services⟩, fun _ => ?_⟩
        refine keeps_app rfl ?_ ?_
        · show (files.app.remove access.write).text = _
          rw [(isEmpty access.write).1, isFile]
          rfl
        · rw [show files.app.config = {} by rw [isFile]; rfl]
          exact same
    | some held =>
        have isHeld : files.app = .parsed (some config) := by
          rw [isFile, isConfig]
          rfl
        have decision : (removedConfig appName key config).lastRouter =
            removesFile appName key access.read files.app := by
          rw [lastRouter_removedConfig, removesFile, readable, isHeld]
          rfl
        rw [LosesAppFile, ← decision]
        cases (removedConfig appName key config).lastRouter with
        | true =>
            rw [if_pos rfl, if_pos rfl]
            refine ⟨fun succeeds => ?_, fun kept => ?_⟩
            · rw [succeeds]
              exact remove_clears
            · rw [remove_of_ne kept]
              exact Keeps.refl files
        | false =>
            rw [if_neg Bool.false_ne_true, if_neg Bool.false_ne_true]
            have others : SameOthers appName key config (removedConfig appName key config) :=
              removedConfig_sameOthers config
            have step := write_step loaded others
            have sameLoss : Overwrites access files.app <-> access.write = .truncates := by
              rw [Overwrites, readable]
              exact ⟨fun either => either.resolve_right fun both => Bool.noConfusion both.2, Or.inl⟩
            rw [sameLoss] at step
            exact step
  · have removes : (removedConfig appName key config).lastRouter = true := by
      rw [isCreated]
      rfl
    have gone : removesFile appName key access.read files.app = true := by
      rw [removesFile, unreadable]
      rfl
    rw [LosesAppFile, if_pos removes, if_pos gone]
    refine ⟨fun succeeds => ?_, fun kept => ?_⟩
    · rw [succeeds]
      exact remove_clears
    · rw [remove_of_ne kept]
      exact Keeps.refl files

end App

end Traefik
end Dokploy
