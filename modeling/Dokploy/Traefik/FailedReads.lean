import Dokploy.Traefik.StepLosses

namespace Dokploy
namespace Traefik

open Foundation
open Losses

/-!
# When a failed read costs others something

A call makes its steps until one of them fails.  What others have in the two
files is still there afterwards exactly when no step that is made loses it, and
which steps are made follows from how the accesses end and from what the files
held before the call.
-/

/-- The application's file is loaded without an error. -/
def appLoads (remote : Bool) (read : ReadOutcome) (content : Content) : Bool :=
  remote || content = .missing || read = .hidden || content.isReadable read

theorem loadAppConfig_isSome (remote : Bool) (read : ReadOutcome) (content : Content) :
    (loadAppConfig remote read content).isSome = appLoads remote read content := by
  cases remote with
  | true => rfl
  | false =>
      cases content with
      | missing => rfl
      | unparsable text => cases read <;> rfl
      | parsed file => cases read <;> rfl

section GoesOn

variable (remote : Bool) (access : Access) (appName : String) (domain : Domain) (key : Nat)
  (authGate : Option (Option AuthGate)) (files : Files)

def createPathGoesOn : Bool := remote || pathMiddlewares appName domain = [] || access.write = .succeeds

/-- After its path middlewares were written the shared file is empty. -/
def nullAfterCreatePath (shared : Content) : Bool :=
  if pathMiddlewares appName domain = [] ∨ access.write = .fails then shared = .parsed none
  else access.write = .truncates

def createForwardAuthGoesOn (isNull : Bool) : Bool :=
  !domain.forwardAuthEnabled ||
    match authGate with
    | none => false
    | some none => true
    | some (some _) => !(isNull && access.read = .succeeds) && (remote || access.write = .succeeds)

/-- The path middlewares are looked for in a file that is there. -/
def rewritesPath (shared : Content) : Bool := shared.isReadable access.read && shared ≠ .parsed none

def removePathGoesOn (shared : Content) : Bool := remote || !rewritesPath access shared || access.write = .succeeds

def nullAfterRemovePath (shared : Content) : Bool :=
  shared = .parsed none || (rewritesPath access shared && access.write = .truncates)

def removeForwardAuthGoesOn (isNull : Bool) (shared : Content) : Bool :=
  !shared.isReadable access.read ||
    (!isNull && (!hasForwardAuth appName key shared || remote || access.write = .succeeds))

theorem createPath_goesOn : (Fallible.createPathMiddlewares remote access appName domain files).goesOn =
    createPathGoesOn remote access appName domain := by
  unfold Fallible.createPathMiddlewares createPathGoesOn
  by_cases nothing : pathMiddlewares appName domain = []
  · rw [createPathMiddlewares, if_pos nothing, decide_eq_true nothing, Bool.or_true]
    rfl
  · rw [createPathMiddlewares, if_neg nothing, decide_eq_false nothing, Bool.or_false]
    rfl

theorem createPath_null : decide ((Fallible.createPathMiddlewares remote access appName domain files).after.shared =
    .parsed none) = nullAfterCreatePath access appName domain files.shared := by
  unfold Fallible.createPathMiddlewares nullAfterCreatePath
  by_cases nothing : pathMiddlewares appName domain = []
  · rw [createPathMiddlewares, if_pos nothing, if_pos (Or.inl nothing)]
  · rw [createPathMiddlewares, if_neg nothing]
    cases isWrite : access.write with
    | succeeds => simp [nothing, persistMiddlewares, Content.write]
    | truncates => simp [nothing, persistMiddlewares, Content.write]
    | fails => simp [persistMiddlewares, Content.write]

theorem createForwardAuth_goesOn :
    (Fallible.createForwardAuthMiddleware remote access authGate appName domain files).goesOn =
      createForwardAuthGoesOn remote access domain authGate (files.shared = .parsed none) := by
  unfold Fallible.createForwardAuthMiddleware createForwardAuthGoesOn
  cases enabled : domain.forwardAuthEnabled with
  | false => rfl
  | true =>
      rcases authGate with failed | none | gate
      · rfl
      · rfl
      · cases isLoaded : loadOrEmptyMiddlewares access.read files.shared with
        | none =>
            have isNull := null_of_loadOrEmpty isLoaded
            have isRead : access.read = .succeeds := by
              rw [isNull] at isLoaded
              cases read : access.read with
              | succeeds => rfl
              | hidden =>
                  rw [read] at isLoaded
                  cases isLoaded
              | fails =>
                  rw [read] at isLoaded
                  cases isLoaded
            have made : createForwardAuthMiddleware none appName domain (some gate) = none := if_pos enabled
            simp [made, isNull, isRead]
        | some config =>
            have notNull : (decide (files.shared = .parsed none) && decide (access.read = .succeeds)) = false := by
              rw [Bool.and_eq_false_iff, decide_eq_false_iff_not, decide_eq_false_iff_not, ← not_and_or]
              rintro ⟨isNull, isRead⟩
              rw [isNull, isRead] at isLoaded
              cases isLoaded
            have made : createForwardAuthMiddleware (some config) appName domain (some gate) =
              some (some (config.setMiddlewares (forwardAuthMiddlewares appName domain.uniqueConfigKey gate))) :=
                if_pos enabled
            simp [made, notNull, persistMiddlewares]

theorem removePath_goesOn : (Fallible.removePathMiddlewares remote access appName key files).goesOn =
    removePathGoesOn remote access files.shared := by
  unfold Fallible.removePathMiddlewares removePathGoesOn rewritesPath
  cases readable : files.shared.isReadable access.read with
  | false =>
      rw [loadMiddlewares_of_not readable]
      simp
  | true =>
      rcases (isReadable_iff.mp readable).2 with ⟨loaded, isLoaded⟩
      rw [isLoaded] at readable ⊢
      rw [loadMiddlewares_of_readable readable]
      cases loaded with
      | none => simp [removePathMiddlewares]
      | some config => simp [removePathMiddlewares, persistMiddlewares]

theorem removePath_null : decide ((Fallible.removePathMiddlewares remote access appName key files).after.shared =
    .parsed none) = nullAfterRemovePath access files.shared := by
  unfold Fallible.removePathMiddlewares nullAfterRemovePath rewritesPath
  cases readable : files.shared.isReadable access.read with
  | false =>
      rw [loadMiddlewares_of_not readable]
      simp
  | true =>
      rcases (isReadable_iff.mp readable).2 with ⟨loaded, isLoaded⟩
      have read : loadMiddlewares access.read files.shared = some loaded := by
        rw [isLoaded] at readable ⊢
        exact loadMiddlewares_of_readable readable
      rw [read]
      cases loaded with
      | none => simp [removePathMiddlewares, isLoaded]
      | some config =>
          cases isWrite : access.write with
          | succeeds => simp [removePathMiddlewares, persistMiddlewares, Content.write, isLoaded]
          | truncates => simp [removePathMiddlewares, persistMiddlewares, Content.write, isLoaded]
          | fails => simp [removePathMiddlewares, persistMiddlewares, Content.write, isLoaded]

theorem removeForwardAuth_goesOn :
    (Fallible.removeForwardAuthMiddleware remote access appName key files).goesOn =
      removeForwardAuthGoesOn remote access appName key (files.shared = .parsed none) files.shared := by
  unfold Fallible.removeForwardAuthMiddleware removeForwardAuthGoesOn
  cases readable : files.shared.isReadable access.read with
  | false =>
      rw [loadMiddlewares_of_not readable]
      rfl
  | true =>
      rcases (isReadable_iff.mp readable).2 with ⟨loaded, isLoaded⟩
      rw [isLoaded] at readable ⊢
      rw [loadMiddlewares_of_readable readable]
      cases loaded with
      | none => rfl
      | some config =>
          dsimp only
          cases has : hasForwardAuth appName key (.parsed (some config)) with
          | false =>
              have made : removeForwardAuthMiddleware (some config) appName key = none :=
                if_neg fun present => Bool.false_ne_true (has.symm.trans present)
              rw [made]
              simp
          | true =>
              have made : removeForwardAuthMiddleware (some config) appName key = some (some (config.deleteMiddlewares
                  [forwardAuthMiddlewareName appName key, forwardAuthErrorsName appName key])) := if_pos has
              rw [made]
              simp [persistMiddlewares]

end GoesOn

section Condition

variable (remote : Bool) (outcomes : Outcomes) (appName : String) (files : Files)

abbrev HoldsShared (appName : String) (key : Nat) (files : Files) : Prop :=
  Holds (OfOthers appName key) Files.entry Place.InShared files

abbrev HoldsApp (appName : String) (key : Nat) (files : Files) : Prop :=
  Holds (OfOthers appName key) Files.entry Place.InApp files

def SparesPath (domain : Domain) : Prop :=
  ¬ (HoldsShared appName domain.uniqueConfigKey files ∧ pathMiddlewares appName domain ≠ [] ∧
    Overwrites outcomes.path files.shared)

def SparesForwardAuth (domain : Domain) : Prop :=
  ¬ (HoldsShared appName domain.uniqueConfigKey files ∧ NeedsForwardAuth domain outcomes.authGate ∧
    Overwrites outcomes.forwardAuth files.shared)

/-- No step that is made takes a file that others have something in for an empty one. -/
def SparesWhenManaged (domain : Domain) : Prop :=
  appLoads remote outcomes.app.read files.app = true ->
    SparesPath outcomes appName files domain ∧
      (createPathGoesOn remote outcomes.path appName domain = true ->
        SparesForwardAuth outcomes appName files domain ∧
          (createForwardAuthGoesOn remote outcomes.forwardAuth domain outcomes.authGate
              (nullAfterCreatePath outcomes.path appName domain files.shared) = true ->
            ¬ (HoldsApp appName domain.uniqueConfigKey files ∧ Overwrites outcomes.app files.app)))

def SparesWhenRemoved (key : Nat) : Prop :=
  appLoads remote outcomes.app.read files.app = true ->
    ¬ (HoldsShared appName key files ∧ files.shared.isReadable outcomes.path.read = true ∧
      outcomes.path.write = .truncates) ∧
      (removePathGoesOn remote outcomes.path files.shared = true ->
        ¬ (HoldsShared appName key files ∧ files.shared.isReadable outcomes.forwardAuth.read = true ∧
          hasForwardAuth appName key files.shared = true ∧ outcomes.forwardAuth.write = .truncates) ∧
          (removeForwardAuthGoesOn remote outcomes.forwardAuth appName key
              (nullAfterRemovePath outcomes.path files.shared) files.shared = true ->
            ¬ (HoldsApp appName key files ∧ LosesAppFile appName key outcomes.app files.app)))

end Condition

/-- A step on the shared file leaves it or writes it. -/
structure Rewritten (files after : Files) : Prop where
  app : after.app = files.app
  shared : after.shared = files.shared ∨ Exists fun file => after.shared = .parsed file

theorem Rewritten.refl (files : Files) : Rewritten files files := ⟨rfl, Or.inl rfl⟩

theorem rewritten_persist (remote : Bool) (outcome : WriteOutcome) (file : MiddlewaresFile) (files : Files) :
    Rewritten files (persistMiddlewares remote outcome file files).after where
  app := rfl
  shared := by
    cases outcome with
    | succeeds => exact Or.inr ⟨file, rfl⟩
    | truncates => exact Or.inr ⟨none, rfl⟩
    | fails => exact Or.inl rfl

theorem rewritten_createPath (remote : Bool) (access : Access) (appName : String) (domain : Domain) (files : Files) :
    Rewritten files (Fallible.createPathMiddlewares remote access appName domain files).after := by
  unfold Fallible.createPathMiddlewares
  split
  · exact Rewritten.refl files
  · exact rewritten_persist remote access.write _ files

theorem rewritten_createForwardAuth (remote : Bool) (access : Access) (authGate : Option (Option AuthGate))
    (appName : String) (domain : Domain) (files : Files) :
    Rewritten files (Fallible.createForwardAuthMiddleware remote access authGate appName domain files).after := by
  unfold Fallible.createForwardAuthMiddleware
  repeat' split
  all_goals first
    | exact Rewritten.refl files
    | exact rewritten_persist remote access.write _ files

theorem rewritten_removePath (remote : Bool) (access : Access) (appName : String) (key : Nat) (files : Files) :
    Rewritten files (Fallible.removePathMiddlewares remote access appName key files).after := by
  unfold Fallible.removePathMiddlewares
  repeat' split
  all_goals first
    | exact Rewritten.refl files
    | exact rewritten_persist remote access.write _ files

theorem rewritten_removeForwardAuth (remote : Bool) (access : Access) (appName : String) (key : Nat) (files : Files) :
    Rewritten files (Fallible.removeForwardAuthMiddleware remote access appName key files).after := by
  unfold Fallible.removeForwardAuthMiddleware
  repeat' split
  all_goals first
    | exact Rewritten.refl files
    | exact rewritten_persist remote access.write _ files

section Next

variable {appName : String} {key : Nat} {files after : Files}

theorem isReadable_of_rewritten (rewritten : Rewritten files after) (survives : Survives appName key files after)
    (held : HoldsShared appName key files) (read : ReadOutcome) :
    after.shared.isReadable read = files.shared.isReadable read := by
  rcases rewritten.shared with same | ⟨file, isFile⟩
  · rw [same]
  · cases shared : files.shared with
    | parsed other =>
        rw [isFile]
        rfl
    | missing =>
        rcases held with ⟨place, _, inShared, present⟩
        cases place with
        | sharedText => simp [Files.entry, shared, Content.text] at present
        | middleware name =>
            rw [Files.entry, shared] at present
            cases present
        | _ => cases inShared
    | unparsable text =>
        have sameText := survives .sharedText trivial
        simp [Files.entry, shared, isFile, Content.text] at sameText

theorem overwrites_of_rewritten (rewritten : Rewritten files after) (survives : Survives appName key files after)
    (held : HoldsShared appName key files) (access : Access) :
    Overwrites access after.shared <-> Overwrites access files.shared := by
  rw [Overwrites, Overwrites, isReadable_of_rewritten rewritten survives held]

end Next

section Logins

variable {appName : String} {key : Nat}

theorem forwardAuth_ne_path {name : String}
    (login : name ∈ [forwardAuthMiddlewareName appName key, forwardAuthErrorsName appName key]) :
    name ∉ [addPrefixName appName key, stripPrefixName appName key] := by
  have isLogin : kindOf name = ['f', 'o'] := by
    rcases List.mem_cons.mp login with first | rest
    · rw [first, kindOf_forwardAuthMiddlewareName]
    · rw [List.mem_singleton.mp rest, kindOf_forwardAuthErrorsName]
  intro member
  rcases List.mem_cons.mp member with first | rest
  · rw [first, kindOf_addPrefixName] at isLogin
    exact absurd isLogin (by decide)
  · rw [List.mem_singleton.mp rest, kindOf_stripPrefixName] at isLogin
    exact absurd isLogin (by decide)

theorem hasForwardAuth_withoutPath (config : FileConfig) :
    hasForwardAuth appName key (.parsed (some (dropEmpty (config.deleteMiddlewares
      [addPrefixName appName key, stripPrefixName appName key])))) =
      hasForwardAuth appName key (.parsed (some config)) := by
  have same : forall name, name ∈ [forwardAuthMiddlewareName appName key, forwardAuthErrorsName appName key] ->
      getEntry (dropEmpty (config.deleteMiddlewares [addPrefixName appName key, stripPrefixName appName key])).middlewares
        name = getEntry config.middlewares name := by
    intro name login
    rw [middlewares_dropEmpty]
    exact FileConfig.getEntry_deleteMiddlewares config (forwardAuth_ne_path login)
  simp only [hasForwardAuth, Content.config, List.any_cons, List.any_nil]
  rw [same _ List.mem_cons_self, same _ (List.mem_cons_of_mem _ List.mem_cons_self)]

theorem removePath_shared (appName : String) (key : Nat) (remote : Bool) (access : Access) (files : Files) :
    (Fallible.removePathMiddlewares remote access appName key files).after.shared = files.shared ∨
      Exists fun config => files.shared = .parsed (some config) ∧
        ((Fallible.removePathMiddlewares remote access appName key files).after.shared = .parsed none ∨
          (Fallible.removePathMiddlewares remote access appName key files).after.shared =
            .parsed (some (dropEmpty (config.deleteMiddlewares
              [addPrefixName appName key, stripPrefixName appName key])))) := by
  unfold Fallible.removePathMiddlewares
  cases readable : files.shared.isReadable access.read with
  | false =>
      rw [loadMiddlewares_of_not readable]
      exact Or.inl rfl
  | true =>
      rcases (isReadable_iff.mp readable).2 with ⟨loaded, isLoaded⟩
      have read : loadMiddlewares access.read files.shared = some loaded := by
        rw [isLoaded] at readable ⊢
        exact loadMiddlewares_of_readable readable
      rw [read]
      cases loaded with
      | none => exact Or.inl rfl
      | some config =>
          cases isWrite : access.write with
          | succeeds => exact Or.inr ⟨config, isLoaded, Or.inr rfl⟩
          | truncates => exact Or.inr ⟨config, isLoaded, Or.inl rfl⟩
          | fails => exact Or.inl rfl

theorem hasForwardAuth_next (remote : Bool) (access : Access) {files : Files}
    (survives : Survives appName key files (Fallible.removePathMiddlewares remote access appName key files).after)
    (held : Holds (OfOthers appName key) Files.entry Place.InShared files) :
    hasForwardAuth appName key (Fallible.removePathMiddlewares remote access appName key files).after.shared =
      hasForwardAuth appName key files.shared := by
  rcases removePath_shared appName key remote access files with
    same | ⟨config, isShared, isNull | rest⟩
  · rw [same]
  · rcases survives.holds.mpr held with ⟨place, _, inShared, present⟩
    cases place with
    | sharedText =>
        rw [Files.entry, isNull] at present
        cases present
    | middleware name =>
        rw [Files.entry, isNull] at present
        cases present
    | _ => cases inShared
  · rw [rest, isShared, hasForwardAuth_withoutPath]

theorem removeForwardAuthGoesOn_next (remote : Bool) (outcomes : Outcomes) (files : Files) :
    (Fallible.removeForwardAuthMiddleware remote outcomes.forwardAuth appName key
      (Fallible.removePathMiddlewares remote outcomes.path appName key files).after).goesOn =
    removeForwardAuthGoesOn remote outcomes.forwardAuth appName key
      (nullAfterRemovePath outcomes.path files.shared) files.shared := by
  rw [removeForwardAuth_goesOn, removePath_null]
  rcases removePath_shared appName key remote outcomes.path files with
    same | ⟨config, isShared, isNull | rest⟩
  · rw [same]
  · have null := removePath_null remote outcomes.path appName key files
    rw [isNull, decide_eq_true rfl] at null
    rw [removeForwardAuthGoesOn, removeForwardAuthGoesOn, ← null, isNull, isShared]
    rfl
  · rw [removeForwardAuthGoesOn, removeForwardAuthGoesOn, rest, hasForwardAuth_withoutPath, isShared]
    rfl

end Logins

section Calls

variable (toPunycode : String -> String) (remote : Bool) (outcomes : Outcomes)

theorem SharedStep.shrinks {appName : String} {key : Nat} {lost : Prop} {files after : Files}
    (step : SharedStep appName key lost files after) :
    Shrinks (OfOthers appName key) Files.entry files after := shrinks_of_cases step.clears step.keeps

theorem SharedStep.survives_iff {appName : String} {key : Nat} {lost : Prop} {files after : Files}
    (step : SharedStep appName key lost files after) :
    Keeps (OfOthers appName key) Files.entry files after <-> ¬ (HoldsShared appName key files ∧ lost) :=
  keeps_iff_of_cases step.clears step.keeps

theorem survives_three_iff {appName : String} {key : Nat} {files : Files} {first : Attempt Files}
    {second third : Files -> Attempt Files} {pathLost loginLost loginLostFirst appLost : Prop}
    (path : SharedStep appName key pathLost files first.after)
    (login : SharedStep appName key loginLost first.after (second first.after).after)
    (clears : appLost -> Clears (OfOthers appName key) Files.entry Place.InApp (second first.after).after
      (third (second first.after).after).after)
    (keeps : ¬ appLost -> Survives appName key (second first.after).after (third (second first.after).after).after)
    (sameLoss : Survives appName key files first.after -> HoldsShared appName key files ->
      (loginLost <-> loginLostFirst)) :
    Survives appName key files ((first.next second).next third).after <->
      ¬ (HoldsShared appName key files ∧ pathLost) ∧
        (first.goesOn = true -> ¬ (HoldsShared appName key files ∧ loginLostFirst) ∧
          ((second first.after).goesOn = true -> ¬ (HoldsApp appName key files ∧ appLost))) := by
  have appShrinks : Shrinks (OfOthers appName key) Files.entry _ _ := shrinks_of_cases clears keeps
  have sameLogin : Survives appName key files first.after ->
      (¬ (HoldsShared appName key first.after ∧ loginLost) <-> ¬ (HoldsShared appName key files ∧ loginLostFirst)) := by
    intro survives
    rw [HoldsShared, survives.holds]
    exact not_congr (and_congr_right fun held => sameLoss survives held)
  rw [Survives, Attempt.next_next, keeps_next_iff path.shrinks (shrinks_next login.shrinks appShrinks),
    keeps_next_iff login.shrinks appShrinks, path.survives_iff, login.survives_iff, keeps_iff_of_cases clears keeps]
  constructor
  · rintro ⟨safe, rest⟩
    refine ⟨safe, fun goesOn => ?_⟩
    have survives := path.survives_iff.mpr safe
    rcases rest goesOn with ⟨loginSafe, appSafe⟩
    have alsoSurvives := login.survives_iff.mpr loginSafe
    refine ⟨(sameLogin survives).mp loginSafe, fun alsoGoesOn => ?_⟩
    rw [HoldsApp, ← survives.holds, ← alsoSurvives.holds]
    exact appSafe alsoGoesOn
  · rintro ⟨safe, rest⟩
    refine ⟨safe, fun goesOn => ?_⟩
    have survives := path.survives_iff.mpr safe
    rcases rest goesOn with ⟨loginSafe, appSafe⟩
    have isSafe := (sameLogin survives).mpr loginSafe
    have alsoSurvives := login.survives_iff.mpr isSafe
    refine ⟨isSafe, fun alsoGoesOn => ?_⟩
    have appKept := appSafe alsoGoesOn
    rw [HoldsApp, ← survives.holds, ← alsoSurvives.holds] at appKept
    exact appKept

theorem manageDomain_survives_iff (application : Application) (domain : Domain) (files : Files)
    (enabled : domain.enabled = true) :
    Survives application.appName domain.uniqueConfigKey files
        (Fallible.manageDomain toPunycode remote outcomes application domain files).after <->
      SparesWhenManaged remote outcomes application.appName files domain := by
  unfold Fallible.manageDomain
  rw [if_pos enabled, SparesWhenManaged, ← loadAppConfig_isSome]
  cases loaded : loadAppConfig remote outcomes.app.read files.app with
  | none => exact ⟨fun _ isLoaded => Bool.noConfusion isLoaded, fun _ => Keeps.refl files⟩
  | some config =>
      dsimp only
      have pathRewrites := rewritten_createPath remote outcomes.path application.appName domain files
      have loginRewrites := rewritten_createForwardAuth remote outcomes.forwardAuth outcomes.authGate
        application.appName domain (Fallible.createPathMiddlewares remote outcomes.path application.appName domain
          files).after
      have sameApp := loginRewrites.app.trans pathRewrites.app
      have written := write_step (by rw [sameApp]; exact loaded)
        (managedConfig_sameOthers toPunycode application domain config)
      rw [survives_three_iff (createPath_step remote outcomes.path application.appName domain files)
        (createForwardAuth_step remote outcomes.forwardAuth application.appName domain outcomes.authGate _)
        written.1 written.2 fun survives held =>
          and_congr_right fun _ => overwrites_of_rewritten pathRewrites survives held outcomes.forwardAuth,
        createPath_goesOn, createForwardAuth_goesOn, createPath_null, sameApp]
      exact ⟨fun spares _ => spares, fun spares => spares rfl⟩

theorem removeDomain_survives_iff (appName : String) (key : Nat) (files : Files) :
    Survives appName key files (Fallible.removeDomain remote outcomes appName key files).after <->
      SparesWhenRemoved remote outcomes appName files key := by
  unfold Fallible.removeDomain
  rw [SparesWhenRemoved, ← loadAppConfig_isSome]
  cases loaded : loadAppConfig remote outcomes.app.read files.app with
  | none => exact ⟨fun _ isLoaded => Bool.noConfusion isLoaded, fun _ => Keeps.refl files⟩
  | some config =>
      dsimp only
      have pathRewrites := rewritten_removePath remote outcomes.path appName key files
      have loginRewrites := rewritten_removeForwardAuth remote outcomes.forwardAuth appName key
        (Fallible.removePathMiddlewares remote outcomes.path appName key files).after
      have sameApp := loginRewrites.app.trans pathRewrites.app
      have written := writeOrRemove_step appName key (by rw [sameApp]; exact loaded)
      rw [survives_three_iff (removePath_step remote outcomes.path appName key files)
        (removeForwardAuth_step remote outcomes.forwardAuth appName key _) written.1 written.2 fun survives held => ?_,
        removePath_goesOn, removeForwardAuthGoesOn_next, sameApp]
      · exact ⟨fun spares _ => spares, fun spares => spares rfl⟩
      rw [isReadable_of_rewritten pathRewrites survives held]
      refine and_congr_right fun _ => and_congr_left fun _ => ?_
      rw [hasForwardAuth_next remote outcomes.path survives held]

inductive Call where
  | manageDomain (domain : Domain)
  | removeDomain (key : Nat)
  | createPathMiddlewares (domain : Domain)
  | createForwardAuthMiddleware (domain : Domain)
deriving DecidableEq

def Call.key : Call -> Nat
  | .manageDomain domain | .createPathMiddlewares domain | .createForwardAuthMiddleware domain => domain.uniqueConfigKey
  | .removeDomain key => key

def Call.run (application : Application) (files : Files) : Call -> Files
  | .manageDomain domain => (Fallible.manageDomain toPunycode remote outcomes application domain files).after
  | .removeDomain key => (Fallible.removeDomain remote outcomes application.appName key files).after
  | .createPathMiddlewares domain =>
      (Fallible.createPathMiddlewares remote outcomes.path application.appName domain files).after
  | .createForwardAuthMiddleware domain =>
      (Fallible.createForwardAuthMiddleware remote outcomes.forwardAuth outcomes.authGate application.appName domain
        files).after

def Call.Spares (appName : String) (files : Files) : Call -> Prop
  | .manageDomain domain =>
      if domain.enabled then SparesWhenManaged remote outcomes appName files domain
      else SparesWhenRemoved remote outcomes appName files domain.uniqueConfigKey
  | .removeDomain key => SparesWhenRemoved remote outcomes appName files key
  | .createPathMiddlewares domain => SparesPath outcomes appName files domain
  | .createForwardAuthMiddleware domain => SparesForwardAuth outcomes appName files domain

/-- A call loses nothing of others exactly when no step of it overwrites or removes what it did not read. -/
theorem call_survives_iff (application : Application) (files : Files) (call : Call) :
    Survives application.appName call.key files (call.run toPunycode remote outcomes application files) <->
      call.Spares remote outcomes application.appName files := by
  cases call with
  | manageDomain domain =>
      cases enabled : domain.enabled with
      | true =>
          rw [Call.Spares, enabled, if_pos rfl]
          exact manageDomain_survives_iff toPunycode remote outcomes application domain files enabled
      | false =>
          rw [Call.Spares, enabled, if_neg Bool.false_ne_true, Call.run, Fallible.manageDomain, enabled,
            if_neg Bool.false_ne_true]
          exact removeDomain_survives_iff remote outcomes application.appName domain.uniqueConfigKey files
  | removeDomain key => exact removeDomain_survives_iff remote outcomes application.appName key files
  | createPathMiddlewares domain =>
      exact (createPath_step remote outcomes.path application.appName domain files).survives_iff
  | createForwardAuthMiddleware domain =>
      exact (createForwardAuth_step remote outcomes.forwardAuth application.appName domain outcomes.authGate
        files).survives_iff

end Calls

def plainDomain (key : Nat) : Domain where
  uniqueConfigKey := key
  enabled := true
  host := "example.org"
  path := none
  internalPath := none
  stripPath := false
  https := false
  port := none
  customEntrypoint := none
  publishToCloudflare := false
  domainType := .application
  forwardAuthEnabled := false
  middlewares := none
  certificateType := .none
  customCertResolver := none

def plainApplication : Application := { appName := "app", redirects := [], security := [] }

/-- The file of an application with one domain. -/
def oneDomain : Files where
  app := .parsed (some (managedConfig id plainApplication (plainDomain 1) createdConfig))
  shared := .parsed noMiddlewares

/-- Only the read of the application's file fails. -/
def failedRead : Outcomes where
  app := { read := .fails, write := .succeeds }
  path := { read := .succeeds, write := .succeeds }
  forwardAuth := { read := .succeeds, write := .succeeds }
  authGate := some none

/-- A second domain is added on a remote server, and the first one is gone. -/
theorem failedRead_loses : ¬ Survives plainApplication.appName 2 oneDomain
    (Call.run id true failedRead plainApplication oneDomain (.manageDomain (plainDomain 2))) := by
  intro survives
  have kept := survives (.router (routerName plainApplication.appName 1)) ⟨1, by decide, Or.inl rfl⟩
  exact absurd kept (by decide)

end Traefik
end Dokploy
