import Dokploy.Traefik.Routing

namespace Dokploy
namespace Traefik

open Foundation

/-!
# What an operation makes of the files

When no access fails, an operation on the shared file defines some middlewares or
deletes some, and an operation on the application's file writes the routers of one
domain or changes all of them in the same way.
-/

/-- The files can be read: there is a shared file, and no text is refused by the parser. -/
structure Sound (files : Files) : Prop where
  app : files.app.IsPlain
  shared : Exists fun config => files.shared = .parsed (some config)

structure Defines (names : List String) (files after : Files) : Prop where
  shared : Exists fun config => after.shared = .parsed (some config)
  defined : forall name, (after.middleware name).isSome = true <->
    name ∈ names ∨ (files.middleware name).isSome = true
  same : forall name, name ∉ names -> after.middleware name = files.middleware name

structure Undefines (names : List String) (files after : Files) : Prop where
  shared : Exists fun config => after.shared = .parsed (some config)
  gone : forall name, name ∈ names -> after.middleware name = none
  same : forall name, name ∉ names -> after.middleware name = files.middleware name

section Chains

variable {names more : List String} {files middle after : Files}

theorem Defines.nothing (shared : Exists fun config => files.shared = .parsed (some config)) :
    Defines [] files files := ⟨shared, fun _ => by simp, fun _ _ => rfl⟩

theorem Defines.trans (first : Defines names files middle) (second : Defines more middle after) :
    Defines (names ++ more) files after where
  shared := second.shared
  defined := by
    intro name
    rw [second.defined, first.defined, List.mem_append]
    tauto
  same := by
    intro name unnamed
    rw [List.mem_append, not_or] at unnamed
    rw [second.same name unnamed.2, first.same name unnamed.1]

theorem Undefines.trans (first : Undefines names files middle) (second : Undefines more middle after) :
    Undefines (names ++ more) files after where
  shared := second.shared
  gone := by
    intro name named
    by_cases late : name ∈ more
    · exact second.gone name late
    · rw [second.same name late]
      exact first.gone name ((List.mem_append.mp named).resolve_right late)
  same := by
    intro name unnamed
    rw [List.mem_append, not_or] at unnamed
    rw [second.same name unnamed.2, first.same name unnamed.1]

theorem defines_setMiddlewares {config : FileConfig} (entries : List (String × HttpMiddleware))
    (isShared : files.shared = .parsed (some config)) (written : after.shared = .parsed (some (config.setMiddlewares entries))) :
    Defines (entries.map Prod.fst) files after where
  shared := ⟨_, written⟩
  defined := by
    intro name
    rw [Files.middleware, Files.middleware, isShared, written]
    exact FileConfig.isSome_setMiddlewares config entries name
  same := by
    intro name unnamed
    rw [Files.middleware, Files.middleware, isShared, written]
    exact FileConfig.getEntry_setMiddlewares config unnamed

theorem undefines_deleteMiddlewares {config changed : FileConfig} (names : List String)
    (isShared : files.shared = .parsed (some config)) (written : after.shared = .parsed (some changed))
    (deleted : changed.middlewares = (config.deleteMiddlewares names).middlewares) : Undefines names files after where
  shared := ⟨_, written⟩
  gone := by
    intro name named
    rw [Files.middleware, written]
    exact (congrArg (getEntry · name) deleted).trans (FileConfig.getEntry_deleteMiddlewares_self config named)
  same := by
    intro name unnamed
    rw [Files.middleware, Files.middleware, isShared, written]
    exact (congrArg (getEntry · name) deleted).trans (FileConfig.getEntry_deleteMiddlewares config unnamed)

end Chains

section Shared

variable (remote : Bool) (appName : String) {files : Files}

theorem createPath_defines (domain : Domain) (shared : Exists fun config => files.shared = .parsed (some config)) :
    (Fallible.createPathMiddlewares remote (succeeding none).path appName domain files).goesOn = true ∧
      (Fallible.createPathMiddlewares remote (succeeding none).path appName domain files).after.app = files.app ∧
      Defines ((pathMiddlewares appName domain).map Prod.fst) files
        (Fallible.createPathMiddlewares remote (succeeding none).path appName domain files).after := by
  rcases shared with ⟨config, isShared⟩
  have isLoaded : loadOrEmptyMiddlewares .succeeds files.shared = some config := by
    rw [isShared]
    rfl
  unfold Fallible.createPathMiddlewares
  rw [show (succeeding none).path.read = .succeeds from rfl, isLoaded, createPathMiddlewares]
  by_cases nothing : pathMiddlewares appName domain = []
  · rw [if_pos nothing, nothing]
    exact ⟨rfl, rfl, Defines.nothing ⟨config, isShared⟩⟩
  · rw [if_neg nothing]
    exact ⟨Bool.or_true remote, rfl, defines_setMiddlewares _ isShared rfl⟩

theorem createForwardAuth_defines (domain : Domain) {authGate : Option AuthGate}
    (hasGate : domain.forwardAuthEnabled = true -> authGate.isSome = true)
    (shared : Exists fun config => files.shared = .parsed (some config)) :
    (Fallible.createForwardAuthMiddleware remote (succeeding none).forwardAuth (some authGate) appName domain
        files).goesOn = true ∧
      (Fallible.createForwardAuthMiddleware remote (succeeding none).forwardAuth (some authGate) appName domain
        files).after.app = files.app ∧
      Defines (loginNames appName domain) files
        (Fallible.createForwardAuthMiddleware remote (succeeding none).forwardAuth (some authGate) appName domain
          files).after := by
  rcases shared with ⟨config, isShared⟩
  have isLoaded : loadOrEmptyMiddlewares .succeeds files.shared = some config := by
    rw [isShared]
    rfl
  unfold Fallible.createForwardAuthMiddleware loginNames
  cases enabled : domain.forwardAuthEnabled with
  | false => exact ⟨rfl, rfl, Defines.nothing ⟨config, isShared⟩⟩
  | true =>
      rcases Option.isSome_iff_exists.mp (hasGate enabled) with ⟨gate, isGate⟩
      have made : createForwardAuthMiddleware (some config) appName domain (some gate) =
          some (some (config.setMiddlewares (forwardAuthMiddlewares appName domain.uniqueConfigKey gate))) :=
        if_pos enabled
      rw [isGate, if_pos rfl, if_pos rfl]
      dsimp only
      rw [show (succeeding none).forwardAuth.read = .succeeds from rfl, isLoaded, made]
      have defines : Defines _ files (persistMiddlewares remote .succeeds
          (some (config.setMiddlewares (forwardAuthMiddlewares appName domain.uniqueConfigKey gate))) files).after :=
        defines_setMiddlewares _ isShared rfl
      have reversed : forall name : String, name ∈ [forwardAuthErrorsName appName domain.uniqueConfigKey,
          forwardAuthMiddlewareName appName domain.uniqueConfigKey] <->
          name ∈ (forwardAuthMiddlewares appName domain.uniqueConfigKey gate).map Prod.fst := by
        intro name
        simp only [forwardAuthMiddlewares, List.map_cons, List.map_nil, List.mem_cons, List.not_mem_nil, or_false]
        exact or_comm
      refine ⟨Bool.or_true remote, rfl, defines.shared, fun name => ?_, fun name unnamed => ?_⟩
      · rw [reversed]
        exact defines.defined name
      · rw [reversed] at unnamed
        exact defines.same name unnamed

theorem removePath_undefines (key : Nat) (shared : Exists fun config => files.shared = .parsed (some config)) :
    (Fallible.removePathMiddlewares remote (succeeding none).path appName key files).goesOn = true ∧
      (Fallible.removePathMiddlewares remote (succeeding none).path appName key files).after.app = files.app ∧
      Undefines [addPrefixName appName key, stripPrefixName appName key] files
        (Fallible.removePathMiddlewares remote (succeeding none).path appName key files).after := by
  rcases shared with ⟨config, isShared⟩
  have isLoaded : loadMiddlewares .succeeds files.shared = some (some config) := by
    rw [isShared]
    rfl
  unfold Fallible.removePathMiddlewares
  rw [show (succeeding none).path.read = .succeeds from rfl, isLoaded]
  exact ⟨Bool.or_true remote, rfl, undefines_deleteMiddlewares _ isShared rfl (middlewares_dropEmpty _)⟩

theorem removeForwardAuth_undefines (key : Nat) (shared : Exists fun config => files.shared = .parsed (some config)) :
    (Fallible.removeForwardAuthMiddleware remote (succeeding none).forwardAuth appName key files).after.app = files.app ∧
      (Fallible.removeForwardAuthMiddleware remote (succeeding none).forwardAuth appName key files).goesOn = true ∧
      Undefines [forwardAuthMiddlewareName appName key, forwardAuthErrorsName appName key] files
        (Fallible.removeForwardAuthMiddleware remote (succeeding none).forwardAuth appName key files).after := by
  rcases shared with ⟨config, isShared⟩
  have isLoaded : loadMiddlewares .succeeds files.shared = some (some config) := by
    rw [isShared]
    rfl
  unfold Fallible.removeForwardAuthMiddleware
  rw [show (succeeding none).forwardAuth.read = .succeeds from rfl, isLoaded]
  dsimp only [removeForwardAuthMiddleware]
  by_cases present : ([forwardAuthMiddlewareName appName key, forwardAuthErrorsName appName key].any fun name =>
      (getEntry config.middlewares name).isSome) = true
  · rw [if_pos present]
    exact ⟨rfl, Bool.or_true remote, undefines_deleteMiddlewares _ isShared rfl rfl⟩
  · rw [if_neg present]
    refine ⟨rfl, rfl, ⟨config, isShared⟩, fun name named => ?_, fun name _ => rfl⟩
    rw [List.any_eq_true] at present
    rw [Files.middleware, isShared]
    exact Option.not_isSome_iff_eq_none.mp fun isSome => present ⟨name, named, isSome⟩

end Shared

section Whole

variable (toPunycode : String -> String) (remote : Bool) {files : Files}

theorem manageDomain_effect (application : Application) (domain : Domain) {authGate : Option AuthGate}
    (enabled : domain.enabled = true) (hasGate : domain.forwardAuthEnabled = true -> authGate.isSome = true)
    (sound : Sound files) :
    let after := (Fallible.manageDomain toPunycode remote (succeeding authGate) application domain files).after
    Sound after ∧ Defines (definedBy application.appName domain) files after ∧
      forall name, after.router name =
        getEntry (managedRouters toPunycode application domain files.app.config.routers) name := by
  intro after
  rcases loadAppConfig_plain remote sound.app with ⟨config, loaded, sameRouters⟩
  have path := createPath_defines remote application.appName domain sound.shared
  have login := createForwardAuth_defines remote application.appName domain hasGate path.2.2.shared
  have isAfter : after = (writeTraefikConfig .succeeds (managedConfig toPunycode application domain config)
      (Fallible.createForwardAuthMiddleware remote (succeeding none).forwardAuth (some authGate) application.appName
        domain (Fallible.createPathMiddlewares remote (succeeding none).path application.appName domain
          files).after).after).after := by
    show (Fallible.manageDomain toPunycode remote (succeeding authGate) application domain files).after = _
    unfold Fallible.manageDomain
    rw [if_pos enabled, show loadAppConfig remote (succeeding authGate).app.read files.app = some config from loaded]
    dsimp only
    rw [Attempt.next_next]
    exact congrArg Attempt.after ((Attempt.next_of_goesOn _ path.1).trans (Attempt.next_of_goesOn _ login.1))
  have defines := path.2.2.trans login.2.2
  refine ⟨⟨?_, ?_⟩, ?_, ?_⟩
  · rw [isAfter]
    intro text isText
    cases isText
  · rw [isAfter]
    exact defines.shared
  · rw [isAfter]
    exact ⟨defines.shared, defines.defined, defines.same⟩
  · intro name
    rw [isAfter, ← sameRouters, ← managedConfig_routers]
    rfl

theorem removeDomain_effect (appName : String) (key : Nat) (authGate : Option AuthGate) (sound : Sound files) :
    let after := (Fallible.removeDomain remote (succeeding authGate) appName key files).after
    Sound after ∧ Undefines (domainMiddlewares appName key) files after ∧
      forall name, after.router name =
        getEntry (deleteEntry (deleteEntry files.app.config.routers (routerName appName key))
          (routerNameSecure appName key)) name := by
  intro after
  rcases loadAppConfig_plain remote sound.app with ⟨config, loaded, sameRouters⟩
  have path := removePath_undefines remote appName key sound.shared
  have login := removeForwardAuth_undefines remote appName key path.2.2.shared
  have isAfter : after = (Fallible.writeOrRemove .succeeds (removedConfig appName key config)
      (Fallible.removeForwardAuthMiddleware remote (succeeding none).forwardAuth appName key
        (Fallible.removePathMiddlewares remote (succeeding none).path appName key files).after).after).after := by
    show (Fallible.removeDomain remote (succeeding authGate) appName key files).after = _
    unfold Fallible.removeDomain
    rw [show loadAppConfig remote (succeeding authGate).app.read files.app = some config from loaded]
    dsimp only
    rw [Attempt.next_next]
    exact congrArg Attempt.after ((Attempt.next_of_goesOn _ path.1).trans (Attempt.next_of_goesOn _ login.2.1))
  have undefines := path.2.2.trans login.2.2
  have routersLeft : (removedConfig appName key config).routers =
      deleteEntry (deleteEntry config.routers (routerName appName key)) (routerNameSecure appName key) := by
    rcases config with ⟨http, other⟩
    cases http with
    | none => rfl
    | some http =>
        rcases http with ⟨routers, services, middlewares, rest⟩
        cases routers with
        | none => rfl
        | some routers => rfl
  rw [← sameRouters, ← routersLeft, isAfter]
  unfold Fallible.writeOrRemove
  split
  · rename_i last
    refine ⟨⟨fun text isText => ?_, undefines.shared⟩, ⟨undefines.shared, undefines.gone, undefines.same⟩, fun name => ?_⟩
    · cases isText
    · have noRouters : (removedConfig appName key config).routers = [] := by
        rw [FileConfig.routers, of_decide_eq_true last]
        rfl
      rw [noRouters]
      rfl
  · exact ⟨⟨(fun _ isText => by cases isText), undefines.shared⟩,
      ⟨undefines.shared, undefines.gone, undefines.same⟩, fun name => rfl⟩

theorem patchFiles_sound (effect : MiddlewaresFile -> Option MiddlewaresFile) (change : HttpRouter -> HttpRouter)
    {config changed : FileConfig} (sound : Sound files) (isShared : files.shared = .parsed (some config))
    (made : effect (some config) = some (some changed)) :
    Exists fun after => patchFiles remote effect (FileConfig.mapRouters change) files = some after ∧
      Sound after ∧ after.shared = .parsed (some changed) ∧
        forall name, after.router name = (files.router name).map change := by
  rcases loadAppConfig_plain remote sound.app with ⟨appConfig, loaded, sameRouters⟩
  have read : loadMiddlewares .succeeds files.shared = some (some config) := by
    rw [isShared]
    rfl
  refine ⟨{ app := writeAppTraefikConfig (appConfig.mapRouters change), shared := .parsed (some changed) }, ?_,
    ⟨isPlain_writeAppTraefikConfig _, changed, rfl⟩, rfl, fun name => ?_⟩
  · unfold patchFiles
    rw [read, loaded]
    dsimp only
    rw [made]
    rfl
  · rw [Files.router, router_writeAppTraefikConfig, routers_mapRouters, sameRouters, Files.router]
    exact getEntry_map change _ name

end Whole

end Traefik
end Dokploy
