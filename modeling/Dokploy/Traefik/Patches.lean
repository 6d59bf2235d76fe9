import Dokploy.Traefik.Survival

namespace Dokploy
namespace Traefik

open Foundation

/-!
# Patching every router of an application

A new redirect or a first user is put on every router that the application's file
has at that moment, and taken off every router when it is removed.  All files are
read and written without an error here.
-/

/-- `router.middlewares.push(middlewareName)`, unless the router has it. -/
def HttpRouter.push (name : String) (router : HttpRouter) : HttpRouter :=
  let middlewares := router.middlewares.getD []
  { router with middlewares := some (if name ∈ middlewares then middlewares else middlewares ++ [name]) }

def HttpRouter.drop (name : String) (router : HttpRouter) : HttpRouter :=
  { router with middlewares := router.middlewares.map fun middlewares => middlewares.filter (· ≠ name) }

namespace FileConfig

def mapRouters (change : HttpRouter -> HttpRouter) (config : FileConfig) : FileConfig :=
  { config with
    http := config.http.map fun http =>
      { http with routers := http.routers.map fun routers => routers.map fun entry => (entry.1, change entry.2) } }

def addMiddleware (name : String) (config : FileConfig) : FileConfig := config.mapRouters (HttpRouter.push name)

def deleteMiddleware (name : String) (config : FileConfig) : FileConfig := config.mapRouters (HttpRouter.drop name)

def isEmptyHttpRoutersAndServices (config : FileConfig) : Bool := config.routers.isEmpty && config.services.isEmpty

end FileConfig

def writeAppTraefikConfig (config : FileConfig) : Content :=
  if config.isEmptyHttpRoutersAndServices then .missing else .parsed (some config)

/-- The shared file and the file of the application are both read first, and an error stops the operation there. -/
def patchFiles (remote : Bool) (effect : MiddlewaresFile -> Option MiddlewaresFile)
    (change : FileConfig -> FileConfig) (files : Files) : Option Files :=
  match loadMiddlewares .succeeds files.shared, loadAppConfig remote .succeeds files.app with
  | some shared, some config =>
      (effect shared).map fun file => { app := writeAppTraefikConfig (change config), shared := .parsed file }
  | _, _ => none

namespace Patched

variable (remote : Bool)

def createSecurityMiddleware (appName user : String) : Files -> Option Files :=
  patchFiles remote (Traefik.createSecurityMiddleware · appName user) (FileConfig.addMiddleware (authName appName))

/-- The user is the last one whose line is in the file. -/
def removesLastUser (appName username : String) (files : Files) : Bool :=
  match remainingUsers files.shared.config appName username with
  | some (_, []) => true
  | _ => false

/-- The file of the application is only written when the gate is gone. -/
def removeSecurityMiddleware (appName username : String) (files : Files) : Option Files :=
  (patchFiles remote (Traefik.removeSecurityMiddleware · appName username)
    (FileConfig.deleteMiddleware (authName appName)) files).map fun after =>
      if removesLastUser appName username files then after else { after with app := files.app }

def createRedirectMiddleware (appName : String) (data : Redirect) : Files -> Option Files :=
  patchFiles remote (Traefik.createRedirectMiddleware · appName data)
    (FileConfig.addMiddleware (redirectName appName data.uniqueConfigKey))

def removeRedirectMiddleware (appName : String) (data : Redirect) : Files -> Option Files :=
  patchFiles remote (Traefik.removeRedirectMiddleware · appName data)
    (FileConfig.deleteMiddleware (redirectName appName data.uniqueConfigKey))

end Patched

def Files.router (files : Files) (name : String) : Option HttpRouter := getEntry files.app.config.routers name

def Files.middleware (files : Files) (name : String) : Option HttpMiddleware :=
  getEntry files.shared.config.middlewares name

theorem getEntry_map {Value Changed : Type} (change : Value -> Changed) (entries : List (String × Value)) (name : String) :
    getEntry (entries.map fun entry => (entry.1, change entry.2)) name = (getEntry entries name).map change := by
  induction entries with
  | nil => rfl
  | cons entry rest ih =>
      rw [List.map_cons, getEntry_cons, getEntry_cons, ih]
      split
      · rfl
      · rfl

theorem routers_mapRouters (change : HttpRouter -> HttpRouter) (config : FileConfig) :
    (config.mapRouters change).routers = config.routers.map fun entry => (entry.1, change entry.2) := by
  rcases config with ⟨http, other⟩
  cases http with
  | none => rfl
  | some http =>
      rcases http with ⟨routers, services, middlewares, rest⟩
      cases routers with
      | none => rfl
      | some routers => rfl

theorem router_writeAppTraefikConfig (config : FileConfig) (name : String) :
    getEntry (writeAppTraefikConfig config).config.routers name = getEntry config.routers name := by
  unfold writeAppTraefikConfig
  split
  · rename_i empty
    have none := (Bool.and_eq_true_iff.mp empty).1
    rw [List.isEmpty_iff.mp none]
    rfl
  · rfl

/-- The application's file is missing or can be parsed. -/
def Content.IsPlain (content : Content) : Prop := forall text, content ≠ .unparsable text

theorem loadAppConfig_plain (remote : Bool) {content : Content} (plain : content.IsPlain) :
    Exists fun config => loadAppConfig remote .succeeds content = some config ∧
      config.routers = content.config.routers := by
  cases content with
  | missing => cases remote <;> exact ⟨createdConfig, rfl, rfl⟩
  | unparsable text => exact absurd rfl (plain text)
  | parsed file =>
      cases file with
      | none => cases remote <;> exact ⟨createdConfig, rfl, rfl⟩
      | some config => cases remote <;> exact ⟨config, rfl, rfl⟩

theorem isPlain_writeAppTraefikConfig (config : FileConfig) : (writeAppTraefikConfig config).IsPlain := by
  intro text isText
  unfold writeAppTraefikConfig at isText
  split at isText
  · cases isText
  · cases isText

namespace FileConfig

theorem isSome_setMiddlewares (config : FileConfig) (entries : List (String × HttpMiddleware)) (name : String) :
    (getEntry (config.setMiddlewares entries).middlewares name).isSome = true <->
      name ∈ entries.map Prod.fst ∨ (getEntry config.middlewares name).isSome = true := by
  rw [setMiddlewares, middlewares_withMiddlewares]
  generalize config.middlewares = held
  induction entries generalizing held with
  | nil => simp
  | cons entry rest ih =>
      rw [List.foldl_cons, ih, getEntry_isSome, mem_keys_setEntry, getEntry_isSome, List.map_cons,
        List.mem_cons]
      tauto

theorem getEntry_deleted_none {entries : List (String × HttpMiddleware)} {name : String} (names : List String)
    (gone : getEntry entries name = none) : getEntry (names.foldl deleteEntry entries) name = none := by
  induction names generalizing entries with
  | nil => exact gone
  | cons first rest ih =>
      refine ih ?_
      by_cases same : name = first
      · rw [same]
        exact getEntry_deleteEntry_self entries first
      · rw [getEntry_deleteEntry_other entries same]
        exact gone

theorem getEntry_deleteMiddlewares_self {names : List String} {name : String} (config : FileConfig)
    (named : name ∈ names) : getEntry (config.deleteMiddlewares names).middlewares name = none := by
  unfold deleteMiddlewares
  split
  · rw [middlewares_withMiddlewares]
    generalize config.middlewares = entries
    induction names generalizing entries with
    | nil => cases named
    | cons first rest ih =>
        rw [List.foldl_cons]
        by_cases later : name ∈ rest
        · exact ih later _
        · have isFirst : name = first := (List.mem_cons.mp named).resolve_right later
          have gone : getEntry (deleteEntry entries first) name = none := by
            rw [isFirst]
            exact getEntry_deleteEntry_self entries first
          exact getEntry_deleted_none rest gone
  · rename_i noSection
    rw [middlewares, Option.not_isSome_iff_eq_none.mp noSection]
    rfl

end FileConfig

end Traefik
end Dokploy
