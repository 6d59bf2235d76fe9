import Mathlib.Data.List.Permutation
import Dokploy.Foundation.Rewrites
import Dokploy.Traefik.Middlewares
import Dokploy.Traefik.Names

namespace Dokploy
namespace Traefik

open Foundation
open Rewrites

/-!
# Operations on the shared middlewares file

Every operation reads the whole file and writes the whole file back.  Between the
two it waits for the hash of a password or for a remote host, and on the Dokploy
host itself all but two of the operations do not wait at all.

Without a lock an operation that waits can write back a file that somebody else
has changed.  Where that does not happen, the operations are carried out one
after the other, and each of them leaves the other applications alone.
-/

inductive SharedOperation where
  | createSecurity (appName user : String)
  | removeSecurity (appName username : String)
  | createRedirect (appName : String) (data : Redirect)
  | removeRedirect (appName : String) (data : Redirect)
  | createPath (appName : String) (domain : Domain)
  | removePath (appName : String) (key : Nat)
  | createForwardAuth (appName : String) (domain : Domain) (authGate : Option AuthGate)
  | removeForwardAuth (appName : String) (key : Nat)
deriving DecidableEq

def SharedOperation.appName : SharedOperation -> String
  | .createSecurity appName _ | .removeSecurity appName _ | .createRedirect appName _ | .removeRedirect appName _
  | .createPath appName _ | .removePath appName _ | .createForwardAuth appName _ _ | .removeForwardAuth appName _ =>
      appName

def SharedOperation.effect (operation : SharedOperation) (file : MiddlewaresFile) : Option MiddlewaresFile :=
  match operation with
  | .createSecurity appName user => createSecurityMiddleware file appName user
  | .removeSecurity appName username => removeSecurityMiddleware file appName username
  | .createRedirect appName data => createRedirectMiddleware file appName data
  | .removeRedirect appName data => removeRedirectMiddleware file appName data
  | .createPath appName domain => createPathMiddlewares file appName domain
  | .removePath appName key => removePathMiddlewares file appName key
  | .createForwardAuth appName domain authGate => createForwardAuthMiddleware file appName domain authGate
  | .removeForwardAuth appName key => removeForwardAuthMiddleware file appName key

/-- A local file is read and written at once, except where a hash is awaited or the loader is. -/
def sharedFile (remote : Bool) : Effects SharedOperation MiddlewaresFile where
  effect := SharedOperation.effect
  atomic := fun operation =>
    match operation with
    | .createSecurity _ _ | .createForwardAuth _ _ _ => false
    | _ => !remote

def middlewareAt (file : MiddlewaresFile) (name : String) : Option HttpMiddleware :=
  file.bind fun config => getEntry config.middlewares name

namespace FileConfig

theorem getEntry_setMiddlewares {entries : List (String × HttpMiddleware)} {name : String} (config : FileConfig)
    (unnamed : name ∉ entries.map Prod.fst) :
    getEntry (config.setMiddlewares entries).middlewares name = getEntry config.middlewares name := by
  rw [setMiddlewares, middlewares_withMiddlewares]
  induction entries generalizing config with
  | nil => rfl
  | cons entry rest ih =>
      rw [List.map_cons, List.mem_cons, not_or] at unnamed
      have later := ih (config.withMiddlewares (setEntry config.middlewares entry.1 entry.2)) unnamed.2
      rw [middlewares_withMiddlewares] at later
      rw [List.foldl_cons, later, getEntry_setEntry_other _ _ unnamed.1]

theorem getEntry_deleteMiddlewares {names : List String} {name : String} (config : FileConfig) (unnamed : name ∉ names) :
    getEntry (config.deleteMiddlewares names).middlewares name = getEntry config.middlewares name := by
  unfold deleteMiddlewares
  split
  · rw [middlewares_withMiddlewares]
    generalize config.middlewares = entries
    induction names generalizing entries with
    | nil => rfl
    | cons first rest ih =>
        rw [List.mem_cons, not_or] at unnamed
        rw [List.foldl_cons, ih unnamed.2, getEntry_deleteEntry_other _ unnamed.1]
  · rfl

end FileConfig

theorem middlewares_unlessEmpty (http : HttpConfig) :
    (if http.isEmpty = true then none else some http).bind (·.middlewares) = http.middlewares := by
  split
  · rename_i empty
    simp only [HttpConfig.isEmpty, Bool.and_eq_true, Option.isNone_iff_eq_none] at empty
    exact empty.1.2.symm
  · rfl

theorem middlewares_dropEmpty (config : FileConfig) : (dropEmpty config).middlewares = config.middlewares := by
  rcases config with ⟨http, other⟩
  cases http with
  | none => rfl
  | some http =>
      simp only [dropEmpty, FileConfig.middlewares, middlewares_unlessEmpty, Option.bind_some]
      by_cases noMiddlewares : http.middlewares = some []
      · rw [if_pos noMiddlewares, noMiddlewares]
        rfl
      · rw [if_neg noMiddlewares]

theorem SharedOperation.effect_keeps {operation : SharedOperation} {file after : MiddlewaresFile} {name : String}
    (effect : operation.effect file = some after) (foreign : ¬ NamedAfter operation.appName name) :
    middlewareAt after name = middlewareAt file name := by
  have sets : forall (config : FileConfig) (entries : List (String × HttpMiddleware)),
      (forall entry, entry ∈ entries -> NamedAfter operation.appName entry.1) ->
        middlewareAt (some (config.setMiddlewares entries)) name = middlewareAt (some config) name := by
    intro config entries named
    refine FileConfig.getEntry_setMiddlewares config fun member => ?_
    rcases List.mem_map.mp member with ⟨entry, isEntry, isName⟩
    exact foreign (isName ▸ named entry isEntry)
  have deletes : forall (config : FileConfig) (names : List String),
      (forall other, other ∈ names -> NamedAfter operation.appName other) ->
        middlewareAt (some (config.deleteMiddlewares names)) name = middlewareAt (some config) name :=
    fun config names named => FileConfig.getEntry_deleteMiddlewares config fun member => foreign (named name member)
  cases operation with
  | createSecurity appName user =>
      have gate : forall settings, forall entry, entry ∈ [(authName appName, HttpMiddleware.basicAuth settings)] ->
          NamedAfter appName entry.1 := by
        intro settings entry member
        rw [List.mem_singleton.mp member]
        exact NamedAfter.auth
      cases file with
      | none => cases effect
      | some config =>
          simp only [SharedOperation.effect, createSecurityMiddleware] at effect
          split at effect
          · split at effect
            · cases effect
              exact sets config _ (gate _)
            · cases effect
              exact sets config _ (gate _)
          · cases effect
            rfl
  | removeSecurity appName username =>
      cases file with
      | none => cases effect
      | some config =>
          simp only [SharedOperation.effect, removeSecurityMiddleware] at effect
          split at effect
          · cases effect
            refine deletes config _ fun other member => ?_
            rw [List.mem_singleton.mp member]
            exact NamedAfter.auth
          · cases effect
            refine sets config _ fun entry member => ?_
            rw [List.mem_singleton.mp member]
            exact NamedAfter.auth
          · cases effect
            rfl
  | createRedirect appName data =>
      cases file with
      | none =>
          cases effect
          rfl
      | some config =>
          simp only [SharedOperation.effect, createRedirectMiddleware] at effect
          split at effect
          · cases effect
            refine sets config _ fun entry member => ?_
            rw [List.mem_singleton.mp member]
            exact NamedAfter.redirect _
          · cases effect
            rfl
  | removeRedirect appName data =>
      cases effect
      cases file with
      | none => rfl
      | some config =>
          refine deletes config _ fun other member => ?_
          rw [List.mem_singleton.mp member]
          exact NamedAfter.redirect _
  | createPath appName domain =>
      simp only [SharedOperation.effect, createPathMiddlewares] at effect
      split at effect
      · cases effect
      · cases effect
        have kept := sets (file.getD {}) (pathMiddlewares appName domain) (by
          intro entry member
          rcases List.mem_append.mp member with internal | stripped
          · rcases Option.map_eq_some_iff.mp (Option.mem_toList.mp internal) with ⟨_, _, isEntry⟩
            rw [← isEntry]
            exact NamedAfter.addPrefix _
          · rcases Option.map_eq_some_iff.mp (Option.mem_toList.mp stripped) with ⟨_, _, isEntry⟩
            rw [← isEntry]
            exact NamedAfter.stripPrefix _)
        rw [kept]
        cases file <;> rfl
  | removePath appName key =>
      cases file with
      | none => cases effect
      | some config =>
          cases effect
          have kept := deletes config [addPrefixName appName key, stripPrefixName appName key] (by
            intro other member
            rcases List.mem_cons.mp member with first | rest
            · rw [first]
              exact NamedAfter.addPrefix _
            · rw [List.mem_singleton.mp rest]
              exact NamedAfter.stripPrefix _)
          rw [← kept, middlewareAt, middlewareAt, Option.bind_some, Option.bind_some, middlewares_dropEmpty]
  | createForwardAuth appName domain authGate =>
      simp only [SharedOperation.effect, createForwardAuthMiddleware] at effect
      split at effect
      · split at effect
        · cases effect
          refine sets _ _ fun entry member => ?_
          rcases List.mem_cons.mp member with first | rest
          · rw [first]
            exact NamedAfter.forwardAuth _
          · rw [List.mem_singleton.mp rest]
            exact NamedAfter.forwardAuthErrors _
        · cases effect
      · cases effect
  | removeForwardAuth appName key =>
      cases file with
      | none => cases effect
      | some config =>
          simp only [SharedOperation.effect, removeForwardAuthMiddleware] at effect
          split at effect
          · cases effect
            refine deletes config _ fun other member => ?_
            rcases List.mem_cons.mp member with first | rest
            · rw [first]
              exact NamedAfter.forwardAuth _
            · rw [List.mem_singleton.mp rest]
              exact NamedAfter.forwardAuthErrors _
          · cases effect

/-- One operation after the other leaves the other applications' middlewares alone. -/
def TouchesOwn (remote : Bool) (first : MiddlewaresFile) (operations : List SharedOperation) : Prop :=
  forall earlier operation later, operations = earlier ++ operation :: later ->
    forall appName name, appName ≠ operation.appName -> NamedAfter appName name ->
      middlewareAt ((sharedFile remote).apply (earlier.foldl (sharedFile remote).apply first) operation) name =
        middlewareAt (earlier.foldl (sharedFile remote).apply first) name

theorem touchesOwn (remote : Bool) (first : MiddlewaresFile) (operations : List SharedOperation) :
    TouchesOwn remote first operations := by
  intro earlier operation later _ appName name different named
  generalize earlier.foldl (sharedFile remote).apply first = file
  unfold Effects.apply
  cases effect : (sharedFile remote).effect operation file with
  | none => rfl
  | some after => exact SharedOperation.effect_keeps effect fun own => different (named.unique own)

/-- The file that finished operations leave is the one that they leave in the order of their effects, and none of them
touches another application. -/
theorem shared_file_serial (remote : Bool) (first : MiddlewaresFile) (history : List (Option Nat × SharedOperation))
    (system : Actors.System MiddlewaresFile (Rewriting SharedOperation MiddlewaresFile))
    (run : ((sharedFile remote).machine first).Run Undisturbed history system)
    (finished : forall current, current ∈ system.actors -> current.effective.isSome = true) :
    Exists fun operations => operations.Perm (system.actors.map Rewriting.operation) ∧
      system.row = operations.foldl (sharedFile remote).apply first ∧
        TouchesOwn remote first operations :=
  ⟨order history, order_perm_of_finished run finished, serial_of_run run, touchesOwn remote first _⟩

/-- A middlewares file with nothing in it. -/
def emptyFile : MiddlewaresFile := some { http := some { middlewares := some [] } }

def firstGate : SharedOperation := .createSecurity "first" "user:hash"

def secondGate : SharedOperation := .createSecurity "second" "user:hash"

/-- Two applications get a password gate.  The second one reads the file while the first hashes its password. -/
def gatesTogether : List (Actors.Happening SharedOperation RewriteEvent) :=
  [.starts firstGate, .starts secondGate, .acts 0 .read, .acts 1 .read, .acts 0 .write, .acts 1 .write]

theorem gatesTogether_lost : Exists fun history =>
    Exists fun (system : Actors.System MiddlewaresFile (Rewriting SharedOperation MiddlewaresFile)) =>
      ((sharedFile false).machine emptyFile).Reaches history system ∧
        system.actors = [.finished firstGate, .finished secondGate] ∧
          middlewareAt system.row (authName "first") = none ∧
            ¬ Exists fun (operations : List SharedOperation) =>
              operations.Perm (system.actors.map Rewriting.operation) ∧
              system.row = operations.foldl (sharedFile false).apply emptyFile := by
  have run : ((sharedFile false).machine emptyFile).Reaches _ _ := @Machine.run_of_executes _ _ _
    ((sharedFile false).machine emptyFile) _ (fun _ _ => true) (fun _ _ _ => trivial) gatesTogether (by decide)
  refine ⟨_, _, run, by decide, by decide, ?_⟩
  rintro ⟨operations, ordered, isSerial⟩
  have orders : forall operations, operations ∈ [firstGate, secondGate].permutations' ->
      middlewareAt (operations.foldl (sharedFile false).apply emptyFile) (authName "first") ≠ none := by decide
  refine orders operations (List.mem_permutations'.mpr ordered) ?_
  rw [← isSerial]
  decide

/-- The same operations, the second one after the first. -/
def gatesInTurn : List (Actors.Happening SharedOperation RewriteEvent) :=
  [.starts firstGate, .starts secondGate, .acts 0 .read, .acts 0 .write, .acts 1 .read, .acts 1 .write]

def undisturbed (system : Actors.System MiddlewaresFile (Rewriting SharedOperation MiddlewaresFile)) :
    Actors.Happening SharedOperation RewriteEvent -> Bool
  | .acts index .write =>
      match system.actors[index]? with
      | some (.holding _ read _) => system.row = read
      | _ => true
  | _ => true

theorem undisturbed_sound (system : Actors.System MiddlewaresFile (Rewriting SharedOperation MiddlewaresFile))
    (happening : Actors.Happening SharedOperation RewriteEvent) (tested : undisturbed system happening = true) :
    Undisturbed system happening := by
  cases happening with
  | acts index event =>
      cases event with
      | read => trivial
      | write =>
          intro operation read written found
          simp only [undisturbed, found, decide_eq_true_eq] at tested
          exact tested
  | _ => trivial

theorem gatesInTurn_serial : Exists fun (system : Actors.System MiddlewaresFile
      (Rewriting SharedOperation MiddlewaresFile)) =>
    (middlewareAt system.row (authName "first")).isSome = true ∧ Exists fun (operations : List SharedOperation) =>
      operations.Perm (system.actors.map Rewriting.operation) ∧
        system.row = operations.foldl (sharedFile false).apply emptyFile ∧
          TouchesOwn false emptyFile operations := by
  have run : ((sharedFile false).machine emptyFile).Run Undisturbed _ _ := @Machine.run_of_executes _ _ _
    ((sharedFile false).machine emptyFile) _ undisturbed undisturbed_sound gatesInTurn (by decide)
  exact ⟨_, by decide, shared_file_serial false emptyFile _ _ run (List.all_eq_true.mp (by decide))⟩

end Traefik
end Dokploy
