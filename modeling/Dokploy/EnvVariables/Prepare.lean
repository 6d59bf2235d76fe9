import Mathlib.Data.List.Infix
import Dokploy.Foundation.Brackets
import Dokploy.Foundation.Json
import Dokploy.Foundation.Objects

namespace Dokploy
namespace EnvVariables

open Foundation

/-!
# Preparing a service's environment variables

The variables of the service are read from its text, and each reference in a value is
replaced: first those to the project's variables, then those to the environment's,
then those to the public addresses of services, and last those to variables of the
service itself.  Each pass reads what the ones before it left.
-/

abbrev Text := List Char

/-- An object of texts: its entries, in the order of its keys. -/
abbrev Variables := List (Text × Text)

def closing : Text := "\x7d\x7d".toList

inductive Kind where
  | project
  | environment
  | service
  | self
deriving DecidableEq, Repr

def Kind.bracket : Kind -> Bracket
  | .project => ⟨"$\x7b\x7bproject.".toList, closing⟩
  | .environment => ⟨"$\x7b\x7benvironment.".toList, closing⟩
  | .service => ⟨"$\x7b\x7bservice.".toList, ".fqdn".toList ++ closing⟩
  | .self => ⟨"$\x7b\x7b".toList, closing⟩

def Kind.mistake (name : Text) : Kind -> Text
  | .project => "Invalid project environment variable: project.".toList ++ name
  | .environment => "Invalid environment variable: environment.".toList ++ name
  | .service => "Invalid service reference: service.".toList ++ name ++ ".fqdn".toList
  | .self => "Invalid service environment variable: ".toList ++ name

def methods : List Text :=
  ["__defineGetter__".toList, "__defineSetter__".toList, "hasOwnProperty".toList, "__lookupGetter__".toList,
    "__lookupSetter__".toList, "isPrototypeOf".toList, "propertyIsEnumerable".toList, "toString".toList,
    "valueOf".toList, "toLocaleString".toList]

/-- What every object inherits under a name, as text. -/
def inherited (name : Text) : Option Text :=
  if name = "__proto__".toList then some "[object Object]".toList
  else if name = "constructor".toList then some "function Object() \x7b [native code] \x7d".toList
  else if name ∈ methods then some ("function ".toList ++ name ++ "() \x7b [native code] \x7d".toList)
  else none

/-- object[name] -/
def property (object : Variables) (name : Text) : Option Text := (getEntry object name).or (inherited name)

structure Sources where
  serviceVars : Variables
  projectVars : Variables
  environmentVars : Variables
  serviceFqdns : Option Variables

namespace Sources

variable (sources : Sources)

def variablesOf : Kind -> Option Variables
  | .project => some sources.projectVars
  | .environment => some sources.environmentVars
  | .service => sources.serviceFqdns
  | .self => some sources.serviceVars

def valueOf (kind : Kind) (name : Text) : Except Text Text :=
  match (sources.variablesOf kind).bind fun object => property object name with
  | some value => .ok value
  | none => .error (kind.mistake name)

end Sources

def passes : List Kind := [.project, .environment, .service, .self]

/-- The passes over a value, one after the other. -/
def resolve (sources : Sources) : List Kind -> Text -> Except Text Text
  | [], text => .ok text
  | kind :: kinds, text => do
      let replaced <- kind.bracket.replaceAll some (sources.valueOf kind) text
      resolve sources kinds replaced

def lineOf (entry : Text × Text) : Text := entry.1 ++ '=' :: entry.2

def vaultReference : Text := "$\x7b\x7bvault.".toList

def unresolvedVault : Text :=
  "Unresolved vault reference: call withResolvedVaultRefs() on the entity before preparing environment variables".toList

/-- The lines of the variables, in the order of their names, or the first mistake. -/
def resolveAll (sources : Sources) : Variables -> Except Text (List Text)
  | [] => .ok []
  | entry :: rest => do
      let value <- resolve sources passes entry.2
      let lines <- resolveAll sources rest
      .ok (lineOf (entry.1, value) :: lines)

def sourcesOf (parse : Text -> Variables) (serviceEnv projectEnv environmentEnv : Option Text)
    (serviceFqdns : Option Variables) : Sources where
  serviceVars := parse (serviceEnv.getD [])
  projectVars := parse (projectEnv.getD [])
  environmentVars := parse (environmentEnv.getD [])
  serviceFqdns

def prepareEnvironmentVariables (parse : Text -> Variables) (serviceEnv projectEnv environmentEnv : Option Text)
    (serviceFqdns : Option Variables) : Except Text (List Text) :=
  if [serviceEnv, projectEnv, environmentEnv].any fun source => decide (vaultReference <:+: source.getD []) then
    .error unresolvedVault
  else
    let sources := sourcesOf parse serviceEnv projectEnv environmentEnv serviceFqdns
    resolveAll sources sources.serviceVars

end EnvVariables
end Dokploy
