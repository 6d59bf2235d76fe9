import Dokploy.Foundation.Json
import Dokploy.ComposeRename.Suffix

namespace Dokploy
namespace ComposeRename

open ComposeSpec (Text)

/-!
# What the names of a specification refer to

Each place has its own syntax around a name: an alias after a link, an access mode
after volumes_from, a path after the name of a volume.  A text mentions a name when
the syntax of its place lets it, and refers to a definition when the name it
mentions is defined.  A specification is read by replacing every text by the
definition it refers to; a text that refers to none stands for itself.
-/

/-- A name inside a text, with the text before it and the text after it. -/
structure Mention where
  kind : Kind
  before : Text
  name : Text
  after : Text
deriving DecidableEq, Repr

/-- What is left of a text after a prefix. -/
def afterPrefix : Text -> Text -> Option Text
  | [], text => some text
  | _ :: _, [] => none
  | char :: start, first :: text => if char = first then afterPrefix start text else none

def containerPrefix : Text := "container:".toList

def servicePrefix : Text := "service:".toList

def clusterType : Text := "cluster".toList

/-- A name with something after a colon: the alias of a link, the access mode of volumes_from. -/
def mentionBeforeColon (kind : Kind) (before text : Text) : Mention :=
  ⟨kind, before, text.takeWhile (· ≠ ':'), text.dropWhile (· ≠ ':')⟩

def mentionWhole (kind : Kind) (text : Text) : Mention := ⟨kind, [], text, []⟩

def mentionUnlessEmpty (kind : Kind) (text : Text) : Option Mention :=
  if text = [] then none else some (mentionWhole kind text)

/-- A source that begins like this is a path, or a variable. -/
def isPath (source remainder : Text) : Bool :=
  source.head? == some '.' || source.head? == some '/' || source.head? == some '~' || source.head? == some '$' ||
    remainder.head? == some '\\'

/-- The volume of a mount in short form, with what follows the name of the volume. -/
def mentionVolume (mount : Text) : Option Mention :=
  let (source, remainder) := cut ':' mount
  if source.isEmpty || remainder.isEmpty || isPath source remainder then none
  else some ⟨.volume, [], source.takeWhile (· ≠ '/'), source.dropWhile (· ≠ '/') ++ ':' :: remainder⟩

def mention : Place -> Text -> Option Mention
  | .containerName, text => mentionUnlessEmpty .container text
  | .dependsOn, text => some (mentionWhole .service text)
  | .link, text => some (mentionBeforeColon .service [] text)
  | .shortExtends, text => mentionUnlessEmpty .service text
  -- a service of another file is none of this one
  | .longExtends file, text => if file.isSome then none else some (mentionWhole .service text)
  | .volumesFrom, text =>
      match afterPrefix containerPrefix text with
      | some container => some (mentionBeforeColon .container containerPrefix container)
      | none => some (mentionBeforeColon .service [] text)
  | .namespaceMode, text =>
      match afterPrefix servicePrefix text, afterPrefix containerPrefix text with
      | some service, _ => some ⟨.service, servicePrefix, service, []⟩
      | none, some container => some ⟨.container, containerPrefix, container, []⟩
      | none, none => none
  | .shortVolume, text => mentionVolume text
  | .longVolume type, text =>
      if type = volumeType ∨ type = clusterType then mentionUnlessEmpty .volume text else none
  | .network, text => some (mentionWhole .network text)
  | .shortGrant granted, text => some (mentionWhole granted.kind text)
  | .longGrant granted, text => mentionUnlessEmpty granted.kind text
  | .elsewhere granted, text => some (mentionWhole granted.kind text)
  | .buildContext, text => (afterPrefix servicePrefix text).map fun service => ⟨.service, servicePrefix, service, []⟩

/-- What a text stands for: a definition, with the text around its name, or itself. -/
inductive Reference where
  | definition (mention : Mention)
  | itself (text : Text)
deriving DecidableEq, Repr

def Reference.renamed (rename : Kind -> Text -> Text) : Reference -> Reference
  | .definition mention => .definition { mention with name := rename mention.kind mention.name }
  | .itself text => .itself text

/-- What a text at a place refers to among the given definitions. -/
def resolve (defined : Kind -> List Text) (place : Place) (text : Text) : Reference :=
  match mention place text with
  | some mention => if mention.name ∈ defined mention.kind then .definition mention else .itself text
  | none => .itself text

variable {Value : Type}

/-- The containers that services name themselves. -/
def containerNames (services : List (Text × ServiceConfig Value)) : List Text :=
  services.flatMap fun entry => entry.2.container_name.toList.filter (· ≠ [])

def keysOf {Item : Type} (entries : Option (List (Text × Item))) : List Text := (entries.getD []).map Prod.fst

def Compose.defined (composeData : ComposeSpecification Value) : Kind -> List Text
  | .service => keysOf composeData.services
  | .container => containerNames (composeData.services.getD [])
  | .volume => keysOf composeData.volumes
  | .network => keysOf composeData.networks
  | .config => keysOf composeData.configs
  | .secret => keysOf composeData.secrets

def defaultNetwork : Text := "default".toList

/-- A service that names no network, and no other network mode, is on the default one. -/
def isOnDefault (service : ServiceConfig Value) : Bool :=
  service.networkNames.isEmpty && service.network_mode.isNone

/-- A service, read: what its names refer to, and the network it is on when it names none. -/
structure ServiceReading (Value : Type) where
  service : Service Reference Value
  implicitNetwork : Option Reference

def readService (defined : Kind -> List Text) (service : ServiceConfig Value) : ServiceReading Value where
  service := service.mapNames (resolve defined)
  implicitNetwork := if isOnDefault service then some (resolve defined .network defaultNetwork) else none

def ServiceReading.renamed (rename : Kind -> Text -> Text) (reading : ServiceReading Value) : ServiceReading Value where
  service := reading.service.mapNames fun _ => Reference.renamed rename
  implicitNetwork := reading.implicitNetwork.map (Reference.renamed rename)

@[ext] structure Meaning (Value : Type) where
  services : Option (List (Text × ServiceReading Value))
  volumes : Option (List (Text × Value))
  networks : Option (List (Text × Value))
  configs : Option (List (Text × Value))
  secrets : Option (List (Text × Value))
  rest : Value

def Compose.meaning (composeData : ComposeSpecification Value) : Meaning Value where
  services := composeData.services.map (·.map fun entry => (entry.1, readService composeData.defined entry.2))
  volumes := composeData.volumes
  networks := composeData.networks
  configs := composeData.configs
  secrets := composeData.secrets
  rest := composeData.rest

def renameKeys {Item : Type} (rename : Text -> Text) (entries : Option (List (Text × Item))) :
    Option (List (Text × Item)) := entries.map (·.map fun entry => (rename entry.1, entry.2))

def Meaning.renamed (rename : Kind -> Text -> Text) (meaning : Meaning Value) : Meaning Value where
  services := meaning.services.map (·.map fun entry => (rename .service entry.1, entry.2.renamed rename))
  volumes := renameKeys (rename .volume) meaning.volumes
  networks := renameKeys (rename .network) meaning.networks
  configs := renameKeys (rename .config) meaning.configs
  secrets := renameKeys (rename .secret) meaning.secrets
  rest := meaning.rest

/-- One specification is the other under other names: definitions with different names have different names
again, what referred to a definition refers to it under its new name, and all else is the same. -/
def ConsistentRenaming (before after : ComposeSpecification Value) : Prop :=
  Exists fun rename : Kind -> Text -> Text =>
    (forall kind first second, first ∈ before.defined kind -> second ∈ before.defined kind ->
      rename kind first = rename kind second -> first = second) ∧
    after.meaning = before.meaning.renamed rename

end ComposeRename
end Dokploy
