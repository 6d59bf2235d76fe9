import Dokploy.ComposeRename.Specification

namespace Dokploy
namespace ComposeRename

open Foundation
open ComposeSpec (Text)

/-!
# The suffix, section by section

Five modules rename one after the other: services, volumes, networks, configs and
secrets.  Each renames the keys of its own section and what it takes for a name of
it in the services, and none looks whether a name is defined.
-/

abbrev ServiceConfig (Value : Type) := Service Text Value

abbrev ComposeSpecification (Value : Type) := Compose Text Value

variable {Value : Type}

def addSuffix (suffix name : Text) : Text := name ++ '-' :: suffix

/-- What stands before the first separator, and what stands after it. -/
def cut (separator : Char) (text : Text) : Text × Text :=
  (text.takeWhile (· ≠ separator), (text.dropWhile (· ≠ separator)).drop 1)

section ServiceNames

def addSuffixToDependsOn (suffix : Text) : DependsOn Text Value -> DependsOn Text Value
  | .list names => .list (names.map (addSuffix suffix))
  | .mapping entries => .mapping (rebuild (addSuffix suffix) id entries)

def addSuffixUnlessEmpty (suffix name : Text) : Text := if name = [] then name else addSuffix suffix name

def addSuffixToExtends (suffix : Text) : Extends Text Value -> Extends Text Value
  | .short service => .short (addSuffixUnlessEmpty suffix service)
  | .long service file rest => .long (addSuffix suffix service) file rest

def addSuffixToNamesInService (suffix : Text) (service : ServiceConfig Value) : ServiceConfig Value :=
  { service with
    depends_on := service.depends_on.map (addSuffixToDependsOn suffix)
    container_name := service.container_name.map (addSuffixUnlessEmpty suffix)
    links := service.links.map (·.map (addSuffix suffix))
    extending := service.extending.map (addSuffixToExtends suffix)
    volumes_from := service.volumes_from.map (·.map (addSuffix suffix)) }

def addSuffixToServiceNames (services : List (Text × ServiceConfig Value)) (suffix : Text) :
    List (Text × ServiceConfig Value) :=
  rebuild (addSuffix suffix) (addSuffixToNamesInService suffix) services

def addSuffixToAllServiceNames (composeData : ComposeSpecification Value) (suffix : Text) :
    ComposeSpecification Value :=
  { composeData with services := composeData.services.map (addSuffixToServiceNames · suffix) }

end ServiceNames

section Volumes

def addSuffixToVolumesRoot (volumes : List (Text × Value)) (suffix : Text) : List (Text × Value) :=
  rebuild (addSuffix suffix) id volumes

/-- Bind mounts, variables and anonymous volumes are skipped. -/
def skipsVolume (volumeName remainder : Text) : Bool :=
  volumeName.isEmpty || remainder.isEmpty || volumeName.head? == some '.' || volumeName.head? == some '/' ||
    volumeName.head? == some '$'

def addSuffixToShortVolume (suffix volume : Text) : Text :=
  let (volumeName, remainder) := cut ':' volume
  if skipsVolume volumeName remainder then volume
  else if '/' ∈ volumeName then
    let (baseName, rest) := cut '/' volumeName
    addSuffix suffix baseName ++ '/' :: rest ++ ':' :: remainder
  else addSuffix suffix volumeName ++ ':' :: remainder

def volumeType : Text := "volume".toList

def addSuffixToVolume (suffix : Text) : VolumeMount Text Value -> VolumeMount Text Value
  | .short volume => .short (addSuffixToShortVolume suffix volume)
  | .long type source rest =>
      if type = volumeType then .long type (source.map (addSuffixUnlessEmpty suffix)) rest
      else .long type source rest

def addSuffixToVolumesInService (suffix : Text) (service : ServiceConfig Value) : ServiceConfig Value :=
  { service with volumes := service.volumes.map (·.map (addSuffixToVolume suffix)) }

def addSuffixToVolumesInServices (services : List (Text × ServiceConfig Value)) (suffix : Text) :
    List (Text × ServiceConfig Value) :=
  rebuild id (addSuffixToVolumesInService suffix) services

def addSuffixToAllVolumes (composeData : ComposeSpecification Value) (suffix : Text) : ComposeSpecification Value :=
  { composeData with
    volumes := composeData.volumes.map (addSuffixToVolumesRoot · suffix)
    services := composeData.services.map (addSuffixToVolumesInServices · suffix) }

end Volumes

section Networks

def dokployNetwork : Text := "dokploy-network".toList

def addSuffixToNetwork (suffix network : Text) : Text :=
  if network = dokployNetwork then dokployNetwork else addSuffix suffix network

def addSuffixToNetworksRoot (networks : List (Text × Value)) (suffix : Text) : List (Text × Value) :=
  rebuild (addSuffixToNetwork suffix) id networks

def aliasesKey : Text := "aliases".toList

/-- The third case: every key of an attachment but its aliases. -/
def addSuffixToAttachment (suffix : Text) (attachment : Attachment Value) : Attachment Value :=
  attachment.map (rebuild (fun innerKey => if innerKey = aliasesKey then aliasesKey else addSuffix suffix innerKey) id)

def addSuffixToServiceNetwork (suffix : Text) : ServiceNetworks Text Value -> ServiceNetworks Text Value
  | .list networks => .list (networks.map (addSuffixToNetwork suffix))
  | .mapping networks =>
      .mapping (rebuild id (addSuffixToAttachment suffix) (rebuild (addSuffixToNetwork suffix) id networks))

def addSuffixToNetworksInService (suffix : Text) (service : ServiceConfig Value) : ServiceConfig Value :=
  { service with networks := service.networks.map (addSuffixToServiceNetwork suffix) }

def addSuffixToServiceNetworks (services : List (Text × ServiceConfig Value)) (suffix : Text) :
    List (Text × ServiceConfig Value) :=
  rebuild id (addSuffixToNetworksInService suffix) services

def addSuffixToAllNetworks (composeData : ComposeSpecification Value) (suffix : Text) : ComposeSpecification Value :=
  { composeData with
    networks := composeData.networks.map (addSuffixToNetworksRoot · suffix)
    services := composeData.services.map (addSuffixToServiceNetworks · suffix) }

end Networks

section Grants

def addSuffixToGrant (suffix : Text) : Grant Text Value -> Grant Text Value
  | .short name => .short (addSuffix suffix name)
  | .long source rest => .long (source.map (addSuffixUnlessEmpty suffix)) rest

def addSuffixToConfigsRoot (configs : List (Text × Value)) (suffix : Text) : List (Text × Value) :=
  rebuild (addSuffix suffix) id configs

def addSuffixToConfigsInService (suffix : Text) (service : ServiceConfig Value) : ServiceConfig Value :=
  { service with configs := service.configs.map (·.map (addSuffixToGrant suffix)) }

def addSuffixToConfigsInServices (services : List (Text × ServiceConfig Value)) (suffix : Text) :
    List (Text × ServiceConfig Value) :=
  rebuild id (addSuffixToConfigsInService suffix) services

def addSuffixToAllConfigs (composeData : ComposeSpecification Value) (suffix : Text) : ComposeSpecification Value :=
  { composeData with
    configs := composeData.configs.map (addSuffixToConfigsRoot · suffix)
    services := composeData.services.map (addSuffixToConfigsInServices · suffix) }

def addSuffixToSecretsRoot (secrets : List (Text × Value)) (suffix : Text) : List (Text × Value) :=
  rebuild (addSuffix suffix) id secrets

def addSuffixToSecretsInService (suffix : Text) (service : ServiceConfig Value) : ServiceConfig Value :=
  { service with secrets := service.secrets.map (·.map (addSuffixToGrant suffix)) }

def addSuffixToSecretsInServices (services : List (Text × ServiceConfig Value)) (suffix : Text) :
    List (Text × ServiceConfig Value) :=
  rebuild id (addSuffixToSecretsInService suffix) services

def addSuffixToAllSecrets (composeData : ComposeSpecification Value) (suffix : Text) : ComposeSpecification Value :=
  { composeData with
    secrets := composeData.secrets.map (addSuffixToSecretsRoot · suffix)
    services := composeData.services.map (addSuffixToSecretsInServices · suffix) }

end Grants

def addSuffixToAllProperties (composeData : ComposeSpecification Value) (suffix : Text) :
    ComposeSpecification Value :=
  let updatedComposeData := addSuffixToAllServiceNames composeData suffix
  let updatedComposeData := addSuffixToAllVolumes updatedComposeData suffix
  let updatedComposeData := addSuffixToAllNetworks updatedComposeData suffix
  let updatedComposeData := addSuffixToAllConfigs updatedComposeData suffix
  addSuffixToAllSecrets updatedComposeData suffix

end ComposeRename
end Dokploy
