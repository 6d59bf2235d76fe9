import Dokploy.Foundation.Entries
import Dokploy.ComposeSpec.Interpolate

namespace Dokploy
namespace ComposeRename

open ComposeSpec (Text)

/-!
# A compose specification and where its names stand

What stands at the place of a name is a parameter: in a specification as it is
parsed it is a text, and in the reading of one it is what the text refers to.
Every other part of a service is a value that only travels.  One traversal visits
all names of a service and tells each place from the others, and two traversals
agree exactly when they agree on every name that is visited.
-/

inductive Kind where
  | service
  | container
  | volume
  | network
  | config
  | secret
deriving DecidableEq, Repr

inductive Granted where
  | config
  | secret
deriving DecidableEq, Repr

def Granted.kind : Granted -> Kind
  | .config => .config
  | .secret => .secret

inductive Place where
  | containerName
  | dependsOn
  | link
  | shortExtends
  | longExtends (file : Option Text)
  | volumesFrom
  /-- network_mode, ipc and pid -/
  | namespaceMode
  | shortVolume
  | longVolume (type : Text)
  | network
  | shortGrant (granted : Granted)
  | longGrant (granted : Granted)
  /-- The secrets of a build and the config of a credential_spec, short or long -/
  | elsewhere (granted : Granted)
  /-- The additional_contexts of a build -/
  | buildContext
deriving DecidableEq, Repr

section Shapes

variable (Name Value : Type)

inductive DependsOn where
  | list (names : List Name)
  | mapping (entries : List (Name × Value))

inductive Extends where
  | short (service : Name)
  | long (service : Name) (file : Option Text) (rest : Value)

inductive VolumeMount where
  | short (mount : Name)
  | long (type : Text) (source : Option Name) (rest : Value)

/-- A config or a secret that a service is granted. -/
inductive Grant where
  | short (name : Name)
  | long (source : Option Name) (rest : Value)

/-- The settings of one network of a service: its keys and their values. -/
abbrev Attachment := Option (List (Text × Value))

inductive ServiceNetworks where
  | list (names : List Name)
  | mapping (entries : List (Name × Attachment Value))

structure Service where
  container_name : Option Name
  depends_on : Option (DependsOn Name Value)
  links : Option (List Name)
  extending : Option (Extends Name Value)
  volumes_from : Option (List Name)
  network_mode : Option Name
  ipc : Option Name
  pid : Option Name
  volumes : Option (List (VolumeMount Name Value))
  configs : Option (List (Grant Name Value))
  secrets : Option (List (Grant Name Value))
  buildSecrets : Option (List (Grant Name Value))
  buildContexts : Option (List (Text × Name))
  credentialConfig : Option Name
  networks : Option (ServiceNetworks Name Value)
  rest : Value

/-- A compose file with its five sections. -/
structure Compose where
  services : Option (List (Text × Service Name Value))
  volumes : Option (List (Text × Value))
  networks : Option (List (Text × Value))
  configs : Option (List (Text × Value))
  secrets : Option (List (Text × Value))
  rest : Value

end Shapes

variable {Name Other Value : Type}

section Traversal

def DependsOn.mapNames (change : Name -> Other) : DependsOn Name Value -> DependsOn Other Value
  | .list names => .list (names.map change)
  | .mapping entries => .mapping (entries.map fun entry => (change entry.1, entry.2))

def Extends.mapNames (change : Place -> Name -> Other) : Extends Name Value -> Extends Other Value
  | .short service => .short (change .shortExtends service)
  | .long service file rest => .long (change (.longExtends file) service) file rest

def VolumeMount.mapNames (change : Place -> Name -> Other) : VolumeMount Name Value -> VolumeMount Other Value
  | .short mount => .short (change .shortVolume mount)
  | .long type source rest => .long type (source.map (change (.longVolume type))) rest

def Grant.mapNames (short long : Name -> Other) : Grant Name Value -> Grant Other Value
  | .short name => .short (short name)
  | .long source rest => .long (source.map long) rest

def ServiceNetworks.mapNames (change : Name -> Other) : ServiceNetworks Name Value -> ServiceNetworks Other Value
  | .list names => .list (names.map change)
  | .mapping entries => .mapping (entries.map fun entry => (change entry.1, entry.2))

/-- Change every name of a service, by the place it stands at. -/
def Service.mapNames (change : Place -> Name -> Other) (service : Service Name Value) : Service Other Value where
  container_name := service.container_name.map (change .containerName)
  depends_on := service.depends_on.map (·.mapNames (change .dependsOn))
  links := service.links.map (·.map (change .link))
  extending := service.extending.map (·.mapNames change)
  volumes_from := service.volumes_from.map (·.map (change .volumesFrom))
  network_mode := service.network_mode.map (change .namespaceMode)
  ipc := service.ipc.map (change .namespaceMode)
  pid := service.pid.map (change .namespaceMode)
  volumes := service.volumes.map (·.map (·.mapNames change))
  configs := service.configs.map (·.map (·.mapNames (change (.shortGrant .config)) (change (.longGrant .config))))
  secrets := service.secrets.map (·.map (·.mapNames (change (.shortGrant .secret)) (change (.longGrant .secret))))
  buildSecrets := service.buildSecrets.map
    (·.map (·.mapNames (change (.elsewhere .secret)) (change (.elsewhere .secret))))
  buildContexts := service.buildContexts.map (·.map fun entry => (entry.1, change .buildContext entry.2))
  credentialConfig := service.credentialConfig.map (change (.elsewhere .config))
  networks := service.networks.map (·.mapNames (change .network))
  rest := service.rest

def DependsOn.names : DependsOn Name Value -> List Name
  | .list names => names
  | .mapping entries => entries.map Prod.fst

def Extends.names : Extends Name Value -> List (Place × Name)
  | .short service => [(.shortExtends, service)]
  | .long service file _ => [(.longExtends file, service)]

def VolumeMount.names : VolumeMount Name Value -> List (Place × Name)
  | .short mount => [(.shortVolume, mount)]
  | .long type source _ => source.toList.map (.longVolume type, ·)

def Grant.names (short long : Place) : Grant Name Value -> List (Place × Name)
  | .short name => [(short, name)]
  | .long source _ => source.toList.map (long, ·)

def ServiceNetworks.names : ServiceNetworks Name Value -> List Name
  | .list names => names
  | .mapping entries => entries.map Prod.fst

def Service.networkNames (service : Service Name Value) : List Name :=
  service.networks.elim [] ServiceNetworks.names

/-- The names of a service, but for those of its networks. -/
def Service.otherNames (service : Service Name Value) : List (Place × Name) :=
  service.container_name.toList.map (.containerName, ·) ++
  (service.depends_on.elim [] DependsOn.names).map (.dependsOn, ·) ++
  (service.links.getD []).map (.link, ·) ++
  service.extending.elim [] Extends.names ++
  (service.volumes_from.getD []).map (.volumesFrom, ·) ++
  service.network_mode.toList.map (.namespaceMode, ·) ++
  service.ipc.toList.map (.namespaceMode, ·) ++
  service.pid.toList.map (.namespaceMode, ·) ++
  (service.volumes.getD []).flatMap VolumeMount.names ++
  (service.configs.getD []).flatMap (Grant.names (.shortGrant .config) (.longGrant .config)) ++
  (service.secrets.getD []).flatMap (Grant.names (.shortGrant .secret) (.longGrant .secret)) ++
  (service.buildSecrets.getD []).flatMap (Grant.names (.elsewhere .secret) (.elsewhere .secret)) ++
  (service.buildContexts.getD []).map (fun entry => (.buildContext, entry.2)) ++
  service.credentialConfig.toList.map (.elsewhere .config, ·)

/-- Every name of a service, with the place it stands at. -/
def Service.names (service : Service Name Value) : List (Place × Name) :=
  service.otherNames ++ service.networkNames.map (.network, ·)

end Traversal

section Composition

variable {Last : Type} (change : Place -> Name -> Other) (next : Place -> Other -> Last)

theorem DependsOn.mapNames_mapNames (change : Name -> Other) (next : Other -> Last) (dependsOn : DependsOn Name Value) :
    (dependsOn.mapNames change).mapNames next = dependsOn.mapNames fun name => next (change name) := by
  cases dependsOn with
  | list names => exact congrArg DependsOn.list List.map_map
  | mapping entries => exact congrArg DependsOn.mapping List.map_map

theorem Extends.mapNames_mapNames (extending : Extends Name Value) :
    (extending.mapNames change).mapNames next = extending.mapNames fun place name => next place (change place name) := by
  cases extending with
  | short service => rfl
  | long service file rest => rfl

theorem VolumeMount.mapNames_mapNames (mount : VolumeMount Name Value) :
    (mount.mapNames change).mapNames next = mount.mapNames fun place name => next place (change place name) := by
  cases mount with
  | short mount => rfl
  | long type source rest => exact congrArg (VolumeMount.long type · rest) (Option.map_map _ _ source)

theorem Grant.mapNames_mapNames (short long : Name -> Other) (nextShort nextLong : Other -> Last) (grant : Grant Name Value) :
    (grant.mapNames short long).mapNames nextShort nextLong =
      grant.mapNames (fun name => nextShort (short name)) (fun name => nextLong (long name)) := by
  cases grant with
  | short name => rfl
  | long source rest => exact congrArg (Grant.long · rest) (Option.map_map _ _ source)

theorem ServiceNetworks.mapNames_mapNames (change : Name -> Other) (next : Other -> Last)
    (networks : ServiceNetworks Name Value) :
    (networks.mapNames change).mapNames next = networks.mapNames fun name => next (change name) := by
  cases networks with
  | list names => exact congrArg ServiceNetworks.list List.map_map
  | mapping entries => exact congrArg ServiceNetworks.mapping List.map_map

theorem Service.mapNames_mapNames (service : Service Name Value) :
    (service.mapNames change).mapNames next = service.mapNames fun place name => next place (change place name) := by
  simp only [Service.mapNames, Option.map_map, Function.comp_def, List.map_map, DependsOn.mapNames_mapNames,
    Extends.mapNames_mapNames, VolumeMount.mapNames_mapNames, Grant.mapNames_mapNames,
    ServiceNetworks.mapNames_mapNames]

end Composition

section Agreement

variable {first second : Place -> Name -> Other}

theorem optional_agree {change same : Name -> Other} (name : Option Name) :
    name.map change = name.map same <-> forall given, given ∈ name.toList -> change given = same given := by
  cases name with
  | none => exact ⟨fun _ _ member => absurd member List.not_mem_nil, fun _ => rfl⟩
  | some given =>
      simp only [Option.map_some, Option.some.injEq, Option.toList_some, List.mem_singleton, forall_eq]

theorem names_agree (change same : Name -> Other) (names : Option (List Name)) :
    names.map (·.map change) = names.map (·.map same) <->
      forall name, name ∈ names.getD [] -> change name = same name := by
  cases names with
  | none => exact ⟨fun _ _ member => absurd member List.not_mem_nil, fun _ => rfl⟩
  | some names => simp only [Option.map_some, Option.some.injEq, List.map_inj_left, Option.getD_some]

theorem DependsOn.agree {change same : Name -> Other} (dependsOn : DependsOn Name Value) :
    dependsOn.mapNames change = dependsOn.mapNames same <->
      forall name, name ∈ dependsOn.names -> change name = same name := by
  cases dependsOn with
  | list names => simp only [mapNames, DependsOn.names, DependsOn.list.injEq, List.map_inj_left]
  | mapping entries =>
      simp only [mapNames, DependsOn.names, DependsOn.mapping.injEq, List.map_inj_left, Prod.mk.injEq, and_true,
        List.forall_mem_map]

theorem Extends.agree (extending : Extends Name Value) :
    extending.mapNames first = extending.mapNames second <->
      forall name, name ∈ extending.names -> first name.1 name.2 = second name.1 name.2 := by
  cases extending with
  | short service => simp only [mapNames, Extends.names, Extends.short.injEq, List.mem_singleton, forall_eq]
  | long service file rest =>
      simp only [mapNames, Extends.names, Extends.long.injEq, and_true, List.mem_singleton, forall_eq]

theorem VolumeMount.agree (mount : VolumeMount Name Value) :
    mount.mapNames first = mount.mapNames second <->
      forall name, name ∈ mount.names -> first name.1 name.2 = second name.1 name.2 := by
  cases mount with
  | short mount => simp only [mapNames, VolumeMount.names, VolumeMount.short.injEq, List.mem_singleton, forall_eq]
  | long type source rest =>
      simp only [mapNames, VolumeMount.names, VolumeMount.long.injEq, true_and, and_true, optional_agree,
        List.forall_mem_map]

theorem Grant.agree (short long : Place) (grant : Grant Name Value) :
    grant.mapNames (first short) (first long) = grant.mapNames (second short) (second long) <->
      forall name, name ∈ grant.names short long -> first name.1 name.2 = second name.1 name.2 := by
  cases grant with
  | short name => simp only [mapNames, Grant.names, Grant.short.injEq, List.mem_singleton, forall_eq]
  | long source rest =>
      simp only [mapNames, Grant.names, Grant.long.injEq, and_true, optional_agree, List.forall_mem_map]

theorem part_agree {Part Changed : Type} {change same : Part -> Changed} {holds : Part -> List (Place × Name)}
    (agree : forall part, change part = same part <->
      forall name, name ∈ holds part -> first name.1 name.2 = second name.1 name.2) (part : Option Part) :
    part.map change = part.map same <->
      forall name, name ∈ part.elim [] holds -> first name.1 name.2 = second name.1 name.2 := by
  cases part with
  | none => exact ⟨fun _ _ member => absurd member List.not_mem_nil, fun _ => rfl⟩
  | some part => simp only [Option.map_some, Option.some.injEq, Option.elim_some, agree]

theorem parts_agree {Part Changed : Type} {change same : Part -> Changed} {holds : Part -> List (Place × Name)}
    (agree : forall part, change part = same part <->
      forall name, name ∈ holds part -> first name.1 name.2 = second name.1 name.2) (parts : Option (List Part)) :
    parts.map (·.map change) = parts.map (·.map same) <->
      forall name, name ∈ (parts.getD []).flatMap holds -> first name.1 name.2 = second name.1 name.2 := by
  rw [names_agree]
  constructor
  · intro each name member
    rcases List.mem_flatMap.mp member with ⟨part, among, mine⟩
    exact (agree part).mp (each part among) name mine
  · intro each part among
    exact (agree part).mpr fun name mine => each name (List.mem_flatMap.mpr ⟨part, among, mine⟩)

/-- Two traversals of a service agree when they agree on its names.  What the first one finds for the networks
is compared as it is. -/
theorem Service.agree (service : Service Name Value) (networks : Option (ServiceNetworks Other Value)) :
    { service.mapNames first with networks := networks } = service.mapNames second <->
      (forall name, name ∈ service.otherNames -> first name.1 name.2 = second name.1 name.2) ∧
        networks = service.networks.map (·.mapNames (second .network)) := by
  have dependsOn : service.depends_on.map (·.mapNames (first .dependsOn)) =
      service.depends_on.map (·.mapNames (second .dependsOn)) <->
      forall name, name ∈ service.depends_on.elim [] DependsOn.names ->
        first .dependsOn name = second .dependsOn name := by
    cases service.depends_on with
    | none => exact ⟨fun _ _ member => absurd member List.not_mem_nil, fun _ => rfl⟩
    | some part => simp only [Option.map_some, Option.some.injEq, Option.elim_some, part.agree]
  have links := names_agree (first .link) (second .link) service.links
  have volumesFrom := names_agree (first .volumesFrom) (second .volumesFrom) service.volumes_from
  have contexts := names_agree (fun entry : Text × Name => (entry.1, first .buildContext entry.2))
    (fun entry => (entry.1, second .buildContext entry.2)) service.buildContexts
  simp only [mapNames, Service.mk.injEq, dependsOn, links, volumesFrom, contexts, part_agree Extends.agree,
    parts_agree VolumeMount.agree, parts_agree (Grant.agree _ _)]
  simp only [optional_agree, Prod.mk.injEq, true_and, and_true, otherNames, List.forall_mem_append,
    List.forall_mem_map, and_assoc]

end Agreement

end ComposeRename
end Dokploy
