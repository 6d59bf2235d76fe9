import Dokploy.ComposeRename.Following

namespace Dokploy
namespace ComposeRename

open Foundation
open ComposeSpec (Text)

/-!
# When the suffix renames consistently

The five modules together change every name of a service by its place, but for the
networks of a service, where keys may meet and the settings of an attachment are
taken for names.  With that, a specification keeps its meaning exactly when the
shared network stays apart, every name follows its definition, no service relies
on a default network that is renamed, and no network of a service has settings
other than aliases.
-/

variable {Value : Type}

/-- The keys of every object of a service are distinct. -/
structure Service.KeysDistinct (service : ServiceConfig Value) : Prop where
  depends_on : forall entries, service.depends_on = some (.mapping entries) -> (entries.map Prod.fst).Nodup
  networks : forall entries, service.networks = some (.mapping entries) -> (entries.map Prod.fst).Nodup
  attachments : forall entries, service.networks = some (.mapping entries) -> forall entry, entry ∈ entries ->
    forall settings, entry.2 = some settings -> (settings.map Prod.fst).Nodup

structure Compose.KeysDistinct (composeData : ComposeSpecification Value) : Prop where
  services : (keysOf composeData.services).Nodup
  volumes : (keysOf composeData.volumes).Nodup
  networks : (keysOf composeData.networks).Nodup
  configs : (keysOf composeData.configs).Nodup
  secrets : (keysOf composeData.secrets).Nodup
  each : forall entry, entry ∈ composeData.services.getD [] -> entry.2.KeysDistinct

/-- A specification as it is parsed: in no object does a key stand twice. -/
structure ParsedSpecification (Value : Type) where
  composeData : ComposeSpecification Value
  distinct : composeData.KeysDistinct

def dokploy : Text := "dokploy".toList

def networkSuffix : Text := "network".toList

/-- Every setting of every attachment is an alias. -/
def OnlyAliases (service : ServiceConfig Value) : Prop :=
  forall entries, service.networks = some (.mapping entries) -> forall entry, entry ∈ entries ->
    forall settings, entry.2 = some settings -> forall setting, setting ∈ settings -> setting.1 = aliasesKey

/-- What a specification needs for the suffix to rename it consistently. -/
structure RenamesCleanly (composeData : ComposeSpecification Value) (suffix : Text) : Prop where
  apart : suffix = networkSuffix -> dokploy ∈ keysOf composeData.networks ->
    dokployNetwork ∉ keysOf composeData.networks
  names : forall entry, entry ∈ composeData.services.getD [] -> forall name, name ∈ entry.2.names ->
    Follows composeData.defined suffix name.1 name.2
  onDefault : forall entry, entry ∈ composeData.services.getD [] -> isOnDefault entry.2 = true ->
    defaultNetwork ∉ keysOf composeData.networks
  aliases : forall entry, entry ∈ composeData.services.getD [] -> OnlyAliases entry.2

section Shape

/-- A service with every name changed by its place. -/
def suffixedService (suffix : Text) (service : ServiceConfig Value) : ServiceConfig Value :=
  { service.mapNames (suffixAt suffix) with networks := service.networks.map (addSuffixToServiceNetwork suffix) }

theorem rebuild_id {Item Changed : Type} (change : Item -> Changed) {entries : List (Text × Item)}
    (distinct : (entries.map Prod.fst).Nodup) :
    rebuild id change entries = entries.map fun entry => (entry.1, change entry.2) :=
  rebuild_of_nodup id change distinct

theorem rebuild_addSuffix {Item Changed : Type} (suffix : Text) (change : Item -> Changed)
    {entries : List (Text × Item)} (distinct : (entries.map Prod.fst).Nodup) :
    rebuild (addSuffix suffix) change entries = entries.map fun entry => (addSuffix suffix entry.1, change entry.2) := by
  apply rebuild_of_nodup
  have moved := distinct.map (@addSuffix_injective suffix)
  rwa [List.map_map] at moved

theorem rebuild_renamed {First Second Third : Type} {suffix : Text} (change : Second -> Third) (before : First -> Second)
    {entries : List (Text × First)} (apart : (entries.map fun entry => addSuffix suffix entry.1).Nodup) :
    rebuild id change (entries.map fun entry => (addSuffix suffix entry.1, before entry.2)) =
      entries.map fun entry => (addSuffix suffix entry.1, change (before entry.2)) := by
  rw [rebuild_id change (by rw [List.map_map]; exact apart), List.map_map]
  rfl

theorem addSuffixToDependsOn_eq (suffix : Text) (dependsOn : DependsOn Text Value)
    (distinct : forall entries, dependsOn = .mapping entries -> (entries.map Prod.fst).Nodup) :
    addSuffixToDependsOn suffix dependsOn = dependsOn.mapNames (addSuffix suffix) := by
  cases dependsOn with
  | list names => rfl
  | mapping entries => rw [addSuffixToDependsOn, rebuild_addSuffix suffix id (distinct entries rfl)]; rfl

theorem addSuffixToExtends_eq (suffix : Text) (extending : Extends Text Value) :
    addSuffixToExtends suffix extending = extending.mapNames (suffixAt suffix) := by
  cases extending with
  | short service => rfl
  | long service file rest => rfl

theorem addSuffixToVolume_eq (suffix : Text) (mount : VolumeMount Text Value) :
    addSuffixToVolume suffix mount = mount.mapNames (suffixAt suffix) := by
  cases mount with
  | short volume => rfl
  | long type source rest =>
      dsimp only [addSuffixToVolume, VolumeMount.mapNames]
      by_cases volume : type = volumeType
      · have same : suffixAt suffix (.longVolume type) = addSuffixUnlessEmpty suffix := by
          funext text
          exact if_pos volume
        rw [if_pos volume, same]
      · have same : suffixAt suffix (.longVolume type) = id := by
          funext text
          exact if_neg volume
        rw [if_neg volume, same, Option.map_id, id_eq]

theorem addSuffixToGrant_eq (suffix : Text) (grant : Grant Text Value) (granted : Granted) :
    addSuffixToGrant suffix grant =
      grant.mapNames (suffixAt suffix (.shortGrant granted)) (suffixAt suffix (.longGrant granted)) := by
  cases grant with
  | short name => rfl
  | long source rest => rfl

/-- What the five modules do to one service. -/
def throughModules (suffix : Text) (service : ServiceConfig Value) : ServiceConfig Value :=
  addSuffixToSecretsInService suffix (addSuffixToConfigsInService suffix (addSuffixToNetworksInService suffix
    (addSuffixToVolumesInService suffix (addSuffixToNamesInService suffix service))))

theorem throughModules_eq (suffix : Text) {service : ServiceConfig Value} (distinct : service.KeysDistinct) :
    throughModules suffix service = suffixedService suffix service := by
  have dependsOn : service.depends_on.map (addSuffixToDependsOn suffix) =
      service.depends_on.map (·.mapNames (addSuffix suffix)) := by
    cases given : service.depends_on with
    | none => rfl
    | some dependsOn =>
        have apart : forall entries, dependsOn = .mapping entries -> (entries.map Prod.fst).Nodup := fun entries same =>
          distinct.depends_on entries (same ▸ given)
        rw [Option.map_some, Option.map_some, addSuffixToDependsOn_eq suffix dependsOn apart]
  have extending : (addSuffixToExtends suffix : Extends Text Value -> Extends Text Value) =
      fun part => part.mapNames (suffixAt suffix) := funext (addSuffixToExtends_eq suffix)
  have volumes : (addSuffixToVolume suffix : VolumeMount Text Value -> VolumeMount Text Value) =
      fun mount => mount.mapNames (suffixAt suffix) := funext (addSuffixToVolume_eq suffix)
  have configs : (addSuffixToGrant suffix : Grant Text Value -> Grant Text Value) =
      fun grant => grant.mapNames (suffixAt suffix (.shortGrant .config)) (suffixAt suffix (.longGrant .config)) :=
    funext (addSuffixToGrant_eq suffix · .config)
  have secrets : (addSuffixToGrant suffix : Grant Text Value -> Grant Text Value) =
      fun grant => grant.mapNames (suffixAt suffix (.shortGrant .secret)) (suffixAt suffix (.longGrant .secret)) :=
    funext (addSuffixToGrant_eq suffix · .secret)
  have buildSecrets : (fun grant : Grant Text Value =>
      grant.mapNames (suffixAt suffix (.elsewhere .secret)) (suffixAt suffix (.elsewhere .secret))) = id := by
    funext grant
    cases grant with
    | short name => rfl
    | long source rest => exact congrArg (Grant.long · rest) (Option.map_id_apply)
  have alone : forall place, suffixAt suffix place = id -> forall names : Option Text,
      names = names.map (suffixAt suffix place) := by
    intro place same names
    rw [same, Option.map_id, id_eq]
  simp only [throughModules, addSuffixToNamesInService, addSuffixToVolumesInService, addSuffixToNetworksInService,
    addSuffixToConfigsInService, addSuffixToSecretsInService, suffixedService, Service.mapNames, Service.mk.injEq, dependsOn,
    extending, volumes]
  refine ⟨rfl, rfl, rfl, trivial, rfl, alone _ rfl _, alone _ rfl _, alone _ rfl _, trivial, ?_, ?_, ?_, ?_,
    alone _ rfl _, trivial, trivial⟩
  · rw [configs]
  · rw [secrets]
  · rw [buildSecrets]
    simp only [List.map_id_fun, Option.map_id_fun', id_eq]
  · have kept : (fun entry : Text × Text => (entry.1, suffixAt suffix .buildContext entry.2)) = id := rfl
    rw [kept]
    simp only [List.map_id_fun, Option.map_id_fun', id_eq]

theorem services_suffixed (suffix : Text) {composeData : ComposeSpecification Value}
    (distinct : composeData.KeysDistinct) :
    (addSuffixToAllProperties composeData suffix).services =
      composeData.services.map (·.map fun entry => (addSuffix suffix entry.1, suffixedService suffix entry.2)) := by
  cases given : composeData.services with
  | none =>
      simp only [addSuffixToAllProperties, addSuffixToAllSecrets, addSuffixToAllConfigs, addSuffixToAllNetworks,
        addSuffixToAllVolumes, addSuffixToAllServiceNames, given, Option.map_none]
  | some services =>
      have keys : (services.map Prod.fst).Nodup := by
        have all := distinct.services
        rwa [given] at all
      have renamed : addSuffixToServiceNames services suffix =
          services.map fun entry => (addSuffix suffix entry.1, addSuffixToNamesInService suffix entry.2) :=
        rebuild_addSuffix suffix _ keys
      have moved : (services.map fun entry => addSuffix suffix entry.1).Nodup := by
        have injected := keys.map (@addSuffix_injective suffix)
        rwa [List.map_map] at injected
      simp only [addSuffixToAllProperties, addSuffixToAllSecrets, addSuffixToAllConfigs, addSuffixToAllNetworks,
        addSuffixToAllVolumes, addSuffixToAllServiceNames, given, Option.map_some, renamed,
        addSuffixToVolumesInServices, addSuffixToServiceNetworks, addSuffixToConfigsInServices,
        addSuffixToSecretsInServices, Option.some.injEq]
      rw [rebuild_renamed (addSuffixToVolumesInService suffix) (addSuffixToNamesInService suffix) moved,
        rebuild_renamed (addSuffixToNetworksInService suffix)
          (fun service => addSuffixToVolumesInService suffix (addSuffixToNamesInService suffix service)) moved,
        rebuild_renamed (addSuffixToConfigsInService suffix)
          (fun service => addSuffixToNetworksInService suffix (addSuffixToVolumesInService suffix
            (addSuffixToNamesInService suffix service))) moved,
        rebuild_renamed (addSuffixToSecretsInService suffix)
          (fun service => addSuffixToConfigsInService suffix (addSuffixToNetworksInService suffix
            (addSuffixToVolumesInService suffix (addSuffixToNamesInService suffix service)))) moved]
      apply List.map_congr_left
      intro entry member
      have own : entry.2.KeysDistinct := distinct.each entry (by rw [given]; exact member)
      exact congrArg (Prod.mk (addSuffix suffix entry.1)) (throughModules_eq suffix own)

end Shape

section Definitions

theorem dokploy_of_suffixed {suffix name : Text} (same : addSuffix suffix name = dokployNetwork) :
    name = dokploy ∧ suffix = networkSuffix := by
  have once : (addSuffix suffix name).count '-' = 1 := by
    rw [same]
    decide
  rw [addSuffix, List.count_append, List.count_cons_self] at once
  have missing : '-' ∉ name := List.count_eq_zero.mp (by omega)
  have start : (addSuffix suffix name).takeWhile (· ≠ '-') = name := by
    have all : forall char, char ∈ name -> decide (char ≠ '-') = true := fun _ member =>
      decide_eq_true fun dash => missing (dash ▸ member)
    rw [addSuffix, List.takeWhile_append_of_pos all]
    exact List.append_nil name
  rw [same] at start
  have named : name = dokploy := start.symm.trans (by decide)
  subst named
  exact ⟨rfl, (List.cons.inj (List.append_cancel_left same)).2⟩

theorem networks_apart_iff (suffix : Text) (names : List Text) :
    (forall first second, first ∈ names -> second ∈ names ->
      addSuffixToNetwork suffix first = addSuffixToNetwork suffix second -> first = second) <->
      (suffix = networkSuffix -> dokploy ∈ names -> dokployNetwork ∉ names) := by
  constructor
  · rintro injective rfl plain shared
    exact absurd (injective dokploy dokployNetwork plain shared (by decide)) (by decide)
  · intro apart first second firstIn secondIn same
    by_cases firstShared : first = dokployNetwork
    · by_cases secondShared : second = dokployNetwork
      · rw [firstShared, secondShared]
      · rw [addSuffixToNetwork, addSuffixToNetwork, if_pos firstShared, if_neg secondShared] at same
        rcases dokploy_of_suffixed same.symm with ⟨rfl, rfl⟩
        exact absurd (firstShared ▸ firstIn) (apart rfl secondIn)
    · by_cases secondShared : second = dokployNetwork
      · rw [addSuffixToNetwork, addSuffixToNetwork, if_neg firstShared, if_pos secondShared] at same
        rcases dokploy_of_suffixed same with ⟨rfl, rfl⟩
        exact absurd (secondShared ▸ secondIn) (apart rfl firstIn)
      · rw [addSuffixToNetwork, addSuffixToNetwork, if_neg firstShared, if_neg secondShared] at same
        exact addSuffix_injective same

theorem keysOf_renamed {Item : Type} {rename : Text -> Text} {entries : Option (List (Text × Item))} :
    keysOf (renameKeys rename entries) = (keysOf entries).map rename := by
  cases entries with
  | none => rfl
  | some entries => simp only [keysOf, renameKeys, Option.map_some, Option.getD_some, List.map_map]; rfl

theorem section_renamed {Item : Type} {rename : Text -> Text} {entries : Option (List (Text × Item))}
    (distinct : (keysOf entries).Nodup)
    (apart : forall first second, first ∈ keysOf entries -> second ∈ keysOf entries ->
      rename first = rename second -> first = second) :
    entries.map (rebuild rename id) = renameKeys rename entries := by
  cases entries with
  | none => rfl
  | some entries =>
      have moved : ((entries.map Prod.fst).map rename).Nodup :=
        distinct.map_on fun first firstIn second secondIn same => apart first second firstIn secondIn same
      rw [List.map_map] at moved
      exact congrArg some (rebuild_of_nodup rename id moved)

theorem containerNames_suffixed (suffix : Text) (services : List (Text × ServiceConfig Value)) :
    containerNames (services.map fun entry => (addSuffix suffix entry.1, suffixedService suffix entry.2)) =
      (containerNames services).map (addSuffix suffix) := by
  induction services with
  | nil => rfl
  | cons entry rest ih =>
      unfold containerNames at ih ⊢
      rw [List.map_cons, List.flatMap_cons, List.flatMap_cons, List.map_append, ih]
      apply congrArg (· ++ _)
      change (entry.2.container_name.map (addSuffixUnlessEmpty suffix)).toList.filter _ = _
      cases entry.2.container_name with
      | none => rfl
      | some name =>
          by_cases empty : name = []
          · subst empty
            rfl
          · have filled : addSuffix suffix name ≠ [] := List.append_ne_nil_of_right_ne_nil _ (List.cons_ne_nil _ _)
            simp only [Option.map_some, Option.toList_some, addSuffixUnlessEmpty, empty, if_false, ne_eq,
              List.filter_cons, filled, not_false_eq_true, decide_true, if_true, List.filter_nil, List.map_cons,
              List.map_nil]

theorem defined_suffixed {suffix : Text} {composeData : ComposeSpecification Value}
    (distinct : composeData.KeysDistinct)
    (apart : suffix = networkSuffix -> dokploy ∈ keysOf composeData.networks ->
      dokployNetwork ∉ keysOf composeData.networks) (kind : Kind) :
    (addSuffixToAllProperties composeData suffix).defined kind = (composeData.defined kind).map (suffixed suffix kind) := by
  have plain : forall entries : Option (List (Text × Value)), (keysOf entries).Nodup ->
      keysOf (entries.map (rebuild (addSuffix suffix) id)) = (keysOf entries).map (addSuffix suffix) := by
    intro entries keys
    rw [section_renamed keys fun _ _ _ _ same => addSuffix_injective same, keysOf_renamed]
  cases kind with
  | service =>
      change keysOf (addSuffixToAllProperties composeData suffix).services = _
      rw [services_suffixed suffix distinct]
      cases given : composeData.services with
      | none => simp only [keysOf, given, Compose.defined]; rfl
      | some services => simp only [keysOf, given, Compose.defined, Option.map_some, Option.getD_some, List.map_map]; rfl
  | container =>
      change containerNames ((addSuffixToAllProperties composeData suffix).services.getD []) = _
      rw [services_suffixed suffix distinct]
      cases given : composeData.services with
      | none => simp only [given, Compose.defined]; rfl
      | some services =>
          simp only [given, Compose.defined, Option.map_some, Option.getD_some]
          exact containerNames_suffixed suffix services
  | volume => exact plain composeData.volumes distinct.volumes
  | network =>
      change keysOf (composeData.networks.map (rebuild (addSuffixToNetwork suffix) id)) = _
      rw [section_renamed distinct.networks ((networks_apart_iff suffix _).mpr apart), keysOf_renamed]
      rfl
  | config => exact plain composeData.configs distinct.configs
  | secret => exact plain composeData.secrets distinct.secrets

end Definitions

section Readings

variable {defined after : Kind -> List Text} {suffix : Text}

theorem networkNames_suffixed_isEmpty (networks : ServiceNetworks Text Value) :
    (addSuffixToServiceNetwork suffix networks).names.isEmpty = networks.names.isEmpty := by
  cases networks with
  | list names => exact List.isEmpty_map
  | mapping entries =>
      cases entries with
      | nil => rfl
      | cons entry rest =>
          simp only [addSuffixToServiceNetwork, ServiceNetworks.names, List.map_cons, List.isEmpty_cons]
          apply List.isEmpty_eq_false_iff_exists_mem.mpr
          refine ⟨addSuffixToNetwork suffix entry.1, (mem_keys_rebuild _ _ _ _).mpr ⟨_, ?_, rfl⟩⟩
          exact (mem_keys_rebuild _ _ _ _).mpr ⟨entry.1, List.mem_cons_self, rfl⟩

theorem isOnDefault_suffixed (service : ServiceConfig Value) :
    isOnDefault (suffixedService suffix service) = isOnDefault service := by
  have networks : (suffixedService suffix service).networkNames.isEmpty = service.networkNames.isEmpty := by
    unfold Service.networkNames suffixedService
    cases given : service.networks with
    | none => rfl
    | some networks => exact networkNames_suffixed_isEmpty networks
  have mode : (suffixedService suffix service).network_mode.isNone = service.network_mode.isNone :=
    Option.isNone_map
  rw [isOnDefault, networks, mode]
  rfl

theorem container_of_otherNames {service : ServiceConfig Value} {name : Place × Text} (place : name.1 = .containerName)
    (member : name ∈ service.otherNames) : service.container_name = some name.2 := by
  rcases name with ⟨_, text⟩
  cases place
  simp only [Service.otherNames, List.mem_append, List.mem_map, Prod.mk.injEq, reduceCtorEq, false_and, and_false,
    exists_false, or_false, true_and, exists_eq_right, Option.mem_toList, List.mem_flatMap] at member
  have extending : (Place.containerName, text) ∉ service.extending.elim [] Extends.names := by
    cases service.extending with
    | none => exact List.not_mem_nil
    | some extending => cases extending <;> simp [Extends.names]
  have granted : forall short long (grant : Grant Text Value), short ≠ .containerName -> long ≠ .containerName ->
      (Place.containerName, text) ∉ grant.names short long := by
    intro short long grant otherShort otherLong
    cases grant with
    | short name => simp [Grant.names, otherShort.symm]
    | long source rest => simp [Grant.names, otherLong]
  have mounted : forall mount : VolumeMount Text Value, (Place.containerName, text) ∉ mount.names := by
    intro mount
    cases mount <;> simp [VolumeMount.names]
  rcases member with ((((given | extended) | ⟨mount, _, mine⟩) | ⟨grant, _, mine⟩) | ⟨grant, _, mine⟩) | ⟨grant, _, mine⟩
  · exact given
  · exact absurd extended extending
  · exact absurd mine (mounted mount)
  · exact absurd mine (granted _ _ grant (by simp) (by simp))
  · exact absurd mine (granted _ _ grant (by simp) (by simp))
  · exact absurd mine (granted _ _ grant (by simp) (by simp))

theorem attachment_iff {attachment : Attachment Value}
    (distinct : forall settings, attachment = some settings -> (settings.map Prod.fst).Nodup) :
    addSuffixToAttachment suffix attachment = attachment <->
      forall settings, attachment = some settings -> forall setting, setting ∈ settings -> setting.1 = aliasesKey := by
  cases attachment with
  | none => exact ⟨fun _ _ missing => (by cases missing), fun _ => rfl⟩
  | some settings =>
      simp only [addSuffixToAttachment, Option.map_some, Option.some.injEq, forall_eq']
      constructor
      · intro same setting member
        have entrywise := rebuild_of_length _ id (congrArg List.length same)
        rw [same] at entrywise
        have each := List.map_inj_left.mp (entrywise.symm.trans (List.map_id' settings).symm) setting member
        have key := congrArg Prod.fst each
        dsimp only at key
        split at key
        · assumption
        · exact absurd key (addSuffix_ne _)
      · intro aliases
        have same : forall setting, setting ∈ settings ->
            (if setting.1 = aliasesKey then aliasesKey else addSuffix suffix setting.1) = setting.1 := by
          intro setting member
          rw [if_pos (aliases setting member), aliases setting member]
        have keys : (settings.map fun setting =>
            if setting.1 = aliasesKey then aliasesKey else addSuffix suffix setting.1) = settings.map Prod.fst :=
          List.map_congr_left same
        rw [rebuild_of_nodup _ id (keys ▸ distinct settings rfl)]
        conv_rhs => rw [← List.map_id settings]
        exact List.map_congr_left fun setting member => Prod.ext (same setting member) rfl

theorem network_injective
    (apart : forall first second, first ∈ defined .network -> second ∈ defined .network ->
      addSuffixToNetwork suffix first = addSuffixToNetwork suffix second -> first = second)
    {first second : Text}
    (firstKept : resolve after .network (addSuffixToNetwork suffix first) =
      (resolve defined .network first).renamed (suffixed suffix))
    (secondKept : resolve after .network (addSuffixToNetwork suffix second) =
      (resolve defined .network second).renamed (suffixed suffix))
    (same : addSuffixToNetwork suffix first = addSuffixToNetwork suffix second) : first = second := by
  rw [same, secondKept] at firstKept
  simp only [resolve, mention, mentionWhole] at firstKept
  by_cases firstIn : first ∈ defined .network
  · by_cases secondIn : second ∈ defined .network
    · exact apart first second firstIn secondIn same
    · simp only [firstIn, secondIn, if_true, if_false, Reference.renamed, reduceCtorEq] at firstKept
  · by_cases secondIn : second ∈ defined .network
    · simp only [firstIn, secondIn, if_true, if_false, Reference.renamed, reduceCtorEq] at firstKept
    · simp only [firstIn, secondIn, if_false, Reference.renamed, Reference.itself.injEq] at firstKept
      exact firstKept.symm

variable (renames : forall kind, after kind = (defined kind).map (suffixed suffix kind))
  (apart : forall first second, first ∈ defined .network -> second ∈ defined .network ->
    addSuffixToNetwork suffix first = addSuffixToNetwork suffix second -> first = second)
include renames apart

/-- The networks of a service keep their meaning when their names follow and they have only aliases. -/
theorem serviceNetworks_iff (networks : ServiceNetworks Text Value)
    (distinct : forall entries, networks = .mapping entries -> (entries.map Prod.fst).Nodup ∧
      forall entry, entry ∈ entries -> forall settings, entry.2 = some settings -> (settings.map Prod.fst).Nodup) :
    (addSuffixToServiceNetwork suffix networks).mapNames (resolve after .network) =
        networks.mapNames (fun name => (resolve defined .network name).renamed (suffixed suffix)) <->
      (forall name, name ∈ networks.names -> Follows defined suffix .network name) ∧
        forall entries, networks = .mapping entries -> forall entry, entry ∈ entries ->
          forall settings, entry.2 = some settings -> forall setting, setting ∈ settings -> setting.1 = aliasesKey := by
  have follows := @network_iff defined after suffix renames
  cases networks with
  | list names =>
      simp only [addSuffixToServiceNetwork, ServiceNetworks.mapNames, ServiceNetworks.list.injEq, List.map_map,
        List.map_inj_left, Function.comp_apply, ServiceNetworks.names, reduceCtorEq, false_implies, implies_true, and_true]
      exact forall_congr' fun name => imp_congr_right fun _ => follows name
  | mapping entries =>
      rcases distinct entries rfl with ⟨keys, settings⟩
      simp only [addSuffixToServiceNetwork, ServiceNetworks.mapNames, ServiceNetworks.mapping.injEq,
        ServiceNetworks.names, forall_eq', List.forall_mem_map]
      constructor
      · intro same
        have outer := length_rebuild_le id (addSuffixToAttachment suffix)
          (rebuild (addSuffixToNetwork suffix) id entries)
        have inner := length_rebuild_le (addSuffixToNetwork suffix) id entries
        have long := congrArg List.length same
        rw [List.length_map, List.length_map] at long
        rw [rebuild_of_length id _ (by omega), rebuild_of_length _ id (by omega), List.map_map, List.map_map,
          List.map_inj_left] at same
        refine ⟨fun entry member => (follows entry.1).mp (congrArg Prod.fst (same entry member)),
          fun entry member => ?_⟩
        exact (attachment_iff (settings entry member)).mp (congrArg Prod.snd (same entry member))
      · rintro ⟨names, aliases⟩
        have kept := fun entry member => (follows (Prod.fst entry)).mpr (names entry member)
        have moved : (entries.map fun entry => addSuffixToNetwork suffix entry.1).Nodup := by
          have mapped := keys.map_on (f := addSuffixToNetwork suffix) (by
            intro first firstIn second secondIn same
            rcases List.mem_map.mp firstIn with ⟨one, oneIn, rfl⟩
            rcases List.mem_map.mp secondIn with ⟨two, twoIn, rfl⟩
            exact network_injective apart (kept one oneIn) (kept two twoIn) same)
          rwa [List.map_map] at mapped
        rw [rebuild_of_nodup _ id moved, rebuild_id _ (by rw [List.map_map]; exact moved), List.map_map, List.map_map]
        apply List.map_congr_left
        intro entry member
        exact Prod.ext (kept entry member) ((attachment_iff (settings entry member)).mpr (aliases entry member))

omit apart in
theorem default_iff :
    resolve after .network defaultNetwork = (resolve defined .network defaultNetwork).renamed (suffixed suffix) <->
      defaultNetwork ∉ defined .network := by
  have missing : defaultNetwork ∉ after .network := by
    rw [renames, List.mem_map]
    rintro ⟨name, _, same⟩
    have dash : '-' ∈ suffixed suffix .network name := by
      change '-' ∈ addSuffixToNetwork suffix name
      unfold addSuffixToNetwork
      split
      · decide
      · exact List.mem_append_right name List.mem_cons_self
    rw [same] at dash
    exact absurd dash (by decide)
  simp only [resolve, mention, mentionWhole, missing, if_false]
  split
  · rename_i present
    exact ⟨fun same => (by cases same), fun absent => absurd present absent⟩
  · rename_i absent
    exact ⟨fun _ => absent, fun _ => rfl⟩

theorem service_iff (service : ServiceConfig Value) (distinct : service.KeysDistinct)
    (named : forall name, service.container_name = some name -> name ≠ [] -> name ∈ defined .container) :
    readService after (suffixedService suffix service) = (readService defined service).renamed (suffixed suffix) <->
      (forall name, name ∈ service.names -> Follows defined suffix name.1 name.2) ∧
        (isOnDefault service = true -> defaultNetwork ∉ defined .network) ∧ OnlyAliases service := by
  have after_read : (suffixedService suffix service).mapNames (resolve after) =
      { service.mapNames (fun place name => resolve after place (suffixAt suffix place name)) with
        networks := (service.networks.map (addSuffixToServiceNetwork suffix)).map
          (ServiceNetworks.mapNames (resolve after .network)) } :=
    congrArg (fun reading : Service Reference Value =>
      { reading with
        networks := (service.networks.map (addSuffixToServiceNetwork suffix)).map
          (ServiceNetworks.mapNames (resolve after .network)) })
      (Service.mapNames_mapNames (suffixAt suffix) (resolve after) service)
  have implicit : (if isOnDefault service = true then some (resolve after .network defaultNetwork) else none) =
      (if isOnDefault service = true then some (resolve defined .network defaultNetwork) else none).map
        (Reference.renamed (suffixed suffix)) <-> (isOnDefault service = true -> defaultNetwork ∉ defined .network) := by
    split
    · rename_i onDefault
      simp only [Option.map_some, Option.some.injEq, default_iff renames, onDefault, forall_const]
    · rename_i elsewhere
      exact ⟨fun _ onDefault => absurd onDefault elsewhere, fun _ => rfl⟩
  have networks : (service.networks.map (addSuffixToServiceNetwork suffix)).map
        (ServiceNetworks.mapNames (resolve after .network)) =
      service.networks.map
        (ServiceNetworks.mapNames fun name => (resolve defined .network name).renamed (suffixed suffix)) <->
      (forall name, name ∈ service.networkNames -> Follows defined suffix .network name) ∧ OnlyAliases service := by
    unfold Service.networkNames OnlyAliases
    cases given : service.networks with
    | none => simp
    | some networks =>
        have inside := serviceNetworks_iff renames apart networks fun entries same =>
          ⟨distinct.networks entries (same ▸ given), distinct.attachments entries (same ▸ given)⟩
        simp only [Option.map_some, Option.some.injEq, Option.elim_some]
        exact inside
  have others : (forall name, name ∈ service.otherNames ->
      resolve after name.1 (suffixAt suffix name.1 name.2) = (resolve defined name.1 name.2).renamed (suffixed suffix)) <->
      forall name, name ∈ service.otherNames -> Follows defined suffix name.1 name.2 := by
    refine forall_congr' fun name => imp_congr_right fun member => follows_iff renames name.1 name.2 ?_
    intro place filled
    exact named name.2 (container_of_otherNames place member) filled
  simp only [readService, ServiceReading.renamed, ServiceReading.mk.injEq, isOnDefault_suffixed, after_read, implicit,
    Service.mapNames_mapNames, Service.agree, others, networks, Service.names, List.forall_mem_append,
    List.forall_mem_map]
  tauto

end Readings

section Specifications

variable {suffix : Text}

theorem renamed_congr {defined : Kind -> List Text} {first second : Kind -> Text -> Text}
    (agree : forall kind name, name ∈ defined kind -> first kind name = second kind name) (service : ServiceConfig Value) :
    (readService defined service).renamed first = (readService defined service).renamed second := by
  have reference : forall place text, (resolve defined place text).renamed first =
      (resolve defined place text).renamed second := by
    intro place text
    unfold resolve
    split
    · split
      · rename_i found _ member
        simp only [Reference.renamed, agree found.kind found.name member]
      · rfl
    · rfl
  simp only [ServiceReading.renamed, readService, Service.mapNames_mapNames, reference]
  split
  · simp only [Option.map_some, reference]
  · rfl

theorem rename_of_section {Item : Type} {rename given : Text -> Text} {entries : Option (List (Text × Item))}
    (same : entries.map (rebuild rename id) = renameKeys given entries) :
    forall key, key ∈ keysOf entries -> given key = rename key := by
  intro key member
  cases entries with
  | none => exact absurd member List.not_mem_nil
  | some entries =>
      have entrywise := Option.some.inj same
      have long := congrArg List.length entrywise
      rw [List.length_map] at long
      rw [rebuild_of_length rename id long, List.map_inj_left] at entrywise
      rcases List.mem_map.mp member with ⟨entry, among, rfl⟩
      exact (congrArg Prod.fst (entrywise entry among)).symm

variable {composeData : ComposeSpecification Value}

theorem services_meaning_iff (distinct : composeData.KeysDistinct)
    (rename : Kind -> Text -> Text) :
    (addSuffixToAllProperties composeData suffix).meaning.services = (composeData.meaning.renamed rename).services <->
      forall entry, entry ∈ composeData.services.getD [] -> addSuffix suffix entry.1 = rename .service entry.1 ∧
        readService (addSuffixToAllProperties composeData suffix).defined (suffixedService suffix entry.2) =
          (readService composeData.defined entry.2).renamed rename := by
  simp only [Compose.meaning, Meaning.renamed, services_suffixed suffix distinct]
  cases composeData.services with
  | none => exact ⟨fun _ _ member => absurd member List.not_mem_nil, fun _ => rfl⟩
  | some services =>
      simp only [Option.map_some, Option.some.injEq, List.map_map, List.map_inj_left, Function.comp_apply,
        Prod.mk.injEq, Option.getD_some]

theorem named_container {entry : Text × ServiceConfig Value}
    (among : entry ∈ composeData.services.getD []) :
    forall name, entry.2.container_name = some name -> name ≠ [] -> name ∈ composeData.defined .container := by
  intro name given filled
  apply List.mem_flatMap.mpr ⟨entry, among, ?_⟩
  rw [given]
  exact List.mem_filter.mpr ⟨List.mem_singleton_self name, decide_eq_true filled⟩

theorem rename_of_container {after defined : Kind -> List Text} {rename : Kind -> Text -> Text}
    {service : ServiceConfig Value} {name : Text} (given : service.container_name = some name) (filled : name ≠ [])
    (member : name ∈ defined .container)
    (same : readService after (suffixedService suffix service) = (readService defined service).renamed rename) :
    rename .container name = addSuffix suffix name := by
  have containers := congrArg (fun reading => reading.service.container_name) same
  have longer : addSuffix suffix name ≠ [] := List.append_ne_nil_of_right_ne_nil _ (List.cons_ne_nil _ _)
  simp only [readService, ServiceReading.renamed, suffixedService, Service.mapNames, given, Option.map_some, suffixAt,
    addSuffixUnlessEmpty, filled, if_false, Option.some.injEq, resolve, mention, mentionUnlessEmpty, longer,
    mentionWhole, member, if_true, Reference.renamed] at containers
  split at containers
  · exact (congrArg Mention.name (Reference.definition.inj containers)).symm
  · cases containers

theorem rename_eq_suffixed (distinct : composeData.KeysDistinct)
    {rename : Kind -> Text -> Text}
    (same : (addSuffixToAllProperties composeData suffix).meaning = composeData.meaning.renamed rename) :
    forall kind name, name ∈ composeData.defined kind -> rename kind name = suffixed suffix kind name := by
  have services := (services_meaning_iff distinct rename).mp (congrArg Meaning.services same)
  intro kind name member
  cases kind with
  | service =>
      rcases List.mem_map.mp member with ⟨entry, among, rfl⟩
      exact (services entry among).1.symm
  | container =>
      rcases List.mem_flatMap.mp member with ⟨entry, among, mine⟩
      rcases List.mem_filter.mp mine with ⟨given, filled⟩
      exact rename_of_container (Option.mem_toList.mp given) (of_decide_eq_true filled) member (services entry among).2
  | volume => exact rename_of_section (congrArg Meaning.volumes same) name member
  | network => exact rename_of_section (congrArg Meaning.networks same) name member
  | config => exact rename_of_section (congrArg Meaning.configs same) name member
  | secret => exact rename_of_section (congrArg Meaning.secrets same) name member

theorem clean_of_consistent (parsed : ParsedSpecification Value)
    (consistent : ConsistentRenaming parsed.composeData (addSuffixToAllProperties parsed.composeData suffix)) :
    RenamesCleanly parsed.composeData suffix := by
  rcases consistent with ⟨rename, injective, same⟩
  have named := rename_eq_suffixed parsed.distinct same
  have different : forall first second, first ∈ keysOf parsed.composeData.networks ->
      second ∈ keysOf parsed.composeData.networks ->
      addSuffixToNetwork suffix first = addSuffixToNetwork suffix second -> first = second := by
    intro first second firstIn secondIn meet
    apply injective .network first second firstIn secondIn
    rw [named .network first firstIn, named .network second secondIn]
    exact meet
  have apart := (networks_apart_iff suffix _).mp different
  have renames := defined_suffixed parsed.distinct apart
  have clean := fun entry (among : entry ∈ parsed.composeData.services.getD []) =>
    have read := ((services_meaning_iff parsed.distinct rename).mp (congrArg Meaning.services same) entry among).2
    (service_iff renames different entry.2 (parsed.distinct.each entry among) (named_container among)).mp
      (read.trans (renamed_congr named entry.2))
  exact ⟨apart, fun entry among => (clean entry among).1, fun entry among => (clean entry among).2.1,
    fun entry among => (clean entry among).2.2⟩

theorem consistent_of_clean (parsed : ParsedSpecification Value) (clean : RenamesCleanly parsed.composeData suffix) :
    ConsistentRenaming parsed.composeData (addSuffixToAllProperties parsed.composeData suffix) := by
  have different := (networks_apart_iff suffix (keysOf parsed.composeData.networks)).mpr clean.apart
  have renames := defined_suffixed parsed.distinct clean.apart
  refine ⟨suffixed suffix, ?_, ?_⟩
  · intro kind first second firstIn secondIn meet
    cases kind with
    | network => exact different first second firstIn secondIn meet
    | service => exact addSuffix_injective meet
    | container => exact addSuffix_injective meet
    | volume => exact addSuffix_injective meet
    | config => exact addSuffix_injective meet
    | secret => exact addSuffix_injective meet
  · have services : (addSuffixToAllProperties parsed.composeData suffix).meaning.services =
        (parsed.composeData.meaning.renamed (suffixed suffix)).services := by
      apply (services_meaning_iff parsed.distinct _).mpr
      intro entry among
      refine ⟨rfl, ?_⟩
      exact (service_iff renames different entry.2 (parsed.distinct.each entry among) (named_container among)).mpr
        ⟨clean.names entry among, clean.onDefault entry among, clean.aliases entry among⟩
    have plain : forall entries : Option (List (Text × Value)), (keysOf entries).Nodup ->
        entries.map (rebuild (addSuffix suffix) id) = renameKeys (addSuffix suffix) entries := fun _ keys =>
      section_renamed keys fun _ _ _ _ meet => addSuffix_injective meet
    have networks := section_renamed parsed.distinct.networks different
    exact Meaning.ext services (plain _ parsed.distinct.volumes) networks (plain _ parsed.distinct.configs)
      (plain _ parsed.distinct.secrets) rfl

/-- The suffix renames a specification consistently exactly when it is clean. -/
theorem randomized_consistently_iff (parsed : ParsedSpecification Value) (suffix : Text) :
    ConsistentRenaming parsed.composeData (addSuffixToAllProperties parsed.composeData suffix) <->
      RenamesCleanly parsed.composeData suffix :=
  ⟨clean_of_consistent parsed, consistent_of_clean parsed⟩

end Specifications

section Alias

def plainService : ServiceConfig Unit :=
  ⟨none, none, none, none, none, none, none, none, none, none, none, none, none, none, none, ()⟩

def linkedWeb : ServiceConfig Unit := { plainService with links := some ["db:database".toList] }

def linkedServices : ComposeSpecification Unit :=
  ⟨some [("web".toList, linkedWeb), ("db".toList, plainService)], none, none, none, none, ()⟩

def linkedSpecification : ParsedSpecification Unit where
  composeData := linkedServices
  distinct := by
    refine ⟨by decide, List.nodup_nil, List.nodup_nil, List.nodup_nil, List.nodup_nil, ?_⟩
    intro entry among
    have plain : entry.2.depends_on = none ∧ entry.2.networks = none := by
      rcases List.mem_cons.mp among with rfl | later
      · exact ⟨rfl, rfl⟩
      · cases List.mem_singleton.mp later
        exact ⟨rfl, rfl⟩
    constructor
    · intro entries given
      rw [plain.1] at given
      cases given
    · intro entries given
      rw [plain.2] at given
      cases given
    · intro entries given
      rw [plain.2] at given
      cases given

/-- The suffix lands on the alias, and the link still names the service that was renamed. -/
theorem randomized_alias :
    ¬ forall (parsed : ParsedSpecification Unit) (suffix : Text),
      ConsistentRenaming parsed.composeData (addSuffixToAllProperties parsed.composeData suffix) := by
  intro claim
  have clean := clean_of_consistent linkedSpecification (claim linkedSpecification "x".toList)
  have follows := clean.names ("web".toList, linkedWeb) List.mem_cons_self (.link, "db:database".toList) (by decide)
  exact absurd follows.2.1 (by decide)

end Alias

end ComposeRename
end Dokploy
