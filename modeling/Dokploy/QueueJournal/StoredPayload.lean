import Dokploy.DeployQueue.Operations

namespace Dokploy
namespace QueueJournal

open DeployQueue

/-!
# Payloads as the journal stores them

A row keeps the payload of its job as a JSON document.  What is read back after
a restart is untyped, so the restore checks the document before it treats it as
a payload.  Reading back what was stored gives the payload that was stored.
-/

inductive Json where
  | null
  | bool (value : Bool)
  | num (value : Int)
  | str (value : String)
  | arr (items : List Json)
  | obj (properties : List (String × Json))

namespace Json

/-- A property read.  Only an object has any. -/
def property (name : String) : Json -> Option Json
  | obj properties => properties.lookup name
  | _ => none

def text (name : String) (document : Json) : Option String :=
  match document.property name with
  | some (str value) => some value
  | _ => none

/-- `typeof` says "object" and the value is not null. -/
def isObject : Json -> Bool
  | obj _ | arr _ => true
  | _ => false

def truth (name : String) (document : Json) : Option Bool :=
  match document.property name with
  | some (bool value) => some value
  | _ => none

end Json

def APPLICATION_TYPES : List String :=
  ["application", "compose", "application-preview", "compose-preview"]

/-- Whether a document read from the journal is the payload of a job that can
be restored. -/
def isRestorableJob (payload : Json) : Bool :=
  if !payload.isObject then false
  else
    match payload.text "applicationType" with
    | none => false
    | some applicationType =>
        if applicationType ∉ APPLICATION_TYPES then false
        else if payload.text "type" ≠ some "deploy" ∧ payload.text "type" ≠ some "redeploy" then false
        else
          let needsCompose := applicationType == "compose" || applicationType == "compose-preview"
          let owner := if needsCompose then payload.text "composeId" else payload.text "applicationId"
          InMemoryQueue.truthy owner

def applicationTypeName : ApplicationType -> String
  | .application => "application"
  | .compose => "compose"
  | .applicationPreview => "application-preview"
  | .composePreview => "compose-preview"

def jobTypeName : JobType -> String
  | .deploy => "deploy"
  | .redeploy => "redeploy"

/-- Properties that are undefined are left out of the document. -/
def defined (properties : List (String × Option Json)) : List (String × Json) :=
  properties.filterMap fun property => property.2.map fun value => (property.1, value)

def storedImage (image : PinnedImage) : Json :=
  .obj [("ref", .str image.ref), ("tag", (image.tag.map Json.str).getD .null), ("digest", .str image.digest)]

def stored (data : DeploymentJob) : Json :=
  .obj <| defined
    [("applicationType", some (.str (applicationTypeName data.applicationType))),
      ("type", some (.str (jobTypeName data.type))),
      ("applicationId", data.applicationId.map .str),
      ("composeId", data.composeId.map .str),
      ("previewDeploymentId", data.previewDeploymentId.map .str),
      ("titleLog", data.titleLog.map .str),
      ("descriptionLog", data.descriptionLog.map .str),
      ("serverId", data.serverId.map .str),
      ("freshVolumes", data.freshVolumes.map .bool),
      ("pinnedImage", data.pinnedImage.map storedImage),
      ("deploymentId", data.deploymentId.map .str),
      ("priority", data.priority.map .bool),
      ("priorityBy", data.priorityBy.map .str)]

def readApplicationType : Option String -> ApplicationType
  | some "compose" => .compose
  | some "application-preview" => .applicationPreview
  | some "compose-preview" => .composePreview
  | _ => .application

def readJobType : Option String -> JobType
  | some "redeploy" => .redeploy
  | _ => .deploy

def readImage (document : Json) : PinnedImage where
  ref := (document.text "ref").getD ""
  tag := document.text "tag"
  digest := (document.text "digest").getD ""

/-- A document that passed the check, seen as a payload.  The code casts it and
reads its properties later; a property of another type reads as absent. -/
def asJob (payload : Json) : DeploymentJob where
  applicationType := readApplicationType (payload.text "applicationType")
  type := readJobType (payload.text "type")
  applicationId := payload.text "applicationId"
  composeId := payload.text "composeId"
  previewDeploymentId := payload.text "previewDeploymentId"
  titleLog := payload.text "titleLog"
  descriptionLog := payload.text "descriptionLog"
  serverId := payload.text "serverId"
  freshVolumes := payload.truth "freshVolumes"
  pinnedImage := (payload.property "pinnedImage").map readImage
  deploymentId := payload.text "deploymentId"
  priority := payload.truth "priority"
  priorityBy := payload.text "priorityBy"

private theorem lookup_defined (name key : String) (value : Option Json) (rest : List (String × Option Json)) :
    (defined ((key, value) :: rest)).lookup name =
      if name = key then value.or ((defined rest).lookup name) else (defined rest).lookup name := by
  cases value with
  | none => rw [Option.none_or, ite_self]; rfl
  | some value =>
      have split : defined ((key, some value) :: rest) = (key, value) :: defined rest := rfl
      rw [split, List.lookup_cons]
      by_cases same : name = key
      · rw [if_pos same, beq_iff_eq.mpr same, Option.some_or]
      · rw [if_neg same, beq_eq_false_iff_ne.mpr same]

private theorem lookup_defined_nil (name : String) : (defined []).lookup name = none := rfl

private theorem text_of_optional (value : Option String) :
    (match value.map Json.str with
      | some (.str text) => some text
      | _ => none) = value := by
  cases value <;> rfl

private theorem truth_of_optional (value : Option Bool) :
    (match value.map Json.bool with
      | some (.bool truth) => some truth
      | _ => none) = value := by
  cases value <;> rfl

private theorem readImage_storedImage (image : PinnedImage) : readImage (storedImage image) = image := by
  rcases image with ⟨ref, tag, digest⟩
  cases tag <;> rfl

theorem asJob_stored (data : DeploymentJob) : asJob (stored data) = data := by
  have kind : readApplicationType (some (applicationTypeName data.applicationType)) = data.applicationType := by
    cases data.applicationType <;> rfl
  have type : readJobType (some (jobTypeName data.type)) = data.type := by
    cases data.type <;> rfl
  have image : (data.pinnedImage.map storedImage).map readImage = data.pinnedImage := by
    cases data.pinnedImage with
    | none => rfl
    | some image => rw [Option.map_some, Option.map_some, readImage_storedImage]
  simp [asJob, stored, Json.text, Json.truth, Json.property, lookup_defined, lookup_defined_nil,
    text_of_optional, truth_of_optional, kind, type, image]

end QueueJournal
end Dokploy
