import Scaffold.Keyed
import Scaffold.Project.Basic

/-! The deployment manifest of an operator: the part of the `apps/v1` schema that it needs. -/

namespace Scaffold.Manifest

structure Metadata where
  name : String
  labels : Keyed String
  deriving DecidableEq, Repr

/-- When a container's image is fetched. -/
inductive PullPolicy where
  | always
  | ifNotPresent
  | never
  deriving DecidableEq, Repr

def PullPolicy.name : PullPolicy → String
  | .always => "Always"
  | .ifNotPresent => "IfNotPresent"
  | .never => "Never"

/-- A variable of a container's environment: a text, or the path of a field of the running pod. -/
structure EnvVar where
  name : String
  value : Option String
  fieldPath : Option String
  deriving DecidableEq, Repr

structure Container where
  name : String
  image : String
  command : List String
  imagePullPolicy : PullPolicy
  env : List EnvVar
  deriving DecidableEq, Repr

structure PodSpec where
  serviceAccountName : String
  containers : List Container
  deriving DecidableEq, Repr

/-- The pods of a deployment. -/
structure PodTemplate where
  metadata : Metadata
  spec : PodSpec
  deriving DecidableEq, Repr

/-- What a deployment runs, and how often. The number of replicas has 32 bits. -/
structure DeploymentSpec where
  replicas : Int32
  matchLabels : Keyed String
  template : PodTemplate
  deriving DecidableEq

structure Deployment where
  apiVersion : String
  kind : String
  metadata : Metadata
  spec : DeploymentSpec
  deriving DecidableEq

/-- The image that the build pipeline replaces. -/
def placeholderImage : String := "REPLACE_IMAGE"

/-- The deployment that runs one replica of an operator. -/
def deployment (operatorName : String) : Deployment :=
  let labels := Keyed.single "name" operatorName
  { apiVersion := "apps/v1"
    kind := "Deployment"
    metadata := ⟨operatorName, .empty⟩
    spec := {
      replicas := 1
      matchLabels := labels
      template := {
        metadata := ⟨operatorName, labels⟩
        spec := {
          serviceAccountName := operatorName
          containers := [{
            name := operatorName
            image := placeholderImage
            command := [operatorName]
            imagePullPolicy := .always
            env := [
              ⟨"WATCH_NAMESPACE", none, some "metadata.namespace"⟩,
              ⟨"POD_NAME", none, some "metadata.name"⟩,
              ⟨"OPERATOR_NAME", some operatorName, none⟩] }] } } } }

/-- The deployment of a project's operator. -/
def ofProject (p : Project) : Deployment := deployment p.operatorName

end Scaffold.Manifest
