import Scaffold.Manifest.Basic
import Scaffold.Yaml.Decode

/-! Reading deployments from YAML. -/

namespace Scaffold.Manifest

open Yaml Decode

def required {α : Type} (name : String) (value : Option α) : Except Problem α :=
  match value with
  | some a => .ok a
  | none => .error (.missingField name)

/-- Sets what has been read of a record to a value with `d`. -/
def reads {σ α : Type} (d : Decoder α) (set : σ → α → σ) : Option (Path → Node → σ → Decode σ) :=
  some fun p n f => do return set f (← d p n)

/-- The fields of metadata that have been read. -/
structure MetadataFields where
  name : Option String
  labels : Option (Keyed String)

/-- Reads metadata; labels may be left out. -/
def Metadata.decoder : Decoder Metadata :=
  record "struct ObjectMeta"
    (fun name =>
      if name = "name" then reads text fun f a => { f with name := some a }
      else if name = "labels" then reads (mapOf text) fun f a => { f with labels := some a }
      else none)
    (⟨none, none⟩ : MetadataFields)
    fun f => do return ⟨← required "name" f.name, f.labels.getD .empty⟩

/-- Reads a record with a single field. -/
def single {α : Type} (expected field : String) (d : Decoder α) : Decoder α :=
  record expected
    (fun name => if name = field then reads d fun _ a => some a else none)
    none (required field)

structure EnvVarFields where
  name : Option String
  value : Option (Option String)
  fieldPath : Option (Option String)

def EnvVar.decoder : Decoder EnvVar :=
  record "struct EnvVar"
    (fun name =>
      if name = "name" then reads text fun f a => { f with name := some a }
      else if name = "value" then reads (optional text) fun f a => { f with value := some a }
      else if name = "valueFrom" then
        reads (optional (single "struct EnvVarSource" "fieldRef"
          (single "struct ObjectFieldSelector" "fieldPath" text)))
          fun f a => { f with fieldPath := some a }
      else none)
    (⟨none, none, none⟩ : EnvVarFields)
    fun f => do return ⟨← required "name" f.name, f.value.getD none, f.fieldPath.getD none⟩

def PullPolicy.decoder : Decoder PullPolicy :=
  variant [("Always", .always), ("IfNotPresent", .ifNotPresent), ("Never", .never)]

structure ContainerFields where
  name : Option String
  image : Option String
  command : Option (List String)
  imagePullPolicy : Option PullPolicy
  env : Option (List EnvVar)

/-- Reads a container; the environment may be left out. -/
def Container.decoder : Decoder Container :=
  record "struct Container"
    (fun name =>
      if name = "name" then reads text fun f a => { f with name := some a }
      else if name = "image" then reads text fun f a => { f with image := some a }
      else if name = "command" then reads (list text) fun f a => { f with command := some a }
      else if name = "imagePullPolicy" then
        reads PullPolicy.decoder fun f a => { f with imagePullPolicy := some a }
      else if name = "env" then reads (list EnvVar.decoder) fun f a => { f with env := some a }
      else none)
    (⟨none, none, none, none, none⟩ : ContainerFields)
    fun f => do
      return ⟨← required "name" f.name, ← required "image" f.image, ← required "command" f.command,
        ← required "imagePullPolicy" f.imagePullPolicy, f.env.getD []⟩

structure PodSpecFields where
  serviceAccountName : Option String
  containers : Option (List Container)

def PodSpec.decoder : Decoder PodSpec :=
  record "struct PodSpec"
    (fun name =>
      if name = "serviceAccountName" then
        reads text fun f a => { f with serviceAccountName := some a }
      else if name = "containers" then
        reads (list Container.decoder) fun f a => { f with containers := some a }
      else none)
    (⟨none, none⟩ : PodSpecFields)
    fun f => do
      return ⟨← required "serviceAccountName" f.serviceAccountName,
        ← required "containers" f.containers⟩

structure PodTemplateFields where
  metadata : Option Metadata
  spec : Option PodSpec

def PodTemplate.decoder : Decoder PodTemplate :=
  record "struct PodTemplateSpec"
    (fun name =>
      if name = "metadata" then reads Metadata.decoder fun f a => { f with metadata := some a }
      else if name = "spec" then reads PodSpec.decoder fun f a => { f with spec := some a }
      else none)
    (⟨none, none⟩ : PodTemplateFields)
    fun f => do return ⟨← required "metadata" f.metadata, ← required "spec" f.spec⟩

structure DeploymentSpecFields where
  replicas : Option Int
  matchLabels : Option (Keyed String)
  template : Option PodTemplate

def DeploymentSpec.decoder : Decoder DeploymentSpec :=
  record "struct DeploymentSpec"
    (fun name =>
      if name = "replicas" then
        reads (intBetween (-(Nat.pow 2 31)) (Nat.pow 2 31 - 1) "i32") fun f a => { f with replicas := some a }
      else if name = "selector" then
        reads (single "struct LabelSelector" "matchLabels" (mapOf text))
          fun f a => { f with matchLabels := some a }
      else if name = "template" then
        reads PodTemplate.decoder fun f a => { f with template := some a }
      else none)
    (⟨none, none, none⟩ : DeploymentSpecFields)
    fun f => do
      return ⟨Int32.ofInt (← required "replicas" f.replicas), ← required "selector" f.matchLabels,
        ← required "template" f.template⟩

structure DeploymentFields where
  apiVersion : Option String
  kind : Option String
  metadata : Option Metadata
  spec : Option DeploymentSpec

def Deployment.decoder : Decoder Deployment :=
  record "struct Deployment"
    (fun name =>
      if name = "apiVersion" then reads text fun f a => { f with apiVersion := some a }
      else if name = "kind" then reads text fun f a => { f with kind := some a }
      else if name = "metadata" then reads Metadata.decoder fun f a => { f with metadata := some a }
      else if name = "spec" then reads DeploymentSpec.decoder fun f a => { f with spec := some a }
      else none)
    (⟨none, none, none, none⟩ : DeploymentFields)
    fun f => do
      return ⟨← required "apiVersion" f.apiVersion, ← required "kind" f.kind,
        ← required "metadata" f.metadata, ← required "spec" f.spec⟩

def Deployment.parse (text : String) : Except Failure Deployment :=
  decodeText Deployment.decoder text

end Scaffold.Manifest
