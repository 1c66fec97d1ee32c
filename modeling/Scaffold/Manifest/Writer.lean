import Scaffold.Manifest.Basic
import Scaffold.Yaml.Data

/-! Writing deployments as YAML, the fields in the order in which the schema lists them. -/

namespace Scaffold.Manifest

open Yaml

def labelData (labels : Keyed String) : Data :=
  .record (labels.entries.map fun (k, v) => (k, .text v))

def Metadata.toData (m : Metadata) : Data :=
  .record ([("name", .text m.name)] ++
    if m.labels.isEmpty then [] else [("labels", labelData m.labels)])

def EnvVar.toData (e : EnvVar) : Data :=
  .record ([("name", .text e.name)] ++ Data.field? "value" (e.value.map .text) ++
    Data.field? "valueFrom" (e.fieldPath.map fun path =>
      .record [("fieldRef", .record [("fieldPath", .text path)])]))

/-- A container; an empty environment is left out. -/
def Container.toData (c : Container) : Data :=
  .record ([("name", .text c.name), ("image", .text c.image), ("command", Data.texts c.command),
      ("imagePullPolicy", .word c.imagePullPolicy.name)] ++
    if c.env.isEmpty then [] else [("env", .list (c.env.map EnvVar.toData))])

def PodTemplate.toData (t : PodTemplate) : Data :=
  .record [("metadata", t.metadata.toData),
    ("spec", .record [("serviceAccountName", .text t.spec.serviceAccountName),
      ("containers", .list (t.spec.containers.map Container.toData))])]

def DeploymentSpec.toData (s : DeploymentSpec) : Data :=
  .record [("replicas", .word (toString s.replicas.toInt)),
    ("selector", .record [("matchLabels", labelData s.matchLabels)]),
    ("template", s.template.toData)]

def Deployment.toYaml (d : Deployment) : String :=
  Data.document [("apiVersion", .text d.apiVersion), ("kind", .text d.kind),
    ("metadata", d.metadata.toData), ("spec", d.spec.toData)]

end Scaffold.Manifest
