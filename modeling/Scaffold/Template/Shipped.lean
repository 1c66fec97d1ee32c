/-! The templates that come with the program, by identifier. Each source is a text of whole lines. -/

namespace Scaffold.Template.Shipped

def wholeLines (lines : List String) : String :=
  String.ofList (lines.flatMap fun line => line.toList ++ ['\n'])

/-- The entry point of the operator. -/
def mainSource : String :=
  wholeLines [
    "// Code generated by pilot. DO NOT EDIT.",
    "",
    "package main",
    "",
    "import (",
    "\t\"log\"",
    "",
    "\t\"\x7b\x7b config_import_path \x7d\x7d\"",
    "\t\"\x7b\x7b scheduler_import_path \x7d\x7d\"",
    ")",
    "",
    "func main() \x7b",
    "\tcfg, err := config.Load()",
    "\tif err != nil \x7b",
    "\t\tlog.Fatalf(\"loading config: %v\", err)",
    "\t\x7d",
    "\tif err := scheduler.Run(cfg); err != nil \x7b",
    "\t\tlog.Fatalf(\"\x7b\x7b operator_name \x7d\x7d exited: %v\", err)",
    "\t\x7d",
    "\x7d"]

/-- The control loop, which calls the worker of the phase that a resource is in. -/
def schedulerSource : String :=
  wholeLines [
    "// Code generated by pilot. DO NOT EDIT.",
    "",
    "package scheduler",
    "",
    "import (",
    "\t\"context\"",
    "\t\"fmt\"",
    "\t\"time\"",
    "",
    "\t\"\x7b\x7b config_import_path \x7d\x7d\"",
    "\t\x7b\x7b version \x7d\x7d \"\x7b\x7b types_import_path \x7d\x7d\"",
    "\x7b%- for phase in project.phases %\x7d",
    "\x7b%- if has_inputs(phase=phase.name) or has_outputs(phase=phase.name) %\x7d",
    "\t\"\x7b\x7b worker_import_path(phase=phase.name) \x7d\x7d\"",
    "\x7b%- endif %\x7d",
    "\x7b%- endfor %\x7d",
    ")",
    "",
    "// Run reconciles every \x7b\x7b project.kind \x7d\x7d once per resync period.",
    "func Run(cfg *config.Config) error \x7b",
    "\tticker := time.NewTicker(cfg.ResyncPeriod)",
    "\tdefer ticker.Stop()",
    "\tfor range ticker.C \x7b",
    "\t\tif err := reconcile(context.Background()); err != nil \x7b",
    "\t\t\treturn fmt.Errorf(\"reconcile \x7b\x7b kind_lower_camel \x7d\x7d: %w\", err)",
    "\t\t\x7d",
    "\t\x7d",
    "\treturn nil",
    "\x7d",
    "",
    "func reconcile(ctx context.Context) error \x7b",
    "\tvar \x7b\x7b kind_lower_camel \x7d\x7d \x7b\x7b version \x7d\x7d.\x7b\x7b project.kind \x7d\x7d",
    "\tswitch \x7b\x7b kind_lower_camel \x7d\x7d.Status.Phase \x7b",
    "\x7b%- for phase in project.phases %\x7d",
    "\tcase \x7b\x7b version \x7d\x7d.\x7b\x7b project.kind \x7d\x7dPhase\x7b\x7b phase.name | upper_camel \x7d\x7d:",
    "\x7b%- if has_inputs(phase=phase.name) or has_outputs(phase=phase.name) %\x7d",
    "\t\treturn (&\x7b\x7b worker_package(phase=phase.name) \x7d\x7d.Worker\x7b\x7d).Sync(ctx, &\x7b\x7b kind_lower_camel \x7d\x7d)",
    "\x7b%- else %\x7d",
    "\t\treturn nil",
    "\x7b%- endif %\x7d",
    "\x7b%- endfor %\x7d",
    "\t\x7d",
    "\treturn nil",
    "\x7d"]

/-- The runtime settings. -/
def configSource : String :=
  wholeLines [
    "package config",
    "",
    "import (",
    "\t\"os\"",
    "\t\"time\"",
    ")",
    "",
    "// Config holds runtime settings for \x7b\x7b operator_name \x7d\x7d.",
    "//",
    "// This file is generated once and then owned by you; regeneration will not",
    "// overwrite it.",
    "type Config struct \x7b",
    "\tResyncPeriod   time.Duration",
    "\tWatchNamespace string",
    "\x7d",
    "",
    "// Load reads the configuration from the environment.",
    "func Load() (*Config, error) \x7b",
    "\treturn &Config\x7b",
    "\t\tResyncPeriod:   30 * time.Second,",
    "\t\tWatchNamespace: os.Getenv(\"WATCH_NAMESPACE\"),",
    "\t\x7d, nil",
    "\x7d"]

/-- The comment of the API package. -/
def docSource : String :=
  wholeLines [
    "// Code generated by pilot. DO NOT EDIT.",
    "",
    "// Package \x7b\x7b version \x7d\x7d contains the \x7b\x7b project.kind \x7d\x7d API of group \x7b\x7b group \x7d\x7d.",
    "// +k8s:deepcopy-gen=package,register",
    "// +groupName=\x7b\x7b group \x7d\x7d",
    "package \x7b\x7b version \x7d\x7d"]

/-- A constant for each phase. -/
def phasesSource : String :=
  wholeLines [
    "// Code generated by pilot. DO NOT EDIT.",
    "",
    "package \x7b\x7b version \x7d\x7d",
    "",
    "// \x7b\x7b project.kind \x7d\x7dPhase is the processing stage a \x7b\x7b project.kind \x7d\x7d is in.",
    "type \x7b\x7b project.kind \x7d\x7dPhase string",
    "",
    "const (",
    "\x7b%- for phase in project.phases %\x7d",
    "\t\x7b\x7b project.kind \x7d\x7dPhase\x7b\x7b phase.name | upper_camel \x7d\x7d \x7b\x7b project.kind \x7d\x7dPhase = \"\x7b\x7b phase.name \x7d\x7d\"",
    "\x7b%- endfor %\x7d",
    ")"]

/-- The registration of the API types. -/
def registerSource : String :=
  wholeLines [
    "// Code generated by pilot. DO NOT EDIT.",
    "",
    "package \x7b\x7b version \x7d\x7d",
    "",
    "import (",
    "\tmetav1 \"k8s.io/apimachinery/pkg/apis/meta/v1\"",
    "\t\"k8s.io/apimachinery/pkg/runtime\"",
    "\t\"k8s.io/apimachinery/pkg/runtime/schema\"",
    ")",
    "",
    "// SchemeGroupVersion is the group version used to register these objects.",
    "var SchemeGroupVersion = schema.GroupVersion\x7bGroup: \"\x7b\x7b group \x7d\x7d\", Version: \"\x7b\x7b version \x7d\x7d\"\x7d",
    "",
    "var \x7b\x7b kind_lower_camel \x7d\x7dResource = SchemeGroupVersion.WithResource(\"\x7b\x7b project.kind | plural | lower \x7d\x7d\")",
    "",
    "var (",
    "\tSchemeBuilder = runtime.NewSchemeBuilder(addKnownTypes)",
    "\tAddToScheme   = SchemeBuilder.AddToScheme",
    ")",
    "",
    "func addKnownTypes(scheme *runtime.Scheme) error \x7b",
    "\tscheme.AddKnownTypes(SchemeGroupVersion,",
    "\t\t&\x7b\x7b project.kind \x7d\x7d\x7b\x7d,",
    "\t\t&\x7b\x7b project.kind \x7d\x7dList\x7b\x7d,",
    "\t)",
    "\tmetav1.AddToGroupVersion(scheme, SchemeGroupVersion)",
    "\treturn nil",
    "\x7d"]

/-- The desired state of the resource. -/
def specSource : String :=
  wholeLines [
    "package \x7b\x7b version \x7d\x7d",
    "",
    "// \x7b\x7b project.kind \x7d\x7dSpec is the desired state of a \x7b\x7b project.kind \x7d\x7d.",
    "//",
    "// This file is generated once and then owned by you; add fields freely.",
    "type \x7b\x7b project.kind \x7d\x7dSpec struct \x7b",
    "\x7d"]

/-- The types of the resource. -/
def typesSource : String :=
  wholeLines [
    "// Code generated by pilot. DO NOT EDIT.",
    "",
    "package \x7b\x7b version \x7d\x7d",
    "",
    "import (",
    "\tmetav1 \"k8s.io/apimachinery/pkg/apis/meta/v1\"",
    ")",
    "",
    "// +genclient",
    "// +k8s:deepcopy-gen:interfaces=k8s.io/apimachinery/pkg/runtime.Object",
    "",
    "// \x7b\x7b project.kind \x7d\x7d is the Schema for the \x7b\x7b project.kind | plural | lower \x7d\x7d API.",
    "type \x7b\x7b project.kind \x7d\x7d struct \x7b",
    "\tmetav1.TypeMeta   `json:\",inline\"`",
    "\tmetav1.ObjectMeta `json:\"metadata,omitempty\"`",
    "",
    "\tSpec   \x7b\x7b project.kind \x7d\x7dSpec   `json:\"spec,omitempty\"`",
    "\tStatus \x7b\x7b project.kind \x7d\x7dStatus `json:\"status,omitempty\"`",
    "\x7d",
    "",
    "// \x7b\x7b project.kind \x7d\x7dStatus is the observed state of a \x7b\x7b project.kind \x7d\x7d.",
    "type \x7b\x7b project.kind \x7d\x7dStatus struct \x7b",
    "\tPhase              \x7b\x7b project.kind \x7d\x7dPhase `json:\"phase,omitempty\"`",
    "\tObservedGeneration int64 `json:\"observedGeneration,omitempty\"`",
    "\x7d",
    "",
    "// +k8s:deepcopy-gen:interfaces=k8s.io/apimachinery/pkg/runtime.Object",
    "",
    "// \x7b\x7b project.kind \x7d\x7dList contains a list of \x7b\x7b project.kind \x7d\x7d.",
    "type \x7b\x7b project.kind \x7d\x7dList struct \x7b",
    "\tmetav1.TypeMeta `json:\",inline\"`",
    "\tmetav1.ListMeta `json:\"metadata,omitempty\"`",
    "\tItems           []\x7b\x7b project.kind \x7d\x7d `json:\"items\"`",
    "\x7d"]

/-- The inputs and outputs of a phase. -/
def parametersSource : String :=
  wholeLines [
    "// Code generated by pilot. DO NOT EDIT.",
    "",
    "package \x7b\x7b worker_package \x7d\x7d",
    "",
    "import (",
    "\t\x7b\x7b project.version \x7d\x7d \"\x7b\x7b project.types_import_path \x7d\x7d\"",
    ")",
    "\x7b% if has_inputs() %\x7d",
    "// Inputs are the values the \x7b\x7b name \x7d\x7d phase reads.",
    "type Inputs struct \x7b",
    "\x7b%- for input in inputs %\x7d",
    "\t\x7b\x7b input | upper_camel \x7d\x7d *\x7b\x7b project.version \x7d\x7d.\x7b\x7b project.project.kind \x7d\x7d",
    "\x7b%- endfor %\x7d",
    "\x7d",
    "\x7b% endif %\x7d",
    "\x7b%- if has_outputs() %\x7d",
    "// Outputs are the values the \x7b\x7b name \x7d\x7d phase produces.",
    "type Outputs struct \x7b",
    "\x7b%- for output in outputs %\x7d",
    "\t\x7b\x7b output | upper_camel \x7d\x7d \x7b\x7b project.version \x7d\x7d.\x7b\x7b project.project.kind \x7d\x7dStatus",
    "\x7b%- endfor %\x7d",
    "\x7d",
    "\x7b% endif -%\x7d"]

/-- The worker of a phase. -/
def workerSource : String :=
  wholeLines [
    "package \x7b\x7b worker_package \x7d\x7d",
    "",
    "import (",
    "\t\"context\"",
    "",
    "\t\x7b\x7b project.version \x7d\x7d \"\x7b\x7b project.types_import_path \x7d\x7d\"",
    ")",
    "",
    "// Worker runs the \x7b\x7b name \x7d\x7d phase\x7b% if description is defined %\x7d: \x7b\x7b description \x7d\x7d\x7b% endif %\x7d.",
    "//",
    "// This file is generated once and then owned by you; regeneration will not",
    "// overwrite it.",
    "type Worker struct\x7b\x7d",
    "",
    "// Sync performs one pass of the \x7b\x7b name \x7d\x7d phase.",
    "func (w *Worker) Sync(ctx context.Context, \x7b\x7b project.kind_lower_camel \x7d\x7d *\x7b\x7b project.version \x7d\x7d.\x7b\x7b project.project.kind \x7d\x7d) error \x7b",
    "\x7b%- if has_inputs() %\x7d",
    "\tvar in Inputs",
    "\t_ = in",
    "\x7b%- endif %\x7d",
    "\x7b%- if has_outputs() %\x7d",
    "\tvar out Outputs",
    "\t_ = out",
    "\x7b%- endif %\x7d",
    "\treturn nil",
    "\x7d"]

/-- The recipe of the container image. -/
def dockerfileSource : String :=
  wholeLines [
    "FROM registry.access.redhat.com/ubi8/ubi-minimal:latest",
    "",
    "ENV OPERATOR=/usr/local/bin/\x7b\x7b operator_name \x7d\x7d \\",
    "    USER_UID=1001 \\",
    "    USER_NAME=\x7b\x7b operator_name \x7d\x7d",
    "",
    "# install operator binary",
    "COPY build/_output/bin/\x7b\x7b operator_name \x7d\x7d $\x7bOPERATOR\x7d",
    "",
    "COPY build/bin /usr/local/bin",
    "RUN  /usr/local/bin/user_setup",
    "",
    "ENTRYPOINT [\"/usr/local/bin/entrypoint\"]",
    "",
    "USER $\x7bUSER_UID\x7d"]

/-- The script that prepares the user of the image. -/
def userSetupSource : String :=
  wholeLines [
    "#!/bin/sh",
    "set -x",
    "",
    "# ensure $HOME exists and is accessible by group 0",
    "mkdir -p $\x7bHOME\x7d",
    "chown $\x7bUSER_UID\x7d:0 $\x7bHOME\x7d",
    "chmod ug+rwx $\x7bHOME\x7d",
    "",
    "# runtime user will need to be able to self-insert in /etc/passwd",
    "chmod g+rw /etc/passwd",
    "",
    "# no need for this script to remain in the image after running",
    "rm $0"]

/-- The script that starts the operator. -/
def entrypointSource : String :=
  wholeLines [
    "#!/bin/sh -e",
    "",
    "# Add the arbitrary runtime UID to /etc/passwd so tools that look up the",
    "# current user keep working.",
    "if ! whoami >/dev/null 2>&1; then",
    "  if [ -w /etc/passwd ]; then",
    "    echo \"\x7b\x7b operator_name \x7d\x7d:x:$(id -u):$(id -g):\x7b\x7b operator_name \x7d\x7d user:$\x7bHOME\x7d:/sbin/nologin\" >> /etc/passwd",
    "  fi",
    "fi",
    "",
    "exec $\x7bOPERATOR\x7d \"$@\""]

def sources : List (String × String) :=
  [("code/main.go.tera", mainSource),
   ("code/scheduler.go.tera", schedulerSource),
   ("code/config.go.tera", configSource),
   ("code/doc.go.tera", docSource),
   ("code/phases.go.tera", phasesSource),
   ("code/register.go.tera", registerSource),
   ("code/spec.go.tera", specSource),
   ("code/types.go.tera", typesSource),
   ("code/parameters.go.tera", parametersSource),
   ("code/worker.go.tera", workerSource),
   ("build/Dockerfile.tera", dockerfileSource),
   ("build/user_setup.tera", userSetupSource),
   ("build/entrypoint.tera", entrypointSource)]

/-- The version of the set, which is that of the program. -/
def version : String := "0.1.0"

end Scaffold.Template.Shipped
