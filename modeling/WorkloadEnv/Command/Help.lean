import WorkloadEnv.Command.Arguments

/-! # Help texts -/

namespace WorkloadEnv.Command

/-- Lines of text, each with its break. -/
def lines (ls : List String) : String := String.join (ls.map (· ++ "\n"))

def versionText : String := lines ["minver 0.1.0"]

def programHelp : String := lines [
  "Manifest transforms for operator-managed Kubernetes workloads",
  "",
  "Usage: minver <COMMAND>",
  "",
  "Commands:",
  "  transform  Inject the minimum Kubernetes version override into every workload of a manifest",
  "  help       Print this message or the help of the given subcommand(s)",
  "",
  "Options:",
  "  -h, --help     Print help",
  "  -V, --version  Print version"]

def transformHelp : String := lines [
  "Inject the minimum Kubernetes version override into every workload of a manifest.",
  "",
  "Reads a multi-document YAML manifest and writes it back with `KUBERNETES_MIN_VERSION` set on all containers and init containers of Deployments, StatefulSets, DaemonSets and Jobs. Other resources are written back unchanged.",
  "",
  "Usage: minver transform [OPTIONS]",
  "",
  "Options:",
  "  -f, --file <FILE>",
  "          Manifest to read, stdin when omitted",
  "",
  "  -o, --output <OUTPUT>",
  "          Where to write the transformed manifest, stdout when omitted",
  "",
  "      --kubernetes-min-version <KUBERNETES_MIN_VERSION>",
  "          Minimum Kubernetes version to inject. Takes precedence over the `KUBERNETES_MIN_VERSION` environment variable; an empty value disables the injection",
  "",
  "  -h, --help",
  "          Print help (see a summary with '-h')"]

def transformSummary : String := lines [
  "Inject the minimum Kubernetes version override into every workload of a manifest",
  "",
  "Usage: minver transform [OPTIONS]",
  "",
  "Options:",
  "  -f, --file <FILE>",
  "          Manifest to read, stdin when omitted",
  "  -o, --output <OUTPUT>",
  "          Where to write the transformed manifest, stdout when omitted",
  "      --kubernetes-min-version <KUBERNETES_MIN_VERSION>",
  "          Minimum Kubernetes version to inject. Takes precedence over the `KUBERNETES_MIN_VERSION` environment variable; an empty value disables the injection",
  "  -h, --help",
  "          Print help (see more with '--help')"]

def helpHelp : String := lines [
  "Print this message or the help of the given subcommand(s)",
  "",
  "Usage: minver help [COMMAND]...",
  "",
  "Arguments:",
  "  [COMMAND]...  Print help for the subcommand(s)"]

/-- The text of a topic. -/
def HelpTopic.text : HelpTopic → String
  | program => programHelp
  | transform => transformHelp
  | transformSummary => Command.transformSummary
  | help => helpHelp

/-- What is printed where it was asked for; for a mistake nothing is. -/
def UsageExit.text : UsageExit → String
  | help topic => topic.text
  | version => versionText
  | _ => ""

end WorkloadEnv.Command
