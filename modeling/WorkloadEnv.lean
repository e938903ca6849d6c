import WorkloadEnv.Workload.Sample
import WorkloadEnv.Config.Literal
import WorkloadEnv.Main
import WorkloadEnv.Proofs.Json.Members
import WorkloadEnv.Proofs.Decode.Record
import WorkloadEnv.Proofs.Json.Path
import WorkloadEnv.Proofs.Decode.Path
import WorkloadEnv.Proofs.EnvVar.RoundTrip
import WorkloadEnv.Proofs.EnvVar.Merge
import WorkloadEnv.Proofs.EnvVar.WriteBack
import WorkloadEnv.Proofs.Workload.Containers
import WorkloadEnv.Proofs.Document
import WorkloadEnv.Proofs.Transformer.EnvLists
import WorkloadEnv.Proofs.Transformer.Frame
import WorkloadEnv.Proofs.Transformer.Passes
import WorkloadEnv.Proofs.Manifest.Pipeline
import WorkloadEnv.Proofs.Command.AllOrNothing
import WorkloadEnv.Proofs.Command.Paths
import WorkloadEnv.Proofs.Time.RoundTrip
import WorkloadEnv.Proofs.Decode.Stable
import WorkloadEnv.Proofs.Yaml.Carried
import WorkloadEnv.Proofs.Document.RoundTrip
import WorkloadEnv.Proofs.Manifest.RoundTrip
import WorkloadEnv.Proofs.Decode.Exact
import WorkloadEnv.Proofs.EnvVar.ClosedForm
import WorkloadEnv.Proofs.Manifest.Loading
import WorkloadEnv.Proofs.Workload.Reconfiguration
import WorkloadEnv.Proofs.Document.Lossless
import WorkloadEnv.Proofs.Yaml.FreeData
import WorkloadEnv.Proofs.Manifest.WrittenBack
import WorkloadEnv.Proofs.Config.Layering
import WorkloadEnv.Proofs.Config.MinVersion
import WorkloadEnv.Proofs.Manifest.ErrorVariants
import WorkloadEnv.Proofs.Decode.NormalForm
import WorkloadEnv.Proofs.Workload.Views
import WorkloadEnv.Proofs.Workload.Sample
import WorkloadEnv.Proofs.EnvVar.Realisation
import WorkloadEnv.Proofs.Workload.Realisation
