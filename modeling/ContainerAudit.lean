import ContainerAudit.CommandLine.Run
import ContainerAudit.Main
import ContainerAudit.Proofs.Dockerfile.Line
import ContainerAudit.Proofs.Dockerfile.Reading
import ContainerAudit.Proofs.Dockerfile.Stage
import ContainerAudit.Proofs.Dockerfile.Concatenation
import ContainerAudit.Proofs.Dockerfile.Span
import ContainerAudit.Proofs.Dockerfile.StagePartition
import ContainerAudit.Proofs.Entries
import ContainerAudit.Proofs.Report.Aggregate
import ContainerAudit.Proofs.Report.Evaluation
import ContainerAudit.Proofs.Audit.Sources
import ContainerAudit.Proofs.Audit.Independence
import ContainerAudit.Proofs.Report.Isolation
import ContainerAudit.Proofs.Audit.Conservation
import ContainerAudit.Proofs.Audit.Suppression
import ContainerAudit.Proofs.Compose.Fitting
import ContainerAudit.Proofs.Audit.Misfit
import ContainerAudit.Proofs.Dockerfile.Printing
import ContainerAudit.Proofs.Dockerfile.Displacement
import ContainerAudit.Proofs.Rule.Displacement
import ContainerAudit.Proofs.Rule.Widening
import ContainerAudit.Proofs.Audit.Displacement
import ContainerAudit.Proofs.Rule.Anchoring
import ContainerAudit.Proofs.Audit.Anchoring
import ContainerAudit.Proofs.Audit.SharedLine
import ContainerAudit.Proofs.Json.Leaf
import ContainerAudit.Proofs.Json.RoundTrip
import ContainerAudit.Proofs.Report.Lossless
import ContainerAudit.Proofs.FileTree
import ContainerAudit.Proofs.Workspace
import ContainerAudit.Proofs.CommandLine.Exit
import ContainerAudit.Proofs.Dockerfile.Group
import ContainerAudit.Proofs.Dockerfile.Continuation
import ContainerAudit.Proofs.Dockerfile.Heredoc
import ContainerAudit.Proofs.Rule.Window
import ContainerAudit.Proofs.Json.Unescaped
import ContainerAudit.Proofs.Rule.Pinning
import ContainerAudit.Proofs.Rule.ExecForm
import ContainerAudit.Proofs.Rule.AdjacentRuns
import ContainerAudit.Proofs.Rule.FinalStage
import ContainerAudit.Proofs.Rule.VariableNames
import ContainerAudit.Proofs.Dockerfile.ArrayWords
import ContainerAudit.Proofs.Rule.CopyFlags
import ContainerAudit.Proofs.Text.Matching
import ContainerAudit.Proofs.Rule.Permissions
import ContainerAudit.Proofs.Compose.Mount
import ContainerAudit.Proofs.Compose.Provenance
import ContainerAudit.Proofs.Rule.Offence
import ContainerAudit.Proofs.Yaml.Flattening
import ContainerAudit.Proofs.Yaml.Sharing
import ContainerAudit.Proofs.Compose.Alike
import ContainerAudit.Proofs.Compose.Reordering
import ContainerAudit.Proofs.Rule.Reordering
import ContainerAudit.Proofs.Config
import ContainerAudit.Proofs.Report.Priority
import ContainerAudit.Proofs.Report.Layout
import ContainerAudit.Proofs.Discovery
import ContainerAudit.Proofs.Dockerfile.Comment
import ContainerAudit.Proofs.Dockerfile.Image
import ContainerAudit.Proofs.Manifest.Kind
import ContainerAudit.Proofs.Rule.Registry
