import StackAudit.Main
import StackAudit.Maintenance
import StackAudit.Proofs.Adapters.Container
import StackAudit.Proofs.Adapters.Workload
import StackAudit.Proofs.AddedBlock
import StackAudit.Proofs.Catalog.Registration
import StackAudit.Proofs.Check.Paths
import StackAudit.Proofs.Check.Stacks
import StackAudit.Proofs.CheckReport.RoundTrip
import StackAudit.Proofs.CommandLine.ExitCode
import StackAudit.Proofs.Config.Fetch
import StackAudit.Proofs.Config.Resolution
import StackAudit.Proofs.Correspondence
import StackAudit.Proofs.Coverage
import StackAudit.Proofs.Dialects
import StackAudit.Proofs.Document.Decoding
import StackAudit.Proofs.Document.Unwrapping
import StackAudit.Proofs.DocumentOrder
import StackAudit.Proofs.Faults
import StackAudit.Proofs.Fingerprint
import StackAudit.Proofs.Golden
import StackAudit.Proofs.GraphFaults
import StackAudit.Proofs.Identity
import StackAudit.Proofs.Json.Navigation
import StackAudit.Proofs.Recognition
import StackAudit.Proofs.Reference
import StackAudit.Proofs.Rendering.Agreement
import StackAudit.Proofs.Rendering.Locations
import StackAudit.Proofs.Rendering.PlainLines
import StackAudit.Proofs.Rendering.Records
import StackAudit.Proofs.Report.Summary
import StackAudit.Proofs.Rules.BucketSettings
import StackAudit.Proofs.Rules.Encryption
import StackAudit.Proofs.Rules.Listing
import StackAudit.Proofs.Rules.NonRoot
import StackAudit.Proofs.Rules.SingleContainers
import StackAudit.Proofs.Stack.PlainNames
import StackAudit.Proofs.UnknownKinds
import StackAudit.Proofs.Verdicts
import StackAudit.Proofs.WorkerPool.Progress
import StackAudit.Proofs.WorkerPool.Result
