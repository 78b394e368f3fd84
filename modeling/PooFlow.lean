import PooFlow.Runtime.Acceptance
import PooFlow.Runtime.Atomicity
import PooFlow.Runtime.Binding
import PooFlow.Runtime.Checkpoints
import PooFlow.Runtime.Coverage
import PooFlow.Runtime.Halting
import PooFlow.Runtime.Handles
import PooFlow.Runtime.Staging
import PooFlow.Runtime.Watermark
import PooFlow.Shim.Isolation
import PooFlow.Journal.Finality
import PooFlow.Journal.History
import PooFlow.Graph.Streaming
import PooFlow.Graph.Threads
import PooFlow.Journal.SchemeMerkle
import PooFlow.Temporal.TruthMaintenance
import PooFlow.Durable.Replies
import PooFlow.Durable.StoreReplies
import PooFlow.Temporal.Models
import PooFlow.Temporal.Classification
import PooFlow.Temporal.History
import PooFlow.Bundle.Canonical
import PooFlow.Contract.Diagnosis
import PooFlow.Contract.Preservation
import PooFlow.Core.Strands
import PooFlow.Policy.StrictMediation
import PooFlow.Cedar.SingleUse
import PooFlow.Execution.Algebra
import PooFlow.Execution.FailFast
import PooFlow.Execution.ReplayReport
import PooFlow.Proof.Verification
import PooFlow.Cedar.Material
import PooFlow.Bundle.Lookup
import PooFlow.Semantic.Attenuation
import PooFlow.ProofCase.Codec
import PooFlow.Roles.Overlay
import PooFlow.Wasm.Custody
import PooFlow.Standards.SingleFlight
import PooFlow.Standards.Waiting
import PooFlow.Axle.Agreement
import PooFlow.Axle.Ranges
import PooFlow.Axle.Identity
import PooFlow.Axle.Names
import PooFlow.Axle.Cache
import PooFlow.Runtime.Lookup
import PooFlow.Graph.Targets
import PooFlow.Durable.Retention
import PooFlow.Control.RuntimeExecutor
import PooFlow.Analysis.Condensation
import PooFlow.Temporal.Assessment
import PooFlow.Temporal.Refresh
import PooFlow.Scheme.Roundtrip
import PooFlow.Recovery.Restarts
import PooFlow.Journal.Isolation
