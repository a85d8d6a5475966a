import Electrosphere.Foundation.Transition
import Electrosphere.Foundation.Table
import Electrosphere.Foundation.ParentForest
import Electrosphere.Storage.Integrity
import Electrosphere.Domain.SandboxService
import Electrosphere.Domain.Recovery
import Electrosphere.Domain.GcSafety
import Electrosphere.Domain.Daemon
import Electrosphere.Storage.Statements
import Electrosphere.Domain.CallSteps
import Electrosphere.Domain.DaemonSoundness
import Electrosphere.Domain.GcCompletion
import Electrosphere.Domain.LeaseExclusion
import Electrosphere.Domain.StartFailure
import Electrosphere.Domain.OneTurn
import Electrosphere.Domain.Shutdown
import Electrosphere.Domain.Idempotence
import Electrosphere.Domain.FailedFinish
import Electrosphere.Domain.CommitQuiescence
import Electrosphere.Agent.Responsiveness
import Electrosphere.Agent.TerminalStates
import Electrosphere.Storage.ArtifactLifetime
import Electrosphere.Storage.ArtifactIsolation
import Electrosphere.Agent.GrepPaging
import Electrosphere.Mcp.RangeReads
import Electrosphere.Backends.WriteAtomicity
import Electrosphere.Backends.SocketFrames
import Electrosphere.Storage.Cfs
import Electrosphere.Foundation.SystemCalls
import Electrosphere.Agent.SnapshotFidelity
import Electrosphere.Storage.ExporterAgreement
import Electrosphere.Storage.TarRoundTrip
import Electrosphere.Storage.TarBuffers
import Electrosphere.Foundation.Enumeration
import Electrosphere.Agent.OutputRetention
import Electrosphere.Agent.GrepStream
import Electrosphere.Agent.EditPublication
import Electrosphere.Agent.EditedLines
import Electrosphere.Mcp.TextRecognition
import Electrosphere.Agent.ListingPages
import Electrosphere.Mcp.CursorReturn
import Electrosphere.Backends.WorkspaceRestore
import Electrosphere.Agent.GrepSpans
import Electrosphere.Agent.RemovalAtomicity
import Electrosphere.Mcp.WorkspacePaths
import Electrosphere.Backends.SnapshotTransfer
import Electrosphere.Domain.InstanceActivity
import Electrosphere.Domain.RuntimeCreation
import Electrosphere.Backends.LinkRuns
import Electrosphere.Storage.StableDigest
