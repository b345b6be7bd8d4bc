import McpTracer.Foundation.Aborting
import McpTracer.Foundation.Ascent
import McpTracer.Foundation.Assoc
import McpTracer.Foundation.Base64
import McpTracer.Foundation.Board
import McpTracer.Foundation.Ddl
import McpTracer.Foundation.Faulty
import McpTracer.Foundation.FirstFit
import McpTracer.Foundation.Grouping
import McpTracer.Foundation.Hex
import McpTracer.Foundation.IpAddress
import McpTracer.Foundation.Milestones
import McpTracer.Foundation.Neighbours
import McpTracer.Foundation.Occurrence
import McpTracer.Foundation.Outcome
import McpTracer.Foundation.Pending
import McpTracer.Foundation.Phase
import McpTracer.Foundation.Pointwise
import McpTracer.Foundation.Quoted
import McpTracer.Foundation.Registry
import McpTracer.Foundation.Reorder
import McpTracer.Foundation.Separated
import McpTracer.Foundation.SortedMap
import McpTracer.Foundation.SortedSet
import McpTracer.Foundation.StoppedRun
import McpTracer.Foundation.Table
import McpTracer.Foundation.TokenBucket
import McpTracer.Foundation.Toml
import McpTracer.Foundation.Transducer
import McpTracer.Foundation.Upgrade
import McpTracer.Foundation.Upsert
import McpTracer.Foundation.Words
import McpTracer.Foundation.Xml
import McpTracer.Intel.Extraction
import McpTracer.Intel.Supersession
import McpTracer.Intel.SupersessionChain
import McpTracer.Json.Agreement
import McpTracer.Json.Codec
import McpTracer.Json.Lexical
import McpTracer.Json.Members
import McpTracer.Json.Patch
import McpTracer.Json.Pointer
import McpTracer.Json.Schema
import McpTracer.Json.Update
import McpTracer.Json.Value
import McpTracer.Model.Alignment
import McpTracer.Model.Answering
import McpTracer.Model.AssertSpecs
import McpTracer.Model.Assertions
import McpTracer.Model.CallOrder
import McpTracer.Model.Compare
import McpTracer.Model.Conservation
import McpTracer.Model.Correlate
import McpTracer.Model.Correspondence
import McpTracer.Model.CorrespondingDiff
import McpTracer.Model.CursorChain
import McpTracer.Model.Deduplicated
import McpTracer.Model.Diff
import McpTracer.Model.Divergence
import McpTracer.Model.Emptiness
import McpTracer.Model.Eval
import McpTracer.Model.Health
import McpTracer.Model.IgnoreSuggestions
import McpTracer.Model.IgnoredPointers
import McpTracer.Model.ImportedCassette
import McpTracer.Model.Latencies
import McpTracer.Model.Lifecycle
import McpTracer.Model.ListedRisk
import McpTracer.Model.Manifest
import McpTracer.Model.MergedHealth
import McpTracer.Model.MirroredDiff
import McpTracer.Model.Normalization
import McpTracer.Model.OneShot
import McpTracer.Model.OriginalPointers
import McpTracer.Model.Otel
import McpTracer.Model.Pairing
import McpTracer.Model.Plan
import McpTracer.Model.PointerDiffs
import McpTracer.Model.Quota
import McpTracer.Model.RecordedCalls
import McpTracer.Model.RedactedAssertions
import McpTracer.Model.RedactedDiff
import McpTracer.Model.RenamedDiff
import McpTracer.Model.Renaming
import McpTracer.Model.Replay
import McpTracer.Model.Requests
import McpTracer.Model.SchemaBudgets
import McpTracer.Model.SchemaChanges
import McpTracer.Model.SchemaReports
import McpTracer.Model.SchemaSilence
import McpTracer.Model.SchemaSoundness
import McpTracer.Model.SchemaWalk
import McpTracer.Model.Serve
import McpTracer.Model.Soundness
import McpTracer.Model.SuggestedAsserts
import McpTracer.Model.Suggestions
import McpTracer.Model.ToolCache
import McpTracer.Model.ToolPins
import McpTracer.Model.WithheldValues
import McpTracer.Protocol.EventStream
import McpTracer.Protocol.Message
import McpTracer.Protocol.Sse
import McpTracer.Protocol.Stdio
import McpTracer.Proxy.Admission
import McpTracer.Proxy.AdmissionRun
import McpTracer.Proxy.AdmissionSound
import McpTracer.Proxy.CaptureAccounts
import McpTracer.Proxy.CaptureClose
import McpTracer.Proxy.CaptureLog
import McpTracer.Proxy.CaptureLoss
import McpTracer.Proxy.CiFormats
import McpTracer.Proxy.ClientConfig
import McpTracer.Proxy.ExportGate
import McpTracer.Proxy.ExportedColumns
import McpTracer.Proxy.FrameReader
import McpTracer.Proxy.HeaderBindings
import McpTracer.Proxy.HeaderEncoding
import McpTracer.Proxy.HttpReplay
import McpTracer.Proxy.HttpReplayRun
import McpTracer.Proxy.IndexConfluence
import McpTracer.Proxy.IndexRebuild
import McpTracer.Proxy.IndexedGraph
import McpTracer.Proxy.Inspector
import McpTracer.Proxy.Jsonc
import McpTracer.Proxy.ModernRequest
import McpTracer.Proxy.ParamHeaders
import McpTracer.Proxy.PlannedReplay
import McpTracer.Proxy.Pump
import McpTracer.Proxy.Recording
import McpTracer.Proxy.RecordingEnd
import McpTracer.Proxy.ReplayCommand
import McpTracer.Proxy.ReplayPace
import McpTracer.Proxy.RequestCapture
import McpTracer.Proxy.RequestHeaders
import McpTracer.Proxy.ResponseAccounts
import McpTracer.Proxy.ResponseCapture
import McpTracer.Proxy.ResponseWaits
import McpTracer.Proxy.SecurityRoute
import McpTracer.Proxy.ServeLoop
import McpTracer.Proxy.ServedAgain
import McpTracer.Proxy.ServerCommand
import McpTracer.Proxy.ServerRequests
import McpTracer.Proxy.SessionHealth
import McpTracer.Proxy.SessionWriter
import McpTracer.Proxy.Setup
import McpTracer.Proxy.SetupUndo
import McpTracer.Proxy.StopRequests
import McpTracer.Proxy.StorageQueue
import McpTracer.Proxy.SubscriptionEvidence
import McpTracer.Proxy.SubscriptionFrames
import McpTracer.Proxy.TargetUrl
import McpTracer.Proxy.TimestampRange
import McpTracer.Proxy.ToolDefinition
import McpTracer.Proxy.Verify
import McpTracer.Redact.Acceptance
import McpTracer.Redact.ContentLint
import McpTracer.Redact.Context
import McpTracer.Redact.Evidence
import McpTracer.Redact.Noninterference
import McpTracer.Redact.Policy
import McpTracer.Redact.Redactor
import McpTracer.Redact.SuccessiveRedaction
import McpTracer.Redact.TypedRedaction
import McpTracer.Redact.Validator
import McpTracer.Storage.Baseline
import McpTracer.Storage.BaselineLifecycle
import McpTracer.Storage.CanonicalJson
import McpTracer.Storage.Database
import McpTracer.Storage.DerivedIndex
import McpTracer.Storage.GraphExport
import McpTracer.Storage.Identity
import McpTracer.Storage.Merge
import McpTracer.Storage.Mtrace
import McpTracer.Storage.Publication
import McpTracer.Storage.SchemaMigrations
import McpTracer.Storage.StoredMessage
import McpTracer.Storage.Transfer
import McpTracer.Storage.Vcr
import McpTracer.Storage.WriteFile
