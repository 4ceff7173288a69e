import Gitseer.Lib.Accounting
import Gitseer.Lib.BTree
import Gitseer.Lib.Descent
import Gitseer.Lib.Footprint
import Gitseer.Lib.Framing
import Gitseer.Lib.History
import Gitseer.Lib.Interference
import Gitseer.Lib.Join
import Gitseer.Lib.Json
import Gitseer.Lib.Moments
import Gitseer.Lib.Overflow
import Gitseer.Lib.Path
import Gitseer.Lib.Replica
import Gitseer.Lib.Result
import Gitseer.Lib.Retained
import Gitseer.Lib.Run
import Gitseer.Lib.Simulation
import Gitseer.Lib.Walk
import Gitseer.Licenses.Audit
import Gitseer.Licenses.Evaluation
import Gitseer.Licenses.Expressions
import Gitseer.Licenses.Parser
import Gitseer.Licenses.Tokens
import Gitseer.Licenses.Verdict
import Gitseer.Protocol.Construction
import Gitseer.Protocol.Encodable
import Gitseer.Protocol.Envelope
import Gitseer.Protocol.Interference
import Gitseer.Protocol.PathSets
import Gitseer.Protocol.Process
import Gitseer.Protocol.Ranges
import Gitseer.Protocol.RoundTrip
import Gitseer.Protocol.Runs
import Gitseer.Protocol.Shown
import Gitseer.Protocol.Stream
import Gitseer.Protocol.Subscription
import Gitseer.Protocol.Versions
import Gitseer.Protocol.Wire
import Gitseer.Repository.Bisect
import Gitseer.Repository.Git
import Gitseer.Repository.LineCounts
import Gitseer.Repository.Listing
import Gitseer.Repository.Model
import Gitseer.Repository.PathDelta
import Gitseer.Repository.PathViews
import Gitseer.Repository.Paths
import Gitseer.Repository.Readers
import Gitseer.Repository.Snapshot
import Gitseer.Repository.Upstream
import Gitseer.Repository.WellFormed
import Gitseer.Serve.Commands
import Gitseer.Serve.Convergence
import Gitseer.Serve.CutOff
import Gitseer.Serve.Fate
import Gitseer.Serve.FateInv
import Gitseer.Serve.FileChanges
import Gitseer.Serve.Lines
import Gitseer.Serve.Loop
import Gitseer.Serve.NoLoss
import Gitseer.Serve.Order
import Gitseer.Serve.Output
import Gitseer.Serve.Quiescence
import Gitseer.Serve.Recovery
import Gitseer.Serve.Refinement
import Gitseer.Serve.Rest
import Gitseer.Serve.Shown
import Gitseer.Serve.Snapshots
import Gitseer.Serve.Sources
import Gitseer.Serve.Transcript
import Gitseer.Serve.Worker
import Gitseer.Watch.Burst
import Gitseer.Watch.Classify
import Gitseer.Watch.Control
import Gitseer.Watch.Debounce
import Gitseer.Watch.Exact
import Gitseer.Watch.ExactIdentity
import Gitseer.Watch.ExactPaths
import Gitseer.Watch.ExactSections
import Gitseer.Watch.ExactSubmodules
import Gitseer.Watch.Excludes
import Gitseer.Watch.Heeded
import Gitseer.Watch.IgnoreFilter
import Gitseer.Watch.IncrementalScan
import Gitseer.Watch.Liveness
import Gitseer.Watch.Operations
import Gitseer.Watch.Reconcile
import Gitseer.Watch.Refresh
import Gitseer.Watch.Roots
import Gitseer.Watch.SubmodulePaths
import Gitseer.Watch.TornRefresh
import Gitseer.Watch.Watcher
