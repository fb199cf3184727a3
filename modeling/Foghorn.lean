import Foghorn.Std.Table
import Foghorn.Std.Collections
import Foghorn.Core.Json
import Foghorn.Core.Normalize
import Foghorn.Core.Tables
import Foghorn.Probe.Attestation
import Foghorn.Probe.Executor
import Foghorn.Probe.Coherence
import Foghorn.Core.Judged
import Foghorn.Probe.Cluster
import Foghorn.Std.Program
import Foghorn.Probe.Scheduler
import Foghorn.Probe.Majority
import Foghorn.Probe.Qos
import Foghorn.Probe.Reroll
import Foghorn.Probe.Nondeterministic
import Foghorn.Probe.ProbeAgg
import Foghorn.Probe.Feed
import Foghorn.Probe.Resolver
import Foghorn.Std.IncrementalView
import Foghorn.Probe.Locality
import Foghorn.Probe.Convergence
import Foghorn.Core.Board
import Foghorn.Core.Score
import Foghorn.Probe.AllocationIssues
import Foghorn.Probe.Scorer
import Foghorn.Probe.Cycle
import Foghorn.Probe.Latest
import Foghorn.Probe.FailedCheck
import Foghorn.Core.GradeOrder
import Foghorn.Core.Rating
import Foghorn.Core.OracleIndependence
import Foghorn.Probe.Evidence
import Foghorn.Api.Conflicts
import Foghorn.Core.Deployment
import Foghorn.Std.Cursor
import Foghorn.Probe.Fees
import Foghorn.Probe.Alerter
import Foghorn.Core.Alerts
import Foghorn.Core.AlertFacts
import Foghorn.Probe.Subscriptions
import Foghorn.Probe.Nest
import Foghorn.Std.Paging
import Foghorn.Probe.Allocations
import Foghorn.Probe.Ingest
import Foghorn.Probe.Series
import Foghorn.Api.DailyPoints
import Foghorn.Core.StoredState
import Foghorn.Core.StoredReads
import Foghorn.Core.AlertRuns
import Foghorn.Core.PoiDeadline
import Foghorn.Core.SignalDrift
import Foghorn.Probe.Sybil
import Foghorn.Probe.Swarms
import Foghorn.Api.DailyPages
import Foghorn.Api.QueryPoints
import Foghorn.Core.JudgedSql
import Foghorn.Probe.ProbeAggSql
import Foghorn.Api.Quality
import Foghorn.Probe.Detector
import Foghorn.Probe.DetectorSql
import Foghorn.Std.IpText
import Foghorn.Std.UrlHost
import Foghorn.Core.WebhookUrl
import Foghorn.Api.CreateSubscription
import Foghorn.Std.Lexeme
import Foghorn.Core.CanonicalText
import Foghorn.Core.JsonText
import Foghorn.Core.Rfc8785
import Foghorn.Std.AbiWords
import Foghorn.Std.JsonScan
import Foghorn.Std.Text
import Foghorn.Probe.DataEdge
import Foghorn.Probe.LossyText
import Foghorn.Probe.ServiceUrl
import Foghorn.Core.DeploymentId
import Foghorn.Core.CompositeMean
import Foghorn.Probe.ResolverAnswers
import Foghorn.Std.Lines
import Foghorn.Probe.Roster
import Foghorn.Core.Payloads
import Foghorn.Probe.PostChunks
import Foghorn.Core.PublicAddress
import Foghorn.Probe.LetterCase
import Foghorn.Probe.Agreement
import Foghorn.Probe.Dedup
import Foghorn.Probe.Round
import Foghorn.Api.QosCompare
import Foghorn.Probe.IdMigration
import Foghorn.Std.Announce
import Foghorn.Probe.OraclePoll
import Foghorn.Probe.Watches
import Foghorn.Probe.RosterPosts
import Foghorn.Probe.Escrow
import Foghorn.Probe.Payments
import Foghorn.Std.LivePages
import Foghorn.Api.AllocationPoints
import Foghorn.Api.Disagreements
import Foghorn.Api.AlertLoop
import Foghorn.Probe.Profiles
import Foghorn.Probe.SwarmTable
import Foghorn.Std.Reorg
import Foghorn.Probe.SafeBlock
import Foghorn.Std.GraphqlTypes
import Foghorn.Probe.AutoDiscover
import Foghorn.Probe.Introspection
