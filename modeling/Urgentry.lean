import Urgentry.Sqlite.MetricQuery
import Urgentry.Pipeline.SingleWorker
import Urgentry.Pipeline.ExactCounts
import Urgentry.Pipeline.NewGroupSignal
import Urgentry.Trace.OtlpTermination
import Urgentry.Api.AttachmentIsolation
import Urgentry.Pipeline.JobLeases
import Urgentry.RuntimeAsync.Valkey
import Urgentry.Sqlite.AdminInvites
import Urgentry.Sqlite.ImportUndo
import Urgentry.Pipeline.OrphanGroups
import Urgentry.Sqlite.ArchivingRuns
import Urgentry.Postgrescontrol.GroupStore
import Urgentry.Sqlite.GroupDeletion
import Urgentry.Sqlite.ShortIds
import Urgentry.Telemetrybridge.Projector
import Urgentry.Sqlite.ReleaseStore
import Urgentry.Auth.CachedKeys
import Urgentry.Sqlite.QueryGuard
import Urgentry.Ingest.Sessions
import Urgentry.Sqlite.ReplayIndex
import Urgentry.Store.FileBlob
import Urgentry.Sqlite.MissedCheckIns
import Urgentry.Envelope.Unread
import Urgentry.Telemetryquery.BridgeFetch
import Urgentry.Search.Conjunction
import Urgentry.Sourcemap.RoundTrip
import Urgentry.Auth.ValkeyCapacity
import Urgentry.Grouping.Default
import Urgentry.Discovershared.Series
import Urgentry.Discovershared.Tables
import Urgentry.Sqlutil.EscapeLike
import Urgentry.Sourcemap.Lookup
import Urgentry.Pipeline.PerfDetect
import Urgentry.Sqlite.RuntimeLease
import Urgentry.Alert.MetricEvaluator
import Urgentry.Api.Prevent
import Urgentry.Sqlite.EventPages
import Urgentry.Sqlite.GroupTimes
import Urgentry.Profilequery.Comparison
import Urgentry.Integration.Codeowners
import Urgentry.Normalize.Tags
import Urgentry.Sqlite.ReplayTimeline
