import FeathrEvents.Proofs.ApiFlooding
import FeathrEvents.Proofs.ApiHealth
import FeathrEvents.Proofs.ApiPayloads
import FeathrEvents.Proofs.ApiReceipts
import FeathrEvents.Proofs.BrowserRecords
import FeathrEvents.Proofs.BurstReadouts
import FeathrEvents.Proofs.Bursts
import FeathrEvents.Proofs.CachedAnswers
import FeathrEvents.Proofs.CircuitPauses
import FeathrEvents.Proofs.ClientIdentity
import FeathrEvents.Proofs.ConsoleOutage
import FeathrEvents.Proofs.Corrections
import FeathrEvents.Proofs.DocumentReindex
import FeathrEvents.Proofs.LiveCache
import FeathrEvents.Proofs.LiveHistogram
import FeathrEvents.Proofs.LogPaths
import FeathrEvents.Proofs.LogRequests
import FeathrEvents.Proofs.LogSecrets
import FeathrEvents.Proofs.Logcheck
import FeathrEvents.Proofs.Pagination
import FeathrEvents.Proofs.ProcessGuard
import FeathrEvents.Proofs.QueueConservation
import FeathrEvents.Proofs.QueueDeliveries
import FeathrEvents.Proofs.QueueFifo
import FeathrEvents.Proofs.QueueHandles
import FeathrEvents.Proofs.RateLimitBounds
import FeathrEvents.Proofs.RateLimitLogging
import FeathrEvents.Proofs.RateLimitPromises
import FeathrEvents.Proofs.ReindexVerdict
import FeathrEvents.Proofs.RequestLog
import FeathrEvents.Proofs.ResetRaces
import FeathrEvents.Proofs.SchemaRaces
import FeathrEvents.Proofs.SearchCommits
import FeathrEvents.Proofs.SearchHints
import FeathrEvents.Proofs.SearchRanking
import FeathrEvents.Proofs.SearchTerms
import FeathrEvents.Proofs.StatsHistory
import FeathrEvents.Proofs.StatsSummary
import FeathrEvents.Proofs.TimestampBounds
import FeathrEvents.Proofs.TraceTimeline
import FeathrEvents.Proofs.WorkerBackoff
import FeathrEvents.Proofs.WorkerCompletion
import FeathrEvents.Proofs.WorkerConvergence
import FeathrEvents.Proofs.WorkerDeath
import FeathrEvents.Proofs.WorkerDrain
import FeathrEvents.Proofs.WorkerOutage
import FeathrEvents.Proofs.WorkerProbe
import FeathrEvents.Proofs.WorkerStores
import FeathrEvents.Proofs.WorkerWindow
