import PredictIQ.Foundation.Transaction
import PredictIQ.Foundation.Store
import PredictIQ.Foundation.Run
import PredictIQ.Contract.Types
import PredictIQ.Contract.Host
import PredictIQ.Contract.Admin
import PredictIQ.Contract.CircuitBreaker
import PredictIQ.Contract.Fees
import PredictIQ.Contract.Bets
import PredictIQ.Contract.Oracles
import PredictIQ.Contract.Voting
import PredictIQ.Contract.Disputes
import PredictIQ.Contract.Entrypoints
import PredictIQ.Contract.Effects
import PredictIQ.Contract.Lifecycle
import PredictIQ.Safety.StatusMachine
import PredictIQ.Safety.DisputeVoting
import PredictIQ.Safety.ResolvedOutcome
import PredictIQ.Safety.Roles
import PredictIQ.Safety.Upgrades
import PredictIQ.Safety.StakeConservation
import PredictIQ.Safety.CreationDeposit
import PredictIQ.Safety.Pruning
import PredictIQ.Safety.Solvency
import PredictIQ.Safety.StatusIndex
import PredictIQ.Safety.VoteTallies
import PredictIQ.Safety.TokenCustody
import PredictIQ.Safety.GuardianRemoval
import PredictIQ.Contract.BreakerSteps
import PredictIQ.Safety.BreakerTripping
import PredictIQ.Safety.BreakerProbes
import PredictIQ.Safety.BreakerGuards
import PredictIQ.Safety.BreakerBookkeeping
import PredictIQ.Safety.ResolutionWindows
import PredictIQ.Foundation.EventLog
import PredictIQ.Contract.Announcements
import PredictIQ.Safety.EventReplay
import PredictIQ.Safety.GuardianTimelock
import PredictIQ.Safety.EmergencyBallot
import PredictIQ.Safety.ConditionalMarkets
import PredictIQ.Safety.OracleQuorum
import PredictIQ.Contract.Migration
import PredictIQ.Safety.MigrationRollback
import PredictIQ.Foundation.SortedSet
import PredictIQ.Email.Types
import PredictIQ.Foundation.Process
import PredictIQ.Email.Backend
import PredictIQ.Email.Service
import PredictIQ.Email.Queue
import PredictIQ.Email.JobCustody
import PredictIQ.Email.SendEvidence
import PredictIQ.Email.CompletedSends
import PredictIQ.Foundation.Table
import PredictIQ.Newsletter.Subscribers
import PredictIQ.Newsletter.Consent
import PredictIQ.ApiKeys.Keys
import PredictIQ.ApiKeys.Expiry
import PredictIQ.ApiKeys.Rotation
import PredictIQ.Email.SingleSend
import PredictIQ.Cache.HealthyRedis
import PredictIQ.Cache.Stampede
import PredictIQ.Markets.Listings
import PredictIQ.Markets.Freshness
import PredictIQ.Api.Requests
import PredictIQ.Api.Webhook
import PredictIQ.Cache.Rules
import PredictIQ.Foundation.Pages
import PredictIQ.Chain.EventSync
import PredictIQ.Chain.SyncTrail
import PredictIQ.Chain.SyncCoverage
import PredictIQ.Chain.Regression
import PredictIQ.Foundation.Separator
import PredictIQ.Idempotency.Middleware
import PredictIQ.Idempotency.Owners
import PredictIQ.Idempotency.SingleRun
import PredictIQ.Foundation.SessionLock
import PredictIQ.Schema.MigrationRunner
import PredictIQ.Schema.AppliedOnce
import PredictIQ.Foundation.Loop
import PredictIQ.Foundation.OrderedMap
import PredictIQ.Tts.AudioCache
import PredictIQ.Tts.CacheBooks
import PredictIQ.Tts.JobStages
import PredictIQ.Tts.OneWay
import PredictIQ.Tts.CachedAudio
import PredictIQ.Tts.SharedLimit
import PredictIQ.Safety.FeeBounds
import PredictIQ.Safety.Referrals
import PredictIQ.Safety.CancellationVote
import PredictIQ.Safety.VotingOutcome
import PredictIQ.Safety.WinnerCounts
import PredictIQ.Safety.FallbackLocks
import PredictIQ.Safety.PrunedVoting
import PredictIQ.Client.OwnWrites
import PredictIQ.Tts.Routes
import PredictIQ.Api.Suppression
import PredictIQ.Contract.Pyth
import PredictIQ.Contract.Queries
import PredictIQ.Email.OrphanRecovery
import PredictIQ.Foundation.Hex
import PredictIQ.Safety.AdminHandover
import PredictIQ.Safety.FeedIds
import PredictIQ.Safety.GuardianMajority
import PredictIQ.Safety.Paging
import PredictIQ.Safety.PendingProgress
import PredictIQ.Safety.PriceChecks
import PredictIQ.Safety.StakeCheck
import PredictIQ.Safety.StatusQueries
import PredictIQ.Safety.WindowConfig
import PredictIQ.Safety.TokenFlows
import PredictIQ.Safety.FeeBooks
import PredictIQ.Safety.MarketBoard
import PredictIQ.Safety.BetRecords
import PredictIQ.Safety.Authority
import PredictIQ.Safety.MarketIsolation
import PredictIQ.Api.Confirmations
import PredictIQ.Cache.CircuitBreaker
import PredictIQ.Api.RateLimit
import PredictIQ.Foundation.Text
import PredictIQ.Foundation.Utf8
import PredictIQ.Foundation.Base64
import PredictIQ.Api.Signing
import PredictIQ.Api.GdprTokens
import PredictIQ.Api.GdprRequests
import PredictIQ.Api.WebhookAuth
import PredictIQ.Api.ClientIp
import PredictIQ.Chain.WatchedTxs
import PredictIQ.Chain.WatchedRows
import PredictIQ.Foundation.Rely
import PredictIQ.Cache.FixedData
import PredictIQ.Foundation.Cursor
import PredictIQ.Api.PagedReads
import PredictIQ.Api.CursorReads
import PredictIQ.Markets.FeaturedReads
import PredictIQ.Api.CursorPages
import PredictIQ.Cache.SoloCalls
import PredictIQ.Chain.Replay
import PredictIQ.Foundation.Factors
import PredictIQ.Email.WebhookText
import PredictIQ.Email.QueueOrder
import PredictIQ.Foundation.Strips
import PredictIQ.Foundation.Json
import PredictIQ.Foundation.SharedCounter
import PredictIQ.Foundation.Padding
import PredictIQ.Foundation.Utf16
import PredictIQ.Foundation.Markup
import PredictIQ.Foundation.Windows
import PredictIQ.Api.InputText
import PredictIQ.Api.BodyRedact
import PredictIQ.Api.EmailRedact
import PredictIQ.Api.Shutdown
import PredictIQ.Api.KeySchema
import PredictIQ.Newsletter.TokenStore
import PredictIQ.Tts.Credentials
import PredictIQ.Tts.SanitizedText
import PredictIQ.Tts.RateLimiter
import PredictIQ.Client.SharedReads
import PredictIQ.Client.BetRetries
import PredictIQ.Foundation.Superseding
import PredictIQ.Foundation.Ledger
import PredictIQ.Foundation.Parimutuel
import PredictIQ.Foundation.CycleSearch
import PredictIQ.Foundation.Templates
import PredictIQ.Frontend.Thrown
import PredictIQ.Frontend.UseTransaction
import PredictIQ.Frontend.UseAsync
import PredictIQ.Frontend.WalletProvider
import PredictIQ.Tts.ProviderCalls
import PredictIQ.Tts.CallTimes
import PredictIQ.Tts.TimedOutCalls
import PredictIQ.Tts.Replicas
import PredictIQ.Tts.Tenants
import PredictIQ.Tts.ClientMistakes
