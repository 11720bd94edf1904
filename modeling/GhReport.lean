import GhReport.Library.ByteCodec
import GhReport.Library.WireFormat
import GhReport.Pardosa.Types
import GhReport.Pardosa.Canonical
import GhReport.Event.Types
import GhReport.Event.Codec
import GhReport.Event.RoundTrip
import GhReport.Domain.Types
import GhReport.Library.Upsert
import GhReport.Event.Convert
import GhReport.Library.KeyMap
import GhReport.Library.Machine
import GhReport.Projection.Apply
import GhReport.Projection.Slots
import GhReport.Projection.Meaning
import GhReport.Store.Inner
import GhReport.Store.Knowledge
import GhReport.Library.Effect
import GhReport.App.Persistence
import GhReport.App.State
import GhReport.App.Outcome
import GhReport.App.Admission
import GhReport.App.Restart
import GhReport.Inventory.Admitted
import GhReport.Publication.Quality
import GhReport.Publication.Publisher
import GhReport.Publication.Continuity
import GhReport.Publication.Removal
import GhReport.Library.Loop
import GhReport.GitHub.Pagination
import GhReport.GitHub.Client
import GhReport.Inventory.Listing
import GhReport.App.Policy
import GhReport.App.Evidence
import GhReport.App.Rosters
import GhReport.Collect.Sweep
import GhReport.Collect.Reconcile
import GhReport.Event.TeamKey
import GhReport.Domain.Owners
import GhReport.Teams.Membership
import GhReport.Teams.Refresh
import GhReport.Teams.Absence
import GhReport.Teams.Return
import GhReport.Delivery.Service
import GhReport.Delivery.Jobs
import GhReport.Delivery.Accounts
import GhReport.Delivery.Ownership
import GhReport.Delivery.Runs
import GhReport.GitHub.DetailCache
import GhReport.GitHub.Dispatch
import GhReport.GitHub.Accounting
import GhReport.GitHub.RateHalt
import GhReport.GitHub.Interleaving
import GhReport.GitHub.DetailInvariant
import GhReport.GitHub.EtagOwnership
import GhReport.GitHub.CacheAge
import GhReport.Collector.RefMatching
import GhReport.Library.Glob
import GhReport.Collector.PatternMatch
import GhReport.Collector.BranchProtection
import GhReport.Collector.ProtectionVerdict
import GhReport.Collector.Codeowners
import GhReport.Collector.OwnerAttribution
import GhReport.Collector.Dependabot
import GhReport.Collector.SecurityPolicy
import GhReport.Collector.SecretScanning
import GhReport.Collector.SecretAlerts
import GhReport.Collector.AlertTotals
import GhReport.Collector.Transparency
import GhReport.Webhook.Events
import GhReport.Webhook.Handler
import GhReport.Webhook.AtLeastOnce
import GhReport.Event.Identity
import GhReport.App.Rerecording
import GhReport.Projection.Downgrade
import GhReport.Library.Tally
import GhReport.Domain.Scores
import GhReport.Aggregate.Counts
import GhReport.Aggregate.Owners
import GhReport.Aggregate.Metrics
import GhReport.Aggregate.Categories
import GhReport.Aggregate.DrillDown
import GhReport.Aggregate.OwnerPages
import GhReport.Aggregate.Observability
import GhReport.Collector.Answers
import GhReport.Collector.FailedReads
import GhReport.Inventory.Deduplication
import GhReport.GitHub.LinkGrammar
import GhReport.GitHub.LinkFields
import GhReport.Library.ByteText
import GhReport.GitHub.LinkCursor
import GhReport.GitHub.LinkOffsets
import GhReport.Collect.Baseline
import GhReport.Library.History
import GhReport.Collect.PartialPublisher
import GhReport.Collect.Coalescing
import GhReport.Store.Latest
import GhReport.App.Latest
import GhReport.Library.Fresh
import GhReport.Report.Slugs
import GhReport.Report.Orphans
import GhReport.Report.OwnerLinks
import GhReport.Aggregate.Lifecycle
import GhReport.Report.AlertFree
import GhReport.Library.GeometricMean
import GhReport.Report.HealthScore
import GhReport.Library.Comparator
import GhReport.WebClient.Sort
import GhReport.GitHub.Ceiling
import GhReport.GitHub.Credential
import GhReport.GitHub.SingleFlight
import GhReport.App.CollectionLoop
import GhReport.Library.Occurrence
import GhReport.Library.Markup
import GhReport.Report.Markdown
import GhReport.Report.Nesting
import GhReport.Library.Calendar
import GhReport.Library.FixedWidth
import GhReport.Infra.LogTime
import GhReport.Library.Der
import GhReport.GitHub.AppKey
import GhReport.App.EphemeralStore
import GhReport.GitHub.RouteTemplate
import GhReport.GitHub.BudgetCheckpoint
import GhReport.NonExhaustiveCheck.Cfg
import GhReport.NonExhaustiveCheck.Scan
import GhReport.WebClient.Table
import GhReport.Webhook.Authenticity
import GhReport.Library.Fairness
import GhReport.Spec.OccFence
import GhReport.Spec.BudgetGate
import GhReport.Spec.TokenBucket
import GhReport.Spec.Ordering
import GhReport.GitHub.PageTrust
import GhReport.Domain.Run
import GhReport.Config.StoreNames
