import FavoniusBackend.Ocpp.Dispatch
import FavoniusBackend.Billing.CostWrites
import FavoniusBackend.Reconciliation.SessionLog
import FavoniusBackend.Optimizer.SymmetryBreaking
import FavoniusBackend.Scheduling.MergeSources
import FavoniusBackend.State.TripsUnderWay
import FavoniusBackend.Optimizer.AllocationSharing
import FavoniusBackend.State.ChargerCounts
import FavoniusBackend.State.HorizonStart
import FavoniusBackend.State.Replay
import FavoniusBackend.Control.CircuitBreaker
import FavoniusBackend.Control.PriceBaseline
import FavoniusBackend.Control.HourlyTrigger
import FavoniusBackend.Control.RunStatus
import FavoniusBackend.Optimizer.Pool
import FavoniusBackend.Agent.TimeGuard
import FavoniusBackend.Agent.SetQueries
import FavoniusBackend.Agent.EventStream
import FavoniusBackend.Agent.Refusals
import FavoniusBackend.Ocpp.QueueDisconnects
import FavoniusBackend.Ocpp.TransactionGate
import FavoniusBackend.Ocpp.TransactionCache
import FavoniusBackend.Sessions.OrphanRecovery
import FavoniusBackend.Ocpp.ConnectorStatus
import FavoniusBackend.Ocpp.ProfileStacking
import FavoniusBackend.Ocpp.SupportCache
import FavoniusBackend.Ocpp.ListVersions
import FavoniusBackend.Security.ProxyChain
import FavoniusBackend.Security.RateLimitCurrency
import FavoniusBackend.Security.RateLimitSharing
import FavoniusBackend.State.FreshestTelemetry
import FavoniusBackend.Vdv463.Termination
import FavoniusBackend.Vdv463.AnsweredFrames
import FavoniusBackend.Reports.Slots
import FavoniusBackend.Billing.TouPrices
import FavoniusBackend.Agent.ToolLoopRuns
import FavoniusBackend.Privacy.Erased
import FavoniusBackend.Resilience.EnhancedCircuitBreaker
import FavoniusBackend.Ingestion.FrozenJobs
import FavoniusBackend.Transactions.Paging
import FavoniusBackend.Billing.Coverage
import FavoniusBackend.Billing.FallbackAverage
import FavoniusBackend.Optimizer.EnergyCap
import FavoniusBackend.Optimizer.BatteryBurn
import FavoniusBackend.State.HorizonExpansion
import FavoniusBackend.Billing.HistoricalImport
import FavoniusBackend.Kempower.Backfill
import FavoniusBackend.Provisioning.Idempotency
import FavoniusBackend.Reports.Approval
import FavoniusBackend.Ocpp.OfflineList
import FavoniusBackend.Ocpp.OperatorOverride
import FavoniusBackend.Ocpp.ProfileClearing
import FavoniusBackend.Billing.PriceWindows
import FavoniusBackend.Security.RateLimitWindows
import FavoniusBackend.Ocpp.RfidThrottle
import FavoniusBackend.Ocpp.CompositeSchedule
import FavoniusBackend.Security.TenantRepair
import FavoniusBackend.Reports.PayloadErrors
import FavoniusBackend.Security.AddressSpellings
import FavoniusBackend.Vdv463.TimeWindow
import FavoniusBackend.Vdv463.SocUnits
import FavoniusBackend.Alerts.OfflineSweep
import FavoniusBackend.Adapters.PriceDocument
import FavoniusBackend.Adapters.Plates
import FavoniusBackend.Reports.EnergyMonths
import FavoniusBackend.Notifications.WebhookSignature
import FavoniusBackend.Notifications.Liveness
import FavoniusBackend.Security.HandoffTarget
import FavoniusBackend.Caching.Invalidation
