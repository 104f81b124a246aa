import AgentTrading.Orders.SubmitOnce
import AgentTrading.Kis.Submission
import AgentTrading.Reconciliation.BlockingLock
import AgentTrading.Kis.SubmitRetry
import AgentTrading.Kis.UnknownState
import AgentTrading.Sync.FilledFills
import AgentTrading.RealizedPnl.Persist
import AgentTrading.RealizedPnl.Equivalence
import AgentTrading.RealizedPnl.Flag
import AgentTrading.Kis.FillNormalization
import AgentTrading.Orders.StateEventHistory
import AgentTrading.Orders.SellGuard
import AgentTrading.Sync.BuyCohort
import AgentTrading.Brokers.SharedBudget
import AgentTrading.Reconciliation.LockStores
import AgentTrading.Reconciliation.RunVerdict
import AgentTrading.Sync.SharedDecrease
import AgentTrading.RealizedPnl.Conservation
import AgentTrading.RealizedPnl.Rebuild
import AgentTrading.Library.RowLock
import AgentTrading.Fills.FirstObservation
import AgentTrading.Library.Admission
import AgentTrading.Fdc.Quota
import AgentTrading.Fdc.Window
import AgentTrading.Fdc.Queue
import AgentTrading.Fdc.ProviderGlobalGate
import AgentTrading.Brokers.Tokens
import AgentTrading.Kis.TokenBalance
import AgentTrading.Library.TokenBucket
import AgentTrading.Kis.Throughput
import AgentTrading.Library.Inbox
import AgentTrading.EventLoop.Delivery
import AgentTrading.EventLoop.Progress
import AgentTrading.Brokers.HalfOpen
import AgentTrading.Library.WaitingLine
import AgentTrading.Fdc.TicketQueue
import AgentTrading.Fdc.TicketGrants
import AgentTrading.Fdc.TicketWait
import AgentTrading.Backfill.Decoder
import AgentTrading.Backfill.Eligibility
import AgentTrading.Backfill.Completion
import AgentTrading.Backfill.Writers
import AgentTrading.Snapshots.ZeroOut
import AgentTrading.Sync.ExpiryGuard
import AgentTrading.Kis.WebSocketClient
import AgentTrading.Library.SetTable
import AgentTrading.Fdc.JobLifecycle
import AgentTrading.Fdc.ShadowMode
import AgentTrading.Library.Purge
import AgentTrading.Kis.ReserveFallback
import AgentTrading.Fills.MissingPrice
import AgentTrading.Library.Stages
import AgentTrading.Reconciliation.ConcurrentTriggers
import AgentTrading.Library.CheckThenAct
import AgentTrading.Orders.RowWrites
import AgentTrading.Sync.Cleanup
import AgentTrading.Sync.CleanupChecks
import AgentTrading.Sync.AcceptedOrders
import AgentTrading.Sync.OrphanExpiry
import AgentTrading.Sync.ExpiryRuns
import AgentTrading.Orders.RefusedWrites
import AgentTrading.Sync.ReportedStatus
import AgentTrading.Sync.FaithfulResult
import AgentTrading.Fills.Notional
import AgentTrading.RealizedPnl.OpenPosition
import AgentTrading.Library.Rounding
import AgentTrading.RealizedPnl.DecimalContext
import AgentTrading.Sizing.Engine
import AgentTrading.Library.Caps
import AgentTrading.Sizing.Steps
import AgentTrading.Sizing.Minimum
import AgentTrading.Sizing.Limits
import AgentTrading.Sizing.Looser
import AgentTrading.Sizing.Closing
import AgentTrading.RealizedPnl.FailedWrite
import AgentTrading.Library.Phases
import AgentTrading.Orders.OneWrite
import AgentTrading.Sync.ReasonRefresh
import AgentTrading.Sync.LostUpdate
import AgentTrading.RealizedPnl.Redelivery
import AgentTrading.RealizedPnl.SameBooks
import AgentTrading.Library.Latest
import AgentTrading.Library.RunningPeak
import AgentTrading.Performance.Summary
import AgentTrading.Performance.Equity
import AgentTrading.Performance.Totals
import AgentTrading.Performance.AsOf
import AgentTrading.Brokers.BucketRate
import AgentTrading.Brokers.FloatBucket
import AgentTrading.Brokers.HeldReserve
import AgentTrading.RealizedPnl.Reordering
import AgentTrading.Library.Reached
import AgentTrading.Reconciliation.ExpiredFallback
import AgentTrading.Orders.ReturnedCopies
import AgentTrading.Library.Fallback
import AgentTrading.SymbolState.Hysteresis
import AgentTrading.SymbolState.Reentry
import AgentTrading.SymbolState.StateMachine
import AgentTrading.SymbolState.Reconciled
import AgentTrading.Sync.KisInquiry
import AgentTrading.Kis.Numerals
import AgentTrading.Fills.HistorySync
import AgentTrading.Fills.RowIsolation
import AgentTrading.Snapshots.VarInputs
import AgentTrading.Snapshots.VarSymbols
import AgentTrading.Library.History
import AgentTrading.Orders.SubmissionHistory
import AgentTrading.Execution.Intent
import AgentTrading.Execution.Operations
import AgentTrading.Execution.Pipeline
import AgentTrading.Execution.Parts
import AgentTrading.Execution.Accounting
import AgentTrading.Execution.Gates
import AgentTrading.Execution.Evidence
import AgentTrading.Execution.Clearance
import AgentTrading.Library.Contest
import AgentTrading.Library.Quota
import AgentTrading.Universe.Symbols
import AgentTrading.Universe.Composition
import AgentTrading.Universe.Selection
import AgentTrading.Universe.Capacity
import AgentTrading.Universe.Coverage
import AgentTrading.Universe.Overlay
import AgentTrading.Library.Promises
import AgentTrading.Migrations.Runner
import AgentTrading.Migrations.Ledger
import AgentTrading.Migrations.Boot
import AgentTrading.Library.TimeLimit
import AgentTrading.Library.Turns
import AgentTrading.Library.Slots
import AgentTrading.Library.Interleaving
import AgentTrading.Execution.Untradable
import AgentTrading.DecisionLoop.Operations
import AgentTrading.DecisionLoop.PassOne
import AgentTrading.DecisionLoop.PassTwo
import AgentTrading.DecisionLoop.Attempts
import AgentTrading.DecisionLoop.Settlement
import AgentTrading.DecisionLoop.Budget
import AgentTrading.DecisionLoop.Analysis
import AgentTrading.DecisionLoop.Cycle
