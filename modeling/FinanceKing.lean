import FinanceKing.Lib.Fold
import FinanceKing.Lib.SortBy
import FinanceKing.Base
import FinanceKing.Domain.Guards
import FinanceKing.Domain.Market
import FinanceKing.Backtest.PortfolioBooks
import FinanceKing.Domain.Portfolio
import FinanceKing.Risk.KillSwitchJournal
import FinanceKing.Risk.KillSwitchResume
import FinanceKing.Backtest.Costs
import FinanceKing.Backtest.Engine
import FinanceKing.Backtest.EngineContract
import FinanceKing.Backtest.Venue.Resting
import FinanceKing.Backtest.Venue.FillConservation
import FinanceKing.Backtest.Venue.RecordedSession
import FinanceKing.Backtest.Venue.RecordingBuild
import FinanceKing.Backtest.Venue.Replay
import FinanceKing.Backtest.Venue.ReplayIdentity
import FinanceKing.Backtest.Cpcv.Partition
import FinanceKing.Backtest.Cpcv.PartitionSpec
import FinanceKing.Execution.Throttle
import FinanceKing.Execution.ThrottleRun
import FinanceKing.Execution.ThrottleWindows
import FinanceKing.Execution.ThrottledExchange
import FinanceKing.Risk.Limits
import FinanceKing.Risk.Drawdown
import FinanceKing.Risk.DrawdownRun
import FinanceKing.Evolution.Trials
import FinanceKing.Evolution.TrialsRun
import FinanceKing.Lib.HashChain
import FinanceKing.Platform.Chain
import FinanceKing.Platform.ChainAppend
import FinanceKing.Platform.ChainResume
import FinanceKing.Risk.DegradedModes
import FinanceKing.Risk.DegradedRun
import FinanceKing.Risk.DegradedSymbols
import FinanceKing.Evolution.Genealogy
import FinanceKing.Evolution.Lifecycle
import FinanceKing.Evolution.LifecycleStore
import FinanceKing.Data.Archive
import FinanceKing.Data.Registry
import FinanceKing.Data.RegistryHistory
import FinanceKing.Platform.Bus
import FinanceKing.Platform.BusRun
import FinanceKing.Platform.Scheduler
import FinanceKing.Platform.SchedulerBeat
import FinanceKing.Platform.SchedulerRun
import FinanceKing.Backtest.Feed.Feed
import FinanceKing.Backtest.Feed.FeedContract
import FinanceKing.Strategy.FeedAcceptance
import FinanceKing.Data.Features.PointInTime
import FinanceKing.Strategy.Registry
import FinanceKing.Strategy.WarmUp
import FinanceKing.Platform.Supervisor
import FinanceKing.Platform.SupervisorRun
import FinanceKing.Execution.ResponseBody
import FinanceKing.Execution.ResponseRecorder
import FinanceKing.Lib.Sample
import FinanceKing.Backtest.Report.EquityGrid
import FinanceKing.Backtest.Report.Report
import FinanceKing.Backtest.Report.SharpeUnit
import FinanceKing.Lib.Root
import FinanceKing.Risk.Exposure
import FinanceKing.Risk.Sizing
import FinanceKing.Risk.Calibration
import FinanceKing.Risk.Netting
import FinanceKing.Risk.Covariance
import FinanceKing.Risk.Contribution
import FinanceKing.Risk.EngineState
import FinanceKing.Risk.Engine
import FinanceKing.Risk.SizingBound
import FinanceKing.Lib.Sums
import FinanceKing.Risk.NettingShares
import FinanceKing.Risk.NettingContract
import FinanceKing.Risk.Book
import FinanceKing.Risk.PreTrade
import FinanceKing.Lib.Timeline
import FinanceKing.Risk.Triggers
import FinanceKing.Risk.PrunedMarks
import FinanceKing.Risk.TriggerAgreement
import FinanceKing.Backtest.Venue.LimitPrices
import FinanceKing.Backtest.Venue.RestingVolume
import FinanceKing.Lib.MaximalRuns
import FinanceKing.Lib.Merge
import FinanceKing.Data.Seam
import FinanceKing.Data.TradeGaps
import FinanceKing.Data.ResidualGaps
import FinanceKing.Data.LeftBracket
import FinanceKing.Risk.EngineSizing
import FinanceKing.Risk.EngineNetting
import FinanceKing.Risk.ProspectiveBook
import FinanceKing.Risk.EngineOrders
import FinanceKing.Risk.DecisionAccounting
import FinanceKing.Risk.Concentration
import FinanceKing.Risk.FlatDecisions
import FinanceKing.Lib.Rounding
import FinanceKing.Risk.CalibratedBand
import FinanceKing.Risk.DecisionTotality
import FinanceKing.Lib.Isotonic
import FinanceKing.Risk.PooledFit
import FinanceKing.Risk.Deciles
import FinanceKing.Risk.CalibrationContract
import FinanceKing.Data.KlineGaps
import FinanceKing.Data.Features.Availability
import FinanceKing.Data.Features.HeldWindows
import FinanceKing.Data.Calendar
import FinanceKing.Lib.Tiling
import FinanceKing.Data.ArchivePlan
import FinanceKing.Lib.Ranks
import FinanceKing.Risk.TickGaps
import FinanceKing.Backtest.WalkForward
import FinanceKing.Lib.Digraph
import FinanceKing.Evolution.LineageWalks
import FinanceKing.Platform.SchedulerIsolation
import FinanceKing.Data.PartitionRewrite
import FinanceKing.Lib.Restatements
import FinanceKing.Data.RestatedTables
import FinanceKing.Data.Alt.Store
import FinanceKing.Data.AsOfReads
import FinanceKing.Strategy.Invalidation
import FinanceKing.Lib.LeastSums
import FinanceKing.Risk.TailRisk
import FinanceKing.Data.PointWindows
import FinanceKing.Backtest.Validation.Pbo
import FinanceKing.Lib.Cholesky
import FinanceKing.Risk.CholeskyFactor
import FinanceKing.Risk.ShareVerdict
import FinanceKing.Risk.RiskPartition
import FinanceKing.Risk.ExactVerdict
import FinanceKing.Lib.Herfindahl
import FinanceKing.Risk.ClusterIndex
import FinanceKing.Lib.AverageLinkage
import FinanceKing.Risk.Linkage
import FinanceKing.Risk.LinkageRun
import FinanceKing.Lib.Numeral
import FinanceKing.Lib.Checks
import FinanceKing.Data.FieldGrammar
import FinanceKing.Data.RowGrammar
import FinanceKing.Data.ParseRows
import FinanceKing.Data.RowCharges
import FinanceKing.Data.GateVerdict
import FinanceKing.Lib.LeastSquares
import FinanceKing.Backtest.Decay
import FinanceKing.Backtest.CostAssessment
import FinanceKing.Data.LiveFrames
import FinanceKing.Data.CrossSource
import FinanceKing.Data.SourceAgreement
import FinanceKing.Lib.JsonText
import FinanceKing.Lib.Checklist
import FinanceKing.Execution.VenueModels
import FinanceKing.Execution.Preflight
import FinanceKing.Execution.PreflightVerdict
import FinanceKing.Lib.Files
import FinanceKing.Data.ArchiveCache
import FinanceKing.Data.ArchiveCacheSteps
import FinanceKing.Data.ArchiveCacheRuns
