import ScreenerBot.Ledger.Lifecycle
import ScreenerBot.Ledger.Balance
import ScreenerBot.Ledger.Cost
import ScreenerBot.Ledger.Keys
import ScreenerBot.Positions.Conservation
import ScreenerBot.Positions.Records
import ScreenerBot.Sync.Exclusive
import ScreenerBot.Swaps.Outcome
import ScreenerBot.Positions.ExitLadder
import ScreenerBot.Positions.Slots
import ScreenerBot.Positions.PendingExits
import ScreenerBot.Positions.Settle
import ScreenerBot.Positions.Worker
import ScreenerBot.Positions.SettlementSafety
import ScreenerBot.Positions.TakeProfit
import ScreenerBot.Positions.Atomic
import ScreenerBot.Positions.Basis
import ScreenerBot.Positions.Paper.Sold
import ScreenerBot.Positions.Paper.Cash
import ScreenerBot.Copy.Claims
import ScreenerBot.Copy.Inventory
import ScreenerBot.Swaps.Verdicts
import ScreenerBot.Direct.Conservation
import ScreenerBot.Direct.OneSwap
import ScreenerBot.Rpc.CircuitBreaker
import ScreenerBot.Swaps.Fallback
import ScreenerBot.Positions.PendingSwaps
import ScreenerBot.Strategies.Engine
import ScreenerBot.Ohlcvs.GapBookkeeping
import ScreenerBot.Copy.Spend
import ScreenerBot.Positions.AddsBounded
import ScreenerBot.Library.Surroundings
import ScreenerBot.Watch.Service
import ScreenerBot.Watch.Funnel
import ScreenerBot.Watch.Ranges
import ScreenerBot.Watch.HighActivity
import ScreenerBot.Watch.Delivery
import ScreenerBot.Direct.Venues.TickLayout
import ScreenerBot.Library.PriceWalk
import ScreenerBot.Direct.Venues.ClmmTicks
import ScreenerBot.Direct.Venues.TickWalk
import ScreenerBot.Direct.Venues.TickMonotone
import ScreenerBot.Direct.Venues.TickExact
import ScreenerBot.Library.PiecewiseMass
import ScreenerBot.Direct.Venues.MeteoraDbc
import ScreenerBot.Direct.Venues.DbcSteps
import ScreenerBot.Direct.Venues.DbcWalk
import ScreenerBot.Direct.Venues.DbcQuote
import ScreenerBot.Direct.Venues.MeteoraDlmm
import ScreenerBot.Direct.Venues.DlmmWalk
import ScreenerBot.Direct.Venues.DlmmQuote
import ScreenerBot.Library.Binary64
import ScreenerBot.Library.Search
import ScreenerBot.Positions.ExitSizing
import ScreenerBot.Direct.Venues.PumpSpend
import ScreenerBot.Library.ProductCurve
import ScreenerBot.Direct.Venues.ConstantProduct
import ScreenerBot.Direct.Venues.ConstantProductFills
import ScreenerBot.Direct.AcceptedFloor
import ScreenerBot.Library.ByteFields
import ScreenerBot.Direct.Venues.WhirlpoolArrays
import ScreenerBot.Ohlcvs.CandleUpserts
import ScreenerBot.Direct.ReceiptReadings
import ScreenerBot.Library.Grouping
import ScreenerBot.Ohlcvs.Aggregation
import ScreenerBot.Wallets.Deltas
import ScreenerBot.Wallets.Classify
import ScreenerBot.Wallets.Prefilter
import ScreenerBot.Wallets.SwapActivity
import ScreenerBot.Wallets.Replacement.AllOrNothing
import ScreenerBot.Library.Gcra
import ScreenerBot.Rpc.RateLimiter
import ScreenerBot.Swaps.BestQuote
import ScreenerBot.Strategies.TreeValue
import ScreenerBot.Strategies.Explain
import ScreenerBot.Trader.ExitRules
import ScreenerBot.Trader.Trailing
import ScreenerBot.Trader.TimeWatch
import ScreenerBot.Trader.Ladders
import ScreenerBot.Trader.LadderSales
import ScreenerBot.Library.Drawdown
import ScreenerBot.Trader.Stats
import ScreenerBot.Trader.StatsAgree
import ScreenerBot.Config.LadderMigration
import ScreenerBot.Config.LadderLaws
import ScreenerBot.Config.LadderValid
import ScreenerBot.Direct.Venues.DammLimiter
import ScreenerBot.Library.DependencyOrder
import ScreenerBot.Services.StartupOrder
import ScreenerBot.Services.Manager
import ScreenerBot.Services.ManagerRuns
import ScreenerBot.Services.PassReports
import ScreenerBot.Library.Retention
import ScreenerBot.Storage.Types
import ScreenerBot.Storage.Plan
import ScreenerBot.Storage.PlanSafety
import ScreenerBot.Storage.SecondPass
import ScreenerBot.Library.Typestate
import ScreenerBot.AgentControl.Policy
import ScreenerBot.AgentControl.Store
import ScreenerBot.AgentControl.Bridge
import ScreenerBot.AgentControl.Protocol
import ScreenerBot.AgentControl.Statements
import ScreenerBot.AgentControl.BridgeRuns
import ScreenerBot.AgentControl.Obedience
import ScreenerBot.AgentControl.Safety
import ScreenerBot.Restart.Admission
