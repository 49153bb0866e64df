import AlgoSystem.Proof.MarketData.ForceClose
import AlgoSystem.Proof.CombinedVwap.RiskLadder
import AlgoSystem.Proof.CombinedVwap.LimitOrder
import AlgoSystem.Proof.CombinedVwap.Bookkeeping
import AlgoSystem.Proof.DoubleStraddle.CloseProtocol
import AlgoSystem.Proof.DoubleStraddle.Closing
import AlgoSystem.Proof.DoubleStraddle.FinalExit
import AlgoSystem.Proof.DoubleStraddle.HedgeExit
import AlgoSystem.Proof.DoubleStraddle.Outcomes
import AlgoSystem.Proof.DoubleStraddle.Recovery
import AlgoSystem.Proof.VwapHedge.Booking
import AlgoSystem.Proof.SupertrendPivot.Position
import AlgoSystem.Proof.Control.Polling
import AlgoSystem.Proof.Agent.Exclusion
import AlgoSystem.Proof.Agent.Reuse
import AlgoSystem.Proof.Lambda.SafeStop
import AlgoSystem.Proof.Logging.LogShipper
import AlgoSystem.Proof.Auth.Rotation
import AlgoSystem.Proof.Auth.Revocation
import AlgoSystem.Proof.Admin.LastAdmin
import AlgoSystem.Proof.RateLimit.LoginGuard
import AlgoSystem.Proof.Control.Heartbeats
import AlgoSystem.Proof.MarketData.ExpiryCycles
import AlgoSystem.Proof.MarketData.OiWindow
import AlgoSystem.Proof.Intraday.Ledger
import AlgoSystem.Proof.Intraday.Reentry
import AlgoSystem.Proof.MarketData.OiSnapshots
import AlgoSystem.Proof.MarketData.PointInTime
import AlgoSystem.Proof.MarketData.ChainIngestion
import AlgoSystem.Proof.Research.Coherence
import AlgoSystem.Proof.Intraday.Repaint
import AlgoSystem.Proof.SupertrendPivot.ClosedBars
import AlgoSystem.Proof.VwapHedge.Retries
import AlgoSystem.Proof.CombinedVwap.LiveCandles
import AlgoSystem.Proof.CombinedVwap.Volume
import AlgoSystem.Proof.VwapHedge.Grid
import AlgoSystem.Proof.VwapHedge.PaperFills
import AlgoSystem.Proof.EtfMomentum.Schedule
import AlgoSystem.Proof.Realtime.Dedupe
import AlgoSystem.Proof.Realtime.Sockets
import AlgoSystem.Proof.AiBacktest.Counters
import AlgoSystem.Proof.AiBacktest.Exclusion
import AlgoSystem.Proof.AiBacktest.Isolation
import AlgoSystem.Proof.AiBacktest.Metrics
import AlgoSystem.Proof.AiResearch.Resume
import AlgoSystem.Proof.AiResearch.Stages
import AlgoSystem.Proof.OptionsResearch.Jobs
import AlgoSystem.Proof.OptionsResearch.Wings
import AlgoSystem.Proof.OptionsResearch.Breakevens
import AlgoSystem.Proof.MarketData.MaxPain
import AlgoSystem.Proof.MarketData.Symbols
import AlgoSystem.Proof.MarketData.StraddleVwap
import AlgoSystem.Proof.Alerts.Window
import AlgoSystem.Proof.MarketData.Scheduler
import AlgoSystem.Proof.DoubleStraddle.Sweep
import AlgoSystem.Proof.MarketData.ImpliedVolatility
import AlgoSystem.Proof.Brokers.CostBasis
import AlgoSystem.Proof.MarketData.StraddleCarry
import AlgoSystem.Proof.MarketData.NextStart
import AlgoSystem.Proof.SupertrendPivot.Supertrend
