import Zstrategy.Lib.Reentrancy
import Zstrategy.Contracts.State
import Zstrategy.Contracts.CollateralVault
import Zstrategy.Contracts.GasVault
import Zstrategy.Contracts.UniswapV3Adapter
import Zstrategy.Contracts.CommitmentRegistry
import Zstrategy.Contracts.Chain
import Zstrategy.Contracts.Rules
import Zstrategy.Contracts.Messages
import Zstrategy.Custody.Book
import Zstrategy.Custody.Refinement
import Zstrategy.Custody.Claims
import Zstrategy.Custody.Exit
import Zstrategy.Custody.LockstepRuns
import Zstrategy.Custody.Solvency
import Zstrategy.Custody.Settlement
import Zstrategy.Circuits.Binding
import Zstrategy.Client.Agreement
import Zstrategy.Client.LimitPrice
import Zstrategy.Client.Sessions
import Zstrategy.Execution.Authorisation
import Zstrategy.Execution.Slippage
import Zstrategy.Execution.PairPrice
import Zstrategy.Execution.Interference
import Zstrategy.Backend.Records
import Zstrategy.Backend.Delivery
import Zstrategy.Backend.Atomicity
import Zstrategy.Backend.Finality
import Zstrategy.Keeper.Release
import Zstrategy.Keeper.GivingUp
import Zstrategy.Custody.Batches
import Zstrategy.Client.Rounds
import Zstrategy.Backend.Polling
import Zstrategy.Client.Backup
import Zstrategy.Keeper.ShareHistory
import Zstrategy.Backend.MarketKind
import Zstrategy.Backend.Pacing
import Zstrategy.Backend.Awaited
import Zstrategy.Custody.Sweeps
import Zstrategy.Gas.Solvency
import Zstrategy.Keeper.RateLimit
import Zstrategy.Backend.OneMonitor
import Zstrategy.Backend.ShortHashes
import Zstrategy.Backend.Statistics
import Zstrategy.Client.MarketOrders
import Zstrategy.Registry.Deployment
import Zstrategy.Custody.Returns
import Zstrategy.Registry.Paused
import Zstrategy.Backend.Mirror
import Zstrategy.Client.Posting
import Zstrategy.Backend.Sweeping
import Zstrategy.Backend.ShareLifetime
import Zstrategy.Backend.StatsCache
