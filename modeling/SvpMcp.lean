import SvpMcp.Verif.ApproveThenRetry
import SvpMcp.Verif.CapHistory
import SvpMcp.Verif.ChallengeRate
import SvpMcp.Verif.ChallengeTexts
import SvpMcp.Verif.Dashboard
import SvpMcp.Verif.DollarTexts
import SvpMcp.Verif.DualEnforcement
import SvpMcp.Verif.EvmSigning
import SvpMcp.Verif.FeeRejections
import SvpMcp.Verif.HandshakeCompletes
import SvpMcp.Verif.IndexerUrls
import SvpMcp.Verif.LendoraPanics
import SvpMcp.Verif.ListedTargets
import SvpMcp.Verif.MarketOrders
import SvpMcp.Verif.Markets
import SvpMcp.Verif.OrderRail
import SvpMcp.Verif.Refusals
import SvpMcp.Verif.RiskBands
import SvpMcp.Verif.SwapDeadlines
import SvpMcp.Verif.TokenCalls
import SvpMcp.Verif.TransferOutRefinement
import SvpMcp.Verif.UsdcAmounts
import SvpMcp.Verif.WalletCap
import SvpMcp.Verif.WithdrawLimits
