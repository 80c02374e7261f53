import Rotofury.Soundness.Maker.StableSupply
import Rotofury.Soundness.Maker.Swaps
import Rotofury.Soundness.Maker.IronSupply
import Rotofury.Soundness.Ve.Redeemable
import Rotofury.Soundness.Maker.Settlement
import Rotofury.Soundness.Maker.RiskPatches
import Rotofury.Soundness.App.EndBlockers
import Rotofury.Soundness.Erc20.Hook
import Rotofury.Soundness.Ve.Rewards
import Rotofury.Soundness.Staking.Shadow
import Rotofury.Soundness.Staking.Escrow
import Rotofury.Soundness.Staking.Ownership
import Rotofury.Soundness.Staking.Credits
import Rotofury.Soundness.Erc20.Restart
import Rotofury.Soundness.Oracle.CommitReveal
import Rotofury.Soundness.Oracle.Deterministic
import Rotofury.Soundness.App.Restart
import Rotofury.Soundness.Staking.SlashOrder
import Rotofury.Soundness.Staking.Slash
import Rotofury.Soundness.Vesting.Airdrops
import Rotofury.Soundness.Gauge.Escrow
import Rotofury.Soundness.Maker.Loans
