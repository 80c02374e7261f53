import Rotofury.Model.Sdk.Coin

/-! # Module accounts of the application

The module accounts with their permissions (`maccPerms`), their addresses (the first 20 bytes of the
SHA-256 hash of the account's name) and the accounts that must not receive transfers
(`BlockedAddrs`): all of them but the oracle's.
-/

namespace Rotofury.Model.App

open Model.Sdk

inductive ModuleAccount where
  | feeCollector | distribution | bondedPool | notBondedPool | gov | transfer | evm | erc20 | oracle
  | maker | nft | ve | emissionPool | distributionPool | gauge | voter | vesting | gravity | multigravity
deriving DecidableEq, Repr

namespace ModuleAccount

/-- The keys of `maccPerms`. -/
def all : List ModuleAccount :=
  [feeCollector, distribution, bondedPool, notBondedPool, gov, transfer, evm, erc20, oracle, maker, nft, ve,
    emissionPool, distributionPool, gauge, voter, vesting, gravity, multigravity]

/-- `GetModuleAddress` -/
def address : ModuleAccount → Address
  | feeCollector => 0xf1829676db577682e944fc3493d451b67ff3e29f#160
  | distribution => 0x93354845030274cd4bf1686abd60ab28ec52e1a7#160
  | bondedPool => 0x4fea76427b8345861e80a3540a8a9d936fd39391#160
  | notBondedPool => 0x5911b844d7bc224654fe0dcd16babd2d253f2fdf#160
  | gov => 0x7b5fe22b5446f7c62ea27b8bd71cef94e03f3df2#160
  | transfer => 0x27f576cafbb263ed44be8bd094f66114da268777#160
  | evm => 0x603871c2ddd41c26ee77495e2e31e6de7f9957e0#160
  | erc20 => 0x47eeb2eac350e1923b8cbdfa4396a077b36e62a0#160
  | oracle => 0x9202af6ce925b26ae6b25adfff0b2705147e195f#160
  | maker => 0x878c240fd717f39d8cec9f7a5cf936873ffcc075#160
  | nft => 0xb8cb100b12807bd8a8267800477ee5ba4bd387e8#160
  | ve => 0x4bd2c412ba70847f497a7adb5ccd527724bfd229#160
  | emissionPool => 0x7282c9afd0516cae6d35c74c0725135054648c7f#160
  | distributionPool => 0x97377896a21135cbca90dc12820c3d4f8007ab4b#160
  | gauge => 0xa90fd9a9a1e66597ae124f542f73ac08d3112e7d#160
  | voter => 0x566e3a030b0f7c78286aff055f809c16cb4a4ccc#160
  | vesting => 0x992aa527610e0e4f77fc3ed81d8bc9f891ae79f1#160
  | gravity => 0xd4e3fc7b0477747da28f05c27af9f1ab8e70cd60#160
  | multigravity => 0x3336eb09cd1de663fa24f236873fa23637cb764f#160

/-- Accounts with the minter permission. -/
def canMint : ModuleAccount → Bool
  | transfer | evm | erc20 | maker | emissionPool | vesting | gravity | multigravity => true
  | _ => false

/-- Accounts with the burner permission. -/
def canBurn : ModuleAccount → Bool
  | bondedPool | notBondedPool | gov | transfer | evm | erc20 | maker | ve | gravity | multigravity => true
  | _ => false

/-- `allowedReceivingModAcc` -/
def allowedReceiving : ModuleAccount → Bool
  | oracle => true
  | _ => false

end ModuleAccount

/-- `BlockedAddrs`: the module accounts that may not be the recipient of a transfer. -/
def blockedAddr (account : Address) : Prop :=
  ∃ module ∈ ModuleAccount.all, module.address = account ∧ module.allowedReceiving = false

instance (account : Address) : Decidable (blockedAddr account) :=
  inferInstanceAs (Decidable (∃ module ∈ ModuleAccount.all, module.address = account ∧ _))

theorem oracle_ne_maker : ModuleAccount.oracle.address ≠ ModuleAccount.maker.address := by decide

theorem ne_maker_of_not_blocked {account : Address} (free : ¬ blockedAddr account) :
    account ≠ ModuleAccount.maker.address := by
  rintro rfl
  exact free ⟨.maker, by decide, rfl, rfl⟩

end Rotofury.Model.App
