import Rotofury.Model.Maker.Query
import Rotofury.Model.Oracle.Query
import Rotofury.Model.Maker.BackingRatio

/-! # The stablecoin modules together

The maker reads its prices from the oracle's store; both use one bank and run at one height. Parameters are kept by the
parameter store. Messages and queries of both modules are served from this state; proposals register what is backed,
collateralized and voted for.
-/

namespace Rotofury.Model.App

open Model.Sdk

/-! ## The end of a block of the app

`SetOrderEndBlockers` lets the oracle end a block before the maker, so the maker reads the rates that the oracle has just
left in its store.
-/

/-- What the maker reads after the oracle has ended the block. -/
def makerCtx (params : Maker.Params) (ctx : Oracle.Ctx) (blockEnd : Oracle.BlockEnd) : Maker.Ctx where
  blockHeight := ctx.blockHeight
  params := params
  exchangeRate := fun denom => blockEnd.state.store.exchangeRates.lookup denom

/-- The two modules of the stablecoin at the end of a block. -/
def endBlock (params : Maker.Params) (ctx : Oracle.Ctx) (oracle : Oracle.State) (maker : Maker.Store) :
    Except Fault (Oracle.BlockEnd × Maker.Store) := do
  let blockEnd ← Oracle.endBlocker ctx oracle
  let maker ← Maker.endBlocker (makerCtx params ctx blockEnd) maker
  pure (blockEnd, maker)

structure Stablecoin where
  makerParams : Maker.Params
  maker : Maker.Store
  oracleParams : Oracle.Params
  oracle : Oracle.Chain

namespace Stablecoin

def makerState (system : Stablecoin) : Maker.State := ⟨system.maker, system.oracle.state.bank⟩

def makerCtx (system : Stablecoin) : Maker.Ctx where
  blockHeight := system.oracle.height
  params := system.makerParams
  exchangeRate := system.oracle.state.store.exchangeRates.lookup

def setMaker (system : Stablecoin) (next : Maker.State) : Stablecoin :=
  { system with maker := next.store, oracle.state.bank := next.bank }

def setOracle (system : Stablecoin) (next : Oracle.Chain) : Stablecoin := { system with oracle := next }

/-- A message; one to the oracle comes with the staking state it finds. -/
inductive Msg where
  | maker (msg : Maker.Msg)
  | oracle (staking : Oracle.Staking) (msg : Oracle.Msg)

def deliver (codec : Oracle.Codec) (system : Stablecoin) : Msg → Except Fault Stablecoin
  | .maker msg => system.setMaker <$> msg.deliver system.makerCtx system.makerState
  | .oracle staking msg => system.setOracle <$> system.oracle.handle codec staking system.oracleParams msg

inductive Query where
  | maker (query : Maker.Query)
  | oracle (query : Oracle.Query)

def answer (codec : Oracle.Codec) (system : Stablecoin) : Query → Except Fault (Maker.Answer ⊕ Oracle.Answer)
  | .maker query => .inl <$> query.answer system.makerCtx system.makerState
  | .oracle query => .inr <$> system.oracle.answer codec system.oracleParams query

inductive Proposal where
  | registerBacking (params : Maker.BackingRiskParams)
  | registerCollateral (params : Maker.CollateralRiskParams)
  | registerTarget (denom : Denom) (source : Oracle.TargetSource)

def handle (system : Stablecoin) : Proposal → Except Fault Stablecoin
  | .registerBacking params => do
    params.validateBasic
    system.setMaker <$> Maker.handleRegisterBackingProposal system.makerCtx system.makerState params
  | .registerCollateral params => do
    params.validateBasic
    system.setMaker <$> Maker.handleRegisterCollateralProposal system.makerState params
  | .registerTarget denom source => system.setOracle <$> system.oracle.handleRegisterTargetProposal denom source

/-! ## Runs -/

inductive Event where
  | message (msg : Msg)
  | proposal (proposal : Proposal)

def step (codec : Oracle.Codec) (system : Stablecoin) : Event → Except Fault Stablecoin
  | .message msg => system.deliver codec msg
  | .proposal proposal => system.handle proposal

/-- Nothing registered, delegated or voted for. -/
def fresh (makerParams : Maker.Params) (oracleParams : Oracle.Params) (bank : Bank) : Stablecoin :=
  ⟨makerParams, Maker.Store.empty, oracleParams, ⟨⟨⟨∅, ∅, ∅, ∅, ∅⟩, bank⟩, ∅, ∅, 0⟩⟩

/-! ## Genesis -/

structure Genesis where
  maker : Maker.GenesisState
  oracle : Oracle.GenesisState

def exportGenesis (system : Stablecoin) : Genesis where
  maker := Maker.exportGenesis system.makerParams system.maker
  oracle := Oracle.exportGenesis system.oracleParams system.oracle

/-- Both modules started over empty stores; the bank and the height come from elsewhere. -/
def initGenesis (genesis : Genesis) (bank : Bank) (height : ℕ) : Stablecoin where
  makerParams := genesis.maker.params
  maker := Maker.initGenesis genesis.maker
  oracleParams := genesis.oracle.params
  oracle := Oracle.initGenesis genesis.oracle bank height

/-- The state exported and imported again, with the bank as it was. -/
def restart (system : Stablecoin) : Stablecoin :=
  initGenesis system.exportGenesis system.oracle.state.bank system.oracle.height

end Stablecoin

end Rotofury.Model.App
