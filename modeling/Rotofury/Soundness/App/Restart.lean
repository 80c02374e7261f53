import Rotofury.Model.App.Stablecoin

/-! # Restarting the stablecoin modules

Exported and imported again, the maker keeps its parameters and its backing ratio only, and the oracle all but its targets.
The restart goes unnoticed exactly when none of what is left out was there: a maker without any registration refuses every
message, and the oracle's other tables come back as they were.
-/

namespace Rotofury.Soundness.App

open Model.Sdk Model.App Except
open Rotofury.Model
open Machine (Matches Indistinguishable)

/-! ## A maker without registrations -/

/-- Nothing is registered, and so nothing is backed or collateralized. -/
structure Bare (store : Maker.Store) : Prop where
  backingParams : store.backingParams = ∅
  collateralParams : store.collateralParams = ∅
  totalBacking : store.totalBacking = none
  poolBacking : store.poolBacking = ∅
  totalCollateral : store.totalCollateral = none
  poolCollateral : store.poolCollateral = ∅
  accountCollateral : store.accountCollateral = ∅

def unknownBacking (denom : Denom) : Fault :=
  .err Maker.errBackingCoinNotFound s!"backing coin denomination not found: {denom}"

def unknownCollateral (denom : Denom) : Fault :=
  .err Maker.errCollateralCoinNotFound s!"collateral coin denomination not found: {denom}"

/-- What a maker without registrations refuses a message with; a swap has the stable coin's price checked first. -/
def refusal (ctx : Maker.Ctx) : Maker.Msg → Except Fault Unit
  | .mintBySwap msg => do
    Maker.checkMintPriceLowerBound ctx
    .error (unknownBacking msg.backingInMax.denom)
  | .burnBySwap msg => do
    Maker.checkBurnPriceUpperBound ctx
    .error (unknownBacking msg.backingOutMin.denom)
  | .buyBacking msg => .error (unknownBacking msg.backingOutMin.denom)
  | .sellBacking msg => .error (unknownBacking msg.backingIn.denom)
  | .mintByCollateral msg => .error (unknownCollateral msg.collateralDenom)
  | .burnByCollateral msg => .error (unknownCollateral msg.collateralDenom)
  | .depositCollateral msg => .error (unknownCollateral msg.collateralIn.denom)
  | .redeemCollateral msg => .error (unknownCollateral msg.collateralOut.denom)
  | .liquidateCollateral msg => .error (unknownCollateral msg.collateral.denom)

theorem exists_refusal (ctx : Maker.Ctx) (msg : Maker.Msg) : ∃ fault, refusal ctx msg = .error fault := by
  cases msg with
  | mintBySwap msg =>
    simp only [refusal]
    cases Maker.checkMintPriceLowerBound ctx <;> exact ⟨_, rfl⟩
  | burnBySwap msg =>
    simp only [refusal]
    cases Maker.checkBurnPriceUpperBound ctx <;> exact ⟨_, rfl⟩
  | _ => exact ⟨_, rfl⟩

namespace Bare

variable {store : Maker.Store}

variable (bare : Bare store)
include bare

theorem getAvailableBackingParams (denom : Denom) :
    store.getAvailableBackingParams denom = .error (unknownBacking denom) := by
  simp [Maker.Store.getAvailableBackingParams, bare.backingParams, Maker.Store.found, unknownBacking]

theorem getAvailableCollateralParams (denom : Denom) :
    store.getAvailableCollateralParams denom = .error (unknownCollateral denom) := by
  simp [Maker.Store.getAvailableCollateralParams, bare.collateralParams, Maker.Store.found, unknownCollateral]

theorem totalBackingInUSD (ctx : Maker.Ctx) : Maker.totalBackingInUSD ctx store = .ok 0 := by
  simp only [Maker.totalBackingInUSD, Maker.Store.getAllPoolBacking, bare.poolBacking]
  rfl

theorem planned (ctx : Maker.Ctx) (bank : Bank) (msg : Maker.Msg) :
    msg.planned ctx ⟨store, bank⟩ = refusal ctx msg >>= fun _ => pure (store, []) := by
  cases msg with
  | mintBySwap msg =>
    simp only [Maker.Msg.planned, refusal, Maker.mintBySwapPlan, Maker.calculateMintBySwapOut,
      bare.getAvailableBackingParams]
    cases Maker.checkMintPriceLowerBound ctx <;> rfl
  | burnBySwap msg =>
    simp only [Maker.Msg.planned, refusal, Maker.burnBySwapPlan, Maker.calculateBurnBySwapOut,
      bare.getAvailableBackingParams]
    cases Maker.checkBurnPriceUpperBound ctx <;> rfl
  | buyBacking msg =>
    simp only [Maker.Msg.planned, refusal, Maker.buyBackingPlan, Maker.calculateBuyBackingOut,
      bare.getAvailableBackingParams]
    rfl
  | sellBacking msg =>
    simp only [Maker.Msg.planned, refusal, Maker.sellBackingPlan, Maker.calculateSellBackingOut,
      bare.getAvailableBackingParams]
    rfl
  | mintByCollateral msg =>
    simp only [Maker.Msg.planned, refusal, Maker.mintByCollateralPlan, Maker.calculateMintByCollateral,
      bare.getAvailableCollateralParams]
    rfl
  | burnByCollateral msg =>
    simp only [Maker.Msg.planned, refusal, Maker.burnByCollateralPlan, bare.getAvailableCollateralParams]
    rfl
  | depositCollateral msg =>
    simp only [Maker.Msg.planned, refusal, Maker.depositCollateralPlan, bare.getAvailableCollateralParams]
    rfl
  | redeemCollateral msg =>
    simp only [Maker.Msg.planned, refusal, Maker.redeemCollateralPlan, bare.getAvailableCollateralParams]
    rfl
  | liquidateCollateral msg =>
    simp only [Maker.Msg.planned, refusal, Maker.liquidateCollateralPlan, bare.getAvailableCollateralParams]
    rfl

/-- Every message is refused, and for a reason that is not in the store. -/
theorem deliver (ctx : Maker.Ctx) (bank : Bank) (msg : Maker.Msg) :
    msg.deliver ctx ⟨store, bank⟩ = msg.validateBasic >>= fun _ => refusal ctx msg >>= fun _ => pure ⟨store, bank⟩ := by
  obtain ⟨fault, refused⟩ := exists_refusal ctx msg
  simp only [Maker.Msg.deliver, Maker.Msg.handle_eq, bare.planned, refused, error_bind]

/-- What such a maker answers depends on nothing in its store but the backing ratio and the block of its last change. -/
theorem answer_congr {other : Maker.Store} (otherBare : Bare other)
    (sameRatio : store.getBackingRatio = other.getBackingRatio)
    (sameBlock : store.getBackingRatioLastBlock = other.getBackingRatioLastBlock) (ctx : Maker.Ctx) (bank : Bank)
    (query : Maker.Query) : query.answer ctx ⟨store, bank⟩ = query.answer ctx ⟨other, bank⟩ := by
  cases query <;>
    simp only [Maker.Query.answer, Maker.collateralOfAccount, Maker.calculateMintBySwapIn, Maker.calculateMintBySwapOut,
      Maker.calculateBurnBySwapIn, Maker.calculateBurnBySwapOut, Maker.calculateBuyBackingIn, Maker.calculateBuyBackingOut,
      Maker.calculateSellBackingIn, Maker.calculateSellBackingOut, bare.backingParams, otherBare.backingParams,
      bare.collateralParams, otherBare.collateralParams, bare.totalBacking, otherBare.totalBacking, bare.poolBacking,
      otherBare.poolBacking, bare.totalCollateral, otherBare.totalCollateral, bare.poolCollateral,
      otherBare.poolCollateral, bare.accountCollateral, otherBare.accountCollateral, bare.totalBackingInUSD,
      otherBare.totalBackingInUSD, bare.getAvailableBackingParams, otherBare.getAvailableBackingParams,
      error_bind, sameRatio, sameBlock]

end Bare

/-! ## Tables of the oracle up to their order -/

/-- The tables show the same; bank and height are the same. -/
structure Alike (first second : Oracle.Chain) : Prop where
  exchangeRates : first.state.store.exchangeRates.toFinmap = second.state.store.exchangeRates.toFinmap
  prevotes : first.state.store.prevotes.toFinmap = second.state.store.prevotes.toFinmap
  votes : first.state.store.votes.toFinmap = second.state.store.votes.toFinmap
  voteTargets : first.state.store.voteTargets.toFinmap = second.state.store.voteTargets.toFinmap
  missCounters : first.state.store.missCounters.toFinmap = second.state.store.missCounters.toFinmap
  feederDelegations : first.feederDelegations.toFinmap = second.feederDelegations.toFinmap
  targets : first.targets.toFinmap = second.targets.toFinmap
  bank : first.state.bank = second.state.bank
  height : first.height = second.height

namespace Alike

variable {first second : Oracle.Chain}

variable (alike : Alike first second)
include alike

theorem getFeederDelegation : first.getFeederDelegation = second.getFeederDelegation := by
  funext operator
  simp only [Oracle.Chain.getFeederDelegation, AList.lookup_congr alike.feederDelegations]

theorem validateFeeder (codec : Oracle.Codec) (staking : Oracle.Staking) (feeder : Address)
    (validator : Oracle.ValAddress) :
    first.validateFeeder codec staking feeder validator = second.validateFeeder codec staking feeder validator := by
  simp only [Oracle.Chain.validateFeeder, alike.getFeederDelegation]

theorem setPrevote (voter : Oracle.ValAddress) (prevote : Oracle.AggregateExchangeRatePrevote) :
    Alike (first.setPrevote voter prevote) (second.setPrevote voter prevote) :=
  { alike with prevotes := AList.toFinmap_insert_congr alike.prevotes voter prevote }

theorem movePrevote (voter : Oracle.ValAddress) (tuples : List Oracle.ExchangeRateTuple) :
    Alike (first.movePrevote voter tuples) (second.movePrevote voter tuples) :=
  { alike with
    votes := AList.toFinmap_insert_congr alike.votes voter tuples
    prevotes := AList.toFinmap_erase_congr alike.prevotes voter }

theorem reveal (codec : Oracle.Codec) (params : Oracle.Params) (prevote : Oracle.AggregateExchangeRatePrevote)
    (salt exchangeRates : String) (validator : Oracle.ValAddress) :
    Matches Alike (first.reveal codec params prevote salt exchangeRates validator)
      (second.reveal codec params prevote salt exchangeRates validator) := by
  simp only [Oracle.Chain.reveal, alike.height, AList.lookup_congr alike.voteTargets]
  refine (Matches.of_eq rfl).bind fun _ _ _ => (Matches.of_eq rfl).bind fun _ _ _ => ?_
  refine (Matches.of_eq rfl).bind fun tuples _ same => ?_
  subst same
  refine (Matches.of_eq rfl).bind fun _ _ _ => (Matches.of_eq rfl).bind fun _ _ _ => ?_
  exact .ok (alike.movePrevote validator tuples)

theorem handle (codec : Oracle.Codec) (staking : Oracle.Staking) (params : Oracle.Params) (msg : Oracle.Msg) :
    Matches Alike (first.handle codec staking params msg) (second.handle codec staking params msg) := by
  cases msg with
  | aggregateExchangeRatePrevote hash feeder validator =>
    simp only [Oracle.Chain.handle, Oracle.Chain.aggregateExchangeRatePrevote, alike.validateFeeder, alike.height]
    refine (Matches.of_eq rfl).bind fun _ _ _ => ?_
    cases Oracle.decodeString hash.toList with
    | none => exact .error _
    | some voteHash => exact .ok (alike.setPrevote validator _)
  | aggregateExchangeRateVote salt exchangeRates feeder validator =>
    simp only [Oracle.Chain.handle, Oracle.Chain.aggregateExchangeRateVote, alike.validateFeeder,
      AList.lookup_congr alike.prevotes]
    refine (Matches.of_eq rfl).bind fun _ _ _ => ?_
    cases second.state.store.prevotes.lookup validator with
    | none => exact .error _
    | some prevote => exact alike.reveal codec params prevote salt exchangeRates validator
  | delegateFeedConsent operator delegate =>
    refine (Matches.of_eq rfl).bind fun _ _ _ => .ok ?_
    exact { alike with feederDelegations := AList.toFinmap_insert_congr alike.feederDelegations operator delegate }

theorem answer (codec : Oracle.Codec) (params : Oracle.Params) (query : Oracle.Query) :
    first.answer codec params query = second.answer codec params query := by
  cases query <;>
    simp only [Oracle.Chain.answer, Oracle.Chain.getExchangeRate, Oracle.Chain.getMissCounter,
      Oracle.Chain.getAggregateExchangeRatePrevote, Oracle.Chain.getAggregateExchangeRateVote, alike.getFeederDelegation,
      AList.lookup_congr alike.exchangeRates, AList.lookup_congr alike.missCounters, AList.lookup_congr alike.prevotes,
      AList.lookup_congr alike.votes, alike.exchangeRates, alike.prevotes, alike.votes, alike.voteTargets, alike.targets]

end Alike

/-! ## The restart -/

/-- Of what a restart leaves out, nothing is there. -/
structure Unregistered (system : Stablecoin) : Prop where
  maker : Bare system.maker
  lastBlock : system.maker.getBackingRatioLastBlock = 0
  voteTargets : system.oracle.state.store.voteTargets = ∅
  targets : system.oracle.targets = ∅

/-- Two systems that serve the same: their makers have no registrations, their oracles show the same tables. -/
structure Serves (first second : Stablecoin) : Prop where
  makerParams : first.makerParams = second.makerParams
  oracleParams : first.oracleParams = second.oracleParams
  bare : Bare first.maker
  otherBare : Bare second.maker
  ratio : first.maker.getBackingRatio = second.maker.getBackingRatio
  lastBlock : first.maker.getBackingRatioLastBlock = second.maker.getBackingRatioLastBlock
  oracle : Alike first.oracle second.oracle

namespace Serves

variable {first second : Stablecoin}

theorem makerCtx (serves : Serves first second) : first.makerCtx = second.makerCtx := by
  simp only [Stablecoin.makerCtx, serves.makerParams, serves.oracle.height]
  congr 1
  funext denom
  exact AList.lookup_congr serves.oracle.exchangeRates denom

theorem deliver (codec : Oracle.Codec) (serves : Serves first second) (msg : Stablecoin.Msg) :
    Matches Serves (first.deliver codec msg) (second.deliver codec msg) := by
  cases msg with
  | maker msg =>
    obtain ⟨fault, refused⟩ := exists_refusal second.makerCtx msg
    simp only [Stablecoin.deliver, Stablecoin.makerState, serves.bare.deliver, serves.otherBare.deliver, serves.makerCtx,
      refused, error_bind]
    cases msg.validateBasic with
    | error invalid => exact .error invalid
    | ok => exact .error fault
  | oracle staking msg =>
    simp only [Stablecoin.deliver, serves.oracleParams]
    exact (serves.oracle.handle codec staking second.oracleParams msg).map fun _ _ alike => { serves with oracle := alike }

theorem answer (codec : Oracle.Codec) (serves : Serves first second) (query : Stablecoin.Query) :
    first.answer codec query = second.answer codec query := by
  cases query with
  | maker query =>
    simp only [Stablecoin.answer, Stablecoin.makerState, serves.makerCtx, serves.oracle.bank]
    rw [serves.bare.answer_congr serves.otherBare serves.ratio serves.lastBlock]
  | oracle query => simp only [Stablecoin.answer, serves.oracleParams, serves.oracle.answer]

end Serves

theorem restart_bare (system : Stablecoin) : Bare system.restart.maker := ⟨rfl, rfl, rfl, rfl, rfl, rfl, rfl⟩

theorem Unregistered.serves {system : Stablecoin} (unregistered : Unregistered system) : Serves system system.restart where
  makerParams := rfl
  oracleParams := rfl
  bare := unregistered.maker
  otherBare := restart_bare system
  ratio := rfl
  lastBlock := unregistered.lastBlock
  oracle := {
    exchangeRates := (AList.toFinmap_ofPairs _).symm
    prevotes := (AList.toFinmap_ofPairs _).symm
    votes := (AList.toFinmap_ofPairs _).symm
    voteTargets := congrArg AList.toFinmap unregistered.voteTargets
    missCounters := (AList.toFinmap_ofPairs _).symm
    feederDelegations := (AList.toFinmap_ofPairs _).symm
    targets := congrArg AList.toFinmap unregistered.targets
    bank := rfl
    height := rfl }

section Noticing

variable {codec : Oracle.Codec} {system : Stablecoin}

/-- A query of the maker that is answered from the store. -/
theorem maker_answer_inj {query : Maker.Query}
    (told : system.answer codec (.maker query) = system.restart.answer codec (.maker query)) :
    query.answer system.makerCtx system.makerState = query.answer system.restart.makerCtx system.restart.makerState := by
  simp only [Stablecoin.answer] at told
  generalize query.answer system.makerCtx system.makerState = before at told ⊢
  generalize query.answer system.restart.makerCtx system.restart.makerState = after at told ⊢
  cases before <;> cases after <;> simp_all [Functor.map, Except.map]

/-- A maker that answers as after a restart has no registrations. -/
theorem bare_of_answers (told : ∀ query : Maker.Query, query.answer system.makerCtx system.makerState =
    query.answer system.restart.makerCtx system.restart.makerState) :
    Bare system.maker ∧ system.maker.getBackingRatioLastBlock = 0 := by
  have pools : system.maker.poolBacking = ∅ :=
    AList.eq_empty_of_toFinmap (Maker.Answer.backingPools.inj (Except.ok.inj (told .allBackingPools)))
  have total : system.maker.totalBacking = none := by
    obtain ⟨value, valued, same⟩ := map_ok_iff.mp (told .totalBacking)
    exact (Maker.Answer.totalBacking.inj same).1
  have accounts : ∀ key, system.maker.accountCollateral.lookup key = none := by
    rintro ⟨account, denom⟩
    -- where no collateral is registered, the query is refused
    have same := told (.collateralOfAccount account denom)
    simp only [Maker.Query.answer, Stablecoin.makerState, Maker.collateralOfAccount] at same
    cases found : system.maker.accountCollateral.lookup (account, denom) with
    | none => rfl
    | some record =>
      rw [found] at same
      cases same
  exact ⟨{
    backingParams := AList.eq_empty_of_toFinmap
      (Maker.Answer.backingRiskParams.inj (Except.ok.inj (told .allBackingRiskParams)))
    collateralParams := AList.eq_empty_of_toFinmap
      (Maker.Answer.collateralRiskParams.inj (Except.ok.inj (told .allCollateralRiskParams)))
    totalBacking := total
    poolBacking := pools
    totalCollateral := Maker.Answer.totalCollateral.inj (Except.ok.inj (told .totalCollateral))
    poolCollateral := AList.eq_empty_of_toFinmap
      (Maker.Answer.collateralPools.inj (Except.ok.inj (told .allCollateralPools)))
    accountCollateral := AList.eq_empty_of_toFinmap (Finmap.ext_lookup accounts) },
    (Maker.Answer.backingRatio.inj (Except.ok.inj (told .backingRatio))).2⟩

/-- Queries alone show that something is missing. -/
theorem unregistered_of_answers (told : ∀ query, system.answer codec query = system.restart.answer codec query) :
    Unregistered system := by
  obtain ⟨bare, lastBlock⟩ := bare_of_answers fun query => maker_answer_inj (told (.maker query))
  exact {
    maker := bare
    lastBlock := lastBlock
    voteTargets := AList.eq_empty_of_toFinmap
      (Oracle.Answer.voteTargets.inj (Sum.inr.inj (Except.ok.inj (told (.oracle .voteTargets)))))
    targets := AList.eq_empty_of_toFinmap
      (Oracle.Answer.targets.inj (Sum.inr.inj (Except.ok.inj (told (.oracle .targets))))) }

end Noticing

/-- A restart goes unnoticed by all messages and queries exactly when nothing of what it leaves out was there. -/
theorem stablecoin_restart_iff (codec : Oracle.Codec) (system : Stablecoin) :
    Indistinguishable (Stablecoin.deliver codec) (Stablecoin.answer codec) system system.restart ↔ Unregistered system := by
  constructor
  · intro unnoticed
    exact unregistered_of_answers (unnoticed []).1
  · intro unregistered
    exact .of_related (fun _ _ msg serves => serves.deliver codec msg) (fun _ _ query serves => serves.answer codec query)
      unregistered.serves

/-! ## A sample -/

/-- A bank in which one account holds all of a coin. -/
def depositBank : Bank where
  balance := fun account denom => if account = 1 ∧ denom = "ucoll" then 1000 else 0
  supply := fun denom => if denom = "ucoll" then 1000 else 0

/-- The coin is registered as collateral and deposited. -/
def depositEvents : List Stablecoin.Event := [
  .proposal (.registerCollateral ⟨"ucoll", true, none, none, none, none, none, none, none, none, none⟩),
  .message (.maker (.depositCollateral ⟨1, none, ⟨"ucoll", 1000⟩, ⟨"airon", 0⟩⟩))]

def deposited : Stablecoin :=
  Machine.replay (Stablecoin.step default) (.fresh Maker.defaultParams Oracle.defaultParams depositBank) depositEvents

/-- After a restart, the deposit is gone, while the maker's account still has the coins. -/
theorem deposit_lost_sample :
    deposited.oracle.state.bank.balance ModuleAccount.maker.address "ucoll" = 1000 ∧
      (deposited.maker.accountCollateral.lookup (1, "ucoll")).map (·.collateral) = some ⟨"ucoll", 1000⟩ ∧
      ¬ Indistinguishable (Stablecoin.deliver default) (Stablecoin.answer default) deposited deposited.restart := by
  have recorded : (deposited.maker.accountCollateral.lookup (1, "ucoll")).map (·.collateral) = some ⟨"ucoll", 1000⟩ := by
    decide +kernel
  refine ⟨by decide +kernel, recorded, fun unnoticed => ?_⟩
  have unregistered : Unregistered deposited := unregistered_of_answers (unnoticed []).1
  rw [unregistered.maker.accountCollateral] at recorded
  cases recorded

end Rotofury.Soundness.App
