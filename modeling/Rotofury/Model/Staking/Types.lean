import Rotofury.ToMathlib.AListSum
import Rotofury.Model.Ve.MsgServer

/-! # State of the staking module

Beside the SDK's delegations, unbonding delegations and redelegations the module keeps a shadow record of each that says
which part of it belongs to which ve, the shares of all ves in each validator, and the amount each ve has delegated in
all. The bond denomination is that of the gas token, which no contract mirrors, so that the bank is the SDK's. Addresses
are kept as such where they are written from an address; the validator of a ve delegation is kept as the text it is
written from. Hooks, queues, the power index and events are left out.
-/

namespace Rotofury.Model.Staking

open Model.Sdk Model.App Except

/-! ## Validators of the staking module

The SDK's validator: its tokens, the shares its delegators hold in them, and the exchange between the two. Shares are
decimals. Those that are issued, or held by a ve, are never negative and are counted in units of `10^-18`.
-/

section

variable {validator : Validator} {shares value : Dec} {amount : ℕ}

inductive BondStatus where
  | unspecified | unbonded | unbonding | bonded
deriving DecidableEq, Repr

/-- The fields of a validator that delegations read and write. Its tokens are never negative, and its shares are negative
at most where it has no tokens: more shares than there are take all the tokens with them. -/
structure Validator where
  operatorAddress : Address
  status : BondStatus
  jailed : Bool
  tokens : ℕ
  delegatorShares : Dec
  minSelfDelegation : ℤ
  unbondingHeight : ℤ
  unbondingTime : ℕ
  rate : tokens = 0 ∨ 0 ≤ delegatorShares.raw
deriving DecidableEq, Repr

def errInsufficientShares : RegisteredError := ⟨"staking", 22, "insufficient delegation shares"⟩

namespace Validator

/-- `InvalidExRate` -/
def invalidExRate (validator : Validator) : Prop := validator.tokens = 0 ∧ validator.delegatorShares.isPositive

instance (validator : Validator) : Decidable validator.invalidExRate := inferInstanceAs (Decidable (_ ∧ _))

def tokensFromShares (validator : Validator) (shares : Dec) : Except Fault Dec :=
  (shares.mulInt validator.tokens).quo validator.delegatorShares

theorem shares_ne_zero (ok : validator.tokensFromShares shares = .ok value) :
    validator.delegatorShares.raw ≠ 0 := by
  simp only [tokensFromShares, Dec.quo, Dec.scaledQuo, bind_ok_iff] at ok
  obtain ⟨scaled, quotient, _⟩ := ok
  split at quotient
  · cases quotient
  · assumption

theorem tokensFromShares_of_tokenless (none : validator.tokens = 0)
    (ok : validator.tokensFromShares shares = .ok value) : value.truncateInt = 0 := by
  have nonzero := shares_ne_zero ok
  simp only [tokensFromShares, Dec.mulInt, none, Dec.quo, Dec.scaledQuo, if_neg nonzero, Nat.cast_zero, mul_zero,
    zero_mul, Int.zero_tdiv, ok_bind, pure_ok_iff] at ok
  rw [← ok]
  decide

/-- `TokensFromShares(shares).TruncateInt()` of shares that are not negative. -/
def wholeTokensFromShares (validator : Validator) (shares : ℕ) : Except Fault ℕ := do
  let value ← validator.tokensFromShares ⟨shares⟩
  pure value.truncateInt.toNat

/-- What shares are worth, where the validator has any. -/
def worth (validator : Validator) (shares : ℕ) : ℕ := (validator.wholeTokensFromShares shares).toOption.getD 0

theorem worth_of_ok {shares tokens : ℕ} (ok : validator.wholeTokensFromShares shares = .ok tokens) :
    validator.worth shares = tokens := by
  simp [worth, ok, Except.toOption]

/-- `SharesFromTokens`: `GetDelegatorShares().MulInt(amt).QuoInt(GetTokens())`. -/
def sharesFromTokens (validator : Validator) (amount : ℕ) : Except Fault ℕ := do
  require (validator.tokens ≠ 0) (.err errInsufficientShares "")
  pure ((validator.delegatorShares.raw * amount).tdiv validator.tokens).toNat

/-- The shares `AddTokensFromDel` issues; the first delegation sets the exchange rate to one. -/
def issuedShares (validator : Validator) (amount : ℕ) : Except Fault ℕ :=
  if validator.delegatorShares.isZero then .ok (amount * Dec.precision)
  else
    match validator.sharesFromTokens amount with
    | .ok shares => .ok shares
    | .error _ => .error (.panic errInsufficientShares.description)

theorem issued_rate {shares : ℕ} (ok : validator.issuedShares amount = .ok shares) :
    validator.tokens + amount = 0 ∨ 0 ≤ (validator.delegatorShares + ⟨shares⟩).raw := by
  right
  simp only [Dec.raw_add]
  unfold issuedShares at ok
  split at ok
  · next none =>
    unfold Dec.isZero at none
    omega
  · split at ok
    · next issued =>
      simp only [sharesFromTokens, ok_iffs] at issued
      have positive := validator.rate.resolve_left issued.choose_spec.1
      omega
    · cases ok

/-- `AddTokensFromDel` -/
def addTokensFromDel (validator : Validator) (amount : ℕ) : Except Fault (Validator × ℕ) :=
  match issued : validator.issuedShares amount with
  | .error fault => .error fault
  | .ok shares => .ok ({ validator with
      tokens := validator.tokens + amount
      delegatorShares := validator.delegatorShares + ⟨shares⟩
      rate := issued_rate issued }, shares)

/-- Shares beyond those of all delegators are worth all tokens at least. -/
theorem tokens_le_of_excess (ok : validator.tokensFromShares shares = .ok value)
    (positive : 0 ≤ validator.delegatorShares.raw) (excess : validator.delegatorShares.raw ≤ shares.raw) :
    (validator.tokens : ℤ) ≤ value.truncateInt := by
  have held : 0 < validator.delegatorShares.raw := lt_of_le_of_ne positive (Ne.symm (shares_ne_zero ok))
  simp only [tokensFromShares, Dec.quo, Dec.scaledQuo, ok_iffs] at ok
  obtain ⟨scaled, quotient, rfl⟩ := ok
  rw [if_neg held.ne'] at quotient
  cases quotient
  have scale : (0 : ℤ) ≤ validator.tokens * Dec.precision * Dec.precision := by positivity
  have whole : (validator.tokens * Dec.precision : ℤ) * Dec.precision ≤
      ((shares.mulInt validator.tokens).raw * Dec.precision * Dec.precision).tdiv validator.delegatorShares.raw := by
    have numerator := mul_le_mul_of_nonneg_right excess scale
    simp only [Dec.mulInt]
    rw [mul_assoc shares.raw, mul_assoc shares.raw,
      Int.tdiv_eq_ediv_of_nonneg (mul_nonneg (positive.trans excess) scale), Int.le_ediv_iff_mul_le held]
    linarith
  have rounded := Math.roundHalfEven_mono whole Dec.precision_pos
  rw [Math.roundHalfEven_mul _ Dec.precision_pos] at rounded
  have unit : (0 : ℤ) < Dec.precision := by exact_mod_cast Dec.precision_pos
  have base : (0 : ℤ) ≤ validator.tokens * Dec.precision := mul_nonneg (Int.natCast_nonneg _) unit.le
  rw [Dec.truncateInt, Int.tdiv_eq_ediv_of_nonneg (base.trans rounded)]
  exact (Int.le_ediv_iff_mul_le unit).mpr rounded

theorem removed_rate (ok : validator.tokensFromShares shares = .ok value)
    (enough : value.truncateInt ≤ validator.tokens) :
    (validator.tokens - value.truncateInt).toNat = 0 ∨ 0 ≤ (validator.delegatorShares - shares).raw := by
  rcases le_or_gt shares.raw validator.delegatorShares.raw with within | excess
  · right
    simp only [Dec.raw_sub]
    omega
  · left
    rcases validator.rate with none | positive
    · rw [tokensFromShares_of_tokenless none ok, none]
      rfl
    · have all := tokens_le_of_excess ok positive excess.le
      omega

/-- `RemoveDelShares`: the last shares take all tokens. -/
def removeDelShares (validator : Validator) (delShares : Dec) : Except Fault (Validator × ℤ) :=
  if (validator.delegatorShares - delShares).isZero then
    .ok ({ validator with
      tokens := 0
      delegatorShares := validator.delegatorShares - delShares
      rate := .inl rfl }, validator.tokens)
  else
    match valued : validator.tokensFromShares delShares with
    | .error fault => .error fault
    | .ok value =>
      if enough : value.truncateInt ≤ validator.tokens then
        .ok ({ validator with
          tokens := (validator.tokens - value.truncateInt).toNat
          delegatorShares := validator.delegatorShares - delShares
          rate := removed_rate valued enough }, value.truncateInt)
      else .error (.panic "attempting to remove more tokens than available in validator")

/-- `RemoveTokens` -/
def removeTokens (validator : Validator) (tokens : ℤ) : Except Fault Validator := do
  require (0 ≤ tokens) (.panic s!"should not happen: trying to remove negative tokens {tokens}")
  require (tokens ≤ validator.tokens)
    (.panic s!"should not happen: only have {validator.tokens} tokens, trying to remove {tokens}")
  pure { validator with
    tokens := validator.tokens - tokens.toNat
    rate := validator.rate.imp_left fun none => by simp [none] }

end Validator

end

def errNoValidatorFound : RegisteredError := ⟨"staking", 3, "validator does not exist"⟩
def errEmptyValidatorAddr : RegisteredError := ⟨"staking", 2, "empty validator address"⟩
def errNoDelegatorForAddress : RegisteredError := ⟨"staking", 21, "delegator does not contain delegation"⟩
def errNotEnoughDelegationShares : RegisteredError := ⟨"staking", 24, "not enough delegation shares"⟩
def errNoUnbondingDelegation : RegisteredError := ⟨"staking", 26, "no unbonding delegation found"⟩
def errMaxUnbondingDelegationEntries : RegisteredError :=
  ⟨"staking", 27, "too many unbonding delegation entries for (delegator, validator) tuple"⟩
def errNoRedelegation : RegisteredError := ⟨"staking", 28, "no redelegation found"⟩
def errSelfRedelegation : RegisteredError := ⟨"staking", 29, "cannot redelegate to the same validator"⟩
def errTinyRedelegationAmount : RegisteredError :=
  ⟨"staking", 30, "too few tokens to redelegate (truncates to zero tokens)"⟩
def errBadRedelegationDst : RegisteredError := ⟨"staking", 31, "redelegation destination validator not found"⟩
def errTransitiveRedelegation : RegisteredError :=
  ⟨"staking", 32, "redelegation to this validator already in progress; first redelegation to this validator must complete before next redelegation"⟩
def errMaxRedelegationEntries : RegisteredError :=
  ⟨"staking", 33, "too many redelegation entries for (delegator, src-validator, dst-validator) tuple"⟩
def errDelegatorShareExRateInvalid : RegisteredError :=
  ⟨"staking", 34, "cannot delegate to validators with invalid (zero) ex-rate"⟩

/-- A part of a ve delegation; the shares are in units of `10^-18`. -/
structure VeShares where
  veId : ℕ
  tokensMayUnsettled : ℤ
  shares : ℕ
deriving DecidableEq, Repr

structure VeTokens where
  veId : ℕ
  tokens : ℕ
deriving DecidableEq, Repr

/-- `VeTokensSlice.Tokens` -/
def totalTokens (veTokens : List VeTokens) : ℕ := (veTokens.map (·.tokens)).sum

/-- The delegation of several ves; it lists each of them once. -/
structure VeDelegation where
  delegatorAddress : Address
  validatorAddress : String
  veShares : List VeShares
  nodup : (veShares.map (·.veId)).Nodup
deriving DecidableEq, Repr

namespace VeDelegation

def getSharesByVeId (delegation : VeDelegation) (veId : ℕ) : VeShares :=
  (delegation.veShares.find? fun shares => shares.veId = veId).getD ⟨veId, 0, 0⟩

/-- Write the shares of one ve: over the ones it has, or at the end. -/
def replaceShares (veShares : List VeShares) (shares : VeShares) : List VeShares :=
  if shares.veId ∈ veShares.map (·.veId) then veShares.map fun old => if old.veId = shares.veId then shares else old
  else veShares ++ [shares]

theorem replaceShares_nodup {veShares : List VeShares} (nodup : (veShares.map (·.veId)).Nodup) (shares : VeShares) :
    ((replaceShares veShares shares).map (·.veId)).Nodup := by
  unfold replaceShares
  split
  · have same : (fun old : VeShares => (if old.veId = shares.veId then shares else old).veId) = (·.veId) := by
      funext old
      split <;> simp_all
    rwa [List.map_map, Function.comp_def, same]
  · next fresh =>
    rw [List.map_append, List.nodup_append]
    refine ⟨nodup, by simp, ?_⟩
    rintro veId inside last member rfl
    obtain rfl : veId = shares.veId := by simpa using member
    exact fresh inside

def setSharesByVeId (delegation : VeDelegation) (shares : VeShares) : VeDelegation :=
  { delegation with
    veShares := replaceShares delegation.veShares shares
    nodup := replaceShares_nodup delegation.nodup shares }

/-- `Shares`: of all ves together. -/
def shares (delegation : VeDelegation) : ℕ := (delegation.veShares.map (·.shares)).sum

end VeDelegation

def VeShares.addTokensAndShares (veShares : VeShares) (tokens shares : ℕ) : VeShares :=
  ⟨veShares.veId, veShares.tokensMayUnsettled + tokens, veShares.shares + shares⟩

structure UnbondingDelegationEntry where
  creationHeight : ℤ
  completionTime : ℕ
  initialBalance : ℤ
  balance : ℤ
deriving DecidableEq, Repr

structure VeUnbondingDelegationEntryBalances where
  veId : ℕ
  initialBalance : ℤ
  balance : ℤ
deriving DecidableEq, Repr

structure VeUnbondingDelegationEntry where
  veBalances : List VeUnbondingDelegationEntryBalances
deriving DecidableEq, Repr

/-- `VeUnbondingDelegationEntry.Balance` -/
def VeUnbondingDelegationEntry.balance (entry : VeUnbondingDelegationEntry) : ℤ :=
  (entry.veBalances.map (·.balance)).sum

structure RedelegationEntry where
  creationHeight : ℤ
  completionTime : ℕ
  initialBalance : ℤ
  sharesDst : Dec
deriving DecidableEq, Repr

structure VeRedelegationEntryShares where
  veId : ℕ
  initialBalance : ℤ
  sharesDst : Dec
deriving DecidableEq, Repr

structure VeRedelegationEntry where
  veShares : List VeRedelegationEntryShares
deriving DecidableEq, Repr

/-- A delegator with a validator. -/
abbrev DvPair := Address × Address

/-- A delegator with a source and a destination validator. -/
abbrev DvvTriplet := Address × Address × Address

/-- The records of unbonding delegations and redelegations, each with its shadow. -/
structure Entries where
  unbondingDelegations : AList fun _ : DvPair => List UnbondingDelegationEntry
  veUnbondingDelegations : AList fun _ : DvPair => List VeUnbondingDelegationEntry
  redelegations : AList fun _ : DvvTriplet => List RedelegationEntry
  veRedelegations : AList fun _ : DvvTriplet => List VeRedelegationEntry

def Entries.empty : Entries := ⟨∅, ∅, ∅, ∅⟩

/-- The validators, each under its own address, and the delegations. An amount that is not on record reads as zero. -/
structure Holdings where
  validators : Address → Option Validator
  delegations : DvPair → Option Dec
  veValidators : Address → Option Dec
  veDelegations : AList fun _ : DvPair => VeDelegation
  veDelegatedAmount : ℕ → ℤ
  operators : ∀ valAddr validator, validators valAddr = some validator → validator.operatorAddress = valAddr

/-- The module's store, and the ve module's with the bank. -/
structure State where
  holdings : Holdings
  entries : Entries
  ve : Ve.State

/-- What lies in the SDK: how an operator address is written in bech32 and a validator, the whole of it, as YAML. The text
of a validator is never the address of another one. -/
structure World where
  valAddressFromBech32 : String → Option Address
  validatorString : Validator → String
  validatorString_own : ∀ validator valAddr,
    valAddressFromBech32 (validatorString validator) = some valAddr → valAddr = validator.operatorAddress

/-- What a call reads besides the state: the ve module's context, the time of the block in nanoseconds, and the
parameters of the module. -/
structure Ctx where
  world : World
  ve : Ve.Ctx
  headerTime : ℕ
  bondDenom : Denom
  unbondingTime : ℕ
  maxEntries : ℕ
  powerReduction : ℤ
  seconds : ve.blockTime = headerTime / 10 ^ 9

end Rotofury.Model.Staking
