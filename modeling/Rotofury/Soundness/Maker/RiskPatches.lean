import Rotofury.Machine.Patching
import Rotofury.Model.Maker.RiskParams
import Rotofury.Soundness.Maker.Payouts

/-! # Risk parameters under governance

A set proposal is meant as a field-wise patch: what it carries is written, the rest stays. It is one as long as every
ceiling it carries is already there: the ceilings are the only fields that a registration leaves absent, and writing
through the nil pointer of an absent one panics.
-/

namespace Rotofury.Soundness.Maker

open Model.Sdk Model.App Model.Maker Except

variable {fault : Fault} {store : Store} {proposal : Proposal} {state next : State} {ctx : Ctx}

/-- Go's nil dereference. -/
def nilPointer : Fault := .panic "invalid memory address or nil pointer dereference"

/-- The fault is a panic and not a returned error. -/
def Panics (fault : Fault) : Prop := ∃ reason, fault = .panic reason

theorem err_orderly (error : RegisteredError) (detail : String) : ¬ Panics (.err error detail) := by
  rintro ⟨_, same⟩
  cases same

section Fields

variable {α : Type} {target patch : Option α}

theorem updateField_of_fits (fits : patch.isSome = true → target.isSome = true) :
    updateField target patch = .ok (patch.or target, patch.isSome) := by
  cases patch with
  | none => rfl
  | some value =>
    obtain ⟨present, rfl⟩ := Option.isSome_iff_exists.mp (fits rfl)
    rfl

theorem updateField_of_misfit (misfit : ¬ (patch.isSome = true → target.isSome = true)) :
    updateField target patch = .error nilPointer := by
  obtain ⟨present, absent⟩ := Classical.not_imp.mp misfit
  obtain ⟨value, rfl⟩ := Option.isSome_iff_exists.mp present
  obtain rfl := Option.not_isSome_iff_eq_none.mp absent
  rfl

end Fields

section Handler

variable {ρ : Type} {record params : ρ} {missing : RegisteredError} {detail : String}
  {update : ρ → Except Fault (ρ × Bool)} {validate : ρ → Except Fault Unit} {write : ρ → State} {state : State}

theorem setRiskParams_of_missing :
    setRiskParams none missing detail update validate write state = .error (.err missing detail) := rfl

theorem setRiskParams_of_misfit (failed : update record = .error fault) :
    setRiskParams (some record) missing detail update validate write state = .error fault := by
  rw [setRiskParams, Store.found, ok_bind, failed, error_bind]

theorem setRiskParams_of_invalid (updated : update record = .ok (params, true))
    (invalid : validate params = .error fault) :
    setRiskParams (some record) missing detail update validate write state = .error fault := by
  rw [setRiskParams, Store.found, ok_bind, updated, ok_bind]
  simp only [if_true, invalid, error_bind]

theorem setRiskParams_of_valid {changed : Bool} (updated : update record = .ok (params, changed))
    (valid : changed = true → validate params = .ok ()) :
    setRiskParams (some record) missing detail update validate write state =
      .ok (if changed = true then write params else state) := by
  rw [setRiskParams, Store.found, ok_bind, updated, ok_bind]
  cases changed with
  | false => rfl
  | true =>
    simp only [if_true, valid rfl, ok_bind]
    rfl

/-- What makes a record, its update and its check an instance of the patching rules. -/
structure FieldPatching (rules : Machine.Patching Denom ρ) (sets : ρ → ρ → Bool) (Good : Denom → ρ → Prop)
    (update : ρ → ρ → Except Fault (ρ × Bool)) (validate : ρ → Except Fault Unit) : Prop where
  misfit : ∀ record patch, ¬ rules.Fits record patch → update record patch = .error nilPointer
  fits : ∀ denom record patch, Good denom record → rules.Fits record patch →
    update record patch = .ok (rules.patched record patch, sets record patch)
  allowed : ∀ record patch, rules.Allowed record patch ↔
    (sets record patch = true → validate (rules.patched record patch) = .ok ())
  orderly : ∀ denom record patch fault, Good denom record →
    validate (rules.patched record patch) = .error fault → ¬ Panics fault
  kept : ∀ denom record patch, Good denom record → rules.Allowed record patch → Good denom (rules.patched record patch)
  unset : ∀ record patch, sets record patch = false → rules.patched record patch = record

/-- The common handler realizes the rules, if storing a record writes it under its denomination and nothing else. -/
theorem FieldPatching.realizes {τ : Type} {rules : Machine.Patching Denom ρ} {sets : ρ → ρ → Bool}
    {Good : Denom → ρ → Prop} {update : ρ → ρ → Except Fault (ρ × Bool)} {validate : ρ → Except Fault Unit}
    (patching : FieldPatching rules sets Good update validate) (stored : State → Denom → Option ρ)
    (write : State → ρ → State) (other : State → τ) (missing : RegisteredError) (detail : String)
    (others : ∀ state record, other (write state record) = other state)
    (lookup : ∀ state denom record, Good denom record →
      stored (write state record) = Function.update (stored state) denom (some record)) :
    rules.Realizes stored other Good Panics fun state patch =>
      setRiskParams (stored state (rules.key patch)) missing detail (update · patch) validate (write state) state where
  missing := by
    intro state patch absent
    rw [absent]
    exact ⟨_, err_orderly missing detail, setRiskParams_of_missing⟩
  misfit := by
    intro state patch record found _ misfit
    rw [found]
    exact ⟨nilPointer, ⟨_, rfl⟩, setRiskParams_of_misfit (patching.misfit record patch misfit)⟩
  refused := by
    intro state patch record found good fits refused
    obtain ⟨updated, invalid⟩ := Classical.not_imp.mp (mt (patching.allowed record patch).mpr refused)
    have ok := patching.fits _ record patch good fits
    rw [updated] at ok
    rw [found]
    cases checked : validate (rules.patched record patch) with
    | ok => exact absurd checked invalid
    | error fault =>
      exact ⟨fault, patching.orderly _ record patch fault good checked, setRiskParams_of_invalid ok checked⟩
  written := by
    intro state patch record found good fits allowed
    have kept := patching.kept _ record patch good allowed
    rw [found]
    refine ⟨kept, _, setRiskParams_of_valid (patching.fits _ record patch good fits)
      ((patching.allowed record patch).mp allowed), ?_, ?_⟩
    · split
      · exact others state _
      · rfl
    · split
      · exact lookup state _ _ kept
      · next nothing =>
        rw [patching.unset record patch (Bool.not_eq_true _ ▸ nothing), ← found, Function.update_eq_self]

end Handler

namespace BackingRules

/-- The record with the fields that the patch carries. -/
def patched (record patch : BackingRiskParams) : BackingRiskParams where
  backingDenom := record.backingDenom
  enabled := patch.enabled
  maxBacking := patch.maxBacking.or record.maxBacking
  maxGridMint := patch.maxGridMint.or record.maxGridMint
  mintFee := patch.mintFee.or record.mintFee
  burnFee := patch.burnFee.or record.burnFee
  buybackFee := patch.buybackFee.or record.buybackFee
  rebackFee := patch.rebackFee.or record.rebackFee

/-- The patch carries a field or changes whether the coin is enabled. -/
def sets (record patch : BackingRiskParams) : Bool :=
  record.enabled != patch.enabled || patch.maxBacking.isSome || patch.maxGridMint.isSome || patch.mintFee.isSome ||
    patch.burnFee.isSome || patch.buybackFee.isSome || patch.rebackFee.isSome

/-- The ceilings that the patch carries are present in the record. -/
def Fits (record patch : BackingRiskParams) : Prop :=
  (patch.maxBacking.isSome = true → record.maxBacking.isSome = true) ∧
    (patch.maxGridMint.isSome = true → record.maxGridMint.isSome = true)

/-- All fees are present, as a registration leaves them, and the record lies under its own denomination. -/
structure Good (denom : Denom) (record : BackingRiskParams) : Prop where
  denom : record.backingDenom = denom
  mintFee : record.mintFee.isSome = true
  burnFee : record.burnFee.isSome = true
  buybackFee : record.buybackFee.isSome = true
  rebackFee : record.rebackFee.isSome = true

/-- The rules of set proposals for backing coins. -/
def rules (ctx : Ctx) : Machine.Patching Denom BackingRiskParams where
  key := BackingRiskParams.backingDenom
  patched := patched
  Fits := Fits
  Allowed := fun record patch => sets record patch = true → (patched record patch).validate ctx = .ok ()

variable {ctx : Ctx} {denom : Denom} {record patch : BackingRiskParams}

theorem Good.kept (good : Good denom record) (patch : BackingRiskParams) : Good denom (patched record patch) := by
  constructor <;> simp [patched, good.denom, good.mintFee, good.burnFee, good.buybackFee, good.rebackFee]

theorem update_of_fits (good : Good denom record) (fits : Fits record patch) :
    updateBackingRiskParams record patch = .ok (patched record patch, sets record patch) := by
  simp only [updateBackingRiskParams, updateInt, updateDecimal, updateField_of_fits fits.1, updateField_of_fits fits.2,
    updateField_of_fits fun _ => good.mintFee, updateField_of_fits fun _ => good.burnFee,
    updateField_of_fits fun _ => good.buybackFee, updateField_of_fits fun _ => good.rebackFee, ok_bind]
  rfl

theorem update_of_misfit (misfit : ¬ Fits record patch) :
    updateBackingRiskParams record patch = .error nilPointer := by
  by_cases maxBacking : patch.maxBacking.isSome = true → record.maxBacking.isSome = true
  · have maxGridMint := fun fits => misfit ⟨maxBacking, fits⟩
    simp only [updateBackingRiskParams, updateInt, updateField_of_fits maxBacking, updateField_of_misfit maxGridMint,
      ok_bind, error_bind]
  · simp only [updateBackingRiskParams, updateInt, updateField_of_misfit maxBacking, error_bind]

/-- A patch that sets nothing leaves the record as it is. -/
theorem patched_of_not_sets (nothing : sets record patch = false) :
    patched record patch = record := by
  simp only [sets, Bool.or_eq_false_iff, bne_eq_false_iff_eq, Option.isSome_eq_false_iff, Option.isNone_iff_eq_none] at nothing
  obtain ⟨⟨⟨⟨⟨⟨enabled, maxBacking⟩, maxGridMint⟩, mintFee⟩, burnFee⟩, buybackFee⟩, rebackFee⟩ := nothing
  simp [patched, ← enabled, maxBacking, maxGridMint, mintFee, burnFee, buybackFee, rebackFee]

theorem validate_orderly {params : BackingRiskParams} (present : params.rebackFee.isSome = true)
    (failed : params.validate ctx = .error fault) : ¬ Panics fault := by
  obtain ⟨fee, found⟩ := Option.isSome_iff_exists.mp present
  simp only [BackingRiskParams.validate, found, deref, ok_bind, require_eq_error_iff] at failed
  obtain ⟨_, rfl⟩ := failed
  exact err_orderly _ _

theorem patching (ctx : Ctx) : FieldPatching (rules ctx) sets Good updateBackingRiskParams (BackingRiskParams.validate ctx) where
  misfit := fun _ _ => update_of_misfit
  fits := fun _ _ _ => update_of_fits
  allowed := fun _ _ => Iff.rfl
  orderly := fun _ _ patch _ good => validate_orderly (good.kept patch).rebackFee
  kept := fun _ _ patch good _ => good.kept patch
  unset := fun _ _ => patched_of_not_sets

/-- The handler realizes the rules, and changes no other part of the state. -/
theorem realizes (ctx : Ctx) : (rules ctx).Realizes (fun (state : State) denom => state.store.backingParams.lookup denom)
    (fun (state : State) => { state with store.backingParams := ∅ }) Good Panics (setBackingRiskParamsProposal ctx) := by
  apply (patching ctx).realizes (fun (state : State) denom => state.store.backingParams.lookup denom)
    (fun state params => { state with store := state.store.setBackingRiskParams params })
  · intro state record
    rfl
  · intro state denom record good
    exact good.denom ▸ AList.lookup_insert_eq_update ..

end BackingRules

namespace CollateralRules

/-- The record with the fields that the patch carries. -/
def patched (record patch : CollateralRiskParams) : CollateralRiskParams where
  collateralDenom := record.collateralDenom
  enabled := patch.enabled
  maxCollateral := patch.maxCollateral.or record.maxCollateral
  maxGridMint := patch.maxGridMint.or record.maxGridMint
  liquidationThreshold := patch.liquidationThreshold.or record.liquidationThreshold
  loanToValue := patch.loanToValue.or record.loanToValue
  basicLoanToValue := patch.basicLoanToValue.or record.basicLoanToValue
  catalyticIronRatio := patch.catalyticIronRatio.or record.catalyticIronRatio
  liquidationFee := patch.liquidationFee.or record.liquidationFee
  mintFee := patch.mintFee.or record.mintFee
  interestFee := patch.interestFee.or record.interestFee

/-- The patch carries a field or changes whether the coin is enabled. -/
def sets (record patch : CollateralRiskParams) : Bool :=
  record.enabled != patch.enabled || patch.maxCollateral.isSome || patch.maxGridMint.isSome ||
    patch.liquidationThreshold.isSome || patch.loanToValue.isSome || patch.basicLoanToValue.isSome ||
    patch.catalyticIronRatio.isSome || patch.liquidationFee.isSome || patch.mintFee.isSome || patch.interestFee.isSome

/-- The ceilings that the patch carries are present in the record. -/
def Fits (record patch : CollateralRiskParams) : Prop :=
  (patch.maxCollateral.isSome = true → record.maxCollateral.isSome = true) ∧
    (patch.maxGridMint.isSome = true → record.maxGridMint.isSome = true)

/-- All ratios are present. -/
structure Complete (record : CollateralRiskParams) : Prop where
  liquidationThreshold : record.liquidationThreshold.isSome = true
  loanToValue : record.loanToValue.isSome = true
  basicLoanToValue : record.basicLoanToValue.isSome = true
  catalyticIronRatio : record.catalyticIronRatio.isSome = true
  liquidationFee : record.liquidationFee.isSome = true
  mintFee : record.mintFee.isSome = true
  interestFee : record.interestFee.isSome = true

/-- A record as a registration leaves it: complete, under its own denomination, with its ratios in order. -/
structure Good (denom : Denom) (record : CollateralRiskParams) : Prop where
  denom : record.collateralDenom = denom
  complete : Complete record
  valid : record.validate = .ok ()

/-- The rules of set proposals for collateral coins. -/
def rules : Machine.Patching Denom CollateralRiskParams where
  key := CollateralRiskParams.collateralDenom
  patched := patched
  Fits := Fits
  Allowed := fun record patch => sets record patch = true → (patched record patch).validate = .ok ()

variable {denom : Denom} {record patch : CollateralRiskParams}

theorem Complete.kept (complete : Complete record) (patch : CollateralRiskParams) : Complete (patched record patch) := by
  obtain ⟨threshold, loanToValue, basic, catalytic, liquidation, mint, interest⟩ := complete
  constructor <;> simp [patched, threshold, loanToValue, basic, catalytic, liquidation, mint, interest]

theorem update_of_fits (complete : Complete record) (fits : Fits record patch) :
    updateCollateralRiskParams record patch = .ok (patched record patch, sets record patch) := by
  simp only [updateCollateralRiskParams, updateInt, updateDecimal, updateField_of_fits fits.1,
    updateField_of_fits fits.2, updateField_of_fits fun _ => complete.liquidationThreshold,
    updateField_of_fits fun _ => complete.loanToValue, updateField_of_fits fun _ => complete.basicLoanToValue,
    updateField_of_fits fun _ => complete.catalyticIronRatio, updateField_of_fits fun _ => complete.liquidationFee,
    updateField_of_fits fun _ => complete.mintFee, updateField_of_fits fun _ => complete.interestFee, ok_bind]
  rfl

theorem update_of_misfit (misfit : ¬ Fits record patch) :
    updateCollateralRiskParams record patch = .error nilPointer := by
  by_cases maxCollateral : patch.maxCollateral.isSome = true → record.maxCollateral.isSome = true
  · have maxGridMint := fun fits => misfit ⟨maxCollateral, fits⟩
    simp only [updateCollateralRiskParams, updateInt, updateField_of_fits maxCollateral,
      updateField_of_misfit maxGridMint, ok_bind, error_bind]
  · simp only [updateCollateralRiskParams, updateInt, updateField_of_misfit maxCollateral, error_bind]

/-- A patch that sets nothing leaves the record as it is. -/
theorem patched_of_not_sets (nothing : sets record patch = false) : patched record patch = record := by
  simp only [sets, Bool.or_eq_false_iff, bne_eq_false_iff_eq, Option.isSome_eq_false_iff,
    Option.isNone_iff_eq_none] at nothing
  obtain ⟨⟨⟨⟨⟨⟨⟨⟨⟨enabled, maxCollateral⟩, maxGridMint⟩, threshold⟩, loanToValue⟩, basic⟩, catalytic⟩, liquidation⟩,
    mint⟩, interest⟩ := nothing
  simp [patched, ← enabled, maxCollateral, maxGridMint, threshold, loanToValue, basic, catalytic, liquidation, mint,
    interest]

theorem Good.kept (good : Good denom record) (allowed : rules.Allowed record patch) :
    Good denom (patched record patch) := by
  refine ⟨good.denom, good.complete.kept patch, ?_⟩
  cases updated : sets record patch with
  | false =>
    rw [patched_of_not_sets updated]
    exact good.valid
  | true => exact allowed updated

theorem validate_orderly (complete : Complete record) (failed : record.validate = .error fault) :
    ¬ Panics fault := by
  obtain ⟨loanToValue, hasLoanToValue⟩ := Option.isSome_iff_exists.mp complete.loanToValue
  obtain ⟨threshold, hasThreshold⟩ := Option.isSome_iff_exists.mp complete.liquidationThreshold
  obtain ⟨basic, hasBasic⟩ := Option.isSome_iff_exists.mp complete.basicLoanToValue
  simp only [CollateralRiskParams.validate, hasLoanToValue, hasThreshold, hasBasic, deref, ok_bind,
    bind_eq_error_iff, require_eq_error_iff] at failed
  rcases failed with ⟨_, rfl⟩ | ⟨_, _, _, rfl⟩
  · exact err_orderly _ _
  · exact err_orderly _ _

theorem patching : FieldPatching rules sets Good updateCollateralRiskParams CollateralRiskParams.validate where
  misfit := fun _ _ => update_of_misfit
  fits := fun _ _ _ good => update_of_fits good.complete
  allowed := fun _ _ => Iff.rfl
  orderly := fun _ _ patch _ good => validate_orderly (good.complete.kept patch)
  kept := fun _ _ _ good => good.kept
  unset := fun _ _ => patched_of_not_sets

/-- The handler realizes the rules, and changes no other part of the state. -/
theorem realizes : rules.Realizes (fun (state : State) denom => state.store.collateralParams.lookup denom)
    (fun (state : State) => { state with store.collateralParams := ∅ }) Good Panics setCollateralRiskParamsProposal := by
  apply patching.realizes (fun (state : State) denom => state.store.collateralParams.lookup denom)
    (fun state params => { state with store := state.store.setCollateralRiskParams params })
  · intro state record
    rfl
  · intro state denom record good
    exact good.denom ▸ AList.lookup_insert_eq_update ..

end CollateralRules

/-- Every stored record is as a registration leaves it. -/
structure GoodParams (store : Store) : Prop where
  backing : ∀ denom record, store.backingParams.lookup denom = some record → BackingRules.Good denom record
  collateral : ∀ denom record, store.collateralParams.lookup denom = some record → CollateralRules.Good denom record

theorem BackingRules.good_withDefaults (params : BackingRiskParams) :
    BackingRules.Good params.backingDenom params.withDefaults := ⟨rfl, rfl, rfl, rfl, rfl⟩

theorem CollateralRules.good_withDefaults {params : CollateralRiskParams} (valid : params.withDefaults.validate = .ok ()) :
    CollateralRules.Good params.collateralDenom params.withDefaults :=
  ⟨rfl, ⟨rfl, rfl, rfl, rfl, rfl, rfl, rfl⟩, valid⟩

theorem GoodParams.setBacking (good : GoodParams store) (params : BackingRiskParams)
    (goodParams : BackingRules.Good params.backingDenom params) : GoodParams (store.setBackingRiskParams params) :=
  ⟨AList.forall_lookup_insert goodParams good.backing, good.collateral⟩

theorem GoodParams.setCollateral (good : GoodParams store) (params : CollateralRiskParams)
    (goodParams : CollateralRules.Good params.collateralDenom params) :
    GoodParams (store.setCollateralRiskParams params) :=
  ⟨good.backing, AList.forall_lookup_insert goodParams good.collateral⟩

/-- The patches of a proposal for backing coins. -/
def backingPatches : Proposal → List BackingRiskParams
  | .setBackingRiskParams riskParams => [riskParams]
  | .batchSetBackingRiskParams riskParams => riskParams
  | _ => []

/-- The patches of a proposal for collateral coins. -/
def collateralPatches : Proposal → List CollateralRiskParams
  | .setCollateralRiskParams riskParams => [riskParams]
  | .batchSetCollateralRiskParams riskParams => riskParams
  | _ => []

/-- A set or batch-set proposal. -/
def IsPatch : Proposal → Prop
  | .registerBacking _ => False
  | .registerCollateral _ => False
  | _ => True

/-- A patch proposal is a batch on one of the two sides. -/
theorem IsPatch.handle_eq (isPatch : IsPatch proposal) (ctx : Ctx) (state : State) :
    collateralPatches proposal = [] ∧
        proposal.handle ctx state = (backingPatches proposal).foldlM (setBackingRiskParamsProposal ctx) state ∨
      backingPatches proposal = [] ∧
        proposal.handle ctx state = (collateralPatches proposal).foldlM setCollateralRiskParamsProposal state := by
  cases proposal with
  | registerBacking _ => exact isPatch.elim
  | registerCollateral _ => exact isPatch.elim
  | setBackingRiskParams patch => exact .inl ⟨rfl, (bind_pure _).symm⟩
  | setCollateralRiskParams patch => exact .inr ⟨rfl, (bind_pure _).symm⟩
  | batchSetBackingRiskParams patches => exact .inl ⟨rfl, rfl⟩
  | batchSetCollateralRiskParams patches => exact .inr ⟨rfl, rfl⟩

/-- No patch that a proposal reaches carries a ceiling that its record lacks. -/
def CeilingsPresent (ctx : Ctx) (store : Store) (proposal : Proposal) : Prop :=
  (BackingRules.rules ctx).Ready (fun denom => store.backingParams.lookup denom) (backingPatches proposal) ∧
    CollateralRules.rules.Ready (fun denom => store.collateralParams.lookup denom) (collateralPatches proposal)

/-- What a proposal that sets risk parameters is meant to do. -/
structure FieldwisePatch (ctx : Ctx) (state : State) (proposal : Proposal) : Prop where
  no_panic : ∀ reason, proposal.handle ctx state ≠ .error (.panic reason)
  backing : ∀ next, proposal.handle ctx state = .ok next → ∀ denom, next.store.backingParams.lookup denom =
    (state.store.backingParams.lookup denom).map
      (((backingPatches proposal).filter (·.backingDenom = denom)).foldl BackingRules.patched)
  collateral : ∀ next, proposal.handle ctx state = .ok next → ∀ denom, next.store.collateralParams.lookup denom =
    (state.store.collateralParams.lookup denom).map
      (((collateralPatches proposal).filter (·.collateralDenom = denom)).foldl CollateralRules.patched)
  others : ∀ next, proposal.handle ctx state = .ok next → { next with
    store.backingParams := state.store.backingParams, store.collateralParams := state.store.collateralParams } = state
  ordered : ∀ next, proposal.handle ctx state = .ok next → ∀ denom record,
    next.store.collateralParams.lookup denom = some record → ∃ basic loanToValue threshold,
      record.basicLoanToValue = some basic ∧ record.loanToValue = some loanToValue ∧
      record.liquidationThreshold = some threshold ∧ basic ≤ loanToValue ∧ loanToValue < threshold
  rolled_back : ∀ fault, proposal.handle ctx state = .error fault →
    Machine.advance governedStep state (ctx, .proposal proposal) = state

/-- The state after a successful patch: each denomination's patches applied in order, nothing else changed. -/
structure Patched (state next : State) (proposal : Proposal) : Prop where
  backing : ∀ denom, next.store.backingParams.lookup denom = (state.store.backingParams.lookup denom).map
    (((backingPatches proposal).filter (·.backingDenom = denom)).foldl BackingRules.patched)
  collateral : ∀ denom, next.store.collateralParams.lookup denom = (state.store.collateralParams.lookup denom).map
    (((collateralPatches proposal).filter (·.collateralDenom = denom)).foldl CollateralRules.patched)
  others : { next with
    store.backingParams := state.store.backingParams, store.collateralParams := state.store.collateralParams } = state
  good : GoodParams next.store

/-- A patch proposal is refused or takes effect as a whole if the ceilings it carries are present, and panics if not. -/
theorem IsPatch.result (isPatch : IsPatch proposal) (ctx : Ctx) (good : GoodParams state.store) :
    (CeilingsPresent ctx state.store proposal →
      (∃ fault, ¬ Panics fault ∧ proposal.handle ctx state = .error fault) ∨
        ∃ next, proposal.handle ctx state = .ok next ∧ Patched state next proposal) ∧
    (¬ CeilingsPresent ctx state.store proposal → ∃ fault, Panics fault ∧ proposal.handle ctx state = .error fault) := by
  rcases isPatch.handle_eq ctx state with ⟨noCollateral, handled⟩ | ⟨noBacking, handled⟩
  · obtain ⟨ready, unready⟩ := (BackingRules.realizes ctx).batch (backingPatches proposal) good.backing
    rw [CeilingsPresent, noCollateral, and_iff_left (by trivial : CollateralRules.rules.Ready _ []), handled]
    refine ⟨fun present => ?_, unready⟩
    have result := ready present
    generalize (backingPatches proposal).foldlM (setBackingRiskParamsProposal ctx) state = final at result ⊢
    cases result with
    | refused orderly => exact .inl ⟨_, orderly, rfl⟩
    | @written next others outcomes goodBacking =>
      have untouched : next.store.collateralParams = state.store.collateralParams :=
        (congrArg (fun other : State => other.store.collateralParams) others :)
      have frame := congrArg (fun other : State => { other with
        store.backingParams := state.store.backingParams,
        store.collateralParams := state.store.collateralParams }) others
      refine .inr ⟨next, rfl, outcomes, fun denom => ?_, frame, goodBacking, ?_⟩
      · rw [untouched, noCollateral]
        exact (Option.map_id' ..).symm
      · rw [untouched]
        exact good.collateral
  · obtain ⟨ready, unready⟩ := CollateralRules.realizes.batch (collateralPatches proposal) good.collateral
    rw [CeilingsPresent, noBacking, and_iff_right (by trivial : (BackingRules.rules ctx).Ready _ []), handled]
    refine ⟨fun present => ?_, unready⟩
    have result := ready present
    generalize (collateralPatches proposal).foldlM setCollateralRiskParamsProposal state = final at result ⊢
    cases result with
    | refused orderly => exact .inl ⟨_, orderly, rfl⟩
    | @written next others outcomes goodCollateral =>
      have untouched : next.store.backingParams = state.store.backingParams :=
        (congrArg (fun other : State => other.store.backingParams) others :)
      have frame := congrArg (fun other : State => { other with
        store.backingParams := state.store.backingParams,
        store.collateralParams := state.store.collateralParams }) others
      refine .inr ⟨next, rfl, fun denom => ?_, outcomes, frame, ?_, goodCollateral⟩
      · rw [untouched, noBacking]
        exact (Option.map_id' ..).symm
      · rw [untouched]
        exact good.backing

/-- What a successful patch proposal has done. -/
theorem IsPatch.patched_of_ok (isPatch : IsPatch proposal) (good : GoodParams state.store)
    (ok : proposal.handle ctx state = .ok next) : Patched state next proposal := by
  obtain ⟨present, absent⟩ := isPatch.result ctx good
  by_cases ceilings : CeilingsPresent ctx state.store proposal
  · rcases present ceilings with ⟨_, _, failed⟩ | ⟨_, handled, patched⟩
    · cases failed.symm.trans ok
    · cases handled.symm.trans ok
      exact patched
  · obtain ⟨_, _, failed⟩ := absent ceilings
    cases failed.symm.trans ok

/-- Messages do not touch the risk parameters. -/
theorem deliver_params {msg : Msg} (ok : msg.deliver ctx state = .ok next) :
    next.store.backingParams = state.store.backingParams ∧ next.store.collateralParams = state.store.collateralParams := by
  have change : StepChange ⟨ctx, .msg msg⟩ state next := step_cases ok
  cases change with
  | backing _ _ effect _ =>
    obtain ⟨_, _, _, stored, _⟩ := effect.records
    rw [stored]
    exact ⟨rfl, rfl⟩
  | collateral _ _ effect _ =>
    obtain ⟨_, _, _, _, stored, _⟩ := effect.records
    rw [stored]
    exact ⟨rfl, rfl⟩
  | registerBacking _ action => exact absurd rfl (action msg)
  | registerCollateral _ action => exact absurd rfl (action msg)
  | tune action => exact absurd rfl (action msg)

theorem step_goodParams {event : Ctx × GovernedAction} (ok : governedStep state event = .ok next)
    (good : GoodParams state.store) : GoodParams next.store := by
  obtain ⟨ctx, action⟩ := event
  cases action with
  | msg msg =>
    obtain ⟨backing, collateral⟩ := deliver_params ok
    exact ⟨by rw [backing]; exact good.backing, by rw [collateral]; exact good.collateral⟩
  | proposal proposal =>
    simp only [governedStep, bind_ok_iff] at ok
    obtain ⟨_, _, ok⟩ := ok
    cases proposal with
    | registerBacking params =>
      simp only [Proposal.handle, handleRegisterBackingProposal, ok_iffs] at ok
      obtain ⟨_, _, _, _, _, _, rfl⟩ := ok
      have written := good.setBacking params.withDefaults (BackingRules.good_withDefaults params)
      exact ⟨written.backing, written.collateral⟩
    | registerCollateral params =>
      simp only [Proposal.handle, handleRegisterCollateralProposal, ok_iffs] at ok
      obtain ⟨_, _, _, _, _, valid, rfl⟩ := ok
      have written := good.setCollateral params.withDefaults (CollateralRules.good_withDefaults valid)
      exact ⟨written.backing, written.collateral⟩
    | setBackingRiskParams | setCollateralRiskParams | batchSetBackingRiskParams | batchSetCollateralRiskParams =>
      exact (IsPatch.patched_of_ok (by trivial) good ok).good

/-- A failed proposal leaves the state as it was. -/
theorem advance_of_failed (failed : proposal.handle ctx state = .error fault) :
    Machine.advance governedStep state (ctx, .proposal proposal) = state := by
  simp only [Machine.advance, governedStep, failed]
  cases proposal.validateBasic <;> rfl

theorem CollateralRules.Good.ordered {denom : Denom} {record : CollateralRiskParams}
    (good : CollateralRules.Good denom record) : ∃ basic loanToValue threshold,
      record.basicLoanToValue = some basic ∧ record.loanToValue = some loanToValue ∧
      record.liquidationThreshold = some threshold ∧ basic ≤ loanToValue ∧ loanToValue < threshold := by
  have valid := good.valid
  simp only [CollateralRiskParams.validate, ok_iffs, deref_ok_iff] at valid
  obtain ⟨loanToValue, hasLoanToValue, threshold, hasThreshold, _, below, basic, hasBasic, within⟩ := valid
  exact ⟨basic, loanToValue, threshold, hasBasic, hasLoanToValue, hasThreshold, Int.not_lt.mp within, Int.not_le.mp below⟩

/-- After any run of messages and proposals, a set or batch-set proposal is a field-wise patch exactly when no patch that
it reaches carries a ceiling that the stored record lacks. -/
theorem fieldwisePatch_iff (bank : Bank) (events : List (Ctx × GovernedAction)) (ctx : Ctx) {proposal : Proposal}
    (isPatch : IsPatch proposal) :
    let state := Machine.replay governedStep (fresh bank) events
    FieldwisePatch ctx state proposal ↔ CeilingsPresent ctx state.store proposal := by
  intro state
  have good : GoodParams state.store := by
    apply Machine.replay_always (fun state : State => GoodParams state.store)
    · intro state event next good success
      exact step_goodParams success good
    · constructor <;> simp [fresh, Store.empty]
  obtain ⟨present, absent⟩ := isPatch.result ctx good
  constructor
  · intro patch
    by_contra missing
    obtain ⟨_, ⟨reason, rfl⟩, failed⟩ := absent missing
    exact patch.no_panic reason failed
  · intro ceilings
    have patched : ∀ next, proposal.handle ctx state = .ok next → Patched state next proposal :=
      fun next => isPatch.patched_of_ok good
    exact {
      no_panic := by
        intro reason failed
        rcases present ceilings with ⟨_, orderly, refused⟩ | ⟨_, handled, _⟩
        · cases refused.symm.trans failed
          exact orderly ⟨reason, rfl⟩
        · cases handled.symm.trans failed
      backing := fun next success => (patched next success).backing
      collateral := fun next success => (patched next success).collateral
      others := fun next success => (patched next success).others
      ordered := fun next success denom record stored => ((patched next success).good.collateral denom record stored).ordered
      rolled_back := fun fault => advance_of_failed }

/-- A run that registers a collateral without ceilings. -/
def sampleRegistration : List (Ctx × GovernedAction) :=
  [(sampleCtx 1, .proposal (.registerCollateral sampleCollateral))]

/-- A proposal that disables the collateral and carries no field. -/
def sampleDisable : Proposal :=
  .setCollateralRiskParams ⟨"ucoll", false, none, none, none, none, none, none, none, none, none⟩

theorem fieldwisePatch_iff_sample : FieldwisePatch (sampleCtx 2)
    (Machine.replay governedStep (fresh sampleBank) sampleRegistration) sampleDisable := by
  have isPatch : IsPatch sampleDisable := trivial
  apply (fieldwisePatch_iff sampleBank sampleRegistration (sampleCtx 2) isPatch).mpr
  exact ⟨trivial, fun record _ => ⟨⟨nofun, nofun⟩, fun _ => trivial⟩⟩

/-- A proposal that introduces a ceiling for the collateral. -/
def samplePatch : Proposal :=
  .setCollateralRiskParams ⟨"ucoll", true, some 5000, none, none, none, none, none, none, none, none⟩

/-- The proposal passes its stateless check and names a registered collateral, and its handler panics. -/
theorem samplePatch_panics : samplePatch.validateBasic = .ok () ∧
    samplePatch.handle (sampleCtx 2) (Machine.replay governedStep (fresh sampleBank) sampleRegistration) =
      .error (.panic "invalid memory address or nil pointer dereference") := by
  exact ⟨rfl, rfl⟩

end Rotofury.Soundness.Maker
