import Rotofury.Soundness.Gauge.Calls

/-! # Attached ves and their deposits

A deposit attaches the ve if the owner's slot in the gauge is empty; a withdrawal of all of it detaches the ve and empties
the slot. So the count of attachments is the number of gauges with a deposit as long as a ve has a first deposit exactly
when its owner has.
-/

namespace Rotofury.Soundness.Gauge

open Model.Sdk Model.App Model.Gauge Except Machine

variable {before after store : Store} {moduleAddress : String → Address} {env : Env} {base : Base}
  {state next : State} {veId now : ℕ} {amount : ℤ} {rewardDenom denom : Denom} {event : Event}

/-! ## Deposits and attachments -/

/-- The gauges in which a ve has a positive deposit. -/
def depositedGauges (store : Store) (ve : ℕ) : Set Denom :=
  {denom | 0 < store.getDepositedAmountByUser ⟨denom, true⟩ ve}

theorem depositedGauges_congr (same : SameDeposits before after) (ve : ℕ) :
    depositedGauges after ve = depositedGauges before ve := by
  unfold depositedGauges Store.getDepositedAmountByUser
  rw [same.deposited]

section Moved

variable {base : Base} {denom : Denom} {veId ve : ℕ} {amount : ℤ} {before after : Store}

theorem depositedGauges_other (moved : Moved base veId amount before after) (fits : ve < 2 ^ 64)
    (other : base.isGauge = false ∨ ve ≠ veId) : depositedGauges after ve = depositedGauges before ve := by
  ext gauge
  have apart : ¬ ((⟨gauge, true⟩ : Base) = base ∧ ve = veId) := by
    rintro ⟨rfl, same⟩
    exact other.elim Bool.noConfusion (· same)
  simp only [depositedGauges, Set.mem_ofPred_eq, moved.deposited _ ve fits, if_neg apart, add_zero]

theorem depositedGauges_moved (moved : Moved ⟨denom, true⟩ veId amount before after) (fits : veId < 2 ^ 64) :
    depositedGauges after veId =
      if 0 < before.getDepositedAmountByUser ⟨denom, true⟩ veId + amount then insert denom (depositedGauges before veId)
      else depositedGauges before veId \ {denom} := by
  ext gauge
  by_cases same : gauge = denom
  · subst same
    split <;> simp_all [depositedGauges, moved.deposited _ veId fits]
  · split <;> simp [depositedGauges, moved.deposited _ veId fits, same]

end Moved

theorem deposit_veAttached (ok : deposit moduleAddress env base state veId amount = .ok next) :
    next.veAttached =
      if state.store.getUserVeIdByAddress base (env.owner veId) = Model.Ve.emptyVeId then
        Function.update state.veAttached veId (state.veAttached veId + 1)
      else state.veAttached := by
  simp only [deposit, ok_iffs] at ok
  obtain ⟨_, _, coins, _, bank, _, store, _, rfl⟩ := ok
  have slot : (moveDeposit state.store base veId amount).getUserVeIdByAddress base (env.owner veId) =
      state.store.getUserVeIdByAddress base (env.owner veId) := rfl
  rw [← slot]
  unfold State.attach
  split
  · next first => rw [if_pos (by exact first)]; rfl
  · next later => rw [if_neg (by exact later)]

theorem withdraw_veAttached (ok : withdraw moduleAddress env base state veId amount = .ok next) :
    if 0 < state.store.getDepositedAmountByUser base veId - amount then next.veAttached = state.veAttached
    else state.veAttached veId ≠ 0 ∧
      next.veAttached = Function.update state.veAttached veId (state.veAttached veId - 1) := by
  simp only [withdraw, ok_iffs] at ok
  obtain ⟨_, _, left, leave, _, _, coins, _, bank, _, store, _, rfl⟩ := ok
  unfold State.leave at leave
  split at leave
  · next rest =>
    cases leave
    rw [if_pos rest]
  · next spent =>
    simp only [State.decVeAttached, ok_iffs] at leave
    obtain ⟨_, attached, rfl⟩ := leave
    rw [if_neg spent]
    exact ⟨attached, rfl⟩

/-! ## Calls that leave deposits and attachments alone -/

theorem claimRewardDenom_ok (ok : claimRewardDenom moduleAddress env base veId state rewardDenom = .ok next) :
    state.store.updateRewardPerTicket base env.ctx.blockTime rewardDenom = .ok next.store ∧
      next.veAttached = state.veAttached := by
  simp only [claimRewardDenom, bind_ok_iff] at ok
  obtain ⟨store, update, amount, _, ok⟩ := ok
  split at ok
  · simp only [ok_iffs] at ok
    obtain ⟨_, _, _, _, rfl⟩ := ok
    exact ⟨update, rfl⟩
  · cases ok
    exact ⟨update, rfl⟩

theorem claimReward_parts (ok : claimReward moduleAddress env base state veId = .ok next) :
    ∃ claimed : State, Keeps state.store claimed.store ∧ next.veAttached = state.veAttached ∧
      deriveAmountForUser env claimed.store base veId = .ok next.store := by
  simp only [claimReward, ok_iffs] at ok
  obtain ⟨claimed, loop, store, derive, rfl⟩ := ok
  obtain ⟨kept, attached⟩ := foldlM_invariant
    (fun later : State => Keeps state.store later.store ∧ later.veAttached = state.veAttached) ⟨.refl _, rfl⟩
    (fun before rewardDenom after _ held turn => by
      obtain ⟨update, attached⟩ := claimRewardDenom_ok turn
      exact ⟨held.1.trans (touches_updateRewardPerTicket update).keeps, attached.trans held.2⟩) loop
  exact ⟨claimed, kept, attached, derive⟩

theorem claimReward_sameDeposits (fits : veId < 2 ^ 64)
    (ok : claimReward moduleAddress env base state veId = .ok next) :
    SameDeposits state.store next.store ∧ next.veAttached = state.veAttached := by
  obtain ⟨claimed, kept, attached, derive⟩ := claimReward_parts ok
  refine ⟨kept.toSameDeposits.trans ?_, attached⟩
  cases isGauge : base.isGauge with
  | true => exact (deriveAmountForUser_ok isGauge fits derive).1
  | false =>
    rw [deriveAmountForUser_bribe isGauge derive]
    exact ⟨rfl, rfl, rfl⟩

theorem depositReward_veAttached {sender : Address}
    (ok : depositReward moduleAddress env base state sender rewardDenom amount = .ok next) :
    next.veAttached = state.veAttached := by
  simp only [depositReward, ok_iffs] at ok
  obtain ⟨_, _, _, _, store, _, coins, _, bank, _, refilled, _, _, _, rfl⟩ := ok
  rfl

theorem bribeDeposit_moved (store : Store) (now : ℕ) (fits : veId < 2 ^ 64) (amount : ℤ) :
    Moved base veId amount store (bribeDeposit store base now veId amount) :=
  (moved_moveDeposit store base fits amount).trans_same (keeps_checkpoints _ base now veId _).toSameDeposits

/-- Votes are withdrawn from a bribe as a negative amount is counted in it. -/
theorem bribeWithdraw_ok {next : Store} (ok : bribeWithdraw store base now veId amount = .ok next) :
    amount ≤ store.getDepositedAmountByUser base veId ∧ next = bribeDeposit store base now veId (-amount) := by
  simp only [bribeWithdraw, ok_iffs, not_lt] at ok
  obtain ⟨_, enough, rfl⟩ := ok
  refine ⟨enough, ?_⟩
  unfold bribeDeposit
  split
  · rfl
  · next spent =>
    have nothing : store.getDepositedAmountByUser base veId - amount = 0 := by omega
    rw [← sub_eq_add_neg, ← sub_eq_add_neg, nothing]
    rfl

/-! ## Counting -/

/-- Deposits are not negative, and a ve has some in finitely many gauges. -/
structure Sound (store : Store) : Prop where
  nonneg : ∀ denom, ∀ ve < 2 ^ 64, 0 ≤ store.getDepositedAmountByUser ⟨denom, true⟩ ve
  finite : ∀ ve < 2 ^ 64, (depositedGauges store ve).Finite

/-- The count of attachments of every ve is the number of gauges in which it has a deposit. -/
def Counted (state : State) : Prop :=
  ∀ ve < 2 ^ 64, state.veAttached ve = (depositedGauges state.store ve).ncard

/-- Ids are 64-bit numbers, and amounts of deposits and withdrawals are positive. -/
def ProperCall : Call → Prop
  | .createGauge _ => True
  | .deposit _ veId amount | .withdraw _ veId amount => veId < 2 ^ 64 ∧ 0 < amount
  | .bribeDeposit _ veId _ | .bribeWithdraw _ veId _ | .claimReward _ veId => veId < 2 ^ 64
  | .depositReward .. => True

/-- A ve has no deposit in the gauge exactly when its owner's slot in the gauge is empty. -/
def SlotMatches (state : State) (event : Event) : Prop :=
  match event.call with
  | .deposit denom veId _ => state.store.getDepositedAmountByUser ⟨denom, true⟩ veId = 0 ↔
      state.store.getUserVeIdByAddress ⟨denom, true⟩ (event.env.owner veId) = Model.Ve.emptyVeId
  | _ => True

section Step

variable {moduleAddress : String → Address} {env : Env} {denom : Denom} {veId : ℕ} {amount : ℤ} {state next : State}

theorem Sound.same (sound : Sound before) (same : SameDeposits before after) : Sound after where
  nonneg denom ve fits := by
    rw [Store.getDepositedAmountByUser, same.deposited]
    exact sound.nonneg denom ve fits
  finite ve fits := by
    rw [depositedGauges_congr same]
    exact sound.finite ve fits

theorem Sound.moved (sound : Sound before) (fits : veId < 2 ^ 64) (moved : Moved base veId amount before after)
    (covered : base.isGauge = true → 0 ≤ before.getDepositedAmountByUser base veId + amount) : Sound after where
  nonneg denom ve veFits := by
    rw [moved.deposited _ ve veFits]
    split
    · next here =>
      obtain ⟨rfl, rfl⟩ := here
      exact covered rfl
    · rw [add_zero]
      exact sound.nonneg denom ve veFits
  finite ve veFits := by
    by_cases other : base.isGauge = false ∨ ve ≠ veId
    · rw [depositedGauges_other moved veFits other]
      exact sound.finite ve veFits
    · rw [not_or, not_not, Bool.not_eq_false] at other
      obtain ⟨isGauge, rfl⟩ := other
      obtain ⟨denom, _⟩ := base
      cases isGauge
      rw [depositedGauges_moved moved fits]
      split
      · exact (sound.finite ve veFits).insert denom
      · exact (sound.finite ve veFits).sdiff

theorem counted_same (same : SameDeposits state.store next.store) (attached : next.veAttached = state.veAttached)
    (counted : Counted state) : Counted next := by
  intro ve fits
  rw [attached, depositedGauges_congr same]
  exact counted ve fits

/-- A deposit keeps the count exactly when it is the first of the ve and of its owner, or of neither. -/
theorem deposit_counted_iff (fits : veId < 2 ^ 64) (positive : 0 < amount) (sound : Sound state.store)
    (counted : Counted state) (ok : deposit moduleAddress env ⟨denom, true⟩ state veId amount = .ok next) :
    Counted next ↔ (state.store.getDepositedAmountByUser ⟨denom, true⟩ veId = 0 ↔
      state.store.getUserVeIdByAddress ⟨denom, true⟩ (env.owner veId) = Model.Ve.emptyVeId) := by
  have moved := (deposit_shifted rfl fits ok).moved
  have nonneg := sound.nonneg denom veId fits
  have gauges := depositedGauges_moved moved fits
  rw [if_pos (by omega)] at gauges
  have before := counted veId fits
  -- the other ves are not concerned
  have only : Counted next ↔ next.veAttached veId = (insert denom (depositedGauges state.store veId)).ncard := by
    rw [← gauges]
    refine ⟨fun counted => counted veId fits, fun here ve veFits => ?_⟩
    by_cases same : ve = veId
    · rw [same]
      exact here
    · rw [depositedGauges_other moved veFits (.inr same), deposit_veAttached ok, ← counted ve veFits]
      split
      · exact Function.update_of_ne same ..
      · rfl
  rw [only, deposit_veAttached ok]
  by_cases first : state.store.getDepositedAmountByUser ⟨denom, true⟩ veId = 0
  · have fresh : denom ∉ depositedGauges state.store veId := by simp [depositedGauges, first]
    rw [Set.ncard_insert_of_notMem fresh (sound.finite veId fits), ← before]
    split_ifs with slot <;> simp [first, slot]
  · have present : denom ∈ depositedGauges state.store veId := by
      rw [depositedGauges, Set.mem_ofPred_eq]
      omega
    rw [Set.insert_eq_of_mem present, ← before]
    split_ifs with slot <;> simp [first, slot]

theorem withdraw_counted (fits : veId < 2 ^ 64) (positive : 0 < amount) (counted : Counted state)
    (ok : withdraw moduleAddress env ⟨denom, true⟩ state veId amount = .ok next) :
    Counted next := by
  obtain ⟨enough, shifted⟩ := withdraw_shifted rfl fits ok
  have moved := shifted.moved
  have attached := withdraw_veAttached ok
  have present : denom ∈ depositedGauges state.store veId := by
    rw [depositedGauges, Set.mem_ofPred_eq]
    omega
  intro ve veFits
  by_cases same : ve = veId
  · subst same
    rw [depositedGauges_moved moved fits, ← sub_eq_add_neg]
    split_ifs at attached ⊢ with rest
    · rw [attached, Set.insert_eq_of_mem present]
      exact counted ve fits
    · rw [attached.2, Function.update_self, Set.ncard_sdiff_singleton_of_mem present, counted ve fits]
  · rw [depositedGauges_other moved veFits (.inr same), ← counted ve veFits]
    split_ifs at attached with rest
    · rw [attached]
    · rw [attached.2, Function.update_of_ne same]

theorem counted_other (isBribe : base.isGauge = false) (moved : Moved base veId amount state.store next.store)
    (attached : next.veAttached = state.veAttached) (counted : Counted state) : Counted next := by
  intro ve fits
  rw [attached, depositedGauges_other moved fits (.inl isBribe)]
  exact counted ve fits

/-- A call keeps the deposits sound, and the count exactly when the slot matches. -/
theorem step_kept (proper : ProperCall event.call) (sound : Sound state.store)
    (ok : step moduleAddress state event = .ok next) :
    Sound next.store ∧ (Counted state → (Counted next ↔ SlotMatches state event)) := by
  obtain ⟨env, call⟩ := event
  cases call with
  | createGauge denom =>
    obtain ⟨_, rfl⟩ := step_createGauge_iff.mp ok
    exact ⟨⟨sound.nonneg, sound.finite⟩, fun counted => iff_of_true counted trivial⟩
  | deposit denom veId amount =>
    obtain ⟨fits, positive⟩ := proper
    obtain ⟨_, ok⟩ := step_deposit_iff.mp ok
    have nonneg := sound.nonneg denom veId fits
    exact ⟨sound.moved fits (deposit_shifted rfl fits ok).moved fun _ => by omega,
      fun counted => deposit_counted_iff fits positive sound counted ok⟩
  | withdraw denom veId amount =>
    obtain ⟨fits, positive⟩ := proper
    obtain ⟨_, ok⟩ := step_withdraw_iff.mp ok
    obtain ⟨enough, shifted⟩ := withdraw_shifted rfl fits ok
    exact ⟨sound.moved fits shifted.moved fun _ => by omega,
      fun counted => iff_of_true (withdraw_counted fits positive counted ok) trivial⟩
  | bribeDeposit denom veId amount =>
    obtain ⟨_, rfl⟩ := step_bribeDeposit_iff.mp ok
    exact ⟨sound.moved proper (bribeDeposit_moved _ _ proper _) nofun,
      fun counted => iff_of_true (counted_other rfl (bribeDeposit_moved _ _ proper _) rfl counted) trivial⟩
  | bribeWithdraw denom veId amount =>
    obtain ⟨_, _, withdrawn, rfl⟩ := step_bribeWithdraw_iff.mp ok
    obtain ⟨_, rfl⟩ := bribeWithdraw_ok withdrawn
    exact ⟨sound.moved proper (bribeDeposit_moved _ _ proper _) nofun,
      fun counted => iff_of_true (counted_other rfl (bribeDeposit_moved _ _ proper _) rfl counted) trivial⟩
  | claimReward base veId =>
    obtain ⟨same, attached⟩ := claimReward_sameDeposits proper (step_claimReward_iff.mp ok).2
    exact ⟨sound.same same, fun counted => iff_of_true (counted_same same attached counted) trivial⟩
  | depositReward base sender rewardDenom amount =>
    obtain ⟨_, ok⟩ := step_depositReward_iff.mp ok
    have same := (touches_depositReward ok).keeps.toSameDeposits
    exact ⟨sound.same same,
      fun counted => iff_of_true (counted_same same (depositReward_veAttached ok) counted) trivial⟩

end Step

/-! ## The panic over attachments -/

/-- The panic of `DecVeAttached`. -/
def detached : Fault := .panic "invalid ve attached number"

section Panics

variable {ctx : Model.Ve.Ctx} {history : Model.Ve.History}

theorem reportPower_avoids (power : Option ℤ) : Avoids detached (Model.Ve.reportPower power) := by
  cases power <;> simp [Model.Ve.reportPower, deref, detached, Avoids, bind, Except.bind, pure, Except.pure]

theorem futurePower_avoids (atTime ti : ℕ) (pointLast : Model.Ve.Checkpoint) :
    Avoids detached (history.futurePower atTime ti pointLast) := by
  have week (timestamp : ℕ) : Avoids detached (Model.Ve.nextRegulatedUnixTime timestamp) := by
    refine Avoids.bind (by simp [Model.Ve.checkRegulatedUnixTime, detached]) fun _ _ => ?_
    exact Avoids.bind (by simp [detached]) fun _ _ => avoids_pure _ _
  fun_induction Model.Ve.History.futurePower history atTime ti pointLast with
  | case1 ti pointLast ih =>
    refine (week ti).bind fun _ _ => ?_
    dsimp only
    split
    · exact avoids_pure _ _
    · next more => exact ih more

theorem getTotalVotingPower_avoids (atTime : ℕ) (atBlock : ℤ) :
    Avoids detached (Model.Ve.getTotalVotingPower ctx history atTime atBlock) := by
  unfold Model.Ve.getTotalVotingPower
  split_ifs
  · exact reportPower_avoids _
  · exact (futurePower_avoids _ _ _).bind fun _ _ => reportPower_avoids _
  · exact reportPower_avoids _
  · exact reportPower_avoids _

theorem getVotingPower_avoids (veId atTime : ℕ) (atBlock : ℤ) :
    Avoids detached (Model.Ve.getVotingPower ctx history veId atTime atBlock) := by
  unfold Model.Ve.getVotingPower
  split_ifs <;> exact reportPower_avoids _

theorem quo_avoids (left right : ℤ) : Avoids detached (Model.Ve.quo left right) := by
  unfold Model.Ve.quo
  split <;> simp [detached]

theorem deriveAmountForUser_avoids (env : Env) (store : Store) (base : Base) (veId : ℕ) :
    Avoids detached (deriveAmountForUser env store base veId) := by
  have adjusted (totalDeposited totalPower : ℤ) :
      Avoids detached (adjustedTickets env totalDeposited veId totalPower) := by
    unfold adjustedTickets
    split
    · refine (getVotingPower_avoids _ _ _).bind fun _ _ => ?_
      exact (quo_avoids _ _).bind fun _ _ => avoids_pure _ _
    · exact avoids_pure _ _
  have tickets : Avoids detached (derivedTickets env store base veId) := by
    unfold derivedTickets
    split
    · exact avoids_pure _ _
    · refine (getTotalVotingPower_avoids _ _).bind fun _ _ => ?_
      exact (adjusted _ _).bind fun _ _ => avoids_pure _ _
  unfold deriveAmountForUser
  split
  · exact avoids_pure _ _
  · exact tickets.bind fun _ _ => avoids_pure _ _

end Panics

/-- A withdrawal does not find a ve with a deposit that is not attached. -/
theorem withdraw_avoids (positive : 0 < amount)
    (attached : 0 < state.store.getDepositedAmountByUser ⟨denom, true⟩ veId → state.veAttached veId ≠ 0) :
    Avoids detached (withdraw moduleAddress env ⟨denom, true⟩ state veId amount) := by
  refine Avoids.bind (by simp [detached]) fun _ enough => ?_
  rw [require_ok_iff, not_lt] at enough
  refine Avoids.bind ?_ fun left _ => ?_
  · unfold State.leave
    split
    · exact avoids_pure _ _
    · refine Avoids.bind ?_ fun _ _ => avoids_pure _ _
      rw [avoids_require]
      exact fun _ => attached (by omega)
  · refine (newCoin_avoids (by decide) _ _).bind fun coin _ => ?_
    refine (newCoins_avoids (by simp) _).bind fun coins _ => ?_
    refine (sendCoins_avoids _ _ _ _ _).bind fun bank _ => ?_
    exact (deriveAmountForUser_avoids _ _ _ _).bind fun _ _ => avoids_pure _ _

/-! ## Runs -/

/-- Attachments follow deposits: a ve with a deposit can neither be sent nor merged away nor withdrawn, and no withdrawal
from a gauge stops over attachments. -/
structure Tracked (moduleAddress : String → Address) (state : State) : Prop where
  counted : Counted state
  guarded : ∀ ve < 2 ^ 64, ∀ denom, 0 < state.store.getDepositedAmountByUser ⟨denom, true⟩ ve →
    ∀ veState : Model.Ve.State, veState.store.veAttached = state.veAttached →
      (∀ msg next, msg.veId = ve → Model.Ve.send veState.store msg ≠ .ok next) ∧
      (∀ ctx msg next, msg.fromVeId = ve → Model.Ve.merge ctx veState msg ≠ .ok next) ∧
      ∀ ctx msg next, msg.veId = ve → Model.Ve.withdraw ctx veState msg ≠ .ok next
  noPanic : ∀ env denom, ∀ ve < 2 ^ 64, ∀ amount > 0,
    withdraw moduleAddress env ⟨denom, true⟩ state ve amount ≠ .error detached

theorem Counted.attached (counted : Counted state) (sound : Sound state.store) {ve : ℕ} (fits : ve < 2 ^ 64)
    (positive : 0 < state.store.getDepositedAmountByUser ⟨denom, true⟩ ve) : state.veAttached ve ≠ 0 := by
  rw [counted ve fits]
  exact Set.ncard_ne_zero_of_mem (show denom ∈ depositedGauges state.store ve from positive) (sound.finite ve fits)

theorem Counted.tracked (sound : Sound state.store) (counted : Counted state) : Tracked moduleAddress state where
  counted := counted
  guarded ve fits denom positive veState same := by
    have attached := counted.attached sound fits positive
    rw [← same] at attached
    have refused : ∀ result, veState.store.checkVeAttached ve ≠ .ok result := by
      simp [Model.Ve.Store.checkVeAttached, attached]
    refine ⟨?_, ?_, ?_⟩
    · rintro msg next rfl sent
      simp only [Model.Ve.send, bind_ok_iff] at sent
      obtain ⟨_, check, _⟩ := sent
      exact refused _ check
    · rintro ctx msg next rfl merged
      simp only [Model.Ve.merge, bind_ok_iff] at merged
      obtain ⟨_, _, _, _, _, check, _⟩ := merged
      exact refused _ check
    · rintro ctx msg next rfl withdrawn
      simp only [Model.Ve.withdraw, bind_ok_iff] at withdrawn
      obtain ⟨_, _, _, check, _⟩ := withdrawn
      exact refused _ check
  noPanic env denom ve fits amount positive := withdraw_avoids positive fun some => counted.attached sound fits some

theorem depositedGauges_genesis (bank : Bank) (ve : ℕ) : depositedGauges (genesis bank).store ve = ∅ := by
  ext denom
  simp [depositedGauges, genesis, Store.empty, Store.getDepositedAmountByUser]

theorem sound_genesis (bank : Bank) : Sound (genesis bank).store := by
  refine ⟨fun _ _ _ => le_rfl, fun ve _ => ?_⟩
  rw [depositedGauges_genesis]
  exact Set.finite_empty

theorem counted_genesis (bank : Bank) : Counted (genesis bank) := by
  intro ve _
  rw [depositedGauges_genesis, Set.ncard_empty]
  rfl

section Run

variable (moduleAddress : String → Address) (bank : Bank) {events : List Event}
  (proper : ∀ event ∈ events, ProperCall event.call)
include proper

theorem run_sound : Sound (run moduleAddress bank events).store :=
  replay_invariant (fun state => Sound state.store) (fun event => ProperCall event.call)
    (fun _ _ _ held proper ok => (step_kept proper held ok).1) (sound_genesis bank) proper

theorem run_counted_iff :
    (∀ before after, events = before ++ after →
      Sound (run moduleAddress bank before).store ∧ Counted (run moduleAddress bank before)) ↔
      Throughout (step moduleAddress)
        (fun state event => Succeeds (step moduleAddress) state event → SlotMatches state event)
        (genesis bank) events := by
  apply replay_exact_of (fun state => Sound state.store ∧ Counted state) (fun event => ProperCall event.call)
  · rintro state event next ⟨sound, counted⟩ proper ok
    obtain ⟨kept, exactly⟩ := step_kept proper sound ok
    rw [← exactly counted]
    exact and_iff_right kept
  · exact ⟨sound_genesis bank, counted_genesis bank⟩
  · exact proper

/-- Attachments follow deposits throughout a run exactly when every deposit finds the owner's slot as the ve's deposit
is. -/
theorem attachments_tracked_iff :
    (∀ before after, events = before ++ after → Tracked moduleAddress (run moduleAddress bank before)) ↔
      Throughout (step moduleAddress)
        (fun state event => Succeeds (step moduleAddress) state event → SlotMatches state event)
        (genesis bank) events := by
  rw [← run_counted_iff moduleAddress bank proper]
  constructor
  · intro tracked before after whole
    have sound := run_sound moduleAddress bank fun event inside =>
      proper event (by rw [whole]; exact List.mem_append_left after inside)
    exact ⟨sound, (tracked before after whole).counted⟩
  · intro kept before after whole
    obtain ⟨sound, counted⟩ := kept before after whole
    exact counted.tracked sound

end Run

/-- One account owns two ves and deposits with both of them. -/
def twoVes : List Event :=
  [⟨sampleEnv, .createGauge "abc"⟩, ⟨sampleEnv, .deposit "abc" 1 100⟩, ⟨sampleEnv, .deposit "abc" 2 100⟩]

/-- The second ve has a deposit but is not attached, and its deposit cannot be withdrawn. -/
theorem second_ve_not_attached :
    let state := run samplePools ⟨fun _ _ => 604800, fun _ => 604800⟩ twoVes
    state.veAttached 2 = 0 ∧ state.store.getDepositedAmountByUser ⟨"abc", true⟩ 2 = 100 ∧
      withdraw samplePools sampleEnv ⟨"abc", true⟩ state 2 100 = .error detached ∧ ¬ Tracked samplePools state := by
  intro state
  have stuck : state.veAttached 2 = 0 ∧ state.store.getDepositedAmountByUser ⟨"abc", true⟩ 2 = 100 := by decide +kernel
  have panics : withdraw samplePools sampleEnv ⟨"abc", true⟩ state 2 100 = .error detached := by
    have failed : (withdraw samplePools sampleEnv ⟨"abc", true⟩ state 2 100).map (fun _ => ()) = .error detached := by
      decide +kernel
    generalize withdraw samplePools sampleEnv ⟨"abc", true⟩ state 2 100 = outcome at failed ⊢
    cases outcome with
    | error fault => exact congrArg _ (Except.error.inj failed)
    | ok next => cases failed
  exact ⟨stuck.1, stuck.2, panics, fun tracked => tracked.noPanic sampleEnv "abc" 2 (by decide) 100 (by decide) panics⟩

/-- A ve deposits twice into one gauge and once into another, and withdraws from the first. -/
def twoGauges : List Event :=
  [⟨sampleEnv, .createGauge "abc"⟩, ⟨sampleEnv, .createGauge "abd"⟩, ⟨sampleEnv, .deposit "abc" 1 100⟩,
    ⟨sampleEnv, .deposit "abc" 1 50⟩, ⟨sampleEnv, .deposit "abd" 1 30⟩, ⟨sampleEnv, .withdraw "abc" 1 150⟩]

/-- Two gauges are attached before the withdrawal, and one after it. -/
theorem attachments_tracked_sample :
    let bank : Bank := ⟨fun _ _ => 604800, fun _ => 604800⟩
    (run samplePools bank (twoGauges.take 5)).veAttached 1 = 2 ∧ (run samplePools bank twoGauges).veAttached 1 = 1 ∧
      Tracked samplePools (run samplePools bank twoGauges) := by
  refine ⟨by decide +kernel, by decide +kernel, ?_⟩
  refine (attachments_tracked_iff samplePools _ (by simp [twoGauges, ProperCall])).mpr ?_ _ [] (List.append_nil _).symm
  refine throughout_cons (fun _ => trivial) (throughout_cons (fun _ => trivial) (throughout_cons (fun _ => ?_)
    (throughout_cons (fun _ => ?_) (throughout_cons (fun _ => ?_) (throughout_cons (fun _ => trivial)
      (throughout_nil _ _ _))))))
  all_goals
    simp only [SlotMatches]
    decide +kernel

end Rotofury.Soundness.Gauge
