import Rotofury.Soundness.Erc20.Agreement

/-! # Transfers in the EVM

When the hook runs, the contracts have already moved the tokens. It repeats each transfer through the application's bank
keeper, which moves the coins in the bank and the tokens in the contract once more. So the contracts end with twice the net
change of the transaction and the bank with the net change itself.
-/

namespace Rotofury.Soundness.Erc20

open Model.Sdk Model.App Model.Erc20 Except

variable {contract sender recipient : Address} {amount : ℕ} {denom : Denom} {log : Log} {logs : List Log}

/-- A transfer in a contract. -/
structure Transfer where
  contract : Address
  sender : Address
  recipient : Address
  amount : ℕ
deriving DecidableEq, Repr

/-- The contracts after the transfers of a transaction. -/
def transferAll (tokens : Tokens) (transfers : List Transfer) : Except Fault Tokens :=
  transfers.foldlM (fun tokens transfer =>
    tokens.call transfer.contract transfer.sender (.transfer transfer.recipient transfer.amount)) tokens

/-- The entry of the receipt for a transfer. -/
def Logged (world : World) (log : Log) (transfer : Transfer) : Prop :=
  log.address = transfer.contract ∧ ∃ eventID sender recipient more others,
    log.topics = eventID :: sender :: recipient :: more ∧ addressOfTopic sender = transfer.sender ∧
      addressOfTopic recipient = transfer.recipient ∧ world.eventByID eventID = some erc20EventTransfer ∧
      world.unpack erc20EventTransfer log.data = some ((transfer.amount : ℤ) :: others)

/-- What one transfer adds to an account in a contract. -/
def Transfer.gain (transfer : Transfer) (contract account : Address) : ℤ :=
  if contract = transfer.contract then Erc20.gain (some transfer.sender) (some transfer.recipient) transfer.amount account else 0

/-- What a transaction adds to an account in a contract. -/
def netGain (transfers : List Transfer) (contract account : Address) : ℤ :=
  (transfers.map fun transfer => transfer.gain contract account).sum

variable {world : World} {state next : State} {tokens final : Tokens} {transfer : Transfer} {transfers : List Transfer}

theorem Transfer.gain_of_zero (zero : transfer.amount = 0) (contract account : Address) :
    transfer.gain contract account = 0 := by
  simp [Transfer.gain, zero]

/-! ## The transaction -/

/-- A transfer goes through when it is covered and between accounts. -/
theorem transfer_succeeds_iff :
    (∃ final, tokens.call contract sender (.transfer recipient amount) = .ok final) ↔
      sender ≠ 0 ∧ recipient ≠ 0 ∧ amount ≤ tokens.balanceOf contract sender := by
  simp only [Tokens.call, Tokens.debit, Tokens.credit, ok_iffs]
  constructor
  · rintro ⟨final, _, ⟨_, isSender, _, covered, rfl⟩, _, isRecipient, rfl⟩
    exact ⟨isSender, isRecipient, covered⟩
  · rintro ⟨isSender, isRecipient, covered⟩
    exact ⟨_, _, ⟨(), isSender, (), covered, rfl⟩, (), isRecipient, rfl⟩

theorem transferAll_ok (ran : transferAll tokens transfers = .ok final) (contract account : Address) :
    (final.balanceOf contract account : ℤ) = tokens.balanceOf contract account + netGain transfers contract account := by
  induction transfers generalizing tokens with
  | nil =>
    cases ran
    simp [netGain]
  | cons transfer rest ih =>
    rw [transferAll, List.foldlM_cons, bind_ok_iff] at ran
    obtain ⟨middle, first, ran⟩ := ran
    rw [ih ran, call_ok first, netGain, netGain, List.map_cons, List.sum_cons, Transfer.gain, parties]
    ring

/-! ## One entry of the receipt -/

section

variable (registry : Registry state.store)
include registry

/-- The application's bank keeper moves a coin that a contract mirrors in both ledgers. -/
theorem bankSendCoins_mirrored (mirrors : Mirrors state.store denom contract) (positive : 0 < amount) :
    Model.Bank.sendCoins world state sender recipient [⟨denom, amount⟩] = (do
      let bank ← state.bank.sendCoins sender recipient [⟨denom, amount⟩]
      let tokens ← state.tokens.call contract sender (.transfer recipient amount)
      pure { state with bank := bank, tokens := tokens }) := by
  obtain ⟨notGas, notToken, notHex⟩ := registry.native denom contract mirrors
  have registered := registry.mirrors_registered mirrors
  obtain ⟨pair, isPair, _, rfl⟩ := mirrors
  have split : splitCoinsByErc20 [⟨denom, amount⟩] = ([⟨denom, amount⟩], []) := by
    simp [splitCoinsByErc20, insertCoin, notToken, positive.ne']
  have moves : state.store.nativeTransfers [⟨denom, amount⟩] = .ok [(pair.erc20Address, (amount : ℤ))] := by
    simp [Store.nativeTransfers, notGas, (pairOfDenom_ok_iff notHex).mpr isPair]
  simp [Model.Bank.sendCoins, split, Bank.sendCoins, sendCoins, moves, tokenTransfers, moveTokens, callEVM, registered,
    uint256]

variable (mirrors : Mirrors state.store denom transfer.contract)
include mirrors

variable (isSender : transfer.sender ≠ 0)
include isSender

variable (isRecipient : transfer.recipient ≠ 0)
include isRecipient

variable (logged : Logged world log transfer)
include logged

/-- The hook repeats a transfer that is not empty. -/
theorem processLog_logged : processLog world state log = if transfer.amount = 0 then .ok state
      else Model.Bank.sendCoins world state transfer.sender transfer.recipient [⟨denom, transfer.amount⟩] := by
  obtain ⟨address, eventID, sender, recipient, more, others, topics, ofSender, ofRecipient, event, unpacked⟩ := logged
  obtain ⟨pair, isPair, owner, contract⟩ := mirrors
  obtain ⟨denom_eq, known⟩ := registry.isPair_contract isPair
  have found : pairOfContract world state log.address = .ok (some (state, pair)) := by
    obtain ⟨id, _, isPair⟩ := isPair
    rw [registry.keyed id pair isPair, contract, ← address] at known
    simp only [pairOfContract, known, Store.getTokenPair, isPair]
    rfl
  have amount : transferAmount world eventID log.data =
      if 0 < (transfer.amount : ℤ) then some (transfer.amount : ℤ) else none := by
    simp only [transferAmount, event, unpacked, ne_eq, not_true, if_false]
  simp only [processLog, topics]
  rw [amount]
  by_cases zero : transfer.amount = 0
  · rw [if_neg (by omega), if_pos zero]
    rfl
  · rw [if_pos (by omega), if_neg zero]
    simp only [found, ok_bind, owner, ne_eq, not_true, if_false, repeatTransfer, ofSender, ofRecipient, isSender,
      isRecipient, false_and, and_false, not_false_eq_true, and_self, if_true, denom_eq]

/-- A transfer is repeated in both ledgers. -/
theorem processLog_ok (ok : processLog world state log = .ok next) :
    next.store = state.store ∧ ∀ other contract, Mirrors state.store other contract → ∀ account,
      (next.tokens.balanceOf contract account : ℤ) = state.tokens.balanceOf contract account + transfer.gain contract account ∧
        (next.bank.balance account other : ℤ) = state.bank.balance account other + transfer.gain contract account := by
  rw [processLog_logged registry mirrors isSender isRecipient logged] at ok
  split at ok
  · next zero =>
    cases ok
    refine ⟨rfl, fun other contract _ account => ?_⟩
    rw [Transfer.gain_of_zero zero, add_zero, add_zero]
    exact ⟨rfl, rfl⟩
  · next positive =>
    rw [bankSendCoins_mirrored registry mirrors (Nat.pos_of_ne_zero positive)] at ok
    simp only [ok_iffs] at ok
    obtain ⟨bank, sent, tokens, called, rfl⟩ := ok
    refine ⟨rfl, fun other contract otherMirrors account => ⟨?_, ?_⟩⟩
    · exact call_ok called contract account
    · rw [(Bank.sendCoins_ok sent).1, onAccount_eq_gain, sub_eq_add_neg, neg_onAccount_eq_gain, add_comm (gain none _ _ _),
        ← gain_split, amountOf_cons, amountOf_nil, add_zero, Transfer.gain, onDenom]
      by_cases same : denom = other
      · subst same
        rw [if_pos rfl, if_pos (otherMirrors.unique mirrors)]
      · have elsewhere : contract ≠ transfer.contract := by
          rintro rfl
          exact same (registry.mirrors_denom_unique mirrors otherMirrors)
        rw [if_neg same, if_neg elsewhere, gain_zero]

/-- A transfer that both ledgers cover is repeated. -/
theorem processLog_succeeds (inContract : transfer.amount ≤ state.tokens.balanceOf transfer.contract transfer.sender)
    (inBank : transfer.amount ≤ state.bank.balance transfer.sender denom) :
    ∃ next, processLog world state log = .ok next := by
  rw [processLog_logged registry mirrors isSender isRecipient logged]
  split
  · exact ⟨state, rfl⟩
  · next positive =>
    have valid : validCoins [⟨denom, transfer.amount⟩] := by
      simp [validCoins, Nat.pos_of_ne_zero positive]
    have covered : ∀ other, amountOf [⟨denom, transfer.amount⟩] other ≤ state.bank.balance transfer.sender other := by
      intro other
      rw [amountOf_cons, amountOf_nil, add_zero, onDenom]
      split
      · next same =>
        subst same
        exact Int.ofNat_le.mpr inBank
      · exact Int.natCast_nonneg _
    obtain ⟨bank, sent⟩ := Bank.sendCoins_of_covered valid covered transfer.recipient
    obtain ⟨tokens, called⟩ := transfer_succeeds_iff.mpr ⟨isSender, isRecipient, inContract⟩
    rw [bankSendCoins_mirrored registry mirrors (Nat.pos_of_ne_zero positive), sent, ok_bind, called, ok_bind]
    exact ⟨_, rfl⟩

end

/-! ## The receipt -/

theorem transferAll_parties (ran : transferAll tokens transfers = .ok final) :
    ∀ transfer ∈ transfers, transfer.sender ≠ 0 ∧ transfer.recipient ≠ 0 := by
  induction transfers generalizing tokens with
  | nil => simp
  | cons transfer rest ih =>
    rw [transferAll, List.foldlM_cons, bind_ok_iff] at ran
    obtain ⟨middle, first, ran⟩ := ran
    obtain ⟨isSender, isRecipient, _⟩ := transfer_succeeds_iff.mp ⟨middle, first⟩
    exact List.forall_mem_cons.mpr ⟨⟨isSender, isRecipient⟩, ih ran⟩

/-- Every transfer is in a contract that mirrors a coin. -/
def Mirrored (store : Store) (transfers : List Transfer) : Prop :=
  ∀ transfer ∈ transfers, ∃ denom, Mirrors store denom transfer.contract

/-- The hook adds the net change of the transaction to both ledgers. -/
theorem postTxProcessing_ok (registry : Registry state.store) (mirrored : Mirrored state.store transfers)
    (parties : ∀ transfer ∈ transfers, transfer.sender ≠ 0 ∧ transfer.recipient ≠ 0)
    (logged : List.Forall₂ (Logged world) logs transfers) (ok : postTxProcessing world state logs = .ok next) :
    next.store = state.store ∧ ∀ denom contract, Mirrors state.store denom contract → ∀ account,
      (next.tokens.balanceOf contract account : ℤ) = state.tokens.balanceOf contract account + netGain transfers contract account ∧
        (next.bank.balance account denom : ℤ) = state.bank.balance account denom + netGain transfers contract account := by
  induction logged generalizing state with
  | nil =>
    cases ok
    exact ⟨rfl, by simp [netGain]⟩
  | @cons log transfer logs rest head tail ih =>
    obtain ⟨⟨denom, mirrors⟩, restMirrored⟩ := List.forall_mem_cons.mp mirrored
    obtain ⟨⟨isSender, isRecipient⟩, restParties⟩ := List.forall_mem_cons.mp parties
    rw [postTxProcessing, List.foldlM_cons, bind_ok_iff] at ok
    obtain ⟨middle, first, ok⟩ := ok
    obtain ⟨sameStore, moved⟩ := processLog_ok registry mirrors isSender isRecipient head first
    rw [← sameStore] at registry restMirrored moved ⊢
    obtain ⟨restStore, restMoved⟩ := ih registry restMirrored restParties ok
    refine ⟨restStore, fun other contract otherMirrors account => ?_⟩
    obtain ⟨inContract, inBank⟩ := moved other contract otherMirrors account
    obtain ⟨restInContract, restInBank⟩ := restMoved other contract otherMirrors account
    rw [restInContract, restInBank, inContract, inBank, netGain, netGain, List.map_cons, List.sum_cons]
    exact ⟨add_assoc _ _ _, add_assoc _ _ _⟩

/-- From ledgers that agree with what the contracts had before the transaction, the hook goes through. -/
theorem postTxProcessing_succeeds (registry : Registry state.store) (mirrored : Mirrored state.store transfers)
    (ran : transferAll tokens transfers = .ok final) (logged : List.Forall₂ (Logged world) logs transfers)
    (before : ∀ denom contract, Mirrors state.store denom contract → ∀ account,
      state.tokens.balanceOf contract account = tokens.balanceOf contract account) (agrees : Agrees state) :
    ∃ next, postTxProcessing world state logs = .ok next := by
  -- the repeated transfers keep step with those of the transaction
  induction logged generalizing state tokens with
  | nil => exact ⟨state, rfl⟩
  | @cons log transfer logs rest head tail ih =>
    obtain ⟨⟨denom, mirrors⟩, restMirrored⟩ := List.forall_mem_cons.mp mirrored
    rw [transferAll, List.foldlM_cons, bind_ok_iff] at ran
    obtain ⟨moved, first, ran⟩ := ran
    obtain ⟨isSender, isRecipient, covered⟩ := transfer_succeeds_iff.mp ⟨moved, first⟩
    rw [← before denom _ mirrors] at covered
    obtain ⟨middle, repeated⟩ := processLog_succeeds registry mirrors isSender isRecipient head covered
      (agrees denom _ mirrors _ ▸ covered)
    obtain ⟨sameStore, step⟩ := processLog_ok registry mirrors isSender isRecipient head repeated
    rw [postTxProcessing, List.foldlM_cons, repeated, ok_bind]
    rw [← sameStore] at registry restMirrored
    refine ih registry restMirrored ran (fun other contract otherMirrors account => ?_)
      (fun other contract otherMirrors account => ?_)
    · rw [sameStore] at otherMirrors
      have inContract := (step other contract otherMirrors account).1
      have inTransaction := call_ok first contract account
      rw [before other contract otherMirrors] at inContract
      exact Int.ofNat.inj (inContract.trans inTransaction.symm)
    · rw [sameStore] at otherMirrors
      obtain ⟨inContract, inBank⟩ := step other contract otherMirrors account
      rw [agrees other contract otherMirrors] at inContract
      exact Int.ofNat.inj (inContract.trans inBank.symm)

/-- The hook succeeds and leaves ledgers that agree exactly when the transaction as a whole changes no balance. -/
theorem hook_keeps_agreement_iff {world : World} {state : State} (registry : Registry state.store) (agrees : Agrees state)
    {transfers : List Transfer} (mirrored : Mirrored state.store transfers) {tokens : Tokens}
    (ran : transferAll state.tokens transfers = .ok tokens) {logs : List Log}
    (logged : List.Forall₂ (Logged world) logs transfers) :
    ((∃ next, postTxProcessing world { state with tokens := tokens } logs = .ok next) ∧
      ∀ next, postTxProcessing world { state with tokens := tokens } logs = .ok next → Agrees next) ↔
    ∀ denom contract, Mirrors state.store denom contract → ∀ account, netGain transfers contract account = 0 := by
  have registry : Registry { state with tokens := tokens : State }.store := registry
  have parties := transferAll_parties ran
  constructor
  · rintro ⟨⟨next, success⟩, agreed⟩ denom contract mirrors account
    obtain ⟨sameStore, moved⟩ := postTxProcessing_ok registry mirrored parties logged success
    obtain ⟨inContract, inBank⟩ := moved denom contract mirrors account
    have inTransaction := transferAll_ok ran contract account
    have same := agreed next success denom contract (sameStore ▸ mirrors) account
    have start := agrees denom contract mirrors account
    dsimp only at inContract inBank
    omega
  · intro unchanged
    have sameTokens : ∀ denom contract, Mirrors state.store denom contract → ∀ account,
        tokens.balanceOf contract account = state.tokens.balanceOf contract account := by
      intro denom contract mirrors account
      have inTransaction := transferAll_ok ran contract account
      rw [unchanged denom contract mirrors account, add_zero] at inTransaction
      exact Int.ofNat.inj inTransaction
    have stillAgrees : Agrees { state with tokens := tokens } := fun denom contract mirrors account =>
      (sameTokens denom contract mirrors account).trans (agrees denom contract mirrors account)
    refine ⟨postTxProcessing_succeeds registry mirrored ran logged sameTokens stillAgrees, fun next success => ?_⟩
    obtain ⟨sameStore, moved⟩ := postTxProcessing_ok registry mirrored parties logged success
    intro denom contract mirrors account
    rw [sameStore] at mirrors
    obtain ⟨inContract, inBank⟩ := moved denom contract mirrors account
    rw [stillAgrees denom contract mirrors] at inContract
    exact Int.ofNat.inj (inContract.trans inBank.symm)

/-! ## A sample -/

/-- The entry for a transfer in the sample's contract. -/
def sampleLog (sender recipient : BitVec 256) (amount : ℕ) : Log := ⟨1, [1, sender, recipient], List.replicate amount 0⟩

theorem sampleLog_logged (sender recipient : BitVec 256) (amount : ℕ) :
    Logged sampleWorld (sampleLog sender recipient amount) ⟨1, addressOfTopic sender, addressOfTopic recipient, amount⟩ :=
  ⟨rfl, 1, sender, recipient, [], [], rfl, rfl, rfl, rfl, by simp [sampleWorld, sampleLog]⟩

theorem sample_mirrored {transfers : List Transfer} (inContract : ∀ transfer ∈ transfers, transfer.contract = 1) :
    Mirrored sampleState.store transfers :=
  fun transfer member => ⟨"uusm", sample_mirrors.mpr ⟨rfl, inContract transfer member⟩⟩

/-- Tokens that are sent back in the same transaction. -/
theorem hook_keeps_agreement_iff_sample : ∃ tokens,
    transferAll sampleState.tokens [⟨1, 161, 176, 4⟩, ⟨1, 176, 161, 4⟩] = .ok tokens ∧
      ∃ next, postTxProcessing sampleWorld { sampleState with tokens := tokens }
        [sampleLog 161 176 4, sampleLog 176 161 4] = .ok next ∧ Agrees next := by
  have whole := (hook_keeps_agreement_iff sampleState_initial.registry sampleState_initial.agrees
    (sample_mirrored (by decide)) rfl
    (.cons (sampleLog_logged 161 176 4) (.cons (sampleLog_logged 176 161 4) .nil))).mpr (by
      intro denom contract mirrors account
      obtain ⟨rfl, rfl⟩ := sample_mirrors.mp mirrors
      simp only [netGain, Transfer.gain, gain, List.map_cons, List.map_nil, List.sum_cons, List.sum_nil, if_true]
      ring)
  obtain ⟨⟨next, success⟩, agreed⟩ := whole
  exact ⟨_, rfl, next, success, agreed next success⟩

/-- A transfer of four tokens moves eight, and one of all ten is refused by the hook. -/
theorem repeated_transfer_sample : Registry sampleState.store ∧ Agrees sampleState ∧ Mirrors sampleState.store "uusm" 1 ∧
    Logged sampleWorld (sampleLog 161 176 4) ⟨1, 161, 176, 4⟩ ∧ Logged sampleWorld (sampleLog 161 176 10) ⟨1, 161, 176, 10⟩ ∧
    (∃ tokens, transferAll sampleState.tokens [⟨1, 161, 176, 4⟩] = .ok tokens ∧
      ∃ next, postTxProcessing sampleWorld { sampleState with tokens := tokens } [sampleLog 161 176 4] = .ok next ∧
        next.tokens.balanceOf 1 176 = 8 ∧ next.bank.balance 176 "uusm" = 4 ∧ ¬ Agrees next) ∧
    ∃ tokens, transferAll sampleState.tokens [⟨1, 161, 176, 10⟩] = .ok tokens ∧
      ∃ fault, postTxProcessing sampleWorld { sampleState with tokens := tokens } [sampleLog 161 176 10] = .error fault := by
  have mirrors : Mirrors sampleState.store "uusm" 1 := sample_mirrors.mpr ⟨rfl, rfl⟩
  refine ⟨sampleState_initial.registry, sampleState_initial.agrees, mirrors, sampleLog_logged 161 176 4,
    sampleLog_logged 161 176 10, ⟨_, rfl, _, rfl, by decide, by decide, fun agrees => ?_⟩, _, rfl, _, rfl⟩
  exact absurd (agrees "uusm" 1 mirrors 176) (by decide)

end Rotofury.Soundness.Erc20
