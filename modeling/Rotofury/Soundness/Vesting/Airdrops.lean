import Rotofury.Soundness.Vesting.Payments

/-! # Airdrops are paid exactly once

An airdrop replaces one that is still pending for the same target, while the total counts both. So the total is what is
pending and what was paid exactly as long as no announcement replaces a pending airdrop of some amount. What is minted
stays within the cap, in whatever coin the airdrops were announced.
-/

namespace Rotofury.Soundness.Vesting

open Model.Sdk Model.App Model.Vesting Except Machine

variable {msg : Msg} {ctx : Ctx} {bank : Bank} {book : Book} {airdrop : Airdrop}

/-- What holds in every run. -/
structure Ledger (ctx : Ctx) (bank : Bank) (book : Book) : Prop where
  sound : Sound ctx book.state.store.airdrops
  accepted : book.state.store.airdropTotalAmount = bookTotal book.accepted
  balance : ∀ account denom, (book.state.bank.balance account denom : ℤ) =
    bank.balance account denom + bookSum (given account denom) book.paid
  supply : ∀ denom, (book.state.bank.supply denom : ℤ) =
    bank.supply denom + bookSum (fun entry => onDenom entry.2.denom entry.2.amount denom) book.paid
  bounded : pendingSum (·.2.amount) book.state.store.airdrops + bookTotal book.paid ≤
    book.state.store.airdropTotalAmount
  capped : book.state.store.airdropTotalAmount ≤ max 0 ctx.airdropAmount

theorem ledger_fresh (ctx : Ctx) (team : String) (bank : Bank) : Ledger ctx bank (fresh team bank) where
  sound _ _ found := nomatch found
  accepted := rfl
  balance _ _ := (add_zero _).symm
  supply _ := (add_zero _).symm
  bounded := le_rfl
  capped := le_max_left 0 _

section Step

variable {ctx : Ctx} {bank : Bank} {book next : Book}

theorem step_addAirdrops {msg : MsgAddAirdrops} (ok : step ctx book (.addAirdrops msg) = .ok next) :
    ∃ entries, ReadAll ctx msg.airdrops entries ∧
      next = { book with
        state.store.airdrops := entries.foldl setAirdrop book.state.store.airdrops
        state.store.airdropTotalAmount := book.state.store.airdropTotalAmount + bookTotal (entries.map bookEntry)
        accepted := book.accepted ++ entries.map bookEntry } ∧
      next.state.store.airdropTotalAmount ≤ ctx.airdropAmount := by
  simp only [step, Msg.deliver, ok_iffs] at ok
  obtain ⟨state, ⟨_, _, handled⟩, rfl⟩ := ok
  obtain ⟨entries, read, rfl, capped⟩ := addAirdrops_ok handled
  exact ⟨entries, read, by rw [accepted_of_readAll read], capped⟩

theorem step_executeAirdrops {msg : MsgExecuteAirdrops} (sound : Sound ctx book.state.store.airdrops)
    (ok : step ctx book (.executeAirdrops msg) = .ok next) :
    ∃ batch, Paid book.state next.state batch ∧ FromPending book.state.store.airdrops batch ∧
      next.accepted = book.accepted ∧ next.paid = book.paid ++ batch := by
  simp only [step, Msg.deliver, ok_iffs] at ok
  obtain ⟨state, ⟨_, _, handled⟩, rfl⟩ := ok
  obtain ⟨paid, fromPending⟩ := executeAirdrops_paid sound handled
  exact ⟨_, paid, fromPending, rfl, rfl⟩

theorem step_ledger (held : Ledger ctx bank book) (ok : step ctx book msg = .ok next) :
    Ledger ctx bank next := by
  cases msg with
  | addAirdrops msg =>
    obtain ⟨entries, read, rfl, capped⟩ := step_addAirdrops ok
    refine ⟨sound_foldl held.sound read, ?_, held.balance, held.supply, ?_, capped.trans (le_max_right 0 _)⟩
    · simp only [held.accepted, bookTotal, bookSum_append]
    · have replaced := (replacedTotal_eq_zero_iff held.sound read).1
      have bounded := held.bounded
      simp only [pendingTotal_foldl]
      omega
  | executeAirdrops msg =>
    obtain ⟨batch, paid, _, accepted, recorded⟩ := step_executeAirdrops held.sound ok
    refine ⟨fun target airdrop found => held.sound target airdrop (paid.kept target airdrop found),
      by rw [paid.total, held.accepted, accepted], fun account denom => ?_, fun denom => ?_, ?_,
      paid.total.trans_le held.capped⟩
    · rw [paid.balance, held.balance, recorded, bookSum_append, add_assoc]
    · rw [paid.supply, held.supply, recorded, bookSum_append, add_assoc]
    · have bounded := held.bounded
      rw [paid.pending, paid.total, recorded, bookTotal, bookSum_append]
      rw [bookTotal] at bounded
      omega

/-- The condition on a message that is accepted. -/
def Sparing (ctx : Ctx) (book : Book) : Msg → Prop
  | .addAirdrops msg => Spares ctx book.state.store.airdrops msg.airdrops
  | .executeAirdrops _ => True

/-- The total is what is pending and what was paid. -/
def Split (book : Book) : Prop :=
  book.state.store.airdropTotalAmount = pendingSum (·.2.amount) book.state.store.airdrops + bookTotal book.paid

/-- Whatever is counted, the accepted entries are the pending ones and the paid ones. -/
def Conserved (book : Book) : Prop :=
  ∀ quantity, Vanishes quantity → bookSum quantity book.accepted =
    pendingSum quantity book.state.store.airdrops + bookSum quantity book.paid

variable (held : Ledger ctx bank book)
include held

theorem step_split_iff (split : Split book) (ok : step ctx book msg = .ok next) :
    Split next ↔ Sparing ctx book msg := by
  cases msg with
  | addAirdrops msg =>
    obtain ⟨entries, read, rfl, _⟩ := step_addAirdrops ok
    rw [Sparing, ← (replacedTotal_eq_zero_iff held.sound read).2]
    unfold Split at split ⊢
    simp only [pendingTotal_foldl, split]
    constructor
    · intro equal
      linarith
    · intro nothing
      linarith
  | executeAirdrops msg =>
    obtain ⟨batch, paid, _, _, recorded⟩ := step_executeAirdrops held.sound ok
    refine iff_of_true ?_ trivial
    unfold Split at split ⊢
    rw [paid.total, split, paid.pending, recorded, bookTotal, bookTotal, bookSum_append]
    ring

theorem step_conserved (conserved : Conserved book) (sparing : Sparing ctx book msg) (ok : step ctx book msg = .ok next) :
    Conserved next := by
  intro quantity vanishes
  have before := conserved quantity vanishes
  cases msg with
  | addAirdrops msg =>
    obtain ⟨entries, read, rfl, _⟩ := step_addAirdrops ok
    rw [bookSum_append, before, pendingSum_foldl vanishes read sparing]
    ring
  | executeAirdrops msg =>
    obtain ⟨batch, paid, _, accepted, recorded⟩ := step_executeAirdrops held.sound ok
    rw [accepted, before, paid.pending, recorded, bookSum_append]
    ring

theorem Conserved.split (conserved : Conserved book) : Split book :=
  held.accepted.trans (conserved _ fun _ zero => zero)

end Step

/-- The total counts the accepted entries, and it is what is pending and what was ever paid; once nothing is pending
each account has received what the accepted entries give it. -/
structure PaidOnce (bank : Bank) (book : Book) : Prop where
  accepted : book.state.store.airdropTotalAmount = bookTotal book.accepted
  split : Split book
  received : book.state.store.airdrops = ∅ → ∀ account denom, (book.state.bank.balance account denom : ℤ) =
    bank.balance account denom + bookSum (given account denom) book.accepted

theorem paidOnce_of_conserved (held : Ledger ctx bank book) (conserved : Conserved book) : PaidOnce bank book := by
  refine ⟨held.accepted, conserved.split held, fun done account denom => ?_⟩
  have entries := conserved (given account denom) (vanishes_given account denom)
  rw [done] at entries
  rw [held.balance, entries, pendingSum, AList.total_empty, zero_add]

theorem run_ledger (ctx : Ctx) (team : String) (bank : Bank) (msgs : List Msg) :
    Ledger ctx bank (run ctx team bank msgs) :=
  replay_always (Ledger ctx bank) (fun _ _ _ held ok => step_ledger held ok)
    (ledger_fresh ctx team bank) msgs

/-- The total splits throughout a run exactly when no accepted message replaces a pending airdrop of some amount. -/
theorem split_iff (ctx : Ctx) (team : String) (bank : Bank) (msgs : List Msg) :
    (∀ before after, msgs = before ++ after →
      Ledger ctx bank (run ctx team bank before) ∧ Split (run ctx team bank before)) ↔
      Throughout (step ctx) (fun book msg => Succeeds (step ctx) book msg → Sparing ctx book msg)
        (fresh team bank) msgs := by
  apply replay_exact (fun book => Ledger ctx bank book ∧ Split book) (Sparing ctx)
  · rintro book msg next ⟨held, split⟩ ok
    rw [← step_split_iff held split ok]
    exact and_iff_right (step_ledger held ok)
  · exact ⟨ledger_fresh ctx team bank, rfl⟩

theorem conserved_iff (ctx : Ctx) (team : String) (bank : Bank) (msgs : List Msg) :
    (∀ before after, msgs = before ++ after →
      Ledger ctx bank (run ctx team bank before) ∧ Conserved (run ctx team bank before)) ↔
      Throughout (step ctx) (fun book msg => Succeeds (step ctx) book msg → Sparing ctx book msg)
        (fresh team bank) msgs := by
  apply replay_exact (fun book => Ledger ctx bank book ∧ Conserved book) (Sparing ctx)
  · rintro book msg next ⟨held, conserved⟩ ok
    have after := step_ledger held ok
    constructor
    · rintro ⟨_, later⟩
      exact (step_split_iff held (conserved.split held) ok).mp (later.split after)
    · exact fun sparing => ⟨after, step_conserved held conserved sparing ok⟩
  · exact ⟨ledger_fresh ctx team bank, fun _ _ => rfl⟩

/-- Airdrops are paid once throughout a run exactly when no accepted message replaces a pending airdrop of some
amount. -/
theorem paidOnce_iff (ctx : Ctx) (team : String) (bank : Bank) (msgs : List Msg) :
    (∀ before after, msgs = before ++ after → PaidOnce bank (run ctx team bank before)) ↔
      Throughout (step ctx) (fun book msg => Succeeds (step ctx) book msg → Sparing ctx book msg)
        (fresh team bank) msgs := by
  constructor
  · intro once
    apply (split_iff ctx team bank msgs).mp
    intro before after whole
    exact ⟨run_ledger ctx team bank before, (once before after whole).split⟩
  · intro sparing before after whole
    obtain ⟨held, conserved⟩ := (conserved_iff ctx team bank msgs).mpr sparing before after whole
    exact paidOnce_of_conserved held conserved

def sampleCtx : Ctx := ⟨fun text => if text = "team" then some 1 else if text = "target" then some 2 else none, 100⟩

def emptyBank : Bank := ⟨fun _ _ => 0, fun _ => 0⟩

/-- The team announces one airdrop. -/
def announcement (coin : Coin) : Msg := .addAirdrops ⟨"team", [⟨"target", coin⟩]⟩

def execution : Msg := .executeAirdrops ⟨"team", 10⟩

/-- Two airdrops for one target are counted, but the second replaces the first, which is never paid. -/
theorem replaced_airdrop_unpaid :
    let book := run sampleCtx "team" emptyBank [announcement ⟨"airon", 5⟩, announcement ⟨"airon", 7⟩, execution]
    book.state.store.airdropTotalAmount = 12 ∧ book.state.store.airdrops.entries = [] ∧
      book.state.bank.balance 2 "airon" = 7 ∧ ¬ PaidOnce emptyBank book := by
  intro book
  have unsplit : ¬ Split book := by
    unfold Split
    decide +kernel
  have counted : book.state.store.airdropTotalAmount = 12 ∧ book.state.store.airdrops.entries = [] ∧
      book.state.bank.balance 2 "airon" = 7 := by decide +kernel
  exact ⟨counted.1, counted.2.1, counted.2.2, fun once => unsplit once.split⟩

/-! ## The cap and the currency -/

/-- The native coin in its base unit. Nothing of another coin is native too. -/
def IsNative (coin : Coin) : Prop := coin.amount = 0 ∨ coin.denom = baseDenom

/-- The entry of a message is in one of the two units of the native coin, or of nothing. -/
def Airdrop.InNative (airdrop : Airdrop) : Prop :=
  airdrop.amount.amount = 0 ∨ airdrop.amount.denom = baseDenom ∨ airdrop.amount.denom = displayDenom

theorem isNative_normalized (native : Airdrop.InNative airdrop) :
    IsNative (normalized airdrop.amount) := by
  unfold normalized
  split
  · exact .inr rfl
  · next other => exact native.imp id (Or.resolve_right · other)

/-- The condition on a message that is accepted: its entries are in the native coin. -/
def AllNative : Msg → Prop
  | .addAirdrops msg => ∀ airdrop ∈ msg.airdrops, Airdrop.InNative airdrop
  | .executeAirdrops _ => True

/-- What is pending and what was paid is in the native coin. -/
structure Native (book : Book) : Prop where
  pending : ∀ target airdrop, book.state.store.airdrops.lookup target = some airdrop → IsNative airdrop.amount
  paid : ∀ entry ∈ book.paid, IsNative entry.2

theorem native_foldl {airdrops : List Airdrop} {entries : List (Address × Airdrop)}
    {pending : AList fun _ : Address => Airdrop}
    (native : ∀ target airdrop, pending.lookup target = some airdrop → IsNative airdrop.amount)
    (announced : ∀ airdrop ∈ airdrops, Airdrop.InNative airdrop) (read : ReadAll ctx airdrops entries)
    {target : Address} (found : (entries.foldl setAirdrop pending).lookup target = some airdrop) :
    IsNative airdrop.amount := by
  induction read generalizing pending with
  | nil => exact native target airdrop found
  | @cons announcement entry _ _ first _ ih =>
    obtain ⟨here, announced⟩ := List.forall_mem_cons.mp announced
    refine ih (AList.forall_lookup_insert ?_ native) announced found
    rw [← (read_ok_iff.mp first).2.2]
    exact isNative_normalized here

theorem step_native {next : Book} (held : Ledger ctx bank book) (native : Native book) (announced : AllNative msg)
    (ok : step ctx book msg = .ok next) : Native next := by
  cases msg with
  | addAirdrops msg =>
    obtain ⟨entries, read, rfl, _⟩ := step_addAirdrops ok
    exact ⟨fun target airdrop found => native_foldl native.pending announced read found, native.paid⟩
  | executeAirdrops msg =>
    obtain ⟨batch, paid, fromPending, _, recorded⟩ := step_executeAirdrops held.sound ok
    refine ⟨fun target airdrop found => native.pending target airdrop (paid.kept target airdrop found),
      fun entry inside => ?_⟩
    rw [recorded] at inside
    rcases List.mem_append.mp inside with before | now
    · exact native.paid entry before
    · obtain ⟨airdrop, found, same⟩ := fromPending entry now
      exact same ▸ native.pending entry.1 airdrop found

theorem bookSum_native {entries : List (Address × Coin)} (native : ∀ entry ∈ entries, IsNative entry.2)
    (denom : Denom) :
    bookSum (fun entry => onDenom entry.2.denom entry.2.amount denom) entries =
      onDenom baseDenom (bookTotal entries) denom := by
  induction entries with
  | nil => exact (onDenom_zero baseDenom denom).symm
  | cons entry rest ih =>
    obtain ⟨here, later⟩ := List.forall_mem_cons.mp native
    rw [bookSum_cons, ih later, bookTotal, bookTotal, bookSum_cons, onDenom_add]
    rcases here with nothing | base
    · simp [nothing]
    · rw [base]

/-- Everything minted is in the native coin's base unit, and no more than the cap. -/
structure Respected (ctx : Ctx) (bank : Bank) (book : Book) : Prop where
  paid : ∀ entry ∈ book.paid, IsNative entry.2
  minted : ∀ denom, (book.state.bank.supply denom : ℤ) =
    bank.supply denom + onDenom baseDenom (bookTotal book.paid) denom
  capped : bookTotal book.paid ≤ ctx.airdropAmount

/-- Airdrops respect their currency and their cap in every run in which the accepted entries are in the native coin. -/
theorem airdrops_respected {ctx : Ctx} (nonneg : 0 ≤ ctx.airdropAmount) (team : String) (bank : Bank) {msgs : List Msg}
    (native : Throughout (step ctx) (fun book msg => Succeeds (step ctx) book msg → AllNative msg)
      (fresh team bank) msgs) : Respected ctx bank (run ctx team bank msgs) := by
  have kept : Ledger ctx bank (run ctx team bank msgs) ∧ Native (run ctx team bank msgs) :=
    replay_throughout (fun book => Ledger ctx bank book ∧ Native book) _
      (fun book msg next before announced success =>
        ⟨step_ledger before.1 success, step_native before.1 before.2 (announced ⟨next, success⟩) success⟩)
      ⟨ledger_fresh ctx team bank, nofun, nofun⟩ native
  obtain ⟨held, native⟩ := kept
  refine ⟨native.paid, fun denom => ?_, ?_⟩
  · rw [held.supply, bookSum_native native.paid]
  · have pending : 0 ≤ pendingSum (·.2.amount) (run ctx team bank msgs).state.store.airdrops :=
      AList.total_nonneg fun target airdrop found => (held.sound target airdrop found).2
    have bounded := held.bounded
    have capped := held.capped
    omega

theorem airdrops_respected_sample :
    Respected sampleCtx emptyBank (run sampleCtx "team" emptyBank [announcement ⟨"airon", 5⟩, execution]) := by
  apply airdrops_respected (by decide)
  intro before msg after whole _
  have inside : msg ∈ [announcement ⟨"airon", 5⟩, execution] := by
    rw [whole]
    simp
  rcases List.mem_pair.mp inside with rfl | rfl
  · simp [announcement, AllNative, Airdrop.InNative, baseDenom]
  · trivial

/-- A stable coin is accepted as an airdrop, and minted. -/
theorem foreign_airdrop_minted :
    let book := run sampleCtx "team" emptyBank [announcement ⟨"uusm", 5⟩, execution]
    book.paid = [(2, ⟨"uusm", 5⟩)] ∧ book.state.bank.supply "uusm" = 5 ∧ ¬ Respected sampleCtx emptyBank book := by
  intro book
  have paid : book.paid = [(2, ⟨"uusm", 5⟩)] ∧ book.state.bank.supply "uusm" = 5 := by decide +kernel
  refine ⟨paid.1, paid.2, fun respected => ?_⟩
  have native := respected.paid (2, ⟨"uusm", 5⟩) (by simp [paid.1])
  simp [IsNative, baseDenom] at native

end Rotofury.Soundness.Vesting
