import Rotofury.Soundness.Oracle.NoPanic

/-! # Slashing over a window

The vote periods of a slash window are counted by the height, so no counter exceeds their number. At the last block of
the window the operators are visited in the order of their addresses, and each is slashed at most once.
-/

namespace Rotofury.Soundness.Oracle

open Model.Sdk Model.Oracle Except Machine

variable {ctx : Ctx} {params : Params} {state middle : State} {slashed : List ValAddress} {blockEnd : BlockEnd}
  {codec : Codec} {chain : Chain} {operator : ValAddress} {count : ℕ}

/-! ## The loop over the counters -/

/-- Entries in strictly increasing order of their operators. -/
def Ascending (entries : List (Sigma fun _ : ValAddress => ℕ)) : Prop :=
  entries.Pairwise fun left right => left.1 < right.1

theorem iterateMissCounters_ascending (store : Store) : Ascending (iterateMissCounters store) := by
  have sorted : (iterateMissCounters store).Pairwise fun left right => left.1 ≤ right.1 := by
    have : IsTrans (Sigma fun _ : ValAddress => ℕ) fun left right => left.1 ≤ right.1 := ⟨fun _ _ _ => BitVec.le_trans⟩
    exact List.pairwise_insertionSort _ _
  have nodup : (iterateMissCounters store).NodupKeys :=
    (List.perm_nodupKeys (List.perm_insertionSort _ _)).mpr store.missCounters.nodupKeys
  have distinct : (iterateMissCounters store).Pairwise fun left right => left.1 ≠ right.1 :=
    List.nodupKeys_iff_pairwise.mp nodup
  exact (sorted.and distinct).imp fun both => BitVec.lt_of_le_ne both.1 both.2

/-- What the loop has done: some of the operators are slashed, in order, each as it found the validators after those
slashed before it. -/
structure Visited (ctx : Ctx) (votePeriods : ℤ) (before : List ValAddress) (entries : List (Sigma fun _ : ValAddress => ℕ))
    (slashed : List ValAddress) : Prop where
  listed : ∀ operator ∈ slashed, ∃ misses, ⟨operator, misses⟩ ∈ entries
  ordered : slashed.Pairwise (· < ·)
  verdict : ∀ operator misses, ⟨operator, misses⟩ ∈ entries →
    isSlashed ctx votePeriods (before ++ slashed.filter (· < operator)) operator misses = .ok (decide (operator ∈ slashed))

theorem slashOperators_visited {votePeriods : ℤ} {entries : List (Sigma fun _ : ValAddress => ℕ)}
    (ascending : Ascending entries) {before after : List ValAddress}
    (ok : entries.foldlM (slashOperator ctx votePeriods) before = .ok after) :
    ∃ slashed, after = before ++ slashed ∧ Visited ctx votePeriods before entries slashed := by
  induction entries generalizing before with
  | nil =>
    cases ok
    exact ⟨[], (List.append_nil _).symm, by simp, by simp, by simp⟩
  | cons entry rest ih =>
    obtain ⟨first, misses⟩ := entry
    obtain ⟨below, restAscending⟩ := List.pairwise_cons.mp ascending
    obtain ⟨middle, turn, others⟩ := foldlM_cons_ok_iff.mp ok
    obtain ⟨later, rfl, visited⟩ := ih restAscending others
    have above : ∀ operator ∈ later, first < operator := by
      intro operator member
      obtain ⟨count, listed⟩ := visited.listed operator member
      exact below _ listed
    have notEarlier : later.filter (· < first) = [] := by
      apply List.filter_eq_nil_iff.mpr
      intro operator member
      simpa using BitVec.not_lt.mpr (BitVec.le_of_lt (above operator member))
    have absent : first ∉ later := fun member => BitVec.lt_irrefl first (above first member)
    simp only [slashOperator, bind_ok_iff] at turn
    obtain ⟨verdict, decided, turn⟩ := turn
    have restVerdict : ∀ operator count, ⟨operator, count⟩ ∈ rest → first ≠ operator ∧ first < operator := by
      intro operator count listed
      have less := below _ listed
      exact ⟨fun same => BitVec.lt_irrefl first (same ▸ less), less⟩
    cases verdict with
    | true =>
      cases turn
      refine ⟨first :: later, by simp, ?_, List.pairwise_cons.mpr ⟨above, visited.ordered⟩, ?_⟩
      · intro operator member
        rcases List.mem_cons.mp member with rfl | inLater
        · exact ⟨misses, List.mem_cons_self⟩
        · obtain ⟨count, listed⟩ := visited.listed operator inLater
          exact ⟨count, List.mem_cons_of_mem _ listed⟩
      · intro operator count listed
        rcases List.mem_cons.mp listed with same | inRest
        · cases same
          simpa [notEarlier, BitVec.lt_irrefl] using decided
        · obtain ⟨other, less⟩ := restVerdict operator count inRest
          have found := visited.verdict operator count inRest
          simpa [less, other.symm] using found
    | false =>
      cases turn
      refine ⟨later, rfl, ?_, visited.ordered, ?_⟩
      · intro operator member
        obtain ⟨count, listed⟩ := visited.listed operator member
        exact ⟨count, List.mem_cons_of_mem _ listed⟩
      · intro operator count listed
        rcases List.mem_cons.mp listed with same | inRest
        · cases same
          simpa [notEarlier, absent] using decided
        · exact visited.verdict operator count inRest

/-! ## The exact condition -/

/-- The part of the window's votes that were not missed is less than the least one allowed, in exact fractions. -/
def TooFew (params : Params) (misses : ℕ) : Prop :=
  ((params.slashWindow / params.votePeriod : ℕ) - (misses : ℚ)) / (params.slashWindow / params.votePeriod : ℕ) <
    (params.minValidPerWindow.raw : ℚ) / 10 ^ 18

theorem condemned_iff_tooFew (positive : votesPerWindow params ≠ 0) (misses : ℕ) :
    Condemned params misses ↔ TooFew params misses := by
  have votes : (0 : ℚ) < (votesPerWindow params : ℕ) := by exact_mod_cast Nat.pos_of_ne_zero positive
  have unit : ((Dec.precision : ℕ) : ℚ) = 10 ^ 18 := by norm_num [Dec.precision]
  rw [TooFew, ← votesPerWindow, div_lt_div_iff₀ votes (by norm_num), Condemned, ← unit]
  exact_mod_cast Iff.rfl

/-- A validator that has missed nothing is not slashed. -/
theorem not_tooFew_zero (valid : params.validateEach = .ok ()) (positive : votesPerWindow params ≠ 0) :
    ¬ TooFew params 0 := by
  rw [← condemned_iff_tooFew positive, Condemned]
  have atMostOne : params.minValidPerWindow.raw ≤ Dec.precision := by
    simp only [Params.validateEach, Params.validateMinValidPerWindow, Params.requireUnit, ok_iffs] at valid
    obtain ⟨_, _, _, _, _, _, _, _, _, _, _, _, _, _, notLarge⟩ := valid
    exact not_lt.mp notLarge
  have product := mul_le_mul_of_nonneg_right atMostOne (Int.natCast_nonneg (votesPerWindow params))
  push_cast
  linarith

/-- The validator that slashing finds is bonded and not jailed. -/
def Slashable (staking : Staking) (slashed : List ValAddress) (operator : ValAddress) : Prop :=
  ∃ validator, staking.afterSlashing (slashed.filter (· < operator)) operator = some validator ∧
    validator.bonded = true ∧ validator.jailed = false

/-- Who is slashed at the end of a window, given counters that do not exceed the number of votes. -/
theorem endSlashWindow_slashed {next : State} (valid : ctx.params.validateEach = .ok ())
    (fits : Fits ctx.params.votePeriod ctx.params.slashWindow) (ok : endSlashWindow ctx state = .ok (next, slashed)) :
    slashed.Nodup ∧ ∀ operator, (state.store.missCounters.lookup operator).getD 0 ≤ votesPerWindow ctx.params →
      (operator ∈ slashed ↔ Slashable ctx.staking slashed operator ∧
        TooFew ctx.params ((state.store.missCounters.lookup operator).getD 0)) := by
  obtain ⟨positive, _, _⟩ := validateEach_ok valid
  obtain ⟨votes, small⟩ := votesPerWindow_bounds positive fits
  have window := votePeriodsPerWindow_eq positive (fits.holds.trans_lt fits.small) fits.small
  rw [bind_ok_iff] at window
  obtain ⟨quotient, isQuotient, truncated⟩ := window
  have reset := (endSlashWindow_ok ok).1
  rw [slashAndResetMissCounters, isQuotient, ok_bind, truncated, ok_bind, bind_ok_iff] at reset
  obtain ⟨found, loop, same⟩ := reset
  obtain rfl : found = slashed := congrArg Prod.snd (Except.ok.inj same)
  obtain ⟨listed, isListed, visited⟩ := slashOperators_visited (iterateMissCounters_ascending state.store) loop
  obtain rfl : found = listed := isListed
  have nodup : found.Nodup := by
    apply visited.ordered.imp
    intro left right less same
    exact BitVec.lt_irrefl left (same ▸ less)
  refine ⟨nodup, fun operator within => ?_⟩
  cases counted : state.store.missCounters.lookup operator with
  | none =>
    rw [Option.getD_none]
    refine iff_of_false (fun member => ?_) fun both => not_tooFew_zero valid votes both.2
    obtain ⟨misses, isCounted⟩ := visited.listed operator member
    rw [mem_iterateMissCounters_iff.mp isCounted] at counted
    cases counted
  | some misses =>
    rw [counted, Option.getD_some] at within
    rw [Option.getD_some, ← condemned_iff_tooFew votes, ← validVoteRate_lt_iff votes small within]
    have verdict := visited.verdict operator misses (mem_iterateMissCounters_iff.mpr counted)
    rw [List.nil_append, isSlashed_eq votes] at verdict
    split at verdict
    · next low =>
      simp only [ok_iffs, deref_ok_iff] at verdict
      obtain ⟨validator, isValidator, decided⟩ := verdict
      have slashed_iff : operator ∈ found ↔ validator.bonded = true ∧ validator.jailed = false := by
        rw [← decide_eq_true_iff (p := operator ∈ found), ← decided, Bool.and_eq_true, Bool.not_eq_true']
      rw [and_iff_left low, Slashable, isValidator, slashed_iff]
      simp
    · next enough =>
      have notSlashed : operator ∉ found := by simpa using (Except.ok.inj verdict).symm
      exact iff_of_false notSlashed fun both => enough both.2

/-! ## One block -/

/-- The end of a block tallies votes, and charges an active validator a miss. -/
def charges (ctx : Ctx) (store : Store) (operator : ValAddress) : Bool :=
  decide ((ctx.blockHeight + 1) % ctx.params.votePeriod = 0) &&
    match tallyVotes ctx store with
    | .ok (tallied, targets) => charged targets.entries.length tallied.claims operator
    | .error _ => false

/-- The counters that the vote period's part leaves. -/
theorem VotePart.missCounters {allocations : List (ValAddress × List Coin)}
    (votes : VotePart ctx state middle allocations) (operator : ValAddress) :
    middle.store.missCounters.lookup operator = if charges ctx state.store operator then
      some ((state.store.missCounters.lookup operator).getD 0 + 1) else state.store.missCounters.lookup operator := by
  unfold VotePart at votes
  unfold charges
  split at votes
  · next ends =>
    obtain ⟨tallied, targets, counted, _, store⟩ := endVotePeriod_ok votes
    rw [store, clearBallots, lookup_missCounters counted, counted]
    simp only [ends, decide_true, Bool.true_and]
  · next ends => simp [ends, votes.1]

theorem SlashPart.missCounters {final : State} (slashes : SlashPart ctx middle final slashed) :
    final.store.missCounters =
      if (ctx.blockHeight + 1) % ctx.params.slashWindow = 0 then ∅ else middle.store.missCounters := by
  unfold SlashPart at slashes
  split at slashes
  · next ends => rw [if_pos ends, (endSlashWindow_ok slashes).2]
  · next ends => rw [if_neg ends, slashes.1]

/-- The counters after a block. -/
theorem endBlocker_missCounters (ok : endBlocker ctx state = .ok blockEnd) (operator : ValAddress) :
    blockEnd.state.store.missCounters.lookup operator =
      if (ctx.blockHeight + 1) % ctx.params.slashWindow = 0 then none
      else if charges ctx state.store operator then some ((state.store.missCounters.lookup operator).getD 0 + 1)
      else state.store.missCounters.lookup operator := by
  obtain ⟨_, _, middle, votes, slashes⟩ := endBlocker_ok ok
  rw [slashes.missCounters]
  split
  · rfl
  · exact votes.missCounters operator

/-- Messages leave counters and height as they are. -/
theorem handle_missCounters {staking : Staking} {next : Chain} {msg : Msg}
    (ok : chain.handle codec staking params msg = .ok next) :
    next.state.store.missCounters = chain.state.store.missCounters ∧ next.height = chain.height := by
  cases msg with
  | aggregateExchangeRatePrevote hash feeder validator =>
    simp only [Chain.handle, Chain.aggregateExchangeRatePrevote, bind_ok_iff] at ok
    obtain ⟨_, _, ok⟩ := ok
    split at ok
    · cases ok
    · cases ok
      exact ⟨rfl, rfl⟩
  | aggregateExchangeRateVote salt exchangeRates feeder validator =>
    simp only [Chain.handle, Chain.aggregateExchangeRateVote, bind_ok_iff] at ok
    obtain ⟨_, _, ok⟩ := ok
    split at ok
    · cases ok
    · simp only [Chain.reveal, ok_iffs] at ok
      obtain ⟨_, _, _, _, _, _, _, _, _, _, rfl⟩ := ok
      exact ⟨rfl, rfl⟩
  | delegateFeedConsent operator delegate =>
    simp only [Chain.handle, Chain.delegateFeedConsent, ok_iffs] at ok
    obtain ⟨_, _, rfl⟩ := ok
    exact ⟨rfl, rfl⟩

/-! ## Runs -/

/-- The tallies of the window so far that charged an operator, after one more event. Only the end of a block counts, and
the last block of a window starts the count again. -/
def recount (codec : Codec) (operator : ValAddress) (chain : Chain) (count : ℕ) (event : Event) : ℕ :=
  match chain.step codec event, event with
  | .ok _, .endBlock staking params orders floatSqrt =>
    if (chain.height + 1) % params.slashWindow = 0 then 0
    else count + (charges (chain.ctx staking params orders floatSqrt) chain.state.store operator).toNat
  | _, _ => count

/-- The number of tallies of the current window in which an operator was active and charged a miss, along a run. -/
def windowMisses (codec : Codec) (operator : ValAddress) : Chain → ℕ → List Event → ℕ
  | _, count, [] => count
  | chain, count, event :: events =>
    windowMisses codec operator (advance (Chain.step codec) chain event) (recount codec operator chain count event)
      events

/-- The parameters of every block are the given ones. -/
def Steady (params : Params) : Event → Prop
  | .endBlock _ other _ _ => other = params
  | _ => True

/-- The counter of an operator is the count, and there is no counter for a count of zero. The count is at most that of the
vote periods of the window that have ended. -/
structure Counts (params : Params) (operator : ValAddress) (chain : Chain) (count : ℕ) : Prop where
  counter : chain.state.store.missCounters.lookup operator = if count = 0 then none else some count
  ended : count ≤ chain.height % params.slashWindow / params.votePeriod

theorem Counts.getD (counts : Counts params operator chain count) :
    (chain.state.store.missCounters.lookup operator).getD 0 = count := by
  rw [counts.counter]
  split
  · next zero => exact zero.symm
  · rfl

/-- One more block of a window: it is the last one, or the window goes on. -/
theorem succ_mod_cases (height : ℕ) {window : ℕ} (positive : window ≠ 0) :
    ((height + 1) % window = 0 ∧ height % window + 1 = window) ∨
      ((height + 1) % window ≠ 0 ∧ (height + 1) % window = height % window + 1) := by
  have small := Nat.mod_lt height (Nat.pos_of_ne_zero positive)
  rw [← Nat.mod_add_mod]
  by_cases last : height % window + 1 = window
  · rw [last, Nat.mod_self]
    exact .inl ⟨rfl, rfl⟩
  · rw [Nat.mod_eq_of_lt (by omega)]
    exact .inr ⟨by omega, rfl⟩

/-- A tally adds at most one to the count, in a block that ends a vote period. -/
theorem count_charges_le {store : Store} (multiple : ctx.params.votePeriod ∣ ctx.params.slashWindow)
    (ended : count ≤ ctx.blockHeight % ctx.params.slashWindow / ctx.params.votePeriod) :
    count + (charges ctx store operator).toNat ≤
      (ctx.blockHeight % ctx.params.slashWindow + 1) / ctx.params.votePeriod := by
  cases charge : charges ctx store operator with
  | false => exact ended.trans (Nat.div_le_div_right (Nat.le_succ _))
  | true =>
    rw [charges, Bool.and_eq_true, decide_eq_true_iff] at charge
    have period : ctx.params.votePeriod ∣ ctx.blockHeight % ctx.params.slashWindow + 1 := by
      rw [← Nat.dvd_add_right (multiple.mul_right (ctx.blockHeight / ctx.params.slashWindow)), ← add_assoc,
        Nat.div_add_mod]
      exact Nat.dvd_of_mod_eq_zero charge.1
    rw [Nat.succ_div_of_dvd period]
    exact Nat.add_le_add_right ended 1

theorem Counts.step (counts : Counts params operator chain count) (multiple : params.votePeriod ∣ params.slashWindow)
    {event : Event} (steady : Steady params event) :
    Counts params operator (advance (Chain.step codec) chain event) (recount codec operator chain count event) := by
  cases result : Chain.step codec chain event with
  | error fault =>
    simp only [advance, recount, result]
    exact counts
  | ok next =>
    rw [advance_of_ok result]
    cases event with
    | message staking other msg =>
      obtain ⟨counters, height⟩ := handle_missCounters result
      simp only [recount, result]
      exact ⟨counters ▸ counts.counter, height ▸ counts.ended⟩
    | outside voteTargets targets bank =>
      simp only [recount, result]
      cases result
      exact ⟨counts.counter, counts.ended⟩
    | endBlock staking other orders floatSqrt =>
      obtain rfl : other = params := steady
      simp only [recount, result]
      simp only [Chain.step, ok_iffs] at result
      obtain ⟨blockEnd, ok, rfl⟩ := result
      have window : other.slashWindow ≠ 0 := (endBlocker_ok ok).2.1
      have counters := endBlocker_missCounters ok operator
      change _ = if (chain.height + 1) % other.slashWindow = 0 then none else _ at counters
      rcases succ_mod_cases chain.height window with ⟨last, _⟩ | ⟨goesOn, height⟩
      · rw [if_pos last] at counters ⊢
        exact ⟨counters, Nat.zero_le _⟩
      · have more : count + (charges (chain.ctx staking other orders floatSqrt) chain.state.store operator).toNat ≤
            (chain.height % other.slashWindow + 1) / other.votePeriod := count_charges_le multiple counts.ended
        rw [if_neg goesOn] at counters ⊢
        refine ⟨?_, height ▸ more⟩
        rw [counters, counts.getD]
        cases charges (chain.ctx staking other orders floatSqrt) chain.state.store operator with
        | false => exact counts.counter
        | true => simp

/-- Along a run, the counters are the counts. -/
theorem counts_replay (multiple : params.votePeriod ∣ params.slashWindow) {events : List Event}
    (steady : ∀ event ∈ events, Steady params event) (counts : Counts params operator chain count) :
    Counts params operator (replay (Chain.step codec) chain events)
      (windowMisses codec operator chain count events) := by
  induction events generalizing chain count with
  | nil => exact counts
  | cons event rest ih =>
    obtain ⟨first, others⟩ := List.forall_mem_cons.mp steady
    exact ih others (counts.step multiple first)

/-- A window starts with no counters. -/
theorem counts_start (fresh : chain.state.store.missCounters = ∅) (operator : ValAddress) :
    Counts params operator chain 0 := by
  refine ⟨?_, Nat.zero_le _⟩
  rw [fresh]
  rfl

/-- The last block of a window, given what the counters are before it. -/
theorem endBlocker_slashed (count : ValAddress → ℕ) (valid : ctx.params.validateEach = .ok ())
    (multiple : ctx.params.votePeriod ∣ ctx.params.slashWindow)
    (last : (ctx.blockHeight + 1) % ctx.params.slashWindow = 0) (small : ctx.blockHeight + 1 < 2 ^ 63)
    (counted : ∀ operator, (state.store.missCounters.lookup operator).getD 0 = count operator)
    (ended : ∀ operator, count operator ≤ ctx.blockHeight % ctx.params.slashWindow / ctx.params.votePeriod)
    (ok : endBlocker ctx state = .ok blockEnd) :
    blockEnd.state.store.missCounters = ∅ ∧ blockEnd.slashed.Nodup ∧ ∀ operator misses,
      misses = count operator + (charges ctx state.store operator).toNat →
        misses ≤ votesPerWindow ctx.params ∧
        (operator ∈ blockEnd.slashed ↔ Slashable ctx.staking blockEnd.slashed operator ∧ TooFew ctx.params misses) := by
  obtain ⟨_, window, _⟩ := validateEach_ok valid
  have fits : Fits ctx.params.votePeriod ctx.params.slashWindow := by
    refine ⟨Nat.le_of_dvd (Nat.pos_of_ne_zero window) multiple, ?_⟩
    exact (Nat.le_of_dvd (Nat.succ_pos _) (Nat.dvd_of_mod_eq_zero last)).trans_lt small
  obtain ⟨_, _, middle, votes, slashes⟩ := endBlocker_ok ok
  have emptied := slashes.missCounters
  rw [if_pos last] at emptied
  rw [SlashPart, if_pos last] at slashes
  obtain ⟨nodup, slashed⟩ := endSlashWindow_slashed valid fits slashes
  refine ⟨emptied, nodup, ?_⟩
  rintro operator misses rfl
  -- what slashing finds is the count so far and the miss of this block
  have counter : (middle.store.missCounters.lookup operator).getD 0 =
      count operator + (charges ctx state.store operator).toNat := by
    rw [votes.missCounters, ← counted operator]
    cases charges ctx state.store operator <;> simp
  have within : count operator + (charges ctx state.store operator).toNat ≤ votesPerWindow ctx.params := by
    have whole := ((succ_mod_cases ctx.blockHeight window).resolve_right fun goesOn => goesOn.1 last).2
    have more : count operator + (charges ctx state.store operator).toNat ≤
        (ctx.blockHeight % ctx.params.slashWindow + 1) / ctx.params.votePeriod := count_charges_le multiple (ended operator)
    rwa [whole] at more
  have exact := slashed operator
  rw [counter] at exact
  exact ⟨within, exact within⟩

/-- The tallies of the window that charged an operator, that of the block which is about to end included. -/
def missesAtEnd (codec : Codec) (chain : Chain) (events : List Event) (ctx : Ctx) (operator : ValAddress) : ℕ :=
  windowMisses codec operator chain 0 events +
    (charges ctx (replay (Chain.step codec) chain events).state.store operator).toNat

/-- In every run that starts without counters, at the start of a window in particular, no counter exceeds the number of vote
periods, and the last block of a window slashes exactly those with too few valid votes. The height of the next block is a
signed 64-bit number. -/
theorem slashed_exactly (codec : Codec) {params : Params} (valid : params.validateEach = .ok ())
    (multiple : params.votePeriod ∣ params.slashWindow) {chain reached : Chain}
    (fresh : chain.state.store.missCounters = ∅) {events : List Event} (steady : ∀ event ∈ events, Steady params event)
    (run : replay (Chain.step codec) chain events = reached) :
    (∀ operator misses, reached.state.store.missCounters.lookup operator = some misses →
      misses ≤ params.slashWindow / params.votePeriod) ∧
    ∀ staking orders floatSqrt, (reached.height + 1) % params.slashWindow = 0 → reached.height + 1 < 2 ^ 63 →
      (∀ blockEnd, endBlocker (reached.ctx staking params orders floatSqrt) reached.state = .ok blockEnd →
        blockEnd.state.store.missCounters = ∅ ∧ blockEnd.slashed.Nodup ∧ ∀ operator misses,
          misses = missesAtEnd codec chain events (reached.ctx staking params orders floatSqrt) operator →
            misses ≤ params.slashWindow / params.votePeriod ∧
            (operator ∈ blockEnd.slashed ↔ Slashable staking blockEnd.slashed operator ∧ TooFew params misses)) ∧
      (Safe (reached.ctx staking params orders floatSqrt) reached.state.store →
        ∃ blockEnd, endBlocker (reached.ctx staking params orders floatSqrt) reached.state = .ok blockEnd) := by
  subst run
  obtain ⟨_, window, _⟩ := validateEach_ok valid
  have counts : ∀ operator, Counts params operator (replay (Chain.step codec) chain events)
      (windowMisses codec operator chain 0 events) := fun operator =>
    counts_replay multiple steady (counts_start fresh operator)
  refine ⟨fun operator misses found => ?_, fun staking orders floatSqrt last small => ⟨fun blockEnd success => ?_, ?_⟩⟩
  · have counted := (counts operator).getD
    rw [found, Option.getD_some] at counted
    rw [counted]
    exact (counts operator).ended.trans (Nat.div_le_div_right (Nat.mod_lt _ (Nat.pos_of_ne_zero window)).le)
  · apply endBlocker_slashed (fun operator => windowMisses codec operator chain 0 events) valid multiple last small
    · exact fun operator => (counts operator).getD
    · exact fun operator => (counts operator).ended
    · exact success
  · exact endBlocker_succeeds valid

/-- The first block of a window in which the only validator misses its vote. -/
def missedOnce : Chain := replay (Chain.step default) (loneChain 0 ∅) [loneEnd (windowParams 1 1 2) true]

/-- In the second and last one it misses again, and is slashed. -/
theorem slashed_exactly_sample : ∃ blockEnd,
    endBlocker (missedOnce.ctx (loneStaking true) (windowParams 1 1 2)
      ⟨.listed _, .listed _, .listed _, .listed _, .listed _⟩ fun _ => Dec.zero) missedOnce.state = .ok blockEnd ∧
      blockEnd.state.store.missCounters = ∅ ∧ 1 ∈ blockEnd.slashed := by
  have fresh : (loneChain 0 ∅).state.store.missCounters = ∅ := rfl
  have steady : ∀ event ∈ [loneEnd (windowParams 1 1 2) true], Steady (windowParams 1 1 2) event := by
    intro event member
    rw [List.mem_singleton.mp member]
    rfl
  have run : replay (Chain.step default) (loneChain 0 ∅) [loneEnd (windowParams 1 1 2) true] = missedOnce := rfl
  obtain ⟨exact, succeeds⟩ := (slashed_exactly default (by decide) (by decide) fresh steady run).2 (loneStaking true)
    ⟨.listed _, .listed _, .listed _, .listed _, .listed _⟩ (fun _ => Dec.zero) (by decide) (by decide)
  have attended : ∀ operator misses, missedOnce.state.store.missCounters.lookup operator = some misses → operator = 1 := by
    intro operator misses stored
    have counters : operator ∈ [(1 : ValAddress)] := AList.lookup_isSome.mp (Option.isSome_of_eq_some stored)
    exact List.mem_singleton.mp counters
  obtain ⟨blockEnd, success⟩ := succeeds
    ⟨fun _ => ⟨⟨by decide, by decide⟩, by decide⟩, fun _ => ⟨⟨by decide, by decide⟩, loneStaking_attended attended⟩⟩
  obtain ⟨emptied, _, slashed⟩ := exact blockEnd success
  have twice : 2 = missesAtEnd default (loneChain 0 ∅) [loneEnd (windowParams 1 1 2) true]
      (missedOnce.ctx (loneStaking true) (windowParams 1 1 2) ⟨.listed _, .listed _, .listed _, .listed _, .listed _⟩
        fun _ => Dec.zero) 1 := by decide
  refine ⟨blockEnd, success, emptied, (slashed 1 2 twice).2.mpr ⟨⟨⟨1, 1, true, false⟩, rfl, rfl, rfl⟩, ?_⟩⟩
  norm_num [TooFew, windowParams, Dec.one]

end Rotofury.Soundness.Oracle
