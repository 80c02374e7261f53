import Rotofury.Soundness.Oracle.BlockEnd
import Rotofury.Model.Oracle.MsgServer

/-! # Commit and reveal

Along every run with one vote period, the votes of a period were all revealed in it, and each reveals what its validator
had committed to in the period before. A record of the accepted prevotes and votes is kept next to the chain; among the
entries of one validator, the one before a vote is the prevote it reveals.
-/

namespace Rotofury.Soundness.Oracle

open Model.Sdk Model.Oracle Except Machine

/-! ## What a hash commits to

No text that is read as exchange rates has a semicolon in it. So the two semicolons that separate salt, rates and voter are
found from the end of the hashed text, and a hash without collisions commits a validator to one salt and one text.
-/

section

variable {tupleStr : List Char} {before after tuples : List ExchangeRateTuple}

/-! ## Hexadecimal texts -/

theorem hexDigitValue_hexDigit {value : ℕ} (small : value < 16) : hexDigitValue (hexDigit value) = some value := by
  interval_cases value <;> decide

theorem decodeString_encode (bytes : List UInt8) : decodeString (encodeToString bytes).toList = some bytes := by
  rw [encodeToString, String.toList_ofList]
  induction bytes with
  | nil => rfl
  | cons byte rest ih =>
    have small : byte.toNat < 256 := byte.toNat_lt
    have joined : byte.toNat / 16 * 16 + byte.toNat % 16 = byte.toNat := by omega
    simp only [List.flatMap_cons, List.cons_append, List.nil_append, decodeString, ih,
      hexDigitValue_hexDigit (show byte.toNat / 16 < 16 by omega), hexDigitValue_hexDigit (show byte.toNat % 16 < 16 by omega)]
    change some (UInt8.ofNat (byte.toNat / 16 * 16 + byte.toNat % 16) :: rest) = some (byte :: rest)
    rw [joined, UInt8.ofNat_toNat]

theorem encodeToString_injective : Function.Injective encodeToString := by
  intro left right same
  have decoded := decodeString_encode left
  rw [same, decodeString_encode right] at decoded
  exact (Option.some.inj decoded).symm

/-! ## Semicolons -/

theorem parseTuple_no_semicolon {tuple : ExchangeRateTuple} (parsed : parseTuple tupleStr = .ok tuple) :
    ';' ∉ tupleStr := by
  intro inside
  unfold parseTuple at parsed
  split at parsed
  · next left right split =>
    simp only [ok_iffs] at parsed
    obtain ⟨_, valid, parsed⟩ := parsed
    split at parsed
    · next amount read =>
      rcases mem_or_space_of_mem_trimSpace inside with space | kept
      · exact absurd space (by decide)
      rcases mem_splitOn ':' kept with colon | ⟨part, isPart, here⟩
      · exact absurd colon (by decide)
      rw [split] at isPart
      rcases List.mem_pair.mp isPart with rfl | rfl
      · rcases mem_or_space_of_mem_trimSpace here with space | kept
        · exact absurd space (by decide)
        · rw [← String.toList_ofList (l := trimSpace part)] at kept
          exact absurd (validateDenom_chars valid kept) (by decide)
      · exact absurd (Dec.ofText_chars read here) (by decide)
    · cases parsed
  · cases parsed

theorem addTuple_no_semicolon (added : addTuple before tupleStr = .ok after) : ';' ∉ tupleStr := by
  simp only [addTuple, bind_ok_iff] at added
  obtain ⟨tuple, parsed, _⟩ := added
  exact parseTuple_no_semicolon parsed

theorem foldlM_addTuple_no_semicolon {tupleStrs : List (List Char)}
    (parsed : tupleStrs.foldlM addTuple before = .ok after) : ∀ tupleStr ∈ tupleStrs, ';' ∉ tupleStr := by
  induction tupleStrs generalizing before with
  | nil => simp
  | cons first rest ih =>
    rw [List.foldlM_cons, bind_ok_iff] at parsed
    obtain ⟨middle, added, later⟩ := parsed
    intro tupleStr inside
    rcases List.mem_cons.mp inside with rfl | inside
    · exact addTuple_no_semicolon added
    · exact ih later tupleStr inside

/-- Exchange rates have no semicolon. -/
theorem parse_no_semicolon {exchangeRates : String} (parsed : parseExchangeRateTuples exchangeRates = .ok tuples) :
    ';' ∉ exchangeRates.toList := by
  intro inside
  unfold parseExchangeRateTuples at parsed
  rcases mem_or_space_of_mem_trimSpace inside with space | kept
  · exact absurd space (by decide)
  · split at parsed
    · next empty =>
      rw [empty] at kept
      cases kept
    · rcases mem_splitOn ',' kept with comma | ⟨part, isPart, here⟩
      · exact absurd comma (by decide)
      · exact foldlM_addTuple_no_semicolon parsed part isPart here

/-- The last separator of a text splits it in one way. -/
theorem append_cons_inj {α : Type} {separator : α} {left right left' right' : List α} (absent : separator ∉ right)
    (absent' : separator ∉ right') (same : left ++ separator :: right = left' ++ separator :: right') :
    left = left' ∧ right = right' := by
  rcases List.append_eq_append_iff.mp same with ⟨middle, longer, tail⟩ | ⟨middle, longer, tail⟩
  · cases middle with
    | nil => simp_all
    | cons first middle =>
      obtain ⟨rfl, rest⟩ := List.cons.inj tail
      exact absurd (rest ▸ by simp) absent
  · cases middle with
    | nil => simp_all
    | cons first middle =>
      obtain ⟨rfl, rest⟩ := List.cons.inj tail
      exact absurd (rest ▸ by simp) absent'

/-- A validator's hash fixes salt and rates. -/
theorem getAggregateVoteHash_inj {codec : Codec} (collisionFree : Function.Injective codec.digest)
    {voter : ValAddress} {salt salt' rates rates' : String} {tuples' : List ExchangeRateTuple}
    (parsed : parseExchangeRateTuples rates = .ok tuples) (parsed' : parseExchangeRateTuples rates' = .ok tuples')
    (same : getAggregateVoteHash codec salt rates voter = getAggregateVoteHash codec salt' rates' voter) :
    salt = salt' ∧ rates = rates' := by
  have texts := congrArg String.toList (collisionFree (encodeToString_injective same))
  have joined : salt.toList ++ ';' :: rates.toList = salt'.toList ++ ';' :: rates'.toList := by
    have longer : (salt.toList ++ ';' :: rates.toList) ++ ';' :: (codec.valText voter).toList =
        (salt'.toList ++ ';' :: rates'.toList) ++ ';' :: (codec.valText voter).toList := by
      simpa [toString] using texts
    exact List.append_cancel_right longer
  obtain ⟨salts, texts⟩ := append_cons_inj (parse_no_semicolon parsed) (parse_no_semicolon parsed') joined
  exact ⟨String.toList_inj.mp salts, String.toList_inj.mp texts⟩

end

/-! ## The record -/

/-- A message that was accepted, with the height of its block. -/
inductive Entry where
  | prevote (height : ℕ) (voter : ValAddress) (hash : String)
  | vote (height : ℕ) (voter : ValAddress) (salt exchangeRates : String)
deriving DecidableEq, Repr

namespace Entry

def height : Entry → ℕ
  | prevote height _ _ => height
  | vote height _ _ _ => height

def voter : Entry → ValAddress
  | prevote _ voter _ => voter
  | vote _ voter _ _ => voter

end Entry

/-- The last entry of a validator. -/
def lastOf (voter : ValAddress) (log : List Entry) : Option Entry := (log.filter fun entry => entry.voter = voter).getLast?

theorem lastOf_concat (voter : ValAddress) (log : List Entry) (entry : Entry) :
    lastOf voter (log ++ [entry]) = if entry.voter = voter then some entry else lastOf voter log := by
  unfold lastOf
  rw [List.filter_append]
  split
  · next same => simp [same]
  · next other => simp [other]

theorem mem_of_lastOf {voter : ValAddress} {log : List Entry} {entry : Entry} (last : lastOf voter log = some entry) :
    entry ∈ log ∧ entry.voter = voter := by
  have inside := List.mem_of_getLast? last
  simpa using inside

/-- What is recorded of an event, once it has succeeded. -/
def entryOf (chain : Chain) : Event → Option Entry
  | .message _ _ (.aggregateExchangeRatePrevote hash _ validator) =>
    (decodeString hash.toList).map fun voteHash => .prevote chain.height validator (encodeToString voteHash)
  | .message _ _ (.aggregateExchangeRateVote salt exchangeRates _ validator) =>
    some (.vote chain.height validator salt exchangeRates)
  | _ => none

/-- A chain with its record. -/
structure Traced where
  chain : Chain
  log : List Entry

def Traced.step (codec : Codec) (traced : Traced) (event : Event) : Except Fault Traced := do
  let next ← traced.chain.step codec event
  pure ⟨next, traced.log ++ (entryOf traced.chain event).toList⟩

/-- The vote period that an event reads. -/
def HasPeriod (votePeriod : ℕ) : Event → Prop
  | .message _ params _ => params.votePeriod = votePeriod
  | .endBlock _ params _ _ => params.votePeriod = votePeriod
  | .outside _ _ _ => True

/-! ## What an event does to prevotes and votes -/

/-- Erasing some entries of a map. -/
theorem lookup_foldl_erase {κ ρ : Type} [DecidableEq κ] (drop : (Sigma fun _ : κ => ρ) → Prop) [DecidablePred drop]
    (items : List (Sigma fun _ : κ => ρ)) (map : AList fun _ : κ => ρ) (key : κ) :
    (items.foldl (fun map item => if drop item then map.erase item.1 else map) map).lookup key =
      if ∃ item ∈ items, item.1 = key ∧ drop item then none else map.lookup key := by
  induction items generalizing map with
  | nil => simp
  | cons first rest ih =>
    rw [List.foldl_cons, ih]
    by_cases later : ∃ item ∈ rest, item.1 = key ∧ drop item
    · obtain ⟨item, inside, found⟩ := later
      rw [if_pos ⟨item, inside, found⟩, if_pos ⟨item, List.mem_cons_of_mem _ inside, found⟩]
    · rw [if_neg later]
      by_cases here : first.1 = key ∧ drop first
      · rw [if_pos here.2, if_pos ⟨first, by simp, here⟩, ← here.1, AList.lookup_erase]
      · have nowhere : ¬ ∃ item ∈ first :: rest, item.1 = key ∧ drop item := by
          rintro ⟨item, inside, found⟩
          rcases List.mem_cons.mp inside with rfl | inside
          · exact here found
          · exact later ⟨item, inside, found⟩
        rw [if_neg nowhere]
        split
        · next drops => exact AList.lookup_erase_ne fun same => here ⟨same.symm, drops⟩
        · rfl

/-- Clearing the ballots deletes the prevotes that are more than a period old. -/
theorem lookup_clearBallots (ctx : Ctx) (store : Store) (voter : ValAddress) (prevote : AggregateExchangeRatePrevote) :
    (clearBallots ctx store).prevotes.lookup voter = some prevote ↔
      store.prevotes.lookup voter = some prevote ∧ ctx.blockHeight ≤ prevote.submitBlock + ctx.params.votePeriod := by
  rw [clearBallots]
  dsimp only
  rw [lookup_foldl_erase fun entry : Sigma fun _ : ValAddress => AggregateExchangeRatePrevote =>
    entry.2.submitBlock + ctx.params.votePeriod < ctx.blockHeight]
  split
  · next dropped =>
    obtain ⟨⟨_, found⟩, inside, rfl, old⟩ := dropped
    have stored := AList.mem_lookup_iff.mpr inside
    constructor
    · rintro ⟨⟩
    · rintro ⟨same, young⟩
      obtain rfl := Option.some.inj (stored.symm.trans same)
      dsimp only at old
      omega
  · next kept =>
    refine ⟨fun found => ⟨found, ?_⟩, And.left⟩
    by_contra old
    exact kept ⟨⟨voter, prevote⟩, AList.mem_lookup_iff.mp found, rfl, not_le.mp old⟩

/-- The ways in which prevotes, votes and the height change, with what is recorded. -/
inductive BallotStep (codec : Codec) (votePeriod : ℕ) (chain next : Chain) : Option Entry → Prop
  | prevoted (voter : ValAddress) (hash : String)
      (prevotes : next.state.store.prevotes = chain.state.store.prevotes.insert voter ⟨hash, chain.height⟩)
      (votes : next.state.store.votes = chain.state.store.votes) (height : next.height = chain.height) :
      BallotStep codec votePeriod chain next (some (.prevote chain.height voter hash))
  | revealed (voter : ValAddress) (salt exchangeRates : String) (tuples : List ExchangeRateTuple)
      (prevote : AggregateExchangeRatePrevote) (found : chain.state.store.prevotes.lookup voter = some prevote)
      (period : chain.height / votePeriod - prevote.submitBlock / votePeriod = 1)
      (parsed : parseExchangeRateTuples exchangeRates = .ok tuples)
      (committed : prevote.hash = getAggregateVoteHash codec salt exchangeRates voter)
      (prevotes : next.state.store.prevotes = chain.state.store.prevotes.erase voter)
      (votes : next.state.store.votes = chain.state.store.votes.insert voter tuples) (height : next.height = chain.height) :
      BallotStep codec votePeriod chain next (some (.vote chain.height voter salt exchangeRates))
  | other (prevotes : next.state.store.prevotes = chain.state.store.prevotes)
      (votes : next.state.store.votes = chain.state.store.votes) (height : next.height = chain.height) :
      BallotStep codec votePeriod chain next none
  | ended (positive : votePeriod ≠ 0)
      (prevotes : ∀ voter prevote, next.state.store.prevotes.lookup voter = some prevote ↔
        chain.state.store.prevotes.lookup voter = some prevote ∧
          ((chain.height + 1) % votePeriod = 0 → chain.height ≤ prevote.submitBlock + votePeriod))
      (votes : next.state.store.votes = if (chain.height + 1) % votePeriod = 0 then ∅ else chain.state.store.votes)
      (height : next.height = chain.height + 1) : BallotStep codec votePeriod chain next none

section Steps

variable {codec : Codec} {chain next : Chain} {votePeriod : ℕ}

theorem handle_ballots {staking : Staking} {params : Params} {msg : Msg}
    (ok : chain.handle codec staking params msg = .ok next) :
    BallotStep codec params.votePeriod chain next (entryOf chain (.message staking params msg)) := by
  cases msg with
  | aggregateExchangeRatePrevote hash feeder validator =>
    simp only [Chain.handle, Chain.aggregateExchangeRatePrevote, bind_ok_iff] at ok
    obtain ⟨_, _, ok⟩ := ok
    split at ok
    · cases ok
    · next voteHash decoded =>
      cases ok
      simp only [entryOf, decoded, Option.map_some]
      exact .prevoted validator _ rfl rfl rfl
  | aggregateExchangeRateVote salt exchangeRates feeder validator =>
    simp only [Chain.handle, Chain.aggregateExchangeRateVote, bind_ok_iff] at ok
    obtain ⟨_, _, ok⟩ := ok
    split at ok
    · cases ok
    · next prevote found =>
      simp only [Chain.reveal, ok_iffs] at ok
      obtain ⟨_, _, _, period, tuples, parsed, _, _, _, committed, rfl⟩ := ok
      have parsed : parseExchangeRateTuples exchangeRates = .ok tuples := by
        unfold Chain.parseRates at parsed
        split at parsed
        · next parse => rw [parse, Except.ok.inj parsed]
        · cases parsed
      exact .revealed validator salt exchangeRates tuples prevote found period parsed committed rfl rfl rfl
  | delegateFeedConsent operator delegate =>
    simp only [Chain.handle, Chain.delegateFeedConsent, ok_iffs] at ok
    obtain ⟨_, _, rfl⟩ := ok
    exact .other rfl rfl rfl

theorem endBlock_ballots {ctx : Ctx} {state : State} {blockEnd : BlockEnd} (ok : endBlocker ctx state = .ok blockEnd) :
    ctx.params.votePeriod ≠ 0 ∧
      (∀ voter prevote, blockEnd.state.store.prevotes.lookup voter = some prevote ↔
        state.store.prevotes.lookup voter = some prevote ∧
          ((ctx.blockHeight + 1) % ctx.params.votePeriod = 0 →
            ctx.blockHeight ≤ prevote.submitBlock + ctx.params.votePeriod)) ∧
      blockEnd.state.store.votes = if (ctx.blockHeight + 1) % ctx.params.votePeriod = 0 then ∅ else state.store.votes := by
  obtain ⟨positive, _, middle, votes, slashes⟩ := endBlocker_ok ok
  have kept : blockEnd.state.store.prevotes = middle.store.prevotes ∧ blockEnd.state.store.votes = middle.store.votes := by
    unfold SlashPart at slashes
    split at slashes
    · rw [(endSlashWindow_ok slashes).2]
      exact ⟨rfl, rfl⟩
    · rw [slashes.1]
      exact ⟨rfl, rfl⟩
  rw [kept.1, kept.2]
  refine ⟨positive, ?_⟩
  unfold VotePart at votes
  split at votes
  · next ends =>
    obtain ⟨_, _, _, _, store⟩ := endVotePeriod_ok votes
    rw [store, if_pos ends]
    refine ⟨fun voter prevote => ?_, rfl⟩
    rw [lookup_clearBallots]
    exact and_congr_right fun _ => ⟨fun young _ => young, fun young => young ends⟩
  · next ends =>
    rw [votes.1, if_neg ends]
    exact ⟨fun voter prevote => ⟨fun found => ⟨found, fun last => absurd last ends⟩, And.left⟩, rfl⟩

/-- Every event does one of these. -/
theorem step_ballots {event : Event} (period : HasPeriod votePeriod event) (ok : chain.step codec event = .ok next) :
    BallotStep codec votePeriod chain next (entryOf chain event) := by
  cases event with
  | message staking params msg =>
    obtain rfl : params.votePeriod = votePeriod := period
    exact handle_ballots ok
  | endBlock staking params orders floatSqrt =>
    obtain rfl : params.votePeriod = votePeriod := period
    simp only [Chain.step, ok_iffs] at ok
    obtain ⟨ended, ok, rfl⟩ := ok
    obtain ⟨positive, prevotes, votes⟩ := endBlock_ballots ok
    exact .ended positive prevotes votes rfl
  | outside voteTargets targets bank =>
    cases ok
    exact .other rfl rfl rfl

end Steps

/-! ## The discipline -/

/-- A vote with this salt and these rates comes right after the prevote it reveals, as far as its validator is concerned,
and in the period after it. -/
def Reveals (codec : Codec) (votePeriod : ℕ) (before : List Entry) (height : ℕ) (voter : ValAddress)
    (salt exchangeRates : String) : Prop :=
  ∃ submitBlock, submitBlock / votePeriod + 1 = height / votePeriod ∧
    lastOf voter before = some (.prevote submitBlock voter (getAggregateVoteHash codec salt exchangeRates voter))

/-- What holds of a chain and its record between any two events. -/
structure Disciplined (codec : Codec) (votePeriod : ℕ) (traced : Traced) : Prop where
  elapsed : ∀ entry ∈ traced.log, entry.height ≤ traced.chain.height
  ordered : traced.log.Pairwise fun earlier later => earlier.height ≤ later.height
  pending : ∀ voter prevote, traced.chain.state.store.prevotes.lookup voter = some prevote →
    lastOf voter traced.log = some (.prevote prevote.submitBlock voter prevote.hash)
  votes : ∀ voter tuples, traced.chain.state.store.votes.lookup voter = some tuples →
    ∃ height salt exchangeRates, .vote height voter salt exchangeRates ∈ traced.log ∧
      height / votePeriod = traced.chain.height / votePeriod ∧ parseExchangeRateTuples exchangeRates = .ok tuples
  reveals : ∀ before height voter salt exchangeRates after,
    traced.log = before ++ .vote height voter salt exchangeRates :: after →
      Reveals codec votePeriod before height voter salt exchangeRates

/-- An entry of a longer record is its last one or one of those before. -/
theorem split_concat {log before after : List Entry} {last entry : Entry} (split : log ++ [last] = before ++ entry :: after) :
    (before = log ∧ entry = last) ∨ ∃ sooner, log = before ++ entry :: sooner := by
  rcases List.eq_nil_or_concat after with rfl | ⟨sooner, final, rfl⟩
  · obtain ⟨rfl, same⟩ := List.append_inj' split rfl
    exact .inl ⟨rfl, (List.cons.inj same).1.symm⟩
  · rw [List.concat_eq_append, ← List.cons_append, ← List.append_assoc] at split
    exact .inr ⟨sooner, (List.append_inj' split rfl).1⟩

section Invariant

variable {codec : Codec} {votePeriod : ℕ} {chain next : Chain} {log : List Entry}

section

variable (disciplined : Disciplined codec votePeriod ⟨chain, log⟩)
include disciplined

/-- An entry of this block goes to the end of the record. -/
theorem Disciplined.recorded {entry : Entry} (now : entry.height = chain.height) :
    (∀ earlier ∈ log ++ [entry], earlier.height ≤ chain.height) ∧
      (log ++ [entry]).Pairwise fun earlier later => earlier.height ≤ later.height := by
  constructor
  · intro earlier inside
    rcases List.mem_append.mp inside with old | new
    · exact disciplined.elapsed earlier old
    · rw [List.mem_singleton.mp new, now]
  · refine List.pairwise_append.mpr ⟨disciplined.ordered, List.pairwise_singleton _ _, fun earlier inside new isNew => ?_⟩
    rw [List.mem_singleton.mp isNew, now]
    exact disciplined.elapsed earlier inside

theorem Disciplined.prevoted {voter : ValAddress} {hash : String}
    (prevotes : next.state.store.prevotes = chain.state.store.prevotes.insert voter ⟨hash, chain.height⟩)
    (votes : next.state.store.votes = chain.state.store.votes) (height : next.height = chain.height) :
    Disciplined codec votePeriod ⟨next, log ++ [.prevote chain.height voter hash]⟩ where
  elapsed := by
    rw [height]
    exact (disciplined.recorded rfl).1
  ordered := (disciplined.recorded rfl).2
  pending other prevote found := by
    rw [prevotes, AList.lookup_insert_eq_ite] at found
    rw [lastOf_concat, Entry.voter]
    split at found
    · next same =>
      cases found
      rw [if_pos same.symm, same]
    · next different =>
      rw [if_neg fun same : voter = other => different same.symm]
      exact disciplined.pending other prevote found
  votes other tuples found := by
    rw [votes] at found
    obtain ⟨revealedAt, salt, exchangeRates, inside, rest⟩ := disciplined.votes other tuples found
    rw [height]
    exact ⟨revealedAt, salt, exchangeRates, List.mem_append_left _ inside, rest⟩
  reveals before revealedAt other salt exchangeRates after split := by
    rcases split_concat split with ⟨_, same⟩ | ⟨sooner, split⟩
    · cases same
    · exact disciplined.reveals before revealedAt other salt exchangeRates sooner split

theorem Disciplined.revealed {voter : ValAddress} {salt exchangeRates : String} {tuples : List ExchangeRateTuple}
    {prevote : AggregateExchangeRatePrevote} (found : chain.state.store.prevotes.lookup voter = some prevote)
    (period : chain.height / votePeriod - prevote.submitBlock / votePeriod = 1)
    (parsed : parseExchangeRateTuples exchangeRates = .ok tuples)
    (committed : prevote.hash = getAggregateVoteHash codec salt exchangeRates voter)
    (prevotes : next.state.store.prevotes = chain.state.store.prevotes.erase voter)
    (votes : next.state.store.votes = chain.state.store.votes.insert voter tuples) (height : next.height = chain.height) :
    Disciplined codec votePeriod ⟨next, log ++ [.vote chain.height voter salt exchangeRates]⟩ where
  elapsed := by
    rw [height]
    exact (disciplined.recorded rfl).1
  ordered := (disciplined.recorded rfl).2
  pending other pending stored := by
    rw [prevotes] at stored
    have different : voter ≠ other := by
      rintro rfl
      rw [AList.lookup_erase] at stored
      cases stored
    rw [AList.lookup_erase_ne different.symm] at stored
    rw [lastOf_concat, Entry.voter, if_neg different]
    exact disciplined.pending other pending stored
  votes other cast stored := by
    rw [votes, AList.lookup_insert_eq_ite] at stored
    rw [height]
    split at stored
    · next same =>
      cases stored
      rw [same]
      exact ⟨chain.height, salt, exchangeRates, by simp, rfl, parsed⟩
    · obtain ⟨revealedAt, salt, exchangeRates, inside, rest⟩ := disciplined.votes other cast stored
      exact ⟨revealedAt, salt, exchangeRates, List.mem_append_left _ inside, rest⟩
  reveals before revealedAt other otherSalt otherRates after split := by
    rcases split_concat split with ⟨rfl, same⟩ | ⟨sooner, split⟩
    · cases same
      refine ⟨prevote.submitBlock, by omega, ?_⟩
      rw [← committed]
      exact disciplined.pending voter prevote found
    · exact disciplined.reveals before revealedAt other otherSalt otherRates sooner split

theorem Disciplined.other (prevotes : next.state.store.prevotes = chain.state.store.prevotes)
    (votes : next.state.store.votes = chain.state.store.votes) (height : next.height = chain.height) :
    Disciplined codec votePeriod ⟨next, log⟩ where
  elapsed := by
    rw [height]
    exact disciplined.elapsed
  ordered := disciplined.ordered
  pending := by
    rw [prevotes]
    exact disciplined.pending
  votes := by
    rw [votes, height]
    exact disciplined.votes
  reveals := disciplined.reveals

/-- At the end of a period all votes are dropped; within it the period stays the same. -/
theorem Disciplined.ended
    (prevotes : ∀ voter prevote, next.state.store.prevotes.lookup voter = some prevote →
      chain.state.store.prevotes.lookup voter = some prevote)
    (votes : next.state.store.votes = if (chain.height + 1) % votePeriod = 0 then ∅ else chain.state.store.votes)
    (height : next.height = chain.height + 1) : Disciplined codec votePeriod ⟨next, log⟩ where
  elapsed entry inside := by
    rw [height]
    exact Nat.le_succ_of_le (disciplined.elapsed entry inside)
  ordered := disciplined.ordered
  pending voter prevote found := disciplined.pending voter prevote (prevotes voter prevote found)
  votes voter tuples found := by
    rw [votes] at found
    split at found
    · simp at found
    · next within =>
      obtain ⟨revealedAt, salt, exchangeRates, inside, period, parsed⟩ := disciplined.votes voter tuples found
      refine ⟨revealedAt, salt, exchangeRates, inside, ?_, parsed⟩
      rw [height, Nat.succ_div_of_not_dvd fun divides => within (Nat.mod_eq_zero_of_dvd divides)]
      exact period
  reveals := disciplined.reveals

end

/-- Every event keeps the discipline. -/
theorem Disciplined.step {traced after : Traced} (disciplined : Disciplined codec votePeriod traced) {event : Event}
    (period : HasPeriod votePeriod event) (ok : traced.step codec event = .ok after) :
    Disciplined codec votePeriod after := by
  simp only [Traced.step, ok_iffs] at ok
  obtain ⟨next, ok, rfl⟩ := ok
  have done := step_ballots period ok
  generalize entryOf traced.chain event = entry at done
  cases done with
  | prevoted voter hash prevotes votes height => exact disciplined.prevoted prevotes votes height
  | revealed voter salt exchangeRates tuples prevote found period parsed committed prevotes votes height =>
    exact disciplined.revealed found period parsed committed prevotes votes height
  | other prevotes votes height =>
    rw [Option.toList_none, List.append_nil]
    exact disciplined.other prevotes votes height
  | ended positive prevotes votes height =>
    rw [Option.toList_none, List.append_nil]
    exact disciplined.ended (fun voter prevote found => ((prevotes voter prevote).mp found).1) votes height

end Invariant

/-! ## The protocol -/

/-- Between any two events of a run: the votes that wait for the tally of the current period were revealed in it and fixed
by prevotes of the period before; every vote in the record follows its prevote, so that a prevote yields one vote at most;
a validator's votes are of different periods; and the end of the block would delete no prevote that can still be
revealed. -/
structure CommitReveal (codec : Codec) (votePeriod : ℕ) (traced : Traced) : Prop where
  tallied : ∀ voter tuples, traced.chain.state.store.votes.lookup voter = some tuples →
    ∃ height salt exchangeRates submitBlock, .vote height voter salt exchangeRates ∈ traced.log ∧
      height / votePeriod = traced.chain.height / votePeriod ∧ parseExchangeRateTuples exchangeRates = .ok tuples ∧
      .prevote submitBlock voter (getAggregateVoteHash codec salt exchangeRates voter) ∈ traced.log ∧
      submitBlock / votePeriod + 1 = traced.chain.height / votePeriod
  reveals : ∀ before height voter salt exchangeRates after,
    traced.log = before ++ .vote height voter salt exchangeRates :: after →
      Reveals codec votePeriod before height voter salt exchangeRates
  perPeriod : ∀ before height voter salt exchangeRates between laterHeight laterSalt laterRates after,
    traced.log = before ++ .vote height voter salt exchangeRates ::
        (between ++ .vote laterHeight voter laterSalt laterRates :: after) →
      height / votePeriod < laterHeight / votePeriod
  kept : ∀ staking params orders floatSqrt blockEnd, params.votePeriod = votePeriod →
    endBlocker (traced.chain.ctx staking params orders floatSqrt) traced.chain.state = .ok blockEnd →
    ∀ voter prevote, traced.chain.state.store.prevotes.lookup voter = some prevote →
      blockEnd.state.store.prevotes.lookup voter ≠ some prevote →
      ∀ later, traced.chain.height < later → later / votePeriod - prevote.submitBlock / votePeriod ≠ 1

/-- After an entry of a validator, its last entry is this one or a later one. -/
theorem lastOf_append_cons {voter : ValAddress} {before between : List Entry} {entry last : Entry}
    (own : entry.voter = voter) (isLast : lastOf voter (before ++ entry :: between) = some last) :
    last = entry ∨ last ∈ between := by
  have inside : last ∈ entry :: between.filter fun other => other.voter = voter := by
    apply List.mem_of_getLast?
    rw [← isLast, lastOf, List.filter_append, List.filter_cons_of_pos (by simpa using own), List.getLast?_append]
    simp [List.getLast?_cons]
  rcases List.mem_cons.mp inside with same | later
  · exact .inl same
  · exact .inr (List.mem_of_mem_filter later)

/-- A prevote that is deleted at the end of a period was of an earlier one. -/
theorem deleted_expired {height submitBlock votePeriod later : ℕ} (positive : votePeriod ≠ 0)
    (last : (height + 1) % votePeriod = 0) (old : submitBlock + votePeriod < height) (after : height < later) :
    later / votePeriod - submitBlock / votePeriod ≠ 1 := by
  have next : (height + 1) / votePeriod ≤ later / votePeriod := Nat.div_le_div_right after
  have whole : (height + 1) / votePeriod * votePeriod = height + 1 := Nat.div_mul_cancel (Nat.dvd_of_mod_eq_zero last)
  have early : submitBlock / votePeriod < (height + 1) / votePeriod - 1 := by
    rw [Nat.div_lt_iff_lt_mul (Nat.pos_of_ne_zero positive), Nat.sub_mul, whole, one_mul]
    omega
  intro one
  have gap : 1 < later / votePeriod - submitBlock / votePeriod :=
    Nat.lt_sub_of_add_lt ((Nat.add_comm _ _).trans_lt ((Nat.add_lt_of_lt_sub early).trans_le next))
  exact absurd one gap.ne'

theorem Disciplined.commitReveal {codec : Codec} {votePeriod : ℕ} {traced : Traced}
    (disciplined : Disciplined codec votePeriod traced) : CommitReveal codec votePeriod traced where
  tallied voter tuples found := by
    obtain ⟨height, salt, exchangeRates, inside, period, parsed⟩ := disciplined.votes voter tuples found
    obtain ⟨before, after, split⟩ := List.append_of_mem inside
    obtain ⟨submitBlock, sooner, last⟩ := disciplined.reveals before height voter salt exchangeRates after split
    refine ⟨height, salt, exchangeRates, submitBlock, inside, period, parsed, ?_, by omega⟩
    rw [split]
    exact List.mem_append_left _ (mem_of_lastOf last).1
  reveals := disciplined.reveals
  perPeriod before height voter salt exchangeRates between laterHeight laterSalt laterRates after split := by
    rw [← List.cons_append, ← List.append_assoc] at split
    obtain ⟨submitBlock, sooner, last⟩ := disciplined.reveals _ laterHeight voter laterSalt laterRates after split
    have own : (Entry.vote height voter salt exchangeRates).voter = voter := rfl
    rcases lastOf_append_cons own last with same | inside
    · cases same
    · -- the prevote of the later vote was sent after the earlier vote
      have ordered := disciplined.ordered
      rw [split, List.append_assoc, List.cons_append] at ordered
      have afterwards := (List.pairwise_cons.mp (List.pairwise_append.mp ordered).2.1).1 _
        (List.mem_append_left _ inside)
      have : height / votePeriod ≤ submitBlock / votePeriod := Nat.div_le_div_right afterwards
      omega
  kept staking params orders floatSqrt blockEnd period ok voter prevote found deleted later after := by
    subst period
    obtain ⟨positive, prevotes, _⟩ := endBlock_ballots ok
    rw [ne_eq, prevotes, not_and] at deleted
    obtain ⟨last, old⟩ := Classical.not_imp.mp (deleted found)
    exact deleted_expired positive last (not_le.mp old) after

/-- In every run with one vote period that starts without prevotes and votes, votes are committed to and revealed in
order; and what a validator has committed to is one salt and one text of exchange rates. -/
theorem votes_committed {codec : Codec} (collisionFree : Function.Injective codec.digest) {votePeriod : ℕ} {chain : Chain}
    (noPrevotes : chain.state.store.prevotes = ∅) (noVotes : chain.state.store.votes = ∅) {events : List Event}
    (period : ∀ event ∈ events, HasPeriod votePeriod event) :
    CommitReveal codec votePeriod (replay (Traced.step codec) ⟨chain, []⟩ events) ∧
      ∀ voter salt exchangeRates tuples salt' exchangeRates' tuples',
        parseExchangeRateTuples exchangeRates = .ok tuples → parseExchangeRateTuples exchangeRates' = .ok tuples' →
        getAggregateVoteHash codec salt exchangeRates voter = getAggregateVoteHash codec salt' exchangeRates' voter →
        salt = salt' ∧ exchangeRates = exchangeRates' := by
  constructor
  · apply Disciplined.commitReveal
    apply replay_invariant (Disciplined codec votePeriod) (HasPeriod votePeriod) _ _ period
    · intro traced event next disciplined has success
      exact disciplined.step has success
    · refine ⟨by simp, List.Pairwise.nil, ?_, ?_, by simp⟩
      · simp [noPrevotes]
      · simp [noVotes]
  · intro voter salt exchangeRates tuples salt' exchangeRates' tuples' parsed parsed' same
    exact getAggregateVoteHash_inj collisionFree parsed parsed' same

/-! ## A sample -/

/-- The bytes of a text stand for its hash. -/
def sampleCodec : Codec := ⟨fun _ => "v", fun _ => "a", fun text => text.toByteArray.data.toList, fun _ => ""⟩

theorem sampleCodec_collisionFree : Function.Injective sampleCodec.digest := by
  intro left right same
  apply String.toByteArray_inj.mp
  exact ByteArray.ext (Array.toList_inj.mp same)

def commitStaking : Staking where
  byPower := [⟨1, 1, true, false⟩]
  maxValidators := 1
  validator := fun operator => some ⟨operator, 1, true, false⟩
  totalBondedPower := 1

def commitChain : Chain :=
  ⟨⟨⟨∅, ∅, ∅, AList.singleton "uusm" (), ∅⟩, ⟨fun _ _ => 0, fun _ => 0⟩⟩, ∅, ∅, 0⟩

/-- With a vote period of one block, a prevote in the first block and its vote in the second one. -/
def commitEvents : List Event :=
  let params := { defaultParams with votePeriod := 1 }
  [.message commitStaking params (.aggregateExchangeRatePrevote (getAggregateVoteHash sampleCodec "s" "uusm:1" 1) 1 1),
    .endBlock commitStaking params ⟨.listed _, .listed _, .listed _, .listed _, .listed _⟩ fun _ => Dec.zero,
    .message commitStaking params (.aggregateExchangeRateVote "s" "uusm:1" 1 1)]

theorem commitEvents_period : ∀ event ∈ commitEvents, HasPeriod 1 event := by
  intro event inside
  simp only [commitEvents, List.mem_cons, List.not_mem_nil, or_false] at inside
  rcases inside with rfl | rfl | rfl
  all_goals rfl

theorem votes_committed_sample :
    (replay (Traced.step sampleCodec) ⟨commitChain, []⟩ commitEvents).chain.state.store.votes.lookup 1 =
      some [⟨"uusm", Dec.one⟩] ∧
    CommitReveal sampleCodec 1 (replay (Traced.step sampleCodec) ⟨commitChain, []⟩ commitEvents) :=
  ⟨by decide +kernel, (votes_committed sampleCodec_collisionFree rfl rfl commitEvents_period).1⟩

end Rotofury.Soundness.Oracle
