import Rotofury.Model.Ve.MsgServer

/-! # Ves as messages name them

A message names a ve by the id of its NFT, which is a text, and what it does is done to the number in that text. Several
texts have the same number, as `ve-1` and `ve-01`, but an NFT is only ever minted under the one `VeIDFromUint64` writes.
-/

namespace Rotofury.Model.Ve

open Model.Sdk Model.App Except

/-- `strconv.ParseUint` in base ten for 64 bits -/
def parseUint64 (digits : List Char) : Option ℕ :=
  if digits ≠ [] ∧ digits.all Char.isDigit = true ∧ Nat.ofDigitChars 10 digits 0 < 2 ^ 64 then
    some (Nat.ofDigitChars 10 digits 0)
  else none

def uint64FromVeId (veId : String) : ℕ :=
  match veId.toList.splitOn '-' with
  | [['v', 'e'], digits] => (parseUint64 digits).getD emptyVeId
  | _ => emptyVeId

theorem parseUint64_toDigits {number : ℕ} (small : number < 2 ^ 64) :
    parseUint64 (Nat.toDigits 10 number) = some number := by
  have digits : (Nat.toDigits 10 number).all Char.isDigit = true :=
    List.all_eq_true.mpr fun digit inside => Nat.isDigit_of_mem_toDigits (by decide) (by decide) inside
  simp only [parseUint64, Nat.ofDigitChars_ten_toDigits]
  exact if_pos ⟨Nat.toDigits_ne_nil, digits, small⟩

theorem uint64FromVeId_veIdText {number : ℕ} (small : number < 2 ^ 64) : uint64FromVeId (veIdText number) = number := by
  have text : (veIdText number).toList = ['-'].intercalate [['v', 'e'], Nat.toDigits 10 number] := by
    simp [veIdText, List.intercalate]
    rfl
  have split : (veIdText number).toList.splitOn '-' = [['v', 'e'], Nat.toDigits 10 number] := by
    rw [text]
    refine List.splitOn_intercalate '-' ?_ (by simp)
    intro part inside dash
    rcases List.mem_pair.mp inside with rfl | rfl
    · exact absurd dash (by decide)
    · exact absurd (Nat.isDigit_of_mem_toDigits (by decide) (by decide) dash) (by decide)
  simp only [uint64FromVeId, split, parseUint64_toDigits small, Option.getD_some]

example : uint64FromVeId "ve-01" = uint64FromVeId "ve-1" := by decide

/-- `GetOwner` of the NFT module for the class of ves -/
def Store.getOwner (store : Store) (veId : String) : Option Address :=
  if veIdText (uint64FromVeId veId) = veId then store.nftOwner (uint64FromVeId veId) else none

/-- The text of an id is read back as the id, and the NFT with that text has the owner of the ve. -/
theorem Store.getOwner_veIdText (store : Store) {number : ℕ} (small : number < 2 ^ 64) :
    uint64FromVeId (veIdText number) = number ∧ store.getOwner (veIdText number) = store.nftOwner number := by
  have parsed := uint64FromVeId_veIdText small
  rw [getOwner, parsed, if_pos rfl]
  exact ⟨rfl, rfl⟩

theorem Store.getOwner_sample : uint64FromVeId (veIdText 12) = 12 ∧
    { genesis with nftOwner := fun _ => some 1 }.getOwner (veIdText 12) = some 1 :=
  getOwner_veIdText _ (by decide)

/-- The messages of the module that only the owner of a ve may send, as they are sent. -/
inductive OwnerMsg where
  | extendTime (sender : Address) (veId : String) (lockDuration : ℕ)
  | merge (sender : Address) (fromVeId toVeId : String)
  | withdraw (sender : Address) (veId : String)
deriving DecidableEq, Repr

def OwnerMsg.validateBasic : OwnerMsg → Except Fault Unit
  | .extendTime _ veId lockDuration => do
    requireVeId (uint64FromVeId veId)
    requireLockDuration lockDuration
  | .merge _ fromVeId toVeId => do
    requireVeId (uint64FromVeId fromVeId)
    requireVeId (uint64FromVeId toVeId)
    -- the texts are compared, not the numbers
    require (fromVeId ≠ toVeId) (.err errSameVeId "")
  | .withdraw _ veId => requireVeId (uint64FromVeId veId)

/-- The handlers look the NFT up by its text and go on with the number. -/
def OwnerMsg.serve (ctx : Ctx) (state : State) : OwnerMsg → Except Fault State
  | .extendTime sender veId lockDuration => do
    require ((state.store.getOwner veId).isSome = true) (.err errInvalidVeId s!"invalid ve id: {veId}")
    Ve.extendTime ctx state ⟨sender, uint64FromVeId veId, lockDuration⟩
  | .merge sender fromVeId toVeId => do
    require (state.store.getOwner fromVeId = some sender)
      (.err errUnauthorized s!"user {sender} do not own ve {fromVeId}")
    require (state.store.getOwner toVeId = some sender)
      (.err errUnauthorized s!"user {sender} do not own ve {toVeId}")
    Ve.merge ctx state ⟨sender, uint64FromVeId fromVeId, uint64FromVeId toVeId⟩
  | .withdraw sender veId => do
    require (state.store.getOwner veId = some sender)
      (.err errUnauthorized s!"user {sender} do not own ve {ownerText (state.store.getOwner veId)}")
    Ve.withdraw ctx state ⟨sender, uint64FromVeId veId⟩

end Rotofury.Model.Ve
