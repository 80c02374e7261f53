import Rotofury.Model.Sdk.Dec

/-! # Decimals as texts

`NewDecFromStr` takes the digits before and after a point together and fills up to eighteen decimals. The sign is taken off
before, but `SetString` takes one more.
-/

namespace Rotofury.Model.Sdk

variable {text str : List Char} {char : Char} {value : ℤ}

/-- `unicode.IsSpace` -/
def isSpace (char : Char) : Bool :=
  (0x9 ≤ char.toNat && char.toNat ≤ 0xd) || char = ' ' || char.toNat = 0x85 || char.toNat = 0xa0 || char.toNat = 0x1680 ||
    (0x2000 ≤ char.toNat && char.toNat ≤ 0x200a) || char.toNat = 0x2028 || char.toNat = 0x2029 || char.toNat = 0x202f ||
    char.toNat = 0x205f || char.toNat = 0x3000

/-- `strings.TrimSpace` -/
def trimSpace (text : List Char) : List Char := ((text.dropWhile isSpace).reverse.dropWhile isSpace).reverse

def natOfDigits (digits : List Char) : Option ℕ :=
  if digits ≠ [] ∧ digits.all Char.isDigit = true then some (Nat.ofDigitChars 10 digits 0) else none

/-- `SetString` of a big integer in base ten -/
def bigIntOfText : List Char → Option ℤ
  | '-' :: digits => (natOfDigits digits).map fun value : ℕ => -(value : ℤ)
  | '+' :: digits => (natOfDigits digits).map fun value : ℕ => (value : ℤ)
  | digits => (natOfDigits digits).map fun value : ℕ => (value : ℤ)

/-- The digits before and after the point. -/
def decimalParts (str : List Char) : Except String (List Char × List Char) :=
  match str.splitOn '.' with
  | [whole] => .ok (whole, [])
  | [whole, decimals] => do
    Except.require (decimals ≠ [] ∧ whole ≠ []) "invalid decimal length"
    pure (whole, decimals)
  | _ => .error "invalid decimal string"

/-- A decimal without its sign. -/
def combinedOfText (str : List Char) : Except String ℤ := do
  Except.require (str ≠ []) "decimal string cannot be empty"
  let (whole, decimals) ← decimalParts str
  Except.require (decimals.length ≤ 18) s!"invalid precision; max: 18, got: {decimals.length}"
  let combinedStr := whole ++ decimals ++ List.replicate (18 - decimals.length) '0'
  match bigIntOfText combinedStr with
  | none => .error s!"failed to set decimal string: {String.ofList combinedStr}"
  | some combined => do
    Except.require (combined.natAbs < 2 ^ 315) s!"decimal out of range; bitLen: got {combined.natAbs.size}, max 315"
    pure combined

/-- `NewDecFromStr` -/
def Dec.ofText : List Char → Except String Dec
  | [] => .error "decimal string cannot be empty"
  | '-' :: str => (fun combined => ⟨-combined⟩) <$> combinedOfText str
  | str => (fun combined => ⟨combined⟩) <$> combinedOfText str

/-! ## What an accepted text is made of -/

theorem mem_or_space_of_mem_dropWhile (inside : char ∈ text) :
    isSpace char = true ∨ char ∈ text.dropWhile isSpace := by
  induction text with
  | nil => simp at inside
  | cons first rest ih =>
    rw [List.dropWhile_cons]
    split
    · next space =>
      rcases List.mem_cons.mp inside with rfl | later
      · exact .inl space
      · exact ih later
    · exact .inr inside

/-- Trimming takes nothing but space. -/
theorem mem_or_space_of_mem_trimSpace (inside : char ∈ text) :
    isSpace char = true ∨ char ∈ trimSpace text := by
  rcases mem_or_space_of_mem_dropWhile inside with space | left
  · exact .inl space
  · rcases mem_or_space_of_mem_dropWhile (List.mem_reverse.mpr left) with space | kept
    · exact .inl space
    · exact .inr (List.mem_reverse.mpr kept)

theorem mem_intercalate {separator : List Char} {parts : List (List Char)}
    (inside : char ∈ separator.intercalate parts) : char ∈ separator ∨ ∃ part ∈ parts, char ∈ part := by
  induction parts with
  | nil => simp [List.intercalate] at inside
  | cons first rest ih =>
    cases rest with
    | nil => exact .inr ⟨first, by simp, by simpa [List.intercalate] using inside⟩
    | cons second rest =>
      have split : char ∈ first ∨ char ∈ separator ∨ char ∈ separator.intercalate (second :: rest) := by
        simpa [List.intercalate] using inside
      rcases split with here | between | later
      · exact .inr ⟨first, by simp, here⟩
      · exact .inl between
      · rcases ih later with between | ⟨part, isPart, here⟩
        · exact .inl between
        · exact .inr ⟨part, List.mem_cons_of_mem _ isPart, here⟩

/-- Every character is a separator or in one of the parts. -/
theorem mem_splitOn (separator : Char) (inside : char ∈ text) :
    char = separator ∨ ∃ part ∈ text.splitOn separator, char ∈ part := by
  have joined : [separator].intercalate (text.splitOn separator) = text := List.intercalate_splitOn separator
  rw [← joined] at inside
  rcases mem_intercalate inside with between | part
  · exact .inl (List.mem_singleton.mp between)
  · exact .inr part

theorem validateDenom_chars {denom : Denom} (valid : validateDenom denom = true) (inside : char ∈ denom.toList) :
    isDenomChar char = true := by
  unfold validateDenom at valid
  split at valid
  · next first rest text =>
    simp only [Bool.and_eq_true, List.all_eq_true] at valid
    rw [text] at inside
    rcases List.mem_cons.mp inside with rfl | later
    · simp [isDenomChar, Char.isAlphanum, valid.1.1.1]
    · exact valid.2 char later
  · cases valid

/-- The characters of a decimal. -/
def isDecChar (char : Char) : Bool := char.isDigit || char = '-' || char = '+' || char = '.'

theorem natOfDigits_chars {digits : List Char} {value : ℕ} (read : natOfDigits digits = some value)
    (inside : char ∈ digits) : isDecChar char = true := by
  unfold natOfDigits at read
  split at read
  · next all => simp [isDecChar, List.all_eq_true.mp all.2 char inside]
  · cases read

theorem bigIntOfText_chars (read : bigIntOfText text = some value) (inside : char ∈ text) : isDecChar char = true := by
  unfold bigIntOfText at read
  split at read
  all_goals
    obtain ⟨number, digits, _⟩ := Option.map_eq_some_iff.mp read
  · rcases List.mem_cons.mp inside with rfl | later
    · rfl
    · exact natOfDigits_chars digits later
  · rcases List.mem_cons.mp inside with rfl | later
    · rfl
    · exact natOfDigits_chars digits later
  · exact natOfDigits_chars digits inside

theorem decimalParts_chars {whole decimals : List Char} (parts : decimalParts str = .ok (whole, decimals))
    (inside : char ∈ str) : char = '.' ∨ char ∈ whole ∨ char ∈ decimals := by
  rcases mem_splitOn '.' inside with point | ⟨part, isPart, here⟩
  · exact .inl point
  · unfold decimalParts at parts
    split at parts
    · next only split =>
      cases parts
      rw [split] at isPart
      exact .inr (.inl (List.mem_singleton.mp isPart ▸ here))
    · next before behind split =>
      simp only [Except.ok_iffs, Prod.mk.injEq] at parts
      obtain ⟨_, _, rfl, rfl⟩ := parts
      rw [split] at isPart
      rcases List.mem_pair.mp isPart with rfl | rfl
      · exact .inr (.inl here)
      · exact .inr (.inr here)
    · cases parts

theorem combinedOfText_chars (read : combinedOfText str = .ok value) (inside : char ∈ str) : isDecChar char = true := by
  simp only [combinedOfText, Except.bind_ok_iff] at read
  obtain ⟨_, _, ⟨whole, decimals⟩, parts, _, _, read⟩ := read
  dsimp only at read
  split at read
  · cases read
  · next combined isCombined =>
    rcases decimalParts_chars parts inside with rfl | before | behind
    · rfl
    · exact bigIntOfText_chars isCombined (by simp [before])
    · exact bigIntOfText_chars isCombined (by simp [behind])

theorem Dec.ofText_chars {value : Dec} (read : Dec.ofText str = .ok value) (inside : char ∈ str) :
    isDecChar char = true := by
  unfold Dec.ofText at read
  split at read
  · cases read
  · obtain ⟨combined, read, _⟩ := Except.map_ok_iff.mp read
    rcases List.mem_cons.mp inside with rfl | later
    · rfl
    · exact combinedOfText_chars read later
  · obtain ⟨combined, read, _⟩ := Except.map_ok_iff.mp read
    exact combinedOfText_chars read inside

example : Dec.ofText "-1.05".toList = .ok ⟨-1050000000000000000⟩ := by decide +kernel

end Rotofury.Model.Sdk
