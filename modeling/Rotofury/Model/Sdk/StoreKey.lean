import Rotofury.Math.BigEndian
import Rotofury.Model.App.Accounts

/-! # Keys of a module's store

A key is the bytes of its parts one after another, without separators or lengths.
-/

namespace Rotofury.Model.Sdk

abbrev Bytes := List UInt8

/-- `[]byte(denom)` -/
def denomBytes (denom : Denom) : Bytes := denom.toUTF8.data.toList

/-- `Uint64ToBigEndian` -/
def uint64ToBigEndian (value : ℕ) : Bytes := Math.bigEndian 8 value

def addressBytes (account : Address) : Bytes := Math.bigEndian 20 account.toNat

theorem denomBytes_injective : Function.Injective denomBytes := by
  intro left right same
  apply String.toByteArray_inj.mp
  apply ByteArray.ext
  exact Array.toList_inj.mp same

@[simp]
theorem denomBytes_inj {left right : Denom} : denomBytes left = denomBytes right ↔ left = right :=
  denomBytes_injective.eq_iff

@[simp] theorem length_uint64ToBigEndian (value : ℕ) : (uint64ToBigEndian value).length = 8 := Math.length_bigEndian 8 value

theorem append_uint64_injective {left right : ℕ} {front back : Bytes} (leftFits : left < 2 ^ 64) (rightFits : right < 2 ^ 64)
    (same : front ++ uint64ToBigEndian left = back ++ uint64ToBigEndian right) : front = back ∧ left = right :=
  Math.append_bigEndian_injective (by simpa using leftFits) (by simpa using rightFits) same

end Rotofury.Model.Sdk
