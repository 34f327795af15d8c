import Shade.Contract.PublicSignals
import Shade.Solver.Rfq

/-!
# Field reductions

The functions that turn hashes and strkeys into field elements: those of the provers and of the
registry of assets, which print a number in decimal or in hexadecimal, the one of the pool, which
moves bytes in an array, and the tool that writes a printed number as bytes.
-/

namespace Shade.Proving

open Endian Text

/-! ### Off the chain -/

/-- `BigInt` on the mark of hexadecimal numbers and a text of digits. -/
def bigIntOfHex (digits : Text) : Option ℕ :=
  (toInt? ("0x".toList ++ digits)).map Int.toNat

/-- The field element of a hash that is written in hexadecimal: its first 62 digits as a
number. -/
def hashToField (hex32 : Text) : Option Text :=
  (bigIntOfHex ((Solver.strip0x hex32).take 62)).map fun n => decimal n

section

variable (sha256 : Bytes → Word)

/-- The field element of a strkey. -/
def recipientHashField (strkey : Text) : Option Text :=
  (bigIntOfHex (hexBytes ((sha256 (utf8 strkey)).toBytes.take 31))).map fun n => decimal n

/-- The field element of the contract of a token. -/
def assetIdField (tokenContract : Text) : Option Text :=
  (bigIntOfHex (hexBytes ((sha256 (utf8 tokenContract)).toBytes.take 31))).map fun n => decimal n

/-- The number of a text. `BigInt` throws if it is none. -/
def ofDecimal (t : Text) : Option ℕ := (toInt? t).bind fun z => if z < 0 then none else some z.toNat

/-- The identifier of the contract of a token, in hexadecimal. -/
def assetIdHex (tokenContract : Text) : Option Text :=
  ((assetIdField sha256 tokenContract).bind ofDecimal).map fun field =>
    "0x".toList ++ (hexNat field).leftpad 64 '0'

end

/-- `BigUint` on a text: digits after an optional plus sign, with underscores between them. -/
def bigUint? (t : Text) : Option ℕ :=
  let t := match t with
    | '+' :: t => t
    | t => t
  if t.head? = some '_' then none else digits? 10 (t.filter (· ≠ '_'))

/-- The bytes of a signal, which is a decimal text. -/
def signalBytes (s : Text) : Option Bytes :=
  (bigUint? s).bind Circom2Soroban.padded

/-! ### On the chain -/

/-- The array of a reduced hash: the byte at each of the first 31 places is moved to the next
place. -/
def hashToFieldArray (src : Bytes) : Bytes :=
  (List.range 31).foldl (fun out i => out.set (i + 1) (src.getD i 0)) (List.replicate 32 0)

end Shade.Proving
