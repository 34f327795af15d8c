import Shade.Library.Hex
import Shade.Pool.Rfq

/-!
# The solver's side of an atomic swap

How the client of a solver puts together the terms of an atomic swap that the solver signs. It
computes with integers of any size, and texts are written and read in hexadecimal.
-/

namespace Shade.Solver

open Text Pool

/-- The text without its mark. -/
def strip0x (s : Text) : Text :=
  if "0x".toList <+: s then s.drop 2 else s

/-- The character is a hexadecimal digit, in either case. -/
def isHex (c : Char) : Bool :=
  ('0' ≤ c && c ≤ '9') || ('A' ≤ c && c ≤ 'F') || ('a' ≤ c && c ≤ 'f')

/-- The bytes of a text of digits, up to the first pair that is not one of digits. -/
def fromHex : Text → Bytes
  | high :: low :: s =>
      if isHex high && isHex low then
        UInt8.ofNat (hexValue high * 16 + hexValue low) :: fromHex s
      else
        []
  | _ => []

/-- Write the low bytes of an integer in front of the bytes that are there, the lowest first. -/
def writeLowBytes : ℕ → ℤ → Bytes → Bytes
  | 0, _, b => b
  | n + 1, x, b => writeLowBytes n (x / 256) (UInt8.ofNat (x % 256).toNat :: b)

/-- The sixteen low bytes of an integer, the highest first. -/
def i128beBytes (v : ℤ) : Bytes := writeLowBytes 16 v []

variable (sha256 : Bytes → Word)

/-- The hash of a strkey without its last byte, after a zero byte. -/
def recipientHashBytes (strkey : Text) : Bytes :=
  0 :: (sha256 (utf8 strkey)).toBytes.take 31

/-- The terms of an atomic swap. -/
structure AtomicSwapTerms where
  quoteHashHex : Text
  outputAssetIdHex : Text
  quotedOutput : ℤ
  minOutput : ℤ
  priceScaled : ℤ
  recipientStrkey : Text
deriving DecidableEq

/-- The bytes that are hashed for the terms. -/
def AtomicSwapTerms.bytes (t : AtomicSwapTerms) : Bytes :=
  fromHex (strip0x t.quoteHashHex) ++ fromHex (strip0x t.outputAssetIdHex)
    ++ i128beBytes t.quotedOutput ++ i128beBytes t.minOutput ++ i128beBytes t.priceScaled
    ++ recipientHashBytes sha256 t.recipientStrkey

/-- The hash of the terms, which the solver signs. -/
def atomicSwapHash (t : AtomicSwapTerms) : Text :=
  "0x".toList ++ hexBytes (sha256 (t.bytes sha256)).toBytes

/-- The terms are those of a call of the pool: the texts denote its quote hash and its output
asset, and the recipient is given by the strkey. -/
structure AtomicSwapTerms.Denotes (t : AtomicSwapTerms) (args : AtomicSwapArgs) : Prop where
  quoteHash : fromHex (strip0x t.quoteHashHex) = args.quoteHash.toBytes
  outputAssetId : fromHex (strip0x t.outputAssetIdHex) = args.outputAssetId.toBytes
  quotedOutput : t.quotedOutput = args.quotedOutput.val
  minOutput : t.minOutput = args.minOutput.val
  priceScaled : t.priceScaled = args.priceScaled.val
  recipient : utf8 t.recipientStrkey = args.userXlmRecipient.strkey

end Shade.Solver
