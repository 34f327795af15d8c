import Shade.Api.Ids

/-!
# Hashes of intents and quotes

The package that the command line and the solvers use prints JSON values with a function of its
own, and hashes intents and quotes with it.
-/

namespace Shade.Solver

open Text Api

/-- The SHA-256 hash of a text, in hexadecimal digits. -/
def sha256Text (s : Text) : Text := hexBytes (sha256 (utf8 s)).toBytes

variable (platform : Platform)

mutual

/-- Print a value. -/
def stable : Json → Text
  | .null => "null".toList
  | .bool b => if b then "true".toList else "false".toList
  | .number q => platform.printNumber q
  | .string s => quote s
  | .array items => array (stableItems items)
  | .object fields => object ((stableFields fields).mergeSort fun f g =>
      platform.localeLe f.1 g.1)

/-- Print the items of an array. -/
def stableItems : List Json → List Text
  | [] => []
  | v :: vs => stable v :: stableItems vs

/-- Print the members of an object. -/
def stableFields : List (Text × Json) → List (Text × Text)
  | [] => []
  | (k, v) :: rest => (k, stable v) :: stableFields rest

end

/-- The hash of an intent. -/
def intentHash (intent : Json) : Text := "0x".toList ++ sha256Text (stable platform intent)

/-- The hash of a quote. -/
def quoteHash (q : Json) : Text := "0x".toList ++ sha256Text (stable platform q)

end Shade.Solver
