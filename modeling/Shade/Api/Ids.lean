import Shade.Library.Hex
import Shade.Library.Json
import Shade.Sha256

/-!
# Identifiers

Rows are identified by hashes of texts or of JSON values. A value is printed with the members of
its objects in the order of their names, which the collation of the platform gives, as the
platform gives the text of a number.
-/

namespace Shade.Api

open Text

/-- What the platform does with texts and numbers: a name does not come after another, and the
text of a number. -/
structure Platform where
  localeLe : Text → Text → Bool
  printNumber : ℚ → Text

/-- The character that separates the parts of an identifier. -/
def separator : Text := [Char.ofNat 0]

/-- The SHA-256 hash of a text, in hexadecimal digits. -/
def sha256Hex (t : Text) : Text := hexBytes (sha256 (utf8 t)).toBytes

/-- An identifier that is determined by its parts. -/
def deterministicId (nameSpace : Text) (parts : List Text) : Text :=
  nameSpace ++ "_".toList
    ++ (sha256Hex (nameSpace ++ separator ++ List.intercalate separator parts)).take 32

variable (platform : Platform)

mutual

/-- Print a value. -/
def stableStringify : Json → Text
  | .null => "null".toList
  | .bool b => if b then "true".toList else "false".toList
  | .number q => platform.printNumber q
  | .string s => quote s
  | .array items => array (stringifyItems items)
  | .object fields => object ((stringifyFields fields).mergeSort fun f g =>
      platform.localeLe f.1 g.1)

/-- Print the items of an array. -/
def stringifyItems : List Json → List Text
  | [] => []
  | v :: vs => stableStringify v :: stringifyItems vs

/-- Print the members of an object. -/
def stringifyFields : List (Text × Json) → List (Text × Text)
  | [] => []
  | (k, v) :: rest => (k, stableStringify v) :: stringifyFields rest

end

/-- The hash of a value. -/
def hashJson (v : Json) : Text := "0x".toList ++ sha256Hex (stableStringify platform v)

end Shade.Api
