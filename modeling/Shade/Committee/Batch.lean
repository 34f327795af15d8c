import Shade.Host
import Shade.Library.Text

/-!
# Batches of matches

A batch is what the committee signs: an identifier and a list of matches. Its hash is the
hash of a JSON text in which the matches stand in an order that does not depend on how they
were listed.
-/

namespace Shade.Committee

open Text

/-- A match of two intents. The last three fields are only set across assets. -/
structure MatchResult where
  intentAId : Text
  intentBId : Text
  matchedAmount7dp : Text
  inputAsset : Text
  outputAsset : Text
  priceScaled : Option Text
  assetIn : Option Text
  assetOut : Option Text
deriving DecidableEq

/-- The signed content of a match, by the names of its fields. -/
def MatchResult.row (m : MatchResult) : List (Text × Text) :=
  [("a".toList, m.intentAId), ("b".toList, m.intentBId), ("amt".toList, m.matchedAmount7dp),
    ("in".toList, m.inputAsset), ("out".toList, m.outputAsset),
    ("price".toList, m.priceScaled.getD []), ("assetIn".toList, m.assetIn.getD []),
    ("assetOut".toList, m.assetOut.getD [])]

/-- The key by which rows are sorted: the values with null characters between them. -/
def key (row : List (Text × Text)) : Text :=
  List.intercalate [Char.ofNat 0] (row.map Prod.snd)

/-- The rows of a batch in the order of their keys. -/
def sortedRows (matchList : List MatchResult) : List (List (Text × Text)) :=
  (matchList.map MatchResult.row).insertionSort fun x y => NotAfter (key x) (key y)

/-- The text of a batch. -/
def canonical (batchId : Text) (matchList : List MatchResult) : Text :=
  object [("batchId".toList, quote batchId),
    ("matches".toList, array ((sortedRows matchList).map fun row =>
      object (row.map fun f => (f.1, quote f.2))))]

/-- The hash of a batch. -/
def computeBatchHash (sha256 : Bytes → Word) (batchId : Text) (matchList : List MatchResult) :
    Word :=
  sha256 (utf8 (canonical batchId matchList))

/-- A batch of matches. -/
structure Batch where
  batchId : Text
  matchList : List MatchResult
deriving DecidableEq

/-- The hash of a batch, as the host computes it. -/
def Batch.hash (host : Host) (b : Batch) : Word :=
  computeBatchHash host.sha256 b.batchId b.matchList

/-- The amount of the match, as a decimal text, is the given number. -/
def MatchResult.HasAmount (m : MatchResult) (n : ℕ) : Prop :=
  m.matchedAmount7dp = Nat.toDigits 10 n

instance (m : MatchResult) (n : ℕ) : Decidable (m.HasAmount n) :=
  inferInstanceAs (Decidable (m.matchedAmount7dp = Nat.toDigits 10 n))

end Shade.Committee
