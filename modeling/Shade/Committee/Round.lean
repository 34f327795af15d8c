import Shade.Committee.Session

/-!
# Whole rounds

The two functions with which a round is run, from their call to their return. A session with fewer
than two intents is returned as it is. An error that is thrown is not a return.
-/

namespace Shade.Committee

open Text

/-- The session when the round of the combined server returns. -/
def matchingRound (crypto : Crypto) (sort : List Intent → List Intent) (nodes : List Text)
    (batchId : Text) (s : Session) : Option Session :=
  if s.intents.length < 2 then some s
  else
    let after := (runMatchingRound crypto sort nodes batchId s).1
    if after.status = .matching then none else some after

/-- The session when the round of the coordinator returns, with the answers of the nodes to its two
questions. -/
def runMatchingRoundRemote (crypto : Crypto) (sort : List Intent → List Intent)
    (nodes : List Text) (batchId : Text) (decrypted : List (Option DecryptAnswer))
    (signed : List (Option NodeSignature)) (s : Session) : Option Session :=
  if s.intents.length < 2 then some s
  else
    match afterDecrypt sort nodes decrypted (s.withStatus .matching) with
    | (after, none) => if after.status = .matching then none else some after
    | (after, some matchList) =>
        some (afterSign crypto nodes batchId matchList signed after).1

end Shade.Committee
