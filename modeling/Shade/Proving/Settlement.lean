import Shade.Circuit.Settlement
import Shade.Proving.Deposit

/-!
# The settlement witness builder

How the relayer prepares the inputs of the settlement circuit from the files of two coins: coinutils
computes where each of them stands in the tree of the pool and in the association tree, the two
coins have to share their asset, and each party gets a fresh note of the matched amount. All inputs
are decimal texts.

Coinutils is a parameter: given a coin, the leaves of the pool, the scope and the association file,
it writes the paths of the coin, or fails.
-/

namespace Shade.Proving

open Endian Text Solver

/-- A coin, as far as the builder reads it. -/
structure GeneratedCoin where
  assetIdField : Text
  opening : CoinOpening
deriving DecidableEq

/-- The paths of a coin that coinutils writes. -/
structure CoinPaths where
  stateRoot : Text
  associationRoot : Text
  stateIndex : Text
  stateSiblings : List Text
  labelIndex : Text
  labelSiblings : List Text
deriving DecidableEq

/-- Compute the paths of a coin from the leaves of the pool, the scope and the association file. -/
def Withdraw : Type := GeneratedCoin → List Text → Text → Text → Except String CoinPaths

/-- What the relayer hands to the builder. -/
structure MpcSettlementParams where
  coinA : GeneratedCoin
  coinB : GeneratedCoin
  commitmentsDecimal : List Text
  assocPath : Text
  scope : Text
  batchHashHex : Text
  poolId : Text
  chainId : Text
  matchedAmount7dp : Text
  deadlineLedger : Text
deriving DecidableEq

/-- The inputs of the settlement circuit. -/
structure MpcSettlementInput where
  stateRoot : Text
  associationRoot : Text
  batchHash : Text
  poolId : Text
  chainId : Text
  matchedAmount7dp : Text
  deadlineLedger : Text
  assetId : Text
  coinA : CoinOpening
  stateIndexA : Text
  stateSiblingsA : List Text
  labelIndexA : Text
  labelSiblingsA : List Text
  outA : CoinOpening
  coinB : CoinOpening
  stateIndexB : Text
  stateSiblingsB : List Text
  labelIndexB : Text
  labelSiblingsB : List Text
  outB : CoinOpening
deriving DecidableEq

/-- The modulus by which the builder reduces what it draws. -/
def bn254P : ℕ :=
  21888242871839275222246405745257275088548364400416034343698204186575808495617

/-- A field element from 31 bytes that were drawn. -/
def randField (drawn : Bytes) : Text := decimal (ofBE drawn % bn254P : ℕ)

/-- What is drawn for a fresh note. -/
structure Draw where
  label : Bytes
  nullifier : Bytes
  secret : Bytes
deriving DecidableEq

/-- A fresh note of an amount. -/
def freshNote (amount : Text) (d : Draw) : CoinOpening where
  value := amount
  label := randField d.label
  nullifier := randField d.nullifier
  secret := randField d.secret

/-- Build the inputs of the circuit, and the openings of the two notes it creates. -/
def buildMpcSettlementWitness (withdraw : Withdraw) (drawA drawB : Draw) (p : MpcSettlementParams) :
    Except String (MpcSettlementInput × CoinOpening × CoinOpening) := do
  let wA ← withdraw p.coinA p.commitmentsDecimal p.scope p.assocPath
  let wB ← withdraw p.coinB p.commitmentsDecimal p.scope p.assocPath
  let assetId := p.coinA.assetIdField
  if assetId = [] ∨ assetId ≠ p.coinB.assetIdField then
    throw "mpc_settlement is same-asset only: coinA and coinB must share one assetId"
  let outA := freshNote p.matchedAmount7dp drawA
  let outB := freshNote p.matchedAmount7dp drawB
  match hashToField p.batchHashHex with
  | none =>
      let digits := "0x".toList ++ (strip0x p.batchHashHex).take 62
      throw ("Cannot convert " ++ String.ofList digits ++ " to a BigInt")
  | some batchHash =>
      return (
        { stateRoot := wA.stateRoot
          associationRoot := wA.associationRoot
          batchHash
          poolId := p.poolId
          chainId := p.chainId
          matchedAmount7dp := p.matchedAmount7dp
          deadlineLedger := p.deadlineLedger
          assetId
          coinA := p.coinA.opening
          stateIndexA := wA.stateIndex
          stateSiblingsA := wA.stateSiblings
          labelIndexA := wA.labelIndex
          labelSiblingsA := wA.labelSiblings
          outA
          coinB := p.coinB.opening
          stateIndexB := wB.stateIndex
          stateSiblingsB := wB.stateSiblings
          labelIndexB := wB.labelIndex
          labelSiblingsB := wB.labelSiblings
          outB }, outA, outB)

/-! ### The inputs as signals -/

/-- The signals of an array. -/
def readSignals (n : ℕ) (ts : List Text) : Option (List.Vector Fr n) := do
  let xs ← ts.mapM readSignal
  if h : xs.length = n then some ⟨xs, h⟩ else none

/-- The assignment of the circuit for the inputs; the outputs are computed. -/
def MpcSettlementInput.assignment (H : Hash) (i : MpcSettlementInput) :
    Option (MpcSettlement.Assignment 12 2) := do
  let stateRoot ← readSignal i.stateRoot
  let associationRoot ← readSignal i.associationRoot
  let batchHash ← readSignal i.batchHash
  let poolId ← readSignal i.poolId
  let chainId ← readSignal i.chainId
  let matchedAmount7dp ← readSignal i.matchedAmount7dp
  let deadlineLedger ← readSignal i.deadlineLedger
  let assetId ← readSignal i.assetId
  let labelA ← readSignal i.coinA.label
  let valueA ← readSignal i.coinA.value
  let nullifierA ← readSignal i.coinA.nullifier
  let secretA ← readSignal i.coinA.secret
  let stateIndexA ← readSignal i.stateIndexA
  let stateSiblingsA ← readSignals 12 i.stateSiblingsA
  let labelIndexA ← readSignal i.labelIndexA
  let labelSiblingsA ← readSignals 2 i.labelSiblingsA
  let outValueA ← readSignal i.outA.value
  let outLabelA ← readSignal i.outA.label
  let outNullifierA ← readSignal i.outA.nullifier
  let outSecretA ← readSignal i.outA.secret
  let labelB ← readSignal i.coinB.label
  let valueB ← readSignal i.coinB.value
  let nullifierB ← readSignal i.coinB.nullifier
  let secretB ← readSignal i.coinB.secret
  let stateIndexB ← readSignal i.stateIndexB
  let stateSiblingsB ← readSignals 12 i.stateSiblingsB
  let labelIndexB ← readSignal i.labelIndexB
  let labelSiblingsB ← readSignals 2 i.labelSiblingsB
  let outValueB ← readSignal i.outB.value
  let outLabelB ← readSignal i.outB.label
  let outNullifierB ← readSignal i.outB.nullifier
  let outSecretB ← readSignal i.outB.secret
  return {
    stateRoot, associationRoot, batchHash, poolId, chainId, matchedAmount7dp, deadlineLedger
    assetId, labelA, valueA, nullifierA, secretA, stateIndexA, stateSiblingsA, labelIndexA
    labelSiblingsA, outValueA, outLabelA, outNullifierA, outSecretA, labelB, valueB, nullifierB
    secretB, stateIndexB, stateSiblingsB, labelIndexB, labelSiblingsB, outValueB, outLabelB
    outNullifierB, outSecretB
    nullifierHashA := nullifierHashOf H nullifierA poolId chainId
    nullifierHashB := nullifierHashOf H nullifierB poolId chainId
    outputCommitmentA :=
      Note.commitment H ⟨assetId, outValueA, outLabelA, outNullifierA, outSecretA⟩
    outputCommitmentB :=
      Note.commitment H ⟨assetId, outValueB, outLabelB, outNullifierB, outSecretB⟩ }

end Shade.Proving
