import Shade.Proving.Compliance
import Shade.Proving.Settlement

/-!
# The priced settlement witness builder

The inputs of the circuit that settles a match across two assets. Each note is spent whole, and the
second one has to be worth what the first one comes to at the price, rounded down. The price and the
minimum outputs are copied as they are given.
-/

namespace Shade.Proving

open Endian Text Solver

/-- A coin whose file names its asset. -/
structure PricedCoin extends GeneratedCoin where
  assetId : Text
deriving DecidableEq

/-- What is handed to the builder. -/
structure PricedParams where
  coinX : PricedCoin
  coinY : PricedCoin
  commitmentsDecimal : List Text
  assocPath : Text
  scope : Text
  batchHashHex : Text
  poolId : Text
  chainId : Text
  priceScaled : Text
  minOutputA : Text
  minOutputB : Text
  deadlineLedger : Text
deriving DecidableEq

/-- The secrets of a note. -/
structure NoteSecrets where
  label : Text
  nullifier : Text
  secret : Text
deriving DecidableEq

/-- The secrets of a coin. -/
def readSecrets (c : PricedCoin) : NoteSecrets :=
  ⟨c.opening.label, c.opening.nullifier, c.opening.secret⟩

/-- The secrets of a note that is created. -/
def drawSecrets (d : Draw) : NoteSecrets :=
  ⟨randField d.label, randField d.nullifier, randField d.secret⟩

/-- The inputs of the priced settlement circuit. -/
structure MpcPricedInput where
  stateRoot : Text
  associationRoot : Text
  batchHash : Text
  poolId : Text
  chainId : Text
  deadlineLedger : Text
  inputAssetA : Text
  outputAssetA : Text
  inputAssetB : Text
  outputAssetB : Text
  matchedAmountA : Text
  matchedAmountB : Text
  priceScaled : Text
  priceScale : Text
  minOutputA : Text
  minOutputB : Text
  coinA : NoteSecrets
  stateIndexA : Text
  stateSiblingsA : List Text
  labelIndexA : Text
  labelSiblingsA : List Text
  coinB : NoteSecrets
  stateIndexB : Text
  stateSiblingsB : List Text
  labelIndexB : Text
  labelSiblingsB : List Text
  outA : NoteSecrets
  outB : NoteSecrets
deriving DecidableEq

/-- Build the inputs of the circuit. -/
def buildMpcPricedWitness (withdraw : Withdraw) (drawA drawB : Draw) (p : PricedParams) :
    Except String MpcPricedInput := do
  let wX ← withdraw p.coinX.toGeneratedCoin p.commitmentsDecimal p.scope p.assocPath
  let wY ← withdraw p.coinY.toGeneratedCoin p.commitmentsDecimal p.scope p.assocPath
  let assetX := p.coinX.assetId
  let assetY := p.coinY.assetId
  if assetX = assetY then
    throw "priced settlement requires a genuine cross-asset (assetX != assetY)"
  let matchedA ← bigInt p.coinX.opening.value
  let priceScaled ← bigInt p.priceScaled
  let matchedB := (matchedA * priceScaled).tdiv 1000000000
  if decimal matchedB ≠ p.coinY.opening.value then
    throw ("priced witness: coinY value " ++ String.ofList p.coinY.opening.value
      ++ " != floor(matchedA*price/1e9)=" ++ String.ofList (decimal matchedB)
      ++ " (choose notes/price so they match)")
  match hashToField p.batchHashHex with
  | none =>
      let digits := "0x".toList ++ (strip0x p.batchHashHex).take 62
      throw ("Cannot convert " ++ String.ofList digits ++ " to a BigInt")
  | some batchHash =>
      return {
        stateRoot := wX.stateRoot
        associationRoot := wX.associationRoot
        batchHash
        poolId := p.poolId
        chainId := p.chainId
        deadlineLedger := p.deadlineLedger
        inputAssetA := assetX
        outputAssetA := assetY
        inputAssetB := assetY
        outputAssetB := assetX
        matchedAmountA := decimal matchedA
        matchedAmountB := decimal matchedB
        priceScaled := p.priceScaled
        priceScale := "1000000000".toList
        minOutputA := p.minOutputA
        minOutputB := p.minOutputB
        coinA := readSecrets p.coinX
        stateIndexA := wX.stateIndex
        stateSiblingsA := wX.stateSiblings
        labelIndexA := wX.labelIndex
        labelSiblingsA := wX.labelSiblings
        coinB := readSecrets p.coinY
        stateIndexB := wY.stateIndex
        stateSiblingsB := wY.stateSiblings
        labelIndexB := wY.labelIndex
        labelSiblingsB := wY.labelSiblings
        outA := drawSecrets drawA
        outB := drawSecrets drawB }

/-- The assignment of the circuit for the inputs; the outputs are computed. -/
def MpcPricedInput.assignment (H : Hash) (i : MpcPricedInput) :
    Option (MpcPricedSettlement.Assignment 12 2) := do
  let stateRoot ← readSignal i.stateRoot
  let associationRoot ← readSignal i.associationRoot
  let batchHash ← readSignal i.batchHash
  let poolId ← readSignal i.poolId
  let chainId ← readSignal i.chainId
  let deadlineLedger ← readSignal i.deadlineLedger
  let inputAssetA ← readSignal i.inputAssetA
  let outputAssetA ← readSignal i.outputAssetA
  let inputAssetB ← readSignal i.inputAssetB
  let outputAssetB ← readSignal i.outputAssetB
  let matchedAmountA ← readSignal i.matchedAmountA
  let matchedAmountB ← readSignal i.matchedAmountB
  let priceScaled ← readSignal i.priceScaled
  let priceScale ← readSignal i.priceScale
  let minOutputA ← readSignal i.minOutputA
  let minOutputB ← readSignal i.minOutputB
  let labelA ← readSignal i.coinA.label
  let nullifierA ← readSignal i.coinA.nullifier
  let secretA ← readSignal i.coinA.secret
  let stateIndexA ← readSignal i.stateIndexA
  let stateSiblingsA ← readSignals 12 i.stateSiblingsA
  let labelIndexA ← readSignal i.labelIndexA
  let labelSiblingsA ← readSignals 2 i.labelSiblingsA
  let labelB ← readSignal i.coinB.label
  let nullifierB ← readSignal i.coinB.nullifier
  let secretB ← readSignal i.coinB.secret
  let stateIndexB ← readSignal i.stateIndexB
  let stateSiblingsB ← readSignals 12 i.stateSiblingsB
  let labelIndexB ← readSignal i.labelIndexB
  let labelSiblingsB ← readSignals 2 i.labelSiblingsB
  let outLabelA ← readSignal i.outA.label
  let outNullifierA ← readSignal i.outA.nullifier
  let outSecretA ← readSignal i.outA.secret
  let outLabelB ← readSignal i.outB.label
  let outNullifierB ← readSignal i.outB.nullifier
  let outSecretB ← readSignal i.outB.secret
  return {
    stateRoot, associationRoot, batchHash, poolId, chainId, deadlineLedger, inputAssetA
    outputAssetA, inputAssetB, outputAssetB, matchedAmountA, matchedAmountB, priceScaled
    priceScale, minOutputA, minOutputB, labelA, nullifierA, secretA, stateIndexA, stateSiblingsA
    labelIndexA, labelSiblingsA, labelB, nullifierB, secretB, stateIndexB, stateSiblingsB
    labelIndexB, labelSiblingsB, outLabelA, outNullifierA, outSecretA, outLabelB, outNullifierB
    outSecretB
    nullifierHashA := nullifierHashOf H nullifierA poolId chainId
    nullifierHashB := nullifierHashOf H nullifierB poolId chainId
    outputCommitmentA :=
      Note.commitment H ⟨outputAssetA, matchedAmountB, outLabelA, outNullifierA, outSecretA⟩
    outputCommitmentB :=
      Note.commitment H ⟨outputAssetB, matchedAmountA, outLabelB, outNullifierB, outSecretB⟩ }

end Shade.Proving
