import Shade.Contract.LeanIMT
import Shade.Contract.NullifierRegistry
import Shade.Contract.Token

/-!
# The state of the shielded pool

The storage of the pool contract and of what surrounds it: the nullifier registry it
spends in, the tokens it holds, and the sequence of the ledger. `World` also keeps, for
reference, the token movements the pool has asked for and the events it has published.
-/

namespace Shade.Pool

open Txn

/-- The errors of the pool. -/
inductive Error where
  | notInitialized
  | paused
  | duplicateDeposit
  | unknownRoot
  | proofInvalid
  | nullifierUsed
  | insufficientBalance
  | badAmount
  | wrongDomain
  | wrongAssociation
  | wrongOperation
  | wrongRecipient
  | expired
  | wrongQuote
  | wrongIntent
  | wrongFillReceipt
  | wrongDestDomain
  | wrongDestRecipient
  | wrongMaxFee
  | wrongFinality
  | wrongCommitment
  | wrongDepositField
  | unauthorizedSolver
  | mpcThreshold
  | mpcUnknownSigner
  | mpcProofInvalid
  | mpcSignalMismatch
  | mpcDuplicateSigner
  | unknownAsset
  | assetAlreadyRegistered
  | sameAssetSwap
  | underDelivered
  | wrongPrice
  | unsupportedDomain
  | notCrossAsset
  | supplyUnderflow
  | reserveBroken
  | treeFull
  | rootMismatch
deriving DecidableEq, Repr

/-- The code of an error: its position in the list above, from `1`. -/
def Error.code (e : Error) : ℕ := e.ctorIdx + 1

/-- The panic with the code of an error. -/
def panicErr (e : Error) : Panic := .error e.code

/-! ### Storage -/

/-- The storage of the pool. The maps `knownRoot`, `deposit`, `solver`, `assetToken` and
`noteSupply` are its persistent entries; `wasm` is the code it has been upgraded to. -/
structure State where
  admin : Address
  usdc : Address
  verifier : Address
  nullreg : Address
  paused : Bool
  tmm : Option Address
  poolId : UInt32
  chainId : UInt32
  assocRoot : Option Word
  xverifier : Option Address
  depVerifier : Option Address
  mpcCmte : Option (List Word)
  mpcVerifier : Option Address
  mpcPverifier : Option Address
  treeDepth : ℕ
  treeRoot : Word
  treeLeaves : List Word
  leafCount : ℕ
  knownRoot : Store Word Bool
  deposit : Store Word Bool
  solver : Store Word Bool
  assetToken : Store Word Address
  noteSupply : Store Word I128
  wasm : Option Word
deriving DecidableEq

/-- The pool a constructor call makes. -/
def State.constructor (admin usdcSac verifier nullifierRegistry : Address) (depth : ℕ)
    (poolId chainId : UInt32) : State where
  admin := admin
  usdc := usdcSac
  verifier := verifier
  nullreg := nullifierRegistry
  paused := false
  tmm := none
  poolId := poolId
  chainId := chainId
  assocRoot := none
  xverifier := none
  depVerifier := none
  mpcCmte := none
  mpcVerifier := none
  mpcPverifier := none
  treeDepth := depth
  treeRoot := 0
  treeLeaves := []
  leafCount := 0
  knownRoot := Store.empty.set 0 true
  deposit := Store.empty
  solver := Store.empty
  assetToken := Store.empty
  noteSupply := Store.empty
  wasm := none

namespace State

/-- The note supply of an asset, zero if none is recorded. -/
def supply (s : State) (assetId : Word) : ℤ :=
  match s.noteSupply.get assetId with
  | some x => x.val
  | none => 0

theorem supply_set {s s' : State} {assetId : Word} {x : I128}
    (h : s'.noteSupply = s.noteSupply.set assetId x) (assetId' : Word) :
  s'.supply assetId' = if assetId = assetId' then x.val else s.supply assetId'
  := by
  simp only [supply, h, Store.get_set]
  by_cases hid : assetId = assetId'
  · simp only [if_pos hid]
  · simp only [if_neg hid]

def isKnownRoot (s : State) (root : Word) : Bool := (s.knownRoot.get root).getD false

def isAuthorizedSolver (s : State) (solverPubkey : Word) : Bool :=
  (s.solver.get solverPubkey).getD false

/-- The association root that spends must carry, zero if none is configured. -/
def getAssociationRoot (s : State) : Word := s.assocRoot.getD 0

end State

/-- The arguments of the call to the messenger that burns tokens. -/
structure BurnArgs where
  caller : Address
  amount : I128
  destinationDomain : UInt32
  mintRecipient : Word
  burnToken : Address
  destinationCaller : Word
  maxFee : I128
  minFinalityThreshold : UInt32
deriving DecidableEq

/-- A token movement the pool asks for. -/
inductive Movement where
  | transfer (token target : Address) (amount : I128)
  | approve (token spender : Address) (amount : I128) (expiration : ℕ)
  | depositForBurn (messenger : Address) (args : BurnArgs)
deriving DecidableEq

/-- The events of the pool, with their topics and data. -/
inductive Event where
  | deposit (sourceDomain : UInt32) (cctpNonce : Word) (asset : Address) (amount : I128)
      (commitment encryptedNotePayloadHash policyId : Word) (leafIndex : ℕ) (root : Word)
  | withdraw (target : Address) (nullifierHash : Word) (net relayerFee : I128)
  | xfer (nullifierHash outputCommitment : Word) (leafIndex : ℕ) (root : Word)
  | regasset (assetId : Word) (token : Address)
  | cctpout (destinationDomain : UInt32) (target : Address)
      (nullifierHash destinationRecipient : Word) (amount : I128)
  | rfq (quoteHash : Word) (toSolver : Address) (nullifierHash : Word) (credit : I128)
  | rfqswap (quoteHash : Word) (userXlmRecipient solverUsdcRecipient : Address)
      (nullifierHash : Word) (quotedOutput credit : I128)
  | mpc (batchHash nullifierA nullifierB outputCommitmentA outputCommitmentB root : Word)
  | mpcprice (batchHash nullifierA nullifierB outputCommitmentA outputCommitmentB root : Word)
deriving DecidableEq

/-- The pool and what surrounds it. -/
structure World where
  pool : State
  registry : NullifierRegistry.State
  tokens : Token.Ledger
  sequence : ℕ
  movements : List Movement
  events : List Event
deriving DecidableEq

/-- What a transaction brings along: the addresses that authorize it, and the amount the
messenger pulls if it is asked to burn, `none` if it aborts then. -/
structure Tx where
  auth : List Address
  pull : Option I128
deriving DecidableEq

/-- The invocations of the pool. -/
abbrev Exec := Txn World Panic

/-! ### The changes of the world -/

namespace World

variable (w : World)

/-- Change the storage of the pool. -/
@[simps pool registry tokens sequence movements events]
def mapPool (f : State → State) : World :=
  { w with pool := f w.pool }

/-- Set the note supply of an asset. -/
@[simps! pool registry tokens sequence movements events]
def setSupply (assetId : Word) (x : I128) : World :=
  w.mapPool fun s => { s with noteSupply := s.noteSupply.set assetId x }

/-- Append a leaf, with the root of the tree that has it. -/
@[simps! pool registry tokens sequence movements events]
def appendLeaf (commitment root : Word) : World :=
  w.mapPool fun s =>
    { s with
      treeLeaves := s.treeLeaves ++ [commitment]
      treeRoot := root
      knownRoot := s.knownRoot.set root true }

/-- Record a nullifier as spent. -/
@[simps pool registry tokens sequence movements events]
def spend (nullifier : Word) : World :=
  { w with registry := { w.registry with spent := w.registry.spent.set nullifier true } }

/-- Change the tokens. -/
@[simps pool registry tokens sequence movements events]
def mapTokens (f : Token.Ledger → Token.Ledger) : World :=
  { w with tokens := f w.tokens }

/-- Pay an amount out of the pool and note it down. -/
@[simps! pool registry sequence movements events]
def pay (host : Host) (token target : Address) (amount : I128) : World :=
  { w with
    tokens := w.tokens.move token host.self target amount.val.toNat
    movements := w.movements ++ [.transfer token target amount] }

/-- Note down a movement. -/
@[simps pool registry tokens sequence movements events]
def record (m : Movement) : World :=
  { w with movements := w.movements ++ [m] }

/-- Publish an event. -/
@[simps pool registry tokens sequence movements events]
def emit (e : Event) : World :=
  { w with events := w.events ++ [e] }

/-- The balance of the pool in a token. -/
def vault (host : Host) (token : Address) : ℕ := w.tokens.balance token host.self

end World

end Shade.Pool
