import Shade.Library.Store
import Shade.Library.Transaction
import Shade.Library.Machine
import Shade.Library.PrimeField
import Shade.Library.Endian
import Shade.Library.Eager
import Shade.Library.Text
import Shade.Library.Hex
import Shade.Library.Merkle
import Shade.Field
import Shade.Host
import Shade.Poseidon
import Shade.Sha256
import Shade.Circuit.Gadget
import Shade.Circuit.Spend
import Shade.Circuit.Settlement
import Shade.Circuit.Deposit
import Shade.Circuit.Compliance
import Shade.Contract.NullifierRegistry
import Shade.Contract.LeanIMT
import Shade.Contract.CompleteTree
import Shade.Contract.ProofVerifier
import Shade.Contract.IdealVerifier
import Shade.Contract.Token
import Shade.Contract.GovernanceGuardian
import Shade.Contract.GuardianRun
import Shade.Committee.Batch
import Shade.Committee.Matcher
import Shade.Pool.State
import Shade.Pool.Internal
import Shade.Pool.Withdraw
import Shade.Pool.Rfq
import Shade.Pool.Deposit
import Shade.Pool.Settle
import Shade.Pool.Admin
import Shade.Pool.Run
import Shade.Pool.Governed
import Shade.Pool.Witness
import Shade.Pool.Deployment
import Shade.Auditor.Audit
import Shade.Proving.Compliance
import Shade.Property.Membership
import Shade.Property.Tree
import Shade.Property.Encoding
import Shade.Property.Price
import Shade.Property.DoubleSpend
import Shade.Property.Inflation
import Shade.Property.DepositOnce
import Shade.Property.Conservation
import Shade.Property.Reserves
import Shade.Property.TokenReserves
import Shade.Property.Payout
import Shade.Property.Committee
import Shade.Property.Timelock
import Shade.Property.Quorum
import Shade.Property.Governed
import Shade.Property.TreeStorage
import Shade.Property.PricedMatching
import Shade.Property.Matching
import Shade.Property.Audit
import Shade.Property.Compliance
import Shade.Library.Lucas
import Shade.Library.Sharing
import Shade.Library.Sampling
import Shade.Committee.Shamir
import Shade.Property.Sharing
import Shade.Property.Secrecy
import Shade.Property.Threshold
import Shade.Property.Conventions
import Shade.Library.Digits
import Shade.Contract.PublicSignals
import Shade.Queue.Jobs
import Shade.Queue.Worker
import Shade.Property.Claims
import Shade.Property.Codec
import Shade.Solver.Rfq
import Shade.Property.SwapTerms
import Shade.Library.Json
import Shade.Library.Table
import Shade.Api.Envelope
import Shade.Api.Vaults
import Shade.Property.Isolation
import Shade.Property.Backup
import Shade.Api.Ids
import Shade.Api.Prepare
import Shade.Property.Acknowledged
import Shade.Api.Quotes
import Shade.Property.Acceptance
import Shade.Cctp.Inbound
import Shade.Property.Attribution
import Shade.Property.Persist
import Shade.Property.Settled
import Shade.Property.Mirror
import Shade.Relayer.MpcSettle
import Shade.Library.OrderedMap
import Shade.Committee.Session
import Shade.Committee.Coordinator
import Shade.Property.Rounds
import Shade.Property.MatchedOnce
import Shade.Committee.Node
import Shade.Property.NodeFailures
import Shade.Property.Recovery
import Shade.Property.Redaction
import Shade.Queue.Enqueue
import Shade.Property.Enqueued
import Shade.Committee.State
import Shade.Property.SessionsKept
import Shade.Committee.Round
import Shade.Property.SharesCleared
import Shade.Property.ZeroPairs
import Shade.Proving.FieldReduction
import Shade.Property.FieldReduction
import Shade.Library.JsonText
import Shade.Library.CanonicalJson
import Shade.Solver.Stable
import Shade.Property.Canonical
import Shade.Api.ViewKey
import Shade.Property.Reports
import Shade.Property.Complementary
import Shade.Api.Settle
import Shade.Property.Paths
import Shade.Property.EmptyRoot
import Shade.Property.Spendable
import Shade.Proving.Deposit
import Shade.Property.Registered
import Shade.Library.TextOrder
import Shade.Committee.Signing
import Shade.Property.Batches
import Shade.Proving.Settlement
import Shade.Property.Settleable
import Shade.Relayer.SettleJob
import Shade.Property.Pipeline
import Shade.Contract.IntentEscrow
import Shade.Property.Escrow
import Shade.Committee.Keys
import Shade.Property.Restarts
import Shade.Proving.PricedSettlement
import Shade.Property.PricedSettleable
import Shade.Property.Batched
import Shade.Api.Fetch
import Shade.Client.NoteManager
import Shade.Client.Pages
import Shade.Property.Restored
import Shade.Property.NoteStates
