import Shade.Library.Hex
import Shade.Pool.State

/-!
# The root auditor

The auditor reads the `deposit` events of the pool from an RPC server, page by page, and
orders the commitments they carry by leaf index. From these it recomputes the root, with the
`compute-root` command of coinutils, and compares it with the root of the pool.

The server and coinutils are parameters: a server answers or refuses requests for events, and
coinutils gives the number it prints for a list of decimal commitments.
-/

namespace Shade.Auditor

open Text

/-! ### Events on the wire -/

/-- The values in the topics and the data of events. -/
inductive Value where
  | symbol (t : Text)
  | u32 (n : ℕ)
  | i128 (x : I128)
  | bytes (b : Bytes)
  | address (a : Address)
deriving DecidableEq

/-- A word, as the value of its 32 bytes. -/
def Value.word (x : Word) : Value := .bytes x.toBytes

/-- The data of an event: a tuple, or a single value. -/
inductive Data where
  | tuple (items : List Value)
  | single (v : Value)
deriving DecidableEq

/-- An event as the server returns it. -/
structure ContractEvent where
  topic : List Value
  value : Data
deriving DecidableEq

/-- The topics and the data with which the pool publishes an event. -/
def emitted : Pool.Event → ContractEvent
  | .deposit sourceDomain cctpNonce asset amount commitment encryptedNotePayloadHash policyId
      leafIndex root =>
      ⟨[.symbol "deposit".toList, .u32 sourceDomain.toNat],
        .tuple [.word cctpNonce, .address asset, .i128 amount, .word commitment,
          .word encryptedNotePayloadHash, .word policyId, .u32 leafIndex, .word root]⟩
  | .withdraw target nullifierHash net relayerFee =>
      ⟨[.symbol "withdraw".toList],
        .tuple [.address target, .word nullifierHash, .i128 net, .i128 relayerFee]⟩
  | .xfer nullifierHash outputCommitment leafIndex root =>
      ⟨[.symbol "xfer".toList],
        .tuple [.word nullifierHash, .word outputCommitment, .u32 leafIndex, .word root]⟩
  | .regasset assetId token =>
      ⟨[.symbol "regasset".toList, .word assetId], .single (.address token)⟩
  | .cctpout destinationDomain target nullifierHash destinationRecipient amount =>
      ⟨[.symbol "cctpout".toList, .u32 destinationDomain.toNat],
        .tuple [.address target, .word nullifierHash, .word destinationRecipient, .i128 amount]⟩
  | .rfq quoteHash toSolver nullifierHash credit =>
      ⟨[.symbol "rfq".toList, .word quoteHash],
        .tuple [.address toSolver, .word nullifierHash, .i128 credit]⟩
  | .rfqswap quoteHash userXlmRecipient solverUsdcRecipient nullifierHash quotedOutput credit =>
      ⟨[.symbol "rfqswap".toList, .word quoteHash],
        .tuple [.address userXlmRecipient, .address solverUsdcRecipient, .word nullifierHash,
          .i128 quotedOutput, .i128 credit]⟩
  | .mpc batchHash nullifierA nullifierB outputCommitmentA outputCommitmentB root =>
      ⟨[.symbol "mpc".toList, .word batchHash],
        .tuple [.word nullifierA, .word nullifierB, .word outputCommitmentA,
          .word outputCommitmentB, .word root]⟩
  | .mpcprice batchHash nullifierA nullifierB outputCommitmentA outputCommitmentB root =>
      ⟨[.symbol "mpcprice".toList, .word batchHash],
        .tuple [.word nullifierA, .word nullifierB, .word outputCommitmentA,
          .word outputCommitmentB, .word root]⟩

/-! ### Reading the leaves -/

/-- A leaf that a `deposit` event announces. -/
structure DepositLeaf where
  leafIndex : ℕ
  commitmentDecimal : Text
  commitmentHex : Text
deriving DecidableEq

/-- The leaf in the data of an event. Events of other topics and with fewer than seven items
are passed over. The pool has bytes and a number at the two places that are read. -/
def readLeaf (e : ContractEvent) : Option DepositLeaf :=
  match e.topic, e.value with
  | t :: _, .tuple data =>
      if t ≠ .symbol "deposit".toList ∨ data.length < 7 then none
      else
        match data.getD 3 (.u32 0), data.getD 6 (.u32 0) with
        | .bytes b, .u32 leafIndex =>
            some
              { leafIndex := leafIndex
                commitmentDecimal := decimal (ofHex (hexBytes b))
                commitmentHex := "0x".toList ++ hexBytes b }
        | _, _ => none
  | _, _ => none

/-- Set a leaf in a map by leaf index, which keeps the place of an index that it has. -/
def setLeaf : List DepositLeaf → DepositLeaf → List DepositLeaf
  | [], leaf => [leaf]
  | l :: ls, leaf => if l.leafIndex = leaf.leafIndex then leaf :: ls else l :: setLeaf ls leaf

/-- Where a page starts: at a ledger, or where the page before has ended. -/
inductive Origin where
  | startLedger (n : ℕ)
  | cursor (t : Text)
deriving DecidableEq

/-- A request for a page of the events of contracts. -/
structure Request where
  origin : Origin
  contractIds : List Text
  limit : ℕ
deriving DecidableEq

/-- A page of events. -/
structure Page where
  events : List ContractEvent
  cursor : Option Text
deriving DecidableEq

/-- The cursor with which the reading goes on after a page, unless the page is the last. -/
def Page.next (p : Page) : Option Text :=
  if p.events = [] then none else p.cursor.filter fun t => t ≠ []

/-- A server: the latest ledger, and what it answers to requests, `none` if it refuses. -/
structure Server where
  latestSequence : ℕ
  getEvents : Request → Option Page

/-- What has been read: the leaves by index, how many were read in a window, and whether the
window ended because the server refused. -/
structure Reading where
  byIndex : List DepositLeaf
  got : ℕ
  refused : Bool

/-- The leaves of a page are set one after the other. -/
def Reading.add (s : Reading) (p : Page) : Reading :=
  { s with
    byIndex := (p.events.filterMap readLeaf).foldl setLeaf s.byIndex
    got := s.got + (p.events.filterMap readLeaf).length }

variable (server : Server) (poolContract : Text)

/-- The request for a page of the events of the pool. -/
def request (origin : Origin) : Request := ⟨origin, [poolContract], 100⟩

/-- Read at most a number of pages. -/
def readPages : ℕ → Origin → Reading → Reading
  | 0, _, s => s
  | pages + 1, origin, s =>
      match server.getEvents (request poolContract origin) with
      | none => { s with refused := true }
      | some p =>
          match p.next with
          | none => s.add p
          | some t => readPages pages (.cursor t) (s.add p)

/-- Where the window that goes back a number of ledgers starts. -/
def Server.windowStart (back : ℕ) : Origin :=
  .startLedger (max 1 (server.latestSequence - back))

/-- Read the windows that go back a number of ledgers, up to the first that has a leaf. -/
def readWindows : List ℕ → List DepositLeaf → List DepositLeaf
  | [], byIndex => byIndex
  | back :: lookbacks, byIndex =>
      let s := readPages server poolContract 50 (server.windowStart back) ⟨byIndex, 0, false⟩
      if s.refused ∨ s.got = 0 then readWindows lookbacks s.byIndex else s.byIndex

/-- Leaves in the order of their indices. -/
def sortLeaves (leaves : List DepositLeaf) : List DepositLeaf :=
  leaves.insertionSort fun a b => a.leafIndex ≤ b.leafIndex

/-- The leaves that the `deposit` events of the pool announce, given how far the windows go
back. -/
def readDepositLeavesFromEvents (lookbacks : List ℕ) : List DepositLeaf :=
  sortLeaves (readWindows server poolContract lookbacks [])

/-- How far the windows go back unless it is configured. -/
def defaultLookbacks : List ℕ := [9000, 4000, 2000]

/-! ### What the server returns -/

/-- From an origin on the server answers with pages, one after the other, up to the last. -/
inductive Server.Delivers : Origin → List Page → Prop
  | last {origin : Origin} {p : Page}
      (h : server.getEvents (request poolContract origin) = some p) (hlast : p.next = none) :
      Delivers origin [p]
  | more {origin : Origin} {p : Page} {t : Text} {pages : List Page}
      (h : server.getEvents (request poolContract origin) = some p) (hnext : p.next = some t)
      (hrest : Delivers (.cursor t) pages) :
      Delivers origin (p :: pages)

/-- The server returns all events of the pool, in order and in the given pages, from the first
window that it does not refuse, and it never returns another event. -/
structure Server.Returns (lookbacks : List ℕ) (events : List ContractEvent) (pages : List Page) :
    Prop where
  window : ∃ refused back rest, lookbacks = refused ++ back :: rest
    ∧ (∀ b ∈ refused, server.getEvents (request poolContract (server.windowStart b)) = none)
    ∧ server.Delivers poolContract (server.windowStart back) pages
  all : pages.flatMap Page.events = events
  only : ∀ origin p, server.getEvents (request poolContract origin) = some p →
    ∀ e ∈ p.events, e ∈ events

/-! ### Comparing the roots -/

/-- Where the leaves were read. -/
inductive Source where
  | events
  | db
deriving DecidableEq

/-- The verdict of an audit. -/
inductive Status where
  | ok
  | rootMismatchCritical
deriving DecidableEq

/-- The result of an audit. -/
structure AuditResult where
  poolContract : Text
  leafCount : ℕ
  source : Source
  recomputedRootHex : Text
  onchainRootHex : Text
  status : Status
  detail : Text
deriving DecidableEq

variable (coinutils : List Text → ℕ)

/-- The root over commitments, zero if there are none. -/
def recomputeRoot (commitmentsDecimal : List Text) : Text :=
  if commitmentsDecimal = [] then "0x".toList ++ List.replicate 64 '0'
  else "0x".toList ++ (hexNat (coinutils commitmentsDecimal)).leftpad 64 '0'

/-- A hexadecimal text with its mark and in lower case. -/
def norm (h : Text) : Text :=
  toLower (if "0x".toList <+: h then h else "0x".toList ++ h)

/-- Compare the root of the pool with the roots over all leaves and over the last leaf. -/
def compareRoots (leaves : List DepositLeaf) (onchainRootHex : Text) (source : Source) :
    AuditResult :=
  let ordered := sortLeaves leaves
  let cumulative := norm (recomputeRoot coinutils (ordered.map DepositLeaf.commitmentDecimal))
  let latestOnly :=
    match ordered.getLast? with
    | some l => norm (recomputeRoot coinutils [l.commitmentDecimal])
    | none => cumulative
  let onchain := norm onchainRootHex
  let count := decimal ordered.length
  { poolContract := poolContract
    leafCount := ordered.length
    source := source
    recomputedRootHex := cumulative
    onchainRootHex := onchain
    status :=
      if onchain = cumulative ∨ onchain = latestOnly then .ok else .rootMismatchCritical
    detail :=
      if onchain = cumulative then
        "on-chain root matches recomputed root (cumulative) over ".toList ++ count
          ++ " leaf/leaves".toList
      else if onchain = latestOnly then
        "on-chain root matches recomputed root (per-deposit (latest leaf)) over ".toList ++ count
          ++ " leaf/leaves".toList
      else
        "on-chain root ".toList ++ onchain ++ " matches neither cumulative (".toList
          ++ cumulative ++ ") nor latest-leaf (".toList ++ latestOnly
          ++ ") recomputation over ".toList ++ count ++ " leaves".toList }

/-- The root of the pool, as it is read for the audit. -/
def readOnchainRoot (s : Pool.State) : Text := "0x".toList ++ hexBytes s.treeRoot.toBytes

end Shade.Auditor
