import Shade.Property.Batches
import Shade.Relayer.SettleJob

/-!
# What comes of the settler's jobs

Two facts about the way from a signed batch to the pool. The settler does not write the fields by
which the relayer finds the coins, so that the relayer never has a proof for a job of the settler,
and without a proof the pool refuses: no run of the settler and the relayer settles a match. And the
relayer copies the matches of a batch without their prices before it verifies the signatures, so
that it refuses exactly the batches that match across assets.
-/

namespace Shade.Relayer

open Committee Proving Pool Text Solver Txn Endian

/-! ### Jobs without coins -/

/-- There is no proof for a job that names no coins. -/
theorem proveSettlement_ofPayload (env : RelayerEnv) (o : Outside) (payload : SettlePayload) :
  proveSettlement env o (.ofPayload payload) = none
  := rfl

/-- What is submitted for a job of the settler carries no proof. -/
theorem proofBytes_of_process {nacl : NaclSign} {sha256 : Bytes → Word} {env : RelayerEnv}
    {o : Outside} {payload : SettlePayload} {submitted : SubmitArgs}
    (h : processSettleJob nacl sha256 env o (.ofPayload payload) = .ok submitted) :
  env.unsafeProofless = true ∧ submitted.proofBytes = none
  := by
  have hgiven : given none = none := rfl
  simp only [processSettleJob, proveSettlement_ofPayload, Option.map_none, hgiven, bind, Except.bind,
    pure, Except.pure, true_or, true_and] at h
  split at h
  · cases h
  · split at h
    · cases h
    · split at h
      · cases h
      · cases h
      · split at h
        · cases hflag : env.unsafeProofless with
          | false =>
              rw [hflag, if_pos rfl] at h
              cases h
          | true =>
              rw [hflag, if_neg (by decide)] at h
              use rfl
              split at h
              · cases h
              · cases h
                rfl
        · cases h

/-- The pool is given no proof if the command line is not. -/
theorem SubmitArgs.proofBytes_of_read {submitted : SubmitArgs} {args : MpcArgs}
    (h : submitted.read = some args) (hproof : submitted.proofBytes = none) :
  args.proofBytes = none
  := by
  have hbytes : readBytes none = some none := rfl
  simp only [SubmitArgs.read, hproof, hbytes, Option.bind_eq_bind, Option.bind_eq_some_iff,
    Option.some.injEq, exists_eq_left', Option.pure_def] at h
  obtain ⟨_, -, _, -, _, -, _, -, _, -, _, -, _, -, _, -, _, -, rfl⟩ := h
  rfl

/-- The pool refuses a settlement without a proof. -/
theorem step_without_proof {host : Host} {tx : Tx} {args : MpcArgs} {w : World}
    (h : args.proofBytes = none) :
  step host (.call tx (.mpcSettle args)) w = none
  := by
  rw [step]
  split
  · rw [Option.eq_none_iff_forall_ne_some]
    intro w' hw'
    obtain ⟨u, hexec⟩ := attempt_eq_some.mp hw'
    obtain ⟨x, -⟩ := mpcSettle_ok hexec
    have hproof := x.proof_eq
    rw [h] at hproof
    cases hproof
  · rfl

/-- The calls of the pool that others make. -/
def PipelineAction.poolAction : PipelineAction → Option Action
  | .pool a => some a
  | _ => none

/-- No job of the settler is ever settled. Whatever the settler, the relayer and others do, in
whatever order and with whatever answers from outside: no settlement of the relayer succeeds, and
the pool is where the calls of the others alone would have brought it. -/
theorem pipeline_never_settles (nacl : NaclSign) (sha256 : Bytes → Word) (host : Host)
    (settler : SettlerWorld) (w : World) (actions : List PipelineAction) :
  (Machine.run (pipelineStep nacl sha256 host) ⟨settler, w, []⟩ actions).settled = []
    ∧ (Machine.run (pipelineStep nacl sha256 host) ⟨settler, w, []⟩ actions).world
      = Pool.run host w (actions.filterMap PipelineAction.poolAction)
  := by
  have hrelay : ∀ id env o tx (s : Pipeline),
      pipelineStep nacl sha256 host (.relay id env o tx) s = none := by
    intro id env o tx s
    rw [Option.eq_none_iff_forall_ne_some]
    intro s' hs'
    obtain ⟨job, -, hs'⟩ := Option.bind_eq_some_iff.mp hs'
    split at hs'
    · cases hs'
    · next payload _ =>
        obtain ⟨submitted, hsubmitted, hs'⟩ := Option.bind_eq_some_iff.mp hs'
        obtain ⟨args, hargs, hs'⟩ := Option.bind_eq_some_iff.mp hs'
        obtain ⟨w', hstep, -⟩ := Option.bind_eq_some_iff.mp hs'
        have hprocess : processSettleJob nacl sha256 env o (.ofPayload payload) = .ok submitted := by
          cases h : processSettleJob nacl sha256 env o (.ofPayload payload) with
          | error e =>
              rw [h] at hsubmitted
              cases hsubmitted
          | ok submitted' =>
              rw [h] at hsubmitted
              cases hsubmitted
              rfl
        have hproof := submitted.proofBytes_of_read hargs (proofBytes_of_process hprocess).2
        rw [step_without_proof hproof] at hstep
        cases hstep
  -- The settler's steps leave the pool alone, and the relayer's fail.
  induction actions generalizing settler w with
  | nil => exact ⟨rfl, rfl⟩
  | cons a actions ih =>
      cases a with
      | settler a =>
          simp only [Machine.run, Machine.next, pipelineStep]
          cases settlerStep a settler with
          | none => apply ih
          | some settler' => apply ih
      | relay id env o tx =>
          simp only [Machine.run, Machine.next, hrelay]
          apply ih
      | pool a =>
          have hcons : (PipelineAction.pool a :: actions).filterMap PipelineAction.poolAction
              = a :: actions.filterMap PipelineAction.poolAction := rfl
          rw [hcons, Pool.run, Machine.run, Machine.run, ← Pool.run]
          simp only [Machine.next, pipelineStep]
          cases step host a w with
          | none => apply ih
          | some w' => apply ih

/-! ### Matches across assets -/

/-- The match has no price and names no assets. -/
def Unpriced (m : MatchResult) : Prop :=
  m.priceScaled.getD [] = [] ∧ m.assetIn.getD [] = [] ∧ m.assetOut.getD [] = []

theorem row_stripMatch {m : MatchResult} (h : Unpriced m) :
  (stripMatch m).row = m.row
  := by
  obtain ⟨hprice, hin, hout⟩ := h
  simp [MatchResult.row, stripMatch, hprice, hin, hout]

theorem unpriced_of_row {m n : MatchResult} (h : (stripMatch n).row = m.row) :
  Unpriced m
  := by
  simp only [MatchResult.row, stripMatch, List.cons.injEq, Prod.mk.injEq, Option.getD_none] at h
  obtain ⟨-, -, -, -, -, ⟨-, hprice⟩, ⟨-, hin⟩, ⟨-, hout⟩, -⟩ := h
  exact ⟨hprice.symm, hin.symm, hout.symm⟩

/-- The copies of some matches have the same text as these exactly if none has a price. -/
theorem canonical_stripMatch_iff {batchId : Text} {matchList : List MatchResult} :
  canonical batchId (matchList.map stripMatch) = canonical batchId matchList
    ↔ ∀ m ∈ matchList, Unpriced m
  := by
  constructor
  · intro h m hm
    obtain ⟨-, hperm⟩ := perm_of_canonical_eq h
    have hmem := hperm.mem_iff.mpr (List.mem_map_of_mem hm)
    rw [List.map_map] at hmem
    obtain ⟨n, -, hn⟩ := List.mem_map.mp hmem
    apply unpriced_of_row hn
  · intro h
    have hrows : matchList.map (MatchResult.row ∘ stripMatch) = matchList.map MatchResult.row :=
      List.map_congr_left fun m hm => row_stripMatch (h m hm)
    rw [canonical, canonical, sortedRows, sortedRows, List.map_map, hrows]

/-- The signature of the node on a message is none on another one. -/
def Binds (nacl : NaclSign) (node : CommitteeNodeKeyPair) (signed other : Bytes) : Prop :=
  nacl.verify other (nacl.detached signed node.signingSecretKey) node.signingPublicKey = true →
    other = signed

/-- The relayer accepts the signatures of a quorum on a batch exactly if no match of it has a
price. The committee signs all fields of the matches that are in the database, and the relayer
verifies the signatures on copies without the last three. -/
theorem relayer_verifies_iff (nacl : NaclSign) (sha256 : Bytes → Word) (keys : List Word)
    (committee : List NodePublicInfo)
    (hkeys : committee.map NodePublicInfo.signingPubkey = keys.map printKey)
    (nodes : List CommitteeNodeKeyPair) (hsigns : ∀ node ∈ nodes, Signs nacl keys node)
    (hnodup : (nodes.map CommitteeNodeKeyPair.signingPublicKey).Nodup)
    (hquorum : quorum keys.length ≤ nodes.length) (hsome : nodes ≠ [])
    (o : Outside) (p : SettlePayload) {matchList : List MatchResult}
    (hrow : o.matchesJson = some (some matchList)) (hmatches : matchList ≠ [])
    (hsignatures : p.signatures = nodes.map (signBatch nacl sha256 p.batchId matchList))
    (hbinds : ∀ node ∈ nodes, Binds nacl node (batchMessage sha256 p.batchId matchList)
      (batchMessage sha256 p.batchId (matchList.map stripMatch)))
    (hfree : sha256 (utf8 (canonical p.batchId (matchList.map stripMatch)))
        = sha256 (utf8 (canonical p.batchId matchList))
      → utf8 (canonical p.batchId (matchList.map stripMatch))
        = utf8 (canonical p.batchId matchList)) :
  verifySignedBatch nacl sha256
      ⟨p.batchId, p.sessionId, batchMatches o p, p.batchHash, p.signatures⟩ committee = some true
    ↔ ∀ m ∈ matchList, Unpriced m
  := by
  -- A host that verifies as the library does.
  let host : Host := { hashSignHost with
    ed25519Verify := fun key message signature =>
      nacl.verify message (toBE 64 signature.toNat) key.toBytes }
  have hagree : ∀ message signed, Agrees nacl host message signed := fun _ _ => rfl
  have hcopies : batchMatches o p = matchList.map stripMatch := by
    have hne : matchList.map stripMatch ≠ [] := by simpa using hmatches
    simp only [batchMatches, hrow, hne, false_and, if_false]
  set message := batchMessage sha256 p.batchId matchList with hmessage
  have hprinted : List.Forall₂ Printed
      (⟨p.batchId, p.sessionId, batchMatches o p, p.batchHash, p.signatures⟩ :
        SignedMatchBatch).signatures (nodes.map (poolSignature nacl message)) := by
    change List.Forall₂ Printed p.signatures _
    rw [hsignatures]
    exact forall₂_printed (fun node hnode => (hsigns node hnode).toSignsFor) fun _ _ => rfl
  rw [verifySignedBatch_eq_some (fun p _ => hagree _ p) hkeys hprinted, ← canonical_stripMatch_iff,
    hcopies]
  constructor
  · rintro ⟨-, -, -, -, hverify⟩
    obtain ⟨node, hnode⟩ := List.exists_mem_of_ne_nil nodes hsome
    obtain ⟨hpk, -, hsig⟩ := (hsigns node hnode).toBytes_poolSignature message
    have hmem : poolSignature nacl message node
        ∈ ((nodes.map (poolSignature nacl message)).map Prod.fst).zip
          ((nodes.map (poolSignature nacl message)).map Prod.snd) := by
      rw [List.zip_map']
      exact List.mem_map.mpr ⟨_, List.mem_map_of_mem hnode, rfl⟩
    have hgood := hverify _ hmem
    rw [← hagree _ (poolSignature nacl message node), hpk, hsig, ← batchMessage_eq] at hgood
    have heq := hbinds node hnode hgood
    rw [batchMessage_eq, hmessage, batchMessage_eq] at heq
    apply utf8_injective (hfree (Word.toBytes_injective heq))
  · intro h
    have hhash : (computeBatchHash sha256 p.batchId (matchList.map stripMatch)).toBytes
        = message := by
      rw [hmessage, batchMessage_eq, computeBatchHash, computeBatchHash, h]
    rw [hhash]
    constructor
    · rw [Pool.threshold, Nat.mul_comm, List.length_map, List.length_map]
      exact hquorum
    · apply signed_poolSignature (fun node hnode => (hsigns node hnode).toSignsFor) hnodup
      intro node hnode
      obtain ⟨hpk, -, hsig⟩ := (hsigns node hnode).toBytes_poolSignature message
      rw [← hagree _ (poolSignature nacl message node), hpk, hsig]
      apply (hsigns node hnode).correct

/-- A match at a price. -/
def pricedMatch : MatchResult :=
  { usdcMatch "x".toList "y".toList "1".toList with priceScaled := some "2".toList }

/-- The job of a batch that two of three signed. -/
def twoJob (matchList : List MatchResult) : SettlePayload where
  batchId := "b".toList
  batchHash := []
  signatures := [keyedNode 1, keyedNode 2].map (signBatch hashSign Shade.sha256 "b".toList matchList)
  matchIndex := 0
  sessionId := "s".toList
  intentAId := "x".toList
  intentBId := "y".toList
  matchedAmount7dp := "1".toList
  inputAsset := "USDC".toList
  outputAsset := "USDC".toList
  nullifierA := none
  nullifierB := none
  outputCommitmentA := none
  outputCommitmentB := none

/-- A database with the batch, and nothing else. -/
def rowOnly (matchList : List MatchResult) : Outside where
  matchesJson := some (some matchList)
  getCommittee := .ok ([1, 2, 3].map printKey)
  coinFile _ := .error "no such file"
  noteCommitments := none
  buildMpcSettlementProof _ := .error "no artifacts"
  computeMpcRoot _ _ := .error "no tool"

/-- The relayer refuses a batch of a match at a price. -/
theorem relayer_refuses_priced :
  verifySignedBatch hashSign Shade.sha256
      ⟨"b".toList, "s".toList, batchMatches (rowOnly [pricedMatch]) (twoJob [pricedMatch]), [],
        (twoJob [pricedMatch]).signatures⟩
      ([1, 2, 3].map fun key => nodePublicInfo (keyedNode key)) ≠ some true
  := by
  have hbinds : ∀ node ∈ [keyedNode 1, keyedNode 2], Binds hashSign node
      (batchMessage Shade.sha256 "b".toList [pricedMatch])
      (batchMessage Shade.sha256 "b".toList ([pricedMatch].map stripMatch)) := by
    have hverify : ([keyedNode 1, keyedNode 2].all fun node => !hashSign.verify
        (batchMessage Shade.sha256 "b".toList ([pricedMatch].map stripMatch))
        (hashSign.detached (batchMessage Shade.sha256 "b".toList [pricedMatch])
          node.signingSecretKey) node.signingPublicKey) = true := by
      decide +kernel
    intro node hnode hgood
    have hbad := List.all_eq_true.mp hverify node hnode
    rw [hgood] at hbad
    cases hbad
  have hfree : Shade.sha256 (utf8 (canonical "b".toList ([pricedMatch].map stripMatch)))
        = Shade.sha256 (utf8 (canonical "b".toList [pricedMatch]))
      → utf8 (canonical "b".toList ([pricedMatch].map stripMatch))
        = utf8 (canonical "b".toList [pricedMatch]) := by
    decide +kernel
  intro h
  have hunpriced := (relayer_verifies_iff hashSign Shade.sha256 [1, 2, 3] _ rfl
    [keyedNode 1, keyedNode 2] signs_keyedNode (by decide) (by decide) (by simp) (rowOnly [pricedMatch])
    (twoJob [pricedMatch]) rfl (by simp) rfl hbinds hfree).mp h
  have hprice := (hunpriced pricedMatch (by simp)).1
  cases hprice

end Shade.Relayer
