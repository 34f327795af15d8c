import Shade.Property.Mirror
import Shade.Property.Registered
import Shade.Proving.Settlement

/-!
# Matches can be settled

What the settlement builder makes of two coins, and what the pool makes of that. The inputs that it
assembles satisfy the settlement circuit exactly if the matched amount is within both notes, and in
every state that the pool reaches a match of two notes that stand in it and that a quorum of the
committee signed is carried out.
-/

namespace Shade.Proving

open Endian Text Solver Pool Txn

/-! ### What the builder assembles -/

/-- The texts of a coin are those of a note. -/
structure GeneratedCoin.Denotes (c : GeneratedCoin) (note : Note) : Prop where
  opens : c.opening.Opens note
  asset : readSignal c.assetIdField = some note.assetId

/-- Where a coin stands: the signals that its paths denote. -/
structure Standing where
  stateIndex : Fr
  stateSiblings : List.Vector Fr 12
  labelIndex : Fr
  labelSiblings : List.Vector Fr 2

/-- The paths of a note lead from its commitment to a root and from its label to the root of the
association tree. -/
structure CoinPaths.Prove (c : CoinPaths) (H : Hash) (note : Note) (root assoc : Fr)
    (s : Standing) : Prop where
  stateRoot : readSignal c.stateRoot = some root
  associationRoot : readSignal c.associationRoot = some assoc
  stateIndex : readSignal c.stateIndex = some s.stateIndex
  stateSiblings : readSignals 12 c.stateSiblings = some s.stateSiblings
  labelIndex : readSignal c.labelIndex = some s.labelIndex
  labelSiblings : readSignals 2 c.labelSiblings = some s.labelSiblings
  state : MerkleProof H s.stateSiblings (note.commitment H) s.stateIndex root
  label : MerkleProof H s.labelSiblings note.label s.labelIndex assoc

/-- Coinutils writes paths of the coins of notes, in the tree of the leaves it is given and in the
association tree of a file. -/
def FindsPaths (withdraw : Withdraw) (H : Hash) (assocPath : Text) (assoc : Fr) : Prop :=
  ∀ coin note (leaves : List Word) commitments scope answer, coin.Denotes note →
    commitments.map readSignal = leaves.map (fun leaf => some leaf.toFr) →
    withdraw coin commitments scope assocPath = .ok answer →
    ∃ s, answer.Prove H note (LeanIMT.treeRoot H 12 leaves) assoc s

/-- The note that the opening of a fresh note denotes. -/
def drawnNote (assetId value : Fr) (d : Draw) : Note where
  assetId := assetId
  value := value
  label := ((ofBE d.label % bn254P : ℕ) : Fr)
  nullifier := ((ofBE d.nullifier % bn254P : ℕ) : Fr)
  secret := ((ofBE d.secret % bn254P : ℕ) : Fr)

/-- The public numbers of a settlement. -/
structure SettleTerms where
  batchHash : Word
  poolId : ℕ
  chainId : ℕ
  matched : ℕ
  deadline : ℕ

/-- The texts of the parameters are those numbers. -/
structure MpcSettlementParams.Denotes (p : MpcSettlementParams) (noteA noteB : Note)
    (t : SettleTerms) : Prop where
  coinA : p.coinA.Denotes noteA
  coinB : p.coinB.Denotes noteB
  batchHash : Writes p.batchHashHex t.batchHash
  poolId : ofDecimal p.poolId = some t.poolId
  chainId : ofDecimal p.chainId = some t.chainId
  matched : ofDecimal p.matchedAmount7dp = some t.matched
  deadline : ofDecimal p.deadlineLedger = some t.deadline

/-- The assignment that crosses two notes. -/
def crossing (H : Hash) (noteA noteB outA outB : Note) (sA sB : Standing) (root assoc : Fr)
    (t : SettleTerms) : MpcSettlement.Assignment 12 2 where
  stateRoot := root
  associationRoot := assoc
  batchHash := (Shade.hashToField t.batchHash).toFr
  poolId := (t.poolId : ℕ)
  chainId := (t.chainId : ℕ)
  matchedAmount7dp := (t.matched : ℕ)
  deadlineLedger := (t.deadline : ℕ)
  assetId := noteA.assetId
  labelA := noteA.label
  valueA := noteA.value
  nullifierA := noteA.nullifier
  secretA := noteA.secret
  stateIndexA := sA.stateIndex
  stateSiblingsA := sA.stateSiblings
  labelIndexA := sA.labelIndex
  labelSiblingsA := sA.labelSiblings
  outValueA := outA.value
  outLabelA := outA.label
  outNullifierA := outA.nullifier
  outSecretA := outA.secret
  labelB := noteB.label
  valueB := noteB.value
  nullifierB := noteB.nullifier
  secretB := noteB.secret
  stateIndexB := sB.stateIndex
  stateSiblingsB := sB.stateSiblings
  labelIndexB := sB.labelIndex
  labelSiblingsB := sB.labelSiblings
  outValueB := outB.value
  outLabelB := outB.label
  outNullifierB := outB.nullifier
  outSecretB := outB.secret
  nullifierHashA := nullifierHashOf H noteA.nullifier (t.poolId : ℕ) (t.chainId : ℕ)
  nullifierHashB := nullifierHashOf H noteB.nullifier (t.poolId : ℕ) (t.chainId : ℕ)
  outputCommitmentA :=
    Note.commitment H ⟨noteA.assetId, outA.value, outA.label, outA.nullifier, outA.secret⟩
  outputCommitmentB :=
    Note.commitment H ⟨noteA.assetId, outB.value, outB.label, outB.nullifier, outB.secret⟩

section

variable {H : Hash} {withdraw : Withdraw} {drawA drawB : Draw} {p : MpcSettlementParams}
  {i : MpcSettlementInput} {oA oB : CoinOpening} {noteA noteB : Note} {t : SettleTerms}
  {root assoc : Fr}

/-- The builder returns the texts of the coins and of their paths. -/
theorem buildMpcSettlementWitness_eq_ok
    (h : buildMpcSettlementWitness withdraw drawA drawB p = .ok (i, oA, oB)) :
  ∃ wA wB batchHash, withdraw p.coinA p.commitmentsDecimal p.scope p.assocPath = .ok wA
    ∧ withdraw p.coinB p.commitmentsDecimal p.scope p.assocPath = .ok wB
    ∧ hashToField p.batchHashHex = some batchHash
    ∧ p.coinA.assetIdField = p.coinB.assetIdField
    ∧ oA = freshNote p.matchedAmount7dp drawA ∧ oB = freshNote p.matchedAmount7dp drawB
    ∧ i = ⟨wA.stateRoot, wA.associationRoot, batchHash, p.poolId, p.chainId, p.matchedAmount7dp,
        p.deadlineLedger, p.coinA.assetIdField, p.coinA.opening, wA.stateIndex, wA.stateSiblings,
        wA.labelIndex, wA.labelSiblings, oA, p.coinB.opening, wB.stateIndex, wB.stateSiblings,
        wB.labelIndex, wB.labelSiblings, oB⟩
  := by
  rw [buildMpcSettlementWitness] at h
  cases hA : withdraw p.coinA p.commitmentsDecimal p.scope p.assocPath with
  | error e => rw [hA] at h; cases h
  | ok wA =>
      cases hB : withdraw p.coinB p.commitmentsDecimal p.scope p.assocPath with
      | error e => rw [hA, hB] at h; cases h
      | ok wB =>
          rw [hA, hB] at h
          by_cases hasset :
              p.coinA.assetIdField = [] ∨ p.coinA.assetIdField ≠ p.coinB.assetIdField
          · simp only [bind, Except.bind, if_pos hasset] at h
            cases h
          · simp only [bind, Except.bind, if_neg hasset, pure, Except.pure] at h
            cases hhash : hashToField p.batchHashHex with
            | none => rw [hhash] at h; cases h
            | some batchHash =>
                rw [hhash] at h
                cases h
                refine ⟨wA, wB, batchHash, rfl, rfl, rfl, ?_, rfl, rfl, rfl⟩
                by_contra hne
                exact hasset (Or.inr hne)

theorem readSignal_of_ofDecimal {text : Text} {n : ℕ} (h : ofDecimal text = some n) :
  readSignal text = some (n : Fr)
  := by
  rw [readSignal, h, Option.map_some]

theorem freshNote_opens (assetId : Fr) {amount : Text} {n : ℕ} (h : ofDecimal amount = some n)
    (d : Draw) :
  (freshNote amount d).Opens (drawnNote assetId (n : ℕ) d)
  := by
  constructor
  · apply readSignal_of_ofDecimal h
  · apply readSignal_decimal
  · apply readSignal_decimal
  · apply readSignal_decimal

/-- The two notes of a match have the same asset, and the circuit is given the crossing of them. -/
theorem MpcSettlementParams.Denotes.assignment_eq (hp : p.Denotes noteA noteB t)
    (hbuild : buildMpcSettlementWitness withdraw drawA drawB p = .ok (i, oA, oB))
    (hpathsA : ∀ answer, withdraw p.coinA p.commitmentsDecimal p.scope p.assocPath = .ok answer →
      ∃ s, answer.Prove H noteA root assoc s)
    (hpathsB : ∀ answer, withdraw p.coinB p.commitmentsDecimal p.scope p.assocPath = .ok answer →
      ∃ s, answer.Prove H noteB root assoc s) :
  noteA.assetId = noteB.assetId ∧ ∃ sA sB,
    MerkleProof H sA.stateSiblings (noteA.commitment H) sA.stateIndex root
    ∧ MerkleProof H sB.stateSiblings (noteB.commitment H) sB.stateIndex root
    ∧ MerkleProof H sA.labelSiblings noteA.label sA.labelIndex assoc
    ∧ MerkleProof H sB.labelSiblings noteB.label sB.labelIndex assoc
    ∧ i.assignment H = some (crossing H noteA noteB (drawnNote noteA.assetId (t.matched : ℕ) drawA)
        (drawnNote noteA.assetId (t.matched : ℕ) drawB) sA sB root assoc t)
  := by
  obtain ⟨wA, wB, batchHash, hwA, hwB, hhash, hasset, rfl, rfl, rfl⟩ :=
    buildMpcSettlementWitness_eq_ok hbuild
  obtain ⟨sA, hA⟩ := hpathsA wA hwA
  obtain ⟨sB, hB⟩ := hpathsB wB hwB
  rw [hashToField_of_writes hp.batchHash] at hhash
  obtain rfl := Option.some.inj hhash
  have hassetB := hp.coinB.asset
  rw [← hasset, hp.coinA.asset] at hassetB
  have hfreshA := freshNote_opens noteA.assetId hp.matched drawA
  have hfreshB := freshNote_opens noteA.assetId hp.matched drawB
  refine ⟨Option.some.inj hassetB, sA, sB, hA.state, hB.state, hA.label, hB.label, ?_⟩
  have hopA := hp.coinA.opens
  have hopB := hp.coinB.opens
  simp only [MpcSettlementInput.assignment, hA.stateRoot, hA.associationRoot, readSignal_decimal,
    readSignal_of_ofDecimal hp.poolId, readSignal_of_ofDecimal hp.chainId,
    readSignal_of_ofDecimal hp.matched, readSignal_of_ofDecimal hp.deadline, hp.coinA.asset,
    hopA.label, hopA.value, hopA.nullifier, hopA.secret, hopB.label, hopB.value, hopB.nullifier,
    hopB.secret, hA.stateIndex, hA.stateSiblings, hA.labelIndex, hA.labelSiblings, hB.stateIndex,
    hB.stateSiblings, hB.labelIndex, hB.labelSiblings, hfreshA.value, hfreshA.label,
    hfreshA.nullifier, hfreshA.secret, hfreshB.value, hfreshB.label, hfreshB.nullifier,
    hfreshB.secret, Option.bind_eq_bind, Option.bind_some, Option.pure_def]
  rfl

/-- The crossing of two notes of 128-bit values satisfies the circuit exactly if the matched amount
is within both. -/
theorem crossing_satisfied_iff {outA outB : Note} {sA sB : Standing}
    (hasset : noteA.assetId = noteB.assetId)
    (hstateA : MerkleProof H sA.stateSiblings (noteA.commitment H) sA.stateIndex root)
    (hstateB : MerkleProof H sB.stateSiblings (noteB.commitment H) sB.stateIndex root)
    (hlabelA : MerkleProof H sA.labelSiblings noteA.label sA.labelIndex assoc)
    (hlabelB : MerkleProof H sB.labelSiblings noteB.label sB.labelIndex assoc)
    (houtA : outA.value = (t.matched : ℕ)) (houtB : outB.value = (t.matched : ℕ))
    (hA : noteA.value.val < 2 ^ 128) (hB : noteB.value.val < 2 ^ 128) (hlt : t.matched < 2 ^ 128) :
  MpcSettlement.Satisfied H (crossing H noteA noteB outA outB sA sB root assoc t)
    ↔ t.matched ≤ noteA.value.val ∧ t.matched ≤ noteB.value.val
  := by
  have hr : 2 ^ 128 < r := by decide
  have hmatched : ((t.matched : ℕ) : Fr).val = t.matched := by
    rw [ZMod.val_natCast, Nat.mod_eq_of_lt (by omega)]
  have hm : ((t.matched : ℕ) : Fr).val < 2 ^ 128 := by omega
  constructor
  · intro h
    have hleA := MpcSettlement.matched_le h.remainA hm
    have hleB := MpcSettlement.matched_le h.remainB hm
    rw [← hmatched]
    use hleA, hleB
  · rintro ⟨hleA, hleB⟩
    constructor
    · exact hstateA
    · have hnote : (crossing H noteA noteB outA outB sA sB root assoc t).noteB = noteB := by
        change (⟨noteA.assetId, noteB.value, noteB.label, noteB.nullifier, noteB.secret⟩ : Note)
          = noteB
        rw [hasset]
      rw [hnote]
      exact hstateB
    · exact hlabelA
    · exact hlabelB
    · rfl
    · rfl
    · rfl
    · rfl
    · apply RangeCheck.of_val_lt
      change (noteA.value - (t.matched : ℕ)).val < 2 ^ 128
      rw [ZMod.val_sub (by omega)]
      omega
    · apply RangeCheck.of_val_lt
      change (noteB.value - (t.matched : ℕ)).val < 2 ^ 128
      rw [ZMod.val_sub (by omega)]
      omega
    · change outA.value + outB.value = ((t.matched : ℕ) : Fr) * 2
      rw [houtA, houtB, mul_two]

/-- What the builder assembles from the coins of two notes satisfies the settlement circuit exactly
if the matched amount is within both notes. Their assets are the same then, and each of the two
notes that are created is worth the matched amount: what is above it in a note is lost. -/
theorem settlement_satisfied_iff {a : MpcSettlement.Assignment 12 2} (hp : p.Denotes noteA noteB t)
    (hbuild : buildMpcSettlementWitness withdraw drawA drawB p = .ok (i, oA, oB))
    (hread : i.assignment H = some a)
    (hpathsA : ∀ answer, withdraw p.coinA p.commitmentsDecimal p.scope p.assocPath = .ok answer →
      ∃ s, answer.Prove H noteA root assoc s)
    (hpathsB : ∀ answer, withdraw p.coinB p.commitmentsDecimal p.scope p.assocPath = .ok answer →
      ∃ s, answer.Prove H noteB root assoc s)
    (hA : noteA.value.val < 2 ^ 128) (hB : noteB.value.val < 2 ^ 128) (hlt : t.matched < 2 ^ 128) :
  noteA.assetId = noteB.assetId ∧ a.noteA = noteA ∧ a.noteB = noteB
    ∧ a.outValueA.val = t.matched ∧ a.outValueB.val = t.matched
    ∧ (MpcSettlement.Satisfied H a
      ↔ t.matched ≤ noteA.value.val ∧ t.matched ≤ noteB.value.val)
  := by
  obtain ⟨hasset, sA, sB, hstateA, hstateB, hlabelA, hlabelB, hassignment⟩ :=
    hp.assignment_eq hbuild hpathsA hpathsB
  rw [hassignment] at hread
  obtain rfl := Option.some.inj hread
  have hr : 2 ^ 128 < r := by decide
  have hmatched : ((t.matched : ℕ) : Fr).val = t.matched := by
    rw [ZMod.val_natCast, Nat.mod_eq_of_lt (by omega)]
  refine ⟨hasset, rfl, ?_, hmatched, hmatched, ?_⟩
  · change (⟨noteA.assetId, noteB.value, noteB.label, noteB.nullifier, noteB.secret⟩ : Note) = noteB
    rw [hasset]
  · apply crossing_satisfied_iff hasset hstateA hstateB hlabelA hlabelB rfl rfl hA hB hlt

end

/-! ### The call that settles -/

section

variable {host : Host} {w : World}

/-- A settlement that passes its checks is carried out. -/
theorem settlement_exec {args : MpcArgs} (tx : Tx)
    (x : Settlement host w w.pool.mpcVerifier 10 args) (hpaused : w.pool.paused = false)
    (hassoc : w.pool.assocRoot = some (x.signals.getD 5 0)) (hlength : x.signals.length = 12)
    (hcount : w.pool.leafCount + 2 < 2 ^ 32) :
  (mpcSettle host tx args).run w = .ok ((), x.world.emit
    (.mpc args.batchHash args.nullifierA args.nullifierB args.outputCommitmentA
      args.outputCommitmentB args.newRoot))
  := by
  simp only [mpcSettle, requireNotPaused_bind_ok, verifyCommitteeThreshold_bind_ok,
    parseSignals_bind_ok, signal_bind_ok, require_bind_ok, read_bind_ok, unwrap_bind_ok,
    bindSignals_bind_ok, requireAssociation_bind_ok, requireDomain_bind_ok,
    requireKnownRoot_bind_ok, requireProof_bind_ok, spendNullifier_bind_ok,
    appendOutputs_bind_ok, write_ok]
  refine ⟨hpaused, x.endorsed, x.address, x.address_eq, x.proof, x.proof_eq, x.bytes, x.bytes_eq,
    x.verified, x.signals, x.parsed, by omega, x.nullifierA, x.nullifierB, x.outputCommitmentA,
    x.outputCommitmentB, by omega, x.known, by omega, hassoc, by omega, x.batchHash, by omega,
    by omega, x.domain, by omega, x.deadline, x.admittedA, x.admittedB, hcount, x.rootA, x.rootA_eq,
    x.newRoot_eq, rfl⟩

/-- The call that settles with public signals, a proof and the signatures of the committee. -/
def signalArgs (H : Hash) (w : World) (signals : List Fr) (batchHash : Word) (signers : List Word)
    (signatures : List Signature) (proof : Bytes) : MpcArgs where
  nullifierA := Word.ofFr (signals.getD 0 0)
  nullifierB := Word.ofFr (signals.getD 1 0)
  outputCommitmentA := Word.ofFr (signals.getD 2 0)
  outputCommitmentB := Word.ofFr (signals.getD 3 0)
  newRoot := Word.ofFr (LeanIMT.treeRoot H 12
    (w.pool.treeLeaves ++ [Word.ofFr (signals.getD 2 0)] ++ [Word.ofFr (signals.getD 3 0)]))
  batchHash := batchHash
  signerPubkeys := signers
  signatures := signatures
  proofBytes := some proof
  pubSignalsBytes := some (publicToBytes (signals.map Word.ofFr))

theorem getD_map_ofFr (signals : List Fr) (i : ℕ) :
  (signals.map Word.ofFr).getD i 0 = Word.ofFr (signals.getD i 0)
  := List.getD_map signals 0 Word.ofFr

/-- Spending a nullifier leaves others admitted. -/
theorem admits_spend {n n' : Word} (h : w.registry.Admits host.self n') (hne : n ≠ n') :
  (w.spend n).registry.Admits host.self n'
  := by
  use h.1, h.2.1
  change NullifierRegistry.State.isSpent { w.registry with spent := w.registry.spent.set n true } n'
    = false
  rw [NullifierRegistry.isSpent_set, h.2.2, decide_eq_false hne, Bool.or_self]

/-- Public signals that a pool can settle: they name its root, the batch, its domain and a deadline
that is not over, the nullifiers are different and not spent, and the tree has room. -/
structure Timely (host : Host) (w : World) (signals : List Fr) (batchHash : Word)
    (deadlineIndex : ℕ) : Prop where
  count : signals.length < 2 ^ 32
  leaves : w.pool.treeLeaves ≠ []
  room : w.pool.treeLeaves.length + 2 ≤ 2 ^ 12
  root : signals.getD 4 0 = LeanIMT.treeRoot host.poseidon 12 w.pool.treeLeaves
  batchHash : signals.getD 6 0 = (Shade.hashToField batchHash).toFr
  poolId : signals.getD 7 0 = (w.pool.poolId.toNat : ℕ)
  chainId : signals.getD 8 0 = (w.pool.chainId.toNat : ℕ)
  deadline : ∃ deadline : ℕ, signals.getD deadlineIndex 0 = deadline ∧ w.sequence ≤ deadline
    ∧ deadline < 2 ^ 127
  different : signals.getD 0 0 ≠ signals.getD 1 0
  admittedA : w.registry.Admits host.self (Word.ofFr (signals.getD 0 0))
  admittedB : w.registry.Admits host.self (Word.ofFr (signals.getD 1 0))

/-- A pool accepts such signals with a proof and endorsements. -/
def Timely.settlement {signals : List Fr} {batchHash : Word} {deadlineIndex : ℕ}
    (h : Timely host w signals batchHash deadlineIndex)
    (htree : TreeInvariant host.poseidon 12 w.pool) {verifier : Option Address} {address : Address}
    (haddress : verifier = some address) {signers : List Word} {signatures : List Signature}
    (hendorsed : w.pool.Endorsed host batchHash.toBytes signers signatures) {proof : Bytes}
    (hproof : host.verify address proof (publicToBytes (signals.map Word.ofFr)) = some true) :
    Settlement host w verifier deadlineIndex
      (signalArgs host.poseidon w signals batchHash signers signatures proof) where
  endorsed := hendorsed
  proof := proof
  proof_eq := rfl
  bytes := publicToBytes (signals.map Word.ofFr)
  bytes_eq := rfl
  address := address
  address_eq := haddress
  verified := hproof
  signals := signals.map Word.ofFr
  parsed := by
    apply parsePublicSignals_publicToBytes
    rw [List.length_map]
    exact h.count
  nullifierA := getD_map_ofFr signals 0
  nullifierB := getD_map_ofFr signals 1
  outputCommitmentA := getD_map_ofFr signals 2
  outputCommitmentB := getD_map_ofFr signals 3
  known := by
    rw [getD_map_ofFr, h.root]
    exact isKnownRoot_treeRoot htree h.leaves
  batchHash := by
    rw [getD_map_ofFr, h.batchHash]
    exact ofFr_toFr (canonical_hashToField _)
  domain := by
    have hpool := w.pool.poolId.toNat_lt
    have hchain := w.pool.chainId.toNat_lt
    constructor
    · rw [getD_map_ofFr, h.poolId]
      apply fr32ToI128_ofFr (by omega)
    · rw [getD_map_ofFr, h.chainId]
      apply fr32ToI128_ofFr (by omega)
  deadline := by
    obtain ⟨deadline, heq, hle, hlt⟩ := h.deadline
    rw [getD_map_ofFr, heq, fr32ToI128_ofFr hlt]
    exact_mod_cast hle
  admittedA := h.admittedA
  admittedB := by
    apply admits_spend h.admittedB
    intro heq
    apply h.different
    rw [← Word.toFr_ofFr (signals.getD 0 0), ← Word.toFr_ofFr (signals.getD 1 0)]
    exact congrArg Word.toFr heq
  rootA := _
  rootA_eq := by
    have hroom := h.room
    rw [htree.depth_eq]
    exact appendRoot_of_lt host.poseidon (by omega) _
  newRoot_eq := by
    have hroom := h.room
    rw [htree.depth_eq]
    apply appendRoot_of_lt host.poseidon
    rw [List.length_append, List.length_singleton]
    omega

/-- What a settlement does to the pool. -/
theorem emit_facts {verifier : Option Address} {deadlineIndex : ℕ} {args : MpcArgs}
    (x : Settlement host w verifier deadlineIndex args) (e : Event) :
  (x.world.emit e).registry.isSpent args.nullifierA = true
    ∧ (x.world.emit e).registry.isSpent args.nullifierB = true
    ∧ (x.world.emit e).pool.treeLeaves
      = w.pool.treeLeaves ++ [args.outputCommitmentA, args.outputCommitmentB]
    ∧ (x.world.emit e).tokens = w.tokens
  := by
  have hspent : ∀ n, (x.world.emit e).registry.isSpent n = (decide (args.nullifierB = n)
      || (decide (args.nullifierA = n) || w.registry.isSpent n)) := by
    intro n
    rw [← NullifierRegistry.isSpent_set, ← NullifierRegistry.isSpent_set]
    rfl
  refine ⟨?_, ?_, ?_, rfl⟩
  · rw [hspent, decide_eq_true rfl, Bool.true_or, Bool.or_true]
  · rw [hspent, decide_eq_true rfl, Bool.true_or]
  · change w.pool.treeLeaves ++ [args.outputCommitmentA] ++ [args.outputCommitmentB] = _
    rw [List.append_assoc]
    rfl

/-- The call that settles with an assignment, its proof and the signatures of the committee. -/
def settleArgs (H : Hash) (w : World) (a : MpcSettlement.Assignment 12 2) (batchHash : Word)
    (signers : List Word) (signatures : List Signature) (proof : Bytes) : MpcArgs where
  nullifierA := Word.ofFr a.nullifierHashA
  nullifierB := Word.ofFr a.nullifierHashB
  outputCommitmentA := Word.ofFr a.outputCommitmentA
  outputCommitmentB := Word.ofFr a.outputCommitmentB
  newRoot := Word.ofFr (LeanIMT.treeRoot H 12
    (w.pool.treeLeaves ++ [Word.ofFr a.outputCommitmentA] ++ [Word.ofFr a.outputCommitmentB]))
  batchHash := batchHash
  signerPubkeys := signers
  signatures := signatures
  proofBytes := some proof
  pubSignalsBytes := some (publicToBytes (a.publicSignals.map Word.ofFr))

/-- The pool can settle a match of two notes: it runs this code and is not paused, its association
root is set, the notes are not spent and not the same, its tree has room, the terms are for this
pool and the deadline is not over. -/
structure Matchable (host : Host) (w : World) (noteA noteB : Note) (assocRoot : Word)
    (t : SettleTerms) : Prop where
  running : w.pool.wasm = none
  unpaused : w.pool.paused = false
  association : w.pool.assocRoot = some assocRoot
  canonical : assocRoot.Canonical
  leaves : w.pool.treeLeaves ≠ []
  room : w.pool.treeLeaves.length + 2 ≤ 2 ^ 12
  different : w.pool.nullifierHash host.poseidon noteA ≠ w.pool.nullifierHash host.poseidon noteB
  admittedA : w.registry.Admits host.self (Word.ofFr (w.pool.nullifierHash host.poseidon noteA))
  admittedB : w.registry.Admits host.self (Word.ofFr (w.pool.nullifierHash host.poseidon noteB))
  poolId : t.poolId = w.pool.poolId.toNat
  chainId : t.chainId = w.pool.chainId.toNat
  deadline : w.sequence ≤ t.deadline
  deadline_lt : t.deadline < 2 ^ 127

/-- Every honest match is settled. In every state that a run from a constructor call reaches, if
the texts of two coins and of a match denote two notes that stand in the pool, and the builder,
with the paths that coinutils finds in the tree of the pool, returns the inputs of the circuit, then
these satisfy it, and the pool accepts the settlement with any proof that its verifier accepts and
with any signatures that endorse the hash of the batch: both notes are spent and the two notes that
the builder drew are appended. -/
theorem settlement_accepted (host : Host) (admin usdcSac verifier nullifierRegistry : Address)
    (pool chain : UInt32) (registry : NullifierRegistry.State) (tokens : Token.Ledger)
    (sequence : ℕ) (actions : List Action) {w : World}
    (hw : w = run host (World.init (State.constructor admin usdcSac verifier nullifierRegistry 12
      pool chain) registry tokens sequence) actions)
    {withdraw : Withdraw} {drawA drawB : Draw} {p : MpcSettlementParams} {i : MpcSettlementInput}
    {oA oB : CoinOpening} {a : MpcSettlement.Assignment 12 2} {noteA noteB : Note} {t : SettleTerms}
    {assocRoot : Word} (hfinds : FindsPaths withdraw host.poseidon p.assocPath assocRoot.toFr)
    (hp : p.Denotes noteA noteB t)
    (hleaves : p.commitmentsDecimal.map readSignal
      = w.pool.treeLeaves.map fun leaf => some leaf.toFr)
    (hbuild : buildMpcSettlementWitness withdraw drawA drawB p = .ok (i, oA, oB))
    (hread : i.assignment host.poseidon = some a)
    (hmatch : Matchable host w noteA noteB assocRoot t)
    (hA : noteA.value.val < 2 ^ 128) (hB : noteB.value.val < 2 ^ 128)
    (hleA : t.matched ≤ noteA.value.val) (hleB : t.matched ≤ noteB.value.val)
    {mpcVerifier : Address} (hverifier : w.pool.mpcVerifier = some mpcVerifier)
    {signers : List Word} {signatures : List Signature}
    (hendorsed : w.pool.Endorsed host t.batchHash.toBytes signers signatures) :
  MpcSettlement.Satisfied host.poseidon a
    ∧ ∀ tx proof, host.verify mpcVerifier proof (publicToBytes (a.publicSignals.map Word.ofFr))
        = some true →
      ∃ w', step host (.call tx (.mpcSettle
          (settleArgs host.poseidon w a t.batchHash signers signatures proof))) w = some w'
        ∧ w'.registry.isSpent (Word.ofFr (w.pool.nullifierHash host.poseidon noteA)) = true
        ∧ w'.registry.isSpent (Word.ofFr (w.pool.nullifierHash host.poseidon noteB)) = true
        ∧ w'.pool.treeLeaves = w.pool.treeLeaves ++
          [Word.ofFr ((drawnNote noteA.assetId (t.matched : ℕ) drawA).commitment host.poseidon),
            Word.ofFr ((drawnNote noteA.assetId (t.matched : ℕ) drawB).commitment host.poseidon)]
        ∧ w'.tokens = w.tokens
  := by
  obtain ⟨hcount, htree⟩ := treeInvariant_run host (by decide) (treeInvariant_constructor ..) rfl
    actions hw
  obtain ⟨hasset, sA, sB, hstateA, hstateB, hlabelA, hlabelB, hassignment⟩ :=
    hp.assignment_eq hbuild
      (fun answer => hfinds _ noteA _ _ _ answer hp.coinA hleaves)
      (fun answer => hfinds _ noteB _ _ _ answer hp.coinB hleaves)
  rw [hassignment] at hread
  obtain rfl := Option.some.inj hread
  set outA := drawnNote noteA.assetId (t.matched : ℕ) drawA
  set outB := drawnNote noteA.assetId (t.matched : ℕ) drawB
  set a := crossing host.poseidon noteA noteB outA outB sA sB
    (LeanIMT.treeRoot host.poseidon 12 w.pool.treeLeaves) assocRoot.toFr t with ha
  have hsatisfied : MpcSettlement.Satisfied host.poseidon a :=
    (crossing_satisfied_iff hasset hstateA hstateB hlabelA hlabelB rfl rfl hA hB (by omega)).mpr
      ⟨hleA, hleB⟩
  use hsatisfied
  intro tx proof hproof
  have hroom := hmatch.room
  have hnullifierA : a.nullifierHashA = w.pool.nullifierHash host.poseidon noteA := by
    rw [ha, crossing, State.nullifierHash, hmatch.poolId, hmatch.chainId]
  have hnullifierB : a.nullifierHashB = w.pool.nullifierHash host.poseidon noteB := by
    rw [ha, crossing, State.nullifierHash, hmatch.poolId, hmatch.chainId]
  have htimely : Timely host w a.publicSignals t.batchHash 10 := by
    constructor
    · exact Nat.lt_of_lt_of_le (by decide : 12 < 2 ^ 31) (by decide)
    · exact hmatch.leaves
    · exact hroom
    · rfl
    · rfl
    · change ((t.poolId : ℕ) : Fr) = _
      rw [hmatch.poolId]
    · change ((t.chainId : ℕ) : Fr) = _
      rw [hmatch.chainId]
    · exact ⟨t.deadline, rfl, hmatch.deadline, hmatch.deadline_lt⟩
    · change a.nullifierHashA ≠ a.nullifierHashB
      rw [hnullifierA, hnullifierB]
      exact hmatch.different
    · change w.registry.Admits host.self (Word.ofFr a.nullifierHashA)
      rw [hnullifierA]
      exact hmatch.admittedA
    · change w.registry.Admits host.self (Word.ofFr a.nullifierHashB)
      rw [hnullifierB]
      exact hmatch.admittedB
  let x := htimely.settlement htree hverifier hendorsed hproof
  have hassocRoot : w.pool.assocRoot = some (Word.ofFr assocRoot.toFr) := by
    rw [ofFr_toFr hmatch.canonical]
    exact hmatch.association
  have hexec := settlement_exec tx x hmatch.unpaused hassocRoot rfl (by omega)
  obtain ⟨hspentA, hspentB, hleaves', htokens⟩ := emit_facts x _
  rw [← hnullifierA, ← hnullifierB]
  refine ⟨_, ?_, hspentA, hspentB, hleaves', htokens⟩
  rw [step, if_pos hmatch.running]
  exact attempt_eq_some.mpr ⟨(), hexec⟩

end

/-! ### A match of two notes -/

/-- A coin denotes one note. -/
theorem GeneratedCoin.Denotes.unique {c : GeneratedCoin} {note note' : Note} (h : c.Denotes note)
    (h' : c.Denotes note') :
  note = note'
  := by
  have hasset := Option.some.inj (h.asset.symm.trans h'.asset)
  have hvalue := Option.some.inj (h.opens.value.symm.trans h'.opens.value)
  have hlabel := Option.some.inj (h.opens.label.symm.trans h'.opens.label)
  have hnullifier := Option.some.inj (h.opens.nullifier.symm.trans h'.opens.nullifier)
  have hsecret := Option.some.inj (h.opens.secret.symm.trans h'.opens.secret)
  cases note
  cases note'
  simp_all

/-- A field element that is printed is read back. -/
theorem readSignal_val (x : Fr) :
  readSignal (decimal (x.val : ℕ)) = some x
  := by
  rw [readSignal_decimal, ZMod.natCast_zmod_val]

theorem readSignals_val {n : ℕ} (v : List.Vector Fr n) :
  readSignals n (v.toList.map fun x => decimal (x.val : ℕ)) = some v
  := by
  have hread : (v.toList.map fun x => decimal (x.val : ℕ)).mapM readSignal = some v.toList := by
    rw [List.mapM_map]
    generalize v.toList = xs
    induction xs with
    | nil => rfl
    | cons x xs ih =>
        rw [List.mapM_cons, Function.comp_apply, readSignal_val, ih]
        rfl
  rw [readSignals, hread, Option.bind_eq_bind, Option.bind_some, dif_pos v.toList_length]
  rfl

/-- The texts of the paths of a coin. -/
def printPaths (root assoc : Fr) (s : Standing) : CoinPaths where
  stateRoot := decimal (root.val : ℕ)
  associationRoot := decimal (assoc.val : ℕ)
  stateIndex := decimal (s.stateIndex.val : ℕ)
  stateSiblings := s.stateSiblings.toList.map fun x => decimal (x.val : ℕ)
  labelIndex := decimal (s.labelIndex.val : ℕ)
  labelSiblings := s.labelSiblings.toList.map fun x => decimal (x.val : ℕ)

theorem printPaths_prove {H : Hash} {note : Note} {root assoc : Fr} {s : Standing}
    (hstate : MerkleProof H s.stateSiblings (note.commitment H) s.stateIndex root)
    (hlabel : MerkleProof H s.labelSiblings note.label s.labelIndex assoc) :
  (printPaths root assoc s).Prove H note root assoc s
  := by
  constructor
  · apply readSignal_val
  · apply readSignal_val
  · apply readSignal_val
  · apply readSignals_val
  · apply readSignal_val
  · apply readSignals_val
  · exact hstate
  · exact hlabel

/-- The root of a tree depends only on the field elements of its leaves. -/
theorem treeRoot_congr (H : Hash) (depth : ℕ) {leaves leaves' : List Word}
    (h : leaves.map Word.toFr = leaves'.map Word.toFr) :
  LeanIMT.treeRoot H depth leaves = LeanIMT.treeRoot H depth leaves'
  := by
  have hrow : ∀ l : List Word, LeanIMT.leafRow l = fun i => ((l.map Word.toFr)[i]?).getD 0 := by
    intro l
    funext i
    rw [LeanIMT.leafRow, List.getElem?_map]
    cases l[i]? with
    | none => rfl
    | some leaf => rfl
  rw [LeanIMT.treeRoot, LeanIMT.treeRoot, LeanIMT.treeNode, LeanIMT.treeNode, hrow, hrow, h]

/-- Coinutils, on two coins of which it knows where they stand among the given leaves. -/
def coinsWithdraw (known : List Text) (coinA coinB : GeneratedCoin) (root assoc : Fr)
    (sA sB : Standing) : Withdraw := fun coin commitments _ _ =>
  if commitments ≠ known then
    .error "commitment not found in state"
  else if coin = coinA then
    .ok (printPaths root assoc sA)
  else if coin = coinB then
    .ok (printPaths root assoc sB)
  else
    .error "commitment not found in state"

/-- It finds the paths of both coins if they do stand there. -/
theorem coinsWithdraw_finds {H : Hash} {known : List Text} {coinA coinB : GeneratedCoin}
    {noteA noteB : Note} {root assoc : Fr} {sA sB : Standing} {leaves : List Word}
    (hknown : known.map readSignal = leaves.map fun leaf => some leaf.toFr)
    (hroot : LeanIMT.treeRoot H 12 leaves = root)
    (hcoinA : coinA.Denotes noteA) (hcoinB : coinB.Denotes noteB)
    (hstateA : MerkleProof H sA.stateSiblings (noteA.commitment H) sA.stateIndex root)
    (hstateB : MerkleProof H sB.stateSiblings (noteB.commitment H) sB.stateIndex root)
    (hlabelA : MerkleProof H sA.labelSiblings noteA.label sA.labelIndex assoc)
    (hlabelB : MerkleProof H sB.labelSiblings noteB.label sB.labelIndex assoc)
    (assocPath : Text) :
  FindsPaths (coinsWithdraw known coinA coinB root assoc sA sB) H assocPath assoc
  := by
  intro coin note leaves' commitments scope answer hcoin hleaves hanswer
  simp only [coinsWithdraw] at hanswer
  split at hanswer
  · cases hanswer
  · next hcommitments =>
      obtain rfl := not_not.mp hcommitments
      have hfields : leaves'.map Word.toFr = leaves.map Word.toFr := by
        apply List.map_injective_iff.mpr (Option.some_injective Fr)
        rw [List.map_map, List.map_map]
        exact hleaves.symm.trans hknown
      rw [treeRoot_congr H 12 hfields, hroot]
      split at hanswer
      · next heq =>
          subst heq
          obtain rfl := hcoin.unique hcoinA
          cases hanswer
          use sA
          exact printPaths_prove hstateA hlabelA
      · split at hanswer
        · next heq =>
            subst heq
            obtain rfl := hcoin.unique hcoinB
            cases hanswer
            use sB
            exact printPaths_prove hstateB hlabelB
        · cases hanswer

section

open Deployment Relayer

/-- The coins of both notes of the pool. -/
def pairCoinA : GeneratedCoin where
  assetIdField := decimal usdcId.toNat
  opening := ⟨decimal (1000 : ℕ), decimal (5 : ℕ), decimal (21 : ℕ), decimal (31 : ℕ)⟩

def pairCoinB : GeneratedCoin where
  assetIdField := decimal usdcId.toNat
  opening := ⟨decimal (1000 : ℕ), decimal (5 : ℕ), decimal (22 : ℕ), decimal (32 : ℕ)⟩

/-- The leaves of the pool. -/
def pairCommitments : List Text := [decimal Deployment.commitment.toNat, decimal commitmentB.toNat]

/-- The parameters of the match of both notes, in a batch with a given hash. -/
def pairParams (batchHash : Word) : MpcSettlementParams where
  coinA := pairCoinA
  coinB := pairCoinB
  commitmentsDecimal := pairCommitments
  assocPath := "assoc.json".toList
  scope := "shade-pool-testnet-v1".toList
  batchHashHex := "0x".toList ++ hexBytes batchHash.toBytes
  poolId := decimal (1 : ℕ)
  chainId := decimal (27 : ℕ)
  matchedAmount7dp := decimal (10 : ℕ)
  deadlineLedger := decimal (1000 : ℕ)

/-- The numbers of the match. -/
def pairTerms (batchHash : Word) : SettleTerms := ⟨batchHash, 1, 27, 10, 1000⟩

/-- Where the notes stand in the pool. -/
def standingA : Standing := ⟨(0 : ℕ), besideSiblings commitmentB, (0 : ℕ), List.Vector.replicate 2 0⟩

def standingB : Standing :=
  ⟨(1 : ℕ), besideSiblings Deployment.commitment, (0 : ℕ), List.Vector.replicate 2 0⟩

/-- Coinutils, on the coins of the match. -/
def pairWithdraw : Withdraw :=
  coinsWithdraw pairCommitments pairCoinA pairCoinB pairRoot.toFr associationRoot.toFr standingA
    standingB

/-- The draws for the notes that are created. -/
def pairDraw (nullifier secret : UInt8) : Draw where
  label := List.replicate 30 0 ++ [5]
  nullifier := List.replicate 30 0 ++ [nullifier]
  secret := List.replicate 30 0 ++ [secret]

theorem twoNotes_facts :
  twoNotes.pool.wasm = none ∧ twoNotes.pool.paused = false
    ∧ twoNotes.pool.assocRoot = some associationRoot
    ∧ twoNotes.pool.treeLeaves = [Deployment.commitment, commitmentB]
    ∧ twoNotes.pool.treeRoot = pairRoot
    ∧ twoNotes.pool.poolId = 1 ∧ twoNotes.pool.chainId = 27
    ∧ twoNotes.pool.mpcVerifier = some mpcVerifier ∧ twoNotes.pool.mpcCmte = some committee
    ∧ twoNotes.registry.paused = false
    ∧ (twoNotes.registry.authorized.get settleHost.self).getD false = true
    ∧ twoNotes.registry.isSpent nullifierHash = false
    ∧ twoNotes.registry.isSpent nullifierHashB = false
    ∧ twoNotes.sequence ≤ 1000
    ∧ settleHost.verify mpcVerifier proof
        (encode (Deployment.crossing largeHash).publicSignals) = some true
    ∧ ((committee.take 2).zip largeSignatures).all
        (fun p => settleHost.ed25519Verify p.1 largeHash.toBytes p.2) = true
  := by
  decide +kernel

theorem pairParams_denotes (batchHash : Word) :
  (pairParams batchHash).Denotes Deployment.note noteB (pairTerms batchHash)
  := by
  constructor
  · constructor
    · constructor <;> apply readSignal_decimal
    · apply readSignal_decimal
  · constructor
    · constructor <;> apply readSignal_decimal
    · apply readSignal_decimal
  · apply writes_hexBytes
  · exact ofDecimal_decimal 1
  · exact ofDecimal_decimal 27
  · exact ofDecimal_decimal 10
  · exact ofDecimal_decimal 1000

/-- The committee endorses the hash of the batch. -/
theorem twoNotes_endorsed :
  twoNotes.pool.Endorsed settleHost largeHash.toBytes (committee.take 2) largeSignatures
  := by
  obtain ⟨-, -, -, -, -, -, -, -, hcommittee, -, -, -, -, -, -, hverify⟩ := twoNotes_facts
  refine ⟨committee, hcommittee, by simp [committee], by decide, ?_, ?_, by decide, ?_⟩
  · simp [committee]
  · intro pk hpk
    apply List.mem_of_mem_take hpk
  · intro p hp
    apply List.all_eq_true.mp hverify p hp

/-- The texts of the leaves are those of both notes. -/
theorem pairCommitments_eq :
  pairCommitments.map readSignal
    = [Deployment.commitment, commitmentB].map fun leaf => some leaf.toFr
  := by
  simp only [pairCommitments, List.map_cons, List.map_nil, readSignal_decimal]
  rfl

/-- The root of the tree of both notes. -/
theorem pair_treeRoot :
  LeanIMT.treeRoot poseidon255 12 [Deployment.commitment, commitmentB] = pairRoot.toFr
  := by
  obtain ⟨-, -, -, hleaves, hroot, -⟩ := twoNotes_facts
  have hw : twoNotes = run settleHost (World.init (State.constructor admin usdc
      withdrawVerifier nullifierRegistry 12 1 27) (genesis usdc).registry (genesis usdc).tokens 100)
      ((crossed largeHash largeSignatures).dropLast) := rfl
  have htree : TreeInvariant poseidon255 12 twoNotes.pool :=
    (treeInvariant_run settleHost (by decide) (treeInvariant_constructor ..) rfl _ hw).2
  have hrootEq := htree.root_eq (by rw [hleaves]; simp)
  rw [hroot, hleaves] at hrootEq
  rw [hrootEq, Word.toFr_ofFr]

/-- Coinutils finds the paths of both coins in the tree of the pool. -/
theorem pairWithdraw_finds :
  FindsPaths pairWithdraw poseidon255 "assoc.json".toList associationRoot.toFr
  := by
  obtain ⟨hcommitmentB, hrootA, hrootB, -⟩ := crossing_hashes
  have hlabel : ∀ x : Fr, x = 5 → MerkleProof poseidon255 (List.Vector.replicate 2 0) x
      ((0 : ℕ) : Fr) associationRoot.toFr := by
    rintro x rfl
    apply MerkleProof.of_climb 0 (by decide) associationRoot_eq.symm
  have hdenotes := pairParams_denotes largeHash
  refine coinsWithdraw_finds pairCommitments_eq pair_treeRoot hdenotes.coinA hdenotes.coinB ?_ ?_
    (hlabel _ rfl) (hlabel _ rfl) _
  · apply MerkleProof.of_climb 0 (by decide)
    rw [commitment_eq]
    apply hrootA.symm
  · apply MerkleProof.of_climb 1 (by decide)
    rw [hcommitmentB]
    apply hrootB.symm

/-- The paths that coinutils finds. -/
theorem pairWithdraw_eq (scope assocPath : Text) :
  pairWithdraw pairCoinA pairCommitments scope assocPath
      = .ok (printPaths pairRoot.toFr associationRoot.toFr standingA)
    ∧ pairWithdraw pairCoinB pairCommitments scope assocPath
      = .ok (printPaths pairRoot.toFr associationRoot.toFr standingB)
  := by
  have hcoins : pairCoinB ≠ pairCoinA := by
    decide +kernel
  constructor
  · rw [pairWithdraw, coinsWithdraw, if_neg (not_not.mpr rfl), if_pos rfl]
  · rw [pairWithdraw, coinsWithdraw, if_neg (not_not.mpr rfl), if_neg hcoins, if_pos rfl]

/-- The builder succeeds on the match. -/
theorem pairParams_built (batchHash : Word) :
  ∃ i oA oB, buildMpcSettlementWitness pairWithdraw (pairDraw 23 33) (pairDraw 24 34)
    (pairParams batchHash) = .ok (i, oA, oB)
  := by
  set p := pairParams batchHash
  have hasset : ¬ (p.coinA.assetIdField = [] ∨ p.coinA.assetIdField ≠ p.coinB.assetIdField) := by
    have hcoins : ¬ (pairCoinA.assetIdField = []
        ∨ pairCoinA.assetIdField ≠ pairCoinB.assetIdField) := by
      decide +kernel
    exact hcoins
  have hwA : pairWithdraw p.coinA p.commitmentsDecimal p.scope p.assocPath = .ok _ :=
    (pairWithdraw_eq p.scope p.assocPath).1
  have hwB : pairWithdraw p.coinB p.commitmentsDecimal p.scope p.assocPath = .ok _ :=
    (pairWithdraw_eq p.scope p.assocPath).2
  have hhash : hashToField p.batchHashHex = some _ :=
    hashToField_of_writes (pairParams_denotes batchHash).batchHash
  simp only [buildMpcSettlementWitness, hwA, hwB, bind, Except.bind, if_neg hasset, pure,
    Except.pure, hhash]
  exact ⟨_, _, _, rfl⟩

/-- What the builder assembles. -/
theorem pairParams_assigned (batchHash : Word) :
  ∃ i oA oB sA sB, buildMpcSettlementWitness pairWithdraw (pairDraw 23 33) (pairDraw 24 34)
      (pairParams batchHash) = .ok (i, oA, oB)
    ∧ i.assignment poseidon255 = some (crossing poseidon255 Deployment.note noteB
      (drawnNote Deployment.note.assetId (10 : ℕ) (pairDraw 23 33))
      (drawnNote Deployment.note.assetId (10 : ℕ) (pairDraw 24 34)) sA sB pairRoot.toFr
      associationRoot.toFr (pairTerms batchHash))
  := by
  obtain ⟨i, oA, oB, hbuild⟩ := pairParams_built batchHash
  have hdenotes := pairParams_denotes batchHash
  have hpathsA := fun answer => pairWithdraw_finds pairCoinA Deployment.note _ _
    (pairParams batchHash).scope answer hdenotes.coinA pairCommitments_eq
  have hpathsB := fun answer => pairWithdraw_finds pairCoinB noteB _ _
    (pairParams batchHash).scope answer hdenotes.coinB pairCommitments_eq
  obtain ⟨-, sA, sB, -, -, -, -, hassignment⟩ := hdenotes.assignment_eq hbuild hpathsA hpathsB
  rw [pair_treeRoot] at hassignment
  exact ⟨i, oA, oB, sA, sB, hbuild, hassignment⟩

/-- It exposes the signals of the settlement of both notes. -/
theorem pair_publicSignals (batchHash : Word) (sA sB : Standing) :
  (crossing poseidon255 Deployment.note noteB
      (drawnNote Deployment.note.assetId (10 : ℕ) (pairDraw 23 33))
      (drawnNote Deployment.note.assetId (10 : ℕ) (pairDraw 24 34)) sA sB pairRoot.toFr
      associationRoot.toFr (pairTerms batchHash)).publicSignals
    = (Deployment.crossing batchHash).publicSignals
  := by
  obtain ⟨-, -, -, hnullifierB, houtputA, houtputB⟩ := crossing_hashes
  simp only [MpcSettlement.Assignment.publicSignals, crossing, Deployment.crossing,
    List.cons.injEq, and_true]
  refine ⟨nullifierHash_eq.symm, hnullifierB.symm, ?_, ?_, trivial, trivial, rfl, ?_, rfl, rfl,
    rfl, rfl⟩
  · rw [houtputA]
    decide +kernel
  · rw [houtputB]
    decide +kernel
  · rfl

/-- The settlement of 10 units of both notes satisfies the circuit. -/
theorem settlement_satisfied_ten :
  ∃ i oA oB a, buildMpcSettlementWitness pairWithdraw (pairDraw 23 33) (pairDraw 24 34)
      (pairParams largeHash) = .ok (i, oA, oB)
    ∧ i.assignment poseidon255 = some a ∧ MpcSettlement.Satisfied poseidon255 a
  := by
  obtain ⟨i, oA, oB, hbuild⟩ := pairParams_built largeHash
  have hdenotes := pairParams_denotes largeHash
  have hpathsA := fun answer => pairWithdraw_finds pairCoinA Deployment.note _ _
    (pairParams largeHash).scope answer hdenotes.coinA pairCommitments_eq
  have hpathsB := fun answer => pairWithdraw_finds pairCoinB noteB _ _
    (pairParams largeHash).scope answer hdenotes.coinB pairCommitments_eq
  obtain ⟨-, sA, sB, -, -, -, -, hassignment⟩ := hdenotes.assignment_eq hbuild hpathsA hpathsB
  have hiff := settlement_satisfied_iff hdenotes hbuild hassignment hpathsA hpathsB (by decide)
    (by decide) (by decide)
  exact ⟨i, oA, oB, _, hbuild, hassignment, hiff.2.2.2.2.2.mpr ⟨by decide, by decide⟩⟩

/-- The match of both notes is settled. -/
theorem settlement_accepted_ten :
  ∃ args w', step settleHost (.call ⟨[], none⟩ (.mpcSettle args)) twoNotes = some w'
    ∧ w'.registry.isSpent nullifierHash = true
    ∧ w'.pool.treeLeaves.length = 4
  := by
  obtain ⟨hrunning, hunpaused, hassoc, hleaves, -, hpool, hchain, hverifier, -, hreg, hauth,
    hfreshA, hfreshB, hseq, hverify, -⟩ := twoNotes_facts
  have hw : twoNotes = run settleHost (World.init (State.constructor admin usdc
      withdrawVerifier nullifierRegistry 12 1 27) (genesis usdc).registry (genesis usdc).tokens 100)
      ((crossed largeHash largeSignatures).dropLast) := rfl
  obtain ⟨-, -, -, hnullifierB, -⟩ := crossing_hashes
  have hwordA : Word.ofFr (twoNotes.pool.nullifierHash poseidon255 Deployment.note)
      = nullifierHash := by
    rw [State.nullifierHash, hpool, hchain]
    change Word.ofFr (nullifierHashOf poseidon255 21 1 27) = nullifierHash
    rw [← nullifierHash_eq, ofFr_toFr (by decide)]
  have hwordB : Word.ofFr (twoNotes.pool.nullifierHash poseidon255 noteB) = nullifierHashB := by
    rw [State.nullifierHash, hpool, hchain]
    change Word.ofFr (nullifierHashOf poseidon255 22 1 27) = nullifierHashB
    rw [← hnullifierB, ofFr_toFr (by decide)]
  have hmatch : Matchable settleHost twoNotes Deployment.note noteB associationRoot
      (pairTerms largeHash) := by
    constructor
    · exact hrunning
    · exact hunpaused
    · exact hassoc
    · decide
    · rw [hleaves]
      simp
    · rw [hleaves]
      decide
    · intro heq
      have hwords := congrArg Word.ofFr heq
      change Word.ofFr (twoNotes.pool.nullifierHash poseidon255 Deployment.note)
        = Word.ofFr (twoNotes.pool.nullifierHash poseidon255 noteB) at hwords
      rw [hwordA, hwordB] at hwords
      exact absurd hwords (by decide)
    · change twoNotes.registry.Admits settleHost.self
        (Word.ofFr (twoNotes.pool.nullifierHash poseidon255 Deployment.note))
      rw [hwordA]
      exact ⟨hreg, hauth, hfreshA⟩
    · change twoNotes.registry.Admits settleHost.self
        (Word.ofFr (twoNotes.pool.nullifierHash poseidon255 noteB))
      rw [hwordB]
      exact ⟨hreg, hauth, hfreshB⟩
    · rw [hpool]
      rfl
    · rw [hchain]
      rfl
    · exact hseq
    · decide
  have hcommitments : pairCommitments.map readSignal
      = twoNotes.pool.treeLeaves.map fun leaf => some leaf.toFr := by
    rw [hleaves]
    exact pairCommitments_eq
  obtain ⟨i, oA, oB, sA, sB, hbuild, hassignment⟩ := pairParams_assigned largeHash
  obtain ⟨-, haccept⟩ := settlement_accepted settleHost admin usdc withdrawVerifier
    nullifierRegistry 1 27 (genesis usdc).registry (genesis usdc).tokens 100
    ((crossed largeHash largeSignatures).dropLast) hw pairWithdraw_finds
    (pairParams_denotes largeHash) hcommitments hbuild hassignment hmatch (by decide) (by decide)
    (by decide) (by decide) hverifier twoNotes_endorsed
  have hbytes := congrArg (fun signals => publicToBytes (signals.map Word.ofFr))
    (pair_publicSignals largeHash sA sB)
  have hverified := (congrArg (settleHost.verify mpcVerifier proof) hbytes).trans hverify
  obtain ⟨w', hstep, hspent, -, hadded, -⟩ := haccept ⟨[], none⟩ proof hverified
  refine ⟨_, w', hstep, ?_, ?_⟩
  · rw [← hwordA]
    exact hspent
  · rw [hadded, List.length_append, hleaves]
    rfl

end

end Shade.Proving
