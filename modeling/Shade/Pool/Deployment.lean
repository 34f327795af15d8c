import Shade.Contract.IdealVerifier
import Shade.Pool.Witness
import Shade.Poseidon
import Shade.Sha256

/-!
# A deployment

A pool with a tree of depth `12`, pool id `1` and chain id `27`, in a host with the real
hash functions. Its verifiers check proofs over the ideal pairing: given the signal vectors
each of them accepts, they accept nothing else. Signatures verify if they are among given
ones.

`note` is a note of 1000 units of USDC at the first leaf. `spend` is the witness of the
withdraw circuit that spends it on given terms, and `mint` the witness of the deposit
circuit that creates a note.
-/

namespace Shade.Pool.Deployment

open Endian

/-! ### Addresses -/

/-- The address whose strkey has the given halves of 28 ASCII bytes. -/
def address (high low : ℕ) : Address where
  strkey := toBE 28 high ++ toBE 28 low
  length_strkey := by rw [List.length_append, length_toBE, length_toBE]

/-- The pool, `CBNKU37JKPVH4HWJCKDZ6JOEUNBBBZXVVIBDTGJWNHD57J2P5XPLWP4Q`. -/
def pool : Address :=
  address
    0x43424e4b5533374a4b5056483448574a434b445a364a4f45554e4242
    0x425a58565649424454474a574e484435374a32503558504c57503451

/-- The USDC token, `CAZS7AJ5WCVGGP6L35LPI6MUTGTZTKKNICGPIHYSBKBA5ZAUHJ7K7QJC`. -/
def usdc : Address :=
  address
    0x43415a5337414a35574356474750364c33354c5049364d555447545a
    0x544b4b4e4943475049485953424b4241355a4155484a374b37514a43

/-- The XLM token, `CBA4R5TBVRKOEQQSY3LCZYIQCJTDCNSMFQPS5AZKLT3DEYTLNKZRY7U2`. -/
def xlm : Address :=
  address
    0x434241345235544256524b4f4551515359334c435a594951434a5444
    0x434e534d4651505335415a4b4c5433444559544c4e4b5a5259375532

/-- The verifier of the withdraw circuit, `CDRDZ54VDDKP5F4DVIMDRKP4TJAWSYHMPFKXDCJ2FULKZ7XBV3FNKQ7W`. -/
def withdrawVerifier : Address :=
  address
    0x434452445a35345644444b503546344456494d44524b5034544a4157
    0x5359484d50464b5844434a3246554c4b5a3758425633464e4b513757

/-- The verifier of the deposit circuit, `CCQWPHOEMI4RRDMQHQ36KD5FAWLYFF3G3FYFNPXS5VWFJAM3RZ5JDFTI`. -/
def depositVerifier : Address :=
  address
    0x4343515750484f454d49345252444d51485133364b44354641574c59
    0x46463347334659464e505853355657464a414d33525a354a44465449

/-- The verifier of the settlement circuit, `CCBYEAL2XFIEQYCLBXFJGAP7F7DIY3JF4ZL2BYLLMT7NYHNCY2WDND6C`. -/
def mpcVerifier : Address :=
  address
    0x4343425945414c32584649455159434c4258464a4741503746374449
    0x59334a46345a4c3242594c4c4d54374e59484e43593257444e443643

/-- The nullifier registry, `CDTAMQIVOJWYZ5KN3Y54AP7EHAJ3PCZL5GQIUKR4N4KC5HCMMZHAJAT4`. -/
def nullifierRegistry : Address :=
  address
    0x434454414d5149564f4a57595a354b4e335935344150374548414a33
    0x50435a4c35475149554b52344e344b433548434d4d5a48414a415434

/-- The CCTP messenger, `CBE7AAM7QBZ6OPCCTA755GXHI6IWBARXSAASOYZVTNUSV3J7KLT3VGB7`. -/
def tokenMessengerMinter : Address :=
  address
    0x4342453741414d3751425a364f504343544137353547584849364957
    0x42415258534141534f595a56544e555356334a374b4c543356474237

/-- The administrator, `GBKMYACTXEL3Y2YLWEJAGE3JKX3E5PFVIURVFW5OEOVC62CG24M72AAD`. -/
def admin : Address :=
  address
    0x47424b4d5941435458454c335932594c57454a414745334a4b583345
    0x35504656495552564657354f454f56433632434732344d3732414144

/-- The owner of a note, `GCZ263YRRAHIKHRFUZB4BNKBFPOQWIRMZ5B2YVW57D7BA2STIWWSHVRI`. -/
def alice : Address :=
  address
    0x47435a3236335952524148494b485246555a4234424e4b4246504f51
    0x5749524d5a3542325956573537443742413253544957575348565249

/-- A solver, `GCDYFKARROTNQMGVO7BCCJIGSRIDQFDBLCXJWHST4LH3BPMMMYTA6XXB`. -/
def solver : Address :=
  address
    0x47434459464b4152524f544e514d47564f374243434a494753524944
    0x514644424c43584a57485354344c483342504d4d4d59544136585842

/-- A relayer, `GAF5SYOBAYLLO5YKEBTI663I6A3TSEL6TTTNFW6W3JMNL72EMXQLHDO5`. -/
def relayer : Address :=
  address
    0x4741463553594f4241594c4c4f35594b454254493636334936413354
    0x53454c365454544e46573657334a4d4e4c3732454d58514c48444f35

/-! ### The host -/

/-- The signal vectors that the verifiers of the withdraw, deposit and settlement circuits
accept. -/
structure Vectors where
  withdraws : List (List Fr)
  deposits : List (List Fr)
  settlements : List (List Fr)

/-- The encoding of a verifying key with a given tag for a given number of signals. -/
def verifyingKey (tag : UInt8) (signals : ℕ) : Bytes :=
  List.replicate 96 tag ++ List.replicate 576 0 ++ toBE 4 (signals + 1)
    ++ List.replicate ((signals + 1) * 96) 0

/-- The vectors accepted for the key with a given `alpha`. -/
def Vectors.accepted (v : Vectors) (alpha : Bytes) : List (List Fr) :=
  match alpha with
  | 1 :: _ => v.withdraws
  | 2 :: _ => v.deposits
  | 3 :: _ => v.settlements
  | _ => []

/-- The verifying key at the address of a verifier. -/
def keyOf (a : Address) : Option Bytes :=
  if a = withdrawVerifier then some (verifyingKey 1 18)
  else if a = depositVerifier then some (verifyingKey 2 14)
  else if a = mpcVerifier then some (verifyingKey 3 12)
  else none

/-- The host, with the accepted vectors and the signatures that verify. -/
def host (v : Vectors) (signatures : List (Word × Bytes × Signature)) : Host where
  sha256 := sha256
  ed25519Verify pubkey msg sig := decide ((pubkey, msg, sig) ∈ signatures)
  poseidon := poseidon255
  verify a proof signals :=
    ProofVerifier.verify (ProofVerifier.idealBls v.accepted) (keyOf a) proof signals
  self := pool

/-- The vectors all have a witness of their circuit. -/
structure Vectors.Witnessed (v : Vectors) : Prop where
  withdraws : ∀ s ∈ v.withdraws,
    ∃ a : Withdraw.Assignment 12 2, Withdraw.Satisfied poseidon255 a ∧ a.publicSignals = s
  deposits : ∀ s ∈ v.deposits,
    ∃ a : DepositNoteMint.Assignment,
      DepositNoteMint.Satisfied poseidon255 a ∧ a.publicSignals = s
  settlements : ∀ s ∈ v.settlements,
    ∃ a : MpcSettlement.Assignment 12 2,
      MpcSettlement.Satisfied poseidon255 a ∧ a.publicSignals = s

/-- The pool uses the verifiers of the deployment, or none. -/
def Configured (s : State) : Prop :=
  s.verifier = withdrawVerifier ∧ s.xverifier = none
    ∧ s.depVerifier ∈ [none, some depositVerifier] ∧ s.mpcVerifier ∈ [none, some mpcVerifier]
    ∧ s.mpcPverifier = none

instance (s : State) : Decidable (Configured s) :=
  inferInstanceAs (Decidable (_ ∧ _ ∧ _ ∧ _ ∧ _))

variable {v : Vectors} {signatures : List (Word × Bytes × Signature)}

/-- A verifier of the deployment accepts only the vectors given for it. -/
theorem accepts_host {a : Address} {tag : UInt8} {n : ℕ} {signals : List Word}
    (hkey : keyOf a = some (verifyingKey tag n)) (h : Accepts (host v signatures) a signals) :
  signals.map Word.toFr ∈ v.accepted (List.replicate 96 tag)
  := by
  obtain ⟨proof, bytes, hparse, hverify⟩ := h
  have hideal : ProofVerifier.verify (ProofVerifier.idealBls v.accepted)
      (some (verifyingKey tag n)) proof bytes = some true := by
    rw [← hkey]
    apply hverify
  obtain ⟨signals', hparse', hmem⟩ := ProofVerifier.verify_ideal hideal
  obtain rfl := Option.some.inj (hparse.symm.trans hparse')
  have htake : (verifyingKey tag n).take 96 = List.replicate 96 tag := by
    rw [verifyingKey, List.append_assoc, List.append_assoc]
    apply List.take_left' (List.length_replicate ..)
  rwa [htake] at hmem

/-- The verifiers of the deployment are sound if the vectors they accept have witnesses. -/
theorem sound (hv : v.Witnessed) {s : State} (hs : Configured s) :
  s.Sound (host v signatures)
  := by
  obtain ⟨hwithdraw, hx, hdep, hmpc, hpriced⟩ := hs
  constructor
  · intro signals h
    rw [hwithdraw] at h
    obtain ⟨a, ha, hsignals⟩ := hv.withdraws _ (accepts_host rfl h)
    use a, ha, hsignals.symm
  · intro verifier hverifier
    rw [hx] at hverifier
    cases hverifier
  · intro verifier hverifier signals h
    rw [hverifier] at hdep
    obtain rfl : verifier = depositVerifier := by simpa using hdep
    obtain ⟨a, ha, hsignals⟩ := hv.deposits _ (accepts_host rfl h)
    use a, ha, hsignals.symm
  · intro verifier hverifier signals h
    rw [hverifier] at hmpc
    obtain rfl : verifier = mpcVerifier := by simpa using hmpc
    obtain ⟨a, ha, hsignals⟩ := hv.settlements _ (accepts_host rfl h)
    use a, ha, hsignals.symm
  · intro verifier hverifier
    rw [hpriced] at hverifier
    cases hverifier

/-! ### The note -/

/-- The asset id of USDC. -/
def usdcId : Word := 0xd9c0a00c54a0a9b1f6b62ee80e7f27f98e32fa300b7c74534d324bae280b18

/-- The asset id of XLM. -/
def xlmId : Word := 0x89ea6eb1a8be4d2eb4dd49b6ae7f1efe94ebc9109e99d571a3bf382b3edac7

/-- A note of 1000 units of USDC. -/
def note : Note where
  assetId := usdcId.toFr
  value := (1000 : ℕ)
  label := (5 : ℕ)
  nullifier := (21 : ℕ)
  secret := (31 : ℕ)

/-- The commitment of the note. -/
def commitment : Word := 0x2167270dbea63ad56fd390fb7b369a4f72c2d2daeba4cc61bc515ce161110fcc

/-- The root of the tree with the commitment as its only leaf. -/
def stateRoot : Word := 0x54132401a39ebff632eca21dffaf19620d8f3e3f2087f6cd4f54a505f90eaa8a

/-- The nodes of the empty subtrees, from the leaves up. -/
def emptySiblings : List.Vector Fr 12 := ⟨[
  0x0000000000000000000000000000000000000000000000000000000000000000,
  0x720772992425c4618eaf8a7ff4b6ad5333a76fe17dd3624e2329a57dfaaa505e,
  0x4a631147afb4978b80f7d8c40526ca2815e3587a088011ed24d11215d549fe88,
  0x3d80cb9c131f7c003cfb82ad7580b88420c216204962cf952256dc785ff68839,
  0x571de3db51ffb4a0181a0b56a613726377dbd093265c4c3800f6c4595079c5c8,
  0x3710eeae180bad05ae19ce0bcc836ad2dee7fb9835a00f2ac4675466a0eef347,
  0x30de0f3432e12933f0fe438a960eeb42855c7d666a378b2ebc43aff37c52d053,
  0x3f6004a2a18568e13c38e4cafe62cb89f10142516f1c217617885d33a54e4dff,
  0x0f014e0c4bc64f4b27d439c1d94837f99e4d9df3a4c9a062c5294c1a0842eea1,
  0x70bf7834ccd244e48fa857920f61b6202cd1dcf49e3017164c82c30ff56cec99,
  0x1ec4b50cea868b8ae6ac178b403ed3bcc9a2340e99e4ac0cff7ae09c51d4ca0b,
  0x2950a7758b1c3583fa951dd305922403108abe2c0c41bb3f667fae3c53f8ac74], rfl⟩

/-- The association root, with the label of the note as its only leaf. -/
def associationRoot : Word := 0x51402de09106de741303298130d34bc4b30ea675b0e8bf130e66374c757c37df

theorem commitment_eq :
  note.commitment poseidon255 = commitment.toFr
  := by
  decide +kernel

theorem stateRoot_eq :
  climb poseidon255 commitment.toFr (pathOf 0 emptySiblings) = stateRoot.toFr
  := by
  decide +kernel

theorem associationRoot_eq :
  climb poseidon255 5 (pathOf 0 (List.Vector.replicate 2 0)) = associationRoot.toFr
  := by
  decide +kernel

/-! ### Witnesses -/

/-- The public terms on which the note is spent. -/
structure Terms where
  operationType : Fr
  withdrawnValue : Fr
  recipientHash : Fr
  relayerFee : Fr
  poolId : Fr
  nullifierHash : Fr
  quoteHash : Fr
  destinationDomain : Fr
  destinationRecipient : Fr
  maxFee : Fr

/-- The witness that spends the note. -/
def spend (t : Terms) : Withdraw.Assignment 12 2 where
  operationType := t.operationType
  withdrawnValue := t.withdrawnValue
  recipientHash := t.recipientHash
  relayerFee := t.relayerFee
  deadlineLedger := (1000 : ℕ)
  stateRoot := stateRoot.toFr
  associationRoot := associationRoot.toFr
  poolId := t.poolId
  chainId := (27 : ℕ)
  quoteHash := t.quoteHash
  intentHash := 0
  fillReceiptHash := 0
  destinationDomain := t.destinationDomain
  destinationRecipient := t.destinationRecipient
  maxFee := t.maxFee
  minFinalityThreshold := 0
  assetId := note.assetId
  label := note.label
  value := note.value
  nullifier := note.nullifier
  secret := note.secret
  stateSiblings := emptySiblings
  stateIndex := (0 : ℕ)
  labelIndex := (0 : ℕ)
  labelSiblings := List.Vector.replicate 2 0
  nullifierHash := t.nullifierHash

theorem spend_note (t : Terms) :
  (spend t).note = note
  := rfl

/-- The witness satisfies the withdraw circuit if the terms carry the nullifier of the note
and take no more than its value. -/
theorem spend_satisfied {t : Terms}
    (hnullifier : t.nullifierHash = nullifierHashOf poseidon255 21 t.poolId 27)
    (hvalue : t.withdrawnValue.val ≤ 1000) (hfee : t.relayerFee.val ≤ t.withdrawnValue.val) :
  Withdraw.Satisfied poseidon255 (spend t)
  := by
  constructor
  · apply hnullifier
  · apply MerkleProof.of_climb 0 (by decide)
    rw [spend_note, commitment_eq]
    apply stateRoot_eq.symm
  · apply MerkleProof.of_climb 0 (by decide)
    apply associationRoot_eq.symm
  · apply RangeCheck.of_val_lt
    have hle : t.withdrawnValue.val ≤ (1000 : Fr).val := hvalue
    have hval := ZMod.val_sub hle
    have hnote : (1000 : Fr).val = 1000 := rfl
    change (1000 - t.withdrawnValue).val < 2 ^ 128
    omega
  · apply RangeCheck.of_val_lt
    change t.withdrawnValue.val < 2 ^ 128
    omega
  · apply RangeCheck.of_val_lt
    have hval := ZMod.val_sub hfee
    change (t.withdrawnValue - t.relayerFee).val < 2 ^ 128
    omega
  · apply RangeCheck.of_val_lt
    change t.relayerFee.val < 2 ^ 128
    omega

/-- The hash of the pool's address, as a deposit carries it. -/
def poolHash : Word := 0xaaa67f0b10ff94ee24673a27cb97dcb073b707dad53fd73b3e30815769ef1e

/-- The witness of a deposit of a note, with a given nonce and for a given amount. -/
def mint (n : Note) (cctpNonce : Word) (amount7dp : ℕ) (commitment : Fr) :
    DepositNoteMint.Assignment where
  operationType := (4 : ℕ)
  sourceDomain := (3 : ℕ)
  destinationDomain := (27 : ℕ)
  cctpNonceHash := (hashToField cctpNonce).toFr
  burnTxHashHash := (12 : ℕ)
  amount6dp := (100 : ℕ)
  amount7dp := amount7dp
  assetIdHash := n.assetId
  recipientPool := poolHash.toFr
  encryptedNotePayloadHash := 0
  policyIdHash := 0
  poolId := 1
  chainId := (27 : ℕ)
  value := n.value
  label := n.label
  nullifier := n.nullifier
  secret := n.secret
  commitment := commitment

/-- The witness satisfies the deposit circuit if it carries the commitment of its note and
the value and what is left of the amount are 128-bit numbers. -/
theorem mint_satisfied {n : Note} {cctpNonce : Word} {amount7dp : ℕ} {commitment : Fr}
    (hcommitment : commitment = n.commitment poseidon255)
    (hsurplus : (amount7dp - n.value).val < 2 ^ 128) (hvalue : n.value.val < 2 ^ 128) :
  DepositNoteMint.Satisfied poseidon255 (mint n cctpNonce amount7dp commitment)
  := by
  constructor
  · apply hcommitment
  · apply RangeCheck.of_val_lt hsurplus
  · apply RangeCheck.of_val_lt hvalue

theorem mint_note_satisfied :
  DepositNoteMint.Satisfied poseidon255 (mint note 0xb00 1000 commitment.toFr)
  := mint_satisfied commitment_eq.symm (by decide) (by decide)

/-- The vectors of the deposit of the note and of given spends. -/
def noteVectors (spends : List (Withdraw.Assignment 12 2)) : Vectors where
  withdraws := spends.map Withdraw.Assignment.publicSignals
  deposits := [(mint note 0xb00 1000 commitment.toFr).publicSignals]
  settlements := []

theorem noteVectors_witnessed {spends : List (Withdraw.Assignment 12 2)}
    (h : ∀ a ∈ spends, Withdraw.Satisfied poseidon255 a) :
  (noteVectors spends).Witnessed
  := by
  constructor
  · intro s hs
    obtain ⟨a, ha, rfl⟩ := List.mem_map.mp hs
    use a, h a ha
  · intro s hs
    obtain rfl := List.mem_singleton.mp hs
    use mint note 0xb00 1000 commitment.toFr, mint_note_satisfied
  · intro s hs
    cases hs

/-! ### Actions -/

/-- The bytes of a proof; the ideal pairing accepts any for a vector it accepts. -/
def proof : Bytes := List.replicate 384 0

/-- The encoding of a signal vector by canonical words. -/
def encode (signals : List Fr) : Bytes := publicToBytes (signals.map Word.ofFr)

/-- The signals of a call that carries the encoding of a spend. -/
theorem signals_encode {c : Call} {a : Withdraw.Assignment 12 2}
    (h : c.pubSignalsBytes = some (encode a.publicSignals)) :
  c.signals = a.publicSignals.map Word.ofFr
  := by
  apply Call.signals_publicToBytes h
  simp [Withdraw.Assignment.publicSignals]

/-- A spend is a witness for a call that carries its encoding. -/
theorem withdrawWitness_encode {c : Call} {a : Withdraw.Assignment 12 2}
    (h : c.pubSignalsBytes = some (encode a.publicSignals))
    (ha : Withdraw.Satisfied poseidon255 a) :
  WithdrawWitness poseidon255 c.signals a
  := by
  use ha
  rw [signals_encode h]
  apply encodes_ofFr

/-- The key of a solver. -/
def solverKey : Word := 0x380d3aa211da010f589712fbe29eca63d1eee1f6245a18b72ce0b38ff9b4d6eb

/-- The pool before its first call, with USDC at a given address. The registry lets it
spend, and it holds 1000 units of USDC and of XLM. -/
def genesis (usdcSac : Address) : World :=
  World.init (State.constructor admin usdcSac withdrawVerifier nullifierRegistry 12 1 27)
    { admin := some admin
      paused := false
      authorized := Store.empty.set pool true
      spent := Store.empty }
    { balances := (Store.empty.set (usdc, pool) 1000).set (xlm, pool) 1000
      allowances := Store.empty }
    100

/-- A call the administrator makes. -/
def adminCall (c : Call) : Action := .call ⟨[admin], none⟩ c

/-- The calls that configure the pool. -/
def setup : List Action :=
  [adminCall (.config (.setDepositVerifier depositVerifier)),
    adminCall (.config (.setAssociationRoot associationRoot)),
    adminCall (.config (.setCctpMessenger tokenMessengerMinter)),
    adminCall (.config (.setAuthorizedSolver solverKey true)),
    adminCall (.registerAsset usdcId usdc),
    adminCall (.registerAsset xlmId xlm)]

/-- An amount of 1000 units. -/
def thousand : I128 := ⟨1000, by decide, by decide⟩

/-- The arguments of a deposit of a note, for an amount whose low half is 1000. -/
def depositArgs (n : Note) (cctpNonce : Word) (amount7dp : ℕ) (commitment newRoot : Word) :
    DepositArgs where
  sourceDomain := 3
  cctpNonce := cctpNonce
  asset := usdc
  amount := thousand
  commitment := commitment
  newRoot := newRoot
  encryptedNotePayloadHash := 0
  policyId := 0
  proofBytes := proof
  pubSignalsBytes := encode (mint n cctpNonce amount7dp commitment.toFr).publicSignals

/-- The signals of a deposit. -/
theorem depositArgs_signals (n : Note) (cctpNonce : Word) (amount7dp : ℕ)
    (commitment newRoot : Word) :
  (Call.receiveCctpDeposit (depositArgs n cctpNonce amount7dp commitment newRoot)).signals
    = (mint n cctpNonce amount7dp commitment.toFr).publicSignals.map Word.ofFr
  := by
  apply Call.signals_publicToBytes rfl
  simp [DepositNoteMint.Assignment.publicSignals]

/-- The deposit of the note. -/
def depositNote : Action :=
  adminCall (.receiveCctpDeposit (depositArgs note 0xb00 1000 commitment stateRoot))

/-! ### An RFQ settlement of the note -/

/-- The nullifier of the note under the pool id `1`. -/
def nullifierHash : Word := 0x6d21c1ca4b141756c67c94f0229f28b55af81b180cb57ceaf1e69aeeee9cb189

theorem nullifierHash_eq :
  nullifierHash.toFr = nullifierHashOf poseidon255 21 1 27
  := by
  decide +kernel

/-- The hash of a quote. -/
def quoteHash : Word := 0x2e372d41e3f54182433bcf90f2a515ba244c672fe75b568cfe20eb7ab9279212

/-- The signature of the solver on the quote. -/
def quoteSignature : Signature :=
  0x956414262c1300ab4bd1e385e97baa40614f6012c2f3daf06c4fd1d3a785ccb4124325d3b06e093fea3ac5f0df4b80dee2ad6fe4fa22373887c43d398287e70e

/-- The witness that spends the whole note for the quote. -/
def quoteSpend : Withdraw.Assignment 12 2 :=
  spend
    { operationType := (3 : ℕ)
      withdrawnValue := (1000 : ℕ)
      recipientHash := 0
      relayerFee := 0
      poolId := 1
      nullifierHash := nullifierHash.toFr
      quoteHash := (hashToField quoteHash).toFr
      destinationDomain := 0
      destinationRecipient := 0
      maxFee := 0 }

theorem quoteSpend_satisfied :
  Withdraw.Satisfied poseidon255 quoteSpend
  := spend_satisfied nullifierHash_eq (by decide) (by decide)

/-- The arguments of the settlement of the quote to an address. -/
def quoteArgs (toSolver : Address) : RfqSettleArgs where
  toSolver := toSolver
  proofBytes := proof
  pubSignalsBytes := encode quoteSpend.publicSignals
  quoteHash := quoteHash
  intentHash := 0
  fillReceiptHash := 0
  solverPubkey := solverKey
  solverSig := quoteSignature

/-- The host of the settlement: it verifies the signature on the quote and accepts the
deposit of the note and its spend. -/
def quoteHost : Host :=
  host (noteVectors [quoteSpend]) [(solverKey, quoteHash.toBytes, quoteSignature)]

/-- The world after the pool is configured and the note is deposited, with USDC at a given
address. -/
def deposited (usdcSac : Address) : World :=
  run quoteHost (genesis usdcSac) (setup ++ [depositNote])

/-! ### An exit of the note -/

/-- The witness that burns the whole note towards another chain, for a fee of at most 50
units. -/
def exitSpend : Withdraw.Assignment 12 2 :=
  spend
    { operationType := (2 : ℕ)
      withdrawnValue := (1000 : ℕ)
      recipientHash := 0
      relayerFee := 0
      poolId := 1
      nullifierHash := nullifierHash.toFr
      quoteHash := 0
      destinationDomain := (3 : ℕ)
      destinationRecipient := (0xa11ce : ℕ)
      maxFee := (50 : ℕ) }

theorem exitSpend_satisfied :
  Withdraw.Satisfied poseidon255 exitSpend
  := spend_satisfied nullifierHash_eq (by decide) (by decide)

/-- The arguments of the exit. -/
def exitArgs : WithdrawCctpArgs where
  target := alice
  proofBytes := proof
  pubSignalsBytes := encode exitSpend.publicSignals
  destinationDomain := 3
  destinationRecipient := 0xa11ce
  maxFee := ⟨50, by decide, by decide⟩
  minFinalityThreshold := 0

/-- The host of the exit. -/
def exitHost : Host := host (noteVectors [exitSpend]) []

/-- The world after the note is deposited and the pool receives 1000 more units. -/
def endowed : World :=
  run exitHost (genesis usdc) (setup ++ [depositNote, .mint usdc pool 1000])

/-- The transaction of the exit, in which the messenger takes 1050 units. -/
def exitTx : Tx := ⟨[alice], some ⟨1050, by decide, by decide⟩⟩

end Shade.Pool.Deployment
