import Shade.Property.FieldReduction
import Shade.Property.Spendable
import Shade.Proving.Deposit

/-!
# Honest deposits are registered

The relayer's side of a deposit and the pool's side agree. The inputs that the prover assembles
satisfy the deposit circuit, and the call that the relayer makes with them passes every check of
the pool: the note becomes a leaf, the supply of its asset grows by what was minted, and the
message cannot be used again.
-/

namespace Shade.Proving

open Endian Text Solver Pool Txn

/-! ### Texts that are read back -/

/-- The command line reads the word that a text writes. -/
theorem readWord_eq {t : Text} {w : Word} (h : Writes t w) :
  readWord t = some w
  := by
  obtain ⟨ds, rfl, hlen, hall, hds⟩ := h
  have hstrip : strip0x ("0x".toList ++ ds) = ds := if_pos (List.prefix_append _ ds)
  rw [readWord, hstrip, if_pos ⟨hlen, hall⟩, hds]
  simp

theorem readI128_decimal (x : I128) :
  readI128 (decimal x.val) = some x
  := by
  rw [readI128, signed?_decimal, Option.bind_some, I128.check_eq_some]

theorem readSignal_decimal (n : ℕ) :
  readSignal (decimal n) = some (n : Fr)
  := by
  rw [readSignal, ofDecimal_decimal, Option.map_some]

/-- The prover reduces a hash that a text writes as the pool does. -/
theorem hashToField_of_writes {t : Text} {w : Word} (h : Writes t w) :
  hashToField t = some (decimal (Shade.hashToField w).toNat)
  := by
  obtain ⟨ds, rfl, hlen, hall, hds⟩ := h
  have hstrip : strip0x ("0x".toList ++ ds) = ds := if_pos (List.prefix_append _ ds)
  have hne : ds.take 62 ≠ [] := by
    apply List.ne_nil_of_length_pos
    rw [List.length_take, hlen]
    decide
  have hdigits : (ds.take 62).all isHex = true := by
    rw [List.all_eq_true]
    intro c hc
    apply List.all_eq_true.mp hall c (List.mem_of_mem_take hc)
  rw [hashToField, hstrip, bigIntOfHex_eq hne hdigits, ofHex_take w hlen hall hds]
  rfl

/-- A text of digits has no mark to strip. -/
theorem strip0x_of_all {ds : Text} (h : ds.all isHex = true) :
  strip0x ds = ds
  := by
  apply if_neg
  intro hprefix
  have hmem : 'x' ∈ ds := hprefix.subset (by decide)
  have hx := List.all_eq_true.mp h 'x' hmem
  contradiction

/-- A word is written by its bytes. -/
theorem writes_hexBytes (w : Word) :
  Writes ("0x".toList ++ hexBytes w.toBytes) w
  := by
  have hlen : ∀ bs : Bytes, (hexBytes bs).length = 2 * bs.length := by
    intro bs
    induction bs with
    | nil => rfl
    | cons b bs ih =>
        change (hexByte b ++ hexBytes bs).length = _
        rw [List.length_append, ih, List.length_cons, hexByte, List.length_cons,
          List.length_singleton]
        omega
  refine ⟨_, rfl, ?_, all_isHex_hexBytes _, ?_⟩
  · rw [hlen, Word.length_toBytes]
  · have hlt := w.isLt
    rw [ofHex_hexBytes, Word.toBytes, ofBE_toBE, Nat.mod_eq_of_lt (by omega)]

/-- The prover reduces a digest that is printed without a mark as well. -/
theorem hashToField_hexBytes (w : Word) :
  hashToField (hexBytes w.toBytes) = some (decimal (Shade.hashToField w).toNat)
  := by
  have hmarked := hashToField_of_writes (writes_hexBytes w)
  have hstrip : strip0x ("0x".toList ++ hexBytes w.toBytes) = hexBytes w.toBytes :=
    if_pos (List.prefix_append _ _)
  rw [hashToField, hstrip] at hmarked
  rw [hashToField, strip0x_of_all (all_isHex_hexBytes _), hmarked]

/-- The prover hashes a strkey as the pool does. -/
theorem recipientHashField_eq {host : Host} {a : Address} {s : Text} (hs : utf8 s = a.strkey) :
  recipientHashField host.sha256 s = some (decimal (recipientHash host a).toNat)
  := by
  rw [recipientHashField, hs, bigIntOfHex_hexBytes_take]
  rfl

/-! ### The inputs of the circuit -/

/-- The texts of a coin are those of a note. -/
structure CoinOpening.Opens (o : CoinOpening) (note : Note) : Prop where
  value : readSignal o.value = some note.value
  label : readSignal o.label = some note.label
  nullifier : readSignal o.nullifier = some note.nullifier
  secret : readSignal o.secret = some note.secret

/-- The words and numbers that the texts of a deposit stand for: the note, its commitment, the
hash of the message, those of the encrypted payload and of the policy, the contract of the token,
and the domain of the pool. -/
structure DepositParams.Denotes (p : DepositParams) (host : Host) (note : Note) (asset : Address)
    (commitment nonce payload policy : Word) (poolId chainId : ℕ) : Prop where
  opens : p.coin.Opens note
  sac_eq : utf8 p.sac = asset.strkey
  pool_eq : utf8 p.pool = host.self.strkey
  assetId_eq : note.assetId = (recipientHash host asset).toFr
  writes_commitment : Writes p.commitmentHex commitment
  commitment_eq : commitment = Word.ofFr (note.commitment host.poseidon)
  writes_nonce : Writes p.cctpNonceHex nonce
  writes_payload : Writes p.encryptedNotePayloadHashHex payload
  writes_policy : Writes p.policyIdHex policy
  poolId_eq : ofDecimal (p.poolId.getD "1".toList) = some poolId
  chainId_eq : ofDecimal (p.chainId.getD "148".toList) = some chainId

/-- The digest of the hash of the burn transaction. -/
def DepositParams.burnDigest (host : Host) (p : DepositParams) : Word :=
  host.sha256 (utf8 p.burnTxHash)

/-- The assignment that proves a deposit of a note. -/
def mintAssignment (host : Host) (p : DepositParams) (note : Note) (asset : Address)
    (nonce payload policy : Word) (poolId chainId : ℕ) : DepositNoteMint.Assignment where
  operationType := (4 : ℕ)
  sourceDomain := (3 : ℕ)
  destinationDomain := (27 : ℕ)
  cctpNonceHash := (Shade.hashToField nonce).toFr
  burnTxHashHash := (Shade.hashToField (p.burnDigest host)).toFr
  amount6dp := (p.amount6 : ℕ)
  amount7dp := (p.amount7 : ℕ)
  assetIdHash := (recipientHash host asset).toFr
  recipientPool := (recipientHash host host.self).toFr
  encryptedNotePayloadHash := (Shade.hashToField payload).toFr
  policyIdHash := (Shade.hashToField policy).toFr
  poolId := (poolId : ℕ)
  chainId := (chainId : ℕ)
  value := note.value
  label := note.label
  nullifier := note.nullifier
  secret := note.secret
  commitment := note.commitment host.poseidon

variable {host : Host} {p : DepositParams} {note : Note} {asset : Address}
  {commitment nonce payload policy : Word} {poolId chainId : ℕ}

/-- The prover assembles the inputs of that assignment. -/
theorem DepositParams.Denotes.assignment_eq
    (h : p.Denotes host note asset commitment nonce payload policy poolId chainId) :
  p.assignment host.sha256 host.poseidon
    = some (mintAssignment host p note asset nonce payload policy poolId chainId)
  := by
  have hpool : readSignal (p.poolId.getD "1".toList) = some (poolId : Fr) := by
    rw [readSignal, h.poolId_eq, Option.map_some]
  have hchain : readSignal (p.chainId.getD "148".toList) = some (chainId : Fr) := by
    rw [readSignal, h.chainId_eq, Option.map_some]
  have hop : readSignal "4".toList = some ((4 : ℕ) : Fr) := readSignal_decimal 4
  have hdigest : hashToField (hexBytes (host.sha256 (utf8 p.burnTxHash)).toBytes)
      = some (decimal (Shade.hashToField (p.burnDigest host)).toNat) := hashToField_hexBytes _
  have hnote : (⟨(recipientHash host asset).toFr, note.value, note.label, note.nullifier,
      note.secret⟩ : Note) = note := by
    rw [← h.assetId_eq]
  have hcoin := h.opens
  have hinput : depositInput host.sha256 p.coin p.binding = some
      { operationType := "4".toList
        sourceDomain := decimal arbitrumSepoliaDomain
        destinationDomain := decimal stellarDomain
        cctpNonceHash := decimal (Shade.hashToField nonce).toNat
        burnTxHashHash := decimal (Shade.hashToField (p.burnDigest host)).toNat
        amount6dp := decimal p.amount6
        amount7dp := decimal p.amount7
        assetIdHash := decimal (recipientHash host asset).toNat
        recipientPool := decimal (recipientHash host host.self).toNat
        encryptedNotePayloadHash := decimal (Shade.hashToField payload).toNat
        policyIdHash := decimal (Shade.hashToField policy).toNat
        poolId := p.poolId.getD "1".toList
        chainId := p.chainId.getD "148".toList
        value := p.coin.value
        label := p.coin.label
        nullifier := p.coin.nullifier
        secret := p.coin.secret } := by
    simp only [depositInput, DepositParams.binding, hashToField_of_writes h.writes_nonce,
      hashToField_of_writes h.writes_payload, hashToField_of_writes h.writes_policy,
      recipientHashField_eq h.sac_eq, recipientHashField_eq h.pool_eq, hdigest,
      Option.bind_eq_bind, Option.bind_some, Option.pure_def]
  rw [DepositParams.assignment, hinput, Option.bind_some]
  simp only [DepositInput.assignment, readSignal_decimal, hop, hpool, hchain, hcoin.value,
    hcoin.label, hcoin.nullifier, hcoin.secret, Option.bind_eq_bind, Option.bind_some,
    Option.pure_def]
  congr 1
  simp only [mintAssignment, Word.toFr, arbitrumSepoliaDomain, stellarDomain] at hnote ⊢
  rw [hnote]

/-- A note that is worth no more than what was minted can be proved. -/
theorem mintAssignment_satisfied (hnote : note.assetId = (recipientHash host asset).toFr)
    (hvalue : note.value.val ≤ p.amount7) (hamount : p.amount7 < 2 ^ 127) :
  DepositNoteMint.Satisfied host.poseidon
    (mintAssignment host p note asset nonce payload policy poolId chainId)
  := by
  have hr : 2 ^ 127 < r := by decide
  have hval : ((p.amount7 : ℕ) : Fr).val = p.amount7 := by
    rw [ZMod.val_natCast, Nat.mod_eq_of_lt (by omega)]
  constructor
  · change note.commitment host.poseidon
      = Note.commitment host.poseidon ⟨(recipientHash host asset).toFr, note.value, note.label,
          note.nullifier, note.secret⟩
    rw [← hnote]
  · apply RangeCheck.of_val_lt
    change (((p.amount7 : ℕ) : Fr) - note.value).val < 2 ^ 128
    rw [ZMod.val_sub (by omega)]
    omega
  · apply RangeCheck.of_val_lt
    change note.value.val < 2 ^ 128
    omega

/-! ### The call of the relayer -/

/-- The pool is ready to take a deposit: it runs this code and is not paused, the message was not
used, its tree has room, the amounts are positive and of at most 127 bits, the minted amount is at
most the burnt one, the digest of the burn does not read as zero, and the tokens have arrived and
fit in the supply. -/
structure Registrable (host : Host) (w : World) (p : DepositParams) (note : Note)
    (asset token : Address) (nonce : Word) : Prop where
  running : w.pool.wasm = none
  unpaused : w.pool.paused = false
  fresh : w.pool.deposit.get nonce = none
  room : w.pool.treeLeaves.length < 2 ^ 12
  value : note.value.val ≤ p.amount7
  positive : 0 < p.amount7
  minted_le : p.amount7 ≤ p.amount6 * 10
  burnt_lt : p.amount6 * 10 < 2 ^ 127
  digest : (fr32ToI128 (Shade.hashToField (p.burnDigest host))).val ≠ 0
  token_eq : w.pool.assetToken.get (recipientHash host asset) = some token
  supply : 0 ≤ w.pool.supply (recipientHash host asset)
  arrived : w.pool.supply (recipientHash host asset) + p.amount7 ≤ w.vault host token
  fits : w.pool.supply (recipientHash host asset) + p.amount7 < 2 ^ 127

theorem canonical_hashToField (w : Word) :
  (Shade.hashToField w).Canonical
  := toNat_hashToField_lt w

/-- The root of a tree with room for another leaf. -/
theorem appendRoot_of_lt (H : Hash) {leaves : List Word} (hroom : leaves.length < 2 ^ 12)
    (commitment : Word) :
  appendRoot H 12 leaves commitment
    = .ok (Word.ofFr (LeanIMT.treeRoot H 12 (leaves ++ [commitment])))
  := by
  have hlen : (leaves ++ [commitment]).length ≤ 2 ^ 12 := by
    rw [List.length_append, List.length_singleton]
    exact hroom
  obtain ⟨t, hall, ht⟩ := (LeanIMT.represents_new H 12).insertAll_ok (by decide)
    (leaves ++ [commitment]) hlen
  rw [appendRoot_eq, hall]
  change Except.ok t.root = _
  rw [ht.root_eq, List.nil_append]

/-- The other checks of a deposit: its signals carry the operation, the domains, the burn, amounts
that fit together, the reduced hashes of its arguments and the domain of the pool. -/
structure DepositBound (host : Host) (w : World) (args : DepositArgs) (signals : List Word) :
    Prop where
  length : signals.length = 14
  operation : (fr32ToI128 (signals.getD 1 0)).val = opDepositNoteMint
  source : (fr32ToI128 (signals.getD 2 0)).val = args.sourceDomain.toNat
  destination : (fr32ToI128 (signals.getD 3 0)).val = stellarCctpDomain
  burn : (fr32ToI128 (signals.getD 5 0)).val ≠ 0
  burnt : 0 < (fr32ToI128 (signals.getD 6 0)).val
  burnt_lt : (fr32ToI128 (signals.getD 6 0)).val * 10 < 2 ^ 127
  amount_le : args.amount.val ≤ (fr32ToI128 (signals.getD 6 0)).val * 10
  payload : Shade.hashToField args.encryptedNotePayloadHash = signals.getD 10 0
  policy : Shade.hashToField args.policyId = signals.getD 11 0
  recipient : recipientHash host host.self = signals.getD 9 0
  poolId : (fr32ToI128 (signals.getD 12 0)).val = w.pool.poolId.toNat
  chainId : (fr32ToI128 (signals.getD 13 0)).val = w.pool.chainId.toNat
  count : w.pool.leafCount + 1 < 2 ^ 32

/-- A deposit that passes its checks is carried out. -/
theorem deposit_exec {tx : Tx} {w : World} {args : DepositArgs} (x : Deposit host tx w args)
    (hbound : DepositBound host w args x.signals) (hpaused : w.pool.paused = false) :
  (receiveCctpDeposit host tx args).run w = .ok (w.pool.leafCount, x.world)
  := by
  have hlen := hbound.length
  have hburnt := hbound.burnt
  have hlt := hbound.burnt_lt
  simp only [receiveCctpDeposit, requireNotPaused_bind_ok, requireAdmin_bind_ok,
    parseSignals_bind_ok, signal_bind_ok, require_bind_ok, read_bind_ok, checked_bind_ok,
    unwrap_bind_ok, requireProof_bind_ok, countLeaves_bind_ok, appendLeaf_bind_ok, write_bind_ok,
    adjustNoteSupply_bind_ok, pure_ok]
  refine ⟨hpaused, x.admin, x.positive, x.fresh, x.signals, x.parsed, by omega, x.commitment,
    by omega, hbound.operation, by omega, hbound.source, by omega, x.amount, by omega,
    hbound.destination, by omega, hbound.burn, by omega, hburnt, ⟨_, by omega, hlt⟩, rfl,
    hbound.amount_le, by omega, x.nonce, by omega, hbound.payload, by omega, hbound.policy,
    by omega, x.asset.symm, by omega, hbound.recipient, by omega, hbound.poolId, by omega,
    hbound.chainId, x.depVerifier, x.depVerifier_eq, x.verified, hbound.count, x.root, x.root_eq,
    x.newRoot_eq, by omega, x.token, x.token_eq, x.next, x.next_eq, x.next_nonneg, x.next_le,
    trivial, rfl⟩

/-- Honest deposits are registered. In every state that a run from a constructor call reaches, if
the texts of the relayer stand for a note and the pool is ready, then the prover assembles inputs
that satisfy the deposit circuit, and with any proof that the deposit verifier accepts for them
the pool accepts the call of the relayer: the commitment becomes the next leaf, the minted amount
is added to the supply, and the message is used up. -/
theorem deposit_registered (host : Host) (admin usdcSac verifier nullifierRegistry : Address)
    (pool chain : UInt32) (registry : NullifierRegistry.State) (tokens : Token.Ledger)
    (sequence : ℕ) (actions : List Action) {w : World}
    (hw : w = run host (World.init (State.constructor admin usdcSac verifier nullifierRegistry 12
      pool chain) registry tokens sequence) actions)
    (hp : p.Denotes host note asset commitment nonce payload policy w.pool.poolId.toNat
      w.pool.chainId.toNat) {token depVerifier : Address}
    (hready : Registrable host w p note asset token nonce)
    (hroot : Writes p.newRootHex (Word.ofFr
      (LeanIMT.treeRoot host.poseidon 12 (w.pool.treeLeaves ++ [commitment]))))
    (hverifier : w.pool.depVerifier = some depVerifier) :
  ∃ a, p.assignment host.sha256 host.poseidon = some a
    ∧ DepositNoteMint.Satisfied host.poseidon a
    ∧ ∀ proof, host.verify depVerifier proof (publicToBytes (a.publicSignals.map Word.ofFr))
        = some true →
      ∃ args w', p.receiveArgs asset proof (publicToBytes (a.publicSignals.map Word.ofFr))
          = some args
        ∧ step host (.call ⟨[w.pool.admin], none⟩ (.receiveCctpDeposit args)) w = some w'
        ∧ w'.pool.treeLeaves = w.pool.treeLeaves ++ [commitment]
        ∧ w'.pool.supply (recipientHash host asset)
            = w.pool.supply (recipientHash host asset) + p.amount7
        ∧ w'.pool.deposit.get nonce = some true
  := by
  obtain ⟨hcount, htree⟩ := treeInvariant_run host (by decide) (treeInvariant_constructor ..) rfl
    actions hw
  have hsmall : p.amount7 < 2 ^ 127 := by
    have := hready.minted_le
    have := hready.burnt_lt
    omega
  refine ⟨_, hp.assignment_eq, mintAssignment_satisfied hp.assetId_eq hready.value hsmall, ?_⟩
  intro proof hproof
  set signals := (mintAssignment host p note asset nonce payload policy w.pool.poolId.toNat
    w.pool.chainId.toNat).publicSignals.map Word.ofFr with hsignals
  have hamount : readI128 (decimal p.amount7) = some ⟨p.amount7, by omega, by omega⟩ :=
    readI128_decimal ⟨p.amount7, by omega, by omega⟩
  let args : DepositArgs :=
    { sourceDomain := 3
      cctpNonce := nonce
      asset := asset
      amount := ⟨p.amount7, by omega, by omega⟩
      commitment := commitment
      newRoot := Word.ofFr (LeanIMT.treeRoot host.poseidon 12 (w.pool.treeLeaves ++ [commitment]))
      encryptedNotePayloadHash := payload
      policyId := policy
      proofBytes := proof
      pubSignalsBytes := publicToBytes signals }
  have hargs : p.receiveArgs asset proof (publicToBytes signals) = some args := by
    simp only [DepositParams.receiveArgs, readWord_eq hp.writes_nonce,
      readWord_eq hp.writes_commitment, readWord_eq hroot, readWord_eq hp.writes_payload,
      readWord_eq hp.writes_policy, hamount, Option.bind_eq_bind, Option.bind_some,
      Option.pure_def]
    rfl
  have hasset : Word.ofFr (recipientHash host asset).toFr = recipientHash host asset :=
    ofFr_toFr (canonical_recipientHash host asset)
  have hamount7 : fr32ToI128 (Word.ofFr (p.amount7 : ℕ)) = args.amount :=
    I128.ext (fr32ToI128_ofFr hsmall)
  have hamount6 : (fr32ToI128 (Word.ofFr (p.amount6 : ℕ))).val = p.amount6 := by
    apply fr32ToI128_ofFr
    have := hready.burnt_lt
    omega
  have hpool := w.pool.poolId.toNat_lt
  have hchain := w.pool.chainId.toNat_lt
  have hvault : w.pool.supply (recipientHash host asset) + p.amount7 ≤ w.vault host token :=
    hready.arrived
  have hsupply := hready.supply
  have hlimit : w.pool.supply (recipientHash host asset) + p.amount7 < 2 ^ 127 := hready.fits
  let x : Deposit host ⟨[w.pool.admin], none⟩ w args :=
    { signals := signals
      parsed := by
        apply parsePublicSignals_publicToBytes
        simp [hsignals, DepositNoteMint.Assignment.publicSignals]
      admin := List.mem_singleton.mpr rfl
      positive := by
        have := hready.positive
        change 0 < (p.amount7 : ℤ)
        omega
      fresh := hready.fresh
      commitment := hp.commitment_eq.symm
      amount := hamount7
      nonce := (ofFr_toFr (canonical_hashToField nonce)).symm
      asset := hasset
      depVerifier := depVerifier
      depVerifier_eq := hverifier
      verified := hproof
      root := args.newRoot
      root_eq := by
        rw [htree.depth_eq]
        exact appendRoot_of_lt host.poseidon hready.room commitment
      newRoot_eq := rfl
      token := token
      token_eq := by
        change w.pool.assetToken.get (Word.ofFr (recipientHash host asset).toFr) = some token
        rw [hasset]
        exact hready.token_eq
      next := ⟨w.pool.supply (recipientHash host asset) + p.amount7, by omega, hlimit⟩
      next_eq := by
        change _ = w.pool.supply (Word.ofFr (recipientHash host asset).toFr) + (p.amount7 : ℤ)
        rw [hasset]
      next_nonneg := by
        change 0 ≤ w.pool.supply (recipientHash host asset) + (p.amount7 : ℤ)
        omega
      next_le := hvault }
  have hbound : DepositBound host w args signals := by
    constructor
    · rfl
    · apply fr32ToI128_ofFr (by decide)
    · apply fr32ToI128_ofFr (by decide)
    · apply fr32ToI128_ofFr (by decide)
    · change (fr32ToI128 (Word.ofFr (Shade.hashToField (p.burnDigest host)).toFr)).val ≠ 0
      rw [ofFr_toFr (canonical_hashToField _)]
      exact hready.digest
    · change 0 < (fr32ToI128 (Word.ofFr (p.amount6 : ℕ))).val
      have := hready.minted_le
      have := hready.positive
      omega
    · change (fr32ToI128 (Word.ofFr (p.amount6 : ℕ))).val * 10 < 2 ^ 127
      have := hready.burnt_lt
      omega
    · change (p.amount7 : ℤ) ≤ (fr32ToI128 (Word.ofFr (p.amount6 : ℕ))).val * 10
      have := hready.minted_le
      omega
    · exact (ofFr_toFr (canonical_hashToField payload)).symm
    · exact (ofFr_toFr (canonical_hashToField policy)).symm
    · exact (ofFr_toFr (canonical_recipientHash host host.self)).symm
    · apply fr32ToI128_ofFr (by omega)
    · apply fr32ToI128_ofFr (by omega)
    · have := hready.room
      omega
  have hexec := deposit_exec x hbound hready.unpaused
  refine ⟨args, x.world, hargs, ?_, rfl, ?_, ?_⟩
  · rw [step, if_pos hready.running]
    apply attempt_eq_some.mpr ⟨_, hexec⟩
  · have hset : x.world.pool.noteSupply
        = w.pool.noteSupply.set (Word.ofFr (recipientHash host asset).toFr) x.next := rfl
    rw [State.supply_set hset, hasset, if_pos rfl]
  · change (w.pool.deposit.set nonce true).get nonce = some true
    apply Store.get_set_self

/-! ### A deposit of a note -/

/-- What the relayer is given for the deposit of the note. -/
def noteParams : DepositParams where
  burnTxHash := "0x5bc1".toList
  pool := "CBNKU37JKPVH4HWJCKDZ6JOEUNBBBZXVVIBDTGJWNHD57J2P5XPLWP4Q".toList
  sac := "CAZS7AJ5WCVGGP6L35LPI6MUTGTZTKKNICGPIHYSBKBA5ZAUHJ7K7QJC".toList
  amount6 := 100
  cctpNonceHex := "0x".toList ++ (List.replicate 60 '0' ++ "0b00".toList)
  amount7 := 1000
  commitmentHex := "0x".toList ++
    "2167270dbea63ad56fd390fb7b369a4f72c2d2daeba4cc61bc515ce161110fcc".toList
  encryptedNotePayloadHashHex := "0x".toList ++ List.replicate 64 '0'
  policyIdHex := "0x".toList ++ List.replicate 64 '0'
  newRootHex := "0x".toList ++
    "54132401a39ebff632eca21dffaf19620d8f3e3f2087f6cd4f54a505f90eaa8a".toList
  coin := ⟨decimal (1000 : ℕ), decimal (5 : ℕ), decimal (21 : ℕ), decimal (31 : ℕ)⟩
  poolId := none
  chainId := some "27".toList

open Deployment in
/-- The assignment that the prover proves for it. -/
def noteAssignment : DepositNoteMint.Assignment :=
  mintAssignment quoteHost noteParams Deployment.note usdc 0xb00 0 0 1 27

open Deployment in
/-- The host that accepts that deposit. -/
def registerHost : Host := Deployment.host ⟨[], [noteAssignment.publicSignals], []⟩ []

open Deployment in
/-- The pool before the deposit. -/
def beforeDeposit : World := run registerHost (genesis usdc) setup

open Deployment in
theorem beforeDeposit_facts :
  beforeDeposit.pool.wasm = none ∧ beforeDeposit.pool.paused = false
    ∧ beforeDeposit.pool.deposit.get 0xb00 = none ∧ beforeDeposit.pool.treeLeaves = []
    ∧ beforeDeposit.pool.poolId = 1 ∧ beforeDeposit.pool.chainId = 27
    ∧ beforeDeposit.pool.depVerifier = some depositVerifier
    ∧ (fr32ToI128 (Shade.hashToField (noteParams.burnDigest registerHost))).val ≠ 0
    ∧ recipientHash registerHost usdc = usdcId
    ∧ beforeDeposit.pool.assetToken.get usdcId = some usdc
    ∧ beforeDeposit.pool.supply usdcId = 0 ∧ beforeDeposit.vault registerHost usdc = 1000
    ∧ appendRoot poseidon255 12 [] Deployment.commitment = .ok stateRoot
    ∧ registerHost.verify depositVerifier proof
        (publicToBytes (noteAssignment.publicSignals.map Word.ofFr)) = some true
  := by
  decide +kernel

open Deployment in
/-- The texts stand for the note. -/
theorem noteParams_denotes :
  noteParams.Denotes registerHost Deployment.note usdc Deployment.commitment 0xb00 0 0 1 27
  := by
  constructor
  · constructor <;> apply readSignal_decimal
  · decide
  · decide
  · rw [beforeDeposit_facts.2.2.2.2.2.2.2.2.1]
    rfl
  · exact ⟨_, rfl, by decide, by decide, by decide +kernel⟩
  · change Deployment.commitment = Word.ofFr (Deployment.note.commitment poseidon255)
    rw [commitment_eq]
    decide +kernel
  · exact ⟨_, rfl, by decide, by decide, by decide +kernel⟩
  · exact ⟨_, rfl, by decide, by decide, by decide +kernel⟩
  · exact ⟨_, rfl, by decide, by decide, by decide +kernel⟩
  · exact ofDecimal_decimal 1
  · exact ofDecimal_decimal 27

open Deployment in
/-- The deposit of the note is registered. -/
theorem deposit_registered_note :
  ∃ args w', noteParams.receiveArgs usdc proof
      (publicToBytes (noteAssignment.publicSignals.map Word.ofFr)) = some args
    ∧ step registerHost (.call ⟨[beforeDeposit.pool.admin], none⟩ (.receiveCctpDeposit args))
        beforeDeposit = some w'
    ∧ w'.pool.treeLeaves = [Deployment.commitment]
  := by
  obtain ⟨hrunning, hunpaused, hfresh, hleaves, hpool, hchain, hverifier, hdigest, hid, htoken,
    hsupply, hvault, hroot, hverify⟩ := beforeDeposit_facts
  have hw : beforeDeposit = run registerHost (World.init (State.constructor admin usdc
      withdrawVerifier nullifierRegistry 12 1 27) (genesis usdc).registry (genesis usdc).tokens 100)
      setup := rfl
  have hready : Registrable registerHost beforeDeposit noteParams Deployment.note usdc usdc
      0xb00 := by
    constructor
    · exact hrunning
    · exact hunpaused
    · exact hfresh
    · rw [hleaves]
      decide
    · decide
    · decide
    · decide
    · decide
    · exact hdigest
    · rw [hid]
      exact htoken
    · rw [hid, hsupply]
    · rw [hid, hsupply, hvault]
      decide
    · rw [hid, hsupply]
      decide
  have htree : Word.ofFr (LeanIMT.treeRoot poseidon255 12 ([] ++ [Deployment.commitment]))
      = stateRoot := by
    rw [appendRoot_of_lt poseidon255 (by decide)] at hroot
    exact Except.ok.inj hroot
  have hwrites : Writes noteParams.newRootHex (Word.ofFr (LeanIMT.treeRoot registerHost.poseidon 12
      (beforeDeposit.pool.treeLeaves ++ [Deployment.commitment]))) := by
    rw [hleaves]
    change Writes _ (Word.ofFr (LeanIMT.treeRoot poseidon255 12 ([] ++ [Deployment.commitment])))
    rw [htree]
    exact ⟨_, rfl, by decide, by decide, by decide +kernel⟩
  have hdenotes : noteParams.Denotes registerHost Deployment.note usdc Deployment.commitment 0xb00
      0 0 beforeDeposit.pool.poolId.toNat beforeDeposit.pool.chainId.toNat := by
    rw [hpool, hchain]
    exact noteParams_denotes
  obtain ⟨a, ha, -, haccept⟩ := deposit_registered registerHost admin usdc withdrawVerifier
    nullifierRegistry 1 27 (genesis usdc).registry (genesis usdc).tokens 100 setup hw hdenotes
    hready hwrites hverifier
  obtain rfl : noteAssignment = a :=
    Option.some.inj (noteParams_denotes.assignment_eq.symm.trans ha)
  obtain ⟨args, w', hargs, hstep, hadded, -⟩ := haccept proof hverify
  rw [hleaves] at hadded
  exact ⟨args, w', hargs, hstep, hadded⟩

end Shade.Proving
