import Shade.Property.Price
import Shade.Property.Settleable
import Shade.Property.TokenReserves
import Shade.Proving.PricedSettlement

/-!
# Matches across assets can be settled

What the priced settlement builder makes of two coins satisfies its circuit exactly if the assets
differ as field elements and both minimum outputs are met: the builder has checked the price
itself. In every state that the pool reaches such a match is carried out, although the relayer never
asks for it.
-/

namespace Shade.Proving

open Endian Text Solver Pool Txn

/-! ### What the builder assembles -/

/-- The texts of a coin are those of a note, whose value they write in the smallest way. -/
structure PricedCoin.Denotes (c : PricedCoin) (note : Note) : Prop where
  coin : c.toGeneratedCoin.Denotes note
  asset : readSignal c.assetId = some note.assetId
  value : ofDecimal c.opening.value = some note.value.val

/-- The public numbers of a priced settlement; the matched amount is that of the first asset. -/
structure PricedTerms extends SettleTerms where
  price : ℕ
  minA : ℕ
  minB : ℕ

/-- The texts of the parameters are those numbers. -/
structure PricedParams.Denotes (p : PricedParams) (noteX noteY : Note) (t : PricedTerms) :
    Prop where
  coinX : p.coinX.Denotes noteX
  coinY : p.coinY.Denotes noteY
  batchHash : Writes p.batchHashHex t.batchHash
  poolId : ofDecimal p.poolId = some t.poolId
  chainId : ofDecimal p.chainId = some t.chainId
  matched : t.matched = noteX.value.val
  price : ofDecimal p.priceScaled = some t.price
  minA : ofDecimal p.minOutputA = some t.minA
  minB : ofDecimal p.minOutputB = some t.minB
  deadline : ofDecimal p.deadlineLedger = some t.deadline

/-- The assignment that exchanges two notes. -/
def exchanging (H : Hash) (noteX noteY outA outB : Note) (sX sY : Standing) (root assoc : Fr)
    (t : PricedTerms) : MpcPricedSettlement.Assignment 12 2 where
  stateRoot := root
  associationRoot := assoc
  batchHash := (Shade.hashToField t.batchHash).toFr
  poolId := (t.poolId : ℕ)
  chainId := (t.chainId : ℕ)
  deadlineLedger := (t.deadline : ℕ)
  inputAssetA := noteX.assetId
  outputAssetA := noteY.assetId
  inputAssetB := noteY.assetId
  outputAssetB := noteX.assetId
  matchedAmountA := noteX.value
  matchedAmountB := noteY.value
  priceScaled := (t.price : ℕ)
  priceScale := (1000000000 : ℕ)
  minOutputA := (t.minA : ℕ)
  minOutputB := (t.minB : ℕ)
  labelA := noteX.label
  nullifierA := noteX.nullifier
  secretA := noteX.secret
  stateIndexA := sX.stateIndex
  stateSiblingsA := sX.stateSiblings
  labelIndexA := sX.labelIndex
  labelSiblingsA := sX.labelSiblings
  labelB := noteY.label
  nullifierB := noteY.nullifier
  secretB := noteY.secret
  stateIndexB := sY.stateIndex
  stateSiblingsB := sY.stateSiblings
  labelIndexB := sY.labelIndex
  labelSiblingsB := sY.labelSiblings
  outLabelA := outA.label
  outNullifierA := outA.nullifier
  outSecretA := outA.secret
  outLabelB := outB.label
  outNullifierB := outB.nullifier
  outSecretB := outB.secret
  nullifierHashA := nullifierHashOf H noteX.nullifier (t.poolId : ℕ) (t.chainId : ℕ)
  nullifierHashB := nullifierHashOf H noteY.nullifier (t.poolId : ℕ) (t.chainId : ℕ)
  outputCommitmentA :=
    Note.commitment H ⟨noteY.assetId, noteY.value, outA.label, outA.nullifier, outA.secret⟩
  outputCommitmentB :=
    Note.commitment H ⟨noteX.assetId, noteX.value, outB.label, outB.nullifier, outB.secret⟩

section

variable {H : Hash} {withdraw : Withdraw} {drawA drawB : Draw} {p : PricedParams}
  {i : MpcPricedInput} {noteX noteY : Note} {t : PricedTerms} {root assoc : Fr}

/-- The builder returns the texts of the coins and of their paths, if the second coin is worth the
first one at the price. -/
theorem buildMpcPricedWitness_eq_ok
    (h : buildMpcPricedWitness withdraw drawA drawB p = .ok i) :
  ∃ wX wY batchHash matchedA price,
    withdraw p.coinX.toGeneratedCoin p.commitmentsDecimal p.scope p.assocPath = .ok wX
    ∧ withdraw p.coinY.toGeneratedCoin p.commitmentsDecimal p.scope p.assocPath = .ok wY
    ∧ toInt? p.coinX.opening.value = some matchedA ∧ toInt? p.priceScaled = some price
    ∧ decimal ((matchedA * price).tdiv 1000000000) = p.coinY.opening.value
    ∧ hashToField p.batchHashHex = some batchHash
    ∧ i = ⟨wX.stateRoot, wX.associationRoot, batchHash, p.poolId, p.chainId, p.deadlineLedger,
        p.coinX.assetId, p.coinY.assetId, p.coinY.assetId, p.coinX.assetId, decimal matchedA,
        p.coinY.opening.value, p.priceScaled, "1000000000".toList, p.minOutputA, p.minOutputB,
        readSecrets p.coinX, wX.stateIndex, wX.stateSiblings, wX.labelIndex, wX.labelSiblings,
        readSecrets p.coinY, wY.stateIndex, wY.stateSiblings, wY.labelIndex, wY.labelSiblings,
        drawSecrets drawA, drawSecrets drawB⟩
  := by
  rw [buildMpcPricedWitness] at h
  cases hX : withdraw p.coinX.toGeneratedCoin p.commitmentsDecimal p.scope p.assocPath with
  | error e => rw [hX] at h; cases h
  | ok wX =>
      cases hY : withdraw p.coinY.toGeneratedCoin p.commitmentsDecimal p.scope p.assocPath with
      | error e => rw [hX, hY] at h; cases h
      | ok wY =>
          rw [hX, hY] at h
          by_cases hasset : p.coinX.assetId = p.coinY.assetId
          · simp only [bind, Except.bind, if_pos hasset] at h
            cases h
          · simp only [bind, Except.bind, if_neg hasset, bigInt] at h
            cases hA : toInt? p.coinX.opening.value with
            | none => rw [hA] at h; cases h
            | some matchedA =>
                cases hprice : toInt? p.priceScaled with
                | none => rw [hA, hprice] at h; cases h
                | some price =>
                    rw [hA, hprice] at h
                    by_cases hvalue : decimal ((matchedA * price).tdiv 1000000000)
                        ≠ p.coinY.opening.value
                    · simp only [if_pos hvalue] at h
                      cases h
                    · simp only [if_neg hvalue, pure, Except.pure] at h
                      have hvalue := not_not.mp hvalue
                      cases hhash : hashToField p.batchHashHex with
                      | none => rw [hhash] at h; cases h
                      | some batchHash =>
                          rw [hhash] at h
                          cases h
                          exact ⟨wX, wY, batchHash, matchedA, price, rfl, rfl, rfl, rfl, hvalue, rfl,
                            by rw [hvalue]⟩

theorem toInt?_of_ofDecimal {text : Text} {n : ℕ} (h : ofDecimal text = some n) :
  toInt? text = some (n : ℤ)
  := by
  obtain ⟨z, hz, h⟩ := Option.bind_eq_some_iff.mp h
  split at h
  · cases h
  · next hneg =>
      obtain rfl := Option.some.inj h
      rw [hz, Int.toNat_of_nonneg (by omega)]

/-- The second note is worth the first one at the price, and the circuit is given the exchange of
the two. -/
theorem PricedParams.Denotes.assignment_eq (hp : p.Denotes noteX noteY t)
    (hbuild : buildMpcPricedWitness withdraw drawA drawB p = .ok i)
    (hpathsX : ∀ answer,
      withdraw p.coinX.toGeneratedCoin p.commitmentsDecimal p.scope p.assocPath = .ok answer →
      ∃ s, answer.Prove H noteX root assoc s)
    (hpathsY : ∀ answer,
      withdraw p.coinY.toGeneratedCoin p.commitmentsDecimal p.scope p.assocPath = .ok answer →
      ∃ s, answer.Prove H noteY root assoc s) :
  noteY.value.val = noteX.value.val * t.price / 1000000000 ∧ ∃ sX sY,
    MerkleProof H sX.stateSiblings (noteX.commitment H) sX.stateIndex root
    ∧ MerkleProof H sY.stateSiblings (noteY.commitment H) sY.stateIndex root
    ∧ MerkleProof H sX.labelSiblings noteX.label sX.labelIndex assoc
    ∧ MerkleProof H sY.labelSiblings noteY.label sY.labelIndex assoc
    ∧ i.assignment H = some (exchanging H noteX noteY (drawnNote noteY.assetId noteY.value drawA)
        (drawnNote noteX.assetId noteX.value drawB) sX sY root assoc t)
  := by
  obtain ⟨wX, wY, batchHash, matchedA, price, hwX, hwY, hmatched, hprice, hvalue, hhash, rfl⟩ :=
    buildMpcPricedWitness_eq_ok hbuild
  obtain ⟨sX, hX⟩ := hpathsX wX hwX
  obtain ⟨sY, hY⟩ := hpathsY wY hwY
  rw [hashToField_of_writes hp.batchHash] at hhash
  obtain rfl := Option.some.inj hhash
  rw [toInt?_of_ofDecimal hp.coinX.value] at hmatched
  obtain rfl := Option.some.inj hmatched
  rw [toInt?_of_ofDecimal hp.price] at hprice
  obtain rfl := Option.some.inj hprice
  have hfloor : noteY.value.val = noteX.value.val * t.price / 1000000000 := by
    have hquotient : ((noteX.value.val : ℤ) * (t.price : ℤ)).tdiv 1000000000
        = ((noteX.value.val * t.price / 1000000000 : ℕ) : ℤ) := by
      rw [Int.tdiv_eq_ediv_of_nonneg (by positivity)]
      norm_cast
    have hY' := hp.coinY.value
    rw [← hvalue, hquotient, ofDecimal_decimal] at hY'
    exact (Option.some.inj hY').symm
  refine ⟨hfloor, sX, sY, hX.state, hY.state, hX.label, hY.label, ?_⟩
  have hopX := hp.coinX.coin.opens
  have hopY := hp.coinY.coin.opens
  have hscale : readSignal "1000000000".toList = some ((1000000000 : ℕ) : Fr) :=
    readSignal_decimal 1000000000
  simp only [MpcPricedInput.assignment, readSecrets, drawSecrets, randField, hX.stateRoot,
    hX.associationRoot, readSignal_decimal, readSignal_of_ofDecimal hp.poolId,
    readSignal_of_ofDecimal hp.chainId, readSignal_of_ofDecimal hp.price,
    readSignal_of_ofDecimal hp.minA, readSignal_of_ofDecimal hp.minB,
    readSignal_of_ofDecimal hp.deadline, hp.coinX.asset, hp.coinY.asset, hopX.label,
    hopX.nullifier, hopX.secret, hopY.label, hopY.value, hopY.nullifier, hopY.secret, hX.stateIndex,
    hX.stateSiblings, hX.labelIndex, hX.labelSiblings, hY.stateIndex, hY.stateSiblings,
    hY.labelIndex, hY.labelSiblings, hscale, ZMod.natCast_zmod_val, Option.bind_eq_bind,
    Option.bind_some, Option.pure_def]
  rfl

/-- The exchange of two notes satisfies the circuit exactly if their assets differ and both minimum
outputs are met. -/
theorem exchanging_satisfied_iff {outA outB : Note} {sX sY : Standing}
    (hstateX : MerkleProof H sX.stateSiblings (noteX.commitment H) sX.stateIndex root)
    (hstateY : MerkleProof H sY.stateSiblings (noteY.commitment H) sY.stateIndex root)
    (hlabelX : MerkleProof H sX.labelSiblings noteX.label sX.labelIndex assoc)
    (hlabelY : MerkleProof H sY.labelSiblings noteY.label sY.labelIndex assoc)
    (hfloor : noteY.value.val = noteX.value.val * t.price / 1000000000)
    (hX : noteX.value.val < 2 ^ 64) (hY : noteY.value.val < 2 ^ 64) (hprice : t.price < 2 ^ 128)
    (hminA : t.minA < 2 ^ 64) (hminB : t.minB < 2 ^ 64) :
  MpcPricedSettlement.Satisfied H (exchanging H noteX noteY outA outB sX sY root assoc t)
    ↔ noteX.assetId ≠ noteY.assetId ∧ t.minA ≤ noteY.value.val ∧ t.minB ≤ noteX.value.val
  := by
  have hr : 2 ^ 64 * 2 ^ 128 < r := by decide
  have hval : ∀ n < 2 ^ 128, ((n : ℕ) : Fr).val = n := by
    intro n hn
    rw [ZMod.val_natCast, Nat.mod_eq_of_lt (by omega)]
  have hprod : noteX.value.val * ((t.price : ℕ) : Fr).val < r := by
    rw [hval _ hprice]
    calc noteX.value.val * t.price ≤ 2 ^ 64 * 2 ^ 128 := Nat.mul_le_mul hX.le hprice.le
      _ < r := hr
  have hminA' := hval t.minA (by omega)
  have hminB' := hval t.minB (by omega)
  have hpriced : MpcPricedSettlement.Priced noteX.value noteY.value (t.price : ℕ) 1000000000
      (t.minA : ℕ) (t.minB : ℕ) ↔ _ :=
    MpcPricedSettlement.priced_iff hprod hX hY (hminA'.trans_lt hminA) (hminB'.trans_lt hminB)
  rw [hval _ hprice, hminA', hminB'] at hpriced
  constructor
  · intro h
    have hscale := h.priced
    rw [h.priceScale] at hscale
    use isEqual_zero_iff.mp h.crossAsset
    exact (hpriced.mp hscale).2
  · rintro ⟨hne, hleA, hleB⟩
    have hscale := hpriced.mpr ⟨hfloor, hleA, hleB⟩
    constructor
    · rfl
    · rfl
    · exact isEqual_zero_iff.mpr hne
    · rfl
    · exact hstateX
    · exact hstateY
    · exact hlabelX
    · exact hlabelY
    · rfl
    · rfl
    · rfl
    · rfl
    · exact hscale.scaled_le_prod
    · exact hscale.rem_lt
    · exact hscale.minA_le
    · exact hscale.minB_le

/-- What the builder assembles from the coins of two notes satisfies the priced circuit exactly if
the assets of the notes are different field elements and each party gets at least its minimum. The
second note is worth what the first one comes to at the price, rounded down, and each party gets the
note of the other one, whole. -/
theorem priced_satisfied_iff {a : MpcPricedSettlement.Assignment 12 2} (hp : p.Denotes noteX noteY t)
    (hbuild : buildMpcPricedWitness withdraw drawA drawB p = .ok i)
    (hread : i.assignment H = some a)
    (hpathsX : ∀ answer,
      withdraw p.coinX.toGeneratedCoin p.commitmentsDecimal p.scope p.assocPath = .ok answer →
      ∃ s, answer.Prove H noteX root assoc s)
    (hpathsY : ∀ answer,
      withdraw p.coinY.toGeneratedCoin p.commitmentsDecimal p.scope p.assocPath = .ok answer →
      ∃ s, answer.Prove H noteY root assoc s)
    (hX : noteX.value.val < 2 ^ 64) (hY : noteY.value.val < 2 ^ 64) (hprice : t.price < 2 ^ 128)
    (hminA : t.minA < 2 ^ 64) (hminB : t.minB < 2 ^ 64) :
  noteY.value.val = noteX.value.val * t.price / 1000000000
    ∧ a.noteA = noteX ∧ a.noteB = noteY
    ∧ a.outNoteA.assetId = noteY.assetId ∧ a.outNoteA.value = noteY.value
    ∧ a.outNoteB.assetId = noteX.assetId ∧ a.outNoteB.value = noteX.value
    ∧ (MpcPricedSettlement.Satisfied H a
      ↔ noteX.assetId ≠ noteY.assetId ∧ t.minA ≤ noteY.value.val ∧ t.minB ≤ noteX.value.val)
  := by
  obtain ⟨hfloor, sX, sY, hstateX, hstateY, hlabelX, hlabelY, hassignment⟩ :=
    hp.assignment_eq hbuild hpathsX hpathsY
  rw [hassignment] at hread
  obtain rfl := Option.some.inj hread
  refine ⟨hfloor, rfl, rfl, rfl, rfl, rfl, rfl, ?_⟩
  apply exchanging_satisfied_iff hstateX hstateY hlabelX hlabelY hfloor hX hY hprice hminA hminB

end

/-! ### The call that settles -/

section

variable {host : Host} {w : World}

/-- A priced settlement that passes its checks is carried out. -/
theorem priced_exec {args : MpcArgs} (tx : Tx)
    (x : Settlement host w w.pool.mpcPverifier 9 args) (hpaused : w.pool.paused = false)
    (hassoc : w.pool.assocRoot = some (x.signals.getD 5 0)) (hlength : x.signals.length = 20)
    (hcount : w.pool.leafCount + 2 < 2 ^ 32)
    (hassets : x.signals.getD 10 0 ≠ x.signals.getD 12 0)
    (htokenA : w.pool.assetToken.get (x.signals.getD 10 0) ≠ none)
    (htokenB : w.pool.assetToken.get (x.signals.getD 12 0) ≠ none)
    (hmatchedA : 0 < (fr32ToI128 (x.signals.getD 14 0)).val)
    (hmatchedB : 0 < (fr32ToI128 (x.signals.getD 15 0)).val) :
  (mpcSettlePriced host tx args).run w = .ok ((), x.world.emit
    (.mpcprice args.batchHash args.nullifierA args.nullifierB args.outputCommitmentA
      args.outputCommitmentB args.newRoot))
  := by
  obtain ⟨tokenA, htokenA⟩ := Option.ne_none_iff_exists'.mp htokenA
  obtain ⟨tokenB, htokenB⟩ := Option.ne_none_iff_exists'.mp htokenB
  simp only [mpcSettlePriced, requireNotPaused_bind_ok, verifyCommitteeThreshold_bind_ok,
    parseSignals_bind_ok, signal_bind_ok, require_bind_ok, read_bind_ok, unwrap_bind_ok,
    bindSignals_bind_ok, requireAssociation_bind_ok, requireKnownRoot_bind_ok, requireProof_bind_ok,
    getAssetToken_bind_ok, spendNullifier_bind_ok, appendOutputs_bind_ok, write_ok]
  refine ⟨hpaused, x.endorsed, x.address, x.address_eq, x.proof, x.proof_eq, x.bytes, x.bytes_eq,
    x.verified, x.signals, x.parsed, by omega, x.nullifierA, x.nullifierB, x.outputCommitmentA,
    x.outputCommitmentB, by omega, x.known, by omega, hassoc, by omega, x.batchHash, by omega,
    x.domain.1, by omega, x.domain.2, by omega, x.deadline, by omega, by omega, hassets, tokenA,
    htokenA, tokenB, htokenB, by omega, by omega, x.admittedA, x.admittedB, ⟨hmatchedA, hmatchedB⟩,
    hcount, x.rootA, x.rootA_eq, x.newRoot_eq, rfl⟩

/-- The pool can settle a match of two notes across assets: it could settle one of them within an
asset, both assets are registered, and the notes are worth something. -/
structure Exchangeable (host : Host) (w : World) (noteX noteY : Note) (assocRoot : Word)
    (t : PricedTerms) : Prop extends Matchable host w noteX noteY assocRoot t.toSettleTerms where
  tokenX : w.pool.assetToken.get (Word.ofFr noteX.assetId) ≠ none
  tokenY : w.pool.assetToken.get (Word.ofFr noteY.assetId) ≠ none
  positiveX : 0 < noteX.value.val
  positiveY : 0 < noteY.value.val

/-- Every honest match across assets is settled. In every state that a run from a constructor call
reaches, if the builder returns the inputs of the circuit for the coins of two notes that stand in
the pool, of different assets and worth at least the minimum outputs, then these satisfy the priced
circuit, and the pool accepts the settlement with any proof that its verifier of priced settlements
accepts and with any signatures that endorse the hash of the batch: both notes are spent, and each
party gets a note of the other's asset, whole. -/
theorem priced_accepted (host : Host) (admin usdcSac verifier nullifierRegistry : Address)
    (pool chain : UInt32) (registry : NullifierRegistry.State) (tokens : Token.Ledger)
    (sequence : ℕ) (actions : List Action) {w : World}
    (hw : w = run host (World.init (State.constructor admin usdcSac verifier nullifierRegistry 12
      pool chain) registry tokens sequence) actions)
    {withdraw : Withdraw} {drawA drawB : Draw} {p : PricedParams} {i : MpcPricedInput}
    {a : MpcPricedSettlement.Assignment 12 2} {noteX noteY : Note} {t : PricedTerms}
    {assocRoot : Word} (hfinds : FindsPaths withdraw host.poseidon p.assocPath assocRoot.toFr)
    (hp : p.Denotes noteX noteY t)
    (hleaves : p.commitmentsDecimal.map readSignal
      = w.pool.treeLeaves.map fun leaf => some leaf.toFr)
    (hbuild : buildMpcPricedWitness withdraw drawA drawB p = .ok i)
    (hread : i.assignment host.poseidon = some a)
    (hmatch : Exchangeable host w noteX noteY assocRoot t)
    (hX : noteX.value.val < 2 ^ 64) (hY : noteY.value.val < 2 ^ 64) (hprice : t.price < 2 ^ 128)
    (hasset : noteX.assetId ≠ noteY.assetId)
    (hminA : t.minA ≤ noteY.value.val) (hminB : t.minB ≤ noteX.value.val)
    {pricedVerifier : Address} (hverifier : w.pool.mpcPverifier = some pricedVerifier)
    {signers : List Word} {signatures : List Signature}
    (hendorsed : w.pool.Endorsed host t.batchHash.toBytes signers signatures) :
  MpcPricedSettlement.Satisfied host.poseidon a
    ∧ ∀ tx proof, host.verify pricedVerifier proof (publicToBytes (a.publicSignals.map Word.ofFr))
        = some true →
      ∃ w', step host (.call tx (.mpcSettlePriced (signalArgs host.poseidon w a.publicSignals
          t.batchHash signers signatures proof))) w = some w'
        ∧ w'.registry.isSpent (Word.ofFr (w.pool.nullifierHash host.poseidon noteX)) = true
        ∧ w'.registry.isSpent (Word.ofFr (w.pool.nullifierHash host.poseidon noteY)) = true
        ∧ w'.pool.treeLeaves = w.pool.treeLeaves ++
          [Word.ofFr ((drawnNote noteY.assetId noteY.value drawA).commitment host.poseidon),
            Word.ofFr ((drawnNote noteX.assetId noteX.value drawB).commitment host.poseidon)]
        ∧ w'.tokens = w.tokens
  := by
  obtain ⟨hcount, htree⟩ := treeInvariant_run host (by decide) (treeInvariant_constructor ..) rfl
    actions hw
  obtain ⟨hfloor, sX, sY, hstateX, hstateY, hlabelX, hlabelY, hassignment⟩ := hp.assignment_eq hbuild
    (fun answer => hfinds _ noteX _ _ _ answer hp.coinX.coin hleaves)
    (fun answer => hfinds _ noteY _ _ _ answer hp.coinY.coin hleaves)
  rw [hassignment] at hread
  obtain rfl := Option.some.inj hread
  set outA := drawnNote noteY.assetId noteY.value drawA
  set outB := drawnNote noteX.assetId noteX.value drawB
  set a := exchanging host.poseidon noteX noteY outA outB sX sY
    (LeanIMT.treeRoot host.poseidon 12 w.pool.treeLeaves) assocRoot.toFr t with ha
  constructor
  · apply (exchanging_satisfied_iff hstateX hstateY hlabelX hlabelY hfloor hX hY hprice (by omega)
      (by omega)).mpr
    use hasset, hminA
  intro tx proof hproof
  have hroom := hmatch.room
  have hnullifierA : a.nullifierHashA = w.pool.nullifierHash host.poseidon noteX := by
    rw [ha, exchanging, State.nullifierHash, hmatch.poolId, hmatch.chainId]
  have hnullifierB : a.nullifierHashB = w.pool.nullifierHash host.poseidon noteY := by
    rw [ha, exchanging, State.nullifierHash, hmatch.poolId, hmatch.chainId]
  have htimely : Timely host w a.publicSignals t.batchHash 9 := by
    constructor
    · exact Nat.lt_of_lt_of_le (by decide : 20 < 2 ^ 31) (by decide)
    · exact hmatch.leaves
    · exact hroom
    · rfl
    · rfl
    · change ((t.poolId : ℕ) : Fr) = _
      rw [hmatch.poolId]
    · change ((t.chainId : ℕ) : Fr) = _
      rw [hmatch.chainId]
    · exact ⟨t.deadline, rfl, hmatch.deadline, hmatch.deadline_lt⟩
    · change a.nullifierHashA ≠ a.nullifierHashB
      rw [hnullifierA, hnullifierB]
      exact hmatch.different
    · change w.registry.Admits host.self (Word.ofFr a.nullifierHashA)
      rw [hnullifierA]
      exact hmatch.admittedA
    · change w.registry.Admits host.self (Word.ofFr a.nullifierHashB)
      rw [hnullifierB]
      exact hmatch.admittedB
  let x := htimely.settlement htree hverifier hendorsed hproof
  have hassocRoot : w.pool.assocRoot = some (Word.ofFr assocRoot.toFr) := by
    rw [ofFr_toFr hmatch.canonical]
    exact hmatch.association
  have hassets : Word.ofFr noteX.assetId ≠ Word.ofFr noteY.assetId := by
    intro heq
    apply hasset
    rw [← Word.toFr_ofFr noteX.assetId, heq, Word.toFr_ofFr]
  have hpositive : ∀ value : Fr, 0 < value.val → value.val < 2 ^ 64 →
      0 < (fr32ToI128 (Word.ofFr value)).val := by
    intro value hpos hlt
    have hvalue := fr32ToI128_ofFr (show value.val < 2 ^ 127 by omega)
    rw [ZMod.natCast_zmod_val] at hvalue
    omega
  have hexec := priced_exec tx x hmatch.unpaused hassocRoot rfl (by omega) hassets
    hmatch.tokenX hmatch.tokenY (hpositive _ hmatch.positiveX hX) (hpositive _ hmatch.positiveY hY)
  obtain ⟨hspentA, hspentB, hleaves', htokens⟩ := emit_facts x _
  rw [← hnullifierA, ← hnullifierB]
  refine ⟨_, ?_, hspentA, hspentB, hleaves', htokens⟩
  rw [step, if_pos hmatch.running]
  exact attempt_eq_some.mpr ⟨(), hexec⟩

end

/-! ### A match of USDC and XLM -/

section

open Deployment Relayer

/-- The root of the tree with the note of USDC and that of XLM. -/
def mixedRoot : Word := 0x788f02ca709a74f7068ede6df5df12e5600109f3e069814413c66fae3e3c8e0

/-- The coins of both notes, to be exchanged at par. -/
def mixedParams : PricedParams where
  coinX := ⟨pairCoinA, decimal usdcId.toNat⟩
  coinY := ⟨⟨decimal xlmId.toNat,
    decimal (1000 : ℕ), decimal (5 : ℕ), decimal (22 : ℕ), decimal (32 : ℕ)⟩, decimal xlmId.toNat⟩
  commitmentsDecimal := [decimal Deployment.commitment.toNat, decimal xlmCommitment.toNat]
  assocPath := "assoc.json".toList
  scope := "shade_px".toList
  batchHashHex := "0x".toList ++ hexBytes largeHash.toBytes
  poolId := decimal (1 : ℕ)
  chainId := decimal (27 : ℕ)
  priceScaled := decimal (1000000000 : ℕ)
  minOutputA := decimal (1 : ℕ)
  minOutputB := decimal (1 : ℕ)
  deadlineLedger := decimal (1000 : ℕ)

/-- The numbers of the match. -/
def mixedTerms : PricedTerms := ⟨⟨largeHash, 1, 27, 1000, 1000⟩, 1000000000, 1, 1⟩

/-- Where the notes stand in the pool. -/
def standingX : Standing :=
  ⟨(0 : ℕ), besideSiblings xlmCommitment, (0 : ℕ), List.Vector.replicate 2 0⟩

def standingY : Standing :=
  ⟨(1 : ℕ), besideSiblings Deployment.commitment, (0 : ℕ), List.Vector.replicate 2 0⟩

/-- Coinutils, on the coins of the match. -/
def mixedWithdraw : Withdraw :=
  coinsWithdraw mixedParams.commitmentsDecimal mixedParams.coinX.toGeneratedCoin
    mixedParams.coinY.toGeneratedCoin mixedRoot.toFr associationRoot.toFr standingX standingY

/-- The public signals of the match. -/
def mixedSignals : List Fr :=
  (exchanging poseidon255 Deployment.note xlmNote
    (drawnNote xlmNote.assetId xlmNote.value (pairDraw 23 33))
    (drawnNote Deployment.note.assetId Deployment.note.value (pairDraw 24 34)) standingX standingY
    mixedRoot.toFr associationRoot.toFr mixedTerms).publicSignals

/-- The host of the match: the verifier of priced settlements accepts its signals. -/
def mixedHost : Host :=
  { Deployment.host sharedVectors
      ((committee.zip largeSignatures).map fun p => (p.1, largeHash.toBytes, p.2)) with
    verify := fun a proof bytes =>
      if a = mpcVerifier then some (decide (bytes = encode mixedSignals))
      else (Deployment.host sharedVectors []).verify a proof bytes }

/-- The deposits of both notes. -/
def mixedActions : List Action :=
  setup ++ [adminCall (.config (.setCommittee committee)),
    adminCall (.config (.setMpcPricedVerifier mpcVerifier)), depositNote,
    adminCall (.receiveCctpDeposit xlmArgs)]

/-- The pool with both notes. -/
def mixedNotes : World := Pool.run mixedHost (genesis usdc) mixedActions

theorem mixedNotes_facts :
  mixedNotes.pool.wasm = none ∧ mixedNotes.pool.paused = false
    ∧ mixedNotes.pool.assocRoot = some associationRoot
    ∧ mixedNotes.pool.treeLeaves = [Deployment.commitment, xlmCommitment]
    ∧ mixedNotes.pool.treeRoot = mixedRoot
    ∧ mixedNotes.pool.poolId = 1 ∧ mixedNotes.pool.chainId = 27
    ∧ mixedNotes.pool.mpcPverifier = some mpcVerifier ∧ mixedNotes.pool.mpcCmte = some committee
    ∧ mixedNotes.pool.assetToken.get (Word.ofFr usdcId.toFr) ≠ none
    ∧ mixedNotes.pool.assetToken.get (Word.ofFr xlmId.toFr) ≠ none
    ∧ mixedNotes.registry.paused = false
    ∧ (mixedNotes.registry.authorized.get mixedHost.self).getD false = true
    ∧ mixedNotes.registry.isSpent nullifierHash = false
    ∧ mixedNotes.registry.isSpent nullifierHashB = false
    ∧ mixedNotes.sequence ≤ 1000
    ∧ ((committee.take 2).zip largeSignatures).all
        (fun p => mixedHost.ed25519Verify p.1 largeHash.toBytes p.2) = true
  := by
  decide +kernel

theorem mixed_hashes :
  xlmNote.commitment poseidon255 = xlmCommitment.toFr
    ∧ climb poseidon255 Deployment.commitment.toFr (pathOf 0 (besideSiblings xlmCommitment))
      = mixedRoot.toFr
    ∧ climb poseidon255 xlmCommitment.toFr (pathOf 1 (besideSiblings Deployment.commitment))
      = mixedRoot.toFr
  := by
  decide +kernel

theorem mixedParams_denotes :
  mixedParams.Denotes Deployment.note xlmNote mixedTerms
  := by
  constructor
  · constructor
    · constructor
      · constructor <;> apply readSignal_decimal
      · apply readSignal_decimal
    · apply readSignal_decimal
    · exact ofDecimal_decimal 1000
  · constructor
    · constructor
      · constructor <;> apply readSignal_decimal
      · apply readSignal_decimal
    · apply readSignal_decimal
    · exact ofDecimal_decimal 1000
  · exact ⟨_, rfl, by decide +kernel, by decide +kernel, by decide +kernel⟩
  · exact ofDecimal_decimal 1
  · exact ofDecimal_decimal 27
  · decide
  · exact ofDecimal_decimal 1000000000
  · exact ofDecimal_decimal 1
  · exact ofDecimal_decimal 1
  · exact ofDecimal_decimal 1000

/-- The tree of the pool has the root of both notes. -/
theorem mixedNotes_root :
  LeanIMT.treeRoot poseidon255 12 mixedNotes.pool.treeLeaves = mixedRoot.toFr
  := by
  obtain ⟨-, -, -, hleaves, hroot, -⟩ := mixedNotes_facts
  have hw : mixedNotes = run mixedHost (World.init (State.constructor admin usdc
      withdrawVerifier nullifierRegistry 12 1 27) (genesis usdc).registry (genesis usdc).tokens 100)
      mixedActions := rfl
  have htree : TreeInvariant poseidon255 12 mixedNotes.pool :=
    (treeInvariant_run mixedHost (by decide) (treeInvariant_constructor ..) rfl _ hw).2
  have hrootEq := htree.root_eq (by rw [hleaves]; simp)
  rw [hroot] at hrootEq
  rw [hrootEq, Word.toFr_ofFr]

theorem mixedCommitments :
  mixedParams.commitmentsDecimal.map readSignal
    = mixedNotes.pool.treeLeaves.map fun leaf => some leaf.toFr
  := by
  obtain ⟨-, -, -, hleaves, -⟩ := mixedNotes_facts
  rw [hleaves]
  simp only [mixedParams, List.map_cons, List.map_nil, readSignal_decimal]
  rfl

/-- Coinutils finds the paths of both coins in the tree of the pool. -/
theorem mixedWithdraw_finds :
  FindsPaths mixedWithdraw poseidon255 mixedParams.assocPath associationRoot.toFr
  := by
  obtain ⟨hcommitment, hrootX, hrootY⟩ := mixed_hashes
  have hlabel : ∀ x : Fr, x = 5 → MerkleProof poseidon255 (List.Vector.replicate 2 0) x
      ((0 : ℕ) : Fr) associationRoot.toFr := by
    rintro x rfl
    apply MerkleProof.of_climb 0 (by decide) associationRoot_eq.symm
  refine coinsWithdraw_finds mixedCommitments mixedNotes_root mixedParams_denotes.coinX.coin
    mixedParams_denotes.coinY.coin ?_ ?_ (hlabel _ rfl) (hlabel _ rfl) _
  · apply MerkleProof.of_climb 0 (by decide)
    rw [commitment_eq]
    apply hrootX.symm
  · apply MerkleProof.of_climb 1 (by decide)
    rw [hcommitment]
    apply hrootY.symm

/-- The builder succeeds on the match. -/
theorem mixedParams_built :
  ∃ i, buildMpcPricedWitness mixedWithdraw (pairDraw 23 33) (pairDraw 24 34) mixedParams = .ok i
  := by
  have hcoins : mixedParams.coinY.toGeneratedCoin ≠ mixedParams.coinX.toGeneratedCoin := by
    decide +kernel
  have hasset : ¬ mixedParams.coinX.assetId = mixedParams.coinY.assetId := by
    decide +kernel
  have hwX : mixedWithdraw mixedParams.coinX.toGeneratedCoin mixedParams.commitmentsDecimal
      mixedParams.scope mixedParams.assocPath
      = .ok (printPaths mixedRoot.toFr associationRoot.toFr standingX) := by
    rw [mixedWithdraw, coinsWithdraw, if_neg (not_not.mpr rfl), if_pos rfl]
  have hwY : mixedWithdraw mixedParams.coinY.toGeneratedCoin mixedParams.commitmentsDecimal
      mixedParams.scope mixedParams.assocPath
      = .ok (printPaths mixedRoot.toFr associationRoot.toFr standingY) := by
    rw [mixedWithdraw, coinsWithdraw, if_neg (not_not.mpr rfl), if_neg hcoins, if_pos rfl]
  have hmatched : bigInt mixedParams.coinX.opening.value = .ok 1000 := by
    rw [bigInt, toInt?_of_ofDecimal mixedParams_denotes.coinX.value]
    rfl
  have hprice : bigInt mixedParams.priceScaled = .ok 1000000000 := by
    rw [bigInt, toInt?_of_ofDecimal mixedParams_denotes.price]
    rfl
  have hvalue : ¬ decimal ((1000 * 1000000000 : ℤ).tdiv 1000000000)
      ≠ mixedParams.coinY.opening.value := by
    decide +kernel
  simp only [buildMpcPricedWitness, hwX, hwY, bind, Except.bind, if_neg hasset, hmatched, hprice,
    if_neg hvalue, pure, Except.pure, hashToField_of_writes mixedParams_denotes.batchHash]
  exact ⟨_, rfl⟩

/-- The committee endorses the hash of the batch. -/
theorem mixedNotes_endorsed :
  mixedNotes.pool.Endorsed mixedHost largeHash.toBytes (committee.take 2) largeSignatures
  := by
  obtain ⟨-, -, -, -, -, -, -, -, hcommittee, -, -, -, -, -, -, -, hverify⟩ := mixedNotes_facts
  refine ⟨committee, hcommittee, by simp [committee], by decide, ?_, ?_, by decide, ?_⟩
  · simp [committee]
  · intro pk hpk
    apply List.mem_of_mem_take hpk
  · intro p hp
    apply List.all_eq_true.mp hverify p hp

/-- The exchange of both notes satisfies the circuit. -/
theorem priced_satisfied_par :
  ∃ i a, buildMpcPricedWitness mixedWithdraw (pairDraw 23 33) (pairDraw 24 34) mixedParams = .ok i
    ∧ i.assignment poseidon255 = some a ∧ MpcPricedSettlement.Satisfied poseidon255 a
  := by
  obtain ⟨i, hbuild⟩ := mixedParams_built
  have hpathsX := fun answer => mixedWithdraw_finds mixedParams.coinX.toGeneratedCoin
    Deployment.note _ _ mixedParams.scope answer mixedParams_denotes.coinX.coin mixedCommitments
  have hpathsY := fun answer => mixedWithdraw_finds mixedParams.coinY.toGeneratedCoin xlmNote _ _
    mixedParams.scope answer mixedParams_denotes.coinY.coin mixedCommitments
  obtain ⟨-, sX, sY, -, -, -, -, hassignment⟩ :=
    mixedParams_denotes.assignment_eq hbuild hpathsX hpathsY
  have hiff := priced_satisfied_iff mixedParams_denotes hbuild hassignment hpathsX hpathsY
    (by decide) (by decide) (by decide) (by decide) (by decide)
  exact ⟨i, _, hbuild, hassignment, hiff.2.2.2.2.2.2.2.mpr ⟨by decide, by decide, by decide⟩⟩

/-- The match of both notes is settled. -/
theorem priced_accepted_par :
  ∃ args w', step mixedHost (.call ⟨[], none⟩ (.mpcSettlePriced args)) mixedNotes = some w'
    ∧ w'.registry.isSpent nullifierHash = true
    ∧ w'.pool.treeLeaves.length = 4
  := by
  obtain ⟨hrunning, hunpaused, hassoc, hleaves, -, hpool, hchain, hverifier, -, htokenX, htokenY,
    hreg, hauth, hfreshX, hfreshY, hseq, -⟩ := mixedNotes_facts
  have hw : mixedNotes = run mixedHost (World.init (State.constructor admin usdc
      withdrawVerifier nullifierRegistry 12 1 27) (genesis usdc).registry (genesis usdc).tokens 100)
      mixedActions := rfl
  have hwordX : Word.ofFr (mixedNotes.pool.nullifierHash poseidon255 Deployment.note)
      = nullifierHash := by
    rw [State.nullifierHash, hpool, hchain]
    change Word.ofFr (nullifierHashOf poseidon255 21 1 27) = nullifierHash
    rw [← nullifierHash_eq, ofFr_toFr (by decide)]
  have hwordY : Word.ofFr (mixedNotes.pool.nullifierHash poseidon255 xlmNote) = nullifierHashB := by
    rw [State.nullifierHash, hpool, hchain]
    change Word.ofFr (nullifierHashOf poseidon255 22 1 27) = nullifierHashB
    rw [← crossing_hashes.2.2.2.1, ofFr_toFr (by decide)]
  have hmatch : Exchangeable mixedHost mixedNotes Deployment.note xlmNote associationRoot
      mixedTerms := by
    refine { running := hrunning, unpaused := hunpaused, association := hassoc, canonical := by decide
             leaves := ?_, room := ?_, different := ?_, admittedA := ?_, admittedB := ?_
             poolId := ?_, chainId := ?_, deadline := hseq, deadline_lt := by decide
             tokenX := htokenX, tokenY := htokenY, positiveX := by decide, positiveY := by decide }
    · rw [hleaves]
      simp
    · rw [hleaves]
      decide
    · intro heq
      have hwords := congrArg Word.ofFr heq
      change Word.ofFr (mixedNotes.pool.nullifierHash poseidon255 Deployment.note)
        = Word.ofFr (mixedNotes.pool.nullifierHash poseidon255 xlmNote) at hwords
      rw [hwordX, hwordY] at hwords
      exact absurd hwords (by decide)
    · change mixedNotes.registry.Admits mixedHost.self
        (Word.ofFr (mixedNotes.pool.nullifierHash poseidon255 Deployment.note))
      rw [hwordX]
      exact ⟨hreg, hauth, hfreshX⟩
    · change mixedNotes.registry.Admits mixedHost.self
        (Word.ofFr (mixedNotes.pool.nullifierHash poseidon255 xlmNote))
      rw [hwordY]
      exact ⟨hreg, hauth, hfreshY⟩
    · rw [hpool]
      rfl
    · rw [hchain]
      rfl
  obtain ⟨i, hbuild⟩ := mixedParams_built
  obtain ⟨-, sX, sY, -, -, -, -, hassignment⟩ := mixedParams_denotes.assignment_eq hbuild
    (fun answer => mixedWithdraw_finds _ _ _ _ _ answer mixedParams_denotes.coinX.coin
      mixedCommitments)
    (fun answer => mixedWithdraw_finds _ _ _ _ _ answer mixedParams_denotes.coinY.coin
      mixedCommitments)
  obtain ⟨-, haccept⟩ := priced_accepted mixedHost admin usdc withdrawVerifier
    nullifierRegistry 1 27 (genesis usdc).registry (genesis usdc).tokens 100 mixedActions hw
    mixedWithdraw_finds mixedParams_denotes mixedCommitments hbuild hassignment hmatch (by decide)
    (by decide) (by decide) (by decide) (by decide) (by decide) hverifier mixedNotes_endorsed
  have hverified : mixedHost.verify mpcVerifier proof (publicToBytes ((exchanging poseidon255
      Deployment.note xlmNote (drawnNote xlmNote.assetId xlmNote.value (pairDraw 23 33))
      (drawnNote Deployment.note.assetId Deployment.note.value (pairDraw 24 34)) sX sY
      (LeanIMT.treeRoot poseidon255 12 mixedNotes.pool.treeLeaves) associationRoot.toFr
      mixedTerms).publicSignals.map Word.ofFr)) = some true := by
    rw [mixedNotes_root]
    exact congrArg some (decide_eq_true rfl)
  obtain ⟨w', hstep, hspent, -, hadded, -⟩ := haccept ⟨[], none⟩ proof hverified
  refine ⟨_, w', hstep, ?_, ?_⟩
  · rw [← hwordX]
    exact hspent
  · rw [hadded, hleaves]
    rfl

end

end Shade.Proving
