import Shade.Property.DoubleSpend
import Shade.Property.Membership
import Shade.Property.Reserves
import Shade.Property.Tree

/-!
# Notes can be spent

The other direction of the soundness results: the pool does not refuse an honest holder. A
note whose commitment is a leaf of the pool and whose nullifier is not spent can be taken out
of the pool. The circuit has an assignment that opens it, with the siblings of the contract's
tree, and the pool accepts the call that carries the encoding of its public signals.

`SpendTerms` is what a holder decides about a spend, `SpendTerms.assignment` the assignment of
the withdraw circuit for it. What all spends through that circuit share is proved once, and
each entry point adds its own checks.
-/

namespace Shade.Pool

open Txn LeanIMT PrimeField

variable {host : Host} {w : World}

/-! ### Numbers as signals -/

/-- A number below the field order is the number of its signal word. -/
theorem toNat_ofFr_natCast {n : ℕ} (hn : n < r) :
  (Word.ofFr (n : Fr)).toNat = n
  := by
  rw [Word.toNat_ofFr, ZMod.val_natCast, Nat.mod_eq_of_lt hn]

/-- The pool reads the word of a number of less than 127 bits as that number. -/
theorem fr32ToI128_ofFr {n : ℕ} (hn : n < 2 ^ 127) :
  (fr32ToI128 (Word.ofFr (n : Fr))).val = n
  := by
  have hr : n < r := hn.trans (by decide)
  have hnat := toNat_ofFr_natCast hr
  simp only [fr32ToI128, BitVec.toInt_eq_toNat_cond, BitVec.toNat_setWidth, hnat]
  rw [Nat.mod_eq_of_lt (by omega), if_pos (by omega)]

/-- A canonical word is the word of its field element. -/
theorem ofFr_toFr {x : Word} (h : x.Canonical) :
  Word.ofFr x.toFr = x
  := by
  apply (Word.canonical_ofFr _).eq_of_toFr h
  rw [Word.toFr_ofFr]

/-- A hash without its last byte is canonical. -/
theorem canonical_recipientHash (h : Host) (a : Address) :
  (recipientHash h a).Canonical
  := by
  have hlt : (recipientHash h a).toNat < 2 ^ 248 := by
    rw [recipientHash, hashToField, BitVec.toNat_ushiftRight, Nat.shiftRight_eq_div_pow]
    have := (h.sha256 a.strkey).isLt
    omega
  exact hlt.trans (by decide)

/-! ### The assignment of a holder -/

/-- What the holder of a note decides about a spend: the operation, the amounts, the deadline
and what else the spend is bound to. -/
structure SpendTerms where
  operationType : ℕ
  withdrawnValue : ℕ
  relayerFee : ℕ
  deadlineLedger : ℕ
  recipientHash : Word
  quoteHash : Word
  intentHash : Word
  fillReceiptHash : Word
  destinationDomain : ℕ
  destinationRecipient : Word
  maxFee : ℕ
  minFinalityThreshold : ℕ

/-- Where a note stands: at an index of the pool's tree, and its label at an index of the
association tree. -/
structure Position where
  stateIndex : ℕ
  stateSiblings : List.Vector Fr 12
  labelIndex : ℕ
  labelSiblings : List.Vector Fr 2

/-- The nullifier hash of a note in a pool. -/
def State.nullifierHash (H : Hash) (s : State) (note : Note) : Fr :=
  nullifierHashOf H note.nullifier (s.poolId.toNat : ℕ) (s.chainId.toNat : ℕ)

/-- The assignment that spends a note of a pool on given terms. -/
def SpendTerms.assignment (t : SpendTerms) (H : Hash) (s : State) (note : Note) (p : Position) :
    Withdraw.Assignment 12 2 where
  operationType := (t.operationType : ℕ)
  withdrawnValue := (t.withdrawnValue : ℕ)
  recipientHash := t.recipientHash.toFr
  relayerFee := (t.relayerFee : ℕ)
  deadlineLedger := (t.deadlineLedger : ℕ)
  stateRoot := treeRoot H 12 s.treeLeaves
  associationRoot := s.getAssociationRoot.toFr
  poolId := (s.poolId.toNat : ℕ)
  chainId := (s.chainId.toNat : ℕ)
  quoteHash := t.quoteHash.toFr
  intentHash := t.intentHash.toFr
  fillReceiptHash := t.fillReceiptHash.toFr
  destinationDomain := (t.destinationDomain : ℕ)
  destinationRecipient := t.destinationRecipient.toFr
  maxFee := (t.maxFee : ℕ)
  minFinalityThreshold := (t.minFinalityThreshold : ℕ)
  assetId := note.assetId
  label := note.label
  value := note.value
  nullifier := note.nullifier
  secret := note.secret
  stateSiblings := p.stateSiblings
  stateIndex := (p.stateIndex : ℕ)
  labelIndex := (p.labelIndex : ℕ)
  labelSiblings := p.labelSiblings
  nullifierHash := s.nullifierHash H note

/-- The signal words of a spend: the encoding of the public signals of its assignment. They
depend on the note only through its asset and its nullifier hash. -/
def SpendTerms.signals (t : SpendTerms) (H : Hash) (s : State) (note : Note) : List Word :=
  [Word.ofFr (s.nullifierHash H note), Word.ofFr (t.operationType : ℕ),
    Word.ofFr (t.withdrawnValue : ℕ), Word.ofFr t.recipientHash.toFr,
    Word.ofFr (t.relayerFee : ℕ), Word.ofFr (t.deadlineLedger : ℕ),
    Word.ofFr (treeRoot H 12 s.treeLeaves), Word.ofFr s.getAssociationRoot.toFr,
    Word.ofFr (s.poolId.toNat : ℕ), Word.ofFr (s.chainId.toNat : ℕ), Word.ofFr t.quoteHash.toFr,
    Word.ofFr t.intentHash.toFr, Word.ofFr t.fillReceiptHash.toFr,
    Word.ofFr (t.destinationDomain : ℕ), Word.ofFr t.destinationRecipient.toFr,
    Word.ofFr (t.maxFee : ℕ), Word.ofFr (t.minFinalityThreshold : ℕ), Word.ofFr note.assetId]

theorem SpendTerms.signals_eq (t : SpendTerms) (H : Hash) (s : State) (note : Note)
    (p : Position) :
  t.signals H s note = (t.assignment H s note p).publicSignals.map Word.ofFr
  := rfl

/-- The note stands in the pool: its commitment is a leaf, and its label is in the tree of the
association root. -/
structure Stands (H : Hash) (s : State) (note : Note) : Prop where
  leaf : ∃ leaf ∈ s.treeLeaves, leaf.toFr = note.commitment H
  root : s.getAssociationRoot.Canonical
  label : ∃ i < 4, ∃ siblings : List.Vector Fr 2,
    MerkleProof H siblings note.label ((i : ℕ) : Fr) s.getAssociationRoot.toFr

/-- The verifier accepts a proof for the words if the withdraw circuit has a witness for
them. -/
def Provable (host : Host) (verifier : Address) (signals : List Word) : Prop :=
  (∃ a, WithdrawWitness host.poseidon signals a) →
    ∃ proof, host.verify verifier proof (publicToBytes signals) = some true

/-- The siblings of the tree lead from a leaf of the pool to its root. -/
theorem exists_stateSiblings {H : Hash} {s : State} (hs : TreeInvariant H 12 s) {leaf : Word}
    (hleaf : leaf ∈ s.treeLeaves) :
  ∃ i, ∃ siblings : List.Vector Fr 12,
    MerkleProof H siblings leaf.toFr ((i : ℕ) : Fr) (treeRoot H 12 s.treeLeaves)
  := by
  obtain ⟨i, hi, rfl⟩ := List.mem_iff_getElem.mp hleaf
  have hlt : i < 2 ^ 12 := hi.trans_le hs.length_le
  obtain ⟨siblings, hsiblings⟩ : ∃ v : List.Vector Fr 12,
      v.toList = Merkle.siblings (hashPair H) (leafRow s.treeLeaves) 12 0 i :=
    ⟨⟨_, Merkle.length_siblings ..⟩, rfl⟩
  have hrow : leafRow s.treeLeaves i = (s.treeLeaves[i]).toFr := by
    rw [leafRow, List.getElem?_eq_getElem hi]
  use i, siblings
  rw [merkleProof_iff (by decide) hlt, ← hrow, climb_treeSiblings hlt hsiblings]

/-- A holder can open a note that stands in the pool: the circuit has an assignment that
spends up to the value of the note, if this value and the amounts are 128-bit numbers. -/
theorem SpendTerms.exists_satisfied {H : Hash} {s : State} {note : Note} (t : SpendTerms)
    (hs : TreeInvariant H 12 s) (hstands : Stands H s note) (hvalue : note.value.val < 2 ^ 128)
    (hle : t.withdrawnValue ≤ note.value.val) (hfee : t.relayerFee ≤ t.withdrawnValue) :
  ∃ p, Withdraw.Satisfied H (t.assignment H s note p)
  := by
  obtain ⟨leaf, hmem, hleaf⟩ := hstands.leaf
  obtain ⟨i, siblings, hstate⟩ := exists_stateSiblings hs hmem
  obtain ⟨j, -, labelSiblings, hlabel⟩ := hstands.label
  have hr : 2 ^ 128 < r := by decide
  have hwithdrawn : ((t.withdrawnValue : ℕ) : Fr).val = t.withdrawnValue := by
    rw [ZMod.val_natCast, Nat.mod_eq_of_lt (by omega)]
  have hrelayer : ((t.relayerFee : ℕ) : Fr).val = t.relayerFee := by
    rw [ZMod.val_natCast, Nat.mod_eq_of_lt (by omega)]
  use ⟨i, siblings, j, labelSiblings⟩
  constructor
  · rfl
  · rw [hleaf] at hstate
    apply hstate
  · apply hlabel
  · apply RangeCheck.of_val_lt
    change (note.value - (t.withdrawnValue : ℕ)).val < 2 ^ 128
    rw [ZMod.val_sub (by omega)]
    omega
  · apply RangeCheck.of_val_lt
    change ((t.withdrawnValue : ℕ) : Fr).val < 2 ^ 128
    omega
  · apply RangeCheck.of_val_lt
    change (((t.withdrawnValue : ℕ) : Fr) - (t.relayerFee : ℕ)).val < 2 ^ 128
    rw [ZMod.val_sub (by omega)]
    omega
  · apply RangeCheck.of_val_lt
    change ((t.relayerFee : ℕ) : Fr).val < 2 ^ 128
    omega

/-! ### What the pool checks of every spend -/

/-- The state of the world lets the holder of a note spend an amount of it by a deadline: the
pool runs this code and is not paused, the note stands in it and is not spent, and the deadline
is not over. -/
structure Ready (host : Host) (w : World) (note : Note) (t : SpendTerms) : Prop where
  running : w.pool.wasm = none
  unpaused : w.pool.paused = false
  stands : Stands host.poseidon w.pool note
  admitted : w.registry.Admits host.self (Word.ofFr (w.pool.nullifierHash host.poseidon note))
  value : note.value.val < 2 ^ 128
  positive : 0 < t.withdrawnValue
  withdrawn_le : t.withdrawnValue ≤ note.value.val
  withdrawn_lt : t.withdrawnValue < 2 ^ 127
  fee_le : t.relayerFee ≤ t.withdrawnValue
  deadline : w.sequence ≤ t.deadlineLedger
  deadline_lt : t.deadlineLedger < 2 ^ 127
  provable : Provable host w.pool.verifier (t.signals host.poseidon w.pool note)

variable {note : Note} {t : SpendTerms}

/-- The encoding of a spend is read back by the pool. -/
theorem SpendTerms.parse_signals (t : SpendTerms) (H : Hash) (s : State) (note : Note) :
  parsePublicSignals (publicToBytes (t.signals H s note)) = some (t.signals H s note)
  := by
  apply parsePublicSignals_publicToBytes
  simp [SpendTerms.signals]

/-- The current root of a pool with a leaf is known. -/
theorem isKnownRoot_treeRoot {H : Hash} {s : State} (hs : TreeInvariant H 12 s)
    (hne : s.treeLeaves ≠ []) :
  s.isKnownRoot (Word.ofFr (treeRoot H 12 s.treeLeaves)) = true
  := by
  rw [hs.known]
  right
  refine ⟨s.treeLeaves.length, List.length_pos_iff.mpr hne, le_rfl, ?_⟩
  rw [List.take_length]

/-- What all spends through the withdraw circuit are checked for, an honest spend passes. -/
theorem Ready.checked (h : Ready host w note t) (htree : TreeInvariant host.poseidon 12 w.pool)
    {op : ℤ} (hop : (t.operationType : ℤ) = op)
    (hlt : t.operationType < 2 ^ 127) :
  ∃ proof, SpendChecked host w proof (publicToBytes (t.signals host.poseidon w.pool note)) op
    (t.signals host.poseidon w.pool note)
  := by
  obtain ⟨p, hp⟩ := t.exists_satisfied htree h.stands h.value h.withdrawn_le h.fee_le
  have hencodes : Encodes (t.signals host.poseidon w.pool note)
      (t.assignment host.poseidon w.pool note p).publicSignals := by
    rw [t.signals_eq _ _ _ p]
    apply encodes_ofFr
  obtain ⟨proof, hproof⟩ := h.provable ⟨_, hp, hencodes⟩
  have hpool := w.pool.poolId.toNat_lt
  have hchain := w.pool.chainId.toNat_lt
  use proof
  constructor
  · apply t.parse_signals
  · rw [← hop]
    apply fr32ToI128_ofFr hlt
  · have hread : (fr32ToI128 (Word.ofFr (t.withdrawnValue : ℕ))).val = t.withdrawnValue :=
      fr32ToI128_ofFr h.withdrawn_lt
    have hpos := h.positive
    change 0 < (fr32ToI128 (Word.ofFr (t.withdrawnValue : ℕ))).val
    omega
  · have hread : (fr32ToI128 (Word.ofFr (t.deadlineLedger : ℕ))).val = t.deadlineLedger :=
      fr32ToI128_ofFr h.deadline_lt
    have hdeadline := h.deadline
    change (w.sequence : ℤ) ≤ (fr32ToI128 (Word.ofFr (t.deadlineLedger : ℕ))).val
    omega
  · refine ⟨by simp [SpendTerms.signals], ⟨?_, ?_⟩, ?_⟩
    · apply fr32ToI128_ofFr (by omega)
    · apply fr32ToI128_ofFr (by omega)
    · apply ofFr_toFr h.stands.root
  · obtain ⟨leaf, hmem, -⟩ := h.stands.leaf
    apply isKnownRoot_treeRoot htree (List.ne_nil_of_mem hmem)
  · apply hproof
  · apply h.admitted

/-! ### Withdrawals -/

/-- A withdrawal that passes its checks is carried out. -/
theorem Withdrawal.exec {args : WithdrawArgs} (x : Withdrawal host w args) {tx : Tx}
    (hpaused : w.pool.paused = false) (hauth : args.target ∈ tx.auth)
    (hlength : x.signals.length = 18) :
  (withdraw host tx args).run w = .ok ((), x.world)
  := by
  simp only [withdraw, requireNotPaused_bind_ok, requireAuth_bind_ok, parseSignals_bind_ok,
    signal_bind_ok, require_bind_ok, read_bind_ok, checkDomainCompliance_bind_ok,
    requireKnownRoot_bind_ok, requireProof_bind_ok, spendNullifier_bind_ok, checked_bind_ok,
    getAssetToken_bind_ok, release_bind_ok, adjustNoteSupply_bind_ok, write_ok]
  refine ⟨hpaused, hauth, x.signals, x.checked.parsed, by omega, by omega, by omega, by omega,
    by omega, by omega, by omega, by omega, x.checked.operation,
    ⟨x.checked.positive, x.fee_nonneg, x.fee_le⟩, x.checked.deadline, x.recipient,
    x.checked.complies, x.checked.known, x.checked.verified, x.checked.admitted, x.net, x.net_eq,
    x.token, x.token_eq, x.canPay, x.token, x.token_eq, x.next, ?_, x.next_nonneg, x.next_le, rfl⟩
  rw [x.next_eq]
  rfl

/-- The terms of a withdrawal of an amount to a recipient. -/
def SpendTerms.withdrawal (host : Host) (target : Address) (amount fee deadline : ℕ) :
    SpendTerms where
  operationType := 1
  withdrawnValue := amount
  relayerFee := fee
  deadlineLedger := deadline
  recipientHash := Shade.recipientHash host target
  quoteHash := 0
  intentHash := 0
  fillReceiptHash := 0
  destinationDomain := 0
  destinationRecipient := 0
  maxFee := 0
  minFinalityThreshold := 0

/-- A pool that is ready for a withdrawal whose asset is backed carries it out. -/
theorem Ready.exists_withdrawal {target token : Address} {amount fee deadline : ℕ}
    (h : Ready host w note (.withdrawal host target amount fee deadline))
    (htree : TreeInvariant host.poseidon 12 w.pool)
    (htoken : w.pool.assetToken.get (Word.ofFr note.assetId) = some token)
    (hsupply : (amount : ℤ) ≤ w.pool.supply (Word.ofFr note.assetId))
    (hbacked : w.pool.supply (Word.ofFr note.assetId) ≤ w.vault host token)
    (hroom : w.tokens.balance token target + (amount - fee) ≤ Token.maxBalance) :
  ∃ (args : WithdrawArgs) (x : Withdrawal host w args), args.target = target
    ∧ x.token = token ∧ x.net.val = amount - fee
    ∧ x.signals = (SpendTerms.withdrawal host target amount fee deadline).signals host.poseidon
        w.pool note
  := by
  have hamount := h.withdrawn_lt
  have hfee := h.fee_le
  simp only [SpendTerms.withdrawal] at hamount hfee
  have hop : ((SpendTerms.withdrawal host target amount fee deadline).operationType : ℤ)
      = opWithdrawPublic := rfl
  obtain ⟨proof, hchecked⟩ := h.checked htree hop
    (by simp [SpendTerms.withdrawal])
  have hvalue : (fr32ToI128 (Word.ofFr (amount : ℕ))).val = amount := fr32ToI128_ofFr hamount
  have hrelayer : (fr32ToI128 (Word.ofFr (fee : ℕ))).val = fee := fr32ToI128_ofFr (by omega)
  let net : I128 := ⟨amount - fee, by omega, by omega⟩
  have hsum : w.pool.supply (Word.ofFr note.assetId) < 2 ^ 127 := by
    rw [State.supply]
    split
    · next x hx => exact x.lt
    · decide
  let next : I128 := ⟨w.pool.supply (Word.ofFr note.assetId) - amount, by omega, by omega⟩
  have hpay : w.tokens.CanPay token host.self target net := by
    refine ⟨by simp only [net]; omega, ?_, ?_⟩
    · simp only [World.vault] at hbacked
      simp only [net]
      omega
    · simp only [net]
      omega
  have hvault := vault_le_pay hpay token
  refine ⟨⟨target, proof, _⟩, ⟨_, hchecked, ?_, ?_, ?_, token, htoken, net, ?_, hpay, next, ?_, ?_,
    ?_⟩, rfl, rfl, rfl, rfl⟩
  · apply ofFr_toFr (canonical_recipientHash host target)
  · change 0 ≤ (fr32ToI128 (Word.ofFr (fee : ℕ))).val
    omega
  · change (fr32ToI128 (Word.ofFr (fee : ℕ))).val ≤ (fr32ToI128 (Word.ofFr (amount : ℕ))).val
    omega
  · change net.val = (fr32ToI128 (Word.ofFr (amount : ℕ))).val
      - (fr32ToI128 (Word.ofFr (fee : ℕ))).val
    rw [hvalue, hrelayer]
  · change next.val = w.pool.supply (Word.ofFr note.assetId)
      - (fr32ToI128 (Word.ofFr (amount : ℕ))).val
    rw [hvalue]
  · simp only [next]
    omega
  · have hnet : net.val = amount - fee := rfl
    simp only [next]
    split at hvault
    · omega
    · omega

/-- The tree invariant holds in every state that a run from a constructor call reaches, and the
counter is the number of leaves. -/
theorem treeInvariant_run (host : Host) {s : State} {registry : NullifierRegistry.State}
    {tokens : Token.Ledger} {sequence : ℕ} {depth : ℕ} (hdepth : depth ≤ 31)
    (hs : TreeInvariant host.poseidon depth s) (hcount : s.leafCount = s.treeLeaves.length)
    (actions : List Action) {w : World}
    (hw : w = run host (World.init s registry tokens sequence) actions) :
  w.pool.leafCount = w.pool.treeLeaves.length ∧ TreeInvariant host.poseidon depth w.pool
  := by
  rw [hw]
  apply Machine.invariant_run_of_step (I := fun w : World =>
    w.pool.leafCount = w.pool.treeLeaves.length ∧ TreeInvariant host.poseidon depth w.pool)
  · intro w a w' hw h
    apply step_tree hdepth h hw
  · exact ⟨hcount, hs⟩

/-- No note is stuck. In every state that a run from a constructor call reaches, the holder of
a note that stands in the pool can withdraw any part of its value to any recipient: if the pool
runs and is not paused, the nullifier of the note is not spent, its asset is registered, and
the note supply covers the amount and is covered by the pool's balance, then there is a call of
`withdraw` that the pool accepts. It pays the amount less the fee, spends the nullifier and
takes the amount off the supply. -/
theorem withdrawable (host : Host) (admin usdcSac verifier nullifierRegistry : Address)
    (poolId chainId : UInt32) (registry : NullifierRegistry.State) (tokens : Token.Ledger)
    (sequence : ℕ) (actions : List Action) {w : World}
    (hw : w = run host (World.init (State.constructor admin usdcSac verifier nullifierRegistry 12
      poolId chainId) registry tokens sequence) actions)
    {note : Note} {target token : Address} {amount fee deadline : ℕ}
    (hready : Ready host w note (.withdrawal host target amount fee deadline))
    (htoken : w.pool.assetToken.get (Word.ofFr note.assetId) = some token)
    (hsupply : (amount : ℤ) ≤ w.pool.supply (Word.ofFr note.assetId))
    (hbacked : w.pool.supply (Word.ofFr note.assetId) ≤ w.vault host token)
    (hroom : w.tokens.balance token target + (amount - fee) ≤ Token.maxBalance)
    (htarget : target ≠ host.self) :
  ∃ args w', args.target = target
    ∧ step host (.call ⟨[target], none⟩ (.withdraw args)) w = some w'
    ∧ w'.tokens.balance token target = w.tokens.balance token target + (amount - fee)
    ∧ w'.registry.isSpent (Word.ofFr (w.pool.nullifierHash host.poseidon note)) = true
    ∧ w'.pool.supply (Word.ofFr note.assetId)
        = w.pool.supply (Word.ofFr note.assetId) - amount
  := by
  have htree : TreeInvariant host.poseidon 12 w.pool :=
    (treeInvariant_run host (by decide) (treeInvariant_constructor ..) rfl actions hw).2
  obtain ⟨args, x, rfl, rfl, hnet, hsignals⟩ :=
    hready.exists_withdrawal htree htoken hsupply hbacked hroom
  have hlength : x.signals.length = 18 := by
    rw [hsignals]
    rfl
  have hexec : (withdraw host ⟨[args.target], none⟩ args).run w = .ok ((), x.world) :=
    x.exec hready.unpaused (by simp) hlength
  have hfee : fee ≤ amount := hready.fee_le
  refine ⟨args, x.world, rfl, ?_, ?_, ?_, ?_⟩
  · rw [step, if_pos hready.running]
    apply attempt_eq_some.mpr ⟨(), hexec⟩
  · have hcovered : x.net.val.toNat ≤ w.tokens.balance x.token host.self := by
      have hpay := x.canPay.2.1
      omega
    have hmove := Token.Ledger.balance_move hcovered args.target x.token args.target
    change (w.tokens.move x.token host.self args.target x.net.val.toNat).balance x.token args.target
      = _
    rw [if_neg (fun h => htarget h.2.symm), if_pos ⟨rfl, rfl⟩] at hmove
    omega
  · change NullifierRegistry.State.isSpent
      { w.registry with spent := w.registry.spent.set (x.signals.getD 0 0) true }
      _ = true
    rw [NullifierRegistry.isSpent_set, hsignals]
    simp [SpendTerms.signals]
  · have hset : x.world.pool.noteSupply
        = w.pool.noteSupply.set (Word.ofFr note.assetId) x.next := by
      have hasset : x.signals.getD 17 0 = Word.ofFr note.assetId := by
        rw [hsignals]
        rfl
      rw [← hasset]
      rfl
    have hvalue : (fr32ToI128 (Word.ofFr (amount : ℕ))).val = amount :=
      fr32ToI128_ofFr hready.withdrawn_lt
    rw [State.supply_set hset, if_pos rfl, x.next_eq, hsignals]
    change w.pool.supply (Word.ofFr note.assetId) - (fr32ToI128 (Word.ofFr (amount : ℕ))).val = _
    rw [hvalue]

namespace Deployment

/-- The host that accepts the withdrawal of 400 units of the note to its owner. -/
def withdrawHost : Host := Deployment.host (noteVectors [firstSpend]) []

/-- The world after the deposit of the note, under that host. -/
def beforeWithdrawal : World := run withdrawHost (genesis usdc) (setup ++ [depositNote])

theorem beforeWithdrawal_facts :
  beforeWithdrawal.pool.wasm = none ∧ beforeWithdrawal.pool.paused = false
    ∧ beforeWithdrawal.pool.treeLeaves = [commitment]
    ∧ beforeWithdrawal.pool.treeRoot = stateRoot
    ∧ beforeWithdrawal.pool.getAssociationRoot = associationRoot
    ∧ beforeWithdrawal.pool.poolId = 1 ∧ beforeWithdrawal.pool.chainId = 27
    ∧ beforeWithdrawal.pool.verifier = withdrawVerifier
    ∧ beforeWithdrawal.registry.paused = false
    ∧ (beforeWithdrawal.registry.authorized.get pool).getD false = true
    ∧ beforeWithdrawal.registry.isSpent nullifierHash = false
    ∧ beforeWithdrawal.sequence ≤ 1000
    ∧ beforeWithdrawal.pool.assetToken.get usdcId = some usdc
    ∧ beforeWithdrawal.pool.supply usdcId = 1000
    ∧ beforeWithdrawal.vault withdrawHost usdc = 1000
    ∧ beforeWithdrawal.tokens.balance usdc alice = 0
    ∧ recipientHash withdrawHost alice
      = 0x5f0aba220bd9cf7af718118f268778f5589084de0976949e17d00bdfd84c2d
    ∧ withdrawHost.verify withdrawVerifier proof (encode firstSpend.publicSignals) = some true
  := by
  decide +kernel

/-- The deposited note can be withdrawn in part. -/
theorem withdrawable_note :
  ∃ args w', args.target = alice
    ∧ step withdrawHost (.call ⟨[alice], none⟩ (.withdraw args)) beforeWithdrawal = some w'
    ∧ w'.tokens.balance usdc alice = 400
  := by
  obtain ⟨hrunning, hunpaused, hleaves, hroot, hassoc, hpoolId, hchainId, hverifier, hreg, hauth,
    hfresh, hseq, htoken, hsupply, hvault, halice, hrecipient, hverify⟩ := beforeWithdrawal_facts
  have hw : beforeWithdrawal = run withdrawHost (World.init (State.constructor admin usdc
      withdrawVerifier nullifierRegistry 12 1 27) (genesis usdc).registry (genesis usdc).tokens 100)
      (setup ++ [depositNote]) := rfl
  have htree : TreeInvariant poseidon255 12 beforeWithdrawal.pool :=
    (treeInvariant_run withdrawHost (by decide) (treeInvariant_constructor ..) rfl _ hw).2
  have hstateRoot : treeRoot poseidon255 12 beforeWithdrawal.pool.treeLeaves = stateRoot.toFr := by
    have heq := htree.root_eq (by rw [hleaves]; simp)
    rw [← hroot, heq, Word.toFr_ofFr]
  have hnullifier : beforeWithdrawal.pool.nullifierHash poseidon255 note = nullifierHash.toFr := by
    rw [nullifierHash_eq, State.nullifierHash, hpoolId, hchainId]
    rfl
  have hword : Word.ofFr nullifierHash.toFr = nullifierHash := ofFr_toFr (by decide)
  have hasset : Word.ofFr note.assetId = usdcId := ofFr_toFr (by decide)
  have hsignals : (SpendTerms.withdrawal withdrawHost alice 400 0 1000).signals poseidon255
      beforeWithdrawal.pool note = firstSpend.publicSignals.map Word.ofFr := by
    simp only [SpendTerms.signals, SpendTerms.withdrawal, hnullifier, hstateRoot, hassoc, hpoolId,
      hchainId, hrecipient]
    rfl
  have hready : Ready withdrawHost beforeWithdrawal note
      (.withdrawal withdrawHost alice 400 0 1000) := by
    constructor
    · exact hrunning
    · exact hunpaused
    · constructor
      · use commitment
        rw [hleaves]
        exact ⟨by simp, commitment_eq.symm⟩
      · rw [hassoc]
        decide
      · refine ⟨0, by decide, List.Vector.replicate 2 0, ?_⟩
        rw [hassoc]
        apply MerkleProof.of_climb 0 (by decide)
        apply associationRoot_eq.symm
    · change beforeWithdrawal.registry.Admits pool
        (Word.ofFr (beforeWithdrawal.pool.nullifierHash poseidon255 note))
      rw [hnullifier, hword]
      exact ⟨hreg, hauth, hfresh⟩
    · decide
    · decide
    · decide
    · decide
    · decide
    · exact hseq
    · decide
    · rintro -
      use proof
      change withdrawHost.verify beforeWithdrawal.pool.verifier proof (publicToBytes
        ((SpendTerms.withdrawal withdrawHost alice 400 0 1000).signals poseidon255
          beforeWithdrawal.pool note)) = some true
      rw [hverifier, hsignals]
      exact hverify
  obtain ⟨args, w', htarget, hstep, hbalance, -⟩ := withdrawable withdrawHost admin usdc
    withdrawVerifier nullifierRegistry 1 27 (genesis usdc).registry (genesis usdc).tokens 100
    (setup ++ [depositNote]) hw hready (by rw [hasset]; exact htoken)
    (by rw [hasset, hsupply]; decide) (by rw [hasset, hsupply, hvault]; decide)
    (by rw [halice]; decide) (by decide)
  rw [halice] at hbalance
  exact ⟨args, w', htarget, hstep, hbalance⟩

end Deployment

end Shade.Pool
