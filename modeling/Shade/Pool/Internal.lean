import Shade.Pool.State

/-!
# The parts of the pool's entry points

The checks and changes that the entry points of the pool are put together from, each with
what it means that it returned.
-/

namespace Shade.Pool

open Txn

variable (host : Host) (tx : Tx)

/-- A checked result of 128-bit arithmetic. -/
def checked (z : ℤ) : Exec I128 := unwrap (I128.check z) (.fault .overflow)

/-- Abort unless an address authorizes the transaction. -/
def requireAuth (a : Address) : Exec Unit := require (a ∈ tx.auth) (.fault .auth)

def requireAdmin : Exec Unit := do
  requireAuth tx (← read (·.pool.admin))

def requireNotPaused : Exec Unit := do
  require ((← read (·.pool.paused)) = false) (panicErr .paused)

/-- The public signals a byte string encodes; aborts if it is too short. -/
def parseSignals (bytes : Bytes) : Exec (List Word) :=
  unwrap (parsePublicSignals bytes) (.fault .outOfRange)

/-- The signal at an index; aborts if there are fewer. -/
def signal (signals : List Word) (i : ℕ) : Exec Word := unwrap signals[i]? (.fault .unwrap)

/-- Abort unless a root is known. -/
def requireKnownRoot (root : Word) : Exec Unit := do
  require ((← read (·.pool.isKnownRoot root)) = true) (panicErr .unknownRoot)

/-- Ask a verifier contract about a proof, and abort with the given error unless it
accepts. -/
def requireProof (verifier : Address) (proof signals : Bytes) (e : Error) : Exec Unit := do
  let ok ← unwrap (host.verify verifier proof signals) (.fault .callee)
  require (ok = true) (panicErr e)

/-- Spend a nullifier in the registry, in the name of the pool. -/
def spendNullifier (nullifier : Word) : Exec Unit := do
  let _ ← zoom World.registry (fun r w => { w with registry := r })
    (NullifierRegistry.spend (fun a => a = host.self ∨ a ∈ tx.auth) host.self nullifier)

/-- The token of an asset. -/
def getAssetToken (assetId : Word) : Exec Address := do
  unwrap ((← read (·.pool.assetToken)).get assetId) (panicErr .unknownAsset)

/-- Pay an amount out of the pool if its balance covers it. -/
def release (token target : Address) (amount : I128) : Exec Unit := do
  require (amount.val ≤ (← read (·.vault host token))) (panicErr .insufficientBalance)
  zoom World.tokens (fun l w => { w with tokens := l })
    (Token.transfer token host.self target amount)
  write (·.record (.transfer token target amount))

/-- Change the note supply of a registered asset, keeping it between zero and the pool's
balance of the asset's token. -/
def adjustNoteSupply (assetId : Word) (delta : ℤ) : Exec Unit := do
  let token ← getAssetToken assetId
  let cur ← read (·.pool.supply assetId)
  let next ← checked (cur + delta)
  require (0 ≤ next.val) (panicErr .supplyUnderflow)
  require (next.val ≤ (← read (·.vault host token))) (panicErr .reserveBroken)
  write (·.setSupply assetId next)

/-- Count the next `n` leaves and return the index of the first. -/
def countLeaves (n : ℕ) : Exec ℕ := do
  let leafIndex ← read (·.pool.leafCount)
  require (leafIndex + n < 2 ^ 32) (.fault .overflow)
  write (·.mapPool fun s => { s with leafCount := leafIndex + n })
  pure leafIndex

/-- The root of the tree of some leaves and one more, or the error that the tree is
full. -/
def appendRoot (H : Hash) (depth : ℕ) (leaves : List Word) (commitment : Word) :
    Except String Word := do
  let tree ← LeanIMT.insertAll H (LeanIMT.new H depth) leaves
  let tree ← LeanIMT.insert H tree commitment
  pure tree.root

/-- Append a commitment to the tree of the pool and return the new root. -/
def appendLeaf (commitment : Word) : Exec Word := do
  let depth ← read (·.pool.treeDepth)
  let leaves ← read (·.pool.treeLeaves)
  let root ← unwrap (appendRoot host.poseidon depth leaves commitment).toOption
    (panicErr .treeFull)
  write (·.appendLeaf commitment root)
  pure root

/-- Abort unless the domain words of a proof are those of the pool. -/
def requireDomain (poolIn chainIn : Word) : Exec Unit := do
  let poolId ← read (·.pool.poolId)
  let chainId ← read (·.pool.chainId)
  require ((fr32ToI128 poolIn).val = poolId.toNat ∧ (fr32ToI128 chainIn).val = chainId.toNat)
    (panicErr .wrongDomain)

/-- The domain and association checks of the withdraw family. -/
def checkDomainCompliance (signals : List Word) : Exec Unit := do
  let assocIn ← signal signals 7
  let poolIn ← signal signals 8
  let chainIn ← signal signals 9
  requireDomain poolIn chainIn
  require (assocIn = (← read (·.pool.getAssociationRoot))) (panicErr .wrongAssociation)

/-- The loop over the signers: each is a committee member not seen before, and its
signature verifies. Returns the number of signers verified. -/
def verifySigners (committee : List Word) (msg : Bytes) :
    List Word → List Signature → List Word → ℕ → Exec ℕ
  | [], _, _, verified => pure verified
  | pk :: pks, signatures, seen, verified => do
      require (pk ∈ committee) (panicErr .mpcUnknownSigner)
      require (pk ∉ seen) (panicErr .mpcDuplicateSigner)
      let sig ← unwrap signatures.head? (.fault .unwrap)
      require (host.ed25519Verify pk msg sig = true) (.fault .signature)
      verifySigners committee msg pks signatures.tail (seen ++ [pk]) (verified + 1)

/-- The number of signatures a committee of a given size has to give. -/
def threshold (n : ℕ) : ℕ := (n * 2 + 2) / 3

/-- Abort unless enough members of the committee signed a batch hash. -/
def verifyCommitteeThreshold (batchHash : Word) (signerPubkeys : List Word)
    (signatures : List Signature) : Exec Unit := do
  let committee ← unwrap (← read (·.pool.mpcCmte)) (panicErr .notInitialized)
  require (committee.length ≠ 0) (panicErr .notInitialized)
  require (threshold committee.length ≤ signerPubkeys.length
    ∧ threshold committee.length ≤ signatures.length) (panicErr .mpcThreshold)
  let verified ← verifySigners host committee batchHash.toBytes signerPubkeys signatures [] 0
  require (threshold committee.length ≤ verified) (panicErr .mpcThreshold)

/-! ### What it means that a part returned -/

section Returned

variable {host : Host} {tx : Tx} {β : Type} {w w' : World} {b : β}

theorem requireAuth_bind_ok {a : Address} {f : Unit → Exec β} :
  (requireAuth tx a >>= f).run w = .ok (b, w') ↔ a ∈ tx.auth ∧ (f ()).run w = .ok (b, w')
  := require_bind_ok

theorem requireAdmin_bind_ok {f : Unit → Exec β} :
  (requireAdmin tx >>= f).run w = .ok (b, w')
    ↔ w.pool.admin ∈ tx.auth ∧ (f ()).run w = .ok (b, w')
  := by
  simp only [requireAdmin, bind_assoc, read_bind_ok, requireAuth_bind_ok]

theorem requireNotPaused_bind_ok {f : Unit → Exec β} :
  (requireNotPaused >>= f).run w = .ok (b, w')
    ↔ w.pool.paused = false ∧ (f ()).run w = .ok (b, w')
  := by
  simp only [requireNotPaused, bind_assoc, read_bind_ok, require_bind_ok]

theorem checked_bind_ok {z : ℤ} {f : I128 → Exec β} :
  (checked z >>= f).run w = .ok (b, w') ↔ ∃ x : I128, x.val = z ∧ (f x).run w = .ok (b, w')
  := by
  simp only [checked, unwrap_bind_ok, I128.check_eq_some]

theorem parseSignals_bind_ok {bytes : Bytes} {f : List Word → Exec β} :
  (parseSignals bytes >>= f).run w = .ok (b, w')
    ↔ ∃ signals, parsePublicSignals bytes = some signals ∧ (f signals).run w = .ok (b, w')
  := unwrap_bind_ok

theorem signal_bind_ok {signals : List Word} {i : ℕ} {f : Word → Exec β} :
  (signal signals i >>= f).run w = .ok (b, w')
    ↔ i < signals.length ∧ (f (signals.getD i 0)).run w = .ok (b, w')
  := by
  rw [signal, unwrap_bind_ok]
  constructor
  · rintro ⟨x, hx, hf⟩
    obtain ⟨hi, rfl⟩ := List.getElem?_eq_some_iff.mp hx
    use hi
    rwa [List.getD_eq_getElem _ _ hi]
  · rintro ⟨hi, hf⟩
    rw [List.getD_eq_getElem _ _ hi] at hf
    exact ⟨_, List.getElem?_eq_getElem hi, hf⟩

theorem requireKnownRoot_bind_ok {root : Word} {f : Unit → Exec β} :
  (requireKnownRoot root >>= f).run w = .ok (b, w')
    ↔ w.pool.isKnownRoot root = true ∧ (f ()).run w = .ok (b, w')
  := by
  simp only [requireKnownRoot, bind_assoc, read_bind_ok, require_bind_ok]

theorem requireProof_bind_ok {verifier : Address} {proof signals : Bytes} {e : Error}
    {f : Unit → Exec β} :
  (requireProof host verifier proof signals e >>= f).run w = .ok (b, w')
    ↔ host.verify verifier proof signals = some true ∧ (f ()).run w = .ok (b, w')
  := by
  simp only [requireProof, bind_assoc, unwrap_bind_ok, require_bind_ok]
  constructor
  · rintro ⟨ok, hok, rfl, hf⟩
    use hok, hf
  · rintro ⟨hok, hf⟩
    use true, hok, rfl, hf

/-- A spend through the pool records the nullifier, which the registry admitted. -/
theorem spendNullifier_bind_ok {nullifier : Word} {f : Unit → Exec β} :
  (spendNullifier host tx nullifier >>= f).run w = .ok (b, w')
    ↔ w.registry.Admits host.self nullifier ∧ (f ()).run (w.spend nullifier) = .ok (b, w')
  := by
  simp only [spendNullifier, bind_assoc, bind_ok, zoom_ok, NullifierRegistry.spend_ok, pure_ok]
  constructor
  · rintro ⟨_, _, ⟨_, ⟨-, hadmits, -, rfl⟩, rfl⟩, _, _, ⟨-, rfl⟩, hf⟩
    use hadmits, hf
  · rintro ⟨hadmits, hf⟩
    exact ⟨true, _, ⟨_, ⟨Or.inl trivial, hadmits, rfl, rfl⟩, rfl⟩, (), _, ⟨trivial, rfl⟩, hf⟩

theorem getAssetToken_bind_ok {assetId : Word} {f : Address → Exec β} :
  (getAssetToken assetId >>= f).run w = .ok (b, w')
    ↔ ∃ token, w.pool.assetToken.get assetId = some token ∧ (f token).run w = .ok (b, w')
  := by
  simp only [getAssetToken, bind_assoc, read_bind_ok, unwrap_bind_ok]

theorem release_bind_ok {token target : Address} {amount : I128} {f : Unit → Exec β} :
  (release host token target amount >>= f).run w = .ok (b, w')
    ↔ w.tokens.CanPay token host.self target amount
      ∧ (f ()).run (w.pay host token target amount) = .ok (b, w')
  := by
  simp only [release, bind_assoc, read_bind_ok, require_bind_ok]
  rw [bind_ok]
  simp only [zoom_ok, Token.transfer_ok, write_bind_ok]
  constructor
  · rintro ⟨-, _, _, ⟨_, ⟨hpay, rfl⟩, rfl⟩, hf⟩
    use hpay, hf
  · rintro ⟨hpay, hf⟩
    exact ⟨hpay.2.1, (), _, ⟨_, ⟨hpay, rfl⟩, rfl⟩, hf⟩

/-- A change of the note supply leads to a supply within the reserves of the asset. -/
theorem adjustNoteSupply_bind_ok {assetId : Word} {delta : ℤ} {f : Unit → Exec β} :
  (adjustNoteSupply host assetId delta >>= f).run w = .ok (b, w')
    ↔ ∃ token, w.pool.assetToken.get assetId = some token
      ∧ ∃ next : I128, next.val = w.pool.supply assetId + delta
        ∧ 0 ≤ next.val ∧ next.val ≤ w.vault host token
        ∧ (f ()).run (w.setSupply assetId next) = .ok (b, w')
  := by
  simp only [adjustNoteSupply, bind_assoc, getAssetToken_bind_ok, read_bind_ok,
    checked_bind_ok, require_bind_ok, write_bind_ok]

theorem countLeaves_bind_ok {n : ℕ} {f : ℕ → Exec β} :
  (countLeaves n >>= f).run w = .ok (b, w')
    ↔ w.pool.leafCount + n < 2 ^ 32
      ∧ (f w.pool.leafCount).run
          (w.mapPool fun s => { s with leafCount := w.pool.leafCount + n }) = .ok (b, w')
  := by
  simp only [countLeaves, bind_assoc, read_bind_ok, require_bind_ok, write_bind_ok, pure_bind]

theorem appendLeaf_bind_ok {commitment : Word} {f : Word → Exec β} :
  (appendLeaf host commitment >>= f).run w = .ok (b, w')
    ↔ ∃ root, appendRoot host.poseidon w.pool.treeDepth w.pool.treeLeaves commitment = .ok root
      ∧ (f root).run (w.appendLeaf commitment root) = .ok (b, w')
  := by
  simp only [appendLeaf, bind_assoc, read_bind_ok, unwrap_bind_ok, write_bind_ok, pure_bind]
  cases appendRoot host.poseidon w.pool.treeDepth w.pool.treeLeaves commitment with
  | error e => simp [Except.toOption]
  | ok root => simp [Except.toOption]

/-- The domain words of a proof are read as those of the pool. -/
def State.MatchesDomain (s : State) (poolIn chainIn : Word) : Prop :=
  (fr32ToI128 poolIn).val = s.poolId.toNat ∧ (fr32ToI128 chainIn).val = s.chainId.toNat

theorem requireDomain_bind_ok {poolIn chainIn : Word} {f : Unit → Exec β} :
  (requireDomain poolIn chainIn >>= f).run w = .ok (b, w')
    ↔ w.pool.MatchesDomain poolIn chainIn ∧ (f ()).run w = .ok (b, w')
  := by
  simp only [requireDomain, bind_assoc, read_bind_ok, require_bind_ok, State.MatchesDomain]

/-- The signals of the withdraw family carry the domain and the association root of the
pool. -/
def State.Complies (s : State) (signals : List Word) : Prop :=
  9 < signals.length ∧ s.MatchesDomain (signals.getD 8 0) (signals.getD 9 0)
    ∧ signals.getD 7 0 = s.getAssociationRoot

theorem checkDomainCompliance_bind_ok {signals : List Word} {f : Unit → Exec β} :
  (checkDomainCompliance signals >>= f).run w = .ok (b, w')
    ↔ w.pool.Complies signals ∧ (f ()).run w = .ok (b, w')
  := by
  simp only [checkDomainCompliance, bind_assoc, signal_bind_ok, requireDomain_bind_ok,
    read_bind_ok, require_bind_ok, State.Complies]
  constructor
  · rintro ⟨-, -, hlen, hdomain, hassoc, hf⟩
    use ⟨hlen, hdomain, hassoc⟩, hf
  · rintro ⟨⟨hlen, hdomain, hassoc⟩, hf⟩
    use by omega, by omega, hlen, hdomain, hassoc, hf

/-- The signers are different members of the committee and their signatures on the message
verify. -/
def Signed (host : Host) (committee : List Word) (msg : Bytes) (signers : List Word)
    (signatures : List Signature) : Prop :=
  signers.Nodup ∧ (∀ pk ∈ signers, pk ∈ committee) ∧ signers.length ≤ signatures.length
    ∧ ∀ p ∈ signers.zip signatures, host.ed25519Verify p.1 msg p.2 = true

theorem verifySigners_ok {committee : List Word} {msg : Bytes} {signers : List Word}
    {signatures : List Signature} {seen : List Word} {v n : ℕ} :
  (verifySigners host committee msg signers signatures seen v).run w = .ok (n, w')
    ↔ Signed host committee msg signers signatures ∧ (∀ pk ∈ signers, pk ∉ seen)
      ∧ n = v + signers.length ∧ w' = w
  := by
  induction signers generalizing signatures seen v with
  | nil =>
      simp only [verifySigners, pure_ok, Signed, List.length_nil]
      constructor
      · rintro ⟨rfl, rfl⟩
        simp
      · rintro ⟨-, -, rfl, rfl⟩
        simp
  | cons pk pks ih =>
      simp only [verifySigners, require_bind_ok, unwrap_bind_ok]
      cases signatures with
      | nil => simp [Signed]
      | cons sig sigs =>
          simp only [List.head?_cons, List.tail_cons, Option.some.injEq, exists_eq_left', ih,
            Signed, List.nodup_cons, List.mem_cons, List.length_cons, List.zip_cons_cons,
            List.mem_append, List.mem_nil_iff, or_false, forall_eq_or_imp]
          grind

/-- Enough members of the committee in force signed a message. -/
def State.Endorsed (s : State) (host : Host) (msg : Bytes) (signers : List Word)
    (signatures : List Signature) : Prop :=
  ∃ committee, s.mpcCmte = some committee ∧ committee ≠ []
    ∧ threshold committee.length ≤ signers.length
    ∧ Signed host committee msg signers signatures

theorem verifyCommitteeThreshold_bind_ok {batchHash : Word} {signers : List Word}
    {signatures : List Signature} {f : Unit → Exec β} :
  (verifyCommitteeThreshold host batchHash signers signatures >>= f).run w = .ok (b, w')
    ↔ w.pool.Endorsed host batchHash.toBytes signers signatures ∧ (f ()).run w = .ok (b, w')
  := by
  simp only [verifyCommitteeThreshold, bind_assoc, read_bind_ok, unwrap_bind_ok,
    require_bind_ok]
  simp only [bind_ok (x := verifySigners _ _ _ _ _ _ _), verifySigners_ok, require_bind_ok,
    State.Endorsed]
  constructor
  · rintro ⟨committee, hcommittee, hne, ⟨hlen, -⟩, n, _, ⟨hsigned, -, -, rfl⟩, -, hf⟩
    refine ⟨⟨committee, hcommittee, ?_, hlen, hsigned⟩, hf⟩
    rintro rfl
    apply hne rfl
  · rintro ⟨⟨committee, hcommittee, hne, hlen, hsigned⟩, hf⟩
    have hsigs := hsigned.2.2.1
    refine ⟨committee, hcommittee, ?_, ⟨hlen, by omega⟩, _, w, ⟨hsigned, by simp, rfl, rfl⟩,
      by omega, hf⟩
    simpa using hne

end Returned

end Shade.Pool
