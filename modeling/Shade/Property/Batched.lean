import Shade.Property.Committee
import Shade.Property.PricedSettleable

/-!
# Batches that are settled as they were signed

The pool does not relate a batch to the amounts and the notes of its settlements, and does not
record that a match was settled. Those who submit the settlements have to: `settlements_le_matches`
says that a batch is settled at most once for each of its matches, and for their amounts, if all
settlements that are submitted for it were built for its matches, those for one match from the same
first coin. They may be submitted any number of times.
-/

namespace Shade.Proving

open Text Solver

/-! ### What the inputs of a settlement fix -/

/-- The first nullifier of the settlements that spend a coin. -/
def firstNullifier (H : Hash) (poolId chainId : Text) (coin : GeneratedCoin) : Option Word := do
  let nullifier ← readSignal coin.opening.nullifier
  let pool ← readSignal poolId
  let chain ← readSignal chainId
  return Word.ofFr (nullifierHashOf H nullifier pool chain)

variable {H : Hash}

theorem MpcSettlementInput.assignment_reads {i : MpcSettlementInput}
    {a : MpcSettlement.Assignment 12 2} (h : i.assignment H = some a) :
  readSignal i.poolId = some a.poolId ∧ readSignal i.chainId = some a.chainId
    ∧ readSignal i.coinA.nullifier = some a.nullifierA
    ∧ readSignal i.matchedAmount7dp = some a.matchedAmount7dp
    ∧ a.nullifierHashA = nullifierHashOf H a.nullifierA a.poolId a.chainId
  := by
  rw [MpcSettlementInput.assignment] at h
  iterate 3 obtain ⟨_, -, h⟩ := Option.bind_eq_some_iff.mp h
  obtain ⟨_, hpool, h⟩ := Option.bind_eq_some_iff.mp h
  obtain ⟨_, hchain, h⟩ := Option.bind_eq_some_iff.mp h
  obtain ⟨_, hmatched, h⟩ := Option.bind_eq_some_iff.mp h
  iterate 4 obtain ⟨_, -, h⟩ := Option.bind_eq_some_iff.mp h
  obtain ⟨_, hnullifier, h⟩ := Option.bind_eq_some_iff.mp h
  iterate 21 obtain ⟨_, -, h⟩ := Option.bind_eq_some_iff.mp h
  obtain rfl := Option.some.inj h
  exact ⟨hpool, hchain, hnullifier, hmatched, rfl⟩

theorem MpcPricedInput.assignment_reads {i : MpcPricedInput}
    {a : MpcPricedSettlement.Assignment 12 2} (h : i.assignment H = some a) :
  readSignal i.poolId = some a.poolId ∧ readSignal i.chainId = some a.chainId
    ∧ readSignal i.coinA.nullifier = some a.nullifierA
    ∧ readSignal i.matchedAmountA = some a.matchedAmountA
    ∧ readSignal i.matchedAmountB = some a.matchedAmountB
    ∧ a.nullifierHashA = nullifierHashOf H a.nullifierA a.poolId a.chainId
  := by
  rw [MpcPricedInput.assignment] at h
  iterate 3 obtain ⟨_, -, h⟩ := Option.bind_eq_some_iff.mp h
  obtain ⟨_, hpool, h⟩ := Option.bind_eq_some_iff.mp h
  obtain ⟨_, hchain, h⟩ := Option.bind_eq_some_iff.mp h
  iterate 5 obtain ⟨_, -, h⟩ := Option.bind_eq_some_iff.mp h
  obtain ⟨_, hmatchedA, h⟩ := Option.bind_eq_some_iff.mp h
  obtain ⟨_, hmatchedB, h⟩ := Option.bind_eq_some_iff.mp h
  iterate 5 obtain ⟨_, -, h⟩ := Option.bind_eq_some_iff.mp h
  obtain ⟨_, hnullifier, h⟩ := Option.bind_eq_some_iff.mp h
  iterate 18 obtain ⟨_, -, h⟩ := Option.bind_eq_some_iff.mp h
  obtain rfl := Option.some.inj h
  exact ⟨hpool, hchain, hnullifier, hmatchedA, hmatchedB, rfl⟩

end Shade.Proving

namespace Shade.Pool

open Txn Committee Proving Text

/-! ### Settlements that are built for the matches of a batch -/

/-- The call carries the public signals of a settlement that was built for a match of the batch: of
its amount, or with two notes of amounts of the batch, and from the coin that is pledged to the
match. -/
inductive Call.BuiltFor (H : Hash) (poolId chainId : Text) (pledged : ℕ → GeneratedCoin)
    (b : Batch) : Call → Prop
  | mpcSettle {args : MpcArgs} {k : ℕ} {m : MatchResult} {withdraw : Withdraw} {drawA drawB : Draw}
      {p : MpcSettlementParams} {i : MpcSettlementInput} {oA oB : CoinOpening}
      {a : MpcSettlement.Assignment 12 2} (hmatch : b.matchList[k]? = some m)
      (hcoin : p.coinA = pledged k) (hpool : p.poolId = poolId) (hchain : p.chainId = chainId)
      (hamount : p.matchedAmount7dp = m.matchedAmount7dp)
      (hbuild : buildMpcSettlementWitness withdraw drawA drawB p = .ok (i, oA, oB))
      (hread : i.assignment H = some a)
      (hbytes : args.pubSignalsBytes = some (publicToBytes (a.publicSignals.map Word.ofFr))) :
      BuiltFor H poolId chainId pledged b (.mpcSettle args)
  | mpcSettlePriced {args : MpcArgs} {k : ℕ} {m m' : MatchResult} {withdraw : Withdraw}
      {drawA drawB : Draw} {p : PricedParams} {i : MpcPricedInput}
      {a : MpcPricedSettlement.Assignment 12 2} (hmatch : b.matchList[k]? = some m)
      (hcoin : p.coinX.toGeneratedCoin = pledged k) (hpool : p.poolId = poolId)
      (hchain : p.chainId = chainId) (hamountX : p.coinX.opening.value = m.matchedAmount7dp)
      (hmatch' : m' ∈ b.matchList) (hamountY : p.coinY.opening.value = m'.matchedAmount7dp)
      (hbuild : buildMpcPricedWitness withdraw drawA drawB p = .ok i)
      (hread : i.assignment H = some a)
      (hbytes : args.pubSignalsBytes = some (publicToBytes (a.publicSignals.map Word.ofFr))) :
      BuiltFor H poolId chainId pledged b (.mpcSettlePriced args)

/-- The settlements that are submitted for the batch were all built for its matches, for one pool
and one chain. -/
def SubmittedAsSigned (host : Host) (actions : List Action) (b : Batch) : Prop :=
  ∃ (poolId chainId : Text) (pledged : ℕ → GeneratedCoin), ∀ tx c, .call tx c ∈ actions →
    (Action.call tx c).batchHash = some (b.hash host) →
    c.BuiltFor host.poseidon poolId chainId pledged b

/-- The amounts that are signed are field elements. -/
def InField (b : Batch) : Prop := ∀ m ∈ b.matchList, ∃ n < r, m.HasAmount n

/-- The signal that is read from the amount of a match is this amount. -/
theorem hasAmount_of_readSignal {b : Batch} (hb : InField b) {m : MatchResult}
    (hm : m ∈ b.matchList) {x : Fr} (hx : readSignal m.matchedAmount7dp = some x) :
  m.HasAmount (Word.ofFr x).toNat
  := by
  obtain ⟨n, hn, hamount⟩ := hb m hm
  have htext : m.matchedAmount7dp = decimal n := hamount.trans Nat.toList_repr.symm
  rw [htext, readSignal_decimal] at hx
  obtain rfl := Option.some.inj hx
  rw [toNat_ofFr_natCast hn]
  exact hamount

/-- What is built for a match spends the coin that is pledged to it, and exposes amounts of the
batch. -/
theorem Call.BuiltFor.exposes {H : Hash} {poolId chainId : Text} {pledged : ℕ → GeneratedCoin}
    {b : Batch} {c : Call} (h : c.BuiltFor H poolId chainId pledged b) (hb : InField b) :
  (∃ k < b.matchList.length, ∃ n, c.nullifiers.head? = some n
      ∧ firstNullifier H poolId chainId (pledged k) = some n)
    ∧ ∀ x ∈ c.matchedAmounts, ∃ m ∈ b.matchList, m.HasAmount x.toNat
  := by
  cases h with
  | @mpcSettle args k m withdraw drawA drawB p i oA oB a hmatch hcoin hpool hchain hamount hbuild
      hread hbytes =>
      have hsignals : (Call.mpcSettle args).signals = a.publicSignals.map Word.ofFr :=
        Call.signals_publicToBytes hbytes (by simp [MpcSettlement.Assignment.publicSignals])
      obtain ⟨wA, wB, batchHash, -, -, -, -, -, -, rfl⟩ := buildMpcSettlementWitness_eq_ok hbuild
      obtain ⟨hp, hc, hn, hx, hhash⟩ := MpcSettlementInput.assignment_reads hread
      dsimp only at hp hc hn hx
      rw [hpool] at hp
      rw [hchain] at hc
      rw [hcoin] at hn
      rw [hamount] at hx
      constructor
      · refine ⟨k, (List.getElem?_eq_some_iff.mp hmatch).1, _, rfl, ?_⟩
        rw [firstNullifier, hn, hp, hc, hsignals]
        change some (Word.ofFr _) = some (Word.ofFr a.nullifierHashA)
        rw [hhash]
      · intro x hx'
        rw [Call.matchedAmounts, hsignals] at hx'
        obtain rfl := List.mem_singleton.mp hx'
        have hm := List.mem_of_getElem? hmatch
        use m, hm
        exact hasAmount_of_readSignal hb hm hx
  | @mpcSettlePriced args k m m' withdraw drawA drawB p i a hmatch hcoin hpool hchain hamountX hmatch'
      hamountY hbuild hread hbytes =>
      have hsignals : (Call.mpcSettlePriced args).signals = a.publicSignals.map Word.ofFr :=
        Call.signals_publicToBytes hbytes (by simp [MpcPricedSettlement.Assignment.publicSignals])
      obtain ⟨wX, wY, batchHash, matchedA, price, -, -, hmatched, -, -, -, rfl⟩ :=
        buildMpcPricedWitness_eq_ok hbuild
      obtain ⟨hp, hc, hn, hx, hy, hhash⟩ := MpcPricedInput.assignment_reads hread
      dsimp only at hp hc hn hx hy
      have hm := List.mem_of_getElem? hmatch
      -- the builder prints the amount that it has read of the first coin
      have hmatchedA : decimal matchedA = m.matchedAmount7dp := by
        obtain ⟨n, -, hamount⟩ := hb m hm
        have htext : m.matchedAmount7dp = decimal n := hamount.trans Nat.toList_repr.symm
        rw [hamountX, htext, toInt?_decimal] at hmatched
        obtain rfl := Option.some.inj hmatched
        exact htext.symm
      rw [hpool] at hp
      rw [hchain] at hc
      rw [hmatchedA] at hx
      rw [hamountY] at hy
      constructor
      · refine ⟨k, (List.getElem?_eq_some_iff.mp hmatch).1, _, rfl, ?_⟩
        change readSignal p.coinX.opening.nullifier = _ at hn
        rw [firstNullifier, ← hcoin, hn, hp, hc, hsignals]
        change some (Word.ofFr _) = some (Word.ofFr a.nullifierHashA)
        rw [hhash]
      · intro x hx'
        rw [Call.matchedAmounts, hsignals] at hx'
        rcases List.mem_pair.mp hx' with rfl | rfl
        · use m, hm
          exact hasAmount_of_readSignal hb hm hx
        · use m', hmatch'
          exact hasAmount_of_readSignal hb hmatch' hy

/-- Calls of a run whose first nullifiers are among a few are at most as many as these: no two calls
spend the same one. -/
theorem countP_le_of_firstNullifier (host : Host) (w : World) (actions : List Action)
    {p : Action → Bool} {first : ℕ → Option Word} {n : ℕ}
    (h : ∀ a ∈ trace host w actions, p a = true →
      ∃ k < n, ∃ x, a.nullifiers.head? = some x ∧ first k = some x) :
  (trace host w actions).countP p ≤ n
  := by
  rw [List.countP_eq_length_filter]
  set spending := (trace host w actions).filter p
  have hfirst : ∀ a ∈ spending, ∃ k < n, ∃ x, a.nullifiers.head? = some x ∧ first k = some x := by
    intro a ha
    obtain ⟨ha, hp⟩ := List.mem_filter.mp ha
    apply h a ha hp
  have hnodup : (spending.map fun a => a.nullifiers.head?).Nodup := by
    apply List.pairwise_map.mpr
    have hpairwise : spending.Pairwise _ :=
      (nullifiers_pairwise host w actions).sublist List.filter_sublist
    apply hpairwise.imp_of_mem
    intro a a' ha _ hdisjoint heq
    obtain ⟨-, -, x, hx, -⟩ := hfirst a ha
    apply hdisjoint x (List.mem_of_head? hx)
    rw [hx] at heq
    apply List.mem_of_head? heq.symm
  have hsubset : (spending.map fun a => a.nullifiers.head?) ⊆ (List.range n).map first := by
    intro y hy
    obtain ⟨a, ha, rfl⟩ := List.mem_map.mp hy
    obtain ⟨k, hk, x, hx, hfirst⟩ := hfirst a ha
    rw [hx]
    apply List.mem_map.mpr ⟨k, List.mem_range.mpr hk, hfirst⟩
  have hle := (List.subperm_of_subset hnodup hsubset).length_le
  rwa [List.length_map, List.length_map, List.length_range] at hle

/-- If the committee signed only the hashes of the given batches, and what is submitted for each
batch was built for its matches, then a run settles only signed batches, each of them at most once
for each match and for amounts of its matches. -/
theorem settlements_le_matches (host : Host) (w : World) (actions : List Action)
    (batches : List Batch)
    (hsigned : Machine.Along (step host) (fun w _ => SignsOnly host batches w) w actions)
    (hamounts : ∀ b ∈ batches, InField b)
    (hsubmitted : ∀ b ∈ batches, SubmittedAsSigned host actions b) :
  (∀ a ∈ trace host w actions, ∀ batchHash, a.batchHash = some batchHash →
      ∃ b ∈ batches, batchHash = b.hash host)
    ∧ ∀ b ∈ batches,
      (trace host w actions).countP (fun a => a.batchHash = some (b.hash host))
          ≤ b.matchList.length
        ∧ ∀ a ∈ trace host w actions, a.batchHash = some (b.hash host) →
          ∀ x ∈ a.matchedAmounts, ∃ m ∈ b.matchList, m.HasAmount x.toNat
  := by
  constructor
  · intro a ha batchHash hhash
    apply exists_batch_of_mem_trace hsigned ha hhash
  intro b hb
  obtain ⟨poolId, chainId, pledged, hbuilt⟩ := hsubmitted b hb
  -- the settlements of the batch are calls that were built for it
  have hcall : ∀ a ∈ trace host w actions, a.batchHash = some (b.hash host) →
      ∃ tx c, a = .call tx c ∧ c.BuiltFor host.poseidon poolId chainId pledged b := by
    intro a ha hhash
    cases a with
    | call tx c =>
        use tx, c, rfl
        apply hbuilt tx c ((Machine.trace_sublist _ _).subset ha) hhash
    | _ => cases hhash
  constructor
  · apply countP_le_of_firstNullifier
    intro a ha hhash
    obtain ⟨tx, c, rfl, hc⟩ := hcall a ha (of_decide_eq_true hhash)
    exact (hc.exposes (hamounts b hb)).1
  · intro a ha hhash
    obtain ⟨tx, c, rfl, hc⟩ := hcall a ha hhash
    exact (hc.exposes (hamounts b hb)).2

namespace Deployment

/-- The hash of the batch of a match of 10 units. -/
def smallHash : Word := 0x85fa76345d895cc6fd446a3f653cc864eea981cb78d3925a5bb0c3921d101041

/-- The signatures of the first two members of the committee on this hash. -/
def smallSignatures : List Signature :=
  [0x331bcda319be16e4bb5ce4bedef97a7199ccd30083c03edd63cb196da1f8a4a26a899c7c34c54c2358617a7bb6bcfe0390bc83e0d796061b3d2b7d359707830e,
    0x15633fe57fcc0738a406446b14ee19b1250df216c447fdcee2e9889e2fe159d1abd1af6e5aaac0a26db64b748e5c2c05f61b3f23c4135a53f1428f1d3ef2af04]

theorem smallHash_eq :
  (batchOf "10".toList).hash (crossHost smallHash smallSignatures) = smallHash
  := by
  decide +kernel

/-- The settlement of both notes is built for the match of 10 units. -/
theorem crossArgs_builtFor :
  (Call.mpcSettle (crossArgs smallHash smallSignatures)).BuiltFor poseidon255 (decimal (1 : ℕ))
    (decimal (27 : ℕ)) (fun _ => pairCoinA) (batchOf "10".toList)
  := by
  obtain ⟨i, oA, oB, sA, sB, hbuild, hassignment⟩ := pairParams_assigned smallHash
  have hmatch : (batchOf "10".toList).matchList[0]? = some _ := rfl
  apply Call.BuiltFor.mpcSettle hmatch _ _ _ _ hbuild hassignment
  · rw [pair_publicSignals]
    rfl
  · rfl
  · rfl
  · rfl
  · rfl

/-- The batch of a match of 10 units is settled at most once. -/
theorem crossed_settlements_le :
  (trace (crossHost smallHash smallSignatures) (genesis usdc)
      (crossed smallHash smallSignatures)).countP (fun a => a.batchHash = some smallHash) ≤ 1
  := by
  have hsigned : Machine.Along (step (crossHost smallHash smallSignatures))
      (fun w _ => SignsOnly (crossHost smallHash smallSignatures) [batchOf "10".toList] w)
      (genesis usdc) (crossed smallHash smallSignatures) :=
    Machine.along_of_forall (fun _ _ => crossHost_signsOnly smallHash_eq) _
  have hle := settlements_le_matches (crossHost smallHash smallSignatures) (genesis usdc)
    (crossed smallHash smallSignatures) [batchOf "10".toList] hsigned ?_ ?_
  · have := (hle.2 _ (List.mem_singleton.mpr rfl)).1
    rwa [smallHash_eq] at this
  · intro b hb m hm
    obtain rfl := List.mem_singleton.mp hb
    obtain rfl := List.mem_singleton.mp hm
    use 10
    decide
  · intro b hb
    obtain rfl := List.mem_singleton.mp hb
    use decimal (1 : ℕ), decimal (27 : ℕ), fun _ => pairCoinA
    intro tx c hc hhash
    cases eq_cross_of_batchHash hc hhash
    exact crossArgs_builtFor

end Deployment

end Shade.Pool
