import Shade.Pool.Deployment

/-!
# Spending a note once

A note is spent through the nullifier of its opening under the pool and the chain. The
registry records nullifiers as words, so two calls of one run never carry the same
nullifier word; whether they can spend the same note depends on how a note determines the
word. The prover chooses the words of the pool and the chain among those with the right low
16 bytes, and of a nullifier among those with the right residue.
-/

namespace Shade.Pool

/-! ### One nullifier for each note -/

/-- No note is an input note of two successful actions of a run. -/
def NoDoubleSpend (host : Host) (w : World) (actions : List Action) : Prop :=
  (trace host w actions).Pairwise fun a b =>
    ∀ note, a.Opens host.poseidon note → ¬ b.Opens host.poseidon note

/-- The words of the pool and the chain an action carries fit in 16 bytes. -/
def Action.DomainFits : Action → Prop
  | call _ c => ∀ d ∈ c.domain, d.1.toNat < 2 ^ 128 ∧ d.2.toNat < 2 ^ 128
  | _ => True

instance (a : Action) : Decidable a.DomainFits :=
  match a with
  | .call _ c => Option.decidableForallMem c.domain
  | .registry _ _ => isTrue trivial
  | .mint _ _ _ => isTrue trivial
  | .transfer _ _ _ _ => isTrue trivial
  | .transferFrom _ _ _ _ => isTrue trivial
  | .advance _ => isTrue trivial

/-- Domain words that fit in 16 bytes are the numbers of the pool. -/
theorem State.MatchesDomain.toNat_eq {s : State} {d : Word × Word}
    (h : s.MatchesDomain d.1 d.2) (hfits : d.1.toNat < 2 ^ 128 ∧ d.2.toNat < 2 ^ 128) :
  d.1.toNat = s.poolId.toNat ∧ d.2.toNat = s.chainId.toNat
  := by
  obtain ⟨hpool, hchain⟩ := h
  have hpool' := fr32ToI128_eq hfits.1 (by omega)
  have hchain' := fr32ToI128_eq hfits.2 (by omega)
  constructor
  · omega
  · omega

/-- In a run whose words are canonical and whose domain words fit in 16 bytes, no note is
spent twice. -/
theorem noDoubleSpend_of_domainFits (host : Host) (w : World) (actions : List Action)
    (hcanonical : ∀ a ∈ trace host w actions, a.Canonical)
    (hfits : ∀ a ∈ trace host w actions, a.DomainFits) :
  NoDoubleSpend host w actions
  := by
  apply (nullifiers_pairwise host w actions).imp_of_mem
  rintro _ _ ha hb hdisjoint note ⟨tx, c, rfl, hc⟩ ⟨tx', c', rfl, hc'⟩
  obtain ⟨d, i, hd, hmem, hhash⟩ := hc.nullifier
  obtain ⟨d', i', hd', hmem', hhash'⟩ := hc'.nullifier
  obtain ⟨hpool, hchain⟩ := (matchesDomain_of_mem_trace ha hd).toNat_eq (hfits _ ha d hd)
  obtain ⟨hpool', hchain'⟩ := (matchesDomain_of_mem_trace hb hd').toNat_eq (hfits _ hb d' hd')
  have hd₁ : d.1 = d'.1 := BitVec.eq_of_toNat_eq (hpool.trans hpool'.symm)
  have hd₂ : d.2 = d'.2 := BitVec.eq_of_toNat_eq (hchain.trans hchain'.symm)
  have hword : c.signals.getD i 0 = c'.signals.getD i' 0 := by
    apply Word.Canonical.eq_of_toFr
    · apply Call.Canonical.getD (hcanonical _ ha)
    · apply Call.Canonical.getD (hcanonical _ hb)
    · rw [hhash, hhash', hd₁, hd₂]
  apply hdisjoint _ hmem
  rw [hword]
  apply hmem'

namespace Deployment

/-- The nullifier of the note under the pool id `1 + 2 ^ 128`. -/
def nullifierHash' : Word := 0xbc2ca4aecf473b323d24ef22d4b4c4aa06de5f47708fd5b914440314254d413

/-- A withdrawal of 400 units of the note to its owner, under a pool id that is read as
`1`. -/
def withdrawTerms (poolId : ℕ) (nullifierHash : Fr) : Terms where
  operationType := 1
  withdrawnValue := (400 : ℕ)
  recipientHash := (0x5f0aba220bd9cf7af718118f268778f5589084de0976949e17d00bdfd84c2d : ℕ)
  relayerFee := 0
  poolId := poolId
  nullifierHash := nullifierHash
  quoteHash := 0
  destinationDomain := 0
  destinationRecipient := 0
  maxFee := 0

/-- The witness of the withdrawal under the pool id `1`. -/
def firstSpend : Withdraw.Assignment 12 2 := spend (withdrawTerms 1 nullifierHash.toFr)

/-- The witness of the withdrawal under the pool id `1 + 2 ^ 128`. -/
def secondSpend : Withdraw.Assignment 12 2 :=
  spend (withdrawTerms (1 + 2 ^ 128) nullifierHash'.toFr)

theorem firstSpend_satisfied :
  Withdraw.Satisfied poseidon255 firstSpend
  := spend_satisfied nullifierHash_eq (by decide) (by decide)

theorem secondSpend_satisfied :
  Withdraw.Satisfied poseidon255 secondSpend
  := spend_satisfied (by decide +kernel) (by decide) (by decide)

/-- A withdrawal to the owner of the note. -/
def withdrawal (signals : List Word) : Action :=
  .call ⟨[alice], none⟩ (.withdraw ⟨alice, proof, publicToBytes signals⟩)

/-- A withdrawal with the signals of a witness spends its note. -/
theorem withdrawal_opens {a : Withdraw.Assignment 12 2}
    (h : Withdraw.Satisfied poseidon255 a) :
  (withdrawal (a.publicSignals.map Word.ofFr)).Opens poseidon255 a.note
  := by
  refine ⟨_, _, rfl, a, ⟨h, ?_⟩, rfl⟩
  rw [Call.signals_publicToBytes rfl (by simp [Withdraw.Assignment.publicSignals])]
  apply encodes_ofFr

theorem withdrawal_canonical (a : Withdraw.Assignment 12 2) :
  (withdrawal (a.publicSignals.map Word.ofFr)).Canonical
  := by
  have hsignals := Call.signals_publicToBytes
    (c := .withdraw ⟨alice, proof, publicToBytes (a.publicSignals.map Word.ofFr)⟩) rfl
    (by simp [Withdraw.Assignment.publicSignals])
  apply Call.canonical_ofFr hsignals

theorem depositNote_canonical :
  depositNote.Canonical
  := by
  apply Call.canonical_ofFr (depositArgs_signals note 0xb00 1000 commitment stateRoot)

theorem setup_canonical :
  ∀ a ∈ setup, a.Canonical
  := by
  simp [setup, adminCall, Action.Canonical, Call.Canonical, Call.signals, Call.pubSignalsBytes]

/-- The vectors of the deposit of the note and of its two withdrawals. -/
def spendVectors : Vectors := noteVectors [firstSpend, secondSpend]

theorem spendVectors_witnessed :
  spendVectors.Witnessed
  := by
  apply noteVectors_witnessed
  intro a ha
  rcases List.mem_pair.mp ha with rfl | rfl
  · apply firstSpend_satisfied
  · apply secondSpend_satisfied

/-- A deposit of the note and its two withdrawals. -/
def spendTwice : List Action :=
  setup ++ [depositNote, withdrawal (firstSpend.publicSignals.map Word.ofFr),
    withdrawal (secondSpend.publicSignals.map Word.ofFr)]

/-- The inputs hashed in the tree and by the witnesses. -/
def spendInputs : List (List Fr) :=
  LeanIMT.buildInputs poseidon255 12 [commitment] ++ note.inputs poseidon255
    ++ firstSpend.hashInputs poseidon255 ++ secondSpend.hashInputs poseidon255

/-- All actions succeed, with the verifiers of the deployment configured throughout, and no
two of the hashed inputs collide. -/
theorem spendTwice_trace :
  trace (host spendVectors []) (genesis usdc) spendTwice = spendTwice
    ∧ Machine.Along (step (host spendVectors [])) (fun w _ => Configured w.pool) (genesis usdc)
        spendTwice
    ∧ CollisionFree poseidon255 spendInputs
  := by
  have hrun : (trace (host spendVectors []) (genesis usdc) spendTwice).length = spendTwice.length
      ∧ Machine.Along (step (host spendVectors [])) (fun w _ => Configured w.pool) (genesis usdc)
          spendTwice
      ∧ Eager.injectiveOn (List.map ZMod.val) (fun x => (poseidon255 x).val) spendInputs
          = true := by
    decide +kernel
  obtain ⟨hlength, hconfigured, hinjective⟩ := hrun
  use (Machine.trace_sublist _ _).eq_of_length hlength, hconfigured
  apply collisionFree_of_injectiveOn hinjective

/-- Although the verifiers are sound, all words are canonical and no hash collides, the note
is withdrawn twice. -/
theorem spendTwice_doubleSpend :
  Machine.Along (step (host spendVectors []))
      (fun w _ => w.pool.Sound (host spendVectors [])) (genesis usdc) spendTwice
    ∧ (∀ a ∈ trace (host spendVectors []) (genesis usdc) spendTwice, a.Canonical)
    ∧ CollisionFree poseidon255 spendInputs
    ∧ ¬ NoDoubleSpend (host spendVectors []) (genesis usdc) spendTwice
  := by
  obtain ⟨htrace, hconfigured, hcollisionFree⟩ := spendTwice_trace
  refine ⟨?_, ?_, hcollisionFree, ?_⟩
  · apply hconfigured.imp
    intro w _ hw
    apply sound spendVectors_witnessed hw
  · rw [htrace]
    intro a ha
    simp only [spendTwice, List.mem_append, List.mem_cons, List.not_mem_nil, or_false] at ha
    rcases ha with ha | rfl | rfl | rfl
    · apply setup_canonical a ha
    · apply depositNote_canonical
    · apply withdrawal_canonical
    · apply withdrawal_canonical
  · intro h
    rw [NoDoubleSpend, htrace, spendTwice, List.pairwise_append] at h
    obtain ⟨-, hwithdrawals, -⟩ := h
    have hpair := (List.pairwise_cons.mp (List.pairwise_cons.mp hwithdrawals).2).1
    apply hpair _ (List.mem_singleton.mpr rfl) note
    · apply withdrawal_opens firstSpend_satisfied
    · apply withdrawal_opens secondSpend_satisfied

/-- A deposit of the note and two attempts at the same withdrawal. -/
def spendOnce : List Action :=
  setup ++ [depositNote, withdrawal (firstSpend.publicSignals.map Word.ofFr),
    withdrawal (firstSpend.publicSignals.map Word.ofFr)]

theorem firstSpend_domainFits :
  (withdrawal (firstSpend.publicSignals.map Word.ofFr)).DomainFits
  := by
  intro d hd
  have hlen : (firstSpend.publicSignals.map Word.ofFr).length < 2 ^ 32 := by
    simp [Withdraw.Assignment.publicSignals]
  rw [Call.domain, Call.signals_publicToBytes rfl hlen, Option.mem_some_iff] at hd
  subst hd
  constructor
  · decide
  · decide

/-- The actions of the run are those of the configuration, the deposit and the withdrawal. -/
theorem mem_spendOnce {a : Action}
    (ha : a ∈ trace (host spendVectors []) (genesis usdc) spendOnce) :
  a ∈ setup ∨ a = depositNote ∨ a = withdrawal (firstSpend.publicSignals.map Word.ofFr)
  := by
  have hmem := (Machine.trace_sublist _ _).subset ha
  simpa [spendOnce] using hmem

/-- With two attempts at the same withdrawal, the note is spent at most once. -/
theorem spendOnce_noDoubleSpend :
  NoDoubleSpend (host spendVectors []) (genesis usdc) spendOnce
  := by
  apply noDoubleSpend_of_domainFits
  · intro a ha
    rcases mem_spendOnce ha with ha | rfl | rfl
    · apply setup_canonical a ha
    · apply depositNote_canonical
    · apply withdrawal_canonical
  · intro a ha
    rcases mem_spendOnce ha with ha | rfl | rfl
    · simp only [setup, adminCall, List.mem_cons, List.not_mem_nil, or_false] at ha
      rcases ha with rfl | rfl | rfl | rfl | rfl | rfl <;> exact fun d hd => nomatch hd
    · intro d hd
      cases hd
    · apply firstSpend_domainFits

end Deployment

/-! ### One call for each proof -/

/-- The proof a call of one of the entry points that spend a single note carries. -/
def Call.proofBytes : Call → Option Bytes
  | withdraw args => some args.proofBytes
  | withdrawCctp args => some args.proofBytes
  | rfqSettle args => some args.proofBytes
  | rfqSettleAtomicSwap args => some args.proofBytes
  | privateTransferSettle args => some args.proofBytes
  | _ => none

/-- Both actions are calls that spend a single note, with the same proof and with signals
that are congruent word by word. -/
def Action.Replays : Action → Action → Prop
  | call _ c, call _ c' =>
      c.proofBytes.isSome ∧ c.proofBytes = c'.proofBytes
        ∧ c.signals.map Word.toFr = c'.signals.map Word.toFr
  | _, _ => False

/-- No proof is accepted twice in a run for congruent signals. -/
def NoReplay (host : Host) (w : World) (actions : List Action) : Prop :=
  (trace host w actions).Pairwise fun a b => ¬ a.Replays b

/-- The nullifier an action spends is a canonical word, if it spends a single note. -/
def Action.NullifierCanonical : Action → Prop
  | call _ c => c.proofBytes.isSome → (c.signals.getD 0 0).Canonical
  | _ => True

theorem Call.nullifiers_of_proofBytes {c : Call} (h : c.proofBytes.isSome) :
  c.nullifiers = [c.signals.getD 0 0]
  := by
  cases c with
  | withdraw args => rfl
  | withdrawCctp args => rfl
  | rfqSettle args => rfl
  | rfqSettleAtomicSwap args => rfl
  | privateTransferSettle args => rfl
  | receiveCctpDeposit args => cases h
  | mpcSettle args => cases h
  | mpcSettlePriced args => cases h
  | registerAsset assetId token => cases h
  | config c => cases h

/-- In a run in which the nullifiers of the calls that spend a single note are canonical
words, no proof is replayed with congruent signals. -/
theorem noReplay_of_nullifierCanonical (host : Host) (w : World) (actions : List Action)
    (hcanonical : ∀ a ∈ trace host w actions, a.NullifierCanonical) :
  NoReplay host w actions
  := by
  apply (nullifiers_pairwise host w actions).imp_of_mem
  intro a b ha hb hdisjoint hreplay
  cases a with
  | call tx c =>
      cases b with
      | call tx' c' =>
          obtain ⟨hproof, heq, hsignals⟩ := hreplay
          have hproof' : c'.proofBytes.isSome := heq ▸ hproof
          have hword : c.signals.getD 0 0 = c'.signals.getD 0 0 := by
            apply Word.Canonical.eq_of_toFr (hcanonical _ ha hproof) (hcanonical _ hb hproof')
            rw [Encodes.getD rfl, hsignals, ← Encodes.getD rfl]
          apply hdisjoint (c.signals.getD 0 0)
          · rw [Action.nullifiers, Call.nullifiers_of_proofBytes hproof]
            apply List.mem_singleton_self
          · rw [Action.nullifiers, Call.nullifiers_of_proofBytes hproof', hword]
            apply List.mem_singleton_self
      | _ => exact hreplay
  | _ => exact hreplay

namespace Deployment

/-- The signals of the withdrawal, with the order of the field added to the nullifier. -/
def reencoded : List Word :=
  (nullifierHash + BitVec.ofNat 256 r) :: (firstSpend.publicSignals.map Word.ofFr).tail

/-- A deposit of the note, a withdrawal, and the same withdrawal with its nullifier encoded
by another word. -/
def replayed : List Action :=
  setup ++ [depositNote, withdrawal (firstSpend.publicSignals.map Word.ofFr),
    withdrawal reencoded]

theorem replayed_trace :
  trace (host spendVectors []) (genesis usdc) replayed = replayed
  := by
  apply (Machine.trace_sublist _ _).eq_of_length
  decide +kernel

/-- The withdrawal is accepted a second time, with the same proof and congruent words. -/
theorem replayed_replay :
  ¬ NoReplay (host spendVectors []) (genesis usdc) replayed
  := by
  intro h
  rw [NoReplay, replayed_trace, replayed, List.pairwise_append] at h
  obtain ⟨-, hwithdrawals, -⟩ := h
  have hpair := (List.pairwise_cons.mp (List.pairwise_cons.mp hwithdrawals).2).1
  apply hpair _ (List.mem_singleton.mpr rfl)
  have hlen : (firstSpend.publicSignals.map Word.ofFr).length < 2 ^ 32 := by
    simp [Withdraw.Assignment.publicSignals]
  have hlen' : reencoded.length < 2 ^ 32 := by
    simp [reencoded, Withdraw.Assignment.publicSignals]
  refine ⟨rfl, rfl, ?_⟩
  rw [Call.signals_publicToBytes rfl hlen, Call.signals_publicToBytes rfl hlen', reencoded,
    List.map_cons]
  have hzero : (nullifierHash + BitVec.ofNat 256 r).toFr = (Word.ofFr nullifierHash.toFr).toFr := by
    decide
  rw [hzero]
  rfl

/-- The second attempt at the same encoding fails. -/
theorem spendOnce_noReplay :
  NoReplay (host spendVectors []) (genesis usdc) spendOnce
  := by
  apply noReplay_of_nullifierCanonical
  intro a ha
  rcases mem_spendOnce ha with ha | rfl | rfl
  · simp only [setup, adminCall, List.mem_cons, List.not_mem_nil, or_false] at ha
    rcases ha with rfl | rfl | rfl | rfl | rfl | rfl <;> exact fun h => nomatch h
  · intro h
    cases h
  · intro h
    apply Call.Canonical.getD
    apply withdrawal_canonical firstSpend

end Deployment

end Shade.Pool
