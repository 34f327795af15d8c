import Shade.Pool.Deployment

/-!
# Words and the numbers read from them

The verifier of a proof sees a signal word modulo the order of the field; the pool reads the
low 16 bytes of the same word as a signed number. The two agree on canonical words of
small numbers. A caller may add the order of the field, once or twice, and then the low
bytes change: this is harmless where the pool compares with a number of 32 bits, and it is
not where it compares a deadline with the ledger.
-/

namespace Shade

/-! ### Readings of congruent words -/

/-- Words of one field element differ by at most twice the order of the field. -/
theorem toNat_cases_of_toFr {w w' : Word} (h : w.toFr = w'.toFr) (hle : w.toNat ≤ w'.toNat) :
  w'.toNat = w.toNat ∨ w'.toNat = w.toNat + r ∨ w'.toNat = w.toNat + 2 * r
  := by
  have hmod := congrArg ZMod.val h
  have hw' := w'.isLt
  rw [Word.val_toFr, Word.val_toFr] at hmod
  simp only [r] at hmod ⊢
  omega

/-- Congruent words from which numbers of 32 bits are read give the same number. -/
theorem eq_of_toFr_of_read {w w' : Word} (hcongr : w.toFr = w'.toFr) {n n' : ℕ}
    (hn : n < 2 ^ 32) (hn' : n' < 2 ^ 32) (h : (fr32ToI128 w).val = n)
    (h' : (fr32ToI128 w').val = n') :
  n = n'
  := by
  wlog hle : w.toNat ≤ w'.toNat generalizing w w' n n'
  · exact (this hcongr.symm hn' hn h' h (by omega)).symm
  have hlow := fr32ToI128_mod (by omega : 0 ≤ (fr32ToI128 w).val)
  have hlow' := fr32ToI128_mod (by omega : 0 ≤ (fr32ToI128 w').val)
  rcases toNat_cases_of_toFr hcongr hle with heq | heq | heq
  · omega
  · simp only [r] at heq
    omega
  · simp only [r] at heq
    omega

/-- A word from which at least `n` is read stands for a field element of at least `n`, unless
it is the order of the field and less than `n` more. -/
theorem le_val_toFr_iff {w : Word} {n : ℕ} (h : (n : ℤ) ≤ (fr32ToI128 w).val) :
  n ≤ w.toFr.val ↔ ¬ (r ≤ w.toNat ∧ w.toNat < r + n)
  := by
  have hlow := fr32ToI128_mod (by omega : 0 ≤ (fr32ToI128 w).val)
  have hlt := (fr32ToI128 w).lt
  have hw := w.isLt
  rw [Word.val_toFr]
  simp only [r]
  omega

namespace Pool

/-! ### Deadlines -/

section

variable {host : Host} {tx : Tx} {w w' : World}

/-- The word of the deadline a call carries. -/
def Call.deadlineLedger : Call → Option Word
  | c@(withdraw _) => some (c.signals.getD 5 0)
  | c@(withdrawCctp _) => some (c.signals.getD 5 0)
  | c@(rfqSettle _) => some (c.signals.getD 5 0)
  | c@(rfqSettleAtomicSwap _) => some (c.signals.getD 5 0)
  | c@(mpcSettle _) => some (c.signals.getD 10 0)
  | c@(mpcSettlePriced _) => some (c.signals.getD 9 0)
  | _ => none

/-- An accepted call reads a deadline that has not passed. -/
theorem Call.deadline_read {c : Call} {deadline : Word} (h : c.exec host tx w = some w')
    (hdeadline : c.deadlineLedger = some deadline) :
  w.sequence ≤ (fr32ToI128 deadline).val
  := by
  cases exec_outcome h with
  | withdraw args x =>
      rw [← Option.some.inj hdeadline, x.signals_call]
      exact x.checked.deadline
  | withdrawCctp args x =>
      rw [← Option.some.inj hdeadline, x.signals_call]
      exact x.checked.deadline
  | rfqSettle args x =>
      rw [← Option.some.inj hdeadline, x.signals_call]
      exact x.checked.deadline
  | rfqSettleAtomicSwap args x =>
      rw [← Option.some.inj hdeadline, x.signals_call]
      exact x.checked.deadline
  | mpcSettle args x =>
      rw [← Option.some.inj hdeadline, x.signals_mpcSettle]
      exact x.deadline
  | mpcSettlePriced args x =>
      rw [← Option.some.inj hdeadline, x.signals_mpcSettlePriced]
      exact x.deadline
  | receiveCctpDeposit args x => cases hdeadline
  | privateTransferSettle args x => cases hdeadline
  | registerAsset assetId token hadmin hnew => cases hdeadline
  | config c hadmin => cases hdeadline

/-- The ledger of an accepted call is within the deadline its proof was checked with, exactly
if the deadline word is not the order of the field plus a number below the ledger. -/
theorem deadline_honoured_iff {c : Call} {deadline : Word} (h : c.exec host tx w = some w')
    (hdeadline : c.deadlineLedger = some deadline) :
  w.sequence ≤ deadline.toFr.val ↔ ¬ (r ≤ deadline.toNat ∧ deadline.toNat < r + w.sequence)
  := by
  apply le_val_toFr_iff
  apply c.deadline_read h hdeadline

end

namespace Deployment

/-- The witness that spends the note for the quote until ledger `50`. -/
def lateSpend : Withdraw.Assignment 12 2 :=
  { quoteSpend with deadlineLedger := (50 : ℕ) }

theorem lateSpend_satisfied :
  Withdraw.Satisfied poseidon255 lateSpend
  := by
  obtain ⟨hnullifier, hstate, hassociation, hremaining, hwithdrawn, hnet, hfee⟩ :=
    quoteSpend_satisfied
  exact ⟨hnullifier, hstate, hassociation, hremaining, hwithdrawn, hnet, hfee⟩

/-- The signals of the late settlement, with the order of the field added to the deadline. -/
def lateSignals : List Word :=
  (lateSpend.publicSignals.map Word.ofFr).set 5 (BitVec.ofNat 256 (r + 50))

/-- The arguments of the late settlement. -/
def lateArgs : RfqSettleArgs :=
  { quoteArgs alice with pubSignalsBytes := publicToBytes lateSignals }

/-- The host of the settlements, which accepts both spends. -/
def lateHost : Host :=
  host (noteVectors [quoteSpend, lateSpend]) [(solverKey, quoteHash.toBytes, quoteSignature)]

/-- The world after the note is deposited, at ledger `100`. -/
def beforeSettlement : World := run lateHost (genesis usdc) (setup ++ [depositNote])

/-- The verifiers are configured, and both settlements are accepted at ledger `100`. -/
theorem beforeSettlement_exec :
  Configured beforeSettlement.pool ∧ beforeSettlement.sequence = 100
    ∧ ((Call.rfqSettle (quoteArgs alice)).exec lateHost ⟨[alice], none⟩
        beforeSettlement).isSome = true
    ∧ ((Call.rfqSettle lateArgs).exec lateHost ⟨[alice], none⟩ beforeSettlement).isSome = true
  := by
  decide +kernel

theorem lateArgs_signals :
  (Call.rfqSettle lateArgs).signals = lateSignals
  := by
  apply Call.signals_publicToBytes rfl
  rw [lateSignals, List.length_set, List.length_map]
  decide

/-- At ledger `100` a settlement is accepted whose proof is for the deadline `50`. -/
theorem lateArgs_late :
  Withdraw.Satisfied poseidon255 lateSpend
    ∧ Encodes (Call.rfqSettle lateArgs).signals lateSpend.publicSignals
    ∧ ((Call.rfqSettle lateArgs).exec lateHost ⟨[alice], none⟩ beforeSettlement).isSome = true
    ∧ ∃ deadline, (Call.rfqSettle lateArgs).deadlineLedger = some deadline
      ∧ ¬ beforeSettlement.sequence ≤ deadline.toFr.val
  := by
  refine ⟨lateSpend_satisfied, ?_, beforeSettlement_exec.2.2.2, _, rfl, ?_⟩
  · rw [Encodes, lateArgs_signals]
    decide
  · rw [lateArgs_signals, beforeSettlement_exec.2.1]
    decide

/-- The settlement of the quote until ledger `1000` is within its deadline. -/
theorem quoteArgs_honoured :
  ((Call.rfqSettle (quoteArgs alice)).exec lateHost ⟨[alice], none⟩ beforeSettlement).isSome = true
    ∧ ∃ deadline, (Call.rfqSettle (quoteArgs alice)).deadlineLedger = some deadline
      ∧ beforeSettlement.sequence ≤ deadline.toFr.val
  := by
  obtain ⟨w', hw'⟩ := Option.isSome_iff_exists.mp beforeSettlement_exec.2.2.1
  refine ⟨beforeSettlement_exec.2.2.1, _, rfl, ?_⟩
  apply (deadline_honoured_iff hw' rfl).mpr
  rw [signals_encode rfl, beforeSettlement_exec.2.1]
  decide

end Deployment

/-! ### Operations and domains -/

/-- The entry points that spend through the withdraw circuit. -/
inductive EntryPoint where
  | withdraw
  | withdrawCctp
  | rfqSettle
  | rfqSettleAtomicSwap
deriving DecidableEq, Repr

/-- The operation type an entry point asks for. -/
def EntryPoint.operationType : EntryPoint → ℤ
  | withdraw => opWithdrawPublic
  | withdrawCctp => opWithdrawCctp
  | rfqSettle => opRfqSettlement
  | rfqSettleAtomicSwap => opRfqAtomicSwap

/-- The signals a byte string encodes pass the checks of an entry point on the operation type
and on the domain of a pool. -/
def EntryPoint.Passes (e : EntryPoint) (s : State) (bytes : Bytes) : Prop :=
  ∃ signals, parsePublicSignals bytes = some signals
    ∧ (fr32ToI128 (signals.getD 1 0)).val = e.operationType
    ∧ s.MatchesDomain (signals.getD 8 0) (signals.getD 9 0)

/-- The entry point of a call, if it spends through the withdraw circuit. -/
def Call.entryPoint : Call → Option EntryPoint
  | withdraw _ => some .withdraw
  | withdrawCctp _ => some .withdrawCctp
  | rfqSettle _ => some .rfqSettle
  | rfqSettleAtomicSwap _ => some .rfqSettleAtomicSwap
  | _ => none

section

variable {host : Host} {tx : Tx} {w w' : World}

theorem SpendChecked.passes {proof bytes : Bytes} {e : EntryPoint} {signals : List Word}
    (h : SpendChecked host w proof bytes e.operationType signals) :
  e.Passes w.pool bytes
  := ⟨signals, h.parsed, h.operation, h.complies.2.1⟩

/-- What an accepted call through the withdraw circuit has checked of its signals. -/
theorem Call.spendChecked {c : Call} {e : EntryPoint} (h : c.exec host tx w = some w')
    (he : c.entryPoint = some e) :
  ∃ proof bytes, c.pubSignalsBytes = some bytes
    ∧ SpendChecked host w proof bytes e.operationType c.signals
  := by
  cases exec_outcome h with
  | withdraw args x =>
      obtain rfl := Option.some.inj he
      exact ⟨args.proofBytes, args.pubSignalsBytes, rfl, x.signals_call ▸ x.checked⟩
  | withdrawCctp args x =>
      obtain rfl := Option.some.inj he
      exact ⟨args.proofBytes, args.pubSignalsBytes, rfl, x.signals_call ▸ x.checked⟩
  | rfqSettle args x =>
      obtain rfl := Option.some.inj he
      exact ⟨args.proofBytes, args.pubSignalsBytes, rfl, x.signals_call ▸ x.checked⟩
  | rfqSettleAtomicSwap args x =>
      obtain rfl := Option.some.inj he
      exact ⟨args.proofBytes, args.pubSignalsBytes, rfl, x.signals_call ▸ x.checked⟩
  | receiveCctpDeposit args x => cases he
  | privateTransferSettle args x => cases he
  | mpcSettle args x => cases he
  | mpcSettlePriced args x => cases he
  | registerAsset assetId token hadmin hnew => cases he
  | config c hadmin => cases he

/-- The signals of an accepted call pass the checks of its entry point. -/
theorem Call.passes_of_exec {c : Call} {e : EntryPoint} (h : c.exec host tx w = some w')
    (he : c.entryPoint = some e) :
  ∃ bytes, c.pubSignalsBytes = some bytes ∧ e.Passes w.pool bytes
  := by
  obtain ⟨proof, bytes, hbytes, hchecked⟩ := c.spendChecked h he
  exact ⟨bytes, hbytes, hchecked.passes⟩

end

/-- The operation types are numbers of 32 bits and differ. -/
theorem EntryPoint.exists_operationType (e : EntryPoint) :
  ∃ n : ℕ, n < 2 ^ 32 ∧ e.operationType = n
  := by
  cases e with
  | withdraw => exact ⟨1, by decide, rfl⟩
  | withdrawCctp => exact ⟨2, by decide, rfl⟩
  | rfqSettle => exact ⟨3, by decide, rfl⟩
  | rfqSettleAtomicSwap => exact ⟨5, by decide, rfl⟩

theorem EntryPoint.operationType_injective {e e' : EntryPoint}
    (h : e.operationType = e'.operationType) :
  e = e'
  := by
  cases e <;> cases e' <;> first | rfl | exact absurd h (by decide)

/-- Congruent domain words that match two pools match one domain. -/
theorem uint32_eq_of_toFr_of_read {a b : UInt32} {x y : Word} (hcongr : x.toFr = y.toFr)
    (hx : (fr32ToI128 x).val = a.toNat) (hy : (fr32ToI128 y).val = b.toNat) :
  a = b
  := by
  apply UInt32.toNat_inj.mp
  apply eq_of_toFr_of_read hcongr a.toNat_lt b.toNat_lt hx hy

/-- Byte strings whose words are congruent pass the checks of one entry point and one domain
at most. -/
theorem operation_domain_separated {e e' : EntryPoint} {s s' : State} {bytes bytes' : Bytes}
    (hcongr : (parsePublicSignals bytes).map (List.map Word.toFr)
      = (parsePublicSignals bytes').map (List.map Word.toFr))
    (h : e.Passes s bytes) (h' : e'.Passes s' bytes') :
  e = e' ∧ s.poolId = s'.poolId ∧ s.chainId = s'.chainId
  := by
  obtain ⟨signals, hparse, hop, hpool, hchain⟩ := h
  obtain ⟨signals', hparse', hop', hpool', hchain'⟩ := h'
  rw [hparse, hparse'] at hcongr
  have hmap : signals.map Word.toFr = signals'.map Word.toFr := Option.some.inj hcongr
  have hword : ∀ i, (signals.getD i 0).toFr = (signals'.getD i 0).toFr := by
    intro i
    rw [Encodes.getD hmap, ← Encodes.getD rfl]
  refine ⟨?_, uint32_eq_of_toFr_of_read (hword 8) hpool hpool',
    uint32_eq_of_toFr_of_read (hword 9) hchain hchain'⟩
  obtain ⟨n, hn, hread⟩ := e.exists_operationType
  obtain ⟨n', hn', hread'⟩ := e'.exists_operationType
  apply EntryPoint.operationType_injective
  rw [hread] at hop
  rw [hread'] at hop'
  rw [hread, hread', eq_of_toFr_of_read (hword 1) hn hn' hop hop']

namespace Deployment

/-- The signals of the settlement of the quote, with the order of the field added to the
nullifier. -/
def reencodedQuote : List Word :=
  (quoteSpend.publicSignals.map Word.ofFr).set 0 (nullifierHash + BitVec.ofNat 256 r)

/-- The settlement of the quote and its other encoding pass the checks of one entry point on
one domain. -/
theorem quoteArgs_separated :
  EntryPoint.rfqSettle.Passes (genesis usdc).pool (encode quoteSpend.publicSignals)
    ∧ EntryPoint.rfqSettle.Passes (genesis xlm).pool (publicToBytes reencodedQuote)
    ∧ (genesis usdc).pool.poolId = (genesis xlm).pool.poolId
    ∧ (genesis usdc).pool.chainId = (genesis xlm).pool.chainId
  := by
  have hparse : parsePublicSignals (encode quoteSpend.publicSignals)
      = some (quoteSpend.publicSignals.map Word.ofFr) :=
    parsePublicSignals_publicToBytes (by simp [Withdraw.Assignment.publicSignals])
  have hparse' : parsePublicSignals (publicToBytes reencodedQuote) = some reencodedQuote :=
    parsePublicSignals_publicToBytes
      (by simp [reencodedQuote, Withdraw.Assignment.publicSignals])
  have hpass : EntryPoint.rfqSettle.Passes (genesis usdc).pool
      (encode quoteSpend.publicSignals) := ⟨_, hparse, by decide, by decide, by decide⟩
  have hpass' : EntryPoint.rfqSettle.Passes (genesis xlm).pool
      (publicToBytes reencodedQuote) := ⟨_, hparse', by decide, by decide, by decide⟩
  refine ⟨hpass, hpass', (operation_domain_separated ?_ hpass hpass').2⟩
  rw [hparse, hparse']
  decide

end Deployment

/-! ### Amounts -/

section

variable {host : Host} {tx : Tx} {w w' : World}

/-- The number read from a canonical word of a field element of 128 bits, unless it is read
as a negative number. -/
theorem read_eq_val {x : Word} (hcanonical : x.Canonical) (hlt : x.toFr.val < 2 ^ 128)
    (hread : 0 ≤ (fr32ToI128 x).val) :
  (fr32ToI128 x).val = x.toFr.val
  := by
  rw [hcanonical.val_toFr] at hlt ⊢
  exact (fr32ToI128_eq hlt hread).symm

/-- An accepted call through the withdraw circuit that reads the relayer's fee reads a number
that is not negative. -/
theorem Call.relayerFee_nonneg {c : Call} {e : EntryPoint} (h : c.exec host tx w = some w')
    (he : c.entryPoint = some e) (hne : e ≠ .withdrawCctp) :
  0 ≤ (fr32ToI128 (c.signals.getD 4 0)).val
  := by
  cases exec_outcome h with
  | withdraw args x =>
      rw [x.signals_call]
      exact x.fee_nonneg
  | withdrawCctp args x => exact absurd (Option.some.inj he).symm hne
  | rfqSettle args x =>
      rw [x.signals_call]
      exact x.fee_nonneg
  | rfqSettleAtomicSwap args x =>
      rw [x.signals_call]
      exact x.fee_nonneg
  | receiveCctpDeposit args x => cases he
  | privateTransferSettle args x => cases he
  | mpcSettle args x => cases he
  | mpcSettlePriced args x => cases he
  | registerAsset assetId token hadmin hnew => cases he
  | config c hadmin => cases he

/-- The amounts an accepted call with canonical words reads are those of every witness for
its signals. -/
theorem Call.amounts_read {c : Call} {e : EntryPoint} (h : c.exec host tx w = some w')
    (he : c.entryPoint = some e) (hcanonical : c.Canonical) {a : Withdraw.Assignment 12 2}
    (ha : WithdrawWitness host.poseidon c.signals a) :
  (fr32ToI128 (c.signals.getD 2 0)).val = a.withdrawnValue.val
    ∧ (e ≠ .withdrawCctp → (fr32ToI128 (c.signals.getD 4 0)).val = a.relayerFee.val)
  := by
  obtain ⟨hs, henc⟩ := ha
  obtain ⟨proof, bytes, -, hchecked⟩ := c.spendChecked h he
  have hvalue : (c.signals.getD 2 0).toFr = a.withdrawnValue := henc.getD 2
  have hfee : (c.signals.getD 4 0).toFr = a.relayerFee := henc.getD 4
  rw [← hvalue, ← hfee]
  constructor
  · apply read_eq_val (hcanonical.getD 2)
    · rw [hvalue]
      apply hs.withdrawnValue.val_lt (by decide)
    · exact hchecked.positive.le
  · intro hne
    apply read_eq_val (hcanonical.getD 4)
    · rw [hfee]
      apply hs.relayerFee.val_lt (by decide)
    · apply c.relayerFee_nonneg h he hne

/-- The circuits that spend one note do not wrap. In `Withdraw` the fee is at most the
withdrawn value, which is at most the value of the note; the amounts an accepted call with
canonical words reads are those of its witness, so it never takes more than the note is
worth. In `PrivateTransfer` the value is conserved over the integers, in one asset. -/
theorem spend_no_wrap :
  (∀ (H : Hash) {treeDepth associationDepth : ℕ}
      (a : Withdraw.Assignment treeDepth associationDepth), Withdraw.Satisfied H a →
      a.relayerFee.val ≤ a.withdrawnValue.val ∧ a.withdrawnValue.val ≤ a.value.val
        ∧ a.value.val < 2 ^ 129)
    ∧ (∀ (host : Host) (tx : Tx) (w w' : World) (c : Call) (e : EntryPoint),
        w.pool.Sound host → c.entryPoint = some e → c.Canonical →
        c.exec host tx w = some w' →
        (∃ a, WithdrawWitness host.poseidon c.signals a)
        ∧ ∀ a, WithdrawWitness host.poseidon c.signals a →
          (fr32ToI128 (c.signals.getD 2 0)).val = a.withdrawnValue.val
          ∧ (e ≠ .withdrawCctp → (fr32ToI128 (c.signals.getD 4 0)).val = a.relayerFee.val)
          ∧ (fr32ToI128 (c.signals.getD 2 0)).val ≤ a.note.value.val)
    ∧ (∀ (H : Hash) {treeDepth associationDepth : ℕ}
        (a : PrivateTransfer.Assignment treeDepth associationDepth),
        PrivateTransfer.Satisfied H a →
        a.inValue.val = a.outValue.val + a.feePublic.val ∧ a.outValue.val < 2 ^ 128
          ∧ a.feePublic.val < 2 ^ 128 ∧ a.inputAssetId = a.outputAssetId)
  := by
  refine ⟨?_, ?_, ?_⟩
  · intro H _ _ a hs
    exact ⟨hs.relayerFee_le, hs.withdrawnValue_le, hs.value_lt⟩
  · intro host tx w w' c e hsound he hcanonical h
    constructor
    · obtain ⟨proof, bytes, -, hchecked⟩ := c.spendChecked h he
      apply hsound.withdraw c.signals ⟨proof, bytes, hchecked.parsed, hchecked.verified⟩
    · intro a ha
      obtain ⟨hvalue, hfee⟩ := c.amounts_read h he hcanonical ha
      refine ⟨hvalue, hfee, ?_⟩
      rw [hvalue]
      exact_mod_cast ha.1.withdrawnValue_le
  · intro H _ _ a hs
    exact ⟨hs.inValue_eq, hs.outValue.val_lt (by decide), hs.feePublic.val_lt (by decide), hs.asset⟩

end

namespace Deployment

theorem beforeSettlement_sound :
  beforeSettlement.pool.Sound lateHost
  := by
  apply sound _ beforeSettlement_exec.1
  apply noteVectors_witnessed
  intro a ha
  rcases List.mem_pair.mp ha with rfl | rfl
  · exact quoteSpend_satisfied
  · exact lateSpend_satisfied

/-- The settlement of the quote reads the value its witness withdraws from the note. -/
theorem quoteArgs_no_wrap :
  beforeSettlement.pool.Sound lateHost ∧ (Call.rfqSettle (quoteArgs alice)).Canonical
    ∧ quoteSpend.relayerFee.val ≤ quoteSpend.withdrawnValue.val
    ∧ (fr32ToI128 ((Call.rfqSettle (quoteArgs alice)).signals.getD 2 0)).val
      = quoteSpend.withdrawnValue.val
  := by
  obtain ⟨w', hw'⟩ := Option.isSome_iff_exists.mp beforeSettlement_exec.2.2.1
  have hcanonical : (Call.rfqSettle (quoteArgs alice)).Canonical :=
    Call.canonical_ofFr (signals_encode rfl)
  refine ⟨beforeSettlement_sound, hcanonical, (spend_no_wrap.1 _ _ quoteSpend_satisfied).1, ?_⟩
  apply ((spend_no_wrap.2.1 lateHost _ _ _ _ .rfqSettle beforeSettlement_sound rfl hcanonical
    hw').2 quoteSpend _).1
  apply withdrawWitness_encode rfl quoteSpend_satisfied

end Deployment

end Pool

end Shade
