import Shade.Circuit.Deposit
import Shade.Circuit.Settlement
import Shade.Circuit.Spend
import Shade.Pool.Run

/-!
# Calls and circuits

How the calls of the pool and the circuits belong together: which circuit a call's signals
are checked against, what it means that the configured verifiers are sound for them, and
which notes a call spends according to a witness. The circuits are compiled with trees of
depth `12` and association trees of depth `2`.
-/

namespace Shade.Pool

/-- The words are a public signal vector of an assignment, up to representatives. -/
def Encodes (signals : List Word) (publicSignals : List Fr) : Prop :=
  signals.map Word.toFr = publicSignals

theorem Encodes.getD {signals : List Word} {publicSignals : List Fr}
    (h : Encodes signals publicSignals) (i : ℕ) :
  (signals.getD i 0).toFr = publicSignals.getD i 0
  := by
  have hmap := List.getD_map (l := signals) (n := i) (d := 0) Word.toFr
  rw [← h, ← hmap]
  rfl

/-- A witness of the withdraw circuit for the words. -/
def WithdrawWitness (H : Hash) (signals : List Word) (a : Withdraw.Assignment 12 2) : Prop :=
  Withdraw.Satisfied H a ∧ Encodes signals a.publicSignals

/-- A witness of the transfer circuit for the words. -/
def TransferWitness (H : Hash) (signals : List Word) (a : PrivateTransfer.Assignment 12 2) :
    Prop :=
  PrivateTransfer.Satisfied H a ∧ Encodes signals a.publicSignals

/-- A witness of the settlement circuit for the words. -/
def MpcWitness (H : Hash) (signals : List Word) (a : MpcSettlement.Assignment 12 2) : Prop :=
  MpcSettlement.Satisfied H a ∧ Encodes signals a.publicSignals

/-- A witness of the priced settlement circuit for the words. -/
def MpcPricedWitness (H : Hash) (signals : List Word)
    (a : MpcPricedSettlement.Assignment 12 2) : Prop :=
  MpcPricedSettlement.Satisfied H a ∧ Encodes signals a.publicSignals

/-- A witness of the deposit circuit for the words. -/
def DepositWitness (H : Hash) (signals : List Word) (a : DepositNoteMint.Assignment) : Prop :=
  DepositNoteMint.Satisfied H a ∧ Encodes signals a.publicSignals

/-- A verifier accepts some proof for the words. -/
def Accepts (host : Host) (verifier : Address) (signals : List Word) : Prop :=
  ∃ proof bytes, parsePublicSignals bytes = some signals
    ∧ host.verify verifier proof bytes = some true

/-- The configured verifiers accept only words for which their circuit has a witness. -/
structure State.Sound (host : Host) (s : State) : Prop where
  withdraw : ∀ signals, Accepts host s.verifier signals →
    ∃ a, WithdrawWitness host.poseidon signals a
  transfer : ∀ verifier, s.xverifier = some verifier → ∀ signals,
    Accepts host verifier signals → ∃ a, TransferWitness host.poseidon signals a
  deposit : ∀ verifier, s.depVerifier = some verifier → ∀ signals,
    Accepts host verifier signals → ∃ a, DepositWitness host.poseidon signals a
  mpc : ∀ verifier, s.mpcVerifier = some verifier → ∀ signals,
    Accepts host verifier signals → ∃ a, MpcWitness host.poseidon signals a
  mpcPriced : ∀ verifier, s.mpcPverifier = some verifier → ∀ signals,
    Accepts host verifier signals → ∃ a, MpcPricedWitness host.poseidon signals a

/-- The note is an input note of the call, according to some witness for its signals. -/
def Call.Opens (H : Hash) (c : Call) (note : Note) : Prop :=
  match c with
  | withdraw _ | withdrawCctp _ | rfqSettle _ | rfqSettleAtomicSwap _ =>
      ∃ a, WithdrawWitness H c.signals a ∧ note = a.note
  | privateTransferSettle _ => ∃ a, TransferWitness H c.signals a ∧ note = a.inNote
  | mpcSettle _ => ∃ a, MpcWitness H c.signals a ∧ (note = a.noteA ∨ note = a.noteB)
  | mpcSettlePriced _ =>
      ∃ a, MpcPricedWitness H c.signals a ∧ (note = a.noteA ∨ note = a.noteB)
  | _ => False

/-- The note is an input note of the action. -/
def Action.Opens (H : Hash) (a : Action) (note : Note) : Prop :=
  ∃ tx c, a = .call tx c ∧ c.Opens H note

/-- The signal words of the call are canonical. -/
def Call.Canonical (c : Call) : Prop := ∀ x ∈ c.signals, x.Canonical

instance (c : Call) : Decidable c.Canonical :=
  List.decidableBAll _ c.signals

/-- The signal words of the action are canonical. -/
def Action.Canonical : Action → Prop
  | call _ c => c.Canonical
  | _ => True

instance (a : Action) : Decidable a.Canonical :=
  match a with
  | .call _ c => inferInstanceAs (Decidable c.Canonical)
  | .registry _ _ => isTrue trivial
  | .mint _ _ _ => isTrue trivial
  | .transfer _ _ _ _ => isTrue trivial
  | .transferFrom _ _ _ _ => isTrue trivial
  | .advance _ => isTrue trivial

/-- A canonical signal, also past the end of the vector. -/
theorem Call.Canonical.getD {c : Call} (h : c.Canonical) (i : ℕ) :
  (c.signals.getD i 0).Canonical
  := by
  by_cases hi : i < c.signals.length
  · rw [List.getD_eq_getElem _ _ hi]
    apply h _ (List.getElem_mem hi)
  · rw [List.getD_eq_default _ _ (by omega)]
    exact r_prime.pos

/-- The signals of a call that carries the encoding of a vector. -/
theorem Call.signals_publicToBytes {c : Call} {signals : List Word}
    (hbytes : c.pubSignalsBytes = some (publicToBytes signals)) (hlen : signals.length < 2 ^ 32) :
  c.signals = signals
  := signals_eq hbytes (parsePublicSignals_publicToBytes hlen)

/-- The canonical words of a vector encode it. -/
theorem encodes_ofFr (publicSignals : List Fr) :
  Encodes (publicSignals.map Word.ofFr) publicSignals
  := by
  rw [Encodes, List.map_map]
  apply List.map_id''
  intro x
  apply Word.toFr_ofFr

/-- A call that carries canonical words is canonical. -/
theorem Call.canonical_ofFr {c : Call} {publicSignals : List Fr}
    (h : c.signals = publicSignals.map Word.ofFr) :
  c.Canonical
  := by
  intro x hx
  rw [h] at hx
  obtain ⟨y, -, rfl⟩ := List.mem_map.mp hx
  apply Word.canonical_ofFr

/-- A call that opens a note spends the nullifier of the note under the domain the call
carries. -/
theorem Call.Opens.nullifier {H : Hash} {c : Call} {note : Note} (h : c.Opens H note) :
  ∃ d i, c.domain = some d ∧ c.signals.getD i 0 ∈ c.nullifiers
    ∧ (c.signals.getD i 0).toFr = nullifierHashOf H note.nullifier d.1.toFr d.2.toFr
  := by
  have hfamily : ∀ a, WithdrawWitness H c.signals a → note = a.note →
      (c.signals.getD 0 0).toFr = nullifierHashOf H note.nullifier (c.signals.getD 8 0).toFr
        (c.signals.getD 9 0).toFr := by
    rintro a ⟨hs, henc⟩ rfl
    rw [henc.getD, henc.getD, henc.getD]
    apply hs.nullifierHash
  cases c with
  | withdraw args =>
      obtain ⟨a, ha, hnote⟩ := h
      exact ⟨_, 0, rfl, by simp [nullifiers], hfamily a ha hnote⟩
  | withdrawCctp args =>
      obtain ⟨a, ha, hnote⟩ := h
      exact ⟨_, 0, rfl, by simp [nullifiers], hfamily a ha hnote⟩
  | rfqSettle args =>
      obtain ⟨a, ha, hnote⟩ := h
      exact ⟨_, 0, rfl, by simp [nullifiers], hfamily a ha hnote⟩
  | rfqSettleAtomicSwap args =>
      obtain ⟨a, ha, hnote⟩ := h
      exact ⟨_, 0, rfl, by simp [nullifiers], hfamily a ha hnote⟩
  | privateTransferSettle args =>
      obtain ⟨a, ⟨hs, henc⟩, rfl⟩ := h
      refine ⟨_, 0, rfl, by simp [nullifiers], ?_⟩
      rw [henc.getD, henc.getD, henc.getD]
      apply hs.nullifierHash
  | mpcSettle args =>
      obtain ⟨a, ⟨hs, henc⟩, rfl | rfl⟩ := h
      · refine ⟨_, 0, rfl, by simp [nullifiers], ?_⟩
        rw [henc.getD, henc.getD, henc.getD]
        apply hs.nullifierHashA
      · refine ⟨_, 1, rfl, by simp [nullifiers], ?_⟩
        rw [henc.getD, henc.getD, henc.getD]
        apply hs.nullifierHashB
  | mpcSettlePriced args =>
      obtain ⟨a, ⟨hs, henc⟩, rfl | rfl⟩ := h
      · refine ⟨_, 0, rfl, by simp [nullifiers], ?_⟩
        rw [henc.getD, henc.getD, henc.getD]
        apply hs.nullifierHashA
      · refine ⟨_, 1, rfl, by simp [nullifiers], ?_⟩
        rw [henc.getD, henc.getD, henc.getD]
        apply hs.nullifierHashB
  | receiveCctpDeposit args => exact absurd h id
  | registerAsset assetId token => exact absurd h id
  | config c => exact absurd h id

end Shade.Pool
