import Shade.Contract.PublicSignals

/-!
# The codec of the public signals

What the tool writes is read back by the pool as the words and by the verifier as their residues.
On every byte string, written by the tool or not, the two contracts either both abort or read as
many signals, each the same word and its residue.
-/

namespace Shade

open Endian

/-- The tool writes numbers of 256 bits as the words they are. -/
theorem Circom2Soroban.publicToBytes_eq {signals : List ℕ} (h : ∀ n ∈ signals, n < 2 ^ 256) :
  Circom2Soroban.publicToBytes signals
    = some (Shade.publicToBytes (signals.map fun n => BitVec.ofNat 256 n))
  := by
  have hpadded : ∀ n < 2 ^ 256, Circom2Soroban.padded n = some (Word.toBytes (BitVec.ofNat 256 n)) := by
    intro n hn
    have hlen := (length_toBytesBe_le (k := 32) (by omega)).mpr hn
    rw [Circom2Soroban.padded]
    simp only [hlen, if_true]
    rw [replicate_append_toBytesBe (by omega) hn, Word.toBytes, BitVec.toNat_ofNat,
      Nat.mod_eq_of_lt hn]
  have hwords : signals.mapM Circom2Soroban.padded
      = some (signals.map fun n => Word.toBytes (BitVec.ofNat 256 n)) := by
    induction signals with
    | nil => rfl
    | cons n signals ih =>
        rw [List.forall_mem_cons] at h
        rw [List.mapM_cons, hpadded n h.1, ih h.2]
        rfl
  rw [Circom2Soroban.publicToBytes, hwords, Shade.publicToBytes, List.length_map]
  simp only [Option.bind_eq_bind, Option.bind_some, Option.pure_def, List.flatten_eq_flatMap,
    List.flatMap_map]
  rfl

theorem length_publicToBytes (signals : List Word) :
  (publicToBytes signals).length = 4 + 32 * signals.length
  := by
  have hwords : (signals.flatMap Word.toBytes).length = 32 * signals.length := by
    induction signals with
    | nil => rfl
    | cons w signals ih =>
        rw [List.flatMap_cons, List.length_append, ih, w.length_toBytes, List.length_cons]
        ring
  rw [publicToBytes, List.length_append, length_toBE, hwords]

/-- Signals that have been written are read back, by the pool as words and by the verifier as
residues. On any bytes both abort, or both read as many signals, each a word and its residue. -/
theorem publicSignals_codec :
  (∀ signals : List ℕ, signals.length < 2 ^ 27 → (∀ n ∈ signals, n < 2 ^ 256) →
      ∃ bytes, Circom2Soroban.publicToBytes signals = some bytes
        ∧ Cursor.parsePublicSignals bytes = some (signals.map fun n => BitVec.ofNat 256 n)
        ∧ Cursor.publicFromBytes bytes = some (signals.map fun n : ℕ => (n : Fr)))
    ∧ ∀ bytes, (Cursor.parsePublicSignals bytes = none ∧ Cursor.publicFromBytes bytes = none)
      ∨ ∃ words scalars, Cursor.parsePublicSignals bytes = some words
        ∧ Cursor.publicFromBytes bytes = some scalars ∧ words.length = scalars.length
        ∧ ∀ i : ℕ, scalars[i]? = words[i]?.map fun w => (w.toNat : Fr)
  := by
  constructor
  · intro signals hlen h
    have hread : Cursor.parsePublicSignals
        (publicToBytes (signals.map fun n => BitVec.ofNat 256 n))
          = some (signals.map fun n => BitVec.ofNat 256 n) := by
      rw [Cursor.parsePublicSignals_eq, parsePublicSignals_publicToBytes]
      · rw [List.length_map]
        omega
      · rw [length_publicToBytes, List.length_map]
        omega
    refine ⟨_, Circom2Soroban.publicToBytes_eq h, hread, ?_⟩
    rw [Cursor.publicFromBytes_eq, hread, Option.map_some, List.map_map]
    congr 1
    apply List.map_congr_left
    intro n hn
    rw [Function.comp_apply, Word.toFr, BitVec.toNat_ofNat, Nat.mod_eq_of_lt (h n hn)]
  · intro bytes
    rw [Cursor.publicFromBytes_eq]
    cases hwords : Cursor.parsePublicSignals bytes with
    | none => exact Or.inl ⟨rfl, rfl⟩
    | some words =>
        right
        use words, words.map Word.toFr, rfl, rfl, (List.length_map _).symm
        intro i
        rw [List.getElem?_map]
        rfl

/-- A signal beyond the order of the field is read back as a word and as its residue. -/
theorem publicSignals_codec_two :
  ∃ bytes, Circom2Soroban.publicToBytes [0, r + 1] = some bytes
    ∧ Cursor.parsePublicSignals bytes = some ([0, r + 1].map fun n => BitVec.ofNat 256 n)
    ∧ Cursor.publicFromBytes bytes = some ([0, r + 1].map fun n : ℕ => (n : Fr))
  := by
  apply publicSignals_codec.1 [0, r + 1] (by decide)
  intro n hn
  rcases List.mem_pair.mp hn with rfl | rfl <;> decide

end Shade
