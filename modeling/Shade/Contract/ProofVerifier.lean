import Shade.Host

/-!
# The proof verifier

The contract that checks Groth16 proofs over BLS12-381, one instance for each circuit with
its verifying key fixed. The curve operations are host functions: `Bls` collects them over
types of points, `none` standing for a trap on an invalid point. A signal is a scalar of
the field, the residue of the word it is read from.
-/

namespace Shade.ProofVerifier

open Endian

/-- The curve operations of the host. -/
structure Bls (G1 G2 : Type) where
  g1FromArray : Bytes → G1
  g2FromArray : Bytes → G2
  g1Neg : G1 → G1
  g1Mul : G1 → Fr → Option G1
  g1Add : G1 → G1 → Option G1
  pairingCheck : List G1 → List G2 → Option Bool

structure VerificationKey (G1 G2 : Type) where
  alpha : G1
  beta : G2
  gamma : G2
  delta : G2
  ic : List G1

structure Proof (G1 G2 : Type) where
  a : G1
  b : G2
  c : G1

/-- The first `n` bytes of a byte string and the bytes after them. -/
def take (n : ℕ) (bytes : Bytes) : Option (Bytes × Bytes) :=
  if n ≤ bytes.length then some (bytes.take n, bytes.drop n) else none

variable {G1 G2 : Type} (bls : Bls G1 G2)

/-- `n` points of the first group at the front of a byte string. -/
def takePoints : ℕ → Bytes → Option (List G1)
  | 0, _ => some []
  | n + 1, bytes => do
      let (point, rest) ← take 96 bytes
      let points ← takePoints n rest
      some (bls.g1FromArray point :: points)

def vkFromBytes (bytes : Bytes) : Option (VerificationKey G1 G2) := do
  let (alpha, rest) ← take 96 bytes
  let (beta, rest) ← take 192 rest
  let (gamma, rest) ← take 192 rest
  let (delta, rest) ← take 192 rest
  let (icLen, rest) ← take 4 rest
  let ic ← takePoints bls (ofBE icLen) rest
  some
    { alpha := bls.g1FromArray alpha
      beta := bls.g2FromArray beta
      gamma := bls.g2FromArray gamma
      delta := bls.g2FromArray delta
      ic := ic }

def proofFromBytes (bytes : Bytes) : Option (Proof G1 G2) := do
  let (a, rest) ← take 96 bytes
  let (b, rest) ← take 192 rest
  let (c, _) ← take 96 rest
  some { a := bls.g1FromArray a, b := bls.g2FromArray b, c := bls.g1FromArray c }

/-- The scalars at the front of a byte string, each the residue of 32 bytes. -/
def takeScalars : ℕ → Bytes → Option (List Fr)
  | 0, _ => some []
  | n + 1, bytes => do
      let (word, rest) ← take 32 bytes
      let scalars ← takeScalars n rest
      some ((ofBE word : Fr) :: scalars)

def publicFromBytes (bytes : Bytes) : Option (List Fr) := do
  let (len, rest) ← take 4 bytes
  takeScalars (ofBE len) rest

/-- The loop of `verify`: add the product of each signal with its point. -/
def accumulate : G1 → List (Fr × G1) → Option G1
  | vkX, [] => some vkX
  | vkX, (s, v) :: rest => do
      let prod ← bls.g1Mul v s
      let vkX ← bls.g1Add vkX prod
      accumulate vkX rest

/-- Check a proof against the stored verifying key; `none` if the contract traps. -/
def verify (vkBytes : Option Bytes) (proof publicInputs : Bytes) : Option Bool :=
  if proof.length = 0 ∨ publicInputs.length = 0 then
    some false
  else
    match vkBytes with
    | none => some false
    | some vkBytes => do
        let vk ← vkFromBytes bls vkBytes
        let proof ← proofFromBytes bls proof
        let pubSignals ← publicFromBytes publicInputs
        if pubSignals.length + 1 ≠ vk.ic.length then
          some false
        else
          let ic0 ← vk.ic[0]?
          let vkX ← accumulate bls ic0 (pubSignals.zip (vk.ic.drop 1))
          bls.pairingCheck [bls.g1Neg proof.a, vk.alpha, vkX, proof.c]
            [proof.b, vk.beta, vk.gamma, vk.delta]

/-! ### The signals of the pool and of the verifier -/

theorem takeScalars_eq (n : ℕ) (bytes : Bytes) :
  takeScalars n bytes = (readWords n bytes).map (List.map Word.toFr)
  := by
  induction n generalizing bytes with
  | zero => rfl
  | succ n ih =>
      rw [takeScalars, readWords, take]
      by_cases h : 32 ≤ bytes.length
      · have hlt := ofBE_lt (bytes.take 32)
        rw [List.length_take_of_le h] at hlt
        have hword : Word.toFr (BitVec.ofNat 256 (ofBE (bytes.take 32)))
            = (ofBE (bytes.take 32) : Fr) := by
          rw [Word.toFr, BitVec.toNat_ofNat, Nat.mod_eq_of_lt (by omega)]
        rw [if_pos h, if_pos h]
        cases hrest : readWords n (bytes.drop 32) with
        | some words => simp [ih, hrest, hword]
        | none => simp [ih, hrest]
      · simp [h]

/-- The verifier reads the residues of the words the pool reads. -/
theorem publicFromBytes_eq (bytes : Bytes) :
  publicFromBytes bytes = (parsePublicSignals bytes).map (List.map Word.toFr)
  := by
  rw [publicFromBytes, parsePublicSignals, take, readU32Be]
  split
  · simp [takeScalars_eq]
  · rfl

end Shade.ProofVerifier
