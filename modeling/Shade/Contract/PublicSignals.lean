import Shade.Contract.ProofVerifier
import Shade.Library.Digits

/-!
# Public signals on the wire

The tool that writes the public signals of a proof as bytes, and the two contracts that read
them, each with a cursor of 32 bits that it moves through the bytes. Additions to the cursor are
checked for overflow, and a slice out of range aborts.

On byte strings that fit in a host object the cursors read what is at the front of the rest of
the bytes.
-/

namespace Shade

open Endian

/-! ### The tool -/

namespace Circom2Soroban

/-- The bytes of a signal, filled up to 32; the tool stops if there are more. -/
def padded (v : ℕ) : Option Bytes :=
  let be := toBytesBe v
  if be.length ≤ 32 then
    some (List.replicate (32 - be.length) 0 ++ be)
  else
    none

/-- The number of signals in four bytes, and then each in 32 bytes. -/
def publicToBytes (signals : List ℕ) : Option Bytes := do
  let words ← signals.mapM padded
  return toBE 4 signals.length ++ words.flatten

end Circom2Soroban

/-! ### Cursors -/

namespace Cursor

/-- A position of 32 bits moved on; aborts on overflow. -/
def advance (pos n : ℕ) : Option ℕ :=
  if pos + n < 2 ^ 32 then some (pos + n) else none

/-- The bytes of a range; aborts if it is out of range. -/
def slice (bytes : Bytes) (start stop : ℕ) : Option Bytes :=
  if start ≤ stop ∧ stop ≤ bytes.length then
    some ((bytes.drop start).take (stop - start))
  else
    none

/-- The pool reads a number of four bytes. -/
def readU32Be (bytes : Bytes) (pos : ℕ) : Option (ℕ × ℕ) := do
  let stop ← advance pos 4
  let arr ← slice bytes pos stop
  return (ofBE arr, stop)

/-- The pool reads a number of words of 32 bytes. -/
def readWords (bytes : Bytes) : ℕ → ℕ → Option (List Word)
  | 0, _ => some []
  | n + 1, pos => do
      let stop ← advance pos 32
      let arr ← slice bytes pos stop
      let out ← readWords bytes n stop
      return BitVec.ofNat 256 (ofBE arr) :: out

/-- The public signals that the pool reads. -/
def parsePublicSignals (bytes : Bytes) : Option (List Word) := do
  let (len, pos) ← readU32Be bytes 0
  readWords bytes len pos

/-- The verifier takes a number of bytes. -/
def take (n : ℕ) (bytes : Bytes) (pos : ℕ) : Option (Bytes × ℕ) := do
  let stop ← advance pos n
  let arr ← slice bytes pos stop
  return (arr, stop)

/-- The verifier reads a number of scalars. -/
def takeScalars (bytes : Bytes) : ℕ → ℕ → Option (List Fr)
  | 0, _ => some []
  | n + 1, pos => do
      let (arr, pos) ← take 32 bytes pos
      let signals ← takeScalars bytes n pos
      return (ofBE arr : Fr) :: signals

/-- The public signals that the verifier reads. -/
def publicFromBytes (bytes : Bytes) : Option (List Fr) := do
  let (len, pos) ← take 4 bytes 0
  takeScalars bytes (ofBE len) pos

/-! ### What the cursors read -/

theorem slice_eq_some {bytes arr : Bytes} {start stop : ℕ} (h : slice bytes start stop = some arr) :
  arr.length = stop - start
  := by
  rw [slice] at h
  split at h
  · next hrange =>
      cases h
      rw [List.length_take, List.length_drop]
      omega
  · cases h

/-- In a byte string that fits, moving on and slicing gives the bytes in front if there are
enough. -/
theorem advance_slice {bytes : Bytes} (hfits : bytes.length < 2 ^ 32) {pos : ℕ}
    (hpos : pos ≤ bytes.length) (n : ℕ) {β : Type} (f : Bytes → ℕ → Option β) :
  ((advance pos n).bind fun stop => (slice bytes pos stop).bind fun arr => f arr stop)
    = if n ≤ (bytes.drop pos).length then f ((bytes.drop pos).take n) (pos + n) else none
  := by
  rw [List.length_drop, advance]
  by_cases h : n ≤ bytes.length - pos
  · rw [if_pos h, if_pos (by omega), Option.bind_some, slice, if_pos (by omega), Option.bind_some,
      Nat.add_sub_cancel_left]
  · rw [if_neg h]
    split
    · rw [Option.bind_some, slice, if_neg (by omega), Option.bind_none]
    · rfl

/-- The words read from a position are those at the front of the rest. -/
theorem readWords_eq {bytes : Bytes} (hfits : bytes.length < 2 ^ 32) (n : ℕ) {pos : ℕ}
    (hpos : pos ≤ bytes.length) :
  readWords bytes n pos = Shade.readWords n (bytes.drop pos)
  := by
  induction n generalizing pos with
  | zero => rfl
  | succ n ih =>
      have hstep := advance_slice hfits hpos 32 fun arr stop =>
        (readWords bytes n stop).bind fun out => some (BitVec.ofNat 256 (ofBE arr) :: out)
      rw [Shade.readWords]
      apply hstep.trans
      by_cases h : 32 ≤ (bytes.drop pos).length
      · rw [if_pos h, if_pos h, List.drop_drop, ih]
        · rw [Option.map_eq_bind]
          rfl
        · rw [List.length_drop] at h
          omega
      · rw [if_neg h, if_neg h]

/-- The signals that the pool reads from a byte string that fits. -/
theorem parsePublicSignals_eq {bytes : Bytes} (hfits : bytes.length < 2 ^ 32) :
  parsePublicSignals bytes = Shade.parsePublicSignals bytes
  := by
  have hstep := advance_slice hfits (Nat.zero_le _) 4 fun arr stop => readWords bytes (ofBE arr) stop
  have hread : parsePublicSignals bytes = (advance 0 4).bind fun stop =>
      (slice bytes 0 stop).bind fun arr => readWords bytes (ofBE arr) stop := by
    rw [parsePublicSignals, readU32Be]
    simp only [Option.bind_eq_bind, Option.bind_assoc, Option.pure_def, Option.bind_some]
  rw [hread, hstep, Shade.parsePublicSignals, Shade.readU32Be, List.drop_zero, Nat.zero_add]
  by_cases h : 4 ≤ bytes.length
  · rw [if_pos h, if_pos h, readWords_eq hfits _ h]
    rfl
  · rw [if_neg h, if_neg h]
    rfl

/-- On every byte string the verifier reads the residues of the words that the pool reads. -/
theorem takeScalars_eq (bytes : Bytes) (n pos : ℕ) :
  takeScalars bytes n pos = (readWords bytes n pos).map (List.map Word.toFr)
  := by
  induction n generalizing pos with
  | zero => rfl
  | succ n ih =>
      rw [takeScalars, readWords, take]
      cases hstop : advance pos 32 with
      | none => rfl
      | some stop =>
          have hstop' : stop = pos + 32 := by
            rw [advance] at hstop
            split at hstop
            · exact (Option.some.inj hstop).symm
            · cases hstop
          cases harr : slice bytes pos stop with
          | none => simp [harr]
          | some arr =>
              have hlen := slice_eq_some harr
              have hlt := ofBE_lt arr
              have hword : Word.toFr (BitVec.ofNat 256 (ofBE arr)) = (ofBE arr : Fr) := by
                rw [hlen, hstop', Nat.add_sub_cancel_left] at hlt
                rw [Word.toFr, BitVec.toNat_ofNat, Nat.mod_eq_of_lt (by omega)]
              simp only [harr, Option.bind_eq_bind, Option.bind_some, Option.pure_def, ih]
              cases readWords bytes n stop <;> simp [hword]

theorem publicFromBytes_eq (bytes : Bytes) :
  publicFromBytes bytes = (parsePublicSignals bytes).map (List.map Word.toFr)
  := by
  rw [publicFromBytes, parsePublicSignals, readU32Be, take]
  cases advance 0 4 with
  | none => rfl
  | some stop =>
      cases harr : slice bytes 0 stop with
      | none => simp [harr]
      | some arr => simp [harr, takeScalars_eq]

end Cursor

end Shade
