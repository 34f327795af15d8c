import Shade.Field
import Shade.Library.Endian
import Shade.Library.Transaction

/-!
# The host

What the contracts take from the environment they run in: 128-bit integers, addresses with
their strkeys, the cryptographic host functions, and the parsing of the public signals a
caller hands over. `Host` collects the parts that are not code of the repository: the hash
functions, signature verification, the answers of the verifier contracts, and the address
of the pool itself.
-/

namespace Shade

open Endian

/-- A byte string. -/
abbrev Bytes : Type := List UInt8

/-- A 64-byte ed25519 signature. -/
abbrev Signature : Type := BitVec 512

/-- A signed 128-bit integer. -/
structure I128 where
  val : ℤ
  ge : -2 ^ 127 ≤ val
  lt : val < 2 ^ 127
deriving DecidableEq, Repr

namespace I128

theorem ext {x y : I128} (h : x.val = y.val) :
  x = y
  := by
  cases x
  cases y
  cases h
  rfl

/-- The 128-bit integer with the given value, if it is in range. -/
def check (z : ℤ) : Option I128 :=
  if h : -2 ^ 127 ≤ z ∧ z < 2 ^ 127 then some ⟨z, h.1, h.2⟩ else none

theorem check_eq_some {z : ℤ} {x : I128} :
  check z = some x ↔ x.val = z
  := by
  unfold check
  split
  · next h =>
      rw [Option.some.injEq]
      constructor
      · rintro rfl
        rfl
      · rintro rfl
        rfl
  · next h =>
      constructor
      · intro hx
        cases hx
      · rintro rfl
        exact absurd ⟨x.ge, x.lt⟩ h

/-- The 16 bytes of the two's complement representation, big-endian. -/
def toBeBytes (x : I128) : Bytes :=
  toBE 16 (x.val % 2 ^ 128).toNat

theorem length_toBeBytes (x : I128) :
  x.toBeBytes.length = 16
  := length_toBE 16 _

/-- A 128-bit integer is determined by its bytes. -/
theorem toBeBytes_injective {x y : I128} (h : x.toBeBytes = y.toBeBytes) :
  x = y
  := by
  have hx := Int.emod_lt_of_pos x.val (b := 2 ^ 128) (by decide)
  have hy := Int.emod_lt_of_pos y.val (b := 2 ^ 128) (by decide)
  have hmod := toBE_injective (k := 16) (by omega) (by omega) h
  have hxr := x.ge
  have hxl := x.lt
  have hyr := y.ge
  have hyl := y.lt
  apply ext
  omega

end I128

/-- The address of an account or a contract, with its 56-character strkey. -/
structure Address where
  strkey : Bytes
  length_strkey : strkey.length = 56
deriving DecidableEq, Repr

/-- A hash function on lists of field elements. -/
abbrev Hash : Type := List Fr → Fr

/-- What the contracts take from their environment. `verify a proof signals` is the answer
of the verifier contract at `a`, or `none` if it traps; `poseidon` hashes a list of field
elements of any length; `self` is the address of the pool. -/
structure Host where
  sha256 : Bytes → Word
  ed25519Verify : Word → Bytes → Signature → Bool
  poseidon : Hash
  verify : Address → Bytes → Bytes → Option Bool
  self : Address

/-- Faults of the host that abort an invocation: a missing value unwrapped, a missing
authorization, an arithmetic overflow, a slice out of range, a signature that does not
verify, a token operation that is refused, and a called contract that aborts. -/
inductive Fault where
  | unwrap
  | auth
  | overflow
  | outOfRange
  | signature
  | token
  | callee
deriving DecidableEq, Repr

/-- Why an invocation aborts: a contract error with its code, a panic with its message, or
a fault of the host. -/
inductive Panic where
  | error (code : ℕ)
  | message (text : String)
  | fault (f : Fault)
deriving DecidableEq, Repr

/-- The 32 bytes of a word. -/
def Word.toBytes (w : Word) : Bytes := toBE 32 w.toNat

theorem Word.toBytes_injective {w w' : Word} (h : w.toBytes = w'.toBytes) :
  w = w'
  := by
  apply BitVec.eq_of_toNat_eq
  apply toBE_injective (k := 32) _ _ h
  · have := w.isLt
    omega
  · have := w'.isLt
    omega

/-- Drop the last byte of a hash and put a zero byte in front. -/
def hashToField (w : Word) : Word := w >>> 8

/-- The field encoding of the hash of the strkey of an address. -/
def recipientHash (h : Host) (a : Address) : Word :=
  hashToField (h.sha256 a.strkey)

/-- The low 16 bytes of a word, as a signed 128-bit integer. -/
def fr32ToI128 (w : Word) : I128 where
  val := (w.setWidth 128).toInt
  ge := by
    have := BitVec.le_toInt (w.setWidth 128)
    omega
  lt := by
    have := BitVec.toInt_lt (x := w.setWidth 128)
    omega

/-- The low 16 bytes of a word that reads as a non-negative number are that number. -/
theorem fr32ToI128_mod {w : Word} (h : 0 ≤ (fr32ToI128 w).val) :
  (w.toNat % 2 ^ 128 : ℕ) = (fr32ToI128 w).val
  := by
  simp only [fr32ToI128, BitVec.toInt_eq_toNat_cond, BitVec.toNat_setWidth] at h ⊢
  split at h
  · rw [if_pos (by assumption)]
  · have := Nat.mod_lt w.toNat (y := 2 ^ 128) (by decide)
    omega

/-- A word that fits in 16 bytes and reads as a non-negative number is that number. -/
theorem fr32ToI128_eq {w : Word} (hw : w.toNat < 2 ^ 128) (h : 0 ≤ (fr32ToI128 w).val) :
  (w.toNat : ℤ) = (fr32ToI128 w).val
  := by
  have := fr32ToI128_mod h
  rwa [Nat.mod_eq_of_lt hw] at this

/-- The four bytes at the front of a byte string as a number, with the bytes after them. -/
def readU32Be (bytes : Bytes) : Option (ℕ × Bytes) :=
  if 4 ≤ bytes.length then some (ofBE (bytes.take 4), bytes.drop 4) else none

/-- The words of 32 bytes at the front of a byte string. -/
def readWords : ℕ → Bytes → Option (List Word)
  | 0, _ => some []
  | n + 1, bytes =>
      if 32 ≤ bytes.length then
        (readWords n (bytes.drop 32)).map (BitVec.ofNat 256 (ofBE (bytes.take 32)) :: ·)
      else
        none

/-- The public signals a byte string encodes: their number in four bytes, and then each
in 32 bytes. What follows the last signal is not read. -/
def parsePublicSignals (bytes : Bytes) : Option (List Word) := do
  let (len, rest) ← readU32Be bytes
  readWords len rest

/-- The encoding of a list of public signals. -/
def publicToBytes (signals : List Word) : Bytes :=
  toBE 4 signals.length ++ signals.flatMap Word.toBytes

/-! ### Reading back an encoding -/

theorem Word.length_toBytes (w : Word) :
  w.toBytes.length = 32
  := length_toBE 32 _

theorem Word.ofNat_toBytes (w : Word) :
  BitVec.ofNat 256 (ofBE w.toBytes) = w
  := by
  apply BitVec.eq_of_toNat_eq
  have hw : w.toNat < 256 ^ 32 := w.isLt
  rw [BitVec.toNat_ofNat, Word.toBytes, ofBE_toBE, Nat.mod_eq_of_lt hw,
    Nat.mod_eq_of_lt w.isLt]

theorem readWords_flatMap (signals : List Word) :
  readWords signals.length (signals.flatMap Word.toBytes) = some signals
  := by
  induction signals with
  | nil => rfl
  | cons w signals ih =>
      have hlen := w.length_toBytes
      rw [List.length_cons, List.flatMap_cons, readWords, List.take_left' hlen,
        List.drop_left' hlen, ih, w.ofNat_toBytes, if_pos]
      · rfl
      · rw [List.length_append, hlen]
        omega

/-- The signals an encoding was made of are read back from it. -/
theorem parsePublicSignals_publicToBytes {signals : List Word}
    (h : signals.length < 2 ^ 32) :
  parsePublicSignals (publicToBytes signals) = some signals
  := by
  have hlen : (toBE 4 signals.length).length = 4 := length_toBE 4 _
  have hnum : ofBE (toBE 4 signals.length) = signals.length := by
    rw [ofBE_toBE, Nat.mod_eq_of_lt (by omega)]
  rw [parsePublicSignals, publicToBytes, readU32Be, if_pos]
  · rw [List.take_left' hlen, List.drop_left' hlen, hnum]
    apply readWords_flatMap
  · rw [List.length_append, hlen]
    omega

end Shade
