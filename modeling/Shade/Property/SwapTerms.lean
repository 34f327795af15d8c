import Shade.Library.Digits
import Shade.Pool.Deployment
import Shade.Solver.Rfq

/-!
# The terms of an atomic swap

The solver's client and the pool hash the same bytes for the same terms, with amounts of either
sign, and the bytes determine every field although nothing separates them: each field has a length
of its own.
-/

namespace Shade.Solver

open Endian Text Pool

/-! ### Texts -/

theorem isHex_digitChar :
  ∀ d < 16, isHex (Nat.digitChar d) = true
  := by
  decide

/-- The bytes that a text of digits was made of are read back. -/
theorem fromHex_hexBytes (bs : Bytes) :
  fromHex (hexBytes bs) = bs
  := by
  induction bs with
  | nil => rfl
  | cons b bs ih =>
      have hb := b.toNat_lt
      have hhigh := hexValue_digitChar (b.toNat / 16) (by omega)
      have hlow := hexValue_digitChar (b.toNat % 16) (by omega)
      have hdigits : isHex (Nat.digitChar (b.toNat / 16)) && isHex (Nat.digitChar (b.toNat % 16)) := by
        rw [isHex_digitChar _ (by omega), isHex_digitChar _ (by omega)]
        rfl
      have hbyte : UInt8.ofNat (b.toNat / 16 * 16 + b.toNat % 16) = b := by
        rw [Nat.div_add_mod', UInt8.ofNat_toNat]
      change fromHex (Nat.digitChar (b.toNat / 16) :: Nat.digitChar (b.toNat % 16) :: hexBytes bs)
        = b :: bs
      rw [fromHex, if_pos hdigits, hhigh, hlow, hbyte, ih]

/-! ### Amounts -/

theorem toBE_succ_eq_append (n m : ℕ) :
  toBE (n + 1) m = toBE n (m / 256) ++ [UInt8.ofNat (m % 256)]
  := by
  apply ofBE_injective
  · simp
  · rw [ofBE_append_singleton, ofBE_toBE, ofBE_toBE, UInt8.toNat_ofNat', pow_succ', Nat.mod_mul]
    have hlow : m % 256 % 256 = m % 256 := Nat.mod_mod m 256
    have hpow : (2 : ℕ) ^ 8 = 256 := by norm_num
    rw [hpow, hlow]
    ring

/-- The residue of an integer by its lowest byte and the residue of the rest. -/
theorem emod_pow_succ (n : ℕ) (x : ℤ) :
  x % 256 ^ (n + 1) = x / 256 % 256 ^ n * 256 + x % 256
  := by
  have hpos : (0 : ℤ) < 256 ^ n := by positivity
  have hres := Int.emod_nonneg (x / 256) hpos.ne'
  have hlt := Int.emod_lt_of_pos (x / 256) hpos
  have hpow : (256 : ℤ) ^ (n + 1) = 256 * 256 ^ n := pow_succ' 256 n
  have hx : x = x / 256 % 256 ^ n * 256 + x % 256 + 256 ^ (n + 1) * (x / 256 / 256 ^ n) := by
    have hlow := Int.emod_add_mul_ediv x 256
    have hhigh := Int.emod_add_mul_ediv (x / 256) (256 ^ n)
    rw [hpow]
    linear_combination -hlow - 256 * hhigh
  conv_lhs => rw [hx]
  rw [Int.add_mul_emod_self_left]
  apply Int.emod_eq_of_lt
  · omega
  · omega

/-- The low bytes of an integer are those of its residue. -/
theorem writeLowBytes_eq (n : ℕ) (x : ℤ) (b : Bytes) :
  writeLowBytes n x b = toBE n (x % 256 ^ n).toNat ++ b
  := by
  induction n generalizing x b with
  | zero => rfl
  | succ n ih =>
      have hsplit := emod_pow_succ n x
      have hres : 0 ≤ x / 256 % 256 ^ n := Int.emod_nonneg _ (by positivity)
      have hnat : (x % 256 ^ (n + 1)).toNat
          = (x / 256 % 256 ^ n).toNat * 256 + (x % 256).toNat := by
        omega
      have hlt : (x % 256).toNat < 256 := by
        omega
      have hdiv : (x % 256 ^ (n + 1)).toNat / 256 = (x / 256 % 256 ^ n).toNat := by
        omega
      have hmod : (x % 256 ^ (n + 1)).toNat % 256 = (x % 256).toNat := by
        omega
      rw [writeLowBytes, ih, toBE_succ_eq_append, hdiv, hmod, List.append_assoc]
      rfl

/-- The client writes an amount as the pool does, whatever its sign. -/
theorem i128beBytes_eq (x : I128) :
  i128beBytes x.val = x.toBeBytes
  := by
  rw [i128beBytes, writeLowBytes_eq, List.append_nil, I128.toBeBytes]
  norm_num

/-! ### Recipients -/

/-- Dropping the last byte of a hash and putting a zero byte in front is what the pool does with
the word. -/
theorem toBytes_hashToField (w : Word) :
  (hashToField w).toBytes = 0 :: w.toBytes.take 31
  := by
  have hlen : w.toBytes.length = 32 := w.length_toBytes
  have hvalue : ofBE (w.toBytes.take 31) = w.toNat / 256 := by
    rw [Word.toBytes, toBE_succ_eq_append, List.take_left' (length_toBE 31 _), ofBE_toBE]
    apply Nat.mod_eq_of_lt
    have hlt := w.isLt
    omega
  apply ofBE_injective
  · rw [Word.length_toBytes, List.length_cons, List.length_take, hlen]
    rfl
  · rw [ofBE_cons, hvalue, Word.toBytes, ofBE_toBE, hashToField, BitVec.toNat_ushiftRight,
      Nat.shiftRight_eq_div_pow]
    have hlt := w.isLt
    rw [Nat.mod_eq_of_lt (by omega)]
    simp

/-! ### The terms -/

/-- The client hashes the bytes that the pool hashes. -/
theorem AtomicSwapTerms.Denotes.bytes_eq {t : AtomicSwapTerms} {args : AtomicSwapArgs}
    (h : t.Denotes args) (host : Host) :
  t.bytes host.sha256 = args.terms host
  := by
  rw [AtomicSwapTerms.bytes, AtomicSwapArgs.terms, h.quoteHash, h.outputAssetId, h.quotedOutput,
    h.minOutput, h.priceScaled, i128beBytes_eq, i128beBytes_eq, i128beBytes_eq, recipientHashBytes,
    h.recipient, recipientHash, toBytes_hashToField]

/-- For the same terms the client and the pool hash the same bytes, and if the bytes for the terms
of two swaps are equal then so are all their fields. -/
theorem swapTerms_agree (host : Host) :
  (∀ (t : AtomicSwapTerms) (args : AtomicSwapArgs), t.Denotes args →
      t.bytes host.sha256 = args.terms host)
    ∧ ∀ (t t' : AtomicSwapTerms) (args args' : AtomicSwapArgs), t.Denotes args →
      t'.Denotes args' → t.bytes host.sha256 = t'.bytes host.sha256 →
      args.quoteHash = args'.quoteHash ∧ args.outputAssetId = args'.outputAssetId
        ∧ t.quotedOutput = t'.quotedOutput ∧ t.minOutput = t'.minOutput
        ∧ t.priceScaled = t'.priceScaled
        ∧ recipientHashBytes host.sha256 t.recipientStrkey
          = recipientHashBytes host.sha256 t'.recipientStrkey
  := by
  constructor
  · intro t args h
    apply h.bytes_eq
  · intro t t' args args' h h' heq
    rw [h.bytes_eq, h'.bytes_eq] at heq
    obtain ⟨hquote, hasset, hquoted, hmin, hprice, hrecipient⟩ := AtomicSwapArgs.terms_injective heq
    refine ⟨hquote, hasset, ?_, ?_, ?_, ?_⟩
    · rw [h.quotedOutput, h'.quotedOutput, hquoted]
    · rw [h.minOutput, h'.minOutput, hmin]
    · rw [h.priceScaled, h'.priceScaled, hprice]
    · rw [recipientHashBytes, recipientHashBytes, h.recipient, h'.recipient,
        ← toBytes_hashToField, ← toBytes_hashToField]
      exact congrArg Word.toBytes hrecipient

/-! ### A swap for XLM -/

open Deployment in
/-- A call that swaps the note for 2000000 units of XLM at half the price, with a minimum that
nobody would sign. -/
def halfPriceArgs : AtomicSwapArgs where
  userXlmRecipient := alice
  solverUsdcRecipient := solver
  proofBytes := proof
  pubSignalsBytes := []
  quoteHash := quoteHash
  intentHash := 0
  fillReceiptHash := 0
  outputAssetId := 0x22
  quotedOutput := ⟨2000000, by decide, by decide⟩
  minOutput := ⟨-1900000, by decide, by decide⟩
  priceScaled := ⟨500000000, by decide, by decide⟩
  solverPubkey := solverKey
  solverSig := 0

/-- The terms of this call as the solver's client has them. -/
def halfPriceTerms : AtomicSwapTerms where
  quoteHashHex := "0x".toList ++ hexBytes Deployment.quoteHash.toBytes
  outputAssetIdHex := hexBytes (Word.toBytes 0x22)
  quotedOutput := 2000000
  minOutput := -1900000
  priceScaled := 500000000
  recipientStrkey := "GCZ263YRRAHIKHRFUZB4BNKBFPOQWIRMZ5B2YVW57D7BA2STIWWSHVRI".toList

/-- Both sides hash the same bytes for the call. -/
theorem halfPrice_agree :
  halfPriceTerms.bytes Deployment.quoteHost.sha256 = halfPriceArgs.terms Deployment.quoteHost
  := by
  apply (swapTerms_agree Deployment.quoteHost).1
  constructor
  · change fromHex (strip0x ("0x".toList ++ hexBytes Deployment.quoteHash.toBytes)) = _
    rw [strip0x, if_pos (List.prefix_append _ _)]
    apply fromHex_hexBytes
  · rfl
  · rfl
  · rfl
  · rfl
  · decide

end Shade.Solver
