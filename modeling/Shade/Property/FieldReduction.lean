import Shade.Proving.FieldReduction
import Shade.Property.SwapTerms

/-!
# One field element on and off the chain

What the provers and the registry of assets print for a hash or a strkey is written by the tool as
the bytes of the word that the pool computes, and the number is below the order of the field.
-/

namespace Shade.Proving

open Endian Text Solver

/-! ### Digits -/

/-- The codes of the hexadecimal digits. -/
theorem isHex_iff {c : Char} :
  isHex c = true ↔ (48 ≤ c.toNat ∧ c.toNat ≤ 57) ∨ (65 ≤ c.toNat ∧ c.toNat ≤ 70)
    ∨ (97 ≤ c.toNat ∧ c.toNat ≤ 102)
  := by
  rw [isHex, Bool.or_eq_true, Bool.or_eq_true, or_assoc]
  simp only [Bool.and_eq_true, decide_eq_true_eq, Char.le_def, UInt32.le_iff_toNat_le]
  rfl

theorem hexValue_lt {c : Char} (h : isHex c = true) :
  hexValue c < 16
  := by
  have hcode := isHex_iff.mp h
  rw [hexValue]
  split
  · omega
  · split
    · omega
    · omega

theorem digit?_of_isHex {c : Char} (h : isHex c = true) :
  digit? 16 c = some (hexValue c)
  := by
  have hcode := isHex_iff.mp h
  have hvalue : (if '0' ≤ c ∧ c ≤ '9' then c.toNat - 48
      else if 'A' ≤ c ∧ c ≤ 'F' then c.toNat - 55
      else if 'a' ≤ c ∧ c ≤ 'f' then c.toNat - 87
      else 16) = hexValue c := by
    simp only [Char.le_def, UInt32.le_iff_toNat_le]
    change (if 48 ≤ c.toNat ∧ c.toNat ≤ 57 then c.toNat - 48
      else if 65 ≤ c.toNat ∧ c.toNat ≤ 70 then c.toNat - 55
      else if 97 ≤ c.toNat ∧ c.toNat ≤ 102 then c.toNat - 87
      else 16) = _
    rw [hexValue]
    split_ifs
    all_goals omega
  simp only [digit?, hvalue, if_pos (hexValue_lt h)]

/-- The number of a text of digits that is continued by a digit. -/
theorem ofHex_concat (t : Text) (c : Char) :
  ofHex (t ++ [c]) = ofHex t * 16 + hexValue c
  := by
  rw [ofHex, ofHex, List.foldl_append, List.foldl_cons, List.foldl_nil]

/-- The bytes of a text have digits only. -/
theorem all_isHex_hexBytes (bs : Bytes) :
  (hexBytes bs).all isHex = true
  := by
  rw [hexBytes, List.all_flatMap, List.all_eq_true]
  intro b _
  have hb := b.toNat_lt
  rw [hexByte, List.all_cons, List.all_cons, isHex_digitChar _ (by omega),
    isHex_digitChar _ (by omega)]
  rfl

/-! ### The number of a hash without its last byte -/

/-- The text is a hash in hexadecimal, with digits in either case. -/
def Writes (hex32 : Text) (h : Word) : Prop :=
  ∃ ds : Text, hex32 = "0x".toList ++ ds ∧ ds.length = 64 ∧ ds.all isHex = true
    ∧ ofHex ds = h.toNat

theorem toNat_hashToField (w : Word) :
  (Shade.hashToField w).toNat = w.toNat / 256
  := by
  rw [Shade.hashToField, BitVec.toNat_ushiftRight, Nat.shiftRight_eq_div_pow]

/-- A reduced hash is below the order of the field. -/
theorem toNat_hashToField_lt (w : Word) :
  (Shade.hashToField w).toNat < r
  := by
  have hlt := w.isLt
  rw [toNat_hashToField, r]
  omega

/-- The bytes of a hash without the last one are the number of the reduced hash. -/
theorem ofBE_take_toBytes (w : Word) :
  ofBE (w.toBytes.take 31) = (Shade.hashToField w).toNat
  := by
  have hbytes := congrArg ofBE (toBytes_hashToField w)
  have hlt := (Shade.hashToField w).isLt
  rw [Word.toBytes, ofBE_toBE, Nat.mod_eq_of_lt (by omega), ofBE_cons] at hbytes
  rw [hbytes]
  simp

/-- The first 62 of 64 digits are the number of the reduced hash. -/
theorem ofHex_take (w : Word) {ds : Text} (hlen : ds.length = 64) (hall : ds.all isHex = true)
    (hds : ofHex ds = w.toNat) :
  ofHex (ds.take 62) = (Shade.hashToField w).toNat
  := by
  obtain ⟨c, d, hdrop⟩ : ∃ c d, ds.drop 62 = [c, d] := by
    apply List.length_eq_two.mp
    rw [List.length_drop, hlen]
  have hsplit : ds = ds.take 62 ++ [c] ++ [d] := by
    rw [List.append_assoc, List.singleton_append, ← hdrop, List.take_append_drop]
  have hc : hexValue c < 16 := by
    apply hexValue_lt
    apply List.all_eq_true.mp hall
    rw [hsplit]
    simp
  have hd : hexValue d < 16 := by
    apply hexValue_lt
    apply List.all_eq_true.mp hall
    rw [hsplit]
    simp
  have hnum := congrArg ofHex hsplit
  rw [ofHex_concat, ofHex_concat, hds] at hnum
  rw [toNat_hashToField]
  omega

/-! ### Printed numbers -/

/-- A decimal text is the number of a word, which is below the order of the field, and the tool
writes it as the bytes of the word. -/
structure Prints (t : Text) (w : Word) : Prop where
  number : ofDecimal t = some w.toNat
  below : w.toNat < r
  bytes : signalBytes t = some w.toBytes

theorem ofDecimal_decimal (n : ℕ) :
  ofDecimal (decimal n) = some n
  := by
  rw [ofDecimal, toInt?_decimal, Option.bind_some, if_neg (by omega), Int.toNat_natCast]

theorem bigUint?_decimal (n : ℕ) :
  bigUint? (decimal n) = some n
  := by
  have htext : decimal n = Nat.toDigits 10 n := Nat.toList_repr
  have hplus : ∀ t, Nat.toDigits 10 n ≠ '+' :: t := by
    intro t ht
    exact absurd (isDigit_toDigits (ht ▸ List.mem_cons_self)) (by decide)
  have hscore : (Nat.toDigits 10 n).head? ≠ some '_' := by
    intro hhead
    exact absurd (isDigit_toDigits (List.mem_of_head? hhead)) (by decide)
  have hfilter : (Nat.toDigits 10 n).filter (fun c => c ≠ '_') = Nat.toDigits 10 n := by
    rw [List.filter_eq_self]
    intro c hc
    apply decide_eq_true
    rintro rfl
    exact absurd (isDigit_toDigits hc) (by decide)
  rw [htext, bigUint?]
  · rw [if_neg hscore, hfilter, digits?_toDigits]
  · exact hplus

/-- The decimal text of a reduced hash. -/
theorem prints_hashToField (w : Word) :
  Prints (decimal (Shade.hashToField w).toNat) (Shade.hashToField w)
  := by
  have hlt := (Shade.hashToField w).isLt
  constructor
  · apply ofDecimal_decimal
  · apply toNat_hashToField_lt
  · rw [signalBytes, bigUint?_decimal, Option.bind_some, Circom2Soroban.padded]
    rw [if_pos ((length_toBytesBe_le (by omega)).mpr (by omega)),
      replicate_append_toBytesBe (by omega) (by omega)]
    rfl

/-- A text of digits is read as a number. -/
theorem bigIntOfHex_eq {digits : Text} (hne : digits ≠ []) (hall : digits.all isHex = true) :
  bigIntOfHex digits = some (ofHex digits)
  := by
  have hread : ∀ n, digits.foldlM (fun n c => (digit? 16 c).map fun d => n * 16 + d) n
      = some (digits.foldl (fun n c => n * 16 + hexValue c) n) := by
    clear hne
    induction digits with
    | nil => exact fun _ => rfl
    | cons c digits ih =>
        rw [List.all_cons, Bool.and_eq_true] at hall
        intro n
        rw [List.foldlM_cons, digit?_of_isHex hall.1]
        apply ih hall.2
  have htrim : trim ("0x".toList ++ digits) = '0' :: 'x' :: digits := by
    apply trim_eq_self
    intro c hc
    have hcode : 48 ≤ c.toNat ∧ c.toNat ≤ 120 := by
      rcases List.mem_append.mp hc with hc | hc
      · rcases List.mem_pair.mp hc with rfl | rfl
        · decide
        · decide
      · have := isHex_iff.mp (List.all_eq_true.mp hall c hc)
        omega
    simp [isStrWhiteSpace]
    omega
  rw [bigIntOfHex, toInt?, htrim]
  simp only [digits?, if_neg hne, hread]
  rfl

/-! ### The array of the pool -/

/-- The array when a number of bytes has been moved. -/
theorem foldl_set_eq {src : Bytes} (hsrc : src.length = 32) {n : ℕ} (hn : n ≤ 31) :
  (List.range n).foldl (fun out i => out.set (i + 1) (src.getD i 0)) (List.replicate 32 0)
    = 0 :: (src.take n ++ List.replicate (31 - n) 0)
  := by
  induction n with
  | zero => rfl
  | succ n ih =>
      have hlt : n < src.length := by omega
      have hlen : (src.take n).length = n := by
        rw [List.length_take]
        omega
      have hrest : 31 - n = (31 - (n + 1)) + 1 := by omega
      have htake : src.take (n + 1) = src.take n ++ [src[n]] := by
        rw [List.take_concat_get' src n hlt]
      rw [List.range_succ, List.foldl_append, ih (by omega), List.foldl_cons, List.foldl_nil,
        List.set_cons_succ, List.set_append_right n _ hlen.le, hlen, Nat.sub_self, hrest,
        List.replicate_succ, List.set_cons_zero, htake, List.append_assoc, List.singleton_append,
        List.getD_eq_getElem _ _ hlt]

/-- The pool moves the first 31 bytes of a hash after a zero byte. -/
theorem hashToFieldArray_eq (w : Word) :
  hashToFieldArray w.toBytes = (Shade.hashToField w).toBytes
  := by
  rw [hashToFieldArray, foldl_set_eq w.length_toBytes le_rfl, toBytes_hashToField]
  simp

/-! ### All of them -/

/-- The first 31 bytes of a hash, in hexadecimal, are the number of the reduced hash. -/
theorem bigIntOfHex_hexBytes_take (w : Word) :
  bigIntOfHex (hexBytes (w.toBytes.take 31)) = some (Shade.hashToField w).toNat
  := by
  have hlen : (w.toBytes.take 31).length = 31 := by
    rw [List.length_take, w.length_toBytes]
    rfl
  have hne : hexBytes (w.toBytes.take 31) ≠ [] := by
    intro h
    cases hbytes : w.toBytes.take 31 with
    | nil =>
        rw [hbytes] at hlen
        contradiction
    | cons b bs =>
        rw [hbytes] at h
        contradiction
  rw [bigIntOfHex_eq hne (all_isHex_hexBytes _), ofHex_hexBytes, ofBE_take_toBytes]

/-- A hash that is written in hexadecimal is turned into a text that prints the reduced hash. The
field element of a strkey, and of the contract of a token, prints the hash of the address that the
pool computes, and the identifier of the contract is the same word in hexadecimal. The array that
the pool fills has the bytes of the reduced hash. -/
theorem field_reductions_agree :
  (∀ (hex32 : Text) (h : Word), Writes hex32 h →
    ∃ t, hashToField hex32 = some t ∧ Prints t (Shade.hashToField h))
  ∧ (∀ (host : Host) (a : Address) (s : Text), utf8 s = a.strkey →
      (∃ t, recipientHashField host.sha256 s = some t ∧ assetIdField host.sha256 s = some t
        ∧ Prints t (recipientHash host a))
      ∧ assetIdHex host.sha256 s
        = some ("0x".toList ++ hexBytes (recipientHash host a).toBytes))
  ∧ ∀ h : Word, hashToFieldArray h.toBytes = (Shade.hashToField h).toBytes
  := by
  constructor
  · rintro hex32 h ⟨ds, rfl, hlen, hall, hds⟩
    use decimal (Shade.hashToField h).toNat
    constructor
    · have hstrip : strip0x ("0x".toList ++ ds) = ds := if_pos (List.prefix_append _ ds)
      have hne : ds.take 62 ≠ [] := by
        apply List.ne_nil_of_length_pos
        rw [List.length_take, hlen]
        decide
      have hdigits : (ds.take 62).all isHex = true := by
        rw [List.all_eq_true]
        intro c hc
        apply List.all_eq_true.mp hall c (List.mem_of_mem_take hc)
      rw [hashToField, hstrip, bigIntOfHex_eq hne hdigits, ofHex_take h hlen hall hds]
      rfl
    · apply prints_hashToField
  · constructor
    · intro host a s hs
      have hfield : recipientHashField host.sha256 s
          = some (decimal (recipientHash host a).toNat) := by
        rw [recipientHashField, hs, bigIntOfHex_hexBytes_take]
        rfl
      have hasset : assetIdField host.sha256 s = some (decimal (recipientHash host a).toNat) :=
        hfield
      constructor
      · use decimal (recipientHash host a).toNat, hfield, hasset
        apply prints_hashToField
      · have hbytes : (recipientHash host a).toBytes ≠ [] := by
          apply List.ne_nil_of_length_pos
          rw [Word.length_toBytes]
          decide
        have hlt := (recipientHash host a).isLt
        rw [assetIdHex, hasset, Option.bind_some, ofDecimal_decimal, hexBytes_eq hbytes,
          Word.length_toBytes, Word.toBytes, ofBE_toBE, Nat.mod_eq_of_lt (by omega)]
        rfl
    · apply hashToFieldArray_eq

/-- The strkey of an account. -/
def aliceStrkey : Text := "GCZ263YRRAHIKHRFUZB4BNKBFPOQWIRMZ5B2YVW57D7BA2STIWWSHVRI".toList

open Pool.Deployment in
/-- A hash with many zero digits, and the strkey of an account. -/
theorem field_reductions_agree_alice :
  (∃ t, hashToField ("0x".toList ++ (List.replicate 60 '0' ++ "01fF".toList)) = some t
      ∧ Prints t (Shade.hashToField 511))
    ∧ ∃ t, recipientHashField quoteHost.sha256 aliceStrkey = some t
      ∧ assetIdField quoteHost.sha256 aliceStrkey = some t
      ∧ Prints t (recipientHash quoteHost alice)
  := by
  constructor
  · apply field_reductions_agree.1
    use List.replicate 60 '0' ++ "01fF".toList, rfl
    decide
  · have hs : utf8 aliceStrkey = alice.strkey := by decide
    apply (field_reductions_agree.2.1 quoteHost alice aliceStrkey hs).1

end Shade.Proving
