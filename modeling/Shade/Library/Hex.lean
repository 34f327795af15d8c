import Shade.Library.Endian
import Shade.Library.Text

/-!
# Hexadecimal texts

`hexBytes` writes bytes with two lower-case digits each, `hexNat` writes a number without
leading zeros and `ofHex` reads digits as a number. The digits of bytes are those of the
number they denote, filled up with zeros in front.
-/

namespace Text

open Endian

/-! ### Digits -/

/-- The two digits of a byte. -/
def hexByte (b : UInt8) : Text :=
  [Nat.digitChar (b.toNat / 16), Nat.digitChar (b.toNat % 16)]

/-- The digits of a list of bytes. -/
def hexBytes (bs : List UInt8) : Text := bs.flatMap hexByte

/-- The digits of a number. -/
def hexNat (n : ℕ) : Text := Nat.toDigits 16 n

/-- The value of a digit, in either case. -/
def hexValue (c : Char) : ℕ :=
  if c.toNat < 58 then c.toNat - 48
  else if c.toNat < 71 then c.toNat - 55
  else c.toNat - 87

/-- The number that a text of digits denotes. -/
def ofHex (t : Text) : ℕ := t.foldl (fun n c => n * 16 + hexValue c) 0

/-- A text in lower case. -/
def toLower (t : Text) : Text := t.map Char.toLower

/-- Each of the sixteen digits has its value. -/
theorem hexValue_digitChar :
  ∀ d < 16, hexValue (Nat.digitChar d) = d
  := by
  decide

/-- The digits are in lower case. -/
theorem toLower_digitChar :
  ∀ d < 16, (Nat.digitChar d).toLower = Nat.digitChar d
  := by
  decide

/-! ### Reading and writing -/

theorem hexBytes_append (bs bs' : List UInt8) :
  hexBytes (bs ++ bs') = hexBytes bs ++ hexBytes bs'
  := List.flatMap_append

/-- The digits of bytes denote the same number as the bytes. -/
theorem ofHex_hexBytes (bs : List UInt8) :
  ofHex (hexBytes bs) = ofBE bs
  := by
  induction bs using List.reverseRecOn with
  | nil => rfl
  | append_singleton bs b ih =>
      have hb := b.toNat_lt
      have hhigh := hexValue_digitChar (b.toNat / 16) (by omega)
      have hlow := hexValue_digitChar (b.toNat % 16) (by omega)
      rw [hexBytes_append, ofBE_append_singleton, ← ih, ofHex, List.foldl_append]
      simp only [hexBytes, hexByte, List.flatMap_singleton, List.foldl_cons, List.foldl_nil,
        hhigh, hlow]
      rw [← hexBytes, ← ofHex]
      omega

/-- The last digit of a number that is filled up to more than one digit. -/
theorem leftpad_hexNat {k : ℕ} (hk : 0 < k) (n : ℕ) :
  (hexNat n).leftpad (k + 1) '0' = (hexNat (n / 16)).leftpad k '0' ++ [Nat.digitChar (n % 16)]
  := by
  rw [hexNat, hexNat]
  by_cases hn : n < 16
  · obtain ⟨k, rfl⟩ := Nat.exists_eq_add_one.mpr hk
    rw [Nat.toDigits_of_lt_base hn, Nat.div_eq_of_lt hn, Nat.mod_eq_of_lt hn, Nat.toDigits_zero]
    simp [List.leftpad, List.replicate_succ']
  · rw [Nat.toDigits_of_base_le (by decide) (by omega), List.leftpad, List.leftpad,
      List.length_append, List.length_singleton, Nat.add_sub_add_right, List.append_assoc]

/-- The digits of bytes are those of the number they denote, with zeros in front. -/
theorem hexBytes_eq {bs : List UInt8} (hbs : bs ≠ []) :
  hexBytes bs = (hexNat (ofBE bs)).leftpad (2 * bs.length) '0'
  := by
  induction bs using List.reverseRecOn with
  | nil => exact absurd rfl hbs
  | append_singleton bs b ih =>
      have hb := b.toNat_lt
      have hlow : (ofBE bs * 256 + b.toNat) % 16 = b.toNat % 16 := by omega
      have hhigh : (ofBE bs * 256 + b.toNat) / 16 = ofBE bs * 16 + b.toNat / 16 := by omega
      have hnext : (ofBE bs * 16 + b.toNat / 16) % 16 = b.toNat / 16 := by omega
      have hrest : (ofBE bs * 16 + b.toNat / 16) / 16 = ofBE bs := by omega
      have hlength : 2 * (bs ++ [b]).length = 2 * bs.length + 1 + 1 := by
        rw [List.length_append, List.length_singleton]
        ring
      rw [hexBytes_append, ofBE_append_singleton, hlength, leftpad_hexNat (by omega), hlow, hhigh]
      by_cases hnil : bs = []
      · subst hnil
        change [Nat.digitChar (b.toNat / 16), Nat.digitChar (b.toNat % 16)] = _
        rw [hexNat, Nat.toDigits_of_lt_base (by simp [ofBE]; omega)]
        simp [ofBE, List.leftpad]
      · have hpos : 0 < 2 * bs.length := by
          have := List.length_pos_of_ne_nil hnil
          omega
        rw [leftpad_hexNat hpos, hnext, hrest, ← ih hnil, List.append_assoc]
        rfl

/-- The digits of bytes are in lower case. -/
theorem toLower_hexBytes (bs : List UInt8) :
  toLower (hexBytes bs) = hexBytes bs
  := by
  induction bs with
  | nil => rfl
  | cons b bs ih =>
      have hb := b.toNat_lt
      have hhigh := toLower_digitChar (b.toNat / 16) (by omega)
      have hlow := toLower_digitChar (b.toNat % 16) (by omega)
      simp only [toLower, hexBytes] at ih ⊢
      rw [List.flatMap_cons, List.map_append, ih, hexByte, List.map_cons, List.map_cons,
        List.map_nil, hhigh, hlow]

end Text
