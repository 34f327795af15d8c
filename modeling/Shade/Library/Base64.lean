import Shade.Library.Text

/-!
# Base64

`btoa` writes bytes with 64 characters, six bits each, and pads the text to a multiple of four
characters. `atob` reads such texts: it skips blanks, and the padding may be left out. What `btoa`
writes, `atob` reads.
-/

namespace Base64

/-- The groups of six bits of a sequence of bytes. Zeros fill the last group. -/
def sextets : List UInt8 → List ℕ
  | a :: b :: c :: rest =>
      a.toNat / 4 :: (a.toNat % 4 * 16 + b.toNat / 16) :: (b.toNat % 16 * 4 + c.toNat / 64)
        :: c.toNat % 64 :: sextets rest
  | [a, b] => [a.toNat / 4, a.toNat % 4 * 16 + b.toNat / 16, b.toNat % 16 * 4]
  | [a] => [a.toNat / 4, a.toNat % 4 * 16]
  | [] => []

/-- The bytes of groups of six bits. Bits that do not fill a byte are dropped. -/
def octets : List ℕ → List UInt8
  | a :: b :: c :: d :: rest =>
      UInt8.ofNat (a * 4 + b / 16) :: UInt8.ofNat (b % 16 * 16 + c / 4)
        :: UInt8.ofNat (c % 4 * 64 + d) :: octets rest
  | [a, b, c] => [UInt8.ofNat (a * 4 + b / 16), UInt8.ofNat (b % 16 * 16 + c / 4)]
  | [a, b] => [UInt8.ofNat (a * 4 + b / 16)]
  | _ => []

/-- The characters, in the order of their values. -/
def alphabet : Text := "ABCDEFGHIJKLMNOPQRSTUVWXYZabcdefghijklmnopqrstuvwxyz0123456789+/".toList

/-- The character of a group of six bits. -/
def digit (n : ℕ) : Char := alphabet.getD n 'A'

/-- The group of six bits of a character. -/
def sextet? (c : Char) : Option ℕ := alphabet.findIdx? fun d => d = c

/-- Write bytes. -/
def btoa (bs : List UInt8) : Text :=
  (sextets bs).map digit ++ List.replicate ((3 - bs.length % 3) % 3) '='

/-- The characters that are skipped. -/
def isBlank (c : Char) : Bool :=
  c = ' ' || c = '\t' || c = '\n' || c = '\r' || c.toNat = 0x0c

/-- A text of a length that is a multiple of four, without the padding at its end. -/
def unpad (t : Text) : Text :=
  if t.length % 4 = 0 then
    match t.reverse with
    | '=' :: '=' :: r => r.reverse
    | '=' :: r => r.reverse
    | _ => t
  else t

/-- Read bytes. -/
def atob (t : Text) : Option (List UInt8) :=
  let t := unpad (t.filter fun c => ¬ isBlank c)
  if t.length % 4 = 1 then none else (t.mapM sextet?).map octets

/-! ### Groups of bits -/

theorem sextets_lt (bs : List UInt8) :
  ∀ n ∈ sextets bs, n < 64
  := by
  induction bs using sextets.induct with
  | case1 a b c rest ih =>
      have ha := a.toNat_lt
      have hb := b.toNat_lt
      have hc := c.toNat_lt
      simp only [sextets, List.forall_mem_cons]
      use by omega, by omega, by omega, by omega
  | case2 a b =>
      have ha := a.toNat_lt
      have hb := b.toNat_lt
      simp only [sextets, List.forall_mem_cons]
      exact ⟨by omega, by omega, by omega, by simp⟩
  | case3 a =>
      have ha := a.toNat_lt
      simp only [sextets, List.forall_mem_cons]
      exact ⟨by omega, by omega, by simp⟩
  | case4 => simp [sextets]

/-- Bytes are put together again from their groups of bits. -/
theorem octets_sextets (bs : List UInt8) :
  octets (sextets bs) = bs
  := by
  have byte : ∀ (a : UInt8) (n : ℕ), n = a.toNat → UInt8.ofNat n = a := by
    rintro a _ rfl
    apply UInt8.ofNat_toNat
  induction bs using sextets.induct with
  | case1 a b c rest ih =>
      have hb := b.toNat_lt
      have hc := c.toNat_lt
      rw [sextets, octets, ih, byte a _ (by omega), byte b _ (by omega), byte c _ (by omega)]
  | case2 a b =>
      have hb := b.toNat_lt
      rw [sextets, octets, byte a _ (by omega), byte b _ (by omega)]
  | case3 a => rw [sextets, octets, byte a _ (by omega)]
  | case4 => rfl

/-- The padding completes the last four characters, and no group of bits is alone. -/
theorem length_sextets (bs : List UInt8) :
  ((sextets bs).length + (3 - bs.length % 3) % 3) % 4 = 0 ∧ (sextets bs).length % 4 ≠ 1
  := by
  induction bs using sextets.induct with
  | case1 a b c rest ih =>
      obtain ⟨hpad, hone⟩ := ih
      simp only [sextets, List.length_cons]
      constructor
      · omega
      · omega
  | case2 a b => simp [sextets]
  | case3 a => simp [sextets]
  | case4 => simp [sextets]

/-! ### Characters -/

/-- The characters of groups of bits are no blanks and no padding, and they are read back. -/
theorem digit_spec :
  ∀ n < 64, sextet? (digit n) = some n ∧ digit n ≠ '=' ∧ isBlank (digit n) = false
  := by decide

theorem mapM_digit {ns : List ℕ} (h : ∀ n ∈ ns, n < 64) :
  (ns.map digit).mapM sextet? = some ns
  := by
  induction ns with
  | nil => rfl
  | cons n ns ih =>
      obtain ⟨hn, hns⟩ := List.forall_mem_cons.mp h
      rw [List.map_cons, List.mapM_cons, (digit_spec n hn).1, ih hns]
      rfl

/-- The padding is found at the end of a text that has none before. -/
theorem unpad_append {t : Text} {k : ℕ} (ht : ∀ c ∈ t, c ≠ '=') (hk : k ≤ 2)
    (hlen : (t.length + k) % 4 = 0) :
  unpad (t ++ List.replicate k '=') = t
  := by
  have hlast : ∀ (c : Char) (r : Text), t.reverse = c :: r → c ≠ '=' := by
    intro c r h
    apply ht c
    rw [← List.mem_reverse, h]
    apply List.mem_cons_self
  rw [unpad, List.length_append, List.length_replicate, if_pos hlen, List.reverse_append,
    List.reverse_replicate]
  obtain _ | _ | _ | k := k
  · cases hr : t.reverse with
    | nil => simp
    | cons c r =>
        have hc := hlast c r hr
        simp [hc]
  · cases hr : t.reverse with
    | nil => simpa using hr.symm
    | cons c r =>
        have hc := hlast c r hr
        simp [← List.reverse_eq_iff.mp hr, hc]
  · simp [List.replicate_succ]
  · omega

/-- What is written is read back. -/
theorem atob_btoa (bs : List UInt8) :
  atob (btoa bs) = some bs
  := by
  have hlt := sextets_lt bs
  obtain ⟨hpad, hone⟩ := length_sextets bs
  have hdigits : ∀ c ∈ (sextets bs).map digit, c ≠ '=' ∧ isBlank c = false := by
    intro c hc
    obtain ⟨n, hn, rfl⟩ := List.mem_map.mp hc
    apply (digit_spec n (hlt n hn)).2
  have hfilter : (btoa bs).filter (fun c => ¬ isBlank c) = btoa bs := by
    rw [List.filter_eq_self]
    intro c hc
    obtain hc | hc := List.mem_append.mp hc
    · simp [(hdigits c hc).2]
    · rw [List.eq_of_mem_replicate hc]
      rfl
  have hunpad : unpad (btoa bs) = (sextets bs).map digit := by
    apply unpad_append
    · intro c hc
      apply (hdigits c hc).1
    · omega
    · rw [List.length_map]
      apply hpad
  rw [atob, hfilter, hunpad, List.length_map, if_neg hone, mapM_digit hlt, Option.map_some,
    octets_sextets]

/-- Different bytes are written differently. -/
theorem btoa_injective :
  Function.Injective btoa
  := by
  intro bs bs' h
  apply Option.some.inj
  rw [← atob_btoa, h, atob_btoa]

example : btoa [77, 97] = "TWE=".toList := by decide

example : atob "TW E".toList = some [77, 97] := by decide

end Base64
