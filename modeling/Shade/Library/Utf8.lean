import Shade.Library.Text

/-!
# Reading UTF-8

`decode` reads a text from its bytes. It reads every sequence of bytes: where no character is
encoded it writes the replacement character and goes on, and it drops a byte order mark at the
start. What `utf8` writes, it reads.
-/

namespace Utf8

open Text

/-- A sequence of bytes that has been started: its bits, how many bytes are missing, and the
range of the next one. -/
structure Pending where
  bits : ℕ
  missing : ℕ
  lower : ℕ
  upper : ℕ

/-- The character in place of bytes that encode none. -/
def replacement : Char := Char.ofNat 0xfffd

/-- Read a byte that starts a sequence. -/
def first (b : ℕ) : Text × Option Pending :=
  if b ≤ 0x7f then ([Char.ofNat b], none)
  else if 0xc2 ≤ b ∧ b ≤ 0xdf then ([], some ⟨b % 0x20, 1, 0x80, 0xbf⟩)
  else if 0xe0 ≤ b ∧ b ≤ 0xef then
    ([], some ⟨b % 0x10, 2, if b = 0xe0 then 0xa0 else 0x80, if b = 0xed then 0x9f else 0xbf⟩)
  else if 0xf0 ≤ b ∧ b ≤ 0xf4 then
    ([], some ⟨b % 8, 3, if b = 0xf0 then 0x90 else 0x80, if b = 0xf4 then 0x8f else 0xbf⟩)
  else ([replacement], none)

/-- Read a byte. One that does not continue a sequence starts another one. -/
def feed : Option Pending → ℕ → Text × Option Pending
  | none, b => first b
  | some p, b =>
      if p.lower ≤ b ∧ b ≤ p.upper then
        if p.missing = 1 then ([Char.ofNat (p.bits * 64 + b % 64)], none)
        else ([], some ⟨p.bits * 64 + b % 64, p.missing - 1, 0x80, 0xbf⟩)
      else (replacement :: (first b).1, (first b).2)

/-- Read bytes after some that have been read. -/
def decodeFrom : Option Pending → List UInt8 → Text
  | none, [] => []
  | some _, [] => [replacement]
  | p, b :: bs => (feed p b.toNat).1 ++ decodeFrom (feed p b.toNat).2 bs

/-- Read bytes. A byte order mark at the start is dropped. -/
def decode (bs : List UInt8) : Text :=
  match decodeFrom none bs with
  | c :: t => if c.toNat = 0xfeff then t else c :: t
  | [] => []

/-! ### Texts that were written -/

/-- Bytes that continue a sequence leave the last of them to complete it. -/
theorem feed_continue {bits missing lower upper b : ℕ} (hlower : lower ≤ b) (hupper : b ≤ upper)
    (hmissing : missing ≠ 1) :
  feed (some ⟨bits, missing, lower, upper⟩) b
    = ([], some ⟨bits * 64 + b % 64, missing - 1, 0x80, 0xbf⟩)
  := by
  rw [feed, if_pos ⟨hlower, hupper⟩, if_neg hmissing]

/-- The last byte of a sequence gives a character. -/
theorem feed_last {bits lower upper b : ℕ} (hlower : lower ≤ b) (hupper : b ≤ upper) :
  feed (some ⟨bits, 1, lower, upper⟩) b = ([Char.ofNat (bits * 64 + b % 64)], none)
  := by
  rw [feed, if_pos ⟨hlower, hupper⟩, if_pos rfl]

theorem decodeFrom_cons (p : Option Pending) (n : ℕ) (hn : n < 256) (bs : List UInt8) :
  decodeFrom p (UInt8.ofNat n :: bs) = (feed p n).1 ++ decodeFrom (feed p n).2 bs
  := by
  rw [decodeFrom, UInt8.toNat_ofNat_of_lt' hn]

/-- A character is read from its bytes. -/
theorem decodeFrom_utf8EncodeChar (c : Char) (bs : List UInt8) :
  decodeFrom none (String.utf8EncodeChar c ++ bs) = c :: decodeFrom none bs
  := by
  have hmax : c.val.toNat < 0xd800 ∨ 0xdfff < c.val.toNat ∧ c.val.toNat < 0x110000 := c.valid
  have hchar : ∀ n, n = c.val.toNat → Char.ofNat n = c := by
    rintro _ rfl
    apply Char.ofNat_toNat
  unfold String.utf8EncodeChar
  generalize hv : c.val.toNat = v at hmax hchar
  dsimp only
  split
  · case isTrue h1 =>
      -- one byte
      rw [List.cons_append, List.nil_append, decodeFrom_cons _ _ (by omega), feed, first,
        if_pos h1, hchar v rfl]
      rfl
  split
  · case isTrue h1 h2 =>
      -- two bytes
      have hfirst : first (v / 64 % 0x20 + 0xc0) = ([], some ⟨v / 64, 1, 0x80, 0xbf⟩) := by
        rw [first, if_neg (by omega), if_pos (by omega)]
        congr 3
        omega
      simp only [List.cons_append, List.nil_append]
      rw [decodeFrom_cons _ _ (by omega), feed, hfirst, decodeFrom_cons _ _ (by omega),
        feed_last (by omega) (by omega), hchar _ (by omega)]
      rfl
  split
  · case isTrue h1 h2 h3 =>
      -- three bytes
      have hfirst : first (v / 4096 % 0x10 + 0xe0) = ([], some ⟨v / 4096, 2,
          if v / 4096 = 0 then 0xa0 else 0x80, if v / 4096 = 0xd then 0x9f else 0xbf⟩) := by
        rw [first, if_neg (by omega), if_neg (by omega), if_pos (by omega)]
        congr 3
        · omega
        · apply if_congr (by omega) rfl rfl
        · apply if_congr (by omega) rfl rfl
      simp only [List.cons_append, List.nil_append]
      rw [decodeFrom_cons _ _ (by omega), feed, hfirst, decodeFrom_cons _ _ (by omega),
        feed_continue (by split <;> omega) (by split <;> omega) (by omega),
        decodeFrom_cons _ _ (by omega), feed_last (by omega) (by omega), hchar _ (by omega)]
      rfl
  · case isFalse h1 h2 h3 =>
      -- four bytes
      have hfirst : first (v / 262144 % 0x08 + 0xf0) = ([], some ⟨v / 262144, 3,
          if v / 262144 = 0 then 0x90 else 0x80, if v / 262144 = 4 then 0x8f else 0xbf⟩) := by
        rw [first, if_neg (by omega), if_neg (by omega), if_neg (by omega), if_pos (by omega)]
        congr 3
        · omega
        · apply if_congr (by omega) rfl rfl
        · apply if_congr (by omega) rfl rfl
      simp only [List.cons_append, List.nil_append]
      rw [decodeFrom_cons _ _ (by omega), feed, hfirst, decodeFrom_cons _ _ (by omega),
        feed_continue (by split <;> omega) (by split <;> omega) (by omega),
        decodeFrom_cons _ _ (by omega), feed_continue (by omega) (by omega) (by omega),
        decodeFrom_cons _ _ (by omega), feed_last (by omega) (by omega), hchar _ (by omega)]
      rfl

theorem decodeFrom_utf8 (t : Text) :
  decodeFrom none (utf8 t) = t
  := by
  induction t with
  | nil => rfl
  | cons c t ih =>
      have hcons : utf8 (c :: t) = String.utf8EncodeChar c ++ utf8 t := rfl
      rw [hcons, decodeFrom_utf8EncodeChar, ih]

/-- A text that does not start with a byte order mark is read from its bytes. -/
theorem decode_utf8 {c : Char} {t : Text} (h : c.toNat ≠ 0xfeff) :
  decode (utf8 (c :: t)) = c :: t
  := by
  rw [decode, decodeFrom_utf8]
  apply if_neg h

example : decode [0xe2, 0x82, 0x41] = [replacement, 'A'] := by decide

end Utf8
