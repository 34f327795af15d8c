import Mathlib

/-!
# Texts

A text is a list of characters. Texts are compared by their 16-bit code units and encoded in
UTF-8, and `quote`, `object` and `array` write them as JSON without blanks. `decimal` writes
an integer, and `toInt?` reads it back, as it does the other texts of integers that JavaScript
has.
-/

/-- A text, as the list of its characters. -/
abbrev Text : Type := List Char

namespace Text

/-- The 16-bit code units of a character. -/
def unitsOf (c : Char) : List ℕ :=
  if c.toNat < 0x10000 then [c.toNat]
  else [0xd800 + (c.toNat - 0x10000) / 0x400, 0xdc00 + (c.toNat - 0x10000) % 0x400]

/-- The code units of a text. -/
def codeUnits (t : Text) : List ℕ := t.flatMap unitsOf

/-- A text does not come after another in the order of code units. -/
def NotAfter (t t' : Text) : Prop := ¬ codeUnits t' < codeUnits t

instance (t t' : Text) : Decidable (NotAfter t t') :=
  inferInstanceAs (Decidable (¬ codeUnits t' < codeUnits t))

/-- The UTF-8 encoding of a text. -/
def utf8 (t : Text) : List UInt8 := t.flatMap String.utf8EncodeChar

/-- A character inside a JSON string. -/
def escape (c : Char) : Text :=
  if c.toNat = 0x22 then "\\\"".toList
  else if c.toNat = 0x5c then "\\\\".toList
  else if c.toNat = 0x08 then "\\b".toList
  else if c.toNat = 0x09 then "\\t".toList
  else if c.toNat = 0x0a then "\\n".toList
  else if c.toNat = 0x0c then "\\f".toList
  else if c.toNat = 0x0d then "\\r".toList
  else if c.toNat < 0x20 then
    "\\u00".toList ++ [Nat.digitChar (c.toNat / 16), Nat.digitChar (c.toNat % 16)]
  else [c]

/-- A text as a JSON string. -/
def quote (t : Text) : Text := "\"".toList ++ t.flatMap escape ++ "\"".toList

/-- A JSON object with the given names and values, in order. -/
def object (fields : List (Text × Text)) : Text :=
  "\x7b".toList
    ++ List.intercalate ",".toList (fields.map fun f => quote f.1 ++ ":".toList ++ f.2)
    ++ "\x7d".toList

/-- A JSON array with the given values. -/
def array (items : List Text) : Text :=
  "[".toList ++ List.intercalate ",".toList items ++ "]".toList

/-! ### Integers -/

/-- The decimal representation of an integer. -/
def decimal (z : ℤ) : Text := z.repr.toList

/-- The value of a digit in a base of at most 16, in either case. -/
def digit? (base : ℕ) (c : Char) : Option ℕ :=
  let value :=
    if '0' ≤ c ∧ c ≤ '9' then c.toNat - 48
    else if 'A' ≤ c ∧ c ≤ 'F' then c.toNat - 55
    else if 'a' ≤ c ∧ c ≤ 'f' then c.toNat - 87
    else base
  if value < base then some value else none

/-- The number of some digits, if there is at least one. -/
def digits? (base : ℕ) (t : Text) : Option ℕ :=
  if t = [] then none
  else t.foldlM (fun n c => (digit? base c).map fun d => n * base + d) 0

/-- The integer of decimal digits after an optional sign. -/
def signed? : Text → Option ℤ
  | '+' :: t => (digits? 10 t).map Nat.cast
  | '-' :: t => (digits? 10 t).map fun n : ℕ => -(n : ℤ)
  | t => (digits? 10 t).map Nat.cast

/-- The characters that may stand around the text of a number: white space and the ends of lines. -/
def isStrWhiteSpace (c : Char) : Bool :=
  (9 ≤ c.toNat && c.toNat ≤ 13) || (0x2000 ≤ c.toNat && c.toNat ≤ 0x200a)
    || c.toNat ∈ [0x20, 0xa0, 0x1680, 0x2028, 0x2029, 0x202f, 0x205f, 0x3000, 0xfeff]

/-- A text without the white space around it. -/
def trim (t : Text) : Text := (t.dropWhile isStrWhiteSpace).rdropWhile isStrWhiteSpace

/-- The integer that `BigInt` reads: a decimal integer, digits after the mark of their base, or zero
if there is nothing. It throws if the text is none of these. -/
def toInt? (t : Text) : Option ℤ :=
  match trim t with
  | [] => some 0
  | '0' :: 'x' :: t | '0' :: 'X' :: t => (digits? 16 t).map Nat.cast
  | '0' :: 'o' :: t | '0' :: 'O' :: t => (digits? 8 t).map Nat.cast
  | '0' :: 'b' :: t | '0' :: 'B' :: t => (digits? 2 t).map Nat.cast
  | t => signed? t

example : ["", " 7 ", "+5", "-08", "0x1F"].map (fun t => toInt? t.toList)
    = [some 0, some 7, some 5, some (-8), some 31] := by
  decide

example : ["1_000", "0x", "-0x1", "0b2", "1 2"].map (fun t => toInt? t.toList)
    = [none, none, none, none, none] := by
  decide

/-- A text without white space remains when it is trimmed. -/
theorem trim_eq_self {t : Text} (h : ∀ c ∈ t, isStrWhiteSpace c = false) :
  trim t = t
  := by
  have hdrop : t.dropWhile isStrWhiteSpace = t := by
    rw [List.dropWhile_eq_self_iff]
    intro hl
    rw [h _ (List.getElem_mem hl)]
    exact Bool.false_ne_true
  rw [trim, hdrop, List.rdropWhile_eq_self_iff]
  intro hl
  rw [h _ (List.getLast_mem hl)]
  exact Bool.false_ne_true

theorem isStrWhiteSpace_digit {c : Char} (h : c.isDigit = true) :
  isStrWhiteSpace c = false
  := by
  have hdigit : 48 ≤ c.toNat ∧ c.toNat ≤ 57 := by
    simpa [Char.isDigit, UInt32.le_iff_toNat_le] using h
  simp [isStrWhiteSpace]
  omega

theorem digit?_digitChar :
  ∀ d < 10, digit? 10 (Nat.digitChar d) = some d
  := by
  decide

/-- The digits of a number denote it. -/
theorem digits?_toDigits (n : ℕ) :
  digits? 10 (Nat.toDigits 10 n) = some n
  := by
  have hread : (Nat.toDigits 10 n).foldlM
      (fun m c => (digit? 10 c).map fun d => m * 10 + d) 0 = some n := by
    induction n using Nat.strong_induction_on with
    | h n ih =>
        by_cases hn : n < 10
        · rw [Nat.toDigits_of_lt_base hn, List.foldlM_cons, digit?_digitChar n hn]
          simp
        · rw [Nat.toDigits_of_base_le (by omega) (by omega), List.foldlM_append,
            ih _ (by omega), Option.bind_eq_bind, Option.bind_some, List.foldlM_cons,
            digit?_digitChar _ (by omega)]
          simp only [Option.map_some, Option.bind_eq_bind, Option.bind_some, List.foldlM_nil,
            Option.pure_def, Nat.div_add_mod']
  rw [digits?, if_neg Nat.toDigits_ne_nil, hread]

theorem isDigit_toDigits {n : ℕ} {c : Char} (h : c ∈ Nat.toDigits 10 n) :
  c.isDigit = true
  := Nat.isDigit_of_mem_toDigits (by decide) (by decide) h

/-- An integer is written with a sign or without one. -/
theorem decimal_cases (z : ℤ) :
  (∃ n : ℕ, z = n ∧ decimal z = Nat.toDigits 10 n)
    ∨ ∃ n : ℕ, z = -n ∧ decimal z = '-' :: Nat.toDigits 10 n
  := by
  cases z with
  | ofNat n =>
      left
      use n, rfl
      exact Nat.toList_repr
  | negSucc n =>
      right
      use n + 1, rfl
      simp [decimal, Int.repr]

theorem signed?_decimal (z : ℤ) :
  signed? (decimal z) = some z
  := by
  obtain ⟨n, rfl, htext⟩ | ⟨n, rfl, htext⟩ := decimal_cases z
  · have hsign : ∀ c t, c.isDigit = false → Nat.toDigits 10 n ≠ c :: t := by
      intro c t hc ht
      have hdigit := isDigit_toDigits (ht ▸ List.mem_cons_self)
      rw [hc] at hdigit
      contradiction
    rw [htext, signed?, digits?_toDigits]
    · rfl
    · exact fun t => hsign '+' t rfl
    · exact fun t => hsign '-' t rfl
  · rw [htext, signed?, digits?_toDigits]
    rfl

theorem toInt?_decimal (z : ℤ) :
  toInt? (decimal z) = some z
  := by
  have htrim : trim (decimal z) = decimal z := by
    apply trim_eq_self
    obtain ⟨n, -, htext⟩ | ⟨n, -, htext⟩ := decimal_cases z
    · rw [htext]
      exact fun c hc => isStrWhiteSpace_digit (isDigit_toDigits hc)
    · rw [htext, List.forall_mem_cons]
      use rfl
      exact fun c hc => isStrWhiteSpace_digit (isDigit_toDigits hc)
  -- no mark of a base: a digit follows the first character
  have hmark : ∀ c t, decimal z = '0' :: c :: t → c.isDigit = true := by
    intro c t ht
    obtain ⟨n, -, htext⟩ | ⟨n, -, htext⟩ := decimal_cases z
    · rw [htext] at ht
      apply isDigit_toDigits (n := n)
      rw [ht]
      simp
    · rw [htext] at ht
      cases ht
  rw [toInt?, htrim]
  split
  · next h =>
      obtain ⟨n, -, htext⟩ | ⟨n, -, htext⟩ := decimal_cases z
      · exact absurd (htext.symm.trans h) Nat.toDigits_ne_nil
      · cases htext.symm.trans h
  · next h => exact absurd (hmark _ _ h) (by decide)
  · next h => exact absurd (hmark _ _ h) (by decide)
  · next h => exact absurd (hmark _ _ h) (by decide)
  · next h => exact absurd (hmark _ _ h) (by decide)
  · next h => exact absurd (hmark _ _ h) (by decide)
  · next h => exact absurd (hmark _ _ h) (by decide)
  · exact signed?_decimal z

end Text
