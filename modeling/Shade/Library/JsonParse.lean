import Shade.Library.CanonicalJson
import Shade.Library.JsonText
import Shade.Library.OrderedMap

/-!
# Texts as JSON values

`parse` reads a text as a JSON value, with blanks between the parts and all escapes. The platform
gives the values of numerals. Of two members of an object with one name, the last one stays, in the
place of the first. A printed value is read back, as long as its numbers are and no object in it has
two members with one name.
-/

namespace Json

open Text

/-! ### Strings -/

/-- The code unit is the first one of a pair. -/
def isHigh (u : ℕ) : Bool := 0xd800 ≤ u && u < 0xdc00

/-- The code unit is the second one of a pair. -/
def isLow (u : ℕ) : Bool := 0xdc00 ≤ u && u < 0xe000

/-- The character of a code unit. One of a pair that stands alone is replaced. -/
def ofUnit (u : ℕ) : Char :=
  if isHigh u || isLow u then Char.ofNat 0xfffd else Char.ofNat u

/-- The text with the given code units. -/
def ofUnits : List ℕ → Text
  | [] => []
  | [u] => [ofUnit u]
  | u :: w :: rest =>
      if isHigh u && isLow w then
        Char.ofNat (0x10000 + (u - 0xd800) * 0x400 + (w - 0xdc00)) :: ofUnits rest
      else ofUnit u :: ofUnits (w :: rest)

/-- The code unit of an escape with one letter. -/
def escaped? (c : Char) : Option ℕ :=
  if c = '"' ∨ c = '\\' ∨ c = '/' then some c.toNat
  else if c = 'b' then some 0x08
  else if c = 't' then some 0x09
  else if c = 'n' then some 0x0a
  else if c = 'f' then some 0x0c
  else if c = 'r' then some 0x0d
  else none

/-- The character is a hexadecimal digit. -/
def isHexDigit (c : Char) : Bool :=
  c.isDigit || ('a' ≤ c && c ≤ 'f') || ('A' ≤ c && c ≤ 'F')

/-- The code unit with the given hexadecimal digits. -/
def hexUnit? (digits : List Char) : Option ℕ :=
  if digits.all isHexDigit then some (ofHex (toLower digits)) else none

/-- Read the code units of a string up to its end, and the rest. -/
def readUnits : Text → Option (List ℕ × Text)
  | [] => none
  | c :: x =>
      if c = '"' then some ([], x)
      else if c = '\\' then
        match x with
        | 'u' :: h₁ :: h₂ :: h₃ :: h₄ :: y => do
            let u ← hexUnit? [h₁, h₂, h₃, h₄]
            let (us, rest) ← readUnits y
            return (u :: us, rest)
        | e :: y => do
            let u ← escaped? e
            let (us, rest) ← readUnits y
            return (u :: us, rest)
        | [] => none
      else if c.toNat < 0x20 then none
      else do
        let (us, rest) ← readUnits x
        return (unitsOf c ++ us, rest)

/-- Read a string after its opening quotation mark, and the rest. -/
def readString (t : Text) : Option (Text × Text) :=
  (readUnits t).map fun p => (ofUnits p.1, p.2)

/-! ### Values -/

/-- The blanks between the parts of a value. -/
def isBlank (c : Char) : Bool := c = ' ' || c = '\t' || c = '\n' || c = '\r'

/-- The text without the blanks at its start. -/
def skip (t : Text) : Text := t.dropWhile isBlank

/-- The text after a given start. -/
def literal (start : Text) (t : Text) : Option Text :=
  if start.isPrefixOf t then some (t.drop start.length) else none

section

variable {α : Type} (close : Char) (element : Text → Option (α × Text))

/-- Read elements with commas between them up to the character at the end, at most `n`. -/
def parseElements : ℕ → Text → Option (List α × Text)
  | 0, _ => none
  | n + 1, t => do
      let (a, r) ← element t
      match skip r with
      | [] => none
      | d :: y =>
          if d = ',' then (parseElements n y).map fun p => (a :: p.1, p.2)
          else if d = close then some ([a], y)
          else none

/-- Read a list up to the character at the end. -/
def parseList (n : ℕ) (t : Text) : Option (List α × Text) :=
  match skip t with
  | [] => none
  | d :: y => if d = close then some ([], y) else parseElements close element n t

end

/-- Read a member of an object. -/
def parseMember (value : Text → Option (Json × Text)) (t : Text) :
    Option ((Text × Json) × Text) :=
  match skip t with
  | [] => none
  | c :: x =>
      if c = '"' then do
        let (k, r) ← readString x
        match skip r with
        | [] => none
        | d :: y => if d = ':' then (value y).map fun p => ((k, p.1), p.2) else none
      else none

/-- The members of an object that remain. -/
def ofMembers (members : List (Text × Json)) : List (Text × Json) :=
  members.foldl (fun m f => OrderedMap.set m f.1 f.2) []

/-- The characters of numerals that are read. -/
def isNumeralRead (c : Char) : Bool := isNumeral c || c = 'E'

variable (readNumber : Text → Option ℚ)

/-- Read a value and the rest of a text, in which values are nested at most `n` times. -/
def parseValue : ℕ → Text → Option (Json × Text)
  | 0, _ => none
  | n + 1, t =>
      match skip t with
      | [] => none
      | c :: x =>
          match kindOf c with
          | .null => (literal "ull".toList x).map fun r => (.null, r)
          | .truth => (literal "rue".toList x).map fun r => (.bool true, r)
          | .falsity => (literal "alse".toList x).map fun r => (.bool false, r)
          | .string => (readString x).map fun p => (.string p.1, p.2)
          | .array => (parseList ']' (parseValue n) n x).map fun p => (.array p.1, p.2)
          | .object =>
              (parseList (Char.ofNat 0x7d) (parseMember (parseValue n)) n x).map fun p =>
                (.object (ofMembers p.1), p.2)
          | .number =>
              (readNumber ((c :: x).takeWhile isNumeralRead)).map fun q =>
                (.number q, (c :: x).dropWhile isNumeralRead)

/-- Read a text as a value. -/
def parse (t : Text) : Option Json := do
  let (v, r) ← parseValue readNumber (t.length + 1) t
  guard (skip r = [])
  return v

/-! ### Strings that were printed -/

/-- A text is determined by its code units. -/
theorem ofUnits_codeUnits (s : Text) :
  ofUnits (codeUnits s) = s
  := by
  induction s with
  | nil => rfl
  | cons c s ih =>
      have hvalid : c.toNat < 0xd800 ∨ 0xdfff < c.toNat ∧ c.toNat < 0x110000 := c.valid
      have hcons : codeUnits (c :: s) = unitsOf c ++ codeUnits s := rfl
      rw [hcons, unitsOf]
      split
      · case isTrue h =>
          have hhigh : isHigh c.toNat = false := by
            simp only [isHigh, Bool.and_eq_false_iff, decide_eq_false_iff_not]
            omega
          have hlow : isLow c.toNat = false := by
            simp only [isLow, Bool.and_eq_false_iff, decide_eq_false_iff_not]
            omega
          have hunit : ofUnit c.toNat = c := by
            rw [ofUnit, hhigh, hlow]
            apply Char.ofNat_toNat
          rw [List.cons_append, List.nil_append]
          cases hs : codeUnits s with
          | nil =>
              rw [hs] at ih
              rw [ofUnits, hunit, ← ih]
              rfl
          | cons w rest =>
              rw [ofUnits, hhigh, ← hs, ih, hunit]
              rfl
      · case isFalse h =>
          have hhigh : isHigh (0xd800 + (c.toNat - 0x10000) / 0x400) = true := by
            simp only [isHigh, Bool.and_eq_true, decide_eq_true_eq]
            omega
          have hlow : isLow (0xdc00 + (c.toNat - 0x10000) % 0x400) = true := by
            simp only [isLow, Bool.and_eq_true, decide_eq_true_eq]
            omega
          have hvalue : 0x10000 + (0xd800 + (c.toNat - 0x10000) / 0x400 - 0xd800) * 0x400
              + (0xdc00 + (c.toNat - 0x10000) % 0x400 - 0xdc00) = c.toNat := by omega
          rw [List.cons_append, List.cons_append, List.nil_append, ofUnits, hhigh, hlow, ih, hvalue,
            Char.ofNat_toNat]
          rfl

/-- A letter that starts an escape gives the code unit of its character. -/
theorem readUnits_letter {e : Char} {u : ℕ} (hu : escaped? e = some u) (hne : e ≠ 'u') (x : Text) :
  readUnits ('\\' :: e :: x) = (readUnits x).map fun p => ([u] ++ p.1, p.2)
  := by
  rw [readUnits, if_neg (by decide), if_pos rfl, hu]
  · cases readUnits x <;> rfl
  · intro _ _ _ _ _ h
    apply absurd h hne

theorem hexUnit?_digitChar :
  ∀ n < 0x20, hexUnit? ['0', '0', Nat.digitChar (n / 16), Nat.digitChar (n % 16)] = some n
  := by decide

/-- The code units of a character are read from its escape. -/
theorem readUnits_escape (c : Char) (x : Text) :
  readUnits (escape c ++ x) = (readUnits x).map fun p => (unitsOf c ++ p.1, p.2)
  := by
  have hunits : c.toNat < 0x80 → unitsOf c = [c.toNat] := by
    intro h
    rw [unitsOf, if_pos (by omega)]
  rw [escape]
  split
  · case isTrue h => rw [hunits (by omega), h]; exact readUnits_letter rfl (by decide) x
  split
  · case isTrue h => rw [hunits (by omega), h]; exact readUnits_letter rfl (by decide) x
  split
  · case isTrue h => rw [hunits (by omega), h]; exact readUnits_letter rfl (by decide) x
  split
  · case isTrue h => rw [hunits (by omega), h]; exact readUnits_letter rfl (by decide) x
  split
  · case isTrue h => rw [hunits (by omega), h]; exact readUnits_letter rfl (by decide) x
  split
  · case isTrue h => rw [hunits (by omega), h]; exact readUnits_letter rfl (by decide) x
  split
  · case isTrue h => rw [hunits (by omega), h]; exact readUnits_letter rfl (by decide) x
  split
  · case isTrue h =>
      have hread : "\\u00".toList
            ++ [Nat.digitChar (c.toNat / 16), Nat.digitChar (c.toNat % 16)] ++ x
          = '\\' :: 'u' :: '0' :: '0' :: Nat.digitChar (c.toNat / 16)
            :: Nat.digitChar (c.toNat % 16) :: x := rfl
      rw [hread, readUnits, if_neg (by decide), if_pos rfl, hunits (by omega)]
      dsimp only
      rw [hexUnit?_digitChar _ h]
      cases readUnits x <;> rfl
  · case isFalse hquote hslash _ _ _ _ _ hcontrol =>
      have hne : c ≠ '"' ∧ c ≠ '\\' := by
        constructor
        · rintro rfl
          contradiction
        · rintro rfl
          contradiction
      rw [List.singleton_append, readUnits.eq_def]
      dsimp only
      rw [if_neg hne.1, if_neg hne.2, if_neg hcontrol]
      cases readUnits x <;> rfl

/-- A string is read back. -/
theorem readString_quote (s x : Text) :
  readString (s.flatMap escape ++ '"' :: x) = some (s, x)
  := by
  have hunits : readUnits (s.flatMap escape ++ '"' :: x) = some (codeUnits s, x) := by
    induction s with
    | nil =>
        rw [List.flatMap_nil, List.nil_append, readUnits.eq_def]
        apply if_pos rfl
    | cons c s ih => rw [List.flatMap_cons, List.append_assoc, readUnits_escape, ih]; rfl
  rw [readString, hunits, Option.map_some, ofUnits_codeUnits]

/-! ### Lists that were printed -/

/-- A text that may follow an element of a list: nothing, a comma, or the end of a list. -/
def Ends (x : Text) : Prop := ∀ c y, x = c :: y → c = ',' ∨ c = ']' ∨ c.toNat = 0x7d

/-- A printed element is read back, whatever follows it. -/
def ReadBack {α : Type} (element : Text → Option (α × Text)) (print : α → Text) (a : α) : Prop :=
  ∀ x, Ends x → element (print a ++ x) = some (a, x)

theorem skip_cons {c : Char} (h : isBlank c = false) (x : Text) :
  skip (c :: x) = c :: x
  := by
  rw [skip, List.dropWhile_cons_of_neg]
  rw [h]
  apply Bool.false_ne_true

section

variable {α : Type} {close : Char} {element : Text → Option (α × Text)} {print : α → Text}

theorem parseElements_comma {n : ℕ} {t y : Text} {a : α} (ha : element t = some (a, ',' :: y)) :
  parseElements close element (n + 1) t
    = (parseElements close element n y).map fun p => (a :: p.1, p.2)
  := by
  rw [parseElements, ha]
  rfl

theorem parseElements_close {n : ℕ} {t y : Text} {a : α} (hblank : isBlank close = false)
    (hcomma : close ≠ ',') (ha : element t = some (a, close :: y)) :
  parseElements close element (n + 1) t = some ([a], y)
  := by
  rw [parseElements, ha, Option.bind_eq_bind, Option.bind_some]
  dsimp only
  rw [skip_cons hblank]
  dsimp only
  rw [if_neg hcomma, if_pos rfl]

/-- A printed list is read back after its first element. -/
theorem parseElements_following (hclose : close = ']' ∨ close = Char.ofNat 0x7d) {n : ℕ} {a : α}
    {as : List α} (h : ∀ b ∈ a :: as, ReadBack element print b) (hn : as.length < n) (x : Text) :
  parseElements close element n (print a ++ (following close (as.map print) ++ x))
    = some (a :: as, x)
  := by
  have hends : ∀ ts : List Text, Ends (following close ts ++ x) := by
    intro ts c y heq
    cases ts with
    | nil =>
        obtain ⟨rfl, -⟩ := List.cons.inj heq
        obtain rfl | rfl := hclose <;> decide
    | cons t ts =>
        obtain ⟨rfl, -⟩ := List.cons.inj heq
        decide
  have hcomma : close ≠ ',' ∧ isBlank close = false := by
    obtain rfl | rfl := hclose <;> decide
  induction as generalizing a n with
  | nil =>
      obtain _ | n := n
      · cases hn
      · apply parseElements_close hcomma.2 hcomma.1
        apply h a List.mem_cons_self _ (hends [])
  | cons b as ih =>
      obtain _ | n := n
      · cases hn
      · obtain ⟨ha, htail⟩ := List.forall_mem_cons.mp h
        have hrest := ih htail (Nat.succ_lt_succ_iff.mp hn)
        have hcons : following close ((b :: as).map print) ++ x
            = ',' :: (print b ++ (following close (as.map print) ++ x)) := by
          rw [List.map_cons, following, List.cons_append, List.append_assoc]
        have ha := ha _ (hends ((b :: as).map print))
        rw [hcons] at ha ⊢
        rw [parseElements_comma ha, hrest]
        rfl

/-- A printed list is read back. -/
theorem parseList_listed (hclose : close = ']' ∨ close = Char.ofNat 0x7d) {n : ℕ} {as : List α}
    (hstart : ∀ a ∈ as, ∃ c t, print a = c :: t ∧ isBlank c = false ∧ c ≠ close)
    (h : ∀ a ∈ as, ReadBack element print a) (hn : as.length ≤ n) (x : Text) :
  parseList close element n (listed close (as.map print) ++ x) = some (as, x)
  := by
  have hblank : isBlank close = false := by
    obtain rfl | rfl := hclose <;> decide
  cases as with
  | nil =>
      rw [List.map_nil, listed, List.singleton_append, parseList, skip_cons hblank]
      apply if_pos rfl
  | cons a as =>
      obtain ⟨c, t, hprint, hc, hne⟩ := hstart a List.mem_cons_self
      have hread := parseElements_following hclose h (Nat.lt_of_succ_le hn) x
      have htext : listed close ((a :: as).map print) ++ x
          = print a ++ (following close (as.map print) ++ x) := by
        rw [List.map_cons, listed, List.append_assoc]
      have hskip : skip (print a ++ (following close (as.map print) ++ x))
          = c :: (t ++ (following close (as.map print) ++ x)) := by
        rw [hprint, List.cons_append, skip_cons hc]
      rw [htext, parseList, hskip]
      dsimp only
      rw [if_neg hne, hread]

end

/-! ### Values that were printed -/

/-- Members with different names remain as they are. -/
theorem ofMembers_eq {members : List (Text × Json)} (h : (members.map Prod.fst).Nodup) :
  ofMembers members = members
  := by
  have hset : ∀ (ms m : List (Text × Json)), ((m ++ ms).map Prod.fst).Nodup →
      ms.foldl (fun m f => OrderedMap.set m f.1 f.2) m = m ++ ms := by
    intro ms
    induction ms with
    | nil =>
        intro m _
        rw [List.foldl_nil, List.append_nil]
    | cons f ms ih =>
        intro m hm
        have hnot : f.1 ∉ OrderedMap.keys m := by
          rw [List.map_append, List.nodup_append] at hm
          intro hf
          apply hm.2.2 f.1 hf f.1 _ rfl
          apply List.mem_cons_self
        rw [List.foldl_cons, OrderedMap.set_of_notMem hnot, ih, List.append_assoc]
        · rfl
        · rw [List.append_assoc]
          apply hm
  apply hset members [] h

variable {readNumber} {printNumber : ℚ → Text} {numbers : Set ℚ}

/-- A value starts with a character of its kind that is no blank. -/
theorem exists_start (hnum : NumeralsOn numbers printNumber) {v : Json} (hv : v.Over numbers) :
  ∃ c t, stringify printNumber v = c :: t ∧ kindOf c = v.kind ∧ isBlank c = false ∧ c ≠ ']'
  := by
  obtain ⟨c, t, htext, hkind, -, hclose, -⟩ := exists_head hnum hv
  refine ⟨c, t, htext, hkind, ?_, hclose⟩
  by_contra hblank
  rw [Bool.not_eq_false] at hblank
  have hc : c = ' ' ∨ c = '\t' ∨ c = '\n' ∨ c = '\r' := by
    simpa [isBlank, or_assoc] using hblank
  have hother : kindOf c = .number ∧ isNumeral c = false := by
    obtain rfl | rfl | rfl | rfl := hc <;> decide
  rw [hother.1] at hkind
  cases v with
  | number q =>
      have hnumeral := List.all_eq_true.mp (hnum.numeral q hv.number) c
      rw [stringify] at htext
      rw [htext, hother.2] at hnumeral
      cases hnumeral List.mem_cons_self
  | bool b => cases b <;> cases hkind
  | _ => cases hkind

/-- The numeral of a printed number ends where the number ends. -/
theorem readNumber_append (hnum : NumeralsOn numbers printNumber)
    (hread : ∀ q ∈ numbers, readNumber (printNumber q) = some q) {q : ℚ} (hq : q ∈ numbers)
    {x : Text} (hx : Ends x) :
  readNumber ((printNumber q ++ x).takeWhile isNumeralRead) = some q
    ∧ (printNumber q ++ x).dropWhile isNumeralRead = x
  := by
  have hall : ∀ c ∈ printNumber q, isNumeralRead c = true := by
    intro c hc
    rw [isNumeralRead, List.all_eq_true.mp (hnum.numeral q hq) c hc]
    rfl
  have hend : x.takeWhile isNumeralRead = [] ∧ x.dropWhile isNumeralRead = x := by
    cases x with
    | nil => exact ⟨rfl, rfl⟩
    | cons c y =>
        have hc : ¬ isNumeralRead c = true := by
          obtain rfl | rfl | hbrace := hx c y rfl
          · decide
          · decide
          · rw [eq_ofNat hbrace]
            decide
        rw [List.takeWhile_cons_of_neg hc, List.dropWhile_cons_of_neg hc]
        use rfl
  rw [List.takeWhile_append_of_pos hall, List.dropWhile_append_of_pos hall, hend.1, hend.2,
    List.append_nil]
  use hread q hq

theorem length_le_listed {α : Type} (print : α → Text) (close : Char) (as : List α) :
  as.length ≤ (listed close (as.map print)).length
    ∧ ∀ a ∈ as, (print a).length < (listed close (as.map print)).length
  := by
  have hfollowing : ∀ as : List α, as.length < (following close (as.map print)).length
      ∧ ∀ a ∈ as, (print a).length < (following close (as.map print)).length := by
    intro as
    induction as with
    | nil => simp [following]
    | cons a as ih =>
        simp only [List.map_cons, following, List.length_cons, List.length_append,
          List.forall_mem_cons]
        refine ⟨by omega, by omega, ?_⟩
        intro b hb
        have hlt := ih.2 b hb
        omega
  cases as with
  | nil => simp [listed]
  | cons a as =>
      obtain ⟨hlen, hmem⟩ := hfollowing as
      simp only [List.map_cons, listed, List.length_cons, List.length_append,
        List.forall_mem_cons]
      refine ⟨by omega, by omega, ?_⟩
      intro b hb
      have hlt := hmem b hb
      omega

/-- A printed member is read back if its value is. -/
theorem parseMember_stringify {value : Text → Option (Json × Text)} {f : Text × Json}
    (h : ReadBack value (stringify printNumber) f.2) :
  ReadBack (parseMember value) (stringifyMember printNumber) f
  := by
  intro x hx
  have htext : stringifyMember printNumber f ++ x
      = '"' :: (f.1.flatMap escape ++ '"' :: ':' :: (stringify printNumber f.2 ++ x)) := by
    simp [stringifyMember, quote]
  rw [htext, parseMember, skip_cons (by decide)]
  dsimp only
  rw [if_pos rfl, readString_quote, Option.bind_eq_bind, Option.bind_some]
  dsimp only
  rw [skip_cons (by decide)]
  dsimp only
  rw [if_pos rfl, h x hx]
  rfl

/-- A printed value is read back, whatever follows it. -/
theorem parseValue_stringify (hnum : NumeralsOn numbers printNumber)
    (hread : ∀ q ∈ numbers, readNumber (printNumber q) = some q) (v : Json)
    (hover : v.Over numbers) (hv : NamesDistinct v) :
  ∀ n, (stringify printNumber v).length ≤ n →
    ReadBack (parseValue readNumber (n + 1)) (stringify printNumber) v
  := by
  have start : ∀ v : Json, v.Over numbers → ∀ x : Text, ∃ c t, stringify printNumber v ++ x = c :: t
      ∧ skip (stringify printNumber v ++ x) = c :: t ∧ kindOf c = v.kind := by
    intro v hover x
    obtain ⟨c, t, ht, hkind, hblank, -⟩ := exists_start hnum hover
    refine ⟨c, t ++ x, ?_, ?_, hkind⟩
    · rw [ht, List.cons_append]
    · rw [ht, List.cons_append, skip_cons hblank]
  induction v using parts_induction with
  | null => intro n _ x _; rfl
  | bool b => intro n _ x _; cases b <;> rfl
  | number q =>
      intro n _ x hx
      obtain ⟨c, t, htext, hskip, hkind⟩ := start (.number q) hover x
      obtain ⟨hnumber, hrest⟩ := readNumber_append hnum hread hover.number hx
      rw [stringify] at htext
      rw [parseValue, hskip]
      dsimp only
      rw [hkind]
      dsimp only [kind]
      rw [← htext, hnumber, hrest]
      rfl
  | string s =>
      intro n _ x _
      have htext : stringify printNumber (.string s) ++ x
          = '"' :: (s.flatMap escape ++ '"' :: x) := by
        simp [stringify, quote]
      rw [htext, parseValue, skip_cons (by decide)]
      change (readString _).map _ = _
      rw [readString_quote]
      rfl
  | array items ih =>
      intro n hn x _
      have hlen := length_le_listed (stringify printNumber) ']' items
      have htotal : (stringify printNumber (.array items)).length
          = (listed ']' (items.map (stringify printNumber))).length + 1 := by
        have htext : stringify printNumber (.array items) ++ [] = _ := array_append items []
        simpa using congrArg List.length htext
      obtain _ | n := n
      · omega
      rw [array_append, parseValue, skip_cons (by decide)]
      change (parseList ']' _ _ _).map _ = _
      rw [parseList_listed (.inl rfl)]
      · rfl
      · intro v hmem
        obtain ⟨c, t, ht, -, hblank, hclose⟩ := exists_start hnum (hover.item hmem)
        exact ⟨c, t, ht, hblank, hclose⟩
      · intro v hmem
        apply ih v hmem (hover.item hmem) (hv.item hmem)
        have hlt := hlen.2 v hmem
        omega
      · omega
  | object fields ih =>
      intro n hn x _
      have hlen := length_le_listed (stringifyMember printNumber) (Char.ofNat 0x7d) fields
      have htotal : (stringify printNumber (.object fields)).length
          = (listed (Char.ofNat 0x7d) (fields.map (stringifyMember printNumber))).length + 1 := by
        have htext : stringify printNumber (.object fields) ++ [] = _ := object_append fields []
        simpa using congrArg List.length htext
      obtain _ | n := n
      · omega
      rw [object_append, parseValue, skip_cons (by decide)]
      change (parseList (Char.ofNat 0x7d) _ _ _).map _ = _
      rw [parseList_listed (.inr rfl)]
      · rw [Option.map_some, ofMembers_eq hv.nodup]
      · intro f _
        exact ⟨'"', _, rfl, by decide⟩
      · intro f hmem
        have hlt := hlen.2 f hmem
        rw [stringifyMember, List.length_append] at hlt
        apply parseMember_stringify
        apply ih f hmem (hover.member hmem) (hv.member hmem)
        omega
      · omega

/-- What is printed is read back. -/
theorem parse_stringify (hnum : NumeralsOn numbers printNumber)
    (hread : ∀ q ∈ numbers, readNumber (printNumber q) = some q) {v : Json}
    (hover : v.Over numbers) (hv : NamesDistinct v) :
  parse readNumber (stringify printNumber v) = some v
  := by
  have hends : Ends [] := by
    intro c y h
    cases h
  have hvalue := parseValue_stringify hnum hread v hover hv _ le_rfl [] hends
  rw [List.append_nil] at hvalue
  rw [parse, hvalue]
  rfl

end Json
