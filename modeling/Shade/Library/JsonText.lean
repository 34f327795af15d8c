import Shade.Library.Hex
import Shade.Library.Json

/-!
# JSON values as texts

`stringify` prints a value without blanks, the members of an object in their order, with texts for
numbers that the platform gives, of which it may represent only some. What follows a printed value
can be told from it, provided that it starts with none of the characters of numerals, as in an array
or an object. Therefore a printed value determines the value, if its numbers are represented.
-/

namespace Json

open Text

/-! ### Strings -/

/-- Read a character inside a string, and the rest. -/
def unescape : Text → Option (Char × Text)
  | '\\' :: '"' :: x => some ('"', x)
  | '\\' :: '\\' :: x => some ('\\', x)
  | '\\' :: 'b' :: x => some (Char.ofNat 0x08, x)
  | '\\' :: 't' :: x => some (Char.ofNat 0x09, x)
  | '\\' :: 'n' :: x => some (Char.ofNat 0x0a, x)
  | '\\' :: 'f' :: x => some (Char.ofNat 0x0c, x)
  | '\\' :: 'r' :: x => some (Char.ofNat 0x0d, x)
  | '\\' :: 'u' :: '0' :: '0' :: h :: l :: x => some (Char.ofNat (hexValue h * 16 + hexValue l), x)
  | c :: x => some (c, x)
  | [] => none

theorem eq_ofNat {c : Char} {n : ℕ} (h : c.toNat = n) :
  c = Char.ofNat n
  := by
  rw [← h, Char.ofNat_toNat]

/-- A character is read back. -/
theorem unescape_escape (c : Char) (x : Text) :
  unescape (escape c ++ x) = some (c, x)
  := by
  rw [escape]
  split
  · case isTrue h => rw [eq_ofNat h]; rfl
  split
  · case isTrue h => rw [eq_ofNat h]; rfl
  split
  · case isTrue h => rw [eq_ofNat h]; rfl
  split
  · case isTrue h => rw [eq_ofNat h]; rfl
  split
  · case isTrue h => rw [eq_ofNat h]; rfl
  split
  · case isTrue h => rw [eq_ofNat h]; rfl
  split
  · case isTrue h => rw [eq_ofNat h]; rfl
  split
  · case isTrue h =>
      change some (Char.ofNat (hexValue (Nat.digitChar (c.toNat / 16)) * 16
        + hexValue (Nat.digitChar (c.toNat % 16))), x) = _
      rw [hexValue_digitChar _ (by omega), hexValue_digitChar _ (by omega), Nat.div_add_mod',
        Char.ofNat_toNat]
  · have hne : c ≠ '\\' := by
      rintro rfl
      contradiction
    rw [List.singleton_append, unescape]
    all_goals simp [hne]

/-- What follows a character inside a string can be told from it. -/
theorem escape_append {c d : Char} {x y : Text} (h : escape c ++ x = escape d ++ y) :
  c = d ∧ x = y
  := by
  have hread := congrArg unescape h
  rw [unescape_escape, unescape_escape] at hread
  apply Prod.mk.inj (Option.some.inj hread)

/-- A character inside a string does not look like its end. -/
theorem escape_ne_quote (c : Char) (x y : Text) :
  escape c ++ x ≠ '"' :: y
  := by
  intro h
  have hread := congrArg unescape h
  rw [unescape_escape, unescape] at hread
  · obtain ⟨rfl, -⟩ := Prod.mk.inj (Option.some.inj hread)
    cases h
  all_goals simp

/-- What follows a string can be told from it. -/
theorem quote_append {s t : Text} {x y : Text} (h : quote s ++ x = quote t ++ y) :
  s = t ∧ x = y
  := by
  have hbody : s.flatMap escape ++ '"' :: x = t.flatMap escape ++ '"' :: y := by
    rw [quote, quote, List.append_assoc, List.append_assoc, List.append_assoc,
      List.append_assoc] at h
    apply List.append_cancel_left h
  clear h
  induction s generalizing t with
  | nil =>
      cases t with
      | nil => exact ⟨rfl, (List.cons.inj hbody).2⟩
      | cons d t =>
          rw [List.flatMap_cons, List.append_assoc] at hbody
          exact absurd hbody.symm (escape_ne_quote d _ x)
  | cons c s ih =>
      rw [List.flatMap_cons, List.append_assoc] at hbody
      cases t with
      | nil => exact absurd hbody (escape_ne_quote c _ y)
      | cons d t =>
          rw [List.flatMap_cons, List.append_assoc] at hbody
          obtain ⟨rfl, hrest⟩ := escape_append hbody
          obtain ⟨rfl, hxy⟩ := ih hrest
          use rfl, hxy

/-! ### Printing -/

/-- The characters of numerals. -/
def isNumeral (c : Char) : Bool := "0123456789+-.e".toList.any fun d => d = c

/-- The numbers of a set are printed as numerals, and different ones differently. -/
structure NumeralsOn (numbers : Set ℚ) (printNumber : ℚ → Text) : Prop where
  injective : Set.InjOn printNumber numbers
  nonempty : ∀ q ∈ numbers, printNumber q ≠ []
  numeral : ∀ q ∈ numbers, (printNumber q).all isNumeral = true

/-- Numbers are printed as numerals, and different numbers differently. -/
def Numerals (printNumber : ℚ → Text) : Prop := NumeralsOn Set.univ printNumber

/-- All numbers in the value are in the set. -/
def Over (numbers : Set ℚ) (v : Json) : Prop :=
  ¬ v.Contains fun u => ∃ q, u = .number q ∧ q ∉ numbers

section

variable {numbers : Set ℚ}

theorem Over.number {q : ℚ} (h : Over numbers (.number q)) :
  q ∈ numbers
  := by
  by_contra hnot
  apply h (Contains.here ⟨q, rfl, hnot⟩)

theorem Over.item {items : List Json} (h : Over numbers (.array items)) {v : Json}
    (hv : v ∈ items) :
  Over numbers v
  := by
  intro hc
  apply h (Contains.item hv hc)

theorem Over.member {fields : List (Text × Json)} (h : Over numbers (.object fields))
    {f : Text × Json} (hf : f ∈ fields) :
  Over numbers f.2
  := by
  intro hc
  apply h (Contains.member hf hc)

theorem over_univ (v : Json) :
  Over Set.univ v
  := by
  intro hc
  induction hc with
  | here h =>
      obtain ⟨q, -, hnot⟩ := h
      apply hnot (Set.mem_univ q)
  | item _ _ ih => apply ih
  | member _ _ ih => apply ih

theorem over_string (s : Text) :
  Over numbers (.string s)
  := by
  intro h
  cases h with
  | here h =>
      obtain ⟨_, h, -⟩ := h
      cases h

theorem over_number {q : ℚ} (hq : q ∈ numbers) :
  Over numbers (.number q)
  := by
  intro h
  cases h with
  | here h =>
      obtain ⟨r, h, hnot⟩ := h
      obtain rfl := number.inj h
      apply hnot hq

theorem over_object {fields : List (Text × Json)} (h : ∀ f ∈ fields, Over numbers f.2) :
  Over numbers (.object fields)
  := by
  intro hc
  cases hc with
  | here h =>
      obtain ⟨_, h, -⟩ := h
      cases h
  | member hf hc => apply h _ hf hc

end

variable (printNumber : ℚ → Text)

mutual

/-- Print a value. -/
def stringify : Json → Text
  | .null => "null".toList
  | .bool b => if b then "true".toList else "false".toList
  | .number q => printNumber q
  | .string s => quote s
  | .array items => Text.array (stringifyItems items)
  | .object fields => Text.object (stringifyFields fields)

/-- Print the items of an array. -/
def stringifyItems : List Json → List Text
  | [] => []
  | v :: vs => stringify v :: stringifyItems vs

/-- Print the members of an object. -/
def stringifyFields : List (Text × Json) → List (Text × Text)
  | [] => []
  | (k, v) :: rest => (k, stringify v) :: stringifyFields rest

end

theorem stringifyItems_eq (items : List Json) :
  stringifyItems printNumber items = items.map (stringify printNumber)
  := by
  apply eq_map rfl
  intro v vs
  rw [stringifyItems]

theorem stringifyFields_eq (fields : List (Text × Json)) :
  stringifyFields printNumber fields = fields.map fun f => (f.1, stringify printNumber f.2)
  := by
  apply eq_map rfl
  intro f rest
  rw [stringifyFields]

/-! ### Reading lists -/

/-- A text that may follow a value: nothing, or what starts with no character of a numeral. -/
def Delimits (x : Text) : Prop := ∀ c y, x = c :: y → isNumeral c = false

/-- What follows a printed element can be told from it, and the element from those with a
property. -/
def Readable {α : Type} (P : α → Prop) (print : α → Text) (a : α) : Prop :=
  ∀ b x y, P b → Delimits x → Delimits y → print a ++ x = print b ++ y → a = b ∧ x = y

/-- The texts of a list, with a comma before each, and a character at the end. -/
def following (close : Char) : List Text → Text
  | [] => [close]
  | t :: ts => ',' :: (t ++ following close ts)

/-- The texts of a list, with commas between them, and a character at the end. -/
def listed (close : Char) : List Text → Text
  | [] => [close]
  | t :: ts => t ++ following close ts

theorem intercalate_append (close : Char) (ts : List Text) :
  List.intercalate ",".toList ts ++ [close] = listed close ts
  := by
  cases ts with
  | nil => rfl
  | cons t ts =>
      rw [listed]
      induction ts generalizing t with
      | nil => simp [List.intercalate, following]
      | cons u us ih =>
          have hcons : List.intercalate ",".toList (t :: u :: us)
              = t ++ ',' :: List.intercalate ",".toList (u :: us) := by
            simp [List.intercalate]
          rw [hcons, following, ← ih u, List.append_assoc, List.cons_append]

variable {printNumber}

section

variable {α : Type} {P : α → Prop} {print : α → Text} {close : Char}

theorem delimits_following (hclose : isNumeral close = false) (ts : List Text) (x : Text) :
  Delimits (following close ts ++ x)
  := by
  intro c y h
  cases ts with
  | nil =>
      obtain ⟨rfl, -⟩ := List.cons.inj h
      apply hclose
  | cons t ts =>
      obtain ⟨rfl, -⟩ := List.cons.inj h
      rfl

/-- The elements after a comma, and what follows them, can be told from the text. -/
theorem following_append (hclose : isNumeral close = false) (hcomma : close ≠ ',') {as bs : List α}
    (has : ∀ a ∈ as, Readable P print a) (hbs : ∀ b ∈ bs, P b) {x y : Text}
    (h : following close (as.map print) ++ x = following close (bs.map print) ++ y) :
  as = bs ∧ x = y
  := by
  induction as generalizing bs with
  | nil =>
      cases bs with
      | nil => exact ⟨rfl, (List.cons.inj h).2⟩
      | cons b bs => exact absurd (List.cons.inj h).1 hcomma
  | cons a as ih =>
      cases bs with
      | nil => exact absurd (List.cons.inj h).1.symm hcomma
      | cons b bs =>
          obtain ⟨ha, has⟩ := List.forall_mem_cons.mp has
          obtain ⟨hb, hrest'⟩ := List.forall_mem_cons.mp hbs
          have hrest : print a ++ (following close (as.map print) ++ x)
              = print b ++ (following close (bs.map print) ++ y) := by
            simpa [following] using h
          obtain ⟨rfl, hafter⟩ := ha b _ _ hb (delimits_following hclose _ x)
            (delimits_following hclose _ y) hrest
          obtain ⟨rfl, hxy⟩ := ih has hrest' hafter
          use rfl, hxy

/-- The elements of a list, and what follows it, can be told from the text. -/
theorem listed_append (hclose : isNumeral close = false) (hcomma : close ≠ ',')
    (hstart : ∀ a t, P a → print a ≠ [] ∧ print a ≠ close :: t) {as bs : List α}
    (has : ∀ a ∈ as, P a ∧ Readable P print a) (hbs : ∀ b ∈ bs, P b) {x y : Text}
    (h : listed close (as.map print) ++ x = listed close (bs.map print) ++ y) :
  as = bs ∧ x = y
  := by
  have hhead : ∀ (a : α) (t u : Text), P a → close :: u ≠ print a ++ t := by
    intro a t u ha heq
    cases hp : print a with
    | nil => apply (hstart a [] ha).1 hp
    | cons c s =>
        rw [hp] at heq
        obtain ⟨rfl, -⟩ := List.cons.inj heq
        apply (hstart a s ha).2 hp
  cases as with
  | nil =>
      cases bs with
      | nil => exact ⟨rfl, (List.cons.inj h).2⟩
      | cons b bs =>
          rw [List.map_cons, listed, List.append_assoc] at h
          exact absurd h (hhead b _ x (hbs b List.mem_cons_self))
  | cons a as =>
      rw [List.map_cons, listed, List.append_assoc] at h
      obtain ⟨⟨ha, hread⟩, has⟩ := List.forall_mem_cons.mp has
      cases bs with
      | nil => exact absurd h.symm (hhead a _ y ha)
      | cons b bs =>
          rw [List.map_cons, listed, List.append_assoc] at h
          obtain ⟨hb, hrest'⟩ := List.forall_mem_cons.mp hbs
          obtain ⟨rfl, hrest⟩ := hread b _ _ hb (delimits_following hclose _ x)
            (delimits_following hclose _ y) h
          obtain ⟨rfl, hxy⟩ := following_append hclose hcomma (fun a ha => (has a ha).2) hrest'
            hrest
          use rfl, hxy

end

/-! ### Reading values -/

variable {numbers : Set ℚ}

/-- The value that a character starts. -/
inductive Kind where
  | null
  | truth
  | falsity
  | number
  | string
  | array
  | object
deriving DecidableEq

/-- The kind of a value. -/
def kind : Json → Kind
  | .null => .null
  | .bool true => .truth
  | .bool false => .falsity
  | .number _ => .number
  | .string _ => .string
  | .array _ => .array
  | .object _ => .object

/-- The kind of the value that starts with a character. -/
def kindOf (c : Char) : Kind :=
  if c = 'n' then .null
  else if c = 't' then .truth
  else if c = 'f' then .falsity
  else if c = '"' then .string
  else if c = '[' then .array
  else if c.toNat = 0x7b then .object
  else .number

/-- A value starts with a character of its kind. -/
theorem exists_head (hnum : NumeralsOn numbers printNumber) {v : Json} (hv : v.Over numbers) :
  ∃ c t, stringify printNumber v = c :: t ∧ kindOf c = v.kind ∧ c ≠ ',' ∧ c ≠ ']'
    ∧ c.toNat ≠ 0x7d
  := by
  cases v with
  | null => exact ⟨'n', _, rfl, by decide⟩
  | bool b =>
      cases b with
      | true => exact ⟨'t', _, rfl, by decide⟩
      | false => exact ⟨'f', _, rfl, by decide⟩
  | number q =>
      cases hq : printNumber q with
      | nil => exact absurd hq (hnum.nonempty q hv.number)
      | cons c t =>
          have hc : isNumeral c = true := by
            apply List.all_eq_true.mp (hnum.numeral q hv.number)
            rw [hq]
            apply List.mem_cons_self
          have hkind : ∀ d ∈ "0123456789+-.e".toList,
              kindOf d = .number ∧ d ≠ ',' ∧ d ≠ ']' ∧ d.toNat ≠ 0x7d := by
            intro d hd
            have hlist : d ∈ ['0', '1', '2', '3', '4', '5', '6', '7', '8', '9', '+', '-', '.', 'e'] :=
              hd
            fin_cases hlist <;> decide
          obtain ⟨d, hd, heq⟩ := List.any_eq_true.mp hc
          obtain rfl := of_decide_eq_true heq
          exact ⟨d, t, hq, hkind d hd⟩
  | string s =>
      have hkind : kindOf '"' = .string ∧ '"' ≠ ',' ∧ '"' ≠ ']' ∧ '"'.toNat ≠ 0x7d := by decide
      exact ⟨'"', _, rfl, hkind⟩
  | array items =>
      have hkind : kindOf '[' = .array ∧ '[' ≠ ',' ∧ '[' ≠ ']' ∧ '['.toNat ≠ 0x7d := by decide
      exact ⟨'[', _, rfl, hkind⟩
  | object fields =>
      have hkind : kindOf (Char.ofNat 0x7b) = .object ∧ Char.ofNat 0x7b ≠ ','
          ∧ Char.ofNat 0x7b ≠ ']' ∧ (Char.ofNat 0x7b).toNat ≠ 0x7d := by decide
      exact ⟨Char.ofNat 0x7b, _, rfl, hkind⟩

/-- Two values that start with the same character have the same kind. -/
theorem kind_eq (hnum : NumeralsOn numbers printNumber) {v w : Json} (hv : v.Over numbers)
    (hw : w.Over numbers) {x y : Text}
    (h : stringify printNumber v ++ x = stringify printNumber w ++ y) :
  v.kind = w.kind
  := by
  obtain ⟨c, t, hvt, hc, -⟩ := exists_head hnum hv
  obtain ⟨d, u, hwu, hd, -⟩ := exists_head hnum hw
  rw [hvt, hwu] at h
  obtain ⟨rfl, -⟩ := List.cons.inj h
  rw [← hc, hd]

theorem stringify_number_takeWhile (hnum : NumeralsOn numbers printNumber) {q : ℚ}
    (hq : q ∈ numbers) {x : Text} (hx : Delimits x) :
  (printNumber q ++ x).takeWhile isNumeral = printNumber q
  := by
  rw [List.takeWhile_append_of_pos (List.all_eq_true.mp (hnum.numeral q hq))]
  cases x with
  | nil => rw [List.takeWhile_nil, List.append_nil]
  | cons c y =>
      rw [List.takeWhile_cons_of_neg, List.append_nil]
      rw [hx c y rfl]
      apply Bool.false_ne_true

theorem array_append (items : List Json) (x : Text) :
  stringify printNumber (.array items) ++ x
    = '[' :: (listed ']' (items.map (stringify printNumber)) ++ x)
  := by
  rw [stringify, Text.array, stringifyItems_eq, ← intercalate_append]
  simp

/-- Print a member of an object. -/
def stringifyMember (printNumber : ℚ → Text) (f : Text × Json) : Text :=
  quote f.1 ++ ":".toList ++ stringify printNumber f.2

theorem object_append (fields : List (Text × Json)) (x : Text) :
  stringify printNumber (.object fields) ++ x
    = Char.ofNat 0x7b :: (listed (Char.ofNat 0x7d) (fields.map (stringifyMember printNumber)) ++ x)
  := by
  have hmap : (fields.map fun f => (f.1, stringify printNumber f.2)).map
      (fun f => quote f.1 ++ ":".toList ++ f.2) = fields.map (stringifyMember printNumber) := by
    rw [List.map_map]
    rfl
  rw [stringify, Text.object, stringifyFields_eq, hmap, ← intercalate_append]
  simp

theorem readable_member {P : Json → Prop} {f : Text × Json}
    (h : Readable P (stringify printNumber) f.2) :
  Readable (fun g => P g.2) (stringifyMember printNumber) f
  := by
  rintro ⟨k, w⟩ x y hw hx hy heq
  simp only [stringifyMember, List.append_assoc] at heq
  obtain ⟨hk, hrest⟩ := quote_append heq
  obtain ⟨hv, hxy⟩ := h w x y hw hx hy (List.append_cancel_left hrest)
  use Prod.ext hk hv, hxy

/-- A value is not printed like the end of an array. -/
theorem stringify_start (hnum : NumeralsOn numbers printNumber) (v : Json) (t : Text)
    (hv : v.Over numbers) :
  stringify printNumber v ≠ [] ∧ stringify printNumber v ≠ ']' :: t
  := by
  obtain ⟨c, u, hvu, -, -, hc, -⟩ := exists_head hnum hv
  rw [hvu]
  use List.cons_ne_nil c u
  intro heq
  apply hc (List.cons.inj heq).1

/-- A member is not printed like the end of an object. -/
theorem stringifyMember_start (f : Text × Json) (t : Text) :
  stringifyMember printNumber f ≠ [] ∧ stringifyMember printNumber f ≠ Char.ofNat 0x7d :: t
  := by
  have hhead : stringifyMember printNumber f = '"' :: (f.1.flatMap escape ++ "\"".toList
      ++ ":".toList ++ stringify printNumber f.2) := rfl
  rw [hhead]
  use List.cons_ne_nil _ _
  intro heq
  cases (List.cons.inj heq).1

/-- What follows a printed value can be told from it. -/
theorem readable_stringify (hnum : NumeralsOn numbers printNumber) (v : Json)
    (hv : v.Over numbers) :
  Readable (Over numbers) (stringify printNumber) v
  := by
  induction v using parts_induction with
  | null =>
      intro w x y hw hx hy h
      have hkind := kind_eq hnum hv hw h
      cases w with
      | null => exact ⟨rfl, List.append_cancel_left h⟩
      | bool b => cases b <;> cases hkind
      | _ => cases hkind
  | bool b =>
      intro w x y hw hx hy h
      have hkind := kind_eq hnum hv hw h
      cases w with
      | bool b' =>
          have hb : b = b' := by
            cases b <;> cases b' <;> first | rfl | cases hkind
          obtain rfl := hb
          exact ⟨rfl, List.append_cancel_left h⟩
      | _ => cases b <;> cases hkind
  | number q =>
      intro w x y hw hx hy h
      have hkind := kind_eq hnum hv hw h
      cases w with
      | number r =>
          have hread := congrArg (List.takeWhile isNumeral) h
          rw [stringify, stringify, stringify_number_takeWhile hnum hv.number hx,
            stringify_number_takeWhile hnum hw.number hy] at hread
          obtain rfl := hnum.injective hv.number hw.number hread
          exact ⟨rfl, List.append_cancel_left h⟩
      | bool b => cases b <;> cases hkind
      | _ => cases hkind
  | string s =>
      intro w x y hw hx hy h
      have hkind := kind_eq hnum hv hw h
      cases w with
      | string t =>
          obtain ⟨rfl, hxy⟩ := quote_append h
          use rfl, hxy
      | bool b => cases b <;> cases hkind
      | _ => cases hkind
  | array items ih =>
      intro w x y hw hx hy h
      have hkind := kind_eq hnum hv hw h
      cases w with
      | array items' =>
          rw [array_append, array_append] at h
          obtain ⟨rfl, hxy⟩ := listed_append rfl (by decide) (stringify_start hnum)
            (fun u hu => ⟨hv.item hu, ih u hu (hv.item hu)⟩) (fun u hu => hw.item hu)
            (List.cons.inj h).2
          use rfl, hxy
      | bool b => cases b <;> cases hkind
      | _ => cases hkind
  | object fields ih =>
      intro w x y hw hx hy h
      have hkind := kind_eq hnum hv hw h
      cases w with
      | object fields' =>
          rw [object_append, object_append] at h
          obtain ⟨rfl, hxy⟩ := listed_append rfl (by decide)
            (fun f t _ => stringifyMember_start f t)
            (fun f hf => ⟨hv.member hf, readable_member (ih f hf (hv.member hf))⟩)
            (fun f hf => hw.member hf) (List.cons.inj h).2
          use rfl, hxy
      | bool b => cases b <;> cases hkind
      | _ => cases hkind

/-- Different values over the numbers are printed differently. -/
theorem stringify_injOn (hnum : NumeralsOn numbers printNumber) :
  Set.InjOn (stringify printNumber) {v | v.Over numbers}
  := by
  intro v hv w hw h
  have hnil : Delimits [] := by
    intro c y hy
    cases hy
  apply (readable_stringify hnum v hv w [] [] hw hnil hnil (by rw [h])).1

/-- Different values are printed differently. -/
theorem stringify_injective (hnum : Numerals printNumber) :
  Function.Injective (stringify printNumber)
  := by
  intro v w h
  apply stringify_injOn hnum (over_univ v) (over_univ w) h

/-! ### A printer of numbers -/

/-- The numerator of a number in decimal digits, followed by the denominator of a fraction. -/
def printFraction (q : ℚ) : Text :=
  decimal q.num ++ if q.den = 1 then [] else 'e' :: decimal q.den

theorem decimal_injective :
  Function.Injective decimal
  := by
  intro y z h
  have hread := congrArg toInt? h
  rw [toInt?_decimal, toInt?_decimal] at hread
  apply Option.some.inj hread

/-- An integer is printed with digits and a sign. -/
theorem isDigit_or_of_mem_decimal {z : ℤ} {c : Char} (h : c ∈ decimal z) :
  c.isDigit ∨ c = '-'
  := by
  rw [decimal, Int.repr_eq_if] at h
  split at h
  · left
    have hrepr : c ∈ Nat.toDigits 10 z.toNat := by simpa using h
    apply Nat.isDigit_of_mem_toDigits (by decide) (by decide) hrepr
  · rw [String.toList_append, List.mem_append] at h
    obtain h | h := h
    · right
      apply List.mem_singleton.mp h
    · left
      have hrepr : c ∈ Nat.toDigits 10 (-z).toNat := by simpa using h
      apply Nat.isDigit_of_mem_toDigits (by decide) (by decide) hrepr

theorem isNumeral_of_mem_decimal {z : ℤ} {c : Char} (h : c ∈ decimal z) :
  isNumeral c = true ∧ c ≠ 'e'
  := by
  obtain hdigit | rfl := isDigit_or_of_mem_decimal h
  · obtain ⟨hlow, hhigh⟩ := Char.isDigit_iff_toNat.mp hdigit
    have hhigh : c.toNat ≤ 57 := hhigh
    have hlow : 48 ≤ c.toNat := hlow
    rw [← Char.ofNat_toNat c]
    interval_cases c.toNat <;> decide
  · decide

theorem decimal_ne_nil (z : ℤ) :
  decimal z ≠ []
  := by
  rw [decimal, Int.repr_eq_if]
  split
  · simp
  · simp

theorem printFraction_takeWhile (q : ℚ) :
  (printFraction q).takeWhile (fun c => c ≠ 'e') = decimal q.num
  := by
  have hnum : ∀ c ∈ decimal q.num, decide (c ≠ 'e') = true := by
    intro c hc
    apply decide_eq_true (isNumeral_of_mem_decimal hc).2
  rw [printFraction, List.takeWhile_append_of_pos hnum]
  split
  · rw [List.takeWhile_nil, List.append_nil]
  · rw [List.takeWhile_cons_of_neg (by decide), List.append_nil]

theorem numerals_printFraction :
  Numerals printFraction
  := by
  constructor
  · intro q _ r _ h
    have hnum : q.num = r.num := by
      apply decimal_injective
      rw [← printFraction_takeWhile, ← printFraction_takeWhile, h]
    rw [printFraction, printFraction, hnum] at h
    have hrest := List.append_cancel_left h
    have hden : q.den = r.den := by
      split at hrest
      · split at hrest
        · case isTrue hq hr => rw [hq, hr]
        · cases hrest
      · split at hrest
        · cases hrest
        · apply Int.ofNat_inj.mp (decimal_injective (List.cons.inj hrest).2)
    apply Rat.ext hnum hden
  · intro q _ h
    apply decimal_ne_nil q.num (List.append_eq_nil_iff.mp h).1
  · intro q _
    have hdecimal : ∀ z, ∀ c ∈ decimal z, isNumeral c = true := by
      intro z c hc
      apply (isNumeral_of_mem_decimal hc).1
    rw [printFraction, List.all_append, Bool.and_eq_true]
    use List.all_eq_true.mpr (hdecimal q.num)
    split
    · rfl
    · rw [List.all_cons, List.all_eq_true.mpr (hdecimal q.den)]
      rfl

end Json
