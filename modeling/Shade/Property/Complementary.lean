import Shade.Property.Matching

/-!
# Assets with the mark of the keys

To match a group, its key is split into pieces. If an asset contains the mark of the keys, the first
two pieces are not the assets of the intents in the group, and every match found for the group is
one of intents that are not complementary. None is found if and only if all intents of the reverse
group are used when it is the turn of the group: then the reverse group is empty, or it was matched
before and has no more intents than the group that it was matched with.
-/

namespace Shade.Committee

open Text

/-! ### The order of the groups -/

/-- Among the intents before the first one with a key there is one with another key. -/
def Earlier (intents : List Intent) (key' key : Text) : Prop :=
  ∃ c ∈ intents.takeWhile fun i => i.key ≠ key, c.key = key'

instance (intents : List Intent) (key' key : Text) : Decidable (Earlier intents key' key) :=
  inferInstanceAs (Decidable (∃ c ∈ _, _))

/-- The keys of the intents, in the order of the groups. -/
def keysOf (intents : List Intent) : List Text := (groupIntents intents).map Prod.fst

theorem keysOf_concat (intents : List Intent) (i : Intent) :
  keysOf (intents ++ [i])
    = if i.key ∈ keysOf intents then keysOf intents else keysOf intents ++ [i.key]
  := by
  rw [keysOf, groupIntents_concat, Groups.keys_push]
  rfl

theorem mem_keysOf {intents : List Intent} {key : Text} :
  key ∈ keysOf intents ↔ ∃ i ∈ intents, i.key = key
  := by
  induction intents using List.reverseRecOn with
  | nil => simp [keysOf, groupIntents]
  | append_singleton intents i ih =>
      rw [keysOf_concat]
      split
      · case isTrue hold =>
          rw [ih]
          constructor
          · rintro ⟨j, hj, hkey⟩
            use j, List.mem_append_left [i] hj
          · rintro ⟨j, hj, rfl⟩
            rcases List.mem_append.mp hj with hj | hj
            · use j
            · obtain rfl := List.mem_singleton.mp hj
              apply ih.mp hold
      · rw [List.mem_append, ih, List.mem_singleton]
        constructor
        · rintro (⟨j, hj, hkey⟩ | rfl)
          · use j, List.mem_append_left [i] hj
          · use i, List.mem_concat_self
        · rintro ⟨j, hj, rfl⟩
          rcases List.mem_append.mp hj with hj | hj
          · left
            use j
          · obtain rfl := List.mem_singleton.mp hj
            right
            rfl

/-- The keys of the first intents come first. -/
theorem keysOf_prefix (intents rest : List Intent) :
  keysOf intents <+: keysOf (intents ++ rest)
  := by
  induction rest using List.reverseRecOn with
  | nil => rw [List.append_nil]
  | append_singleton rest i ih =>
      rw [← List.append_assoc, keysOf_concat]
      split
      · apply ih
      · apply ih.trans (List.prefix_append _ _)

theorem takeWhile_ne {l rest : List Text} {key : Text} (h : key ∉ l) :
  (l ++ key :: rest).takeWhile (fun k => k ≠ key) = l
  := by
  have hl : ∀ k ∈ l, decide (k ≠ key) = true := by
    intro k hk
    apply decide_eq_true
    rintro rfl
    apply h hk
  rw [List.takeWhile_append_of_pos hl, List.takeWhile_cons_of_neg (by simp), List.append_nil]

/-- The groups before the one with a key are those of earlier intents. -/
theorem mem_before_iff {intents : List Intent} {before after : List Text} {key key' : Text}
    (h : keysOf intents = before ++ key :: after) :
  key' ∈ before ↔ Earlier intents key' key
  := by
  have hnew : key ∉ before := by
    have hnodup : (keysOf intents).Nodup := nodup_keys_groupIntents intents
    rw [h, List.nodup_append] at hnodup
    intro hmem
    apply hnodup.2.2 key hmem key List.mem_cons_self rfl
  have hfirst : key ∉ keysOf (intents.takeWhile fun i => i.key ≠ key) := by
    intro hmem
    obtain ⟨i, hi, hkey⟩ := mem_keysOf.mp hmem
    have hne := List.mem_takeWhile_imp hi
    simp [hkey] at hne
  have hbefore : keysOf (intents.takeWhile fun i => i.key ≠ key) = before := by
    obtain ⟨j, hj, hkey⟩ := mem_keysOf.mp (h ▸ List.mem_append_right _ List.mem_cons_self)
    cases hrest : intents.dropWhile fun i => i.key ≠ key with
    | nil =>
        have hall := List.dropWhile_eq_nil_iff.mp hrest j hj
        simp [hkey] at hall
    | cons c rest =>
        have hc : c.key = key := by
          have hnot := List.head?_dropWhile_not (fun i : Intent => decide (i.key ≠ key)) intents
          rw [hrest] at hnot
          simpa using hnot
        have hsplit : (intents.takeWhile fun i => i.key ≠ key) ++ [c] ++ rest = intents := by
          rw [List.append_assoc, List.singleton_append, ← hrest, List.takeWhile_append_dropWhile]
        obtain ⟨tail, htail⟩ :=
          keysOf_prefix ((intents.takeWhile fun i => i.key ≠ key) ++ [c]) rest
        rw [hsplit, keysOf_concat, hc, if_neg hfirst, h, List.append_assoc,
          List.singleton_append] at htail
        rw [← takeWhile_ne hfirst, htail, takeWhile_ne hnew]
  rw [← hbefore, mem_keysOf]
  rfl

/-! ### Common elements -/

/-- How many elements of a list are in another one. -/
def common (l l' : List Text) : ℕ := l.countP fun x => l'.any fun y => y = x

theorem common_comm {l l' : List Text} (hl : l.Nodup) (hl' : l'.Nodup) :
  common l l' = common l' l
  := by
  rw [common, common, List.countP_eq_length_filter, List.countP_eq_length_filter]
  apply List.Perm.length_eq
  rw [List.perm_ext_iff_of_nodup (hl.filter _) (hl'.filter _)]
  intro x
  simp [and_comm]

theorem common_eq_length_iff {l l' : List Text} :
  common l l' = l.length ↔ ∀ x ∈ l, x ∈ l'
  := by
  rw [common, List.countP_eq_length]
  simp

theorem common_le_length (l l' : List Text) :
  common l l' ≤ l.length
  := by
  apply List.countP_le_length

/-- If all elements but one are in the other list, there is one fewer in common. -/
theorem common_add_one {l l' : List Text} (hl : l.Nodup) {x : Text} (hx : x ∈ l) (hnot : x ∉ l')
    (hall : ∀ y ∈ l, y ≠ x → y ∈ l') :
  common l l' + 1 = l.length
  := by
  have hperm := List.perm_cons_erase hx
  have hrest : common (l.erase x) l' = (l.erase x).length := by
    apply common_eq_length_iff.mpr
    intro y hy
    obtain ⟨hne, hy⟩ := hl.mem_erase_iff.mp hy
    apply hall y hy hne
  have hcount : common l l' = common (l.erase x) l' := by
    rw [common, hperm.countP_eq, List.countP_cons_of_neg (by simpa using hnot)]
    rfl
  rw [hcount, hrest, hperm.length_eq, List.length_cons]

/-! ### Proper matches -/

/-- A match is one of complementary intents, with the assets of the first. -/
def Proper (intents : List Intent) (m : MatchResult) : Prop :=
  ∃ a ∈ intents, ∃ b ∈ intents, (m.intentAId = a.intentId ∧ m.intentBId = b.intentId)
    ∧ Complementary a b ∧ m.inputAsset = a.inputAsset ∧ m.outputAsset = a.outputAsset

/-- The identifiers of the intents with a key. -/
def idsOf (intents : List Intent) (key : Text) : List Text :=
  (keyed intents key).map Intent.intentId

variable {intents : List Intent} {x y : Text} {sort : List Intent → List Intent}
  {s : Progress MatchResult} {keys : List Text}

theorem nodup_idsOf (hids : (intents.map Intent.intentId).Nodup) (key : Text) :
  (idsOf intents key).Nodup
  := by
  apply hids.sublist (List.filter_sublist.map _)

theorem intentId_mem_idsOf (hids : (intents.map Intent.intentId).Nodup) {i : Intent}
    (hi : i ∈ intents) (key : Text) :
  i.intentId ∈ idsOf intents key ↔ i.key = key
  := by
  constructor
  · intro h
    obtain ⟨j, hj, heq⟩ := List.mem_map.mp h
    obtain ⟨hj, hkey⟩ := mem_keyed.mp hj
    obtain rfl := List.inj_on_of_nodup_map hids hj hi heq
    apply hkey
  · intro h
    apply List.mem_map_of_mem (mem_keyed.mpr ⟨hi, h⟩)

/-- The keys of complementary intents are reverse to each other. -/
theorem key_eq_iff {a b : Intent} (hab : Complementary a b) (hx : '|' ∉ x) (hy : '|' ∉ y) :
  a.key = groupKey x y ↔ b.key = groupKey y x
  := by
  constructor
  · intro h
    obtain ⟨hin, hout⟩ := eq_of_groupKey_eq hx hy h
    rw [Intent.key, ← hab.1, ← hab.2, hin, hout]
  · intro h
    obtain ⟨hin, hout⟩ := eq_of_groupKey_eq hy hx h
    rw [Intent.key, hab.1, hab.2, hin, hout]

/-- What a match of two intents adds to the intents of a group that are used. -/
theorem common_match (hids : (intents.map Intent.intentId).Nodup) {a b : Intent}
    (ha : a ∈ intents) (hb : b ∈ intents) {m : MatchResult} (hA : m.intentAId = a.intentId)
    (hB : m.intentBId = b.intentId) (l : List Text) (key : Text) :
  common (m.ids ++ l) (idsOf intents key)
    = common l (idsOf intents key) + (if b.key = key then 1 else 0)
      + if a.key = key then 1 else 0
  := by
  have hmem : ∀ i ∈ intents, ((idsOf intents key).any fun y => y = i.intentId)
      = decide (i.key = key) := by
    intro i hi
    rw [Bool.eq_iff_iff, List.any_eq_true, decide_eq_true_iff, ← intentId_mem_idsOf hids hi]
    simp
  rw [common, MatchResult.ids, List.cons_append, List.cons_append, List.nil_append,
    List.countP_cons, List.countP_cons, hA, hB, hmem a ha, hmem b hb]
  simp [common]

/-- Of a group and its reverse group, proper matches use equally many intents, and an even number
if the group is its own reverse group. -/
theorem common_reverse (hids : (intents.map Intent.intentId).Nodup) (hx : '|' ∉ x) (hy : '|' ∉ y)
    {found : List MatchResult} (hfound : ∀ m ∈ found, Proper intents m) :
  common (found.flatMap MatchResult.ids) (idsOf intents (groupKey x y))
      = common (found.flatMap MatchResult.ids) (idsOf intents (groupKey y x))
    ∧ Even (common (found.flatMap MatchResult.ids) (idsOf intents (groupKey x x)))
  := by
  induction found with
  | nil => exact ⟨rfl, Even.zero⟩
  | cons m found ih =>
      obtain ⟨hm, hfound⟩ := List.forall_mem_cons.mp hfound
      obtain ⟨a, ha, b, hb, ⟨hA, hB⟩, hab, -⟩ := hm
      obtain ⟨heq, heven⟩ := ih hfound
      rw [List.flatMap_cons, common_match hids ha hb hA hB, common_match hids ha hb hA hB,
        common_match hids ha hb hA hB]
      simp only [key_eq_iff hab hx hy, key_eq_iff hab hy hx, key_eq_iff hab hx hx]
      constructor
      · rw [heq]
        omega
      · rw [add_assoc]
        apply heven.add ⟨_, rfl⟩

/-! ### Groups that have been matched -/

/-- The first piece of a key. -/
def inPiece (key : Text) : Text := (key.splitOn '|').getD 0 []

/-- The second piece of a key. -/
def outPiece (key : Text) : Text := (key.splitOn '|').getD 1 []

/-- The pieces of a text do not contain the mark. -/
theorem notMem_of_mem_splitOn {t l : Text} (h : l ∈ t.splitOn '|') :
  '|' ∉ l
  := by
  induction t generalizing l with
  | nil =>
      rw [List.splitOn_nil] at h
      obtain rfl := List.mem_singleton.mp h
      apply List.not_mem_nil
  | cons c t ih =>
      rw [List.splitOn_cons_eq_if_modifyHead] at h
      split at h
      · obtain rfl | h := List.mem_cons.mp h
        · apply List.not_mem_nil
        · apply ih h
      · case isFalse hc =>
          obtain ⟨first, rest, hsplit⟩ :=
            List.exists_cons_of_ne_nil (List.splitOn_ne_nil '|' t)
          rw [hsplit, List.modifyHead_cons] at h
          obtain rfl | h := List.mem_cons.mp h
          · intro hmem
            obtain rfl | hmem := List.mem_cons.mp hmem
            · apply hc (beq_self_eq_true _)
            · apply ih (hsplit ▸ List.mem_cons_self) hmem
          · apply ih (hsplit ▸ List.mem_cons_of_mem first h)

theorem notMem_piece (t : Text) (n : ℕ) :
  '|' ∉ (t.splitOn '|').getD n []
  := by
  rw [List.getD_eq_getElem?_getD]
  cases hpiece : (t.splitOn '|')[n]? with
  | none => simp
  | some l =>
      rw [Option.getD_some]
      apply notMem_of_mem_splitOn (List.mem_of_getElem? hpiece)

/-- What the groups with some keys have been matched to. -/
structure Processed (intents : List Intent) (keys : List Text) (s : Progress MatchResult) : Prop where
  uses : UsesFrom (intents.map Intent.intentId) s
  heads : ∀ m ∈ s.found, (∃ a ∈ intents, a.intentId = m.intentAId ∧ a.key ∈ keys)
    ∧ '|' ∉ m.inputAsset ∧ '|' ∉ m.outputAsset
  finished : ∀ a ∈ intents, a.Named → a.key ∈ keys → ∀ b ∈ intents, Complementary a b →
    a.intentId ≠ b.intentId → a.intentId ∈ s.used ∨ b.intentId ∈ s.used

/-- The matches that are found stay found, and the others have the assets of the group, and their
first intents are in it. -/
theorem found_pairUp {inAsset outAsset : Text} {as bs : List Intent} {m : MatchResult} :
  (m ∈ s.found → m ∈ (pairUp inAsset outAsset as bs s).found)
  ∧ (m ∈ (pairUp inAsset outAsset as bs s).found → m ∈ s.found
    ∨ (∃ a ∈ as, a.intentId = m.intentAId) ∧ m.inputAsset = inAsset ∧ m.outputAsset = outAsset)
  := by
  constructor
  · intro hm
    apply pairUp_invariant (P := fun s' => m ∈ s'.found) _ hm
    intro s' a _ b _ _ _ _ hm'
    rw [Progress.add_found]
    apply List.mem_append_left _ hm'
  · apply pairUp_invariant (P := fun s' => m ∈ s'.found → m ∈ s.found
      ∨ (∃ a ∈ as, a.intentId = m.intentAId) ∧ m.inputAsset = inAsset ∧ m.outputAsset = outAsset)
      _ Or.inl
    intro s' a ha b _ _ _ _ hs' hm
    rw [Progress.add_found] at hm
    rcases List.mem_append.mp hm with hm | hm
    · apply hs' hm
    · obtain rfl := List.mem_singleton.mp hm
      right
      use ⟨a, ha, rfl⟩, rfl
      rfl

/-- Nothing is matched with intents that are all used. -/
theorem pairUp_of_used {inAsset outAsset : Text} {as bs : List Intent}
    (h : ∀ b ∈ bs, b.intentId ∈ s.used) :
  pairUp inAsset outAsset as bs s = s
  := by
  fun_induction pairUp inAsset outAsset as bs s with
  | case1 a as b bs s hused ih => apply ih h
  | case2 a as b bs s hunused hskip ih => apply ih fun c hc => h c (List.mem_cons_of_mem b hc)
  | case3 a as b bs s hunused hskip ih => exact absurd (.inl (h b List.mem_cons_self)) hskip
  | case4 as bs s hend => rfl

theorem found_matchGroup {entry : Text × List Intent} {m : MatchResult} (h : m ∈ s.found) :
  m ∈ (matchGroup sort (groupIntents intents) s entry).found
  := by
  rw [matchGroup]
  split
  · apply h
  · apply found_pairUp.1 h

theorem processed_empty :
  Processed intents [] Progress.empty
  := by
  constructor
  · exact ⟨Progress.disjoint_empty _, List.nil_subset _⟩
  · intro m hm
    cases hm
  · intro a _ _ hkey
    cases hkey

/-- One more group is matched. -/
theorem Processed.matchGroup (hs : Processed intents keys s) (hsort : Sorts sort)
    (hids : (intents.map Intent.intentId).Nodup) {key : Text}
    (hentry : (key, keyed intents key) ∈ groupIntents intents) :
  Processed intents (keys ++ [key])
    (matchGroup sort (groupIntents intents) s (key, keyed intents key))
  := by
  constructor
  · apply hs.uses.matchGroup hsort hentry
  · intro m hm
    have hold : m ∈ s.found → (∃ a ∈ intents, a.intentId = m.intentAId ∧ a.key ∈ keys ++ [key])
        ∧ '|' ∉ m.inputAsset ∧ '|' ∉ m.outputAsset := by
      intro hm
      obtain ⟨⟨a, ha, hA, hkey⟩, hassets⟩ := hs.heads m hm
      use ⟨a, ha, hA, List.mem_append_left _ hkey⟩, hassets.1, hassets.2
    rw [Committee.matchGroup] at hm
    split at hm
    · apply hold hm
    · obtain hm | ⟨⟨a, ha, hA⟩, hin, hout⟩ := found_pairUp.2 hm
      · apply hold hm
      · obtain ⟨ha, hkey⟩ := mem_keyed.mp ((hsort.perm _).mem_iff.mp ha)
        rw [hin, hout]
        use ⟨a, ha, hA, hkey ▸ List.mem_concat_self⟩, notMem_piece key 0, notMem_piece key 1
  · intro a ha hnamed hkey b hb hab hne
    rcases List.mem_append.mp hkey with hkey | hkey
    · rcases hs.finished a ha hnamed hkey b hb hab hne with h | h
      · left
        apply used_matchGroup h
      · right
        apply used_matchGroup h
    · obtain rfl := List.mem_singleton.mp hkey
      apply used_or_used_matchGroup hids hsort hnamed ha hb hab hne

/-- An intent that is used in proper matches has assets without the mark, and its group or the
reverse group has been matched. -/
theorem Processed.of_used (hs : Processed intents keys s)
    (hids : (intents.map Intent.intentId).Nodup) (hproper : ∀ m ∈ s.found, Proper intents m)
    {i : Intent} (hi : i ∈ intents) (hused : i.intentId ∈ s.used) :
  i.Named ∧ (i.key ∈ keys ∨ groupKey i.outputAsset i.inputAsset ∈ keys)
  := by
  rw [hs.uses.disjoint.used_eq] at hused
  obtain ⟨m, hm, hid⟩ := List.mem_flatMap.mp hused
  obtain ⟨⟨a', ha', hA', hkey⟩, hin, hout⟩ := hs.heads m hm
  obtain ⟨a, ha, b, hb, ⟨hA, hB⟩, hab, hina, houta⟩ := hproper m hm
  obtain rfl := List.inj_on_of_nodup_map hids ha' ha (hA'.trans hA)
  rw [hina] at hin
  rw [houta] at hout
  rcases List.mem_pair.mp hid with hid | hid
  · obtain rfl := List.inj_on_of_nodup_map hids hi ha (hid.trans hA)
    use ⟨hin, hout⟩
    left
    apply hkey
  · obtain rfl := List.inj_on_of_nodup_map hids hi hb (hid.trans hB)
    constructor
    · rw [Intent.Named, ← hab.1, ← hab.2]
      use hout, hin
    · right
      rw [← hab.1, ← hab.2]
      apply hkey

/-! ### When the reverse group is used up -/

/-- The group with a key has no fewer intents than its reverse group, or it is its own reverse group
and has an even number of them. -/
def Balanced (intents : List Intent) (x y : Text) : Prop :=
  if x = y then Even (keyed intents (groupKey y x)).length
  else (keyed intents (groupKey y x)).length ≤ (keyed intents (groupKey x y)).length

instance (intents : List Intent) (x y : Text) : Decidable (Balanced intents x y) :=
  inferInstanceAs (Decidable (ite _ _ _))

/-- How many intents of a group are used, and how many of its reverse group. -/
theorem Processed.common_used (hs : Processed intents keys s)
    (hids : (intents.map Intent.intentId).Nodup) (hproper : ∀ m ∈ s.found, Proper intents m)
    (hx : '|' ∉ x) (hy : '|' ∉ y) :
  common (idsOf intents (groupKey x y)) s.used = common (idsOf intents (groupKey y x)) s.used
    ∧ Even (common (idsOf intents (groupKey x x)) s.used)
  := by
  have hnodup := hs.uses.disjoint.nodup
  rw [common_comm (nodup_idsOf hids _) hnodup, common_comm (nodup_idsOf hids _) hnodup,
    common_comm (nodup_idsOf hids _) hnodup, hs.uses.disjoint.used_eq]
  apply common_reverse hids hx hy hproper

theorem length_idsOf (key : Text) :
  (idsOf intents key).length = (keyed intents key).length
  := by
  apply List.length_map

/-- If all intents of a group are used in proper matches, the reverse group has as many. -/
theorem Processed.balanced (hs : Processed intents keys s)
    (hids : (intents.map Intent.intentId).Nodup) (hproper : ∀ m ∈ s.found, Proper intents m)
    (hx : '|' ∉ x) (hy : '|' ∉ y) (hall : ∀ id ∈ idsOf intents (groupKey y x), id ∈ s.used) :
  Balanced intents x y
  := by
  have hlen := common_eq_length_iff.mpr hall
  rw [length_idsOf] at hlen
  rw [Balanced, ← hlen]
  obtain ⟨heq, heven⟩ := hs.common_used hids hproper hx hy
  split
  · case isTrue hxy =>
      subst hxy
      apply heven
  · rw [← heq, ← length_idsOf]
    apply common_le_length

/-- If a group or its reverse group has been matched with proper matches, and the group has as many
intents, all intents of the reverse group are used. -/
theorem Processed.all_used (hs : Processed intents keys s)
    (hids : (intents.map Intent.intentId).Nodup) (hproper : ∀ m ∈ s.found, Proper intents m)
    (hx : '|' ∉ x) (hy : '|' ∉ y) (hkey : groupKey x y ∈ keys ∨ groupKey y x ∈ keys)
    (hbalanced : Balanced intents x y) :
  ∀ id ∈ idsOf intents (groupKey y x), id ∈ s.used
  := by
  intro id hid
  by_contra hnot
  obtain ⟨b, hb, rfl⟩ := List.mem_map.mp hid
  obtain ⟨hb, hbkey⟩ := mem_keyed.mp hb
  obtain ⟨hbin, hbout⟩ := eq_of_groupKey_eq hy hx hbkey
  have hothers : ∀ id ∈ idsOf intents (groupKey x y), id ≠ b.intentId → id ∈ s.used := by
    intro id hid hne
    obtain ⟨a, ha, rfl⟩ := List.mem_map.mp hid
    obtain ⟨ha, hakey⟩ := mem_keyed.mp ha
    obtain ⟨hain, haout⟩ := eq_of_groupKey_eq hx hy hakey
    rcases hkey with hkey | hkey
    · have hfin := hs.finished a ha (by rw [Intent.Named, hain, haout]; use hx, hy)
        (hakey ▸ hkey) b hb ⟨hain.trans hbout.symm, haout.trans hbin.symm⟩ hne
      apply hfin.resolve_right hnot
    · have hfin := hs.finished b hb (by rw [Intent.Named, hbin, hbout]; use hy, hx)
        (hbkey ▸ hkey) a ha ⟨hbin.trans haout.symm, hbout.trans hain.symm⟩ (Ne.symm hne)
      apply hfin.resolve_left hnot
  obtain ⟨heq, heven⟩ := hs.common_used hids hproper hx hy
  rw [Balanced] at hbalanced
  split at hbalanced
  · case isTrue hxy =>
      subst hxy
      have hlen := common_add_one (nodup_idsOf hids _) hid hnot hothers
      rw [length_idsOf] at hlen
      rw [← hlen] at hbalanced
      apply (Nat.even_add_one.mp hbalanced) heven
  · case isFalse hxy =>
      have hall : ∀ id ∈ idsOf intents (groupKey x y), id ∈ s.used := by
        intro id' hid'
        apply hothers id' hid'
        rintro rfl
        apply hxy
        have hkeys := (intentId_mem_idsOf hids hb (groupKey x y)).mp hid'
        obtain ⟨hin, -⟩ := eq_of_groupKey_eq hx hy hkeys
        rw [← hin, hbin]
      have hfull := common_eq_length_iff.mpr hall
      rw [heq, length_idsOf] at hfull
      have hle := common_le_length (idsOf intents (groupKey y x)) s.used
      rw [length_idsOf] at hle
      have hlen : common (idsOf intents (groupKey y x)) s.used
          = (idsOf intents (groupKey y x)).length := by
        rw [length_idsOf]
        omega
      apply hnot (common_eq_length_iff.mp hlen _ hid)

/-- When it is the turn of the group with a key, nothing is left of the reverse group: the reverse
group is empty, or the two groups of the pieces have been matched before and are balanced. -/
def Exhausted (intents : List Intent) (key : Text) : Prop :=
  keyed intents (groupKey (outPiece key) (inPiece key)) = []
    ∨ (Earlier intents (groupKey (inPiece key) (outPiece key)) key
        ∨ Earlier intents (groupKey (outPiece key) (inPiece key)) key)
      ∧ Balanced intents (inPiece key) (outPiece key)

instance (intents : List Intent) (key : Text) : Decidable (Exhausted intents key) :=
  inferInstanceAs (Decidable (_ ∨ _ ∧ _))

/-- The group of an intent with the mark in an asset is no group of pieces. -/
theorem key_ne_of_not_named {i : Intent} (h : ¬ i.Named) (hx : '|' ∉ x) (hy : '|' ∉ y) :
  groupKey x y ≠ i.key
  := by
  intro heq
  obtain ⟨hin, hout⟩ := eq_of_groupKey_eq hx hy heq.symm
  apply h
  rw [Intent.Named, hin, hout]
  use hx, hy

theorem matchGroup_unfold (key : Text) :
  matchGroup sort (groupIntents intents) s (key, keyed intents key)
    = match (groupIntents intents).get (groupKey (outPiece key) (inPiece key)) with
      | none => s
      | some reverseGroup =>
          pairUp (inPiece key) (outPiece key) (sort (keyed intents key)) (sort reverseGroup) s
  := rfl

/-- Nothing is found for a group if its reverse group is used up. -/
theorem matchGroup_of_used (hsort : Sorts sort) {key : Text}
    (h : ∀ id ∈ idsOf intents (groupKey (outPiece key) (inPiece key)), id ∈ s.used) :
  matchGroup sort (groupIntents intents) s (key, keyed intents key) = s
  := by
  rw [matchGroup_unfold]
  split
  · rfl
  · case h_2 reverseGroup hreverse =>
      obtain rfl := mem_groupIntents (Groups.mem_of_get hreverse)
      apply pairUp_of_used
      intro b hb
      apply h _ (List.mem_map_of_mem ((hsort.perm _).mem_iff.mp hb))

/-- If an intent of a group is not used, all of the reverse group are. -/
theorem used_of_matchGroup (hsort : Sorts sort) (hids : (intents.map Intent.intentId).Nodup)
    {a : Intent} (ha : a ∈ intents) (hnamed : ¬ a.Named)
    (hunused : a.intentId
      ∉ (matchGroup sort (groupIntents intents) s (a.key, keyed intents a.key)).used) :
  ∀ id ∈ idsOf intents (groupKey (outPiece a.key) (inPiece a.key)),
    id ∈ (matchGroup sort (groupIntents intents) s (a.key, keyed intents a.key)).used
  := by
  intro id hid
  obtain ⟨b, hb, rfl⟩ := List.mem_map.mp hid
  have hne := key_ne_of_not_named hnamed (notMem_piece a.key 1) (notMem_piece a.key 0)
  have hmemA : a ∈ keyed intents a.key := mem_keyed.mpr ⟨ha, rfl⟩
  rw [matchGroup_unfold, get_groupIntents_of_mem hb] at hunused ⊢
  have hdifferent : ∀ c ∈ sort (keyed intents a.key),
      ∀ d ∈ sort (keyed intents (groupKey (outPiece a.key) (inPiece a.key))),
      c.intentId ≠ d.intentId := by
    intro c hc d hd heq
    obtain ⟨hc, hckey⟩ := mem_keyed.mp ((hsort.perm _).mem_iff.mp hc)
    obtain ⟨hd, hdkey⟩ := mem_keyed.mp ((hsort.perm _).mem_iff.mp hd)
    obtain rfl := List.inj_on_of_nodup_map hids hc hd heq
    apply hne (hdkey.symm.trans hckey)
  have hsorted : ((sort (keyed intents a.key)).map Intent.intentId).Nodup := by
    rw [((hsort.perm _).map _).nodup_iff]
    apply nodup_idsOf hids
  have hA := (hsort.perm _).mem_iff.mpr hmemA
  have hB := (hsort.perm _).mem_iff.mpr hb
  apply (used_or_used_pairUp hsorted (.inl hdifferent) a hA b hB
    (hdifferent a hA b hB)).resolve_left hunused

/-! ### Runs over all groups -/

/-- What is found for some of the groups. -/
def afterGroups (sort : List Intent → List Intent) (intents : List Intent) (entries : Groups) :
    Progress MatchResult :=
  entries.foldl (matchGroup sort (groupIntents intents)) Progress.empty

theorem afterGroups_concat (entries : Groups) (entry : Text × List Intent) :
  afterGroups sort intents (entries ++ [entry])
    = matchGroup sort (groupIntents intents) (afterGroups sort intents entries) entry
  := by
  rw [afterGroups, List.foldl_append]
  rfl

theorem processed_afterGroups (hsort : Sorts sort) (hids : (intents.map Intent.intentId).Nodup)
    (entries : Groups) (hentries : ∀ entry ∈ entries, entry ∈ groupIntents intents) :
  Processed intents (entries.map Prod.fst) (afterGroups sort intents entries)
  := by
  induction entries using List.reverseRecOn with
  | nil => apply processed_empty
  | append_singleton entries entry ih =>
      have hs := ih fun e he => hentries e (List.mem_append_left [entry] he)
      have hentry := hentries entry List.mem_concat_self
      obtain ⟨key, group⟩ := entry
      obtain rfl := mem_groupIntents hentry
      rw [afterGroups_concat, List.map_append]
      apply hs.matchGroup hsort hids hentry

/-- What is found for the first groups is found in the end. -/
theorem found_afterGroups {m : MatchResult} (entries rest : Groups)
    (hm : m ∈ (afterGroups sort intents entries).found) :
  m ∈ (afterGroups sort intents (entries ++ rest)).found
  := by
  induction rest using List.reverseRecOn with
  | nil =>
      rw [List.append_nil]
      apply hm
  | append_singleton rest entry ih =>
      rw [← List.append_assoc, afterGroups_concat]
      apply found_matchGroup ih

/-- The groups of the pieces that are matched before a group are those of earlier intents. -/
theorem earlier_iff {before after : Groups} {i : Intent} {group : List Intent}
    (h : groupIntents intents = before ++ (i.key, group) :: after) (key : Text) :
  key ∈ before.map Prod.fst ↔ Earlier intents key i.key
  := by
  apply @mem_before_iff intents (before.map Prod.fst) (after.map Prod.fst)
  rw [keysOf, h, List.map_append, List.map_cons]

/-- If all matches are proper, the reverse group of an intent with the mark in an asset is used up
when it is the turn of the intent's group. -/
theorem exhausted_of_proper (hsort : Sorts sort) (hids : (intents.map Intent.intentId).Nodup)
    (hproper : ∀ m ∈ matchIntents sort intents, Proper intents m) {a : Intent} (ha : a ∈ intents)
    (hnamed : ¬ a.Named) :
  Exhausted intents a.key
  := by
  have hx := notMem_piece a.key 0
  have hy := notMem_piece a.key 1
  have hentry := Groups.mem_of_get (get_groupIntents_of_mem (mem_keyed.mpr ⟨ha, rfl⟩))
  obtain ⟨before, after, hgroups⟩ := List.append_of_mem hentry
  have hfirst := processed_afterGroups hsort hids before fun e he => by
    rw [hgroups]
    apply List.mem_append_left _ he
  have hs := hfirst.matchGroup hsort hids hentry
  rw [← afterGroups_concat] at hs
  have hfound : ∀ m ∈ (afterGroups sort intents (before ++ [(a.key, keyed intents a.key)])).found,
      Proper intents m := by
    intro m hm
    apply hproper
    have hlast := found_afterGroups _ after hm
    rw [List.append_assoc, List.singleton_append, ← hgroups] at hlast
    apply hlast
  have hunused : a.intentId
      ∉ (afterGroups sort intents (before ++ [(a.key, keyed intents a.key)])).used := by
    intro hused
    apply hnamed (hs.of_used hids hfound ha hused).1
  have hall := used_of_matchGroup hsort hids ha hnamed (afterGroups_concat _ _ ▸ hunused)
  rw [← afterGroups_concat] at hall
  cases hreverse : keyed intents (groupKey (outPiece a.key) (inPiece a.key)) with
  | nil =>
      left
      apply hreverse
  | cons b rest =>
      right
      constructor
      · have hb : b ∈ keyed intents (groupKey (outPiece a.key) (inPiece a.key)) := by
          rw [hreverse]
          apply List.mem_cons_self
        have hused := hall _ (List.mem_map_of_mem hb)
        obtain ⟨hb, hbkey⟩ := mem_keyed.mp hb
        obtain ⟨hbin, hbout⟩ := eq_of_groupKey_eq hy hx hbkey
        obtain ⟨-, hkey⟩ := hs.of_used hids hfound hb hused
        rw [hbkey, hbin, hbout, List.mem_append, List.mem_append, List.mem_singleton,
          List.mem_singleton] at hkey
        rw [← earlier_iff hgroups, ← earlier_iff hgroups]
        rcases hkey with (hkey | hkey) | hkey | hkey
        · right
          apply hkey
        · exact absurd hkey (key_ne_of_not_named hnamed hy hx)
        · left
          apply hkey
        · exact absurd hkey (key_ne_of_not_named hnamed hx hy)
      · apply hs.balanced hids hfound hx hy hall

/-- If the reverse group of every intent with the mark in an asset is used up when it is the turn of
the intent's group, all matches found for the first groups are fair. -/
theorem fair_of_exhausted (hsort : Sorts sort) (hids : (intents.map Intent.intentId).Nodup)
    (hexhausted : ∀ a ∈ intents, ¬ a.Named → Exhausted intents a.key) (entries rest : Groups)
    (hgroups : groupIntents intents = entries ++ rest) :
  MatchProgress intents (afterGroups sort intents entries)
  := by
  induction entries using List.reverseRecOn generalizing rest with
  | nil =>
      use Progress.disjoint_empty _
      intro m hm
      cases hm
  | append_singleton entries entry ih =>
      rw [List.append_assoc, List.singleton_append] at hgroups
      have hs := ih _ hgroups
      have hentry : entry ∈ groupIntents intents := by
        rw [hgroups]
        apply List.mem_append_right _ List.mem_cons_self
      rw [afterGroups_concat]
      by_cases hnamed : ∀ i ∈ intents, i.key = entry.1 → i.Named
      · apply hs.matchGroup hsort hnamed hentry
      · push Not at hnamed
        obtain ⟨a, ha, hkey, hnamed⟩ := hnamed
        obtain ⟨key, group⟩ := entry
        obtain rfl : a.key = key := hkey
        obtain rfl := mem_groupIntents hentry
        have hfirst := processed_afterGroups hsort hids entries fun e he => by
          rw [hgroups]
          apply List.mem_append_left _ he
        have hproper : ∀ m ∈ (afterGroups sort intents entries).found, Proper intents m := by
          intro m hm
          obtain ⟨c, hc, d, hd, hfair⟩ := hs.fair m hm
          use c, hc, d, hd, hfair.ids, hfair.complementary, hfair.assets.1, hfair.assets.2
        have hall : ∀ id ∈ idsOf intents (groupKey (outPiece a.key) (inPiece a.key)),
            id ∈ (afterGroups sort intents entries).used := by
          rcases hexhausted a ha hnamed with hnil | ⟨hearlier, hbalanced⟩
          · intro id hid
            rw [idsOf, hnil] at hid
            cases hid
          · rw [← earlier_iff hgroups, ← earlier_iff hgroups] at hearlier
            apply hfirst.all_used hids hproper (notMem_piece a.key 0) (notMem_piece a.key 1)
              hearlier hbalanced
        rw [matchGroup_of_used hsort hall]
        apply hs

/-- All matches are of complementary intents, with the assets of the first, if and only if for every
intent with the mark in an asset the reverse group of its group is used up by then. -/
theorem matchIntents_proper_iff (hsort : Sorts sort) (intents : List Intent)
    (hids : (intents.map Intent.intentId).Nodup) :
  (∀ m ∈ matchIntents sort intents, Proper intents m)
    ↔ ∀ a ∈ intents, ¬ a.Named → Exhausted intents a.key
  := by
  constructor
  · intro hproper a ha hnamed
    apply exhausted_of_proper hsort hids hproper ha hnamed
  · intro hexhausted m hm
    have hs := fair_of_exhausted hsort hids hexhausted (groupIntents intents) []
      (List.append_nil _).symm
    obtain ⟨a, ha, b, hb, hfair⟩ := hs.fair m hm
    use a, ha, b, hb, hfair.ids, hfair.complementary, hfair.assets.1, hfair.assets.2

/-- An intent that spends an asset with the mark in its name. -/
def markedIntent : Intent := ⟨"a".toList, 10000000, "X|Y".toList, "Z".toList⟩

/-- An intent that exchanges the second piece of the key for the first. -/
def reverseIntent : Intent := ⟨"b".toList, 10000000, "Y".toList, "X".toList⟩

/-- An intent that exchanges the first piece of the key for the second. -/
def forwardIntent : Intent := ⟨"c".toList, 10000000, "X".toList, "Y".toList⟩

/-- No match is improper if the intents of the pieces come first and are matched with each other. -/
theorem matchIntents_proper_forward :
  ¬ ∃ m ∈ matchIntents sortByAmount [forwardIntent, reverseIntent, markedIntent],
    ¬ Proper [forwardIntent, reverseIntent, markedIntent] m
  := by
  push Not
  apply (matchIntents_proper_iff sorts_sortByAmount [forwardIntent, reverseIntent, markedIntent]
    (by decide)).mpr
  decide

/-- The intent with the mark is matched with one that spends neither of its assets. -/
theorem matchIntents_improper :
  ¬ ∀ m ∈ matchIntents sortByAmount [markedIntent, reverseIntent],
    Proper [markedIntent, reverseIntent] m
  := by
  intro h
  have hexhausted := exhausted_of_proper sorts_sortByAmount (by decide) h
    (a := markedIntent) List.mem_cons_self (by decide)
  revert hexhausted
  decide

end Shade.Committee
