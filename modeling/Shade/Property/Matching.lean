import Shade.Committee.Matcher

/-!
# Matchings of complementary intents

What the loop with two pointers over the groups of intents achieves. It uses every intent at
most once, and goes on until no two unused intents are complementary: an intent it passes over
has been used, or is the one it is just comparing with the others.
-/

namespace Shade.Committee

open Text

/-- The intents of a match. -/
def MatchResult.ids (m : MatchResult) : List Text := [m.intentAId, m.intentBId]

/-! ### Groups of intents -/

namespace Groups

variable {groups : Groups} {key : Text} {group : List Intent}

theorem get_push (groups : Groups) (k key : Text) (i : Intent) :
  (groups.push k i).get key
    = if k = key then some ((groups.get key).getD [] ++ [i]) else groups.get key
  := by
  induction groups with
  | nil => rfl
  | cons entry groups ih =>
      obtain ⟨k', group⟩ := entry
      rw [push]
      split
      · next h =>
          subst h
          rw [get, get]
          by_cases hkey : k' = key
          · rw [if_pos hkey, if_pos hkey, if_pos hkey]
            rfl
          · rw [if_neg hkey, if_neg hkey, if_neg hkey]
      · next h =>
          rw [get, get, ih]
          by_cases hkey : k' = key
          · rw [if_pos hkey, if_pos hkey, if_neg (fun hk => h (hkey.trans hk.symm))]
          · rw [if_neg hkey, if_neg hkey]

/-- The keys stay different when an intent is added. -/
theorem keys_push (groups : Groups) (k : Text) (i : Intent) :
  (groups.push k i).map Prod.fst
    = if k ∈ groups.map Prod.fst then groups.map Prod.fst else groups.map Prod.fst ++ [k]
  := by
  induction groups with
  | nil => rfl
  | cons entry groups ih =>
      obtain ⟨k', group⟩ := entry
      rw [push]
      split
      · next h => simp [h]
      · next h =>
          rw [List.map_cons, ih]
          by_cases hk : k ∈ groups.map Prod.fst
          · simp [hk]
          · simp [hk, Ne.symm h]

/-- A group with a key is an entry. -/
theorem mem_of_get (h : groups.get key = some group) :
  (key, group) ∈ groups
  := by
  induction groups with
  | nil => cases h
  | cons entry groups ih =>
      obtain ⟨k, group'⟩ := entry
      rw [get] at h
      split at h
      · next hk =>
          obtain rfl := Option.some.inj h
          rw [hk]
          exact List.mem_cons_self
      · apply List.mem_cons_of_mem _ (ih h)

/-- An entry is the group with its key, if the keys are different. -/
theorem get_of_mem (hkeys : (groups.map Prod.fst).Nodup) (h : (key, group) ∈ groups) :
  groups.get key = some group
  := by
  induction groups with
  | nil => cases h
  | cons entry groups ih =>
      obtain ⟨k, group'⟩ := entry
      obtain ⟨hnew, hkeys⟩ := List.nodup_cons.mp hkeys
      rw [get]
      rcases List.mem_cons.mp h with heq | h
      · cases heq
        rw [if_pos rfl]
      · rw [if_neg, ih hkeys h]
        rintro rfl
        apply hnew (List.mem_map.mpr ⟨_, h, rfl⟩)

end Groups

/-- The key of the group of an intent. -/
def Intent.key (i : Intent) : Text := groupKey i.inputAsset i.outputAsset

theorem groupIntents_concat (intents : List Intent) (i : Intent) :
  groupIntents (intents ++ [i]) = (groupIntents intents).push i.key i
  := by
  rw [groupIntents, List.foldl_append]
  rfl

theorem nodup_keys_groupIntents (intents : List Intent) :
  ((groupIntents intents).map Prod.fst).Nodup
  := by
  induction intents using List.reverseRecOn with
  | nil => exact List.nodup_nil
  | append_singleton intents i ih =>
      rw [groupIntents_concat, Groups.keys_push]
      split
      · exact ih
      · next hnew =>
          rw [← List.concat_eq_append]
          apply ih.concat hnew

/-- The group with a key consists of the intents with that key, in order. -/
theorem get_groupIntents (intents : List Intent) (key : Text) :
  ((groupIntents intents).get key).getD [] = intents.filter (fun i => i.key = key)
    ∧ ((groupIntents intents).get key = none → intents.filter (fun i => i.key = key) = [])
  := by
  induction intents using List.reverseRecOn with
  | nil => exact ⟨rfl, fun _ => rfl⟩
  | append_singleton intents i ih =>
      rw [groupIntents_concat, Groups.get_push, List.filter_append]
      by_cases hkey : i.key = key
      · rw [if_pos hkey]
        refine ⟨?_, fun h => by cases h⟩
        rw [Option.getD_some, ih.1]
        simp [hkey]
      · rw [if_neg hkey]
        simpa [hkey] using ih

/-- The assets can be read off the key of a group if their names do not contain its mark. -/
theorem splitOn_groupKey {inAsset outAsset : Text} (hin : '|' ∉ inAsset) (hout : '|' ∉ outAsset) :
  (groupKey inAsset outAsset).splitOn '|' = [inAsset, outAsset]
  := by
  have hkey : groupKey inAsset outAsset = ['|'].intercalate [inAsset, outAsset] := by
    simp [groupKey]
  rw [hkey]
  apply List.splitOn_intercalate
  · intro l hl
    rcases List.mem_pair.mp hl with rfl | rfl
    · exact hin
    · exact hout
  · simp

/-! ### The loop with two pointers -/

/-- Each of the intents spends what the other one wants. -/
def Complementary (a b : Intent) : Prop :=
  a.inputAsset = b.outputAsset ∧ a.outputAsset = b.inputAsset

/-- A match of complementary intents, with the assets of the first and the smaller amount. -/
structure Fair (a b : Intent) (m : MatchResult) : Prop where
  ids : m.intentAId = a.intentId ∧ m.intentBId = b.intentId
  complementary : Complementary a b
  assets : m.inputAsset = a.inputAsset ∧ m.outputAsset = a.outputAsset
  amount : toInt? m.matchedAmount7dp = some (min a.amount7dp b.amount7dp)

theorem fair_matchOf {a b : Intent} (h : Complementary a b) :
  Fair a b (matchOf a.inputAsset a.outputAsset a b)
  := by
  refine ⟨⟨rfl, rfl⟩, h, ⟨rfl, rfl⟩, ?_⟩
  rw [matchOf, toInt?_decimal, min_def]
  split
  · next hlt => rw [if_pos hlt.le]
  · next hge =>
      split
      · next hle => rw [le_antisymm hle (not_lt.mp hge)]
      · rfl

section

variable {intents as bs : List Intent} {inAsset outAsset : Text} {s : Progress MatchResult}

/-- What is preserved when two unused intents are matched holds after the loop. -/
theorem pairUp_invariant {P : Progress MatchResult → Prop}
    (hadd : ∀ s, ∀ a ∈ as, ∀ b ∈ bs, a.intentId ∉ s.used → b.intentId ∉ s.used →
      a.intentId ≠ b.intentId → P s →
        P (s.add a.intentId b.intentId (matchOf inAsset outAsset a b)))
    (hs : P s) :
  P (pairUp inAsset outAsset as bs s)
  := by
  fun_induction pairUp inAsset outAsset as bs s with
  | case1 a as b bs s hused ih =>
      apply ih _ hs
      intro s' c hc d hd
      apply hadd s' c (List.mem_cons_of_mem a hc) d hd
  | case2 a as b bs s hunused hskip ih =>
      apply ih _ hs
      intro s' c hc d hd
      apply hadd s' c hc d (List.mem_cons_of_mem b hd)
  | case3 a as b bs s hunused hskip ih =>
      rw [not_or] at hskip
      apply ih
      · intro s' c hc d hd
        apply hadd s' c (List.mem_cons_of_mem a hc) d (List.mem_cons_of_mem b hd)
      · apply hadd s a List.mem_cons_self b List.mem_cons_self hunused hskip.1 hskip.2 hs
  | case4 as bs s hend => apply hs

/-- What is used stays used. -/
theorem used_pairUp {id : Text} (h : id ∈ s.used) :
  id ∈ (pairUp inAsset outAsset as bs s).used
  := by
  apply pairUp_invariant (P := fun s' => id ∈ s'.used) _ h
  intro s' a _ b _ _ _ _ hused
  apply Progress.mem_used_add.mpr (.inl hused)

/-- The matches found are of different intents each, and each of them is fair. -/
structure MatchProgress (intents : List Intent) (s : Progress MatchResult) : Prop where
  disjoint : s.Disjoint MatchResult.ids
  fair : ∀ m ∈ s.found, ∃ a ∈ intents, ∃ b ∈ intents, Fair a b m

/-- The loop finds fair matches if the intents of the two groups exchange two assets. -/
theorem MatchProgress.pairUp (hs : MatchProgress intents s)
    (has : ∀ a ∈ as, a ∈ intents ∧ a.inputAsset = inAsset ∧ a.outputAsset = outAsset)
    (hbs : ∀ b ∈ bs, b ∈ intents ∧ b.inputAsset = outAsset ∧ b.outputAsset = inAsset) :
  MatchProgress intents (pairUp inAsset outAsset as bs s)
  := by
  apply pairUp_invariant _ hs
  intro s' a ha b hb hunusedA hunusedB hne hs'
  obtain ⟨ha, rfl, rfl⟩ := has a ha
  obtain ⟨hb, hin, hout⟩ := hbs b hb
  constructor
  · apply hs'.disjoint.add hunusedA hunusedB hne rfl
  · intro m hm
    rw [Progress.add_found, List.mem_append, List.mem_singleton] at hm
    rcases hm with hm | rfl
    · apply hs'.fair m hm
    · exact ⟨a, ha, b, hb, fair_matchOf ⟨hout.symm, hin.symm⟩⟩

/-- What is left of the two groups: they have no intent in common, or every intent of the first
one but the foremost is used or left in the second one. -/
def Overlapping (as bs : List Intent) (s : Progress MatchResult) : Prop :=
  (∀ a ∈ as, ∀ b ∈ bs, a.intentId ≠ b.intentId)
    ∨ ∀ a ∈ as.tail, a.intentId ∈ s.used ∨ a ∈ bs

/-- After the loop, of any two different intents of the two groups one is used. -/
theorem used_or_used_pairUp (hids : (as.map Intent.intentId).Nodup) (h : Overlapping as bs s) :
  ∀ a ∈ as, ∀ b ∈ bs, a.intentId ≠ b.intentId →
    a.intentId ∈ (pairUp inAsset outAsset as bs s).used
      ∨ b.intentId ∈ (pairUp inAsset outAsset as bs s).used
  := by
  fun_induction pairUp inAsset outAsset as bs s with
  | case1 a as b bs s hused ih =>
      rw [List.map_cons, List.nodup_cons] at hids
      intro c hc d hd hne
      rcases List.mem_cons.mp hc with rfl | hc
      · exact .inl (used_pairUp hused)
      · apply ih hids.2 _ c hc d hd hne
        rcases h with h | h
        · exact .inl fun x hx => h x (List.mem_cons_of_mem a hx)
        · exact .inr fun x hx => h x (List.mem_of_mem_tail hx)
  | case2 a as b bs s hunused hskip ih =>
      have htail : ∀ x ∈ as, x.intentId ≠ a.intentId := by
        rintro x hx heq
        rw [List.map_cons, List.nodup_cons, ← heq] at hids
        apply hids.1 (List.mem_map_of_mem hx)
      have hrest : Overlapping (a :: as) bs s := by
        rcases h with h | h
        · exact .inl fun x hx y hy => h x hx y (List.mem_cons_of_mem b hy)
        · right
          intro x hx
          rcases h x hx with hxused | hxb
          · exact .inl hxused
          · rcases List.mem_cons.mp hxb with rfl | hxb
            · rcases hskip with hxused | heq
              · exact .inl hxused
              · exact absurd heq.symm (htail x hx)
            · exact .inr hxb
      intro c hc d hd hne
      rcases List.mem_cons.mp hd with rfl | hd
      · rcases hskip with hused | heq
        · exact .inr (used_pairUp hused)
        · rcases h with h | h
          · exact absurd heq (h a List.mem_cons_self d List.mem_cons_self)
          · rcases List.mem_cons.mp hc with rfl | hc
            · exact absurd heq hne
            · rcases h c hc with hused | hcd
              · exact .inl (used_pairUp hused)
              · rcases List.mem_cons.mp hcd with rfl | hcd
                · exact absurd rfl hne
                · rw [← heq]
                  exact (ih hids hrest a List.mem_cons_self c hcd (htail c hc).symm).symm
      · apply ih hids hrest c hc d hd hne
  | case3 a as b bs s hunused hskip ih =>
      rw [List.map_cons, List.nodup_cons] at hids
      intro c hc d hd hne
      rcases List.mem_cons.mp hc with rfl | hc
      · left
        apply used_pairUp
        apply Progress.mem_used_add.mpr (.inr (.inl rfl))
      · rcases List.mem_cons.mp hd with rfl | hd
        · right
          apply used_pairUp
          apply Progress.mem_used_add.mpr (.inr (.inr rfl))
        · apply ih hids.2 _ c hc d hd hne
          rcases h with h | h
          · left
            intro x hx y hy
            apply h x (List.mem_cons_of_mem a hx) y (List.mem_cons_of_mem b hy)
          · right
            intro x hx
            rw [Progress.mem_used_add]
            rcases h x (List.mem_of_mem_tail hx) with hxused | hxb
            · exact .inl (.inl hxused)
            · rcases List.mem_cons.mp hxb with rfl | hxb
              · exact .inl (.inr (.inr rfl))
              · exact .inr hxb
  | case4 as bs s hend =>
      intro c hc d hd
      obtain ⟨a, as, rfl⟩ := List.exists_cons_of_ne_nil (List.ne_nil_of_mem hc)
      obtain ⟨b, bs, rfl⟩ := List.exists_cons_of_ne_nil (List.ne_nil_of_mem hd)
      exact absurd rfl fun h => hend a as b bs h rfl

/-! ### All groups -/

variable {sort : List Intent → List Intent}

/-- A function that sorts intents by amount: it returns them in another order, the smaller ones
first. -/
structure Sorts (sort : List Intent → List Intent) : Prop where
  perm : ∀ l, (sort l).Perm l
  sorted : ∀ l, (sort l).Pairwise fun a b => a.amount7dp ≤ b.amount7dp

/-- The intents with a key. -/
def keyed (intents : List Intent) (key : Text) : List Intent :=
  intents.filter (fun i => i.key = key)

theorem mem_keyed {key : Text} {i : Intent} :
  i ∈ keyed intents key ↔ i ∈ intents ∧ i.key = key
  := by
  simp [keyed]

/-- The entries of the groups are the keys of the intents, each with the intents that have it. -/
theorem mem_groupIntents {key : Text} {group : List Intent}
    (h : (key, group) ∈ groupIntents intents) :
  group = keyed intents key
  := by
  have hget := Groups.get_of_mem (nodup_keys_groupIntents intents) h
  have hgroup := (get_groupIntents intents key).1
  rw [hget] at hgroup
  exact hgroup

/-- The reverse group is the group of the intents with the reverse key, if there are any. -/
theorem get_groupIntents_of_mem {key : Text} {i : Intent} (h : i ∈ keyed intents key) :
  (groupIntents intents).get key = some (keyed intents key)
  := by
  obtain ⟨hgroup, hnone⟩ := get_groupIntents intents key
  cases hget : (groupIntents intents).get key with
  | none =>
      rw [keyed, hnone hget] at h
      cases h
  | some group =>
      rw [hget] at hgroup
      exact congrArg some hgroup

/-! ### What is used -/

/-- The matches found use different identifiers, all of them from a list. -/
structure UsesFrom (ids : List Text) (s : Progress MatchResult) : Prop where
  disjoint : s.Disjoint MatchResult.ids
  subset : s.used ⊆ ids

theorem UsesFrom.pairUp {ids : List Text} {s : Progress MatchResult} (hs : UsesFrom ids s)
    {inAsset outAsset : Text} {as bs : List Intent}
    (has : ∀ a ∈ as, a.intentId ∈ ids) (hbs : ∀ b ∈ bs, b.intentId ∈ ids) :
  UsesFrom ids (pairUp inAsset outAsset as bs s)
  := by
  apply pairUp_invariant _ hs
  intro s' a ha b hb hunusedA hunusedB hne hs'
  constructor
  · apply hs'.disjoint.add hunusedA hunusedB hne rfl
  · intro intentId hid
    rcases Progress.mem_used_add.mp hid with hid | rfl | rfl
    · apply hs'.subset hid
    · apply has a ha
    · apply hbs b hb

theorem UsesFrom.matchGroup {is : List Intent} {s : Progress MatchResult}
    (hs : UsesFrom (is.map Intent.intentId) s) (hsort : Sorts sort) {entry : Text × List Intent}
    (hentry : entry ∈ groupIntents is) :
  UsesFrom (is.map Intent.intentId) (matchGroup sort (groupIntents is) s entry)
  := by
  have hmem : ∀ key, ∀ a ∈ sort (keyed is key), a.intentId ∈ is.map Intent.intentId := by
    intro key a ha
    apply List.mem_map_of_mem (mem_keyed.mp ((hsort.perm _).mem_iff.mp ha)).1
  obtain ⟨key, group⟩ := entry
  obtain rfl := mem_groupIntents hentry
  rw [Committee.matchGroup]
  split
  · apply hs
  · case h_2 reverseGroup hreverse =>
      obtain rfl := mem_groupIntents (Groups.mem_of_get hreverse)
      apply hs.pairUp (hmem key) (hmem _)

/-- Matching uses no identifier twice, and only identifiers of the intents. -/
theorem matchIntents_ids (hsort : Sorts sort) (is : List Intent) :
  ((matchIntents sort is).flatMap MatchResult.ids).Nodup
    ∧ (matchIntents sort is).flatMap MatchResult.ids ⊆ is.map Intent.intentId
  := by
  have hfold : ∀ entries : Groups, (∀ entry ∈ entries, entry ∈ groupIntents is) →
      ∀ s : Progress MatchResult, UsesFrom (is.map Intent.intentId) s →
        UsesFrom (is.map Intent.intentId) (entries.foldl (matchGroup sort (groupIntents is)) s) := by
    intro entries
    induction entries with
    | nil => exact fun _ s hs => hs
    | cons entry entries ih =>
        intro hentries s hs
        apply ih (fun e he => hentries e (List.mem_cons_of_mem _ he))
        apply hs.matchGroup hsort (hentries entry List.mem_cons_self)
  have hempty : UsesFrom (is.map Intent.intentId) Progress.empty :=
    ⟨Progress.disjoint_empty _, List.nil_subset _⟩
  have hall := hfold (groupIntents is) (fun _ h => h) Progress.empty hempty
  rw [matchIntents, ← hall.disjoint.used_eq]
  use hall.disjoint.nodup, hall.subset

/-! ### Fair matches -/

/-- The names of the assets of an intent do not contain the mark of the keys. -/
def Intent.Named (i : Intent) : Prop := '|' ∉ i.inputAsset ∧ '|' ∉ i.outputAsset

instance (i : Intent) : Decidable i.Named := inferInstanceAs (Decidable (_ ∧ _))

/-- A key with one mark is the key of one pair of assets. -/
theorem eq_of_groupKey_eq {x y x' y' : Text} (hx : '|' ∉ x) (hy : '|' ∉ y)
    (h : groupKey x' y' = groupKey x y) :
  x' = x ∧ y' = y
  := by
  have hcount := congrArg (List.count '|') h
  simp only [groupKey, List.count_append, List.count_cons_self, List.count_eq_zero.mpr hx,
    List.count_eq_zero.mpr hy] at hcount
  have hx' : '|' ∉ x' := List.count_eq_zero.mp (by omega)
  have hy' : '|' ∉ y' := List.count_eq_zero.mp (by omega)
  have hsplit := congrArg (List.splitOn '|') h
  rw [splitOn_groupKey hx' hy', splitOn_groupKey hx hy] at hsplit
  simpa using hsplit

/-- Intents with the same key have the same assets. -/
theorem assets_eq_of_key {a b : Intent} (ha : a.Named) (h : a.key = b.key) :
  a.inputAsset = b.inputAsset ∧ a.outputAsset = b.outputAsset
  := by
  obtain ⟨hin, hout⟩ := eq_of_groupKey_eq ha.1 ha.2 h.symm
  use hin.symm, hout.symm

/-- The group of an intent is matched with the group of its reverse key. -/
theorem matchGroup_eq {a : Intent} (ha : a.Named) (groups : Groups) (group : List Intent) :
  matchGroup sort groups s (a.key, group)
    = match groups.get (groupKey a.outputAsset a.inputAsset) with
      | none => s
      | some reverseGroup =>
          pairUp a.inputAsset a.outputAsset (sort group) (sort reverseGroup) s
  := by
  rw [matchGroup, Intent.key, splitOn_groupKey ha.1 ha.2]
  rfl

/-- What is used stays used. -/
theorem used_matchGroup {groups : Groups} {entry : Text × List Intent} {id : Text}
    (h : id ∈ s.used) :
  id ∈ (matchGroup sort groups s entry).used
  := by
  rw [matchGroup]
  split
  · exact h
  · apply used_pairUp h

/-- The intents with a key are intents with the assets of any of them. -/
theorem mem_sort_keyed (hsort : Sorts sort) {key : Text} {a b : Intent} (ha : a.Named)
    (hkey : a.key = key) (hb : b ∈ sort (keyed intents key)) :
  b ∈ intents ∧ b.inputAsset = a.inputAsset ∧ b.outputAsset = a.outputAsset
  := by
  obtain ⟨hmem, hb⟩ := mem_keyed.mp ((hsort.perm _).mem_iff.mp hb)
  obtain ⟨hin, hout⟩ := assets_eq_of_key ha (hkey.trans hb.symm)
  use hmem, hin.symm, hout.symm

/-- Matching a group finds fair matches. -/
theorem MatchProgress.matchGroup (hs : MatchProgress intents s) (hsort : Sorts sort)
    {entry : Text × List Intent} (hnamed : ∀ i ∈ intents, i.key = entry.1 → i.Named)
    (hentry : entry ∈ groupIntents intents) :
  MatchProgress intents (matchGroup sort (groupIntents intents) s entry)
  := by
  obtain ⟨key, group⟩ := entry
  obtain rfl := mem_groupIntents hentry
  cases hgroup : keyed intents key with
  | nil =>
      have hnil : sort [] = [] := List.perm_nil.mp (hsort.perm [])
      rw [Committee.matchGroup, hnil]
      split
      · exact hs
      · rw [Committee.pairUp.eq_def]
        exact hs
  | cons a rest =>
      obtain ⟨ha, rfl⟩ := mem_keyed.mp (hgroup ▸ List.mem_cons_self : a ∈ keyed intents key)
      have ha' : a.Named := hnamed a ha rfl
      rw [← hgroup, matchGroup_eq ha']
      split
      · exact hs
      · next reverseGroup hreverse =>
          obtain rfl := mem_groupIntents (Groups.mem_of_get hreverse)
          have hreversed : ∀ b ∈ sort (keyed intents (groupKey a.outputAsset a.inputAsset)),
              b ∈ intents ∧ b.inputAsset = a.outputAsset ∧ b.outputAsset = a.inputAsset := by
            intro b hb
            apply mem_sort_keyed hsort
              (a := { a with inputAsset := a.outputAsset, outputAsset := a.inputAsset })
              ⟨ha'.2, ha'.1⟩ rfl hb
          apply hs.pairUp _ hreversed
          intro b hb
          apply mem_sort_keyed hsort ha' rfl hb

/-- Once the group of an intent is matched, the intent or any complementary one is used. -/
theorem used_or_used_matchGroup (hids : (intents.map Intent.intentId).Nodup)
    (hsort : Sorts sort) {a b : Intent} (hnamed : a.Named) (ha : a ∈ intents)
    (hb : b ∈ intents) (hab : Complementary a b) (hne : a.intentId ≠ b.intentId) :
  a.intentId ∈ (matchGroup sort (groupIntents intents) s (a.key, keyed intents a.key)).used
    ∨ b.intentId ∈ (matchGroup sort (groupIntents intents) s (a.key, keyed intents a.key)).used
  := by
  have hkey : groupKey a.outputAsset a.inputAsset = b.key := by
    rw [Intent.key, hab.1, hab.2]
  have hmemA : a ∈ keyed intents a.key := mem_keyed.mpr ⟨ha, rfl⟩
  have hmemB : b ∈ keyed intents b.key := mem_keyed.mpr ⟨hb, rfl⟩
  rw [matchGroup_eq hnamed, hkey, get_groupIntents_of_mem hmemB]
  apply used_or_used_pairUp _ _ a ((hsort.perm _).mem_iff.mpr hmemA) b
    ((hsort.perm _).mem_iff.mpr hmemB) hne
  · rw [((hsort.perm _).map _).nodup_iff]
    apply hids.sublist (List.filter_sublist.map _)
  · by_cases hsame : a.key = b.key
    · right
      intro x hx
      rw [← hsame]
      exact .inr (List.mem_of_mem_tail hx)
    · left
      intro x hx y hy heq
      obtain ⟨hx, hxkey⟩ := mem_keyed.mp ((hsort.perm _).mem_iff.mp hx)
      obtain ⟨hy, hykey⟩ := mem_keyed.mp ((hsort.perm _).mem_iff.mp hy)
      obtain rfl := List.inj_on_of_nodup_map hids hx hy heq
      apply hsame (hxkey.symm.trans hykey)

/-- Once some of the groups are matched, the matches are fair, and of two complementary intents
of which the first is in one of these groups one is used. -/
theorem foldl_matchGroup (hids : (intents.map Intent.intentId).Nodup) (hsort : Sorts sort)
    (hnamed : ∀ i ∈ intents, i.Named) (entries : Groups)
    (hentries : ∀ entry ∈ entries, entry ∈ groupIntents intents) :
  MatchProgress intents (entries.foldl (matchGroup sort (groupIntents intents)) Progress.empty)
    ∧ ∀ a ∈ intents, (a.key, keyed intents a.key) ∈ entries → ∀ b ∈ intents, Complementary a b →
      a.intentId ≠ b.intentId →
      a.intentId ∈ (entries.foldl (matchGroup sort (groupIntents intents)) Progress.empty).used
        ∨ b.intentId
          ∈ (entries.foldl (matchGroup sort (groupIntents intents)) Progress.empty).used
  := by
  induction entries using List.reverseRecOn with
  | nil =>
      refine ⟨⟨Progress.disjoint_empty _, ?_⟩, ?_⟩
      · intro m hm
        cases hm
      · intro a ha hentry
        cases hentry
  | append_singleton entries entry ih =>
      obtain ⟨hs, hused⟩ := ih fun e he => hentries e (List.mem_append_left [entry] he)
      rw [List.foldl_append, List.foldl_cons, List.foldl_nil]
      refine ⟨hs.matchGroup hsort (fun i hi _ => hnamed i hi)
        (hentries entry List.mem_concat_self), ?_⟩
      intro a ha hentry b hb hab hne
      rcases List.mem_append.mp hentry with hentry | hentry
      · rcases hused a ha hentry b hb hab hne with h | h
        · exact .inl (used_matchGroup h)
        · exact .inr (used_matchGroup h)
      · obtain rfl := List.mem_singleton.mp hentry
        apply used_or_used_matchGroup hids hsort (hnamed a ha) ha hb hab hne

/-- The loop over all groups uses every intent at most once, finds fair matches, and leaves no
two complementary intents unused. -/
theorem matchIntents_fair (hsort : Sorts sort) (hids : (intents.map Intent.intentId).Nodup)
    (hnamed : ∀ i ∈ intents, i.Named) :
  ((matchIntents sort intents).flatMap MatchResult.ids).Nodup
    ∧ (∀ m ∈ matchIntents sort intents, ∃ a ∈ intents, ∃ b ∈ intents, Fair a b m)
    ∧ ∀ a ∈ intents, ∀ b ∈ intents, a ≠ b →
      a.intentId ∉ (matchIntents sort intents).flatMap MatchResult.ids →
      b.intentId ∉ (matchIntents sort intents).flatMap MatchResult.ids → ¬ Complementary a b
  := by
  obtain ⟨hs, hused⟩ := foldl_matchGroup hids hsort hnamed (groupIntents intents) fun _ h => h
  rw [matchIntents, ← hs.disjoint.used_eq]
  refine ⟨hs.disjoint.nodup, hs.fair, ?_⟩
  intro a ha b hb hne hunusedA hunusedB hab
  have hentry : (a.key, keyed intents a.key) ∈ groupIntents intents :=
    Groups.mem_of_get (get_groupIntents_of_mem (mem_keyed.mpr ⟨ha, rfl⟩))
  have hidne : a.intentId ≠ b.intentId :=
    fun heq => hne (List.inj_on_of_nodup_map hids ha hb heq)
  rcases hused a ha hentry b hb hab hidne with h | h
  · apply hunusedA h
  · apply hunusedB h

end

/-- Sorting by insertion. -/
def sortByAmount (intents : List Intent) : List Intent :=
  intents.insertionSort fun a b => a.amount7dp ≤ b.amount7dp

theorem sorts_sortByAmount :
  Sorts sortByAmount
  := by
  constructor
  · intro l
    apply List.perm_insertionSort
  · intro l
    apply List.pairwise_insertionSort

/-- An intent that exchanges an asset for itself. -/
def sameAssetIntent (id : Char) : Intent where
  intentId := [id]
  amount7dp := 10000000
  inputAsset := "USDC".toList
  outputAsset := "USDC".toList

/-- Of three intents that exchange an asset for itself, one of the first two is matched. -/
theorem sameAssetIntents_fair :
  ∃ id ∈ ['X', 'Y'], [id] ∈ (matchIntents sortByAmount
    (['X', 'Y', 'Z'].map sameAssetIntent)).flatMap MatchResult.ids
  := by
  obtain ⟨-, -, hmaximal⟩ := matchIntents_fair sorts_sortByAmount
    (by decide : ((['X', 'Y', 'Z'].map sameAssetIntent).map Intent.intentId).Nodup) (by decide)
  by_contra hunused
  push Not at hunused
  apply hmaximal (sameAssetIntent 'X') (by decide) (sameAssetIntent 'Y') (by decide) (by decide)
    (hunused 'X' (by decide)) (hunused 'Y' (by decide)) ⟨rfl, rfl⟩

end Shade.Committee
