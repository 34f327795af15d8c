import Shade.Committee.Round

/-!
# Decrypted shares after a round

A round writes decrypted shares into the session and forgets those of its nodes when all amounts
have been put together. The returns before that leave them as they are.
-/

namespace Shade.Committee

open Text

/-- The entries of the shares of a session, each for a node and an intent. -/
abbrev Shares : Type := OrderedMap (Text × Text) NodeShareEntry

/-- What the entries hold instead of what they held. -/
def Shares.fill (held : (Text × Text) × NodeShareEntry → Option Plain) (m : Shares) : Shares :=
  m.map fun e => (e.1, { e.2 with decryptedShare := held e })

/-- No entry holds a decrypted share. -/
def Session.Cleared (s : Session) : Prop := ∀ e ∈ s.shares, e.2.decryptedShare = none

/-! ### What is decrypted -/

/-- What the share of an entry decrypts to, if it does. -/
def Crypto.opened (crypto : Crypto) (e : (Text × Text) × NodeShareEntry) : Option (Option Plain) :=
  crypto.decryptShare e.1.1 { e.2.encryptedShare with nodeId := e.1.1 }

/-- The share of an entry can be decrypted. -/
def Crypto.opens (crypto : Crypto) (e : (Text × Text) × NodeShareEntry) : Bool :=
  (crypto.opened e).isSome

/-- The entries that the nodes go through, in this order. -/
def work (nodes : List Text) (m : Shares) : Shares :=
  nodes.flatMap fun nodeId => m.filter fun e => e.1.1 = nodeId

/-- The entries before the first one that cannot be decrypted. -/
def reached (crypto : Crypto) (nodes : List Text) (m : Shares) : Shares :=
  (work nodes m).takeWhile crypto.opens

/-- What an entry holds when certain entries have been decrypted. -/
def heldAfter (crypto : Crypto) (done : Shares) (e : (Text × Text) × NodeShareEntry) :
    Option Plain :=
  if done.any fun x => x.1 = e.1 then (crypto.opened e).join else e.2.decryptedShare

/-- What an entry holds when answers have been stored: the last share that a node answered. -/
def heldByAnswers (answers : List DecryptAnswer) (e : (Text × Text) × NodeShareEntry) :
    Option Plain :=
  (answers.flatMap fun a => a.shares.map fun x => ((a.nodeId, x.1), x.2)).foldl
    (fun held x => if x.1 = e.1 then x.2 else held) e.2.decryptedShare

/-- Fewer than two nodes have a share of an intent that counts as true. -/
def Short (held : (Text × Text) × NodeShareEntry → Option Plain) (nodes : List Text) (m : Shares)
    (intentId : Text) : Prop :=
  ((nodes.filterMap fun nodeId => (OrderedMap.get m (nodeId, intentId)).bind fun entry =>
    held ((nodeId, intentId), entry)).filter Plain.truthy).length < 2

/-! ### Entries that are filled -/

variable {held held' : (Text × Text) × NodeShareEntry → Option Plain} {m : Shares}
  {key : Text × Text}

theorem mem_fill {e : (Text × Text) × NodeShareEntry} :
  e ∈ m.fill held ↔ ∃ e₀ ∈ m, (e₀.1, { e₀.2 with decryptedShare := held e₀ }) = e
  := List.mem_map

theorem keys_fill :
  OrderedMap.keys (m.fill held) = OrderedMap.keys m
  := by
  rw [OrderedMap.keys, Shares.fill, List.map_map]
  rfl

theorem get_fill :
  OrderedMap.get (m.fill held) key = (OrderedMap.get m key).map fun entry =>
    { entry with decryptedShare := held (key, entry) }
  := by
  induction m with
  | nil => rfl
  | cons e m ih =>
      obtain ⟨k, entry⟩ := e
      change OrderedMap.get ((k, { entry with decryptedShare := held (k, entry) })
        :: Shares.fill held m) key = _
      rw [OrderedMap.get, OrderedMap.get, ih]
      split
      · case isTrue hk =>
          rw [← hk]
          rfl
      · rfl

/-- To fill twice is to fill with what is computed from what was filled. -/
theorem fill_fill :
  (m.fill held).fill held'
    = m.fill fun e => held' (e.1, { e.2 with decryptedShare := held e })
  := by
  rw [Shares.fill, Shares.fill, Shares.fill, List.map_map]
  rfl

theorem fill_congr (h : ∀ e ∈ m, held e = held' e) :
  m.fill held = m.fill held'
  := by
  apply List.map_congr_left
  intro e he
  rw [h e he]

theorem fill_same :
  m.fill (fun e => e.2.decryptedShare) = m
  := List.map_id m

/-- To modify the value of a key is to fill the entry of the key. -/
theorem modify_eq_fill (hm : (OrderedMap.keys m).Nodup) (share : Option Plain) :
  OrderedMap.modify (fun entry => { entry with decryptedShare := share }) m key
    = m.fill fun e => if key = e.1 then share else e.2.decryptedShare
  := by
  induction m with
  | nil => rfl
  | cons e m ih =>
      obtain ⟨k, entry⟩ := e
      obtain ⟨hk, hm⟩ := List.nodup_cons.mp hm
      rw [OrderedMap.modify, Shares.fill, List.map_cons]
      by_cases heq : k = key
      · subst heq
        have hrest : Shares.fill (fun e => if k = e.1 then share else e.2.decryptedShare) m = m := by
          have hsame : ∀ e ∈ m, (if k = e.1 then share else e.2.decryptedShare)
              = e.2.decryptedShare := by
            intro e he
            apply if_neg
            intro heq
            apply hk
            apply List.mem_map.mpr ⟨e, he, heq.symm⟩
          rw [fill_congr hsame, fill_same]
        rw [Shares.fill] at hrest
        rw [if_pos rfl, hrest, if_pos rfl]
      · rw [if_neg heq, if_neg (Ne.symm heq), ih hm]
        rfl

/-- To store values for keys one after the other is to fill with the last value of each. -/
theorem foldl_modify_eq_fill (said : List ((Text × Text) × Option Plain)) (m : Shares)
    (hm : (OrderedMap.keys m).Nodup) :
  said.foldl (fun m x =>
      OrderedMap.modify (fun entry => { entry with decryptedShare := x.2 }) m x.1) m
    = m.fill fun e => said.foldl (fun held x => if x.1 = e.1 then x.2 else held)
        e.2.decryptedShare
  := by
  induction said generalizing m with
  | nil => exact fill_same.symm
  | cons x said ih =>
      rw [List.foldl_cons, modify_eq_fill hm, ih _ (by rw [keys_fill]; apply hm), fill_fill]
      rfl

/-- The shares when answers have been stored. -/
theorem shares_storeAnswers (answers : List DecryptAnswer) (s : Session)
    (hm : (OrderedMap.keys s.shares).Nodup) :
  answers.foldl Session.storeAnswer s
    = { s with shares := Shares.fill (heldByAnswers answers) s.shares }
  := by
  have hsaid : answers.foldl Session.storeAnswer s = { s with shares :=
      (answers.flatMap fun a => a.shares.map fun x => ((a.nodeId, x.1), x.2)).foldl (fun m x =>
        OrderedMap.modify (fun entry => { entry with decryptedShare := x.2 }) m x.1) s.shares } := by
    clear hm
    induction answers generalizing s with
    | nil => rfl
    | cons a answers ih =>
        rw [List.foldl_cons, ih, List.flatMap_cons, List.foldl_append, List.foldl_map]
        rfl
  rw [hsaid, foldl_modify_eq_fill _ _ hm]
  rfl

/-! ### The nodes one after the other -/

variable {crypto : Crypto} {done : Shares}

/-- What a share decrypts to does not depend on what its entry holds. -/
theorem opened_fill (e : (Text × Text) × NodeShareEntry) (share : Option Plain) :
  crypto.opened (e.1, { e.2 with decryptedShare := share }) = crypto.opened e
  := rfl

/-- An entry whose key is new to a list of entries does not occur in a part of it. -/
theorem any_eq_false_of_notMem {part : Shares} {k : Text × Text} (hpart : part ⊆ m)
    (hk : k ∉ m.map Prod.fst) :
  (part.any fun x => x.1 = k) = false
  := by
  rw [List.any_eq_false]
  intro x hx heq
  apply hk
  rw [← of_decide_eq_true heq]
  apply List.mem_map_of_mem (hpart hx)

/-- What an entry holds does not depend on whether another one has been decrypted. -/
theorem heldAfter_cons {x e : (Text × Text) × NodeShareEntry} (h : x.1 ≠ e.1) :
  heldAfter crypto (x :: done) e = heldAfter crypto done e
  := by
  rw [heldAfter, heldAfter, List.any_cons, decide_eq_false h, Bool.false_or]

/-- An entry that has been decrypted holds what its share decrypts to. -/
theorem heldAfter_head (e : (Text × Text) × NodeShareEntry) :
  heldAfter crypto (e :: done) e = (crypto.opened e).join
  := by
  rw [heldAfter, List.any_cons, decide_eq_true rfl, Bool.true_or, if_pos rfl]

theorem fill_cons (e : (Text × Text) × NodeShareEntry) (m : Shares) :
  Shares.fill held (e :: m) = (e.1, { e.2 with decryptedShare := held e }) :: m.fill held
  := rfl

/-- The entries of one node, up to the first that cannot be decrypted. -/
theorem decryptEntries_eq (crypto : Crypto) (nodeId : Text) (m : Shares)
    (hm : (OrderedMap.keys m).Nodup) :
  decryptEntries crypto nodeId m
    = (m.fill (heldAfter crypto ((m.filter fun e => e.1.1 = nodeId).takeWhile crypto.opens)),
      (m.filter fun e => e.1.1 = nodeId).all crypto.opens)
  := by
  induction m with
  | nil => rfl
  | cons e m ih =>
      obtain ⟨k, entry⟩ := e
      obtain ⟨hk, hm⟩ := List.nodup_cons.mp hm
      have hne : ∀ e ∈ m, k ≠ e.1 := by
        intro e he heq
        apply hk
        apply List.mem_map.mpr ⟨e, he, heq.symm⟩
      rw [decryptEntries, List.filter_cons]
      by_cases hn : k.1 = nodeId
      · rw [if_pos hn, if_pos (decide_eq_true hn)]
        have ho : crypto.decryptShare nodeId { entry.encryptedShare with nodeId := nodeId }
            = crypto.opened (k, entry) := by
          rw [Crypto.opened, hn]
        rw [ho]
        cases hs : crypto.opened (k, entry) with
        | none =>
            have hempty : Shares.fill (heldAfter crypto []) ((k, entry) :: m) = (k, entry) :: m :=
              fill_same
            simp [Crypto.opens, hs, hempty]
        | some share =>
            have hsome : crypto.opens (k, entry) = true := by rw [Crypto.opens, hs, Option.isSome_some]
            rw [List.takeWhile_cons_of_pos hsome, List.all_cons, hsome, Bool.true_and, ih hm,
              fill_cons, heldAfter_head, hs]
            rw [fill_congr fun e he => heldAfter_cons (hne e he)]
            rfl
      · rw [if_neg hn, if_neg (by simpa using hn), ih hm, fill_cons]
        have hpart : (m.filter fun e => e.1.1 = nodeId).takeWhile crypto.opens ⊆ m :=
          List.Subset.trans (List.takeWhile_sublist crypto.opens).subset (List.filter_subset_self _)
        rw [heldAfter, any_eq_false_of_notMem hpart hk]
        rfl

/-- The entries to go through, when they have been filled. -/
theorem work_fill (nodes : List Text) (m : Shares) :
  work nodes (m.fill held) = (work nodes m).fill held
  := by
  rw [work, work, Shares.fill, Shares.fill, List.map_flatMap]
  congr 1
  funext nodeId
  rw [List.filter_map]
  rfl

/-- The entries that can be decrypted remain the same when they are filled. -/
theorem reached_fill (nodes : List Text) (m : Shares) :
  reached crypto nodes (m.fill held) = (reached crypto nodes m).fill held
  := by
  rw [reached, work_fill, Shares.fill, List.takeWhile_map]
  rfl

theorem all_opens_fill (m : Shares) :
  (m.fill held).all crypto.opens = m.all crypto.opens
  := by
  rw [Shares.fill, List.all_map]
  rfl

/-- Entries that are decrypted after others. -/
theorem heldAfter_heldAfter {done' : Shares} (e : (Text × Text) × NodeShareEntry) :
  heldAfter crypto (done'.fill held)
      (e.1, { e.2 with decryptedShare := heldAfter crypto done e })
    = heldAfter crypto (done ++ done') e
  := by
  rw [heldAfter, heldAfter, heldAfter, Shares.fill, List.any_map, List.any_append, opened_fill]
  change (if (done'.any fun x => x.1 = e.1) = true then _ else _) = _
  cases done.any fun x => x.1 = e.1 with
  | false => rfl
  | true =>
      simp only [Bool.true_or, if_true]
      apply ite_self

/-- What the nodes have decrypted when they have stopped, and whether all of it could be. -/
theorem decryptAll_eq (crypto : Crypto) (nodes : List Text) (s : Session)
    (hm : (OrderedMap.keys s.shares).Nodup) :
  Session.decryptAll crypto nodes s
    = ({ s with shares := Shares.fill (heldAfter crypto (reached crypto nodes s.shares)) s.shares },
      (work nodes s.shares).all crypto.opens)
  := by
  induction nodes generalizing s with
  | nil =>
      have hempty : Shares.fill (heldAfter crypto []) s.shares = s.shares := fill_same
      change (s, true) = ({ s with shares := Shares.fill (heldAfter crypto []) s.shares }, true)
      rw [hempty]
  | cons nodeId nodes ih =>
      have hwork : work (nodeId :: nodes) s.shares
          = (s.shares.filter fun e => e.1.1 = nodeId) ++ work nodes s.shares := List.flatMap_cons
      rw [Session.decryptAll, decryptEntries_eq crypto nodeId s.shares hm, reached, hwork,
        List.all_append]
      dsimp only
      by_cases hall : (s.shares.filter fun e => e.1.1 = nodeId).all crypto.opens = true
      · have hforall := List.all_eq_true.mp hall
        have hpart : (s.shares.filter fun e => e.1.1 = nodeId).takeWhile crypto.opens
            = s.shares.filter fun e => e.1.1 = nodeId := List.takeWhile_eq_self_iff.mpr hforall
        have hkeys : (OrderedMap.keys (Shares.fill
            (heldAfter crypto (s.shares.filter fun e => e.1.1 = nodeId)) s.shares)).Nodup := by
          rw [keys_fill]
          apply hm
        rw [if_pos hall, hpart, ih _ hkeys, List.takeWhile_append_of_pos hforall, hall,
          Bool.true_and]
        dsimp only
        rw [reached_fill, fill_fill, work_fill, all_opens_fill,
          fill_congr fun e _ => heldAfter_heldAfter e]
        rfl
      · have hpart : ((s.shares.filter fun e => e.1.1 = nodeId)
            ++ work nodes s.shares).takeWhile crypto.opens
            = (s.shares.filter fun e => e.1.1 = nodeId).takeWhile crypto.opens := by
          rw [List.takeWhile_append, if_neg]
          intro hlen
          apply hall
          rw [List.all_eq_true]
          apply List.takeWhile_eq_self_iff.mp
          apply (List.takeWhile_sublist _).eq_of_length hlen
        rw [if_neg hall, hpart, Bool.eq_false_iff.mpr hall, Bool.false_and]

/-! ### Putting the amounts together -/

/-- A session whose entries are filled. -/
def Session.fill (held : (Text × Text) × NodeShareEntry → Option Plain) (s : Session) : Session :=
  { s with shares := Shares.fill held s.shares }

/-- The shares of an intent that are there. -/
theorem length_availableShares_lt {s : Session} {nodes : List Text} {intentId : Text} :
  ((s.fill held).availableShares nodes intentId).length < 2
    ↔ Short held nodes s.shares intentId
  := by
  have hshare : (s.fill held).decryptedShare intentId = fun nodeId =>
      (OrderedMap.get s.shares (nodeId, intentId)).bind fun entry =>
        held ((nodeId, intentId), entry) := by
    funext nodeId
    rw [Session.decryptedShare, Session.fill, get_fill, Option.bind_map]
    rfl
  rw [Session.availableShares, List.length_take, hshare, Short]
  omega

/-- The amounts are put together for intents that have enough shares, and fail to be for an intent
that has not. -/
theorem reconstructAll_short {s : Session} {nodes : List Text} (l : List (Text × MpcIntent)) :
  ((s.fill held).reconstructAll nodes l = .error .failed →
      ∃ x ∈ l, Short held nodes s.shares x.1)
    ∧ ∀ is, (s.fill held).reconstructAll nodes l = .ok is →
        ∀ x ∈ l, ¬ Short held nodes s.shares x.1
  := by
  induction l with
  | nil =>
      constructor
      · intro h
        cases h
      · intro is _ x hx
        cases hx
  | cons x l ih =>
      obtain ⟨intentId, intent⟩ := x
      rw [Session.reconstructAll]
      split
      · case isTrue hshort =>
          have hs := length_availableShares_lt.mp hshort
          constructor
          · intro _
            use (intentId, intent), List.mem_cons_self
          · intro is h
            cases h
      · case isFalse henough =>
          have hs := fun h => henough (length_availableShares_lt.mpr h)
          cases hr : reconstructAmount ((s.fill held).availableShares nodes intentId) with
          | none =>
              constructor
              · intro h
                cases h
              · intro is h
                cases h
          | some amount =>
              cases hrest : (s.fill held).reconstructAll nodes l with
              | error e =>
                  constructor
                  · intro h
                    rw [hrest] at ih
                    cases h
                    obtain ⟨x, hx, hsx⟩ := ih.1 rfl
                    use x, List.mem_cons_of_mem _ hx
                  · intro is h
                    cases h
              | ok is₀ =>
                  constructor
                  · intro h
                    cases h
                  · intro is _
                    rw [List.forall_mem_cons]
                    use hs
                    apply ih.2 is₀ hrest

/-- No entry that was filled holds a share. -/
theorem cleared_fill_iff {s : Session} :
  (s.fill held).Cleared ↔ ∀ e ∈ s.shares, held e = none
  := by
  constructor
  · intro h e he
    apply h (e.1, { e.2 with decryptedShare := held e })
    apply mem_fill.mpr ⟨e, he, rfl⟩
  · intro h e he
    obtain ⟨e₀, he₀, rfl⟩ := mem_fill.mp he
    apply h e₀ he₀

/-- The shares of nodes are forgotten, and those of others remain. -/
theorem cleared_clearShares_iff {s : Session} {nodes : List Text} :
  ((s.fill held).clearShares nodes).Cleared
    ↔ ∀ e ∈ s.shares, e.1.1 ∉ nodes → held e = none
  := by
  have hclear : (s.fill held).clearShares nodes
      = s.fill fun e => if nodes.any fun nodeId => nodeId = e.1.1 then none else held e := by
    rw [Session.clearShares, Session.fill, Session.fill, Shares.fill, Shares.fill, List.map_map]
    congr 1
    apply List.map_congr_left
    intro e _
    rw [Function.comp_apply]
    split
    · rfl
    · rfl
  rw [hclear, cleared_fill_iff]
  apply forall_congr'
  intro e
  apply forall_congr'
  intro _
  have hany : (nodes.any fun nodeId => nodeId = e.1.1) = true ↔ e.1.1 ∈ nodes := by
    rw [List.any_eq_true]
    constructor
    · rintro ⟨nodeId, hn, heq⟩
      rw [← of_decide_eq_true heq]
      apply hn
    · intro hn
      use e.1.1, hn
      apply decide_eq_true rfl
  split
  · case isTrue h => simp [hany.mp h]
  · case isFalse h =>
      have hn : e.1.1 ∉ nodes := fun hn => h (hany.mpr hn)
      simp [hn]

/-- To put the amounts together fails for an intent without enough shares, which leaves the shares,
throws an error, or forgets the shares of the nodes. -/
theorem matchAll_cases (sort : List Intent → List Intent) (nodes : List Text) (s : Session) :
  (∃ x ∈ s.intents, Short held nodes s.shares x.1)
      ∧ (s.fill held).matchAll sort nodes = ((s.fill held).withStatus .failed, none)
    ∨ (s.fill held).matchAll sort nodes = (s.fill held, none)
    ∨ (¬ ∃ x ∈ s.intents, Short held nodes s.shares x.1)
      ∧ ∃ matchList, (s.fill held).matchAll sort nodes
          = ((s.fill held).clearShares nodes, some matchList)
  := by
  obtain ⟨hfailed, hok⟩ := @reconstructAll_short held s nodes s.intents
  have hintents : (s.fill held).intents = s.intents := rfl
  rw [Session.matchAll, hintents]
  cases hr : (s.fill held).reconstructAll nodes s.intents with
  | error e =>
      cases e with
      | failed =>
          left
          use hfailed hr
      | threw =>
          right
          left
          rfl
  | ok is =>
      right
      right
      constructor
      · rintro ⟨x, hx, hshort⟩
        apply hok is hr x hx hshort
      · use matchIntents sort is

/-! ### Rounds -/

variable {sort : List Intent → List Intent} {nodes : List Text} {batchId : Text} {s s' : Session}

/-- What the entries hold when the nodes of the combined server have stopped. -/
def heldInRound (crypto : Crypto) (nodes : List Text) (s : Session) :
    (Text × Text) × NodeShareEntry → Option Plain :=
  if s.intents.length < 2 then fun e => e.2.decryptedShare
  else heldAfter crypto (reached crypto nodes s.shares)

/-- The round of the combined server returns before it forgets shares. -/
def ReturnsEarly (crypto : Crypto) (nodes : List Text) (s : Session) : Prop :=
  s.intents.length < 2 ∨ (∃ e ∈ work nodes s.shares, crypto.opens e = false)
    ∨ ∃ x ∈ s.intents, Short (heldInRound crypto nodes s) nodes s.shares x.1

/-- What the entries hold when the coordinator has stored the answers. -/
def heldInRemoteRound (nodes : List Text) (decrypted : List (Option DecryptAnswer)) (s : Session) :
    (Text × Text) × NodeShareEntry → Option Plain :=
  if s.intents.length < 2 ∨ (decrypted.filterMap id).length < threshold nodes.length then
    fun e => e.2.decryptedShare
  else heldByAnswers (decrypted.filterMap id)

/-- The round of the coordinator returns before it forgets shares. -/
def ReturnsEarlyRemote (nodes : List Text) (decrypted : List (Option DecryptAnswer)) (s : Session) :
    Prop :=
  s.intents.length < 2 ∨ (decrypted.filterMap id).length < threshold nodes.length
    ∨ ∃ x ∈ s.intents, Short (heldInRemoteRound nodes decrypted s) nodes s.shares x.1

/-- A session that is matched, when the round goes on to return it. -/
theorem cleared_of_matchAll {P : Prop} (hP : (∃ x ∈ s.intents, Short held nodes s.shares x.1) ↔ P)
    (hafter : s'.shares = ((s.fill held).matchAll sort nodes).1.shares)
    (hthrew : (s.fill held).matchAll sort nodes ≠ (s.fill held, none)) :
  s'.Cleared ↔ ∀ e ∈ s.shares, (P ∨ e.1.1 ∉ nodes) → held e = none
  := by
  rw [Session.Cleared, hafter]
  obtain ⟨hshort, heq⟩ | heq | ⟨hshort, matchList, heq⟩ :=
    @matchAll_cases held sort nodes s
  · rw [heq]
    change (s.fill held).Cleared ↔ _
    simp only [cleared_fill_iff, hP.mp hshort, true_or, forall_const]
  · contradiction
  · rw [heq]
    change ((s.fill held).clearShares nodes).Cleared ↔ _
    rw [hP] at hshort
    simp only [cleared_clearShares_iff, hshort, false_or]

/-- When the round of the combined server returns, no entry holds a decrypted share exactly when
those that are not forgotten hold none: all of them if it returns early, and otherwise those of
nodes that are not listed. -/
theorem matchingRound_cleared (hm : (OrderedMap.keys s.shares).Nodup)
    (h : matchingRound crypto sort nodes batchId s = some s') :
  s'.Cleared ↔ ∀ e ∈ s.shares, (ReturnsEarly crypto nodes s ∨ e.1.1 ∉ nodes) →
    heldInRound crypto nodes s e = none
  := by
  rw [matchingRound] at h
  by_cases hlen : s.intents.length < 2
  · rw [if_pos hlen] at h
    obtain rfl := Option.some.inj h
    simp [ReturnsEarly, heldInRound, hlen, Session.Cleared]
  · rw [if_neg hlen] at h
    have hheld : heldInRound crypto nodes s = heldAfter crypto (reached crypto nodes s.shares) :=
      if_neg hlen
    have hdecrypt : Session.decryptAll crypto nodes (s.withStatus .matching)
        = ((s.withStatus .matching).fill (heldInRound crypto nodes s),
          (work nodes s.shares).all crypto.opens) := by
      rw [hheld]
      apply decryptAll_eq crypto nodes (s.withStatus .matching) hm
    rw [runMatchingRound, hdecrypt] at h
    dsimp only at h
    by_cases hall : (work nodes s.shares).all crypto.opens = true
    · rw [if_pos hall] at h
      have hP : (∃ x ∈ (s.withStatus .matching).intents, Short (heldInRound crypto nodes s) nodes
          (s.withStatus .matching).shares x.1) ↔ ReturnsEarly crypto nodes s := by
        constructor
        · intro hshort
          apply Or.inr (.inr hshort)
        · rintro (hl | ⟨e, he, hopen⟩ | hshort)
          · contradiction
          · rw [List.all_eq_true.mp hall e he] at hopen
            contradiction
          · apply hshort
      apply @cleared_of_matchAll _ sort nodes (s.withStatus .matching) _ _ hP
      · split at h
        · case h_1 heq =>
            split at h
            · cases h
            · obtain rfl := Option.some.inj h
              rw [heq]
        · case h_2 heq =>
            split at h
            · cases h
            · obtain rfl := Option.some.inj h
              rw [heq]
              rfl
      · intro heq
        rw [heq] at h
        simp [Session.fill, Session.withStatus] at h
    · rw [if_neg hall] at h
      have hearly : ReturnsEarly crypto nodes s := by
        right
        left
        obtain ⟨e, he, hopen⟩ := List.all_eq_false.mp (Bool.eq_false_iff.mpr hall)
        use e, he, Bool.eq_false_iff.mpr hopen
      split at h
      · cases h
      · obtain rfl := Option.some.inj h
        change ((s.withStatus .matching).fill (heldInRound crypto nodes s)).Cleared ↔ _
        simp only [cleared_fill_iff, hearly, true_or, forall_const]
        rfl

/-- When the round of the coordinator returns, no entry holds a decrypted share exactly when those
that are not forgotten hold none. -/
theorem runMatchingRoundRemote_cleared {decrypted : List (Option DecryptAnswer)}
    {signed : List (Option NodeSignature)} (hm : (OrderedMap.keys s.shares).Nodup)
    (h : runMatchingRoundRemote crypto sort nodes batchId decrypted signed s = some s') :
  s'.Cleared ↔ ∀ e ∈ s.shares, (ReturnsEarlyRemote nodes decrypted s ∨ e.1.1 ∉ nodes) →
    heldInRemoteRound nodes decrypted s e = none
  := by
  rw [runMatchingRoundRemote] at h
  by_cases hlen : s.intents.length < 2
  · rw [if_pos hlen] at h
    obtain rfl := Option.some.inj h
    simp [ReturnsEarlyRemote, heldInRemoteRound, hlen, Session.Cleared]
  · rw [if_neg hlen, afterDecrypt] at h
    by_cases hfew : (decrypted.filterMap id).length < threshold nodes.length
    · rw [if_pos hfew] at h
      dsimp only at h
      split at h
      · cases h
      · obtain rfl := Option.some.inj h
        have hearly : ReturnsEarlyRemote nodes decrypted s := .inr (.inl hfew)
        have hheld : heldInRemoteRound nodes decrypted s = fun e => e.2.decryptedShare :=
          if_pos (.inr hfew)
        simp only [hearly, hheld, true_or, forall_const]
        rfl
    · have hheld : heldInRemoteRound nodes decrypted s
          = heldByAnswers (decrypted.filterMap id) := by
        apply if_neg
        rintro (hl | hl)
        · contradiction
        · contradiction
      have hstore : (decrypted.filterMap id).foldl Session.storeAnswer (s.withStatus .matching)
          = (s.withStatus .matching).fill (heldInRemoteRound nodes decrypted s) := by
        rw [hheld]
        apply shares_storeAnswers _ (s.withStatus .matching) hm
      rw [if_neg hfew, hstore] at h
      have hP : (∃ x ∈ (s.withStatus .matching).intents,
          Short (heldInRemoteRound nodes decrypted s) nodes (s.withStatus .matching).shares x.1)
          ↔ ReturnsEarlyRemote nodes decrypted s := by
        constructor
        · intro hshort
          apply Or.inr (.inr hshort)
        · rintro (hl | hl | hshort)
          · contradiction
          · contradiction
          · apply hshort
      apply @cleared_of_matchAll _ sort nodes (s.withStatus .matching) _ _ hP
      · split at h
        · case h_1 heq =>
            split at h
            · cases h
            · obtain rfl := Option.some.inj h
              rw [heq]
        · case h_2 heq =>
            obtain rfl := Option.some.inj h
            rw [heq, afterSign]
            split
            · rfl
            · rfl
      · intro heq
        rw [heq] at h
        simp [Session.fill, Session.withStatus] at h

/-! ### When nothing is left -/

/-- The nodes of a list whose share of an intent decrypts to a value that counts as true. -/
def givers (crypto : Crypto) (nodes : List Text) (m : Shares) (intentId : Text) : List Text :=
  nodes.filter fun nodeId => ((OrderedMap.get m (nodeId, intentId)).bind fun entry =>
    (crypto.opened ((nodeId, intentId), entry)).join).any Plain.truthy

/-- All that a round needs: at least two intents, shares of the nodes that can all be decrypted, and
of each intent two of them that are values that count as true. -/
structure Completes (crypto : Crypto) (nodes : List Text) (s : Session) : Prop where
  intents : 2 ≤ s.intents.length
  opens : ∀ e ∈ s.shares, e.1.1 ∈ nodes → (crypto.opened e).isSome
  givers : ∀ x ∈ s.intents, 2 ≤ (givers crypto nodes s.shares x.1).length

/-- A node comes to decrypt the share of an entry: there are at least two intents, and the share is
one before the first that cannot be decrypted. -/
def Tried (crypto : Crypto) (nodes : List Text) (s : Session) (e : (Text × Text) × NodeShareEntry) :
    Prop :=
  2 ≤ s.intents.length ∧ e ∈ reached crypto nodes s.shares

/-- No entry, or if the round has all it needs no entry of a node that is not listed, has a share
that a node decrypts to a value other than null, or holds a value at the start that no node
replaces. -/
def LeavesNone (crypto : Crypto) (nodes : List Text) (s : Session) : Prop :=
  ∀ e ∈ s.shares, (Completes crypto nodes s → e.1.1 ∉ nodes) →
    (Tried crypto nodes s e → crypto.opened e = some none)
      ∧ (¬ Tried crypto nodes s e → e.2.decryptedShare = none)

/-- The share that the nodes have answered for an entry, the last one if there are more. -/
def answered (answers : List DecryptAnswer) (key : Text × Text) : Option (Option Plain) :=
  (((answers.flatMap fun a => a.shares.map fun x => ((a.nodeId, x.1), x.2)).filter
    fun x => x.1 = key).getLast?).map Prod.snd

/-- The nodes of a list whose share of an intent, as it was answered, or as it was held at the start
if none was, counts as true. -/
def answerers (nodes : List Text) (answers : List DecryptAnswer) (m : Shares) (intentId : Text) :
    List Text :=
  nodes.filter fun nodeId => ((OrderedMap.get m (nodeId, intentId)).bind fun entry =>
    (answered answers (nodeId, intentId)).getD entry.decryptedShare).any Plain.truthy

/-- Enough nodes have answered for at least two intents. -/
def AnswersStored (nodes : List Text) (answers : List DecryptAnswer) (s : Session) : Prop :=
  2 ≤ s.intents.length ∧ threshold nodes.length ≤ answers.length

/-- All that a round of the coordinator needs. -/
structure CompletesRemote (nodes : List Text) (answers : List DecryptAnswer) (s : Session) :
    Prop where
  stored : AnswersStored nodes answers s
  givers : ∀ x ∈ s.intents, 2 ≤ (answerers nodes answers s.shares x.1).length

/-- No entry, or if the round has all it needs no entry of a node that is not listed, has an
answered share other than null, or holds a value at the start that no answer replaces. -/
def LeavesNoneRemote (nodes : List Text) (answers : List DecryptAnswer) (s : Session) : Prop :=
  ∀ e ∈ s.shares, (CompletesRemote nodes answers s → e.1.1 ∉ nodes) →
    (AnswersStored nodes answers s → ∀ share, answered answers e.1 = some share → share = none)
      ∧ (¬ (AnswersStored nodes answers s ∧ (answered answers e.1).isSome) → e.2.decryptedShare = none)

/-- How many values of a partial function count as true. -/
theorem length_filter_filterMap (f : Text → Option Plain) (nodes : List Text) :
  ((nodes.filterMap f).filter Plain.truthy).length
    = (nodes.filter fun nodeId => (f nodeId).any Plain.truthy).length
  := by
  induction nodes with
  | nil => rfl
  | cons nodeId nodes ih =>
      cases hf : f nodeId with
      | none =>
          rw [List.filterMap_cons_none hf, List.filter_cons_of_neg (by simp [hf]), ih]
      | some v =>
          rw [List.filterMap_cons_some hf]
          by_cases hv : v.truthy = true
          · rw [List.filter_cons_of_pos hv, List.filter_cons_of_pos (by simp [hf, hv]),
              List.length_cons, List.length_cons, ih]
          · rw [List.filter_cons_of_neg hv, List.filter_cons_of_neg (by simp [hf, hv]), ih]

/-- An entry of a listed node is one that the nodes go through. -/
theorem mem_work_iff {m : Shares} {e : (Text × Text) × NodeShareEntry} :
  e ∈ work nodes m ↔ e ∈ m ∧ e.1.1 ∈ nodes
  := by
  rw [work, List.mem_flatMap]
  constructor
  · rintro ⟨nodeId, hnode, he⟩
    obtain ⟨he, hid⟩ := List.mem_filter.mp he
    rw [of_decide_eq_true hid]
    use he
  · rintro ⟨he, hnode⟩
    use e.1.1, hnode
    apply List.mem_filter.mpr ⟨he, decide_eq_true rfl⟩

/-- Two entries with the same key are the same. -/
theorem eq_of_key_eq {m : Shares} (hm : (OrderedMap.keys m).Nodup)
    {e e' : (Text × Text) × NodeShareEntry} (he : e ∈ m) (he' : e' ∈ m) (h : e.1 = e'.1) :
  e = e'
  := List.inj_on_of_nodup_map hm he he' h

/-- What an entry holds when certain entries have been decrypted, which all can be. -/
theorem heldAfter_eq_none_iff {m done : Shares} (hm : (OrderedMap.keys m).Nodup) (hdone : done ⊆ m)
    (hopens : ∀ e ∈ done, crypto.opens e = true) {e : (Text × Text) × NodeShareEntry}
    (he : e ∈ m) :
  heldAfter crypto done e = none
    ↔ (e ∈ done → crypto.opened e = some none) ∧ (e ∉ done → e.2.decryptedShare = none)
  := by
  have hany : (done.any fun x => x.1 = e.1) = true ↔ e ∈ done := by
    rw [List.any_eq_true]
    constructor
    · rintro ⟨x, hx, hkey⟩
      rw [← eq_of_key_eq hm (hdone hx) he (of_decide_eq_true hkey)]
      exact hx
    · intro he
      use e, he
      apply decide_eq_true rfl
  rw [heldAfter]
  by_cases hmem : e ∈ done
  · rw [if_pos (hany.mpr hmem)]
    have hopen := hopens e hmem
    rw [Crypto.opens, Option.isSome_iff_exists] at hopen
    obtain ⟨share, hshare⟩ := hopen
    simp [hmem, hshare]
  · rw [if_neg (fun h => hmem (hany.mp h))]
    simp [hmem]

theorem heldInRound_eq_none_iff (hm : (OrderedMap.keys s.shares).Nodup)
    {e : (Text × Text) × NodeShareEntry} (he : e ∈ s.shares) :
  heldInRound crypto nodes s e = none
    ↔ (Tried crypto nodes s e → crypto.opened e = some none)
      ∧ (¬ Tried crypto nodes s e → e.2.decryptedShare = none)
  := by
  rw [heldInRound]
  by_cases hlen : s.intents.length < 2
  · have htried : ¬ Tried crypto nodes s e := fun h => absurd h.1 (by omega)
    rw [if_pos hlen]
    simp [htried]
  · have htried : Tried crypto nodes s e ↔ e ∈ reached crypto nodes s.shares :=
      and_iff_right (by omega)
    rw [if_neg hlen, htried]
    apply heldAfter_eq_none_iff hm _ _ he
    · intro x hx
      exact (mem_work_iff.mp ((List.takeWhile_sublist _).subset hx)).1
    · intro x hx
      exact List.mem_takeWhile_imp hx

theorem returnsEarly_iff :
  ReturnsEarly crypto nodes s ↔ ¬ Completes crypto nodes s
  := by
  by_cases hlen : s.intents.length < 2
  · apply iff_of_true (.inl hlen)
    intro h
    have := h.intents
    omega
  by_cases hopens : ∃ e ∈ work nodes s.shares, crypto.opens e = false
  · apply iff_of_true (.inr (.inl hopens))
    intro h
    obtain ⟨e, he, hopen⟩ := hopens
    obtain ⟨he, hnode⟩ := mem_work_iff.mp he
    have := h.opens e he hnode
    rw [Crypto.opens, this] at hopen
    cases hopen
  -- all shares can be decrypted, and entries of the nodes hold what they decrypt to
  have hall : ∀ e ∈ work nodes s.shares, crypto.opens e = true := by
    intro e he
    by_contra hopen
    apply hopens ⟨e, he, Bool.eq_false_iff.mpr hopen⟩
  have hreached : reached crypto nodes s.shares = work nodes s.shares :=
    List.takeWhile_eq_self_iff.mpr hall
  have hshort : ∀ intentId, Short (heldInRound crypto nodes s) nodes s.shares intentId
      ↔ (givers crypto nodes s.shares intentId).length < 2 := by
    intro intentId
    rw [Short, length_filter_filterMap, givers]
    have hsame : ∀ nodeId ∈ nodes, (((OrderedMap.get s.shares (nodeId, intentId)).bind fun entry =>
          heldInRound crypto nodes s ((nodeId, intentId), entry)).any Plain.truthy)
        = (((OrderedMap.get s.shares (nodeId, intentId)).bind fun entry =>
          (crypto.opened ((nodeId, intentId), entry)).join).any Plain.truthy) := by
      intro nodeId hnode
      cases hget : OrderedMap.get s.shares (nodeId, intentId) with
      | none => rfl
      | some entry =>
          have hmem : ((nodeId, intentId), entry) ∈ work nodes s.shares :=
            mem_work_iff.mpr ⟨OrderedMap.mem_of_get hget, hnode⟩
          have hany : ((work nodes s.shares).any fun x => x.1 = (nodeId, intentId)) = true :=
            List.any_eq_true.mpr ⟨_, hmem, decide_eq_true rfl⟩
          rw [Option.bind_some, Option.bind_some, heldInRound, if_neg hlen, hreached, heldAfter,
            if_pos hany]
    rw [List.filter_congr hsame]
  constructor
  · rintro (h | h | ⟨x, hx, h⟩) hcompletes
    · contradiction
    · contradiction
    · have := hcompletes.givers x hx
      have := (hshort x.1).mp h
      omega
  · intro h
    right
    right
    by_contra hnone
    apply h
    constructor
    · omega
    · intro e he hnode
      exact hall e (mem_work_iff.mpr ⟨he, hnode⟩)
    · intro x hx
      by_contra hgivers
      apply hnone ⟨x, hx, (hshort x.1).mpr (by omega)⟩

/-- The last of the values that are stored under a key. -/
theorem foldl_eq_getD_getLast? (said : List ((Text × Text) × Option Plain)) (key : Text × Text)
    (share : Option Plain) :
  said.foldl (fun held x => if x.1 = key then x.2 else held) share
    = (((said.filter fun x => x.1 = key).getLast?).map Prod.snd).getD share
  := by
  induction said generalizing share with
  | nil => rfl
  | cons x said ih =>
      rw [List.foldl_cons, ih]
      by_cases hx : x.1 = key
      · rw [if_pos hx, List.filter_cons, if_pos (decide_eq_true hx), List.getLast?_cons]
        cases (said.filter fun x => x.1 = key).getLast? with
        | none => rfl
        | some _ => rfl
      · rw [if_neg hx, List.filter_cons_of_neg (by simpa using hx)]

theorem heldByAnswers_eq (answers : List DecryptAnswer) (e : (Text × Text) × NodeShareEntry) :
  heldByAnswers answers e = (answered answers e.1).getD e.2.decryptedShare
  := foldl_eq_getD_getLast? _ _ _

theorem heldInRemoteRound_eq {decrypted : List (Option DecryptAnswer)}
    (h : AnswersStored nodes (decrypted.filterMap id) s) (e : (Text × Text) × NodeShareEntry) :
  heldInRemoteRound nodes decrypted s e
    = (answered (decrypted.filterMap id) e.1).getD e.2.decryptedShare
  := by
  obtain ⟨hlen, hneed⟩ := h
  rw [heldInRemoteRound, if_neg (by omega), heldByAnswers_eq]

theorem heldInRemoteRound_eq_none_iff {decrypted : List (Option DecryptAnswer)}
    (e : (Text × Text) × NodeShareEntry) :
  heldInRemoteRound nodes decrypted s e = none
    ↔ (AnswersStored nodes (decrypted.filterMap id) s → ∀ share,
        answered (decrypted.filterMap id) e.1 = some share → share = none)
      ∧ (¬ (AnswersStored nodes (decrypted.filterMap id) s
          ∧ (answered (decrypted.filterMap id) e.1).isSome) → e.2.decryptedShare = none)
  := by
  by_cases hstored : AnswersStored nodes (decrypted.filterMap id) s
  · rw [heldInRemoteRound_eq hstored]
    generalize decrypted.filterMap id = answers at hstored
    cases answered answers e.1 with
    | none => simp [hstored]
    | some share => simp [hstored]
  · have hheld : heldInRemoteRound nodes decrypted s e = e.2.decryptedShare := by
      rw [heldInRemoteRound, if_pos]
      rw [AnswersStored] at hstored
      omega
    rw [hheld]
    generalize decrypted.filterMap id = answers at hstored
    simp [hstored]

theorem returnsEarlyRemote_iff {decrypted : List (Option DecryptAnswer)} :
  ReturnsEarlyRemote nodes decrypted s ↔ ¬ CompletesRemote nodes (decrypted.filterMap id) s
  := by
  by_cases hstored : AnswersStored nodes (decrypted.filterMap id) s
  · have hshort : ∀ intentId, Short (heldInRemoteRound nodes decrypted s) nodes s.shares intentId
        ↔ (answerers nodes (decrypted.filterMap id) s.shares intentId).length < 2 := by
      intro intentId
      rw [Short, length_filter_filterMap, answerers]
      simp only [heldInRemoteRound_eq hstored]
    constructor
    · rintro (h | h | ⟨x, hx, h⟩) hcompletes
      · have := hstored.1
        omega
      · have := hstored.2
        omega
      · have := hcompletes.givers x hx
        have := (hshort x.1).mp h
        omega
    · intro h
      right
      right
      by_contra hnone
      apply h
      use hstored
      intro x hx
      by_contra hgivers
      apply hnone ⟨x, hx, (hshort x.1).mpr (by omega)⟩
  · apply iff_of_true
    · rw [AnswersStored] at hstored
      by_cases hlen : s.intents.length < 2
      · exact .inl hlen
      · exact .inr (.inl (by omega))
    · intro h
      apply hstored h.stored

/-- When a round returns, in either server and whatever the nodes do, no entry of the session holds
a decrypted share if and only if every entry that the round does not clear (all of them, unless the
round has all that it needs, and then those of nodes that are not listed) has a share that decrypts
to null or is answered as null, or held none at the start if no node decrypts or answers it. -/
theorem round_cleared (crypto : Crypto) (sort : List Intent → List Intent) (nodes : List Text)
    (batchId : Text) (s s' : Session) (hm : (OrderedMap.keys s.shares).Nodup) :
  (matchingRound crypto sort nodes batchId s = some s' →
      (s'.Cleared ↔ LeavesNone crypto nodes s))
  ∧ ∀ (decrypted : List (Option DecryptAnswer)) (signed : List (Option NodeSignature)),
      runMatchingRoundRemote crypto sort nodes batchId decrypted signed s = some s' →
      (s'.Cleared ↔ LeavesNoneRemote nodes (decrypted.filterMap id) s)
  := by
  constructor
  · intro h
    rw [matchingRound_cleared hm h, LeavesNone]
    apply forall₂_congr
    intro e he
    rw [returnsEarly_iff, heldInRound_eq_none_iff hm he, ← imp_iff_not_or]
  · intro decrypted signed h
    rw [runMatchingRoundRemote_cleared hm h, LeavesNoneRemote]
    apply forall₂_congr
    intro e _
    rw [returnsEarlyRemote_iff, heldInRemoteRound_eq_none_iff, ← imp_iff_not_or]

/-- An encrypted share of a node. -/
def sampleShare (node : Char) : EncryptedShare := ⟨[node], [], [], []⟩

/-- Two intents, of which two nodes have shares. -/
def sampleSession : Session :=
  ⟨"s".toList, .opened,
    [("a".toList, ⟨"a".toList, "x".toList, "y".toList, []⟩),
      ("b".toList, ⟨"b".toList, "y".toList, "x".toList, []⟩)],
    [(("1".toList, "a".toList), ⟨sampleShare '1', none⟩),
      (("2".toList, "a".toList), ⟨sampleShare '2', none⟩)], none⟩

/-- Only the nodes with one name can decrypt their shares. -/
def onlyNode (node : Text) : Crypto where
  decryptShare nodeId _ := if nodeId = node then some (some (.share ⟨1, 2⟩)) else none
  signBatch nodeId _ _ := ⟨nodeId, [], []⟩
  batchHash _ _ := []

/-- Nothing is left when the first node cannot decrypt its share, or when no node answers. -/
theorem round_cleared_failed :
  (∃ s', matchingRound (onlyNode "2".toList) id ["1".toList, "2".toList] [] sampleSession = some s'
      ∧ s'.Cleared)
    ∧ ∃ s', runMatchingRoundRemote (onlyNode "2".toList) id ["1".toList, "2".toList] []
        [none, none] [] sampleSession = some s' ∧ s'.Cleared
  := by
  have hm : (OrderedMap.keys sampleSession.shares).Nodup := by decide
  have hstart : ∀ e ∈ sampleSession.shares, e.2.decryptedShare = none := by decide
  constructor
  · use (sampleSession.withStatus .matching).withStatus .failed, rfl
    apply ((round_cleared (onlyNode "2".toList) id ["1".toList, "2".toList] [] _ _ hm).1 rfl).mpr
    have hreached : reached (onlyNode "2".toList) ["1".toList, "2".toList] sampleSession.shares
        = [] := by decide
    intro e he _
    constructor
    · rintro ⟨-, htried⟩
      rw [hreached] at htried
      cases htried
    · intro _
      apply hstart e he
  · use (sampleSession.withStatus .matching).withStatus .failed, rfl
    apply ((round_cleared (onlyNode "2".toList) id ["1".toList, "2".toList] [] _ _ hm).2
      [none, none] [] rfl).mpr
    intro e he _
    constructor
    · rintro ⟨-, hneed⟩
      exact absurd hneed (by decide)
    · intro _
      apply hstart e he

/-- When the second node cannot decrypt its share, or when only one node answers with a share, the
share of the first one is left in the session. -/
theorem shares_left :
  (¬ ∀ (crypto : Crypto) (sort : List Intent → List Intent) (nodes : List Text) (batchId : Text)
      (s s' : Session), (OrderedMap.keys s.shares).Nodup →
      matchingRound crypto sort nodes batchId s = some s' → s'.Cleared)
  ∧ ¬ ∀ (crypto : Crypto) (sort : List Intent → List Intent) (nodes : List Text) (batchId : Text)
      (decrypted : List (Option DecryptAnswer)) (signed : List (Option NodeSignature))
      (s s' : Session), (OrderedMap.keys s.shares).Nodup →
      runMatchingRoundRemote crypto sort nodes batchId decrypted signed s = some s' → s'.Cleared
  := by
  have hm : (OrderedMap.keys sampleSession.shares).Nodup := by decide
  constructor
  · intro h
    have hc := h (onlyNode "1".toList) id ["1".toList, "2".toList] [] sampleSession _ hm rfl
    have hleft := hc (("1".toList, "a".toList), ⟨sampleShare '1', some (.share ⟨1, 2⟩)⟩) (.head _)
    contradiction
  · intro h
    have hc := h (onlyNode "1".toList) id ["1".toList, "2".toList] []
      [some ⟨"1".toList, [("a".toList, some (.share ⟨1, 2⟩))]⟩, some ⟨"2".toList, []⟩] []
      sampleSession _ hm rfl
    have hleft := hc (("1".toList, "a".toList), ⟨sampleShare '1', some (.share ⟨1, 2⟩)⟩) (.head _)
    contradiction

end Shade.Committee
