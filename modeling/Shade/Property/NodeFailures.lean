import Shade.Committee.Node
import Shade.Property.Rounds
import Shade.Property.Sharing

/-!
# Nodes that do not answer

A round takes the first two shares of each intent that it has, whichever nodes they come from. Any
two shares of an amount put it together again, so that the matches do not depend on which nodes
answer, nor on whether the nodes are asked over the network or run in the same process.
-/

namespace Shade.Committee

open Text

variable {nacl : Nacl} {crypto : Crypto} {nodes : List CommitteeNodeInfo}
  {sort : List Intent → List Intent} {s s' : Session}

/-! ### The shares of a client -/

/-- Each node is given the share at its position. -/
theorem encryptShares_spec {shares : List Share} {ephemerals : List Ephemeral}
    {encs : List EncryptedShare} (h : encryptShares nacl nodes shares ephemerals = some encs) :
  encs.map EncryptedShare.nodeId = nodes.map CommitteeNodeInfo.nodeId
    ∧ ∀ x ∈ nodes.zip shares, ∃ ephemeral,
      encryptShareForNode nacl x.2 x.1.encryptionPubkey x.1.nodeId ephemeral ∈ encs
  := by
  induction nodes generalizing shares ephemerals encs with
  | nil =>
      cases h
      use rfl
      intro x hx
      cases hx
  | cons node nodes ih =>
      cases shares with
      | nil => cases h
      | cons share shares =>
          cases ephemerals with
          | nil => cases h
          | cons ephemeral ephemerals =>
              rw [encryptShares, Option.map_eq_some_iff] at h
              obtain ⟨rest, hrest, rfl⟩ := h
              obtain ⟨hids, hshares⟩ := ih hrest
              constructor
              · rw [List.map_cons, List.map_cons, hids]
                rfl
              · intro x hx
                rcases List.mem_cons.mp hx with rfl | hx
                · use ephemeral
                  apply List.mem_cons_self
                · obtain ⟨e, he⟩ := hshares x hx
                  use e
                  apply List.mem_cons_of_mem _ he

/-- The shares of an amount: one point of a line for each node. -/
def lineShares (nodes : List CommitteeNodeInfo) (amount c : ℤ) : List Share :=
  sharesOf [amount, c] nodes.length

theorem length_lineShares (amount c : ℤ) :
  (lineShares nodes amount c).length = nodes.length
  := length_sharesOf _ _

theorem splitAndEncryptAmount_spec {amount : ℤ} (hamount : 0 ≤ amount ∧ amount < P)
    {draws : List Word} {ephemerals : List Ephemeral} {encs : List EncryptedShare}
    (h : splitAndEncryptAmount nacl amount nodes 2 draws ephemerals = some encs) :
  encs.map EncryptedShare.nodeId = nodes.map CommitteeNodeInfo.nodeId
    ∧ ∃ c, ∀ x ∈ nodes.zip (lineShares nodes amount c), ∃ ephemeral,
      encryptShareForNode nacl x.2 x.1.encryptionPubkey x.1.nodeId ephemeral ∈ encs
  := by
  obtain ⟨⟨shares, rest⟩, hshares, h⟩ := Option.bind_eq_some_iff.mp h
  obtain ⟨cs, hlength, rfl⟩ := Client.shamirSplit_some hshares
  obtain ⟨c, rfl⟩ := List.length_eq_one_iff.mp hlength
  obtain ⟨hids, hencs⟩ := encryptShares_spec h
  rw [modp_of_lt hamount] at hencs
  use hids, c, hencs

/-- Points of a line have different places. -/
theorem nodup_lineShares (amount c : ℤ) :
  ((lineShares nodes amount c).map Share.x).Nodup
  := nodup_sharesOf _ _

/-- Two points of the line of an amount put it together. -/
theorem reconstruct_lineShares {amount c : ℤ} (hamount : 0 ≤ amount ∧ amount < P)
    (hnodes : nodes.length < 2 ^ 32) {l : List Share}
    (hl : l.Sublist (lineShares nodes amount c)) (hlen : 2 ≤ l.length) :
  shamirReconstruct l = amount
  := by
  have htotal : nodes.length < P := by
    apply hnodes.trans
    rw [P]
    norm_num
  have hmem : ∀ x ∈ l, x ∈ sharesOf (amount :: [c]) nodes.length := fun x hx => hl.subset hx
  apply shamirReconstruct_sharesOf hamount htotal hmem
  · apply (nodup_lineShares amount c).sublist (hl.map Share.x)
  · rw [List.length_singleton]
    omega

/-! ### The shares of a session -/

theorem get_foldl_addShare_of_notMem {intentId : Text} {encs : List EncryptedShare}
    {key : Text × Text} (h : key.2 ≠ intentId ∨ key.1 ∉ encs.map EncryptedShare.nodeId) :
  OrderedMap.get (encs.foldl (fun s enc => s.addShare intentId enc) s).shares key
    = OrderedMap.get s.shares key
  := by
  induction encs generalizing s with
  | nil => rfl
  | cons enc encs ih =>
      rw [List.foldl_cons, ih]
      · rw [Session.addShare, OrderedMap.get_set, if_neg]
        rintro rfl
        rcases h with h | h
        · exact h rfl
        · exact h List.mem_cons_self
      · apply h.imp_right
        exact fun h hmem => h (List.mem_cons_of_mem _ hmem)

theorem get_foldl_addShare_of_mem {intentId : Text} {encs : List EncryptedShare}
    (hnodup : (encs.map EncryptedShare.nodeId).Nodup) {enc : EncryptedShare} (h : enc ∈ encs) :
  OrderedMap.get (encs.foldl (fun s enc => s.addShare intentId enc) s).shares
    (enc.nodeId, intentId) = some ⟨enc, none⟩
  := by
  induction encs generalizing s with
  | nil => cases h
  | cons enc' encs ih =>
      rw [List.map_cons, List.nodup_cons] at hnodup
      rw [List.foldl_cons]
      rcases List.mem_cons.mp h with rfl | h
      · rw [get_foldl_addShare_of_notMem (.inr hnodup.1), Session.addShare, OrderedMap.get_set,
          if_pos rfl]
      · apply ih hnodup.2 h

/-- A session holds the shares of its intents, none of them decrypted. -/
structure Session.Holds (submitted : List MpcIntent) (s : Session) : Prop where
  keys : (OrderedMap.keys s.intents).Nodup
  intents : ∀ x ∈ s.intents, x.2 ∈ submitted ∧ x.2.intentId = x.1
  shares : ∀ x ∈ s.intents, ∀ enc ∈ x.2.encryptedShares,
    OrderedMap.get s.shares (enc.nodeId, x.1) = some ⟨enc, none⟩

theorem Session.Holds.addIntent {submitted : List MpcIntent} (h : s.Holds submitted)
    {intent : MpcIntent} (hintent : intent ∈ submitted)
    (hnodup : (intent.encryptedShares.map EncryptedShare.nodeId).Nodup) :
  (s.addIntent intent).Holds submitted
  := by
  have hintents := (s.addIntent_same intent).intents_eq
  constructor
  · rw [hintents]
    apply OrderedMap.nodup_keys_set h.keys
  · intro x hx
    rw [hintents] at hx
    rcases OrderedMap.mem_set hx with rfl | hx
    · use hintent
    · apply h.intents x hx
  · intro x hx enc henc
    rw [hintents] at hx
    rcases OrderedMap.mem_set_of_nodup h.keys hx with rfl | ⟨hx, hne⟩
    · apply get_foldl_addShare_of_mem hnodup henc
    · rw [Session.addIntent, get_foldl_addShare_of_notMem (.inl hne)]
      apply h.shares x hx enc henc

/-- The session that intents are added to holds their shares. -/
theorem Session.holds_foldl {submitted : List MpcIntent}
    (hnodup : ∀ intent ∈ submitted,
      (intent.encryptedShares.map EncryptedShare.nodeId).Nodup) (sessionId : Text) :
  (submitted.foldl Session.addIntent (newSession sessionId)).Holds submitted
  := by
  have hfold : ∀ (l : List MpcIntent) (s : Session), (∀ intent ∈ l, intent ∈ submitted) →
      s.Holds submitted → (l.foldl Session.addIntent s).Holds submitted := by
    intro l
    induction l with
    | nil => exact fun s _ hs => hs
    | cons intent l ih =>
        intro s hl hs
        have hintent := hl intent List.mem_cons_self
        apply ih (s.addIntent intent) (fun i hi => hl i (List.mem_cons_of_mem _ hi))
        apply hs.addIntent hintent (hnodup intent hintent)
  apply hfold submitted (newSession sessionId) (fun _ h => h)
  constructor
  · apply List.nodup_nil
  · intro x hx
    cases hx
  · intro x hx
    cases hx

/-! ### Decryption -/

/-- Some nodes have decrypted their shares of some intents; the shares of the other nodes are as
before. -/
def Decrypts (decrypted : Text → Text → EncryptedShare → Option Plain) (nodeIds : List Text)
    (intentIds : List Text) (s s' : Session) : Prop :=
  ∀ (key : Text × Text) (entry : NodeShareEntry), key.2 ∈ intentIds →
    OrderedMap.get s.shares key = some entry →
    (key.1 ∈ nodeIds → OrderedMap.get s'.shares key
        = some { entry with decryptedShare := decrypted key.1 key.2 entry.encryptedShare })
      ∧ (key.1 ∉ nodeIds → OrderedMap.get s'.shares key = some entry)

variable {decrypted : Text → Text → EncryptedShare → Option Plain} {nodeId : Text}
  {nodeIds intentIds : List Text}

theorem Decrypts.nil :
  Decrypts decrypted [] intentIds s s
  := by
  intro key entry hkey hentry
  use fun h => nomatch h
  exact fun _ => hentry

theorem Decrypts.cons {s₁ : Session} (h : Decrypts decrypted [nodeId] intentIds s s₁)
    (h' : Decrypts decrypted nodeIds intentIds s₁ s') :
  Decrypts decrypted (nodeId :: nodeIds) intentIds s s'
  := by
  intro key entry hkey hentry
  obtain ⟨hin, hout⟩ := h key entry hkey hentry
  constructor
  · intro hmem
    by_cases hnode : key.1 = nodeId
    · have hfirst := hin (List.mem_singleton.mpr hnode)
      obtain ⟨hin', hout'⟩ := h' key _ hkey hfirst
      by_cases hrest : key.1 ∈ nodeIds
      · apply hin' hrest
      · apply hout' hrest
    · have hfirst := hout (fun hmem => hnode (List.mem_singleton.mp hmem))
      obtain ⟨hin', -⟩ := h' key entry hkey hfirst
      apply hin' ((List.mem_cons.mp hmem).resolve_left hnode)
  · intro hnot
    rw [List.mem_cons, not_or] at hnot
    have hfirst := hout (fun hmem => hnot.1 (List.mem_singleton.mp hmem))
    apply (h' key entry hkey hfirst).2 hnot.2

/-- A node of the combined server decrypts its shares. -/
theorem get_decryptEntries {m m' : OrderedMap (Text × Text) NodeShareEntry}
    (h : decryptEntries crypto nodeId m = (m', true)) (key : Text × Text) :
  OrderedMap.get m' key = (OrderedMap.get m key).map fun entry =>
    if key.1 = nodeId then
      { entry with decryptedShare :=
          (crypto.decryptShare nodeId { entry.encryptedShare with nodeId := nodeId }).getD none }
    else entry
  := by
  induction m generalizing m' with
  | nil =>
      cases h
      rfl
  | cons e m ih =>
      obtain ⟨key', entry⟩ := e
      rw [decryptEntries] at h
      cases hrest : decryptEntries crypto nodeId m with
      | mk rest done =>
          rw [hrest] at h
          split at h
          · case isTrue hnode =>
              split at h
              · cases h
              · case h_2 share hshare =>
                  cases h
                  rw [OrderedMap.get, OrderedMap.get]
                  split
                  · case isTrue heq =>
                      subst heq
                      rw [Option.map_some, if_pos hnode, hshare]
                      rfl
                  · apply ih hrest
          · case isFalse hnode =>
              cases h
              rw [OrderedMap.get, OrderedMap.get]
              split
              · case isTrue heq =>
                  subst heq
                  rw [Option.map_some, if_neg hnode]
              · apply ih hrest

/-- What the nodes of the combined server decrypt. -/
def decryptedByNode (crypto : Crypto) (nodeId _intentId : Text) (enc : EncryptedShare) :
    Option Plain :=
  (crypto.decryptShare nodeId { enc with nodeId := nodeId }).getD none

theorem decrypts_decryptAll (h : s.decryptAll crypto nodeIds = (s', true)) :
  Decrypts (decryptedByNode crypto) nodeIds intentIds s s'
  := by
  induction nodeIds generalizing s with
  | nil =>
      cases h
      apply Decrypts.nil
  | cons nodeId nodeIds ih =>
      rw [Session.decryptAll] at h
      cases hentries : decryptEntries crypto nodeId s.shares with
      | mk shares done =>
          rw [hentries] at h
          dsimp only at h
          split at h
          · case isTrue hdone =>
              rw [hdone] at hentries
              apply Decrypts.cons _ (ih h)
              intro key entry hkey hentry
              have hget := get_decryptEntries hentries key
              rw [hentry, Option.map_some] at hget
              constructor
              · intro hnode
                rw [List.mem_singleton] at hnode
                rw [if_pos hnode] at hget
                rw [hget, hnode]
                rfl
              · intro hnode
                rw [if_neg (fun heq => hnode (List.mem_singleton.mpr heq))] at hget
                apply hget
          · cases h

/-- What a node answers for an intent. -/
def answeredByNode (crypto : Crypto) (holdings : Text → OrderedMap Text EncryptedShare)
    (nodeId intentId : Text) (_enc : EncryptedShare) : Option Plain :=
  (OrderedMap.get (holdings nodeId) intentId).bind fun enc =>
    (crypto.decryptShare nodeId enc).getD none

theorem get_foldl_modify {f : Text → Option Plain} {ids : List Text} {key : Text × Text}
    {entry : NodeShareEntry} {m : OrderedMap (Text × Text) NodeShareEntry}
    (hentry : OrderedMap.get m key = some entry) :
  OrderedMap.get ((ids.map fun intentId => (intentId, f intentId)).foldl
      (fun shares x => OrderedMap.modify (fun entry => { entry with decryptedShare := x.2 }) shares
        (nodeId, x.1)) m) key
    = some (if nodeId = key.1 ∧ key.2 ∈ ids then { entry with decryptedShare := f key.2 }
      else entry)
  := by
  induction ids generalizing m entry with
  | nil =>
      rw [if_neg (fun h => nomatch h.2)]
      apply hentry
  | cons intentId ids ih =>
      rw [List.map_cons, List.foldl_cons]
      let g := fun entry : NodeShareEntry => { entry with decryptedShare := f intentId }
      have hget : OrderedMap.get (OrderedMap.modify g m (nodeId, intentId)) key
          = if (nodeId, intentId) = key then (OrderedMap.get m key).map g
            else OrderedMap.get m key := OrderedMap.get_modify
      rw [hentry, Option.map_some] at hget
      by_cases hkey : (nodeId, intentId) = key
      · rw [if_pos hkey] at hget
        subst hkey
        have hmem : nodeId = (nodeId, intentId).1 ∧ (nodeId, intentId).2 ∈ intentId :: ids :=
          ⟨rfl, List.mem_cons_self⟩
        rw [ih hget, if_pos hmem]
        split
        · rfl
        · rfl
      · rw [if_neg hkey] at hget
        rw [ih hget]
        by_cases hnode : nodeId = key.1
        · have hid : key.2 ≠ intentId := by
            rintro hid
            apply hkey
            rw [hnode, ← hid]
          simp only [hnode, true_and, List.mem_cons, hid, false_or]
        · rw [if_neg (fun h => hnode h.1), if_neg (fun h => hnode h.1)]

theorem decrypts_storeAnswer (holdings : Text → OrderedMap Text EncryptedShare) :
  Decrypts (answeredByNode crypto holdings) [nodeId] intentIds s
    (s.storeAnswer (decryptHandler crypto nodeId (holdings nodeId) intentIds))
  := by
  intro key entry hkey hentry
  have hget : OrderedMap.get (s.storeAnswer (decryptHandler crypto nodeId (holdings nodeId)
      intentIds)).shares key = some (if nodeId = key.1 ∧ key.2 ∈ intentIds then
        { entry with
          decryptedShare := answeredByNode crypto holdings nodeId key.2 entry.encryptedShare }
      else entry) := get_foldl_modify hentry
  rw [hget]
  constructor
  · intro hnode
    obtain rfl := List.mem_singleton.mp hnode
    rw [if_pos ⟨rfl, hkey⟩]
  · intro hnode
    rw [if_neg fun h => hnode (List.mem_singleton.mpr h.1.symm)]

theorem filterMap_askDecrypt (holdings : Text → OrderedMap Text EncryptedShare)
    (responds : Text → Bool) (nodeIds : List Text) :
  (askDecrypt crypto holdings responds nodeIds intentIds).filterMap id
    = (nodeIds.filter responds).map fun nodeId =>
      decryptHandler crypto nodeId (holdings nodeId) intentIds
  := by
  induction nodeIds with
  | nil => rfl
  | cons nodeId nodeIds ih =>
      rw [askDecrypt, List.map_cons]
      rw [askDecrypt] at ih
      by_cases h : responds nodeId = true
      · rw [if_pos h, List.filter_cons_of_pos h, List.map_cons, ← ih]
        rfl
      · rw [if_neg h, List.filter_cons_of_neg h, ← ih]
        rfl

theorem decrypts_storeAnswers (holdings : Text → OrderedMap Text EncryptedShare)
    (nodeIds : List Text) :
  Decrypts (answeredByNode crypto holdings) nodeIds intentIds s
    ((nodeIds.map fun nodeId => decryptHandler crypto nodeId (holdings nodeId) intentIds).foldl
      Session.storeAnswer s)
  := by
  induction nodeIds generalizing s with
  | nil => apply Decrypts.nil
  | cons nodeId nodeIds ih =>
      rw [List.map_cons, List.foldl_cons]
      apply Decrypts.cons (decrypts_storeAnswer holdings) ih

/-! ### Amounts -/

/-- The intents of a session with their amounts. -/
def Session.trueIntents (amount : MpcIntent → ℤ) (s : Session) : List Intent :=
  s.intents.map fun x => ⟨x.1, amount x.2, x.2.inputAsset, x.2.outputAsset⟩

/-- The identifiers of nodes to which shares are given. -/
theorem map_nodeId_zip {shares : List Share} (hlength : nodes.length ≤ shares.length) :
  ((nodes.zip shares).map fun x => x.1.nodeId) = nodes.map CommitteeNodeInfo.nodeId
  := by
  have hfirst := List.map_fst_zip hlength
  rw [← congrArg (List.map CommitteeNodeInfo.nodeId) hfirst, List.map_map]
  rfl

/-- The shares that are there for an intent are those of the nodes that have decrypted theirs. -/
theorem availableShares_eq {intentId : Text} {shares : List Share}
    (hlength : nodes.length ≤ shares.length) (responds : Text → Bool)
    (h : ∀ x ∈ nodes.zip shares, s.decryptedShare intentId x.1.nodeId
      = if responds x.1.nodeId then some (.share x.2) else none) :
  s.availableShares (nodes.map CommitteeNodeInfo.nodeId) intentId
    = ((((nodes.zip shares).filter fun x => responds x.1.nodeId).map Prod.snd).take 2).map .share
  := by
  have hfilter : ∀ l : List (CommitteeNodeInfo × Share), (∀ x ∈ l, x ∈ nodes.zip shares) →
      (l.map fun x => x.1.nodeId).filterMap (s.decryptedShare intentId)
        = ((l.filter fun x => responds x.1.nodeId).map Prod.snd).map .share := by
    intro l hl
    induction l with
    | nil => rfl
    | cons x l ih =>
        have hx := h x (hl x List.mem_cons_self)
        have ih := ih fun y hy => hl y (List.mem_cons_of_mem x hy)
        rw [List.map_cons]
        by_cases hresponds : responds x.1.nodeId = true
        · rw [if_pos hresponds] at hx
          rw [List.filterMap_cons_some hx, List.filter_cons, if_pos hresponds, ih]
          rfl
        · rw [if_neg hresponds] at hx
          rw [List.filterMap_cons_none hx, List.filter_cons, if_neg hresponds, ih]
  have htruthy : ∀ l : List Share, (l.map Plain.share).filter Plain.truthy = l.map .share := by
    intro l
    rw [List.filter_eq_self]
    intro a ha
    obtain ⟨share, -, rfl⟩ := List.mem_map.mp ha
    rfl
  rw [Session.availableShares, ← map_nodeId_zip hlength, hfilter _ fun _ h => h, htruthy,
    List.map_take]

theorem reconstructAmount_map_share (shares : List Share) :
  reconstructAmount (shares.map .share) = some (shamirReconstruct shares)
  := by
  have hmap : (shares.map .share).mapM decodeShare = some shares := by
    induction shares with
    | nil => rfl
    | cons share shares ih =>
        rw [List.map_cons, List.mapM_cons, ih]
        rfl
  rw [reconstructAmount, hmap]
  rfl

/-- Two shares of an amount, whichever they are, put it together. -/
theorem reconstruct_available {amount c : ℤ} (hamount : 0 ≤ amount ∧ amount < P)
    (hnodes : nodes.length < 2 ^ 32) {responds : Text → Bool}
    (htwo : 2 ≤ ((nodes.map CommitteeNodeInfo.nodeId).filter responds).length)
    {intentId : Text} (h : ∀ x ∈ nodes.zip (lineShares nodes amount c),
      s.decryptedShare intentId x.1.nodeId
        = if responds x.1.nodeId then some (.share x.2) else none) :
  2 ≤ (s.availableShares (nodes.map CommitteeNodeInfo.nodeId) intentId).length
    ∧ reconstructAmount (s.availableShares (nodes.map CommitteeNodeInfo.nodeId) intentId)
      = some amount
  := by
  have hlength : (lineShares nodes amount c).length = nodes.length := length_lineShares amount c
  rw [availableShares_eq hlength.ge responds h]
  have hsecond : ((nodes.zip (lineShares nodes amount c)).map Prod.snd)
      = lineShares nodes amount c := List.map_snd_zip hlength.le
  have hsub := ((List.filter_sublist (p := fun x : CommitteeNodeInfo × Share =>
    responds x.1.nodeId) (l := nodes.zip (lineShares nodes amount c))).map Prod.snd)
  rw [hsecond] at hsub
  have hlen : 2 ≤ ((((nodes.zip (lineShares nodes amount c)).filter
      fun x => responds x.1.nodeId).map Prod.snd).take 2).length := by
    rw [← map_nodeId_zip hlength.ge, List.filter_map, List.length_map] at htwo
    rw [List.length_take, List.length_map]
    apply le_min (le_refl 2) htwo
  constructor
  · rw [List.length_map]
    apply hlen
  · rw [reconstructAmount_map_share]
    congr 1
    apply reconstruct_lineShares hamount hnodes ((List.take_sublist 2 _).trans hsub) hlen

/-- The amounts of intents are put together from the shares of the nodes that have decrypted
theirs, if these are at least two. -/
theorem reconstructAll_eq {amount : MpcIntent → ℤ} {responds : Text → Bool}
    (hnodes : nodes.length < 2 ^ 32)
    (htwo : 2 ≤ ((nodes.map CommitteeNodeInfo.nodeId).filter responds).length)
    {l : List (Text × MpcIntent)}
    (h : ∀ x ∈ l, (0 ≤ amount x.2 ∧ amount x.2 < P) ∧ ∃ c,
      ∀ y ∈ nodes.zip (lineShares nodes (amount x.2) c), s.decryptedShare x.1 y.1.nodeId
        = if responds y.1.nodeId then some (.share y.2) else none) :
  s.reconstructAll (nodes.map CommitteeNodeInfo.nodeId) l
    = .ok (l.map fun x => ⟨x.1, amount x.2, x.2.inputAsset, x.2.outputAsset⟩)
  := by
  induction l with
  | nil => rfl
  | cons x l ih =>
      obtain ⟨intentId, intent⟩ := x
      obtain ⟨hamount, c, hshares⟩ := h _ List.mem_cons_self
      obtain ⟨hlen, hreconstruct⟩ := reconstruct_available hamount hnodes htwo hshares
      rw [Session.reconstructAll, if_neg (not_lt.mpr hlen), hreconstruct,
        ih fun y hy => h y (List.mem_cons_of_mem _ hy)]
      rfl

/-! ### Rounds -/

/-- The shares of an intent are those into which a client has split its amount. -/
structure SplitBy (nacl : Nacl) (nodes : List CommitteeNodeInfo) (amount : MpcIntent → ℤ)
    (intent : MpcIntent) : Prop where
  amount_lt : 0 ≤ amount intent ∧ amount intent < P
  shares : ∃ draws ephemerals,
    splitAndEncryptAmount nacl (amount intent) nodes 2 draws ephemerals
      = some intent.encryptedShares

/-- Each node can read what is encrypted for it. -/
def Opens (nacl : Nacl) (crypto : Crypto) (nodes : List CommitteeNodeInfo) : Prop :=
  ∀ node ∈ nodes, ∀ share ephemeral, crypto.decryptShare node.nodeId
      (encryptShareForNode nacl share node.encryptionPubkey node.nodeId ephemeral)
    = some (some (.share share))

/-- Each node has the shares of the intents that are encrypted for it. -/
def Delivered (holdings : Text → OrderedMap Text EncryptedShare) (s : Session) : Prop :=
  ∀ x ∈ s.intents, ∀ enc ∈ x.2.encryptedShares,
    OrderedMap.get (holdings enc.nodeId) x.1 = some enc

variable {amount : MpcIntent → ℤ} {submitted : List MpcIntent}

/-- The intents are put together from what some nodes have decrypted. -/
theorem reconstructAll_trueIntents (hnodes : nodes.length < 2 ^ 32) (hs : s.Holds submitted)
    (hsplit : ∀ intent ∈ submitted, SplitBy nacl nodes amount intent) {responds : Text → Bool}
    (htwo : 2 ≤ ((nodes.map CommitteeNodeInfo.nodeId).filter responds).length)
    (hdecrypts : Decrypts decrypted ((nodes.map CommitteeNodeInfo.nodeId).filter responds)
      (OrderedMap.keys s.intents) s s')
    (hreads : ∀ x ∈ s.intents, ∀ node ∈ nodes, ∀ share ephemeral,
      encryptShareForNode nacl share node.encryptionPubkey node.nodeId ephemeral
        ∈ x.2.encryptedShares →
      decrypted node.nodeId x.1
        (encryptShareForNode nacl share node.encryptionPubkey node.nodeId ephemeral)
      = some (.share share)) :
  s'.reconstructAll (nodes.map CommitteeNodeInfo.nodeId) s.intents = .ok (s.trueIntents amount)
  := by
  apply reconstructAll_eq hnodes htwo
  intro x hx
  obtain ⟨hamount, draws, ephemerals, hshares⟩ := hsplit x.2 (hs.intents x hx).1
  obtain ⟨-, c, hencs⟩ := splitAndEncryptAmount_spec hamount hshares
  use hamount, c
  intro y hy
  obtain ⟨ephemeral, hmem⟩ := hencs y hy
  have hnode : y.1 ∈ nodes := (List.of_mem_zip hy).1
  have hkey : x.1 ∈ OrderedMap.keys s.intents := List.mem_map_of_mem hx
  obtain ⟨hin, hout⟩ := hdecrypts (y.1.nodeId, x.1) _ hkey (hs.shares x hx _ hmem)
  rw [Session.decryptedShare]
  split
  · case isTrue hresponds =>
      rw [hin (List.mem_filter.mpr ⟨List.mem_map_of_mem hnode, hresponds⟩), Option.bind_some]
      apply hreads x hx y.1 hnode y.2 ephemeral hmem
  · case isFalse hresponds =>
      rw [hout (fun hmem => hresponds (List.mem_filter.mp hmem).2), Option.bind_some]

/-- The matches that are found when the intents are put together. -/
theorem matchAll_of_reconstructAll {nodeIds : List Text} {is : List Intent}
    (h : s.reconstructAll nodeIds s.intents = .ok is) :
  s.matchAll sort nodeIds = (s.clearShares nodeIds, some (matchIntents sort is))
  := by
  rw [Session.matchAll, h]

theorem two_le_threshold {n : ℕ} (h : 2 ≤ n) :
  2 ≤ threshold n
  := by
  rw [threshold]
  omega

theorem two_le_length_map (htwo : 2 ≤ nodes.length) :
  2 ≤ (nodes.map CommitteeNodeInfo.nodeId).length
  := by
  rw [List.length_map]
  apply htwo

/-- A round over the network has too few answers, or finds the matches of the amounts that clients
have split. -/
theorem afterDecrypt_askDecrypt (htwo : 2 ≤ nodes.length) (hlength : nodes.length < 2 ^ 32)
    (hs : s.Holds submitted) (hsplit : ∀ intent ∈ submitted, SplitBy nacl nodes amount intent)
    (hopens : Opens nacl crypto nodes) {holdings : Text → OrderedMap Text EncryptedShare}
    (hdelivered : Delivered holdings s) (responds : Text → Bool) :
  (afterDecrypt sort (nodes.map CommitteeNodeInfo.nodeId)
      (askDecrypt crypto holdings responds (nodes.map CommitteeNodeInfo.nodeId)
        (OrderedMap.keys s.intents))
      (s.withStatus .matching)).2
    = if ((nodes.map CommitteeNodeInfo.nodeId).filter responds).length
        < threshold (nodes.map CommitteeNodeInfo.nodeId).length then none
      else some (matchIntents sort (s.trueIntents amount))
  := by
  rw [afterDecrypt, filterMap_askDecrypt, List.length_map]
  split
  · rfl
  · case isFalse henough =>
      have hlen : 2 ≤ ((nodes.map CommitteeNodeInfo.nodeId).filter responds).length :=
        (two_le_threshold (two_le_length_map htwo)).trans (not_lt.mp henough)
      let answers := ((nodes.map CommitteeNodeInfo.nodeId).filter responds).map fun nodeId =>
        decryptHandler crypto nodeId (holdings nodeId) (OrderedMap.keys s.intents)
      have hsame := Session.foldl_storeAnswer answers (s.withStatus .matching)
      have hdecrypts : Decrypts (answeredByNode crypto holdings)
          ((nodes.map CommitteeNodeInfo.nodeId).filter responds) (OrderedMap.keys s.intents)
          (s.withStatus .matching)
          (answers.foldl Session.storeAnswer (s.withStatus .matching)) :=
        decrypts_storeAnswers holdings _
      have hall := reconstructAll_trueIntents hlength hs hsplit hlen hdecrypts
        (by
          intro x hx node hnode share ephemeral hmem
          have hheld : OrderedMap.get (holdings node.nodeId) x.1 = some _ :=
            hdelivered x hx _ hmem
          rw [answeredByNode, hheld, Option.bind_some, hopens node hnode share ephemeral]
          rfl)
      have hintents : (answers.foldl Session.storeAnswer (s.withStatus .matching)).intents
          = s.intents := hsame.intents_eq
      rw [← hintents] at hall
      rw [matchAll_of_reconstructAll hall]

/-- A round of the combined server finds the matches of the amounts that clients have split. -/
theorem matchList_runMatchingRound (htwo : 2 ≤ nodes.length) (hlength : nodes.length < 2 ^ 32)
    (hs : s.Holds submitted) (hsplit : ∀ intent ∈ submitted, SplitBy nacl nodes amount intent)
    (hopens : Opens nacl crypto nodes) {batchId : Text} {batch : SignedMatchBatch}
    (h : (runMatchingRound crypto sort (nodes.map CommitteeNodeInfo.nodeId) batchId s).2
      = some batch) :
  batch.matchList = matchIntents sort (s.trueIntents amount)
  := by
  rw [runMatchingRound] at h
  cases hdecrypt : (s.withStatus .matching).decryptAll crypto
      (nodes.map CommitteeNodeInfo.nodeId) with
  | mk decrypted done =>
      rw [hdecrypt] at h
      dsimp only at h
      split at h
      · case isTrue hdone =>
          rw [hdone] at hdecrypt
          have hsame := (s.withStatus .matching).decryptAll_same crypto
            (nodes.map CommitteeNodeInfo.nodeId)
          rw [hdecrypt] at hsame
          have hfilter : (nodes.map CommitteeNodeInfo.nodeId).filter (fun _ => true)
              = nodes.map CommitteeNodeInfo.nodeId := List.filter_true _
          have hlen : 2 ≤ ((nodes.map CommitteeNodeInfo.nodeId).filter fun _ => true).length := by
            rw [hfilter]
            apply two_le_length_map htwo
          have hdecrypts : Decrypts (decryptedByNode crypto)
              ((nodes.map CommitteeNodeInfo.nodeId).filter fun _ => true)
              (OrderedMap.keys s.intents) s decrypted := by
            rw [hfilter]
            apply decrypts_decryptAll hdecrypt
          have hall := reconstructAll_trueIntents hlength hs hsplit hlen hdecrypts
            (by
              intro x hx node hnode share ephemeral hmem
              apply congrArg (fun p => p.getD none) (hopens node hnode share ephemeral))
          have hintents : decrypted.intents = s.intents := hsame.intents_eq
          rw [← hintents] at hall
          rw [matchAll_of_reconstructAll hall] at h
          cases h
          rfl
      · cases h

/-- The matches do not depend on which nodes answer: a round over the network either has too few
answers, or finds the matches of the amounts that clients have split; and so does a round of the
combined server. -/
theorem node_failures_harmless (sort : List Intent → List Intent) (htwo : 2 ≤ nodes.length)
    (hlength : nodes.length < 2 ^ 32) (hids : (nodes.map CommitteeNodeInfo.nodeId).Nodup)
    (hsplit : ∀ intent ∈ submitted, SplitBy nacl nodes amount intent)
    (hopens : Opens nacl crypto nodes) (sessionId : Text) :
  let s := submitted.foldl Session.addIntent (newSession sessionId)
  let nodeIds := nodes.map CommitteeNodeInfo.nodeId
  (∀ holdings responds, Delivered holdings s →
      (afterDecrypt sort nodeIds
          (askDecrypt crypto holdings responds nodeIds (OrderedMap.keys s.intents))
          (s.withStatus .matching)).2
        = if (nodeIds.filter responds).length < threshold nodeIds.length then none
          else some (matchIntents sort (s.trueIntents amount)))
    ∧ ∀ batchId batch, (runMatchingRound crypto sort nodeIds batchId s).2 = some batch →
      batch.matchList = matchIntents sort (s.trueIntents amount)
  := by
  intro s nodeIds
  have hnodup : ∀ intent ∈ submitted,
      (intent.encryptedShares.map EncryptedShare.nodeId).Nodup := by
    intro intent hintent
    obtain ⟨hamount, draws, ephemerals, hshares⟩ := hsplit intent hintent
    rw [(splitAndEncryptAmount_spec hamount hshares).1]
    apply hids
  have hs : s.Holds submitted := Session.holds_foldl hnodup sessionId
  constructor
  · intro holdings responds hdelivered
    apply afterDecrypt_askDecrypt htwo hlength hs hsplit hopens hdelivered
  · intro batchId batch h
    apply matchList_runMatchingRound htwo hlength hs hsplit hopens h

/-- Three nodes. -/
def threeNodes : List CommitteeNodeInfo := ['1', '2', '3'].map fun node => ⟨[node], [node]⟩

/-- Boxes that anyone can read. -/
def openBox : Nacl where
  publicKey := id
  box := fun share _ _ _ => decimal (Encodable.encode (share.x, share.y))

/-- Nodes that read boxes that anyone can read. -/
def openCrypto : Crypto where
  decryptShare := fun _ enc => some <| (toInt? enc.ciphertext).bind fun n =>
    (Encodable.decode n.toNat : Option (ℤ × ℤ)).map fun (x, y) => .share ⟨x, y⟩
  signBatch := fun nodeId _ _ => ⟨nodeId, [], []⟩
  batchHash := fun _ _ => []

theorem openCrypto_opens (nodes : List CommitteeNodeInfo) :
  Opens openBox openCrypto nodes
  := by
  intro node hnode share ephemeral
  change some ((toInt? (decimal _)).bind _) = _
  rw [toInt?_decimal, Option.bind_some, Int.toNat_natCast, Encodable.encodek]
  rfl

/-- An intent with the amount seven, which is split between three nodes. -/
def splitIntent (intentId inputAsset outputAsset : Char) : MpcIntent where
  intentId := [intentId]
  inputAsset := [inputAsset]
  outputAsset := [outputAsset]
  encryptedShares := ((splitAndEncryptAmount openBox 7 threeNodes 2 [5]
    [⟨[], []⟩, ⟨[], []⟩, ⟨[], []⟩]).getD [])

/-- What a node holds of two intents. -/
def splitHoldings (nodeId : Text) : OrderedMap Text EncryptedShare :=
  [splitIntent 'a' 'X' 'Y', splitIntent 'b' 'Y' 'X'].flatMap fun intent =>
    (intent.encryptedShares.filter fun enc => enc.nodeId = nodeId).map fun enc =>
      (intent.intentId, enc)

theorem splitIntent_splitBy (intentId inputAsset outputAsset : Char) :
  SplitBy openBox threeNodes (fun _ => 7) (splitIntent intentId inputAsset outputAsset)
  where
  amount_lt := by decide
  shares := ⟨[5], [⟨[], []⟩, ⟨[], []⟩, ⟨[], []⟩], rfl⟩

/-- The first of three nodes does not answer. -/
theorem node_failures_harmless_first_of_three :
  (afterDecrypt sortByAmount [['1'], ['2'], ['3']]
      (askDecrypt openCrypto splitHoldings (fun nodeId => nodeId ≠ ['1']) [['1'], ['2'], ['3']]
        [['a'], ['b']])
      (([splitIntent 'a' 'X' 'Y', splitIntent 'b' 'Y' 'X'].foldl Session.addIntent
        (newSession ['s'])).withStatus .matching)).2
    = some (matchIntents sortByAmount [⟨['a'], 7, ['X'], ['Y']⟩, ⟨['b'], 7, ['Y'], ['X']⟩])
  := by
  have hsplit : ∀ intent ∈ [splitIntent 'a' 'X' 'Y', splitIntent 'b' 'Y' 'X'],
      SplitBy openBox threeNodes (fun _ => 7) intent := by
    intro intent hintent
    rcases List.mem_pair.mp hintent with rfl | rfl
    · apply splitIntent_splitBy
    · apply splitIntent_splitBy
  have hdelivered : Delivered splitHoldings ([splitIntent 'a' 'X' 'Y',
      splitIntent 'b' 'Y' 'X'].foldl Session.addIntent (newSession ['s'])) := by
    intro x hx enc henc
    have hintents : x = (['a'], splitIntent 'a' 'X' 'Y') ∨ x = (['b'], splitIntent 'b' 'Y' 'X') :=
      List.mem_pair.mp hx
    rcases hintents with rfl | rfl
    · rcases List.mem_cons.mp henc with rfl | henc
      · rfl
      · rcases List.mem_pair.mp henc with rfl | rfl
        · rfl
        · rfl
    · rcases List.mem_cons.mp henc with rfl | henc
      · rfl
      · rcases List.mem_pair.mp henc with rfl | rfl
        · rfl
        · rfl
  have hround := (node_failures_harmless sortByAmount (by decide) (by decide) (by decide) hsplit
    (openCrypto_opens threeNodes) ['s']).1 splitHoldings (fun nodeId => nodeId ≠ ['1']) hdelivered
  apply hround.trans
  rw [if_neg (by decide)]
  rfl

end Shade.Committee
