import Shade.Committee.Signing
import Shade.Library.Digits
import Shade.Library.JsonText
import Shade.Library.TextOrder
import Shade.Pool.Deployment
import Shade.Property.SwapTerms

/-!
# Batches that are signed

The hash of a batch depends on what the committee agreed on and not on how it was listed. Who
checks canonical signatures off the chain and the pool come to the same answer, and a batch which
enough members of the committee have signed passes the threshold of the pool.
-/

namespace Shade.Committee

open Text Endian Solver

/-! ### The text of a batch -/

/-- The value that is printed for a row. -/
def rowJson (row : List (Text × Text)) : Json :=
  .object (row.map fun f => (f.1, .string f.2))

/-- The value that is printed for a batch. -/
def batchJson (batchId : Text) (rows : List (List (Text × Text))) : Json :=
  .object [("batchId".toList, .string batchId), ("matches".toList, .array (rows.map rowJson))]

theorem rowJson_injective :
  Function.Injective rowJson
  := by
  intro row row' h
  have hfields := Json.object.inj h
  apply List.map_injective_iff.mpr _ hfields
  intro f g hfg
  obtain ⟨hname, hvalue⟩ := Prod.mk.inj hfg
  exact Prod.ext hname (Json.string.inj hvalue)

/-- The text of a batch is its value, printed. -/
theorem canonical_eq (batchId : Text) (matchList : List MatchResult) :
  canonical batchId matchList
    = Json.stringify Json.printFraction (batchJson batchId (sortedRows matchList))
  := by
  have hrow : ∀ row : List (Text × Text),
      Json.stringify Json.printFraction (rowJson row) = object (row.map fun f => (f.1, quote f.2))
      := by
    intro row
    rw [rowJson, Json.stringify, Json.stringifyFields_eq, List.map_map]
    rfl
  have hitems : ((sortedRows matchList).map rowJson).map (Json.stringify Json.printFraction)
      = (sortedRows matchList).map fun row => object (row.map fun f => (f.1, quote f.2)) := by
    rw [List.map_map]
    apply List.map_congr_left
    intro row _
    apply hrow
  rw [batchJson, Json.stringify, Json.stringifyFields_eq, List.map_cons, List.map_cons, List.map_nil,
    Json.stringify, Json.stringify, Json.stringifyItems_eq, hitems]
  rfl

theorem perm_sortedRows (matchList : List MatchResult) :
  (sortedRows matchList).Perm (matchList.map MatchResult.row)
  := List.perm_insertionSort ..

/-- Rows with the same key are equal. -/
def Separated (rows : List (List (Text × Text))) : Prop :=
  ∀ x ∈ rows, ∀ y ∈ rows, key x = key y → x = y

/-- The text of a batch determines its identifier and its rows up to their order. -/
theorem perm_of_canonical_eq {batchId batchId' : Text} {matchList matchList' : List MatchResult}
    (h : canonical batchId matchList = canonical batchId' matchList') :
  batchId = batchId' ∧ (matchList.map MatchResult.row).Perm (matchList'.map MatchResult.row)
  := by
  rw [canonical_eq, canonical_eq] at h
  have hjson := Json.object.inj (Json.stringify_injective Json.numerals_printFraction h)
  obtain ⟨hid, hrest⟩ := List.cons.inj hjson
  obtain ⟨hitems, -⟩ := List.cons.inj hrest
  have hrows : sortedRows matchList = sortedRows matchList' :=
    List.map_injective_iff.mpr rowJson_injective (Json.array.inj (Prod.mk.inj hitems).2)
  use Json.string.inj (Prod.mk.inj hid).2
  apply (perm_sortedRows matchList).symm.trans
  rw [hrows]
  apply perm_sortedRows

/-- The texts of batches are equal for rows in any order, if their keys separate these. -/
theorem canonical_eq_iff {batchId batchId' : Text} {matchList matchList' : List MatchResult}
    (hkey : Separated (matchList.map MatchResult.row)) :
  canonical batchId matchList = canonical batchId' matchList'
    ↔ batchId = batchId'
      ∧ (matchList.map MatchResult.row).Perm (matchList'.map MatchResult.row)
  := by
  constructor
  · exact perm_of_canonical_eq
  · rintro ⟨rfl, hperm⟩
    have hrows : sortedRows matchList = sortedRows matchList' :=
      insertionSort_eq_of_perm key hperm hkey
    rw [canonical, canonical, hrows]

/-! ### The key of a row -/

/-- A character that does not occur before it ends a text. -/
theorem append_cons_inj {c : Char} {s t x y : Text} (hs : c ∉ s) (ht : c ∉ t)
    (h : s ++ c :: x = t ++ c :: y) :
  s = t ∧ x = y
  := by
  induction s generalizing t with
  | nil =>
      cases t with
      | nil => exact ⟨rfl, (List.cons.inj h).2⟩
      | cons d t =>
          obtain ⟨rfl, -⟩ := List.cons.inj h
          exact absurd List.mem_cons_self ht
  | cons a s ih =>
      cases t with
      | nil =>
          obtain ⟨rfl, -⟩ := List.cons.inj h
          exact absurd List.mem_cons_self hs
      | cons d t =>
          obtain ⟨rfl, hrest⟩ := List.cons.inj h
          obtain ⟨rfl, hxy⟩ := ih (fun hmem => hs (List.mem_cons_of_mem a hmem))
            (fun hmem => ht (List.mem_cons_of_mem a hmem)) hrest
          use rfl, hxy

/-- Texts without a character can be told from their list with that character between them. -/
theorem intercalate_inj {c : Char} :
  ∀ {ts us : List Text}, ts.length = us.length → (∀ t ∈ ts, c ∉ t) → (∀ u ∈ us, c ∉ u) →
    List.intercalate [c] ts = List.intercalate [c] us → ts = us
  | [], [], _, _, _, _ => rfl
  | [t], [u], _, _, _, h => by
      simpa [List.intercalate] using h
  | t :: t' :: ts, u :: u' :: us, hlen, hts, hus, h => by
      have hcons : ∀ (a b : Text) (l : List Text),
          List.intercalate [c] (a :: b :: l) = a ++ c :: List.intercalate [c] (b :: l) := by
        intro a b l
        simp [List.intercalate]
      rw [hcons, hcons] at h
      obtain ⟨rfl, hrest⟩ := append_cons_inj (hts t (by simp)) (hus u (by simp)) h
      have htail := intercalate_inj (by simpa using hlen) (fun x hx => hts x (by simp [hx]))
        (fun x hx => hus x (by simp [hx])) hrest
      rw [htail]

/-- No value of the match has a null character. -/
def MatchResult.Plain (m : MatchResult) : Prop :=
  ∀ f ∈ m.row, Char.ofNat 0 ∉ f.2

/-- The keys separate matches without null characters. -/
theorem separated_of_plain {matchList : List MatchResult} (h : ∀ m ∈ matchList, m.Plain) :
  Separated (matchList.map MatchResult.row)
  := by
  intro x hx y hy hkey
  obtain ⟨m, hm, rfl⟩ := List.mem_map.mp hx
  obtain ⟨n, hn, rfl⟩ := List.mem_map.mp hy
  have hvalues : m.row.map Prod.snd = n.row.map Prod.snd := by
    have hlen : (m.row.map Prod.snd).length = (n.row.map Prod.snd).length := rfl
    apply intercalate_inj hlen _ _ hkey
    · intro t ht
      obtain ⟨f, hf, rfl⟩ := List.mem_map.mp ht
      apply h m hm f hf
    · intro t ht
      obtain ⟨f, hf, rfl⟩ := List.mem_map.mp ht
      apply h n hn f hf
  simp only [MatchResult.row, List.map_cons, List.map_nil, List.cons.injEq, and_true] at hvalues
  obtain ⟨h1, h2, h3, h4, h5, h6, h7, h8⟩ := hvalues
  simp only [MatchResult.row, h1, h2, h3, h4, h5, h6, h7, h8]

/-- The hash of a batch is the hash of what was agreed on. If no value of a match has a null
character and the digest function does not collide on the texts of two batches, these have the
same hash exactly if they have the same identifier and the same matches, in whatever order. In
particular the order never matters. -/
theorem computeBatchHash_eq_iff (sha256 : Bytes → Word) {batchId batchId' : Text}
    {matchList matchList' : List MatchResult} (hplain : ∀ m ∈ matchList, m.Plain)
    (hfree : sha256 (utf8 (canonical batchId matchList))
        = sha256 (utf8 (canonical batchId' matchList'))
      → utf8 (canonical batchId matchList) = utf8 (canonical batchId' matchList')) :
  computeBatchHash sha256 batchId matchList = computeBatchHash sha256 batchId' matchList'
    ↔ batchId = batchId'
      ∧ (matchList.map MatchResult.row).Perm (matchList'.map MatchResult.row)
  := by
  rw [← canonical_eq_iff (separated_of_plain hplain)]
  constructor
  · intro h
    apply utf8_injective (hfree h)
  · intro h
    rw [computeBatchHash, computeBatchHash, h]

/-- A match of the same asset for an amount. -/
def usdcMatch (a b amount : Text) : MatchResult :=
  ⟨a, b, amount, "USDC".toList, "USDC".toList, none, none, none⟩

/-- Two matches in either order. -/
theorem computeBatchHash_eq_swapped :
  computeBatchHash Shade.sha256 "b".toList
      [usdcMatch "x".toList "y".toList "1".toList, usdcMatch "x".toList "y".toList "2".toList]
    = computeBatchHash Shade.sha256 "b".toList
        [usdcMatch "x".toList "y".toList "2".toList, usdcMatch "x".toList "y".toList "1".toList]
  := by
  apply (computeBatchHash_eq_iff Shade.sha256 _ _).mpr
  · use rfl
    apply List.Perm.swap
  · intro m hm f hf
    simp only [List.mem_cons, List.not_mem_nil, or_false] at hm
    rcases hm with rfl | rfl
    · revert f
      decide
    · revert f
      decide
  · intro _
    decide +kernel

/-! ### Signatures -/

theorem hexBytes_injective :
  Function.Injective hexBytes
  := by
  intro bs bs' h
  rw [← fromHex_hexBytes bs, h, fromHex_hexBytes]

/-- The text of a public key. -/
def printKey (key : Word) : Text := hexBytes key.toBytes

theorem printKey_injective :
  Function.Injective printKey
  := fun _ _ h => Word.toBytes_injective (hexBytes_injective h)

theorem fromHex_printKey (key : Word) :
  fromHex (printKey key) = key.toBytes
  := fromHex_hexBytes _

/-- The texts of a signature stand for the key and the signature that the pool is given. -/
def Printed (sig : NodeSignature) (signed : Word × Signature) : Prop :=
  sig.signingPubkey = printKey signed.1 ∧ fromHex sig.signature = toBE 64 signed.2.toNat

section

variable {nacl : NaclSign} {sha256 : Bytes → Word} {host : Host}

/-- The points of small order, as they are encoded, without the sign. -/
def smallOrder : List Word :=
  [0,
    0x0100000000000000000000000000000000000000000000000000000000000000,
    0x26e8958fc2b227b045c3f489f2ef98f0d5dfac05d3c63339b13802886d53fc05,
    0xc7176a703d4dd84fba3c0b760d10670f2a2053fa2c39ccc64ec7fd7792ac037a,
    0xecffffffffffffffffffffffffffffffffffffffffffffffffffffffffffff7f,
    0xedffffffffffffffffffffffffffffffffffffffffffffffffffffffffffff7f,
    0xeeffffffffffffffffffffffffffffffffffffffffffffffffffffffffffff7f]

/-- The order of the group in which is signed. -/
def groupOrder : ℕ := 2 ^ 252 + 27742317777372353535851937790883648493

/-- What a strict verification asks of a key and a signature: neither the key nor the point of the
signature has small order, and the number of the signature, whose lowest byte comes first, is
reduced. -/
structure Canonical (signed : Word × Signature) : Prop where
  key : signed.1 &&& ~~~0x80 ∉ smallOrder
  point : BitVec.ofNat 256 (signed.2.toNat / 2 ^ 256) &&& ~~~0x80 ∉ smallOrder
  reduced : ofBE ((toBE 64 signed.2.toNat).drop 32).reverse < groupOrder

/-- The library and the host of the pool give the same answer for a message. -/
def Agrees (nacl : NaclSign) (host : Host) (message : Bytes) (signed : Word × Signature) : Prop :=
  nacl.verify message (toBE 64 signed.2.toNat) signed.1.toBytes
    = host.ed25519Verify signed.1 message signed.2

/-- Canonical signatures are verified in the same way by the library and by the host of the pool.
The host refuses the others; the library does not. -/
def VerifiesAlike (nacl : NaclSign) (host : Host) : Prop :=
  ∀ message signed, Canonical signed → Agrees nacl host message signed

theorem batchMessage_eq (batchId : Text) (matchList : List MatchResult) :
  batchMessage sha256 batchId matchList = (computeBatchHash sha256 batchId matchList).toBytes
  := fromHex_hexBytes _

theorem Printed.verifyNodeSignature_eq {batchId : Text} {matchList : List MatchResult}
    {sig : NodeSignature} {signed : Word × Signature} (h : Printed sig signed)
    (hagree : Agrees nacl host (computeBatchHash sha256 batchId matchList).toBytes signed) :
  verifyNodeSignature nacl sha256 batchId matchList sig
    = some (host.ed25519Verify signed.1 (computeBatchHash sha256 batchId matchList).toBytes
        signed.2)
  := by
  have hlen : (toBE 64 signed.2.toNat).length = 64 ∧ signed.1.toBytes.length = 32 :=
    ⟨length_toBE 64 _, signed.1.length_toBytes⟩
  rw [verifyNodeSignature, h.1, h.2, fromHex_printKey, if_pos hlen, batchMessage_eq, hagree]

theorem signed_cons {keys signers : List Word} {message : Bytes} {key : Word}
    {signature : Signature} {signatures : List Signature} :
  Pool.Signed host keys message (key :: signers) (signature :: signatures)
    ↔ key ∈ keys ∧ key ∉ signers ∧ host.ed25519Verify key message signature = true
      ∧ Pool.Signed host keys message signers signatures
  := by
  simp only [Pool.Signed, List.nodup_cons, List.mem_cons, forall_eq_or_imp, List.length_cons,
    Nat.add_le_add_iff_right, List.zip_cons_cons]
  grind

/-- The loop accepts exactly the signatures that the loop of the pool accepts. -/
theorem checkSignatures_eq_some {batch : SignedMatchBatch} {keys seen : List Word}
    {signatures : List NodeSignature} {signed : List (Word × Signature)} {r : List Text}
    (hagree : ∀ p ∈ signed,
      Agrees nacl host (computeBatchHash sha256 batch.batchId batch.matchList).toBytes p)
    (hprinted : List.Forall₂ Printed signatures signed) :
  checkSignatures nacl sha256 (keys.map printKey) batch signatures (seen.map printKey)
      = some (some r)
    ↔ Pool.Signed host keys (computeBatchHash sha256 batch.batchId batch.matchList).toBytes
        (signed.map Prod.fst) (signed.map Prod.snd)
      ∧ (∀ key ∈ signed.map Prod.fst, key ∉ seen)
      ∧ r = (seen ++ signed.map Prod.fst).map printKey
  := by
  induction hprinted generalizing seen with
  | nil =>
      simp only [checkSignatures, Option.some.injEq, List.map_nil, List.append_nil]
      constructor
      · rintro rfl
        simp [Pool.Signed]
      · rintro ⟨-, -, rfl⟩
        rfl
  | @cons sig p signatures signed hsig _ ih =>
      obtain ⟨hp, hagree⟩ := List.forall_mem_cons.mp hagree
      have hmem : ∀ ks : List Word, sig.signingPubkey ∈ ks.map printKey ↔ p.1 ∈ ks := by
        intro ks
        rw [hsig.1, List.mem_map_of_injective printKey_injective]
      have hseen : seen.map printKey ++ [sig.signingPubkey] = (seen ++ [p.1]).map printKey := by
        rw [hsig.1, List.map_append, List.map_singleton]
      simp only [checkSignatures, List.contains_iff_mem, hmem,
        hsig.verifyNodeSignature_eq hp, hseen, Option.bind_eq_bind, Option.bind_some,
        Option.pure_def]
      split
      · next hkey => simp [signed_cons, hkey]
      · next hkey =>
          split
          · next hdup => simp [hdup]
          · next hdup =>
              split
              · next hverify =>
                  rw [ih hagree]
                  simp only [List.map_cons, signed_cons, List.forall_mem_cons, List.mem_append,
                    List.mem_singleton, List.append_assoc, List.singleton_append, not_or]
                  constructor
                  · rintro ⟨hsigned, hnew, rfl⟩
                    have hp : p.1 ∉ signed.map Prod.fst := fun hp => (hnew _ hp).2 rfl
                    use ⟨not_not.mp hkey, hp, hverify, hsigned⟩,
                      ⟨hdup, fun key hmem => (hnew key hmem).1⟩
                  · rintro ⟨⟨-, hp, -, hsigned⟩, ⟨-, hnew⟩, rfl⟩
                    use hsigned, fun key hmem => ⟨hnew key hmem, fun heq => hp (heq ▸ hmem)⟩
              · next hverify => simp [signed_cons, hverify]

/-! ### A committee of three -/

/-- Signatures that are hashes of the key and the message. -/
def hashSign : NaclSign where
  detached message secretKey := (Shade.sha256 (secretKey ++ message)).toBytes ++ toBE 32 0
  verify message signature publicKey :=
    decide (signature = (Shade.sha256 (publicKey ++ message)).toBytes ++ toBE 32 0)

/-- The host that verifies these signatures. -/
def hashSignHost : Host :=
  { Pool.Deployment.host ⟨[], [], []⟩ [] with
    ed25519Verify := fun key message signature =>
      hashSign.verify message (toBE 64 signature.toNat) key.toBytes }

/-- A node with one key for everything. -/
def keyedNode (key : Word) : CommitteeNodeKeyPair where
  nodeId := printKey key
  encryptionPublicKey := key.toBytes
  encryptionSecretKey := key.toBytes
  signingPublicKey := key.toBytes
  signingSecretKey := key.toBytes

/-- A pool with a committee of three. -/
def threeState : Pool.State :=
  { Pool.State.constructor Pool.Deployment.admin Pool.Deployment.usdc
      Pool.Deployment.withdrawVerifier Pool.Deployment.nullifierRegistry 12 1 1 with
    mpcCmte := some [1, 2, 3] }

/-- The matches of the batch, listed in either order. -/
def twoMatches (swapped : Bool) : List MatchResult :=
  let matchList :=
    [usdcMatch "x".toList "y".toList "1".toList, usdcMatch "x".toList "y".toList "2".toList]
  if swapped then matchList.reverse else matchList

/-- The listing of a node. -/
def twoListing (node : CommitteeNodeKeyPair) : List MatchResult :=
  twoMatches (node.signingPublicKey = Word.toBytes 2)

/-- A batch that two of three signed. -/
def twoSigned : SignedMatchBatch where
  batchId := "b".toList
  sessionId := "s".toList
  matchList := twoMatches false
  batchHash := printKey (computeBatchHash Shade.sha256 "b".toList (twoMatches false))
  signatures := [keyedNode 1, keyedNode 2].map fun node =>
    signBatch hashSign Shade.sha256 "b".toList (twoListing node) node

theorem plain_twoMatches :
  ∀ m ∈ twoMatches false, m.Plain
  := by
  intro m hm f hf
  simp only [twoMatches, Bool.false_eq_true, if_false, List.mem_cons, List.not_mem_nil,
    or_false] at hm
  rcases hm with rfl | rfl
  · revert f
    decide
  · revert f
    decide

/-- The client's check of a batch, on the keys and signatures that its texts stand for. -/
theorem verifySignedBatch_eq_some {keys : List Word} {committee : List NodePublicInfo}
    {batch : SignedMatchBatch} {signed : List (Word × Signature)}
    (hagree : ∀ p ∈ signed,
      Agrees nacl host (computeBatchHash sha256 batch.batchId batch.matchList).toBytes p)
    (hkeys : committee.map NodePublicInfo.signingPubkey = keys.map printKey)
    (hprinted : List.Forall₂ Printed batch.signatures signed) :
  verifySignedBatch nacl sha256 batch committee = some true
    ↔ Pool.threshold keys.length ≤ (signed.map Prod.fst).length
      ∧ Pool.Signed host keys (computeBatchHash sha256 batch.batchId batch.matchList).toBytes
        (signed.map Prod.fst) (signed.map Prod.snd)
  := by
  have hlen : committee.length = keys.length := by
    have := congrArg List.length hkeys
    simpa using this
  have hquorum : quorum committee.length = Pool.threshold keys.length := by
    rw [hlen, quorum, Pool.threshold, Nat.mul_comm]
  set message := (computeBatchHash sha256 batch.batchId batch.matchList).toBytes
  have hloop : ∀ r, checkSignatures nacl sha256 (keys.map printKey) batch batch.signatures
        (([] : List Word).map printKey) = some (some r)
      ↔ Pool.Signed host keys message (signed.map Prod.fst) (signed.map Prod.snd)
        ∧ (∀ key ∈ signed.map Prod.fst, key ∉ ([] : List Word))
        ∧ r = ([] ++ signed.map Prod.fst).map printKey :=
    fun r => checkSignatures_eq_some hagree hprinted
  rw [verifySignedBatch, hkeys]
  constructor
  · intro h
    obtain ⟨seen, hseen, h⟩ := Option.bind_eq_some_iff.mp h
    cases seen with
    | none => cases h
    | some signers =>
        obtain ⟨hsigned, -, rfl⟩ := (hloop signers).mp hseen
        have hle := of_decide_eq_true (Option.some.inj h)
        rw [hquorum, List.length_map, List.nil_append] at hle
        exact ⟨hle, hsigned⟩
  · rintro ⟨hle, hsigned⟩
    have hseen := (hloop _).mpr ⟨hsigned, by simp, rfl⟩
    rw [← hquorum] at hle
    apply Option.bind_eq_some_iff.mpr
    refine ⟨_, hseen, ?_⟩
    simp only [List.nil_append, List.length_map] at hle ⊢
    rw [decide_eq_true hle]
    rfl

/-- The client's check and the pool's check of a batch are the same check. Let the texts of the
committee be those of the keys that the pool has, let the texts of the signatures stand for the
keys and signatures that are handed to the pool, and let these be canonical. Then a batch passes the
first exactly if its hash passes the second. -/
theorem verifySignedBatch_iff_endorsed (nacl : NaclSign) (sha256 : Bytes → Word) (host : Host)
    (hagree : VerifiesAlike nacl host) (s : Pool.State) (keys : List Word)
    (hcommittee : s.mpcCmte = some keys) (hne : keys ≠ []) (committee : List NodePublicInfo)
    (hkeys : committee.map NodePublicInfo.signingPubkey = keys.map printKey)
    (batch : SignedMatchBatch) (signed : List (Word × Signature))
    (hprinted : List.Forall₂ Printed batch.signatures signed)
    (hcanonical : ∀ p ∈ signed, Canonical p) :
  verifySignedBatch nacl sha256 batch committee = some true
    ↔ s.Endorsed host (computeBatchHash sha256 batch.batchId batch.matchList).toBytes
        (signed.map Prod.fst) (signed.map Prod.snd)
  := by
  rw [verifySignedBatch_eq_some (fun p hp => hagree _ p (hcanonical p hp)) hkeys hprinted]
  constructor
  · rintro ⟨hle, hsigned⟩
    exact ⟨keys, hcommittee, hne, hle, hsigned⟩
  · rintro ⟨keys', hcommittee', -, hle, hsigned⟩
    obtain rfl := Option.some.inj (hcommittee.symm.trans hcommittee')
    exact ⟨hle, hsigned⟩

/-- The signatures of two of three. -/
theorem verifySignedBatch_iff_endorsed_two :
  ∃ signed : List (Word × Signature),
    threeState.Endorsed hashSignHost
      (computeBatchHash Shade.sha256 twoSigned.batchId twoSigned.matchList).toBytes
      (signed.map Prod.fst) (signed.map Prod.snd)
  := by
  let message := (computeBatchHash Shade.sha256 twoSigned.batchId twoSigned.matchList).toBytes
  let signed : List (Word × Signature) := [(1 : Word), 2].map fun key =>
    (key, BitVec.ofNat 512 ((Shade.sha256 (key.toBytes ++ message)).toNat * 2 ^ 256))
  use signed
  have hprinted : List.Forall₂ Printed twoSigned.signatures signed := by
    apply List.Forall₂.cons ⟨by decide +kernel, by decide +kernel⟩
    apply List.Forall₂.cons ⟨by decide +kernel, by decide +kernel⟩
    apply List.Forall₂.nil
  have hcanonical : ∀ p ∈ signed, Canonical p := by
    intro p hp
    have hall : (signed.all fun p => p.1 &&& ~~~0x80 ∉ smallOrder
        ∧ BitVec.ofNat 256 (p.2.toNat / 2 ^ 256) &&& ~~~0x80 ∉ smallOrder
        ∧ ofBE ((toBE 64 p.2.toNat).drop 32).reverse < groupOrder) = true := by
      decide +kernel
    obtain ⟨hkey, hpoint, hreduced⟩ := of_decide_eq_true (List.all_eq_true.mp hall p hp)
    exact ⟨hkey, hpoint, hreduced⟩
  apply (verifySignedBatch_iff_endorsed hashSign Shade.sha256 hashSignHost (fun _ _ _ => rfl)
    threeState [1, 2, 3] rfl (by simp)
    ([1, 2, 3].map fun key => nodePublicInfo (keyedNode key)) rfl twoSigned signed hprinted
    hcanonical).mp
  decide +kernel

/-- What a node signs is the hash of the batch, however the node lists the matches. -/
theorem batchMessage_eq_of_perm {batchId : Text} {matchList matchList' : List MatchResult}
    (hplain : ∀ m ∈ matchList, m.Plain)
    (hperm : (matchList.map MatchResult.row).Perm (matchList'.map MatchResult.row)) :
  batchMessage sha256 batchId matchList' = batchMessage sha256 batchId matchList
  := by
  have hcanonical : canonical batchId matchList = canonical batchId matchList' :=
    (canonical_eq_iff (separated_of_plain hplain)).mpr ⟨rfl, hperm⟩
  rw [batchMessage_eq, batchMessage_eq, computeBatchHash, computeBatchHash, hcanonical]

/-- The key of the node is that of a member, and its signatures have their length. -/
structure SignsFor (nacl : NaclSign) (keys : List Word) (node : CommitteeNodeKeyPair) : Prop where
  member : ∃ key ∈ keys, node.signingPublicKey = key.toBytes
  length : ∀ message, (nacl.detached message node.signingSecretKey).length = 64

/-- The keys of the node are those of a member, and its signatures are good. -/
structure Signs (nacl : NaclSign) (keys : List Word) (node : CommitteeNodeKeyPair) : Prop extends
    SignsFor nacl keys node where
  correct : ∀ message,
    nacl.verify message (nacl.detached message node.signingSecretKey) node.signingPublicKey = true

/-- The key and the signature that the pool is given for what a node signs. -/
def poolSignature (nacl : NaclSign) (message : Bytes) (node : CommitteeNodeKeyPair) :
    Word × Signature :=
  (BitVec.ofNat 256 (ofBE node.signingPublicKey),
    BitVec.ofNat 512 (ofBE (nacl.detached message node.signingSecretKey)))

theorem SignsFor.toBytes_poolSignature {keys : List Word} {node : CommitteeNodeKeyPair}
    (h : SignsFor nacl keys node) (message : Bytes) :
  (poolSignature nacl message node).1.toBytes = node.signingPublicKey
    ∧ (poolSignature nacl message node).1 ∈ keys
    ∧ toBE 64 (poolSignature nacl message node).2.toNat
      = nacl.detached message node.signingSecretKey
  := by
  obtain ⟨key, hkey, hpk⟩ := h.member
  have hword : (poolSignature nacl message node).1 = key := by
    rw [poolSignature, hpk, Word.ofNat_toBytes]
  have hlen := h.length message
  have hlt := ofBE_lt (nacl.detached message node.signingSecretKey)
  rw [hlen] at hlt
  use by rw [hword, hpk], by rw [hword]; exact hkey
  rw [poolSignature, BitVec.toNat_ofNat, Nat.mod_eq_of_lt (by omega), ← hlen, toBE_ofBE]

/-- What nodes sign stands for their keys and signatures. -/
theorem forall₂_printed {keys : List Word} {batchId : Text} {message : Bytes}
    {nodes : List CommitteeNodeKeyPair} (hsigns : ∀ node ∈ nodes, SignsFor nacl keys node)
    {listing : CommitteeNodeKeyPair → List MatchResult}
    (hmessage : ∀ node ∈ nodes, batchMessage sha256 batchId (listing node) = message) :
  List.Forall₂ Printed (nodes.map fun node => signBatch nacl sha256 batchId (listing node) node)
    (nodes.map (poolSignature nacl message))
  := by
  rw [List.forall₂_map_left_iff, List.forall₂_map_right_iff, List.forall₂_same]
  intro node hnode
  obtain ⟨hpk, -, hsig⟩ := (hsigns node hnode).toBytes_poolSignature message
  constructor
  · rw [printKey, hpk]
    rfl
  · rw [hsig, signBatch, fromHex_hexBytes, hmessage node hnode]

/-- Different members sign a message. -/
theorem signed_poolSignature {keys : List Word} {nodes : List CommitteeNodeKeyPair}
    {message : Bytes} (hsigns : ∀ node ∈ nodes, SignsFor nacl keys node)
    (hnodup : (nodes.map CommitteeNodeKeyPair.signingPublicKey).Nodup)
    (haccepts : ∀ node ∈ nodes, host.ed25519Verify (poolSignature nacl message node).1 message
      (poolSignature nacl message node).2 = true) :
  Pool.Signed host keys message ((nodes.map (poolSignature nacl message)).map Prod.fst)
    ((nodes.map (poolSignature nacl message)).map Prod.snd)
  := by
  refine ⟨?_, ?_, by simp, ?_⟩
  · have hkeys : (nodes.map (poolSignature nacl message)).map (Word.toBytes ∘ Prod.fst)
        = nodes.map CommitteeNodeKeyPair.signingPublicKey := by
      rw [List.map_map]
      apply List.map_congr_left
      intro node hnode
      apply ((hsigns node hnode).toBytes_poolSignature message).1
    rw [← hkeys, ← List.map_map] at hnodup
    apply hnodup.of_map
  · intro pk hpk
    rw [List.map_map] at hpk
    obtain ⟨node, hnode, rfl⟩ := List.mem_map.mp hpk
    apply ((hsigns node hnode).toBytes_poolSignature message).2.1
  · intro p hp
    rw [List.zip_map'] at hp
    obtain ⟨q, hq, rfl⟩ := List.mem_map.mp hp
    obtain ⟨node, hnode, rfl⟩ := List.mem_map.mp hq
    apply haccepts node hnode

/-- A batch that a quorum of the committee signed is accepted by the pool, whose host accepts what
each of these nodes signs. Each node signs the matches in the order in which it lists them, and the
keys and signatures are handed to the pool as they stand in the batch. -/
theorem signBatch_endorsed (nacl : NaclSign) (sha256 : Bytes → Word) (host : Host)
    (s : Pool.State) (keys : List Word) (hcommittee : s.mpcCmte = some keys)
    (batch : SignedMatchBatch) (hplain : ∀ m ∈ batch.matchList, m.Plain)
    (nodes : List CommitteeNodeKeyPair) (hsigns : ∀ node ∈ nodes, SignsFor nacl keys node)
    (haccepts : ∀ node ∈ nodes, ∀ message,
      host.ed25519Verify (poolSignature nacl message node).1 message
        (poolSignature nacl message node).2 = true)
    (hnodup : (nodes.map CommitteeNodeKeyPair.signingPublicKey).Nodup)
    (hquorum : quorum keys.length ≤ nodes.length) (hsome : nodes ≠ [])
    (listing : CommitteeNodeKeyPair → List MatchResult)
    (hlisting : ∀ node ∈ nodes,
      (batch.matchList.map MatchResult.row).Perm ((listing node).map MatchResult.row))
    (hsignatures : batch.signatures
      = nodes.map fun node => signBatch nacl sha256 batch.batchId (listing node) node) :
  ∃ signed : List (Word × Signature), List.Forall₂ Printed batch.signatures signed
    ∧ s.Endorsed host (computeBatchHash sha256 batch.batchId batch.matchList).toBytes
        (signed.map Prod.fst) (signed.map Prod.snd)
  := by
  set message := batchMessage sha256 batch.batchId batch.matchList
  refine ⟨nodes.map (poolSignature nacl message), ?_, keys, hcommittee, ?_, ?_, ?_⟩
  · rw [hsignatures]
    apply forall₂_printed hsigns
    intro node hnode
    apply batchMessage_eq_of_perm hplain (hlisting node hnode)
  · rintro rfl
    obtain ⟨node, hnode⟩ := List.exists_mem_of_ne_nil nodes hsome
    obtain ⟨key, hkey, -⟩ := (hsigns node hnode).member
    cases hkey
  · rw [Pool.threshold, Nat.mul_comm, List.length_map, List.length_map]
    exact hquorum
  · rw [← batchMessage_eq]
    apply signed_poolSignature hsigns hnodup fun node hnode => haccepts node hnode _

/-- Two of the nodes with one key sign. -/
theorem signs_keyedNode :
  ∀ node ∈ [keyedNode 1, keyedNode 2], Signs hashSign [1, 2, 3] node
  := by
  intro node hnode
  simp only [List.mem_cons, List.not_mem_nil, or_false] at hnode
  refine ⟨⟨?_, ?_⟩, ?_⟩
  · rcases hnode with rfl | rfl
    · exact ⟨1, by simp, rfl⟩
    · exact ⟨2, by simp, rfl⟩
  · intro message
    simp [hashSign, length_toBE, Word.length_toBytes]
  · intro message
    rcases hnode with rfl | rfl
    · apply decide_eq_true rfl
    · apply decide_eq_true rfl

/-- Two of three sign, each with its own listing. -/
theorem signBatch_endorsed_two :
  ∃ signed : List (Word × Signature), List.Forall₂ Printed twoSigned.signatures signed
    ∧ threeState.Endorsed hashSignHost
        (computeBatchHash Shade.sha256 twoSigned.batchId twoSigned.matchList).toBytes
        (signed.map Prod.fst) (signed.map Prod.snd)
  := by
  apply signBatch_endorsed hashSign Shade.sha256 hashSignHost threeState [1, 2, 3] rfl twoSigned
    plain_twoMatches [keyedNode 1, keyedNode 2] _ _ (by decide) (by decide) (by simp) twoListing _
    rfl
  · intro node hnode
    exact (signs_keyedNode node hnode).toSignsFor
  · intro node hnode message
    have hsigns := signs_keyedNode node hnode
    obtain ⟨hpk, -, hsig⟩ := hsigns.toBytes_poolSignature message
    change hashSign.verify message _ _ = true
    rw [hpk, hsig]
    apply hsigns.correct
  · intro node hnode
    simp only [List.mem_cons, List.not_mem_nil, or_false] at hnode
    rcases hnode with rfl | rfl
    · apply List.Perm.refl
    · apply List.Perm.swap

end

end Shade.Committee
