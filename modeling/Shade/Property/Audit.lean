import Shade.Auditor.Audit
import Shade.Property.Committee
import Shade.Property.Tree

/-!
# False alarms of the root auditor

The pool announces the leaves of deposits, of private transfers and of settlements, each with
events of their own, and the auditor reads only those of deposits. As long as every leaf was
appended by a deposit, the leaves it reads are those of the pool and the roots agree. After a
private transfer or a settlement it recomputes the root over fewer leaves than the pool has.
-/

namespace Shade.Auditor

open Text Pool

/-! ### What is read from an event -/

/-- The leaf that a deposit announces, with its index. -/
def announced : Event → Option (ℕ × Word)
  | .deposit _ _ _ _ commitment _ _ leafIndex _ => some (leafIndex, commitment)
  | _ => none

/-- A leaf of the pool, as the auditor keeps it. -/
def leafOf (leafIndex : ℕ) (commitment : Word) : DepositLeaf where
  leafIndex := leafIndex
  commitmentDecimal := decimal commitment.toNat
  commitmentHex := "0x".toList ++ hexBytes commitment.toBytes

theorem ofBE_toBytes (x : Word) :
  Endian.ofBE x.toBytes = x.toNat
  := by
  rw [Word.toBytes, Endian.ofBE_toBE]
  apply Nat.mod_eq_of_lt x.isLt

/-- The auditor reads the deposits and passes over the other events of the pool. -/
theorem readLeaf_emitted (e : Event) :
  readLeaf (emitted e) = (announced e).map fun p => leafOf p.1 p.2
  := by
  cases e with
  | deposit sourceDomain cctpNonce asset amount commitment payload policyId leafIndex root =>
      simp only [emitted, readLeaf, ne_eq, not_true_eq_false, List.length_cons, List.length_nil,
        false_or]
      rw [if_neg (by omega)]
      simp only [List.getD_cons_succ, List.getD_cons_zero, Value.word]
      rw [ofHex_hexBytes, ofBE_toBytes]
      rfl
  | _ => rfl

/-- The texts of a leaf denote its word. -/
theorem hexBytes_toBytes (x : Word) :
  hexBytes x.toBytes = (hexNat x.toNat).leftpad 64 '0'
  := by
  have hne : x.toBytes ≠ [] := by
    apply List.ne_nil_of_length_pos
    rw [Word.length_toBytes]
    decide
  rw [hexBytes_eq hne, ofBE_toBytes, Word.length_toBytes]

/-! ### Reading the pages -/

section

variable {server : Server} {poolContract : Text}

/-- The pages that the server delivers are all read if there are not too many. -/
theorem readPages_eq {origin : Origin} {pages : List Page}
    (h : server.Delivers poolContract origin pages) {n : ℕ} (hn : pages.length ≤ n) (s : Reading) :
  readPages server poolContract n origin s = pages.foldl Reading.add s
  := by
  induction h generalizing n s with
  | last h hlast =>
      obtain ⟨n, rfl⟩ := Nat.exists_eq_add_one.mpr hn
      rw [readPages, h]
      simp only [hlast]
      rfl
  | more h hnext hrest ih =>
      obtain ⟨n, rfl⟩ := Nat.exists_eq_add_one.mpr (Nat.lt_of_lt_of_le (Nat.succ_pos _) hn)
      rw [readPages, h]
      simp only [hnext]
      apply ih
      rw [List.length_cons] at hn
      omega

/-- Reading pages sets the leaves of all their events. -/
theorem foldl_add (pages : List Page) (s : Reading) :
  pages.foldl Reading.add s =
    { s with
      byIndex := ((pages.flatMap Page.events).filterMap readLeaf).foldl setLeaf s.byIndex
      got := s.got + ((pages.flatMap Page.events).filterMap readLeaf).length }
  := by
  induction pages generalizing s with
  | nil => rfl
  | cons p pages ih =>
      rw [List.foldl_cons, ih, Reading.add]
      simp only [List.flatMap_cons, List.filterMap_append, List.foldl_append, List.length_append,
        Nat.add_assoc]

/-- Windows that the server refuses leave nothing behind. -/
theorem readWindows_refused {refused : List ℕ}
    (h : ∀ b ∈ refused, server.getEvents (request poolContract (server.windowStart b)) = none)
    (lookbacks : List ℕ) (byIndex : List DepositLeaf) :
  readWindows server poolContract (refused ++ lookbacks) byIndex
    = readWindows server poolContract lookbacks byIndex
  := by
  induction refused with
  | nil => rfl
  | cons b refused ih =>
      obtain ⟨hb, hrefused⟩ := List.forall_mem_cons.mp h
      rw [List.cons_append, readWindows]
      simp only [readPages, hb, true_or, if_true]
      apply ih hrefused

/-- Pages without deposits leave nothing behind. -/
theorem readPages_byIndex
    (h : ∀ origin p, server.getEvents (request poolContract origin) = some p →
      p.events.filterMap readLeaf = []) (n : ℕ) (origin : Origin) (s : Reading) :
  (readPages server poolContract n origin s).byIndex = s.byIndex
  := by
  induction n generalizing origin s with
  | zero => rfl
  | succ n ih =>
      rw [readPages]
      cases hp : server.getEvents (request poolContract origin) with
      | none => rfl
      | some p =>
          have hadd : (s.add p).byIndex = s.byIndex := by
            rw [Reading.add, h origin p hp]
            rfl
          simp only
          cases p.next with
          | none => apply hadd
          | some t =>
              simp only
              rw [ih, hadd]

/-- Windows without deposits leave nothing behind. -/
theorem readWindows_byIndex
    (h : ∀ origin p, server.getEvents (request poolContract origin) = some p →
      p.events.filterMap readLeaf = []) (lookbacks : List ℕ) (byIndex : List DepositLeaf) :
  readWindows server poolContract lookbacks byIndex = byIndex
  := by
  induction lookbacks generalizing byIndex with
  | nil => rfl
  | cons back lookbacks ih =>
      rw [readWindows]
      simp only [readPages_byIndex h]
      split
      · apply ih
      · rfl

/-- If the server returns all events in at most 50 pages, the leaves of all of them are
read. -/
theorem Server.Returns.readWindows_eq {lookbacks : List ℕ} {events : List ContractEvent}
    {pages : List Page} (h : server.Returns poolContract lookbacks events pages)
    (hpages : pages.length ≤ 50) :
  readWindows server poolContract lookbacks []
    = (events.filterMap readLeaf).foldl setLeaf []
  := by
  obtain ⟨refused, back, rest, rfl, hrefused, hdelivers⟩ := h.window
  rw [readWindows_refused hrefused, readWindows, readPages_eq hdelivers hpages, foldl_add, h.all]
  simp only [Nat.zero_add, Bool.false_eq_true, false_or]
  split
  · next hnone =>
      rw [List.length_eq_zero_iff] at hnone
      rw [hnone]
      apply readWindows_byIndex
      intro origin p hp
      rw [List.filterMap_eq_nil_iff] at hnone ⊢
      intro e he
      apply hnone e (h.only origin p hp e he)
  · rfl

end

/-! ### Leaves in order -/

/-- A leaf with a new index comes last. -/
theorem setLeaf_of_new {leaves : List DepositLeaf} {leaf : DepositLeaf}
    (h : ∀ l ∈ leaves, l.leafIndex ≠ leaf.leafIndex) :
  setLeaf leaves leaf = leaves ++ [leaf]
  := by
  induction leaves with
  | nil => rfl
  | cons l leaves ih =>
      obtain ⟨hl, hleaves⟩ := List.forall_mem_cons.mp h
      rw [setLeaf, if_neg hl, ih hleaves, List.cons_append]

/-- Leaves with different indices are kept in the order in which they are set. -/
theorem foldl_setLeaf {leaves : List DepositLeaf} (acc : List DepositLeaf)
    (h : ((acc ++ leaves).map DepositLeaf.leafIndex).Nodup) :
  leaves.foldl setLeaf acc = acc ++ leaves
  := by
  induction leaves generalizing acc with
  | nil => rw [List.append_nil, List.foldl_nil]
  | cons leaf leaves ih =>
      have hnew : ∀ l ∈ acc, l.leafIndex ≠ leaf.leafIndex := by
        rw [List.map_append, List.nodup_append] at h
        intro l hl
        apply h.2.2 _ (List.mem_map_of_mem hl) _ (by simp)
      rw [List.append_cons] at h ⊢
      rw [List.foldl_cons, setLeaf_of_new hnew, ih _ h]

/-- The leaves of a list of words have its positions as indices. -/
theorem map_leafIndex (leaves : List Word) :
  (leaves.mapIdx leafOf).map DepositLeaf.leafIndex = List.range leaves.length
  := by
  apply List.ext_getElem
  · simp
  · intro i hi hi'
    simp [leafOf]

theorem map_commitmentDecimal (leaves : List Word) :
  (leaves.mapIdx leafOf).map DepositLeaf.commitmentDecimal
    = leaves.map fun x => decimal x.toNat
  := by
  apply List.ext_getElem
  · simp
  · intro i hi hi'
    simp [leafOf]

/-- The leaves of a list of words are in order. -/
theorem sortLeaves_mapIdx (leaves : List Word) :
  sortLeaves (leaves.mapIdx leafOf) = leaves.mapIdx leafOf
  := by
  apply List.Pairwise.insertionSort_eq
  apply List.Pairwise.of_map (S := (· ≤ ·)) DepositLeaf.leafIndex (fun _ _ h => h)
  rw [map_leafIndex]
  exact List.pairwise_le_range

/-- Reading the leaves of a list of words keeps them as they are. -/
theorem foldl_setLeaf_mapIdx (leaves : List Word) :
  (leaves.mapIdx leafOf).foldl setLeaf [] = leaves.mapIdx leafOf
  := by
  apply foldl_setLeaf
  rw [List.nil_append, map_leafIndex]
  exact List.nodup_range

/-- The auditor reads the leaves that deposits have announced in order. -/
theorem readDepositLeaves_eq {events : List Event} {leaves : List Word}
    (hevents : events.filterMap announced = leaves.mapIdx Prod.mk) {server : Server}
    {poolContract : Text} {lookbacks : List ℕ} {pages : List Page}
    (hserver : server.Returns poolContract lookbacks (events.map emitted) pages)
    (hpages : pages.length ≤ 50) :
  readDepositLeavesFromEvents server poolContract lookbacks = leaves.mapIdx leafOf
  := by
  have hread : (events.map emitted).filterMap readLeaf = leaves.mapIdx leafOf := by
    have hannounced : readLeaf ∘ emitted = fun e => (announced e).map fun p => leafOf p.1 p.2 := by
      funext e
      apply readLeaf_emitted
    rw [List.filterMap_map, hannounced, ← List.map_filterMap, hevents]
    apply List.ext_getElem
    · simp
    · intro i hi hi'
      simp
  rw [readDepositLeavesFromEvents, hserver.readWindows_eq hpages, hread, foldl_setLeaf_mapIdx,
    sortLeaves_mapIdx]

/-! ### Comparing -/

/-- The command of coinutils computes the root of the tree of the pool. -/
def ComputesRoot (H : Hash) (depth : ℕ) (coinutils : List Text → ℕ) : Prop :=
  ∀ leaves root, (LeanIMT.insertAll H (LeanIMT.new H depth) leaves).map LeanIMT.root = .ok root →
    coinutils (leaves.map fun x => decimal x.toNat) = root.toNat

/-- The root of the pool is zero without leaves, and that of the tree with its leaves
otherwise. -/
structure RootInvariant (H : Hash) (depth : ℕ) (s : State) : Prop where
  depth_eq : s.treeDepth = depth
  empty : s.treeLeaves = [] → s.treeRoot = 0
  root_eq : s.treeLeaves ≠ [] →
    (LeanIMT.insertAll H (LeanIMT.new H depth) s.treeLeaves).map LeanIMT.root = .ok s.treeRoot

/-- The recomputed root over leaves is the root of the tree with these leaves. -/
theorem ComputesRoot.recomputeRoot_eq {H : Hash} {depth : ℕ} {coinutils : List Text → ℕ}
    (h : ComputesRoot H depth coinutils) {leaves : List Word} {root : Word} (hne : leaves ≠ [])
    (hroot : (LeanIMT.insertAll H (LeanIMT.new H depth) leaves).map LeanIMT.root = .ok root) :
  recomputeRoot coinutils (leaves.map fun x => decimal x.toNat)
    = "0x".toList ++ hexBytes root.toBytes
  := by
  rw [recomputeRoot, if_neg (fun hnil => hne (List.map_eq_nil_iff.mp hnil)), h _ _ hroot,
    hexBytes_toBytes]

/-- The recomputed root over the leaves of the pool is its root. -/
theorem RootInvariant.recomputeRoot_eq {H : Hash} {depth : ℕ} {s : State}
    (hs : RootInvariant H depth s) {coinutils : List Text → ℕ}
    (h : ComputesRoot H depth coinutils) :
  recomputeRoot coinutils (s.treeLeaves.map fun x => decimal x.toNat) = readOnchainRoot s
  := by
  by_cases hnil : s.treeLeaves = []
  · rw [hnil, readOnchainRoot, hs.empty hnil]
    rfl
  · apply h.recomputeRoot_eq hnil (hs.root_eq hnil)

/-- The leaves of the pool in order pass the comparison. -/
theorem RootInvariant.compareRoots_ok {H : Hash} {depth : ℕ} {s : State}
    (hs : RootInvariant H depth s) {coinutils : List Text → ℕ}
    (h : ComputesRoot H depth coinutils) (poolContract : Text) (source : Source) :
  (compareRoots poolContract coinutils (s.treeLeaves.mapIdx leafOf) (readOnchainRoot s)
    source).status = .ok
  := by
  rw [compareRoots]
  simp only [sortLeaves_mapIdx, map_commitmentDecimal, hs.recomputeRoot_eq h, true_or, if_true]

/-! ### Runs -/

section

variable {host : Host} {tx : Tx} {w w' : World} {H : Hash} {depth : ℕ}

/-- Appending leaves keeps the root that of the tree. -/
theorem RootInvariant.appends {s s' : State} {commitments : List Word}
    (happends : Appends H s commitments s') (hs : RootInvariant H depth s) :
  RootInvariant H depth s'
  := by
  induction happends with
  | nil htree hleaves hroot hknown =>
      obtain ⟨hdepth, hempty, hroot'⟩ := hs
      constructor
      · rw [htree, hdepth]
      · rwa [hleaves, hroot]
      · rwa [hleaves, hroot]
  | cons hroot h ih =>
      apply ih
      constructor
      · exact hs.depth_eq
      · intro hnil
        simp at hnil
      · intro _
        rw [hs.depth_eq, appendRoot_eq] at hroot
        exact hroot

/-- The action appends leaves other than by a deposit: it is a private transfer or a
settlement of the committee. -/
def SettlesPrivately : Action → Prop
  | .call _ (.privateTransferSettle _) => True
  | .call _ (.mpcSettle _) => True
  | .call _ (.mpcSettlePriced _) => True
  | _ => False

/-- The deposits that the pool has announced are its leaves. -/
def AnnouncesLeaves (w : World) : Prop :=
  w.events.filterMap announced = w.pool.treeLeaves.mapIdx Prod.mk

/-- An event that announces nothing goes with an unchanged tree. -/
theorem AnnouncesLeaves.of_silent (hw : AnnouncesLeaves w) {events : List Event}
    (hevents : w'.events = w.events ++ events) (hsilent : events.filterMap announced = [])
    (hleaves : w'.pool.treeLeaves = w.pool.treeLeaves) :
  AnnouncesLeaves w'
  := by
  rw [AnnouncesLeaves, hevents, List.filterMap_append, hsilent, List.append_nil, hleaves]
  exact hw

/-- Events that announce one deposit go with its leaf, appended. -/
theorem AnnouncesLeaves.of_deposit (hw : AnnouncesLeaves w) {events : List Event} {leaf : Word}
    (hevents : w'.events = w.events ++ events)
    (hdeposit : events.filterMap announced = [(w.pool.treeLeaves.length, leaf)])
    (hleaves : w'.pool.treeLeaves = w.pool.treeLeaves ++ [leaf]) :
  AnnouncesLeaves w'
  := by
  rw [AnnouncesLeaves, hevents, List.filterMap_append, hdeposit, hleaves, List.mapIdx_concat, hw]

/-- An accepted call that does not settle privately announces the leaf it appends. -/
theorem AnnouncesLeaves.call (hw : AnnouncesLeaves w)
    (hcount : w.pool.leafCount = w.pool.treeLeaves.length) {c : Call}
    (hc : ¬ SettlesPrivately (.call tx c)) (h : c.exec host tx w = some w') :
  AnnouncesLeaves w'
  := by
  cases Call.exec_outcome h with
  | receiveCctpDeposit args x =>
      apply hw.of_deposit rfl _ rfl
      rw [← hcount]
      rfl
  | withdraw args x => exact hw.of_silent rfl rfl rfl
  | withdrawCctp args x => exact hw.of_silent rfl rfl rfl
  | rfqSettle args x => exact hw.of_silent rfl rfl rfl
  | rfqSettleAtomicSwap args x => exact hw.of_silent rfl rfl rfl
  | privateTransferSettle args x => exact absurd trivial hc
  | mpcSettle args x => exact absurd trivial hc
  | mpcSettlePriced args x => exact absurd trivial hc
  | registerAsset assetId token hadmin hnew => exact hw.of_silent rfl rfl rfl
  | config c hadmin =>
      cases c <;> exact hw

/-- The announced deposits are the leaves, which are counted, and the root is that of the
tree. -/
structure Recorded (H : Hash) (depth : ℕ) (w : World) : Prop where
  announces : AnnouncesLeaves w
  count : w.pool.leafCount = w.pool.treeLeaves.length
  root : RootInvariant H depth w.pool

/-- An action that does not settle privately keeps the record. -/
theorem Recorded.step (hw : Recorded host.poseidon depth w) {a : Action}
    (ha : ¬ SettlesPrivately a) (h : Pool.step host a w = some w') :
  Recorded host.poseidon depth w'
  := by
  rcases step_cases h with ⟨tx, c, rfl, hexec⟩ | ⟨hother, hkeep⟩
  · obtain ⟨commitments, happends, hcount⟩ := Call.exec_appends hexec
    constructor
    · apply hw.announces.call hw.count ha hexec
    · rw [hcount, happends.treeLeaves_eq, List.length_append, hw.count]
    · apply hw.root.appends happends
  · constructor
    · rw [AnnouncesLeaves, step_events hother h, hkeep]
      exact hw.announces
    · rw [hkeep]
      exact hw.count
    · rw [hkeep]
      exact hw.root

end

/-- From a pool that has just been made, the audit after a run passes if every leaf was
appended by a deposit, the server returns all events of the pool in at most 50 pages, and
coinutils computes the root of the tree. -/
theorem audit_ok (host : Host) (admin usdcSac verifier nullifierRegistry : Address)
    (depth : ℕ) (poolId chainId : UInt32) (registry : NullifierRegistry.State)
    (tokens : Token.Ledger) (sequence : ℕ) (actions : List Action) (genesis : World)
    (hgenesis : genesis = World.init (State.constructor admin usdcSac verifier nullifierRegistry
      depth poolId chainId) registry tokens sequence)
    (hdeposits : ∀ a ∈ trace host genesis actions, ¬ SettlesPrivately a)
    (server : Server) (poolContract : Text) (lookbacks : List ℕ) (pages : List Page)
    (hserver : server.Returns poolContract lookbacks
      ((run host genesis actions).events.map emitted) pages)
    (hpages : pages.length ≤ 50) (coinutils : List Text → ℕ)
    (hcoinutils : ComputesRoot host.poseidon depth coinutils) :
  (compareRoots poolContract coinutils
    (readDepositLeavesFromEvents server poolContract lookbacks)
    (readOnchainRoot (run host genesis actions).pool) .events).status = .ok
  := by
  have hrecorded : Recorded host.poseidon depth (run host genesis actions) := by
    apply Machine.invariant_run_of_trace (C := fun a => ¬ SettlesPrivately a) _ actions _ hdeposits
    · subst hgenesis
      constructor
      · rfl
      · rfl
      · exact ⟨rfl, fun _ => rfl, fun hne => absurd rfl hne⟩
    · intro w a w' hw ha h
      apply hw.step ha h
  rw [readDepositLeaves_eq hrecorded.announces hserver hpages]
  apply hrecorded.root.compareRoots_ok hcoinutils

/-! ### An audit of the deployment -/

/-- A server that has all events in every window, with cursors that count the events. -/
def serving (latestSequence : ℕ) (events : List ContractEvent) : Server where
  latestSequence := latestSequence
  getEvents r :=
    let start :=
      match r.origin with
      | .startLedger _ => 0
      | .cursor t => t.length
    let page := (events.drop start).take r.limit
    some ⟨page, some (List.replicate (start + page.length) '1')⟩

/-- The server returns up to 100 events in one page and ends with an empty one. -/
theorem serving_returns {events : List ContractEvent} (hpos : 0 < events.length)
    (hlength : events.length ≤ 100) (latestSequence : ℕ) (poolContract : Text) :
  (serving latestSequence events).Returns poolContract defaultLookbacks events
    [⟨events, some (List.replicate events.length '1')⟩,
      ⟨[], some (List.replicate events.length '1')⟩]
  := by
  have hne := List.ne_nil_of_length_pos hpos
  have hfirst : ∀ n, (serving latestSequence events).getEvents
      (request poolContract (.startLedger n))
        = some ⟨events, some (List.replicate events.length '1')⟩ := by
    intro n
    simp [serving, request, hlength]
  have hcursor : List.replicate events.length '1' ≠ [] := by
    simpa using hne
  constructor
  · use [], 9000, [4000, 2000], rfl
    constructor
    · intro b hb
      cases hb
    · apply Server.Delivers.more (hfirst _) (t := List.replicate events.length '1')
      · simp [Page.next, hne, hcursor]
      · apply Server.Delivers.last
        · simp [serving, request]
        · rfl
  · simp
  · intro origin p hp e he
    obtain rfl := Option.some.inj hp
    apply List.mem_of_mem_drop (List.mem_of_mem_take he)

/-- The root of the tree with the leaves that decimal texts denote. -/
def treeRootOf (H : Hash) (depth : ℕ) (commitments : List Text) : ℕ :=
  match (LeanIMT.insertAll H (LeanIMT.new H depth)
    (commitments.map fun t => BitVec.ofNat 256 ((toInt? t).getD 0).toNat)).map LeanIMT.root with
  | .ok root => root.toNat
  | .error _ => 0

theorem computesRoot_treeRootOf (H : Hash) (depth : ℕ) :
  ComputesRoot H depth (treeRootOf H depth)
  := by
  intro leaves root hroot
  have hread : ((leaves.map fun x => decimal x.toNat).map fun t =>
      BitVec.ofNat 256 ((toInt? t).getD 0).toNat) = leaves := by
    rw [List.map_map]
    apply List.map_id''
    intro x
    simp [toInt?_decimal]
  rw [treeRootOf, hread, hroot]

open Deployment

/-- The audit passes after the deposit of a note. -/
theorem deposited_audit_ok :
  (compareRoots "pool".toList (treeRootOf poseidon255 12)
    (readDepositLeavesFromEvents (serving 120 ((deposited usdc).events.map emitted)) "pool".toList
      defaultLookbacks)
    (readOnchainRoot (deposited usdc).pool) .events).status = .ok
  := by
  have hlength : ((deposited usdc).events.map emitted).length = 3 := by
    decide +kernel
  have hserver := serving_returns (by omega : 0 < ((deposited usdc).events.map emitted).length)
    (by omega) 120 "pool".toList
  have hdeposits : ∀ a ∈ trace quoteHost (genesis usdc) (setup ++ [depositNote]),
      ¬ SettlesPrivately a := by
    intro a ha
    have hmem := (Machine.trace_sublist _ _).subset ha
    simp only [setup, adminCall, depositNote, List.cons_append, List.nil_append, List.mem_cons,
      List.not_mem_nil, or_false] at hmem
    rcases hmem with rfl | rfl | rfl | rfl | rfl | rfl | rfl <;> exact id
  apply audit_ok quoteHost admin usdc withdrawVerifier nullifierRegistry 12 1 27
    (genesis usdc).registry (genesis usdc).tokens 100 (setup ++ [depositNote]) (genesis usdc) rfl
    hdeposits _ _ _ _ hserver (by decide) _ (computesRoot_treeRootOf poseidon255 12)

/-- The world after the deposits of two notes and their settlement. -/
def settled : World :=
  run (crossHost largeHash largeSignatures) (genesis usdc) (crossed largeHash largeSignatures)

/-- The root over the last deposit alone. -/
def latestRoot : Word := 0x40b9a32d109558779c9a2aeb84f02ee7d6dd18a11233d19bb0e8dfc281b161a4

/-- All actions succeed, two deposits are announced, and the root of the pool is neither that
of both deposits nor that of the last. -/
theorem settled_roots :
  (trace (crossHost largeHash largeSignatures) (genesis usdc)
      (crossed largeHash largeSignatures)).length = (crossed largeHash largeSignatures).length
    ∧ settled.events.length = 5
    ∧ settled.events.filterMap announced = [(0, commitment), (1, commitmentB)]
    ∧ (LeanIMT.insertAll poseidon255 (LeanIMT.new poseidon255 12)
        [commitment, commitmentB]).map LeanIMT.root = .ok pairRoot
    ∧ (LeanIMT.insertAll poseidon255 (LeanIMT.new poseidon255 12)
        [commitmentB]).map LeanIMT.root = .ok latestRoot
    ∧ norm (readOnchainRoot settled.pool) ≠ norm ("0x".toList ++ hexBytes pairRoot.toBytes)
    ∧ norm (readOnchainRoot settled.pool) ≠ norm ("0x".toList ++ hexBytes latestRoot.toBytes)
  := by
  decide +kernel

/-- Although the server returns all events of the pool, in two pages, and coinutils computes
the root of its tree, the audit after the settlement raises an alarm. -/
theorem settled_false_alarm :
  trace (crossHost largeHash largeSignatures) (genesis usdc) (crossed largeHash largeSignatures)
      = crossed largeHash largeSignatures
    ∧ (∃ pages, pages.length ≤ 50 ∧ (serving 120 (settled.events.map emitted)).Returns
        "pool".toList defaultLookbacks (settled.events.map emitted) pages)
    ∧ ComputesRoot poseidon255 12 (treeRootOf poseidon255 12)
    ∧ (compareRoots "pool".toList (treeRootOf poseidon255 12)
        (readDepositLeavesFromEvents (serving 120 (settled.events.map emitted)) "pool".toList
          defaultLookbacks)
        (readOnchainRoot settled.pool) .events).status = .rootMismatchCritical
  := by
  obtain ⟨htrace, hlength, hannounced, hpair, hlatest, hnePair, hneLatest⟩ := settled_roots
  have hcoinutils := computesRoot_treeRootOf poseidon255 12
  have hlength' : (settled.events.map emitted).length = 5 := by
    rw [List.length_map, hlength]
  have hserver := serving_returns (by omega : 0 < (settled.events.map emitted).length) (by omega)
    120 "pool".toList
  have hannounced' : settled.events.filterMap announced
      = [commitment, commitmentB].mapIdx Prod.mk := hannounced
  have hleaves := readDepositLeaves_eq hannounced' hserver (by decide)
  have hcumulative := hcoinutils.recomputeRoot_eq (List.cons_ne_nil _ _) hpair
  have hlast := hcoinutils.recomputeRoot_eq (List.cons_ne_nil _ _) hlatest
  refine ⟨(Machine.trace_sublist _ _).eq_of_length htrace, ⟨_, ?_, hserver⟩, hcoinutils, ?_⟩
  · decide
  · rw [hleaves, compareRoots]
    simp only [sortLeaves_mapIdx, map_commitmentDecimal, hcumulative]
    rw [if_neg]
    rintro (h | h)
    · apply hnePair h
    · apply hneLatest
      apply h.trans
      exact congrArg norm hlast

end Shade.Auditor
