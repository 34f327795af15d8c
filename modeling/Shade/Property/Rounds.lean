import Shade.Committee.Coordinator
import Shade.Property.Matching

/-!
# One round for each session

At most one session is open at any time: a session is made only if none is open, and no session is
opened again. A tick of the timer therefore finds at most one session, and rounds begin with open
sessions only. From this it follows that a session has at most one round and that no intent is
added to it any more once its round has started.

What a step of a round does to the process is said once: it keeps the intents of the sessions, it
opens no session, and no intent comes up for matching that was not up for matching before.
-/

namespace Shade.Committee

open Text Machine

variable {s s' : Session} {nodes : List Text} {crypto : Crypto} {sort : List Intent → List Intent}

/-! ### What rounds do to sessions -/

/-- Only the shares of a session may differ. -/
structure Session.SameButShares (s s' : Session) : Prop where
  sessionId_eq : s'.sessionId = s.sessionId
  status_eq : s'.status = s.status
  intents_eq : s'.intents = s.intents
  signedBatch_eq : s'.signedBatch = s.signedBatch

theorem Session.SameButShares.refl (s : Session) :
  s.SameButShares s
  := ⟨rfl, rfl, rfl, rfl⟩

theorem Session.SameButShares.trans {s₁ s₂ s₃ : Session} (h : s₁.SameButShares s₂)
    (h' : s₂.SameButShares s₃) :
  s₁.SameButShares s₃
  where
  sessionId_eq := h'.sessionId_eq.trans h.sessionId_eq
  status_eq := h'.status_eq.trans h.status_eq
  intents_eq := h'.intents_eq.trans h.intents_eq
  signedBatch_eq := h'.signedBatch_eq.trans h.signedBatch_eq

/-- A round has left a session behind: it is not open, has its intents, and is signed if there is
a batch. The matches of the batch are those of intents that have the identifiers of the session. -/
structure Session.Rounded (sort : List Intent → List Intent) (s s' : Session)
    (batch : Option SignedMatchBatch) : Prop where
  sessionId_eq : s'.sessionId = s.sessionId
  intents_eq : s'.intents = s.intents
  not_opened : s'.status ≠ .opened
  unsigned : batch = none → s'.signedBatch = s.signedBatch
  signed : ∀ b, batch = some b → s'.status = .signed ∧ s'.signedBatch = some b
    ∧ ∃ is : List Intent, is.map Intent.intentId = OrderedMap.keys s.intents
      ∧ b.matchList = matchIntents sort is

theorem Session.foldl_addShare (intentId : Text) (shares : List EncryptedShare) (s : Session) :
  s.SameButShares (shares.foldl (fun s encShare => s.addShare intentId encShare) s)
  := by
  induction shares generalizing s with
  | nil => apply Session.SameButShares.refl
  | cons share shares ih =>
      apply Session.SameButShares.trans _ (ih (s.addShare intentId share))
      exact ⟨rfl, rfl, rfl, rfl⟩

/-- An intent that is added changes the intents and the shares. -/
theorem Session.addIntent_same (s : Session) (intent : MpcIntent) :
  Session.SameButShares { s with intents := OrderedMap.set s.intents intent.intentId intent }
    (s.addIntent intent)
  := Session.foldl_addShare _ _ _

theorem map_intentId_reconstructAll {l : List (Text × MpcIntent)} {is : List Intent}
    (h : s.reconstructAll nodes l = .ok is) :
  is.map Intent.intentId = l.map Prod.fst
  := by
  induction l generalizing is with
  | nil =>
      cases h
      rfl
  | cons x l ih =>
      obtain ⟨intentId, intent⟩ := x
      rw [Session.reconstructAll] at h
      split at h
      · cases h
      · split at h
        · cases h
        · cases hrest : s.reconstructAll nodes l with
          | error e =>
              rw [hrest] at h
              cases h
          | ok rest =>
              rw [hrest] at h
              cases h
              rw [List.map_cons, List.map_cons, ih hrest]

/-- What comes of the matching of a session. -/
theorem Session.matchAll_cases (sort : List Intent → List Intent) (nodes : List Text)
    (s : Session) :
  s.SameButShares (s.matchAll sort nodes).1
    ∧ (∀ matchList, (s.matchAll sort nodes).2 = some matchList →
      ∃ is : List Intent, is.map Intent.intentId = OrderedMap.keys s.intents
        ∧ matchList = matchIntents sort is)
    ∨ s.matchAll sort nodes = (s.withStatus .failed, none)
  := by
  rw [Session.matchAll]
  split
  · exact .inr rfl
  · left
    use Session.SameButShares.refl s
    intro matchList h
    cases h
  · case h_3 is his =>
      left
      use ⟨rfl, rfl, rfl, rfl⟩
      intro matchList h
      cases h
      use is, map_intentId_reconstructAll his

theorem Session.decryptAll_same (crypto : Crypto) (nodes : List Text) (s : Session) :
  s.SameButShares (s.decryptAll crypto nodes).1
  := by
  induction nodes generalizing s with
  | nil => apply Session.SameButShares.refl
  | cons nodeId nodes ih =>
      rw [Session.decryptAll]
      obtain ⟨shares, done⟩ := decryptEntries crypto nodeId s.shares
      dsimp only
      split
      · apply Session.SameButShares.trans _ (ih { s with shares := shares })
        exact ⟨rfl, rfl, rfl, rfl⟩
      · exact ⟨rfl, rfl, rfl, rfl⟩

theorem Session.foldl_storeAnswer (answers : List DecryptAnswer) (s : Session) :
  s.SameButShares (answers.foldl Session.storeAnswer s)
  := by
  induction answers generalizing s with
  | nil => apply Session.SameButShares.refl
  | cons answer answers ih =>
      apply Session.SameButShares.trans _ (ih (s.storeAnswer answer))
      exact ⟨rfl, rfl, rfl, rfl⟩

/-- What comes of a round of the combined server. -/
theorem runMatchingRound_rounded (crypto : Crypto) (sort : List Intent → List Intent)
    (nodes : List Text) (batchId : Text) (s : Session) :
  s.Rounded sort (runMatchingRound crypto sort nodes batchId s).1
    (runMatchingRound crypto sort nodes batchId s).2
  := by
  have hsame := (s.withStatus .matching).decryptAll_same crypto nodes
  rw [runMatchingRound]
  generalize (s.withStatus .matching).decryptAll crypto nodes = r at hsame
  obtain ⟨decrypted, done⟩ := r
  dsimp only at hsame ⊢
  split
  · have hcases := decrypted.matchAll_cases sort nodes
    generalize decrypted.matchAll sort nodes = m at hcases
    obtain ⟨matched, answer⟩ := m
    rcases hcases with ⟨hmatched, hids⟩ | heq
    · have hall := hsame.trans hmatched
      cases answer with
      | none =>
          use hall.sessionId_eq, hall.intents_eq
          · rw [hall.status_eq]
            exact fun h => nomatch h
          · exact fun _ => hall.signedBatch_eq
          · intro b hb
            cases hb
      | some matchList =>
          obtain ⟨is, his, hmatch⟩ := hids matchList rfl
          use hall.sessionId_eq, hall.intents_eq
          · exact fun h => nomatch h
          · exact fun h => nomatch h
          · intro b hb
            cases hb
            use rfl, rfl, is
            rw [his, hsame.intents_eq]
            exact ⟨rfl, hmatch⟩
    · cases heq
      use hsame.sessionId_eq, hsame.intents_eq
      · exact fun h => nomatch h
      · exact fun _ => hsame.signedBatch_eq
      · intro b hb
        cases hb
  · use hsame.sessionId_eq, hsame.intents_eq
    · exact fun h => nomatch h
    · exact fun _ => hsame.signedBatch_eq
    · intro b hb
      cases hb

/-- What comes of the answers of the nodes that were asked to decrypt. -/
theorem afterDecrypt_cases (sort : List Intent → List Intent) (nodes : List Text)
    (answers : List (Option DecryptAnswer)) (s : Session) :
  s.SameButShares (afterDecrypt sort nodes answers s).1
      ∧ (∀ matchList, (afterDecrypt sort nodes answers s).2 = some matchList →
        ∃ is : List Intent, is.map Intent.intentId = OrderedMap.keys s.intents
          ∧ matchList = matchIntents sort is)
    ∨ (afterDecrypt sort nodes answers s).2 = none
      ∧ s.Rounded sort (afterDecrypt sort nodes answers s).1 none
      ∧ (afterDecrypt sort nodes answers s).1.status = .failed
  := by
  rw [afterDecrypt]
  split
  · right
    use rfl
    constructor
    · use rfl, rfl
      · exact fun h => nomatch h
      · exact fun _ => rfl
      · intro b hb
        cases hb
    · rfl
  · have hsame := Session.foldl_storeAnswer (answers.filterMap id) s
    rcases ((answers.filterMap id).foldl Session.storeAnswer s).matchAll_cases sort nodes with
      ⟨hmatched, hids⟩ | heq
    · left
      use hsame.trans hmatched
      rw [hsame.intents_eq] at hids
      apply hids
    · right
      rw [heq]
      use rfl
      constructor
      · use hsame.sessionId_eq, hsame.intents_eq
        · exact fun h => nomatch h
        · exact fun _ => hsame.signedBatch_eq
        · intro b hb
          cases hb
      · rfl

/-- What comes of the answers of the nodes that were asked to sign. -/
theorem afterSign_rounded {batchId : Text} {matchList : List MatchResult}
    {answers : List (Option NodeSignature)}
    (hids : ∃ is : List Intent, is.map Intent.intentId = OrderedMap.keys s.intents
      ∧ matchList = matchIntents sort is) :
  s.Rounded sort (afterSign crypto nodes batchId matchList answers s).1
      (afterSign crypto nodes batchId matchList answers s).2
    ∧ (afterSign crypto nodes batchId matchList answers s).1.status ≠ .matching
  := by
  rw [afterSign]
  dsimp only
  split
  · constructor
    · use rfl, rfl
      · exact fun h => nomatch h
      · exact fun _ => rfl
      · intro b hb
        cases hb
    · exact fun h => nomatch h
  · constructor
    · use rfl, rfl
      · exact fun h => nomatch h
      · exact fun h => nomatch h
      · intro b hb
        cases hb
        use rfl, rfl
        apply hids
    · exact fun h => nomatch h

/-! ### What holds of the process -/

/-- The session with which a task runs a round. -/
def CommitteeTask.ref? : CommitteeTask → Option ℕ
  | .decrypting ref _ => some ref
  | .signing ref _ _ _ => some ref
  | _ => none

/-- The sessions that a task has not come to yet. -/
def CommitteeTask.rest : CommitteeTask → List ℕ
  | .idle => []
  | .decrypting _ rest => rest
  | .signing _ _ _ rest => rest
  | .resumed rest => rest

/-- The matches for which a task waits are those of the intents of a session. -/
def CommitteeTask.MatchesOf (sort : List Intent → List Intent) (s : Session) :
    CommitteeTask → Prop
  | .signing _ _ matchList _ => ∃ is : List Intent,
      is.map Intent.intentId = OrderedMap.keys s.intents ∧ matchList = matchIntents sort is
  | _ => True

/-- What holds of the process: at most one session is open, and it is in the map; tasks have no
sessions left to come to; a task that runs a round is the only one with its session, which is being
matched; rounds have started with different sessions that are not open; and the batches are those
of different sessions that are signed. -/
structure Coordinator.Sound (sort : List Intent → List Intent) (w : Coordinator) : Prop where
  one_open : ∀ (i j : ℕ) (s s' : Session), w.heap[i]? = some s → w.heap[j]? = some s' →
    s.status = .opened → s'.status = .opened → i = j
  listed : ∀ (i : ℕ) (s : Session), w.heap[i]? = some s → s.status = .opened →
    i ∈ w.sessions.map Prod.snd
  refs : (w.sessions.map Prod.snd).Nodup ∧ ∀ i ∈ w.sessions.map Prod.snd, i < w.heap.length
  rest : ∀ p, (w.tasks p).rest = []
  matching : ∀ p ref, (w.tasks p).ref? = some ref → ∃ s, w.heap[ref]? = some s
    ∧ s.status = .matching ∧ (w.tasks p).MatchesOf sort s
  alone : ∀ p q ref, (w.tasks p).ref? = some ref → (w.tasks q).ref? = some ref → p = q
  started : w.started.Nodup ∧ ∀ ref ∈ w.started, ∃ s, w.heap[ref]? = some s ∧ s.status ≠ .opened
  produced : (w.produced.map Prod.fst).Nodup ∧ ∀ x ∈ w.produced, ∃ s, w.heap[x.1]? = some s
    ∧ s.status = .signed ∧ s.signedBatch = some x.2

/-- The identifiers of the intents that a batch matches. -/
def SignedMatchBatch.ids (b : SignedMatchBatch) : List Text := b.matchList.flatMap MatchResult.ids

/-- The identifiers of the intents that a task may still match. -/
def CommitteeTask.atStake (heap : List Session) : CommitteeTask → List Text
  | .decrypting ref _ => ((heap[ref]?).map fun s => OrderedMap.keys s.intents).getD []
  | .signing _ _ matchList _ => matchList.flatMap MatchResult.ids
  | _ => []

/-- An intent of a session is up for matching, or it is matched: the session is open, a round may
still match the intent, or a batch of the session does. -/
inductive Coordinator.Live (w : Coordinator) (ref : ℕ) (intentId : Text) : Prop
  | waiting {s : Session} (hs : w.heap[ref]? = some s) (hopen : s.status = .opened)
      (hid : intentId ∈ OrderedMap.keys s.intents)
  | running {p : ℕ} (href : (w.tasks p).ref? = some ref)
      (hid : intentId ∈ (w.tasks p).atStake w.heap)
  | done {b : SignedMatchBatch} (hb : (ref, b) ∈ w.produced) (hid : intentId ∈ b.ids)

/-- A step of a round has been taken: sessions keep their intents, none is opened, no more intents
are live, and the batches that are new match intents. -/
structure Coordinator.Narrows (sort : List Intent → List Intent) (w w' : Coordinator) :
    Prop where
  length_eq : w'.heap.length = w.heap.length
  sessions_eq : w'.sessions = w.sessions
  session : ∀ (i : ℕ) (s s' : Session), w.heap[i]? = some s → w'.heap[i]? = some s' →
    s'.sessionId = s.sessionId ∧ s'.intents = s.intents ∧ (s'.status = .opened → s' = s)
  live : Sorts sort → ∀ r intentId, w'.Live r intentId → w.Live r intentId
  batches : ∀ x ∈ w'.produced, x ∈ w.produced
    ∨ ∃ is : List Intent, x.2.matchList = matchIntents sort is

variable {w w' : Coordinator} {cfg : Config} {p ref : ℕ} {t : CommitteeTask}
  {batch : Option SignedMatchBatch}

theorem Coordinator.initial_sound (sort : List Intent → List Intent) :
  initial.Sound sort
  := by
  constructor
  · intro i j s s' hs
    cases hs
  · intro i s hs
    cases hs
  · use List.nodup_nil
    intro i hi
    cases hi
  · intro p
    rfl
  · intro p ref h
    cases h
  · intro p q ref h
    cases h
  · use List.nodup_nil
    intro ref h
    cases h
  · use List.nodup_nil
    intro x h
    cases h

/-- The sessions after one of them has changed. -/
theorem getElem?_set_ref (hs : w.heap[ref]? = some s) (i : ℕ) :
  (w.heap.set ref s')[i]? = if ref = i then some s' else w.heap[i]?
  := by
  have hlt := (List.getElem?_eq_some_iff.mp hs).1
  rw [List.getElem?_set, if_pos hlt]

theorem Coordinator.tasks_task (q : ℕ) :
  (w.task p t).tasks q = if q = p then t else w.tasks q
  := Function.update_apply _ _ _ _

/-- A task goes on without changing a session. -/
theorem Coordinator.Narrows.task (href : t.ref? = none) :
  w.Narrows sort (w.task p t)
  := by
  constructor
  · rfl
  · rfl
  · intro i s s' hs hs'
    obtain rfl := Option.some.inj (hs.symm.trans hs')
    use rfl, rfl
    exact fun _ => rfl
  · rintro hsort r intentId (⟨hs, hopen, hid⟩ | ⟨hr, hid⟩ | ⟨hb, hid⟩)
    · exact .waiting hs hopen hid
    · rw [Coordinator.tasks_task] at hr hid
      split at hr
      · rw [href] at hr
        cases hr
      · case isFalse hq =>
          rw [if_neg hq] at hid
          exact .running hr hid
    · exact .done hb hid
  · intro x hx
    exact .inl hx

/-- A task goes on without changing a session. -/
theorem Coordinator.Sound.task (h : w.Sound sort) (hrest : t.rest = []) (href : t.ref? = none) :
  (w.task p t).Sound sort
  := by
  have htask : ∀ q r, ((w.task p t).tasks q).ref? = some r → (w.tasks q).ref? = some r
      ∧ (w.task p t).tasks q = w.tasks q := by
    intro q r hr
    rw [Coordinator.tasks_task] at hr ⊢
    split at hr
    · rw [href] at hr
      cases hr
    · case isFalse hq =>
        rw [if_neg hq]
        use hr
  constructor
  · apply h.one_open
  · apply h.listed
  · apply h.refs
  · intro q
    rw [Coordinator.tasks_task]
    split
    · apply hrest
    · apply h.rest
  · intro q r hr
    obtain ⟨hr, heq⟩ := htask q r hr
    rw [heq]
    apply h.matching q r hr
  · intro q q' r hq hq'
    apply h.alone q q' r (htask q r hq).1 (htask q' r hq').1
  · apply h.started
  · apply h.produced

/-- A session that is open after one has changed that is not open then is another one. -/
theorem getElem?_of_set_open (hs : w.heap[ref]? = some s) (hclosed : s'.status ≠ .opened) {i : ℕ}
    {s₁ : Session} (h : (w.heap.set ref s')[i]? = some s₁) (hopen : s₁.status = .opened) :
  w.heap[i]? = some s₁
  := by
  rw [getElem?_set_ref hs] at h
  split at h
  · cases h
    exact absurd hopen hclosed
  · apply h

/-- A task goes on with a session with which no other task runs a round. -/
theorem Coordinator.Sound.alone_task (h : w.Sound sort)
    (halone : ∀ q, (w.tasks q).ref? = some ref → q = p) (href : ∀ r, t.ref? = some r → r = ref)
    {q q' r : ℕ} (hr : ((w.task p t).tasks q).ref? = some r)
    (hr' : ((w.task p t).tasks q').ref? = some r) :
  q = q'
  := by
  rw [Coordinator.tasks_task] at hr hr'
  split at hr
  · case isTrue hq =>
      obtain rfl := href r hr
      split at hr'
      · case isTrue hq' => rw [hq, hq']
      · rw [hq, halone q' hr']
  · split at hr'
    · case isTrue hq' =>
        obtain rfl := href r hr'
        rw [hq', halone q hr]
    · apply h.alone q q' r hr hr'

/-- The batches after a round has gone on with a session that had none: they are those of different
sessions that are signed. -/
theorem Coordinator.Sound.produced_produce (h : w.Sound sort) (hs : w.heap[ref]? = some s)
    (hround : s.Rounded sort s' batch) (hunsigned : s.status ≠ .signed) :
  ((w.produce ref batch).produced.map Prod.fst).Nodup
    ∧ ∀ x ∈ (w.produce ref batch).produced, ∃ s, (w.heap.set ref s')[x.1]? = some s
      ∧ s.status = .signed ∧ s.signedBatch = some x.2
  := by
  have hother : ∀ x ∈ w.produced, ref ≠ x.1 := by
    rintro x hx rfl
    obtain ⟨s₁, hs₁, hsigned, -⟩ := h.produced.2 x hx
    obtain rfl := Option.some.inj (hs.symm.trans hs₁)
    contradiction
  constructor
  · change ((w.produced ++ _).map Prod.fst).Nodup
    rw [List.map_append, List.nodup_append]
    use h.produced.1
    constructor
    · cases batch with
      | none => apply List.nodup_nil
      | some b => apply List.nodup_singleton
    · rintro r hr r' hr' rfl
      obtain ⟨x, hx, rfl⟩ := List.mem_map.mp hr
      cases batch with
      | none => cases hr'
      | some b => exact hother x hx (List.mem_singleton.mp hr').symm
  · intro x hx
    rw [getElem?_set_ref hs]
    rcases List.mem_append.mp hx with hx | hx
    · rw [if_neg (hother x hx)]
      apply h.produced.2 x hx
    · cases batch with
      | none => cases hx
      | some b =>
          rw [List.mem_singleton.mp hx, if_pos rfl]
          obtain ⟨hsigned, hb, -⟩ := hround.signed b rfl
          use s', rfl

/-- A round goes on with a session: the session is not open afterwards, the task runs a round only
if the session is being matched, and a batch is that of the session. -/
theorem Coordinator.Sound.advance (h : w.Sound sort) (hs : w.heap[ref]? = some s)
    (hround : s.Rounded sort s' batch) (hunsigned : s.status ≠ .signed)
    (halone : ∀ q, (w.tasks q).ref? = some ref → q = p) (hrest : t.rest = [])
    (href : ∀ r, t.ref? = some r → r = ref ∧ s'.status = .matching ∧ t.MatchesOf sort s')
    {started : List ℕ} (hnodup : started.Nodup) (hsub : ∀ r ∈ started, r = ref ∨ r ∈ w.started) :
  Coordinator.Sound sort
    { (w.setSession ref s').task p t with
      started := started
      produced := (w.produce ref batch).produced }
  := by
  have hheap : ∀ i : ℕ, (w.heap.set ref s')[i]? = if ref = i then some s' else w.heap[i]? :=
    getElem?_set_ref hs
  have hclosed : ∀ {i : ℕ} {s₁ : Session}, (w.heap.set ref s')[i]? = some s₁ →
      s₁.status = .opened → w.heap[i]? = some s₁ :=
    getElem?_of_set_open hs hround.not_opened
  constructor
  · intro i j s₁ s₂ h₁ h₂ hopen₁ hopen₂
    apply h.one_open i j s₁ s₂ (hclosed h₁ hopen₁) (hclosed h₂ hopen₂) hopen₁ hopen₂
  · intro i s₁ h₁ hopen₁
    apply h.listed i s₁ (hclosed h₁ hopen₁) hopen₁
  · use h.refs.1
    intro i hi
    change i < (w.heap.set ref s').length
    rw [List.length_set]
    apply h.refs.2 i hi
  · intro q
    change ((w.task p t).tasks q).rest = []
    rw [Coordinator.tasks_task]
    split
    · apply hrest
    · apply h.rest
  · intro q r hr
    change ((w.task p t).tasks q).ref? = _ at hr
    change ∃ s, (w.heap.set ref s')[r]? = some s ∧ _
      ∧ ((w.task p t).tasks q).MatchesOf sort s
    rw [Coordinator.tasks_task] at hr ⊢
    split at hr
    · case isTrue hq =>
        obtain ⟨rfl, hmatching, hmatch⟩ := href r hr
        use s'
        rw [hheap, if_pos rfl, if_pos hq]
        use rfl
    · case isFalse hq =>
        have hne : ref ≠ r := by
          rintro rfl
          apply hq (halone q hr)
        rw [hheap, if_neg hne, if_neg hq]
        apply h.matching q r hr
  · intro q q' r hr hr'
    apply h.alone_task halone (fun r hr => (href r hr).1) hr hr'
  · use hnodup
    intro r hr
    change ∃ s, (w.heap.set ref s')[r]? = some s ∧ _
    rw [hheap]
    split
    · use s', rfl
      apply hround.not_opened
    · case isFalse hother =>
        rcases hsub r hr with rfl | hr
        · contradiction
        · apply h.started.2 r hr
  · apply h.produced_produce hs hround hunsigned

theorem atStake_set (hs : w.heap[ref]? = some s) (heq : s'.intents = s.intents) :
  t.atStake (w.heap.set ref s') = t.atStake w.heap
  := by
  cases t with
  | decrypting r rest =>
      rw [CommitteeTask.atStake, CommitteeTask.atStake, getElem?_set_ref hs]
      split
      · case isTrue href =>
          rw [← href, hs, Option.map_some, Option.map_some, heq]
      · rfl
  | signing => rfl
  | idle => rfl
  | resumed => rfl

/-- A round goes on with a session: the intents that are up for matching are live before. -/
theorem Coordinator.Narrows.advance (hs : w.heap[ref]? = some s)
    (hround : s.Rounded sort s' batch)
    (href : ∀ r, t.ref? = some r → r = ref)
    (hstake : Sorts sort → ∀ intentId ∈ t.atStake w.heap, w.Live ref intentId)
    (hbatch : Sorts sort → ∀ b, batch = some b → ∀ intentId ∈ b.ids, w.Live ref intentId)
    (started : List ℕ) :
  Coordinator.Narrows sort w
    { (w.setSession ref s').task p t with
      started := started
      produced := (w.produce ref batch).produced }
  := by
  have hheap : ∀ i : ℕ, (w.heap.set ref s')[i]? = if ref = i then some s' else w.heap[i]? :=
    getElem?_set_ref hs
  constructor
  · change (w.heap.set ref s').length = _
    rw [List.length_set]
  · rfl
  · intro i s₁ s₂ h₁ h₂
    change (w.heap.set ref s')[i]? = _ at h₂
    rw [hheap] at h₂
    split at h₂
    · case isTrue heq =>
        subst heq
        cases h₂
        obtain rfl := Option.some.inj (hs.symm.trans h₁)
        use hround.sessionId_eq, hround.intents_eq
        intro hopen
        exact absurd hopen hround.not_opened
    · obtain rfl := Option.some.inj (h₁.symm.trans h₂)
      use rfl, rfl
      exact fun _ => rfl
  · rintro hsort r intentId (⟨h₁, hopen, hid⟩ | ⟨hr, hid⟩ | ⟨hb, hid⟩)
    · exact .waiting (getElem?_of_set_open hs hround.not_opened h₁ hopen) hopen hid
    · change (Function.update w.tasks p t _).ref? = _ at hr
      change intentId ∈ (Function.update w.tasks p t _).atStake (w.heap.set ref s') at hid
      rw [atStake_set hs hround.intents_eq] at hid
      rw [Function.update_apply] at hr hid
      split at hr
      · case isTrue hp =>
          rw [if_pos hp] at hid
          rw [href r hr]
          apply hstake hsort intentId hid
      · case isFalse hp =>
          rw [if_neg hp] at hid
          exact .running hr hid
    · rcases List.mem_append.mp hb with hb | hb
      · exact .done hb hid
      · cases batch with
        | none => cases hb
        | some b =>
            cases List.mem_singleton.mp hb
            apply hbatch hsort _ rfl intentId hid
  · intro x hx
    rcases List.mem_append.mp hx with hx | hx
    · exact .inl hx
    · cases batch with
      | none => cases hx
      | some b =>
          obtain ⟨-, -, is, -, hmatch⟩ := hround.signed b rfl
          rw [List.mem_singleton.mp hx]
          exact .inr ⟨is, hmatch⟩

/-- An open session changes that remains open. -/
theorem Coordinator.Sound.setSession (h : w.Sound sort) (hs : w.heap[ref]? = some s)
    (hstatus : s'.status = s.status) (hopen : s.status = .opened) :
  (w.setSession ref s').Sound sort
  := by
  have hheap : ∀ i : ℕ, (w.heap.set ref s')[i]? = if ref = i then some s' else w.heap[i]? :=
    getElem?_set_ref hs
  have hback : ∀ (i : ℕ) (s₁ : Session), (w.heap.set ref s')[i]? = some s₁ →
      ∃ s₂, w.heap[i]? = some s₂ ∧ s₁.status = s₂.status := by
    intro i s₁ hs₁
    rw [hheap] at hs₁
    split at hs₁
    · case isTrue heq =>
        cases hs₁
        use s, heq ▸ hs
    · use s₁
  have hkeep : ∀ (i : ℕ) (s₁ : Session), w.heap[i]? = some s₁ → s₁.status ≠ .opened →
      (w.heap.set ref s')[i]? = some s₁ := by
    intro i s₁ hs₁ hnot
    rw [hheap]
    split
    · case isTrue heq =>
        subst heq
        obtain rfl := Option.some.inj (hs.symm.trans hs₁)
        contradiction
    · apply hs₁
  constructor
  · intro i j s₁ s₂ h₁ h₂ hopen₁ hopen₂
    obtain ⟨s₃, h₃, hstatus₁⟩ := hback i s₁ h₁
    obtain ⟨s₄, h₄, hstatus₂⟩ := hback j s₂ h₂
    apply h.one_open i j s₃ s₄ h₃ h₄ (hstatus₁ ▸ hopen₁) (hstatus₂ ▸ hopen₂)
  · intro i s₁ h₁ hopen₁
    obtain ⟨s₃, h₃, hstatus₁⟩ := hback i s₁ h₁
    apply h.listed i s₃ h₃ (hstatus₁ ▸ hopen₁)
  · use h.refs.1
    intro i hi
    change i < (w.heap.set ref s').length
    rw [List.length_set]
    apply h.refs.2 i hi
  · apply h.rest
  · intro q r hr
    obtain ⟨s₁, hs₁, hmatching, hmatch⟩ := h.matching q r hr
    use s₁, hkeep r s₁ hs₁ (by rw [hmatching]; exact fun h => nomatch h), hmatching
    apply hmatch
  · apply h.alone
  · use h.started.1
    intro r hr
    obtain ⟨s₁, hs₁, hnot⟩ := h.started.2 r hr
    use s₁, hkeep r s₁ hs₁ hnot
  · use h.produced.1
    intro x hx
    obtain ⟨s₁, hs₁, hsigned, hb⟩ := h.produced.2 x hx
    use s₁, hkeep x.1 s₁ hs₁ (by rw [hsigned]; exact fun h => nomatch h), hsigned

/-- What is not there before a session is made. -/
theorem getElem?_append_new {i : ℕ} {sessionId : Text} {s₁ : Session}
    (h : (w.heap ++ [newSession sessionId])[i]? = some s₁) :
  w.heap[i]? = some s₁ ∨ i = w.heap.length ∧ s₁ = newSession sessionId
  := by
  rcases lt_trichotomy i w.heap.length with hi | rfl | hi
  · rw [List.getElem?_append_left hi] at h
    exact .inl h
  · rw [List.getElem?_concat_length] at h
    exact .inr ⟨rfl, (Option.some.inj h).symm⟩
  · rw [List.getElem?_eq_none (by rw [List.length_append, List.length_singleton]; omega)] at h
    cases h

theorem mem_getOpenSessions {i : ℕ} :
  i ∈ w.getOpenSessions ↔ i ∈ w.sessions.map Prod.snd
    ∧ ∃ s, w.heap[i]? = some s ∧ s.status = .opened
  := by
  simp only [Coordinator.getOpenSessions, List.mem_map, List.mem_filter, Coordinator.isOpen,
    Option.any_eq_true, decide_eq_true_eq]
  constructor
  · rintro ⟨e, ⟨he, hopen⟩, rfl⟩
    use ⟨e, he, rfl⟩
  · rintro ⟨⟨e, he, rfl⟩, hopen⟩
    use e, ⟨he, hopen⟩

/-- A session is made when none is open. -/
theorem Coordinator.Sound.createSession (h : w.Sound sort) (hnone : w.getOpenSessions = [])
    (sessionId : Text) :
  (w.createSession sessionId).Sound sort
  := by
  have hclosed : ∀ (i : ℕ) (s₁ : Session), w.heap[i]? = some s₁ → s₁.status ≠ .opened := by
    intro i s₁ h₁ hopen
    have hmem := mem_getOpenSessions.mpr ⟨h.listed i s₁ h₁ hopen, s₁, h₁, hopen⟩
    rw [hnone] at hmem
    cases hmem
  have hkeep : ∀ (i : ℕ) (s₁ : Session), w.heap[i]? = some s₁ →
      (w.heap ++ [newSession sessionId])[i]? = some s₁ := by
    intro i s₁ h₁
    rw [List.getElem?_append_left (List.getElem?_eq_some_iff.mp h₁).1]
    apply h₁
  have hnew : w.heap.length ∉ w.sessions.map Prod.snd :=
    fun hmem => absurd (h.refs.2 _ hmem) (lt_irrefl _)
  constructor
  · intro i j s₁ s₂ h₁ h₂ hopen₁ hopen₂
    rcases getElem?_append_new h₁ with h₁ | ⟨rfl, -⟩
    · exact absurd hopen₁ (hclosed i s₁ h₁)
    · rcases getElem?_append_new h₂ with h₂ | ⟨rfl, -⟩
      · exact absurd hopen₂ (hclosed j s₂ h₂)
      · rfl
  · intro i s₁ h₁ hopen₁
    rcases getElem?_append_new h₁ with h₁ | ⟨rfl, -⟩
    · exact absurd hopen₁ (hclosed i s₁ h₁)
    · apply List.mem_map.mpr ⟨_, OrderedMap.mem_set_self, rfl⟩
  · use OrderedMap.nodup_values_set h.refs.1 hnew
    intro i hi
    change i < (w.heap ++ [_]).length
    rw [List.length_append, List.length_singleton]
    obtain ⟨e, he, rfl⟩ := List.mem_map.mp hi
    rcases OrderedMap.mem_set he with rfl | he
    · apply Nat.lt_succ_self
    · apply Nat.lt_succ_of_lt (h.refs.2 _ (List.mem_map_of_mem he))
  · apply h.rest
  · intro q r hr
    obtain ⟨s₁, hs₁, hmatching⟩ := h.matching q r hr
    use s₁, hkeep r s₁ hs₁
    apply hmatching
  · apply h.alone
  · use h.started.1
    intro r hr
    obtain ⟨s₁, hs₁, hnot⟩ := h.started.2 r hr
    use s₁, hkeep r s₁ hs₁
  · use h.produced.1
    intro x hx
    obtain ⟨s₁, hs₁, hsigned⟩ := h.produced.2 x hx
    use s₁, hkeep x.1 s₁ hs₁

/-- What holds of the process does not depend on where intents are. -/
theorem Coordinator.Sound.setIntents (h : w.Sound sort) (m : OrderedMap Text Text) :
  Coordinator.Sound sort { w with intentToSession := m }
  := ⟨h.one_open, h.listed, h.refs, h.rest, h.matching, h.alone, h.started, h.produced⟩

/-- An intent is added to the open session. -/
theorem Coordinator.Sound.addIntentTo (h : w.Sound sort) (intent : MpcIntent)
    (hopen : ∀ s, w.heap[ref]? = some s → s.status = .opened) :
  (w.addIntentTo ref intent).Sound sort
  := by
  rw [Coordinator.addIntentTo]
  split
  · apply h
  · case h_2 s hs =>
      have hsame := s.addIntent_same intent
      apply Coordinator.Sound.setIntents
      apply h.setSession hs hsame.status_eq (hopen s hs)

/-- The session to which an intent is added. -/
theorem Coordinator.Sound.getOrCreateOpenSession (h : w.Sound sort) (sessionId : Text) :
  (w.getOrCreateOpenSession sessionId).1.Sound sort
    ∧ ∃ s, (w.getOrCreateOpenSession sessionId).1.heap[(w.getOrCreateOpenSession sessionId).2]?
      = some s ∧ s.status = .opened
  := by
  rw [Coordinator.getOrCreateOpenSession]
  split
  · case h_1 ref rest hopen =>
      use h
      have hmem : ref ∈ w.getOpenSessions := by
        rw [hopen]
        apply List.mem_cons_self
      apply (mem_getOpenSessions.mp hmem).2
  · case h_2 hnone =>
      use h.createSession hnone sessionId, newSession sessionId
      exact ⟨List.getElem?_concat_length, rfl⟩

theorem Coordinator.Sound.addIntent (h : w.Sound sort) (sessionId : Text) (intent : MpcIntent) :
  (w.addIntent sessionId intent).Sound sort
  := by
  rw [Coordinator.addIntent]
  obtain ⟨hw, s, hs, hopen⟩ := h.getOrCreateOpenSession sessionId
  apply hw.addIntentTo
  intro s₁ hs₁
  obtain rfl := Option.some.inj (hs.symm.trans hs₁)
  apply hopen

/-! ### The rounds -/

theorem afterRound_rest (s : Session) :
  (Coordinator.afterRound s []).rest = []
  := by
  rw [Coordinator.afterRound]
  split <;> rfl

theorem afterRound_ref (s : Session) (rest : List ℕ) :
  (Coordinator.afterRound s rest).ref? = none
  := by
  rw [Coordinator.afterRound]
  split <;> rfl

/-- The intents that a signed batch matches are those of its session. -/
theorem live_of_signed {b : SignedMatchBatch} (hround : s.Rounded sort s' batch)
    (hids : ∀ intentId ∈ OrderedMap.keys s.intents, w.Live ref intentId) (hsort : Sorts sort)
    (hb : batch = some b) :
  ∀ intentId ∈ b.ids, w.Live ref intentId
  := by
  obtain ⟨-, -, is, his, hmatch⟩ := hround.signed b hb
  intro intentId hid
  rw [SignedMatchBatch.ids, hmatch] at hid
  apply hids
  rw [← his]
  apply (matchIntents_ids hsort is).2 hid

theorem atStake_afterRound (s : Session) (rest : List ℕ) (heap : List Session) :
  (Coordinator.afterRound s rest).atStake heap = []
  := by
  rw [Coordinator.afterRound]
  split <;> rfl

/-- A round begins with an open session. -/
theorem Coordinator.Narrows.beginRound (hs : w.heap[ref]? = some s)
    (hopen : s.status = .opened) (rest : List ℕ) (batchId : Text) :
  w.Narrows cfg.sort (w.beginRound cfg p ref rest batchId s)
  := by
  have hlive : ∀ intentId ∈ OrderedMap.keys s.intents, w.Live ref intentId :=
    fun intentId hid => .waiting hs hopen hid
  rw [Coordinator.beginRound]
  split
  · apply Coordinator.Narrows.task rfl
  · split
    · have hround := runMatchingRound_rounded cfg.crypto cfg.sort cfg.nodes batchId s
      apply Coordinator.Narrows.advance hs hround
      · intro r hr
        rw [afterRound_ref] at hr
        cases hr
      · intro hsort intentId hid
        rw [atStake_afterRound] at hid
        cases hid
      · intro hsort b hb
        apply live_of_signed hround hlive hsort hb
    · have hround : s.Rounded cfg.sort (s.withStatus .matching) none := by
        use rfl, rfl
        · exact fun h => nomatch h
        · exact fun _ => rfl
        · intro b hb
          cases hb
      have hadvance := Coordinator.Narrows.advance (t := .decrypting ref rest) (p := p) hs hround
        (fun r hr => (Option.some.inj hr).symm)
        (by
          intro hsort intentId hid
          rw [CommitteeTask.atStake, hs] at hid
          apply hlive intentId hid)
        (fun hsort b hb => nomatch hb) (w.started ++ [ref])
      have hnone : w.produced ++ ((none : Option SignedMatchBatch).map fun b => (ref, b)).toList
          = w.produced := List.append_nil _
      rw [Coordinator.produce, hnone] at hadvance
      apply hadvance

/-- A round begins with an open session. -/
theorem Coordinator.Sound.beginRound (h : w.Sound cfg.sort) (hs : w.heap[ref]? = some s)
    (hopen : s.status = .opened) (batchId : Text) :
  (w.beginRound cfg p ref [] batchId s).Sound cfg.sort
  := by
  have hnot : ∀ q, (w.tasks q).ref? = some ref → q = p := by
    intro q hq
    obtain ⟨s₁, hs₁, hmatching, -⟩ := h.matching q ref hq
    obtain rfl := Option.some.inj (hs.symm.trans hs₁)
    rw [hopen] at hmatching
    cases hmatching
  have hunsigned : s.status ≠ .signed := by
    rw [hopen]
    exact fun h => nomatch h
  have hnew : ref ∉ w.started := by
    intro hmem
    obtain ⟨s₁, hs₁, hclosed⟩ := h.started.2 ref hmem
    obtain rfl := Option.some.inj (hs.symm.trans hs₁)
    contradiction
  have hnodup : (w.started ++ [ref]).Nodup := by
    rw [List.nodup_append]
    use h.started.1, List.nodup_singleton ref
    rintro r hr r' hr' rfl
    exact hnew (List.mem_singleton.mp hr' ▸ hr)
  have hsub : ∀ r ∈ w.started ++ [ref], r = ref ∨ r ∈ w.started := by
    intro r hr
    rcases List.mem_append.mp hr with hr | hr
    · exact .inr hr
    · exact .inl (List.mem_singleton.mp hr)
  rw [Coordinator.beginRound]
  split
  · apply h.task rfl rfl
  · split
    · have hround := runMatchingRound_rounded cfg.crypto cfg.sort cfg.nodes batchId s
      apply h.advance hs hround hunsigned hnot (afterRound_rest _) _ hnodup hsub
      intro r hr
      rw [afterRound_ref] at hr
      cases hr
    · have hround : s.Rounded cfg.sort (s.withStatus .matching) none := by
        use rfl, rfl
        · exact fun h => nomatch h
        · exact fun _ => rfl
        · intro b hb
          cases hb
      have hadvance := h.advance (t := .decrypting ref []) hs hround hunsigned hnot rfl
        (fun r hr => ⟨(Option.some.inj hr).symm, rfl, trivial⟩) hnodup hsub
      have hnone : w.produced ++ ((none : Option SignedMatchBatch).map fun b => (ref, b)).toList
          = w.produced := List.append_nil _
      rw [Coordinator.produce, hnone] at hadvance
      apply hadvance

/-- The loop of the timer over sessions that are open. -/
theorem Coordinator.Narrows.sweep {refs : List ℕ}
    (hrefs : ∀ i ∈ refs, ∃ s, w.heap[i]? = some s ∧ s.status = .opened) (batchId : Text) :
  w.Narrows cfg.sort (w.sweep cfg p batchId refs)
  := by
  induction refs with
  | nil => apply Coordinator.Narrows.task rfl
  | cons i refs ih =>
      obtain ⟨s, hs, hopen⟩ := hrefs i List.mem_cons_self
      rw [Coordinator.sweep, hs]
      dsimp only
      split
      · apply ih
        intro j hj
        apply hrefs j (List.mem_cons_of_mem i hj)
      · apply Coordinator.Narrows.beginRound hs hopen

/-- The loop of the timer over a session that is open, or none. -/
theorem Coordinator.Sound.sweep (h : w.Sound cfg.sort) {refs : List ℕ}
    (hrefs : refs = [] ∨ ∃ i s, refs = [i] ∧ w.heap[i]? = some s ∧ s.status = .opened)
    (batchId : Text) :
  (w.sweep cfg p batchId refs).Sound cfg.sort
  := by
  rcases hrefs with rfl | ⟨i, s, rfl, hs, hopen⟩
  · apply h.task rfl rfl
  · rw [Coordinator.sweep, hs]
    dsimp only
    split
    · apply h.task rfl rfl
    · apply h.beginRound hs hopen

/-- The timer finds at most one session. -/
theorem Coordinator.Sound.getOpenSessions (h : w.Sound sort) :
  w.getOpenSessions = []
    ∨ ∃ i s, w.getOpenSessions = [i] ∧ w.heap[i]? = some s ∧ s.status = .opened
  := by
  have hmem : ∀ i ∈ w.getOpenSessions, ∃ s, w.heap[i]? = some s ∧ s.status = .opened :=
    fun i hi => (mem_getOpenSessions.mp hi).2
  have hnodup : w.getOpenSessions.Nodup :=
    h.refs.1.sublist (List.filter_sublist.map Prod.snd)
  cases hrefs : w.getOpenSessions with
  | nil => exact .inl rfl
  | cons i rest =>
      rw [hrefs] at hmem hnodup
      right
      obtain ⟨s, hs, hopen⟩ := hmem i List.mem_cons_self
      use i, s
      cases rest with
      | nil => use rfl, hs
      | cons j rest =>
          obtain ⟨s', hs', hopen'⟩ := hmem j (by simp)
          have hij := h.one_open i j s s' hs hs' hopen hopen'
          rw [hij] at hnodup
          simp at hnodup

/-- A round in which nothing is produced. -/
theorem Coordinator.produce_none :
  w.produce ref none = w
  := by
  rw [Coordinator.produce]
  change { w with produced := w.produced ++ [] } = w
  rw [List.append_nil]

/-- The nodes that were asked to decrypt have answered. -/
theorem Coordinator.Narrows.decrypted {rest : List ℕ}
    (htask : w.tasks p = .decrypting ref rest) (hs : w.heap[ref]? = some s)
    (hmatching : s.status = .matching) {answers : List (Option DecryptAnswer)} {batchId : Text}
    (hstep : (match afterDecrypt cfg.sort cfg.nodes answers s with
      | (s', none) => some ((w.setSession ref s').task p (Coordinator.afterRound s' rest))
      | (s', some matchList) =>
          some ((w.setSession ref s').task p (.signing ref batchId matchList rest))) = some w') :
  w.Narrows cfg.sort w'
  := by
  have hlive : ∀ intentId ∈ OrderedMap.keys s.intents, w.Live ref intentId := by
    intro intentId hid
    apply Live.running (p := p)
    · rw [htask]
      rfl
    · rw [htask, CommitteeTask.atStake, hs]
      apply hid
  have hround : ∀ s', s.SameButShares s' → s.Rounded cfg.sort s' none := by
    intro s' hsame
    use hsame.sessionId_eq, hsame.intents_eq
    · rw [hsame.status_eq, hmatching]
      exact fun h => nomatch h
    · exact fun _ => hsame.signedBatch_eq
    · intro b hb
      cases hb
  have hadvance := fun (s' : Session) (t : CommitteeTask) (h : s.Rounded cfg.sort s' none) href
      hstake => Coordinator.Narrows.advance (t := t) (p := p) hs h href hstake
        (fun hsort b hb => nomatch hb) w.started
  simp only [Coordinator.produce_none] at hadvance
  have hafter : ∀ s', s.Rounded cfg.sort s' none →
      w.Narrows cfg.sort ((w.setSession ref s').task p (Coordinator.afterRound s' rest)) := by
    intro s' h
    apply hadvance s' _ h
    · intro r hr
      rw [afterRound_ref] at hr
      cases hr
    · intro hsort intentId hid
      rw [atStake_afterRound] at hid
      cases hid
  have hcases := afterDecrypt_cases cfg.sort cfg.nodes answers s
  generalize afterDecrypt cfg.sort cfg.nodes answers s = r at hcases hstep
  obtain ⟨s', answer⟩ := r
  rcases hcases with ⟨hsame, hids⟩ | ⟨hnone, hrounded, -⟩
  · cases answer with
    | none =>
        cases hstep
        apply hafter s' (hround s' hsame)
    | some matchList =>
        cases hstep
        apply hadvance s' _ (hround s' hsame)
        · exact fun r hr => (Option.some.inj hr).symm
        · intro hsort intentId hid
          obtain ⟨is, his, hmatch⟩ := hids matchList rfl
          apply hlive
          rw [← his]
          rw [CommitteeTask.atStake, hmatch] at hid
          apply (matchIntents_ids hsort is).2 hid
  · obtain rfl := hnone
    cases hstep
    apply hafter s' hrounded

/-- The nodes that were asked to decrypt have answered. -/
theorem Coordinator.Sound.decrypted (h : w.Sound cfg.sort) {rest : List ℕ}
    (htask : w.tasks p = .decrypting ref rest) (hs : w.heap[ref]? = some s)
    {answers : List (Option DecryptAnswer)} {batchId : Text}
    (hstep : (match afterDecrypt cfg.sort cfg.nodes answers s with
      | (s', none) => some ((w.setSession ref s').task p (Coordinator.afterRound s' rest))
      | (s', some matchList) =>
          some ((w.setSession ref s').task p (.signing ref batchId matchList rest))) = some w') :
  w'.Sound cfg.sort
  := by
  have href : (w.tasks p).ref? = some ref := by
    rw [htask]
    rfl
  obtain ⟨s₁, hs₁, hmatching, -⟩ := h.matching p ref href
  obtain rfl := Option.some.inj (hs.symm.trans hs₁)
  have hunsigned : s.status ≠ .signed := by
    rw [hmatching]
    exact fun h => nomatch h
  have hnot : ∀ q, (w.tasks q).ref? = some ref → q = p := fun q hq => h.alone q p ref hq href
  have hrest : rest = [] := by
    have hrest := h.rest p
    rw [htask] at hrest
    apply hrest
  subst hrest
  have hadvance := fun (s' : Session) (t : CommitteeTask)
      (hround : s.Rounded cfg.sort s' none) hrest href =>
    h.advance (t := t) hs hround hunsigned hnot hrest href h.started.1 fun r hr => .inr hr
  simp only [Coordinator.produce_none] at hadvance
  have hround : ∀ s', s.SameButShares s' → s.Rounded cfg.sort s' none := by
    intro s' hsame
    use hsame.sessionId_eq, hsame.intents_eq
    · rw [hsame.status_eq, hmatching]
      exact fun h => nomatch h
    · exact fun _ => hsame.signedBatch_eq
    · intro b hb
      cases hb
  have hcases := afterDecrypt_cases cfg.sort cfg.nodes answers s
  generalize afterDecrypt cfg.sort cfg.nodes answers s = r at hcases hstep
  obtain ⟨s', answer⟩ := r
  rcases hcases with ⟨hsame, hids⟩ | ⟨hnone, hrounded, -⟩
  · cases answer with
    | none =>
        cases hstep
        apply hadvance s' _ (hround s' hsame) (afterRound_rest s')
        intro r hr
        rw [afterRound_ref] at hr
        cases hr
    | some matchList =>
        cases hstep
        apply hadvance s' _ (hround s' hsame) rfl
        intro r hr
        use (Option.some.inj hr).symm, hsame.status_eq.trans hmatching
        obtain ⟨is, his, hmatch⟩ := hids matchList rfl
        use is
        rw [hsame.intents_eq]
        use his
  · obtain rfl := hnone
    cases hstep
    apply hadvance s' _ hrounded (afterRound_rest s')
    intro r hr
    rw [afterRound_ref] at hr
    cases hr

/-- A batch that is signed has the matches that the nodes were asked to sign. -/
theorem matchList_afterSign {batchId : Text} {matchList : List MatchResult}
    {answers : List (Option NodeSignature)} {b : SignedMatchBatch}
    (h : (afterSign crypto nodes batchId matchList answers s).2 = some b) :
  b.matchList = matchList
  := by
  rw [afterSign] at h
  dsimp only at h
  split at h
  · cases h
  · cases h
    rfl

/-- The nodes that were asked to sign have answered. -/
theorem Coordinator.Narrows.signed {rest : List ℕ} {batchId : Text}
    {matchList : List MatchResult} (htask : w.tasks p = .signing ref batchId matchList rest)
    (hs : w.heap[ref]? = some s) (answers : List (Option NodeSignature))
    (hids : ∃ is : List Intent, is.map Intent.intentId = OrderedMap.keys s.intents
      ∧ matchList = matchIntents cfg.sort is) :
  w.Narrows cfg.sort
    (((w.setSession ref (afterSign cfg.crypto cfg.nodes batchId matchList answers s).1).produce ref
      (afterSign cfg.crypto cfg.nodes batchId matchList answers s).2).task p
        (Coordinator.afterRound (afterSign cfg.crypto cfg.nodes batchId matchList answers s).1
          rest))
  := by
  apply Coordinator.Narrows.advance hs (afterSign_rounded hids).1
  · intro r hr
    rw [afterRound_ref] at hr
    cases hr
  · intro hsort intentId hid
    rw [atStake_afterRound] at hid
    cases hid
  · intro hsort b hb intentId hid
    apply Live.running (p := p)
    · rw [htask]
      rfl
    · rw [SignedMatchBatch.ids, matchList_afterSign hb] at hid
      rw [htask]
      apply hid

/-- The nodes that were asked to sign have answered. -/
theorem Coordinator.Sound.signed (h : w.Sound cfg.sort) {rest : List ℕ} {batchId : Text}
    {matchList : List MatchResult} (htask : w.tasks p = .signing ref batchId matchList rest)
    (hs : w.heap[ref]? = some s) (answers : List (Option NodeSignature)) :
  (((w.setSession ref (afterSign cfg.crypto cfg.nodes batchId matchList answers s).1).produce ref
      (afterSign cfg.crypto cfg.nodes batchId matchList answers s).2).task p
        (Coordinator.afterRound (afterSign cfg.crypto cfg.nodes batchId matchList answers s).1
          rest)).Sound cfg.sort
  := by
  have href : (w.tasks p).ref? = some ref := by
    rw [htask]
    rfl
  obtain ⟨s₁, hs₁, hmatching, hids⟩ := h.matching p ref href
  obtain rfl := Option.some.inj (hs.symm.trans hs₁)
  rw [htask] at hids
  have hunsigned : s.status ≠ .signed := by
    rw [hmatching]
    exact fun h => nomatch h
  have hrest : rest = [] := by
    have hrest := h.rest p
    rw [htask] at hrest
    apply hrest
  subst hrest
  apply h.advance hs (afterSign_rounded hids).1 hunsigned
    (fun q hq => h.alone q p ref hq href) (afterRound_rest _) _ h.started.1 fun r hr => .inr hr
  intro r hr
  rw [afterRound_ref] at hr
  cases hr

/-- One step that adds no intent. -/
theorem Coordinator.Sound.narrows (h : w.Sound cfg.sort) {action : CommitteeAction}
    (hstep : committeeStep cfg action w = some w')
    (haction : ∀ intent sessionId, action ≠ .submit intent sessionId) :
  w.Narrows cfg.sort w'
  := by
  cases action with
  | submit intent sessionId => exact absurd rfl (haction intent sessionId)
  | matchSession p sessionId batchId =>
      rw [committeeStep] at hstep
      split at hstep
      · split at hstep
        · case h_1 s hs =>
            split at hstep
            · case isTrue hopen =>
                cases hstep
                apply Coordinator.Narrows.beginRound hs hopen
            · cases hstep
        · cases hstep
      · cases hstep
  | timer p batchId =>
      rw [committeeStep] at hstep
      split at hstep
      · cases hstep
        apply Coordinator.Narrows.sweep
        exact fun i hi => (mem_getOpenSessions.mp hi).2
      · cases hstep
  | resume p batchId =>
      rw [committeeStep] at hstep
      split at hstep
      · case h_1 rest htask =>
          cases hstep
          have hrest := h.rest p
          rw [htask] at hrest
          obtain rfl : rest = [] := hrest
          apply Coordinator.Narrows.task rfl
      · cases hstep
  | decrypted p answers batchId =>
      rw [committeeStep] at hstep
      split at hstep
      · case h_1 ref rest htask =>
          split at hstep
          · case h_1 s hs =>
              obtain ⟨s₁, hs₁, hmatching, -⟩ := h.matching p ref (by rw [htask]; rfl)
              obtain rfl := Option.some.inj (hs.symm.trans hs₁)
              apply Coordinator.Narrows.decrypted htask hs hmatching hstep
          · cases hstep
      · cases hstep
  | signed p answers =>
      rw [committeeStep] at hstep
      split at hstep
      · case h_1 ref batchId matchList rest htask =>
          split at hstep
          · case h_1 s hs =>
              cases hstep
              obtain ⟨s₁, hs₁, -, hids⟩ := h.matching p ref (by rw [htask]; rfl)
              obtain rfl := Option.some.inj (hs.symm.trans hs₁)
              rw [htask] at hids
              apply Coordinator.Narrows.signed htask hs answers hids
          · cases hstep
      · cases hstep
  | raise p =>
      rw [committeeStep] at hstep
      split at hstep
      · cases hstep
        apply Coordinator.Narrows.task rfl
      · cases hstep

/-- One step. -/
theorem Coordinator.Sound.step (h : w.Sound cfg.sort) {action : CommitteeAction}
    (hstep : committeeStep cfg action w = some w') :
  w'.Sound cfg.sort
  := by
  cases action with
  | submit intent sessionId =>
      rw [committeeStep] at hstep
      split at hstep
      · cases hstep
      · cases hstep
        apply h.addIntent
  | matchSession p sessionId batchId =>
      rw [committeeStep] at hstep
      split at hstep
      · split at hstep
        · case h_1 s hs =>
            split at hstep
            · case isTrue hopen =>
                cases hstep
                apply h.beginRound hs hopen
            · cases hstep
        · cases hstep
      · cases hstep
  | timer p batchId =>
      rw [committeeStep] at hstep
      split at hstep
      · cases hstep
        apply h.sweep h.getOpenSessions
      · cases hstep
  | resume p batchId =>
      rw [committeeStep] at hstep
      split at hstep
      · case h_1 rest htask =>
          cases hstep
          have hrest := h.rest p
          rw [htask] at hrest
          apply h.sweep (.inl hrest)
      · cases hstep
  | decrypted p answers batchId =>
      rw [committeeStep] at hstep
      split at hstep
      · case h_1 ref rest htask =>
          split at hstep
          · case h_1 s hs =>
              apply h.decrypted htask hs hstep
          · cases hstep
      · cases hstep
  | signed p answers =>
      rw [committeeStep] at hstep
      split at hstep
      · case h_1 ref batchId matchList rest htask =>
          split at hstep
          · case h_1 s hs =>
              cases hstep
              apply h.signed htask hs
          · cases hstep
      · cases hstep
  | raise p =>
      rw [committeeStep] at hstep
      split at hstep
      · cases hstep
        apply h.task rfl rfl
      · cases hstep

end Shade.Committee
