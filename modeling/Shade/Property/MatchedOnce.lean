import Shade.Property.Rounds

/-!
# One match for each intent

What holds over all runs of the process. A session has at most one round, on intents that do not
change any more. An intent is matched at most once, provided that its identifier is not submitted
again while a round may still match it or after a batch has matched it: submitted again it goes to
another session, and the process keeps no identifiers across sessions.
-/

namespace Shade.Committee

open Text Machine

variable {w w' : Coordinator} {cfg : Config} {sort : List Intent → List Intent} {s s' : Session}
  {ref : ℕ}

/-! ### Submissions -/

/-- An intent has been submitted: it is added to the open session, which is a new one if none was
open. -/
structure Coordinator.Submitted (intent : MpcIntent) (sessionId : Text) (w w' : Coordinator)
    (ref : ℕ) (s : Session) : Prop where
  opened : s.status = .opened
  place : w.heap[ref]? = some s ∧ w'.sessions = w.sessions
    ∨ w.getOpenSessions = [] ∧ ref = w.heap.length ∧ s = newSession sessionId
      ∧ w'.sessions = OrderedMap.set w.sessions sessionId ref
  heap : ∀ i : ℕ, w'.heap[i]? = if ref = i then some (s.addIntent intent) else w.heap[i]?
  tasks_eq : w'.tasks = w.tasks
  started_eq : w'.started = w.started
  produced_eq : w'.produced = w.produced

theorem Coordinator.addIntent_submitted_to (w : Coordinator) (sessionId : Text)
    (intent : MpcIntent) :
  ∃ s, Submitted intent sessionId w (w.addIntent sessionId intent)
    (w.getOrCreateOpenSession sessionId).2 s
  := by
  change ∃ s, Submitted intent sessionId w
    ((w.getOrCreateOpenSession sessionId).1.addIntentTo (w.getOrCreateOpenSession sessionId).2
      intent) (w.getOrCreateOpenSession sessionId).2 s
  rw [Coordinator.getOrCreateOpenSession]
  split
  · case h_1 ref rest hopen =>
      have hmem : ref ∈ w.getOpenSessions := by
        rw [hopen]
        apply List.mem_cons_self
      obtain ⟨-, s, hs, hopen⟩ := mem_getOpenSessions.mp hmem
      use s
      dsimp only
      rw [Coordinator.addIntentTo, hs]
      use hopen, .inl ⟨hs, rfl⟩, getElem?_set_ref hs, rfl, rfl
      rfl
  · case h_2 hnone =>
      have hs : (w.createSession sessionId).heap[w.heap.length]? = some (newSession sessionId) :=
        List.getElem?_concat_length
      use newSession sessionId
      dsimp only
      rw [Coordinator.addIntentTo, hs]
      use rfl, .inr ⟨hnone, rfl, rfl, rfl⟩
      · intro i
        change ((w.createSession sessionId).heap.set _ _)[i]? = _
        rw [getElem?_set_ref hs]
        split
        · rfl
        · case isFalse hne =>
            change (w.heap ++ [_])[i]? = _
            rcases lt_trichotomy i w.heap.length with hi | hi | hi
            · rw [List.getElem?_append_left hi]
            · exact absurd hi.symm hne
            · rw [List.getElem?_eq_none hi.le, List.getElem?_eq_none]
              rw [List.length_append, List.length_singleton]
              omega
      · rfl
      · rfl
      · rfl

theorem Coordinator.addIntent_submitted (w : Coordinator) (sessionId : Text)
    (intent : MpcIntent) :
  ∃ ref s, Submitted intent sessionId w (w.addIntent sessionId intent) ref s
  := by
  obtain ⟨s, hs⟩ := w.addIntent_submitted_to sessionId intent
  use (w.getOrCreateOpenSession sessionId).2, s

variable {intent : MpcIntent} {sessionId : Text}

theorem Session.addIntent_intents (s : Session) (intent : MpcIntent) :
  (s.addIntent intent).intents = OrderedMap.set s.intents intent.intentId intent
  := (s.addIntent_same intent).intents_eq

/-- Sessions that are not open do not change. -/
theorem Coordinator.Submitted.closed (h : Submitted intent sessionId w w' ref s) {i : ℕ}
    (hs' : w.heap[i]? = some s') (hclosed : s'.status ≠ .opened) :
  w'.heap[i]? = some s'
  := by
  rw [h.heap]
  split
  · case isTrue heq =>
      subst heq
      rcases h.place with ⟨hs, -⟩ | ⟨-, rfl, -⟩
      · obtain rfl := Option.some.inj (hs.symm.trans hs')
        exact absurd h.opened hclosed
      · exact absurd (List.getElem?_eq_some_iff.mp hs').1 (lt_irrefl _)
  · apply hs'

/-- What a submission leads to. -/
theorem committeeStep_submit (h : committeeStep cfg (.submit intent sessionId) w = some w') :
  w' = w.addIntent sessionId intent
  := by
  rw [committeeStep] at h
  split at h
  · cases h
  · exact (Option.some.inj h).symm

/-! ### One round -/

/-- A session that is not open any more is never open again, and keeps its intents. -/
theorem Coordinator.Sound.closed (h : w.Sound cfg.sort) {action : CommitteeAction}
    (hstep : committeeStep cfg action w = some w') {i : ℕ} (hs : w.heap[i]? = some s)
    (hclosed : s.status ≠ .opened) :
  ∃ s', w'.heap[i]? = some s' ∧ s'.status ≠ .opened ∧ s'.intents = s.intents
  := by
  have hround : w.Narrows cfg.sort w' → ∃ s', w'.heap[i]? = some s' ∧ s'.status ≠ .opened
      ∧ s'.intents = s.intents := by
    intro hnarrows
    have hlt := (List.getElem?_eq_some_iff.mp hs).1
    rw [← hnarrows.length_eq] at hlt
    obtain ⟨-, hintents, hopen⟩ :=
      hnarrows.session i s w'.heap[i] hs (List.getElem?_eq_getElem hlt)
    use w'.heap[i], List.getElem?_eq_getElem hlt
    constructor
    · intro hopened
      rw [hopen hopened] at hopened
      contradiction
    · apply hintents
  cases action with
  | submit intent sessionId =>
      obtain rfl := committeeStep_submit hstep
      obtain ⟨ref, s₁, hsubmitted⟩ := w.addIntent_submitted sessionId intent
      use s, hsubmitted.closed hs hclosed, hclosed
  | _ =>
      apply hround
      apply h.narrows hstep
      intro intent sessionId hne
      cases hne

/-- The process is sound after every run. -/
theorem Coordinator.Sound.run (h : w.Sound cfg.sort) (actions : List CommitteeAction) :
  (run (committeeStep cfg) w actions).Sound cfg.sort
  := by
  apply invariant_run_of_step _ actions h
  intro w action w' hw hstep
  apply hw.step hstep

/-- The map leads from the identifier of each session to it. -/
def Coordinator.Identified (w : Coordinator) : Prop :=
  ∀ (i : ℕ) (s : Session), w.heap[i]? = some s → OrderedMap.get w.sessions s.sessionId = some i

/-- The clock yields an identifier that no session has, if a session is made. -/
def Coordinator.NewId (w : Coordinator) : CommitteeAction → Prop
  | .submit _ sessionId => w.getOpenSessions = [] → sessionId ∉ w.heap.map Session.sessionId
  | _ => True

instance (w : Coordinator) : (action : CommitteeAction) → Decidable (w.NewId action)
  | .submit _ sessionId => inferInstanceAs
      (Decidable (w.getOpenSessions = [] → sessionId ∉ w.heap.map Session.sessionId))
  | .matchSession .. => isTrue trivial
  | .timer .. => isTrue trivial
  | .resume .. => isTrue trivial
  | .decrypted .. => isTrue trivial
  | .signed .. => isTrue trivial
  | .raise .. => isTrue trivial

theorem Coordinator.Identified.step (h : w.Identified) (hw : w.Sound cfg.sort)
    {action : CommitteeAction} (hnew : w.NewId action)
    (hstep : committeeStep cfg action w = some w') :
  w'.Identified
  := by
  have hround : w.Narrows cfg.sort w' → w'.Identified := by
    intro hnarrows i s hs
    have hlt := (List.getElem?_eq_some_iff.mp hs).1
    rw [hnarrows.length_eq] at hlt
    obtain ⟨hid, -⟩ := hnarrows.session i w.heap[i] s (List.getElem?_eq_getElem hlt) hs
    rw [hnarrows.sessions_eq, hid]
    apply h i w.heap[i] (List.getElem?_eq_getElem hlt)
  cases action with
  | submit intent sessionId =>
      obtain rfl := committeeStep_submit hstep
      obtain ⟨ref, s, hsubmitted⟩ := w.addIntent_submitted sessionId intent
      intro i s₁ hs₁
      rw [hsubmitted.heap] at hs₁
      rcases hsubmitted.place with ⟨hs, hsessions⟩ | ⟨hnone, rfl, rfl, hsessions⟩
      · rw [hsessions]
        split at hs₁
        · case isTrue heq =>
            subst heq
            cases hs₁
            rw [(s.addIntent_same intent).sessionId_eq]
            apply h ref s hs
        · apply h i s₁ hs₁
      · rw [hsessions, OrderedMap.get_set]
        split at hs₁
        · case isTrue heq =>
            subst heq
            cases hs₁
            rw [((newSession sessionId).addIntent_same intent).sessionId_eq]
            apply if_pos rfl
        · rw [if_neg]
          · apply h i s₁ hs₁
          · rintro rfl
            exact hnew hnone (List.mem_map_of_mem (List.mem_of_getElem? hs₁))
  | _ =>
      apply hround
      apply hw.narrows hstep
      intro intent sessionId hne
      cases hne

/-- In every run in which no two sessions are given the same identifier, at most one session is
open at any time, the sessions are told apart by their identifiers, each has at most one round and
at most one signed batch, and its intents remain the same once its round has started. -/
theorem one_round (cfg : Config) {actions : List CommitteeAction}
    (hclock : Along (committeeStep cfg) Coordinator.NewId Coordinator.initial actions)
    (later : List CommitteeAction) :
  let w := run (committeeStep cfg) Coordinator.initial actions
  (∀ (i j : ℕ) (s s' : Session), w.heap[i]? = some s → w.heap[j]? = some s' →
      s.status = .opened → s'.status = .opened → i = j)
    ∧ w.Identified
    ∧ w.started.Nodup
    ∧ (w.produced.map Prod.fst).Nodup
    ∧ ∀ ref ∈ w.started, ∃ s s', w.heap[ref]? = some s
      ∧ (run (committeeStep cfg) w later).heap[ref]? = some s' ∧ s'.intents = s.intents
  := by
  intro w
  have hsound : w.Sound cfg.sort := (Coordinator.initial_sound cfg.sort).run actions
  have hidentified : w.Identified ∧ w.Sound cfg.sort := by
    apply invariant_run (I := fun w : Coordinator => w.Identified ∧ w.Sound cfg.sort) _ actions
      Coordinator.initial hclock
    · use fun i s hs => nomatch hs
      apply Coordinator.initial_sound
    · rintro w action w' ⟨hid, hw⟩ hnew hstep
      use hid.step hw hnew hstep
      apply hw.step hstep
  use hsound.one_open, hidentified.1, hsound.started.1, hsound.produced.1
  intro ref href
  obtain ⟨s, hs, hclosed⟩ := hsound.started.2 ref href
  have hkept : ∃ s', (run (committeeStep cfg) w later).heap[ref]? = some s'
      ∧ s'.status ≠ .opened ∧ s'.intents = s.intents := by
    apply (invariant_run_of_step (I := fun w' : Coordinator => w'.Sound cfg.sort
      ∧ ∃ s', w'.heap[ref]? = some s' ∧ s'.status ≠ .opened ∧ s'.intents = s.intents) _ later
        ⟨hsound, s, hs, hclosed, rfl⟩).2
    rintro w₁ action w₂ ⟨hw₁, s₁, hs₁, hclosed₁, hintents₁⟩ hstep
    use hw₁.step hstep
    obtain ⟨s₂, hs₂, hclosed₂, hintents₂⟩ := hw₁.closed hstep hs₁ hclosed₁
    use s₂, hs₂, hclosed₂, hintents₂.trans hintents₁
  obtain ⟨s', hs', -, hintents⟩ := hkept
  use s, s'

/-- An intent with the amount five, which is shared between two nodes with the constant polynomial. -/
def sharedIntent (intentId inputAsset outputAsset : Char) : MpcIntent :=
  ⟨[intentId], [inputAsset], [outputAsset], ['1', '2'].map fun node => ⟨[node], ['5'], [], []⟩⟩

/-- The combined server with two nodes that read the values of their shares. -/
def twoNodes : Config where
  server := .combined
  nodes := [['1'], ['2']]
  crypto :=
    { decryptShare := fun nodeId share =>
        if share.ciphertext = ['5'] then
          some (some (.share ⟨if nodeId = ['1'] then 1 else 2, 5⟩))
        else none
      signBatch := fun nodeId _ _ => ⟨nodeId, [], []⟩
      batchHash := fun _ _ => [] }
  sort := sortByAmount

/-- Two intents are matched, and another one comes later. -/
def matchedPair : List CommitteeAction :=
  [.submit (sharedIntent 'a' 'X' 'Y') ['s'], .submit (sharedIntent 'b' 'Y' 'X') ['t'],
    .timer 0 ['m'], .resume 0 ['n'], .submit (sharedIntent 'c' 'X' 'Y') ['t']]

theorem one_round_matchedPair :
  Along (committeeStep twoNodes) Coordinator.NewId Coordinator.initial matchedPair
    ∧ (run (committeeStep twoNodes) Coordinator.initial matchedPair).started.Nodup
    ∧ (run (committeeStep twoNodes) Coordinator.initial matchedPair).produced.length = 1
  := by
  have hclock : Along (committeeStep twoNodes) Coordinator.NewId Coordinator.initial
      matchedPair := by
    decide +kernel
  use hclock, (one_round twoNodes hclock []).2.2.1
  decide +kernel

/-! ### One match -/

/-- The identifier of a submitted intent is at stake in no round, and no batch has matched it. -/
def Coordinator.Fresh (w : Coordinator) : CommitteeAction → Prop
  | .submit intent _ => (∀ p, intent.intentId ∉ (w.tasks p).atStake w.heap)
      ∧ ∀ x ∈ w.produced, intent.intentId ∉ x.2.ids
  | _ => True

/-- An intent is live in one session only, and no batch matches an intent twice. -/
structure Coordinator.Parted (w : Coordinator) : Prop where
  one : ∀ (i j : ℕ) (intentId : Text), w.Live i intentId → w.Live j intentId → i = j
  ids : ∀ x ∈ w.produced, x.2.ids.Nodup

theorem atStake_congr {t : CommitteeTask} {heap heap' : List Session}
    (h : ∀ r, t.ref? = some r → heap'[r]? = heap[r]?) :
  t.atStake heap' = t.atStake heap
  := by
  cases t with
  | decrypting r rest => rw [CommitteeTask.atStake, CommitteeTask.atStake, h r rfl]
  | signing => rfl
  | idle => rfl
  | resumed => rfl

/-- What is live after a submission was live before, or it is the intent submitted, in the open
session. -/
theorem Coordinator.Submitted.live (h : Submitted intent sessionId w w' ref s)
    (hw : w.Sound sort) {i : ℕ} {intentId : Text} (hlive : w'.Live i intentId) :
  w.Live i intentId ∨ intentId = intent.intentId ∧ i = ref
  := by
  rcases hlive with ⟨hs', hopen, hid⟩ | @⟨q, hr, hid⟩ | ⟨hb, hid⟩
  · rw [h.heap] at hs'
    split at hs'
    · case isTrue heq =>
        subst heq
        cases hs'
        rw [Session.addIntent_intents, OrderedMap.mem_keys_set] at hid
        rcases hid with rfl | hid
        · exact .inr ⟨rfl, rfl⟩
        · left
          rcases h.place with ⟨hs, -⟩ | ⟨-, -, rfl, -⟩
          · exact .waiting hs h.opened hid
          · cases hid
    · exact .inl (.waiting hs' hopen hid)
  · rw [h.tasks_eq] at hr hid
    left
    have hheap : ∀ r, (w.tasks q).ref? = some r → w'.heap[r]? = w.heap[r]? := by
      intro r hr
      obtain ⟨s₁, hs₁, hmatching, -⟩ := hw.matching q r hr
      rw [h.closed hs₁ (by rw [hmatching]; exact fun h => nomatch h), hs₁]
    rw [atStake_congr hheap] at hid
    exact .running hr hid
  · rw [h.produced_eq] at hb
    exact .inl (.done hb hid)

/-- The open session to which an intent is added is open afterwards. -/
theorem Coordinator.Submitted.opened_after (h : Submitted intent sessionId w w' ref s) :
  w'.heap[ref]? = some (s.addIntent intent) ∧ (s.addIntent intent).status = .opened
  := by
  rw [h.heap, if_pos rfl]
  exact ⟨rfl, (s.addIntent_same intent).status_eq.trans h.opened⟩

/-- An identifier that is at stake in no round and in no batch is live in the open session only. -/
theorem Coordinator.Submitted.ref_eq (h : Submitted intent sessionId w w' ref s)
    (hw' : w'.Sound sort) (hfresh : w.Fresh (.submit intent sessionId)) {i : ℕ}
    (hlive : w.Live i intent.intentId) :
  i = ref
  := by
  rcases hlive with ⟨hs, hopen, hid⟩ | ⟨hr, hid⟩ | ⟨hb, hid⟩
  · by_contra hne
    have hs' := h.heap i
    rw [if_neg (Ne.symm hne), hs] at hs'
    obtain ⟨href, hopen'⟩ := h.opened_after
    exact hne (hw'.one_open i ref _ _ hs' href hopen hopen')
  · exact absurd hid (hfresh.1 _)
  · exact absurd hid (hfresh.2 _ hb)

/-- One step. -/
theorem Coordinator.Parted.step (h : w.Parted) (hsort : Sorts cfg.sort) (hw : w.Sound cfg.sort)
    {action : CommitteeAction} (hfresh : w.Fresh action)
    (hstep : committeeStep cfg action w = some w') :
  w'.Parted
  := by
  have hround : w.Narrows cfg.sort w' → w'.Parted := by
    intro hnarrows
    constructor
    · intro i j intentId hi hj
      apply h.one i j intentId (hnarrows.live hsort i intentId hi)
        (hnarrows.live hsort j intentId hj)
    · intro x hx
      rcases hnarrows.batches x hx with hx | ⟨is, his⟩
      · apply h.ids x hx
      · rw [SignedMatchBatch.ids, his]
        apply (matchIntents_ids hsort is).1
  have hw' := hw.step hstep
  cases action with
  | submit intent sessionId =>
      obtain rfl := committeeStep_submit hstep
      obtain ⟨ref, s, hsubmitted⟩ := w.addIntent_submitted sessionId intent
      constructor
      · intro i j intentId hi hj
        rcases hsubmitted.live hw hi with hi | ⟨rfl, rfl⟩
        · rcases hsubmitted.live hw hj with hj | ⟨rfl, rfl⟩
          · apply h.one i j intentId hi hj
          · apply hsubmitted.ref_eq hw' hfresh hi
        · rcases hsubmitted.live hw hj with hj | ⟨-, rfl⟩
          · exact (hsubmitted.ref_eq hw' hfresh hj).symm
          · rfl
      · intro x hx
        rw [hsubmitted.produced_eq] at hx
        apply h.ids x hx
  | _ =>
      apply hround
      apply hw.narrows hstep
      intro intent sessionId hne
      cases hne

/-- The batches match no intent twice. -/
theorem Coordinator.Parted.nodup (h : w.Parted) (hw : w.Sound sort) :
  (w.produced.flatMap fun x => x.2.ids).Nodup
  := by
  rw [List.nodup_flatMap]
  use h.ids
  have hpairwise := List.pairwise_map.mp (List.nodup_iff_pairwise_ne.mp hw.produced.1)
  apply hpairwise.imp_of_mem
  intro x y hx hy hne intentId hidx hidy
  apply hne
  apply h.one x.1 y.1 intentId (.done hx hidx) (.done hy hidy)

/-- In every run in which no identifier is submitted that is at stake in a round or that a batch
has matched, no intent is matched twice. -/
theorem matched_once (cfg : Config) (hsort : Sorts cfg.sort) {actions : List CommitteeAction}
    (hfresh : Along (committeeStep cfg) Coordinator.Fresh Coordinator.initial actions) :
  ((run (committeeStep cfg) Coordinator.initial actions).produced.flatMap
    fun x => x.2.matchList.flatMap MatchResult.ids).Nodup
  := by
  have hparted : (run (committeeStep cfg) Coordinator.initial actions).Parted
      ∧ (run (committeeStep cfg) Coordinator.initial actions).Sound cfg.sort := by
    apply invariant_run (I := fun w : Coordinator => w.Parted ∧ w.Sound cfg.sort) _ actions
      Coordinator.initial hfresh
    · constructor
      · constructor
        · rintro i j intentId (⟨hs, -, -⟩ | ⟨hr, -⟩ | ⟨hb, -⟩)
          · cases hs
          · cases hr
          · cases hb
        · intro x hx
          cases hx
      · apply Coordinator.initial_sound
    · rintro w action w' ⟨hw, hsound⟩ hfresh hstep
      use hw.step hsort hsound hfresh hstep
      apply hsound.step hstep
  apply hparted.1.nodup hparted.2

theorem matched_once_pair :
  ((run (committeeStep twoNodes) Coordinator.initial (matchedPair.take 3)).produced.flatMap
    fun x => x.2.matchList.flatMap MatchResult.ids).Nodup
  := by
  apply matched_once twoNodes sorts_sortByAmount
  have hidle : ∀ w : Coordinator, w.tasks = (fun _ => .idle) →
      ∀ (intentId : Text) (p : ℕ), intentId ∉ (w.tasks p).atStake w.heap := by
    intro w hw intentId p hid
    rw [hw] at hid
    cases hid
  constructor
  · use hidle _ rfl _
    decide +kernel
  · constructor
    · use hidle _ rfl _
      decide +kernel
    · use trivial
      trivial

/-- A pair is matched, and one of the two intents is submitted again and matched again. -/
def matchedAgain : List CommitteeAction :=
  [.submit (sharedIntent 'a' 'X' 'Y') ['s'], .submit (sharedIntent 'b' 'Y' 'X') ['t'],
    .timer 0 ['m'], .resume 0 ['n'], .submit (sharedIntent 'a' 'X' 'Y') ['t'],
    .submit (sharedIntent 'c' 'Y' 'X') ['u'], .timer 0 ['n']]

theorem matched_again :
  ¬ ((run (committeeStep twoNodes) Coordinator.initial matchedAgain).produced.flatMap
    fun x => x.2.matchList.flatMap MatchResult.ids).Nodup
  := by
  decide +kernel

end Shade.Committee
