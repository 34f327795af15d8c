import Shade.Committee.State
import Shade.Property.MatchedOnce

/-!
# No session is lost

The map of sessions leads from the identifier of a session to it, as long as no two sessions have
the same identifier. The identifiers are times: a session that is made in the same millisecond as
an earlier one, which was closed meanwhile, takes its place in the map.
-/

namespace Shade.Committee

open Text Machine

/-- The session of a receipt is found by its identifier and in the list of all sessions, and holds
the intent. -/
structure CommitteeState.Reachable (w : CommitteeState) (r : Receipt) : Prop where
  getSession : w.getSession r.sessionId = some r.ref
  allSessions : r.ref ∈ w.allSessions
  session : ∃ s, w.coordinator.heap[r.ref]? = some s ∧ s.sessionId = r.sessionId
    ∧ r.intentId ∈ OrderedMap.keys s.intents

/-- If a call makes a session, no session was made at that time. -/
def CommitteeState.NewTime (w : CommitteeState) : StateAction → Prop
  | .addIntent _ now => w.coordinator.getOpenSessions = [] →
      sessionIdAt now ∉ OrderedMap.keys w.coordinator.sessions
  | .setStatus .. => True

/-- The map leads to sessions with the identifiers that are its keys, and to those of receipts. -/
structure CommitteeState.Kept (w : CommitteeState) : Prop where
  nodup : (OrderedMap.keys w.coordinator.sessions).Nodup
  identified : ∀ e ∈ w.coordinator.sessions, ∃ s,
    w.coordinator.heap[e.2]? = some s ∧ s.sessionId = e.1
  reachable : ∀ r ∈ w.receipts, w.Reachable r

variable {w w' : CommitteeState} {c c' : Coordinator} {intent : MpcIntent} {ref now : ℕ}
  {s : Session}

/-- Every session keeps its place, its identifier and its intents. -/
def Coordinator.Grows (c c' : Coordinator) : Prop :=
  ∀ (i : ℕ) (s : Session), c.heap[i]? = some s → ∃ s', c'.heap[i]? = some s'
    ∧ s'.sessionId = s.sessionId ∧ OrderedMap.keys s.intents ⊆ OrderedMap.keys s'.intents

/-- To write the status and the batch of a session changes neither identifiers nor intents. -/
theorem Coordinator.grows_setStatus (hs : c.heap[ref]? = some s) (status : SessionStatus)
    (signedBatch : Option SignedMatchBatch) :
  c.Grows (c.setSession ref { s with status := status, signedBatch := signedBatch })
  := by
  intro i s₁ hs₁
  rw [Coordinator.setSession, getElem?_set_ref hs]
  split
  · case isTrue heq =>
      subst heq
      obtain rfl := Option.some.inj (hs.symm.trans hs₁)
      use { s with status := status, signedBatch := signedBatch }, rfl, rfl
      apply List.Subset.refl
  · use s₁, hs₁, rfl
    apply List.Subset.refl

/-- A session to which an intent is added keeps its identifier and its intents, and holds it. -/
theorem Session.addIntent_grows (s : Session) (intent : MpcIntent) :
  (s.addIntent intent).sessionId = s.sessionId
    ∧ OrderedMap.keys s.intents ⊆ OrderedMap.keys (s.addIntent intent).intents
    ∧ intent.intentId ∈ OrderedMap.keys (s.addIntent intent).intents
  := by
  rw [s.addIntent_intents]
  use (s.addIntent_same intent).sessionId_eq
  constructor
  · intro k hk
    apply OrderedMap.mem_keys_set.mpr (.inr hk)
  · apply OrderedMap.mem_keys_set.mpr (.inl rfl)

/-- A call adds to one session, which may be new, and changes no other. -/
theorem Coordinator.Submitted.grows {sessionId : Text}
    (h : Submitted intent sessionId c c' ref s) :
  c.Grows c'
  := by
  intro i s₁ hs₁
  rw [h.heap]
  obtain ⟨hid, hkeys, -⟩ := s.addIntent_grows intent
  split
  · case isTrue heq =>
      subst heq
      use s.addIntent intent, rfl
      obtain ⟨hs, -⟩ | ⟨-, hlen, -⟩ := h.place
      · obtain rfl := Option.some.inj (hs.symm.trans hs₁)
        use hid, hkeys
      · rw [hlen, List.getElem?_eq_none le_rfl] at hs₁
        cases hs₁
  · use s₁, hs₁, rfl
    apply List.Subset.refl

/-- The entry of a key that occurs once is the one that is found. -/
theorem get_of_mem {m : OrderedMap Text ℕ} (hm : (OrderedMap.keys m).Nodup) {k : Text} {i : ℕ}
    (h : (k, i) ∈ m) :
  OrderedMap.get m k = some i
  := by
  cases hg : OrderedMap.get m k with
  | none =>
      exfalso
      apply OrderedMap.get_eq_none.mp hg
      apply OrderedMap.mem_keys.mpr ⟨i, h⟩
  | some j =>
      have := List.inj_on_of_nodup_map hm (OrderedMap.mem_of_get hg) h rfl
      rw [(Prod.mk.inj this).2]

/-- A session that is found by its identifier remains reachable when sessions grow. -/
theorem CommitteeState.Reachable.grows {r : Receipt} (h : w.Reachable r)
    (hg : w.coordinator.Grows w'.coordinator)
    (hget : w'.getSession r.sessionId = w.getSession r.sessionId) :
  w'.Reachable r
  := by
  obtain ⟨s, hs, hid, hkey⟩ := h.session
  obtain ⟨s', hs', hid', hkeys⟩ := hg r.ref s hs
  have hfound := hget.trans h.getSession
  constructor
  · apply hfound
  · apply List.mem_map.mpr ⟨_, OrderedMap.mem_of_get hfound, rfl⟩
  · use s', hs', hid'.trans hid
    apply hkeys hkey

/-- An entry of the map still leads to a session with its identifier when sessions grow. -/
theorem CommitteeState.Kept.identified_grows (h : w.Kept)
    (hg : w.coordinator.Grows c') {e : Text × ℕ} (he : e ∈ w.coordinator.sessions) :
  ∃ s, c'.heap[e.2]? = some s ∧ s.sessionId = e.1
  := by
  obtain ⟨s, hs, hid⟩ := h.identified e he
  obtain ⟨s', hs', hid', -⟩ := hg e.2 s hs
  use s', hs', hid'.trans hid

/-- What a call returns when it has added the intent to a session. -/
theorem CommitteeState.receipt_eq
    (h : Coordinator.Submitted intent (sessionIdAt now) w.coordinator (w.afterIntent intent now)
      (w.target now) s) :
  w.receipt intent now = some ⟨intent.intentId, s.sessionId, w.target now⟩
  := by
  rw [CommitteeState.receipt, h.heap, if_pos rfl, Option.map_some, (s.addIntent_grows intent).1]

/-- A call whose session is found makes a receipt for a session that is reachable. -/
theorem CommitteeState.reachable_receipt
    (h : Coordinator.Submitted intent (sessionIdAt now) w.coordinator w'.coordinator ref s)
    (hget : w'.getSession s.sessionId = some ref) :
  w'.Reachable ⟨intent.intentId, s.sessionId, ref⟩
  := by
  obtain ⟨hid, -, hkey⟩ := s.addIntent_grows intent
  constructor
  · apply hget
  · apply List.mem_map.mpr ⟨_, OrderedMap.mem_of_get hget, rfl⟩
  · use s.addIntent intent
    rw [h.heap, if_pos rfl]
    use rfl, hid

/-- An open session to which a call adds is found by its identifier. -/
theorem CommitteeState.Kept.get_target (h : w.Kept)
    (hs : w.coordinator.heap[w.target now]? = some s) :
  w.getSession s.sessionId = some (w.target now)
  := by
  have hmem : w.target now ∈ w.coordinator.getOpenSessions := by
    rw [CommitteeState.target, Coordinator.getOrCreateOpenSession] at hs ⊢
    split at hs
    · case h_1 ref rest hopen =>
        simp [hopen]
    · case h_2 hnone =>
        rw [List.getElem?_eq_none le_rfl] at hs
        cases hs
  obtain ⟨hlisted, -⟩ := mem_getOpenSessions.mp hmem
  obtain ⟨e, he, href⟩ := List.mem_map.mp hlisted
  obtain ⟨s', hs', hid⟩ := h.identified e he
  rw [href, hs] at hs'
  obtain rfl := Option.some.inj hs'
  apply get_of_mem h.nodup
  rw [hid, ← href]
  apply he

/-- A call keeps the sessions, unless it makes one at a time at which one was made. -/
theorem CommitteeState.Kept.addIntent (h : w.Kept)
    (hnew : w.NewTime (.addIntent intent now)) :
  Kept ⟨w.afterIntent intent now, now, w.receipts ++ (w.receipt intent now).toList⟩
  := by
  obtain ⟨s, hsub⟩ := w.coordinator.addIntent_submitted_to (sessionIdAt now) intent
  rw [CommitteeState.receipt_eq hsub]
  have hg := hsub.grows
  obtain ⟨hs, hsessions⟩ | ⟨hnone, href, hsnew, hsessions⟩ := hsub.place
  · constructor
    · rw [CommitteeState.afterIntent, hsessions]
      apply h.nodup
    · intro e he
      rw [CommitteeState.afterIntent, hsessions] at he
      apply h.identified_grows hg he
    · intro r hr
      obtain hr | hr := List.mem_append.mp hr
      · apply (h.reachable r hr).grows hg
        rw [CommitteeState.getSession, CommitteeState.afterIntent, hsessions]
        rfl
      · obtain rfl := List.mem_singleton.mp hr
        apply CommitteeState.reachable_receipt hsub
        rw [CommitteeState.getSession, CommitteeState.afterIntent, hsessions]
        apply h.get_target hs
  · have hfresh := hnew hnone
    constructor
    · rw [CommitteeState.afterIntent, hsessions]
      apply OrderedMap.nodup_keys_set h.nodup
    · intro e he
      rw [CommitteeState.afterIntent, hsessions] at he
      obtain rfl | he := OrderedMap.mem_set he
      · use s.addIntent intent
        rw [CommitteeState.afterIntent, hsub.heap, if_pos rfl]
        use rfl
        rw [(s.addIntent_grows intent).1, hsnew]
        rfl
      · apply h.identified_grows hg he
    · intro r hr
      obtain hr | hr := List.mem_append.mp hr
      · apply (h.reachable r hr).grows hg
        have hne : sessionIdAt now ≠ r.sessionId := by
          intro heq
          apply hfresh
          rw [heq]
          apply OrderedMap.mem_keys.mpr
          use r.ref
          apply OrderedMap.mem_of_get (h.reachable r hr).getSession
        rw [CommitteeState.getSession, CommitteeState.afterIntent, hsessions,
          OrderedMap.get_set, if_neg hne]
        rfl
      · obtain rfl := List.mem_singleton.mp hr
        apply CommitteeState.reachable_receipt hsub
        rw [CommitteeState.getSession, CommitteeState.afterIntent, hsessions,
          OrderedMap.get_set, hsnew]
        apply if_pos
        rfl

/-- One step keeps the sessions. -/
theorem CommitteeState.Kept.step {action : StateAction} (h : w.Kept) (hnew : w.NewTime action)
    (hstep : stateStep action w = some w') :
  w'.Kept
  := by
  cases action with
  | addIntent intent now =>
      rw [stateStep] at hstep
      split at hstep
      · cases hstep
      · obtain rfl := Option.some.inj hstep
        apply h.addIntent hnew
  | setStatus ref status signedBatch =>
      rw [stateStep] at hstep
      split at hstep
      · cases hstep
      · case h_2 s hs =>
          obtain rfl := Option.some.inj hstep
          have hg := Coordinator.grows_setStatus hs status signedBatch
          constructor
          · apply h.nodup
          · intro e he
            apply h.identified_grows hg he
          · intro r hr
            apply CommitteeState.Reachable.grows (h.reachable r hr) hg
            rfl

/-- In every run in which no session is made at a time at which one was made before, every session
to which a call has added an intent is found by the identifier that the call returned and in the
list of all sessions, and holds the intent. -/
theorem no_session_lost (actions : List StateAction)
    (h : Along stateStep CommitteeState.NewTime .initial actions) :
  ∀ r ∈ (runState actions).receipts, (runState actions).Reachable r
  := by
  have hkept : (runState actions).Kept := by
    apply invariant_run (fun w a w' hw ha hstep => hw.step ha hstep) actions _ h
    constructor
    · apply List.nodup_nil
    · intro e he
      cases he
    · intro r hr
      cases hr
  apply hkept.reachable

/-- An intent without shares. -/
def plainIntent (intentId : Text) : MpcIntent := ⟨intentId, "a".toList, "b".toList, []⟩

/-- Sessions that are made at different times have different identifiers. -/
theorem sessionIdAt_injective {now now' : ℕ} (h : sessionIdAt now = sessionIdAt now') :
  now = now'
  := by
  have hd : decimal (now : ℤ) = decimal (now' : ℤ) := List.append_cancel_left h
  have hz := congrArg toInt? hd
  rw [toInt?_decimal, toInt?_decimal] at hz
  apply Int.ofNat.inj (Option.some.inj hz)

/-- A session that is closed remains reachable when the next one is made a millisecond later. -/
theorem no_session_lost_later :
  (runState [.addIntent (plainIntent "x".toList) 5, .setStatus 0 .failed none,
      .addIntent (plainIntent "y".toList) 6]).Reachable ⟨"x".toList, sessionIdAt 5, 0⟩
  := by
  apply no_session_lost [.addIntent (plainIntent "x".toList) 5, .setStatus 0 .failed none,
      .addIntent (plainIntent "y".toList) 6]
  · constructor
    · intro _ hmem
      cases hmem
    · constructor
      · trivial
      · constructor
        · intro _ hmem
          have heq := sessionIdAt_injective (List.mem_singleton.mp hmem)
          contradiction
        · trivial
  · apply List.Mem.head

/-- A session that is closed is lost when the next one is made in the same millisecond. -/
theorem session_lost :
  ¬ ∀ (actions : List StateAction), ∀ r ∈ (runState actions).receipts,
      (runState actions).Reachable r
  := by
  intro h
  have hr := h [.addIntent (plainIntent "x".toList) 5, .setStatus 0 .failed none,
    .addIntent (plainIntent "y".toList) 5] ⟨"x".toList, sessionIdAt 5, 0⟩ (.head _)
  have hget : OrderedMap.get (OrderedMap.set [(sessionIdAt 5, 0)] (sessionIdAt 5) 1)
      (sessionIdAt 5) = some 0 := hr.getSession
  rw [OrderedMap.get_set, if_pos rfl] at hget
  contradiction

end Shade.Committee
