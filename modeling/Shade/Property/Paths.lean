import Shade.Api.Settle
import Shade.Property.Settled

/-!
# Two ways to settle an intent

The settler enqueues no job for a match when it finds one of its intents in the table `intents`, and
the route for quotes settles no intent that it does not find there. An intent that is inserted after
the settler has looked for it can be settled in both ways. If none is, no intent ever is.
-/

namespace Shade.Api

open Text Table Committee Machine

/-! ### Promises -/

/-- A job settles a match of an intent. -/
def NamesIntent (j : Queue.Job JobPayload) (intentId : Text) : Prop :=
  j.jobType = mpcSettleSubmit ∧
    match j.payload with
    | .mpcSettle p => p.intentAId = intentId ∨ p.intentBId = intentId
    | .other _ => False

/-- A poll may still enqueue a job that names an intent, which it has not found in the table. -/
def PromisesIntent (intentId : Text) : SettlerPhase → Prop
  | .route _ m a b =>
      a = some false ∧ m.intentAId = intentId ∨ b = some false ∧ m.intentBId = intentId
  | .fetch _ m _ _ => m.intentAId = intentId ∨ m.intentBId = intentId
  | .select _ payload => payload.intentAId = intentId ∨ payload.intentBId = intentId
  | .insert _ payload => payload.intentAId = intentId ∨ payload.intentBId = intentId
  | _ => False

/-- There is a job that names an intent, or a poll may still enqueue one. -/
def Promised (w : SettlerWorld) (intentId : Text) : Prop :=
  (∃ j ∈ w.db.jobs, NamesIntent j intentId) ∨ ∃ p, PromisesIntent intentId (w.phases p)

variable {w w' : SettlerWorld} {intentId : Text}

theorem loop_promises (r : Round) :
  ¬ PromisesIntent intentId r.loop
  := by
  rw [Round.loop]
  split
  · rintro (⟨h, -⟩ | ⟨h, -⟩)
    · cases h
    · cases h
  · intro h
    cases h

theorem startBatches_promises (rows : List BatchRow) :
  ¬ PromisesIntent intentId (startBatches rows)
  := by
  cases rows with
  | nil =>
      intro h
      cases h
  | cons row rows => apply loop_promises

/-- A match is only gone on with if no side is found in the table. -/
theorem routed_promises {r : Round} {m : MatchResult} {a b : Option Bool}
    (h : PromisesIntent intentId (r.routed m a b)) :
  a = some false ∧ m.intentAId = intentId ∨ b = some false ∧ m.intentBId = intentId
  := by
  rw [Round.routed.eq_def] at h
  split at h
  · case h_1 a b =>
      split at h
      · exact absurd h (loop_promises _)
      · case isFalse hab =>
          rw [Bool.or_eq_true, not_or, Bool.not_eq_true, Bool.not_eq_true] at hab
          rw [hab.1, hab.2]
          rcases h with h | h
          · left
            use rfl, h
          · right
            use rfl, h
  · apply h

theorem fetched_promises {r : Round} {m : MatchResult} {a b : Option (Option IntentRow)}
    (h : PromisesIntent intentId (r.fetched m a b)) :
  m.intentAId = intentId ∨ m.intentBId = intentId
  := by
  rw [Round.fetched.eq_def] at h
  split at h
  · apply h
  · apply h

/-- A move to a phase promises no more than the phase. -/
theorem promised_move {p : ℕ} {phase : SettlerPhase} (h : Promised (w.move p phase) intentId) :
  Promised w intentId ∨ PromisesIntent intentId phase
  := by
  rcases h with h | ⟨q, h⟩
  · left
    left
    apply h
  · by_cases hq : q = p
    · subst hq
      right
      change PromisesIntent intentId (Function.update w.phases q phase q) at h
      rw [Function.update_self] at h
      apply h
    · left
      right
      use q
      change PromisesIntent intentId (Function.update w.phases p phase q) at h
      rw [Function.update_of_ne hq] at h
      apply h

theorem isRfqRouted_eq_false {db : SettlerDb} (h : isRfqRouted intentId db = false) :
  intentId ∉ db.intentHashes
  := by
  intro hmem
  rw [isRfqRouted, List.any_eq_false] at h
  apply h intentId hmem
  apply decide_eq_true rfl

/-- When a query for one side answers, only an intent that is not in the table is promised. -/
theorem promised_answer {p : ℕ} {side : Side}
    (h : answerStep w p side (w.phases p) = some w') (hp : Promised w' intentId) :
  Promised w intentId ∨ intentId ∉ w.db.intentHashes
  := by
  have hold : ∀ phase, w.phases p = phase → PromisesIntent intentId phase →
      Promised w intentId := by
    intro phase hphase hpromises
    right
    use p
    rw [hphase]
    apply hpromises
  rw [answerStep.eq_def] at h
  split at h
  · case h_1 r m b hphase =>
      obtain rfl := Option.some.inj h
      obtain hp | hp := promised_move hp
      · left
        apply hp
      · obtain ⟨ha, hid⟩ | hb := routed_promises hp
        · right
          subst hid
          apply isRfqRouted_eq_false (Option.some.inj ha)
        · left
          apply hold _ hphase
          right
          apply hb
  · case h_2 r m a hphase =>
      obtain rfl := Option.some.inj h
      obtain hp | hp := promised_move hp
      · left
        apply hp
      · obtain ha | ⟨hb, hid⟩ := routed_promises hp
        · left
          apply hold _ hphase
          left
          apply ha
        · right
          subst hid
          apply isRfqRouted_eq_false (Option.some.inj hb)
  · case h_3 r m b hphase =>
      obtain rfl := Option.some.inj h
      left
      obtain hp | hp := promised_move hp
      · apply hp
      · apply hold _ hphase (fetched_promises hp)
  · case h_4 r m a hphase =>
      obtain rfl := Option.some.inj h
      left
      obtain hp | hp := promised_move hp
      · apply hp
      · apply hold _ hphase (fetched_promises hp)
  · cases h

/-- When a poll runs its single query, nothing new is promised. -/
theorem promised_proceed {p : ℕ} {id : Queue.Uuid} {now : ℕ}
    (h : proceedStep w p id now (w.phases p) = some w') (hp : Promised w' intentId) :
  Promised w intentId
  := by
  rw [proceedStep.eq_def] at h
  split at h
  · case h_1 r payload hphase =>
      split at h
      · obtain rfl := Option.some.inj h
        apply (promised_move hp).resolve_right (loop_promises _)
      · obtain rfl := Option.some.inj h
        obtain hp | hp := promised_move hp
        · apply hp
        · right
          use p
          rw [hphase]
          apply hp
  · case h_2 r payload hphase =>
      split at h
      · case h_1 jobs hins =>
          obtain rfl := Option.some.inj h
          rcases hp with ⟨j, hj, hnames⟩ | hp
          · obtain ⟨rfl, -⟩ := insertJob_eq_some hins
            rcases List.mem_append.mp hj with hj | hj
            · left
              use j, hj
            · obtain rfl := List.mem_singleton.mp hj
              right
              use p
              rw [hphase]
              apply hnames.2
          · apply (promised_move (.inr hp)).resolve_right
            intro hevent
            cases hevent
      · obtain rfl := Option.some.inj h
        apply (promised_move hp).resolve_right
        intro hidle
        cases hidle
  · case h_3 r jobId hphase =>
      obtain rfl := Option.some.inj h
      have hp : Promised (w.move p (r.advance (r.queued + 1))) intentId := hp
      apply (promised_move hp).resolve_right (loop_promises _)
  · case h_4 r hphase =>
      obtain rfl := Option.some.inj h
      have hp : Promised (w.move p (startBatches r.rest)) intentId := hp
      apply (promised_move hp).resolve_right (startBatches_promises _)
  · cases h

/-- A step of the settler or of those around it promises only intents that are not in the table. -/
theorem promised_step {a : SettlerAction} (h : settlerStep a w = some w')
    (hp : Promised w' intentId) :
  Promised w intentId ∨ intentId ∉ w.db.intentHashes
  := by
  cases a with
  | settleOnce p =>
      rw [settlerStep] at h
      split at h
      · obtain rfl := Option.some.inj h
        left
        apply (promised_move hp).resolve_right (startBatches_promises _)
      · cases h
  | answer p side => apply promised_answer h hp
  | proceed p id now =>
      left
      apply promised_proceed h hp
  | raise p =>
      obtain rfl := Option.some.inj h
      left
      apply (promised_move hp).resolve_right
      intro hidle
      cases hidle
  | insertBatch row =>
      rw [settlerStep] at h
      split at h
      · obtain rfl := Option.some.inj h
        left
        apply hp
      · cases h
  | insertIntent intentHash =>
      obtain rfl := Option.some.inj h
      left
      apply hp
  | writeMpcIntents rows =>
      obtain rfl := Option.some.inj h
      left
      apply hp
  | enqueueOther j =>
      rw [settlerStep] at h
      split at h
      · case isTrue hother =>
          obtain ⟨jobs, hins, rfl⟩ := Option.map_eq_some_iff.mp h
          left
          rcases hp with ⟨i, hi, hnames⟩ | hp
          · obtain ⟨rfl, -⟩ := insertJob_eq_some hins
            rcases List.mem_append.mp hi with hi | hi
            · left
              use i, hi
            · obtain rfl := List.mem_singleton.mp hi
              exact absurd hnames.1 hother.1
          · right
            apply hp
      · cases h
  | work id written =>
      obtain rfl := Option.some.inj h
      left
      rcases hp with ⟨i, hi, hnames⟩ | hp
      · obtain ⟨j, hj, rfl⟩ := Queue.mem_updateJob.mp hi
        left
        use j, hj
        split at hnames
        · apply hnames
        · apply hnames
      · right
        apply hp

/-- Only insertions of intents change which intents there are. -/
theorem intentHashes_step {a : SettlerAction} (ha : ∀ hash, a ≠ .insertIntent hash)
    (h : settlerStep a w = some w') :
  w'.db.intentHashes = w.db.intentHashes
  := by
  cases a with
  | settleOnce p =>
      rw [settlerStep] at h
      split at h
      · obtain rfl := Option.some.inj h
        rfl
      · cases h
  | answer p side =>
      rw [settlerStep, answerStep.eq_def] at h
      split at h
      all_goals cases h
      all_goals rfl
  | proceed p id now =>
      rw [settlerStep, proceedStep.eq_def] at h
      split at h
      · split at h
        all_goals cases h
        all_goals rfl
      · split at h
        all_goals cases h
        all_goals rfl
      all_goals cases h
      all_goals rfl
  | raise p =>
      obtain rfl := Option.some.inj h
      rfl
  | insertBatch row =>
      rw [settlerStep] at h
      split at h
      · obtain rfl := Option.some.inj h
        rfl
      · cases h
  | insertIntent intentHash => exact absurd rfl (ha intentHash)
  | writeMpcIntents rows =>
      obtain rfl := Option.some.inj h
      rfl
  | enqueueOther j =>
      rw [settlerStep] at h
      split at h
      · obtain ⟨jobs, -, rfl⟩ := Option.map_eq_some_iff.mp h
        rfl
      · cases h
  | work id written =>
      obtain rfl := Option.some.inj h
      rfl

/-! ### Intents that are found -/

/-- A request has found its intent in the table. -/
def SettlePhase.HasFound (intentHash : Text) : SettlePhase → Prop
  | .selectQuote r (some _) => r.intentHash = intentHash
  | .selectAccepted r (some _) _ => r.intentHash = intentHash
  | .selectFill r (some _) _ _ => r.intentHash = intentHash
  | .selectProof r => r.intentHash = intentHash
  | .selectNullifier r => r.intentHash = intentHash
  | .selectLink r => r.intentHash = intentHash
  | .selectMatch r => r.intentHash = intentHash
  | .insertSettlement r => r.intentHash = intentHash
  | _ => False

/-- An intent is in the table. -/
def PathsWorld.HasIntent (v : PathsWorld) (intentHash : Text) : Prop :=
  ∃ i ∈ v.intents, i.intentHash = intentHash

/-- An intent is settled through its quote. -/
def PathsWorld.Settled (v : PathsWorld) (intentHash : Text) : Prop :=
  ∃ r settlementId, (r, .ok settlementId) ∈ v.replies ∧ r.intentHash = intentHash

/-- An intent is settled through its quote, or a request has found it. -/
def PathsWorld.Found (v : PathsWorld) (intentHash : Text) : Prop :=
  v.Settled intentHash ∨ ∃ k, (v.requests k).HasFound intentHash

variable {v v' : PathsWorld} {k : ℕ} {r : SettleRequest}

theorem found_move {phase : SettlePhase} (h : (v.move k phase).Found intentId) :
  v.Found intentId ∨ phase.HasFound intentId
  := by
  rcases h with h | ⟨q, h⟩
  · left
    left
    apply h
  · by_cases hq : q = k
    · subst hq
      right
      change (Function.update v.requests q phase q).HasFound intentId at h
      rw [Function.update_self] at h
      apply h
    · left
      right
      use q
      change (Function.update v.requests k phase q).HasFound intentId at h
      rw [Function.update_of_ne hq] at h
      apply h

/-- A request that has found nothing new moves. -/
theorem found_of_move {phase : SettlePhase}
    (hphase : phase.HasFound intentId → (v.requests k).HasFound intentId)
    (h : (v.move k phase).Found intentId) :
  v.Found intentId
  := by
  obtain h | h := found_move h
  · apply h
  · right
    use k, hphase h

theorem found_reply {answer : Except ApiError Text} (h : (v.reply k r answer).Found intentId) :
  v.Found intentId ∨ ∃ settlementId, answer = .ok settlementId ∧ r.intentHash = intentId
  := by
  rcases h with ⟨r', settlementId, hmem, hid⟩ | h
  · rcases List.mem_append.mp hmem with hmem | hmem
    · left
      left
      use r', settlementId, hmem
    · obtain ⟨rfl, rfl⟩ := Prod.mk.inj (List.mem_singleton.mp hmem)
      right
      use settlementId, rfl, hid
  · left
    have h : (v.move k .idle).Found intentId := .inr h
    apply found_of_move _ h
    intro hidle
    cases hidle

theorem found_check {c : Except ApiError Unit} {phase : SettlePhase}
    (h : (v.check k r c phase).Found intentId) :
  v.Found intentId ∨ c = .ok () ∧ phase.HasFound intentId
  := by
  rw [PathsWorld.check.eq_def] at h
  split at h
  · left
    apply (found_reply h).resolve_right
    rintro ⟨_, herr, _⟩
    cases herr
  · obtain h | h := found_move h
    · left
      apply h
    · right
      use rfl, h

/-- A request that has found nothing new moves if a check passes. -/
theorem found_of_check {c : Except ApiError Unit} {phase : SettlePhase}
    (hphase : c = .ok () → phase.HasFound intentId → (v.requests k).HasFound intentId)
    (h : (v.check k r c phase).Found intentId) :
  v.Found intentId
  := by
  obtain h | ⟨hc, h⟩ := found_check h
  · apply h
  · right
    use k, hphase hc h

theorem hasIntent_of_findIntent {hash : Text} {i : IntentLink} (h : v.findIntent hash = some i) :
  v.HasIntent hash
  := by
  have hhash := List.find?_some h
  use i, List.mem_of_find?_eq_some h
  simpa using hhash

/-- A lifecycle without an intent allows no settlement. -/
theorem isSome_of_checkSettlement {intent : Option IntentLink} {quote : Option Quote}
    {accepted : Bool} {fill : Option Fill}
    (h : checkSettlement r intent quote accepted fill = .ok ()) :
  intent.isSome = true
  := by
  cases intent with
  | none => cases h
  | some i => rfl

/-- A statement of a request finds only intents that are in the table. -/
theorem found_proceed (h : settleProceed k v = some v') (hf : v'.Found intentId) :
  v.Found intentId ∨ v.HasIntent intentId
  := by
  rw [settleProceed.eq_def] at h
  split at h
  · cases h
  · obtain rfl := Option.some.inj h
    left
    apply found_of_check _ hf
    intro _ hfound
    cases hfound
  · case h_3 r hphase =>
      -- the only statement that finds an intent
      obtain rfl := Option.some.inj h
      obtain hf | hf := found_move hf
      · left
        apply hf
      · right
        cases hfind : v.findIntent r.intentHash with
        | none =>
            rw [hfind] at hf
            cases hf
        | some i =>
            rw [hfind] at hf
            obtain rfl : r.intentHash = intentId := hf
            apply hasIntent_of_findIntent hfind
  · case h_4 r intent hphase =>
      obtain rfl := Option.some.inj h
      left
      apply found_of_move _ hf
      rw [hphase]
      cases intent with
      | none => exact id
      | some i => exact id
  · case h_5 r intent quote hphase =>
      obtain rfl := Option.some.inj h
      left
      apply found_of_move _ hf
      rw [hphase]
      cases intent with
      | none => exact id
      | some i => exact id
  · case h_6 r intent quote accepted hphase =>
      obtain rfl := Option.some.inj h
      left
      apply found_of_check _ hf
      intro hcheck hfound
      obtain ⟨i, rfl⟩ := Option.isSome_iff_exists.mp (isSome_of_checkSettlement hcheck)
      rw [hphase]
      apply hfound
  · case h_7 r hphase =>
      obtain rfl := Option.some.inj h
      left
      apply found_of_check _ hf
      rw [hphase]
      exact fun _ => id
  · case h_8 r hphase =>
      obtain rfl := Option.some.inj h
      left
      apply found_of_check _ hf
      rw [hphase]
      exact fun _ => id
  · case h_9 r hphase =>
      left
      split at h
      all_goals
        obtain rfl := Option.some.inj h
        apply found_of_move _ hf
        rw [hphase]
        exact id
  · case h_10 r hphase =>
      obtain rfl := Option.some.inj h
      left
      apply found_of_check _ hf
      rw [hphase]
      exact fun _ => id
  · case h_11 r hphase =>
      obtain rfl := Option.some.inj h
      left
      rw [PathsWorld.insertSettlement] at hf
      split at hf
      · obtain hf | ⟨_, _, hid⟩ := found_reply hf
        · apply hf
        · right
          use k
          rw [hphase]
          apply hid
      · obtain hf | ⟨_, herr, _⟩ := found_reply hf
        · apply hf
        · cases herr

theorem check_rest (c : Except ApiError Unit) (phase : SettlePhase) :
  (v.check k r c phase).settler = v.settler ∧ (v.check k r c phase).intents = v.intents
  := by
  rw [PathsWorld.check.eq_def]
  split
  · use rfl
    rfl
  · use rfl
    rfl

/-- A statement of a request changes neither the database of the settler nor the intents. -/
theorem rest_proceed (h : settleProceed k v = some v') :
  v'.settler = v.settler ∧ v'.intents = v.intents
  := by
  rw [settleProceed.eq_def] at h
  split at h
  · cases h
  · obtain rfl := Option.some.inj h
    apply check_rest
  · obtain rfl := Option.some.inj h
    use rfl
    rfl
  · obtain rfl := Option.some.inj h
    use rfl
    rfl
  · obtain rfl := Option.some.inj h
    use rfl
    rfl
  · obtain rfl := Option.some.inj h
    apply check_rest
  · obtain rfl := Option.some.inj h
    apply check_rest
  · obtain rfl := Option.some.inj h
    apply check_rest
  · split at h
    all_goals
      obtain rfl := Option.some.inj h
      use rfl
      rfl
  · obtain rfl := Option.some.inj h
    apply check_rest
  · obtain rfl := Option.some.inj h
    rw [PathsWorld.insertSettlement]
    split
    · use rfl
      rfl
    · use rfl
      rfl

/-! ### Exclusive paths -/

/-- Intents that are found are in the table, and those that are promised are not. -/
structure Apart (v : PathsWorld) : Prop where
  linked : ∀ intentId, v.HasIntent intentId → intentId ∈ v.settler.db.intentHashes
  found : ∀ intentId, v.Found intentId → v.HasIntent intentId
  unpromised : ∀ intentId, Promised v.settler intentId → intentId ∉ v.settler.db.intentHashes

theorem apart_initial :
  Apart PathsWorld.initial
  := by
  constructor
  · rintro intentId ⟨i, hi, -⟩
    cases hi
  · rintro intentId (⟨r, settlementId, hmem, -⟩ | ⟨k, hk⟩)
    · cases hmem
    · cases hk
  · rintro intentId _ hmem
    cases hmem

/-- The step inserts no intent for which a job is there or may still be enqueued. -/
def InsertsUnpromised (v : PathsWorld) (a : PathsAction) : Prop :=
  ∀ row, a = .insertIntent row → ¬ Promised v.settler row.intentHash

/-- Requests and polls do not interfere: what they do to each other keeps the paths apart. -/
theorem Apart.of_rest (h : Apart v) (hsettler : v'.settler = v.settler)
    (hintents : v'.intents = v.intents)
    (hfound : ∀ intentId, v'.Found intentId → v.Found intentId ∨ v.HasIntent intentId) :
  Apart v'
  := by
  have hhas : ∀ intentId, v'.HasIntent intentId ↔ v.HasIntent intentId := by
    intro intentId
    rw [PathsWorld.HasIntent, hintents]
    rfl
  constructor
  · intro intentId hi
    rw [hsettler]
    apply h.linked intentId ((hhas intentId).mp hi)
  · intro intentId hf
    rw [hhas]
    obtain hf | hi := hfound intentId hf
    · apply h.found intentId hf
    · apply hi
  · rw [hsettler]
    apply h.unpromised

/-- A request that moves and has found nothing new keeps the paths apart. -/
theorem Apart.move (h : Apart v) {phase : SettlePhase}
    (hphase : ∀ intentId, phase.HasFound intentId → (v.requests k).HasFound intentId) :
  Apart (v.move k phase)
  := by
  refine h.of_rest rfl rfl ?_
  intro intentId hf
  left
  apply found_of_move (hphase intentId) hf

theorem pathsStep_settler {a : SettlerAction} (ha : ∀ hash, a ≠ .insertIntent hash) :
  pathsStep (.settler a) v
    = (settlerStep a v.settler).map fun settler => { v with settler := settler }
  := by
  cases a with
  | insertIntent hash => exact absurd rfl (ha hash)
  | _ => rfl

theorem settler_step {a : SettlerAction} (h : pathsStep (.settler a) v = some v') :
  (∀ hash, a ≠ .insertIntent hash)
    ∧ ∃ w, settlerStep a v.settler = some w ∧ v' = { v with settler := w }
  := by
  have ha : ∀ hash, a ≠ .insertIntent hash := by
    rintro hash rfl
    cases h
  rw [pathsStep_settler ha] at h
  obtain ⟨w, hw, rfl⟩ := Option.map_eq_some_iff.mp h
  use ha, w, hw

/-- A step that inserts no promised intent keeps the paths apart. -/
theorem Apart.step {a : PathsAction} (h : Apart v) (hc : InsertsUnpromised v a)
    (hstep : pathsStep a v = some v') :
  Apart v'
  := by
  cases a with
  | settler a =>
      obtain ⟨ha, w, hw, rfl⟩ := settler_step hstep
      have hhashes := intentHashes_step ha hw
      constructor
      · intro intentId hi
        rw [hhashes]
        apply h.linked intentId hi
      · apply h.found
      · intro intentId hp
        rw [hhashes]
        rcases promised_step hw hp with hp | hnot
        · apply h.unpromised intentId hp
        · apply hnot
  | insertIntent row =>
      rw [pathsStep] at hstep
      split at hstep
      · cases hstep
      · obtain ⟨w, hw, rfl⟩ := Option.map_eq_some_iff.mp hstep
        obtain rfl := Option.some.inj hw
        constructor
        · rintro intentId ⟨i, hi, hid⟩
          rcases List.mem_append.mp hi with hi | hi
          · apply List.mem_append_left _ (h.linked intentId ⟨i, hi, hid⟩)
          · obtain rfl := List.mem_singleton.mp hi
            rw [← hid]
            apply List.mem_concat_self
        · intro intentId hf
          obtain ⟨i, hi, hid⟩ := h.found intentId hf
          use i, List.mem_append_left _ hi
        · intro intentId hp hmem
          rcases List.mem_append.mp hmem with hmem | hmem
          · apply h.unpromised intentId hp hmem
          · obtain rfl := List.mem_singleton.mp hmem
            apply hc row rfl hp
  | linkIntent intentHash mpcSessionId =>
      obtain rfl := Option.some.inj hstep
      have hhas : ∀ intentId, (∃ i ∈ updateWhere (fun i : IntentLink => i.intentHash = intentHash)
          (fun i => { i with mpcSessionId := some mpcSessionId }) v.intents,
          i.intentHash = intentId) ↔ v.HasIntent intentId := by
        intro intentId
        have hmap : (updateWhere (fun i : IntentLink => i.intentHash = intentHash)
            (fun i => { i with mpcSessionId := some mpcSessionId }) v.intents).map
              IntentLink.intentHash = v.intents.map IntentLink.intentHash := by
          apply map_updateWhere
          intro i _ _
          rfl
        rw [← List.mem_map, hmap, List.mem_map]
        rfl
      constructor
      · intro intentId hi
        apply h.linked intentId ((hhas intentId).mp hi)
      · intro intentId hf
        apply (hhas intentId).mpr (h.found intentId hf)
      · apply h.unpromised
  | write tables =>
      obtain rfl := Option.some.inj hstep
      refine h.of_rest rfl rfl ?_
      intro intentId hf
      left
      apply hf
  | receive k r =>
      rw [pathsStep] at hstep
      split at hstep
      · obtain rfl := Option.some.inj hstep
        apply h.move
        intro intentId hfound
        cases hfound
      · cases hstep
  | proceed k =>
      obtain ⟨hsettler, hintents⟩ := rest_proceed hstep
      apply h.of_rest hsettler hintents fun _ hf => found_proceed hstep hf
  | raise k =>
      rw [pathsStep] at hstep
      split at hstep
      · cases hstep
      · obtain rfl := Option.some.inj hstep
        apply h.move
        intro intentId hfound
        cases hfound
      · case h_3 r hphase =>
          obtain rfl := Option.some.inj hstep
          apply h.move
          rw [hphase]
          exact fun _ => id
      · obtain rfl := Option.some.inj hstep
        apply h.move
        intro intentId hfound
        cases hfound

/-! ### Two runs -/

/-- A batch with a match of an intent. -/
def lateBatch : BatchRow where
  batchId := "b".toList
  sessionId := "s".toList
  batchHash := []
  matchCount := 1
  matchesJson := [⟨"h".toList, "g".toList, "5".toList, "X".toList, "Y".toList, none, none, none⟩]
  signaturesJson := []
  settlementStatus := .pending
  createdAt := 0

/-- A poll enqueues the job for the match. -/
def pollActions : List PathsAction :=
  [.settler (.insertBatch lateBatch), .settler (.settleOnce 0), .settler (.answer 0 .a),
    .settler (.answer 0 .b), .settler (.answer 0 .a), .settler (.answer 0 .b),
    .settler (.proceed 0 7 0), .settler (.proceed 0 7 0)]

/-- A quote for the intent that is accepted and filled, and a proof that is ready. -/
def filledTables : SettleTables where
  criticalRootMismatchCount := 0
  quotes := [⟨"q".toList, "h".toList, [], [], "QUOTE_ACCEPTED".toList, 100⟩]
  acceptances := [⟨"a".toList, "q".toList, "h".toList, [], 1⟩]
  fills := [⟨"f".toList, "q".toList, [], "EXECUTED".toList, some "t".toList, 0⟩]
  proofJobs := [⟨"p".toList, "ready".toList⟩]
  spentNullifiers := []
  matchedIntents := []

/-- A request to settle the intent. -/
def lateRequest : SettleRequest where
  userId := 1
  intentHash := "h".toList
  quoteId := "q".toList
  fillId := none
  fillReceiptHash := none
  proofJobId := "p".toList
  nullifier := "n".toList

/-- The intent is inserted, and settled through its quote. -/
def quoteActions : List PathsAction :=
  [.insertIntent ⟨"h".toList, some 1, none⟩, .write filledTables, .receive 0 lateRequest]
    ++ List.replicate 9 (.proceed 0)

/-! ### Settlements of intents -/

/-- If every intent is inserted before a job that names it is there or may still be enqueued, no
intent has both a job that settles a match of it and a settlement through its quote. -/
theorem paths_exclusive (actions : List PathsAction)
    (h : Along pathsStep InsertsUnpromised PathsWorld.initial actions) (intentId : Text) :
  ¬ ((∃ j ∈ (run pathsStep PathsWorld.initial actions).settler.db.jobs, NamesIntent j intentId)
    ∧ (run pathsStep PathsWorld.initial actions).Settled intentId)
  := by
  have hapart : Apart (run pathsStep PathsWorld.initial actions) :=
    invariant_run (fun v a v' (hv : Apart v) hc hstep => hv.step hc hstep) actions
      PathsWorld.initial h apart_initial
  rintro ⟨hjob, hsettled⟩
  apply hapart.unpromised intentId (.inl hjob)
  apply hapart.linked intentId (hapart.found intentId (.inl hsettled))

/-- An intent that is inserted first has no job when it is settled. -/
theorem paths_exclusive_early :
  ¬ ((∃ j ∈ (run pathsStep PathsWorld.initial (quoteActions ++ pollActions)).settler.db.jobs,
      NamesIntent j "h".toList)
    ∧ (run pathsStep PathsWorld.initial (quoteActions ++ pollActions)).Settled "h".toList)
  := by
  apply paths_exclusive
  constructor
  · rintro row _ (⟨j, hj, -⟩ | ⟨p, hp⟩)
    · cases hj
    · cases hp
  · apply along_of_forall
    intro a ha v row heq
    subst heq
    simp [pollActions] at ha

/-- An intent that is inserted when the job is there has both. -/
theorem paths_meet :
  ¬ ∀ (actions : List PathsAction) (intentId : Text),
    ¬ ((∃ j ∈ (run pathsStep PathsWorld.initial actions).settler.db.jobs, NamesIntent j intentId)
      ∧ (run pathsStep PathsWorld.initial actions).Settled intentId)
  := by
  intro h
  apply h (pollActions ++ quoteActions) "h".toList
  constructor
  · refine ⟨_, List.mem_cons_self, rfl, ?_⟩
    left
    rfl
  · have hreplies : (run pathsStep PathsWorld.initial (pollActions ++ quoteActions)).replies
        = [(lateRequest, .ok lateRequest.settlement.settlementId)] := rfl
    use lateRequest, lateRequest.settlement.settlementId
    rw [hreplies]
    use List.mem_cons_self
    rfl

end Shade.Api
