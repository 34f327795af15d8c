import Shade.Api.Quotes

/-!
# One acceptance for an intent

The route checks that the quote is not accepted yet, not that no quote of the intent is.
`acceptance_final` says that acceptances are for one quote of an intent only, and remain, as long as
a request that passes the checks of the route on its intent and its quote only arrives when no other
quote of the intent is accepted, or asked for by another such request that is being processed.
`second_accepted` says that one which arrives when another quote is accepted is accepted as well.
-/

namespace Shade.Api

open Text Table

/-- The acceptances for an intent are all for the same quote. -/
def OneQuote (acceptances : List QuoteAcceptance) : Prop :=
  ∀ a ∈ acceptances, ∀ b ∈ acceptances, a.intentHash = b.intentHash → a.quoteId = b.quoteId

/-- The request passes the checks of the route: its user may use the intent, and the quote is one
for the intent. -/
structure AcceptRequest.Passes (r : AcceptRequest) (db : Rfq) : Prop where
  owned : requireOwnedIntent r.userId (db.intents.find? fun i => i.id = r.intentHash) = .ok ()
  quoted : ∃ q, db.quotes.find? (fun q => q.quoteId = r.quoteId) = some q
    ∧ q.intentHash = r.intentHash

/-- The request whose acceptance is not inserted yet. -/
def AcceptPhase.pending : AcceptPhase → Option AcceptRequest
  | .selectOwner r => some r
  | .selectIntent r => some r
  | .selectQuote r _ => some r
  | .selectAccepted r _ _ => some r
  | .selectFill r _ _ _ => some r
  | .insertAcceptance r => some r
  | _ => none

/-- A request that passes the checks of the route arrives only when no other quote of its intent is
accepted, nor asked for by another request that passes them. -/
def Unrivalled (w : AcceptWorld) : AcceptAction → Prop
  | .receive _ userId quoteId body =>
      ∀ r, quoteAcceptanceSchema userId quoteId body = some r → r.Passes w.db →
        (∀ a ∈ w.db.acceptances, a.intentHash = r.intentHash → a.quoteId = r.quoteId)
          ∧ ∀ k r', (w.requests k).pending = some r' → r'.Passes w.db →
            r'.intentHash = r.intentHash → r'.quoteId = r.quoteId
  | _ => True

variable {w w' : AcceptWorld} {acceptances : List QuoteAcceptance}

/-- What a request has found out about its intent and its quote. -/
def AcceptPhase.Found (db : Rfq) : AcceptPhase → Prop
  | .selectIntent r =>
      requireOwnedIntent r.userId (db.intents.find? fun i => i.id = r.intentHash) = .ok ()
  | .selectQuote r _ =>
      requireOwnedIntent r.userId (db.intents.find? fun i => i.id = r.intentHash) = .ok ()
  | .selectAccepted r _ quote =>
      requireOwnedIntent r.userId (db.intents.find? fun i => i.id = r.intentHash) = .ok ()
        ∧ quote = db.quotes.find? fun q => q.quoteId = r.quoteId
  | .selectFill r _ quote _ =>
      requireOwnedIntent r.userId (db.intents.find? fun i => i.id = r.intentHash) = .ok ()
        ∧ quote = db.quotes.find? fun q => q.quoteId = r.quoteId
  | .insertAcceptance r => r.Passes db
  | _ => True

/-- The acceptances are for one quote of each intent, some are among them, and the pending requests
that pass the checks agree with them and with each other. -/
structure Final (acceptances : List QuoteAcceptance) (w : AcceptWorld) : Prop where
  oneQuote : OneQuote w.db.acceptances
  subset : acceptances ⊆ w.db.acceptances
  found : ∀ k, (w.requests k).Found w.db
  stored : ∀ k r, (w.requests k).pending = some r → r.Passes w.db →
    ∀ a ∈ w.db.acceptances, a.intentHash = r.intentHash → a.quoteId = r.quoteId
  agree : ∀ k k' r r', (w.requests k).pending = some r → (w.requests k').pending = some r' →
    r.Passes w.db → r'.Passes w.db → r.intentHash = r'.intentHash → r.quoteId = r'.quoteId

/-- A world without requests whose acceptances are for one quote of each intent. -/
theorem final_of_idle (h : OneQuote w.db.acceptances) (hidle : ∀ k, w.requests k = .idle) :
  Final w.db.acceptances w
  where
  oneQuote := h
  subset := List.Subset.refl _
  found k := by
    rw [hidle k]
    trivial
  stored k r hr := by
    rw [hidle k] at hr
    cases hr
  agree k _ r _ hr := by
    rw [hidle k] at hr
    cases hr

/-! ### Steps that insert no acceptance -/

/-- A request that goes on, or that is answered. -/
theorem Final.goes (h : Final acceptances w) {k : ℕ} {p : AcceptPhase}
    {replies : List (Except ApiError Text)} (hfound : p.Found w.db)
    (hpending : ∀ r, p.pending = some r → (w.requests k).pending = some r) :
  Final acceptances ⟨w.db, Function.update w.requests k p, replies⟩
  := by
  have hsame : ∀ k' r, (Function.update w.requests k p k').pending = some r →
      (w.requests k').pending = some r := by
    intro k' r hr
    rw [Function.update_apply] at hr
    split at hr
    · case isTrue hk =>
        rw [hk]
        apply hpending r hr
    · exact hr
  constructor
  · exact h.oneQuote
  · exact h.subset
  · intro k'
    change (Function.update w.requests k p k').Found w.db
    rw [Function.update_apply]
    split
    · exact hfound
    · apply h.found
  · intro k' r hr
    apply h.stored k' r (hsame k' r hr)
  · intro k₁ k₂ r₁ r₂ hr₁ hr₂
    apply h.agree k₁ k₂ r₁ r₂ (hsame k₁ r₁ hr₁) (hsame k₂ r₂ hr₂)

/-- A request that is answered. -/
theorem Final.reply (h : Final acceptances w) (k : ℕ) (answer : Except ApiError Text) :
  Final acceptances (w.reply k answer)
  := h.goes trivial fun _ hr => nomatch hr

/-- A request goes on if a check passes, and is answered otherwise. -/
theorem Final.check (h : Final acceptances w) {k : ℕ} {c : Except ApiError Unit} {p : AcceptPhase}
    (hfound : c = .ok () → p.Found w.db)
    (hpending : ∀ r, p.pending = some r → (w.requests k).pending = some r) :
  Final acceptances (w.check k c p)
  := by
  cases c with
  | error e => exact h.reply k (.error e)
  | ok _ => exact h.goes (hfound rfl) hpending

/-- A request arrives. -/
theorem Final.receive (h : Final acceptances w) {k : ℕ} {r : AcceptRequest}
    (hstored : r.Passes w.db → ∀ a ∈ w.db.acceptances, a.intentHash = r.intentHash →
      a.quoteId = r.quoteId)
    (hagree : r.Passes w.db → ∀ k r', (w.requests k).pending = some r' → r'.Passes w.db →
      r'.intentHash = r.intentHash → r'.quoteId = r.quoteId) :
  Final acceptances (w.move k (.selectOwner r))
  := by
  have hcases : ∀ k' r', (Function.update w.requests k (.selectOwner r) k').pending = some r' →
      r' = r ∨ (w.requests k').pending = some r' := by
    intro k' r' hr'
    rw [Function.update_apply] at hr'
    split at hr'
    · left
      exact (Option.some.inj hr').symm
    · right
      exact hr'
  constructor
  · exact h.oneQuote
  · exact h.subset
  · intro k'
    change (Function.update w.requests k (.selectOwner r) k').Found w.db
    rw [Function.update_apply]
    split
    · trivial
    · apply h.found
  · intro k' r' hr' hpasses
    obtain heq | hold := hcases k' r' hr'
    · subst heq
      apply hstored hpasses
    · apply h.stored k' r' hold hpasses
  · intro k₁ k₂ r₁ r₂ hr₁ hr₂ hpasses₁ hpasses₂ hintent
    obtain heq₁ | hold₁ := hcases k₁ r₁ hr₁
    · obtain heq₂ | hold₂ := hcases k₂ r₂ hr₂
      · rw [heq₁, heq₂]
      · subst heq₁
        apply (hagree hpasses₁ k₂ r₂ hold₂ hpasses₂ hintent.symm).symm
    · obtain heq₂ | hold₂ := hcases k₂ r₂ hr₂
      · subst heq₂
        apply hagree hpasses₂ k₁ r₁ hold₁ hpasses₁ hintent
      · apply h.agree k₁ k₂ r₁ r₂ hold₁ hold₂ hpasses₁ hpasses₂ hintent

/-- A request that has passed the checks of the lifecycle has a quote for its intent. -/
theorem exists_quote_of_checkLifecycle {r : AcceptRequest} {lc : RfqLifecycle}
    (h : checkLifecycle r lc = .ok ()) :
  ∃ q, lc.quote = some q ∧ q.intentHash = r.intentHash ∧ lc.accepted = false
  := by
  rw [checkLifecycle] at h
  cases hq : lc.quote with
  | none =>
      rw [hq] at h
      cases h
  | some q =>
      rw [hq] at h
      by_cases hintent : q.intentHash = r.intentHash
      · simp only [ensure, if_pos hintent] at h
        by_cases haccepted : lc.accepted = false
        · exact ⟨q, rfl, hintent, haccepted⟩
        · change (if lc.accepted = false then Except.ok () else _) = _ at h
          rw [if_neg haccepted] at h
          cases h
      · simp only [ensure, if_neg hintent] at h
        cases h

/-! ### The insertion -/

/-- An acceptance for an intent is added to those for the same quote. -/
theorem OneQuote.insert (h : OneQuote acceptances) {a : QuoteAcceptance}
    (ha : ∀ b ∈ acceptances, b.intentHash = a.intentHash → b.quoteId = a.quoteId) :
  OneQuote (insertOrNothing a.Clashes a acceptances)
  := by
  rw [insertOrNothing]
  split
  · exact h
  · intro b hb c hc hbc
    rw [List.mem_append, List.mem_singleton] at hb hc
    rcases hb with hb | rfl
    · rcases hc with hc | rfl
      · apply h b hb c hc hbc
      · apply ha b hb hbc
    · rcases hc with hc | rfl
      · apply (ha c hc hbc.symm).symm
      · rfl

theorem mem_insertOrNothing {a b : QuoteAcceptance}
    (hb : b ∈ insertOrNothing a.Clashes a acceptances) :
  b ∈ acceptances ∨ b = a
  := by
  rw [insertOrNothing] at hb
  split at hb
  · left
    exact hb
  · rw [List.mem_append, List.mem_singleton] at hb
    exact hb

/-- A request that has passed the checks inserts its acceptance. -/
theorem Final.insert (h : Final acceptances w) {k : ℕ} {r : AcceptRequest} {db : Rfq}
    (hphase : w.requests k = .insertAcceptance r)
    (hinsert : insertAcceptance r.acceptance w.db = some db) :
  Final acceptances ((w.write db).move k (.insertTransition r))
  := by
  rw [insertAcceptance] at hinsert
  split at hinsert
  · cases hinsert
    have hpasses : r.Passes w.db := by
      have hfound := h.found k
      rw [hphase] at hfound
      exact hfound
    have hpending : (w.requests k).pending = some r := by
      rw [hphase]
      rfl
    have hothers : ∀ k' r', (Function.update w.requests k (.insertTransition r) k').pending
        = some r' → (w.requests k').pending = some r' := by
      intro k' r' hr'
      rw [Function.update_apply] at hr'
      split at hr'
      · cases hr'
      · exact hr'
    constructor
    · apply h.oneQuote.insert (h.stored k r hpending hpasses)
    · apply List.Subset.trans h.subset subset_insertOrNothing
    · intro k'
      change (Function.update w.requests k (.insertTransition r) k').Found _
      rw [Function.update_apply]
      split
      · trivial
      · have hfound := h.found k'
        -- what a request has found does not depend on the acceptances
        cases hother : w.requests k' with
        | insertAcceptance r' =>
            rw [hother] at hfound
            exact ⟨hfound.owned, hfound.quoted⟩
        | _ =>
            rw [hother] at hfound
            exact hfound
    · intro k' r' hr' hpasses' a ha hintent
      have hr' := hothers k' r' hr'
      have hpasses' : r'.Passes w.db := ⟨hpasses'.owned, hpasses'.quoted⟩
      obtain ha | rfl := mem_insertOrNothing ha
      · apply h.stored k' r' hr' hpasses' a ha hintent
      · apply h.agree k k' r r' hpending hr' hpasses hpasses' hintent
    · intro k₁ k₂ r₁ r₂ hr₁ hr₂ hpasses₁ hpasses₂
      apply h.agree k₁ k₂ r₁ r₂ (hothers k₁ r₁ hr₁) (hothers k₂ r₂ hr₂)
        ⟨hpasses₁.owned, hpasses₁.quoted⟩ ⟨hpasses₂.owned, hpasses₂.quoted⟩
  · cases hinsert

/-- The insertion of a transition changes neither intents nor quotes nor acceptances. -/
theorem Final.log (h : Final acceptances w) (t : StateTransition) :
  Final acceptances (w.write (w.db.log t))
  where
  oneQuote := h.oneQuote
  subset := h.subset
  found k := by
    have hfound := h.found k
    change (w.requests k).Found _
    cases hphase : w.requests k with
    | insertAcceptance r =>
        rw [hphase] at hfound
        exact ⟨hfound.owned, hfound.quoted⟩
    | _ =>
        rw [hphase] at hfound
        exact hfound
  stored k r hr hpasses := h.stored k r hr ⟨hpasses.owned, hpasses.quoted⟩
  agree k k' r r' hr hr' hpasses hpasses' :=
    h.agree k k' r r' hr hr' ⟨hpasses.owned, hpasses.quoted⟩ ⟨hpasses'.owned, hpasses'.quoted⟩

/-! ### Runs -/

/-- One step. -/
theorem Final.step (h : Final acceptances w) {action : AcceptAction}
    (hunrivalled : Unrivalled w action) (hstep : acceptStep action w = some w') :
  Final acceptances w'
  := by
  cases action with
  | receive k userId quoteId body =>
      simp only [acceptStep] at hstep
      split at hstep
      · cases hread : quoteAcceptanceSchema userId quoteId body with
        | none =>
            rw [hread] at hstep
            cases hstep
            apply h.reply
        | some r =>
            rw [hread] at hstep
            cases hstep
            apply h.receive
            · intro hpasses
              apply (hunrivalled r hread hpasses).1
            · intro hpasses
              apply (hunrivalled r hread hpasses).2
      · cases hstep
  | proceed k =>
      simp only [acceptStep, proceed] at hstep
      have hfound := h.found k
      cases hphase : w.requests k with
      | idle =>
          rw [hphase] at hstep
          cases hstep
      | insertAcceptance r =>
          rw [hphase] at hstep
          cases hinsert : insertAcceptance r.acceptance w.db with
          | none =>
              simp only [hinsert, Option.some.injEq] at hstep
              subst hstep
              apply h.reply
          | some db =>
              simp only [hinsert, Option.some.injEq] at hstep
              subst hstep
              apply h.insert hphase hinsert
      | selectOwner r =>
          rw [hphase] at hstep
          cases hstep
          apply h.check
          · intro howned
            exact howned
          · intro r' hr'
            rw [hphase]
            exact hr'
      | selectFill r intent quote accepted =>
          rw [hphase] at hstep hfound
          cases hstep
          apply h.check
          · intro hlifecycle
            obtain ⟨q, hq, hintent, -⟩ := exists_quote_of_checkLifecycle hlifecycle
            use hfound.1
            rw [← hfound.2]
            use q
          · intro r' hr'
            rw [hphase]
            exact hr'
      | selectIntent r =>
          rw [hphase] at hstep hfound
          cases hstep
          refine h.goes hfound ?_
          intro r' hr'
          rw [hphase]
          exact hr'
      | selectQuote r intent =>
          rw [hphase] at hstep hfound
          cases hstep
          refine h.goes ⟨hfound, rfl⟩ ?_
          intro r' hr'
          rw [hphase]
          exact hr'
      | selectAccepted r intent quote =>
          rw [hphase] at hstep hfound
          cases hstep
          refine h.goes hfound ?_
          intro r' hr'
          rw [hphase]
          exact hr'
      | insertTransition r =>
          rw [hphase] at hstep
          cases hstep
          apply (h.log _).reply
  | raise k =>
      simp only [acceptStep] at hstep
      split at hstep
      · cases hstep
      · cases hstep
        apply h.reply

/-- Along steps in which a request that passes the checks of the route on its intent and its quote
arrives only when no other quote of the intent is accepted, nor asked for by another such request,
the acceptances for an intent are all for the same quote, and acceptances remain. -/
theorem acceptance_final (h : OneQuote w.db.acceptances) (hidle : ∀ k, w.requests k = .idle)
    (actions : List AcceptAction)
    (hunrivalled : Machine.Along acceptStep Unrivalled w actions) :
  OneQuote (acceptRun w actions).db.acceptances
    ∧ w.db.acceptances ⊆ (acceptRun w actions).db.acceptances
  := by
  have hfinal : Final w.db.acceptances (acceptRun w actions) :=
    Machine.invariant_run (fun _ _ _ hs hc hstep => hs.step hc hstep) actions w hunrivalled
      (final_of_idle h hidle)
  exact ⟨hfinal.oneQuote, hfinal.subset⟩

/-! ### A second quote -/

theorem acceptRun_cons {action : AcceptAction} {actions : List AcceptAction}
    (h : acceptStep action w = some w') :
  acceptRun w (action :: actions) = acceptRun w' actions
  := by
  rw [acceptRun, Machine.run, Machine.next_of_some h]
  rfl

theorem requests_move (w : AcceptWorld) (k : ℕ) (p : AcceptPhase) :
  (w.move k p).requests k = p
  := by
  change Function.update w.requests k p k = p
  rw [Function.update_self]

/-- The acceptance of a request that passes the checks refers to its quote and its intent. -/
theorem AcceptRequest.Passes.refers {r : AcceptRequest} {db : Rfq} (h : r.Passes db) :
  r.acceptance.Refers db
  := by
  obtain ⟨howned, q, hq, -⟩ := h
  constructor
  · use q, List.mem_of_find?_eq_some hq
    exact of_decide_eq_true (List.find?_some hq :)
  · cases hi : db.intents.find? fun i => i.id = r.intentHash with
    | none =>
        rw [hi] at howned
        cases howned
    | some i =>
        use i, List.mem_of_find?_eq_some hi
        exact of_decide_eq_true (List.find?_some hi :)

/-- A request that passes the checks is accepted if neither its quote nor its key is taken and it is
processed without an error, whatever other quotes of its intent are accepted. -/
theorem accepted_of_passes {k : ℕ} (hidle : w.requests k = .idle) {userId : Uuid} {quoteId : Text}
    {body : Json} {r : AcceptRequest}
    (hread : quoteAcceptanceSchema userId quoteId body = some r) (hpasses : r.Passes w.db)
    (hnew : ∀ a ∈ w.db.acceptances, ¬ r.acceptance.Clashes a) :
  (acceptRun w (.receive k userId quoteId body :: List.replicate 7 (.proceed k))).db.acceptances
    = w.db.acceptances ++ [r.acceptance]
  := by
  obtain ⟨q, hq, hintent⟩ := hpasses.quoted
  have hunaccepted : (w.db.acceptances.any fun a => a.quoteId = r.quoteId) = false := by
    rw [List.any_eq_false]
    intro a ha heq
    apply hnew a ha (.inr (of_decide_eq_true heq))
  have hlifecycle : ∀ intent fill, checkLifecycle r ⟨intent, some q, false, fill⟩ = .ok () := by
    intro intent fill
    simp only [checkLifecycle, ensure, if_pos hintent]
    rfl
  have hclash : ¬ ∃ a ∈ w.db.acceptances, r.acceptance.Clashes a := by
    rintro ⟨a, ha, hclash⟩
    apply hnew a ha hclash
  have hinsert : insertAcceptance r.acceptance w.db
      = some { w.db with acceptances := w.db.acceptances ++ [r.acceptance] } := by
    rw [insertAcceptance, if_pos (.inr hpasses.refers), insertOrNothing, if_neg hclash]
  have hreceive : acceptStep (.receive k userId quoteId body) w
      = some (w.move k (.selectOwner r)) := by
    simp only [acceptStep, hidle, hread]
  -- every statement but the last two finds the tables as they were
  have howner : ∀ w₁ : AcceptWorld, w₁.db = w.db → w₁.requests k = .selectOwner r →
      proceed k w₁ = some (w₁.move k (.selectIntent r)) := by
    intro w₁ hdb hphase
    simp only [proceed, hphase, hdb, hpasses.owned, AcceptWorld.check]
  have hfill : ∀ (w₁ : AcceptWorld) (i : Option (Row IntentData)), w₁.db = w.db →
      w₁.requests k = .selectFill r i (some q) false →
      proceed k w₁ = some (w₁.move k (.insertAcceptance r)) := by
    intro w₁ i hdb hphase
    simp only [proceed, hphase, hlifecycle, AcceptWorld.check]
  have hrun : ∀ (w₁ w₂ : AcceptWorld) (n : ℕ), proceed k w₁ = some w₂ →
      acceptRun w₁ (List.replicate (n + 1) (.proceed k))
        = acceptRun w₂ (List.replicate n (.proceed k)) := by
    intro w₁ w₂ n h
    exact acceptRun_cons h
  set i := w.db.intents.find? fun i => i.id = r.intentHash
  let w₁ := w.move k (.selectOwner r)
  let w₂ := w₁.move k (.selectIntent r)
  let w₃ := w₂.move k (.selectQuote r i)
  let w₄ := w₃.move k (.selectAccepted r i (some q))
  let w₅ := w₄.move k (.selectFill r i (some q) false)
  let w₆ := w₅.move k (.insertAcceptance r)
  have h₂ : proceed k w₂ = some w₃ := by
    rw [proceed, requests_move]
    rfl
  have h₃ : proceed k w₃ = some w₄ := by
    rw [proceed, requests_move]
    change some (w₃.move k (.selectAccepted r i (w.db.quotes.find? _))) = _
    rw [hq]
  have h₄ : proceed k w₄ = some w₅ := by
    rw [proceed, requests_move]
    change some (w₄.move k (.selectFill r i (some q) (w.db.acceptances.any _))) = _
    rw [hunaccepted]
  have h₆ : proceed k w₆ = some ((w₆.write
      { w.db with acceptances := w.db.acceptances ++ [r.acceptance] }).move k
        (.insertTransition r)) := by
    have hinsert : insertAcceptance r.acceptance w₆.db = _ := hinsert
    rw [proceed, requests_move]
    simp only [hinsert]
  rw [acceptRun_cons hreceive, hrun w₁ w₂ 6 (howner w₁ rfl (requests_move w k _)),
    hrun w₂ w₃ 5 h₂, hrun w₃ w₄ 4 h₃, hrun w₄ w₅ 3 h₄,
    hrun w₅ w₆ 2 (hfill w₅ i rfl (requests_move w₄ k _)), hrun w₆ _ 1 h₆]
  have hend : ∀ w₇ : AcceptWorld, w₇.requests k = .insertTransition r →
      (acceptRun w₇ (List.replicate 1 (.proceed k))).db.acceptances = w₇.db.acceptances := by
    intro w₇ hphase
    have h₇ : proceed k w₇ = some ((w₇.write (w₇.db.log
        ⟨"quote".toList, r.quoteId, "QUOTE_ACCEPTED".toList⟩)).reply k
          (.ok r.acceptance.acceptanceId)) := by
      rw [proceed, hphase]
    rw [hrun w₇ _ 0 h₇]
    rfl
  apply hend
  apply requests_move

/-- If another quote of its intent is accepted, then the acceptances are for two quotes of it. -/
theorem second_accepted {k : ℕ} (hidle : w.requests k = .idle) {userId : Uuid} {quoteId : Text}
    {body : Json} {r : AcceptRequest}
    (hread : quoteAcceptanceSchema userId quoteId body = some r) (hpasses : r.Passes w.db)
    (hnew : ∀ a ∈ w.db.acceptances, ¬ r.acceptance.Clashes a) {a : QuoteAcceptance}
    (ha : a ∈ w.db.acceptances) (hintent : a.intentHash = r.intentHash) :
  ¬ OneQuote (acceptRun w
    (.receive k userId quoteId body :: List.replicate 7 (.proceed k))).db.acceptances
  := by
  rw [accepted_of_passes hidle hread hpasses hnew]
  intro h
  have heq := h a (List.mem_append_left _ ha) r.acceptance
    (List.mem_append_right _ (List.mem_singleton_self _)) hintent
  apply hnew a ha (.inr heq)

/-! ### Two quotes of one intent -/

/-- An intent of a user with two quotes. -/
def twoQuotes : AcceptWorld where
  db := {
    intents := [⟨"0xaa".toList, "key-0001".toList, ⟨[], .null, 100, [], []⟩, some 1, []⟩]
    quotes := [⟨"quote-1".toList, "0xaa".toList, "0x01".toList, "solver-1".toList,
        "QUOTE_RECEIVED".toList, 100⟩,
      ⟨"quote-2".toList, "0xaa".toList, "0x02".toList, "solver-2".toList,
        "QUOTE_RECEIVED".toList, 100⟩]
    acceptances := []
    fills := []
    transitions := [] }
  requests _ := .idle
  replies := []

/-- The user accepts a quote, without another request in between. -/
def accepting (k : ℕ) (quoteId : Text) : List AcceptAction :=
  .receive k 1 quoteId (.object [("intent_hash".toList, .string "0xaa".toList),
    ("user_signature_hash".toList, .string "0x33".toList)]) :: List.replicate 7 (.proceed k)

/-- One quote is accepted. -/
theorem accepting_final :
  OneQuote (acceptRun twoQuotes (accepting 0 "quote-1".toList)).db.acceptances
    ∧ twoQuotes.db.acceptances
      ⊆ (acceptRun twoQuotes (accepting 0 "quote-1".toList)).db.acceptances
  := by
  apply acceptance_final
  · intro a ha
    cases ha
  · intro k
    rfl
  · refine ⟨?_, trivial, trivial, trivial, trivial, trivial, trivial, trivial, trivial⟩
    intro r _ _
    constructor
    · intro a ha
      cases ha
    · intro k r' hr'
      cases hr'

/-- Then the other quote of the intent is accepted as well. -/
theorem accepting_both :
  ¬ OneQuote (acceptRun twoQuotes
    (accepting 0 "quote-1".toList ++ accepting 1 "quote-2".toList)).db.acceptances
  := by
  intro h
  have hrows : (acceptRun twoQuotes
      (accepting 0 "quote-1".toList ++ accepting 1 "quote-2".toList)).db.acceptances.map
        (fun a => (a.quoteId, a.intentHash))
      = [("quote-1".toList, "0xaa".toList), ("quote-2".toList, "0xaa".toList)] := by
    decide +kernel
  obtain ⟨a, ha, haq⟩ := List.mem_map.mp (hrows ▸ List.mem_cons_self)
  obtain ⟨b, hb, hbq⟩ := List.mem_map.mp
    (hrows ▸ List.mem_cons_of_mem _ (List.mem_singleton_self _))
  rw [Prod.mk.injEq] at haq hbq
  have heq := h a ha b hb (haq.2.trans hbq.2.symm)
  rw [haq.1, hbq.1] at heq
  revert heq
  decide

end Shade.Api
