import Shade.Contract.IntentEscrow

/-!
# Acceptances are final

Anybody may call the intent escrow, in any order. What it keeps of an intent, a quote or an
acceptance is made once: later calls leave it alone. So the quote that was accepted for an intent is
the one of the first acceptance, and this acceptance came before both had expired.
-/

namespace Shade.IntentEscrow

open Machine

variable {w w' : World} {a : Action} {intentHash quoteHash userSignatureHash lockHash : Word}
  {intent : Intent} {quote : Quote}

/-! ### What is stored stays -/

/-- Every record of one store is in another one. -/
def Extends {V : Type} (s s' : Store Word V) : Prop :=
  ∀ k v, s.get k = some v → s'.get k = some v

theorem extends_set {V : Type} {s : Store Word V} {k : Word} {v : V} (h : s.get k = none) :
  Extends s (s.set k v)
  := by
  intro k' v' hv'
  rw [Store.get_set]
  split
  · next heq =>
      subst heq
      rw [h] at hv'
      cases hv'
  · exact hv'

/-- The intents, quotes and acceptances of a world are those of a later one, which may have
more. -/
structure Kept (w w' : World) : Prop where
  intents : Extends w.escrow.intents w'.escrow.intents
  quotes : Extends w.escrow.quotes w'.escrow.quotes
  accepted : Extends w.escrow.accepted w'.escrow.accepted

theorem Kept.refl (w : World) :
  Kept w w
  := by
  constructor <;> exact fun _ _ => id

theorem Kept.trans {w'' : World} (h : Kept w w') (h' : Kept w' w'') :
  Kept w w''
  := by
  constructor
  · exact fun k v hv => h'.intents k v (h.intents k v hv)
  · exact fun k v hv => h'.quotes k v (h.quotes k v hv)
  · exact fun k v hv => h'.accepted k v (h.accepted k v hv)

theorem step_kept (h : step a w = some w') :
  Kept w w'
  := by
  cases step_change h with
  | intent _ _ _ hfresh => exact ⟨extends_set hfresh, fun _ _ => id, fun _ _ => id⟩
  | quote _ _ _ hfresh => exact ⟨fun _ _ => id, extends_set hfresh, fun _ _ => id⟩
  | accept _ _ _ _ _ _ hfresh => exact ⟨fun _ _ => id, fun _ _ => id, extends_set hfresh⟩
  | other _ _ _ hintents hquotes haccepted =>
      constructor
      · rw [hintents]
        exact fun _ _ => id
      · rw [hquotes]
        exact fun _ _ => id
      · rw [haccepted]
        exact fun _ _ => id

/-- Nothing is lost along a run. -/
theorem run_kept (w : World) (actions : List Action) :
  Kept w (run w actions)
  := by
  apply invariant_run_of_step _ actions (Kept.refl w)
  intro v b v' hv hstep
  apply hv.trans (step_kept hstep)

/-! ### What is stored was called for -/

/-- A step accepts a quote for an intent: both are registered, and neither has expired. -/
def Accepting (intentHash quoteHash userSignatureHash : Word) :
    List Action → World → Action → World → Prop :=
  fun _ w a _ => a = .acceptQuote intentHash quoteHash userSignatureHash
    ∧ (∃ intent, w.escrow.intents.get intentHash = some intent
      ∧ w.sequence ≤ intent.expiryLedger.toNat)
    ∧ ∃ quote, w.escrow.quotes.get quoteHash = some quote
      ∧ w.sequence ≤ quote.validUntilLedger.toNat

/-- After a step, the acceptances are those of before and that of the step. -/
theorem step_accepted (as : List Action) (h : step a w = some w') :
  w'.escrow.accepted.get intentHash = some (quoteHash, userSignatureHash)
    ↔ w.escrow.accepted.get intentHash = some (quoteHash, userSignatureHash)
      ∨ Accepting intentHash quoteHash userSignatureHash as w a w'
  := by
  cases step_change h with
  | intent =>
      constructor
      · exact .inl
      · rintro (hold | ⟨ha, -⟩)
        · exact hold
        · cases ha
  | quote =>
      constructor
      · exact .inl
      · rintro (hold | ⟨ha, -⟩)
        · exact hold
        · cases ha
  | accept i q s intent quote _ hfresh hintent hquote hexpiry hvalid =>
      change (w.escrow.accepted.set i (q, s)).get intentHash = _ ↔ _
      constructor
      · intro hnew
        rw [Store.get_set] at hnew
        split at hnew
        · next heq =>
            subst heq
            obtain ⟨rfl, rfl⟩ := Prod.mk.inj (Option.some.inj hnew)
            right
            use rfl, ⟨intent, hintent, hexpiry⟩, quote, hquote, hvalid
        · exact .inl hnew
      · rintro (hold | ⟨ha, -⟩)
        · apply extends_set hfresh _ _ hold
        · obtain ⟨rfl, rfl, rfl⟩ := Action.acceptQuote.inj ha
          apply Store.get_set_self
  | other _ _ _ _ _ haccepted _ ha =>
      rw [haccepted]
      constructor
      · exact .inl
      · rintro (hold | ⟨haccept, -⟩)
        · exact hold
        · exact absurd haccept (ha _ _ _)

/-- The acceptances of a run of a fresh escrow are those that the run has made. -/
theorem run_accepted (sequence : ℕ) (actions : List Action) :
  (run (World.init sequence) actions).escrow.accepted.get intentHash
      = some (quoteHash, userSignatureHash)
    ↔ Occurs step (World.init sequence) (Accepting intentHash quoteHash userSignatureHash) actions
  := by
  refine history_run (I := fun as (w : World) => w.escrow.accepted.get intentHash
      = some (quoteHash, userSignatureHash)
    ↔ Occurs step (World.init sequence) (Accepting intentHash quoteHash userSignatureHash) as)
    ?_ ?_ ?_ actions
  · constructor
    · intro h
      cases h
    · exact fun h => absurd h not_occurs_nil
  · intro as a s' ih hstep
    rw [occurs_concat hstep, ← ih]
    apply step_accepted as hstep
  · intro as a ih hstep
    rw [occurs_concat_of_none hstep, ih]

/-- The lock is for a registered quote. -/
def Locked (w : World) : Prop :=
  ∀ q l, w.escrow.locks.get q = some l → w.escrow.quotes.get q ≠ none

theorem step_locked (hw : Locked w) (h : step a w = some w') :
  Locked w'
  := by
  intro q l hl
  have hkept := (step_kept h).quotes
  have hquote : w.escrow.quotes.get q ≠ none := by
    cases step_change h with
    | intent => exact hw q l hl
    | quote => exact hw q l hl
    | accept => exact hw q l hl
    | other _ _ _ _ _ _ hlocks =>
        rcases hlocks q l hl with hold | hquote
        · exact hw q l hold
        · exact hquote
  obtain ⟨quote, hquote⟩ := Option.ne_none_iff_exists'.mp hquote
  rw [hkept q quote hquote]
  simp

/-- The action accepts some quote for an intent. -/
def Action.Accepts : Action → Word → Prop
  | .acceptQuote intentHash _ _, i => intentHash = i
  | _, _ => False

/-- In every run of a fresh escrow, by whomever and in whatever order the calls are made: the
acceptance kept for an intent is the one that a call has made, when neither the intent nor the quote
had expired; there is no second one for the same intent; no intent, quote or acceptance is changed
or removed by what follows; and locks are for registered quotes only. -/
theorem acceptance_is_final (sequence : ℕ) (actions : List Action) :
  (∀ intentHash quoteHash userSignatureHash,
      (run (World.init sequence) actions).escrow.accepted.get intentHash
          = some (quoteHash, userSignatureHash)
        ↔ Occurs step (World.init sequence) (Accepting intentHash quoteHash userSignatureHash)
            actions)
    ∧ (trace step (World.init sequence) actions).Pairwise
        (fun a b => ∀ intentHash, a.Accepts intentHash → ¬ b.Accepts intentHash)
    ∧ (∀ more, Kept (run (World.init sequence) actions) (run (World.init sequence) (actions ++ more)))
    ∧ Locked (run (World.init sequence) actions)
  := by
  use fun _ _ _ => run_accepted sequence actions
  constructor
  · apply trace_pairwise (fun w i => w.escrow.accepted.get i ≠ none) Action.Accepts
      (C := fun _ _ => True) _ _ _ _ (along_of_forall (fun _ _ _ => trivial) _)
    · intro w a w' i h hused
      obtain ⟨record, hrecord⟩ := Option.ne_none_iff_exists'.mp hused
      rw [(step_kept h).accepted i record hrecord]
      simp
    · intro w a w' i _ h haccepts
      cases step_change h with
      | intent => cases haccepts
      | quote => cases haccepts
      | accept i' q s _ _ _ hfresh =>
          obtain rfl : i' = i := haccepts
          constructor
          · exact fun hused => hused hfresh
          · change (w.escrow.accepted.set i' (q, s)).get i' ≠ none
            rw [Store.get_set_self]
            simp
      | other _ _ _ _ _ _ _ ha =>
          cases a with
          | acceptQuote i' q s => exact absurd rfl (ha i' q s)
          | _ => cases haccepts
  · constructor
    · intro more
      simp only [run, Machine.run_append]
      apply run_kept
    · apply invariant_run_of_step fun _ _ _ => step_locked
      intro q l hl
      cases hl

end Shade.IntentEscrow
