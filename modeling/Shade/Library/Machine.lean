import Mathlib.Data.List.Infix
import Mathlib.Data.List.Pairwise

/-!
# Machines whose steps may fail

A machine on states `S` with actions `A` is a partial step function `A → S → Option S`. An
action that fails leaves the state as it was. `run` is the state after a list of actions,
`trace` the sublist of those that succeeded, in order.

Three rules are proved once here. `invariant_run`: what every successful step preserves
holds after every run, also when the steps are only known to preserve it under a condition
on the state they start from (`invariant_run_of_step` is the case without one, and
`invariant_run_of_trace` the case of a condition on the actions that succeed).
`trace_pairwise`: if successful actions use up keys, never succeed with a key used before, and
no step gives a key back, then no two actions of one trace use the same key, again under a
condition along the run. `history_run`: an invariant may also speak of the steps that have
occurred before. `run_eq_run_trails` compares two machines on the same states.
-/

namespace Machine

variable {S A K : Type} (step : A → S → Option S)

/-- The state after an action: the state it leads to, or the same state if it fails. -/
def next (s : S) (a : A) : S := (step a s).getD s

/-- The state after a list of actions. -/
def run : S → List A → S
  | s, [] => s
  | s, a :: as => run (next step s a) as

/-- The actions of a list that succeed, in order. -/
def trace : S → List A → List A
  | _, [] => []
  | s, a :: as =>
      match step a s with
      | some s' => a :: trace s' as
      | none => trace s as

/-- Every action of the list meets the condition `C` in the state it starts from. -/
def Along (C : S → A → Prop) : S → List A → Prop
  | _, [] => True
  | s, a :: as => C s a ∧ Along C (next step s a) as

instance decidableAlong (C : S → A → Prop) [∀ s a, Decidable (C s a)] :
    (s : S) → (as : List A) → Decidable (Along step C s as)
  | _, [] => isTrue trivial
  | s, a :: as =>
      @instDecidableAnd _ _ inferInstance (decidableAlong C (next step s a) as)

variable {step}

/-- A weaker condition holds along the same run. -/
theorem Along.imp {C D : S → A → Prop} (h : ∀ s a, C s a → D s a) {s : S} {as : List A}
    (hC : Along step C s as) :
  Along step D s as
  := by
  induction as generalizing s with
  | nil => trivial
  | cons a as ih => use h s a hC.1, ih hC.2

theorem next_of_some {s s' : S} {a : A} (h : step a s = some s') :
  next step s a = s'
  := by
  simp [next, h]

theorem next_of_none {s : S} {a : A} (h : step a s = none) :
  next step s a = s
  := by
  simp [next, h]

/-- An action that succeeds leads to the next state. -/
theorem eq_some_next {s : S} {a : A} (h : (step a s).isSome = true) :
  step a s = some (next step s a)
  := by
  obtain ⟨s', hs'⟩ := Option.isSome_iff_exists.mp h
  rw [next_of_some hs', hs']

/-- A condition holds along two lists of actions if it holds along the first, and along the
second from where the first leads. -/
theorem Along.append {C : S → A → Prop} {s : S} {as bs : List A} (has : Along step C s as)
    (hbs : Along step C (run step s as) bs) :
  Along step C s (as ++ bs)
  := by
  induction as generalizing s with
  | nil => exact hbs
  | cons a as ih => use has.1, ih has.2 hbs

/-- What holds along a run holds along the beginning of it. -/
theorem Along.of_append {C : S → A → Prop} {s : S} {as bs : List A}
    (h : Along step C s (as ++ bs)) :
  Along step C s as
  := by
  induction as generalizing s with
  | nil => trivial
  | cons a as ih => use h.1, ih h.2

/-- Two conditions hold along a run if each of them does. -/
theorem Along.and {C D : S → A → Prop} {s : S} {as : List A} (hC : Along step C s as)
    (hD : Along step D s as) :
  Along step (fun s a => C s a ∧ D s a) s as
  := by
  induction as generalizing s with
  | nil => trivial
  | cons a as ih => use ⟨hC.1, hD.1⟩, ih hC.2 hD.2

/-- What every successful step preserves, under a condition that holds along the run,
holds after the run. -/
theorem invariant_run {I : S → Prop} {C : S → A → Prop}
    (hstep : ∀ s a s', I s → C s a → step a s = some s' → I s') :
  ∀ (as : List A) (s : S), Along step C s as → I s → I (run step s as)
  | [], _, _, hs => hs
  | a :: as, s, ⟨ha, has⟩, hs => by
      apply invariant_run hstep as (next step s a) has
      cases h : step a s with
      | some s' =>
          rw [next_of_some h]
          apply hstep s a s' hs ha h
      | none =>
          rw [next_of_none h]
          apply hs

/-- A condition that every action of the list meets in every state holds along the run. -/
theorem along_of_forall {C : S → A → Prop} {as : List A} (h : ∀ a ∈ as, ∀ s, C s a) (s : S) :
  Along step C s as
  := by
  induction as generalizing s with
  | nil => trivial
  | cons a as ih =>
      use h a (by simp) s
      apply ih
      intro b hb
      apply h b (by simp [hb])

/-- What every successful step preserves holds after every run. -/
theorem invariant_run_of_step {I : S → Prop}
    (hstep : ∀ s a s', I s → step a s = some s' → I s') (as : List A) {s : S} (hs : I s) :
  I (run step s as)
  := by
  apply invariant_run (fun s a s' hs (_ : True) h => hstep s a s' hs h) as s _ hs
  apply along_of_forall
  intros
  trivial

/-- What a successful step preserves under a condition on its action holds after every run
whose trace meets the condition. -/
theorem invariant_run_of_trace {I : S → Prop} {C : A → Prop}
    (hstep : ∀ s a s', I s → C a → step a s = some s' → I s') :
  ∀ (as : List A) (s : S), (∀ a ∈ trace step s as, C a) → I s → I (run step s as)
  | [], _, _, hs => hs
  | a :: as, s, htrace, hs => by
      rw [run]
      rw [trace] at htrace
      cases h : step a s with
      | some s' =>
          rw [h] at htrace
          obtain ⟨ha, has⟩ := List.forall_mem_cons.mp htrace
          rw [next_of_some h]
          apply invariant_run_of_trace hstep as s' has (hstep s a s' hs ha h)
      | none =>
          rw [h] at htrace
          rw [next_of_none h]
          apply invariant_run_of_trace hstep as s htrace hs

/-- The actions of a trace are among those of the list. -/
theorem trace_sublist (s : S) (as : List A) :
  (trace step s as).Sublist as
  := by
  induction as generalizing s with
  | nil => apply List.Sublist.slnil
  | cons a as ih =>
      rw [trace]
      cases step a s with
      | some s' => apply (ih s').cons_cons
      | none => apply (ih s).cons

/-- An action of a trace succeeded in the state after some initial part of the list. -/
theorem exists_of_mem_trace {s : S} {as : List A} {a : A} (h : a ∈ trace step s as) :
  ∃ pre s', pre <+: as ∧ step a (run step s pre) = some s'
  := by
  induction as generalizing s with
  | nil => simp [trace] at h
  | cons b as ih =>
      rw [trace] at h
      cases hb : step b s with
      | some s₁ =>
          rw [hb] at h
          rcases List.mem_cons.mp h with rfl | h'
          · use [], s₁, List.nil_prefix
            apply hb
          · obtain ⟨pre, s', hpre, hs'⟩ := ih h'
            use b :: pre, s', (List.cons_prefix_cons.mpr ⟨rfl, hpre⟩)
            rw [run, next_of_some hb]
            apply hs'
      | none =>
          rw [hb] at h
          obtain ⟨pre, s', hpre, hs'⟩ := ih h
          use b :: pre, s', (List.cons_prefix_cons.mpr ⟨rfl, hpre⟩)
          rw [run, next_of_none hb]
          apply hs'

/-- An action of a trace succeeded in a state in which it met the condition that holds along
the run. -/
theorem Along.exists_of_mem_trace {C : S → A → Prop} {s : S} {as : List A} {a : A}
    (hC : Along step C s as) (h : a ∈ trace step s as) :
  ∃ s₀ s', C s₀ a ∧ step a s₀ = some s'
  := by
  induction as generalizing s with
  | nil => simp [trace] at h
  | cons b as ih =>
      obtain ⟨hb, hrest⟩ := hC
      rw [trace] at h
      cases hs : step b s with
      | some s₁ =>
          rw [hs] at h
          rw [next_of_some hs] at hrest
          rcases List.mem_cons.mp h with rfl | h
          · use s, s₁
          · apply ih hrest h
      | none =>
          rw [hs] at h
          rw [next_of_none hs] at hrest
          apply ih hrest h

section Keys

variable {used : S → K → Prop} {uses : A → K → Prop}

/-- A key in use stays in use along a run. -/
theorem used_trace {C : S → A → Prop}
    (hmono : ∀ s a s' k, step a s = some s' → used s k → used s' k)
    (hfresh : ∀ s a s' k, C s a → step a s = some s' → uses a k → ¬ used s k ∧ used s' k)
    {k : K} :
  ∀ (as : List A) (s : S), Along step C s as → used s k → ∀ b ∈ trace step s as, ¬ uses b k
  | [], _, _, _, b, hb => by simp [trace] at hb
  | a :: as, s, ⟨hC, hrest⟩, hk, b, hb => by
      rw [trace] at hb
      cases ha : step a s with
      | some s' =>
          rw [ha] at hb
          rw [next_of_some ha] at hrest
          rcases List.mem_cons.mp hb with rfl | hb
          · intro huses
            apply (hfresh s b s' k hC ha huses).1 hk
          · apply used_trace hmono hfresh as s' hrest (hmono s a s' k ha hk) b hb
      | none =>
          rw [ha] at hb
          rw [next_of_none ha] at hrest
          apply used_trace hmono hfresh as s hrest hk b hb

/-- If a successful action finds its keys unused and leaves them used, under a condition that
holds along the run, and no step gives a key back, then the actions of a trace use pairwise
different keys. -/
theorem trace_pairwise (used : S → K → Prop) (uses : A → K → Prop) {C : S → A → Prop}
    (hmono : ∀ s a s' k, step a s = some s' → used s k → used s' k)
    (hfresh : ∀ s a s' k, C s a → step a s = some s' → uses a k → ¬ used s k ∧ used s' k) :
  ∀ (as : List A) (s : S), Along step C s as →
    (trace step s as).Pairwise (fun a b => ∀ k, uses a k → ¬ uses b k)
  | [], _, _ => List.Pairwise.nil
  | a :: as, s, ⟨hC, hrest⟩ => by
      rw [trace]
      cases ha : step a s with
      | some s' =>
          rw [next_of_some ha] at hrest
          apply List.Pairwise.cons
          · intro b hb k hk
            apply used_trace hmono hfresh as s' hrest (hfresh s a s' k hC ha hk).2 b hb
          · apply trace_pairwise used uses hmono hfresh as s' hrest
      | none =>
          rw [next_of_none ha] at hrest
          apply trace_pairwise used uses hmono hfresh as s hrest

end Keys

section History

variable {s s' : S} {a : A} {as bs : List A} {P : List A → S → A → S → Prop}

variable (step) in
/-- Some successful step of the run meets `P`, which is told the actions before the step, the
state before it, its action, and the state after it. -/
def Occurs (s : S) (P : List A → S → A → S → Prop) (as : List A) : Prop :=
  ∃ pre a s', pre ++ [a] <+: as ∧ step a (run step s pre) = some s'
    ∧ P pre (run step s pre) a s'

theorem run_concat (s : S) (as : List A) (a : A) :
  run step s (as ++ [a]) = next step (run step s as) a
  := by
  induction as generalizing s with
  | nil => rfl
  | cons b as ih => apply ih

theorem not_occurs_nil :
  ¬ Occurs step s P []
  := by
  rintro ⟨pre, a, s', hpre, -⟩
  simp at hpre

/-- What has occurred still has later on. -/
theorem Occurs.mono (h : Occurs step s P as) (hpre : as <+: bs) :
  Occurs step s P bs
  := by
  obtain ⟨pre, a, s', has, hs', hP⟩ := h
  use pre, a, s', has.trans hpre, hs', hP

/-- After a successful step, what has occurred is what had occurred before and the step. -/
theorem occurs_concat (h : step a (run step s as) = some s') :
  Occurs step s P (as ++ [a]) ↔ Occurs step s P as ∨ P as (run step s as) a s'
  := by
  constructor
  · rintro ⟨pre, b, t, hpre, ht, hP⟩
    rcases List.prefix_concat_iff.mp hpre with heq | hpre
    · obtain ⟨rfl, hlast⟩ := List.append_inj' heq rfl
      obtain rfl := List.singleton_inj.mp hlast
      obtain rfl := Option.some.inj (h.symm.trans ht)
      exact .inr hP
    · exact .inl ⟨pre, b, t, hpre, ht, hP⟩
  · rintro (hocc | hP)
    · apply hocc.mono (List.prefix_append as [a])
    · use as, a, s', List.prefix_rfl, h, hP

/-- A step that fails does not occur. -/
theorem occurs_concat_of_none (h : step a (run step s as) = none) :
  Occurs step s P (as ++ [a]) ↔ Occurs step s P as
  := by
  constructor
  · rintro ⟨pre, b, t, hpre, ht, hP⟩
    rcases List.prefix_concat_iff.mp hpre with heq | hpre
    · obtain ⟨rfl, hlast⟩ := List.append_inj' heq rfl
      obtain rfl := List.singleton_inj.mp hlast
      rw [h] at ht
      cases ht
    · use pre, b, t, hpre, ht, hP
  · intro hocc
    apply hocc.mono (List.prefix_append as [a])

/-- What holds at the start, and is preserved by every step together with the actions before
it, whether the step succeeds or fails, holds along every run together with its actions. -/
theorem history_run {I : List A → S → Prop} (hinit : I [] s)
    (hsome : ∀ as a s', I as (run step s as) → step a (run step s as) = some s' →
      I (as ++ [a]) s')
    (hnone : ∀ as a, I as (run step s as) → step a (run step s as) = none →
      I (as ++ [a]) (run step s as)) (as : List A) :
  I as (run step s as)
  := by
  induction as using List.reverseRecOn with
  | nil => apply hinit
  | append_singleton as a ih =>
      rw [run_concat]
      cases h : step a (run step s as) with
      | some s' =>
          rw [next_of_some h]
          apply hsome as a s' ih h
      | none =>
          rw [next_of_none h]
          apply hnone as a ih h

end History

section Simulation

variable {B : Type} {step' : B → S → Option S}

theorem run_append (s : S) (as bs : List A) :
  run step s (as ++ bs) = run step (run step s as) bs
  := by
  induction as generalizing s with
  | nil => rfl
  | cons a as ih => apply ih

variable (step) in
/-- The actions of a second machine on the same states that do what a list of actions does,
given those for a single action. -/
def trails (trail : S → A → List B) : S → List A → List B
  | _, [] => []
  | s, a :: as => trail s a ++ trails trail (next step s a) as

/-- If each action leads where its trail leads in the second machine, every run of the first
machine is a run of the second one. -/
theorem run_eq_run_trails {trail : S → A → List B}
    (h : ∀ s a, next step s a = run step' s (trail s a)) (s : S) (as : List A) :
  run step s as = run step' s (trails step trail s as)
  := by
  induction as generalizing s with
  | nil => rfl
  | cons a as ih => rw [run, trails, run_append, ← h, ih]

end Simulation

end Machine
