import Mathlib.Data.List.Infix

/-!
# Scripts

A script is a list of statements that a program has a database run one after the other, each of
them by itself. A statement is told something by the database, such as the time, and fails if the
state that it leads to would violate a constraint. The database may also raise an error at any
statement. A script that fails leaves the state of the statements before the one that failed.

`execute_eq_returned` and `execute_eq_threw` say what a script has done when it returned and when
it threw. `after_preserves` and `after_establishes` are the rules for what a script preserves and
for what one of its statements establishes, and `eq_or_all_run` is the rule for what is
established before a part of the state is changed.
-/

namespace Script

variable {ε δ : Type}

/-- A statement leads from a state to another one, or fails. -/
abbrev Statement (ε δ : Type) : Type := ε → δ → Option δ

/-- How a script ends, with the state that it leaves. -/
inductive Outcome (δ : Type) where
  | returned (d : δ)
  | threw (d : δ)
deriving DecidableEq

/-- Run a statement. The database raises an error if it answers nothing. -/
def query (answer : Option ε) (s : Statement ε δ) (d : δ) : Option δ :=
  answer.bind fun e => s e d

/-- Run a script whose first statement is the one with number `k`. -/
def execute (answers : ℕ → Option ε) : ℕ → List (Statement ε δ) → δ → Outcome δ
  | _, [], d => .returned d
  | k, s :: rest, d =>
      match query (answers k) s d with
      | none => .threw d
      | some d' => execute answers (k + 1) rest d'

/-- The state after a script, if none of its statements fails. -/
def after (answers : ℕ → Option ε) : ℕ → List (Statement ε δ) → δ → Option δ
  | _, [], d => some d
  | k, s :: rest, d => (query (answers k) s d).bind (after answers (k + 1) rest)

/-- A statement preserves a property of states. -/
def Preserves (P : δ → Prop) (s : Statement ε δ) : Prop :=
  ∀ ⦃e d d'⦄, s e d = some d' → P d → P d'

variable {answers : ℕ → Option ε} {k : ℕ} {s : Statement ε δ} {script pre : List (Statement ε δ)}
  {d d' : δ} {P : δ → Prop}

theorem query_eq_some (h : query (answers k) s d = some d') :
  ∃ e, s e d = some d'
  := by
  obtain ⟨e, -, he⟩ := Option.bind_eq_some_iff.mp h
  use e

/-- A script that returned has run all of its statements. -/
theorem execute_eq_returned :
  execute answers k script d = .returned d' ↔ after answers k script d = some d'
  := by
  induction script generalizing k d with
  | nil => simp [execute, after]
  | cons s rest ih =>
      rw [execute, after]
      cases query (answers k) s d with
      | none => simp
      | some d₁ => apply ih

/-- A script that threw has run the statements before one that failed. -/
theorem execute_eq_threw :
  execute answers k script d = .threw d'
    ↔ ∃ pre s post, script = pre ++ s :: post ∧ after answers k pre d = some d'
      ∧ query (answers (k + pre.length)) s d' = none
  := by
  induction script generalizing k d with
  | nil => simp [execute]
  | cons s rest ih =>
      rw [execute]
      cases hs : query (answers k) s d with
      | none =>
          rw [Outcome.threw.injEq]
          constructor
          · rintro rfl
            use [], s, rest, rfl, rfl
            apply hs
          · rintro ⟨pre, s', post, heq, hafter, -⟩
            cases pre with
            | nil => apply Option.some.inj hafter
            | cons s₀ pre =>
                rw [List.cons_append, List.cons.injEq] at heq
                rw [after, ← heq.1, hs] at hafter
                cases hafter
      | some d₁ =>
          rw [ih]
          constructor
          · rintro ⟨pre, s', post, rfl, hafter, hfail⟩
            use s :: pre, s', post, rfl
            rw [after, hs, List.length_cons, ← Nat.add_assoc, Nat.add_right_comm]
            use hafter
          · rintro ⟨pre, s', post, heq, hafter, hfail⟩
            cases pre with
            | nil =>
                obtain ⟨rfl, rfl⟩ := List.cons.inj heq
                cases hafter
                rw [List.length_nil, Nat.add_zero, hs] at hfail
                cases hfail
            | cons s₀ pre =>
                rw [List.cons_append, List.cons.injEq] at heq
                obtain ⟨rfl, rfl⟩ := heq
                rw [after, hs] at hafter
                rw [List.length_cons, ← Nat.add_assoc, Nat.add_right_comm] at hfail
                use pre, s', post, rfl, hafter

/-- What every statement of a script preserves holds after it. -/
theorem after_preserves (h : ∀ s ∈ script, Preserves P s)
    (hafter : after answers k script d = some d') (hd : P d) :
  P d'
  := by
  induction script generalizing k d with
  | nil =>
      cases hafter
      apply hd
  | cons s rest ih =>
      obtain ⟨hs, hrest⟩ := List.forall_mem_cons.mp h
      obtain ⟨d₁, hquery, hafter⟩ := Option.bind_eq_some_iff.mp hafter
      obtain ⟨e, he⟩ := query_eq_some hquery
      apply ih hrest hafter (hs he hd)

/-- What one statement of a script establishes, and every statement preserves, holds after it. -/
theorem after_establishes (h : ∀ s ∈ script, Preserves P s) (hs : s ∈ script)
    (hP : ∀ ⦃e d d'⦄, s e d = some d' → P d') (hafter : after answers k script d = some d') :
  P d'
  := by
  induction script generalizing k d with
  | nil => cases hs
  | cons s₀ rest ih =>
      obtain ⟨d₁, hquery, hrun⟩ := Option.bind_eq_some_iff.mp hafter
      have hrest := (List.forall_mem_cons.mp h).2
      rcases List.mem_cons.mp hs with rfl | hs
      · obtain ⟨e, he⟩ := query_eq_some hquery
        apply after_preserves hrest hrun (hP he)
      · apply ih hrest hs hrun

/-- If the statements of the first part of a script keep a part of the state, then after some of
its statements that part is as it was, or all statements of the first part have been run. -/
theorem eq_or_all_run {κ : Type} (f : δ → κ) {first second : List (Statement ε δ)}
    (hkeep : ∀ s ∈ first, ∀ ⦃e d d'⦄, s e d = some d' → f d' = f d)
    (hpre : pre <+: first ++ second) (hafter : after answers k pre d = some d') :
  f d' = f d ∨ first <+: pre
  := by
  rcases List.prefix_or_prefix_of_prefix hpre (List.prefix_append first second) with hpre | hpre
  · left
    have hkeeps : ∀ s ∈ pre, Preserves (fun d' => f d' = f d) s := by
      intro s hs e d₁ d₂ hstep hd₁
      rw [← hd₁]
      apply hkeep s (hpre.subset hs) hstep
    apply after_preserves hkeeps hafter rfl
  · exact .inr hpre

end Script
