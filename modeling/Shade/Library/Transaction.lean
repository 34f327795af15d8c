import Mathlib

/-!
# Transactions

A transaction over states `S` reads and changes the state and either returns a value or
fails with an error of `E`; a transaction that fails leaves no state behind. `require`,
`unwrap`, `read` and `write` are the steps a contract function is written with, `zoom`
runs a transaction of a part of the state, and `attempt` is the state a transaction leads
to.

The lemmas `…_bind_ok` say, for each step, what it means that a transaction that begins
with it returned. Rewriting with them turns the equation "this function returned" into the
list of the checks that passed, in the order they were made.
-/

/-- Transactions over states `S` that fail with errors in `E`. -/
abbrev Txn (S E : Type) := StateT S (Except E)

namespace Txn

variable {S T E α β : Type}

/-- Go on if `p` holds, fail with `e` otherwise. -/
def require (p : Prop) [Decidable p] (e : E) : Txn S E Unit :=
  if p then pure () else throw e

/-- The value of `o`, or fail with `e` if there is none. -/
def unwrap (o : Option α) (e : E) : Txn S E α :=
  match o with
  | some a => pure a
  | none => throw e

/-- Read a part of the state. -/
def read (f : S → α) : Txn S E α := fun s => .ok (f s, s)

/-- Change the state. -/
def write (f : S → S) : Txn S E Unit := fun s => .ok ((), f s)

/-- Run a transaction on the part `get t` of a state `t`, and put the part it leaves back
with `put`. -/
def zoom (get : T → S) (put : S → T → T) (x : Txn S E α) : Txn T E α := fun t =>
  match x (get t) with
  | .ok (a, s) => .ok (a, put s t)
  | .error e => .error e

/-- The state a transaction leads to, if it returns. -/
def attempt (x : Txn S E α) (s : S) : Option S :=
  match x.run s with
  | .ok (_, s') => some s'
  | .error _ => none

/-- A sequence of two transactions returns when both do, the second from the state the
first leaves. -/
theorem bind_ok {x : Txn S E α} {f : α → Txn S E β} {s s'' : S} {b : β} :
  (x >>= f).run s = .ok (b, s'')
    ↔ ∃ a s', x.run s = .ok (a, s') ∧ (f a).run s' = .ok (b, s'')
  := by
  rw [StateT.run_bind]
  cases h : x.run s with
  | error e => simp [bind, Except.bind]
  | ok p =>
      obtain ⟨a, s'⟩ := p
      simp [bind, Except.bind]

theorem pure_ok {s s' : S} {a b : α} :
  (pure a : Txn S E α).run s = .ok (b, s') ↔ a = b ∧ s = s'
  := by
  rw [StateT.run_pure]
  simp [pure, Except.pure]

theorem require_ok {p : Prop} [Decidable p] {e : E} {s s' : S} {u : Unit} :
  (require p e : Txn S E Unit).run s = .ok (u, s') ↔ p ∧ s = s'
  := by
  by_cases hp : p
  · simp [require, hp, pure, Except.pure, StateT.run, StateT.pure]
  · simp [require, hp, throw, throwThe, MonadExceptOf.throw, StateT.run, StateT.lift, bind,
      Except.bind]

theorem unwrap_ok {o : Option α} {e : E} {s s' : S} {a : α} :
  (unwrap o e : Txn S E α).run s = .ok (a, s') ↔ o = some a ∧ s = s'
  := by
  cases o with
  | some b => simp [unwrap, pure, Except.pure, StateT.run, StateT.pure]
  | none =>
      simp [unwrap, throw, throwThe, MonadExceptOf.throw, StateT.run, StateT.lift, bind,
        Except.bind]

theorem write_ok {f : S → S} {s s' : S} {u : Unit} :
  (write f : Txn S E Unit).run s = .ok (u, s') ↔ s' = f s
  := by
  simp [write, StateT.run, eq_comm]

theorem zoom_ok {get : T → S} {put : S → T → T} {x : Txn S E α} {t t' : T} {a : α} :
  (zoom get put x).run t = .ok (a, t') ↔ ∃ s, x.run (get t) = .ok (a, s) ∧ t' = put s t
  := by
  simp only [zoom, StateT.run]
  cases h : x (get t) with
  | error e => simp
  | ok p =>
      obtain ⟨b, s⟩ := p
      simp only [Except.ok.injEq, Prod.mk.injEq]
      constructor
      · rintro ⟨rfl, rfl⟩
        use s
      · rintro ⟨_, ⟨rfl, rfl⟩, rfl⟩
        simp

theorem attempt_eq_some {x : Txn S E α} {s s' : S} :
  attempt x s = some s' ↔ ∃ a, x.run s = .ok (a, s')
  := by
  unfold attempt
  cases h : x.run s with
  | error e => simp
  | ok p =>
      obtain ⟨a, s₁⟩ := p
      simp

/-! ### Transactions that begin with a step -/

section Steps

variable {s s' : S} {b : β}

theorem require_bind_ok {p : Prop} [Decidable p] {e : E} {f : Unit → Txn S E β} :
  (require p e >>= f).run s = .ok (b, s') ↔ p ∧ (f ()).run s = .ok (b, s')
  := by
  rw [bind_ok]
  constructor
  · rintro ⟨_, _, h, hf⟩
    obtain ⟨hp, rfl⟩ := require_ok.mp h
    use hp, hf
  · rintro ⟨hp, hf⟩
    use (), s, require_ok.mpr ⟨hp, rfl⟩, hf

theorem unwrap_bind_ok {o : Option α} {e : E} {f : α → Txn S E β} :
  (unwrap o e >>= f).run s = .ok (b, s') ↔ ∃ a, o = some a ∧ (f a).run s = .ok (b, s')
  := by
  rw [bind_ok]
  constructor
  · rintro ⟨a, _, h, hf⟩
    obtain ⟨ha, rfl⟩ := unwrap_ok.mp h
    use a, ha, hf
  · rintro ⟨a, ha, hf⟩
    use a, s, unwrap_ok.mpr ⟨ha, rfl⟩, hf

theorem read_bind_ok {g : S → α} {f : α → Txn S E β} :
  (read g >>= f).run s = .ok (b, s') ↔ (f (g s)).run s = .ok (b, s')
  := Iff.rfl

theorem write_bind_ok {g : S → S} {f : Unit → Txn S E β} :
  (write g >>= f).run s = .ok (b, s') ↔ (f ()).run (g s) = .ok (b, s')
  := Iff.rfl

end Steps

end Txn
