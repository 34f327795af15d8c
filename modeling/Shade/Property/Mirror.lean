import Shade.Property.Committee
import Shade.Property.Tree
import Shade.Relayer.MpcSettle

/-!
# The root of a settlement

The relayer never writes the leaves that its settlements append to the tree into the table from
which it computes roots. The root that it computes is the one of the pool as long as no settlement
has succeeded and the database answers: `submitted_root`.
-/

namespace Shade.Relayer

open Pool Machine

variable {host : Host} {computeRoot : List Word → Option Word} {s s' : RelayerState}

/-! ### Accurate submissions -/

/-- The root that the pool computes by appending two commitments. -/
def contractRoot (host : Host) (pool : State) (outputCommitmentA outputCommitmentB : Word) :
    Except String Word :=
  (appendRoot host.poseidon pool.treeDepth pool.treeLeaves outputCommitmentA).bind fun _ =>
    appendRoot host.poseidon pool.treeDepth (pool.treeLeaves ++ [outputCommitmentA])
      outputCommitmentB

/-- The root of the call is the one that the pool computes, and the call is not rejected if it
would be accepted with some other root. -/
def Accurate (host : Host) (w : World) (args : MpcArgs) : Prop :=
  (∀ root, contractRoot host w.pool args.outputCommitmentA args.outputCommitmentB = .ok root →
      args.newRoot = root)
    ∧ ∀ tx root w', step host (.call tx (.mpcSettle { args with newRoot := root })) w = some w' →
      step host (.call tx (.mpcSettle args)) w = some w'

/-- When a job is submitted, no settlement has succeeded, and the database answers, unless there is
nothing in the table anyway. -/
def Untouched (s : RelayerState) : RelayerAction → Prop
  | .submit _ _ answered => s.settled = 0 ∧ (answered = true ∨ indexedCommitments s.rows = [])
  | .other _ => True

/-- The tool computes the root of the tree into which the commitments are inserted. -/
def Computes (host : Host) (depth : ℕ) (computeRoot : List Word → Option Word) : Prop :=
  ∀ leaves root, computeRoot leaves = some root →
    (LeanIMT.insertAll host.poseidon (LeanIMT.new host.poseidon depth) leaves).map LeanIMT.root
      = .ok root

theorem contractRoot_eq {pool : State} {a b root : Word}
    (h : contractRoot host pool a b = .ok root) :
  (LeanIMT.insertAll host.poseidon (LeanIMT.new host.poseidon pool.treeDepth)
      (pool.treeLeaves ++ [a, b])).map LeanIMT.root = .ok root
  := by
  rw [contractRoot] at h
  cases hA : appendRoot host.poseidon pool.treeDepth pool.treeLeaves a with
  | error e =>
      rw [hA] at h
      cases h
  | ok rootA =>
      rw [hA] at h
      have hB : appendRoot host.poseidon pool.treeDepth (pool.treeLeaves ++ [a]) b = .ok root := h
      rw [appendRoot_eq, List.append_assoc, List.singleton_append] at hB
      apply hB

/-- A settlement that the pool accepts has the root that the pool computes. -/
theorem contractRoot_of_step {tx : Tx} {args : MpcArgs} {w w' : World}
    (h : step host (.call tx (.mpcSettle args)) w = some w') :
  contractRoot host w.pool args.outputCommitmentA args.outputCommitmentB = .ok args.newRoot
  := by
  cases Call.exec_outcome (step_call h) with
  | mpcSettle args x =>
      rw [contractRoot, x.rootA_eq]
      apply x.newRoot_eq

/-- Only the root decides whether a call is accurate. -/
theorem accurate_of_root {w : World} {args : MpcArgs}
    (h : ∀ root, contractRoot host w.pool args.outputCommitmentA args.outputCommitmentB = .ok root →
      args.newRoot = root) :
  Accurate host w args
  := by
  use h
  intro tx root w' hstep
  obtain rfl := h root (contractRoot_of_step hstep)
  apply hstep

/-- A root that is computed from the leaves of the pool is accurate. -/
theorem accurate_of_leaves {w : World} {args : MpcArgs} {answer : Option (List NoteCommitmentRow)}
    {newRoot : Word} (hcompute : Computes host w.pool.treeDepth computeRoot)
    (hleaves : (answer.map indexedCommitments).getD [] = w.pool.treeLeaves)
    (hroot : computeMpcRoot computeRoot answer args.outputCommitmentA args.outputCommitmentB
      = some newRoot) :
  Accurate host w { args with newRoot := newRoot }
  := by
  apply accurate_of_root
  intro root hcontract
  rw [computeMpcRoot, hleaves] at hroot
  have hsame := (hcompute _ _ hroot).symm.trans (contractRoot_eq hcontract)
  apply Except.ok.inj hsame

/-! ### The mirror of the leaves -/

theorem treeDepth_appends {H : Hash} {pool pool' : State} {commitments : List Word}
    (h : Appends H pool commitments pool') :
  pool'.treeDepth = pool.treeDepth
  := by
  induction h with
  | nil hdepth _ _ _ => apply hdepth
  | cons _ _ ih => apply ih

theorem treeDepth_step {a : Action} {w w' : World} (h : step host a w = some w') :
  w'.pool.treeDepth = w.pool.treeDepth
  := by
  rcases step_cases h with ⟨tx, c, rfl, hexec⟩ | ⟨-, hkeep⟩
  · obtain ⟨commitments, happends, -⟩ := Call.exec_appends hexec
    apply treeDepth_appends happends
  · rw [hkeep]

/-- The table lists the leaves as long as no settlement has succeeded, and all submissions were
accurate. -/
structure Mirrors (host : Host) (depth : ℕ) (s : RelayerState) : Prop where
  depth_eq : s.world.pool.treeDepth = depth
  leaves : s.settled = 0 → indexedCommitments s.rows = s.world.pool.treeLeaves
  accurate : ∀ x ∈ s.submissions, Accurate host x.1 x.2

/-- A job is submitted while the table lists the leaves. -/
theorem Mirrors.submitted {depth : ℕ} (h : Mirrors host depth s)
    (hcompute : Computes host depth computeRoot) {tx : Tx} {args : MpcArgs} {answered : Bool}
    {newRoot : Word} (huntouched : Untouched s (.submit tx args answered))
    (hroot : computeMpcRoot computeRoot (if answered then some s.rows else none)
      args.outputCommitmentA args.outputCommitmentB = some newRoot) :
  ∀ x ∈ s.submissions ++ [(s.world, { args with newRoot := newRoot })], Accurate host x.1 x.2
  := by
  obtain ⟨hsettled, hanswered⟩ := huntouched
  have hleaves := h.leaves hsettled
  intro x hx
  rcases List.mem_append.mp hx with hx | hx
  · apply h.accurate x hx
  · rw [List.mem_singleton.mp hx]
    rw [← h.depth_eq] at hcompute
    apply accurate_of_leaves hcompute _ hroot
    cases answered with
    | true => apply hleaves
    | false =>
        rcases hanswered with hno | hempty
        · cases hno
        · rw [← hleaves, hempty]
          rfl

/-- One step. -/
theorem Mirrors.step {depth : ℕ} (h : Mirrors host depth s)
    (hcompute : Computes host depth computeRoot) {action : RelayerAction}
    (huntouched : Untouched s action) (hstep : relayerStep host computeRoot action s = some s') :
  Mirrors host depth s'
  := by
  cases action with
  | submit tx args answered =>
      rw [relayerStep] at hstep
      split at hstep
      · cases hstep
      · case h_2 newRoot hroot =>
          have haccurate := h.submitted hcompute huntouched hroot
          dsimp only at hstep
          split at hstep
          · case h_1 w hcall =>
              cases hstep
              constructor
              · rw [← h.depth_eq]
                apply treeDepth_step hcall
              · intro hzero
                cases hzero
              · apply haccurate
          · cases hstep
            use h.depth_eq, h.leaves
  | other a =>
      rw [relayerStep] at hstep
      split at hstep
      · case h_1 w hother =>
          split at hstep
          · case isTrue hkeep =>
              cases hstep
              constructor
              · rw [← h.depth_eq]
                apply treeDepth_step hother
              · intro hzero
                rw [hkeep]
                apply h.leaves hzero
              · apply h.accurate
          · cases hstep
      · cases hstep

/-- If the table lists the leaves of the pool at the start, and in a run every job is submitted
before a settlement has succeeded, with an answer of the database unless nothing is in the table,
then every call that the relayer submits has the root that the pool computes, and is not rejected
because of its root. -/
theorem submitted_root (host : Host) (computeRoot : List Word → Option Word) (world : World)
    (rows : List NoteCommitmentRow) (hcompute : Computes host world.pool.treeDepth computeRoot)
    (hrows : indexedCommitments rows = world.pool.treeLeaves) (actions : List RelayerAction)
    (huntouched : Along (relayerStep host computeRoot) Untouched (RelayerState.start world rows)
      actions) :
  ∀ x ∈ (Machine.run (relayerStep host computeRoot) (RelayerState.start world rows)
      actions).submissions, Accurate host x.1 x.2
  := by
  have hstart : Mirrors host world.pool.treeDepth (RelayerState.start world rows) := by
    use rfl, fun _ => hrows
    intro x hx
    cases hx
  have hrun : Mirrors host world.pool.treeDepth
      (Machine.run (relayerStep host computeRoot) (RelayerState.start world rows) actions) := by
    apply invariant_run _ actions _ huntouched hstart
    intro s action s' h huntouched hstep
    apply h.step hcompute huntouched hstep
  apply hrun.accurate

/-! ### A second settlement -/

section

open Deployment

/-- A tool that computes the root of a tree of depth 12. -/
def computeRoot12 (leaves : List Word) : Option Word :=
  ((LeanIMT.insertAll poseidon255 (LeanIMT.new poseidon255 12) leaves).map LeanIMT.root).toOption

theorem computes_computeRoot12 {host : Host} (h : host.poseidon = poseidon255) :
  Computes host 12 computeRoot12
  := by
  intro leaves root hroot
  rw [computeRoot12] at hroot
  rw [h]
  cases hall : (LeanIMT.insertAll poseidon255 (LeanIMT.new poseidon255 12) leaves).map
      LeanIMT.root with
  | error e =>
      rw [hall] at hroot
      cases hroot
  | ok root' =>
      rw [hall] at hroot
      cases hroot
      rfl

/-- The host of the settlement of two notes. -/
def settleHost : Host := crossHost largeHash largeSignatures

/-- The pool with both notes, before they are settled. -/
def twoNotes : World :=
  Pool.run settleHost (genesis usdc) ((crossed largeHash largeSignatures).dropLast)

/-- The rows of both notes. -/
def twoRows : List NoteCommitmentRow := [⟨commitment, some 0⟩, ⟨commitmentB, some 1⟩]

/-- The job for the settlement of both notes. -/
def firstJob : RelayerAction := .submit ⟨[], none⟩ (crossArgs largeHash largeSignatures) true

/-- A job for the settlement of two other notes. -/
def secondJob : RelayerAction :=
  .submit ⟨[], none⟩
    { crossArgs largeHash largeSignatures with
      nullifierA := 0x1
      nullifierB := 0x2
      outputCommitmentA := 0x3
      outputCommitmentB := 0x4 } true

/-- The calls that are submitted for some jobs. -/
def submissionsFor (jobs : List RelayerAction) : List (World × MpcArgs) :=
  (Machine.run (relayerStep settleHost computeRoot12) (RelayerState.start twoNotes twoRows)
    jobs).submissions

/-- The root of a call is the one that the pool computes, if it computes one. -/
def hasContractRoot (x : World × MpcArgs) : Bool :=
  match contractRoot settleHost x.1.pool x.2.outputCommitmentA x.2.outputCommitmentB with
  | .ok root => decide (x.2.newRoot = root)
  | .error _ => true

/-- The first settlement is submitted with the root that the pool computes. -/
theorem first_submitted_root :
  (submissionsFor [firstJob]).length = 1
    ∧ ∀ x ∈ submissionsFor [firstJob], Accurate settleHost x.1 x.2
  := by
  have hrun : indexedCommitments twoRows = twoNotes.pool.treeLeaves
      ∧ twoNotes.pool.treeDepth = 12 ∧ (submissionsFor [firstJob]).length = 1 := by
    decide +kernel
  obtain ⟨hrows, hdepth, hlength⟩ := hrun
  use hlength
  have hcompute : Computes settleHost twoNotes.pool.treeDepth computeRoot12 := by
    rw [hdepth]
    apply computes_computeRoot12 rfl
  apply submitted_root settleHost computeRoot12 twoNotes twoRows hcompute hrows [firstJob]
  exact ⟨⟨rfl, .inl rfl⟩, trivial⟩

/-- The second settlement is submitted with another root than the pool computes. -/
theorem second_not_accurate :
  indexedCommitments twoRows = twoNotes.pool.treeLeaves
    ∧ ∃ x ∈ submissionsFor [firstJob, secondJob], ¬ Accurate settleHost x.1 x.2
  := by
  have hrun : indexedCommitments twoRows = twoNotes.pool.treeLeaves
      ∧ (submissionsFor [firstJob, secondJob]).map hasContractRoot = [true, false] := by
    decide +kernel
  use hrun.1
  have hfalse : false ∈ (submissionsFor [firstJob, secondJob]).map hasContractRoot := by
    rw [hrun.2]
    simp
  obtain ⟨x, hx, hroot⟩ := List.mem_map.mp hfalse
  use x, hx
  rintro ⟨haccurate, -⟩
  rw [hasContractRoot] at hroot
  split at hroot
  · case h_1 root hcontract =>
      rw [haccurate root hcontract, decide_eq_true rfl] at hroot
      cases hroot
  · cases hroot

end

end Shade.Relayer
