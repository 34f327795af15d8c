import Shade.Pool.Run

/-!
# How the relayer submits a settlement

For a job that settles a match, the relayer computes the root that the tree of the pool will have,
from the commitments it finds in the database and the two that the settlement creates, and calls
the pool with it. If the database does not answer, the relayer goes on with the two commitments
only. Commitments and roots, which are written in hexadecimal, are words here. The tool that
computes roots is a parameter. The jobs are worked on one after the other, and in between the pool
is called by others.
-/

namespace Shade.Relayer

open Pool

/-- A row of the table `note_commitments`. -/
structure NoteCommitmentRow where
  commitment : Word
  leafIndex : Option ℕ
deriving DecidableEq

/-- The commitments that have an index, in the order of their indices. -/
def indexedCommitments (rows : List NoteCommitmentRow) : List Word :=
  ((rows.filter fun row => row.leafIndex.isSome).insertionSort
    fun row row' => row.leafIndex.getD 0 ≤ row'.leafIndex.getD 0).map NoteCommitmentRow.commitment

/-- The root of the commitments in the database and the two new ones, if the tool computes it. -/
def computeMpcRoot (computeRoot : List Word → Option Word)
    (answer : Option (List NoteCommitmentRow)) (outCommitA outCommitB : Word) : Option Word :=
  computeRoot ((answer.map indexedCommitments).getD [] ++ [outCommitA, outCommitB])

/-- The pool and the database, how many settlements have succeeded, and the calls of the pool that
have been submitted, each with the world it was submitted in. -/
structure RelayerState where
  world : World
  rows : List NoteCommitmentRow
  settled : ℕ
  submissions : List (World × MpcArgs)

/-- Nothing has been submitted. -/
def RelayerState.start (world : World) (rows : List NoteCommitmentRow) : RelayerState :=
  ⟨world, rows, 0, []⟩

/-- A job is submitted, for which the database answers or not, or somebody else does something. The
new root among the arguments of a job is not used. -/
inductive RelayerAction where
  | submit (tx : Tx) (args : MpcArgs) (answered : Bool)
  | other (a : Action)

/-- One step. Nobody else appends leaves. -/
def relayerStep (host : Host) (computeRoot : List Word → Option Word) :
    RelayerAction → RelayerState → Option RelayerState
  | .submit tx args answered, s =>
      match computeMpcRoot computeRoot (if answered then some s.rows else none)
          args.outputCommitmentA args.outputCommitmentB with
      | none => none
      | some newRoot =>
          let submitted := { args with newRoot := newRoot }
          let submissions := s.submissions ++ [(s.world, submitted)]
          match step host (.call tx (.mpcSettle submitted)) s.world with
          | some w =>
              some { s with world := w, settled := s.settled + 1, submissions := submissions }
          | none => some { s with submissions := submissions }
  | .other a, s =>
      match step host a s.world with
      | some w =>
          if w.pool.treeLeaves = s.world.pool.treeLeaves then some { s with world := w } else none
      | none => none

end Shade.Relayer
