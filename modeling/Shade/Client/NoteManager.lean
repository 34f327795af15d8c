import Shade.Client.NoteVault

/-!
# The notes of a vault

A note is added when it is prepared, is activated when the pool has received its deposit, and is
marked as spent when it has been withdrawn or transferred. The balance is the sum of the amounts
of the active notes.
-/

namespace Shade.Client.NoteManager

open Text

/-- What is known of a note when it is added. -/
structure AddNoteParams where
  commitment : Text
  assetId : Text
  amount7dp : Text
  notePreimage : NotePreimage
  depositId : Option Text

/-- Add a note, which is prepared. -/
def addNote (vault : NoteVault) (p : AddNoteParams) (now : Text) : NoteVault :=
  addNoteToVault vault
    ⟨p.commitment, p.assetId, p.amount7dp, p.notePreimage, p.depositId, .prepared, now⟩ now

/-- Give the notes with a commitment a status. -/
def setStatus (status : NoteStatus) (vault : NoteVault) (commitment now : Text) : NoteVault :=
  { vault with
    updatedAt := now
    notes := vault.notes.map fun n =>
      if n.commitment = commitment then { n with status := status } else n }

/-- The deposit of a note has been received. -/
def activate : NoteVault → Text → Text → NoteVault := setStatus .active

/-- A note has been withdrawn or transferred. -/
def markSpent : NoteVault → Text → Text → NoteVault := setStatus .spent

/-- The notes, or those with a status. -/
def list (vault : NoteVault) (status : Option NoteStatus) : List VaultNote :=
  match status with
  | some status => vault.notes.filter fun n => n.status = status
  | none => vault.notes

/-- The note with a commitment. -/
def find (vault : NoteVault) (commitment : Text) : Option VaultNote :=
  vault.notes.find? fun n => n.commitment = commitment

/-- The sum of the amounts of the active notes, which have to be integers. -/
def totalActive7dp (vault : NoteVault) : Option ℤ :=
  (vault.notes.filter fun n => n.status = .active).foldlM
    (fun sum n => (toInt? n.amount7dp).map fun amount => sum + amount) 0

end Shade.Client.NoteManager
