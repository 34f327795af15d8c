import Shade.Api.Vaults
import Shade.Library.CanonicalJson

/-!
# Stored envelopes

The database keeps envelopes as JSON values with the members of objects in an order of its own: by
the lengths of their names, and names of one length by their bytes. A client that asks for a vault
gets the envelope with its members in that order.
-/

namespace Shade.Api

open Text

/-- A name does not come after another in the order of the database. -/
def jsonbLe (s t : Text) : Bool :=
  (utf8 s).length < (utf8 t).length
    || (utf8 s).length = (utf8 t).length && decide (utf8 s ≤ utf8 t)

/-- The members of an object as the database keeps them. -/
def jsonbRecord (fields : Record) : Record :=
  Json.sortFields jsonbLe (Json.normalizeFields jsonbLe fields)

/-- A wrapper as the database keeps it. The order of its own members is not seen. -/
def VaultWrapper.stored (w : VaultWrapper) : VaultWrapper :=
  { w with metadata := jsonbRecord w.metadata }

/-- An envelope as the database keeps it. The order of its own members is not seen. -/
def EncryptedVaultEnvelope.stored (env : EncryptedVaultEnvelope) : EncryptedVaultEnvelope :=
  { env with
    aad := jsonbRecord env.aad
    wrappers := env.wrappers.map VaultWrapper.stored }

/-- Answer a request for the envelope of a vault. -/
def fetchVault (auth : PrivyAuth) (vaultId : Text) (s : Accounts) :
    Except ApiError EncryptedVaultEnvelope :=
  match getNoteVault auth.userId vaultId s.noteVaults with
  | some v => .ok v.envelope.stored
  | none => .error ⟨404, "vault not found".toList⟩

end Shade.Api
