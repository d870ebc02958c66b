import CdkPopVerifier.Cashu
import CdkPopVerifier.Lib.Program

/-!
# The mint client

The trait `MintClient` as a signature: a validator can ask a mint for its keysets and can have it
swap proofs.  A program over this signature is code that is generic in the client, and its runs are
its runs over every client.
-/

namespace CdkPopVerifier

open Interaction

/-- `MintClientError`. -/
inductive MintClientError where
  | unreachable (message : String)
  | rejectedSwap (message : String)
  deriving DecidableEq

/-- The methods of `MintClient`. -/
inductive MintCall where
  | keysets (mintUrl : MintUrl)
  | swap (mintUrl : MintUrl) (proofs : Proofs)
  deriving DecidableEq

/-- The signature of the trait `MintClient`. -/
@[reducible] def MintClient (B : Type) : Sig where
  Op := MintCall
  Reply
    | .keysets _ => Except MintClientError (List (KeySetInfo B))
    | .swap _ _ => Except MintClientError Proofs

variable {B : Type}

instance nonempty_mintReply (e : (MintClient B).Op) : Nonempty ((MintClient B).Reply e) :=
  match e with
  | .keysets _ => ⟨(.ok [] : Except MintClientError (List (KeySetInfo B)))⟩
  | .swap _ _ => ⟨(.ok [] : Except MintClientError Proofs)⟩

/-- A call of `MintClient::keysets` with its reply. -/
def keysetsEvent (mintUrl : MintUrl) (r : Except MintClientError (List (KeySetInfo B))) :
    Event (MintClient B) := ⟨.keysets mintUrl, r⟩

/-- A call of `MintClient::swap` with its reply. -/
def swapEvent (mintUrl : MintUrl) (proofs : Proofs) (r : Except MintClientError Proofs) :
    Event (MintClient B) := ⟨.swap mintUrl proofs, r⟩

theorem swapEvent_inj {m m' : MintUrl} {ps ps' : Proofs} {r r' : Except MintClientError Proofs} :
    (swapEvent m ps r : Event (MintClient B)) = swapEvent m' ps' r' ↔ m = m' ∧ ps = ps' ∧ r = r' := by
  simp [swapEvent, and_assoc]

theorem swapEvent_ne_keysetsEvent {m m' : MintUrl} {ps : Proofs} {r : Except MintClientError Proofs}
    {r' : Except MintClientError (List (KeySetInfo B))} :
    swapEvent m ps r ≠ keysetsEvent m' r' := by
  simp [swapEvent, keysetsEvent]

/-- A call of `MintClient::keysets`, with its error mapped. -/
def MintClient.keysets {ε : Type} (mintUrl : MintUrl) (f : MintClientError → ε) :
    ExceptT ε (Prog (MintClient B)) (List (KeySetInfo B)) :=
  @callExcept (MintClient B) _ _ _ (.keysets mintUrl) (fun r => r) f

/-- A call of `MintClient::swap`, with its error mapped. -/
def MintClient.swap {ε : Type} (mintUrl : MintUrl) (proofs : Proofs) (f : MintClientError → ε) :
    ExceptT ε (Prog (MintClient B)) Proofs :=
  @callExcept (MintClient B) _ _ _ (.swap mintUrl proofs) (fun r => r) f

end CdkPopVerifier
