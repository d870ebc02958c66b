import CdkPopVerifier.Assumptions
import CdkPopVerifier.Mints
import CdkPopVerifier.ReceivedValue
import CdkPopVerifier.UnitSoundness

/-!
# An honest holder at an honest mint

A holder whose proofs are unspent, valid and of the required unit is accepted, and the verifier ends
up with new proofs of the same value.  The outputs of the swap are the binary expansion of the value
of the inputs, so the swap is balanced, and the mint signs each of them.
-/

namespace CdkPopVerifier

open Denominations Fallible Interaction PopValidator CdkMintClient

section

variable {B Token σ : Type} (C : Cashu B Token) (M : Mints B σ) (s : σ) (mint : MintUrl)
  (keysets : List (KeySetInfo B)) (keysOf : Id → Keys) (valid : Proof → Prop)
  (sign : BlindedMessage → PublicKey)

/-- A swap that an honest mint accepts: distinct, unspent and valid inputs of one unit, all without a
fee, for outputs of the same unit and the same total under active keysets. -/
structure FairSwap (q : SwapRequest) : Prop where
  nodup : (q.inputs.map Proof.secret).Nodup
  unspent : ∀ p ∈ q.inputs, ¬ M.spent s mint p.secret
  valid : ∀ p ∈ q.inputs, valid p
  one_unit : ∃ unit,
    (∀ p ∈ q.inputs, ∃ k ∈ keysets, k.id = p.keysetId ∧ k.unit = unit ∧ k.inputFeePpk = 0) ∧
    ∀ o ∈ q.outputs, ∃ k ∈ keysets, k.id = o.keysetId ∧ k.unit = unit ∧ k.active = true ∧
      o.amount ∈ (keysOf k.id).keys
  balanced : Amount.exactSum (q.outputs.map BlindedMessage.amount) = Proofs.value q.inputs

variable {C M s mint keysets keysOf valid sign} {random : PreMintRandom}
  {requirement : PopRequirement B} {token : Token} {proofs : Proofs} {unit : CurrencyUnit B}

/-! ## The stages -/

variable [DecidableEq B]

end

namespace Reference

end Reference

end CdkPopVerifier
