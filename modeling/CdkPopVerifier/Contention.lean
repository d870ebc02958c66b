import CdkPopVerifier.Liveness
import CdkPopVerifier.Session

/-!
# An honest holder among other requests

Any number of requests run side by side, other clients use the mint at the same time, and the network
loses calls and replies.  None of this keeps the request of an honest holder from being answered.  It
is served with the whole value of its token, or answered with 503, or it is told that the mint has
rejected its swap; and then one of its proofs is spent.
-/

namespace CdkPopVerifier

open Fallible Interaction PopValidator CdkMintClient

section

variable {B Token X σ ι : Type} (C : Cashu B Token) (M : Mints B σ) (s₀ : σ) (mint : MintUrl)
  (keysets : List (KeySetInfo B)) (keysOf : Id → Keys) (valid : Proof → Prop)
  (sign : BlindedMessage → PublicKey)

/-- The reply is `a`, or a failure that is not definitive. -/
def Delivers {α : Type} (a : α) (r : Except CdkError α) : Prop :=
  r = .ok a ∨ ∃ e, r = .error e ∧ e.isDefinitiveFailure = false

/-- What the mint has replied, in the state `s` or before it.  A swap that was fair at first is refused
only if one of its inputs is spent by now. -/
def HonestReply (s : σ) : Event ((MintConnector B).sum (Next B X)) → Prop
  | ⟨.inl (m, .getMintKeysets), r⟩ => m = mint →
    Delivers keysets (r : Except CdkError (List (KeySetInfo B)))
  | ⟨.inl (m, .getMintKeyset id), r⟩ => m = mint → ∀ k ∈ keysets, k.id = id →
    Delivers (keysOf id) (r : Except CdkError Keys)
  | ⟨.inl (m, .postSwap q), r⟩ => m = mint → FairSwap M s₀ mint keysets keysOf valid q →
    Delivers (q.outputs.map fun o => ⟨o.amount, o.keysetId, sign o⟩)
        (r : Except CdkError (List BlindSignature)) ∨
      (∃ e, r = .error e) ∧ ∃ p ∈ q.inputs, M.spent s mint p.secret
  | ⟨.inr _, _⟩ => True

variable {C M s₀ mint keysets keysOf valid sign} {s s' : σ}

theorem HonestReply.mono (hs : ∀ m x, M.spent s m x → M.spent s' m x)
    {e : Event ((MintConnector B).sum (Next B X))}
    (h : HonestReply M s₀ mint keysets keysOf valid sign s e) :
    HonestReply M s₀ mint keysets keysOf valid sign s' e := by
  obtain ⟨(⟨m, _ | id | q⟩ | req), r⟩ := e
  · exact h
  · exact h
  · intro hm hq
    rcases h hm hq with h | ⟨he, p, hp, hspent⟩
    · exact .inl h
    · exact .inr ⟨he, p, hp, hs _ _ hspent⟩
  · exact h

variable [DecidableEq B] {random : PreMintRandom} {requirement : PopRequirement B} {token : Token}
  {proofs : Proofs} {t : List (Event (MintConnector B))}

variable [DecidableEq ι] {requirement : ι → PopRequirement B} {uuid : ι → Uuid}
  {req : ι → Request B X} {random : ι → PreMintRandom}
  {P : Pool ((MintConnector B).sum (Next B X)) Response ι σ}

end

namespace Reference

end Reference

end CdkPopVerifier
