import CdkPopVerifier.Reference

/-!
# Structural errors and network traffic

The checks of the unit and of the mint come before any call.  The checks of the proofs need the
keysets of the mint, so a token without proofs and a token of too small an amount are refused only
after the mint has been asked for them.
-/

namespace CdkPopVerifier

open Interaction PopValidator

/-- The errors that are documented as structural. -/
def ValidationError.IsStructural {B : Type} : ValidationError B → Prop
  | .unitMismatch _ _ | .mintNotAllowed _ _ | .amountInsufficient _ _ | .tokenEmpty => True
  | .mintRejectedSwap _ | .mintUnreachable _ | .malformedToken _ => False

section

variable {B Token : Type} (C : Cashu B Token) (token : Token) (requirement : PopRequirement B)
  (answer : MintUrl → Except MintClientError (List (KeySetInfo B)))

/-- No call is made in a run that ends with a structural error, with a mint client that gives `answer`
to the call for the keysets and anything to the swap. -/
def QuietOnStructural [DecidableEq B] : Prop :=
  ∀ t e, Runs (validate C token requirement).run t (.error e) →
    (∀ mint r, keysetsEvent mint r ∈ t → r = answer mint) → e.IsStructural → t = []

/-- Once the token has passed the checks of the unit and of the mint and its proofs are resolved
against the keysets of the mint, there are some, and they are worth the required amount. -/
def SoundOnceResolved : Prop :=
  ∀ mint keysets proofs, C.unit token = some requirement.unit → C.mintUrl token = .ok mint →
    MintAllowed requirement mint → answer mint = .ok keysets →
      C.proofs token keysets = some (.ok proofs) → proofs ≠ [] ∧ requirement.amount.toNat ≤ proofs.value

variable {C token requirement answer}

theorem exists_isStructural_iff {keysets : List (KeySetInfo B)} :
    (∃ e, checkProofs C token requirement keysets = some (.error e) ∧ e.IsStructural) ↔
      ∃ proofs, C.proofs token keysets = some (.ok proofs) ∧
        ¬ (proofs ≠ [] ∧ requirement.amount.toNat ≤ proofs.value) := by
  constructor
  · rintro ⟨e, he, hs⟩
    rcases checkProofs_eq_error_iff.1 he with
      ⟨m, -, rfl⟩ | ⟨proofs, hp, ⟨rfl, rfl⟩ | ⟨-, ⟨-, rfl⟩ | ⟨got, hgot, hlt, rfl⟩⟩⟩
    · exact hs.elim
    · exact ⟨[], hp, fun h => h.1 rfl⟩
    · exact hs.elim
    · refine ⟨proofs, hp, fun h => ?_⟩
      rw [UInt64.lt_iff_toNat_lt] at hlt
      omega
  · rintro ⟨proofs, hp, hbad⟩
    by_cases hnil : proofs = []
    · exact ⟨_, checkProofs_eq_error_iff.2 (.inr ⟨proofs, hp, .inl ⟨hnil, rfl⟩⟩), trivial⟩
    · have hlt : proofs.value < requirement.amount.toNat := by
        by_contra hle
        exact hbad ⟨hnil, not_lt.1 hle⟩
      have hgot : (UInt64.ofNat proofs.value).toNat = proofs.value :=
        UInt64.toNat_ofNat_of_lt' (hlt.trans requirement.amount.toNat_lt)
      refine ⟨_, checkProofs_eq_error_iff.2 (.inr ⟨proofs, hp, .inr ⟨hnil, .inr ⟨_, hgot, ?_, rfl⟩⟩⟩),
        trivial⟩
      rwa [UInt64.lt_iff_toNat_lt, hgot]

theorem not_isStructural_ofMintClient {e : MintClientError} :
    ¬ (ValidationError.ofMintClient e : ValidationError B).IsStructural := by
  cases e <;> exact id

variable [DecidableEq B]

/-- A structurally bad token causes no call exactly when it is not its proofs that are bad. -/
theorem quietOnStructural_iff_soundOnceResolved :
    QuietOnStructural C token requirement answer ↔ SoundOnceResolved C token requirement answer := by
  constructor
  · intro hquiet mint keysets proofs hu hm hallow hanswer hp
    by_contra hbad
    obtain ⟨e, he, hs⟩ := exists_isStructural_iff.2 ⟨proofs, hp, hbad⟩
    have hrun := validate_runs_iff.2
      (ValidateRun.badProofs (checkToken_eq_ok_iff.2 ⟨hu, hm, hallow⟩) he)
    refine absurd (hquiet _ e hrun (fun mint' r hmem => ?_) hs) (List.cons_ne_nil _ _)
    cases List.mem_singleton.1 hmem
    exact hanswer.symm
  · intro hsound t e hrun hanswer hs
    rw [validate_runs_iff] at hrun
    generalize hr : Except.error e = r at hrun
    cases hrun with
    | badToken he => rfl
    | keysetsFailed hm =>
      cases hr
      exact absurd hs not_isStructural_ofMintClient
    | @badProofs mint keysets e' hm he =>
      cases hr
      obtain ⟨proofs, hp, hbad⟩ := exists_isStructural_iff.1 ⟨e, he, hs⟩
      obtain ⟨hu, hmint, hallow⟩ := checkToken_eq_ok_iff.1 hm
      exact absurd (hsound mint keysets proofs hu hmint hallow
        (hanswer mint _ List.mem_cons_self).symm hp) hbad
    | swapFailed hm hp =>
      cases hr
      exact absurd hs not_isStructural_ofMintClient
    | swapped hm hp =>
      rw [(receive_eq_error_iff.1 hr.symm).1] at hs
      exact hs.elim

end

namespace Reference

/-- The mint is asked for its keysets before the empty token is refused. -/
theorem not_forall_quietOnStructural :
    ¬ ∀ token : Token, QuietOnStructural (cashu []) token requirement fun _ => .ok keysets := by
  intro h
  have hrun : Runs (validate (cashu []) emptyToken requirement).run
      [keysetsEvent mint (.ok keysets)] (.error .tokenEmpty) :=
    validate_runs_iff.2 (.badProofs rfl rfl)
  refine absurd (h emptyToken _ _ hrun (fun m r hmem => ?_) trivial) (List.cons_ne_nil _ _)
  cases List.mem_singleton.1 hmem
  rfl

end Reference

end CdkPopVerifier
