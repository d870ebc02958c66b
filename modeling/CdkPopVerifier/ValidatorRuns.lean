import CdkPopVerifier.Validator

/-!
# The runs of the validator

`PopValidator.validate` is three checks with the two calls between them: `checkToken` before any
call, `checkProofs` on the keysets that the mint reports, and `receive` on the proofs that the swap
returns.  `ValidateRun` lists the runs that this gives, one case for each way to end, and
`validate_panics_iff` the one way to panic.
-/

namespace CdkPopVerifier

open Fallible Interaction

variable {B Token : Type} (C : Cashu B Token)

namespace PopValidator

/-- The checks on the proofs of a token. -/
def checkAmount (requirement : PopRequirement B) (proofs : Proofs) :
    Except (ValidationError B) Proofs := do
  rejectIf proofs.isEmpty .tokenEmpty
  let tokenAmount ← (proofs.totalAmount C.toTexts).mapError .malformedToken
  rejectIf (tokenAmount < requirement.amount)
    (.amountInsufficient requirement.amount tokenAmount)
  return proofs

/-- The checks between the two calls.  The result is the inputs of the swap, and it is `none` if the
proofs cannot be had without a panic. -/
def checkProofs (token : Token) (requirement : PopRequirement B)
    (keysets : List (KeySetInfo B)) : Option (Except (ValidationError B) Proofs) :=
  (C.proofs token keysets).map fun r =>
    r.mapError ValidationError.malformedToken >>= checkAmount C requirement

/-- What the validator makes of the proofs that the swap returned. -/
def receive (requirement : PopRequirement B) (tokenMint : MintUrl) (newProofs : Proofs) :
    Except (ValidationError B) (ValidatedPop B) := do
  let newAmount ← (newProofs.totalAmount C.toTexts).mapError .malformedToken
  return { newProofs, mintUrl := tokenMint, unit := requirement.unit, amount := newAmount }

variable {C} {token : Token} {requirement : PopRequirement B}

theorem checkProofs_eq_ok_iff {keysets : List (KeySetInfo B)} {proofs : Proofs} :
    checkProofs C token requirement keysets = some (.ok proofs) ↔
      C.proofs token keysets = some (.ok proofs) ∧ proofs ≠ [] ∧ proofs.value < 2 ^ 64 ∧
        requirement.amount.toNat ≤ proofs.value := by
  simp only [checkProofs, checkAmount, Option.map_eq_some_iff, bind_eq_ok_iff, rejectIf_eq_ok_iff,
    mapError_eq_ok_iff, totalAmount_eq_ok_iff, List.isEmpty_iff, UInt64.lt_iff_toNat_lt]
  constructor
  · rintro ⟨_, hps, ps, rfl, -, hne, a, ha, -, hle, ⟨⟩⟩
    have := a.toNat_lt
    exact ⟨hps, hne, by omega, by omega⟩
  · rintro ⟨hps, hne, hfit, hle⟩
    have ha : (UInt64.ofNat proofs.value).toNat = proofs.value :=
      UInt64.toNat_ofNat_of_lt' hfit
    exact ⟨_, hps, proofs, rfl, (), hne, _, ha, (), by omega, rfl⟩

theorem checkProofs_eq_none_iff {keysets : List (KeySetInfo B)} :
    checkProofs C token requirement keysets = none ↔ C.proofs token keysets = none :=
  Option.map_eq_none_iff

/-- How the checks on the proofs fail, and when. -/
theorem checkProofs_eq_error_iff {keysets : List (KeySetInfo B)} {e : ValidationError B} :
    checkProofs C token requirement keysets = some (.error e) ↔
      (∃ m, C.proofs token keysets = some (.error m) ∧ e = .malformedToken m) ∨
      ∃ proofs, C.proofs token keysets = some (.ok proofs) ∧
        (proofs = [] ∧ e = .tokenEmpty ∨ proofs ≠ [] ∧
          (2 ^ 64 ≤ proofs.value ∧ e = .malformedToken C.amountError ∨
            ∃ got, got.toNat = proofs.value ∧ got < requirement.amount ∧
              e = .amountInsufficient requirement.amount got)) := by
  have hamount (proofs : Proofs) : checkAmount C requirement proofs = .error e ↔
      proofs = [] ∧ e = .tokenEmpty ∨ proofs ≠ [] ∧
        (2 ^ 64 ≤ proofs.value ∧ e = .malformedToken C.amountError ∨
          ∃ got, got.toNat = proofs.value ∧ got < requirement.amount ∧
            e = .amountInsufficient requirement.amount got) := by
    simp only [checkAmount, bind_eq_error_iff, rejectIf_eq_error_iff, mapError_eq_error_iff,
      mapError_eq_ok_iff, rejectIf_eq_ok_iff, totalAmount_eq_ok_iff, totalAmount_eq_error_iff,
      List.isEmpty_iff, pure, Except.pure, reduceCtorEq, and_false, exists_false, or_false,
      exists_const, exists_eq_left, and_assoc, ne_eq]
  simp only [checkProofs, Option.map_eq_some_iff, bind_eq_error_iff, mapError_eq_error_iff,
    mapError_eq_ok_iff, hamount]
  constructor
  · rintro ⟨_, hr, ⟨m, rfl, rfl⟩ | ⟨proofs, rfl, h⟩⟩
    · exact .inl ⟨m, hr, rfl⟩
    · exact .inr ⟨proofs, hr, h⟩
  · rintro (⟨m, hr, rfl⟩ | ⟨proofs, hr, h⟩)
    · exact ⟨_, hr, .inl ⟨m, rfl, rfl⟩⟩
    · exact ⟨_, hr, .inr ⟨proofs, rfl, h⟩⟩

theorem checkProofs_eq_error {keysets : List (KeySetInfo B)} {e : ValidationError B}
    (h : checkProofs C token requirement keysets = some (.error e)) :
    (∃ m, e = .malformedToken m) ∨ e = .tokenEmpty ∨
      ∃ required got, e = .amountInsufficient required got := by
  rcases checkProofs_eq_error_iff.1 h with
    ⟨m, -, h⟩ | ⟨_, -, ⟨-, h⟩ | ⟨-, ⟨-, h⟩ | ⟨got, -, -, h⟩⟩⟩
  · exact .inl ⟨m, h⟩
  · exact .inr (.inl h)
  · exact .inl ⟨_, h⟩
  · exact .inr (.inr ⟨_, got, h⟩)

theorem receive_eq_ok_iff {mint : MintUrl} {newProofs : Proofs} {v : ValidatedPop B} :
    receive C requirement mint newProofs = .ok v ↔
      v.newProofs = newProofs ∧ v.mintUrl = mint ∧ v.unit = requirement.unit ∧
        v.amount.toNat = newProofs.value := by
  simp only [receive, bind_eq_ok_iff, mapError_eq_ok_iff, totalAmount_eq_ok_iff]
  constructor
  · rintro ⟨a, ha, ⟨⟩⟩
    exact ⟨rfl, rfl, rfl, ha⟩
  · obtain ⟨ps, m, u, a⟩ := v
    rintro ⟨rfl, rfl, rfl, ha⟩
    exact ⟨a, ha, rfl⟩

theorem receive_eq_error_iff {mint : MintUrl} {newProofs : Proofs} {e : ValidationError B} :
    receive C requirement mint newProofs = .error e ↔
      e = .malformedToken C.amountError ∧ 2 ^ 64 ≤ newProofs.value := by
  simp only [receive, bind_eq_error_iff, mapError_eq_error_iff, totalAmount_eq_error_iff]
  constructor
  · rintro (⟨_, ⟨rfl, hbig⟩, rfl⟩ | ⟨_, -, ⟨⟩⟩)
    exact ⟨rfl, hbig⟩
  · rintro ⟨rfl, hbig⟩
    exact .inl ⟨_, ⟨rfl, hbig⟩, rfl⟩

/-- `requirement.mints` is empty or has the mint. -/
def MintAllowed (requirement : PopRequirement B) (mint : MintUrl) : Prop :=
  requirement.mints = [] ∨ mint ∈ requirement.mints

variable (C) [DecidableEq B]

/-- The checks before any call.  The result is the mint of the token. -/
def checkToken (token : Token) (requirement : PopRequirement B) :
    Except (ValidationError B) MintUrl := do
  let tokenUnit ← okOr (C.unit token) (.unitMismatch requirement.unit (.custom ""))
  rejectIf (tokenUnit ≠ requirement.unit)
    (.unitMismatch requirement.unit tokenUnit)
  let tokenMint ← (C.mintUrl token).mapError .malformedToken
  rejectIf (!requirement.mints.isEmpty && !requirement.mints.contains tokenMint)
    (.mintNotAllowed tokenMint requirement.mints)
  return tokenMint

theorem validate_eq :
    validate C token requirement = (do
      let tokenMint ← attempt (checkToken C token requirement)
      let keysets ← MintClient.keysets tokenMint .ofMintClient
      let proofs ← unwind (checkProofs C token requirement keysets)
      let newProofs ← MintClient.swap tokenMint proofs .ofMintClient
      attempt (receive C requirement tokenMint newProofs)) := by
  simp only [validate, checkToken, checkProofs, checkAmount, receive, unwind_map_bind, attempt_bind,
    attempt_pure, bind_assoc, pure_bind]
  refine bind_congr fun u => ?_
  by_cases hu : u = requirement.unit
  · rw [hu]
  · simp only [rejectIf, ne_eq, hu, not_false_eq_true, if_true, attempt_error_bind]

variable {C}

theorem checkToken_eq_ok_iff {mint : MintUrl} :
    checkToken C token requirement = .ok mint ↔
      C.unit token = some requirement.unit ∧ C.mintUrl token = .ok mint ∧
        MintAllowed requirement mint := by
  have hmint : ¬ (!requirement.mints.isEmpty && !requirement.mints.contains mint) = true ↔
      MintAllowed requirement mint := by
    simp [MintAllowed, or_iff_not_imp_left]
  simp only [checkToken, bind_eq_ok_iff, okOr_eq_ok_iff, rejectIf_eq_ok_iff, mapError_eq_ok_iff]
  constructor
  · rintro ⟨u, hu, -, hur, m, hm, -, hallow, ⟨⟩⟩
    rw [not_not.1 hur] at hu
    exact ⟨hu, hm, hmint.1 hallow⟩
  · rintro ⟨hu, hm, hallow⟩
    exact ⟨_, hu, (), not_not.2 rfl, mint, hm, (), hmint.2 hallow, rfl⟩

/-- How the checks before any call fail. -/
theorem checkToken_eq_error {e : ValidationError B}
    (h : checkToken C token requirement = .error e) :
    (∃ got, e = .unitMismatch requirement.unit got) ∨ (∃ m, e = .malformedToken m) ∨
      ∃ got, e = .mintNotAllowed got requirement.mints := by
  simp only [checkToken, bind_eq_error_iff, okOr_eq_error_iff, rejectIf_eq_error_iff,
    mapError_eq_error_iff] at h
  rcases h with ⟨-, h⟩ | ⟨_, -, ⟨-, h⟩ | ⟨_, -, ⟨m, -, h⟩ | ⟨_, -, ⟨-, h⟩ | ⟨_, -, h⟩⟩⟩⟩
  · exact .inl ⟨_, h⟩
  · exact .inl ⟨_, h⟩
  · exact .inr (.inl ⟨m, h⟩)
  · exact .inr (.inr ⟨_, h⟩)
  · cases h

end PopValidator

open PopValidator

variable {C : Cashu B Token} {token : Token} {requirement : PopRequirement B} [DecidableEq B]

/-! ## Runs -/

variable (C token requirement)

/-- The runs of the validator, by the stage at which they end. -/
inductive ValidateRun : List (Event (MintClient B)) →
    Except (ValidationError B) (ValidatedPop B) → Prop
  | badToken {e : ValidationError B} (he : checkToken C token requirement = .error e) :
    ValidateRun [] (.error e)
  | keysetsFailed {mint : MintUrl} {e : MintClientError}
      (hm : checkToken C token requirement = .ok mint) :
    ValidateRun [keysetsEvent mint (.error e)] (.error (.ofMintClient e))
  | badProofs {mint : MintUrl} {keysets : List (KeySetInfo B)} {e : ValidationError B}
      (hm : checkToken C token requirement = .ok mint)
      (he : checkProofs C token requirement keysets = some (.error e)) :
    ValidateRun [keysetsEvent mint (.ok keysets)] (.error e)
  | swapFailed {mint : MintUrl} {keysets : List (KeySetInfo B)} {proofs : Proofs}
      {e : MintClientError} (hm : checkToken C token requirement = .ok mint)
      (hp : checkProofs C token requirement keysets = some (.ok proofs)) :
    ValidateRun [keysetsEvent mint (.ok keysets), swapEvent mint proofs (.error e)]
      (.error (.ofMintClient e))
  | swapped {mint : MintUrl} {keysets : List (KeySetInfo B)} {proofs newProofs : Proofs}
      (hm : checkToken C token requirement = .ok mint)
      (hp : checkProofs C token requirement keysets = some (.ok proofs)) :
    ValidateRun [keysetsEvent mint (.ok keysets), swapEvent mint proofs (.ok newProofs)]
      (receive C requirement mint newProofs)

variable {C token requirement} {t : List (Event (MintClient B))}

theorem validate_runs_iff {r : Except (ValidationError B) (ValidatedPop B)} :
    Runs (validate C token requirement).run t r ↔ ValidateRun C token requirement t r := by
  rw [validate_eq]
  simp only [MintClient.keysets, MintClient.swap, runs_except_bind_iff, runs_attempt_iff,
    runs_unwind_iff, runs_callExcept_ok_iff, runs_callExcept_error_iff]
  constructor
  · rintro (⟨e, rfl, rfl, he⟩ | ⟨_, _, mint, rfl, ⟨rfl, hm⟩, h⟩)
    · exact .badToken he
    rcases h with ⟨_, rfl, _, e, rfl, rfl, rfl⟩ | ⟨_, _, keysets, rfl, ⟨_, rfl, rfl⟩, h⟩
    · exact .keysetsFailed hm
    rcases h with ⟨e, rfl, rfl, he⟩ | ⟨_, _, proofs, rfl, ⟨rfl, hp⟩, h⟩
    · exact .badProofs hm he
    rcases h with ⟨_, rfl, _, e, rfl, rfl, rfl⟩ | ⟨_, _, newProofs, rfl, ⟨_, rfl, rfl⟩, rfl, rfl⟩
    · exact .swapFailed hm hp
    · exact .swapped hm hp
  · rintro (he | hm | ⟨hm, he⟩ | ⟨hm, hp⟩ | ⟨hm, hp⟩)
    · exact .inl ⟨_, rfl, rfl, he⟩
    · exact .inr ⟨[], _, _, rfl, ⟨rfl, hm⟩, .inl ⟨_, rfl, _, _, rfl, rfl, rfl⟩⟩
    · exact .inr ⟨[], _, _, rfl, ⟨rfl, hm⟩, .inr ⟨[_], [], _, rfl, ⟨_, rfl, rfl⟩,
        .inl ⟨_, rfl, rfl, he⟩⟩⟩
    · exact .inr ⟨[], _, _, rfl, ⟨rfl, hm⟩, .inr ⟨[_], [_], _, rfl, ⟨_, rfl, rfl⟩,
        .inr ⟨[], _, _, rfl, ⟨rfl, hp⟩, .inl ⟨_, rfl, _, _, rfl, rfl, rfl⟩⟩⟩⟩
    · exact .inr ⟨[], _, _, rfl, ⟨rfl, hm⟩, .inr ⟨[_], [_], _, rfl, ⟨_, rfl, rfl⟩,
        .inr ⟨[], _, _, rfl, ⟨rfl, hp⟩, .inr ⟨[_], [], _, rfl, ⟨_, rfl, rfl⟩, rfl, rfl⟩⟩⟩⟩

/-- The validator panics where `Token::proofs` does, on the keysets that the mint has reported. -/
theorem validate_panics_iff : Panics (validate C token requirement).run t ↔
    ∃ mint keysets, checkToken C token requirement = .ok mint ∧ C.proofs token keysets = none ∧
      t = [keysetsEvent mint (.ok keysets)] := by
  rw [validate_eq]
  simp only [MintClient.keysets, MintClient.swap, panics_except_bind_iff, not_panics_attempt,
    not_panics_callExcept, panics_unwind_iff, runs_attempt_iff, runs_callExcept_ok_iff,
    checkProofs_eq_none_iff, false_or, and_false, exists_false, or_false]
  constructor
  · rintro ⟨_, _, mint, rfl, ⟨rfl, hm⟩, _, _, keysets, rfl, ⟨_, rfl, rfl⟩, rfl, hnone⟩
    exact ⟨mint, keysets, hm, hnone, rfl⟩
  · rintro ⟨mint, keysets, hm, hnone, rfl⟩
    exact ⟨[], _, mint, rfl, ⟨rfl, hm⟩, [_], [], keysets, rfl, ⟨_, rfl, rfl⟩, rfl, hnone⟩

/-- The runs that end with a validated credential. -/
theorem validate_runs_ok_iff {v : ValidatedPop B} :
    Runs (validate C token requirement).run t (.ok v) ↔
      ∃ keysets proofs, checkToken C token requirement = .ok v.mintUrl ∧
        checkProofs C token requirement keysets = some (.ok proofs) ∧ v.unit = requirement.unit ∧
        v.amount.toNat = v.newProofs.value ∧
        t = [keysetsEvent v.mintUrl (.ok keysets),
          swapEvent v.mintUrl proofs (.ok v.newProofs)] := by
  rw [validate_runs_iff]
  constructor
  · intro h
    generalize hr : Except.ok v = r at h
    rcases h with he | hm | ⟨hm, he⟩ | ⟨hm, hp⟩ | ⟨hm, hp⟩ <;> try cases hr
    obtain ⟨rfl, rfl, hu, ha⟩ := receive_eq_ok_iff.1 hr.symm
    exact ⟨_, _, hm, hp, hu, ha, rfl⟩
  · rintro ⟨keysets, proofs, hm, hp, hu, ha, rfl⟩
    rw [← (@receive_eq_ok_iff _ _ C _ _ _ _).2 ⟨rfl, rfl, hu, ha⟩]
    exact .swapped hm hp

end CdkPopVerifier
