import CdkPopVerifier.Gate

/-!
# What is advertised and what is enforced

The payment request in the challenge has the display text of the unit, and this text is parsed; the
validator compares units as they are.  The two agree exactly on the units that are parsed back from
their own text: then the challenge is read back as the requirement, and a token that answers it passes
the checks of the unit and of the mint.
-/

namespace CdkPopVerifier

open Fallible Interaction PopValidator

section

variable {B Token : Type} (C : Cashu B Token) (requirement : PopRequirement B)

/-- The wire form keeps the unit: it is built in, or it is what its own display text is parsed as. -/
def WireStable : CurrencyUnit B → Prop
  | .builtin _ => True
  | .custom name => C.unitFromStr (C.unitToString (.custom name)) = .ok (.custom name)

/-- The payment request asks for the requirement and for nothing else. -/
structure Advertises (p : PaymentRequest B) : Prop where
  paymentId_eq : p.paymentId = requirement.paymentId
  amount_eq : p.amount = some requirement.amount
  unit_eq : p.unit = some requirement.unit
  singleUse_eq : p.singleUse = some requirement.singleUse
  mints_eq : p.mints = requirement.mints
  description_eq : p.description = requirement.description
  transports_eq : p.transports = []
  nut10_eq : p.nut10 = none

/-- The token has the unit of the payment request and one of its mints. -/
structure Answers (p : PaymentRequest B) (token : Token) : Prop where
  unit_eq : C.unit token = p.unit
  mintUrl_eq : ∃ mint, C.mintUrl token = .ok mint ∧ (p.mints = [] ∨ mint ∈ p.mints)

/-- The error refuses the unit of a token or its mint. -/
def IsUnitOrMint : ValidationError B → Prop
  | .unitMismatch _ _ | .mintNotAllowed _ _ => True
  | _ => False

/-- The token passes the checks of the unit and of the mint: no run of the validator refuses one of
them. -/
def PassesChecks [DecidableEq B] (token : Token) : Prop :=
  ∀ t e, Runs (validate C token requirement).run t (.error e) → ¬ IsUnitOrMint e

variable {C requirement}

theorem unitFromStr_unitToString_iff (hB : C.UnitNames) {unit : CurrencyUnit B} :
    C.unitFromStr (C.unitToString unit) = .ok unit ↔ WireStable C unit := by
  cases unit with
  | builtin u => exact iff_of_true (hB u) trivial
  | custom name => exact Iff.rfl

theorem fromStr_encodeChallenge (hC : C.RequestRoundTrip) {unit : CurrencyUnit B}
    (hunit : C.unitFromStr (C.unitToString requirement.unit) = .ok unit) :
    PaymentRequest.fromStr C (encodeChallenge C requirement) =
      .ok { requirement.toPaymentRequest with unit := some unit } := by
  rw [PaymentRequest.fromStr, encodeChallenge, PaymentRequest.toString, hC, ok_bind]
  simp only [PopRequirement.toPaymentRequest, Option.map_some, Option.mapM_some, hunit]
  rfl

variable [DecidableEq B] {token : Token} {mint : MintUrl} {unit : CurrencyUnit B}

/-- The checks before the first call are those of the unit and of the mint, and no later step fails
in this way. -/
theorem passesChecks_iff_unit_eq (hu : C.unit token = some unit) (hm : C.mintUrl token = .ok mint)
    (hallow : MintAllowed requirement mint) :
    PassesChecks C requirement token ↔ unit = requirement.unit := by
  constructor
  · intro h
    by_contra hne
    have he : checkToken C token requirement = .error (.unitMismatch requirement.unit unit) := by
      rw [checkToken, hu, okOr, ok_bind, rejectIf, if_pos hne]
      rfl
    exact (h _ _ (validate_runs_iff.2 (.badToken he))) trivial
  · rintro rfl t e h
    have hcheck := checkToken_eq_ok_iff.2 ⟨hu, hm, hallow⟩
    rw [validate_runs_iff] at h
    generalize hr : Except.error e = r at h
    rcases h with he | @⟨_, e', _⟩ | ⟨-, he⟩ | @⟨_, _, _, e', _, _⟩ | _
    · cases he.symm.trans hcheck
    · cases hr
      cases e' <;> exact id
    · cases hr
      rcases checkProofs_eq_error he with ⟨_, rfl⟩ | rfl | ⟨_, _, rfl⟩ <;> exact id
    · cases hr
      cases e' <;> exact id
    · rw [(receive_eq_error_iff.1 hr.symm).1]
      exact id

/-- The challenge is read back, as a payment request for the requirement exactly when the wire form
keeps the unit; and exactly then do the tokens that answer it pass the checks. -/
theorem advertises_iff_wireStable (hC : C.RequestRoundTrip) (hP : C.ParsesUnits) (hB : C.UnitNames)
    (requirement : PopRequirement B) :
    ∃ p, PaymentRequest.fromStr C (encodeChallenge C requirement) = .ok p ∧
      (Advertises requirement p ↔ WireStable C requirement.unit) ∧
      ∀ token, Answers C p token →
        (PassesChecks C requirement token ↔ WireStable C requirement.unit) := by
  obtain ⟨unit, hunit⟩ := hP (C.unitToString requirement.unit)
  have hstable : unit = requirement.unit ↔ WireStable C requirement.unit := by
    rw [← unitFromStr_unitToString_iff hB, hunit, Except.ok.injEq]
  refine ⟨_, fromStr_encodeChallenge hC hunit, ?_, ?_⟩
  · rw [← hstable]
    constructor
    · exact fun h => Option.some.inj h.unit_eq
    · exact fun h => ⟨rfl, rfl, congrArg some h, rfl, rfl, rfl, rfl, rfl⟩
  · rintro token ⟨hu, mint, hm, hallow⟩
    rw [← hstable]
    exact passesChecks_iff_unit_eq hu hm hallow

end

namespace Reference

theorem wireStable_popUnit : WireStable (cashu tokens) popUnit := by
  have hunit : unitFromStr (unitToString popUnit) = popUnit := by decide +kernel
  exact congrArg Except.ok hunit

/-- A unit in lower case survives the wire. -/
theorem advertises_popUnit :
    ∃ p, PaymentRequest.fromStr (cashu tokens) (encodeChallenge (cashu tokens) requirement) = .ok p ∧
      Advertises requirement p := by
  obtain ⟨p, hp, h, -⟩ := advertises_iff_wireStable (cashu_requestRoundTrip tokens)
    (cashu_parsesUnits tokens) (cashu_unitNames tokens) requirement
  exact ⟨p, hp, h.2 wireStable_popUnit⟩

/-- A unit with an upper-case letter does not. -/
theorem not_forall_advertises :
    ¬ ∀ requirement : PopRequirement BuiltinUnit, ∃ p,
      PaymentRequest.fromStr (cashu tokens) (encodeChallenge (cashu tokens) requirement) = .ok p ∧
        Advertises requirement p ∧
        ∀ token, Answers (cashu tokens) p token → PassesChecks (cashu tokens) requirement token := by
  intro h
  obtain ⟨p, hp, hadv, -⟩ := h { requirement with unit := .custom "Pop_1767225600" }
  rw [fromStr_encodeChallenge (cashu_requestRoundTrip tokens) rfl] at hp
  cases hp
  exact absurd hadv.unit_eq (by decide +kernel)

end Reference

end CdkPopVerifier
