import CdkPopVerifier.Protocol

/-!
# The order of the requirements

A requirement is weaker than another one if it is for the same unit, allows the mints that the other
one allows and asks for no more.  Every request that is served under a requirement is served under a
weaker one, by the same calls; under any other requirement some request is not.  The payment id, the
description and the flag `singleUse` are advertised, and decide nothing.
-/

namespace CdkPopVerifier

open Interaction PopValidator

variable {B : Type}

/-- What satisfies `r` satisfies `r'`. -/
structure Weaker (r r' : PopRequirement B) : Prop where
  unit_eq : r.unit = r'.unit
  allowed : ∀ mint, MintAllowed r mint → MintAllowed r' mint
  amount_le : r'.amount.toNat ≤ r.amount.toNat

theorem Weaker.refl (r : PopRequirement B) : Weaker r r := ⟨rfl, fun _ h => h, le_rfl⟩

theorem Weaker.trans {r r' r'' : PopRequirement B} (h : Weaker r r') (h' : Weaker r' r'') :
    Weaker r r'' :=
  ⟨h.unit_eq.trans h'.unit_eq, fun mint hm => h'.allowed mint (h.allowed mint hm),
    h'.amount_le.trans h.amount_le⟩

theorem exists_mintAllowed (r : PopRequirement B) : ∃ mint, MintAllowed r mint := by
  rcases hm : r.mints with _ | ⟨mint, mints⟩
  · exact ⟨⟨""⟩, .inl hm⟩
  · refine ⟨mint, .inr ?_⟩
    rw [hm]
    exact List.mem_cons_self

/-! ## Weaker requirements serve more requests -/

section

variable [DecidableEq B] {Token X : Type} {C : Cashu B Token} {r r' : PopRequirement B}

theorem Weaker.validate_runs (h : Weaker r r') {token : Token} {t : List (Event (MintClient B))}
    {v : ValidatedPop B} (hrun : Runs (validate C token r).run t (.ok v)) :
    Runs (validate C token r').run t (.ok v) := by
  obtain ⟨keysets, proofs, hm, hp, hunit, hamount, ht⟩ := validate_runs_ok_iff.1 hrun
  obtain ⟨hu, hmint, hallowed⟩ := checkToken_eq_ok_iff.1 hm
  obtain ⟨hps, hne, hfit, hle⟩ := checkProofs_eq_ok_iff.1 hp
  rw [h.unit_eq] at hu hunit
  exact validate_runs_ok_iff.2 ⟨keysets, proofs,
    checkToken_eq_ok_iff.2 ⟨hu, hmint, h.allowed _ hallowed⟩,
    checkProofs_eq_ok_iff.2 ⟨hps, hne, hfit, h.amount_le.trans hle⟩, hunit, hamount, ht⟩

theorem Weaker.requirePop_runs (h : Weaker r r') {uuid uuid' : Uuid} {req : Request B X}
    {t : List (Event ((MintClient B).sum (Next B X)))} {resp : Response}
    (hrun : Runs (requirePop C r uuid req) t resp) {e : Event (Next B X)} (he : .inr e ∈ t) :
    Runs (requirePop C r' uuid' req) t resp := by
  obtain ⟨token, s, v, ht, hv, rfl, rfl⟩ := (requirePop_runs_iff.1 hrun).exists_of_inr_mem he
  have hv := validate_runs_iff.1 (h.validate_runs (validate_runs_iff.2 hv))
  exact requirePop_runs_iff.2 (.handled ht hv)

end

/-! ## Other requirements do not -/

namespace Uniform

/-- One proof of the given amount. -/
def proof (amount : Amount) : Proof := ⟨amount, ⟨""⟩, ⟨""⟩, ⟨""⟩⟩

/-- Every text is a token of the unit, from the mint, with one proof of the amount. -/
def cashu (unit : CurrencyUnit B) (mint : MintUrl) (amount : Amount) : Cashu B Unit where
  debugStr s := s
  debugUnit _ := ""
  debugMints _ := ""
  base64Error _ := ""
  utf8Error _ := ""
  jsonError _ := ""
  amountError := ""
  headerValueAccepts _ := true
  tokenFromStr _ := .ok ()
  unit _ := some unit
  mintUrl _ := .ok mint
  proofs _ _ := some (.ok [proof amount])
  unblindMessage c _ _ := .ok c
  lengthsError := ""
  noKeyError := ""
  unitToString _ := ""
  unitFromStr s := .error s
  encodeRequest _ := ""
  decodeRequest s := .error s

/-- A request with a token. -/
def request (B : Type) : Request B Unit :=
  authorized ⟨[], none, ()⟩ ⟨⟨"", "", cashuMethod, "", ""⟩, ⟨"cashuB"⟩⟩

variable {unit : CurrencyUnit B} {mint : MintUrl} {amount : Amount}

theorem readToken_request :
    readToken (cashu unit mint amount) (request B) = .ok () := by
  unfold request
  rw [readToken_of_hasCredentials (hasCredentials_authorized rfl)]
  rfl

/-- The credential for the proof. -/
def validated (unit : CurrencyUnit B) (mint : MintUrl) (amount : Amount) : ValidatedPop B where
  newProofs := [proof amount]
  mintUrl := mint
  unit := unit
  amount := amount

/-- The calls for the request, if it is served. -/
def calls (unit : CurrencyUnit B) (mint : MintUrl) (amount : Amount) (resp : Response) :
    List (Event ((MintClient B).sum (Next B Unit))) :=
  [keysetsEvent mint (.ok []), swapEvent mint [proof amount] (.ok [proof amount])].map .inl ++
    [.inr (handlerEvent { request B with extension := some (validated unit mint amount) } resp)]

theorem inr_mem_calls (unit : CurrencyUnit B) (mint : MintUrl) (amount : Amount) (resp : Response) :
    .inr (handlerEvent { request B with extension := some (validated unit mint amount) } resp) ∈
      calls unit mint amount resp :=
  List.mem_append_right _ List.mem_cons_self

theorem value_proof (amount : Amount) : Proofs.value [proof amount] = amount.toNat := by
  simp [Proofs.value, Amount.exactSum, proof]

variable [DecidableEq B] {r : PopRequirement B} {uuid : Uuid} {resp : Response}

/-- The request is served under the requirements that the proof satisfies. -/
theorem runs_calls_iff :
    Runs (requirePop (cashu unit mint amount) r uuid (request B))
      (calls unit mint amount resp) resp ↔ unit = r.unit ∧ MintAllowed r mint ∧ r.amount.toNat ≤ amount.toNat := by
  constructor
  · intro h
    obtain ⟨token, s, v, -, hv, -, ht⟩ := (requirePop_runs_iff.1 h).exists_of_inr_mem
      (inr_mem_calls unit mint amount resp)
    obtain ⟨keysets, proofs, hm, hp, -, -, rfl⟩ := validate_runs_ok_iff.1 (validate_runs_iff.2 hv)
    obtain ⟨hu, hmint, hallowed⟩ := checkToken_eq_ok_iff.1 hm
    obtain ⟨hps, -, -, hle⟩ := checkProofs_eq_ok_iff.1 hp
    rw [← Except.ok.inj hmint] at hallowed
    rw [← Except.ok.inj (Option.some.inj hps), value_proof] at hle
    exact ⟨Option.some.inj hu, hallowed, hle⟩
  · rintro ⟨rfl, hallowed, hle⟩
    have hfit : Proofs.value [proof amount] < 2 ^ 64 := by
      rw [value_proof]
      exact amount.toNat_lt
    rw [← value_proof amount] at hle
    have hv : Runs (validate (cashu r.unit mint amount) () r).run
        [keysetsEvent mint (.ok []), swapEvent mint [proof amount] (.ok [proof amount])]
        (.ok (validated r.unit mint amount)) :=
      validate_runs_ok_iff.2 ⟨[], [proof amount], checkToken_eq_ok_iff.2 ⟨rfl, rfl, hallowed⟩,
        checkProofs_eq_ok_iff.2 ⟨rfl, List.cons_ne_nil _ _, hfit, hle⟩, rfl,
        (value_proof amount).symm, rfl⟩
    unfold calls
    exact requirePop_runs_iff.2 (.handled readToken_request (validate_runs_iff.1 hv))

end Uniform

/-- Every request that is served under `r` is served under `r'`, by the same calls and with the same
credential, exactly when `r'` is weaker. -/
theorem forall_served_iff_weaker [DecidableEq B] (r r' : PopRequirement B) :
    (∀ (Token X : Type) (C : Cashu B Token) (uuid uuid' : Uuid) (req : Request B X)
        (t : List (Event ((MintClient B).sum (Next B X)))) (resp : Response),
      Runs (requirePop C r uuid req) t resp → (∃ e, .inr e ∈ t) →
        Runs (requirePop C r' uuid' req) t resp) ↔ Weaker r r' := by
  constructor
  · intro h
    have hcalls (mint : MintUrl) (hm : MintAllowed r mint) :
        r.unit = r'.unit ∧ MintAllowed r' mint ∧ r'.amount.toNat ≤ r.amount.toNat := by
      apply Uniform.runs_calls_iff.1
      apply h Unit Unit _ ⟨0⟩ ⟨0⟩ _ _ ⟨200, [], ""⟩ ?_ ⟨_, Uniform.inr_mem_calls _ _ _ _⟩
      exact Uniform.runs_calls_iff.2 ⟨rfl, hm, le_rfl⟩
    obtain ⟨mint, hm⟩ := exists_mintAllowed r
    obtain ⟨hunit, -, hle⟩ := hcalls mint hm
    exact ⟨hunit, fun mint hm => (hcalls mint hm).2.1, hle⟩
  · rintro h Token X C uuid uuid' req t resp hrun ⟨e, he⟩
    exact h.requirePop_runs hrun he

end CdkPopVerifier
