import CdkPopVerifier.Reference

/-!
# The value that the verifier receives

The amount of a validated credential is the sum of the new proofs, whose amounts are those of the
signatures that the mint returns.  Only the amount of the presented token is compared with the
requirement, so the required amount is received exactly when the reply of the mint is worth it.
Once the mint has swapped, the credential is still refused unless its signatures settle.
-/

namespace CdkPopVerifier

open Fallible Interaction PopValidator CdkMintClient

section

variable {B Token X : Type} {C : Cashu B Token} {random : PreMintRandom} {token : Token}
  {requirement : PopRequirement B}

/-! ## The received amount -/

/-- The amount of the credential is the exact sum of its proofs and is at least the required one. -/
def ReceivesRequired (requirement : PopRequirement B) (v : ValidatedPop B) : Prop :=
  v.amount.toNat = v.newProofs.value ∧ requirement.amount ≤ v.amount

theorem receivesRequired_iff_le_value {v : ValidatedPop B} (h : v.amount.toNat = v.newProofs.value) :
    ReceivesRequired requirement v ↔ requirement.amount.toNat ≤ v.newProofs.value := by
  rw [ReceivesRequired, UInt64.le_iff_toNat_le, h]
  exact and_iff_right rfl

/-- The mint signs for the required amount. -/
def SignsRequired (requirement : PopRequirement B) (t : List (Event (MintConnector B))) : Prop :=
  ∃ mint q sigs, postSwapEvent mint q (.ok sigs) ∈ t ∧
    requirement.amount.toNat ≤ Amount.exactSum (sigs.map BlindSignature.amount)

/-- The mint client returns proofs of the required amount. -/
def SwapsForRequired (requirement : PopRequirement B) (t : List (Event (MintClient B))) : Prop :=
  ∃ mint ps newProofs, swapEvent mint ps (.ok newProofs) ∈ t ∧
    requirement.amount.toNat ≤ newProofs.value

variable [DecidableEq B]

theorem receivesRequired_iff_swapsForRequired {t : List (Event (MintClient B))}
    {v : ValidatedPop B} (h : ValidateRun C token requirement t (.ok v)) :
    ReceivesRequired requirement v ↔ SwapsForRequired requirement t := by
  obtain ⟨keysets, proofs, -, -, -, ha, rfl⟩ := validate_runs_ok_iff.1 (validate_runs_iff.2 h)
  rw [receivesRequired_iff_le_value ha]
  constructor
  · exact fun hle => ⟨_, _, _, List.mem_cons_of_mem _ List.mem_cons_self, hle⟩
  · rintro ⟨mint, ps, newProofs, hmem, hle⟩
    simp only [List.mem_cons, List.not_mem_nil, swapEvent_ne_keysetsEvent, swapEvent_inj,
      false_or, or_false] at hmem
    cases hmem.2.2
    exact hle

theorem receivesRequired_iff_signsRequired {t : List (Event (MintConnector B))}
    {v : ValidatedPop B} (h : HttpRun C random token requirement t (.ok v)) :
    ReceivesRequired requirement v ↔ SignsRequired requirement t := by
  obtain ⟨x, sigs, hx, rfl, hv⟩ := exists_posting_of_ok h
  obtain ⟨hnew, -, -, ha⟩ := settle_eq_ok hv
  rw [receivesRequired_iff_le_value ha, Proofs.value, (unblind_map hnew).1]
  constructor
  · exact fun hle => ⟨_, _, _, Posting.mem_trace_iff.2 ⟨rfl, rfl, rfl⟩, hle⟩
  · rintro ⟨mint, q, sigs', hmem, hle⟩
    obtain ⟨-, -, hr⟩ := Posting.mem_trace_iff.1 hmem
    cases hr
    exact hle

/-- Whoever the mint client is, the required amount is received exactly when the reply to the swap is
worth it; over `CdkMintClient`, exactly when the signatures of the mint are.  The handler is called
with the credential that this is said of. -/
theorem receivesRequired_iff :
    (∀ t v, Runs (validate C token requirement).run t (.ok v) →
      (ReceivesRequired requirement v ↔ SwapsForRequired requirement t)) ∧
    (∀ t v, Runs (validateHttp C random token requirement) t (.ok v) →
      (ReceivesRequired requirement v ↔ SignsRequired requirement t)) ∧
    (∀ (uuid : Uuid) (req req' : Request B X) t resp resp',
      Runs (requirePop C requirement uuid req) t resp → .inr (handlerEvent req' resp') ∈ t →
        ∃ v s, req'.extension = some v ∧ t = s.map .inl ++ [.inr (handlerEvent req' resp')] ∧
          (ReceivesRequired requirement v ↔ SwapsForRequired requirement s)) ∧
    ∀ (uuid : Uuid) (req req' : Request B X) t resp resp',
      Runs (requirePopHttp C random requirement uuid req) t resp →
        .inr (handlerEvent req' resp') ∈ t →
          ∃ v s, req'.extension = some v ∧ t = s.map .inl ++ [.inr (handlerEvent req' resp')] ∧
            (ReceivesRequired requirement v ↔ SignsRequired requirement s) := by
  refine ⟨?_, ?_, ?_, ?_⟩
  · exact fun t v h => receivesRequired_iff_swapsForRequired (validate_runs_iff.1 h)
  · exact fun t v h => receivesRequired_iff_signsRequired (validateHttp_runs_iff.1 h)
  · intro uuid req req' t resp resp' h hmem
    obtain ⟨_, s, v, -, hv, he, ht⟩ := (requirePop_runs_iff.1 h).exists_of_inr_mem hmem
    cases he
    exact ⟨v, s, rfl, ht, receivesRequired_iff_swapsForRequired hv⟩
  · intro uuid req req' t resp resp' h hmem
    obtain ⟨_, s, v, -, hv, he, ht⟩ := (requirePopHttp_runs_iff.1 h).exists_of_inr_mem hmem
    cases he
    exact ⟨v, s, rfl, ht, receivesRequired_iff_signsRequired hv⟩

end

namespace Reference

theorem receivesRequired_validated : ReceivesRequired requirement (validated popKeyset) :=
  ((@receivesRequired_iff BuiltinUnit Token Unit (cashu []) random (token popKeyset) requirement
    _).2.1 _ _ (runs_posting (by decide) [])).2
      ⟨mint, _, _, Posting.mem_trace_iff.2 ⟨rfl, rfl, rfl⟩, by decide⟩

/-- A mint that signs for less than the output it was sent. -/
theorem not_forall_receivesRequired :
    ¬ ∀ (t : List (Event (MintConnector BuiltinUnit))) (v : ValidatedPop BuiltinUnit),
      Runs (validateHttp (cashu []) random (token popKeyset) requirement) t (.ok v) →
        ReceivesRequired requirement v := by
  intro h
  have hrun := (posting_reached (show popKeyset ∈ [satKeyset, popKeyset] by decide) []).httpRun
    (.ok [⟨1, popKeyset.id, ⟨"S"⟩⟩])
  exact absurd (h _ ⟨[⟨1, popKeyset.id, ⟨"secret0"⟩, ⟨"S"⟩⟩], mint, popUnit, 1⟩
    (validateHttp_runs_iff.2 hrun)).2 (by decide)

end Reference

/-! ## After the swap -/

section

variable {B Token X : Type} {C : Cashu B Token} {random : PreMintRandom}
  {requirement : PopRequirement B}

/-- There is one signature for each output, each of them can be unblinded, and their amounts add up
to an amount. -/
structure Settles (C : Cashu B Token) (keys : Keys) (preMint : PreMintSecrets)
    (sigs : List BlindSignature) : Prop where
  length_eq : sigs.length = preMint.length
  unblinds : ∀ x ∈ sigs.zip preMint, ∃ a c,
    keys.amountKey x.1.amount = some a ∧ C.unblindMessage x.1.c x.2.r a = .ok c
  fits : Amount.exactSum (sigs.map BlindSignature.amount) < 2 ^ 64

theorem exists_constructProof_iff {keys : Keys} {s : BlindSignature} {m : PreMint} :
    (∃ p, constructProof C keys s m.r m.secret = .ok p) ↔
      ∃ a c, keys.amountKey s.amount = some a ∧ C.unblindMessage s.c m.r a = .ok c := by
  simp only [constructProof_eq_ok_iff]
  constructor
  · rintro ⟨p, a, ha, hc, -⟩
    exact ⟨a, p.c, ha, hc⟩
  · rintro ⟨a, c, ha, hc⟩
    exact ⟨⟨s.amount, s.keysetId, m.secret, c⟩, a, ha, hc, rfl, rfl, rfl⟩

/-- The signatures give a credential exactly when they settle. -/
theorem exists_settle_eq_ok_iff {mint : MintUrl} {sigs : List BlindSignature}
    {preMint : PreMintSecrets} {keys : Keys} :
    (∃ v, settle C requirement mint sigs preMint keys = .ok v) ↔ Settles C keys preMint sigs := by
  constructor
  · rintro ⟨v, hv⟩
    obtain ⟨hnew, -, -, ha⟩ := settle_eq_ok hv
    obtain ⟨hlen, hall⟩ := exists_unblind_eq_ok_iff.1 ⟨_, hnew⟩
    refine ⟨hlen, fun x hx => exists_constructProof_iff.1 (hall x hx), ?_⟩
    rw [← (unblind_map hnew).1]
    exact lt_of_eq_of_lt ha.symm v.amount.toNat_lt
  · rintro ⟨hlen, hall, hfits⟩
    obtain ⟨newProofs, hnew⟩ := (@exists_unblind_eq_ok_iff _ _ C keys sigs preMint).2
      ⟨hlen, fun x hx => exists_constructProof_iff.2 (hall x hx)⟩
    have hv : Proofs.value newProofs < 2 ^ 64 := by rwa [Proofs.value, (unblind_map hnew).1]
    exact ⟨⟨newProofs, mint, requirement.unit, .ofNat (Proofs.value newProofs)⟩, bind_eq_ok_iff.2
      ⟨newProofs, mapError_eq_ok_iff.2 hnew,
        receive_eq_ok_iff.2 ⟨rfl, rfl, rfl, UInt64.toNat_ofNat_of_lt' hv⟩⟩⟩

variable [DecidableEq B]

/-- Once the mint has replied to a posted swap with signatures, the credential is accepted, with the
unblinded proofs, exactly when the signatures settle under the keys that the run has fetched and for the
outputs that it has posted.  Otherwise `require_pop` answers with a challenge. -/
theorem accepted_iff_settles {mint : MintUrl} {q : SwapRequest} {sigs : List BlindSignature} :
    (∀ token t r, Runs (validateHttp C random token requirement) t r →
      postSwapEvent mint q (.ok sigs) ∈ t →
        ∃ x : Posting B, x.Reached C random token requirement ∧ x.mint = mint ∧ x.request = q ∧
          t = x.trace (.ok sigs) ∧
          ((∃ v, r = .ok v ∧ unblind C sigs x.preMint x.keys = .ok v.newProofs) ↔
            Settles C x.keys x.preMint sigs)) ∧
    ∀ (uuid : Uuid) (req : Request B X) t resp,
      Runs (requirePopHttp C random requirement uuid req) t resp →
        .inl (postSwapEvent mint q (.ok sigs)) ∈ t →
          ∃ token, readToken C req = .ok token ∧ ∃ x : Posting B,
            x.Reached C random token requirement ∧ x.mint = mint ∧ x.request = q ∧
            lefts t = x.trace (.ok sigs) ∧
            ((∃ req', .inr (handlerEvent req' resp) ∈ t) ↔ Settles C x.keys x.preMint sigs) ∧
            (¬ Settles C x.keys x.preMint sigs →
              ∃ reason, resp = challengeResponse C uuid requirement (some reason)) := by
  constructor
  · intro token t r h hmem
    obtain ⟨x, hx, hm, hq, ht, rfl⟩ := exists_posting (validateHttp_runs_iff.1 h) hmem
    refine ⟨x, hx, hm, hq, ht, ?_⟩
    rw [← @exists_settle_eq_ok_iff _ _ C requirement x.mint]
    exact ⟨fun ⟨v, hv, _⟩ => ⟨v, hv⟩, fun ⟨v, hv⟩ => ⟨v, hv, (settle_eq_ok hv).1⟩⟩
  · intro uuid req t resp h hmem
    rcases requirePopHttp_runs_iff.1 h with _ | ⟨ht, hv⟩ | @⟨token, s, v, _, ht, hv⟩
    · exact absurd hmem List.not_mem_nil
    · obtain ⟨x, hx, hm, hq, hs, he⟩ := exists_posting hv (Event.inl_mem_map_inl_iff.1 hmem)
      have hnot : ¬ Settles C x.keys x.preMint sigs := fun hs => by
        obtain ⟨v, hv⟩ := (@exists_settle_eq_ok_iff _ _ C requirement x.mint _ _ _).2 hs
        cases he.trans hv
      refine ⟨_, ht, x, hx, hm, hq, ?_, ⟨?_, fun hs => absurd hs hnot⟩, fun _ => ?_⟩
      · rw [lefts_map_inl, hs]
      · rintro ⟨req', hreq⟩
        exact absurd hreq Event.inr_notMem_map_inl
      · rcases settle_eq_error he.symm with ⟨m, rfl⟩ | ⟨m, rfl⟩
        · exact ⟨_, rfl⟩
        · exact ⟨_, rfl⟩
    · have hmem' : postSwapEvent mint q (.ok sigs) ∈ s := by
        rcases List.mem_append.1 hmem with hmem | hmem
        · exact Event.inl_mem_map_inl_iff.1 hmem
        · exact absurd (List.mem_singleton.1 hmem) Event.inl_ne_inr
      obtain ⟨x, hx, hm, hq, hcalls, he⟩ := exists_posting hv hmem'
      have hs : Settles C x.keys x.preMint sigs := exists_settle_eq_ok_iff.1 ⟨v, he.symm⟩
      refine ⟨token, ht, x, hx, hm, hq, ?_,
        ⟨fun _ => hs, fun _ => ⟨_, List.mem_append_right _ (List.mem_singleton_self _)⟩⟩,
        fun hn => absurd hs hn⟩
      rw [lefts_append_inr, lefts_map_inl, hcalls]

end

namespace Reference

/-- The signature of the mint settles for the swap that the run has posted. -/
theorem settles_popKeyset :
    Settles (cashu []) (posting popKeyset).keys (posting popKeyset).preMint (signatures popKeyset) := by
  have hk : popKeyset ∈ [satKeyset, popKeyset] := by decide
  obtain ⟨x, hx, -, -, ht, hiff⟩ :=
    (@accepted_iff_settles BuiltinUnit Token Unit (cashu []) random requirement _ mint _ _).1 _ _ _
      (runs_posting hk []) (Posting.mem_trace_iff.2 ⟨rfl, rfl, rfl⟩)
  obtain rfl := (posting_reached hk []).eq_of_trace_eq hx ht
  exact hiff.1 ⟨_, rfl, rfl⟩

/-- A mint that swaps and replies without a signature. -/
theorem not_forall_accepted :
    ¬ ∀ (t : List (Event (MintConnector BuiltinUnit)))
      (r : Except (ValidationError BuiltinUnit) (ValidatedPop BuiltinUnit)),
      Runs (validateHttp (cashu []) random (token popKeyset) requirement) t r →
        (∃ mint q sigs, postSwapEvent mint q (.ok sigs) ∈ t) → ∃ v, r = .ok v := by
  intro h
  have hrun := (posting_reached (show popKeyset ∈ [satKeyset, popKeyset] by decide) []).httpRun (.ok [])
  obtain ⟨v, hv⟩ := h _ _ (validateHttp_runs_iff.2 hrun)
    ⟨_, _, _, Posting.mem_trace_iff.2 ⟨rfl, rfl, rfl⟩⟩
  cases hv

end Reference

end CdkPopVerifier
