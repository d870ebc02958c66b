import CdkPopVerifier.UnitSoundness

/-!
# The fee of a swap

The fee of a swap is charged for its inputs, each at the rate of its own keyset.  The client looks at
the rate of one keyset only, the active one that it takes for the outputs: the swaps that it posts
are balanced, and the ones that it refuses have a fee, exactly when that rate is zero together with
the rates of all inputs.
-/

namespace CdkPopVerifier

open Fallible Interaction CdkMintClient

section

variable {B Token : Type}

/-- The rate of the keyset of a proof, in thousandths. -/
def feePpk (keysets : List (KeySetInfo B)) (p : Proof) : ℕ :=
  match keysets.find? fun k => k.id = p.keysetId with
  | some k => k.inputFeePpk.toNat
  | none => 0

/-- The fee of some inputs: the sum of their rates, rounded up to a whole amount. -/
def inputFee (keysets : List (KeySetInfo B)) (proofs : Proofs) : ℕ :=
  ((proofs.map (feePpk keysets)).sum + 999) / 1000

/-- The outputs of a swap and its fee add up to the inputs. -/
def Balanced (keysets : List (KeySetInfo B)) (q : SwapRequest) : Prop :=
  Amount.exactSum (q.outputs.map BlindedMessage.amount) + inputFee keysets q.inputs =
    Proofs.value q.inputs

/-- The error for an active keyset with a fee. -/
def nonZeroFee (active : KeySetInfo B) : MintClientError :=
  .rejectedSwap ("active keyset " ++ active.id.hex ++
    " has non-zero input_fee_ppk; PoP v1 requires zero fee")

/-- The run is refused, before the post, with the error for a keyset of the list with a fee. -/
def RefusesFee (keysets : List (KeySetInfo B)) (t : List (Event (MintConnector B)))
    (r : Except MintClientError Proofs) : Prop :=
  ∃ mint, ∃ active ∈ keysets, ∃ keys, active.inputFeePpk ≠ 0 ∧ r = .error (nonZeroFee active) ∧
    t = [getKeysetsEvent mint (.ok keysets), getKeysetEvent mint active.id (.ok keys)]

/-- With a mint that reports `keysets`, every swap of `proofs` that is posted is balanced, and it is
refused for a fee only if an input has one. -/
def GatesFees [DecidableEq B] (C : Cashu B Token) (random : PreMintRandom)
    (keysets : List (KeySetInfo B)) (proofs : Proofs) : Prop :=
  ∀ mint t r, Runs (swap C random mint proofs).run t r →
    (∀ m ks, getKeysetsEvent m (.ok ks) ∈ t → ks = keysets) →
      (∀ m q r', postSwapEvent m q r' ∈ t → Balanced keysets q) ∧
      (RefusesFee keysets t r → ∃ p ∈ proofs, feePpk keysets p ≠ 0)

/-- The total of the inputs fits, and there are keys under which outputs for it can be drawn. -/
def CanDraw (random : PreMintRandom) (id : Id) (proofs : Proofs) : Prop :=
  ∃ (total : Amount) (keys : Keys) (preMint : PreMintSecrets), total.toNat = proofs.value ∧
    random id total keys.keys = some (.ok preMint)

/-- If there is an active keyset of the unit, the first one has a zero rate exactly when all inputs
have.  This is not asked of inputs for which no outputs can be drawn. -/
def FeesAgree [DecidableEq B] (random : PreMintRandom) (keysets : List (KeySetInfo B))
    (unit : CurrencyUnit B) (proofs : Proofs) : Prop :=
  ∀ active, (keysets.filter KeySetInfo.active).find? (fun k => k.unit = unit) = some active →
    (active.inputFeePpk = 0 → CanDraw random active.id proofs →
      ∀ p ∈ proofs, feePpk keysets p = 0) ∧
    (active.inputFeePpk ≠ 0 → ∃ p ∈ proofs, feePpk keysets p ≠ 0)

variable {keysets : List (KeySetInfo B)} {proofs : Proofs}

theorem inputFee_eq_zero_iff : inputFee keysets proofs = 0 ↔ ∀ p ∈ proofs, feePpk keysets p = 0 := by
  have hdiv : inputFee keysets proofs = 0 ↔ (proofs.map (feePpk keysets)).sum = 0 := by
    unfold inputFee
    omega
  rw [hdiv, List.sum_eq_zero_iff_forall_eq_nat]
  simp only [List.forall_mem_map]

theorem balanced_iff_of_total {q : SwapRequest}
    (h : Amount.exactSum (q.outputs.map BlindedMessage.amount) = Proofs.value q.inputs) :
    Balanced keysets q ↔ ∀ p ∈ q.inputs, feePpk keysets p = 0 := by
  rw [← inputFee_eq_zero_iff]
  unfold Balanced
  omega

variable [DecidableEq B] {C : Cashu B Token} {random : PreMintRandom} {unit : CurrencyUnit B}

/-- The keyset of the outputs is the first active one of the unit of the inputs. -/
theorem selectKeyset_eq_ok_iff_of_hasUnit (hnodup : (keysets.map KeySetInfo.id).Nodup) {id : Id}
    (hid : HasUnit keysets id unit) {active : KeySetInfo B} :
    selectKeyset C id keysets = .ok active ↔
      (keysets.filter KeySetInfo.active).find? (fun k => k.unit = unit) = some active := by
  obtain ⟨k, hk, rfl, rfl⟩ := hid
  rw [selectKeyset_eq_ok_iff]
  constructor
  · rintro ⟨k', hk', ha⟩
    rw [find?_id_eq_some hnodup hk] at hk'
    cases hk'
    exact ha
  · exact fun ha => ⟨k, find?_id_eq_some hnodup hk, ha⟩

omit [DecidableEq B]

theorem prepare_eq_error_of_fee {active : KeySetInfo B} (h : active.inputFeePpk ≠ 0) (keys : Keys) :
    prepare C random active keys proofs = some (.error (nonZeroFee active)) := by
  rw [prepare, swapTotal, rejectIf, if_pos h]
  rfl

theorem exists_prepare_eq_ok_iff {active : KeySetInfo B} :
    (∃ keys preMint, prepare C random active keys proofs = some (.ok preMint)) ↔
      active.inputFeePpk = 0 ∧ CanDraw random active.id proofs := by
  simp only [prepare_eq_ok_iff]
  constructor
  · rintro ⟨keys, preMint, hfee, total, ht, hr⟩
    exact ⟨hfee, total, keys, preMint, ht, hr⟩
  · rintro ⟨hfee, total, keys, preMint, ht, hr⟩
    exact ⟨keys, preMint, hfee, total, ht, hr⟩

/-- The outputs of a swap have the total of its inputs, so that it is balanced if there is no fee. -/
theorem balanced_swapRequest_iff (hrandom : random.Totals) {active : KeySetInfo B} {keys : Keys}
    {preMint : PreMintSecrets} (h : prepare C random active keys proofs = some (.ok preMint)) :
    Balanced keysets (swapRequest proofs preMint) ↔ ∀ p ∈ proofs, feePpk keysets p = 0 := by
  obtain ⟨-, total, ht, hr⟩ := prepare_eq_ok_iff.1 h
  exact balanced_iff_of_total ((hrandom _ _ _ _ hr).trans ht)

variable [DecidableEq B]

/-- A swap is posted only when its outputs could be prepared under the selected keyset. -/
theorem exists_prepare_of_post {p : Proof} {ps : Proofs} {mint m : MintUrl}
    {t : List (Event (MintConnector B))} {r : Except MintClientError Proofs} {q : SwapRequest}
    {r' : Except CdkError (List BlindSignature)} (h : SwapRun C random mint (p :: ps) t r)
    (ht : ∀ m ks, getKeysetsEvent m (.ok ks) ∈ t → ks = keysets)
    (hmem : postSwapEvent m q r' ∈ t) :
    ∃ active keys preMint, selectKeyset C p.keysetId keysets = .ok active ∧
      prepare C random active keys (p :: ps) = some (.ok preMint) ∧ q = swapRequest (p :: ps) preMint := by
  have hkeysets {ks : List (KeySetInfo B)} (hk : getKeysetsEvent mint (.ok ks) ∈ t) :
      ks = keysets := ht _ _ hk
  cases h with
  | keysetsFailed | noKeyset hs =>
    exact absurd (List.mem_singleton.1 hmem) postSwapEvent_ne_getKeysetsEvent
  | keysFailed hs | notPrepared hs hp =>
    rcases List.mem_pair.1 hmem with h | h
    · exact absurd h postSwapEvent_ne_getKeysetsEvent
    · exact absurd h postSwapEvent_ne_getKeysetEvent
  | postFailed hs hp | posted hs hp =>
    cases hkeysets List.mem_cons_self
    simp only [List.mem_cons, List.not_mem_nil, postSwapEvent_ne_getKeysetsEvent,
      postSwapEvent_ne_getKeysetEvent, postSwapEvent_inj, false_or, or_false] at hmem
    exact ⟨_, _, _, hs, hp, hmem.2.1⟩

/-- A swap is refused for a fee only when the selected keyset has one. -/
theorem exists_fee_of_refusesFee (hnodup : (keysets.map KeySetInfo.id).Nodup) {p : Proof}
    {ps : Proofs} {mint : MintUrl} {t : List (Event (MintConnector B))}
    {r : Except MintClientError Proofs} (h : SwapRun C random mint (p :: ps) t r)
    (hr : RefusesFee keysets t r) :
    ∃ active, selectKeyset C p.keysetId keysets = .ok active ∧ active.inputFeePpk ≠ 0 := by
  obtain ⟨m, active, hmem, keys, hfee, -, rfl⟩ := hr
  generalize ht : [getKeysetsEvent m (.ok keysets), getKeysetEvent m active.id (.ok keys)] = t at h
  cases h with
  | keysetsFailed | noKeyset hs | postFailed hs hp | posted hs hp => simp at ht
  | keysFailed hs => simp [getKeysetEvent] at ht
  | @notPrepared _ _ ks active' keys' e hs hp =>
    have hevents : (m = mint ∧ keysets = ks) ∧ (m = mint ∧ active.id = active'.id) ∧ keys = keys' := by
      simpa [getKeysetsEvent, getKeysetEvent] using ht
    obtain ⟨⟨-, rfl⟩, ⟨-, hid⟩, -⟩ := hevents
    have hmem' : active' ∈ keysets := by
      obtain ⟨k, -, ha⟩ := selectKeyset_eq_ok_iff.1 hs
      exact (List.mem_filter.1 (List.mem_of_find?_eq_some ha)).1
    have heq := find?_id_eq_some hnodup hmem
    rw [hid, find?_id_eq_some hnodup hmem', Option.some_inj] at heq
    exact ⟨active', hs, heq ▸ hfee⟩

/-- The swaps that are posted are balanced and the refusals for a fee are justified exactly when the
rate of the keyset of the outputs agrees with those of the inputs. -/
theorem gatesFees_iff_feesAgree (hrandom : random.Totals)
    (hnodup : (keysets.map KeySetInfo.id).Nodup) (hne : proofs ≠ [])
    (hunit : ∀ p ∈ proofs, HasUnit keysets p.keysetId unit) :
    GatesFees C random keysets proofs ↔ FeesAgree random keysets unit proofs := by
  obtain ⟨p, ps, rfl⟩ := List.exists_cons_of_ne_nil hne
  have hselect (active : KeySetInfo B) : selectKeyset C p.keysetId keysets = .ok active ↔
      (keysets.filter KeySetInfo.active).find? (fun k => k.unit = unit) = some active :=
    selectKeyset_eq_ok_iff_of_hasUnit hnodup (hunit p List.mem_cons_self)
  constructor
  · intro h active hactive
    have hs := (hselect active).2 hactive
    constructor
    · intro hfee hdraw
      obtain ⟨keys, preMint, hp⟩ := (@exists_prepare_eq_ok_iff _ _ _ C _ _).2 ⟨hfee, hdraw⟩
      have hrun : SwapRun C random ⟨""⟩ (p :: ps) _ (unblind C [] preMint keys) := .posted hs hp
      have hbalanced := (h _ _ _ (swap_runs_iff.2 hrun)
        (by simp [getKeysetsEvent, getKeysetEvent, postSwapEvent])).1 _ _ _
          (List.mem_cons_of_mem _ (List.mem_cons_of_mem _ List.mem_cons_self))
      exact (balanced_swapRequest_iff hrandom hp).1 hbalanced
    · intro hfee
      have hp := @prepare_eq_error_of_fee _ _ (p :: ps) C random _ hfee ⟨[], .nil⟩
      have hrun : SwapRun C random ⟨""⟩ (p :: ps) _ _ := .notPrepared hs hp
      have hmem : active ∈ keysets :=
        (List.mem_filter.1 (List.mem_of_find?_eq_some hactive)).1
      exact (h _ _ _ (swap_runs_iff.2 hrun) (by simp [getKeysetsEvent, getKeysetEvent])).2
        ⟨_, active, hmem, _, hfee, rfl, rfl⟩
  · intro h mint t r hrun ht
    rw [swap_runs_iff] at hrun
    constructor
    · intro m q r' hmem
      obtain ⟨active, keys, preMint, hs, hp, rfl⟩ := exists_prepare_of_post hrun ht hmem
      obtain ⟨hfee, hdraw⟩ := exists_prepare_eq_ok_iff.1 ⟨keys, preMint, hp⟩
      exact (balanced_swapRequest_iff hrandom hp).2 ((h active ((hselect active).1 hs)).1 hfee hdraw)
    · intro hrefuses
      obtain ⟨active, hs, hfee⟩ := exists_fee_of_refusesFee hnodup hrun hrefuses
      exact (h active ((hselect active).1 hs)).2 hfee

end

namespace Reference

theorem gatesFees_popKeyset : GatesFees (cashu []) random keysets (token popKeyset).proofs := by
  apply (gatesFees_iff_feesAgree random_totals (by decide) (List.cons_ne_nil _ _)
    (fun p hp => ⟨popKeyset, by decide, by rw [List.mem_singleton.1 hp], rfl⟩)).2
  intro active hactive
  have hmem : active ∈ keysets := (List.mem_filter.1 (List.mem_of_find?_eq_some hactive)).1
  exact ⟨fun _ _ => by decide,
    fun hfee => absurd ((by decide : ∀ k ∈ keysets, k.inputFeePpk = 0) active hmem) hfee⟩

/-- A replaced keyset with a fee. -/
def rotatedKeyset : KeySetInfo BuiltinUnit := { retiredKeyset with inputFeePpk := 1000 }

/-- A proof of the replaced keyset is swapped for its whole amount, which leaves nothing for the
fee. -/
theorem not_forall_gatesFees :
    ¬ ∀ (random : PreMintRandom) (keysets : List (KeySetInfo BuiltinUnit)) (proofs : Proofs)
      (unit : CurrencyUnit BuiltinUnit), random.Totals → (keysets.map KeySetInfo.id).Nodup →
        proofs ≠ [] → (∀ p ∈ proofs, HasUnit keysets p.keysetId unit) →
          GatesFees (cashu []) random keysets proofs := by
  intro h
  have hrun : SwapRun (cashu []) random mint (token rotatedKeyset).proofs
      [getKeysetsEvent mint (.ok [rotatedKeyset, popKeyset]),
        getKeysetEvent mint popKeyset.id (.ok keys),
        postSwapEvent mint (swapRequest (token rotatedKeyset).proofs (outputs popKeyset.id 0 [2]))
          (.ok [])] _ :=
    .posted rfl rfl
  have hgates := h random [rotatedKeyset, popKeyset] (token rotatedKeyset).proofs popUnit
    random_totals (by decide) (List.cons_ne_nil _ _)
    fun p hp => ⟨rotatedKeyset, by decide, by rw [List.mem_singleton.1 hp], rfl⟩
  have hbalanced := (hgates _ _ _ (swap_runs_iff.2 hrun)
    (by simp [getKeysetsEvent, getKeysetEvent, postSwapEvent])).1 _ _ _
      (List.mem_cons_of_mem _ (List.mem_cons_of_mem _ List.mem_cons_self))
  exact absurd hbalanced (by unfold Balanced; decide)

end Reference

end CdkPopVerifier
