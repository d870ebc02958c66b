import CdkPopVerifier.Reference

/-!
# The unit of what is accepted

The validator compares the unit that the token names with the requirement, and the client takes the
unit of the swap from the keyset of the first input.  Nothing compares the two: an accepted token
has proofs of the required unit exactly when its first proof does.
-/

namespace CdkPopVerifier

open Fallible Interaction PopValidator CdkMintClient

section

variable {B Token : Type}

/-- The keyset list gives the keyset `id` the unit `unit`. -/
def HasUnit (keysets : List (KeySetInfo B)) (id : Id) (unit : CurrencyUnit B) : Prop :=
  ∃ k ∈ keysets, k.id = id ∧ k.unit = unit

/-- A keyset list that gives each id one unit. -/
def OneUnitPerId (keysets : List (KeySetInfo B)) : Prop :=
  ∀ k ∈ keysets, ∀ k' ∈ keysets, k.id = k'.id → k.unit = k'.unit

theorem OneUnitPerId.hasUnit_unique {keysets : List (KeySetInfo B)} (h : OneUnitPerId keysets)
    {id : Id} {u u' : CurrencyUnit B} (hu : HasUnit keysets id u) (hu' : HasUnit keysets id u') :
    u = u' := by
  obtain ⟨k, hk, rfl, rfl⟩ := hu
  obtain ⟨k', hk', hid, rfl⟩ := hu'
  exact h k hk k' hk' hid.symm

/-- In a list with different ids each keyset is the one that is found by its id. -/
theorem find?_id_eq_some {keysets : List (KeySetInfo B)} (h : (keysets.map KeySetInfo.id).Nodup)
    {k : KeySetInfo B} (hk : k ∈ keysets) : keysets.find? (fun k' => k'.id = k.id) = some k := by
  obtain ⟨k', hk'⟩ := Option.isSome_iff_exists.1
    (List.find?_isSome.2 ⟨k, hk, by simp⟩ : (keysets.find? fun k' => k'.id = k.id).isSome = true)
  have hid : k'.id = k.id := by simpa using List.find?_some hk'
  rwa [List.inj_on_of_nodup_map h (List.mem_of_find?_eq_some hk') hk hid] at hk'

/-- The replies in `t` are those of a mint with the given keysets, which swaps inputs of one unit
for outputs of the same unit and signs each output under its keyset. -/
structure HonestUnits (keysets : List (KeySetInfo B)) (t : List (Event (MintConnector B))) :
    Prop where
  keysets_eq : ∀ mint ks, getKeysetsEvent mint (.ok ks) ∈ t → ks = keysets
  swap_unit : ∀ mint q sigs, postSwapEvent mint q (.ok sigs) ∈ t →
    ∃ u, (∀ p ∈ q.inputs, HasUnit keysets p.keysetId u) ∧
      ∀ o ∈ q.outputs, HasUnit keysets o.keysetId u
  keysetId_eq : ∀ mint q sigs, postSwapEvent mint q (.ok sigs) ∈ t →
    sigs.map BlindSignature.keysetId = q.outputs.map BlindedMessage.keysetId

/-- The inputs of the swaps posted in `t` and the new proofs have the unit of the credential, which
is the required one. -/
structure UnitSound (keysets : List (KeySetInfo B)) (requirement : PopRequirement B)
    (t : List (Event (MintConnector B))) (v : ValidatedPop B) : Prop where
  unit_eq : v.unit = requirement.unit
  inputs : ∀ mint q r, postSwapEvent mint q r ∈ t → ∀ p ∈ q.inputs, HasUnit keysets p.keysetId v.unit
  newProofs : ∀ p ∈ v.newProofs, HasUnit keysets p.keysetId v.unit

/-- The first proof of the token, with its keyset id resolved, has the required unit. -/
def FirstProofHasUnit (C : Cashu B Token) (keysets : List (KeySetInfo B)) (token : Token)
    (requirement : PopRequirement B) : Prop :=
  ∃ p ps, C.proofs token keysets = some (.ok (p :: ps)) ∧ HasUnit keysets p.keysetId requirement.unit

variable [DecidableEq B] {C : Cashu B Token} {random : PreMintRandom} {token : Token}
  {requirement : PopRequirement B} {keysets : List (KeySetInfo B)}
  {t : List (Event (MintConnector B))} {v : ValidatedPop B}

/-- An accepted credential is of the required unit exactly when the first proof of the token is. -/
theorem unitSound_iff_firstProofHasUnit (hone : OneUnitPerId keysets)
    (h : Runs (validateHttp C random token requirement) t (.ok v))
    (ht : HonestUnits keysets t) :
    UnitSound keysets requirement t v ↔ FirstProofHasUnit C keysets token requirement := by
  obtain ⟨x, sigs, hx, rfl, hv⟩ := exists_posting_of_ok (validateHttp_runs_iff.1 h)
  obtain ⟨hnew, -, hunit, -⟩ := settle_eq_ok hv
  obtain ⟨p, hp, -⟩ := hx.active_eq
  obtain ⟨ps, hps⟩ := List.head?_eq_some_iff.1 hp
  have hpost : postSwapEvent x.mint x.request (.ok sigs) ∈ x.trace (.ok sigs) :=
    Posting.mem_trace_iff.2 ⟨rfl, rfl, rfl⟩
  have hks : x.keysets = keysets := ht.keysets_eq x.mint x.keysets (by simp [Posting.trace])
  have hproofs : C.proofs token keysets = some (.ok (p :: ps)) := by
    rw [← hks, ← hps]
    exact (checkProofs_eq_ok_iff.1 hx.proofs_eq).1
  have hmem : p ∈ x.request.inputs := List.mem_of_mem_head? hp
  obtain ⟨u, hin, hout⟩ := ht.swap_unit _ _ _ hpost
  constructor
  · intro hs
    exact ⟨p, ps, hproofs, hunit ▸ hs.inputs _ _ _ hpost p hmem⟩
  · rintro ⟨p', ps', hproofs', hp'⟩
    rw [hproofs] at hproofs'
    cases hproofs'
    obtain rfl : requirement.unit = u := hone.hasUnit_unique hp' (hin p hmem)
    refine ⟨hunit, ?_, ?_⟩
    · intro mint q r hq i hi
      obtain ⟨-, rfl, -⟩ := Posting.mem_trace_iff.1 hq
      exact hunit ▸ hin i hi
    · intro n hn
      -- the keyset of a new proof is that of its signature, hence that of an output
      have hid : n.keysetId ∈ x.request.outputs.map BlindedMessage.keysetId := by
        rw [← ht.keysetId_eq _ _ _ hpost, ← (unblind_map hnew).2]
        exact List.mem_map_of_mem hn
      obtain ⟨o, ho, hoid⟩ := List.mem_map.1 hid
      exact hunit ▸ hoid ▸ hout o ho

end

namespace Reference

theorem oneUnitPerId : OneUnitPerId keysets := by
  unfold OneUnitPerId
  decide

theorem honestUnits {k : KeySetInfo BuiltinUnit} (hk : k ∈ keysets) :
    HonestUnits keysets ((posting k).trace (.ok (signatures k))) := by
  have hunit : HasUnit keysets k.id k.unit := ⟨k, hk, rfl, rfl⟩
  refine ⟨?_, ?_, ?_⟩
  · intro mint ks h
    have h' : mint = Reference.mint ∧ ks = keysets := by
      simpa [Posting.trace, postSwapEvent, getKeysetsEvent, getKeysetEvent, posting] using h
    exact h'.2
  · intro mint q sigs h
    obtain ⟨-, rfl, -⟩ := Posting.mem_trace_iff.1 h
    refine ⟨k.unit, ?_, ?_⟩
    · intro p hp
      obtain rfl := List.mem_singleton.1 hp
      exact hunit
    · intro o ho
      obtain rfl := List.mem_singleton.1 ho
      exact hunit
  · intro mint q sigs h
    obtain ⟨-, rfl, hr⟩ := Posting.mem_trace_iff.1 h
    cases hr
    rfl

/-- A token with a proof of the required unit is accepted. -/
theorem unitSound_popKeyset :
    UnitSound keysets requirement ((posting popKeyset).trace (.ok (signatures popKeyset)))
      (validated popKeyset) :=
  (unitSound_iff_firstProofHasUnit oneUnitPerId (runs_posting (by decide) [])
    (honestUnits (by decide))).2 ⟨_, _, rfl, popKeyset, by decide, rfl, rfl⟩

/-- A token that names the required unit and has a proof of another unit is accepted too. -/
theorem not_forall_unitSound :
    ¬ ∀ (token : Token) (t : List (Event (MintConnector BuiltinUnit)))
      (v : ValidatedPop BuiltinUnit), Runs (validateHttp (cashu []) random token requirement) t (.ok v) →
        HonestUnits keysets t → UnitSound keysets requirement t v := by
  intro h
  have hk : satKeyset ∈ [satKeyset, popKeyset] := by decide
  have hno : ∀ k ∈ keysets, k.id = satKeyset.id → k.unit ≠ popUnit := by decide
  have hs := h _ _ _ (runs_posting hk []) (honestUnits (by decide))
  obtain ⟨k, hk, hid, hunit⟩ := hs.newProofs _ List.mem_cons_self
  exact hno k hk hid hunit

end Reference

end CdkPopVerifier
