import CdkPopVerifier.HttpConcurrent
import CdkPopVerifier.Reference

/-!
# What the verifier earns

The outputs of a swap are worth as much as its inputs, and a mint signs them for their amounts.  So a
swap that succeeds returns proofs of the value of its inputs, and whatever the interleaving of the
requests, the verifier has earned exactly what their clients have spent on calls of the handler.
-/

namespace CdkPopVerifier

open Fallible Interaction CdkMintClient

section

variable {B Token X σ ι : Type} (M : Mints B σ)

/-- The signatures of an accepted swap have the amounts of its outputs. -/
def Mints.SignsOutputs : Prop :=
  ∀ s m q sigs, (M.swap s m q).1 = .ok sigs →
    sigs.map BlindSignature.amount = q.outputs.map BlindedMessage.amount

/-- A swap that succeeds returns proofs of the value of its inputs. -/
def Conserves : Event ((MintClient B).sum (Next B X)) → Prop
  | ⟨.inl (.swap _ proofs), r⟩ => ∀ newProofs,
    (r : Except MintClientError Proofs) = .ok newProofs → Proofs.value newProofs = proofs.value
  | _ => True

/-- What the credentials are worth on which the handler is called. -/
def income (calls : List (Request B X)) : ℕ :=
  (calls.map fun req => (req.extension.map fun v => v.amount.toNat).getD 0).sum

variable {C : Cashu B Token} {random : ι → PreMintRandom} {requirement : ι → PopRequirement B}
  {uuid : ι → Uuid} {req : ι → Request B X} {M} {s : σ}

/-- The new proofs are worth as much as the inputs. -/
theorem value_of_unblind {r : PreMintRandom} (hr : r.Totals) {active : KeySetInfo B} {keys : Keys}
    {proofs newProofs : Proofs} {preMint : PreMintSecrets} {sigs : List BlindSignature}
    (hp : prepare C r active keys proofs = some (.ok preMint))
    (hsigs : sigs.map BlindSignature.amount =
      preMint.blindedMessages.map BlindedMessage.amount)
    (h : unblind C sigs preMint keys = .ok newProofs) : newProofs.value = proofs.value := by
  obtain ⟨-, total, htotal, hpre⟩ := prepare_eq_ok_iff.1 hp
  rw [Proofs.value, (unblind_map h).1, hsigs, hr _ _ _ _ hpre, htotal]

theorem keeps_conserves (hsign : M.SignsOutputs) (hrandom : ∀ i, (random i).Totals) :
    Keeps C random M (Conserves : Event ((MintClient B).sum (Next B X)) → Prop) where
  keysets _ _ := trivial
  failed _ _ _ _ h := by cases h
  swapped i _ _ _ _ _ _ _ _ hp hswap _ h :=
    value_of_unblind (hrandom i) hp (hsign _ _ _ _ hswap) h
  handled _ _ := trivial

variable [DecidableEq B] [DecidableEq ι]
  {P : Pool ((MintConnector B).sum (Next B X)) Response ι σ}

/-- In every interleaving of HTTP calls, with any of them lost, the credentials on which the handler is
called are worth as much as the proofs behind its calls, which are spent at the mints, all of them
distinct. -/
theorem exists_income (hM : M.RefusesDuplicates) (hsign : M.SignsOutputs)
    (hrandom : ∀ i, (random i).Totals)
    (h : Reachable (httpEnv M) (httpRequests C random requirement uuid req s) P) :
    ∃ paid : ι → Multiset (MintUrl × Proof),
      (∀ i, CalledFor C (requirement i) (req i) (P.thread i).rights (paid i)) ∧
      ∀ F : Finset ι, AreSpent M P.env (∑ i ∈ F, paid i) ∧
        ∑ i ∈ F, income (P.thread i).rights = totalValue (∑ i ∈ F, paid i) := by
  obtain ⟨Q, hQ, hm⟩ := exists_matches hM (keeps_conserves hsign hrandom) h
  have hcalls (i : ι) : ∃ paid ≤ behind id (Q.thread i),
      CalledFor C (requirement i) (req i) (P.thread i).rights paid ∧
        income (P.thread i).rights = totalValue paid := by
    rw [← (hm.thread i).rights_eq]
    rcases rights_eq_nil_or hQ.of_restrict i with
      h | ⟨token, mint, keysets, proofs, newProofs, v, hp, hc, hv, hrights, hmem, hbehind⟩
    · rw [h]
      exact ⟨0, Multiset.zero_le _, .notCalled rfl, rfl⟩
    · have hvalue : newProofs.value = proofs.value := hQ.forall_mem_answered i _ hmem _ rfl
      rw [hrights]
      refine ⟨_, hbehind.ge, .called rfl hp hc, ?_⟩
      rw [totalValue_inputsAt, ← hvalue, ← hv.amount_eq]
      exact Nat.add_zero _
  choose paid hle hpaid hincome using hcalls
  refine ⟨paid, hpaid, fun F => ⟨hm.env.mono ?_, ?_⟩⟩
  · calc ∑ i ∈ F, paid i ≤ ∑ i ∈ F, behind id (Q.thread i) := Finset.sum_le_sum fun i _ => hle i
      _ ≤ Q.env := sum_behind_le_env hQ.of_restrict F
  · rw [totalValue_sum]
    exact Finset.sum_congr rfl fun i _ => hincome i

end

namespace Reference

theorem carefulMints_signsOutputs : carefulMints.SignsOutputs := by
  intro s m q sigs h
  simp only [carefulMints, mints] at h
  split_ifs at h
  cases h
  rw [List.map_map]
  rfl

/-- The verifier earns the two units that the client of the example spends. -/
theorem exists_income_popKeyset :
    ∃ (P : Pool ((MintConnector BuiltinUnit).sum (Next BuiltinUnit Unit)) Response Bool
        (List (MintUrl × Secret))) (paid : Bool → Multiset (MintUrl × Proof)),
      (P.thread true).rights.length = 1 ∧
      CalledFor (cashu tokens) requirement (request "cashuBpop") (P.thread true).rights (paid true) ∧
      ∑ i, income (P.thread i).rights = totalValue (∑ i, paid i) := by
  obtain ⟨P, hP, hlen, -⟩ := exists_httpRequests
  obtain ⟨paid, hpaid, hspent⟩ := exists_income carefulMints_refusesDuplicates
    carefulMints_signsOutputs (fun _ => random_totals) hP
  exact ⟨P, paid, hlen, hpaid true, (hspent _).2⟩

end Reference

end CdkPopVerifier
