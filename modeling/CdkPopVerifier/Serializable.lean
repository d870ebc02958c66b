import CdkPopVerifier.HttpConcurrent
import CdkPopVerifier.Lib.Serial
import CdkPopVerifier.Liveness

/-!
# Requests one after the other

Of the calls of a request over the trait only the swap depends on the mints and changes them, and a
request makes one swap at most.  So whatever the interleaving of the HTTP calls of any number of
requests, and whatever is lost on the way, there is an order in which the requests could have been
handled one after the other, with the same replies, the same responses and the same calls of the
handlers.  A request that has ended before another one makes its first call comes first.
-/

namespace CdkPopVerifier

open Interaction PopValidator CdkMintClient

section

variable {B Token X σ ι : Type} {C : Cashu B Token}

/-! ## The calls that depend on the mints -/

theorem independent_keysets (mint : MintUrl) :
    (mintEnv id : Env ((MintClient B).sum (Next B X)) _).Independent (.inl (.keysets mint)) := by
  intro s r s' h
  cases h with
  | keysets r => exact ⟨rfl, fun u => .keysets r⟩

theorem independent_next (req : Request B X) :
    (mintEnv id : Env ((MintClient B).sum (Next B X)) _).Independent (.inr req) := by
  intro s r s' h
  cases h with
  | handled => exact ⟨rfl, fun u => .handled r⟩

variable [DecidableEq B]

/-- A request makes at most one call that depends on the mints. -/
theorem reducible_of_ends {requirement : PopRequirement B} {uuid : Uuid} {req : Request B X}
    {t : List (Event ((MintClient B).sum (Next B X)))} {x : Option Response}
    (h : Ends (requirePop C requirement uuid req) t x) :
    (mintEnv id : Env ((MintClient B).sum (Next B X)) _).Reducible t := by
  have hvalidate {token : Token} {t : List (Event (MintClient B))}
      {r : Except (ValidationError B) (ValidatedPop B)} (hv : ValidateRun C token requirement t r) :
      (mintEnv id : Env ((MintClient B).sum (Next B X)) _).Reducible (t.map .inl) := by
    unfold Env.Reducible
    cases hv with
    | badToken => exact .nil
    | keysetsFailed => exact List.pairwise_singleton _ _
    | badProofs => exact List.pairwise_singleton _ _
    | swapFailed => exact List.pairwise_pair.2 (.inl (independent_keysets _))
    | swapped => exact List.pairwise_pair.2 (.inl (independent_keysets _))
  rcases x with _ | resp
  · obtain ⟨token, mint, keysets, -, -, -, rfl⟩ := requirePop_panics_iff.1 h
    exact List.pairwise_singleton _ _
  rcases requirePop_runs_iff.1 h with _ | ⟨ht, hv⟩ | ⟨ht, hv⟩
  · exact .nil
  · exact hvalidate hv
  · refine List.pairwise_append.2 ⟨hvalidate hv, List.pairwise_singleton _ _, fun x _ y hy => .inr ?_⟩
    rw [List.mem_singleton.1 hy]
    exact independent_next _

/-! ## Calls that are not seen over HTTP -/

/-- A run makes no swap without inputs. -/
theorem swapEvent_nil_notMem {requirement : PopRequirement B} {uuid : Uuid} {req : Request B X}
    {t : List (Event ((MintClient B).sum (Next B X)))} {resp : Response}
    (h : Runs (requirePop C requirement uuid req) t resp) (mint : MintUrl)
    (r : Except MintClientError Proofs) : .inl (swapEvent mint [] r) ∉ t := by
  have hvalidate {token : Token} {t : List (Event (MintClient B))}
      {r' : Except (ValidationError B) (ValidatedPop B)}
      (hv : ValidateRun C token requirement t r') : swapEvent mint [] r ∉ t := by
    have hne {proofs : Proofs} {keysets : List (KeySetInfo B)}
        (hp : checkProofs C token requirement keysets = some (.ok proofs)) : proofs ≠ [] :=
      (checkProofs_eq_ok_iff.1 hp).2.1
    cases hv with
    | badToken => exact List.not_mem_nil
    | keysetsFailed => simp [swapEvent_ne_keysetsEvent]
    | badProofs => simp [swapEvent_ne_keysetsEvent]
    | swapFailed hm hp => simp [swapEvent_ne_keysetsEvent, swapEvent_inj, (hne hp).symm]
    | swapped hm hp => simp [swapEvent_ne_keysetsEvent, swapEvent_inj, (hne hp).symm]
  rcases requirePop_runs_iff.1 h with _ | ⟨ht, hv⟩ | ⟨ht, hv⟩
  · exact List.not_mem_nil
  · rw [Event.inl_mem_map_inl_iff]
    exact hvalidate hv
  · intro hmem
    rcases List.mem_append.1 hmem with hmem | hmem
    · exact hvalidate hv (Event.inl_mem_map_inl_iff.1 hmem)
    · exact Event.inl_ne_inr (List.mem_singleton.1 hmem)

/-- Every call but a swap without inputs is implemented by some calls. -/
theorem eq_nil_of_implements_nil {random : PreMintRandom}
    {t : List (Event ((MintClient B).sum (Next B X)))}
    (h : Implements (@Prog.implementInl (MintClient B) (Next B X) (MintConnector B) (handler C random))
      t []) (ht : ∀ mint r, .inl (swapEvent mint [] r) ∉ t) : t = [] := by
  cases t with
  | nil => rfl
  | cons x t =>
    obtain ⟨e, r⟩ := x
    obtain ⟨t₁, t₂, happend, h₁, -⟩ := implements_cons_iff.1 h
    obtain ⟨rfl, -⟩ := List.append_eq_nil_iff.1 happend.symm
    rcases e with (mint | ⟨mint, proofs⟩) | req
    · obtain ⟨s, hs, hruns⟩ := runs_inl_iff.1 h₁
      obtain ⟨r', rfl, -⟩ := runs_handler_keysets_iff.1 hruns
      cases hs
    · obtain ⟨s, hs, hruns⟩ := runs_inl_iff.1 h₁
      obtain rfl := List.map_eq_nil_iff.1 hs.symm
      cases runs_handler_swap_iff.1 hruns with
      | empty => exact absurd List.mem_cons_self (ht mint _)
    · cases runs_performInr_iff.1 h₁

/-! ## The order of the requests -/

/-- The pool is accounted for by requests that are handled one after the other: their calls over the
trait, the order, and the proofs that are spent on the way. -/
structure Serializes (C : Cashu B Token) (requirement : ι → PopRequirement B) (uuid : ι → Uuid)
    (req : ι → Request B X) (M : Mints B σ)
    (P : Pool ((MintConnector B).sum (Next B X)) Response ι σ)
    (calls : ι → List (Event ((MintClient B).sum (Next B X)))) (order : List ι)
    (spent : Multiset (MintUrl × Proof)) : Prop where
  nodup : order.Nodup
  mem_iff : ∀ i, i ∈ order ↔ calls i ≠ []
  serial : (mintEnv id).Serial calls 0 order spent
  areSpent : AreSpent M P.env spent
  started : ∀ i, ∃ t x, Ends (requirePop C (requirement i) (uuid i) (req i)) (calls i ++ t) x ∧
    (P.thread i).rights <+: (rights (calls i ++ t)).map Sigma.fst
  answered : ∀ i resp, (P.thread i).phase = .running (.ret resp) →
    Runs (requirePop C (requirement i) (uuid i) (req i)) (calls i) resp ∧
      (P.thread i).rights = (rights (calls i)).map Sigma.fst

variable [DecidableEq ι] {random : ι → PreMintRandom} {requirement : ι → PopRequirement B}
  {uuid : ι → Uuid} {req : ι → Request B X} {M : Mints B σ} {s : σ}
  {f : ℕ → Pool ((MintConnector B).sum (Next B X)) Response ι σ}

/-- At every time of an execution, with any calls lost and other clients at the mints, the requests are
as if they had been handled one after the other, with atomic swaps: those that are answered have the
responses and the calls of the handler of whole runs.  A request that has ended before another one makes
its first call comes before it. -/
theorem exists_serializes (hM : M.RefusesDuplicates)
    (hf : Execution (httpEnv M) (httpRequests C random requirement uuid req s) f) (n : ℕ) :
    ∃ calls order spent, Serializes C requirement uuid req M (f n) calls order spent ∧
      ∀ m ≤ n, ∀ i j, ((f m).thread i).Ended → ((f m).thread j).made = [] → i ∈ order →
        j ∈ order → [i, j].Sublist order := by
  have hstart : AreSpent M s 0 :=
    ⟨Multiset.nodup_zero, fun x hx => absurd hx (Multiset.notMem_zero x)⟩
  obtain ⟨Q, order, hQ, hm, hl, horder⟩ :=
    (refines_httpEnv hM keeps_true).of_restrict.exists_serialized hstart
      (fun _ _ _ => reducible_of_ends) hf n
  refine ⟨fun i => (Q.thread i).answered, order, Q.env, ⟨hl.nodup, hl.mem_iff, hl.serial, hm.env,
    fun i => ?_, fun i resp hresp => ?_⟩, horder⟩
  · obtain ⟨t, x, hends, hmade⟩ := hQ.exists_ends i
    refine ⟨t, x, hends, ?_⟩
    rw [← (hm.thread i).rights_eq, Thread.rights, map_fst_rights]
    exact hmade.filterMap _
  · obtain ⟨t, hruns, himpl, hmade⟩ := hm.exists_runs hQ hresp
    have ht : t = [] := eq_nil_of_implements_nil himpl fun mint r hmem =>
      swapEvent_nil_notMem hruns mint r (List.mem_append_right _ hmem)
    rw [ht, List.append_nil] at hruns
    refine ⟨hruns, ?_⟩
    rw [← (hm.thread i).rights_eq, Thread.rights, hmade, map_fst_rights]

end

namespace Reference

/-- A request with a good token makes a call before it is answered. -/
theorem not_runs_nil {resp : Response} :
    ¬ Runs (requirePop (cashu tokens) requirement ⟨0⟩ (request "cashuBpop")) [] resp := by
  intro h
  have hread : readToken (cashu tokens) (request "cashuBpop") = .ok (token popKeyset) :=
    readToken_request rfl
  generalize ht : ([] : List (Event ((MintClient BuiltinUnit).sum (Next BuiltinUnit Unit)))) = t at h
  rcases requirePop_runs_iff.1 h with hr | ⟨hr, hv⟩ | ⟨hr, hv⟩
  · cases hread.symm.trans hr
  · cases hread.symm.trans hr
    obtain rfl := List.map_eq_nil_iff.1 ht.symm
    cases hv with
    | badToken he => cases he
  · exact absurd ht.symm (List.append_ne_nil_of_right_ne_nil _ (List.cons_ne_nil _ _))

/-- Two requests with the same token: the one that is served comes first. -/
theorem exists_serializes_popKeyset :
    ∃ (P : Pool ((MintConnector BuiltinUnit).sum (Next BuiltinUnit Unit)) Response Bool
        (List (MintUrl × Secret))) (calls : Bool → List (Event ((MintClient BuiltinUnit).sum
          (Next BuiltinUnit Unit)))) (order : List Bool) (spent : Multiset (MintUrl × Proof)),
      Reachable (httpEnv carefulMints) pair P ∧ (P.thread true).rights.length = 1 ∧
        (P.thread false).Finished ∧ Serializes (cashu tokens) (fun _ => requirement) (fun _ => ⟨0⟩)
          (fun _ => request "cashuBpop") carefulMints P calls order spent ∧
        [true, false].Sublist order := by
  obtain ⟨P, Q, hP, hQ, hlen, hphase, hstart, htrue, resp, hfalse, -⟩ :=
    exists_reachable_reachable (E := httpEnv carefulMints) (fun _ _ => .exchanged .delivered)
      fun _ _ => .handled
  obtain ⟨f, m, hf, hm⟩ := hP.exists_execution
  obtain ⟨g, n, hg, hmn, hgf, hn⟩ := hf.exists_of_reachable hm hQ
  obtain ⟨calls, order, spent, h, horder⟩ :=
    exists_serializes carefulMints_refusesDuplicates hg n
  have hgm : g m = P := (hgf m le_rfl).trans (hm m le_rfl)
  rw [hn n le_rfl] at h
  have hmem (i : Bool) {resp : Response} (hi : (Q.thread i).phase = .running (.ret resp)) :
      i ∈ order := by
    rw [h.mem_iff]
    intro hnil
    have hruns := (h.answered i resp hi).1
    rw [hnil] at hruns
    exact not_runs_nil hruns
  rw [← htrue] at hlen
  refine ⟨Q, calls, order, spent, hP.trans hQ, hlen, ⟨resp, congrArg Thread.phase hfalse⟩, h, ?_⟩
  refine horder m hmn true false ?_ ?_ (hmem true (htrue ▸ hphase))
    (hmem false (congrArg Thread.phase hfalse))
  · rw [hgm]
    exact .inl ⟨_, hphase⟩
  · rw [hgm, hstart]
    rfl

end Reference

end CdkPopVerifier
