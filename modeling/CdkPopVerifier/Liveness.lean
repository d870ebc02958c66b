import CdkPopVerifier.HttpConcurrent
import CdkPopVerifier.Lib.Progress

/-!
# Every request is answered

A request makes at most five calls: four to the mint and one to the handler.  None of them waits for
another request, so in a fair execution every request is answered, however many there are, whatever
is lost on the way and whatever other clients do at the mints.  Only a panic of a dependency leaves a
request without an answer.
-/

namespace CdkPopVerifier

open Interaction

section

variable {B Token X σ ι : Type} [DecidableEq B] {C : Cashu B Token} {requirement : PopRequirement B}
  {M : Mints B σ} {s : σ}

instance nonempty_httpReply (e : ((MintConnector B).sum (Next B X)).Op) :
    Nonempty (((MintConnector B).sum (Next B X)).Reply e) :=
  match e with
  | .inl (_, .getMintKeysets) => ⟨(.ok [] : Except CdkError (List (KeySetInfo B)))⟩
  | .inl (_, .getMintKeyset _) => ⟨(.ok ⟨[], .nil⟩ : Except CdkError Keys)⟩
  | .inl (_, .postSwap _) => ⟨(.ok [] : Except CdkError (List BlindSignature))⟩
  | .inr _ => ⟨(⟨0, [], ""⟩ : Response)⟩

theorem CdkMintClient.SwapRun.length_le {random : PreMintRandom} {mint : MintUrl} {proofs : Proofs}
    {t : List (Event (MintConnector B))} {r : Except MintClientError Proofs}
    (h : SwapRun C random mint proofs t r) : t.length ≤ 3 := by
  cases h <;> simp

theorem HttpRun.length_le {random : PreMintRandom} {token : Token}
    {t : List (Event (MintConnector B))} {r : Except (ValidationError B) (ValidatedPop B)}
    (h : HttpRun C random token requirement t r) : t.length ≤ 4 := by
  cases h with
  | badToken => exact Nat.zero_le _
  | keysetsFailed => exact Nat.le_of_ble_eq_true rfl
  | badProofs => exact Nat.le_of_ble_eq_true rfl
  | swapRun hm hp hs => exact Nat.succ_le_succ hs.length_le

theorem HttpPanic.length_le {random : PreMintRandom} {token : Token}
    {t : List (Event (MintConnector B))} (h : HttpPanic C random token requirement t) :
    t.length ≤ 3 := by
  cases h <;> simp

/-- A request makes at most four calls to the mint and one to the handler. -/
theorem calls_le_of_ends {random : PreMintRandom} {uuid : Uuid} {req : Request B X}
    {t : List (Event ((MintConnector B).sum (Next B X)))} {x : Option Response}
    (h : Ends (requirePopHttp C random requirement uuid req) t x) :
    (t.map Sigma.fst).countP Sum.isLeft ≤ 4 ∧ (t.map Sigma.fst).countP Sum.isRight ≤ 1 := by
  have hmint {s : List (Event (MintConnector B))} (hs : s.length ≤ 4) :
      ((s.map (Event.inl (T := Next B X))).map Sigma.fst).countP Sum.isLeft ≤ 4 ∧
        ((s.map (Event.inl (T := Next B X))).map Sigma.fst).countP Sum.isRight = 0 := by
    rw [List.map_map, List.countP_map, List.countP_map]
    exact ⟨List.countP_le_length.trans hs, List.countP_eq_zero.2 fun _ _ => nofun⟩
  rcases x with _ | resp
  · obtain ⟨token, s, -, hs, rfl⟩ := requirePopHttp_panics_iff.1 h
    obtain ⟨hleft, hright⟩ := hmint (hs.length_le.trans (Nat.le_succ 3))
    exact ⟨hleft, hright.le.trans (Nat.zero_le 1)⟩
  · rcases requirePopHttp_runs_iff.1 h with _ | ⟨ht, hv⟩ | ⟨ht, hv⟩
    · exact ⟨Nat.zero_le _, Nat.zero_le _⟩
    · obtain ⟨hleft, hright⟩ := hmint hv.length_le
      exact ⟨hleft, hright.le.trans (Nat.zero_le 1)⟩
    · obtain ⟨hleft, hright⟩ := hmint hv.length_le
      rw [List.map_append, List.countP_append, List.countP_append, hright]
      exact ⟨hleft, le_rfl⟩

theorem length_le_of_ends {random : PreMintRandom} {uuid : Uuid} {req : Request B X}
    {t : List (Event ((MintConnector B).sum (Next B X)))} {x : Option Response}
    (h : Ends (requirePopHttp C random requirement uuid req) t x) : t.length ≤ 5 := by
  obtain ⟨hleft, hright⟩ := calls_le_of_ends h
  have hlen : (t.map Sigma.fst).length =
      (t.map Sigma.fst).countP Sum.isLeft + (t.map Sigma.fst).countP Sum.isRight := by
    rw [List.length_eq_countP_add_countP Sum.isLeft]
    simp only [Bool.not_eq_true, Sum.isLeft_eq_false, Bool.decide_eq_true]
  rw [List.length_map] at hlen
  omega

variable [DecidableEq ι] {random : ι → PreMintRandom} {requirement : ι → PopRequirement B}
  {uuid : ι → Uuid} {req : ι → Request B X}
  {f : ℕ → Pool ((MintConnector B).sum (Next B X)) Response ι σ}

omit [DecidableEq B] in
theorem exists_httpReply (s : σ) (e : ((MintConnector B).sum (Next B X)).Op) :
    ∃ r s', (httpEnv M).reply s e r s' := by
  cases e with
  | inl c => exact ⟨_, _, .exchanged .delivered⟩
  | inr req => exact ⟨_, _, .handled ⟨0, [], ""⟩⟩

/-- In every execution a request makes at most four calls to the mint and one to the handler, and it is
never blocked before it ends; if the execution is fair, every request is answered, with the response of
one of its runs, unless a dependency panics on what the mint has reported. -/
theorem answered_of_execution
    (hf : Execution (httpEnv M) (httpRequests C random requirement uuid req s) f) :
    (∀ n i, ((f n).thread i).made.countP Sum.isLeft ≤ 4 ∧
      ((f n).thread i).made.countP Sum.isRight ≤ 1) ∧
    (∀ n i, ((f n).thread i).Ended ∨
      ∃ Q, Step (httpEnv M) (f n) Q ∧ Q.thread i ≠ (f n).thread i) ∧
    (Fair f → ∀ i,
      (∃ n resp, ((f n).thread i).phase = .running (.ret resp) ∧
        Runs (requirePopHttp C (random i) (requirement i) (uuid i) (req i)) ((f n).thread i).received
          resp) ∨
      ∃ n, ((f n).thread i).Panicked ∧
        PanicsOnReplies C (requirement i) (req i) (random i) (lefts ((f n).thread i).received)) := by
  refine ⟨fun n i => ?_, fun n i => ?_, fun hfair i => ?_⟩
  · obtain ⟨t, x, hends, hmade⟩ := (hf.reachable n).exists_ends i
    obtain ⟨hleft, hright⟩ := calls_le_of_ends hends
    exact ⟨(hmade.sublist.countP_le).trans hleft, (hmade.sublist.countP_le).trans hright⟩
  · by_cases h : ((f n).thread i).Ended
    · exact .inl h
    · exact .inr (exists_step_of_not_ended exists_httpReply h)
  · obtain ⟨n, ⟨resp, hresp⟩ | hpanic⟩ := hf.exists_ended hfair fun _ _ => length_le_of_ends
    · exact .inl ⟨n, resp, hresp, ((hf.reachable n).runs_of_finished hresp).1⟩
    · have hpanics := (hf.reachable n).panics_of_phase hpanic
      obtain ⟨token, t, -, -, ht⟩ := requirePopHttp_panics_iff.1 hpanics
      rw [ht] at hpanics
      exact .inr ⟨n, hpanic, panicsOnReplies_iff.2 ⟨t, hpanics, by rw [ht, lefts_map_inl]⟩⟩

end

namespace Reference

/-- Two requests with the same token, which are both answered in a fair execution. -/
theorem answered_popKeyset :
    ∃ f : ℕ → Pool ((MintConnector BuiltinUnit).sum (Next BuiltinUnit Unit)) Response Bool
        (List (MintUrl × Secret)), Execution (httpEnv carefulMints) pair f ∧ Fair f ∧
      ∀ i, ∃ n resp, ((f n).thread i).phase = .running (.ret resp) ∧
        Runs (requirePopHttp (cashu tokens) random requirement ⟨0⟩ (request "cashuBpop"))
          ((f n).thread i).received resp := by
  obtain ⟨P, hP, -, htrue, resp, hfalse, -⟩ := exists_httpRequests
  have hphase (i : Bool) : ∃ resp, (P.thread i).phase = .running (.ret resp) := by
    cases i with
    | true => exact ⟨_, htrue⟩
    | false => exact ⟨_, congrArg Thread.phase hfalse⟩
  obtain ⟨f, m, hf, hm⟩ := hP.exists_execution
  have hfair : Fair f := fair_of_ended hm fun i => .inl (hphase i)
  refine ⟨f, hf, hfair, fun i => ?_⟩
  rcases (answered_of_execution hf).2.2 hfair i with h | ⟨n, hpanic, -⟩
  · exact h
  · obtain ⟨resp, hresp⟩ := hphase i
    rw [← hm m le_rfl] at hresp
    have he := hf.phase_eq_of_ended (.inl ⟨resp, hresp⟩) (.inr hpanic)
    rw [hresp, hpanic] at he
    cases he

end Reference

end CdkPopVerifier
