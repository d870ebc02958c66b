import CdkPopVerifier.Liveness

/-!
# What is sent to a mint

Each call of a request is licensed by the replies to its earlier calls.  The mint is asked for its
keysets once the token is of the required unit and from an allowed mint, and again once its proofs are
worth the required amount; it is asked for the keys of a keyset that it reports as active; and the
proofs of the token are posted, with outputs of the same value, under a keyset without a fee.
-/

namespace CdkPopVerifier

open Fallible Interaction PopValidator CdkMintClient

section

variable {B Token X σ ι : Type} (C : Cashu B Token) (random : PreMintRandom)
  (requirement : PopRequirement B) (req : Request B X)

/-- The keyset is active and has the unit of the keyset of the first proof. -/
def Succeeds (keysets : List (KeySetInfo B)) (proofs : Proofs) (active : KeySetInfo B) : Prop :=
  ∃ p k, proofs.head? = some p ∧ k ∈ keysets ∧ k.id = p.keysetId ∧ active ∈ keysets ∧
    active.active = true ∧ active.unit = k.unit

/-- `Licensed C random requirement req l c`: after the calls of `l`, with the replies recorded there, the
request may make the call `c`. -/
inductive Licensed : List (Event ((MintConnector B).sum (Next B X))) →
    ((MintConnector B).sum (Next B X)).Op → Prop
  | keysets {token : Token} {mint : MintUrl} (hp : Presents C requirement req token mint) :
    Licensed [] (.inl (mint, .getMintKeysets))
  | swapKeysets {token : Token} {mint : MintUrl} {keysets : List (KeySetInfo B)} {proofs : Proofs}
      (hp : Presents C requirement req token mint) (hc : Covers C requirement token keysets proofs) :
    Licensed [.inl (getKeysetsEvent mint (.ok keysets))] (.inl (mint, .getMintKeysets))
  | keys {token : Token} {mint : MintUrl} {keysets keysets' : List (KeySetInfo B)} {proofs : Proofs}
      {active : KeySetInfo B} (hp : Presents C requirement req token mint)
      (hc : Covers C requirement token keysets proofs) (ha : Succeeds keysets' proofs active) :
    Licensed [.inl (getKeysetsEvent mint (.ok keysets)), .inl (getKeysetsEvent mint (.ok keysets'))]
      (.inl (mint, .getMintKeyset active.id))
  | post {token : Token} {mint : MintUrl} {keysets keysets' : List (KeySetInfo B)} {proofs : Proofs}
      {active : KeySetInfo B} {keys : Keys} {outputs : List BlindedMessage}
      (hp : Presents C requirement req token mint) (hc : Covers C requirement token keysets proofs)
      (ha : Succeeds keysets' proofs active) (hfee : active.inputFeePpk = 0)
      (hsum : random.Totals → Amount.exactSum (outputs.map BlindedMessage.amount) = proofs.value) :
    Licensed [.inl (getKeysetsEvent mint (.ok keysets)), .inl (getKeysetsEvent mint (.ok keysets')),
      .inl (getKeysetEvent mint active.id (.ok keys))] (.inl (mint, .postSwap ⟨proofs, outputs⟩))
  | handler {token : Token} {mint : MintUrl} {keysets keysets' : List (KeySetInfo B)}
      {proofs : Proofs} {active : KeySetInfo B} {keys : Keys} {outputs : List BlindedMessage}
      {sigs : List BlindSignature} {v : ValidatedPop B}
      (hp : Presents C requirement req token mint) (hc : Covers C requirement token keysets proofs)
      (hlen : sigs.length = outputs.length)
      (hamounts : v.newProofs.map Proof.amount = sigs.map BlindSignature.amount)
      (hv : Vouches requirement mint v.newProofs v) :
    Licensed [.inl (getKeysetsEvent mint (.ok keysets)), .inl (getKeysetsEvent mint (.ok keysets')),
      .inl (getKeysetEvent mint active.id (.ok keys)),
      .inl (postSwapEvent mint ⟨proofs, outputs⟩ (.ok sigs))] (.inr { req with extension := some v })

variable {C random requirement req}

/-- A call to a mint is for a token from this mint, which is allowed. -/
theorem Licensed.presents {l : List (Event ((MintConnector B).sum (Next B X)))} {mint : MintUrl}
    {call : HttpCall} (h : Licensed C random requirement req l (.inl (mint, call))) :
    ∃ token, Presents C requirement req token mint := by
  cases h with
  | keysets hp => exact ⟨_, hp⟩
  | swapKeysets hp hc => exact ⟨_, hp⟩
  | keys hp hc ha => exact ⟨_, hp⟩
  | post hp hc ha hfee hsum => exact ⟨_, hp⟩

/-- What is swapped is worth what is required. -/
theorem Licensed.amount_le {l : List (Event ((MintConnector B).sum (Next B X)))} {mint : MintUrl}
    {q : SwapRequest} (h : Licensed C random requirement req l (.inl (mint, .postSwap q))) :
    requirement.amount.toNat ≤ q.inputs.value := by
  cases h with
  | post hp hc ha hfee hsum => exact hc.amount_le

variable [DecidableEq B]

theorem succeeds_of_selectKeyset {keysets : List (KeySetInfo B)} {p : Proof} {ps : Proofs}
    {active : KeySetInfo B} (h : selectKeyset C p.keysetId keysets = .ok active) :
    Succeeds keysets (p :: ps) active := by
  obtain ⟨k, hk, hactive⟩ := selectKeyset_eq_ok_iff.1 h
  obtain ⟨hmem, hact⟩ := List.mem_filter.1 (List.mem_of_find?_eq_some hactive)
  exact ⟨p, k, rfl, List.mem_of_find?_eq_some hk, by simpa using List.find?_some hk, hmem, hact,
    by simpa using List.find?_some hactive⟩

omit [DecidableEq B] in
theorem exactSum_of_prepare {active : KeySetInfo B} {keys : Keys} {proofs : Proofs}
    {preMint : PreMintSecrets} (h : prepare C random active keys proofs = some (.ok preMint))
    (hr : random.Totals) :
    Amount.exactSum (preMint.blindedMessages.map BlindedMessage.amount) = proofs.value := by
  obtain ⟨-, total, htotal, hpre⟩ := prepare_eq_ok_iff.1 h
  rw [hr _ _ _ _ hpre, htotal]

/-- The calls of the validator are licensed. -/
theorem HttpRun.allLicensed {token : Token} {t : List (Event (MintConnector B))}
    {r : Except (ValidationError B) (ValidatedPop B)} (ht : readToken C req = .ok token)
    (h : HttpRun C random token requirement t r) :
    AllLicensed (Licensed C random requirement req) [] (t.map .inl) := by
  cases h with
  | badToken => trivial
  | keysetsFailed hm => exact ⟨.keysets (presents_of_readToken ht hm), trivial⟩
  | badProofs hm => exact ⟨.keysets (presents_of_readToken ht hm), trivial⟩
  | swapRun hm hp hs =>
    have hpresents := presents_of_readToken ht hm
    have hcovers := covers_of_checkProofs hp
    refine ⟨.keysets hpresents, ?_⟩
    cases hs with
    | empty => trivial
    | keysetsFailed => exact ⟨.swapKeysets hpresents hcovers, trivial⟩
    | noKeyset => exact ⟨.swapKeysets hpresents hcovers, trivial⟩
    | keysFailed hs =>
      exact ⟨.swapKeysets hpresents hcovers,
        .keys hpresents hcovers (succeeds_of_selectKeyset hs), trivial⟩
    | notPrepared hs =>
      exact ⟨.swapKeysets hpresents hcovers,
        .keys hpresents hcovers (succeeds_of_selectKeyset hs), trivial⟩
    | postFailed hs hq =>
      exact ⟨.swapKeysets hpresents hcovers,
        .keys hpresents hcovers (succeeds_of_selectKeyset hs),
        .post hpresents hcovers (succeeds_of_selectKeyset hs) (prepare_eq_ok_iff.1 hq).1
          (exactSum_of_prepare hq), trivial⟩
    | posted hs hq =>
      exact ⟨.swapKeysets hpresents hcovers,
        .keys hpresents hcovers (succeeds_of_selectKeyset hs),
        .post hpresents hcovers (succeeds_of_selectKeyset hs) (prepare_eq_ok_iff.1 hq).1
          (exactSum_of_prepare hq), trivial⟩

/-- The calls before a panic are licensed. -/
theorem HttpPanic.allLicensed {token : Token} {t : List (Event (MintConnector B))}
    (ht : readToken C req = .ok token) (h : HttpPanic C random token requirement t) :
    AllLicensed (Licensed C random requirement req) [] (t.map .inl) := by
  cases h with
  | proofs hm => exact ⟨.keysets (presents_of_readToken ht hm), trivial⟩
  | random hm hp hs =>
    have hpresents := presents_of_readToken ht hm
    have hcovers := covers_of_checkProofs hp
    exact ⟨.keysets hpresents, .swapKeysets hpresents hcovers,
      .keys hpresents hcovers (succeeds_of_selectKeyset hs), trivial⟩

/-- The calls of the middleware are licensed. -/
theorem allLicensed_of_ends {uuid : Uuid} {t : List (Event ((MintConnector B).sum (Next B X)))}
    {x : Option Response} (h : Ends (requirePopHttp C random requirement uuid req) t x) :
    AllLicensed (Licensed C random requirement req) [] t := by
  rcases x with _ | resp
  · obtain ⟨token, s, ht, hs, rfl⟩ := requirePopHttp_panics_iff.1 h
    exact hs.allLicensed ht
  · rcases requirePopHttp_runs_iff.1 h with _ | ⟨ht, hv⟩ | ⟨ht, hv⟩
    · trivial
    · exact hv.allLicensed ht
    · refine (hv.allLicensed ht).concat ?_
      obtain ⟨x, sigs, hx, rfl, hsettle⟩ := exists_posting_of_ok hv
      obtain ⟨hnew, hm, hu, ha⟩ := settle_eq_ok hsettle
      have hlen : sigs.length = x.preMint.blindedMessages.length :=
        (unblind_eq_ok_iff.1 hnew).1.trans (List.length_map _).symm
      exact .handler (presents_of_readToken ht hx.mint_eq) (covers_of_checkProofs hx.proofs_eq) hlen
        (unblind_map hnew).1 ⟨rfl, hm, hu, ha⟩

variable [DecidableEq ι] {random : ι → PreMintRandom} {requirement : ι → PopRequirement B}
  {uuid : ι → Uuid} {req : ι → Request B X}
  {M : Mints B σ} {s : σ} {P : Pool ((MintConnector B).sum (Next B X)) Response ι σ}

/-- In every interleaving of HTTP calls, with any of them lost, each call that a request makes is licensed
by the replies that the request has received to its earlier calls. -/
theorem licensed_of_reachable
    (h : Reachable (httpEnv M) (httpRequests C random requirement uuid req s) P) (i : ι)
    (l₁ l₂ : List ((MintConnector B).sum (Next B X)).Op) (c : ((MintConnector B).sum (Next B X)).Op)
    (hmade : (P.thread i).made = l₁ ++ c :: l₂) :
    Licensed C (random i) (requirement i) (req i) ((P.thread i).received.take l₁.length) c :=
  h.licensed (fun _ _ => allLicensed_of_ends) hmade

end

namespace Reference

/-- Two requests, of which one has called the handler and the other has posted its swap in vain. -/
theorem exists_licensed_popKeyset :
    ∃ P, Reachable (httpEnv carefulMints) pair P ∧
      (∃ l₁ l₂ req', (P.thread true).made = l₁ ++ .inr req' :: l₂ ∧
        Licensed (cashu tokens) random requirement (request "cashuBpop")
          ((P.thread true).received.take l₁.length) (.inr req')) ∧
      ∃ l₁ l₂, (P.thread false).made =
          l₁ ++ .inl (mint, .postSwap (posting popKeyset).request) :: l₂ ∧
        Licensed (cashu tokens) random requirement (request "cashuBpop")
          ((P.thread false).received.take l₁.length)
          (.inl (mint, .postSwap (posting popKeyset).request)) := by
  obtain ⟨P, hP, hlen, -, resp, hfalse, -⟩ := exists_httpRequests
  have hlicensed := licensed_of_reachable hP
  refine ⟨P, hP, ?_, ?_⟩
  · obtain ⟨req', hreq'⟩ := List.exists_mem_of_length_pos (hlen.symm ▸ Nat.one_pos)
    obtain ⟨c, hc, hright⟩ := List.mem_filterMap.1 hreq'
    obtain rfl := Sum.getRight?_eq_some_iff.1 hright
    obtain ⟨l₁, l₂, hmade⟩ := List.append_of_mem hc
    exact ⟨l₁, l₂, req', hmade, hlicensed true l₁ l₂ _ hmade⟩
  · have hmem : .inl (mint, .postSwap (posting popKeyset).request) ∈ (P.thread false).made := by
      rw [hfalse]
      exact List.mem_of_getElem? (i := 3) rfl
    obtain ⟨l₁, l₂, hmade⟩ := List.append_of_mem hmem
    exact ⟨l₁, l₂, hmade, hlicensed false l₁ l₂ _ hmade⟩

end Reference

end CdkPopVerifier
