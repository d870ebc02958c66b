import CdkPopVerifier.DoubleUse
import CdkPopVerifier.Lib.Refinement
import CdkPopVerifier.Mints

/-!
# Concurrent requests over HTTP

Each request goes to an endpoint with a requirement of its own.  Over `CdkMintClient` it makes up to
four calls to the mint, the calls of different requests interleave, and each of them or its reply can be
lost.  Of these calls only the post of the swap changes the mint, and nothing is called after it.  So
the client takes its effect at the post, and whatever the requests do over HTTP they do with swaps in
one step.
-/

namespace CdkPopVerifier

open Fallible Interaction CdkMintClient

section

variable {B Token X σ ι : Type} (C : Cashu B Token) (random : ι → PreMintRandom)
  (requirement : ι → PopRequirement B) (uuid : ι → Uuid) (req : ι → Request B X) (M : Mints B σ)

/-- A mint that refuses a swap with two inputs of one secret. -/
def Mints.RefusesDuplicates : Prop :=
  ∀ s m q sigs, (M.swap s m q).1 = .ok sigs → (q.inputs.map Proof.secret).Nodup

/-- The replies over a network that may lose any call or its reply. -/
inductive HttpReply : σ → (e : ((MintConnector B).sum (Next B X)).Op) →
    ((MintConnector B).sum (Next B X)).Reply e → σ → Prop
  | exchanged {s : σ} {c : (MintConnector B).Op} (d : Delivery) :
    HttpReply s (.inl c) (M.exchange d s c).1 (M.exchange d s c).2
  | handled {s : σ} {req : Request B X} (resp : Response) : HttpReply s (.inr req) resp s

/-- The mints behind the network and the protected handler.  Other clients change the mints at any
time, but what is spent stays spent. -/
def httpEnv : Env ((MintConnector B).sum (Next B X)) σ where
  reply := HttpReply M
  idle s s' := ∀ m x, M.spent s m x → M.spent s' m x

/-- The proofs are distinct, and all of them are spent. -/
structure AreSpent (s : σ) (proofs : Multiset (MintUrl × Proof)) : Prop where
  nodup : (proofs.map identity).Nodup
  spent : ∀ x ∈ proofs, M.spent s x.1 x.2.secret

/-- The requests, each at the start of the middleware of its endpoint over the trait. -/
def traitRequests [DecidableEq B] (s : Multiset (MintUrl × Proof)) :
    Pool ((MintClient B).sum (Next B X)) Response ι (Multiset (MintUrl × Proof)) :=
  .start (fun i => requirePop C (requirement i) (uuid i) (req i)) s

/-- The requests, each at the start of the middleware of its endpoint over `CdkMintClient`, with its own
random draws. -/
def httpRequests [DecidableEq B] (s : σ) :
    Pool ((MintConnector B).sum (Next B X)) Response ι σ :=
  .start (fun i => requirePopHttp C (random i) (requirement i) (uuid i) (req i)) s

variable {C random requirement uuid req M} {s : σ} {proofs : Multiset (MintUrl × Proof)}

theorem AreSpent.mono (h : AreSpent M s proofs) {proofs' : Multiset (MintUrl × Proof)}
    (hle : proofs' ≤ proofs) : AreSpent M s proofs' :=
  ⟨Multiset.nodup_of_le (Multiset.map_le_map hle) h.nodup, fun x hx =>
    h.spent x (Multiset.mem_of_le hle hx)⟩

theorem AreSpent.add (hM : M.RefusesDuplicates) (h : AreSpent M s proofs) {m : MintUrl}
    {q : SwapRequest} {sigs : List BlindSignature} (hswap : (M.swap s m q).1 = .ok sigs) :
    AreSpent M (M.swap s m q).2 (proofs + inputsAt id m q.inputs) := by
  have hinputs : ∀ x ∈ inputsAt id m q.inputs, x.1 = m ∧ x.2 ∈ q.inputs := by
    intro x hx
    obtain ⟨p, hp, rfl⟩ := List.mem_map.1 (Multiset.mem_coe.1 hx)
    exact ⟨rfl, hp⟩
  constructor
  · rw [Multiset.map_add, Multiset.nodup_add]
    refine ⟨h.nodup, ?_, ?_⟩
    · rw [inputsAt, Multiset.map_coe, Multiset.coe_nodup, List.map_map]
      have hmap := (hM s m q sigs hswap).map (Prod.mk_right_injective m)
      rwa [List.map_map] at hmap
    · rw [Multiset.disjoint_left]
      intro y hy hy'
      obtain ⟨x, hx, rfl⟩ := Multiset.mem_map.1 hy
      obtain ⟨x', hx', he⟩ := Multiset.mem_map.1 hy'
      obtain ⟨hmint, hmem⟩ := hinputs x' hx'
      obtain ⟨h1, h2⟩ := Prod.mk.inj he
      refine M.unspent_of_accepted hswap x'.2 hmem ?_
      rw [h2, ← hmint, h1]
      exact h.spent x hx
  · intro x hx
    rw [M.spent_iff_of_accepted hswap]
    rcases Multiset.mem_add.1 hx with hx | hx
    · exact .inl (h.spent x hx)
    · obtain ⟨hmint, hmem⟩ := hinputs x hx
      exact .inr ⟨hmint, List.mem_map_of_mem hmem⟩

theorem silent_getMintKeysets {mint : MintUrl} :
    Silent (httpEnv M : Env ((MintConnector B).sum (Next B X)) σ).left (AreSpent M)
      (mint, .getMintKeysets) := by
  intro s proofs r s' h hr
  cases hr with
  | exchanged d => rwa [Mints.exchange_snd_getMintKeysets]

theorem silent_getMintKeyset {mint : MintUrl} {id : Id} :
    Silent (httpEnv M : Env ((MintConnector B).sum (Next B X)) σ).left (AreSpent M)
      (mint, .getMintKeyset id) := by
  intro s proofs r s' h hr
  cases hr with
  | exchanged d => rwa [Mints.exchange_snd_getMintKeyset]

/-- `K` holds of the calls of the trait that are made of these HTTP calls. -/
structure Keeps (C : Cashu B Token) (random : ι → PreMintRandom) (M : Mints B σ)
    (K : Event ((MintClient B).sum (Next B X)) → Prop) : Prop where
  keysets : ∀ mint r, K (.inl (keysetsEvent mint r))
  failed : ∀ mint ps e, K (.inl (swapEvent mint ps (.error e)))
  swapped : ∀ i s mint p ps active keys preMint sigs,
    prepare C (random i) active keys (p :: ps) = some (.ok preMint) →
    (M.swap s mint (swapRequest (p :: ps) preMint)).1 = .ok sigs →
      K (.inl (swapEvent mint (p :: ps) (unblind C sigs preMint keys)))
  handled : ∀ req resp, K (.inr (handlerEvent req resp))

variable {K : Event ((MintClient B).sum (Next B X)) → Prop}

/-- The calls of the trait, with the replies of which `K` holds. -/
abbrev keepingEnv (K : Event ((MintClient B).sum (Next B X)) → Prop) :
    Env ((MintClient B).sum (Next B X)) (Multiset (MintUrl × Proof)) :=
  (mintEnv id).restrict K

/-- A post, with what is made of the reply to it, is a swap in one step. -/
theorem exists_reply_of_postSwap (hM : M.RefusesDuplicates) (hK : Keeps C random M K) {i : ι}
    {mint : MintUrl} {p : Proof} {ps : Proofs} {active : KeySetInfo B} {keys : Keys}
    {preMint : PreMintSecrets} {d : Delivery}
    (hp : prepare C (random i) active keys (p :: ps) = some (.ok preMint)) (h : AreSpent M s proofs) :
    ∃ proofs', (keepingEnv K).reply proofs (.inl (.swap mint (p :: ps)))
        ((M.exchange d s (mint, .postSwap (swapRequest (p :: ps) preMint))).1.mapError mapCdkErr >>=
          fun signatures => unblind C signatures preMint keys) proofs' ∧
      AreSpent M (M.exchange d s (mint, .postSwap (swapRequest (p :: ps) preMint))).2 proofs' := by
  have hfailed (e : CdkError) : K ⟨.inl (.swap mint (p :: ps)), .error (mapCdkErr e)⟩ :=
    hK.failed _ _ _
  rcases hswap : (M.swap s mint (swapRequest (p :: ps) preMint)).1 with e | sigs
  · have hs := M.eq_of_refused hswap
    cases d with
    | requestLost e' => exact ⟨proofs, ⟨.refused _, hfailed e'⟩, h⟩
    | replyLost e' => exact ⟨proofs, ⟨.refused _, hfailed e'⟩, hs.symm ▸ h⟩
    | delivered =>
      refine ⟨proofs, ?_, hs.symm ▸ h⟩
      dsimp only [Mints.exchange, Mints.answer]
      rw [hswap]
      exact ⟨.refused _, hfailed e⟩
  · have hadd := h.add hM hswap
    cases d with
    | requestLost e => exact ⟨proofs, ⟨.refused _, hfailed e⟩, h⟩
    | replyLost e => exact ⟨_, ⟨.accepted _ hadd.nodup, hfailed e⟩, hadd⟩
    | delivered =>
      refine ⟨_, ?_, hadd⟩
      dsimp only [Mints.exchange, Mints.answer]
      rw [hswap]
      exact ⟨.accepted _ hadd.nodup, hK.swapped _ _ _ _ _ _ _ _ _ hp hswap⟩

variable [DecidableEq B]

/-- The client takes its effect at one call. -/
theorem atomic_handler (hM : M.RefusesDuplicates) (hK : Keeps C random M K) (i : ι)
    (e : (MintClient B).Op) :
    Atomic (fun s v s' => (keepingEnv K).reply s (.inl e) v s')
      (httpEnv M : Env ((MintConnector B).sum (Next B X)) σ).left (AreSpent M)
      (handler C (random i) e) := by
  cases e with
  | keysets mint =>
    exact silent_getMintKeysets.atomic_call fun r => fun t s h =>
      ⟨s, ⟨.keysets _, hK.keysets _ _⟩, h⟩
  | swap mint ps =>
    have herror (error : MintClientError) :
        Atomic (fun s v s' => (keepingEnv K).reply s (.inl (.swap mint ps)) v s')
          (httpEnv M : Env ((MintConnector B).sum (Next B X)) σ).left
          (AreSpent M) (.ret (.error error)) :=
      fun t s h => ⟨s, ⟨.refused error, hK.failed _ _ _⟩, h⟩
    cases ps with
    | nil => exact herror _
    | cons p ps =>
      unfold handler
      dsimp only
      rw [swap_cons]
      refine silent_getMintKeysets.atomic_callExcept_bind herror fun keysets => ?_
      refine Atomic.attempt_bind herror fun active _ => ?_
      refine silent_getMintKeyset.atomic_callExcept_bind herror fun keys => ?_
      refine Atomic.unwind_bind herror fun preMint hp => ?_
      refine atomic_callExcept_attempt fun t s r t' h hr => ?_
      cases hr with
      | exchanged d => exact exists_reply_of_postSwap hM hK hp h

/-- `CdkMintClient` over the network refines the trait `MintClient` with swaps in one step. -/
theorem refines_httpEnv (hM : M.RefusesDuplicates) (hK : Keeps C random M K) :
    Refines (keepingEnv K) (httpEnv M) (AreSpent M)
      fun i => @Prog.implementInl (MintClient B) (Next B X) (MintConnector B)
        (handler C (random i)) := by
  refine .implementInl (fun i => atomic_handler hM hK i) ?_ ?_
  · intro t s _ r t' h hr
    cases hr with
    | handled => exact ⟨s, ⟨.handled _, hK.handled _ _⟩, h⟩
  · exact fun h hidle => ⟨_, .inl rfl, h.nodup, fun x hx => hidle _ _ (h.spent x hx)⟩

variable [DecidableEq ι]

variable {P : Pool ((MintConnector B).sum (Next B X)) Response ι σ}

/-- Every interleaving of HTTP calls is matched by an interleaving of the calls of the trait. -/
theorem exists_matches (hM : M.RefusesDuplicates) (hK : Keeps C random M K)
    (h : Reachable (httpEnv M) (httpRequests C random requirement uuid req s) P) :
    ∃ Q, Reachable (keepingEnv K) (traitRequests C requirement uuid req 0) Q ∧
      Matches (keepingEnv K) (httpEnv M) (AreSpent M)
        (fun i => Prog.implementInl (handler C (random i))) Q P :=
  (refines_httpEnv hM hK).exists_reachable
    ⟨Multiset.nodup_zero, fun x hx => absurd hx (Multiset.notMem_zero x)⟩ h

omit [DecidableEq B] [DecidableEq ι] in
theorem keeps_true : Keeps C random M fun _ : Event ((MintClient B).sum (Next B X)) => True :=
  ⟨fun _ _ => trivial, fun _ _ _ => trivial, fun _ _ _ _ _ _ _ _ _ _ _ => trivial,
    fun _ _ => trivial⟩

/-- In every interleaving of HTTP calls, with any of them lost, the handler is called for what it is
called for in an interleaving of the calls of the trait, the proofs that are spent there are spent at
the mints, and the requests that are answered have the responses of runs over the trait. -/
theorem exists_requests_of_httpRequests (hM : M.RefusesDuplicates)
    (h : Reachable (httpEnv M) (httpRequests C random requirement uuid req s) P) :
    ∃ Q, Reachable (mintEnv id) (traitRequests C requirement uuid req 0) Q ∧
      (∀ i, (Q.thread i).rights = (P.thread i).rights) ∧ AreSpent M P.env Q.env ∧
      ∀ i resp, (P.thread i).phase = .running (.ret resp) →
        ∃ t, Runs (requirePop C (requirement i) (uuid i) (req i)) ((Q.thread i).answered ++ t) resp := by
  obtain ⟨Q, hQ, hm⟩ := exists_matches hM keeps_true h
  refine ⟨Q, hQ.of_restrict, fun i => (hm.thread i).rights_eq, hm.env, fun i resp ha => ?_⟩
  obtain ⟨t, ht, -⟩ := hm.exists_runs hQ ha
  exact ⟨t, ht⟩

/-- A thread over the trait has not called the handler, or it has called it on a credential that is made of
the reply to a swap. -/
theorem rights_eq_nil_or {Q : Pool ((MintClient B).sum (Next B X)) Response ι _}
    (hQ : Reachable (mintEnv id) (traitRequests C requirement uuid req 0) Q) (i : ι) :
    (Q.thread i).rights = [] ∨ ∃ token mint keysets proofs newProofs v,
      Presents C (requirement i) (req i) token mint ∧ Covers C (requirement i) token keysets proofs ∧
        Vouches (requirement i) mint newProofs v ∧
        (Q.thread i).rights = [{ req i with extension := some v }] ∧
        .inl (swapEvent mint proofs (.ok newProofs)) ∈ (Q.thread i).answered ∧
        behind id (Q.thread i) = inputsAt id mint proofs := by
  obtain ⟨t, x, hends, hmade⟩ := hQ.exists_ends i
  have hlen := (Q.thread i).length_made_le
  by_cases hcall : (Q.thread i).rights = []
  · exact .inl hcall
  right
  obtain ⟨req', hreq'⟩ := List.exists_mem_of_ne_nil _ hcall
  obtain ⟨c, hmem, hright⟩ := List.mem_filterMap.1 hreq'
  obtain rfl := Sum.getRight?_eq_some_iff.1 hright
  obtain ⟨⟨_, r⟩, he, rfl⟩ := List.mem_map.1 (hmade.subset hmem)
  obtain ⟨resp, -, hruns⟩ := exists_runs_of_inr_mem (e := ⟨req', r⟩) hends he
  obtain ⟨token, mint, keysets, proofs, newProofs, v, hp, hc, hv, ht⟩ :=
    exists_of_inr_mem (e := ⟨req', r⟩) hruns he
  have hall : (Q.thread i).made =
      [.inl (.keysets mint), .inl (.swap mint proofs), .inr { req i with extension := some v }] := by
    rw [ht] at hmade
    rcases (@List.prefix_concat_iff _ _ [_, _] _).1 hmade with h | h
    · exact h
    · rcases List.mem_pair.1 (h.subset hmem) with h | h <;> cases h
  rw [hall] at hlen
  have hlen : 2 ≤ (Q.thread i).answered.length := Nat.le_of_succ_le_succ hlen
  refine ⟨token, mint, keysets, proofs, newProofs, v, hp, hc, hv, ?_, ?_, sum_taken_eq hlen ht⟩
  · rw [Thread.rights, hall]
    rfl
  · refine List.mem_of_getElem? (i := 1) ?_
    rw [← List.getElem?_append_left hlen, ht]
    rfl

theorem sum_behind_le_env {Q : Pool ((MintClient B).sum (Next B X)) Response ι _}
    (hQ : Reachable (mintEnv id) (traitRequests C requirement uuid req 0) Q) (F : Finset ι) :
    ∑ i ∈ F, behind id (Q.thread i) ≤ Q.env :=
  (le_add_of_nonneg_left (Multiset.zero_le _)).trans (hQ.sum_cost_le (mintEnv_pays id) F)

/-- The handler is called at most once, for a presented token whose proofs are worth the required
amount. -/
inductive CalledFor (C : Cashu B Token) (requirement : PopRequirement B) (req : Request B X)
    (calls : List (Request B X)) : Multiset (MintUrl × Proof) → Prop
  | notCalled (h : calls = []) : CalledFor C requirement req calls 0
  | called {token : Token} {mint : MintUrl} {keysets : List (KeySetInfo B)} {proofs : Proofs}
      (hlen : calls.length = 1) (hpresents : Presents C requirement req token mint)
      (hcovers : Covers C requirement token keysets proofs) :
    CalledFor C requirement req calls (inputsAt id mint proofs)

/-- In every interleaving of HTTP calls, with any of them lost, each call of the handler is paid for
by proofs of its own, which are spent at the mints, and no two requests share a proof, whichever
endpoints they are for. -/
theorem exists_paid (hM : M.RefusesDuplicates)
    (h : Reachable (httpEnv M) (httpRequests C random requirement uuid req s) P) :
    ∃ paid : ι → Multiset (MintUrl × Proof),
      (∀ i, CalledFor C (requirement i) (req i) (P.thread i).rights (paid i)) ∧
      ∀ F : Finset ι, AreSpent M P.env (∑ i ∈ F, paid i) := by
  obtain ⟨Q, hQ, hm⟩ := exists_matches hM keeps_true h
  have hcalls (i : ι) : ∃ paid ≤ behind id (Q.thread i),
      CalledFor C (requirement i) (req i) (P.thread i).rights paid := by
    rw [← (hm.thread i).rights_eq]
    rcases rights_eq_nil_or hQ.of_restrict i with
      h | ⟨token, mint, keysets, proofs, newProofs, v, hp, hc, -, hrights, -, hbehind⟩
    · exact ⟨0, Multiset.zero_le _, .notCalled h⟩
    · refine ⟨_, hbehind.ge, .called ?_ hp hc⟩
      rw [hrights]
      rfl
  choose paid hle hpaid using hcalls
  refine ⟨paid, hpaid, fun F => hm.env.mono ?_⟩
  calc ∑ i ∈ F, paid i ≤ ∑ i ∈ F, behind id (Q.thread i) := Finset.sum_le_sum fun i _ => hle i
    _ ≤ Q.env := sum_behind_le_env hQ.of_restrict F

end

namespace Reference

/-- The mint of the example, which also looks for inputs of one secret. -/
def carefulMints : Mints BuiltinUnit (List (MintUrl × Secret)) where
  keysets := mints.keysets
  keys := mints.keys
  swap s m q :=
    if (q.inputs.map Proof.secret).Nodup then mints.swap s m q
    else (.error ⟨true, "Duplicate inputs provided"⟩, s)
  spent := mints.spent
  eq_of_refused {s m q e} h := by
    split_ifs at h ⊢
    · exact mints.eq_of_refused h
    · rfl
  unspent_of_accepted {s m q sigs} h := by
    split_ifs at h
    exact mints.unspent_of_accepted h
  spent_iff_of_accepted {s m q sigs} h := by
    split_ifs at h ⊢
    exact mints.spent_iff_of_accepted h

theorem carefulMints_refusesDuplicates : carefulMints.RefusesDuplicates := by
  intro s m q sigs h
  simp only [carefulMints] at h
  split_ifs at h with hnodup
  exact hnodup

/-- Two requests with the same token. -/
def pair : Pool ((MintConnector BuiltinUnit).sum (Next BuiltinUnit Unit)) Response Bool
    (List (MintUrl × Secret)) :=
  httpRequests (cashu tokens) (fun _ => random) (fun _ => requirement) (fun _ => ⟨0⟩)
    (fun _ => request "cashuBpop") []

/-- Two requests with the same token, with every call delivered: the swap of the first is posted and its
handler is called, and then that of the second is refused. -/
theorem exists_reachable_reachable
    {E : Env ((MintConnector BuiltinUnit).sum (Next BuiltinUnit Unit)) (List (MintUrl × Secret))}
    (hmint : ∀ s c, E.reply s (.inl c) (carefulMints.exchange .delivered s c).1
      (carefulMints.exchange .delivered s c).2)
    (hnext : ∀ s req resp, E.reply s (.inr req) resp s) :
    ∃ P Q, Reachable E pair P ∧ Reachable E P Q ∧ (P.thread true).rights.length = 1 ∧
      (P.thread true).phase = .running (.ret ⟨200, [], "ok"⟩) ∧
      P.thread false = pair.thread false ∧ Q.thread true = P.thread true ∧
      ∃ resp, Q.thread false =
          ⟨((posting popKeyset).trace (.error ⟨true, "Token Already Spent"⟩)).map .inl,
            .running (.ret resp)⟩ ∧ resp.status = paymentRequired := by
  have hrefused : Runs (requirePopHttp (cashu tokens) random requirement ⟨0⟩ (request "cashuBpop"))
      (((posting popKeyset).trace (.error ⟨true, "Token Already Spent"⟩)).map .inl) _ :=
    requirePopHttp_runs_iff.2 (.failed (readToken_request rfl)
      ((posting_reached (by decide) tokens).httpRun _))
  obtain ⟨P, hP, henv, htrue, hne⟩ := (Reachable.refl : Reachable E pair _).exists_of_runs (i := true)
    rfl (runs_requirePopHttp ⟨0⟩ ⟨200, [], "ok"⟩) (.cons (hmint _ _) (.cons (hmint _ _)
      (.cons (hmint _ _) (.cons (hmint _ _) (.cons (hnext _ _ _) (.nil _))))))
  obtain ⟨Q, hQ, -, hfalse, hne'⟩ := (Reachable.refl : Reachable E P _).exists_of_runs (i := false)
    (hne false (by decide)) hrefused (by
      rw [henv]
      exact .cons (hmint _ _) (.cons (hmint _ _) (.cons (hmint _ _) (.cons (hmint _ _) (.nil _)))))
  refine ⟨P, Q, hP, hQ, ?_, ?_, hne false (by decide), hne' true (by decide), _, hfalse, ?_⟩
  · rw [htrue]
    rfl
  · rw [htrue]
  · have hcdk : mapCdkErr ⟨true, "Token Already Spent"⟩ = .rejectedSwap "Token Already Spent" := rfl
    simp only [hcdk, ValidationError.ofMintClient, validationErrorToResponse,
      challengeResponse_eq (cashu_acceptsVisibleAscii tokens), textResponse]

theorem exists_httpRequests :
    ∃ P, Reachable (httpEnv carefulMints) pair P ∧ (P.thread true).rights.length = 1 ∧
      (P.thread true).phase = .running (.ret ⟨200, [], "ok"⟩) ∧ ∃ resp, P.thread false =
          ⟨((posting popKeyset).trace (.error ⟨true, "Token Already Spent"⟩)).map .inl,
            .running (.ret resp)⟩ ∧ resp.status = paymentRequired := by
  obtain ⟨P, Q, hP, hQ, hlen, hphase, -, htrue, hfalse⟩ :=
    exists_reachable_reachable (E := httpEnv carefulMints) (fun _ _ => .exchanged .delivered)
      fun _ _ => .handled
  rw [← htrue] at hlen hphase
  exact ⟨Q, hP.trans hQ, hlen, hphase, hfalse⟩

theorem exists_requests_popKeyset :
    ∃ Q, Reachable (mintEnv id) (requests (cashu tokens) requirement (fun _ => ⟨0⟩)
        (fun _ : Bool => request "cashuBpop") 0) Q ∧ (Q.thread true).rights.length = 1 := by
  obtain ⟨P, hP, hlen, -⟩ := exists_httpRequests
  obtain ⟨Q, hQ, hrights, -⟩ := exists_requests_of_httpRequests carefulMints_refusesDuplicates hP
  exact ⟨Q, hQ, by rw [hrights, hlen]⟩

theorem exists_paid_popKeyset :
    ∃ (P : Pool ((MintConnector BuiltinUnit).sum (Next BuiltinUnit Unit)) Response Bool
        (List (MintUrl × Secret))) (paid : Bool → Multiset (MintUrl × Proof)),
      CalledFor (cashu tokens) requirement (request "cashuBpop") (P.thread true).rights (paid true) ∧
      (P.thread true).rights.length = 1 ∧ AreSpent carefulMints P.env (∑ i, paid i) := by
  obtain ⟨P, hP, hlen, -⟩ := exists_httpRequests
  obtain ⟨paid, hpaid, hspent⟩ := exists_paid carefulMints_refusesDuplicates hP
  exact ⟨P, paid, hpaid true, hlen, hspent _⟩

end Reference

end CdkPopVerifier
