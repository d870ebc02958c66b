import CdkPopVerifier.Gate
import CdkPopVerifier.Mints

/-!
# Retrying after 503

The middleware answers 503 when a call to the mint failed in transport.  A call that is lost on its
way leaves the mint as it was, and so does every failed call before the post of the swap.  If the
mint has accepted the swap and only its reply is lost, the proofs of the token are spent although
the client is told that it may retry.  This is the only such case: in every other one the mints are
in the state in which the request found them.
-/

namespace CdkPopVerifier

open Fallible Interaction

section

variable {B Token X σ : Type} (C : Cashu B Token) (random : PreMintRandom)
  (requirement : PopRequirement B) (uuid : Uuid) (req : Request B X) (M : Mints B σ)
  (net : ℕ → Delivery) (next : Request B X → Response) (s : σ)

/-- None of the proofs of the presented token is spent in the state `s'` that was not in `s`. -/
def LeavesUnspent (s' : σ) : Prop :=
  ∀ token mint keysets proofs, readToken C req = .ok token → C.mintUrl token = .ok mint →
    C.proofs token keysets = some (.ok proofs) →
      ∀ p ∈ proofs, M.spent s' mint p.secret → M.spent s mint p.secret

variable [DecidableEq B]

/-- What the middleware does with a request to it, with the mints in the state `s`. -/
def serve : Outcome ((MintConnector B).sum (Next B X)) Response (σ × ℕ) :=
  (requirePopHttp C random requirement uuid req).run ((M.world net).beside next) (s, 0)

/-- The middleware itself answers 503. -/
def Unavailable (o : Outcome ((MintConnector B).sum (Next B X)) Response (σ × ℕ)) : Prop :=
  rights o.trace = [] ∧ o.result.map Response.status = some serviceUnavailable

/-- The request has a token whose swap the mint accepts, when it is posted. -/
def HasAcceptedSwap : Prop :=
  ∃ (token : Token) (x : Posting B) (sigs : List BlindSignature),
    readToken C req = .ok token ∧ x.Reached C random token requirement ∧
      M.keysets s x.mint = .ok x.keysets ∧ M.keysets s x.mint = .ok x.swapKeysets ∧
      M.keys s x.mint x.active.id = .ok x.keys ∧ (M.swap s x.mint x.request).1 = .ok sigs

/-- The swap is posted, the mint accepts it, and the reply is lost. -/
def LosesAcceptedSwap : Prop :=
  (net 0 = .delivered ∧ net 1 = .delivered ∧ net 2 = .delivered ∧ ∃ e, net 3 = .replyLost e) ∧
    HasAcceptedSwap C random requirement req M s

variable {C random requirement uuid req M net next s}

omit [DecidableEq B] in
theorem status_challengeResponse_ne {reason : Option String} :
    (challengeResponse C uuid requirement reason).status ≠ serviceUnavailable := by
  unfold challengeResponse
  dsimp only
  split_ifs
  · exact (by decide : paymentRequired ≠ serviceUnavailable)
  · exact (by decide : internalServerError ≠ serviceUnavailable)

omit [DecidableEq B] in
theorem exists_of_status_eq {e : ValidationError B}
    (h : (validationErrorToResponse C uuid e requirement).status = serviceUnavailable) :
    ∃ m, e = .mintUnreachable m := by
  cases e with
  | mintUnreachable m => exact ⟨m, rfl⟩
  | _ => exact absurd h status_challengeResponse_ne

theorem ends_serve : Ends (requirePopHttp C random requirement uuid req)
    (serve C random requirement uuid req M net next s).trace
    (serve C random requirement uuid req M net next s).result :=
  ends_run ..

theorem steps_serve : ((M.world net).beside next).Steps (s, 0)
    (serve C random requirement uuid req M net next s).trace
    (serve C random requirement uuid req M net next s).final :=
  steps_run ..

/-- Unless an accepted swap is lost, the mints are left as they were. -/
theorem final_eq_of_unavailable (hlose : ¬ LosesAcceptedSwap C random requirement req M net s)
    (h : Unavailable (serve C random requirement uuid req M net next s)) :
    (serve C random requirement uuid req M net next s).final.1 = s := by
  obtain ⟨hno, hstatus⟩ := h
  have hends := @ends_serve _ _ _ _ C random requirement uuid req M net next s _
  have hsteps := @steps_serve _ _ _ _ C random requirement uuid req M net next s _
  generalize serve C random requirement uuid req M net next s = o at *
  obtain ⟨_ | resp, trace, final⟩ := o
  · cases hstatus
  replace hstatus : resp.status = serviceUnavailable := Option.some.inj hstatus
  have hrun : Runs (requirePopHttp C random requirement uuid req) trace resp := hends
  dsimp only at *
  rcases requirePopHttp_runs_iff.1 hrun with _ | @⟨token, t, e, ht, hv⟩ | ⟨ht, hv⟩
  · rw [World.steps_nil_iff] at hsteps
    rw [hsteps]
  · replace hsteps := World.beside_steps_map_inl_iff.1 hsteps
    by_cases hpost : ∃ e ∈ t, IsPost e
    · obtain ⟨x, reply, hx, rfl, hr⟩ := hv.exists_posting_of_isPost hpost
      obtain ⟨⟨h0, hk⟩, ⟨h1, hk'⟩, ⟨h2, hkeys⟩, rfl, rfl⟩ := Mints.steps_trace_iff.1 hsteps
      rcases @Mints.exchange_snd_postSwap_eq_or _ _ M s (net 3) x.mint x.request with
        hs | ⟨sigs, hswap, ⟨e', h3⟩ | hreply⟩
      · exact hs
      · exact absurd ⟨⟨h0, h1, h2, e', h3⟩, token, x, sigs, ht, hx, hk, hk', hkeys, hswap⟩ hlose
      · -- a reply with signatures is not answered with 503
        obtain ⟨m, rfl⟩ := exists_of_status_eq hstatus
        rw [hreply] at hr
        rcases settle_eq_error hr.symm with ⟨_, h⟩ | ⟨_, h⟩ <;> cases h
    · exact Mints.eq_of_steps_of_no_post hsteps hpost
  · simp at hno

/-- A run of the validator that fails, as a run of the middleware. -/
theorem serve_eq_of_failed {token : Token} {t : List (Event (MintConnector B))}
    {e : ValidationError B} {s' : σ} {n : ℕ} (ht : readToken C req = .ok token)
    (hv : HttpRun C random token requirement t (.error e))
    (hsteps : (M.world net).Steps (s, 0) t (s', n)) :
    serve C random requirement uuid req M net next s =
      ⟨some (validationErrorToResponse C uuid e requirement), t.map .inl, s', n⟩ := by
  have hrun : Runs (requirePopHttp C random requirement uuid req) (t.map .inl)
      (validationErrorToResponse C uuid e requirement) :=
    requirePopHttp_runs_iff.2 (.failed ht hv)
  exact run_eq_iff.2 ⟨hrun, World.beside_steps_map_inl_iff.2 hsteps⟩

/-- A post whose reply is `r`, with the error that is made of it. -/
theorem serve_eq_of_conclude_error {token : Token} {x : Posting B}
    {r : Except CdkError (List BlindSignature)} {e : ValidationError B} {s' : σ}
    (ht : readToken C req = .ok token)
    (hx : x.Reached C random token requirement)
    (h0 : net 0 = .delivered ∧ M.keysets s x.mint = .ok x.keysets)
    (h1 : net 1 = .delivered ∧ M.keysets s x.mint = .ok x.swapKeysets)
    (h2 : net 2 = .delivered ∧ M.keys s x.mint x.active.id = .ok x.keys)
    (h3 : M.exchange (net 3) s (x.mint, .postSwap x.request) = (r, s'))
    (he : x.conclude C requirement r = .error e) :
    serve C random requirement uuid req M net next s =
      ⟨some (validationErrorToResponse C uuid e requirement), (x.trace r).map .inl, s', 4⟩ := by
  have hv := hx.httpRun r
  rw [he] at hv
  have hsteps : (M.world net).Steps (s, 0) (x.trace r) (s', 4) :=
    Mints.steps_trace_iff.2 ⟨h0, h1, h2, by rw [h3], by rw [h3]⟩
  exact serve_eq_of_failed ht hv hsteps

/-- What is made of a failure that is not definitive. -/
theorem mapCdkErr_of_transient {e : CdkError} (h : e.isDefinitiveFailure = false) :
    mapCdkErr e = .unreachable e.text :=
  if_neg (by simp [h])

/-- A swap whose post fails in transport: the middleware answers 503. -/
theorem serve_of_post_error {token : Token} {x : Posting B} {e : CdkError} {s' : σ}
    (ht : readToken C req = .ok token) (hx : x.Reached C random token requirement)
    (h0 : net 0 = .delivered ∧ M.keysets s x.mint = .ok x.keysets)
    (h1 : net 1 = .delivered ∧ M.keysets s x.mint = .ok x.swapKeysets)
    (h2 : net 2 = .delivered ∧ M.keys s x.mint x.active.id = .ok x.keys)
    (h3 : M.exchange (net 3) s (x.mint, .postSwap x.request) = (.error e, s'))
    (he : e.isDefinitiveFailure = false) :
    serve C random requirement uuid req M net next s =
      ⟨some (validationErrorToResponse C uuid (.mintUnreachable e.text) requirement),
        (x.trace (.error e)).map .inl, s', 4⟩ := by
  have hconclude : x.conclude C requirement (.error e) = .error (.mintUnreachable e.text) := by
    rw [Posting.conclude, mapCdkErr_of_transient he]
    rfl
  exact serve_eq_of_conclude_error ht hx h0 h1 h2 h3 hconclude

/-- A lost swap: the middleware answers 503, and the mint has spent the inputs. -/
theorem serve_of_losesAcceptedSwap
    (hnet : ∀ e, net 3 = .replyLost e → e.isDefinitiveFailure = false)
    (h : LosesAcceptedSwap C random requirement req M net s) :
    Unavailable (serve C random requirement uuid req M net next s) ∧
      ¬ LeavesUnspent C req M s (serve C random requirement uuid req M net next s).final.1 := by
  obtain ⟨⟨h0, h1, h2, e, h3⟩, token, x, sigs, ht, hx, hk, hk', hkeys, hswap⟩ := h
  have hexchange : M.exchange (net 3) s (x.mint, .postSwap x.request) =
      (.error e, (M.swap s x.mint x.request).2) := by
    rw [h3]
    rfl
  rw [serve_of_post_error ht hx ⟨h0, hk⟩ ⟨h1, hk'⟩ ⟨h2, hkeys⟩ hexchange (hnet e h3)]
  refine ⟨⟨rights_map_inl _, rfl⟩, fun hun => ?_⟩
  obtain ⟨-, hmint, -⟩ := PopValidator.checkToken_eq_ok_iff.1 hx.mint_eq
  obtain ⟨hproofs, hne, -, -⟩ := PopValidator.checkProofs_eq_ok_iff.1 hx.proofs_eq
  obtain ⟨p, hp⟩ := List.exists_mem_of_ne_nil _ hne
  have hspent : M.spent (M.swap s x.mint x.request).2 x.mint p.secret :=
    (M.spent_iff_of_accepted hswap _ _).2 (.inr ⟨rfl, List.mem_map_of_mem hp⟩)
  exact M.unspent_of_accepted hswap p hp
    (hun token x.mint x.keysets x.proofs ht hmint hproofs p hp hspent)

/-- A 503 of the middleware leaves the proofs of the token unspent, and a retry that reaches the mints
finds them as the first request did, exactly when the reply to an accepted swap is not what was lost.
The error of a lost reply is taken not to be definitive. -/
theorem leavesUnspent_iff_not_losesAcceptedSwap
    (hnet : ∀ e, net 3 = .replyLost e → e.isDefinitiveFailure = false) :
    (Unavailable (serve C random requirement uuid req M net next s) →
      LeavesUnspent C req M s (serve C random requirement uuid req M net next s).final.1 ∧
        ∀ random' uuid' (next' : Request B X → Response),
          serve C random' requirement uuid' req M (fun _ => .delivered) next'
              (serve C random requirement uuid req M net next s).final.1 =
            serve C random' requirement uuid' req M (fun _ => .delivered) next' s) ↔
      ¬ LosesAcceptedSwap C random requirement req M net s := by
  constructor
  · intro h hlose
    obtain ⟨hun, hspent⟩ :=
      @serve_of_losesAcceptedSwap _ _ _ _ C random requirement uuid req M net next s _ hnet hlose
    exact hspent (h hun).1
  · intro hlose hun
    have hfinal := final_eq_of_unavailable hlose hun
    constructor
    · intro token mint keysets proofs _ _ _ p _ hspent
      rwa [hfinal] at hspent
    · intro random' uuid' next'
      rw [hfinal]

end

namespace Reference

/-- The fourth call times out: the post of the swap is lost, or its reply. -/
def timeout (d : CdkError → Delivery) (i : ℕ) : Delivery :=
  if i = 3 then d ⟨false, "operation timed out"⟩ else .delivered

/-- The handler of the example. -/
def next (_ : Request BuiltinUnit Unit) : Response := textResponse 200 [] "4"

/-- A swap that does not reach the mint may be retried. -/
theorem leavesUnspent_of_requestLost :
    Unavailable (serve (cashu tokens) random requirement ⟨0⟩ (request "cashuBpop") mints
      (timeout .requestLost) next []) ∧
    LeavesUnspent (cashu tokens) (request "cashuBpop") mints []
      (serve (cashu tokens) random requirement ⟨0⟩ (request "cashuBpop") mints
        (timeout .requestLost) next []).final.1 := by
  have hnet : ∀ e, timeout .requestLost 3 ≠ .replyLost e := fun e h => by cases h
  have hun : Unavailable (serve (cashu tokens) random requirement ⟨0⟩ (request "cashuBpop") mints
      (timeout .requestLost) next []) := by
    rw [@serve_of_post_error _ _ _ _ (cashu tokens) random requirement ⟨0⟩ _ mints
      (timeout .requestLost) next [] _ (token popKeyset) (posting popKeyset) _ _
      (readToken_request rfl) (posting_reached (by decide) tokens) ⟨rfl, rfl⟩ ⟨rfl, rfl⟩ ⟨rfl, rfl⟩
      rfl rfl]
    exact ⟨rights_map_inl _, rfl⟩
  exact ⟨hun, ((leavesUnspent_iff_not_losesAcceptedSwap fun e he => absurd he (hnet e)).2
    (fun hlose => hnet _ hlose.1.2.2.2.choose_spec) hun).1⟩

/-- A swap whose reply is lost may not. -/
theorem not_forall_leavesUnspent :
    ¬ ∀ (cashuToken : String) (net : ℕ → Delivery),
      (∀ e, net 3 = .replyLost e → e.isDefinitiveFailure = false) →
        Unavailable (serve (cashu tokens) random requirement ⟨0⟩ (request cashuToken) mints net
          next []) →
        LeavesUnspent (cashu tokens) (request cashuToken) mints []
          (serve (cashu tokens) random requirement ⟨0⟩ (request cashuToken) mints net
            next []).final.1 := by
  intro h
  have hnet : ∀ e, timeout .replyLost 3 = .replyLost e → e.isDefinitiveFailure = false := by
    intro e he
    cases he
    rfl
  have hlose : LosesAcceptedSwap (cashu tokens) random requirement (request "cashuBpop") mints
      (timeout .replyLost) [] :=
    ⟨⟨rfl, rfl, rfl, _, rfl⟩, token popKeyset, posting popKeyset, signatures popKeyset,
      readToken_request rfl, posting_reached (by decide) tokens, rfl, rfl, rfl, rfl⟩
  obtain ⟨hun, hspent⟩ := @serve_of_losesAcceptedSwap _ _ _ _ (cashu tokens) random requirement ⟨0⟩
    (request "cashuBpop") mints (timeout .replyLost) next [] _ hnet hlose
  exact hspent (h _ _ hnet hun)

end Reference

end CdkPopVerifier
