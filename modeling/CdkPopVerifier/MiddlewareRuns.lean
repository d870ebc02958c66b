import CdkPopVerifier.Middleware
import CdkPopVerifier.ValidatorRuns

/-!
# The runs of the middleware

`requirePop` reads a token from the request, without a call, and then validates it.  `GateRun` lists
its runs: a refusal before any call, a failed validation, or one call of the handler.  It panics where
the validator does, and then has not called the handler.
-/

namespace CdkPopVerifier

open Fallible Interaction

variable {B Token X : Type} (C : Cashu B Token)

/-- A call of the protected handler with its reply. -/
def handlerEvent (req : Request B X) (resp : Response) : Event (Next B X) := ⟨req, resp⟩

/-- The part of `requirePop` before the validator: the token, or the body of the refusal. -/
def readToken (req : Request B X) : Except (Option String) Token := do
  let headerRaw ← okOr (req.headers.lookup "authorization") none
  let headerValue ← okOr (headerToStr headerRaw) (some "invalid Authorization header encoding")
  let credentials ← (parsePaymentAuthorization C.toTexts headerValue).mapError fun e =>
    if e = .unknownScheme then none else some (e.toString C.toTexts)
  (decodeToken C credentials.payload.cashuToken).mapError fun e => some (decodeErrorMessage e)

theorem readToken_eq_ok_iff {req : Request B X} {token : Token} :
    readToken C req = .ok token ↔ ∃ headerRaw headerValue credentials,
      req.headers.lookup "authorization" = some headerRaw ∧
        headerToStr headerRaw = some headerValue ∧
        parsePaymentAuthorization C.toTexts headerValue = .ok credentials ∧
        decodeToken C credentials.payload.cashuToken = .ok token := by
  simp only [readToken, bind_eq_ok_iff, okOr_eq_ok_iff, mapError_eq_ok_iff]
  constructor
  · rintro ⟨a, ha, b, hb, c, hc, hd⟩
    exact ⟨a, b, c, ha, hb, hc, hd⟩
  · rintro ⟨a, b, c, ha, hb, hc, hd⟩
    exact ⟨a, ha, b, hb, c, hc, hd⟩

variable {S : Sig} (requirement : PopRequirement B) (uuid : Uuid) (req : Request B X)

/-- The middleware with the validator `p`, in stages. -/
def gate (p : Token → Prog S (Except (ValidationError B) (ValidatedPop B))) :
    Prog (S.sum (Next B X)) Response :=
  match readToken C req with
  | .error reason => .ret (challengeResponse C uuid requirement reason)
  | .ok token => (p token).inl >>= fun
    | .error e => .ret (validationErrorToResponse C uuid e requirement)
    | .ok validated => .performInr { req with extension := some validated }

/-- The runs of the middleware with a validator that has the runs `V`. -/
inductive GateRun (V : Token → List (Event S) → Except (ValidationError B) (ValidatedPop B) → Prop) :
    List (Event (S.sum (Next B X))) → Response → Prop
  | refused {reason : Option String} (hr : readToken C req = .error reason) :
    GateRun V [] (challengeResponse C uuid requirement reason)
  | failed {token : Token} {t : List (Event S)} {e : ValidationError B}
      (ht : readToken C req = .ok token) (hv : V token t (.error e)) :
    GateRun V (t.map .inl) (validationErrorToResponse C uuid e requirement)
  | handled {token : Token} {t : List (Event S)} {v : ValidatedPop B} {resp : Response}
      (ht : readToken C req = .ok token) (hv : V token t (.ok v)) :
    GateRun V (t.map .inl ++ [.inr (handlerEvent { req with extension := some v } resp)]) resp

variable {C requirement uuid req} {resp : Response}

theorem gate_runs_iff {p : Token → Prog S (Except (ValidationError B) (ValidatedPop B))}
    {V : Token → List (Event S) → Except (ValidationError B) (ValidatedPop B) → Prop}
    (hV : ∀ token t r, Runs (p token) t r ↔ V token t r) {t : List (Event (S.sum (Next B X)))} :
    Runs (gate C requirement uuid req p) t resp ↔ GateRun C requirement uuid req V t resp := by
  rw [gate]
  rcases ht : readToken C req with reason | token
  · rw [runs_ret_iff]
    constructor
    · rintro ⟨rfl, rfl⟩
      exact .refused ht
    · rintro (hr | ⟨h, -⟩ | ⟨h, -⟩)
      · cases hr.symm.trans ht
        exact ⟨rfl, rfl⟩
      · cases h.symm.trans ht
      · cases h.symm.trans ht
  · simp only [runs_bind_iff, runs_inl_iff, hV]
    constructor
    · rintro ⟨_, t₂, e | v, rfl, ⟨s, rfl, hv⟩, h⟩
      · obtain ⟨rfl, rfl⟩ := runs_ret_iff.1 h
        rw [List.append_nil]
        exact .failed ht hv
      · obtain rfl := runs_performInr_iff.1 h
        exact .handled ht hv
    · rintro (hr | ⟨h, hv⟩ | ⟨h, hv⟩)
      · cases hr.symm.trans ht
      · cases h.symm.trans ht
        exact ⟨_, [], _, (List.append_nil _).symm, ⟨_, rfl, hv⟩, .ret _⟩
      · cases h.symm.trans ht
        exact ⟨_, _, _, rfl, ⟨_, rfl, hv⟩, runs_performInr_iff.2 rfl⟩

theorem gate_panics_iff {p : Token → Prog S (Except (ValidationError B) (ValidatedPop B))}
    {t : List (Event (S.sum (Next B X)))} : Panics (gate C requirement uuid req p) t ↔
      ∃ token s, readToken C req = .ok token ∧ Panics (p token) s ∧ t = s.map .inl := by
  rw [gate]
  rcases ht : readToken C req with reason | token
  · refine iff_of_false not_panics_ret ?_
    rintro ⟨_, _, ⟨⟩, -⟩
  · simp only [panics_bind_iff, panics_inl_iff]
    constructor
    · rintro (⟨s, rfl, hs⟩ | ⟨_, _, e | v, -, -, h⟩)
      · exact ⟨token, s, rfl, hs, rfl⟩
      · exact absurd h not_panics_ret
      · exact absurd h (@not_panics_perform (S.sum (Next B X)) (.inr _) _)
    · rintro ⟨_, s, ⟨⟩, hs, rfl⟩
      exact .inl ⟨s, rfl, hs⟩

variable {V : Token → List (Event S) → Except (ValidationError B) (ValidatedPop B) → Prop}

/-- The runs in which the handler is called. -/
theorem GateRun.exists_of_inr_mem {t : List (Event (S.sum (Next B X)))} {e : Event (Next B X)}
    (h : GateRun C requirement uuid req V t resp) (he : Event.inr e ∈ t) :
    ∃ token s v, readToken C req = .ok token ∧ V token s (.ok v) ∧
      e = handlerEvent { req with extension := some v } resp ∧ t = s.map .inl ++ [.inr e] := by
  rcases h with _ | ⟨ht, hv⟩ | ⟨ht, hv⟩
  · exact absurd he List.not_mem_nil
  · exact absurd he Event.inr_notMem_map_inl
  · rcases List.mem_append.1 he with he | he
    · exact absurd he Event.inr_notMem_map_inl
    · obtain rfl := Event.inr_injective (List.mem_singleton.1 he)
      exact ⟨_, _, _, ht, hv, rfl, rfl⟩

variable [DecidableEq B]

theorem requirePop_eq : requirePop C requirement uuid req =
    gate C requirement uuid req fun token => (PopValidator.validate C token requirement).run := by
  rw [requirePop, gate, readToken]
  rcases req.headers.lookup "authorization" with _ | headerRaw
  · rfl
  rw [okOr]
  dsimp only [bind, Except.bind]
  rcases headerToStr headerRaw with _ | headerValue
  · rfl
  dsimp only [okOr]
  rcases parsePaymentAuthorization C.toTexts headerValue with e | credentials
  · rcases e with _ | _ | _ | _ | _ | _ <;> rfl
  dsimp only [Except.mapError]
  rcases decodeToken C credentials.payload.cashuToken with e | token
  · rfl
  · rfl

theorem requirePop_runs_iff {t : List (Event ((MintClient B).sum (Next B X)))} :
    Runs (requirePop C requirement uuid req) t resp ↔
      GateRun C requirement uuid req (fun token => ValidateRun C token requirement) t resp := by
  rw [requirePop_eq]
  exact gate_runs_iff fun _ _ _ => validate_runs_iff

theorem requirePop_panics_iff {t : List (Event ((MintClient B).sum (Next B X)))} :
    Panics (requirePop C requirement uuid req) t ↔ ∃ token mint keysets,
      readToken C req = .ok token ∧ PopValidator.checkToken C token requirement = .ok mint ∧
        C.proofs token keysets = none ∧ t = [.inl (keysetsEvent mint (.ok keysets))] := by
  simp only [requirePop_eq, gate_panics_iff, validate_panics_iff]
  constructor
  · rintro ⟨token, _, ht, ⟨mint, keysets, hm, hnone, rfl⟩, rfl⟩
    exact ⟨token, mint, keysets, ht, hm, hnone, rfl⟩
  · rintro ⟨token, mint, keysets, ht, hm, hnone, rfl⟩
    exact ⟨token, _, ht, ⟨mint, keysets, hm, hnone, rfl⟩, rfl⟩

end CdkPopVerifier
