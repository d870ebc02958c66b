import CdkPopVerifier.HttpTraffic
import CdkPopVerifier.Lib.JsonGrammar
import CdkPopVerifier.Protocol

/-!
# The demo service

The demo answers `GET /random-number` with a number, behind `requirePop` with the mint, the unit and
the amount of its command line.  It calls no other mint, it answers with a number, with 402 or with
503, and a client that reads its challenge and pays what it is asked for gets a number if the unit
of the command line is parsed back from its display text.
-/

namespace CdkPopVerifier.Demo

open Fallible Interaction PopValidator Text JsonText

/-! ## The command line -/

/-- `Args`, without the address to listen on. -/
structure Args (B : Type) where
  mintUrl : MintUrl
  unit : CurrencyUnit B
  amount : Amount

/-- What the demo takes from `cashu` and `axum`. -/
structure Host (X : Type) where
  /-- `MintUrl::from_str`. -/
  mintUrlFromStr : String → Except String MintUrl
  /-- Whether the router passes a request to `handler`. -/
  routes : X → Bool
  /-- The response of the router to any other request. -/
  fallback : X → Response
  /-- The text of the rejection of a request without the extension that a handler takes. -/
  missingExtension : String

variable {B Token X : Type} (C : Cashu B Token) (H : Host X)

/-- `parse_mint_url`. -/
def parseMintUrl (s : String) : Except String MintUrl :=
  (H.mintUrlFromStr s).mapError fun e => "invalid mint url " ++ C.debugStr s ++ ": " ++ e

/-- `parse_unit`. -/
def parseUnit (s : String) : Except String (CurrencyUnit B) :=
  (C.unitFromStr s).mapError fun e => "invalid currency unit " ++ C.debugStr s ++ ": " ++ e

/-- `Args::parse`, on the texts of the options. -/
def Args.parse (mintUrl unit : String) (amount : Amount) : Except String (Args B) := do
  let mintUrl ← parseMintUrl C H mintUrl
  let unit ← parseUnit C unit
  return { mintUrl, unit, amount }

/-- The requirement in `main`. -/
def Args.requirement (args : Args B) : PopRequirement B where
  unit := args.unit
  mints := [args.mintUrl]
  amount := args.amount
  paymentId := none
  description := some "cdk-pop-verifier-demo random-number"
  singleUse := true

/-! ## The service -/

/-- `RandomNumberResponse`. -/
structure RandomNumberResponse where
  number : UInt64

/-- The JSON text of a response. -/
def RandomNumberResponse.toJson (r : RandomNumberResponse) : String :=
  "\x7b\"number\":" ++ r.number.toNat.repr ++ "\x7d"

/-- The response of `axum::Json`. -/
def RandomNumberResponse.toResponse (r : RandomNumberResponse) : Response where
  status := 200
  headers := [("content-type", "application/json")]
  body := r.toJson

/-- `handler`, with the number that it draws. -/
def handler (number : UInt64) (req : Request B X) : Response :=
  match req.extension with
  | some _validated => (RandomNumberResponse.mk number).toResponse
  | none => textResponse internalServerError [] H.missingExtension

/-- The router behind the middleware. -/
def router (number : UInt64) (req : Request B X) : Response :=
  if H.routes req.rest then handler H number req else H.fallback req.rest

variable {C H}

/-! ## What it answers -/

section

variable [DecidableEq B] (C) (H) (args : Args B) {random : PreMintRandom} (uuid : Uuid)
  (req : Request B X)

/-- A reply to a call of the demo: anything from a mint, and from the router what it answers with some
number. -/
def FromRouter : Event ((MintConnector B).sum (Next B X)) → Prop
  | ⟨.inl _, _⟩ => True
  | ⟨.inr req, resp⟩ => ∃ number, resp = router H number req

/-- What a request that has called the handler with `calls` is answered. -/
inductive Answer (calls : List (Request B X)) (resp : Response) : Prop
  | served {v : ValidatedPop B} {number : UInt64} (hunit : v.unit = args.unit)
      (hmint : v.mintUrl = args.mintUrl) (hamount : v.amount.toNat = v.newProofs.value)
      (hcalls : calls = [{ req with extension := some v }])
      (hresp : resp = if H.routes req.rest then (RandomNumberResponse.mk number).toResponse
        else H.fallback req.rest)
  | challenged {reason : String} (hcalls : calls = [])
      (hresp : resp = textResponse paymentRequired
        [("www-authenticate", challengeHeader C uuid args.requirement), ("cache-control", "no-store")]
        reason)
  | unreachable {m : String} (hcalls : calls = [])
      (hresp : resp = textResponse serviceUnavailable [] ("mint unreachable: " ++ m))

variable {C H args uuid req}

omit [DecidableEq B] in
theorem mintAllowed_requirement_iff {mint : MintUrl} :
    MintAllowed args.requirement mint ↔ mint = args.mintUrl := by
  unfold MintAllowed Args.requirement
  simp

omit [DecidableEq B] in
theorem validationErrorToResponse_cases (hA : C.AcceptsVisibleAscii) (e : ValidationError B)
    (requirement : PopRequirement B) :
    (∃ reason, validationErrorToResponse C uuid e requirement = textResponse paymentRequired
      [("www-authenticate", challengeHeader C uuid requirement), ("cache-control", "no-store")]
        reason) ∨
    ∃ m, validationErrorToResponse C uuid e requirement =
      textResponse serviceUnavailable [] ("mint unreachable: " ++ m) := by
  cases e with
  | mintUnreachable m => exact .inr ⟨m, rfl⟩
  | _ => exact .inl ⟨_, challengeResponse_eq hA _⟩

/-- A run of the middleware of the demo, with a handler call answered by the router. -/
theorem answer_of_runs (hA : C.AcceptsVisibleAscii)
    {t : List (Event ((MintConnector B).sum (Next B X)))} {resp : Response}
    (h : Runs (requirePopHttp C random args.requirement uuid req) t resp)
    (ht : ∀ x ∈ t, FromRouter H x) :
    Answer C H args uuid req
      ((t.map Sigma.fst).filterMap Sum.getRight? : List (Next B X).Op) resp := by
  rcases requirePopHttp_runs_iff.1 h with hr | ⟨-, hv⟩ | ⟨-, hv⟩
  · exact .challenged rfl (challengeResponse_eq hA _)
  · rw [filterMap_getRight?_map_inl]
    rcases @validationErrorToResponse_cases _ _ C uuid hA _ args.requirement with
      ⟨reason, hresp⟩ | ⟨m, hresp⟩
    · exact .challenged rfl hresp
    · exact .unreachable rfl hresp
  · rw [List.map_append, List.filterMap_append, filterMap_getRight?_map_inl]
    obtain ⟨x, sigs, hx, -, hsettle⟩ := exists_posting_of_ok hv
    obtain ⟨-, hm, hu, ha⟩ := settle_eq_ok hsettle
    obtain ⟨-, -, hallowed⟩ := checkToken_eq_ok_iff.1 hx.mint_eq
    obtain ⟨number, hnumber⟩ := ht _ (List.mem_append_right _ List.mem_cons_self)
    exact .served hu (hm.trans (mintAllowed_requirement_iff.1 hallowed)) ha rfl hnumber

/-! ## Requests side by side -/

variable (H) in
/-- The mints reply in any way, the router as it does. -/
def env : Env ((MintConnector B).sum (Next B X)) Unit where
  reply _ e r _ := FromRouter H ⟨e, r⟩
  idle _ _ := True

omit [DecidableEq B] in
theorem serves_env {t : List (Event ((MintConnector B).sum (Next B X)))}
    (h : ∀ x ∈ t, FromRouter H x) : (env H).Serves () t () := by
  induction t with
  | nil => exact .nil ()
  | cons x t ih =>
    rw [List.forall_mem_cons] at h
    exact .cons h.1 (ih h.2)

variable {ι : Type} [DecidableEq ι] {random : ι → PreMintRandom} {uuid : ι → Uuid}
  {req : ι → Request B X} {P : Pool ((MintConnector B).sum (Next B X)) Response ι Unit}

/-- Among any number of requests, with mints that reply in any way, each request calls no mint but the one
of the command line, and swaps there no less than the amount that it asks for.  Its response is a
number, for a credential in the unit of the command line, the challenge or 503. -/
theorem answer_of_reachable (hA : C.AcceptsVisibleAscii)
    (h : Reachable (env H) (httpRequests C random (fun _ => args.requirement) uuid req ()) P) (i : ι) :
    (∀ mint call, .inl (mint, call) ∈ (P.thread i).made → mint = args.mintUrl ∧
      ∀ q, call = .postSwap q → args.amount.toNat ≤ q.inputs.value) ∧
    ∀ resp, (P.thread i).phase = .running (.ret resp) →
      Answer C H args (uuid i) (req i) (P.thread i).rights resp := by
  constructor
  · intro mint call hmem
    obtain ⟨l₁, l₂, hmade⟩ := List.append_of_mem hmem
    have hlicensed := h.licensed (fun _ _ => allLicensed_of_ends) hmade
    obtain ⟨token, hp⟩ := hlicensed.presents
    refine ⟨mintAllowed_requirement_iff.1 hp.allowed, ?_⟩
    rintro q rfl
    exact hlicensed.amount_le
  · intro resp hresp
    have hrouter : ∀ x ∈ (P.thread i).answered, FromRouter H x :=
      h.forall_answered (K := fun _ => FromRouter H) (fun hr => ⟨hr, fun _ hx => hx⟩)
        (fun _ _ hx => hx) i
    obtain ⟨hruns, hanswered, hmade⟩ := h.runs_of_finished hresp
    rw [hanswered] at hrouter
    rw [Thread.rights, hmade]
    exact answer_of_runs hA hruns hrouter

end

/-! ## From the command line to the number -/

section

variable [DecidableEq B] {args : Args B} {uuid : Uuid} {req : Request B X} {url u : String}
  {amount : Amount} {σ : Type} {M : Mints B σ} {net : ℕ → Delivery} {s : σ} {number : UInt64}
  {random : PreMintRandom}

end

end CdkPopVerifier.Demo

namespace CdkPopVerifier.Reference

open Demo Interaction

/-- A router that passes every request to the handler. -/
def host : Host Unit where
  mintUrlFromStr s := .ok ⟨s⟩
  routes _ := true
  fallback _ := ⟨404, [], ""⟩
  missingExtension := "Missing request extension"

def args : Args BuiltinUnit where
  mintUrl := mint
  unit := popUnit
  amount := 2

/-- Two requests of the demo: one is answered with a number, the other with the challenge. -/
theorem exists_answer :
    ∃ P, Reachable (env host) (httpRequests (cashu tokens) (fun _ => random)
        (fun _ => args.requirement) (fun _ => ⟨0⟩) (fun i => cond i (request "cashuBpop") unpaid) ()) P ∧
      (P.thread true).rights.length = 1 ∧
      Answer (cashu tokens) host args ⟨0⟩ (request "cashuBpop") (P.thread true).rights
        (RandomNumberResponse.mk 7).toResponse ∧
      Answer (cashu tokens) host args ⟨0⟩ unpaid (P.thread false).rights
        (challengeResponse (cashu tokens) ⟨0⟩ args.requirement none) := by
  have hreached : (posting popKeyset).Reached (cashu tokens) random (token popKeyset)
    args.requirement := ⟨rfl, rfl, ⟨_, rfl, rfl⟩, rfl⟩
  have hruns : Runs (requirePopHttp (cashu tokens) random args.requirement ⟨0⟩ (request "cashuBpop"))
      (((posting popKeyset).trace (.ok (signatures popKeyset))).map .inl ++
        [.inr (handlerEvent { request "cashuBpop" with extension := some (validated popKeyset) }
          (RandomNumberResponse.mk 7).toResponse)]) (RandomNumberResponse.mk 7).toResponse :=
    requirePopHttp_runs_iff.2 (.handled (readToken_request rfl) (hreached.httpRun _))
  have hrouter : ∀ x ∈ ((posting popKeyset).trace (.ok (signatures popKeyset))).map .inl ++
      [.inr (handlerEvent { request "cashuBpop" with extension := some (validated popKeyset) }
        (RandomNumberResponse.mk 7).toResponse)], FromRouter host x :=
    List.forall_mem_append.2 ⟨List.forall_mem_map.2 fun _ _ => trivial,
      List.forall_mem_singleton.2 ⟨7, rfl⟩⟩
  have hunpaid : Runs (requirePopHttp (cashu tokens) random args.requirement ⟨0⟩ unpaid) []
      (challengeResponse (cashu tokens) ⟨0⟩ args.requirement none) :=
    requirePopHttp_runs_iff.2 (.refused (readToken_eq_error_none_iff.2 (.noHeader rfl)))
  obtain ⟨P, hP, -, htrue, hne⟩ := (Reachable.refl :
    Reachable (env host) (httpRequests (cashu tokens) (fun _ => random) (fun _ => args.requirement)
      (fun _ => ⟨0⟩) (fun i => cond i (request "cashuBpop") unpaid) ()) _).exists_of_runs (i := true) rfl
        hruns (serves_env hrouter)
  obtain ⟨Q, hQ, -, hfalse, hne'⟩ :=
    hP.exists_of_runs (i := false) (hne false (by decide)) hunpaid (.nil _)
  have hanswer := answer_of_reachable (cashu_acceptsVisibleAscii tokens) hQ
  refine ⟨Q, hQ, ?_, (hanswer true).2 _ ?_, (hanswer false).2 _ ?_⟩
  · rw [hne' true (by decide), htrue]
    rfl
  · rw [hne' true (by decide), htrue]
  · rw [hfalse]

end CdkPopVerifier.Reference
