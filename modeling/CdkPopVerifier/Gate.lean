import CdkPopVerifier.ChallengeHeader

/-!
# What the middleware lets through

The calls of `requirePop` are one of four sequences, and each call is made only for a credential that
has passed the checks in front of it.  The handler is called exactly when the swap has returned proofs
whose sum is an amount, with these proofs in the extension of its request.  Otherwise the request is
answered with 503 or with a challenge, unless a dependency panics.
-/

namespace CdkPopVerifier

open Fallible Interaction PopValidator Text

section

variable {B Token X : Type} (C : Cashu B Token) (requirement : PopRequirement B)

/-- The request has a credential for `token`, of the required unit and from the allowed mint `mint`. -/
structure Presents (req : Request B X) (token : Token) (mint : MintUrl) : Prop where
  credentials : ∃ headerRaw headerValue credentials,
    req.headers.lookup "authorization" = some headerRaw ∧
      headerToStr headerRaw = some headerValue ∧
      parsePaymentAuthorization C.toTexts headerValue = .ok credentials ∧
      credentials.challenge.method = cashuMethod ∧
      decodeToken C credentials.payload.cashuToken = .ok token
  unit_eq : C.unit token = some requirement.unit
  mintUrl_eq : C.mintUrl token = .ok mint
  allowed : MintAllowed requirement mint

/-- The proofs of the token, resolved against the keysets, are worth the required amount. -/
structure Covers (token : Token) (keysets : List (KeySetInfo B)) (proofs : Proofs) : Prop where
  proofs_eq : C.proofs token keysets = some (.ok proofs)
  ne_nil : proofs ≠ []
  fits : proofs.value < 2 ^ 64
  amount_le : requirement.amount.toNat ≤ proofs.value

/-- The credential that is made of the proofs of a swap. -/
structure Vouches (mint : MintUrl) (newProofs : Proofs) (v : ValidatedPop B) : Prop where
  newProofs_eq : v.newProofs = newProofs
  mintUrl_eq : v.mintUrl = mint
  unit_eq : v.unit = requirement.unit
  amount_eq : v.amount.toNat = newProofs.value

variable {C requirement} {uuid : Uuid} {req : Request B X} [DecidableEq B]

theorem presents_of_readToken {token : Token} {mint : MintUrl} (ht : readToken C req = .ok token)
    (hm : checkToken C token requirement = .ok mint) : Presents C requirement req token mint := by
  obtain ⟨raw, value, credentials, hraw, hvalue, hparse, htoken⟩ :=
    (readToken_eq_ok_iff C).1 ht
  obtain ⟨hu, hmint, hallow⟩ := checkToken_eq_ok_iff.1 hm
  exact ⟨⟨raw, value, credentials, hraw, hvalue, hparse, method_of_parse_eq_ok hparse, htoken⟩, hu,
    hmint, hallow⟩

omit [DecidableEq B] in
theorem covers_of_checkProofs {token : Token} {keysets : List (KeySetInfo B)} {proofs : Proofs}
    (h : checkProofs C token requirement keysets = some (.ok proofs)) :
    Covers C requirement token keysets proofs := by
  obtain ⟨hps, hne, hfit, hle⟩ := checkProofs_eq_ok_iff.1 h
  exact ⟨hps, hne, hfit, hle⟩

/-- The calls of a run in which the handler is called. -/
theorem exists_of_inr_mem {t : List (Event ((MintClient B).sum (Next B X)))} {resp : Response}
    {e : Event (Next B X)} (h : Runs (requirePop C requirement uuid req) t resp)
    (he : .inr e ∈ t) :
    ∃ token mint keysets proofs newProofs v, Presents C requirement req token mint ∧
      Covers C requirement token keysets proofs ∧ Vouches requirement mint newProofs v ∧
      t = [.inl (keysetsEvent mint (.ok keysets)), .inl (swapEvent mint proofs (.ok newProofs)),
        .inr (handlerEvent { req with extension := some v } resp)] := by
  obtain ⟨token, s, v, ht, hv, rfl, rfl⟩ := (requirePop_runs_iff.1 h).exists_of_inr_mem he
  obtain ⟨keysets, proofs, hm, hp, hu, ha, rfl⟩ := validate_runs_ok_iff.1 (validate_runs_iff.2 hv)
  exact ⟨token, _, keysets, proofs, _, v, presents_of_readToken ht hm, covers_of_checkProofs hp,
    ⟨rfl, rfl, hu, ha⟩, rfl⟩

/-- A request whose handler is called does not panic. -/
theorem exists_runs_of_inr_mem {t : List (Event ((MintClient B).sum (Next B X)))}
    {x : Option Response} {e : Event (Next B X)} (h : Ends (requirePop C requirement uuid req) t x)
    (he : .inr e ∈ t) : ∃ resp, x = some resp ∧ Runs (requirePop C requirement uuid req) t resp := by
  rcases x with _ | resp
  · obtain ⟨_, _, _, -, -, -, rfl⟩ := requirePop_panics_iff.1 h
    exact absurd (List.mem_singleton.1 he).symm Event.inl_ne_inr
  · exact ⟨resp, rfl, h⟩

/-- The calls of the middleware, also if it panics: none; the keysets of the mint of a presented token;
these and the swap of its proofs, when they cover the required amount; and last the handler, when the
swap has returned proofs whose sum fits. -/
theorem requirePop_calls {t : List (Event ((MintClient B).sum (Next B X)))} {x : Option Response}
    (h : Ends (requirePop C requirement uuid req) t x) :
    t = [] ∨ ∃ token mint, Presents C requirement req token mint ∧
      ((∃ r, t = [.inl (keysetsEvent mint r)]) ∨
        ∃ keysets proofs, Covers C requirement token keysets proofs ∧
          ((∃ r, t = [.inl (keysetsEvent mint (.ok keysets)), .inl (swapEvent mint proofs r)] ∧
              ∀ newProofs, r = .ok newProofs → 2 ^ 64 ≤ Proofs.value newProofs) ∨
            ∃ newProofs v resp, Proofs.value newProofs < 2 ^ 64 ∧
              Vouches requirement mint newProofs v ∧ x = some resp ∧
              t = [.inl (keysetsEvent mint (.ok keysets)),
                .inl (swapEvent mint proofs (.ok newProofs)),
                .inr (handlerEvent { req with extension := some v } resp)])) := by
  rcases x with _ | resp
  · obtain ⟨token, mint, keysets, ht, hm, -, rfl⟩ := requirePop_panics_iff.1 h
    exact .inr ⟨token, mint, presents_of_readToken ht hm, .inl ⟨_, rfl⟩⟩
  rcases requirePop_runs_iff.1 h with _ | ⟨ht, hv⟩ | ⟨ht, hv⟩
  · exact .inl rfl
  · generalize hr : Except.error _ = r at hv
    rcases hv with he | hm | ⟨hm, he⟩ | ⟨hm, hp⟩ | ⟨hm, hp⟩
    · exact .inl rfl
    · exact .inr ⟨_, _, presents_of_readToken ht hm, .inl ⟨_, rfl⟩⟩
    · exact .inr ⟨_, _, presents_of_readToken ht hm, .inl ⟨_, rfl⟩⟩
    · refine .inr ⟨_, _, presents_of_readToken ht hm, .inr ⟨_, _, covers_of_checkProofs hp,
        .inl ⟨_, rfl, fun _ hok => ?_⟩⟩⟩
      cases hok
    · refine .inr ⟨_, _, presents_of_readToken ht hm, .inr ⟨_, _, covers_of_checkProofs hp,
        .inl ⟨_, rfl, fun _ hok => ?_⟩⟩⟩
      cases hok
      exact (receive_eq_error_iff.1 hr.symm).2
  · obtain ⟨_, _, _, _, _, v, hpresents, hcovers, hv, ht⟩ := exists_of_inr_mem h
      (List.mem_append_right _ List.mem_cons_self)
    rw [ht]
    exact .inr ⟨_, _, hpresents, .inr ⟨_, _, hcovers,
      .inr ⟨_, v, resp, hv.amount_eq ▸ v.amount.toNat_lt, hv, rfl, rfl⟩⟩⟩

/-! ## Refusals -/

/-- A reply that says that the mint could not be reached. -/
def SaysUnreachable : Event (MintClient B) → Prop
  | ⟨.keysets _, r⟩ => ∃ m, r = .error (.unreachable m)
  | ⟨.swap _ _, r⟩ => ∃ m, r = .error (.unreachable m)

/-- A reply that is an error of the network, or one that is not definitive. -/
def IsTransient : Event (MintConnector B) → Prop
  | ⟨(_, .getMintKeysets), r⟩ => ∃ e, r = .error e ∧ e.isDefinitiveFailure = false
  | ⟨(_, .getMintKeyset _), r⟩ => ∃ e, r = .error e ∧ e.isDefinitiveFailure = false
  | ⟨(_, .postSwap _), r⟩ => ∃ e, r = .error e ∧ e.isDefinitiveFailure = false

/-- The error is the one that the middleware answers with 503. -/
def IsMintUnreachable (r : Except (ValidationError B) (ValidatedPop B)) : Prop :=
  ∃ m, r = .error (.mintUnreachable m)

omit [DecidableEq B] in
theorem isMintUnreachable_ofMintClient_iff {e : MintClientError} :
    IsMintUnreachable (.error (.ofMintClient e) : Except (ValidationError B) _) ↔
      ∃ m, e = .unreachable m := by
  rcases e with m | m <;> simp [IsMintUnreachable, ValidationError.ofMintClient]

theorem not_isMintUnreachable_of_checkToken {token : Token} {e : ValidationError B}
    (h : checkToken C token requirement = .error e) :
    ¬ IsMintUnreachable (.error e : Except (ValidationError B) (ValidatedPop B)) := by
  rintro ⟨m, ⟨⟩⟩
  rcases checkToken_eq_error h with ⟨_, h⟩ | ⟨_, h⟩ | ⟨_, h⟩ <;> cases h

omit [DecidableEq B] in
theorem not_isMintUnreachable_of_checkProofs {token : Token} {keysets : List (KeySetInfo B)}
    {e : ValidationError B} (h : checkProofs C token requirement keysets = some (.error e)) :
    ¬ IsMintUnreachable (.error e : Except (ValidationError B) (ValidatedPop B)) := by
  rintro ⟨m, ⟨⟩⟩
  rcases checkProofs_eq_error h with ⟨_, h⟩ | h | ⟨_, _, h⟩ <;> cases h

omit [DecidableEq B] in
theorem not_isMintUnreachable_receive {mint : MintUrl} {newProofs : Proofs} :
    ¬ IsMintUnreachable (receive C requirement mint newProofs) := by
  rintro ⟨m, h⟩
  cases (receive_eq_error_iff.1 h).1

/-- The validator reports an unreachable mint when one of its calls did. -/
theorem ValidateRun.isMintUnreachable_iff {token : Token} {t : List (Event (MintClient B))}
    {r : Except (ValidationError B) (ValidatedPop B)} (h : ValidateRun C token requirement t r) :
    IsMintUnreachable r ↔ ∃ x ∈ t, SaysUnreachable x := by
  rcases h with he | hm | ⟨hm, he⟩ | ⟨hm, hp⟩ | ⟨hm, hp⟩
  · simp [not_isMintUnreachable_of_checkToken he]
  · rw [isMintUnreachable_ofMintClient_iff]
    simp [keysetsEvent, SaysUnreachable]
  · simp [not_isMintUnreachable_of_checkProofs he, keysetsEvent, SaysUnreachable]
  · rw [isMintUnreachable_ofMintClient_iff]
    simp [keysetsEvent, swapEvent, SaysUnreachable]
  · simp [not_isMintUnreachable_receive, keysetsEvent, swapEvent, SaysUnreachable]

omit [DecidableEq B] in
theorem exists_mapCdkErr_iff {e : CdkError} :
    (∃ m, mapCdkErr e = .unreachable m) ↔ e.isDefinitiveFailure = false := by
  rw [mapCdkErr]
  split_ifs with h <;> simp [h]

/-- The failures of the client between its calls are rejections. -/
theorem exists_of_selectKeyset_eq_error {id : Id} {keysets : List (KeySetInfo B)}
    {e : MintClientError} (h : CdkMintClient.selectKeyset C id keysets = .error e) :
    ∃ m, e = .rejectedSwap m := by
  simp only [CdkMintClient.selectKeyset, CdkMintClient.inputUnit, CdkMintClient.activeKeyset,
    bind_eq_error_iff, okOr_eq_error_iff] at h
  rcases h with ⟨-, h⟩ | ⟨_, -, -, h⟩
  · exact ⟨_, h⟩
  · exact ⟨_, h⟩

omit [DecidableEq B] in
@[inherit_doc exists_of_selectKeyset_eq_error]
theorem exists_of_prepare_eq_error {random : PreMintRandom} {active : KeySetInfo B} {keys : Keys}
    {proofs : Proofs} {e : MintClientError}
    (h : CdkMintClient.prepare C random active keys proofs = some (.error e)) :
    ∃ m, e = .rejectedSwap m := by
  rcases CdkMintClient.prepare_eq_error_iff.1 h with h | ⟨_, m, -, -, h⟩
  · simp only [CdkMintClient.swapTotal, bind_eq_error_iff, rejectIf_eq_error_iff,
      mapError_eq_error_iff] at h
    rcases h with ⟨-, h⟩ | ⟨_, -, _, -, h⟩
    · exact ⟨_, h⟩
    · exact ⟨_, h⟩
  · exact ⟨m, h⟩

/-- The client reports an unreachable mint when one of its calls failed and the failure is not
definitive. -/
theorem SwapRun.exists_unreachable_iff {random : PreMintRandom} {mint : MintUrl} {proofs : Proofs}
    {t : List (Event (MintConnector B))} {r : Except MintClientError Proofs}
    (h : CdkMintClient.SwapRun C random mint proofs t r) :
    (∃ m, r = .error (.unreachable m)) ↔ ∃ x ∈ t, IsTransient x := by
  rcases h with _ | _ | hs | hs | ⟨hs, hp⟩ | ⟨hs, hp⟩ | ⟨hs, hp⟩
  · simp
  · simp [exists_mapCdkErr_iff, getKeysetsEvent, IsTransient]
  · obtain ⟨_, rfl⟩ := exists_of_selectKeyset_eq_error hs
    simp [getKeysetsEvent, IsTransient]
  · simp [exists_mapCdkErr_iff, getKeysetsEvent, getKeysetEvent, IsTransient]
  · obtain ⟨_, rfl⟩ := exists_of_prepare_eq_error hp
    simp [getKeysetsEvent, getKeysetEvent, IsTransient]
  · simp [exists_mapCdkErr_iff, getKeysetsEvent, getKeysetEvent, postSwapEvent, IsTransient]
  · simp [CdkMintClient.unblind, mapError_eq_error_iff, getKeysetsEvent, getKeysetEvent,
      postSwapEvent, IsTransient]

theorem HttpRun.isMintUnreachable_iff {random : PreMintRandom} {token : Token}
    {t : List (Event (MintConnector B))} {r : Except (ValidationError B) (ValidatedPop B)}
    (h : HttpRun C random token requirement t r) :
    IsMintUnreachable r ↔ ∃ x ∈ t, IsTransient x := by
  rcases h with he | hm | ⟨hm, he⟩ | @⟨mint, keysets, _, t, r, hm, hp, hs⟩
  · simp [not_isMintUnreachable_of_checkToken he]
  · rw [isMintUnreachable_ofMintClient_iff, exists_mapCdkErr_iff]
    simp [getKeysetsEvent, IsTransient]
  · simp [not_isMintUnreachable_of_checkProofs he, getKeysetsEvent, IsTransient]
  · have hcons : (∃ x ∈ getKeysetsEvent mint (.ok keysets) :: t, IsTransient x) ↔
        ∃ x ∈ t, IsTransient x := by
      simp [getKeysetsEvent, IsTransient]
    rw [hcons, ← SwapRun.exists_unreachable_iff hs]
    rcases r with e | newProofs
    · refine isMintUnreachable_ofMintClient_iff.trans ?_
      simp
    · exact iff_of_false not_isMintUnreachable_receive (by simp)

/-! ### The body of a refusal -/

/-- The request makes no attempt to pay: it has no `Authorization` header, or a legible one that is
blank or has another scheme than `Payment`. -/
inductive NoAttempt (req : Request B X) : Prop
  | noHeader (h : req.headers.lookup "authorization" = none)
  | blank {headerRaw : List UInt8} {headerValue : String}
    (h : req.headers.lookup "authorization" = some headerRaw)
    (hv : headerToStr headerRaw = some headerValue)
    (hb : ∀ c ∈ headerValue.toList, isWhitespace c = true)
  | otherScheme {headerRaw : List UInt8} {headerValue : String}
    (h : req.headers.lookup "authorization" = some headerRaw)
    (hv : headerToStr headerRaw = some headerValue)
    (hs : eqIgnoreAsciiCase (schemeOf headerValue) paymentScheme.toList = false)

theorem schemeOf_eq_nil_of_blank {s : String} (h : ∀ c ∈ s.toList, isWhitespace c = true) :
    schemeOf s = [] := by
  rw [schemeOf, trim, List.dropWhile_eq_nil_iff.2 h]
  rfl

omit [DecidableEq B] in
theorem readToken_eq_error_none_iff : readToken C req = .error none ↔ NoAttempt req := by
  have hmap {value : String} : ((parsePaymentAuthorization C.toTexts value).mapError fun e =>
      if e = .unknownScheme then none else some (e.toString C.toTexts)) = .error none ↔
        eqIgnoreAsciiCase (schemeOf value) paymentScheme.toList = false := by
    rw [mapError_eq_error_iff, ← @parse_eq_unknownScheme_iff _ C.toTexts]
    constructor
    · rintro ⟨e, he, h⟩
      split_ifs at h with hs
      rw [he, hs]
    · exact fun h => ⟨_, h, rfl⟩
  simp only [readToken, bind_eq_error_iff, okOr_eq_error_iff, okOr_eq_ok_iff, hmap]
  constructor
  · rintro (⟨h, -⟩ | ⟨raw, hraw, ⟨-, h⟩ | ⟨value, hvalue, h | ⟨c, -, h⟩⟩⟩)
    · exact .noHeader h
    · cases h
    · exact .otherScheme hraw hvalue h
    · obtain ⟨e, -, he⟩ := mapError_eq_error_iff.1 h
      cases he
  · rintro (h | ⟨hraw, hvalue, hb⟩ | ⟨hraw, hvalue, hs⟩)
    · exact .inl ⟨h, trivial⟩
    · refine .inr ⟨_, hraw, .inr ⟨_, hvalue, .inl ?_⟩⟩
      rw [schemeOf_eq_nil_of_blank hb]
      rfl
    · exact .inr ⟨_, hraw, .inr ⟨_, hvalue, .inl hs⟩⟩

omit [DecidableEq B] in
/-- The text of an error is never empty. -/
theorem AuthParseError.toString_ne_empty (T : Texts B) (e : AuthParseError) : e.toString T ≠ "" := by
  cases e with
  | unknownScheme => exact (by decide : "auth scheme is not 'Payment'" ≠ "")
  | missingCredentials => exact (by decide : "Payment header missing credentials blob" ≠ "")
  | base64Decode => exact append_ne_empty (by decide) _
  | utf8Decode => exact append_ne_empty (by decide) _
  | jsonParse => exact append_ne_empty (by decide) _
  | wrongMethod => exact append_ne_empty (by decide) _

@[inherit_doc AuthParseError.toString_ne_empty]
theorem decodeErrorMessage_ne_empty (e : Error) : decodeErrorMessage e ≠ "" := by
  cases e with
  | invalidHeader => exact append_ne_empty (by decide) _
  | decodeFailed => exact append_ne_empty (by decide) _
  | encodeFailed => exact append_ne_empty (by decide) _

omit [DecidableEq B] in
@[inherit_doc AuthParseError.toString_ne_empty]
theorem ValidationError.toString_ne_empty (T : Texts B) (e : ValidationError B) :
    e.toString T ≠ "" := by
  cases e with
  | unitMismatch => exact append_ne_empty (append_ne_empty (append_ne_empty (by decide) _) _) _
  | mintNotAllowed => exact append_ne_empty (append_ne_empty (append_ne_empty (by decide) _) _) _
  | amountInsufficient =>
    exact append_ne_empty (append_ne_empty (append_ne_empty (by decide) _) _) _
  | mintRejectedSwap => exact append_ne_empty (by decide) _
  | mintUnreachable => exact append_ne_empty (by decide) _
  | tokenEmpty => exact (by decide : "token contains no proofs" ≠ "")
  | malformedToken => exact append_ne_empty (by decide) _

omit [DecidableEq B] in
theorem ne_empty_of_readToken {reason : String} (h : readToken C req = .error (some reason)) :
    reason ≠ "" := by
  simp only [readToken, bind_eq_error_iff, okOr_eq_error_iff, mapError_eq_error_iff] at h
  rcases h with ⟨-, h⟩ | ⟨_, -, ⟨-, h⟩ | ⟨_, -, ⟨e, -, h⟩ | ⟨_, -, ⟨e, -, h⟩⟩⟩⟩
  · exact absurd h (by simp)
  · rw [Option.some.inj h]
    decide
  · split_ifs at h
    rw [Option.some.inj h]
    exact e.toString_ne_empty C.toTexts
  · rw [Option.some.inj h]
    exact decodeErrorMessage_ne_empty e

/-! ### The response -/

variable (C requirement uuid req)

/-- A response that refuses the request: `unreachable` says whether the mint could not be reached. -/
structure Refuses (unreachable : Prop) (resp : Response) : Prop where
  status : resp.status = serviceUnavailable ∨ resp.status = paymentRequired
  unavailable_iff : resp.status = serviceUnavailable ↔ unreachable
  challenge : resp.status = paymentRequired →
    resp.headers.lookup "www-authenticate" = some (challengeHeader C uuid requirement) ∧
      resp.headers.lookup "cache-control" = some "no-store"
  body_eq_iff : resp.status = paymentRequired → (resp.body = "" ↔ NoAttempt req)
  body_ne : resp.status = serviceUnavailable → resp.body ≠ ""

variable {C requirement uuid req}

omit [DecidableEq B] in
/-- The branch for a header that cannot be built is never taken. -/
theorem challengeResponse_eq (hC : C.AcceptsVisibleAscii) (reason : Option String) :
    challengeResponse C uuid requirement reason =
      textResponse paymentRequired [("www-authenticate", challengeHeader C uuid requirement),
        ("cache-control", "no-store")] (reason.getD "") :=
  if_pos (hC _ isPrintable_of_mem_challengeHeader)

omit [DecidableEq B] in
theorem refuses_challengeResponse (hC : C.AcceptsVisibleAscii) {reason : Option String}
    (h : reason.getD "" = "" ↔ NoAttempt req) {unreachable : Prop} (hno : ¬ unreachable) :
    Refuses C requirement uuid req unreachable (challengeResponse C uuid requirement reason) := by
  rw [challengeResponse_eq hC]
  exact ⟨.inr rfl, iff_of_false (by decide : paymentRequired ≠ serviceUnavailable) hno,
    fun _ => ⟨rfl, rfl⟩, fun _ => h, fun h => absurd h (by decide : paymentRequired ≠ _)⟩

omit [DecidableEq B] in
theorem GateRun.refuses (hC : C.AcceptsVisibleAscii) {S : Sig} {U : List (Event S) → Prop}
    {V : Token → List (Event S) → Except (ValidationError B) (ValidatedPop B) → Prop}
    (hV : ∀ token t r, V token t r → (IsMintUnreachable r ↔ U t)) (hnil : ¬ U [])
    {t : List (Event (S.sum (Next B X)))} {resp : Response}
    (h : GateRun C requirement uuid req V t resp) (hno : rights t = []) :
    Refuses C requirement uuid req (U (lefts t)) resp := by
  rcases h with @⟨reason, hr⟩ | @⟨token, s, e, ht, hv⟩ | ⟨ht, hv⟩
  · refine refuses_challengeResponse hC ?_ hnil
    rw [← readToken_eq_error_none_iff (C := C), hr]
    rcases reason with _ | reason
    · simp
    · simpa using ne_empty_of_readToken hr
  · have hU := hV _ _ _ hv
    have hattempt : ¬ NoAttempt req := fun h => by
      cases ht.symm.trans (readToken_eq_error_none_iff.2 h)
    have hbody := ValidationError.toString_ne_empty C.toTexts e
    have hiff : (some (e.toString C.toTexts)).getD "" = "" ↔ NoAttempt req :=
      iff_of_false hbody hattempt
    have hchallenge (h : ¬ IsMintUnreachable (.error e : Except _ (ValidatedPop B))) :
        Refuses C requirement uuid req (U s)
          (challengeResponse C uuid requirement (some (e.toString C.toTexts))) :=
      refuses_challengeResponse hC hiff (hU.not.1 h)
    rw [lefts_map_inl]
    cases e with
    | mintUnreachable m =>
      exact ⟨.inl rfl, iff_of_true rfl (hU.1 ⟨m, rfl⟩),
        fun h => absurd h (by decide : serviceUnavailable ≠ _),
        fun h => absurd h (by decide : serviceUnavailable ≠ _), fun _ => hbody⟩
    | _ => exact hchallenge (by simp [IsMintUnreachable])
  · simp at hno

/-! ### Panics of the dependencies -/

omit [DecidableEq B] in
theorem Presents.readToken {token : Token} {mint : MintUrl}
    (h : Presents C requirement req token mint) : readToken C req = .ok token := by
  obtain ⟨raw, value, credentials, hraw, hvalue, hparse, -, htoken⟩ := h.credentials
  exact (readToken_eq_ok_iff C).2 ⟨raw, value, credentials, hraw, hvalue, hparse, htoken⟩

theorem Presents.checkToken {token : Token} {mint : MintUrl}
    (h : Presents C requirement req token mint) : checkToken C token requirement = .ok mint :=
  checkToken_eq_ok_iff.2 ⟨h.unit_eq, h.mintUrl_eq, h.allowed⟩

variable (C requirement req)

/-- The mint of a presented token reports keysets on which `Token::proofs` panics. -/
def PanicsOnKeysets (t : List (Event (MintClient B))) : Prop :=
  ∃ token mint keysets, Presents C requirement req token mint ∧
    [keysetsEvent mint (.ok keysets)] <+: t ∧ C.proofs token keysets = none

/-- Over HTTP, the mint of a presented token reports keysets on which `Token::proofs` panics, or keys on
which `PreMintSecrets::random` does. -/
inductive PanicsOnReplies (random : PreMintRandom) (t : List (Event (MintConnector B))) : Prop
  | keysets {token : Token} {mint : MintUrl} {keysets : List (KeySetInfo B)}
    (hpresents : Presents C requirement req token mint)
    (ht : [getKeysetsEvent mint (.ok keysets)] <+: t) (hpanic : C.proofs token keysets = none)
  | keys {token : Token} {mint : MintUrl} {keysets keysets' : List (KeySetInfo B)} {p : Proof}
    {ps : Proofs} {active : KeySetInfo B} {keys : Keys} {total : Amount}
    (hpresents : Presents C requirement req token mint)
    (hcovers : Covers C requirement token keysets (p :: ps))
    (hselect : CdkMintClient.selectKeyset C p.keysetId keysets' = .ok active)
    (hfee : active.inputFeePpk = 0) (htotal : total.toNat = Proofs.value (p :: ps))
    (ht : [getKeysetsEvent mint (.ok keysets), getKeysetsEvent mint (.ok keysets'),
      getKeysetEvent mint active.id (.ok keys)] <+: t)
    (hpanic : random active.id total keys.keys = none)

variable {C requirement req}

theorem panicsOnKeysets_iff {t : List (Event (MintClient B))} : PanicsOnKeysets C requirement req t ↔
    ∃ s, Panics (requirePop C requirement uuid req) (s.map .inl) ∧ s <+: t := by
  simp only [requirePop_panics_iff]
  constructor
  · rintro ⟨token, mint, keysets, hp, ht, hnone⟩
    exact ⟨_, ⟨token, mint, keysets, hp.readToken, hp.checkToken, hnone, rfl⟩, ht⟩
  · rintro ⟨s, ⟨token, mint, keysets, hread, hm, hnone, hs⟩, ht⟩
    obtain rfl : s = [keysetsEvent mint (.ok keysets)] :=
      List.map_injective_iff.2 Event.inl_injective hs
    exact ⟨token, mint, keysets, presents_of_readToken hread hm, ht, hnone⟩

theorem panicsOnReplies_iff {random : PreMintRandom} {t : List (Event (MintConnector B))} :
    PanicsOnReplies C requirement req random t ↔
      ∃ s, Panics (requirePopHttp C random requirement uuid req) (s.map .inl) ∧ s <+: t := by
  simp only [requirePopHttp_panics_iff]
  constructor
  · rintro (⟨hp, ht, hnone⟩ | ⟨hp, hcovers, hs, hfee, htotal, ht, hnone⟩)
    · exact ⟨_, ⟨_, _, hp.readToken, .proofs hp.checkToken hnone, rfl⟩, ht⟩
    · have hchecks := checkProofs_eq_ok_iff.2
        ⟨hcovers.proofs_eq, hcovers.ne_nil, hcovers.fits, hcovers.amount_le⟩
      exact ⟨_, ⟨_, _, hp.readToken, .random hp.checkToken hchecks hs
        (CdkMintClient.prepare_eq_none_iff.2 ⟨hfee, _, htotal, hnone⟩), rfl⟩, ht⟩
  · rintro ⟨s, ⟨token, s', hread, hpanic, hs⟩, ht⟩
    obtain rfl := List.map_injective_iff.2 Event.inl_injective hs
    rcases hpanic with ⟨hm, hnone⟩ | ⟨hm, hp, hselect, hq⟩
    · exact .keysets (presents_of_readToken hread hm) ht hnone
    · obtain ⟨hfee, total, htotal, hnone⟩ := CdkMintClient.prepare_eq_none_iff.1 hq
      exact .keys (presents_of_readToken hread hm) (covers_of_checkProofs hp) hselect hfee htotal ht
        hnone

omit [DecidableEq B] in
/-- If all runs without a call of the handler refuse the request, then it is refused, or the program
panics. -/
theorem exists_refuses_iff {S : Sig} {p : Prog (S.sum (Next B X)) Response}
    (U : List (Event S) → Prop)
    (hp : ∀ t resp, Runs p t resp → rights t = [] → Refuses C requirement uuid req (U (lefts t)) resp)
    {t : List (Event (S.sum (Next B X)))} {x : Option Response} (h : Ends p t x)
    (hno : rights t = []) :
    (∃ resp, x = some resp ∧ Refuses C requirement uuid req (U (lefts t)) resp) ↔
      ¬ ∃ s, Panics p (s.map .inl) ∧ s <+: lefts t := by
  have ht := map_inl_lefts hno
  rcases x with _ | resp
  · refine iff_of_false (fun ⟨_, h, _⟩ => by cases h) (not_not.2 ⟨lefts t, ?_, List.prefix_rfl⟩)
    rwa [ht]
  · refine iff_of_true ⟨resp, rfl, hp t resp h hno⟩ ?_
    rintro ⟨s, hs, hst⟩
    have hpre := hst.map (Event.inl (T := Next B X))
    rw [ht] at hpre
    exact hs.not_runs hpre h

/-- A request whose handler is not called is answered if and only if no dependency panics: with 503,
exactly when the mint could not be reached, and else with the challenge for the requirement; the body
is empty exactly when there was no attempt to pay. -/
theorem requirePop_refuses_iff (hC : C.AcceptsVisibleAscii) :
    (∀ t x, Ends (requirePop C requirement uuid req) t x → rights t = [] →
      ((∃ resp, x = some resp ∧
          Refuses C requirement uuid req (∃ y ∈ lefts t, SaysUnreachable y) resp) ↔
        ¬ PanicsOnKeysets C requirement req (lefts t))) ∧
    ∀ random t x, Ends (requirePopHttp C random requirement uuid req) t x → rights t = [] →
      ((∃ resp, x = some resp ∧
          Refuses C requirement uuid req (∃ y ∈ lefts t, IsTransient y) resp) ↔
        ¬ PanicsOnReplies C requirement req random (lefts t)) := by
  constructor
  · intro t x h hno
    rw [@panicsOnKeysets_iff _ _ _ _ _ uuid]
    refine exists_refuses_iff (fun t => ∃ y ∈ t, SaysUnreachable y) (fun t resp h hno => ?_) h hno
    exact (requirePop_runs_iff.1 h).refuses hC (fun _ _ _ hv => hv.isMintUnreachable_iff)
      (by simp) hno
  · intro random t x h hno
    rw [@panicsOnReplies_iff _ _ _ _ _ uuid]
    refine exists_refuses_iff (fun t => ∃ y ∈ t, IsTransient y) (fun t resp h hno => ?_) h hno
    exact (requirePopHttp_runs_iff.1 h).refuses hC (fun _ _ _ hv => hv.isMintUnreachable_iff)
      (by simp) hno

end

namespace Reference

/-- A run in which the handler is called. -/
theorem runs_requirePop (uuid : Uuid) (resp : Response) :
    Runs (requirePop (cashu tokens) requirement uuid (request "cashuBpop"))
      [.inl (keysetsEvent mint (.ok keysets)),
        .inl (swapEvent mint (token popKeyset).proofs (.ok (validated popKeyset).newProofs)),
        .inr (handlerEvent { request "cashuBpop" with extension := some (validated popKeyset) } resp)]
      resp :=
  requirePop_runs_iff.2 (.handled (t := [_, _]) (readToken_request rfl)
    (validate_runs_iff.1 (validate_runs_ok_iff.2 ⟨keysets, _, rfl, rfl, rfl, rfl, rfl⟩)))

theorem exists_presents :
    ∃ token mint, Presents (cashu tokens) requirement (request "cashuBpop") token mint := by
  have hends : Ends _ _ (some _) := runs_requirePop ⟨0⟩ ⟨200, [], "ok"⟩
  rcases requirePop_calls hends with h | ⟨token, mint, h, -⟩
  · cases h
  · exact ⟨token, mint, h⟩

/-- A token without proofs, which is refused after the call for the keysets. -/
theorem exists_refuses_emptyToken :
    ∃ resp, Runs (requirePop (cashu tokens) requirement ⟨0⟩ (request "cashuBempty"))
        [.inl (keysetsEvent mint (.ok keysets))] resp ∧
      Refuses (cashu tokens) requirement ⟨0⟩ (request "cashuBempty")
        (∃ y ∈ [keysetsEvent mint (.ok keysets)], SaysUnreachable y) resp := by
  have hread : readToken (cashu tokens) (request "cashuBempty") = .ok emptyToken :=
    readToken_request rfl
  have hvalidate : ValidateRun (cashu tokens) emptyToken requirement
      [keysetsEvent mint (.ok keysets)] (.error .tokenEmpty) := .badProofs rfl rfl
  have hrun : Runs (requirePop (cashu tokens) requirement ⟨0⟩ (request "cashuBempty"))
      [.inl (keysetsEvent mint (.ok keysets))] _ :=
    requirePop_runs_iff.2 (.failed (t := [_]) hread hvalidate)
  have hno : ¬ PanicsOnKeysets (cashu tokens) requirement (request "cashuBempty")
      [keysetsEvent mint (.ok keysets)] := by
    rintro ⟨token, mint', keysets', hp, -, hnone⟩
    cases hp.readToken.symm.trans hread
    cases hnone
  obtain ⟨resp, hresp, h⟩ := ((requirePop_refuses_iff (cashu_acceptsVisibleAscii tokens)).1 _
    (some _) hrun rfl).2 hno
  rw [Option.some.inj hresp] at hrun
  exact ⟨resp, hrun, h⟩

/-- A token with a short keyset id that is longer than the id of the first keyset of the mint. -/
theorem not_forall_refuses :
    ¬ ∀ (req : Request BuiltinUnit Unit) (t : List (Event ((MintClient BuiltinUnit).sum
        (Next BuiltinUnit Unit)))) (x : Option Response),
      Ends (requirePop (cashu tokens) requirement ⟨0⟩ req) t x → rights t = [] →
        ∃ resp, x = some resp ∧ Refuses (cashu tokens) requirement ⟨0⟩ req
          (∃ y ∈ lefts t, SaysUnreachable y) resp := by
  intro h
  have hread : readToken (cashu tokens) (request "cashuBlong") = .ok longToken :=
    readToken_request rfl
  have hpanics : Panics (requirePop (cashu tokens) requirement ⟨0⟩ (request "cashuBlong"))
      [.inl (keysetsEvent mint (.ok keysets))] :=
    requirePop_panics_iff.2 ⟨longToken, mint, keysets, hread, rfl, rfl, rfl⟩
  obtain ⟨resp, hresp, -⟩ := h _ _ none hpanics rfl
  cases hresp

end Reference

end CdkPopVerifier
