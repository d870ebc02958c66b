import CdkPopVerifier.Advertised
import CdkPopVerifier.Session

/-!
# From the challenge to the response

A client that has made no attempt to pay is answered with a challenge.  It reads the payment request in
it, and sends a token that answers the request together with the parameters of the challenge.  The
middleware reads the token back from what the client sends, and looks at nothing else: the echo of the
challenge is not compared with any challenge that was sent.
-/

namespace CdkPopVerifier

open AuthParams Fallible Interaction PopValidator Text
open Reference (asciiBytes headerToStr_asciiBytes)

/-! ## The text of a UUID -/

namespace Uuid

theorem digitChar_inj {m n : ℕ} (hm : m < 16) (hn : n < 16) (h : Nat.digitChar m = Nat.digitChar n) :
    m = n := by
  have key : ∀ m n : Fin 16, Nat.digitChar m = Nat.digitChar n → m = n := by decide
  exact Fin.mk.inj (key ⟨m, hm⟩ ⟨n, hn⟩ h)

@[simp] theorem length_digits (uuid : Uuid) (i n : ℕ) : (uuid.digits i n).length = n := by
  rw [digits, List.length_map, List.length_range']

/-- A bit of a UUID is a bit of one of its digits. -/
theorem testBit_digit (uuid : Uuid) {j : ℕ} (hj : j < 128) :
    ((uuid.bits >>> (4 * (31 - (31 - j / 4)))).toNat % 16).testBit (j % 4) = uuid.bits.getLsbD j := by
  have hk : 4 * (31 - (31 - j / 4)) + j % 4 = j := by omega
  have h16 : (16 : ℕ) = 2 ^ 4 := rfl
  rw [h16, Nat.testBit_mod_two_pow, decide_eq_true (Nat.mod_lt j (by decide)), Bool.true_and,
    BitVec.testBit_toNat, BitVec.getLsbD_ushiftRight, hk]

theorem eq_of_digits {uuid uuid' : Uuid} (h : ∀ i < 32, uuid.digit i = uuid'.digit i) :
    uuid = uuid' := by
  suffices uuid.bits = uuid'.bits by
    cases uuid
    cases uuid'
    exact congrArg _ this
  apply BitVec.eq_of_getLsbD_eq
  intro j hj
  rw [← testBit_digit uuid hj, ← testBit_digit uuid' hj]
  have hdigit := digitChar_inj (Nat.mod_lt _ (by decide)) (Nat.mod_lt _ (by decide))
    (h (31 - j / 4) (by omega))
  rw [hdigit]

theorem toString_injective : Function.Injective toString := by
  intro uuid uuid' h
  have hlist := String.ofList_injective h
  have hlen (i n : ℕ) : (uuid.digits i n).length = (uuid'.digits i n).length := by
    rw [length_digits, length_digits]
  simp only [List.append_assoc, List.cons_append] at hlist
  obtain ⟨h0, hlist⟩ := List.append_inj hlist (hlen 0 8)
  obtain ⟨h8, hlist⟩ := List.append_inj (List.cons.inj hlist).2 (hlen 8 4)
  obtain ⟨h12, hlist⟩ := List.append_inj (List.cons.inj hlist).2 (hlen 12 4)
  obtain ⟨h16, hlist⟩ := List.append_inj (List.cons.inj hlist).2 (hlen 16 4)
  have h20 := (List.cons.inj hlist).2
  have hdigit {i n : ℕ} (hd : uuid.digits i n = uuid'.digits i n) {k : ℕ} (hi : i ≤ k)
      (hk : k < i + n) : uuid.digit k = uuid'.digit k :=
    List.map_inj_left.1 hd k (List.mem_range'_1.2 ⟨hi, hk⟩)
  apply eq_of_digits
  intro i hi
  by_cases h1 : i < 8
  · exact hdigit h0 (Nat.zero_le i) (by omega)
  by_cases h2 : i < 12
  · exact hdigit h8 (by omega) (by omega)
  by_cases h3 : i < 16
  · exact hdigit h12 (by omega) (by omega)
  by_cases h4 : i < 20
  · exact hdigit h16 (by omega) (by omega)
  · exact hdigit h20 (by omega) (by omega)

end Uuid

section

variable {B Token X : Type} (C : Cashu B Token)

/-! ## The side of the client -/

/-- The request, with credentials in its `Authorization` header. -/
def authorized (req : Request B X) (credentials : PaymentCredentials) : Request B X :=
  { req with headers := ("authorization",
      asciiBytes (paymentScheme ++ " " ++ encodePaymentCredentials credentials)) :: req.headers }

variable {C} {requirement : PopRequirement B} {uuid : Uuid} {req : Request B X}

theorem readChallenge_challengeHeader_eq : readChallenge (challengeHeader C uuid requirement).toList =
    some (paymentScheme.toList, challengeParams C uuid requirement) := by
  rw [toList_challengeHeader]
  exact readChallenge_writeChallenge (by decide) (List.cons_ne_nil _ _)
    (writable_challengeParams uuid requirement)

/-- The requirements have the same fields, and units of the same display text. -/
structure SameOnWire (C : Cashu B Token) (r r' : PopRequirement B) : Prop where
  unit_eq : C.unitToString r.unit = C.unitToString r'.unit
  mints_eq : r.mints = r'.mints
  amount_eq : r.amount = r'.amount
  paymentId_eq : r.paymentId = r'.paymentId
  description_eq : r.description = r'.description
  singleUse_eq : r.singleUse = r'.singleUse

theorem encodeChallenge_eq_iff (hC : C.RequestRoundTrip) {r r' : PopRequirement B} :
    encodeChallenge C r = encodeChallenge C r' ↔ SameOnWire C r r' := by
  unfold encodeChallenge PaymentRequest.toString
  constructor
  · intro h
    have hdecode := hC { r.toPaymentRequest with
      unit := r.toPaymentRequest.unit.map C.unitToString }
    rw [h, hC] at hdecode
    simp only [PopRequirement.toPaymentRequest, Option.map_some, Except.ok.injEq,
      RequestFields.mk.injEq, Option.some.injEq] at hdecode
    obtain ⟨hid, hamount, hunit, hsingle, hmints, hdescription, -⟩ := hdecode
    exact ⟨hunit.symm, hmints.symm, hamount.symm, hid.symm, hdescription.symm, hsingle.symm⟩
  · rintro ⟨hunit, hmints, hamount, hid, hdescription, hsingle⟩
    simp only [PopRequirement.toPaymentRequest, Option.map_some, hunit, hmints, hamount, hid,
      hdescription, hsingle]

/-- Two challenges have the same text only if they have the same id and ask for the same: for the same
requirement, when the wire form keeps the units. -/
theorem challengeHeader_eq_iff (hC : C.RequestRoundTrip) (hB : C.UnitNames) (uuid uuid' : Uuid)
    (r r' : PopRequirement B) :
    (challengeHeader C uuid r = challengeHeader C uuid' r' ↔ uuid = uuid' ∧ SameOnWire C r r') ∧
    (WireStable C r.unit → WireStable C r'.unit →
      (challengeHeader C uuid r = challengeHeader C uuid' r' ↔ uuid = uuid' ∧ r = r')) := by
  have hsame : challengeHeader C uuid r = challengeHeader C uuid' r' ↔
      uuid = uuid' ∧ SameOnWire C r r' := by
    rw [← encodeChallenge_eq_iff hC]
    constructor
    · intro h
      have hparams : challengeParams C uuid r = challengeParams C uuid' r' := by
        have hread := @readChallenge_challengeHeader_eq _ _ C r uuid
        rw [h, readChallenge_challengeHeader_eq] at hread
        exact (Prod.mk.inj (Option.some.inj hread)).2.symm
      simp only [challengeParams, List.cons.injEq, Prod.mk.injEq, true_and, and_true,
        String.toList_inj] at hparams
      obtain ⟨hid, hrequest⟩ := hparams
      refine ⟨Uuid.toString_injective hid, ?_⟩
      have henvelope (r : PopRequirement B) :=
        @decodeRequestEnvelope_append _ C.toTexts "" "" (by simp) (by simp) (encodeChallenge C r)
      have hdecode := henvelope r
      rw [hrequest, henvelope r'] at hdecode
      exact (Except.ok.inj hdecode).symm
    · rintro ⟨rfl, h⟩
      unfold challengeHeader
      rw [h]
  refine ⟨hsame, fun hr hr' => hsame.trans (and_congr_right' ?_)⟩
  constructor
  · intro h
    have hparse := (unitFromStr_unitToString_iff hB).2 hr
    rw [h.unit_eq, (unitFromStr_unitToString_iff hB).2 hr'] at hparse
    have hunit : r.unit = r'.unit := (Except.ok.inj hparse).symm
    obtain ⟨unit, mints, amount, paymentId, description, singleUse⟩ := r
    obtain ⟨-, hmints, hamount, hid, hdescription, hsingle⟩ := h
    cases r'
    simp only at *
    simp only [hunit, hmints, hamount, hid, hdescription, hsingle]
  · rintro rfl
    exact ⟨rfl, rfl, rfl, rfl, rfl, rfl⟩

/-- The request has these credentials in its `Authorization` header. -/
def HasCredentials (C : Cashu B Token) (req : Request B X) (c : PaymentCredentials) : Prop :=
  ∃ headerRaw headerValue, req.headers.lookup "authorization" = some headerRaw ∧
    headerToStr headerRaw = some headerValue ∧
      parsePaymentAuthorization C.toTexts headerValue = .ok c

theorem hasCredentials_authorized {c : PaymentCredentials} (hm : c.challenge.method = cashuMethod) :
    HasCredentials C (authorized req c) c := by
  refine ⟨_, _, List.lookup_cons_self, headerToStr_asciiBytes fun x hx => ?_, ?_⟩
  · rw [String.toList_append] at hx
    rcases List.mem_append.1 hx with hx | hx
    · exact (by decide : ∀ c ∈ (paymentScheme ++ " ").toList, IsPrintable c) x hx
    · exact isPrintable_of_isSymbol (isSymbol_of_mem_encodePaymentCredentials hx)
  · rw [parse_payment_credentials, if_pos hm]

/-- The middleware reads the token of the credentials. -/
theorem readToken_of_hasCredentials {c : PaymentCredentials} (h : HasCredentials C req c) :
    readToken C req =
      (decodeToken C c.payload.cashuToken).mapError fun e => some (decodeErrorMessage e) := by
  obtain ⟨raw, value, hraw, hvalue, hparse⟩ := h
  rw [readToken, hraw]
  dsimp only [okOr, bind, Except.bind]
  rw [hvalue]
  dsimp only
  rw [hparse]
  rfl

/-! ## The exchange -/

variable {σ : Type} [DecidableEq B] {random : PreMintRandom} {M : Mints B σ} {net : ℕ → Delivery}
  {next : Request B X → Response} {s : σ}

variable {unit : CurrencyUnit B}

/-- The middleware looks at nothing of a request but the token in its credentials: two requests with the
same token cause the same calls to the mint and the same response, and the handler is called on the one
as on the other, with the same extension. -/
theorem runs_of_same_token {req req' : Request B X} {c c' : PaymentCredentials}
    (h : HasCredentials C req c) (h' : HasCredentials C req' c')
    (htoken : c.payload.cashuToken = c'.payload.cashuToken)
    {t : List (Event ((MintConnector B).sum (Next B X)))} {resp : Response}
    (hrun : Runs (requirePopHttp C random requirement uuid req) t resp) :
    ∃ t', Runs (requirePopHttp C random requirement uuid req') t' resp ∧ lefts t' = lefts t ∧
      rights t' = (rights t).map fun e =>
        handlerEvent { req' with extension := e.1.extension } e.2 := by
  have hread : readToken C req = readToken C req' := by
    rw [readToken_of_hasCredentials h, readToken_of_hasCredentials h', htoken]
  rcases requirePopHttp_runs_iff.1 hrun with hr | ⟨ht, hv⟩ | ⟨ht, hv⟩
  · exact ⟨[], requirePopHttp_runs_iff.2 (.refused (hread ▸ hr)), rfl, rfl⟩
  · refine ⟨_, requirePopHttp_runs_iff.2 (.failed (hread ▸ ht) hv), rfl, ?_⟩
    rw [rights_map_inl]
    rfl
  · refine ⟨_, requirePopHttp_runs_iff.2 (.handled (hread ▸ ht) hv), ?_, ?_⟩
    · rw [lefts, List.filterMap_append, lefts, List.filterMap_append]
      rfl
    · rw [rights_append_inr, rights_append_inr, rights_map_inl]
      rfl

end

namespace Reference

theorem challengeHeader_ne :
    challengeHeader (cashu tokens) ⟨0⟩ requirement ≠ challengeHeader (cashu tokens) ⟨1⟩ requirement := by
  intro h
  have heq := ((challengeHeader_eq_iff (cashu_requestRoundTrip tokens) (cashu_unitNames tokens) _ _ _
    _).2 wireStable_popUnit wireStable_popUnit).1 h
  exact absurd heq.1 (by decide)

/-- The first request of a client. -/
def unpaid : Request BuiltinUnit Unit := ⟨[], none, ()⟩

/-- The second one, for the challenge with the given echo. -/
def paid (echo : EchoedChallenge) : Request BuiltinUnit Unit := authorized unpaid ⟨echo, ⟨"cashuBpop"⟩⟩

/-- The same token without an echo of a challenge. -/
theorem exists_runs_without_echo :
    ∃ t, Runs (requirePopHttp (cashu tokens) random requirement ⟨0⟩ (paid ⟨"", "", cashuMethod, "", ""⟩))
      t ⟨200, [], "ok"⟩ ∧ (rights t).length = 1 := by
  have hhas : HasCredentials (cashu tokens) (request "cashuBpop") (credentials "cashuBpop") :=
    @hasCredentials_authorized _ _ _ _ unpaid (credentials "cashuBpop") rfl
  obtain ⟨t, ht, -, hrights⟩ :=
    @runs_of_same_token _ _ _ _ _ _ _ random _ (paid ⟨"", "", cashuMethod, "", ""⟩) _ _ hhas
      (hasCredentials_authorized rfl) rfl _ _
      (runs_requirePopHttp ⟨0⟩ ⟨200, [], "ok"⟩)
  refine ⟨t, ht, ?_⟩
  rw [hrights, List.length_map, rights_append_inr, rights_map_inl]
  rfl

end Reference

end CdkPopVerifier
