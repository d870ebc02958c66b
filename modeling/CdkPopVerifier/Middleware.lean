import CdkPopVerifier.AuthHeader
import CdkPopVerifier.Validator

/-!
# The middleware

`requirePop` handles one request: it reads the token from the `Authorization` header, runs the
validator, and either answers with a challenge or calls the protected handler.  Its calls are those
of the mint client and the call of the handler.
-/

namespace CdkPopVerifier

open Interaction

/-! ## Requests and responses -/

/-- A request: its headers with names in lower case, the extension that the middleware sets, and
everything else. -/
structure Request (B X : Type) where
  headers : List (String × List UInt8)
  extension : Option (ValidatedPop B)
  rest : X

/-- A response. -/
structure Response where
  status : ℕ
  headers : List (String × String)
  body : String
  deriving DecidableEq

/-- The signature of the protected handler: it is called on a request. -/
@[reducible] def Next (B X : Type) : Sig where
  Op := Request B X
  Reply _ := Response

/-- `StatusCode::PAYMENT_REQUIRED`. -/
def paymentRequired : ℕ := 402

/-- `StatusCode::INTERNAL_SERVER_ERROR`. -/
def internalServerError : ℕ := 500

/-- `StatusCode::SERVICE_UNAVAILABLE`. -/
def serviceUnavailable : ℕ := 503

/-- A status, headers and a text as a response. -/
def textResponse (status : ℕ) (headers : List (String × String)) (body : String) : Response where
  status := status
  headers := ("content-type", "text/plain; charset=utf-8") :: headers
  body := body

/-- Visible ASCII, space and tab. -/
def isVisibleAscii (b : UInt8) : Bool := (0x20 ≤ b && b < 0x7f) || b == 9

/-- `HeaderValue::to_str`. -/
def headerToStr (bytes : List UInt8) : Option String :=
  if bytes.all isVisibleAscii then
    some (String.ofList (bytes.map fun b => Char.ofNat b.toNat))
  else none

/-! ## UUIDs -/

/-- `uuid::Uuid`. -/
structure Uuid where
  bits : BitVec 128
  deriving DecidableEq

namespace Uuid

/-- The lower-case hexadecimal digit at the given place, counted from the most significant one. -/
def digit (uuid : Uuid) (i : ℕ) : Char :=
  Nat.digitChar ((uuid.bits >>> (4 * (31 - i))).toNat % 16)

/-- The digits at the `n` places from `i` on. -/
def digits (uuid : Uuid) (i n : ℕ) : List Char := (List.range' i n).map uuid.digit

/-- `Uuid::to_string`: groups of 8, 4, 4, 4 and 12 digits. -/
def toString (uuid : Uuid) : String :=
  String.ofList (uuid.digits 0 8 ++ '-' :: uuid.digits 8 4 ++ '-' :: uuid.digits 12 4 ++
    '-' :: uuid.digits 16 4 ++ '-' :: uuid.digits 20 12)

end Uuid

/-! ## Challenges -/

/-- `DEFAULT_REALM`. -/
def defaultRealm : String := "cdk-pop-verifier"

/-- `INTENT_CHARGE`. -/
def intentCharge : String := "charge"

variable {B Token X : Type} (C : Cashu B Token)

/-- The value of `WWW-Authenticate` in `challenge_response`. -/
def challengeHeader (uuid : Uuid) (requirement : PopRequirement B) : String :=
  let creqA := encodeChallenge C requirement
  let requestEnvelope := encodeRequestEnvelope creqA
  let realm := defaultRealm
  paymentScheme ++ " id=\"" ++ uuid.toString ++ "\", realm=\"" ++ realm ++
    "\", method=\"cashu\", intent=\"" ++ intentCharge ++ "\", request=\"" ++ requestEnvelope ++ "\""

/-- `challenge_response`. -/
def challengeResponse (uuid : Uuid) (requirement : PopRequirement B)
    (failureReason : Option String) : Response :=
  let header := challengeHeader C uuid requirement
  if C.headerValueAccepts header then
    textResponse paymentRequired [("www-authenticate", header), ("cache-control", "no-store")]
      (failureReason.getD "")
  else
    textResponse internalServerError [] "failed to encode WWW-Authenticate challenge header"

/-- `decode_error_message`. -/
def decodeErrorMessage (e : Error) : String :=
  match e with
  | .invalidHeader _ => "invalid token value: " ++ e.toString
  | .decodeFailed _ => "decode failed: " ++ e.toString
  | .encodeFailed _ => "encode failed: " ++ e.toString

/-- `validation_error_to_response`. -/
def validationErrorToResponse (uuid : Uuid) (e : ValidationError B)
    (requirement : PopRequirement B) : Response :=
  match e with
  | .mintUnreachable _ => textResponse serviceUnavailable [] (e.toString C.toTexts)
  | .unitMismatch _ _ | .mintNotAllowed _ _ | .amountInsufficient _ _ | .tokenEmpty
  | .malformedToken _ | .mintRejectedSwap _ =>
    challengeResponse C uuid requirement (some (e.toString C.toTexts))

/-! ## The gate -/

/-- `require_pop`.  `uuid` is the id of the challenge, if one is sent. -/
def requirePop [DecidableEq B] (requirement : PopRequirement B) (uuid : Uuid) (req : Request B X) :
    Prog ((MintClient B).sum (Next B X)) Response :=
  match req.headers.lookup "authorization" with
  | none => .ret (challengeResponse C uuid requirement none)
  | some headerRaw =>
  match headerToStr headerRaw with
  | none => .ret (challengeResponse C uuid requirement
      (some "invalid Authorization header encoding"))
  | some headerValue =>
  match parsePaymentAuthorization C.toTexts headerValue with
  | .error .unknownScheme => .ret (challengeResponse C uuid requirement none)
  | .error e => .ret (challengeResponse C uuid requirement (some (e.toString C.toTexts)))
  | .ok credentials =>
  match decodeToken C credentials.payload.cashuToken with
  | .error e => .ret (challengeResponse C uuid requirement (some (decodeErrorMessage e)))
  | .ok token =>
    (PopValidator.validate C token requirement).run.inl >>= fun
      | .error e => .ret (validationErrorToResponse C uuid e requirement)
      | .ok validated => .performInr { req with extension := some validated }

end CdkPopVerifier
