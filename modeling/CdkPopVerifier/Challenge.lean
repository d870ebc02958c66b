import CdkPopVerifier.Cashu
import CdkPopVerifier.Lib.Base64Url
import CdkPopVerifier.Lib.Json

/-!
# The challenge and its request envelope

`PopRequirement` is what the verifier asks for.  `encodeChallenge` writes it as a NUT-18 payment
request, and the envelope wraps that text in a JSON object in base64url.  `decodeToken` reads the
token that a client sends.
-/

namespace CdkPopVerifier

open Fallible Text JsonText

/-- `error::Error`. -/
inductive Error where
  | invalidHeader (message : String)
  | decodeFailed (message : String)
  | encodeFailed (message : String)
  deriving DecidableEq

/-- The `Display` text of an error. -/
def Error.toString : Error → String
  | .invalidHeader m => "invalid token: " ++ m
  | .decodeFailed m => "failed to decode token: " ++ m
  | .encodeFailed m => "failed to encode challenge: " ++ m

/-- What the verifier requires from a holder. -/
structure PopRequirement (B : Type) where
  unit : CurrencyUnit B
  mints : List MintUrl
  amount : Amount
  paymentId : Option String
  description : Option String
  singleUse : Bool
  deriving DecidableEq

/-- The NUT-18 payment request, without transports and without a spending condition. -/
def PopRequirement.toPaymentRequest {B : Type} (r : PopRequirement B) : PaymentRequest B where
  paymentId := r.paymentId
  amount := some r.amount
  unit := some r.unit
  singleUse := some r.singleUse
  mints := r.mints
  description := r.description
  transports := []
  nut10 := none

variable {B Token : Type} (C : Cashu B Token)

/-! ## The wire form of payment requests -/

/-- `PaymentRequest::to_string`. -/
def PaymentRequest.toString (p : PaymentRequest B) : String :=
  C.encodeRequest { p with unit := p.unit.map C.unitToString }

/-- `PaymentRequest::from_str`. -/
def PaymentRequest.fromStr (s : String) : Except String (PaymentRequest B) := do
  let p ← C.decodeRequest s
  let unit ← p.unit.mapM C.unitFromStr
  return { p with unit }

/-- `encode_challenge`. -/
def encodeChallenge (req : PopRequirement B) : String :=
  PaymentRequest.toString C req.toPaymentRequest

/-! ## The request envelope -/

/-- The JSON envelope inside the `request` parameter. -/
structure RequestEnvelope where
  cashuRequest : String
  deriving DecidableEq

def RequestEnvelope.toJson (e : RequestEnvelope) : List UInt8 :=
  writeObject [("cashu_request", writeString e.cashuRequest)]

def RequestEnvelope.fromJson (j : Json) : Option RequestEnvelope := do
  let [cashuRequest] ← j.fields ["cashu_request"] | none
  let cashuRequest ← cashuRequest.asString
  some { cashuRequest }

/-- `encode_request_envelope`. -/
def encodeRequestEnvelope (creqA : String) : String :=
  let envelope : RequestEnvelope := { cashuRequest := creqA }
  String.ofList (Base64Url.encode envelope.toJson)

/-- `decode_request_envelope`. -/
def decodeRequestEnvelope (T : Texts B) (b64 : String) : Except Error String := do
  let trimmed := trim b64.toList
  let bytes ← okOr (Base64Url.decode trimmed)
    (.decodeFailed ("request envelope base64: " ++ T.base64Error trimmed))
  let envelope ← okOr ((parse bytes).bind RequestEnvelope.fromJson)
    (.decodeFailed ("request envelope json: " ++ T.jsonError bytes))
  return envelope.cashuRequest

/-! ## The token -/

/-- `decode_token`. -/
def decodeToken (xCashuHeader : String) : Except Error Token := do
  let trimmed := trim xCashuHeader.toList
  rejectIf (!("cashuA".toList.isPrefixOf trimmed || "cashuB".toList.isPrefixOf trimmed))
    (.invalidHeader ("expected cashuA/cashuB prefix, got " ++
      C.debugStr (String.ofList (trimmed.take 8))))
  (C.tokenFromStr (String.ofList trimmed)).mapError .decodeFailed

end CdkPopVerifier
