import CdkPopVerifier.Cashu
import CdkPopVerifier.Lib.Base64Url
import CdkPopVerifier.Lib.Json

/-!
# The `Authorization: Payment` request header

The parser of the credentials that a client sends back, and its inverse.  The credentials are one
base64url text that holds a JSON object with the echoed challenge and the token.
-/

namespace CdkPopVerifier

open Fallible Text JsonText

/-- `PAYMENT_SCHEME`. -/
def paymentScheme : String := "Payment"

/-- `CASHU_METHOD`. -/
def cashuMethod : String := "cashu"

/-- The echo of the parameters of the challenge. -/
structure EchoedChallenge where
  id : String
  realm : String
  method : String
  intent : String
  request : String
  deriving DecidableEq

/-- The payload of the cashu method. -/
structure CashuPayload where
  cashuToken : String
  deriving DecidableEq

/-- The credentials object. -/
structure PaymentCredentials where
  challenge : EchoedChallenge
  payload : CashuPayload
  deriving DecidableEq

/-- Why an `Authorization: Payment` header failed to parse. -/
inductive AuthParseError where
  | unknownScheme
  | missingCredentials
  | base64Decode (message : String)
  | utf8Decode (message : String)
  | jsonParse (message : String)
  | wrongMethod (method : String)
  deriving DecidableEq

variable {B : Type} (T : Texts B)

/-- The `Display` text of an error. -/
def AuthParseError.toString : AuthParseError → String
  | .unknownScheme => "auth scheme is not 'Payment'"
  | .missingCredentials => "Payment header missing credentials blob"
  | .base64Decode m => "Payment credentials are not valid base64url-nopad: " ++ m
  | .utf8Decode m => "Payment credentials are not valid UTF-8: " ++ m
  | .jsonParse m => "Payment credentials JSON is malformed: " ++ m
  | .wrongMethod m => "Payment method must be 'cashu', got " ++ T.debugStr m

/-! ## Deserialization -/

def EchoedChallenge.fromJson (j : Json) : Option EchoedChallenge := do
  let [id, realm, method, intent, request] ←
    j.fields ["id", "realm", "method", "intent", "request"] | none
  let id ← id.asString
  let realm ← realm.asString
  let method ← method.asString
  let intent ← intent.asString
  let request ← request.asString
  some { id, realm, method, intent, request }

def CashuPayload.fromJson (j : Json) : Option CashuPayload := do
  let [cashuToken] ← j.fields ["cashu_token"] | none
  let cashuToken ← cashuToken.asString
  some { cashuToken }

def PaymentCredentials.fromJson (j : Json) : Option PaymentCredentials := do
  let [challenge, payload] ← j.fields ["challenge", "payload"] | none
  let challenge ← EchoedChallenge.fromJson challenge
  let payload ← CashuPayload.fromJson payload
  some { challenge, payload }

/-! ## The parser -/

/-- The part of `parse_payment_authorization` that reads the credentials blob. -/
def decodeCredentials (rest : List Char) : Except AuthParseError PaymentCredentials := do
  let bytes ← okOr (Base64Url.decode rest) (.base64Decode (T.base64Error rest))
  let json ← okOr (fromUtf8 bytes) (.utf8Decode (T.utf8Error bytes))
  let credentials ← okOr ((parse (utf8 json)).bind PaymentCredentials.fromJson)
    (.jsonParse (T.jsonError (utf8 json)))
  rejectIf (credentials.challenge.method ≠ cashuMethod) (.wrongMethod credentials.challenge.method)
  return credentials

/-- `parse_payment_authorization`. -/
def parsePaymentAuthorization (headerValue : String) :
    Except AuthParseError PaymentCredentials := do
  let trimmed := trim headerValue.toList
  rejectIf (trimmed = []) .unknownScheme
  -- the scheme ends at the first ASCII whitespace
  let (scheme, rest) := match splitOnce isAsciiWhitespace trimmed with
    | some (s, r) => (s, trim r)
    | none => (trimmed, [])
  rejectIf (!eqIgnoreAsciiCase scheme paymentScheme.toList) .unknownScheme
  rejectIf (rest = []) .missingCredentials
  decodeCredentials T rest

/-! ## The inverse -/

def EchoedChallenge.toJson (c : EchoedChallenge) : List UInt8 :=
  writeObject [("id", writeString c.id), ("realm", writeString c.realm),
    ("method", writeString c.method), ("intent", writeString c.intent),
    ("request", writeString c.request)]

def CashuPayload.toJson (p : CashuPayload) : List UInt8 :=
  writeObject [("cashu_token", writeString p.cashuToken)]

def PaymentCredentials.toJson (c : PaymentCredentials) : List UInt8 :=
  writeObject [("challenge", c.challenge.toJson), ("payload", c.payload.toJson)]

/-- `encode_payment_credentials`. -/
def encodePaymentCredentials (credentials : PaymentCredentials) : String :=
  String.ofList (Base64Url.encode credentials.toJson)

end CdkPopVerifier
