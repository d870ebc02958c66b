import CdkPopVerifier.MintClient

/-!
# The mint client over HTTP

`CdkMintClient` implements the two methods of `MintClient` by the calls of `MintConnector`.  A swap
finds the active keyset of the unit of the first input, asks for its keys, posts blinded outputs for
the total of the inputs, and unblinds the signatures of the mint.
-/

namespace CdkPopVerifier

open Fallible Interaction

/-- `cdk::Error`: its text, and whether it is a definitive failure. -/
structure CdkError where
  isDefinitiveFailure : Bool
  text : String
  deriving DecidableEq

/-- The calls of `MintConnector` that the client makes, each at one mint. -/
inductive HttpCall where
  | getMintKeysets
  | getMintKeyset (id : Id)
  | postSwap (request : SwapRequest)
  deriving DecidableEq

/-- The signature of `MintConnector`.  A success carries the part of the response that is used: the
keysets, the keys of the keyset, or the signatures. -/
@[reducible] def MintConnector (B : Type) : Sig where
  Op := MintUrl × HttpCall
  Reply
    | (_, .getMintKeysets) => Except CdkError (List (KeySetInfo B))
    | (_, .getMintKeyset _) => Except CdkError Keys
    | (_, .postSwap _) => Except CdkError (List BlindSignature)

/-- `PreMintSecrets::random` without a split target, with the random draws of one swap: from the
keyset id, the total and the denominations.  It panics if one of them is 0. -/
abbrev PreMintRandom : Type := Id → Amount → List Amount → Option (Except String PreMintSecrets)

variable {B Token : Type}

/-- `map_cdk_err`. -/
def mapCdkErr (e : CdkError) : MintClientError :=
  if e.isDefinitiveFailure then .rejectedSwap e.text else .unreachable e.text

/-- One step of the loop of `dhke::construct_proofs`. -/
def constructProof (C : Cashu B Token) (keys : Keys) (signature : BlindSignature) (r : SecretKey)
    (secret : Secret) : Except String Proof := do
  let a ← okOr (keys.amountKey signature.amount) C.noKeyError
  let c ← C.unblindMessage signature.c r a
  return { amount := signature.amount, keysetId := signature.keysetId, secret, c }

/-- `dhke::construct_proofs`. -/
def constructProofs (C : Cashu B Token) (promises : List BlindSignature) (rs : List SecretKey)
    (secrets : List Secret) (keys : Keys) : Except String Proofs := do
  rejectIf (promises.length ≠ rs.length ∨ promises.length ≠ secrets.length) C.lengthsError
  ((promises.zip rs).zip secrets).mapM fun ((signature, r), secret) =>
    constructProof C keys signature r secret

namespace CdkMintClient

/-- A call of the connector, with its error mapped. -/
def getMintKeysets (mintUrl : MintUrl) :
    ExceptT MintClientError (Prog (MintConnector B)) (List (KeySetInfo B)) :=
  @callExcept (MintConnector B) _ _ _ (mintUrl, .getMintKeysets) (fun r => r) mapCdkErr

@[inherit_doc getMintKeysets]
def getMintKeyset (mintUrl : MintUrl) (id : Id) :
    ExceptT MintClientError (Prog (MintConnector B)) Keys :=
  @callExcept (MintConnector B) _ _ _ (mintUrl, .getMintKeyset id) (fun r => r) mapCdkErr

@[inherit_doc getMintKeysets]
def postSwap (mintUrl : MintUrl) (request : SwapRequest) :
    ExceptT MintClientError (Prog (MintConnector B)) (List BlindSignature) :=
  @callExcept (MintConnector B) _ _ _ (mintUrl, .postSwap request) (fun r => r) mapCdkErr

/-- `CdkMintClient::keysets`. -/
def keysets (mintUrl : MintUrl) :
    ExceptT MintClientError (Prog (MintConnector B)) (List (KeySetInfo B)) :=
  getMintKeysets mintUrl

variable [DecidableEq B] (C : Cashu B Token)

/-- The unit of the keyset of the first input. -/
def inputUnit (inputKeysetId : Id) (keysets : List (KeySetInfo B)) :
    Except MintClientError (CurrencyUnit B) :=
  okOr ((keysets.find? fun k => k.id = inputKeysetId).map KeySetInfo.unit)
    (.rejectedSwap ("input keyset " ++ inputKeysetId.hex ++ " unknown at mint"))

/-- The first active keyset of a unit. -/
def activeKeyset (unit : CurrencyUnit B) (keysets : List (KeySetInfo B)) :
    Except MintClientError (KeySetInfo B) :=
  okOr ((keysets.filter KeySetInfo.active).find? fun k => k.unit = unit)
    (.rejectedSwap ("no active keyset at mint for unit " ++ C.debugUnit unit))

/-- `CdkMintClient::swap`. -/
def swap (random : PreMintRandom) (mintUrl : MintUrl) (proofs : Proofs) :
    ExceptT MintClientError (Prog (MintConnector B)) Proofs := do
  let some firstProof := proofs.head?
    | throw (.rejectedSwap "cannot swap empty proof set")
  let keysets ← getMintKeysets mintUrl
  let unit ← attempt (inputUnit firstProof.keysetId keysets)
  -- the input keyset may have rotated, so the outputs take an active one
  let active ← attempt (activeKeyset C unit keysets)
  let keys ← getMintKeyset mintUrl active.id
  attempt (rejectIf (active.inputFeePpk ≠ 0) (.rejectedSwap ("active keyset " ++ active.id.hex ++
    " has non-zero input_fee_ppk; PoP v1 requires zero fee")))
  let total ← attempt ((proofs.totalAmount C.toTexts).mapError .rejectedSwap)
  let preMint ← unwind ((random active.id total keys.keys).map fun r => r.mapError .rejectedSwap)
  let swapRequest : SwapRequest := { inputs := proofs, outputs := preMint.blindedMessages }
  let signatures ← postSwap mintUrl swapRequest
  attempt ((constructProofs C signatures preMint.rs preMint.secrets keys).mapError .rejectedSwap)

/-- The client as an implementation of `MintClient`. -/
def handler (random : PreMintRandom) :
    ∀ e : (MintClient B).Op, Prog (MintConnector B) ((MintClient B).Reply e)
  | .keysets mintUrl => (keysets mintUrl).run
  | .swap mintUrl proofs => (swap C random mintUrl proofs).run

end CdkMintClient

end CdkPopVerifier
