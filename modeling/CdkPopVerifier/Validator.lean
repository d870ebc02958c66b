import CdkPopVerifier.Challenge
import CdkPopVerifier.MintClient

/-!
# The swap-at-mint validator

`PopValidator.validate` follows the source step by step: the checks of the unit and of the mint, the
call for the keysets, the extraction of the proofs and the checks on them, the swap, and the sum of
the new proofs.
-/

namespace CdkPopVerifier

open Fallible Interaction

/-- The result of a successful validation. -/
structure ValidatedPop (B : Type) where
  newProofs : Proofs
  mintUrl : MintUrl
  unit : CurrencyUnit B
  amount : Amount
  deriving DecidableEq

/-- The errors of the validator. -/
inductive ValidationError (B : Type) where
  | unitMismatch (expected got : CurrencyUnit B)
  | mintNotAllowed (got : MintUrl) (allowed : List MintUrl)
  | amountInsufficient (required got : Amount)
  | mintRejectedSwap (message : String)
  | mintUnreachable (message : String)
  | tokenEmpty
  | malformedToken (message : String)
  deriving DecidableEq

variable {B Token : Type}

/-- The `Display` text of an error. -/
def ValidationError.toString (T : Texts B) : ValidationError B → String
  | .unitMismatch expected got =>
    "token unit " ++ T.debugUnit got ++ " does not match requirement unit " ++ T.debugUnit expected
  | .mintNotAllowed got allowed =>
    "token mint " ++ got.url ++ " is not in the requirement's allowed mints: " ++
      T.debugMints allowed
  | .amountInsufficient required got =>
    "token amount " ++ got.toNat.repr ++ " is below required " ++ required.toNat.repr
  | .mintRejectedSwap m => "mint rejected swap: " ++ m
  | .mintUnreachable m => "mint unreachable: " ++ m
  | .tokenEmpty => "token contains no proofs"
  | .malformedToken m => "malformed token: " ++ m

/-- The error that the validator makes of an error of the mint client. -/
def ValidationError.ofMintClient : MintClientError → ValidationError B
  | .unreachable m => .mintUnreachable m
  | .rejectedSwap m => .mintRejectedSwap m

variable [DecidableEq B] (C : Cashu B Token)

/-- `PopValidator::validate`. -/
def PopValidator.validate (token : Token) (requirement : PopRequirement B) :
    ExceptT (ValidationError B) (Prog (MintClient B)) (ValidatedPop B) := do
  -- structural: unit
  let tokenUnit ← attempt (okOr (C.unit token) (.unitMismatch requirement.unit (.custom "")))
  attempt (rejectIf (tokenUnit ≠ requirement.unit)
    (.unitMismatch requirement.unit tokenUnit))
  -- structural: mint allowlist
  let tokenMint ← attempt ((C.mintUrl token).mapError .malformedToken)
  attempt (rejectIf (!requirement.mints.isEmpty && !requirement.mints.contains tokenMint)
    (.mintNotAllowed tokenMint requirement.mints))
  -- network: keysets for short-id resolution
  let keysets ← MintClient.keysets tokenMint .ofMintClient
  let proofs ← unwind ((C.proofs token keysets).map fun r => r.mapError .malformedToken)
  -- structural: non-empty, amount
  attempt (rejectIf proofs.isEmpty .tokenEmpty)
  let tokenAmount ← attempt ((proofs.totalAmount C.toTexts).mapError .malformedToken)
  attempt (rejectIf (tokenAmount < requirement.amount)
    (.amountInsufficient requirement.amount tokenAmount))
  -- network: swap at the issuing mint
  let newProofs ← MintClient.swap tokenMint proofs .ofMintClient
  let newAmount ← attempt ((newProofs.totalAmount C.toTexts).mapError .malformedToken)
  return { newProofs, mintUrl := tokenMint, unit := tokenUnit, amount := newAmount }

end CdkPopVerifier
