import CdkPopVerifier.CdkMintClient
import CdkPopVerifier.Lib.Denominations
import CdkPopVerifier.Lib.Text

/-!
# What is assumed of the dependencies

The properties of `cashu` and `http` that results of this development use as hypotheses, each under
its own name.  `Reference` has an instance that satisfies all of them.
-/

namespace CdkPopVerifier

open Denominations

variable {B Token : Type}

/-- `PreMintSecrets::random` without a split target panics, fails or makes outputs for the whole total. -/
def PreMintRandom.Totals (random : PreMintRandom) : Prop :=
  ∀ (id : Id) (total : Amount) (amounts : List Amount) (preMint : PreMintSecrets),
    random id total amounts = some (.ok preMint) →
      Amount.exactSum (preMint.blindedMessages.map BlindedMessage.amount) = total.toNat

/-- The codec of payment requests loses nothing. -/
def Cashu.RequestRoundTrip (C : Cashu B Token) : Prop :=
  ∀ w, C.decodeRequest (C.encodeRequest w) = .ok w

/-- `CurrencyUnit::from_str` parses every text: what is no built-in unit becomes a custom one. -/
def Cashu.ParsesUnits (C : Cashu B Token) : Prop :=
  ∀ s, ∃ unit, C.unitFromStr s = .ok unit

/-- The display text of a built-in unit is parsed as this unit. -/
def Cashu.UnitNames (C : Cashu B Token) : Prop :=
  ∀ u, C.unitFromStr (C.unitToString (.builtin u)) = .ok (.builtin u)

/-- `HeaderValue::from_str` accepts every text of visible ASCII characters and spaces. -/
def Texts.AcceptsVisibleAscii (T : Texts B) : Prop :=
  ∀ s : String, (∀ c ∈ s.toList, Text.IsPrintable c) → T.headerValueAccepts s = true

end CdkPopVerifier
