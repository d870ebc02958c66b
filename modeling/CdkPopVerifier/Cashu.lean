import CdkPopVerifier.Lib.Fallible
import Mathlib.Algebra.BigOperators.Group.List.Basic
import Mathlib.Tactic.Ring

/-!
# What the verifier uses of `cashu`, `cdk` and the standard library

The data types below are the fields that the verifier reads or writes.  The code of `cashu` and of
the text formatters is not part of the repository: the functions that the verifier calls are the
fields of the structures `Texts` and `Cashu`, and every result holds for all values of them.
Keyset ids, secrets and curve points are kept as the text they are written as; only equality is ever
tested on them.  An external function that fails returns the text of its error, which is all the
verifier uses of it; one that can panic returns an option, with `none` for the panic.
-/

namespace CdkPopVerifier

open Fallible

/-- `cashu::Amount`. -/
abbrev Amount : Type := UInt64

/-- `cashu::MintUrl`, in its normal form. -/
structure MintUrl where
  url : String
  deriving DecidableEq

/-- `cashu::CurrencyUnit`, with built-in units `B`. -/
inductive CurrencyUnit (B : Type) where
  | builtin (unit : B)
  | custom (name : String)
  deriving DecidableEq

/-- `cashu::nuts::Id`, a keyset id. -/
structure Id where
  hex : String
  deriving DecidableEq

/-- `cashu::secret::Secret`. -/
structure Secret where
  text : String
  deriving DecidableEq

/-- `cashu::PublicKey`, a curve point. -/
structure PublicKey where
  hex : String
  deriving DecidableEq

/-- `cashu::SecretKey`, a scalar. -/
structure SecretKey where
  hex : String
  deriving DecidableEq

/-- `cashu::nuts::Proof`. -/
structure Proof where
  amount : Amount
  keysetId : Id
  secret : Secret
  c : PublicKey
  deriving DecidableEq

/-- `cashu::Proofs`. -/
abbrev Proofs : Type := List Proof

/-- `cashu::nuts::nut02::KeySetInfo`. -/
structure KeySetInfo (B : Type) where
  id : Id
  unit : CurrencyUnit B
  active : Bool
  inputFeePpk : UInt64
  deriving DecidableEq

/-- `cashu::Keys`: a map from amounts to keys, in increasing order of the amounts. -/
structure Keys where
  entries : List (Amount × PublicKey)
  sorted : (entries.map Prod.fst).Pairwise (· < ·)

/-- The amounts that the keys sign. -/
def Keys.keys (keys : Keys) : List Amount := keys.entries.map Prod.fst

/-- The key for an amount. -/
def Keys.amountKey (keys : Keys) (amount : Amount) : Option PublicKey := keys.entries.lookup amount

/-- `cashu::nuts::BlindedMessage`. -/
structure BlindedMessage where
  amount : Amount
  keysetId : Id
  blindedSecret : PublicKey
  deriving DecidableEq

/-- `cashu::nuts::BlindSignature`. -/
structure BlindSignature where
  amount : Amount
  keysetId : Id
  c : PublicKey
  deriving DecidableEq

/-- One entry of `cashu::nuts::nut00::PreMintSecrets`. -/
structure PreMint where
  blindedMessage : BlindedMessage
  secret : Secret
  r : SecretKey
  deriving DecidableEq

/-- `cashu::nuts::nut00::PreMintSecrets`. -/
abbrev PreMintSecrets : Type := List PreMint

namespace PreMintSecrets

def blindedMessages (pm : PreMintSecrets) : List BlindedMessage := pm.map PreMint.blindedMessage

def rs (pm : PreMintSecrets) : List SecretKey := pm.map PreMint.r

def secrets (pm : PreMintSecrets) : List Secret := pm.map PreMint.secret

end PreMintSecrets

/-- `cashu::nuts::nut03::SwapRequest`. -/
structure SwapRequest where
  inputs : Proofs
  outputs : List BlindedMessage
  deriving DecidableEq

/-- A NUT-18 transport, as its text; the verifier never sends one. -/
structure Transport where
  text : String
  deriving DecidableEq

/-- A NUT-10 spending condition, as its text; the verifier never sends one. -/
structure Nut10 where
  text : String
  deriving DecidableEq

/-- The fields of a NUT-18 payment request, with the unit in the form `U`. -/
structure RequestFields (U : Type) where
  paymentId : Option String
  amount : Option Amount
  unit : Option U
  singleUse : Option Bool
  mints : List MintUrl
  description : Option String
  transports : List Transport
  nut10 : Option Nut10
  deriving DecidableEq

/-- `cashu::nuts::nut18::PaymentRequest`. -/
abbrev PaymentRequest (B : Type) : Type := RequestFields (CurrencyUnit B)

/-- Texts that the verifier takes from its dependencies. -/
structure Texts (B : Type) where
  /-- `{:?}` of a string. -/
  debugStr : String → String
  /-- `{:?}` of a unit. -/
  debugUnit : CurrencyUnit B → String
  /-- `{:?}` of a list of mint urls. -/
  debugMints : List MintUrl → String
  /-- The error of the base64 decoder on a text. -/
  base64Error : List Char → String
  /-- The error of the UTF-8 decoder on some bytes. -/
  utf8Error : List UInt8 → String
  /-- The error of `serde_json` on a text. -/
  jsonError : List UInt8 → String
  /-- The error of a sum of amounts that overflows. -/
  amountError : String
  /-- Whether `HeaderValue::from_str` accepts a text. -/
  headerValueAccepts : String → Bool

/-- The functions of `cashu` that the verifier calls. -/
structure Cashu (B Token : Type) extends Texts B where
  /-- `Token::from_str`. -/
  tokenFromStr : String → Except String Token
  /-- `Token::unit`. -/
  unit : Token → Option (CurrencyUnit B)
  /-- `Token::mint_url`. -/
  mintUrl : Token → Except String MintUrl
  /-- `Token::proofs`: the proofs, with their keyset ids resolved against the mint's keysets.  It panics
  if a short id is cut out of the id of a keyset that is shorter. -/
  proofs : Token → List (KeySetInfo B) → Option (Except String Proofs)
  /-- `dhke::unblind_message`. -/
  unblindMessage : PublicKey → SecretKey → PublicKey → Except String PublicKey
  /-- The error of `construct_proofs` on lists of different lengths. -/
  lengthsError : String
  /-- The error of `construct_proofs` for an amount without a key. -/
  noKeyError : String
  /-- `CurrencyUnit::to_string`, which its serialization uses. -/
  unitToString : CurrencyUnit B → String
  /-- `CurrencyUnit::from_str`, which its deserialization uses. -/
  unitFromStr : String → Except String (CurrencyUnit B)
  /-- The text of a payment request: `creqA` and the base64 of its CBOR map. -/
  encodeRequest : RequestFields String → String
  /-- The inverse of `encodeRequest`. -/
  decodeRequest : String → Except String (RequestFields String)

variable {B Token : Type}

/-! ## Amounts -/

/-- `Amount::checked_add`. -/
def Amount.checkedAdd (a b : Amount) : Option Amount :=
  if a.toNat + b.toNat < 2 ^ 64 then some (a + b) else none

/-- `Amount::try_sum`. -/
def Amount.trySum (l : List Amount) : Option Amount := l.foldlM Amount.checkedAdd 0

/-- The exact sum of some amounts. -/
def Amount.exactSum (l : List Amount) : ℕ := (l.map UInt64.toNat).sum

/-- The exact sum of the amounts of some proofs. -/
def Proofs.value (proofs : Proofs) : ℕ := Amount.exactSum (proofs.map Proof.amount)

/-- `ProofsMethods::total_amount`. -/
def Proofs.totalAmount (T : Texts B) (proofs : Proofs) : Except String Amount :=
  okOr (Amount.trySum (proofs.map Proof.amount)) T.amountError

theorem foldlM_checkedAdd_eq_some_iff {l : List Amount} {a s : Amount} :
    l.foldlM Amount.checkedAdd a = some s ↔ a.toNat + Amount.exactSum l = s.toNat := by
  induction l generalizing a with
  | nil => simp [Amount.exactSum, UInt64.toNat_inj]
  | cons b l ih =>
    rw [List.foldlM_cons, Amount.checkedAdd]
    have hs := s.toNat_lt
    have hcons : Amount.exactSum (b :: l) = b.toNat + Amount.exactSum l := rfl
    split_ifs with h
    · have hab : (a + b).toNat = a.toNat + b.toNat := by
        rw [UInt64.toNat_add, Nat.mod_eq_of_lt h]
      rw [Option.bind_eq_bind, Option.bind_some, ih, hab, hcons, Nat.add_assoc]
    · simp only [Option.bind_eq_bind, Option.bind_none, hcons]
      constructor
      · exact fun e => absurd e (by simp)
      · exact fun e => absurd e (by omega)

/-- The checked sum succeeds when the exact sum fits, and is then the exact sum. -/
theorem totalAmount_eq_ok_iff {T : Texts B} {proofs : Proofs} {amount : Amount} :
    proofs.totalAmount T = .ok amount ↔ amount.toNat = proofs.value := by
  have h := @foldlM_checkedAdd_eq_some_iff (proofs.map Proof.amount) 0 amount
  rw [UInt64.toNat_zero, Nat.zero_add] at h
  rw [Proofs.totalAmount, Proofs.value, @eq_comm _ amount.toNat, ← h, Amount.trySum, okOr.eq_def]
  split <;> simp_all

theorem totalAmount_eq_error_iff {T : Texts B} {proofs : Proofs} {e : String} :
    proofs.totalAmount T = .error e ↔ e = T.amountError ∧ 2 ^ 64 ≤ proofs.value := by
  rcases h : proofs.totalAmount T with e' | amount
  · have hno : ∀ amount : Amount, amount.toNat ≠ proofs.value := fun amount ha => by
      rw [totalAmount_eq_ok_iff.2 ha] at h
      cases h
    have hbig : 2 ^ 64 ≤ proofs.value := by
      by_contra hlt
      exact hno (UInt64.ofNat proofs.value)
        (UInt64.toNat_ofNat_of_lt' (by rw [UInt64.size]; omega))
    rw [Proofs.totalAmount, okOr.eq_def] at h
    split at h
    · cases h
    · cases h
      exact ⟨fun e => ⟨by injection e with e; exact e.symm, hbig⟩, fun e => by rw [e.1]⟩
  · have hv := totalAmount_eq_ok_iff.1 h
    have hlt := amount.toNat_lt
    constructor
    · rintro ⟨⟩
    · rintro ⟨-, he⟩
      omega

end CdkPopVerifier
