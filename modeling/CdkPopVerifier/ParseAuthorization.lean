import CdkPopVerifier.AuthHeader

/-!
# What the parser of the `Authorization` header accepts

`parsePaymentAuthorization` looks at the first word of the header, and then at what follows it.  It
reports `UnknownScheme` exactly when the first word is not `Payment`, and every credential that it
returns names the method `cashu`.
-/

namespace CdkPopVerifier

open Fallible Text JsonText

variable {B : Type} {T : Texts B} {headerValue : String}

/-- The first word of a header value, up to ASCII whitespace. -/
def schemeOf (headerValue : String) : List Char :=
  (trim headerValue.toList).takeWhile fun c => !isAsciiWhitespace c

/-- What follows the first word. -/
def blobOf (headerValue : String) : List Char :=
  match splitOnce isAsciiWhitespace (trim headerValue.toList) with
  | some (_, rest) => trim rest
  | none => []

/-- The parser in terms of the two parts of the header. -/
theorem parsePaymentAuthorization_eq : parsePaymentAuthorization T headerValue = (do
    rejectIf (eqIgnoreAsciiCase (schemeOf headerValue) paymentScheme.toList = false) .unknownScheme
    rejectIf (blobOf headerValue = []) .missingCredentials
    decodeCredentials T (blobOf headerValue)) := by
  by_cases hnil : trim headerValue.toList = []
  · have hscheme : schemeOf headerValue = [] := by rw [schemeOf, hnil]; rfl
    rw [parsePaymentAuthorization, rejectIf, if_pos hnil, hscheme]
    rfl
  rw [parsePaymentAuthorization, rejectIf, if_neg hnil, blobOf]
  rcases hs : splitOnce isAsciiWhitespace (trim headerValue.toList) with _ | ⟨scheme, rest⟩
  · have hscheme : schemeOf headerValue = trim headerValue.toList :=
      List.takeWhile_eq_self_iff.2 fun c hc => by simp [splitOnce_eq_none_iff.1 hs c hc]
    simp only [hscheme, Bool.not_eq_true']
    rfl
  · have hscheme : schemeOf headerValue = scheme := takeWhile_eq_of_splitOnce hs
    simp only [hscheme, Bool.not_eq_true']
    rfl

theorem decodeCredentials_eq_ok {rest : List Char} {c : PaymentCredentials}
    (h : decodeCredentials T rest = .ok c) : c.challenge.method = cashuMethod := by
  simp only [decodeCredentials, bind_eq_ok_iff, rejectIf_eq_ok_iff] at h
  obtain ⟨_, -, _, -, c', -, -, hm, hc⟩ := h
  cases hc
  exact not_not.1 hm

theorem method_of_parse_eq_ok {c : PaymentCredentials}
    (h : parsePaymentAuthorization T headerValue = .ok c) : c.challenge.method = cashuMethod := by
  simp only [parsePaymentAuthorization_eq, bind_eq_ok_iff] at h
  obtain ⟨_, -, _, -, hc⟩ := h
  exact decodeCredentials_eq_ok hc

theorem decodeCredentials_ne_unknownScheme {rest : List Char} :
    decodeCredentials T rest ≠ .error .unknownScheme := by
  intro h
  simp only [decodeCredentials, bind_eq_error_iff, okOr_eq_error_iff, rejectIf_eq_error_iff] at h
  rcases h with ⟨-, h⟩ | ⟨_, -, ⟨-, h⟩ | ⟨_, -, ⟨-, h⟩ | ⟨_, -, ⟨-, h⟩ | ⟨_, -, h⟩⟩⟩⟩ <;> cases h

theorem parse_eq_unknownScheme_iff :
    parsePaymentAuthorization T headerValue = .error .unknownScheme ↔
      eqIgnoreAsciiCase (schemeOf headerValue) paymentScheme.toList = false := by
  rw [parsePaymentAuthorization_eq, bind_eq_error_iff, rejectIf_eq_error_iff]
  constructor
  · rintro (⟨h, -⟩ | ⟨_, -, h⟩)
    · exact h
    · rcases bind_eq_error_iff.1 h with h | ⟨_, -, h⟩
      · cases (rejectIf_eq_error_iff.1 h).2
      · exact absurd h decodeCredentials_ne_unknownScheme
  · exact fun h => .inl ⟨h, rfl⟩

end CdkPopVerifier
