import CdkPopVerifier.Credentials
import CdkPopVerifier.Lib.AuthParams
import CdkPopVerifier.Reference

/-!
# The header of the challenge

The envelope around the payment request is read back whatever the request is, and every character of
the header is visible ASCII or a space.  A reader of the header finds exactly the five parameters
that were written, whatever the requirement is.
-/

namespace CdkPopVerifier

open Fallible Text JsonText AuthParams

section

variable {B Token : Type} {T : Texts B} {C : Cashu B Token}

/-! ## The envelope -/

theorem parse_envelope (e : RequestEnvelope) :
    (parse e.toJson).bind RequestEnvelope.fromJson = some e := by
  obtain ⟨j, hj, hf⟩ := Json.exists_reads_writeObject
    (.cons (reads_writeString e.cashuRequest) .nil : List.Forall₂ (fun m v => Reads m.2 v)
      [("cashu_request", writeString e.cashuRequest)] _)
    (List.cons_ne_nil _ _) (by simp)
  rw [List.map_singleton] at hf
  rw [RequestEnvelope.toJson, parse_of_reads hj, Option.bind_some, RequestEnvelope.fromJson, hf]
  simp [Json.asString_string_escape]

/-- Decoding undoes encoding, with whitespace around it. -/
theorem decodeRequestEnvelope_append {w w' : String} (hw : ∀ c ∈ w.toList, isWhitespace c = true)
    (hw' : ∀ c ∈ w'.toList, isWhitespace c = true) (s : String) :
    decodeRequestEnvelope T (w ++ encodeRequestEnvelope s ++ w') = .ok s := by
  have htrim : trim (w ++ encodeRequestEnvelope s ++ w').toList =
      Base64Url.encode (RequestEnvelope.toJson ⟨s⟩) := by
    rw [String.toList_append, String.toList_append, encodeRequestEnvelope, String.toList_ofList]
    exact trim_append_of_forall hw
      (fun c hc => isWhitespace_of_isSymbol (Base64Url.isSymbol_of_mem_encode hc)) hw'
  rw [decodeRequestEnvelope, htrim, Base64Url.decode_encode]
  dsimp only [okOr, bind, Except.bind]
  rw [parse_envelope]
  rfl

/-! ## The text of a UUID -/

theorem isSymbol_digitChar {n : ℕ} (h : n < 16) : Base64Url.IsSymbol (Nat.digitChar n) := by
  have key : ∀ n : Fin 16, (Base64Url.sextet (Nat.digitChar n)).isSome = true := by decide
  exact (Base64Url.isSymbol_iff_sextet _).2 (key ⟨n, h⟩)

/-- The characters of a UUID are hexadecimal digits and hyphens. -/
theorem isSymbol_of_mem_uuid {uuid : Uuid} {c : Char} (h : c ∈ uuid.toString.toList) :
    Base64Url.IsSymbol c := by
  have hdigits : ∀ i n, c ∈ uuid.digits i n → Base64Url.IsSymbol c := by
    intro i n hc
    obtain ⟨j, -, rfl⟩ := List.mem_map.1 hc
    exact isSymbol_digitChar (Nat.mod_lt _ (by decide))
  have hhyphen : c = '-' → Base64Url.IsSymbol c := fun he => .inr (.inr (.inr (.inl he)))
  simp only [Uuid.toString, String.toList_ofList, List.mem_append, List.mem_cons] at h
  rcases h with (((h | h | h) | h | h) | h | h) | h | h
  all_goals first | exact hhyphen h | exact hdigits _ _ h

/-! ## The header -/

/-- The parameters of the challenge. -/
def challengeParams (C : Cashu B Token) (uuid : Uuid) (requirement : PopRequirement B) :
    List Param :=
  [("id".toList, uuid.toString.toList), ("realm".toList, defaultRealm.toList),
    ("method".toList, cashuMethod.toList), ("intent".toList, intentCharge.toList),
    ("request".toList, (encodeRequestEnvelope (encodeChallenge C requirement)).toList)]

theorem toList_challengeHeader (uuid : Uuid) (requirement : PopRequirement B) :
    (challengeHeader C uuid requirement).toList =
      writeChallenge paymentScheme.toList (challengeParams C uuid requirement) := by
  simp [challengeHeader, writeChallenge, challengeParams, writeParams, writeParam, cashuMethod]

theorem isSymbol_of_mem_envelope {s : String} {c : Char}
    (h : c ∈ (encodeRequestEnvelope s).toList) : Base64Url.IsSymbol c := by
  rw [encodeRequestEnvelope, String.toList_ofList] at h
  exact Base64Url.isSymbol_of_mem_encode h

theorem not_isSymbol_quote : ¬ Base64Url.IsSymbol '"' := by
  rw [Base64Url.isSymbol_iff_sextet]
  decide

theorem writable_challengeParams (uuid : Uuid) (requirement : PopRequirement B) :
    ∀ p ∈ challengeParams C uuid requirement, Writable p := by
  intro p hp
  simp only [challengeParams, List.mem_cons, List.not_mem_nil, or_false] at hp
  rcases hp with rfl | rfl | rfl | rfl | rfl
  · refine ⟨show IsToken "id".toList by decide, ?_⟩
    dsimp only
    exact fun h => not_isSymbol_quote (isSymbol_of_mem_uuid h)
  · exact ⟨by decide, by decide⟩
  · exact ⟨by decide, by decide⟩
  · exact ⟨by decide, by decide⟩
  · refine ⟨show IsToken "request".toList by decide, ?_⟩
    dsimp only
    exact fun h => not_isSymbol_quote (isSymbol_of_mem_envelope h)

/-- The header is one that `HeaderValue::from_str` accepts, whatever the requirement is. -/
theorem isPrintable_of_mem_challengeHeader {uuid : Uuid} {requirement : PopRequirement B} :
    ∀ c ∈ (challengeHeader C uuid requirement).toList, IsPrintable c := by
  have hparams : ∀ c ∈ writeParams (challengeParams C uuid requirement), IsPrintable c := by
    refine forall_mem_writeParams (by decide) fun p hp c hc => ?_
    simp only [challengeParams, List.mem_cons, List.not_mem_nil, or_false] at hp
    rcases hp with rfl | rfl | rfl | rfl | rfl <;> dsimp only at hc
    · rcases List.mem_append.1 hc with hc | hc
      · exact (by decide : ∀ c ∈ "id".toList, IsPrintable c) c hc
      · exact isPrintable_of_isSymbol (isSymbol_of_mem_uuid hc)
    · exact (by decide : ∀ c ∈ "realm".toList ++ defaultRealm.toList, IsPrintable c) c hc
    · exact (by decide : ∀ c ∈ "method".toList ++ cashuMethod.toList, IsPrintable c) c hc
    · exact (by decide : ∀ c ∈ "intent".toList ++ intentCharge.toList, IsPrintable c) c hc
    · rcases List.mem_append.1 hc with hc | hc
      · exact (by decide : ∀ c ∈ "request".toList, IsPrintable c) c hc
      · exact isPrintable_of_isSymbol (isSymbol_of_mem_envelope hc)
  intro c hc
  rw [toList_challengeHeader, writeChallenge] at hc
  rcases List.mem_append.1 hc with hc | hc
  · exact (by decide : ∀ c ∈ paymentScheme.toList, IsPrintable c) c hc
  · rcases List.mem_cons.1 hc with rfl | hc
    · decide
    · exact hparams c hc

/-- The header has the five parameters in this order and no other.  Its method is the one that the
parser of the credentials asks for, and its request is the envelope of the payment request, which is
read back whatever is written in it and whatever whitespace surrounds it. -/
theorem readChallenge_challengeHeader :
    (∀ (uuid : Uuid) (requirement : PopRequirement B), ∃ request : String,
      readChallenge (challengeHeader C uuid requirement).toList =
        some (paymentScheme.toList,
          [("id".toList, uuid.toString.toList), ("realm".toList, defaultRealm.toList),
            ("method".toList, cashuMethod.toList), ("intent".toList, intentCharge.toList),
            ("request".toList, request.toList)]) ∧
      decodeRequestEnvelope C.toTexts request = .ok (encodeChallenge C requirement)) ∧
    (∀ c : PaymentCredentials, c.challenge.method = cashuMethod →
      parsePaymentAuthorization C.toTexts (paymentScheme ++ " " ++ encodePaymentCredentials c) =
        .ok c) ∧
    ∀ w s w' : String, (∀ c ∈ w.toList, isWhitespace c = true) →
      (∀ c ∈ w'.toList, isWhitespace c = true) →
        decodeRequestEnvelope C.toTexts (w ++ encodeRequestEnvelope s ++ w') = .ok s := by
  refine ⟨fun uuid requirement => ?_, fun c hm => ?_, fun w s w' hw hw' => ?_⟩
  · refine ⟨encodeRequestEnvelope (encodeChallenge C requirement), ?_, ?_⟩
    · rw [toList_challengeHeader]
      exact readChallenge_writeChallenge (by decide) (List.cons_ne_nil _ _)
        (writable_challengeParams uuid requirement)
    · simpa using @decodeRequestEnvelope_append _ C.toTexts "" "" (by simp) (by simp)
        (encodeChallenge C requirement)
  · rw [parse_payment_credentials, if_pos hm]
  · exact decodeRequestEnvelope_append hw hw' s

end

namespace Reference

theorem decodeRequestEnvelope_lines :
    parsePaymentAuthorization (cashu []).toTexts
        (paymentScheme ++ " " ++ encodePaymentCredentials (credentials "cashuB")) =
      .ok (credentials "cashuB") ∧
    decodeRequestEnvelope (cashu []).toTexts ("\t " ++ encodeRequestEnvelope "say \"hi\"\n" ++ "\n") =
      .ok "say \"hi\"\n" :=
  ⟨(@readChallenge_challengeHeader _ _ (cashu [])).2.1 _ rfl,
    (@readChallenge_challengeHeader _ _ (cashu [])).2.2 _ _ _ (by decide) (by decide)⟩

end Reference

end CdkPopVerifier
