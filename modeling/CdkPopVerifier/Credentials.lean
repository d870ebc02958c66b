import CdkPopVerifier.ParseAuthorization

/-!
# The credentials that a client sends

`encodePaymentCredentials` is undone by the parser, whatever the strings in the credentials are: the
JSON object is read back field by field, its bytes are UTF-8, and no character of the base64url text
is whitespace.
-/

namespace CdkPopVerifier

open Fallible Text JsonText

variable {B : Type} {T : Texts B}

/-! ## Characters -/

theorem isPrintable_of_isSymbol {c : Char} (h : Base64Url.IsSymbol c) : IsPrintable c := by
  rw [IsPrintable]
  rcases h with h | h | h | rfl | rfl
  · omega
  · omega
  · omega
  · decide
  · decide

theorem isWhitespace_of_isSymbol {c : Char} (h : Base64Url.IsSymbol c) : isWhitespace c = false := by
  rcases h with h | h | h | rfl | rfl
  · simp [isWhitespace]; omega
  · simp [isWhitespace]; omega
  · simp [isWhitespace]; omega
  · decide
  · decide

/-! ## Whitespace around the parts of the header -/

/-- A scheme, a space and a blob, with whitespace around them. -/
theorem schemeOf_blobOf_append {w₁ scheme w₂ blob w₃ : List Char} {c : Char}
    (hw₁ : ∀ c ∈ w₁, isWhitespace c = true) (hs : scheme ≠ [])
    (hscheme : ∀ c ∈ scheme, isWhitespace c = false) (hc : isAsciiWhitespace c = true)
    (hw₂ : ∀ c ∈ w₂, isWhitespace c = true) (hb : blob ≠ [])
    (hblob : ∀ c ∈ blob, isWhitespace c = false) (hw₃ : ∀ c ∈ w₃, isWhitespace c = true) :
    schemeOf (String.ofList (w₁ ++ (scheme ++ c :: (w₂ ++ blob)) ++ w₃)) = scheme ∧
      blobOf (String.ofList (w₁ ++ (scheme ++ c :: (w₂ ++ blob)) ++ w₃)) = blob := by
  have htrim : trim (w₁ ++ (scheme ++ c :: (w₂ ++ blob)) ++ w₃) = scheme ++ c :: (w₂ ++ blob) := by
    refine trim_append hw₁ (fun x hx => ?_) (fun x hx => ?_) hw₃
    · rw [List.head?_append_of_ne_nil _ hs] at hx
      exact hscheme x (List.mem_of_mem_head? hx)
    · rw [← List.cons_append, ← List.append_assoc, List.getLast?_append_of_ne_nil _ hb] at hx
      exact hblob x (List.mem_of_mem_getLast? hx)
  have hsplit : splitOnce isAsciiWhitespace (scheme ++ c :: (w₂ ++ blob)) =
      some (scheme, w₂ ++ blob) := by
    refine splitOnce_append (fun x hx => ?_) hc
    by_contra h
    simpa [hscheme x hx] using isWhitespace_of_isAsciiWhitespace (eq_true_of_ne_false h)
  rw [schemeOf, blobOf, String.toList_ofList, htrim, hsplit]
  refine ⟨takeWhile_eq_of_splitOnce hsplit, ?_⟩
  simpa using @trim_append_of_forall w₂ blob [] hw₂ hblob (by simp)

/-! ## The JSON object -/

theorem exists_reads_echoedChallenge (c : EchoedChallenge) :
    ∃ j, Reads c.toJson j ∧ EchoedChallenge.fromJson j = some c := by
  obtain ⟨j, hj, hf⟩ := Json.exists_reads_writeObject
    (.cons (reads_writeString c.id) <| .cons (reads_writeString c.realm) <|
      .cons (reads_writeString c.method) <| .cons (reads_writeString c.intent) <|
      .cons (reads_writeString c.request) .nil : List.Forall₂ (fun m v => Reads m.2 v)
        [("id", writeString c.id), ("realm", writeString c.realm),
          ("method", writeString c.method), ("intent", writeString c.intent),
          ("request", writeString c.request)] _)
    (List.cons_ne_nil _ _) (by simp)
  refine ⟨j, hj, ?_⟩
  simp only [List.map_cons, List.map_nil] at hf
  rw [EchoedChallenge.fromJson, hf]
  simp [Json.asString_string_escape]

theorem exists_reads_cashuPayload (p : CashuPayload) :
    ∃ j, Reads p.toJson j ∧ CashuPayload.fromJson j = some p := by
  obtain ⟨j, hj, hf⟩ := Json.exists_reads_writeObject
    (.cons (reads_writeString p.cashuToken) .nil : List.Forall₂ (fun m v => Reads m.2 v)
      [("cashu_token", writeString p.cashuToken)] _)
    (List.cons_ne_nil _ _) (by simp)
  refine ⟨j, hj, ?_⟩
  simp only [List.map_cons, List.map_nil] at hf
  rw [CashuPayload.fromJson, hf]
  simp [Json.asString_string_escape]

theorem parse_credentials (c : PaymentCredentials) :
    (parse c.toJson).bind PaymentCredentials.fromJson = some c := by
  obtain ⟨j₁, h₁, hc⟩ := exists_reads_echoedChallenge c.challenge
  obtain ⟨j₂, h₂, hp⟩ := exists_reads_cashuPayload c.payload
  obtain ⟨j, hj, hf⟩ := Json.exists_reads_writeObject
    (.cons h₁ (.cons h₂ .nil) : List.Forall₂ (fun m v => Reads m.2 v)
      [("challenge", c.challenge.toJson), ("payload", c.payload.toJson)] _)
    (List.cons_ne_nil _ _) (by simp)
  simp only [List.map_cons, List.map_nil] at hf
  rw [PaymentCredentials.toJson, parse_of_reads hj, Option.bind_some, PaymentCredentials.fromJson, hf]
  simp [hc, hp]

theorem isUtf8_credentials (c : PaymentCredentials) : IsUtf8 c.toJson := by
  have hobject (l : List (String × String)) :
      IsUtf8 (writeObject (l.map fun m => (m.1, writeString m.2))) := by
    refine isUtf8_writeObject fun m hm => ?_
    obtain ⟨m', -, rfl⟩ := List.mem_map.1 hm
    exact isUtf8_writeString _
  refine isUtf8_writeObject fun m hm => ?_
  simp only [List.mem_cons, List.not_mem_nil, or_false] at hm
  rcases hm with rfl | rfl
  · exact hobject [("id", _), ("realm", _), ("method", _), ("intent", _), ("request", _)]
  · exact hobject [("cashu_token", _)]

/-! ## The round trip -/

theorem encodePaymentCredentials_ne_nil (c : PaymentCredentials) :
    (encodePaymentCredentials c).toList ≠ [] := by
  intro h
  have hdec := Base64Url.decode_encode c.toJson
  rw [encodePaymentCredentials, String.toList_ofList] at h
  rw [h] at hdec
  cases hdec

theorem isSymbol_of_mem_encodePaymentCredentials {credentials : PaymentCredentials} {c : Char}
    (h : c ∈ (encodePaymentCredentials credentials).toList) : Base64Url.IsSymbol c := by
  rw [encodePaymentCredentials, String.toList_ofList] at h
  exact Base64Url.isSymbol_of_mem_encode h

/-- The credentials are read back, up to the check of the method. -/
theorem decodeCredentials_encode (c : PaymentCredentials) :
    decodeCredentials T (encodePaymentCredentials c).toList =
      if c.challenge.method = cashuMethod then .ok c
      else .error (.wrongMethod c.challenge.method) := by
  obtain ⟨s, hs⟩ := isUtf8_credentials c
  rw [decodeCredentials, encodePaymentCredentials, String.toList_ofList, Base64Url.decode_encode,
    ← hs]
  dsimp only [okOr, bind, Except.bind]
  rw [fromUtf8_utf8]
  dsimp only
  rw [hs, parse_credentials]
  by_cases hm : c.challenge.method = cashuMethod <;> simp [rejectIf, hm, pure, Except.pure]

/-- A header with the credentials, in any spacing and with the scheme in any letter case, is parsed up
to the check of the method. -/
theorem parse_spaced {w₁ scheme w₂ w₃ : String} (hw₁ : ∀ x ∈ w₁.toList, isWhitespace x = true)
    (hs : eqIgnoreAsciiCase scheme.toList paymentScheme.toList = true) (hne : w₂ ≠ "")
    (hw₂ : ∀ x ∈ w₂.toList, isAsciiWhitespace x = true)
    (hw₃ : ∀ x ∈ w₃.toList, isWhitespace x = true) (c : PaymentCredentials) :
    parsePaymentAuthorization T (w₁ ++ scheme ++ w₂ ++ encodePaymentCredentials c ++ w₃) =
      if c.challenge.method = cashuMethod then .ok c
      else .error (.wrongMethod c.challenge.method) := by
  obtain ⟨a, w, hcons⟩ := List.exists_cons_of_ne_nil (mt String.toList_eq_nil_iff.1 hne)
  rw [hcons, List.forall_mem_cons] at hw₂
  have hscheme : ∀ x ∈ scheme.toList, isWhitespace x = false :=
    isWhitespace_of_eqIgnoreAsciiCase hs (by decide)
  have hnil : scheme.toList ≠ [] := by
    intro h
    rw [h] at hs
    exact absurd hs (by decide)
  have hblob : ∀ x ∈ (encodePaymentCredentials c).toList, isWhitespace x = false := fun x hx =>
    isWhitespace_of_isSymbol (isSymbol_of_mem_encodePaymentCredentials hx)
  have hparts := schemeOf_blobOf_append hw₁ hnil hscheme hw₂.1
    (fun x hx => isWhitespace_of_isAsciiWhitespace (hw₂.2 x hx))
    (encodePaymentCredentials_ne_nil c) hblob hw₃
  have heq : String.ofList (w₁.toList ++ (scheme.toList ++ a ::
      (w ++ (encodePaymentCredentials c).toList)) ++ w₃.toList) =
        w₁ ++ scheme ++ w₂ ++ encodePaymentCredentials c ++ w₃ := by
    simp [← String.toList_inj, hcons]
  rw [heq] at hparts
  rw [parsePaymentAuthorization_eq, hparts.1, hparts.2, ← decodeCredentials_encode, rejectIf,
    if_neg (by simp [hs]), ok_bind, rejectIf, if_neg (encodePaymentCredentials_ne_nil c), ok_bind]

/-- The header of some credentials is parsed up to the check of the method. -/
theorem parse_payment_credentials (c : PaymentCredentials) :
    parsePaymentAuthorization T (paymentScheme ++ " " ++ encodePaymentCredentials c) =
      if c.challenge.method = cashuMethod then .ok c
      else .error (.wrongMethod c.challenge.method) := by
  have h := @parse_spaced _ T "" paymentScheme " " "" (by decide) (by decide) (by decide) (by decide)
    (by decide) c
  rwa [String.empty_append, String.append_empty] at h

/-- Parsing undoes encoding, whatever the spacing of the header and the letter case of its scheme, and
no two credentials are encoded alike. -/
theorem parse_encodePaymentCredentials (T : Texts B) :
    (∀ (w₁ scheme w₂ w₃ : String) (c : PaymentCredentials),
      (∀ x ∈ w₁.toList, isWhitespace x = true) →
      eqIgnoreAsciiCase scheme.toList paymentScheme.toList = true →
      w₂ ≠ "" → (∀ x ∈ w₂.toList, isAsciiWhitespace x = true) →
      (∀ x ∈ w₃.toList, isWhitespace x = true) →
        parsePaymentAuthorization T (w₁ ++ scheme ++ w₂ ++ encodePaymentCredentials c ++ w₃) =
          if c.challenge.method = cashuMethod then .ok c
          else .error (.wrongMethod c.challenge.method)) ∧
    Function.Injective encodePaymentCredentials := by
  constructor
  · intro w₁ scheme w₂ w₃ c hw₁ hs hne hw₂ hw₃
    exact parse_spaced hw₁ hs hne hw₂ hw₃ c
  · intro c c' h
    have hjson : some c.toJson = some c'.toJson := by
      rw [← Base64Url.decode_encode, ← Base64Url.decode_encode, String.ofList_injective h]
    have hparse := parse_credentials c
    rw [Option.some.inj hjson, parse_credentials] at hparse
    exact (Option.some.inj hparse).symm

end CdkPopVerifier
