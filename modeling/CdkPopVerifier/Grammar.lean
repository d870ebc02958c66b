import CdkPopVerifier.Lib.JsonGrammar
import CdkPopVerifier.Lib.JsonRecord
import CdkPopVerifier.Reference

/-!
# The grammar of the `Authorization` header

The documented grammar of the header: a scheme, whitespace and the base64url of a JSON text with the
two objects of the credentials.  The parser accepts this grammar with a different spelling of the
records: each of the three may also be an array, and in an object the names of all members must be
decoded.  So it follows the documentation on the headers in which neither of this occurs, or both.
-/

namespace CdkPopVerifier

open Fallible Text JsonText

/-! ## The grammar -/

/-- How a JSON value spells the record with the given fields. -/
abbrev Spelling : Type := Json → List (String × Json) → Prop

def EchoedChallenge.entries (c : EchoedChallenge) : List (String × String) :=
  [("id", c.id), ("realm", c.realm), ("method", c.method), ("intent", c.intent),
    ("request", c.request)]

def CashuPayload.entries (p : CashuPayload) : List (String × String) :=
  [("cashu_token", p.cashuToken)]

/-- The value spells a record of strings. -/
def SpellsStrings (R : Spelling) (j : Json) (fs : List (String × String)) : Prop :=
  ∃ vs, R j ((fs.map Prod.fst).zip vs) ∧ vs.map Json.asString = fs.map fun f => some f.2

/-- The value `j` spells the credentials, and `jc` and `jp` in it the challenge and the payload. -/
structure SpellsCredentials (R : Spelling) (c : PaymentCredentials) (j jc jp : Json) : Prop where
  credentials : R j [("challenge", jc), ("payload", jp)]
  challenge : SpellsStrings R jc c.challenge.entries
  payload : SpellsStrings R jp c.payload.entries

/-- A header value: the scheme in any letter case, whitespace and the blob. -/
def HasBlob (headerValue : String) (blob : List Char) : Prop :=
  ∃ w₁ scheme a w₂ w₃, headerValue.toList = w₁ ++ (scheme ++ a :: (w₂ ++ blob)) ++ w₃ ∧
    (∀ c ∈ w₁, isWhitespace c = true) ∧ eqIgnoreAsciiCase scheme paymentScheme.toList = true ∧
    isAsciiWhitespace a = true ∧ (∀ c ∈ w₂, isWhitespace c = true) ∧
    ∀ c ∈ w₃, isWhitespace c = true

/-- The blob of the header value is the text of the credentials `c`. -/
def Carries (R : Spelling) (headerValue : String) (c : PaymentCredentials) : Prop :=
  ∃ text j jc jp, HasBlob headerValue (Base64Url.encode (utf8 text)) ∧ IsText (utf8 text) j ∧
    SpellsCredentials R c j jc jp

/-- A header value with the credentials `c`, which are for the method `cashu`. -/
def IsHeader (R : Spelling) (headerValue : String) (c : PaymentCredentials) : Prop :=
  Carries R headerValue c ∧ c.challenge.method = cashuMethod

/-! ## The stages -/

/-- What is checked of a header value, one after the other. -/
inductive Stage where
  | scheme
  | blob
  | base64url
  | utf8
  | json
  | method
  deriving DecidableEq

/-- The stages in front of a stage. -/
def Stage.before (s : Stage) : List Stage :=
  [scheme, blob, base64url, utf8, json, method].takeWhile (· ≠ s)

/-- The stage that an error is for. -/
def AuthParseError.stage : AuthParseError → Stage
  | .unknownScheme => .scheme
  | .missingCredentials => .blob
  | .base64Decode _ => .base64url
  | .utf8Decode _ => .utf8
  | .jsonParse _ => .json
  | .wrongMethod _ => .method

/-- The header value passes a stage. -/
def Passes (R : Spelling) (headerValue : String) : Stage → Prop
  | .scheme => eqIgnoreAsciiCase (schemeOf headerValue) paymentScheme.toList = true
  | .blob => blobOf headerValue ≠ []
  | .base64url => ∃ bytes, blobOf headerValue = Base64Url.encode bytes
  | .utf8 => ∃ text, blobOf headerValue = Base64Url.encode (utf8 text)
  | .json => ∃ c, Carries R headerValue c
  | .method => ∃ c, IsHeader R headerValue c

/-- The stage is the first one that the header value does not pass. -/
def FirstFailure (R : Spelling) (headerValue : String) (s : Stage) : Prop :=
  ¬ Passes R headerValue s ∧ ∀ s' ∈ s.before, Passes R headerValue s'

section

variable {B : Type} (T : Texts B) (R : Spelling) (headerValue : String)

/-- The parser accepts the header value exactly with the credentials that the grammar has for it, and
names the first stage that fails otherwise. -/
def Conforms : Prop :=
  (∀ c, parsePaymentAuthorization T headerValue = .ok c ↔ IsHeader R headerValue c) ∧
    ∀ e, parsePaymentAuthorization T headerValue = .error e → FirstFailure R headerValue e.stage

/-- In a blob with the credentials, written as objects or arrays, the names of all members can be
decoded exactly when no array is used. -/
def PlainObjects : Prop :=
  ∀ text j c jc jp, HasBlob headerValue (Base64Url.encode (utf8 text)) → IsText (utf8 text) j →
    SpellsCredentials Json.HasFields c j jc jp →
      ((∀ v ∈ [j, jc, jp], ∀ items, v ≠ .array items) ↔ ∀ v ∈ [j, jc, jp], v.NamesDecode)

end

/-! ## Records -/

theorem spellsStrings_isRecord_iff {j : Json} {fs : List (String × String)} :
    SpellsStrings Json.IsRecord j fs ↔ ∃ vs, j.fields (fs.map Prod.fst) = some vs ∧
      vs.map Json.asString = fs.map fun f => some f.2 := by
  unfold SpellsStrings
  apply exists_congr
  intro vs
  refine and_congr_left fun hvs => ?_
  have hlen : (fs.map Prod.fst).length = vs.length := by
    simpa using (congrArg List.length hvs).symm
  rw [← Json.fields_eq_some_iff, List.map_fst_zip (Nat.le_of_eq hlen),
    List.map_snd_zip (Nat.le_of_eq hlen.symm)]

theorem EchoedChallenge.fromJson_eq_some_iff {j : Json} {c : EchoedChallenge} :
    fromJson j = some c ↔ SpellsStrings Json.IsRecord j c.entries := by
  obtain ⟨id, realm, method, intent, request⟩ := c
  rw [spellsStrings_isRecord_iff]
  simp only [entries, List.map_cons, List.map_nil]
  rcases hf : j.fields ["id", "realm", "method", "intent", "request"] with _ | vs
  · simp [fromJson, hf]
  · rcases vs with _ | ⟨v₁, _ | ⟨v₂, _ | ⟨v₃, _ | ⟨v₄, _ | ⟨v₅, _ | ⟨v₆, vs⟩⟩⟩⟩⟩⟩ <;>
      simp [fromJson, hf, Option.bind_eq_some_iff]

theorem CashuPayload.fromJson_eq_some_iff {j : Json} {p : CashuPayload} :
    fromJson j = some p ↔ SpellsStrings Json.IsRecord j p.entries := by
  obtain ⟨cashuToken⟩ := p
  rw [spellsStrings_isRecord_iff]
  simp only [entries, List.map_cons, List.map_nil]
  rcases hf : j.fields ["cashu_token"] with _ | vs
  · simp [fromJson, hf]
  · obtain ⟨v, rfl⟩ := List.length_eq_one_iff.1 (Json.length_of_fields_eq_some hf).symm
    simp [fromJson, hf, Option.bind_eq_some_iff]

theorem PaymentCredentials.fromJson_eq_some_iff {j : Json} {c : PaymentCredentials} :
    fromJson j = some c ↔ ∃ jc jp, SpellsCredentials Json.IsRecord c j jc jp := by
  obtain ⟨challenge, payload⟩ := c
  have hfields (jc jp : Json) : j.fields ["challenge", "payload"] = some [jc, jp] ↔
      Json.IsRecord j [("challenge", jc), ("payload", jp)] :=
    @Json.fields_eq_some_iff j [("challenge", jc), ("payload", jp)]
  constructor
  · intro h
    rcases hf : j.fields ["challenge", "payload"] with _ | vs
    · simp [fromJson, hf] at h
    obtain ⟨jc, jp, rfl⟩ := List.length_eq_two.1 (Json.length_of_fields_eq_some hf).symm
    simp only [fromJson, hf, Option.bind_eq_bind, Option.bind_some, Option.bind_eq_some_iff] at h
    obtain ⟨c, hc, p, hp, h⟩ := h
    cases h
    exact ⟨jc, jp, (hfields jc jp).1 hf, EchoedChallenge.fromJson_eq_some_iff.1 hc,
      CashuPayload.fromJson_eq_some_iff.1 hp⟩
  · rintro ⟨jc, jp, hj, hc, hp⟩
    have hc := EchoedChallenge.fromJson_eq_some_iff.2 hc
    have hp := CashuPayload.fromJson_eq_some_iff.2 hp
    simp only at hc hp
    rw [fromJson, (hfields jc jp).2 hj]
    simp [hc, hp]

/-! ## The parts of the header -/

theorem encode_utf8_ne_nil {text : String} {j : Json} (h : IsText (utf8 text) j) :
    Base64Url.encode (utf8 text) ≠ [] := by
  intro hnil
  have hdec := Base64Url.decode_encode (utf8 text)
  rw [hnil] at hdec
  obtain ⟨w, t, w', ht, -, hv, -⟩ := h
  obtain ⟨c, l, rfl, -⟩ := hv.exists_cons
  rw [← Option.some.inj hdec] at ht
  simp at ht

/-- The two parts that the parser looks at. -/
theorem hasBlob_iff {headerValue : String} {blob : List Char} (hne : blob ≠ [])
    (hblob : ∀ c ∈ blob, isWhitespace c = false) : HasBlob headerValue blob ↔
      eqIgnoreAsciiCase (schemeOf headerValue) paymentScheme.toList = true ∧
        blobOf headerValue = blob := by
  constructor
  · rintro ⟨w₁, scheme, a, w₂, w₃, hl, hw₁, hs, ha, hw₂, hw₃⟩
    have hscheme : ∀ c ∈ scheme, isWhitespace c = false :=
      isWhitespace_of_eqIgnoreAsciiCase hs (by decide)
    have hnil : scheme ≠ [] := by
      rintro rfl
      exact absurd hs (by decide)
    have hparts := schemeOf_blobOf_append hw₁ hnil hscheme ha hw₂ hne hblob hw₃
    rw [← hl, String.ofList_toList] at hparts
    rw [hparts.1]
    exact ⟨hs, hparts.2⟩
  · rintro ⟨hs, rfl⟩
    obtain ⟨w, w', hl, hw, hw'⟩ := exists_append_trim headerValue.toList
    rcases hsplit : splitOnce isAsciiWhitespace (trim headerValue.toList) with _ | ⟨scheme, rest⟩
    · rw [blobOf, hsplit] at hne
      exact absurd rfl hne
    · have hscheme : schemeOf headerValue = scheme := takeWhile_eq_of_splitOnce hsplit
      have hrest : blobOf headerValue = trim rest := by rw [blobOf, hsplit]
      obtain ⟨a, htrim, ha⟩ := exists_of_splitOnce_eq_some hsplit
      obtain ⟨v, v', hr, hv, hv'⟩ := exists_append_trim rest
      refine ⟨w, scheme, a, v, v' ++ w', ?_, hw, hscheme ▸ hs, ha, hv, ?_⟩
      · rw [hl, htrim, hrest]
        conv_lhs => rw [hr]
        simp
      · intro c hc
        exact (List.mem_append.1 hc).elim (hv' c) (hw' c)

/-- The grammar in terms of these parts. -/
theorem hasBlob_encode_iff {headerValue text : String} {j : Json} (hj : IsText (utf8 text) j) :
    HasBlob headerValue (Base64Url.encode (utf8 text)) ↔
      eqIgnoreAsciiCase (schemeOf headerValue) paymentScheme.toList = true ∧
        blobOf headerValue = Base64Url.encode (utf8 text) :=
  hasBlob_iff (encode_utf8_ne_nil hj) fun _ hx =>
    isWhitespace_of_isSymbol (Base64Url.isSymbol_of_mem_encode hx)

theorem encode_utf8_injective {text text' : String}
    (h : Base64Url.encode (utf8 text) = Base64Url.encode (utf8 text')) : text = text' := by
  have hdec := Base64Url.decode_encode (utf8 text)
  rw [h, Base64Url.decode_encode, Option.some_inj] at hdec
  have htext := fromUtf8_utf8 text
  rw [← hdec, fromUtf8_utf8] at htext
  exact (Option.some.inj htext).symm

/-! ## What the parser accepts -/

section

variable {B : Type} {T : Texts B} {headerValue : String} {c : PaymentCredentials}

/-- What the parser makes of the text in the blob. -/
theorem carries_isRecord_iff {text : String}
    (hs : eqIgnoreAsciiCase (schemeOf headerValue) paymentScheme.toList = true)
    (hb : blobOf headerValue = Base64Url.encode (utf8 text)) :
    Carries Json.IsRecord headerValue c ↔
      (parse (utf8 text)).bind PaymentCredentials.fromJson = some c := by
  simp only [Option.bind_eq_some_iff, parse_eq_some_iff, PaymentCredentials.fromJson_eq_some_iff]
  constructor
  · rintro ⟨text', j, jc, jp, hb', hj, hc⟩
    obtain rfl := encode_utf8_injective (hb.symm.trans ((hasBlob_encode_iff hj).1 hb').2)
    exact ⟨j, hj, jc, jp, hc⟩
  · rintro ⟨j, hj, jc, jp, hc⟩
    exact ⟨text, j, jc, jp, (hasBlob_encode_iff hj).2 ⟨hs, hb⟩, hj, hc⟩

theorem blob_eq_of_decode {blob : List Char} {bytes : List UInt8} {text : String}
    (hb : Base64Url.decode blob = some bytes) (ht : fromUtf8 bytes = some text) :
    blob = Base64Url.encode (utf8 text) := by
  rw [fromUtf8_eq_some_iff.1 ht, Base64Url.decode_eq_some_iff.1 hb]

theorem parse_eq_ok_iff : parsePaymentAuthorization T headerValue = .ok c ↔
    IsHeader Json.IsRecord headerValue c := by
  rw [IsHeader, parsePaymentAuthorization_eq]
  simp only [decodeCredentials, bind_eq_ok_iff, rejectIf_eq_ok_iff, okOr_eq_ok_iff]
  constructor
  · rintro ⟨_, hs, _, -, bytes, hb, text, ht, c', hc, _, hm, hc'⟩
    cases hc'
    have hs := eq_true_of_ne_false hs
    exact ⟨(carries_isRecord_iff hs (blob_eq_of_decode hb ht)).2 hc, not_not.1 hm⟩
  · rintro ⟨hcarries, hm⟩
    obtain ⟨text, j, -, -, hb, hj, -⟩ := id hcarries
    obtain ⟨hs, hb⟩ := (hasBlob_encode_iff hj).1 hb
    refine ⟨(), by simp [hs], (), ?_, utf8 text, ?_, text, fromUtf8_utf8 text, c,
      (carries_isRecord_iff hs hb).1 hcarries, (), not_not.2 hm, rfl⟩
    · rw [hb]
      exact encode_utf8_ne_nil hj
    · rw [hb, Base64Url.decode_encode]

theorem firstFailure_of_parse_eq_error {e : AuthParseError}
    (h : parsePaymentAuthorization T headerValue = .error e) :
    FirstFailure Json.IsRecord headerValue e.stage := by
  simp only [parsePaymentAuthorization_eq, decodeCredentials, bind_eq_error_iff,
    rejectIf_eq_error_iff, rejectIf_eq_ok_iff, okOr_eq_error_iff, okOr_eq_ok_iff] at h
  unfold FirstFailure
  rcases h with ⟨hs, rfl⟩ | ⟨_, hs, ⟨hb, rfl⟩ | ⟨_, hb, ⟨hdec, rfl⟩ | ⟨bytes, hdec, ⟨hu, rfl⟩ |
    ⟨text, hu, h⟩⟩⟩⟩
  · simp [AuthParseError.stage, Stage.before, Passes, hs]
  · simp [AuthParseError.stage, Stage.before, Passes, hs, hb]
  · have hnot : ¬ ∃ bytes, blobOf headerValue = Base64Url.encode bytes := by
      rintro ⟨bytes, hbytes⟩
      rw [hbytes, Base64Url.decode_encode] at hdec
      cases hdec
    simp [AuthParseError.stage, Stage.before, Passes, hs, hb, hnot]
  · have hbytes : ∃ bytes, blobOf headerValue = Base64Url.encode bytes :=
      ⟨bytes, (Base64Url.decode_eq_some_iff.1 hdec).symm⟩
    have hnot : ¬ ∃ text, blobOf headerValue = Base64Url.encode (utf8 text) := by
      rintro ⟨text, htext⟩
      rw [htext, Base64Url.decode_encode] at hdec
      cases hdec
      rw [fromUtf8_utf8] at hu
      cases hu
    simp [AuthParseError.stage, Stage.before, Passes, hs, hb, hbytes, hnot]
  · have hblob := blob_eq_of_decode hdec hu
    have hbytes : ∃ bytes, blobOf headerValue = Base64Url.encode bytes := ⟨_, hblob⟩
    have htext : ∃ text, blobOf headerValue = Base64Url.encode (utf8 text) := ⟨_, hblob⟩
    have hcarries (c : PaymentCredentials) : Carries Json.IsRecord headerValue c ↔
        (parse (utf8 text)).bind PaymentCredentials.fromJson = some c :=
      carries_isRecord_iff (eq_true_of_ne_false hs) hblob
    rcases h with ⟨hj, rfl⟩ | ⟨c, hj, ⟨hm, rfl⟩ | ⟨_, -, hc⟩⟩
    · have hnot : ¬ ∃ c, Carries Json.IsRecord headerValue c := by
        simp only [hcarries, hj]
        simp
      simp [AuthParseError.stage, Stage.before, Passes, hs, hb, hbytes, htext, hnot]
    · have hjson : ∃ c, Carries Json.IsRecord headerValue c := ⟨c, (hcarries c).2 hj⟩
      have hnot : ¬ ∃ c, IsHeader Json.IsRecord headerValue c := by
        simpa only [IsHeader, hcarries, hj, Option.some.injEq, exists_eq_left'] using hm
      simp [AuthParseError.stage, Stage.before, Passes, hs, hb, hbytes, htext, hjson, hnot]
    · cases hc

/-- The parser follows the grammar with the records that a deserializer reads. -/
theorem conforms_isRecord : Conforms T Json.IsRecord headerValue :=
  ⟨fun _ => parse_eq_ok_iff, fun _ => firstFailure_of_parse_eq_error⟩

/-! ## Two spellings of the records -/

theorem SpellsStrings.unique {j : Json} {fs fs' : List (String × String)}
    (h : SpellsStrings Json.HasFields j fs) (h' : SpellsStrings Json.HasFields j fs')
    (hnames : fs.map Prod.fst = fs'.map Prod.fst) : fs = fs' := by
  obtain ⟨vs, hj, hvs⟩ := h
  obtain ⟨vs', hj', hvs'⟩ := h'
  have hlen : (fs.map Prod.fst).length = vs.length := by
    simpa using (congrArg List.length hvs).symm
  have hlen' : (fs'.map Prod.fst).length = vs'.length := by
    simpa using (congrArg List.length hvs').symm
  have hzip := hj.unique hj' (by
    rw [List.map_fst_zip (Nat.le_of_eq hlen), List.map_fst_zip (Nat.le_of_eq hlen'), hnames])
  have hvalues := congrArg (List.map Prod.snd) hzip
  rw [List.map_snd_zip (Nat.le_of_eq hlen.symm), List.map_snd_zip (Nat.le_of_eq hlen'.symm)]
    at hvalues
  apply Json.eq_of_map_eq hnames
  apply List.map_injective_iff.2 (Option.some_injective String)
  rw [List.map_map, List.map_map]
  exact (hvs.symm.trans (congrArg _ hvalues)).trans hvs'

/-- A value spells credentials in one way only. -/
theorem SpellsCredentials.unique {c c' : PaymentCredentials} {j jc jp jc' jp' : Json}
    (h : SpellsCredentials Json.HasFields c j jc jp)
    (h' : SpellsCredentials Json.HasFields c' j jc' jp') : c = c' ∧ jc = jc' ∧ jp = jp' := by
  obtain ⟨⟨id, realm, method, intent, request⟩, ⟨cashuToken⟩⟩ := c
  obtain ⟨⟨id', realm', method', intent', request'⟩, ⟨cashuToken'⟩⟩ := c'
  have hfields := h.credentials.unique h'.credentials rfl
  obtain ⟨rfl, rfl⟩ : jc = jc' ∧ jp = jp' := by simpa using hfields
  have hchallenge := h.challenge.unique h'.challenge rfl
  have hpayload := h.payload.unique h'.payload rfl
  simp only [EchoedChallenge.entries, CashuPayload.entries] at hchallenge hpayload
  simp_all

/-- Objects and arrays with a property. -/
theorem spellsCredentials_iff {R : Spelling} {P : Json → Prop}
    (hR : ∀ j fs, R j fs ↔ P j ∧ Json.HasFields j fs) {j jc jp : Json} :
    SpellsCredentials R c j jc jp ↔
      (∀ v ∈ [j, jc, jp], P v) ∧ SpellsCredentials Json.HasFields c j jc jp := by
  have hstrings (j : Json) (fs : List (String × String)) :
      SpellsStrings R j fs ↔ P j ∧ SpellsStrings Json.HasFields j fs := by
    simp only [SpellsStrings, hR, and_assoc, exists_and_left]
  constructor
  · rintro ⟨hj, hc, hp⟩
    rw [hR] at hj
    rw [hstrings] at hc hp
    exact ⟨by simp [hj.1, hc.1, hp.1], hj.2, hc.2, hp.2⟩
  · rintro ⟨hP, hj, hc, hp⟩
    simp only [List.forall_mem_cons] at hP
    exact ⟨(hR _ _).2 ⟨hP.1, hj⟩, (hstrings _ _).2 ⟨hP.2.1, hc⟩, (hstrings _ _).2 ⟨hP.2.2.1, hp⟩⟩

/-- A header value carries credentials in one way only. -/
theorem hasBlob_unique {text text' : String} {c' : PaymentCredentials} {j jc jp j' jc' jp' : Json}
    (hb : HasBlob headerValue (Base64Url.encode (utf8 text))) (hj : IsText (utf8 text) j)
    (hc : SpellsCredentials Json.HasFields c j jc jp)
    (hb' : HasBlob headerValue (Base64Url.encode (utf8 text'))) (hj' : IsText (utf8 text') j')
    (hc' : SpellsCredentials Json.HasFields c' j' jc' jp') :
    c = c' ∧ j = j' ∧ jc = jc' ∧ jp = jp' := by
  have hblob := ((hasBlob_encode_iff hj).1 hb).2
  rw [((hasBlob_encode_iff hj').1 hb').2] at hblob
  obtain rfl := encode_utf8_injective hblob
  rw [← parse_eq_some_iff] at hj hj'
  obtain rfl := Option.some.inj (hj.symm.trans hj')
  obtain ⟨rfl, rfl, rfl⟩ := hc.unique hc'
  exact ⟨rfl, rfl, rfl, rfl⟩

theorem passes_congr {R R' : Spelling}
    (h : ∀ c, Carries R headerValue c ↔ Carries R' headerValue c) (s : Stage) :
    Passes R headerValue s ↔ Passes R' headerValue s := by
  cases s <;> simp only [Passes, IsHeader, h]

theorem Carries.passes {R : Spelling} (h : Carries R headerValue c) {s : Stage}
    (hs : s ≠ .method) : Passes R headerValue s := by
  obtain ⟨text, j, jc, jp, hb, hj, hc⟩ := id h
  obtain ⟨hscheme, hblob⟩ := (hasBlob_encode_iff hj).1 hb
  cases s with
  | scheme => exact hscheme
  | blob =>
    rw [Passes, hblob]
    exact encode_utf8_ne_nil hj
  | base64url => exact ⟨_, hblob⟩
  | utf8 => exact ⟨_, hblob⟩
  | json => exact ⟨c, h⟩
  | method => exact absurd rfl hs

theorem Carries.unique {R R' : Spelling} {P P' : Json → Prop}
    (hR : ∀ j fs, R j fs ↔ P j ∧ Json.HasFields j fs)
    (hR' : ∀ j fs, R' j fs ↔ P' j ∧ Json.HasFields j fs) {c' : PaymentCredentials}
    (h : Carries R headerValue c) (h' : Carries R' headerValue c') : c = c' := by
  obtain ⟨text, j, jc, jp, hb, hj, hc⟩ := h
  obtain ⟨text', j', jc', jp', hb', hj', hc'⟩ := h'
  exact (hasBlob_unique hb hj ((spellsCredentials_iff hR).1 hc).2 hb' hj'
    ((spellsCredentials_iff hR').1 hc').2).1

/-- Credentials in one of two spellings are also in the other one if the parser follows both. -/
theorem carries_of_conforms {R R' : Spelling} {P P' : Json → Prop}
    (hR : ∀ j fs, R j fs ↔ P j ∧ Json.HasFields j fs)
    (hR' : ∀ j fs, R' j fs ↔ P' j ∧ Json.HasFields j fs) (h : Conforms T R headerValue)
    (h' : Conforms T R' headerValue) (hc : Carries R headerValue c) : Carries R' headerValue c := by
  rcases hparse : parsePaymentAuthorization T headerValue with e | c'
  · -- the only stage that can fail is the method, and the one before it has passed in both
    have hmethod : e.stage = .method := by
      by_contra hne
      exact (h.2 e hparse).1 (hc.passes hne)
    obtain ⟨-, hbefore⟩ := h'.2 e hparse
    rw [hmethod] at hbefore
    obtain ⟨c', hc'⟩ := hbefore .json (by decide)
    rwa [hc.unique hR hR' hc']
  · have hc' := ((h'.1 c').1 hparse).1
    rwa [hc.unique hR hR' hc']

theorem conforms_iff_carries {R : Spelling} {P : Json → Prop}
    (hR : ∀ j fs, R j fs ↔ P j ∧ Json.HasFields j fs) : Conforms T R headerValue ↔
      ∀ c, Carries R headerValue c ↔ Carries Json.IsRecord headerValue c := by
  constructor
  · intro h c
    exact ⟨carries_of_conforms hR (fun _ _ => Iff.rfl) h conforms_isRecord,
      carries_of_conforms (fun _ _ => Iff.rfl) hR conforms_isRecord h⟩
  · intro h
    constructor
    · intro c
      rw [parse_eq_ok_iff, IsHeader, IsHeader, h]
    · intro e he
      obtain ⟨hnot, hbefore⟩ := firstFailure_of_parse_eq_error he
      exact ⟨mt (passes_congr h _).1 hnot, fun s hs => (passes_congr h s).2 (hbefore s hs)⟩

theorem forall_carries_iff {R R' : Spelling} {P P' : Json → Prop}
    (hR : ∀ j fs, R j fs ↔ P j ∧ Json.HasFields j fs)
    (hR' : ∀ j fs, R' j fs ↔ P' j ∧ Json.HasFields j fs) :
    (∀ c, Carries R headerValue c → Carries R' headerValue c) ↔
      ∀ text j c jc jp, HasBlob headerValue (Base64Url.encode (utf8 text)) →
        IsText (utf8 text) j → SpellsCredentials Json.HasFields c j jc jp →
          (∀ v ∈ [j, jc, jp], P v) → ∀ v ∈ [j, jc, jp], P' v := by
  constructor
  · intro h text j c jc jp hb hj hc hP
    obtain ⟨text', j', jc', jp', hb', hj', hc'⟩ :=
      h c ⟨text, j, jc, jp, hb, hj, (spellsCredentials_iff hR).2 ⟨hP, hc⟩⟩
    obtain ⟨hP', hc'⟩ := (spellsCredentials_iff hR').1 hc'
    obtain ⟨-, rfl, rfl, rfl⟩ := hasBlob_unique hb hj hc hb' hj' hc'
    exact hP'
  · rintro h c ⟨text, j, jc, jp, hb, hj, hc⟩
    obtain ⟨hP, hc⟩ := (spellsCredentials_iff hR).1 hc
    exact ⟨text, j, jc, jp, hb, hj,
      (spellsCredentials_iff hR').2 ⟨h text j c jc jp hb hj hc hP, hc⟩⟩

/-- The parser follows the documented grammar exactly on these header values. -/
theorem conforms_hasMembers_iff_plainObjects :
    Conforms T Json.HasMembers headerValue ↔ PlainObjects headerValue := by
  have hobject (j : Json) (fs : List (String × Json)) := @Json.hasMembers_iff j fs
  have hrecord (j : Json) (fs : List (String × Json)) :
      Json.IsRecord j fs ↔ j.NamesDecode ∧ Json.HasFields j fs := Iff.rfl
  rw [conforms_iff_carries hobject]
  simp only [iff_def, forall_and, forall_carries_iff hobject hrecord,
    forall_carries_iff hrecord hobject, PlainObjects]

end

namespace Reference

/-- Credentials with an array in the place of each object. -/
def arrayText : String := "[[\"i\",\"r\",\"cashu\",\"charge\",\"q\"],[\"t\"]]"

def arrayHeader : String :=
  paymentScheme ++ " " ++ String.ofList (Base64Url.encode (utf8 arrayText))

/-- An array of strings without escapes. -/
def stringArray (l : List String) : Json := .array (l.map fun s => .string (utf8 s))

theorem hasBlob_arrayHeader : HasBlob arrayHeader (Base64Url.encode (utf8 arrayText)) :=
  ⟨[], paymentScheme.toList, ' ', [], [], by simp [arrayHeader], by simp, by decide, by decide,
    by simp, by simp⟩

theorem isText_arrayText : IsText (utf8 arrayText)
    (.array [stringArray ["i", "r", "cashu", "charge", "q"], stringArray ["t"]]) :=
  parse_eq_some_iff.1 rfl

theorem spellsCredentials_arrayText :
    SpellsCredentials Json.IsRecord ⟨⟨"i", "r", "cashu", "charge", "q"⟩, ⟨"t"⟩⟩
      (.array [stringArray ["i", "r", "cashu", "charge", "q"], stringArray ["t"]])
      (stringArray ["i", "r", "cashu", "charge", "q"]) (stringArray ["t"]) where
  credentials := ⟨Json.namesDecode_array, .inr rfl⟩
  challenge :=
    ⟨["i", "r", "cashu", "charge", "q"].map fun s => .string (utf8 s),
      ⟨Json.namesDecode_array, .inr rfl⟩, rfl⟩
  payload := ⟨[.string (utf8 "t")], ⟨Json.namesDecode_array, .inr rfl⟩, rfl⟩

/-- The arrays are accepted. -/
theorem not_conforms_arrayHeader :
    ¬ Conforms (cashu tokens).toTexts Json.HasMembers arrayHeader := by
  intro h
  have hcarries : Carries Json.IsRecord arrayHeader _ :=
    ⟨_, _, _, _, hasBlob_arrayHeader, isText_arrayText, spellsCredentials_arrayText⟩
  obtain ⟨⟨text, j, jc, jp, hb, hj, hc⟩, -⟩ := (h.1 _).1 (parse_eq_ok_iff.2 ⟨hcarries, rfl⟩)
  have hfields := ((spellsCredentials_iff fun j fs => @Json.hasMembers_iff j fs).1 hc).2
  obtain ⟨-, rfl, -⟩ := hasBlob_unique hasBlob_arrayHeader isText_arrayText
    ((spellsCredentials_iff fun _ _ => Iff.rfl).1 spellsCredentials_arrayText).2 hb hj hfields
  obtain ⟨ms, hms, -⟩ := hc.credentials
  cases hms

end Reference

end CdkPopVerifier
