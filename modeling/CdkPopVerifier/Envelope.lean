import CdkPopVerifier.Grammar

/-!
# The grammar of the request envelope

A client reads the payment request out of the `request` parameter of a challenge.  What it accepts are
the base64url texts of JSON records with the one field `cashu_request`, with whitespace around them;
every other text is rejected, with the stage at which it fails.
-/

namespace CdkPopVerifier

open Fallible Text JsonText

/-- The text is the base64url of the bytes, with whitespace around it. -/
def Wraps (b64 : String) (bytes : List UInt8) : Prop :=
  ∃ w w', b64.toList = w ++ Base64Url.encode bytes ++ w' ∧ (∀ c ∈ w, isWhitespace c = true) ∧
    ∀ c ∈ w', isWhitespace c = true

def RequestEnvelope.entries (e : RequestEnvelope) : List (String × String) :=
  [("cashu_request", e.cashuRequest)]

/-- The text is an envelope of the payment request `creqA`. -/
def IsEnvelope (R : Spelling) (b64 creqA : String) : Prop :=
  ∃ bytes j, Wraps b64 bytes ∧ IsText bytes j ∧ SpellsStrings R j (RequestEnvelope.mk creqA).entries

theorem RequestEnvelope.fromJson_eq_some_iff {j : Json} {e : RequestEnvelope} :
    fromJson j = some e ↔ SpellsStrings Json.IsRecord j e.entries := by
  obtain ⟨cashuRequest⟩ := e
  rw [spellsStrings_isRecord_iff]
  simp only [entries, List.map_cons, List.map_nil]
  rcases hf : j.fields ["cashu_request"] with _ | vs
  · simp [fromJson, hf]
  · obtain ⟨v, rfl⟩ := List.length_eq_one_iff.1 (Json.length_of_fields_eq_some hf).symm
    simp [fromJson, hf, Option.bind_eq_some_iff]

variable {B : Type} {T : Texts B} {b64 creqA : String} {bytes : List UInt8}

theorem wraps_iff : Wraps b64 bytes ↔ Base64Url.decode (trim b64.toList) = some bytes := by
  rw [Base64Url.decode_eq_some_iff]
  unfold Wraps
  constructor
  · rintro ⟨w, w', hl, hw, hw'⟩
    rw [hl, trim_append_of_forall hw ?_ hw']
    exact fun c hc => isWhitespace_of_isSymbol (Base64Url.isSymbol_of_mem_encode hc)
  · intro h
    obtain ⟨w, w', hl, hw, hw'⟩ := exists_append_trim b64.toList
    refine ⟨w, w', ?_, hw, hw'⟩
    rw [h]
    exact hl

theorem Wraps.unique {bytes' : List UInt8} (h : Wraps b64 bytes) (h' : Wraps b64 bytes') :
    bytes = bytes' :=
  Option.some.inj ((wraps_iff.1 h).symm.trans (wraps_iff.1 h'))

theorem isEnvelope_iff_of_wraps (h : Wraps b64 bytes) : IsEnvelope Json.IsRecord b64 creqA ↔
    (parse bytes).bind RequestEnvelope.fromJson = some ⟨creqA⟩ := by
  simp only [Option.bind_eq_some_iff, parse_eq_some_iff, RequestEnvelope.fromJson_eq_some_iff]
  constructor
  · rintro ⟨bytes', j, hb, hj, hs⟩
    obtain rfl := h.unique hb
    exact ⟨j, hj, hs⟩
  · rintro ⟨j, hj, hs⟩
    exact ⟨bytes, j, h, hj, hs⟩

theorem decodeRequestEnvelope_eq_ok_iff :
    decodeRequestEnvelope T b64 = .ok creqA ↔ IsEnvelope Json.IsRecord b64 creqA := by
  simp only [decodeRequestEnvelope, bind_eq_ok_iff, okOr_eq_ok_iff, ← wraps_iff]
  constructor
  · rintro ⟨bytes, hb, e, he, hcreqA⟩
    cases hcreqA
    exact (isEnvelope_iff_of_wraps hb).2 he
  · intro h
    obtain ⟨bytes, -, hb, -⟩ := id h
    exact ⟨bytes, hb, _, (isEnvelope_iff_of_wraps hb).1 h, rfl⟩

theorem decodeRequestEnvelope_eq_error_iff {e : Error} :
    decodeRequestEnvelope T b64 = .error e ↔
      ((∀ bytes, ¬ Wraps b64 bytes) ∧
        e = .decodeFailed ("request envelope base64: " ++ T.base64Error (trim b64.toList))) ∨
      ∃ bytes, Wraps b64 bytes ∧ (∀ creqA, ¬ IsEnvelope Json.IsRecord b64 creqA) ∧
        e = .decodeFailed ("request envelope json: " ++ T.jsonError bytes) := by
  have hjson {bytes : List UInt8} (hb : Wraps b64 bytes) :
      (parse bytes).bind RequestEnvelope.fromJson = none ↔
        ∀ creqA, ¬ IsEnvelope Json.IsRecord b64 creqA := by
    simp only [isEnvelope_iff_of_wraps hb]
    rw [Option.eq_none_iff_forall_ne_some]
    exact ⟨fun h _ => h _, fun h e => h e.cashuRequest⟩
  have hnone : Base64Url.decode (trim b64.toList) = none ↔ ∀ bytes, ¬ Wraps b64 bytes := by
    simp only [wraps_iff]
    exact Option.eq_none_iff_forall_ne_some
  simp only [decodeRequestEnvelope, bind_eq_error_iff, okOr_eq_error_iff, okOr_eq_ok_iff,
    ← wraps_iff, hnone]
  constructor
  · rintro (h | ⟨bytes, hb, ⟨hno, he⟩ | ⟨_, -, h⟩⟩)
    · exact .inl h
    · exact .inr ⟨bytes, hb, (hjson hb).1 hno, he⟩
    · cases h
  · rintro (h | ⟨bytes, hb, hno, he⟩)
    · exact .inl h
    · exact .inr ⟨bytes, hb, .inl ⟨(hjson hb).2 hno, he⟩⟩

/-! ## Envelopes as they are documented -/

/-- If the text spells an envelope, as an object or an array, then it spells it as an object, and the names
of all its members can be decoded. -/
def PlainEnvelope (b64 : String) : Prop :=
  ∀ bytes j creqA, Wraps b64 bytes → IsText bytes j →
    SpellsStrings Json.HasFields j (RequestEnvelope.mk creqA).entries →
      (∀ items, j ≠ .array items) ∧ j.NamesDecode

/-- Objects and arrays with a property. -/
theorem isEnvelope_iff {R : Spelling} {p : Json → Prop}
    (hR : ∀ j fs, R j fs ↔ p j ∧ Json.HasFields j fs) : IsEnvelope R b64 creqA ↔
      ∃ bytes j, Wraps b64 bytes ∧ IsText bytes j ∧ p j ∧
        SpellsStrings Json.HasFields j (RequestEnvelope.mk creqA).entries := by
  simp only [IsEnvelope, SpellsStrings, hR, and_assoc, exists_and_left]

/-- Envelopes in one spelling are envelopes in another one when the values in them have its property. -/
theorem forall_isEnvelope_iff {R R' : Spelling} {p p' : Json → Prop}
    (hR : ∀ j fs, R j fs ↔ p j ∧ Json.HasFields j fs)
    (hR' : ∀ j fs, R' j fs ↔ p' j ∧ Json.HasFields j fs) :
    (∀ creqA, IsEnvelope R b64 creqA → IsEnvelope R' b64 creqA) ↔
      ∀ bytes j creqA, Wraps b64 bytes → IsText bytes j →
        SpellsStrings Json.HasFields j (RequestEnvelope.mk creqA).entries → p j → p' j := by
  simp only [isEnvelope_iff hR, isEnvelope_iff hR']
  constructor
  · intro h bytes j creqA hb hj hs hp
    obtain ⟨bytes', j', hb', hj', hp', -⟩ := h creqA ⟨bytes, j, hb, hj, hp, hs⟩
    obtain rfl := hb.unique hb'
    rw [← parse_eq_some_iff] at hj hj'
    rwa [Option.some.inj (hj.symm.trans hj')]
  · rintro h creqA ⟨bytes, j, hb, hj, hp, hs⟩
    exact ⟨bytes, j, hb, hj, h bytes j creqA hb hj hs hp, hs⟩

/-- A client accepts the envelopes that are read as records, and follows the documented grammar, which
is for objects only, exactly on the texts that are plain. -/
theorem decodes_envelopes (T : Texts B) (b64 : String) :
    (∀ creqA, decodeRequestEnvelope T b64 = .ok creqA ↔ IsEnvelope Json.IsRecord b64 creqA) ∧
    (∀ e, decodeRequestEnvelope T b64 = .error e ↔
      ((∀ bytes, ¬ Wraps b64 bytes) ∧
        e = .decodeFailed ("request envelope base64: " ++ T.base64Error (trim b64.toList))) ∨
      ∃ bytes, Wraps b64 bytes ∧ (∀ creqA, ¬ IsEnvelope Json.IsRecord b64 creqA) ∧
        e = .decodeFailed ("request envelope json: " ++ T.jsonError bytes)) ∧
    ((∀ creqA, decodeRequestEnvelope T b64 = .ok creqA ↔ IsEnvelope Json.HasMembers b64 creqA) ↔
      PlainEnvelope b64) := by
  have hobject (j : Json) (fs : List (String × Json)) := @Json.hasMembers_iff j fs
  have hrecord (j : Json) (fs : List (String × Json)) :
      Json.IsRecord j fs ↔ j.NamesDecode ∧ Json.HasFields j fs := Iff.rfl
  refine ⟨fun _ => decodeRequestEnvelope_eq_ok_iff, fun _ => decodeRequestEnvelope_eq_error_iff, ?_⟩
  simp only [decodeRequestEnvelope_eq_ok_iff]
  constructor
  · intro h bytes j creqA hb hj hs
    have hnames := (forall_isEnvelope_iff hobject hrecord).1 (fun c => (h c).2) bytes j creqA hb hj hs
    have hne := (forall_isEnvelope_iff hrecord hobject).1 (fun c => (h c).1) bytes j creqA hb hj hs
    have hobj : ∀ items, j ≠ .array items := by
      rintro items rfl
      exact hne Json.namesDecode_array items rfl
    exact ⟨hobj, hnames hobj⟩
  · intro h creqA
    constructor
    · apply (forall_isEnvelope_iff hrecord hobject).2
      exact fun bytes j c hb hj hs _ => (h bytes j c hb hj hs).1
    · apply (forall_isEnvelope_iff hobject hrecord).2
      exact fun bytes j c hb hj hs _ => (h bytes j c hb hj hs).2

end CdkPopVerifier
