import CdkPopVerifier.Lib.Json

/-!
# The grammar of JSON

RFC 8259 as relations between a text and the value it is written for: `Value` for a value without
whitespace around it, `Items` and `Members` for what stands between the brackets of an array or an
object.  `parse` reads a text as a value exactly when the grammar relates the two
(`parse_eq_some_iff`), so every text has at most one value.
-/

namespace JsonText

open Text

/-! ## The grammar -/

/-- Whitespace. -/
def IsBlank (l : List UInt8) : Prop := ∀ c ∈ l, isWs c = true

/-- One digit or more. -/
def IsDigits (l : List UInt8) : Prop := l ≠ [] ∧ ∀ c ∈ l, isDigit c = true

/-- The part of a number before the fraction. -/
inductive IsInteger : List UInt8 → Prop
  | zero : IsInteger [ascii '0']
  | digits {d : UInt8} {l : List UInt8} (hd : isDigit d = true) (hne : d ≠ ascii '0')
      (hl : ∀ c ∈ l, isDigit c = true) : IsInteger (d :: l)

/-- The fraction of a number. -/
inductive IsFraction : List UInt8 → Prop
  | none : IsFraction []
  | digits {l : List UInt8} (h : IsDigits l) : IsFraction (ascii '.' :: l)

/-- The exponent of a number. -/
inductive IsExponent : List UInt8 → Prop
  | none : IsExponent []
  | unsigned {e : UInt8} {l : List UInt8} (he : e = ascii 'e' ∨ e = ascii 'E') (h : IsDigits l) :
    IsExponent (e :: l)
  | signed {e s : UInt8} {l : List UInt8} (he : e = ascii 'e' ∨ e = ascii 'E')
      (hs : s = ascii '+' ∨ s = ascii '-') (h : IsDigits l) : IsExponent (e :: s :: l)

/-- A number. -/
inductive IsNumber : List UInt8 → Prop
  | mk {sign int frac exp : List UInt8} (hs : sign = [] ∨ sign = [ascii '-']) (hi : IsInteger int)
      (hf : IsFraction frac) (he : IsExponent exp) : IsNumber (sign ++ int ++ frac ++ exp)

/-- The contents of a string. -/
inductive IsContents : List UInt8 → Prop
  | nil : IsContents []
  | plain {b : UInt8} {l : List UInt8} (hq : b ≠ ascii '"') (hb : ¬ b < 0x20)
      (hs : b ≠ ascii '\\') (h : IsContents l) : IsContents (b :: l)
  | short {e b : UInt8} {l : List UInt8} (he : shortEscape e = some b) (h : IsContents l) :
    IsContents (ascii '\\' :: e :: l)
  | unicode {a b c d : UInt8} {n : ℕ} {l : List UInt8} (hn : hex4 a b c d = some n)
      (h : IsContents l) : IsContents (ascii '\\' :: ascii 'u' :: a :: b :: c :: d :: l)

mutual

/-- A text for a value, without whitespace around it. -/
inductive Value : List UInt8 → Json → Prop
  | null : Value [ascii 'n', ascii 'u', ascii 'l', ascii 'l'] .null
  | boolTrue : Value [ascii 't', ascii 'r', ascii 'u', ascii 'e'] (.bool true)
  | boolFalse : Value [ascii 'f', ascii 'a', ascii 'l', ascii 's', ascii 'e'] (.bool false)
  | number {l : List UInt8} (h : IsNumber l) : Value l (.number l)
  | string {l : List UInt8} (h : IsContents l) :
    Value (ascii '"' :: (l ++ [ascii '"'])) (.string l)
  | emptyArray {w : List UInt8} (hw : IsBlank w) : Value (ascii '[' :: (w ++ [ascii ']'])) (.array [])
  | array {l : List UInt8} {vs : List Json} (h : Items l vs) :
    Value (ascii '[' :: (l ++ [ascii ']'])) (.array vs)
  | emptyObject {w : List UInt8} (hw : IsBlank w) :
    Value (ascii '{' :: (w ++ [ascii '}'])) (.object [])
  | object {l : List UInt8} {ms : List (List UInt8 × Json)} (h : Members l ms) :
    Value (ascii '{' :: (l ++ [ascii '}'])) (.object ms)

/-- A text for one item of an array or more. -/
inductive Items : List UInt8 → List Json → Prop
  | one {w t w' : List UInt8} {v : Json} (hw : IsBlank w) (hv : Value t v) (hw' : IsBlank w') :
    Items (w ++ (t ++ w')) [v]
  | cons {w t w' l : List UInt8} {v : Json} {vs : List Json} (hw : IsBlank w) (hv : Value t v)
      (hw' : IsBlank w') (h : Items l vs) : Items (w ++ (t ++ (w' ++ ascii ',' :: l))) (v :: vs)

/-- A text for one member of an object or more. -/
inductive Members : List UInt8 → List (List UInt8 × Json) → Prop
  | one {w k w₁ w₂ t w' : List UInt8} {v : Json} (hw : IsBlank w) (hk : IsContents k)
      (hw₁ : IsBlank w₁) (hw₂ : IsBlank w₂) (hv : Value t v) (hw' : IsBlank w') :
    Members (w ++ ascii '"' :: (k ++ ascii '"' :: (w₁ ++ ascii ':' :: (w₂ ++ (t ++ w'))))) [(k, v)]
  | cons {w k w₁ w₂ t w' l : List UInt8} {v : Json} {ms : List (List UInt8 × Json)}
      (hw : IsBlank w) (hk : IsContents k) (hw₁ : IsBlank w₁) (hw₂ : IsBlank w₂) (hv : Value t v)
      (hw' : IsBlank w') (h : Members l ms) :
    Members (w ++ ascii '"' :: (k ++ ascii '"' :: (w₁ ++ ascii ':' ::
      (w₂ ++ (t ++ (w' ++ ascii ',' :: l)))))) ((k, v) :: ms)

end

/-- A text for a value, with whitespace around it.  RFC 8259 asks for UTF-8 as well; here the bytes of a
string need not be UTF-8. -/
def IsText (l : List UInt8) (v : Json) : Prop :=
  ∃ w t w', l = w ++ (t ++ w') ∧ IsBlank w ∧ Value t v ∧ IsBlank w'

/-! ## Strings -/

theorem scanString_of_isContents {raw : List UInt8} (h : IsContents raw) (rest : List UInt8) :
    scanString (raw ++ ascii '"' :: rest) = some (raw, rest) := by
  induction h with
  | nil => exact scanString_quote rest
  | plain hq hb hs h ih =>
    rw [List.cons_append, scanString_plain hq hb hs, ih]
    rfl
  | @short e b l he h ih =>
    have hu : e ≠ ascii 'u' := fun hu => by
      rw [hu, show shortEscape (ascii 'u') = none by decide] at he
      cases he
    rw [List.cons_append, List.cons_append, scanString_short hu he, ih]
    rfl
  | unicode hn h ih =>
    simp only [List.cons_append]
    rw [scanString_unicode hn, ih]
    rfl

theorem isContents_of_scanString {l raw rest : List UInt8} (h : scanString l = some (raw, rest)) :
    l = raw ++ ascii '"' :: rest ∧ IsContents raw := by
  fun_induction scanString l generalizing raw rest with
  | case2 l =>
    cases h
    exact ⟨rfl, .nil⟩
  | case4 b l hq hb hs ih =>
    obtain ⟨⟨raw', rest'⟩, hl, he⟩ := Option.map_eq_some_iff.1 h
    cases he
    obtain ⟨rfl, hraw⟩ := ih hl
    exact ⟨rfl, .plain hq hb hs hraw⟩
  | case6 b hq hb hs a₁ a₂ a₃ a₄ l hhex ih =>
    obtain ⟨⟨raw', rest'⟩, hl, he⟩ := Option.map_eq_some_iff.1 h
    cases he
    obtain ⟨rfl, hraw⟩ := ih hl
    obtain ⟨n, hn⟩ := Option.isSome_iff_exists.1 hhex
    rw [not_not.1 hs]
    exact ⟨rfl, .unicode hn hraw⟩
  | case9 b hq hb hs e l hu hesc ih =>
    obtain ⟨⟨raw', rest'⟩, hl, he⟩ := Option.map_eq_some_iff.1 h
    cases he
    obtain ⟨rfl, hraw⟩ := ih hl
    obtain ⟨b', hb'⟩ := Option.isSome_iff_exists.1 hesc
    rw [not_not.1 hs]
    exact ⟨rfl, .short hb' hraw⟩
  | case1 | case3 | case5 | case7 | case8 | case10 => cases h

/-! ## Numbers -/

/-- What may follow a number. -/
def EndsNumber (rest : List UInt8) : Prop :=
  ∀ c ∈ rest.head?, isDigit c = false ∧ c ≠ ascii '.' ∧ c ≠ ascii 'e' ∧ c ≠ ascii 'E'

theorem scanDigits_append {l rest : List UInt8} (hl : IsDigits l)
    (hrest : ∀ c ∈ rest.head?, isDigit c = false) : scanDigits (l ++ rest) = some (l, rest) := by
  have htake : rest.takeWhile isDigit = [] := by
    rcases rest with _ | ⟨c, rest⟩
    · rfl
    · exact List.takeWhile_cons_of_neg (by simp [hrest c rfl])
  have hdrop : rest.dropWhile isDigit = rest := by
    rcases rest with _ | ⟨c, rest⟩
    · rfl
    · exact List.dropWhile_cons_of_neg (by simp [hrest c rfl])
  rw [scanDigits, List.takeWhile_append_of_pos hl.2, List.dropWhile_append_of_pos hl.2, htake, hdrop,
    List.append_nil, if_neg hl.1]

theorem isDigits_of_scanDigits {l ds rest : List UInt8} (h : scanDigits l = some (ds, rest)) :
    l = ds ++ rest ∧ IsDigits ds := by
  simp only [scanDigits] at h
  split_ifs at h with hne
  cases h
  exact ⟨List.takeWhile_append_dropWhile.symm, hne, fun c hc => List.mem_takeWhile_imp hc⟩

theorem IsInteger.isDigits {l : List UInt8} (h : IsInteger l) :
    IsDigits l ∧ ¬ (l.head? = some (ascii '0') ∧ l.length ≠ 1) := by
  cases h with
  | zero => exact ⟨⟨by decide, by decide⟩, by decide⟩
  | @digits d l hd hne hl =>
    refine ⟨⟨List.cons_ne_nil _ _, List.forall_mem_cons.2 ⟨hd, hl⟩⟩, fun h => hne ?_⟩
    exact Option.some.inj h.1

theorem scanInteger_append {l rest : List UInt8} (hl : IsInteger l)
    (hrest : ∀ c ∈ rest.head?, isDigit c = false) : scanInteger (l ++ rest) = some (l, rest) := by
  rw [scanInteger, scanDigits_append hl.isDigits.1 hrest, Option.bind_some, if_neg hl.isDigits.2]

theorem isInteger_of_scanInteger {l ds rest : List UInt8} (h : scanInteger l = some (ds, rest)) :
    l = ds ++ rest ∧ IsInteger ds := by
  obtain ⟨⟨ds', rest'⟩, hs, h⟩ := Option.bind_eq_some_iff.1 h
  split_ifs at h with hzero
  cases h
  obtain ⟨rfl, hds⟩ := isDigits_of_scanDigits hs
  refine ⟨rfl, ?_⟩
  obtain ⟨d, ds, rfl⟩ := List.exists_cons_of_ne_nil hds.1
  have hall := List.forall_mem_cons.1 hds.2
  by_cases hd : d = ascii '0'
  · subst hd
    have hnil : ds = [] := by simpa using hzero
    rw [hnil]
    exact .zero
  · exact .digits hall.1 hd hall.2

theorem head_append_exponent {exp rest : List UInt8} (he : IsExponent exp) (hrest : EndsNumber rest) :
    ∀ c ∈ (exp ++ rest).head?, isDigit c = false ∧ c ≠ ascii '.' := by
  have key : ∀ e, e = ascii 'e' ∨ e = ascii 'E' → isDigit e = false ∧ e ≠ ascii '.' := by
    rintro e (rfl | rfl) <;> decide
  intro c hc
  cases he with
  | none => exact ⟨(hrest c hc).1, (hrest c hc).2.1⟩
  | unsigned he h =>
    cases hc
    exact key _ he
  | signed he hs h =>
    cases hc
    exact key _ he

theorem head_append_fraction {frac exp rest : List UInt8} (hf : IsFraction frac)
    (he : IsExponent exp) (hrest : EndsNumber rest) :
    ∀ c ∈ (frac ++ (exp ++ rest)).head?, isDigit c = false := by
  intro c hc
  cases hf with
  | none => exact (head_append_exponent he hrest c hc).1
  | digits h =>
    cases hc
    decide

theorem scanFraction_append {frac rest : List UInt8} (hf : IsFraction frac)
    (hrest : ∀ c ∈ rest.head?, isDigit c = false ∧ c ≠ ascii '.') :
    scanFraction (frac ++ rest) = some (frac, rest) := by
  cases hf with
  | none =>
    rcases rest with _ | ⟨c, rest⟩
    · rfl
    · exact if_neg (hrest c rfl).2
  | digits h =>
    rw [List.cons_append, scanFraction, if_pos rfl, scanDigits_append h fun c hc => (hrest c hc).1]
    rfl

theorem isFraction_of_scanFraction {l frac rest : List UInt8}
    (h : scanFraction l = some (frac, rest)) : l = frac ++ rest ∧ IsFraction frac := by
  rcases l with _ | ⟨c, l⟩
  · cases h
    exact ⟨rfl, .none⟩
  rw [scanFraction] at h
  split_ifs at h with hc
  · obtain ⟨⟨ds, rest'⟩, hs, he⟩ := Option.map_eq_some_iff.1 h
    cases he
    obtain ⟨rfl, hds⟩ := isDigits_of_scanDigits hs
    rw [hc]
    exact ⟨rfl, .digits hds⟩
  · cases h
    exact ⟨rfl, .none⟩

theorem scanExponent_append {exp rest : List UInt8} (he : IsExponent exp) (hrest : EndsNumber rest) :
    scanExponent (exp ++ rest) = some (exp, rest) := by
  have hdigit : ∀ c ∈ rest.head?, isDigit c = false := fun c hc => (hrest c hc).1
  cases he with
  | none =>
    rcases rest with _ | ⟨c, rest⟩
    · rfl
    · have hc := (hrest c rfl).2.2
      exact if_neg (by simpa using hc)
  | @unsigned e l he h =>
    obtain ⟨d, l, rfl⟩ := List.exists_cons_of_ne_nil h.1
    have hd : ¬ (d = ascii '+' ∨ d = ascii '-') := by
      have hd := h.2 d List.mem_cons_self
      rintro (rfl | rfl)
      · exact absurd hd (by decide)
      · exact absurd hd (by decide)
    have hs := scanDigits_append h hdigit
    rw [List.cons_append] at hs
    rw [List.cons_append, List.cons_append, scanExponent, if_pos he, if_neg hd, hs]
    rfl
  | @signed e s l he hs h =>
    rw [List.cons_append, List.cons_append, scanExponent, if_pos he, if_pos hs,
      scanDigits_append h hdigit]
    rfl

theorem isExponent_of_scanExponent {l exp rest : List UInt8}
    (h : scanExponent l = some (exp, rest)) : l = exp ++ rest ∧ IsExponent exp := by
  rcases l with _ | ⟨c, l⟩
  · cases h
    exact ⟨rfl, .none⟩
  rw [scanExponent.eq_def] at h
  dsimp only at h
  split_ifs at h with hc
  · rcases l with _ | ⟨s, l⟩
    · cases h
    dsimp only at h
    split_ifs at h with hs
    · obtain ⟨⟨ds, rest'⟩, hd, he⟩ := Option.map_eq_some_iff.1 h
      cases he
      obtain ⟨rfl, hds⟩ := isDigits_of_scanDigits hd
      exact ⟨rfl, .signed hc hs hds⟩
    · obtain ⟨⟨ds, rest'⟩, hd, he⟩ := Option.map_eq_some_iff.1 h
      cases he
      obtain ⟨heq, hds⟩ := isDigits_of_scanDigits hd
      rw [heq]
      exact ⟨rfl, .unsigned hc hds⟩
  · cases h
    exact ⟨rfl, .none⟩

/-- The part of a number after its sign. -/
theorem scanNumber_minus (l : List UInt8) : scanNumber (ascii '-' :: l) =
    (scanInteger l).bind fun x => (scanFraction x.2).bind fun y => (scanExponent y.2).bind fun z =>
      some ([ascii '-'] ++ x.1 ++ y.1 ++ z.1, z.2) := by
  rw [scanNumber]
  dsimp only
  rw [if_pos rfl]
  rfl

@[inherit_doc scanNumber_minus]
theorem scanNumber_cons {c : UInt8} (hc : c ≠ ascii '-') (l : List UInt8) : scanNumber (c :: l) =
    (scanInteger (c :: l)).bind fun x => (scanFraction x.2).bind fun y =>
      (scanExponent y.2).bind fun z => some ([] ++ x.1 ++ y.1 ++ z.1, z.2) := by
  rw [scanNumber]
  dsimp only
  rw [if_neg hc]
  rfl

theorem scanNumber_append {t rest : List UInt8} (ht : IsNumber t) (hrest : EndsNumber rest) :
    scanNumber (t ++ rest) = some (t, rest) := by
  obtain @⟨sign, int, frac, exp, hs, hi, hf, he⟩ := ht
  have hint := scanInteger_append hi (head_append_fraction hf he hrest)
  have hfrac := scanFraction_append hf (head_append_exponent he hrest)
  have hexp := scanExponent_append he hrest
  obtain ⟨d, int', hcons⟩ := List.exists_cons_of_ne_nil hi.isDigits.1.1
  have hd : d ≠ ascii '-' := by
    rintro rfl
    have hdigit := hi.isDigits.1.2 (ascii '-') (by rw [hcons]; exact List.mem_cons_self)
    exact absurd hdigit (by decide)
  rcases hs with rfl | rfl
  · have h := scanNumber_cons hd (int' ++ (frac ++ (exp ++ rest)))
    rw [← List.cons_append, ← hcons, hint] at h
    simpa [hfrac, hexp] using h
  · have h := scanNumber_minus (int ++ (frac ++ (exp ++ rest)))
    rw [hint] at h
    simpa [hfrac, hexp] using h

theorem isNumber_of_scanNumber {l t rest : List UInt8} (h : scanNumber l = some (t, rest)) :
    l = t ++ rest ∧ IsNumber t := by
  have hparts {sign m : List UInt8} (hs : sign = [] ∨ sign = [ascii '-'])
      (hm : ((scanInteger m).bind fun x => (scanFraction x.2).bind fun y =>
        (scanExponent y.2).bind fun z => some (sign ++ x.1 ++ y.1 ++ z.1, z.2)) = some (t, rest)) :
      sign ++ m = t ++ rest ∧ IsNumber t := by
    obtain ⟨x, hx, hm⟩ := Option.bind_eq_some_iff.1 hm
    obtain ⟨y, hy, hm⟩ := Option.bind_eq_some_iff.1 hm
    obtain ⟨z, hz, hm⟩ := Option.bind_eq_some_iff.1 hm
    cases hm
    obtain ⟨rfl, hi⟩ := isInteger_of_scanInteger hx
    obtain ⟨hxy, hf⟩ := isFraction_of_scanFraction hy
    obtain ⟨hyz, he⟩ := isExponent_of_scanExponent hz
    exact ⟨by rw [hxy, hyz]; simp, .mk hs hi hf he⟩
  rcases l with _ | ⟨c, l⟩
  · cases h
  by_cases hc : c = ascii '-'
  · subst hc
    rw [scanNumber_minus] at h
    exact hparts (.inr rfl) h
  · rw [scanNumber_cons hc] at h
    exact hparts (.inl rfl) h

/-! ## Whitespace -/

theorem skipWs_append {w : List UInt8} (hw : IsBlank w) (l : List UInt8) :
    skipWs (w ++ l) = skipWs l :=
  List.dropWhile_append_of_pos hw

theorem exists_blank_append_skipWs (l : List UInt8) : ∃ w, l = w ++ skipWs l ∧ IsBlank w :=
  ⟨l.takeWhile isWs, List.takeWhile_append_dropWhile.symm, fun _ hc => List.mem_takeWhile_imp hc⟩

/-- What is left after skipping whitespace is empty, or starts where the whitespace ends. -/
theorem skipWs_cases (l : List UInt8) :
    skipWs l = [] ∨ ∃ w c m, l = w ++ c :: m ∧ IsBlank w ∧ skipWs l = c :: m := by
  obtain ⟨w, hl, hw⟩ := exists_blank_append_skipWs l
  rcases hskip : skipWs l with _ | ⟨c, m⟩
  · exact .inl rfl
  · exact .inr ⟨w, c, m, by rw [← hskip, ← hl], hw, rfl⟩

theorem skipWs_eq_nil_iff {l : List UInt8} : skipWs l = [] ↔ IsBlank l :=
  List.dropWhile_eq_nil_iff

theorem skipWs_skipWs (l : List UInt8) : skipWs (skipWs l) = skipWs l := by
  obtain ⟨w, hl, hw⟩ := exists_blank_append_skipWs l
  conv_rhs => rw [hl]
  exact (skipWs_append hw _).symm

theorem parseValue_skipWs (n : ℕ) (l : List UInt8) : parseValue n (skipWs l) = parseValue n l := by
  cases n with
  | zero => rfl
  | succ n => rw [parseValue, parseValue, skipWs_skipWs]

theorem parseItems_skipWs (n : ℕ) (l : List UInt8) : parseItems n (skipWs l) = parseItems n l := by
  cases n with
  | zero => rfl
  | succ n => rw [parseItems, parseItems, parseValue_skipWs]

theorem parseMembers_skipWs (n : ℕ) (l : List UInt8) :
    parseMembers n (skipWs l) = parseMembers n l := by
  cases n with
  | zero => rfl
  | succ n => rw [parseMembers, parseMembers, skipWs_skipWs]

theorem parseValue_append {w : List UInt8} (hw : IsBlank w) (n : ℕ) (l : List UInt8) :
    parseValue n (w ++ l) = parseValue n l := by
  rw [← parseValue_skipWs, skipWs_append hw, parseValue_skipWs]

theorem endsNumber_nil : EndsNumber [] := by
  intro c hc
  cases hc

theorem endsNumber_append {w rest : List UInt8} (hw : IsBlank w) (hrest : EndsNumber rest) :
    EndsNumber (w ++ rest) := by
  rcases w with _ | ⟨c, w⟩
  · exact hrest
  · have hc := hw c List.mem_cons_self
    simp only [isWs, Bool.or_eq_true, beq_iff_eq] at hc
    rintro _ ⟨⟩
    rcases hc with ((rfl | rfl) | rfl) | rfl <;> decide

theorem endsNumber_cons {c : UInt8} (hc : c = ascii ',' ∨ c = ascii ']' ∨ c = ascii '}')
    (rest : List UInt8) : EndsNumber (c :: rest) := by
  rintro _ ⟨⟩
  rcases hc with rfl | rfl | rfl <;> decide

/-! ## The parser reads what the grammar describes -/

theorem IsNumber.exists_cons {t : List UInt8} (h : IsNumber t) :
    ∃ c l, t = c :: l ∧ (isDigit c = true ∨ c = ascii '-') := by
  obtain @⟨sign, int, frac, exp, hs, hi, hf, he⟩ := h
  obtain ⟨d, l, rfl⟩ := List.exists_cons_of_ne_nil hi.isDigits.1.1
  rcases hs with rfl | rfl
  · exact ⟨d, _, rfl, .inl (hi.isDigits.1.2 d List.mem_cons_self)⟩
  · exact ⟨ascii '-', _, rfl, .inr rfl⟩

/-- The first byte of a number is not the first byte of anything else. -/
theorem ne_of_isDigit_or_eq {c : UInt8} (h : isDigit c = true ∨ c = ascii '-') :
    isWs c = false ∧ c ∉ [ascii '"', ascii '[', ascii ']', ascii '{', ascii 'n', ascii 't',
      ascii 'f'] := by
  have key : ∀ n : Fin 256, isDigit (UInt8.ofNat n) = true ∨ UInt8.ofNat n = ascii '-' →
      isWs (UInt8.ofNat n) = false ∧ UInt8.ofNat n ∉ [ascii '"', ascii '[', ascii ']', ascii '{',
        ascii 'n', ascii 't', ascii 'f'] := by
    decide +kernel
  simpa using key ⟨c.toNat, c.toNat_lt⟩ (by simpa using h)

/-- The byte with which a value starts. -/
theorem Value.exists_cons {t : List UInt8} {v : Json} (h : Value t v) :
    ∃ c l, t = c :: l ∧ isWs c = false ∧ c ≠ ascii ']' := by
  cases h with
  | number h =>
    obtain ⟨c, l, rfl, hc⟩ := h.exists_cons
    obtain ⟨hw, hne⟩ := ne_of_isDigit_or_eq hc
    exact ⟨c, l, rfl, hw, fun he => hne (by simp [he])⟩
  | null | boolTrue | boolFalse | string | emptyArray | array | emptyObject | object =>
    exact ⟨_, _, rfl, by decide, by decide⟩

theorem parseValue_number {t : List UInt8} (h : IsNumber t) {rest : List UInt8}
    (hrest : EndsNumber rest) (n : ℕ) :
    parseValue (n + 1) (t ++ rest) = some (.number t, rest) := by
  have hscan := scanNumber_append h hrest
  obtain ⟨c, l, rfl, hc⟩ := h.exists_cons
  obtain ⟨hw, hne⟩ := ne_of_isDigit_or_eq hc
  simp only [List.mem_cons, List.not_mem_nil, or_false, not_or] at hne
  obtain ⟨hquote, hbracket, -, hbrace, hn, ht, hf⟩ := hne
  rw [List.cons_append] at hscan ⊢
  rw [parseValue, skipWs_cons hw]
  dsimp only
  rw [if_neg hquote, if_neg hbracket, if_neg hbrace, if_neg hn, if_neg ht, if_neg hf, hscan]
  rfl

theorem parseValue_string {raw : List UInt8} (h : IsContents raw) (n : ℕ) (rest : List UInt8) :
    parseValue (n + 1) (ascii '"' :: (raw ++ [ascii '"']) ++ rest) = some (.string raw, rest) := by
  have hscan := scanString_of_isContents h rest
  rw [List.cons_append, List.append_assoc, List.singleton_append, parseValue,
    skipWs_cons (by decide)]
  dsimp only
  rw [if_pos rfl, hscan]
  rfl

/-- What stands between an opening bracket and `close`: whitespace only, or what `body` reads. -/
def bracketed {α : Type} (close : UInt8) (body : List UInt8 → Option (List α × List UInt8))
    (l : List UInt8) : Option (List α × List UInt8) :=
  (skipWs l).head?.bind fun c =>
    if c = close then some ([], (skipWs l).tail) else body (skipWs l)

theorem parseValue_bracket (n : ℕ) (l : List UInt8) : parseValue (n + 1) (ascii '[' :: l) =
    (bracketed (ascii ']') (parseItems n) l).map fun x => (.array x.1, x.2) := by
  rw [parseValue, skipWs_cons (by decide)]
  dsimp only
  rw [if_neg (by decide), if_pos rfl, bracketed]
  rcases skipWs l with _ | ⟨c, m⟩
  · rfl
  · by_cases hc : c = ascii ']' <;> simp [hc]

theorem parseValue_brace (n : ℕ) (l : List UInt8) : parseValue (n + 1) (ascii '{' :: l) =
    (bracketed (ascii '}') (parseMembers n) l).map fun x => (.object x.1, x.2) := by
  rw [parseValue, skipWs_cons (by decide)]
  dsimp only
  rw [if_neg (by decide), if_neg (by decide), if_pos rfl, bracketed]
  rcases skipWs l with _ | ⟨c, m⟩
  · rfl
  · by_cases hc : c = ascii '}' <;> simp [hc]

section

variable {α : Type} {close : UInt8} {body : List UInt8 → Option (List α × List UInt8)}
  {l rest : List UInt8} {x : List α × List UInt8}

theorem bracketed_blank {w : List UInt8} (hw : IsBlank w) (hclose : isWs close = false) :
    bracketed close body (w ++ close :: rest) = some ([], rest) := by
  have hskip : skipWs (w ++ close :: rest) = close :: rest := by
    rw [skipWs_append hw, skipWs_cons hclose]
  rw [bracketed, hskip]
  exact if_pos rfl

theorem bracketed_body {c : UInt8} {m : List UInt8} (hl : skipWs l = c :: m) (hc : c ≠ close)
    (hbody : body (skipWs l) = some x) : bracketed close body l = some x := by
  rw [← hbody, bracketed, hl]
  exact if_neg hc

theorem of_bracketed (h : bracketed close body l = some x) :
    (∃ w, IsBlank w ∧ l = w ++ close :: x.2 ∧ x.1 = []) ∨ body (skipWs l) = some x := by
  unfold bracketed at h
  rcases skipWs_cases l with hskip | ⟨w, c, m, rfl, hw, hskip⟩
  · rw [hskip] at h
    cases h
  · rw [hskip, List.head?_cons, Option.bind_some, ← hskip] at h
    split_ifs at h with hc
    · left
      rw [hskip] at h
      cases h
      exact ⟨w, hw, by rw [hc]; rfl, rfl⟩
    · exact .inr h

end

theorem parseItems_last {n : ℕ} {l m rest : List UInt8} {v : Json}
    (hv : parseValue n l = some (v, m)) (hm : skipWs m = ascii ']' :: rest) :
    parseItems (n + 1) l = some ([v], rest) := by
  rw [parseItems, hv, Option.bind_some, hm]
  rfl

theorem parseItems_comma {n : ℕ} {l m m' rest : List UInt8} {v : Json} {vs : List Json}
    (hv : parseValue n l = some (v, m)) (hm : skipWs m = ascii ',' :: m')
    (h : parseItems n m' = some (vs, rest)) : parseItems (n + 1) l = some (v :: vs, rest) := by
  rw [parseItems, hv, Option.bind_some, hm]
  dsimp only
  rw [if_pos rfl, h]
  rfl

/-- One member up to and including the byte after it. -/
theorem parseMembers_member {n : ℕ} {w k w₁ l m l' : List UInt8} {v : Json} {c : UInt8}
    (hw : IsBlank w) (hk : IsContents k) (hw₁ : IsBlank w₁) (hv : parseValue n l = some (v, m))
    (hm : skipWs m = c :: l') :
    parseMembers (n + 1) (w ++ ascii '"' :: (k ++ ascii '"' :: (w₁ ++ ascii ':' :: l))) =
      if c = ascii ',' then (parseMembers n l').map fun y => ((k, v) :: y.1, y.2)
      else if c = ascii '}' then some ([(k, v)], l')
      else none := by
  rw [parseMembers, skipWs_append hw, skipWs_cons (by decide)]
  dsimp only
  rw [if_pos rfl, scanString_of_isContents hk, Option.bind_some, skipWs_append hw₁,
    skipWs_cons (by decide)]
  dsimp only
  rw [if_pos rfl, hv, Option.bind_some, hm]

theorem Items.exists_skipWs {l : List UInt8} {vs : List Json} (h : Items l vs) (rest : List UInt8) :
    ∃ c m, skipWs (l ++ rest) = c :: m ∧ c ≠ ascii ']' := by
  have hvalue {w t : List UInt8} {v : Json} (hw : IsBlank w) (hv : Value t v) (x : List UInt8) :
      ∃ c m, skipWs (w ++ (t ++ x)) = c :: m ∧ c ≠ ascii ']' := by
    obtain ⟨c, t', rfl, hc, hne⟩ := hv.exists_cons
    exact ⟨c, t' ++ x, by rw [skipWs_append hw, List.cons_append, skipWs_cons hc], hne⟩
  cases h with
  | one hw hv hw' =>
    simp only [List.append_assoc]
    exact hvalue hw hv _
  | cons hw hv hw' h =>
    simp only [List.append_assoc]
    exact hvalue hw hv _

theorem Members.exists_skipWs {l : List UInt8} {ms : List (List UInt8 × Json)} (h : Members l ms)
    (rest : List UInt8) : ∃ c m, skipWs (l ++ rest) = c :: m ∧ c ≠ ascii '}' := by
  cases h with
  | one hw | cons hw =>
    rw [List.append_assoc, skipWs_append hw, List.cons_append, skipWs_cons (by decide)]
    exact ⟨_, _, rfl, by decide⟩

/-- The parsers with the bound `n` read every text of the grammar that the bound allows for. -/
structure Complete (n : ℕ) : Prop where
  value {t : List UInt8} {v : Json} (h : Value t v) (hn : t.length ≤ n) {rest : List UInt8}
    (hrest : EndsNumber rest) : parseValue n (t ++ rest) = some (v, rest)
  items {l : List UInt8} {vs : List Json} (h : Items l vs) (hn : l.length < n) (rest : List UInt8) :
    parseItems n (l ++ ascii ']' :: rest) = some (vs, rest)
  members {l : List UInt8} {ms : List (List UInt8 × Json)} (h : Members l ms) (hn : l.length < n)
    (rest : List UInt8) : parseMembers n (l ++ ascii '}' :: rest) = some (ms, rest)

namespace Complete

variable {n : ℕ}

/-- The value of an item or a member, and the byte after it. -/
theorem step (h : Complete n) {w t w' : List UInt8} {v : Json} (hw : IsBlank w) (hv : Value t v)
    (hw' : IsBlank w') (hlen : t.length ≤ n) {c : UInt8}
    (hc : c = ascii ',' ∨ c = ascii ']' ∨ c = ascii '}') (rest : List UInt8) :
    parseValue n (w ++ (t ++ (w' ++ c :: rest))) = some (v, w' ++ c :: rest) ∧
      skipWs (w' ++ c :: rest) = c :: rest := by
  constructor
  · rw [parseValue_append hw]
    exact h.value hv hlen (endsNumber_append hw' (endsNumber_cons hc rest))
  · rw [skipWs_append hw']
    apply skipWs_cons
    rcases hc with rfl | rfl | rfl <;> decide

theorem value_succ (ih : Complete n) {t : List UInt8} {v : Json} (h : Value t v)
    (hn : t.length ≤ n + 1) {rest : List UInt8} (hrest : EndsNumber rest) :
    parseValue (n + 1) (t ++ rest) = some (v, rest) := by
  cases h with
  | null | boolTrue | boolFalse => rfl
  | number h => exact parseValue_number h hrest n
  | string h => exact parseValue_string h n rest
  | emptyArray hw =>
    rw [List.cons_append, List.append_assoc, parseValue_bracket, List.singleton_append,
      bracketed_blank hw (by decide)]
    rfl
  | emptyObject hw =>
    rw [List.cons_append, List.append_assoc, parseValue_brace, List.singleton_append,
      bracketed_blank hw (by decide)]
    rfl
  | array h =>
    simp only [List.length_cons, List.length_append, List.length_nil] at hn
    obtain ⟨c, m, hl, hc⟩ := h.exists_skipWs (ascii ']' :: rest)
    have hitems := ih.items h (by omega) rest
    rw [← parseItems_skipWs] at hitems
    rw [List.cons_append, List.append_assoc, parseValue_bracket, List.singleton_append,
      bracketed_body hl hc hitems]
    rfl
  | object h =>
    simp only [List.length_cons, List.length_append, List.length_nil] at hn
    obtain ⟨c, m, hl, hc⟩ := h.exists_skipWs (ascii '}' :: rest)
    have hmembers := ih.members h (by omega) rest
    rw [← parseMembers_skipWs] at hmembers
    rw [List.cons_append, List.append_assoc, parseValue_brace, List.singleton_append,
      bracketed_body hl hc hmembers]
    rfl

theorem items_succ (ih : Complete n) {l : List UInt8} {vs : List Json} (h : Items l vs)
    (hn : l.length < n + 1) (rest : List UInt8) :
    parseItems (n + 1) (l ++ ascii ']' :: rest) = some (vs, rest) := by
  cases h with
  | one hw hv hw' =>
    simp only [List.length_append] at hn
    obtain ⟨hvalue, hskip⟩ := ih.step hw hv hw' (by omega) (.inr (.inl rfl)) rest
    simp only [List.append_assoc]
    exact parseItems_last hvalue hskip
  | @cons w t w' l v vs hw hv hw' h =>
    simp only [List.length_append, List.length_cons] at hn
    obtain ⟨hvalue, hskip⟩ := ih.step hw hv hw' (by omega) (.inl rfl) (l ++ ascii ']' :: rest)
    simp only [List.append_assoc, List.cons_append]
    exact parseItems_comma hvalue hskip (ih.items h (by omega) rest)

theorem members_succ (ih : Complete n) {l : List UInt8} {ms : List (List UInt8 × Json)}
    (h : Members l ms) (hn : l.length < n + 1) (rest : List UInt8) :
    parseMembers (n + 1) (l ++ ascii '}' :: rest) = some (ms, rest) := by
  cases h with
  | one hw hk hw₁ hw₂ hv hw' =>
    simp only [List.length_append, List.length_cons] at hn
    obtain ⟨hvalue, hskip⟩ := ih.step hw₂ hv hw' (by omega) (.inr (.inr rfl)) rest
    simp only [List.append_assoc, List.cons_append]
    rw [parseMembers_member hw hk hw₁ hvalue hskip]
    rfl
  | @cons w k w₁ w₂ t w' l v ms hw hk hw₁ hw₂ hv hw' h =>
    simp only [List.length_append, List.length_cons] at hn
    obtain ⟨hvalue, hskip⟩ := ih.step hw₂ hv hw' (by omega) (.inl rfl) (l ++ ascii '}' :: rest)
    simp only [List.append_assoc, List.cons_append]
    rw [parseMembers_member hw hk hw₁ hvalue hskip, if_pos rfl, ih.members h (by omega)]
    rfl

end Complete

/-- The parser reads every text of the grammar. -/
theorem complete (n : ℕ) : Complete n := by
  induction n with
  | zero =>
    refine ⟨fun h hn => ?_, fun _ hn => absurd hn (Nat.not_lt_zero _),
      fun _ hn => absurd hn (Nat.not_lt_zero _)⟩
    obtain ⟨c, l, rfl, -⟩ := h.exists_cons
    exact absurd hn (Nat.not_succ_le_zero _)
  | succ n ih => exact ⟨ih.value_succ, ih.items_succ, ih.members_succ⟩

/-! ## The parser reads nothing else -/

theorem literal_eq_some {word l rest : List UInt8} (h : literal word l = some rest) :
    l = word ++ rest := by
  unfold literal at h
  split_ifs at h with hp
  obtain ⟨m, rfl⟩ := List.isPrefixOf_iff_prefix.1 hp
  cases h
  rw [List.drop_left]

/-- What the parsers with the bound `n` read is described by the grammar. -/
structure Sound (n : ℕ) : Prop where
  value {l : List UInt8} {v : Json} {rest : List UInt8} (h : parseValue n l = some (v, rest)) :
    ∃ w t, l = w ++ (t ++ rest) ∧ IsBlank w ∧ Value t v
  items {l : List UInt8} {vs : List Json} {rest : List UInt8}
    (h : parseItems n l = some (vs, rest)) : ∃ t, l = t ++ ascii ']' :: rest ∧ Items t vs
  members {l : List UInt8} {ms : List (List UInt8 × Json)} {rest : List UInt8}
    (h : parseMembers n l = some (ms, rest)) : ∃ t, l = t ++ ascii '}' :: rest ∧ Members t ms

namespace Sound

variable {n : ℕ} {l rest : List UInt8}

theorem array (ih : Sound n) {v : Json}
    (h : parseValue (n + 1) (ascii '[' :: l) = some (v, rest)) :
    ∃ t, ascii '[' :: l = t ++ rest ∧ Value t v := by
  rw [parseValue_bracket] at h
  obtain ⟨⟨vs, rest'⟩, hs, he⟩ := Option.map_eq_some_iff.1 h
  cases he
  rcases of_bracketed hs with ⟨w, hw, rfl, rfl⟩ | hs
  · exact ⟨_, by simp, .emptyArray hw⟩
  · rw [parseItems_skipWs] at hs
    obtain ⟨t, rfl, hvs⟩ := ih.items hs
    exact ⟨_, by simp, .array hvs⟩

theorem object (ih : Sound n) {v : Json}
    (h : parseValue (n + 1) (ascii '{' :: l) = some (v, rest)) :
    ∃ t, ascii '{' :: l = t ++ rest ∧ Value t v := by
  rw [parseValue_brace] at h
  obtain ⟨⟨ms, rest'⟩, hs, he⟩ := Option.map_eq_some_iff.1 h
  cases he
  rcases of_bracketed hs with ⟨w, hw, rfl, rfl⟩ | hs
  · exact ⟨_, by simp, .emptyObject hw⟩
  · rw [parseMembers_skipWs] at hs
    obtain ⟨t, rfl, hms⟩ := ih.members hs
    exact ⟨_, by simp, .object hms⟩

theorem value_succ (ih : Sound n) {v : Json} (h : parseValue (n + 1) l = some (v, rest)) :
    ∃ w t, l = w ++ (t ++ rest) ∧ IsBlank w ∧ Value t v := by
  rcases skipWs_cases l with hskip | ⟨w, c, m, rfl, hw, hskip⟩
  · rw [parseValue, hskip] at h
    cases h
  suffices ∃ t, c :: m = t ++ rest ∧ Value t v by
    obtain ⟨t, ht, hv⟩ := this
    exact ⟨w, t, by rw [ht], hw, hv⟩
  rw [parseValue_append hw] at h
  by_cases hbracket : c = ascii '['
  · subst hbracket
    exact ih.array h
  by_cases hbrace : c = ascii '{'
  · subst hbrace
    exact ih.object h
  rw [skipWs_append hw] at hskip
  rw [parseValue, hskip] at h
  dsimp only at h
  rw [if_neg hbracket, if_neg hbrace] at h
  split_ifs at h with hquote hn ht hf
  · obtain ⟨⟨raw, rest'⟩, hs, he⟩ := Option.map_eq_some_iff.1 h
    cases he
    obtain ⟨hm, hraw⟩ := isContents_of_scanString hs
    exact ⟨_, by rw [hquote, hm]; simp, .string hraw⟩
  · obtain ⟨rest', hs, he⟩ := Option.map_eq_some_iff.1 h
    cases he
    exact ⟨_, by rw [hn, literal_eq_some hs]; rfl, .null⟩
  · obtain ⟨rest', hs, he⟩ := Option.map_eq_some_iff.1 h
    cases he
    exact ⟨_, by rw [ht, literal_eq_some hs]; rfl, .boolTrue⟩
  · obtain ⟨rest', hs, he⟩ := Option.map_eq_some_iff.1 h
    cases he
    exact ⟨_, by rw [hf, literal_eq_some hs]; rfl, .boolFalse⟩
  · obtain ⟨⟨t, rest'⟩, hs, he⟩ := Option.map_eq_some_iff.1 h
    cases he
    obtain ⟨hm, ht⟩ := isNumber_of_scanNumber hs
    exact ⟨t, hm, .number ht⟩

theorem items_succ (ih : Sound n) {vs : List Json} (h : parseItems (n + 1) l = some (vs, rest)) :
    ∃ t, l = t ++ ascii ']' :: rest ∧ Items t vs := by
  obtain ⟨⟨v, m⟩, hv, hnext⟩ := Option.bind_eq_some_iff.1 h
  obtain ⟨w, t, rfl, hw, ht⟩ := ih.value hv
  dsimp only at hnext
  rcases skipWs_cases m with hskip | ⟨w', c, m', rfl, hw', hskip⟩
  · rw [hskip] at hnext
    cases hnext
  rw [hskip] at hnext
  dsimp only at hnext
  split_ifs at hnext with hcomma hbracket
  · obtain ⟨⟨vs', rest'⟩, hs, he⟩ := Option.map_eq_some_iff.1 hnext
    cases he
    obtain ⟨l, rfl, hl⟩ := ih.items hs
    exact ⟨_, by rw [hcomma]; simp, .cons hw ht hw' hl⟩
  · cases hnext
    exact ⟨_, by rw [hbracket]; simp, .one hw ht hw'⟩

theorem members_succ (ih : Sound n) {ms : List (List UInt8 × Json)}
    (h : parseMembers (n + 1) l = some (ms, rest)) :
    ∃ t, l = t ++ ascii '}' :: rest ∧ Members t ms := by
  rw [parseMembers] at h
  rcases skipWs_cases l with hskip | ⟨w, q, l', rfl, hw, hskip⟩
  · rw [hskip] at h
    cases h
  rw [hskip] at h
  dsimp only at h
  split_ifs at h with hq
  obtain ⟨⟨k, m⟩, hkm, hname⟩ := Option.bind_eq_some_iff.1 h
  obtain ⟨rfl, hk⟩ := isContents_of_scanString hkm
  dsimp only at hname
  rcases skipWs_cases m with hskip | ⟨w₁, d, m', rfl, hw₁, hskip⟩
  · rw [hskip] at hname
    cases hname
  rw [hskip] at hname
  dsimp only at hname
  split_ifs at hname with hd
  obtain ⟨⟨v, x⟩, hv, hnext⟩ := Option.bind_eq_some_iff.1 hname
  obtain ⟨w₂, t, rfl, hw₂, ht⟩ := ih.value hv
  dsimp only at hnext
  rcases skipWs_cases x with hskip | ⟨w', c, x', rfl, hw', hskip⟩
  · rw [hskip] at hnext
    cases hnext
  rw [hskip] at hnext
  dsimp only at hnext
  split_ifs at hnext with hcomma hbrace
  · obtain ⟨⟨ms', rest'⟩, hs, he⟩ := Option.map_eq_some_iff.1 hnext
    cases he
    obtain ⟨l, rfl, hms⟩ := ih.members hs
    exact ⟨_, by rw [hq, hd, hcomma]; simp, .cons hw hk hw₁ hw₂ ht hw' hms⟩
  · cases hnext
    exact ⟨_, by rw [hq, hd, hbrace]; simp, .one hw hk hw₁ hw₂ ht hw'⟩

end Sound

/-- The parser reads no text outside of the grammar. -/
theorem sound (n : ℕ) : Sound n := by
  induction n with
  | zero => exact ⟨fun h => (nomatch h), fun h => (nomatch h), fun h => (nomatch h)⟩
  | succ n ih => exact ⟨ih.value_succ, ih.items_succ, ih.members_succ⟩

/-- A text is parsed as a value exactly when the grammar has it for this value. -/
theorem parse_eq_some_iff {l : List UInt8} {v : Json} : parse l = some v ↔ IsText l v := by
  constructor
  · intro h
    obtain ⟨⟨v', rest⟩, hv, h⟩ := Option.bind_eq_some_iff.1 h
    split_ifs at h with hrest
    cases h
    obtain ⟨w, t, rfl, hw, ht⟩ := (sound _).value hv
    exact ⟨w, t, rest, rfl, hw, ht, skipWs_eq_nil_iff.1 hrest⟩
  · rintro ⟨w, t, w', rfl, hw, ht, hw'⟩
    have hends := endsNumber_append hw' endsNumber_nil
    rw [List.append_nil] at hends
    rw [parse, parseValue_append hw, (complete _).value ht _ hends, Option.bind_some,
      if_pos (skipWs_eq_nil_iff.2 hw')]
    simp only [List.length_append]
    omega

/-! ## Natural numbers -/

theorem IsInteger.ne_nil {l : List UInt8} (h : IsInteger l) : l ≠ [] := by
  cases h <;> exact List.cons_ne_nil _ _

end JsonText
