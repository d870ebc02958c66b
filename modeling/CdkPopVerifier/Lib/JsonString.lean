import CdkPopVerifier.Lib.Text

/-!
# JSON strings

A JSON string (RFC 8259 §7) at the level of bytes.  `escape` writes the contents of a string the way
`serde_json` does: a short escape where there is one, `\u00xx` for the other control characters and
every other byte unchanged.  `scanString` finds the closing quote and checks the shape of the escapes
only; `unescape` resolves them, pairing surrogates; `decodeString` also checks that the resulting
bytes are UTF-8.
-/

namespace JsonText

open Text

/-- The byte of an ASCII character. -/
def ascii (c : Char) : UInt8 := UInt8.ofNat c.toNat

/-- The lower-case hexadecimal digit of a number below 16. -/
def hexDigit (n : ℕ) : UInt8 := if n < 10 then UInt8.ofNat (48 + n) else UInt8.ofNat (87 + n)

/-- The value of a hexadecimal digit of either case. -/
def hexValue (c : UInt8) : Option ℕ :=
  let n := c.toNat
  if 48 ≤ n ∧ n ≤ 57 then some (n - 48)
  else if 97 ≤ n ∧ n ≤ 102 then some (n - 87)
  else if 65 ≤ n ∧ n ≤ 70 then some (n - 55)
  else none

/-- The number written by four hexadecimal digits. -/
def hex4 (a b c d : UInt8) : Option ℕ := do
  let x ← hexValue a
  let y ← hexValue b
  let z ← hexValue c
  let w ← hexValue d
  some (((x * 16 + y) * 16 + z) * 16 + w)

/-- The byte that a short escape stands for. -/
def shortEscape (e : UInt8) : Option UInt8 :=
  if e = ascii '"' then some (ascii '"')
  else if e = ascii '\\' then some (ascii '\\')
  else if e = ascii '/' then some (ascii '/')
  else if e = ascii 'b' then some 8
  else if e = ascii 'f' then some 12
  else if e = ascii 'n' then some 10
  else if e = ascii 'r' then some 13
  else if e = ascii 't' then some 9
  else none

/-- The escaped form of a byte. -/
def escapeByte (b : UInt8) : List UInt8 :=
  if b = ascii '"' then [ascii '\\', ascii '"']
  else if b = ascii '\\' then [ascii '\\', ascii '\\']
  else if b = 8 then [ascii '\\', ascii 'b']
  else if b = 9 then [ascii '\\', ascii 't']
  else if b = 10 then [ascii '\\', ascii 'n']
  else if b = 12 then [ascii '\\', ascii 'f']
  else if b = 13 then [ascii '\\', ascii 'r']
  else if b < 0x20 then
    [ascii '\\', ascii 'u', ascii '0', ascii '0', hexDigit (b.toNat / 16), hexDigit (b.toNat % 16)]
  else [b]

/-- The escaped contents of a string. -/
def escape (l : List UInt8) : List UInt8 := l.flatMap escapeByte

/-- The UTF-8 bytes of the code point `n`. -/
def codePoint (n : ℕ) : List UInt8 := String.utf8EncodeChar (Char.ofNat n)

/-- The contents of a string up to its closing quote, as written, and the rest of the text. -/
def scanString : List UInt8 → Option (List UInt8 × List UInt8)
  | [] => none
  | c :: l =>
    if c = ascii '"' then some ([], l)
    else if c < 0x20 then none
    else if c ≠ ascii '\\' then (scanString l).map fun x => (c :: x.1, x.2)
    else match l with
      | [] => none
      | e :: l =>
        if e = ascii 'u' then
          match l with
          | h₁ :: h₂ :: h₃ :: h₄ :: l =>
            if (hex4 h₁ h₂ h₃ h₄).isSome then
              (scanString l).map fun x => (c :: e :: h₁ :: h₂ :: h₃ :: h₄ :: x.1, x.2)
            else none
          | _ => none
        else if (shortEscape e).isSome then (scanString l).map fun x => (c :: e :: x.1, x.2)
        else none

/-- Resolve the escapes.  A low surrogate must follow a high one, and only there. -/
def unescape : List UInt8 → Option (List UInt8)
  | [] => some []
  | c :: l =>
    if c ≠ ascii '\\' then (unescape l).map (c :: ·)
    else match l with
      | [] => none
      | e :: l =>
        if e = ascii 'u' then
          match l with
          | h₁ :: h₂ :: h₃ :: h₄ :: l =>
            (hex4 h₁ h₂ h₃ h₄).bind fun n =>
              if 0xDC00 ≤ n ∧ n ≤ 0xDFFF then none
              else if n < 0xD800 ∨ 0xDBFF < n then (unescape l).map (codePoint n ++ ·)
              else match l with
                | b :: u :: g₁ :: g₂ :: g₃ :: g₄ :: l =>
                  if b = ascii '\\' ∧ u = ascii 'u' then
                    (hex4 g₁ g₂ g₃ g₄).bind fun m =>
                      if 0xDC00 ≤ m ∧ m ≤ 0xDFFF then
                        (unescape l).map
                          (codePoint ((n - 0xD800) * 0x400 + (m - 0xDC00) + 0x10000) ++ ·)
                      else none
                  else none
                | _ => none
          | _ => none
        else (shortEscape e).bind fun b => (unescape l).map (b :: ·)

/-- The string whose contents are written `raw`. -/
def decodeString (raw : List UInt8) : Option String := (unescape raw).bind fromUtf8

/-- The ways a byte is escaped. -/
theorem escapeByte_cases (b : UInt8) :
    (escapeByte b = [b] ∧ ¬ b < 0x20 ∧ b ≠ ascii '"' ∧ b ≠ ascii '\\') ∨
    (∃ e, escapeByte b = [ascii '\\', e] ∧ e ≠ ascii 'u' ∧ shortEscape e = some b) ∨
    ∃ h l, escapeByte b = [ascii '\\', ascii 'u', ascii '0', ascii '0', h, l] ∧
      hex4 (ascii '0') (ascii '0') h l = some b.toNat ∧ b.toNat < 0x20 ∧
      codePoint b.toNat = [b] := by
  by_cases h1 : b = ascii '"'
  · exact .inr (.inl ⟨ascii '"', by subst h1; decide⟩)
  by_cases h2 : b = ascii '\\'
  · exact .inr (.inl ⟨ascii '\\', by subst h2; decide⟩)
  by_cases hb : b < 0x20
  · have key : ∀ n : Fin 32,
        (∃ e ∈ [ascii 'b', ascii 't', ascii 'n', ascii 'f', ascii 'r'],
          escapeByte (UInt8.ofNat n) = [ascii '\\', e] ∧ e ≠ ascii 'u' ∧
            shortEscape e = some (UInt8.ofNat n)) ∨
        (escapeByte (UInt8.ofNat n) = [ascii '\\', ascii 'u', ascii '0', ascii '0',
            hexDigit (n / 16), hexDigit (n % 16)] ∧
          hex4 (ascii '0') (ascii '0') (hexDigit (n / 16)) (hexDigit (n % 16)) = some n.val ∧
          codePoint n = [UInt8.ofNat n]) := by
      decide
    have hn : b.toNat < 32 := UInt8.lt_iff_toNat_lt.1 hb
    obtain ⟨e, -, he⟩ | ⟨h, hh, hc⟩ := key ⟨b.toNat, hn⟩
    · exact .inr (.inl ⟨e, by simpa using he⟩)
    · exact .inr (.inr ⟨_, _, by simpa using h, hh, hn, by simpa using hc⟩)
  · refine .inl ⟨?_, hb, h1, h2⟩
    have h8 : ∀ n : UInt8, n < 0x20 → b ≠ n := fun n hn e => hb (e ▸ hn)
    rw [escapeByte, if_neg h1, if_neg h2, if_neg (h8 8 (by decide)), if_neg (h8 9 (by decide)),
      if_neg (h8 10 (by decide)), if_neg (h8 12 (by decide)), if_neg (h8 13 (by decide)),
      if_neg hb]

/-! ### One step of each scanner -/

theorem scanString_quote (l : List UInt8) : scanString (ascii '"' :: l) = some ([], l) := by
  rw [scanString.eq_def]
  exact if_pos rfl

theorem scanString_plain {b : UInt8} (hq : b ≠ ascii '"') (hb : ¬ b < 0x20)
    (hs : b ≠ ascii '\\') (l : List UInt8) :
    scanString (b :: l) = (scanString l).map fun x => (b :: x.1, x.2) := by
  rw [scanString.eq_def]
  exact (if_neg hq).trans ((if_neg hb).trans (if_pos hs))

theorem scanString_short {e b : UInt8} (he : e ≠ ascii 'u') (hs : shortEscape e = some b)
    (l : List UInt8) : scanString (ascii '\\' :: e :: l) =
      (scanString l).map fun x => (ascii '\\' :: e :: x.1, x.2) := by
  rw [scanString.eq_def]
  dsimp only
  rw [if_neg (by decide), if_neg (by decide), if_neg (by simp), if_neg he, hs]
  rfl

theorem scanString_unicode {a b c d : UInt8} {n : ℕ} (h : hex4 a b c d = some n)
    (l : List UInt8) : scanString (ascii '\\' :: ascii 'u' :: a :: b :: c :: d :: l) =
      (scanString l).map fun x =>
        (ascii '\\' :: ascii 'u' :: a :: b :: c :: d :: x.1, x.2) := by
  rw [scanString.eq_def]
  dsimp only
  rw [if_neg (by decide), if_neg (by decide), if_neg (by simp), if_pos rfl, h]
  rfl

theorem unescape_plain {b : UInt8} (hs : b ≠ ascii '\\') (l : List UInt8) :
    unescape (b :: l) = (unescape l).map (b :: ·) := by
  rw [unescape.eq_def]
  exact if_pos hs

theorem unescape_short {e b : UInt8} (he : e ≠ ascii 'u') (hs : shortEscape e = some b)
    (l : List UInt8) : unescape (ascii '\\' :: e :: l) = (unescape l).map (b :: ·) := by
  rw [unescape.eq_def]
  dsimp only
  rw [if_neg (by simp), if_neg he, hs]
  rfl

theorem unescape_unicode {a b c d : UInt8} {n : ℕ} (h : hex4 a b c d = some n)
    (hn : n < 0xD800) (l : List UInt8) :
    unescape (ascii '\\' :: ascii 'u' :: a :: b :: c :: d :: l) =
      (unescape l).map (codePoint n ++ ·) := by
  rw [unescape.eq_def]
  dsimp only
  rw [if_neg (by simp), if_pos rfl, h, Option.bind_some, if_neg (by omega), if_pos (.inl hn)]

/-! ### Escaped strings -/

theorem scanString_escapeByte (b : UInt8) (l : List UInt8) :
    scanString (escapeByte b ++ l) =
      (scanString l).map fun x => (escapeByte b ++ x.1, x.2) := by
  obtain ⟨h, hb, hq, hs⟩ | ⟨e, h, he, hs⟩ | ⟨x, y, h, hn, -, -⟩ := escapeByte_cases b
  · rw [h]
    exact scanString_plain hq hb hs l
  · rw [h]
    exact scanString_short he hs l
  · rw [h]
    exact scanString_unicode hn l

theorem unescape_escapeByte (b : UInt8) (l : List UInt8) :
    unescape (escapeByte b ++ l) = (unescape l).map (b :: ·) := by
  obtain ⟨h, -, -, hs⟩ | ⟨e, h, he, hs⟩ | ⟨x, y, h, hn, hlt, hc⟩ := escapeByte_cases b
  · rw [h]
    exact unescape_plain hs l
  · rw [h]
    exact unescape_short he hs l
  · rw [h]
    refine (unescape_unicode hn (by omega) l).trans ?_
    rw [hc]
    rfl

/-- An escaped string is scanned up to the quote that closes it. -/
theorem scanString_escape (l rest : List UInt8) :
    scanString (escape l ++ ascii '"' :: rest) = some (escape l, rest) := by
  induction l with
  | nil => exact scanString_quote rest
  | cons b l ih =>
    rw [escape, List.flatMap_cons, List.append_assoc, scanString_escapeByte]
    rw [escape] at ih
    rw [ih]
    rfl

/-- Resolving the escapes undoes escaping, for every sequence of bytes. -/
theorem unescape_escape (l : List UInt8) : unescape (escape l) = some l := by
  induction l with
  | nil => rfl
  | cons b l ih =>
    rw [escape, List.flatMap_cons, unescape_escapeByte]
    rw [escape] at ih
    rw [ih]
    rfl

@[simp] theorem decodeString_escape (s : String) : decodeString (escape (utf8 s)) = some s := by
  rw [decodeString, unescape_escape, Option.bind_some, fromUtf8_utf8]

theorem forall_mem_escapeByte_lt {b : UInt8} (hb : b < 0x80) : ∀ x ∈ escapeByte b, x < 0x80 := by
  have key : ∀ n : Fin 128, ∀ x ∈ escapeByte (UInt8.ofNat n), x < 0x80 := by decide
  simpa using key ⟨b.toNat, UInt8.lt_iff_toNat_lt.1 hb⟩

theorem escapeByte_eq_self {b : UInt8} (hb : ¬ b < 0x80) : escapeByte b = [b] := by
  have hne : ∀ n : UInt8, n < 0x80 → b ≠ n := fun n hn e => hb (e ▸ hn)
  have hcontrol : ¬ b < 0x20 := fun h => hb (UInt8.lt_trans h (by decide))
  rw [escapeByte, if_neg (hne (ascii '"') (by decide)), if_neg (hne (ascii '\\') (by decide)),
    if_neg (hne 8 (by decide)), if_neg (hne 9 (by decide)), if_neg (hne 10 (by decide)),
    if_neg (hne 12 (by decide)), if_neg (hne 13 (by decide)), if_neg hcontrol]

/-- Escaped text is text. -/
theorem isUtf8_escape (s : String) : IsUtf8 (escape (utf8 s)) := by
  have hchar : ∀ c, IsUtf8 (escape (String.utf8EncodeChar c)) := by
    intro c
    rcases utf8EncodeChar_cases c with ⟨b, hb, hc⟩ | hc
    · rw [hc, escape, List.flatMap_singleton]
      exact isUtf8_of_forall_lt (forall_mem_escapeByte_lt hb)
    · have hid : escape (String.utf8EncodeChar c) = String.utf8EncodeChar c := by
        rw [escape, List.flatMap_congr fun b hb => escapeByte_eq_self (hc b hb),
          List.flatMap_singleton']
      rw [hid]
      exact isUtf8_utf8EncodeChar c
  rw [utf8_eq_flatMap]
  induction s.toList with
  | nil => exact isUtf8_nil
  | cons c l ih =>
    rw [List.flatMap_cons, escape, List.flatMap_append]
    exact (hchar c).append ih

end JsonText
