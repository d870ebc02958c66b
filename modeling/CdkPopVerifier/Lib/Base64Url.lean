import Mathlib.Tactic.Common

/-!
# Base64url without padding

RFC 4648 §5 without padding: three bytes are written as four symbols of the alphabet `A`–`Z`,
`a`–`z`, `0`–`9`, `-`, `_`; one or two bytes at the end are written as two or three symbols.  The
decoder is strict: it rejects every other character, a last group of one symbol, and a last group
whose unused low bits are not zero.
-/

namespace Base64Url

/-- The symbol of a sextet. -/
def symbol (n : ℕ) : Char :=
  if n < 26 then Char.ofNat (65 + n)
  else if n < 52 then Char.ofNat (71 + n)
  else if n < 62 then Char.ofNat (n - 4)
  else if n = 62 then '-' else '_'

/-- The sextet of a symbol. -/
def sextet (c : Char) : Option ℕ :=
  let n := c.toNat
  if 65 ≤ n ∧ n ≤ 90 then some (n - 65)
  else if 97 ≤ n ∧ n ≤ 122 then some (n - 71)
  else if 48 ≤ n ∧ n ≤ 57 then some (n + 4)
  else if c = '-' then some 62
  else if c = '_' then some 63
  else none

/-- Encode a sequence of bytes. -/
def encode : List UInt8 → List Char
  | [] => []
  | [a] => [symbol (a.toNat / 4), symbol (a.toNat % 4 * 16)]
  | [a, b] =>
    [symbol (a.toNat / 4), symbol (a.toNat % 4 * 16 + b.toNat / 16), symbol (b.toNat % 16 * 4)]
  | a :: b :: c :: l =>
    symbol (a.toNat / 4) :: symbol (a.toNat % 4 * 16 + b.toNat / 16) ::
      symbol (b.toNat % 16 * 4 + c.toNat / 64) :: symbol (c.toNat % 64) :: encode l

/-- Decode a sequence of symbols. -/
def decode : List Char → Option (List UInt8)
  | [] => some []
  | [_] => none
  | [p, q] => do
    let x ← sextet p
    let y ← sextet q
    if y % 16 = 0 then some [UInt8.ofNat (x * 4 + y / 16)] else none
  | [p, q, r] => do
    let x ← sextet p
    let y ← sextet q
    let z ← sextet r
    if z % 4 = 0 then some [UInt8.ofNat (x * 4 + y / 16), UInt8.ofNat (y % 16 * 16 + z / 4)]
    else none
  | p :: q :: r :: s :: l => do
    let x ← sextet p
    let y ← sextet q
    let z ← sextet r
    let w ← sextet s
    let bs ← decode l
    some (UInt8.ofNat (x * 4 + y / 16) :: UInt8.ofNat (y % 16 * 16 + z / 4) ::
      UInt8.ofNat (z % 4 * 64 + w) :: bs)

theorem sextet_symbol {n : ℕ} (h : n < 64) : sextet (symbol n) = some n := by
  have key : ∀ n : Fin 64, sextet (symbol n) = some n.val := by decide
  exact key ⟨n, h⟩

/-- The alphabet: letters, digits, `-` and `_`. -/
def IsSymbol (c : Char) : Prop :=
  (65 ≤ c.toNat ∧ c.toNat ≤ 90) ∨ (97 ≤ c.toNat ∧ c.toNat ≤ 122) ∨
    (48 ≤ c.toNat ∧ c.toNat ≤ 57) ∨ c = '-' ∨ c = '_'

theorem isSymbol_iff_sextet (c : Char) : IsSymbol c ↔ (sextet c).isSome := by
  simp only [IsSymbol, sextet]
  split_ifs <;> simp_all

theorem isSymbol_symbol {n : ℕ} (h : n < 64) : IsSymbol (symbol n) := by
  rw [isSymbol_iff_sextet, sextet_symbol h]
  rfl

theorem ofNat_sextets_high {a : UInt8} {n : ℕ} (h : n < 16) :
    UInt8.ofNat (a.toNat / 4 * 4 + (a.toNat % 4 * 16 + n) / 16) = a := by
  have : a.toNat / 4 * 4 + (a.toNat % 4 * 16 + n) / 16 = a.toNat := by omega
  rw [this, UInt8.ofNat_toNat]

theorem ofNat_sextets_mid {b : UInt8} {m n : ℕ} (h : n < 4) :
    UInt8.ofNat ((m * 16 + b.toNat / 16) % 16 * 16 + (b.toNat % 16 * 4 + n) / 4) = b := by
  have hb := b.toNat_lt
  have : (m * 16 + b.toNat / 16) % 16 * 16 + (b.toNat % 16 * 4 + n) / 4 = b.toNat := by omega
  rw [this, UInt8.ofNat_toNat]

theorem ofNat_sextets_low {c : UInt8} {m : ℕ} :
    UInt8.ofNat ((m * 4 + c.toNat / 64) % 4 * 64 + c.toNat % 64) = c := by
  have hc := c.toNat_lt
  have : (m * 4 + c.toNat / 64) % 4 * 64 + c.toNat % 64 = c.toNat := by omega
  rw [this, UInt8.ofNat_toNat]

/-- Decoding undoes encoding, for each of the three lengths of the last group. -/
theorem decode_encode (l : List UInt8) : decode (encode l) = some l := by
  induction l using encode.induct with
  | case1 => rfl
  | case2 a =>
    have ha := a.toNat_lt
    have h := ofNat_sextets_high (a := a) (n := 0) (by omega)
    rw [Nat.add_zero] at h
    simp only [encode, decode, sextet_symbol (show a.toNat / 4 < 64 by omega),
      sextet_symbol (show a.toNat % 4 * 16 < 64 by omega), Option.bind_eq_bind, Option.bind_some,
      Nat.mul_mod_left, if_true, h]
  | case3 a b =>
    have ha := a.toNat_lt
    have hb := b.toNat_lt
    have h₁ := ofNat_sextets_high (a := a) (n := b.toNat / 16) (by omega)
    have h₂ := ofNat_sextets_mid (b := b) (m := a.toNat % 4) (n := 0) (by omega)
    rw [Nat.add_zero] at h₂
    simp only [encode, decode, sextet_symbol (show a.toNat / 4 < 64 by omega),
      sextet_symbol (show a.toNat % 4 * 16 + b.toNat / 16 < 64 by omega),
      sextet_symbol (show b.toNat % 16 * 4 < 64 by omega), Option.bind_eq_bind, Option.bind_some,
      Nat.mul_mod_left, if_true, h₁, h₂]
  | case4 a b c l ih =>
    have ha := a.toNat_lt
    have hb := b.toNat_lt
    have hc := c.toNat_lt
    have h₁ := ofNat_sextets_high (a := a) (n := b.toNat / 16) (by omega)
    have h₂ := ofNat_sextets_mid (b := b) (m := a.toNat % 4) (n := c.toNat / 64) (by omega)
    have h₃ := ofNat_sextets_low (c := c) (m := b.toNat % 16)
    simp only [encode, decode, sextet_symbol (show a.toNat / 4 < 64 by omega),
      sextet_symbol (show a.toNat % 4 * 16 + b.toNat / 16 < 64 by omega),
      sextet_symbol (show b.toNat % 16 * 4 + c.toNat / 64 < 64 by omega),
      sextet_symbol (show c.toNat % 64 < 64 by omega), Option.bind_eq_bind, Option.bind_some,
      ih, h₁, h₂, h₃]

/-- Only the symbol of a sextet has this sextet. -/
theorem symbol_of_sextet {c : Char} {n : ℕ} (h : sextet c = some n) : n < 64 ∧ symbol n = c := by
  have hval {m : ℕ} (hm : m = c.toNat) : Char.ofNat m = c := by rw [hm, Char.ofNat_toNat]
  simp only [sextet] at h
  split_ifs at h with hupper hlower hdigit hdash hunder
  · cases h
    refine ⟨by omega, ?_⟩
    rw [symbol, if_pos (by omega)]
    exact hval (by omega)
  · cases h
    refine ⟨by omega, ?_⟩
    rw [symbol, if_neg (by omega), if_pos (by omega)]
    exact hval (by omega)
  · cases h
    refine ⟨by omega, ?_⟩
    rw [symbol, if_neg (by omega), if_neg (by omega), if_pos (by omega)]
    exact hval (by omega)
  · cases h
    rw [hdash]
    decide
  · cases h
    rw [hunder]
    decide

/-- What is decoded is encoded as it was written: the unused bits of the last group are zero. -/
theorem encode_of_decode {l : List Char} {bs : List UInt8} (h : decode l = some bs) :
    encode bs = l := by
  have hval {n : ℕ} (hn : n < 256) : (UInt8.ofNat n).toNat = n := UInt8.toNat_ofNat_of_lt' hn
  induction l using decode.induct generalizing bs with
  | case1 =>
    cases h
    rfl
  | case2 => cases h
  | case3 p q =>
    simp only [decode, Option.bind_eq_bind, Option.bind_eq_some_iff] at h
    obtain ⟨x, hx, y, hy, h⟩ := h
    split_ifs at h with hlow
    cases h
    obtain ⟨hx, rfl⟩ := symbol_of_sextet hx
    obtain ⟨hy, rfl⟩ := symbol_of_sextet hy
    have h₁ : (x * 4 + y / 16) / 4 = x := by omega
    have h₂ : (x * 4 + y / 16) % 4 * 16 = y := by omega
    rw [encode, hval (by omega), h₁, h₂]
  | case4 p q r =>
    simp only [decode, Option.bind_eq_bind, Option.bind_eq_some_iff] at h
    obtain ⟨x, hx, y, hy, z, hz, h⟩ := h
    split_ifs at h with hlow
    cases h
    obtain ⟨hx, rfl⟩ := symbol_of_sextet hx
    obtain ⟨hy, rfl⟩ := symbol_of_sextet hy
    obtain ⟨hz, rfl⟩ := symbol_of_sextet hz
    have h₁ : (x * 4 + y / 16) / 4 = x := by omega
    have h₂ : (x * 4 + y / 16) % 4 * 16 + (y % 16 * 16 + z / 4) / 16 = y := by omega
    have h₃ : (y % 16 * 16 + z / 4) % 16 * 4 = z := by omega
    rw [encode, hval (by omega), hval (by omega), h₁, h₂, h₃]
  | case5 p q r s l ih =>
    simp only [decode, Option.bind_eq_bind, Option.bind_eq_some_iff] at h
    obtain ⟨x, hx, y, hy, z, hz, w, hw, bs', hl, h⟩ := h
    cases h
    obtain ⟨hx, rfl⟩ := symbol_of_sextet hx
    obtain ⟨hy, rfl⟩ := symbol_of_sextet hy
    obtain ⟨hz, rfl⟩ := symbol_of_sextet hz
    obtain ⟨hw, rfl⟩ := symbol_of_sextet hw
    have h₁ : (x * 4 + y / 16) / 4 = x := by omega
    have h₂ : (x * 4 + y / 16) % 4 * 16 + (y % 16 * 16 + z / 4) / 16 = y := by omega
    have h₃ : (y % 16 * 16 + z / 4) % 16 * 4 + (z % 4 * 64 + w) / 64 = z := by omega
    have h₄ : (z % 4 * 64 + w) % 64 = w := by omega
    rw [encode, hval (by omega), hval (by omega), hval (by omega), h₁, h₂, h₃, h₄, ih hl]

theorem decode_eq_some_iff {l : List Char} {bs : List UInt8} : decode l = some bs ↔ encode bs = l := by
  constructor
  · exact encode_of_decode
  · rintro rfl
    exact decode_encode bs

/-- The encoder writes symbols of the alphabet only. -/
theorem isSymbol_of_mem_encode {l : List UInt8} {c : Char} (h : c ∈ encode l) : IsSymbol c := by
  induction l using encode.induct with
  | case1 => exact absurd h (by simp [encode])
  | case2 a =>
    have ha := a.toNat_lt
    simp only [encode, List.mem_cons, List.not_mem_nil, or_false] at h
    obtain rfl | rfl := h <;> exact isSymbol_symbol (by omega)
  | case3 a b =>
    have ha := a.toNat_lt
    have hb := b.toNat_lt
    simp only [encode, List.mem_cons, List.not_mem_nil, or_false] at h
    obtain rfl | rfl | rfl := h <;> exact isSymbol_symbol (by omega)
  | case4 a b c' l ih =>
    have ha := a.toNat_lt
    have hb := b.toNat_lt
    have hc := c'.toNat_lt
    simp only [encode, List.mem_cons] at h
    obtain rfl | rfl | rfl | rfl | h := h
    · exact isSymbol_symbol (by omega)
    · exact isSymbol_symbol (by omega)
    · exact isSymbol_symbol (by omega)
    · exact isSymbol_symbol (by omega)
    · exact ih h

end Base64Url
