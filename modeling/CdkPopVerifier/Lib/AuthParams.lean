import CdkPopVerifier.Lib.Text

/-!
# Challenges with quoted parameters

`readChallenge` reads the value of a challenge header: a scheme, a space, and parameters
`name="value"` separated by commas.  A name is a token and a value ends at the next double quote.
`writeChallenge` writes such a value, and is read back as long as the names are tokens and the
values have no double quote in them.
-/

namespace AuthParams

open Text

/-- A parameter: its name and its value. -/
abbrev Param : Type := List Char × List Char

/-- The characters of a token. -/
def isTokenChar (c : Char) : Bool :=
  c.isAlphanum || "!#$%&*+-.^_|~".toList.contains c || c.toNat == 0x27 || c.toNat == 0x60

/-- A token. -/
def IsToken (l : List Char) : Prop := l ≠ [] ∧ ∀ c ∈ l, isTokenChar c = true

instance (l : List Char) : Decidable (IsToken l) := inferInstanceAs (Decidable (_ ∧ _))

/-- Skip spaces. -/
def skipSpaces (l : List Char) : List Char := l.dropWhile (· = ' ')

/-- One parameter and the rest of the text. -/
def readParam (l : List Char) : Option (Param × List Char) := do
  let (name, l) ← splitOnce (· = '=') l
  match l with
  | [] => none
  | q :: l =>
    if q = '"' ∧ IsToken name then (splitOnce (· = '"') l).map fun x => ((name, x.1), x.2)
    else none

/-- One parameter or more, up to the end of the text.  The first argument bounds their number. -/
def readParams : ℕ → List Char → Option (List Param)
  | 0, _ => none
  | n + 1, l =>
    (readParam (skipSpaces l)).bind fun x =>
      match skipSpaces x.2 with
      | [] => some [x.1]
      | c :: l => if c = ',' then (readParams n l).map (x.1 :: ·) else none

/-- The scheme and the parameters of a challenge. -/
def readChallenge (l : List Char) : Option (List Char × List Param) :=
  (splitOnce (· = ' ') l).bind fun x => (readParams l.length x.2).map fun ps => (x.1, ps)

/-- Write one parameter. -/
def writeParam (p : Param) : List Char := p.1 ++ '=' :: '"' :: (p.2 ++ ['"'])

/-- Write some parameters. -/
def writeParams : List Param → List Char
  | [] => []
  | [p] => writeParam p
  | p :: q :: ps => writeParam p ++ ',' :: ' ' :: writeParams (q :: ps)

/-- Write a challenge. -/
def writeChallenge (scheme : List Char) (ps : List Param) : List Char :=
  scheme ++ ' ' :: writeParams ps

/-- A parameter that can be written: its name is a token and its value has no double quote. -/
def Writable (p : Param) : Prop := IsToken p.1 ∧ '"' ∉ p.2

theorem ne_of_mem_token {l : List Char} (h : IsToken l) {c d : Char} (hc : c ∈ l)
    (hd : isTokenChar d = false) : c ≠ d := by
  rintro rfl
  rw [h.2 c hc] at hd
  cases hd

theorem skipSpaces_token {l : List Char} (h : IsToken l) (m : List Char) :
    skipSpaces (l ++ m) = l ++ m := by
  rcases l with _ | ⟨c, l⟩
  · exact absurd rfl h.1
  · exact List.dropWhile_cons_of_neg (by simpa using ne_of_mem_token h List.mem_cons_self rfl)

theorem readParam_writeParam {p : Param} (h : Writable p) (rest : List Char) :
    readParam (skipSpaces (writeParam p ++ rest)) = some (p, rest) := by
  have happ : writeParam p ++ rest = p.1 ++ '=' :: '"' :: (p.2 ++ '"' :: rest) := by
    simp [writeParam]
  have hname : ∀ c ∈ p.1, decide (c = '=') = false := fun c hc =>
    decide_eq_false (ne_of_mem_token h.1 hc (by decide))
  have hvalue : ∀ c ∈ p.2, decide (c = '"') = false := fun c hc =>
    decide_eq_false fun he => h.2 (he ▸ hc)
  rw [happ, skipSpaces_token h.1, readParam, splitOnce_append hname (by decide)]
  dsimp only [Option.bind_eq_bind, Option.bind_some]
  rw [if_pos ⟨rfl, h.1⟩, splitOnce_append hvalue (by decide)]
  rfl

theorem readParams_space (n : ℕ) (l : List Char) : readParams n (' ' :: l) = readParams n l := by
  cases n <;> rfl

/-- Written parameters are read back. -/
theorem readParams_writeParams {ps : List Param} (hne : ps ≠ []) (h : ∀ p ∈ ps, Writable p) {n : ℕ}
    (hn : ps.length ≤ n) : readParams n (writeParams ps) = some ps := by
  induction ps generalizing n with
  | nil => exact absurd rfl hne
  | cons p ps ih =>
    rw [List.length_cons] at hn
    obtain ⟨n, rfl⟩ := Nat.exists_eq_add_of_le' (show 1 ≤ n by omega)
    rw [List.forall_mem_cons] at h
    rcases ps with _ | ⟨q, ps⟩
    · have hp := readParam_writeParam h.1 []
      rw [List.append_nil] at hp
      rw [writeParams, readParams, hp]
      rfl
    · have hskip : skipSpaces (',' :: ' ' :: writeParams (q :: ps)) =
          ',' :: ' ' :: writeParams (q :: ps) := rfl
      rw [writeParams, readParams, readParam_writeParam h.1, Option.bind_some, hskip]
      dsimp only
      rw [if_pos rfl, readParams_space, ih (List.cons_ne_nil q ps) h.2 (by omega)]
      rfl

theorem length_le_length_writeParams (ps : List Param) : ps.length ≤ (writeParams ps).length := by
  induction ps with
  | nil => exact Nat.le_refl 0
  | cons p ps ih =>
    rcases ps with _ | ⟨q, ps⟩
    · simp only [writeParams, writeParam, List.length_append, List.length_cons]
      omega
    · simp only [writeParams, List.length_append, List.length_cons] at ih ⊢
      omega

/-- A written challenge is read back: its scheme, and its parameters in order and nothing else. -/
theorem readChallenge_writeChallenge {scheme : List Char} {ps : List Param} (hs : ' ' ∉ scheme)
    (hne : ps ≠ []) (h : ∀ p ∈ ps, Writable p) :
    readChallenge (writeChallenge scheme ps) = some (scheme, ps) := by
  have hlen : ps.length ≤ (writeChallenge scheme ps).length := by
    have := length_le_length_writeParams ps
    rw [writeChallenge, List.length_append, List.length_cons]
    omega
  have hscheme : ∀ c ∈ scheme, decide (c = ' ') = false := fun c hc =>
    decide_eq_false fun he => hs (he ▸ hc)
  have hsplit : splitOnce (fun c => c = ' ') (writeChallenge scheme ps) =
      some (scheme, writeParams ps) := splitOnce_append hscheme (by decide)
  rw [readChallenge, hsplit, Option.bind_some, readParams_writeParams hne h hlen]
  rfl

/-- A property of the separators and of the characters of the parts is one of the whole text. -/
theorem forall_mem_writeParams {P : Char → Prop} {ps : List Param}
    (hsep : ∀ c ∈ ['=', '"', ',', ' '], P c) (hps : ∀ p ∈ ps, ∀ c ∈ p.1 ++ p.2, P c) :
    ∀ c ∈ writeParams ps, P c := by
  have hparam : ∀ p ∈ ps, ∀ c ∈ writeParam p, P c := by
    intro p hp c hc
    simp only [writeParam, List.mem_append, List.mem_cons, List.not_mem_nil, or_false] at hc
    rcases hc with hc | rfl | rfl | hc | rfl
    · exact hps p hp c (List.mem_append_left _ hc)
    · exact hsep _ (by decide)
    · exact hsep _ (by decide)
    · exact hps p hp c (List.mem_append_right _ hc)
    · exact hsep _ (by decide)
  induction ps with
  | nil => exact fun c hc => absurd hc List.not_mem_nil
  | cons p ps ih =>
    rw [List.forall_mem_cons] at hps hparam
    rcases ps with _ | ⟨q, ps⟩
    · exact hparam.1
    · intro c hc
      simp only [writeParams, List.mem_append, List.mem_cons] at hc
      rcases hc with hc | rfl | rfl | hc
      · exact hparam.1 c hc
      · exact hsep _ (by decide)
      · exact hsep _ (by decide)
      · exact ih hps.2 hparam.2 c hc

end AuthParams
