import Mathlib.Data.List.DropRight
import Mathlib.Tactic.Common

/-!
# Text: whitespace, ASCII letters and UTF-8

The operations of Rust's `str` used on header values, on lists of characters: `trim` removes
Unicode `White_Space` at both ends, `splitOnce` cuts at the first separator, `eqIgnoreAsciiCase`
compares up to the case of ASCII letters.  `utf8` and `fromUtf8` convert between a string and its
bytes.
-/

namespace Text

/-- The Unicode property `White_Space`. -/
def isWhitespace (c : Char) : Bool :=
  let n := c.toNat
  (9 ≤ n && n ≤ 13) || n == 0x20 || n == 0x85 || n == 0xA0 || n == 0x1680 ||
    (0x2000 ≤ n && n ≤ 0x200A) || n == 0x2028 || n == 0x2029 || n == 0x202F || n == 0x205F ||
    n == 0x3000

/-- Space, tab, line feed, form feed and carriage return. -/
def isAsciiWhitespace (c : Char) : Bool :=
  c.toNat == 0x20 || c.toNat == 9 || c.toNat == 10 || c.toNat == 12 || c.toNat == 13

/-- A property of all elements of a list is decided along the list, and not by a search through the
type. -/
instance (priority := high) decidableForallMem {α : Type} {p : α → Prop} [DecidablePred p]
    (l : List α) : Decidable (∀ x ∈ l, p x) :=
  List.decidableBAll p l

/-- Visible ASCII characters and the space. -/
def IsPrintable (c : Char) : Prop := 0x20 ≤ c.toNat ∧ c.toNat < 0x7f

instance (c : Char) : Decidable (IsPrintable c) := inferInstanceAs (Decidable (_ ∧ _))

/-- Remove the whitespace at both ends. -/
def trim (l : List Char) : List Char := (l.dropWhile isWhitespace).rdropWhile isWhitespace

/-- The text before and after the first character that satisfies `p`. -/
def splitOnce (p : Char → Bool) : List Char → Option (List Char × List Char)
  | [] => none
  | c :: l => if p c then some ([], l) else (splitOnce p l).map fun x => (c :: x.1, x.2)

/-- Equality up to the case of ASCII letters. -/
def eqIgnoreAsciiCase (l m : List Char) : Bool := l.map Char.toLower == m.map Char.toLower

theorem isWhitespace_of_isAsciiWhitespace {c : Char} (h : isAsciiWhitespace c = true) :
    isWhitespace c = true := by
  simp only [isAsciiWhitespace, Bool.or_eq_true, beq_iff_eq] at h
  simp only [isWhitespace, Bool.or_eq_true, Bool.and_eq_true, decide_eq_true_eq, beq_iff_eq]
  omega

theorem toLower_eq_self_of_isWhitespace {c : Char} (h : isWhitespace c = true) : c.toLower = c := by
  have hn : ¬ (65 ≤ c.toNat ∧ c.toNat ≤ 90) := by
    simp only [isWhitespace, Bool.or_eq_true, Bool.and_eq_true, decide_eq_true_eq, beq_iff_eq] at h
    omega
  apply dif_neg
  intro h
  exact hn ⟨h.1, h.2⟩

/-- A text without whitespace has none in any letter case. -/
theorem isWhitespace_of_eqIgnoreAsciiCase {l m : List Char} (h : eqIgnoreAsciiCase l m = true)
    (hm : ∀ c ∈ m, isWhitespace c.toLower = false) : ∀ c ∈ l, isWhitespace c = false := by
  intro c hc
  by_contra hw
  have hlower := toLower_eq_self_of_isWhitespace (eq_true_of_ne_false hw)
  have hmem : c.toLower ∈ m.map Char.toLower := by
    rw [← beq_iff_eq.1 h]
    exact List.mem_map_of_mem hc
  obtain ⟨c', hc', he⟩ := List.mem_map.1 hmem
  rw [hlower] at he
  exact hw (he ▸ hm c' hc')

/-- Whitespace around a text that neither starts nor ends with whitespace is what `trim` removes. -/
theorem trim_append {w l w' : List Char} (hw : ∀ c ∈ w, isWhitespace c = true)
    (hhead : ∀ c ∈ l.head?, isWhitespace c = false)
    (hlast : ∀ c ∈ l.getLast?, isWhitespace c = false)
    (hw' : ∀ c ∈ w', isWhitespace c = true) : trim (w ++ l ++ w') = l := by
  rw [trim, List.append_assoc, List.dropWhile_append_of_pos hw]
  rcases l with _ | ⟨c, l⟩
  · rw [List.nil_append, List.dropWhile_eq_nil_iff.2 hw', List.rdropWhile_nil]
  · have hc : isWhitespace c = false := hhead c rfl
    rw [List.cons_append, List.dropWhile_cons_of_neg (by simp [hc]), ← List.cons_append,
      List.rdropWhile, List.reverse_append,
      List.dropWhile_append_of_pos fun x hx => hw' x (List.mem_reverse.1 hx)]
    refine List.rdropWhile_eq_self_iff.2 fun hl => ?_
    simp [hlast _ (List.getLast_mem_getLast? hl)]

theorem trim_append_of_forall {w l w' : List Char} (hw : ∀ c ∈ w, isWhitespace c = true)
    (hl : ∀ c ∈ l, isWhitespace c = false) (hw' : ∀ c ∈ w', isWhitespace c = true) :
    trim (w ++ l ++ w') = l :=
  trim_append hw (fun _ h => hl _ (List.mem_of_mem_head? h))
    (fun _ h => hl _ (List.mem_of_mem_getLast? h)) hw'

/-- What `trim` removes is whitespace. -/
theorem exists_append_trim (l : List Char) : ∃ w w', l = w ++ trim l ++ w' ∧
    (∀ c ∈ w, isWhitespace c = true) ∧ ∀ c ∈ w', isWhitespace c = true := by
  refine ⟨l.takeWhile isWhitespace, (l.dropWhile isWhitespace).rtakeWhile isWhitespace, ?_,
    fun c hc => List.mem_takeWhile_imp hc, fun c hc => List.mem_rtakeWhile_imp hc⟩
  rw [trim, List.append_assoc, List.rdropWhile_append_rtakeWhile, List.takeWhile_append_dropWhile]

theorem splitOnce_eq_none_iff {p : Char → Bool} {l : List Char} :
    splitOnce p l = none ↔ ∀ c ∈ l, p c = false := by
  induction l with
  | nil => simp [splitOnce]
  | cons c l ih =>
    rw [splitOnce]
    split_ifs with hc
    · simp [hc]
    · simp [ih, hc]

theorem exists_of_splitOnce_eq_some {p : Char → Bool} {l s r : List Char}
    (h : splitOnce p l = some (s, r)) : ∃ c, l = s ++ c :: r ∧ p c = true := by
  induction l generalizing s with
  | nil => cases h
  | cons c l ih =>
    rw [splitOnce] at h
    split_ifs at h with hc
    · cases h
      exact ⟨c, rfl, hc⟩
    · obtain ⟨⟨s', r'⟩, hl, he⟩ := Option.map_eq_some_iff.1 h
      cases he
      obtain ⟨c', rfl, hc'⟩ := ih hl
      exact ⟨c', rfl, hc'⟩

/-- A separator after a text without separators is where the text is cut. -/
theorem splitOnce_append {p : Char → Bool} {l r : List Char} {c : Char}
    (hl : ∀ x ∈ l, p x = false) (hc : p c = true) : splitOnce p (l ++ c :: r) = some (l, r) := by
  induction l with
  | nil => simp [splitOnce, hc]
  | cons x l ih =>
    have hx : p x = false := hl x List.mem_cons_self
    rw [List.cons_append, splitOnce, if_neg (by simp [hx]),
      ih fun y hy => hl y (List.mem_cons_of_mem _ hy)]
    rfl

/-- What stands before the cut is everything up to the first separator. -/
theorem takeWhile_eq_of_splitOnce {p : Char → Bool} {l s r : List Char}
    (h : splitOnce p l = some (s, r)) : l.takeWhile (fun c => !p c) = s := by
  induction l generalizing s with
  | nil => cases h
  | cons c l ih =>
    rw [splitOnce] at h
    split_ifs at h with hc
    · cases h
      simp [hc]
    · obtain ⟨⟨s', r'⟩, hl, he⟩ := Option.map_eq_some_iff.1 h
      cases he
      rw [List.takeWhile_cons_of_pos (by simp [hc]), ih hl]

theorem append_ne_empty {s : String} (h : s ≠ "") (t : String) : s ++ t ≠ "" := by
  simp [h]

/-! ## UTF-8 -/

/-- The bytes of a string. -/
def utf8 (s : String) : List UInt8 := s.toByteArray.data.toList

/-- The string with the given bytes, if they are valid UTF-8. -/
def fromUtf8 (bs : List UInt8) : Option String := String.fromUTF8? ⟨bs.toArray⟩

@[simp] theorem fromUtf8_utf8 (s : String) : fromUtf8 (utf8 s) = some s := by
  have h : (⟨(utf8 s).toArray⟩ : ByteArray) = s.toByteArray := by simp [utf8]
  rw [fromUtf8, h, String.fromUTF8?, dif_pos s.isValidUTF8]
  rfl

theorem fromUtf8_eq_some_iff {bs : List UInt8} {s : String} :
    fromUtf8 bs = some s ↔ utf8 s = bs := by
  constructor
  · intro h
    rw [fromUtf8, String.fromUTF8?] at h
    split_ifs at h with hv
    cases h
    simp [utf8, String.fromUTF8]
  · rintro rfl
    exact fromUtf8_utf8 s

theorem utf8_ofList (l : List Char) : utf8 (String.ofList l) = l.flatMap String.utf8EncodeChar := by
  rw [utf8, String.toByteArray_ofList, List.utf8Encode, List.toList_data_toByteArray]

theorem utf8_eq_flatMap (s : String) : utf8 s = s.toList.flatMap String.utf8EncodeChar := by
  rw [← utf8_ofList, String.ofList_toList]

theorem utf8_append (s s' : String) : utf8 (s ++ s') = utf8 s ++ utf8 s' := by
  simp only [utf8_eq_flatMap, String.toList_append, List.flatMap_append]

/-- A character is one byte below 128, or some bytes that are at least 128. -/
theorem utf8EncodeChar_cases (c : Char) :
    (∃ b : UInt8, b < 0x80 ∧ String.utf8EncodeChar c = [b]) ∨
      ∀ b ∈ String.utf8EncodeChar c, ¬ b < 0x80 := by
  by_cases h : c.val.toNat ≤ 0x7f
  · refine .inl ⟨UInt8.ofNat c.val.toNat, ?_, by rw [String.utf8EncodeChar, if_pos h]⟩
    rw [UInt8.lt_iff_toNat_lt, UInt8.toNat_ofNat']
    exact lt_of_le_of_lt (Nat.mod_le _ _) (Nat.lt_succ_of_le h)
  · right
    simp only [String.utf8EncodeChar, if_neg h, UInt8.lt_iff_toNat_lt]
    split_ifs <;> simp <;> omega

/-- Some bytes are the UTF-8 of a string. -/
def IsUtf8 (bs : List UInt8) : Prop := ∃ s, utf8 s = bs

theorem isUtf8_nil : IsUtf8 [] := ⟨"", rfl⟩

theorem IsUtf8.append {bs bs' : List UInt8} (h : IsUtf8 bs) (h' : IsUtf8 bs') :
    IsUtf8 (bs ++ bs') := by
  obtain ⟨s, rfl⟩ := h
  obtain ⟨s', rfl⟩ := h'
  exact ⟨s ++ s', utf8_append s s'⟩

theorem isUtf8_utf8EncodeChar (c : Char) : IsUtf8 (String.utf8EncodeChar c) :=
  ⟨String.ofList [c], by rw [utf8_ofList, List.flatMap_singleton]⟩

theorem IsUtf8.cons {b : UInt8} {bs : List UInt8} (hb : b < 0x80) (h : IsUtf8 bs) :
    IsUtf8 (b :: bs) := by
  have key : ∀ n : Fin 128, String.utf8EncodeChar (Char.ofNat n) = [UInt8.ofNat n] := by decide
  have hb : String.utf8EncodeChar (Char.ofNat b.toNat) = [b] := by
    simpa using key ⟨b.toNat, UInt8.lt_iff_toNat_lt.1 hb⟩
  exact (hb ▸ isUtf8_utf8EncodeChar _).append h

theorem isUtf8_of_forall_lt {bs : List UInt8} (h : ∀ b ∈ bs, b < 0x80) : IsUtf8 bs := by
  induction bs with
  | nil => exact isUtf8_nil
  | cons b bs ih =>
    rw [List.forall_mem_cons] at h
    exact (ih h.2).cons h.1

end Text
