import CdkPopVerifier.Lib.JsonString
import Mathlib.Data.List.Forall2

/-!
# JSON values

`parse` reads a JSON text (RFC 8259) from bytes into a tree that keeps strings and numbers as they
are written; strings are decoded only where they are used.  `Json.fields` reads a value as a record
with named fields, the way a derived `serde` deserializer does: an object in which each name occurs
exactly once, other members being ignored, or an array with one item per field.

`writeString` and `writeObject` write the compact form.  `Reads text v` says that the parser reads
`text` as the value `v` in front of any continuation; `reads_writeString` and `reads_writeObject`
are the rules for composing it.
-/

namespace JsonText

open Text

/-- A value as it is written. -/
inductive Json where
  | null
  | bool (b : Bool)
  | number (text : List UInt8)
  | string (raw : List UInt8)
  | array (items : List Json)
  | object (members : List (List UInt8 × Json))

/-! ## Parsing -/

/-- JSON whitespace. -/
def isWs (c : UInt8) : Bool := c == 0x20 || c == 9 || c == 10 || c == 13

/-- Skip whitespace. -/
def skipWs (l : List UInt8) : List UInt8 := l.dropWhile isWs

def isDigit (c : UInt8) : Bool := ascii '0' ≤ c && c ≤ ascii '9'

/-- One digit or more. -/
def scanDigits (l : List UInt8) : Option (List UInt8 × List UInt8) :=
  let ds := l.takeWhile isDigit
  if ds = [] then none else some (ds, l.dropWhile isDigit)

/-- The part of a number before the fraction: no zero in front of another digit. -/
def scanInteger (l : List UInt8) : Option (List UInt8 × List UInt8) :=
  (scanDigits l).bind fun x =>
    if x.1.head? = some (ascii '0') ∧ x.1.length ≠ 1 then none else some x

/-- The fraction of a number, if there is one. -/
def scanFraction : List UInt8 → Option (List UInt8 × List UInt8)
  | [] => some ([], [])
  | c :: l =>
    if c = ascii '.' then (scanDigits l).map fun x => (c :: x.1, x.2) else some ([], c :: l)

/-- The exponent of a number, if there is one. -/
def scanExponent : List UInt8 → Option (List UInt8 × List UInt8)
  | [] => some ([], [])
  | c :: l =>
    if c = ascii 'e' ∨ c = ascii 'E' then
      match l with
      | [] => none
      | s :: l' =>
        if s = ascii '+' ∨ s = ascii '-' then
          (scanDigits l').map fun x => (c :: s :: x.1, x.2)
        else (scanDigits l).map fun x => (c :: x.1, x.2)
    else some ([], c :: l)

/-- A number, as written. -/
def scanNumber (l : List UInt8) : Option (List UInt8 × List UInt8) := do
  let (sign, l) := match l with
    | [] => ([], [])
    | c :: l' => if c = ascii '-' then ([c], l') else ([], l)
  let (int, l) ← scanInteger l
  let (frac, l) ← scanFraction l
  let (exp, l) ← scanExponent l
  some (sign ++ int ++ frac ++ exp, l)

/-- The rest of the text after the bytes of `word`. -/
def literal (word : List UInt8) (l : List UInt8) : Option (List UInt8) :=
  if word.isPrefixOf l then some (l.drop word.length) else none

mutual

/-- A value and the rest of the text.  The first argument bounds the length of the value. -/
def parseValue : ℕ → List UInt8 → Option (Json × List UInt8)
  | 0, _ => none
  | n + 1, l =>
    match skipWs l with
    | [] => none
    | c :: l =>
      if c = ascii '"' then (scanString l).map fun x => (.string x.1, x.2)
      else if c = ascii '[' then
        match skipWs l with
        | [] => none
        | d :: l' =>
          if d = ascii ']' then some (.array [], l')
          else (parseItems n (d :: l')).map fun x => (.array x.1, x.2)
      else if c = ascii '{' then
        match skipWs l with
        | [] => none
        | d :: l' =>
          if d = ascii '}' then some (.object [], l')
          else (parseMembers n (d :: l')).map fun x => (.object x.1, x.2)
      else if c = ascii 'n' then
        (literal [ascii 'u', ascii 'l', ascii 'l'] l).map fun r => (.null, r)
      else if c = ascii 't' then
        (literal [ascii 'r', ascii 'u', ascii 'e'] l).map fun r => (.bool true, r)
      else if c = ascii 'f' then
        (literal [ascii 'a', ascii 'l', ascii 's', ascii 'e'] l).map fun r => (.bool false, r)
      else (scanNumber (c :: l)).map fun x => (.number x.1, x.2)

/-- One item or more, up to the closing bracket. -/
def parseItems : ℕ → List UInt8 → Option (List Json × List UInt8)
  | 0, _ => none
  | n + 1, l =>
    (parseValue n l).bind fun x =>
      match skipWs x.2 with
      | [] => none
      | c :: l =>
        if c = ascii ',' then (parseItems n l).map fun y => (x.1 :: y.1, y.2)
        else if c = ascii ']' then some ([x.1], l)
        else none

/-- One member or more, up to the closing brace. -/
def parseMembers : ℕ → List UInt8 → Option (List (List UInt8 × Json) × List UInt8)
  | 0, _ => none
  | n + 1, l =>
    match skipWs l with
    | [] => none
    | q :: l =>
      if q = ascii '"' then
        (scanString l).bind fun k =>
          match skipWs k.2 with
          | [] => none
          | d :: l =>
            if d = ascii ':' then
              (parseValue n l).bind fun x =>
                match skipWs x.2 with
                | [] => none
                | c :: l =>
                  if c = ascii ',' then
                    (parseMembers n l).map fun y => ((k.1, x.1) :: y.1, y.2)
                  else if c = ascii '}' then some ([(k.1, x.1)], l)
                  else none
            else none
      else none

end

/-- Read a whole text as one value. -/
def parse (l : List UInt8) : Option Json :=
  (parseValue (l.length + 1) l).bind fun x => if skipWs x.2 = [] then some x.1 else none

/-! ## Reading records -/

namespace Json

/-- The string a value is, if it is one. -/
def asString : Json → Option String
  | .string raw => decodeString raw
  | _ => none

/-- The one value that goes with `name`. -/
def unique (name : String) (members : List (String × Json)) : Option Json :=
  match members.filter fun m => m.1 = name with
  | [m] => some m.2
  | _ => none

/-- Decode the names of the members. -/
def decodeNames (members : List (List UInt8 × Json)) : Option (List (String × Json)) :=
  members.mapM fun m => (decodeString m.1).map fun k => (k, m.2)

/-- The values of the fields `names`, in this order. -/
def fields (names : List String) : Json → Option (List Json)
  | .array items => if items.length = names.length then some items else none
  | .object members => (decodeNames members).bind fun ms => names.mapM fun n => unique n ms
  | _ => none

end Json

/-! ## Writing -/

/-- A string in quotes, escaped. -/
def writeString (s : String) : List UInt8 :=
  ascii '"' :: (escape (utf8 s) ++ [ascii '"'])

/-- The members of an object with the given names and written values, and the closing brace. -/
def writeMembers : List (String × List UInt8) → List UInt8
  | [] => [ascii '}']
  | [m] => writeString m.1 ++ ascii ':' :: (m.2 ++ [ascii '}'])
  | m :: ms => writeString m.1 ++ ascii ':' :: (m.2 ++ ascii ',' :: writeMembers ms)

/-- An object with the given names and written values. -/
def writeObject (members : List (String × List UInt8)) : List UInt8 :=
  ascii '{' :: writeMembers members

/-- `text` is read as `v` in front of any continuation. -/
def Reads (text : List UInt8) (v : Json) : Prop :=
  ∀ n rest, text.length ≤ n → parseValue n (text ++ rest) = some (v, rest)

theorem skipWs_cons {c : UInt8} (h : isWs c = false) (l : List UInt8) : skipWs (c :: l) = c :: l :=
  List.dropWhile_cons_of_neg (by simp [h])

theorem length_writeString (s : String) :
    (writeString s).length = (escape (utf8 s)).length + 2 := by
  simp [writeString]

theorem writeString_append (s : String) (rest : List UInt8) :
    writeString s ++ rest = ascii '"' :: (escape (utf8 s) ++ ascii '"' :: rest) := by
  simp [writeString]

theorem reads_writeString (s : String) :
    Reads (writeString s) (.string (escape (utf8 s))) := by
  intro n rest hn
  rw [length_writeString] at hn
  obtain ⟨n, rfl⟩ := Nat.exists_eq_add_of_le' (show 1 ≤ n by omega)
  rw [writeString_append, parseValue, skipWs_cons (by decide)]
  dsimp only
  rw [if_pos rfl, scanString_escape]
  rfl

/-- The members of the tree that a written object is read as. -/
def readMembers : List (String × List UInt8) → List Json → List (List UInt8 × Json)
  | m :: ms, v :: vs => (escape (utf8 m.1), v) :: readMembers ms vs
  | _, _ => []

/-- One member up to and including the byte after it. -/
theorem parseMembers_step {k : String} {text : List UInt8} {v : Json} (hv : Reads text v) {n : ℕ}
    (hn : text.length ≤ n) {c : UInt8} (hc : isWs c = false) (rest : List UInt8) :
    parseMembers (n + 1) (writeString k ++ ascii ':' :: (text ++ c :: rest)) =
      if c = ascii ',' then
        (parseMembers n rest).map fun y => ((escape (utf8 k), v) :: y.1, y.2)
      else if c = ascii '}' then some ([(escape (utf8 k), v)], rest)
      else none := by
  rw [parseMembers, writeString_append, skipWs_cons (by decide)]
  dsimp only
  rw [if_pos rfl, scanString_escape, Option.bind_some, skipWs_cons (by decide)]
  dsimp only
  rw [if_pos rfl, hv n _ hn, Option.bind_some, skipWs_cons hc]

theorem parseMembers_writeMembers {ms : List (String × List UInt8)} {vs : List Json}
    (h : List.Forall₂ (fun m v => Reads m.2 v) ms vs) (hne : ms ≠ []) :
    ∀ n rest, (writeMembers ms).length ≤ n →
      parseMembers n (writeMembers ms ++ rest) = some (readMembers ms vs, rest) := by
  induction h with
  | nil => exact absurd rfl hne
  | @cons m v ms vs hv hvs ih =>
    intro n rest hn
    rcases ms with _ | ⟨m', ms⟩
    · cases hvs
      simp only [writeMembers, List.length_append, List.length_cons, length_writeString] at hn
      obtain ⟨n, rfl⟩ := Nat.exists_eq_add_of_le' (show 1 ≤ n by omega)
      have h := parseMembers_step (k := m.1) hv (n := n) (by omega) (c := ascii '}') (by decide)
        rest
      rw [if_neg (by decide), if_pos rfl] at h
      simpa [writeMembers, readMembers] using h
    · simp only [writeMembers, List.length_append, List.length_cons, length_writeString] at hn
      obtain ⟨n, rfl⟩ := Nat.exists_eq_add_of_le' (show 1 ≤ n by omega)
      have h := parseMembers_step (k := m.1) hv (n := n) (by omega) (c := ascii ',') (by decide)
        (writeMembers (m' :: ms) ++ rest)
      rw [if_pos rfl, ih (by simp) n rest (by omega)] at h
      simpa [writeMembers, readMembers] using h

theorem exists_writeMembers_append {ms : List (String × List UInt8)} (hne : ms ≠ [])
    (rest : List UInt8) : ∃ l, writeMembers ms ++ rest = ascii '"' :: l := by
  rcases ms with _ | ⟨m, _ | ⟨m', ms⟩⟩
  · exact absurd rfl hne
  · exact ⟨_, by rw [writeMembers, List.append_assoc, writeString_append]⟩
  · exact ⟨_, by simp only [writeMembers, writeString_append]; rfl⟩

theorem reads_writeObject {ms : List (String × List UInt8)} {vs : List Json}
    (h : List.Forall₂ (fun m v => Reads m.2 v) ms vs) (hne : ms ≠ []) :
    Reads (writeObject ms) (.object (readMembers ms vs)) := by
  intro n rest hn
  rw [writeObject, List.length_cons] at hn
  obtain ⟨n, rfl⟩ := Nat.exists_eq_add_of_le' (show 1 ≤ n by omega)
  obtain ⟨l, hl⟩ := exists_writeMembers_append hne rest
  have hm := parseMembers_writeMembers h hne n rest (by omega)
  rw [hl] at hm
  rw [writeObject, List.cons_append, hl, parseValue, skipWs_cons (by decide)]
  dsimp only
  rw [if_neg (by decide), if_neg (by decide), if_pos rfl, skipWs_cons (by decide)]
  dsimp only
  rw [if_neg (by decide), hm]
  rfl

theorem parse_of_reads {text : List UInt8} {v : Json} (h : Reads text v) : parse text = some v := by
  have := h (text.length + 1) [] (by omega)
  rw [List.append_nil] at this
  rw [parse, this]
  rfl

theorem isUtf8_writeString (s : String) : IsUtf8 (writeString s) :=
  .cons (by decide) ((isUtf8_escape s).append (isUtf8_nil.cons (by decide)))

theorem isUtf8_writeObject {ms : List (String × List UInt8)} (h : ∀ m ∈ ms, IsUtf8 m.2) :
    IsUtf8 (writeObject ms) := by
  suffices IsUtf8 (writeMembers ms) from this.cons (by decide)
  induction ms with
  | nil => exact isUtf8_nil.cons (by decide)
  | cons m ms ih =>
    rw [List.forall_mem_cons] at h
    rcases ms with _ | ⟨m', ms⟩
    · exact (isUtf8_writeString m.1).append
        (.cons (by decide) (h.1.append (isUtf8_nil.cons (by decide))))
    · exact (isUtf8_writeString m.1).append
        (.cons (by decide) (h.1.append ((ih h.2).cons (by decide))))

/-! ## Reading what was written -/

namespace Json

theorem decodeNames_readMembers {ms : List (String × List UInt8)} {vs : List Json}
    (hlen : ms.length = vs.length) :
    decodeNames (readMembers ms vs) = some ((ms.map Prod.fst).zip vs) := by
  induction ms generalizing vs with
  | nil =>
    cases vs with
    | nil => rfl
    | cons v vs => cases hlen
  | cons m ms ih =>
    cases vs with
    | nil => cases hlen
    | cons v vs =>
      have h := ih (Nat.succ.inj hlen)
      rw [decodeNames] at h ⊢
      rw [readMembers, List.mapM_cons, h, decodeString_escape]
      rfl

theorem unique_cons_self {n : String} {v : Json} {l : List (String × Json)}
    (h : n ∉ l.map Prod.fst) : unique n ((n, v) :: l) = some v := by
  have hnil : (l.filter fun m => m.1 = n) = [] := List.filter_eq_nil_iff.2 fun m hm he =>
    h (List.mem_map.2 ⟨m, hm, by simpa using he⟩)
  rw [unique, List.filter_cons_of_pos (by simp), hnil]

theorem unique_cons_ne {n k : String} {v : Json} {l : List (String × Json)} (h : k ≠ n) :
    unique n ((k, v) :: l) = unique n l := by
  rw [unique, unique, List.filter_cons_of_neg (by simpa using h)]

theorem mapM_congr {α β : Type} {f g : α → Option β} {l : List α} (h : ∀ a ∈ l, f a = g a) :
    l.mapM f = l.mapM g := by
  induction l with
  | nil => rfl
  | cons a l ih =>
    rw [List.forall_mem_cons] at h
    rw [List.mapM_cons, List.mapM_cons, h.1, ih h.2]

theorem mapM_unique_zip {ns : List String} {vs : List Json} (hlen : ns.length = vs.length)
    (hnd : ns.Nodup) : (ns.mapM fun n => unique n (ns.zip vs)) = some vs := by
  induction ns generalizing vs with
  | nil =>
    cases vs with
    | nil => rfl
    | cons v vs => cases hlen
  | cons k ns ih =>
    cases vs with
    | nil => cases hlen
    | cons v vs =>
      rw [List.nodup_cons] at hnd
      have hzip : (ns.zip vs).map Prod.fst = ns := List.map_fst_zip (Nat.le_of_eq (Nat.succ.inj hlen))
      have htail : (ns.mapM fun n => unique n ((k, v) :: ns.zip vs)) =
          ns.mapM fun n => unique n (ns.zip vs) :=
        mapM_congr fun n hn => unique_cons_ne fun he => hnd.1 (he ▸ hn)
      rw [List.zip_cons_cons, List.mapM_cons, unique_cons_self (hzip.symm ▸ hnd.1), htail,
        ih (Nat.succ.inj hlen) hnd.2]
      rfl

/-- The fields of an object that was written with different names. -/
theorem fields_readMembers {ms : List (String × List UInt8)} {vs : List Json}
    (hlen : ms.length = vs.length) (hnd : (ms.map Prod.fst).Nodup) :
    (Json.object (readMembers ms vs)).fields (ms.map Prod.fst) = some vs := by
  rw [fields, decodeNames_readMembers hlen]
  exact mapM_unique_zip (by rw [List.length_map, hlen]) hnd

/-- A written object is read as a record with the values of its members as its fields. -/
theorem exists_reads_writeObject {ms : List (String × List UInt8)} {vs : List Json}
    (h : List.Forall₂ (fun m v => Reads m.2 v) ms vs) (hne : ms ≠ []) (hnd : (ms.map Prod.fst).Nodup) :
    ∃ j, Reads (writeObject ms) j ∧ j.fields (ms.map Prod.fst) = some vs :=
  ⟨_, reads_writeObject h hne, fields_readMembers h.length_eq hnd⟩

theorem asString_string_escape (s : String) :
    (Json.string (escape (utf8 s))).asString = some s :=
  decodeString_escape s

end Json

end JsonText
