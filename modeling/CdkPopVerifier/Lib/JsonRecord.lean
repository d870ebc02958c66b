import CdkPopVerifier.Lib.Json

/-!
# What is read as a record

`Json.fields` accepts two spellings of a record: an object that has each field exactly once, and an
array of the values of the fields.  In an object all names must be decoded, those of other members
too.
-/

namespace JsonText.Json

/-- The values of the members with the given name. -/
def valuesOf (name : String) (members : List (List UInt8 × Json)) : List Json :=
  (members.filter fun m => decodeString m.1 = some name).map Prod.snd

/-- An object with each of the given fields exactly once. -/
def HasMembers (j : Json) (fs : List (String × Json)) : Prop :=
  ∃ ms, j = .object ms ∧ ∀ f ∈ fs, valuesOf f.1 ms = [f.2]

/-- The array of the values of the given fields. -/
def ListsFields (j : Json) (fs : List (String × Json)) : Prop := j = .array (fs.map Prod.snd)

/-- The name of each member can be decoded, which an unpaired surrogate prevents, or a byte sequence that
is not UTF-8. -/
def NamesDecode (j : Json) : Prop :=
  ∀ ms, j = .object ms → ∀ m ∈ ms, ∃ name, decodeString m.1 = some name

/-- An object or an array with the given fields. -/
def HasFields (j : Json) (fs : List (String × Json)) : Prop := HasMembers j fs ∨ ListsFields j fs

/-- An object or an array with the given fields that `fields` accepts. -/
def IsRecord (j : Json) (fs : List (String × Json)) : Prop := NamesDecode j ∧ HasFields j fs

/-! ## Members -/

theorem unique_eq_some_iff {name : String} {members : List (String × Json)} {v : Json} :
    unique name members = some v ↔
      (members.filter fun m => m.1 = name).map Prod.snd = [v] := by
  unfold unique
  generalize members.filter (fun m => m.1 = name) = l
  rcases l with _ | ⟨m, _ | ⟨m', l⟩⟩ <;> simp

theorem decodeNames_cons_eq_some_iff {m : List UInt8 × Json} {ms : List (List UInt8 × Json)}
    {ds : List (String × Json)} :
    decodeNames (m :: ms) = some ds ↔ ∃ name ds', decodeString m.1 = some name ∧
      decodeNames ms = some ds' ∧ ds = (name, m.2) :: ds' := by
  simp only [decodeNames, List.mapM_cons, Option.bind_eq_bind, Option.bind_eq_some_iff,
    Option.map_eq_some_iff]
  constructor
  · rintro ⟨_, ⟨name, hname, rfl⟩, ds', hds, ⟨⟩⟩
    exact ⟨name, ds', hname, hds, rfl⟩
  · rintro ⟨name, ds', hname, hds, rfl⟩
    exact ⟨_, ⟨name, hname, rfl⟩, ds', hds, rfl⟩

theorem exists_decodeNames_iff {ms : List (List UInt8 × Json)} :
    (∃ ds, decodeNames ms = some ds) ↔ ∀ m ∈ ms, ∃ name, decodeString m.1 = some name := by
  induction ms with
  | nil => exact ⟨fun _ _ hm => absurd hm List.not_mem_nil, fun _ => ⟨[], rfl⟩⟩
  | cons m ms ih =>
    rw [List.forall_mem_cons, ← ih]
    simp only [decodeNames_cons_eq_some_iff]
    constructor
    · rintro ⟨_, name, ds', hname, hds, -⟩
      exact ⟨⟨name, hname⟩, ds', hds⟩
    · rintro ⟨⟨name, hname⟩, ds', hds⟩
      exact ⟨_, name, ds', hname, hds, rfl⟩

/-- Decoding the names does not change which values go with a name. -/
theorem valuesOf_eq_of_decodeNames {ms : List (List UInt8 × Json)} {ds : List (String × Json)}
    (h : decodeNames ms = some ds) (name : String) :
    (ds.filter fun d => d.1 = name).map Prod.snd = valuesOf name ms := by
  induction ms generalizing ds with
  | nil =>
    cases h
    rfl
  | cons m ms ih =>
    obtain ⟨name', ds', hname, hds, rfl⟩ := decodeNames_cons_eq_some_iff.1 h
    have htail := ih hds
    rw [valuesOf] at htail ⊢
    by_cases hn : name' = name
    · subst hn
      rw [List.filter_cons_of_pos (by simp), List.filter_cons_of_pos (by simp [hname]),
        List.map_cons, List.map_cons, htail]
    · rw [List.filter_cons_of_neg (by simpa using hn),
        List.filter_cons_of_neg (by simpa [hname] using hn), htail]

/-! ## Records -/

theorem mapM_map_eq_some_iff {α β γ : Type} {f : α → Option β} {g : γ → α} {k : γ → β}
    {l : List γ} : (l.map g).mapM f = some (l.map k) ↔ ∀ x ∈ l, f (g x) = some (k x) := by
  induction l with
  | nil => simp
  | cons x l ih =>
    rw [List.forall_mem_cons, ← ih]
    simp only [List.map_cons, List.mapM_cons, Option.bind_eq_bind, Option.bind_eq_some_iff]
    constructor
    · rintro ⟨b, hb, bs, hbs, h⟩
      cases h
      exact ⟨hb, hbs⟩
    · rintro ⟨hb, hbs⟩
      exact ⟨_, hb, _, hbs, rfl⟩

section

variable {items : List Json} {ms : List (List UInt8 × Json)} {fs : List (String × Json)}

theorem namesDecode_array : NamesDecode (.array items) := by
  intro ms h
  cases h

theorem namesDecode_object_iff : NamesDecode (.object ms) ↔ ∃ ds, decodeNames ms = some ds := by
  rw [exists_decodeNames_iff]
  constructor
  · exact fun h => h ms rfl
  · intro h ms' hms
    cases hms
    exact h

theorem not_hasMembers_array : ¬ HasMembers (.array items) fs := by
  rintro ⟨ms, h, -⟩
  cases h

theorem hasMembers_object_iff :
    HasMembers (.object ms) fs ↔ ∀ f ∈ fs, valuesOf f.1 ms = [f.2] := by
  constructor
  · rintro ⟨ms', hms, h⟩
    cases hms
    exact h
  · exact fun h => ⟨ms, rfl, h⟩

theorem listsFields_array_iff : ListsFields (.array items) fs ↔ items = fs.map Prod.snd := by
  rw [ListsFields, Json.array.injEq]

theorem not_listsFields_object : ¬ ListsFields (.object ms) fs := by
  intro h
  cases h

/-- An array is read as a record when its length is right. -/
theorem fields_array_eq_some_iff :
    (array items).fields (fs.map Prod.fst) = some (fs.map Prod.snd) ↔ items = fs.map Prod.snd := by
  rw [fields]
  split_ifs with hlen
  · exact Option.some_inj
  · constructor
    · intro h
      cases h
    · intro h
      exact absurd (by rw [h, List.length_map, List.length_map]) hlen

/-- An object is read as a record when its names are decoded and each field is there once. -/
theorem fields_object_eq_some_iff :
    (object ms).fields (fs.map Prod.fst) = some (fs.map Prod.snd) ↔
      NamesDecode (.object ms) ∧ HasMembers (.object ms) fs := by
  have hunique {ds : List (String × Json)} (hds : decodeNames ms = some ds) :
      (fs.map Prod.fst).mapM (fun n => unique n ds) = some (fs.map Prod.snd) ↔
        HasMembers (.object ms) fs := by
    simp only [mapM_map_eq_some_iff, unique_eq_some_iff, valuesOf_eq_of_decodeNames hds,
      hasMembers_object_iff]
  rw [fields, Option.bind_eq_some_iff, namesDecode_object_iff]
  constructor
  · rintro ⟨ds, hds, h⟩
    exact ⟨⟨ds, hds⟩, (hunique hds).1 h⟩
  · rintro ⟨⟨ds, hds⟩, h⟩
    exact ⟨ds, hds, (hunique hds).2 h⟩

end

/-- A value is read as a record exactly when it is spelled as one. -/
theorem fields_eq_some_iff {j : Json} {fs : List (String × Json)} :
    j.fields (fs.map Prod.fst) = some (fs.map Prod.snd) ↔ IsRecord j fs := by
  unfold IsRecord HasFields
  cases j with
  | array items =>
    rw [fields_array_eq_some_iff, listsFields_array_iff, or_iff_right not_hasMembers_array,
      and_iff_right namesDecode_array]
  | object ms => rw [fields_object_eq_some_iff, or_iff_left not_listsFields_object]
  | null | bool b | number t | string t =>
    constructor
    · intro h
      cases h
    · rintro ⟨-, ⟨_, h, -⟩ | h⟩
      · cases h
      · cases h

theorem hasMembers_iff {j : Json} {fs : List (String × Json)} :
    HasMembers j fs ↔ (∀ items, j ≠ .array items) ∧ HasFields j fs := by
  constructor
  · intro h
    refine ⟨?_, .inl h⟩
    rintro items rfl
    exact not_hasMembers_array h
  · rintro ⟨hne, h | h⟩
    · exact h
    · exact absurd h (hne _)

theorem eq_of_map_eq {α β : Type} {l l' : List (α × β)} (h : l.map Prod.fst = l'.map Prod.fst)
    (h' : l.map Prod.snd = l'.map Prod.snd) : l = l' := by
  rw [← List.zip_unzip l, ← List.zip_unzip l', List.unzip_eq_map, List.unzip_eq_map, h, h']

/-- The names determine the fields. -/
theorem HasFields.unique {j : Json} {fs fs' : List (String × Json)} (h : HasFields j fs)
    (h' : HasFields j fs') (hnames : fs.map Prod.fst = fs'.map Prod.fst) : fs = fs' := by
  apply eq_of_map_eq hnames
  rcases h with ⟨ms, rfl, h⟩ | rfl
  · have h' := hasMembers_object_iff.1 (h'.resolve_right not_listsFields_object)
    have hvalues {l : List (String × Json)} (hl : ∀ f ∈ l, valuesOf f.1 ms = [f.2]) :
        (l.map Prod.snd).map (fun v => [v]) = (l.map Prod.fst).map fun n => valuesOf n ms := by
      rw [List.map_map, List.map_map]
      exact List.map_congr_left fun f hf => (hl f hf).symm
    apply List.map_injective_iff.2 fun _ _ h => List.singleton_inj.1 h
    rw [hvalues h, hvalues h', hnames]
  · exact listsFields_array_iff.1 (h'.resolve_left not_hasMembers_array)

theorem length_of_fields_eq_some {j : Json} {names : List String} {vs : List Json}
    (h : j.fields names = some vs) : names.length = vs.length := by
  cases j with
  | array items =>
    rw [fields] at h
    split_ifs at h with hlen
    cases h
    exact hlen.symm
  | object ms =>
    obtain ⟨ds, -, hvs⟩ := Option.bind_eq_some_iff.1 h
    clear h
    induction names generalizing vs with
    | nil =>
      cases hvs
      rfl
    | cons n names ih =>
      simp only [List.mapM_cons, Option.bind_eq_bind, Option.bind_eq_some_iff] at hvs
      obtain ⟨v, -, vs', hvs, h⟩ := hvs
      cases h
      rw [List.length_cons, List.length_cons, ih hvs]
  | null | bool b | number t | string t => cases h

end JsonText.Json
