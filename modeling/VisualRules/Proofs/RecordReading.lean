import Mathlib.Data.List.Nodup
import Mathlib.Data.List.Perm.Basic
import Mathlib.Data.Set.List
import VisualRules.Json.Record

/-!
# What is read of a record

The fields of a record are looked up by their names, and each reader takes the values of one kind.
A record that gives a field twice, leaves out what has to be given or goes on after its last field
is refused in both of its forms.
-/

namespace VisualRules.Json

section Lookup

variable {α : Type} {fields : List (String × α)} {name : String} {value : α}

theorem lookup_cons (field : String × α) (fields : List (String × α)) (name : String) :
    (field :: fields).lookup name =
      if name = field.1 then some field.2 else fields.lookup name := by
  rw [List.lookup_cons]
  by_cases h : name = field.1
  · simp [h]
  · rw [beq_eq_false_iff_ne.mpr h, if_neg h]

theorem lookup_eq_some_iff_mem (h : (fields.map Prod.fst).Nodup) :
    fields.lookup name = some value ↔ (name, value) ∈ fields := by
  induction fields with
  | nil => simp
  | cons field fields ih =>
    rw [List.map_cons, List.nodup_cons] at h
    rw [lookup_cons, List.mem_cons, Prod.ext_iff]
    by_cases hname : name = field.1
    · subst hname
      have hnot : (field.1, value) ∉ fields := fun hmem =>
        h.1 (List.mem_map.mpr ⟨_, hmem, rfl⟩)
      simp [hnot, eq_comm]
    · simp [hname, ih h.2]

theorem lookup_eq_none_iff_notMem : fields.lookup name = none ↔ name ∉ fields.map Prod.fst := by
  induction fields with
  | nil => simp
  | cons field fields ih =>
    rw [lookup_cons, List.map_cons, List.mem_cons, not_or, ← ih]
    by_cases hname : name = field.1 <;> simp [hname]

theorem lookup_congr_of_perm {fields' : List (String × α)} (h : (fields.map Prod.fst).Nodup)
    (hperm : fields.Perm fields') : fields.lookup name = fields'.lookup name := by
  have h' : (fields'.map Prod.fst).Nodup := (hperm.map Prod.fst).nodup_iff.mp h
  apply Option.ext
  intro value
  rw [lookup_eq_some_iff_mem h, lookup_eq_some_iff_mem h', hperm.mem_iff]

end Lookup

section Reading

variable {names : List String} {fields : List (Option String × Json)}

theorem mapM_name_eq_some_iff {named : List (String × Json)} :
    fields.mapM (fun (name, value) => name.map (·, value)) = some named ↔
      fields = named.map fun (name, value) => (some name, value) := by
  induction fields generalizing named with
  | nil => cases named <;> simp
  | cons field fields ih =>
    obtain ⟨name, value⟩ := field
    rw [List.mapM_cons]
    cases name with
    | none => cases named <;> simp
    | some name =>
      have hsome : (do
          let rest ← fields.mapM fun (name, value) => name.map (·, value)
          return (name, value) :: rest) = some named ↔
          ∃ rest, fields = (rest.map fun (name, value) => (some name, value)) ∧
            (name, value) :: rest = named := by
        simp only [Option.bind_eq_bind, Option.bind_eq_some_iff, ih, Option.pure_def,
          Option.some_inj]
      refine Iff.trans hsome ?_
      cases named with
      | nil => simp
      | cons first named =>
        constructor
        · rintro ⟨rest, rfl, ⟨⟩⟩
          rfl
        · intro h
          cases h
          exact ⟨named, rfl, rfl⟩

/-- An object is read if all its names have a text and none of the record is given twice. -/
theorem objectFields?_eq_some_iff {known : List (String × Json)} :
    objectFields? names fields = some known ↔ ∃ named : List (String × Json),
      fields = (named.map fun (name, value) => (some name, value)) ∧
        known = named.filter (·.1 ∈ names) ∧ (known.map Prod.fst).Nodup := by
  rw [objectFields?]
  simp only [Option.bind_eq_bind, Option.bind_eq_some_iff, mapM_name_eq_some_iff]
  constructor
  · rintro ⟨named, rfl, hknown⟩
    split at hknown
    next hnodup =>
      cases hknown
      exact ⟨named, rfl, rfl, hnodup⟩
    next => cases hknown
  · rintro ⟨named, rfl, rfl, hnodup⟩
    exact ⟨named, rfl, if_pos hnodup⟩

theorem objectFields?_cons (names : List String) (name : String) (value : Json)
    (fields : List (Option String × Json)) :
    objectFields? names ((some name, value) :: fields) =
      (objectFields? names fields).bind fun known =>
        if name ∉ names then some known
        else if name ∈ known.map Prod.fst then none else some ((name, value) :: known) := by
  rw [objectFields?, objectFields?, List.mapM_cons]
  cases fields.mapM fun (name, value) => name.map (·, value) with
  | none => rfl
  | some named =>
    by_cases hname : name ∈ names
    · by_cases hnodup : ((named.filter fun field => field.1 ∈ names).map Prod.fst).Nodup
      · by_cases hmem : name ∈ (named.filter fun field => field.1 ∈ names).map Prod.fst <;>
          simp [hname, hnodup, hmem]
      · simp [hname, hnodup]
    · simp [hname]

theorem mem_of_objectFields? {known : List (String × Json)} {field : String × Json}
    (h : objectFields? names fields = some known) (hmem : field ∈ known) :
    (some field.1, field.2) ∈ fields ∧ field.1 ∈ names := by
  obtain ⟨named, rfl, rfl, _⟩ := objectFields?_eq_some_iff.mp h
  rw [List.mem_filter, decide_eq_true_eq] at hmem
  exact ⟨List.mem_map_of_mem hmem.1, hmem.2⟩

theorem exists_objectFields?_of_perm {fields' : List (Option String × Json)}
    {known : List (String × Json)} (hperm : fields.Perm fields')
    (h : objectFields? names fields = some known) :
    ∃ known', objectFields? names fields' = some known' ∧ known.Perm known' := by
  obtain ⟨named, rfl, rfl, hnodup⟩ := objectFields?_eq_some_iff.mp h
  let name : String × Json → Option String × Json := fun (name, value) => (some name, value)
  have hname : name.Injective := by
    rintro ⟨_, _⟩ ⟨_, _⟩ ⟨⟩
    rfl
  obtain ⟨named', rfl⟩ : fields' ∈ Set.range (List.map name) := by
    rw [Set.range_list_map]
    intro field hfield
    obtain ⟨pair, _, hpair⟩ := List.mem_map.mp (hperm.mem_iff.mpr hfield)
    exact ⟨pair, hpair⟩
  have hknown := ((List.map_perm_map_iff hname).mp hperm).filter (·.1 ∈ names)
  exact ⟨_, objectFields?_eq_some_iff.mpr
    ⟨named', rfl, rfl, (hknown.map Prod.fst).nodup_iff.mp hnodup⟩, hknown⟩

private theorem isPrefix_map_fst_zip {α : Type} (names : List String) (items : List α) :
    (names.zip items).map Prod.fst <+: names := by
  induction names generalizing items with
  | nil => simp
  | cons name names ih =>
    cases items with
    | nil => simp
    | cons item items => exact (List.prefix_cons_inj name).mpr (ih items)

/-- A list of the first fields and the object of these fields are read alike. -/
theorem record?_zip {items : List Json} (hnames : names.Nodup) (h : items.length ≤ names.length) :
    record? names (.ofFields (names.zip items)) = record? names (.arr items) := by
  have hkeys := isPrefix_map_fst_zip names items
  refine (objectFields?_eq_some_iff.mpr ⟨names.zip items, rfl, ?_, ?_⟩).trans (if_pos h).symm
  · refine (List.filter_eq_self.mpr fun field hfield => ?_).symm
    exact decide_eq_true (hkeys.subset (List.mem_map_of_mem hfield))
  · exact hkeys.sublist.nodup hnames

theorem keys_of_record? {names : List String} (hnames : names.Nodup) {document : Json}
    {fields : List (String × Json)} (h : document.record? names = some fields) :
    (fields.map Prod.fst).Nodup ∧ ∀ field ∈ fields, field.1 ∈ names := by
  cases document with
  | obj given =>
    have hread : objectFields? names given = some fields := h
    obtain ⟨_, _, _, hnodup⟩ := objectFields?_eq_some_iff.mp hread
    exact ⟨hnodup, fun _ hfield => (mem_of_objectFields? hread hfield).2⟩
  | arr items =>
    rw [record?] at h
    split at h
    next =>
      cases h
      have hkeys := isPrefix_map_fst_zip names items
      exact ⟨hkeys.sublist.nodup hnames, fun field hfield =>
        hkeys.subset (List.mem_map_of_mem hfield)⟩
    next => cases h
  | _ => cases h

end Reading

section Values

variable {α : Type} {read : Json → Option α}

section Fields

variable {fields : List (String × Json)} {name : String} {x : α}

theorem field?_eq_some_iff : field? fields name read = some x ↔
    ∃ value, fields.lookup name = some value ∧ read value = some x := by
  unfold field?
  cases fields.lookup name <;> simp

theorem fieldD?_eq_some_iff {default : α} : fieldD? fields name default read = some x ↔
    (∃ value, fields.lookup name = some value ∧ read value = some x) ∨
      fields.lookup name = none ∧ default = x := by
  unfold fieldD?
  cases fields.lookup name <;> simp

end Fields

theorem list?_eq_some_iff {value : Json} {xs : List α} : list? read value = some xs ↔
    ∃ items, value = .arr items ∧ items.Forall₂ (fun item x => read item = some x) xs := by
  have hitems (items : List Json) : items.mapM read = some xs ↔
      items.Forall₂ (fun item x => read item = some x) xs := by
    induction items generalizing xs with
    | nil => cases xs <;> simp
    | cons item items ih =>
      rw [List.mapM_cons]
      cases xs with
      | nil => cases read item <;> cases items.mapM read <;> simp
      | cons x xs =>
        rw [List.forall₂_cons, ← ih]
        cases read item <;> cases items.mapM read <;> simp
  cases value with
  | arr items => simp [list?, hitems]
  | _ => simp [list?]

theorem nullable?_eq_some_iff {value : Json} {x : Option α} : nullable? read value = some x ↔
    value = .null ∧ x = none ∨ value ≠ .null ∧ ∃ y, read value = some y ∧ x = some y := by
  cases value <;> simp [nullable?, eq_comm]

theorem exists_of_mem_of_list? {items : List Json} {item : Json} {xs : List α}
    (h : list? read (.arr items) = some xs) (hmem : item ∈ items) : ∃ x, read item = some x := by
  obtain ⟨_, ⟨⟩, hitems⟩ := list?_eq_some_iff.mp h
  induction hitems with
  | nil => cases hmem
  | @cons _ x _ xs hfirst hrest ih =>
    obtain rfl | hmem := List.mem_cons.mp hmem
    · exact ⟨x, hfirst⟩
    · exact ih (list?_eq_some_iff.mpr ⟨_, rfl, hrest⟩) hmem

theorem text?_eq_some_iff {document : Json} {text : String} :
    text? document = some text ↔ document = .ofText text := by
  cases document <;> simp [text?, ofText]

theorem bool?_eq_some_iff {document : Json} {value : Bool} :
    bool? document = some value ↔ document = .bool value := by
  cases document <;> simp [bool?]

theorem int32?_eq_some_iff {document : Json} {value : Int32} :
    int32? document = some value ↔ document = .int value.toInt := by
  constructor
  · intro h
    unfold int32? at h
    split at h
    next number =>
      split at h
      next hbounds =>
        cases h
        have hmin : Int32.minValue.toInt = -2 ^ 31 := by decide
        have hmax : Int32.maxValue.toInt = 2 ^ 31 - 1 := by decide
        rw [Int32.toInt_ofInt_of_le (by omega) (by omega)]
      next => cases h
    next => cases h
  · rintro rfl
    exact int32?_int value

end Values

/-- The record gives this value to the field, under its name or at its place. -/
inductive Gives (names : List String) : Json → String → Json → Prop
  | field {fields : List (Option String × Json)} {name : String} {value : Json}
    (mem : (some name, value) ∈ fields) (known : name ∈ names) :
    Gives names (.obj fields) name value
  | item {items : List Json} {name : String} {value : Json}
    (mem : (name, value) ∈ names.zip items) : Gives names (.arr items) name value

/-- What is wrong with a record, whatever its values mean: a field is given twice, one that has to
be given is missing, a list goes on after the last field, or a field is `null` that cannot be. -/
inductive Malformed (names required nullable : List String) : Json → Prop
  | twice {before middle after : List (Option String × Json)} {name : String} {value value' : Json}
    (known : name ∈ names) : Malformed names required nullable
      (.obj (before ++ (some name, value) :: (middle ++ (some name, value') :: after)))
  | missing {document : Json} {name : String} (needed : name ∈ required)
    (absent : ∀ value, ¬Gives names document name value) :
    Malformed names required nullable document
  | tooLong {items : List Json} (long : names.length < items.length) :
    Malformed names required nullable (.arr items)
  | null {document : Json} {name : String} (known : name ∈ names) (strict : name ∉ nullable)
    (null : Gives names document name .null) : Malformed names required nullable document

section Refusal

variable {names required nullable : List String} {document : Json}
  {fields : List (String × Json)} {name : String}

private theorem lookup_eq_some_iff_gives (hnames : names.Nodup)
    (h : document.record? names = some fields)
    {value : Json} : fields.lookup name = some value ↔ Gives names document name value := by
  rw [lookup_eq_some_iff_mem (keys_of_record? hnames h).1]
  cases document with
  | obj given =>
    have hread : objectFields? names given = some fields := h
    constructor
    · intro hmem
      obtain ⟨hgiven, hknown⟩ := mem_of_objectFields? hread hmem
      exact .field hgiven hknown
    · rintro (⟨mem, known⟩ | _)
      obtain ⟨named, rfl, rfl, _⟩ := objectFields?_eq_some_iff.mp hread
      obtain ⟨field, hfield, heq⟩ := List.mem_map.mp mem
      cases heq
      exact List.mem_filter.mpr ⟨hfield, decide_eq_true known⟩
  | arr items =>
    rw [record?] at h
    split at h
    next =>
      cases h
      exact ⟨.item, fun hgives => by cases hgives; assumption⟩
    next => cases h
  | _ => cases h

private theorem record?_twice {before middle after : List (Option String × Json)}
    {value value' : Json} (known : name ∈ names) :
    record? names
      (.obj (before ++ (some name, value) :: (middle ++ (some name, value') :: after))) = none := by
  have hperm : (before ++ (some name, value) :: (middle ++ (some name, value') :: after)).Perm
      ((some name, value) :: (some name, value') :: (before ++ (middle ++ after))) := by
    refine List.perm_middle.trans (.cons _ ?_)
    rw [← List.append_assoc, ← List.append_assoc]
    exact List.perm_middle
  rw [record?, Option.eq_none_iff_forall_ne_some]
  intro known' hread
  obtain ⟨known'', hread', _⟩ := exists_objectFields?_of_perm hperm hread
  rw [objectFields?_cons, objectFields?_cons] at hread'
  cases hrest : objectFields? names (before ++ (middle ++ after)) with
  | none =>
    rw [hrest] at hread'
    cases hread'
  | some rest =>
    rw [hrest] at hread'
    by_cases hmem : name ∈ rest.map Prod.fst <;> simp [known, hmem] at hread'

/-- A record that is read is wrong only in what it does not give or gives as `null`. -/
theorem Malformed.of_record? (hnames : names.Nodup) (hfields : document.record? names = some fields)
    (h : Malformed names required nullable document) :
    (∃ name ∈ required, fields.lookup name = none) ∨
      ∃ name ∈ names, name ∉ nullable ∧ fields.lookup name = some .null := by
  have hgives {name : String} {value : Json} :
      fields.lookup name = some value ↔ Gives names document name value :=
    lookup_eq_some_iff_gives hnames hfields
  cases h with
  | twice known =>
    rw [record?_twice known] at hfields
    cases hfields
  | @missing _ name needed absent =>
    refine .inl ⟨name, needed, Option.eq_none_iff_forall_ne_some.mpr fun value hvalue => ?_⟩
    exact absent value (hgives.mp hvalue)
  | tooLong long =>
    rw [record?, if_neg (by omega)] at hfields
    cases hfields
  | @null _ name known strict null => exact .inr ⟨name, known, strict, hgives.mpr null⟩

variable {value : Json} {α : Type} {read : Json → Option α}

theorem field?_of_gives (hnames : names.Nodup) (hfields : document.record? names = some fields)
    (h : document.Gives names name value) : field? fields name read = read value := by
  rw [field?, (lookup_eq_some_iff_gives hnames hfields).mpr h]

theorem fieldD?_of_gives (hnames : names.Nodup) (hfields : document.record? names = some fields)
    (h : document.Gives names name value) (default : α) :
    fieldD? fields name default read = read value := by
  rw [fieldD?, (lookup_eq_some_iff_gives hnames hfields).mpr h]

end Refusal

end VisualRules.Json
