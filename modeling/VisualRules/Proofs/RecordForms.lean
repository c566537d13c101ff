import Mathlib.Logic.Relation
import VisualRules.Proofs.RecordReading

/-!
# The forms of a record

One record can be written in many ways: its fields in another order, with further fields, with a
default written out, or as a list. Each change from one form to another keeps what is looked up in
the record. They reach every form that holds the same, so nothing but the form is ignored.
-/

namespace VisualRules.Json

/-- The fields of a record in their order, and the defaults of those that have one. -/
structure Schema where
  names : List String
  defaults : List (String × Json)
  nodup : names.Nodup
  mem_names : ∀ field ∈ defaults, field.1 ∈ names

/-- One change of the form of a record. `change` tells the changes within the values of its fields.
A permutation brings any field to the front, a list is changed within as the object that it stands
for, and every change can be undone. -/
inductive Restyle (schema : Schema) (change : String → Json → Json → Prop) : Json → Json → Prop
  | permute {fields fields' : List (Option String × Json)} (perm : fields.Perm fields') :
    Restyle schema change (.obj fields) (.obj fields')
  | unknown {fields : List (Option String × Json)} {name : String} (value : Json)
    (unknown : name ∉ schema.names) :
    Restyle schema change (.obj fields) (.obj ((some name, value) :: fields))
  | default {fields : List (Option String × Json)} {name : String} {value : Json}
    (default : (name, value) ∈ schema.defaults) (absent : ∀ given, (some name, given) ∉ fields) :
    Restyle schema change (.obj fields) (.obj ((some name, value) :: fields))
  | list {items : List Json} (fits : items.length ≤ schema.names.length) :
    Restyle schema change (.ofFields (schema.names.zip items)) (.arr items)
  | within {fields : List (Option String × Json)} {name : String} {value value' : Json}
    (changed : change name value value') :
    Restyle schema change (.obj ((some name, value) :: fields))
      (.obj ((some name, value') :: fields))

inductive RestyleItem (change : Json → Json → Prop) : Json → Json → Prop
  | item {before after : List Json} {value value' : Json} (changed : change value value') :
    RestyleItem change (.arr (before ++ value :: after)) (.arr (before ++ value' :: after))

section Forms

variable {schema : Schema} {change : String → Json → Json → Prop}

inductive SameValue (schema : Schema) (change : String → Json → Json → Prop) (name : String) :
    Option Json → Option Json → Prop
  | same (value : Option Json) : SameValue schema change name value value
  | default {value : Json} (default : (name, value) ∈ schema.defaults) :
    SameValue schema change name none (some value)
  | within {value value' : Json} (changed : change name value value') :
    SameValue schema change name (some value) (some value')

/-- What is read of two forms of a record: nothing of either, or fields that give the same. -/
inductive SameRecord (schema : Schema) (change : String → Json → Json → Prop) :
    Option (List (String × Json)) → Option (List (String × Json)) → Prop
  | unreadable : SameRecord schema change none none
  | read {fields fields' : List (String × Json)}
    (same : ∀ name, SameValue schema change name (fields.lookup name) (fields'.lookup name)) :
    SameRecord schema change (some fields) (some fields')

private theorem SameRecord.refl (fields : Option (List (String × Json))) :
    SameRecord schema change fields fields := by
  cases fields with
  | none => exact .unreadable
  | some fields => exact .read fun _ => .same _

/-- What is made of the fields of a record does not depend on its form if it depends on nothing but
what the fields give. -/
theorem SameRecord.bind_congr {α : Type} {read : List (String × Json) → Option α}
    {given given' : Option (List (String × Json))} (h : SameRecord schema change given given')
    (hread : ∀ fields fields' : List (String × Json), (∀ name,
      SameValue schema change name (fields.lookup name) (fields'.lookup name)) →
        read fields = read fields') : given.bind read = given'.bind read := by
  cases h with
  | unreadable => rfl
  | read same => exact hread _ _ same

private theorem sameRecord_of_perm {fields fields' : List (Option String × Json)}
    (hperm : fields.Perm fields') : SameRecord schema change
      (objectFields? schema.names fields) (objectFields? schema.names fields') := by
  cases h : objectFields? schema.names fields with
  | some known =>
    obtain ⟨known', hknown', hsame⟩ := exists_objectFields?_of_perm hperm h
    obtain ⟨_, _, _, hnodup⟩ := objectFields?_eq_some_iff.mp h
    rw [hknown']
    refine .read fun name => ?_
    rw [lookup_congr_of_perm hnodup hsame]
    exact .same _
  | none =>
    cases h' : objectFields? schema.names fields' with
    | none => exact .unreadable
    | some known' =>
      obtain ⟨known, hknown, _⟩ := exists_objectFields?_of_perm hperm.symm h'
      rw [h] at hknown
      cases hknown

/-- One change of its form keeps what is looked up in a record. -/
theorem Restyle.sameRecord {document document' : Json}
    (h : Restyle schema change document document') :
    SameRecord schema change (document.record? schema.names) (document'.record? schema.names) := by
  cases h with
  | permute perm => exact sameRecord_of_perm perm
  | @unknown fields name value unknown =>
    have hsame : objectFields? schema.names ((some name, value) :: fields) =
        objectFields? schema.names fields := by
      rw [objectFields?_cons]
      simp [unknown]
    rw [record?, record?, hsame]
    exact .refl _
  | @default fields name value default absent =>
    have hname : name ∈ schema.names := schema.mem_names _ default
    rw [record?, record?, objectFields?_cons]
    cases h : objectFields? schema.names fields with
    | none => exact .unreadable
    | some known =>
      have hnone : known.lookup name = none := by
        rw [lookup_eq_none_iff_notMem, List.mem_map]
        rintro ⟨field, hfield, rfl⟩
        exact absent _ (mem_of_objectFields? h hfield).1
      rw [Option.bind_some, if_neg (not_not.mpr hname), if_neg (lookup_eq_none_iff_notMem.mp hnone)]
      refine .read fun other => ?_
      rw [lookup_cons]
      split
      next heq =>
        cases heq
        rw [hnone]
        exact .default default
      next => exact .same _
  | list fits =>
    rw [record?_zip schema.nodup fits]
    exact .refl _
  | @within fields name value value' changed =>
    rw [record?, record?, objectFields?_cons, objectFields?_cons]
    cases objectFields? schema.names fields with
    | none => exact .unreadable
    | some known =>
      rw [Option.bind_some, Option.bind_some]
      split
      next => exact .refl _
      next =>
        split
        next => exact .unreadable
        next =>
          refine .read fun other => ?_
          rw [lookup_cons, lookup_cons]
          split
          next heq =>
            cases heq
            exact .within changed
          next => exact .same _

section Congruence

variable {α : Type} {read : Json → Option α} {fields fields' : List (String × Json)} {name : String}

theorem field?_congr
    (h : SameValue schema change name (fields.lookup name) (fields'.lookup name))
    (required : ∀ value, (name, value) ∉ schema.defaults)
    (hread : ∀ value value', change name value value' → read value = read value') :
    field? fields name read = field? fields' name read := by
  unfold field?
  generalize fields.lookup name = given at h ⊢
  generalize fields'.lookup name = given' at h ⊢
  cases h with
  | same => rfl
  | default default => exact absurd default (required _)
  | within changed => exact hread _ _ changed

theorem fieldD?_congr {default : α}
    (h : SameValue schema change name (fields.lookup name) (fields'.lookup name))
    (hdefault : ∀ value, (name, value) ∈ schema.defaults → read value = some default)
    (hread : ∀ value value', change name value value' → read value = read value') :
    fieldD? fields name default read = fieldD? fields' name default read := by
  unfold fieldD?
  generalize fields.lookup name = given at h ⊢
  generalize fields'.lookup name = given' at h ⊢
  cases h with
  | same => rfl
  | default default => exact (hdefault _ default).symm
  | within changed => exact hread _ _ changed

theorem list?_congr {change : Json → Json → Prop} {items items' : Json}
    (h : RestyleItem change items items')
    (hread : ∀ value value', change value value' → read value = read value') :
    list? read items = list? read items' := by
  obtain ⟨changed⟩ := h
  simp only [list?, List.mapM_append, List.mapM_cons, hread _ _ changed]

end Congruence

end Forms

section Reach

open Relation (EqvGen)

variable {schema : Schema} {change : String → Json → Json → Prop}

private theorem eqvGen_of_perm {fields fields' : List (String × Json)} (h : fields.Perm fields') :
    EqvGen (Restyle schema change) (.ofFields fields) (.ofFields fields') :=
  .rel _ _ (.permute (h.map _))

private theorem eqvGen_append_unknown {others : List (String × Json)}
    (h : ∀ field ∈ others, field.1 ∉ schema.names) (fields : List (String × Json)) :
    EqvGen (Restyle schema change) (.ofFields fields) (.ofFields (others ++ fields)) := by
  induction others with
  | nil => exact .refl _
  | cons field others ih =>
    obtain ⟨hfield, hothers⟩ := List.forall_mem_cons.mp h
    exact .trans _ _ _ (ih hothers) (.rel _ _ (.unknown _ hfield))

private theorem eqvGen_append_defaults {others fields : List (String × Json)}
    (h : ∀ field ∈ others, field ∈ schema.defaults)
    (hnodup : ((others ++ fields).map Prod.fst).Nodup) :
    EqvGen (Restyle schema change) (.ofFields fields) (.ofFields (others ++ fields)) := by
  induction others with
  | nil => exact .refl _
  | cons field others ih =>
    obtain ⟨hfield, hothers⟩ := List.forall_mem_cons.mp h
    rw [List.cons_append, List.map_cons, List.nodup_cons] at hnodup
    refine .trans _ _ _ (ih hothers hnodup.2) (.rel _ _ (.default hfield fun given hgiven => ?_))
    obtain ⟨other, hother, heq⟩ := List.mem_map.mp hgiven
    have hname : other.1 = field.1 := Option.some.inj (congrArg Prod.fst heq)
    exact hnodup.1 (hname ▸ List.mem_map_of_mem hother)

private theorem eqvGen_lift {α β : Type} {r : α → α → Prop} {s : β → β → Prop} (f : α → β)
    (hf : ∀ a b, r a b → s (f a) (f b)) {a b : α} (h : EqvGen r a b) : EqvGen s (f a) (f b) := by
  induction h with
  | rel _ _ changed => exact .rel _ _ (hf _ _ changed)
  | refl => exact .refl _
  | symm _ _ _ ih => exact .symm _ _ ih
  | trans _ _ _ _ _ ih ih' => exact .trans _ _ _ ih ih'

private theorem eqvGen_within {name : String} {value value' : Json}
    (h : EqvGen (change name) value value') (fields : List (String × Json)) :
    EqvGen (Restyle schema change) (.ofFields ((name, value) :: fields))
      (.ofFields ((name, value') :: fields)) :=
  eqvGen_lift (fun value => ofFields ((name, value) :: fields))
    (fun _ _ changed => Restyle.within changed) h

private theorem eqvGen_values {fields : List (String × Json)} {given : String × Json → Json}
    (h : ∀ field ∈ fields, EqvGen (change field.1) (given field) field.2)
    (done : List (String × Json)) :
    EqvGen (Restyle schema change)
      (.ofFields ((fields.map fun field => (field.1, given field)) ++ done))
      (.ofFields (fields ++ done)) := by
  induction fields generalizing done with
  | nil => exact .refl _
  | cons field fields ih =>
    obtain ⟨hfield, hfields⟩ := List.forall_mem_cons.mp h
    refine .trans _ _ _ (eqvGen_within hfield _) ?_
    refine .trans _ _ _ (eqvGen_of_perm List.perm_middle.symm) ?_
    exact .trans _ _ _ (ih hfields (field :: done)) (eqvGen_of_perm List.perm_middle)

/-- A record has the form of the object of those fields that are read of it. -/
theorem eqvGen_read {document : Json} {fields : List (String × Json)}
    (h : document.record? schema.names = some fields) :
    EqvGen (Restyle schema change) document (.ofFields fields) := by
  cases document with
  | obj given =>
    obtain ⟨named, rfl, rfl, _⟩ := objectFields?_eq_some_iff.mp h
    have hperm := (List.filter_append_perm (fun field => decide (field.1 ∈ schema.names)) named)
    have hunknown : ∀ field ∈ named.filter fun field => !decide (field.1 ∈ schema.names),
        field.1 ∉ schema.names := by
      intro field hfield
      simpa using (List.mem_filter.mp hfield).2
    refine .trans _ _ _ (eqvGen_of_perm (hperm.symm.trans List.perm_append_comm)) ?_
    exact .symm _ _ (eqvGen_append_unknown hunknown _)
  | arr items =>
    rw [record?] at h
    split at h
    next hfits =>
      cases h
      exact .symm _ _ (.rel _ _ (.list hfits))
    next => cases h
  | _ => cases h

theorem eqvGen_arr {α : Type} {change : Json → Json → Prop} {write : α → Json}
    {items : List Json} {xs : List α}
    (h : items.Forall₂ (fun item x => EqvGen change item (write x)) xs) (before : List Json) :
    EqvGen (RestyleItem change) (.arr (before ++ items)) (.arr (before ++ xs.map write)) := by
  induction h generalizing before with
  | nil => exact .refl _
  | @cons item x items xs hitem hitems ih =>
    have hfirst : EqvGen (RestyleItem change) (.arr (before ++ item :: items))
        (.arr (before ++ write x :: items)) :=
      eqvGen_lift (fun item => arr (before ++ item :: items))
        (fun _ _ changed => RestyleItem.item changed) hitem
    have hrest := ih (before ++ [write x])
    simp only [List.append_assoc, List.singleton_append] at hrest
    exact .trans _ _ _ hfirst hrest

section Missing

variable {given fields : List (String × Json)} {value : String × Json → Json}

def missing (given fields : List (String × Json)) (value : String × Json → Json) :
    List (String × Json) :=
  (fields.filter fun field => given.lookup field.1 = none).map fun field => (field.1, value field)

private theorem mem_missing {pair : String × Json} : pair ∈ missing given fields value ↔
    ∃ field ∈ fields, given.lookup field.1 = none ∧ (field.1, value field) = pair := by
  simp only [missing, List.mem_map, List.mem_filter, decide_eq_true_eq, and_assoc]

private theorem nodup_missing_append (hfields : (fields.map Prod.fst).Nodup)
    (hgiven : (given.map Prod.fst).Nodup) :
    ((missing given fields value ++ given).map Prod.fst).Nodup := by
  have hkeys : (missing given fields value).map Prod.fst =
      (fields.filter fun field => given.lookup field.1 = none).map Prod.fst := by
    simp [missing]
  rw [List.map_append]
  refine List.Nodup.append ?_ hgiven fun name hname => ?_
  · rw [hkeys]
    exact (List.filter_sublist.map Prod.fst).nodup hfields
  · obtain ⟨pair, hpair, rfl⟩ := List.mem_map.mp hname
    obtain ⟨field, _, hnone, rfl⟩ := mem_missing.mp hpair
    exact lookup_eq_none_iff_notMem.mp hnone

private theorem missing_append_perm (hfields : (fields.map Prod.fst).Nodup)
    (hgiven : (given.map Prod.fst).Nodup)
    (hknown : ∀ pair ∈ given, pair.1 ∈ fields.map Prod.fst)
    (hvalue : ∀ field ∈ fields, given.lookup field.1 = none ∨
      given.lookup field.1 = some (value field)) :
    (missing given fields value ++ given).Perm
      (fields.map fun field => (field.1, value field)) := by
  have hnodup : (fields.map fun field => (field.1, value field)).Nodup := by
    refine List.Nodup.of_map Prod.fst ?_
    rw [List.map_map]
    exact hfields
  refine (List.perm_ext_iff_of_nodup (nodup_missing_append hfields hgiven).of_map hnodup).mpr ?_
  intro pair
  rw [List.mem_append, List.mem_map]
  constructor
  · rintro (hpair | hpair)
    · obtain ⟨field, hfield, _, rfl⟩ := mem_missing.mp hpair
      exact ⟨field, hfield, rfl⟩
    · obtain ⟨field, hfield, hname⟩ := List.mem_map.mp (hknown pair hpair)
      have hlookup : given.lookup field.1 = some pair.2 := by
        rw [hname]
        exact (lookup_eq_some_iff_mem hgiven).mpr hpair
      refine ⟨field, hfield, Prod.ext hname ?_⟩
      obtain hnone | hsome := hvalue field hfield
      · rw [hnone] at hlookup
        cases hlookup
      · exact Option.some.inj (hsome.symm.trans hlookup)
  · rintro ⟨field, hfield, rfl⟩
    obtain hnone | hsome := hvalue field hfield
    · exact .inl (mem_missing.mpr ⟨field, hfield, hnone, rfl⟩)
    · exact .inr ((lookup_eq_some_iff_mem hgiven).mp hsome)

end Missing

/-- The record gives this field its value up to the form, or leaves it at its default. -/
def Fills (schema : Schema) (change : String → Json → Json → Prop) (given : List (String × Json))
    (field : String × Json) : Prop :=
  ∃ value, (given.lookup field.1 = some value ∨
    given.lookup field.1 = none ∧ (field.1, value) ∈ schema.defaults) ∧
      EqvGen (change field.1) value field.2

section Fields

variable {α : Type} {read : Json → Option α} {fields : List (String × Json)} {name : String} {x : α}

theorem fills_of_field? (write : α → Json) (h : field? fields name read = some x)
    (hread : ∀ value, read value = some x → EqvGen (change name) value (write x)) :
    Fills schema change fields (name, write x) := by
  obtain ⟨value, hvalue, hx⟩ := field?_eq_some_iff.mp h
  exact ⟨value, .inl hvalue, hread value hx⟩

theorem fills_of_fieldD? (write : α → Json) {default : α}
    (h : fieldD? fields name default read = some x)
    (hdefault : (name, write default) ∈ schema.defaults)
    (hread : ∀ value, read value = some x → EqvGen (change name) value (write x)) :
    Fills schema change fields (name, write x) := by
  obtain ⟨value, hvalue, hx⟩ | ⟨hnone, rfl⟩ := fieldD?_eq_some_iff.mp h
  · exact ⟨value, .inl hvalue, hread value hx⟩
  · exact ⟨write default, .inr ⟨hnone, hdefault⟩, .refl _⟩

end Fields

/-- A record that is read has the form of any record that gives all fields in their order, and the
same values up to their forms. -/
theorem eqvGen_ofFields {document : Json} {given fields : List (String × Json)}
    (h : document.record? schema.names = some given) (hfields : fields.map Prod.fst = schema.names)
    (hvalues : ∀ field ∈ fields, Fills schema change given field) :
    EqvGen (Restyle schema change) document (.ofFields fields) := by
  obtain ⟨hnodup, hknown⟩ := keys_of_record? schema.nodup h
  have hfields_nodup : (fields.map Prod.fst).Nodup := hfields ▸ schema.nodup
  have : Nonempty Json := ⟨.null⟩
  choose! value hgiven hvalue using hvalues
  have hdefaults : ∀ field ∈ missing given fields value, field ∈ schema.defaults := by
    intro pair hpair
    obtain ⟨field, hfield, hnone, rfl⟩ := mem_missing.mp hpair
    obtain hsome | ⟨_, hdefault⟩ := hgiven field hfield
    · rw [hnone] at hsome
      cases hsome
    · exact hdefault
  have hperm := missing_append_perm hfields_nodup hnodup (hfields ▸ hknown)
    fun field hfield => (hgiven field hfield).symm.imp_left And.left
  have hchanged : EqvGen (Restyle schema change)
      (.ofFields ((fields.map fun field => (field.1, value field)) ++ []))
      (.ofFields (fields ++ [])) := eqvGen_values hvalue []
  rw [List.append_nil, List.append_nil] at hchanged
  refine .trans _ _ _ (eqvGen_read h) (.trans _ _ _ (eqvGen_append_defaults hdefaults ?_) ?_)
  · exact nodup_missing_append hfields_nodup hnodup
  · exact .trans _ _ _ (eqvGen_of_perm hperm) hchanged

end Reach

end VisualRules.Json
