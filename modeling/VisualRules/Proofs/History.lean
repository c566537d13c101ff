import VisualRules.Proofs.Growth

/-!
# Histories of a layout

A layout is edited in any order: segments join it at the end or in between, handlers are opened,
again if need be, rules are bound, and segments are written over. Every segment is known by the
number of the edit that brought it in, so that one can say where it went.
-/

namespace VisualRules

private theorem map_modify {α β : Type} (side : α → β) (f : α → α) (g : β → β) (l : List α)
    (k : Nat) (h : ∀ x, side (f x) = g (side x)) :
    (l.modify k f).map side = (l.map side).modify k g := by
  apply List.ext_getElem?
  intro position
  rw [List.getElem?_map, List.getElem?_modify, List.getElem?_modify, List.getElem?_map]
  cases l[position]? with
  | none => rfl
  | some x =>
    by_cases hk : k = position
    · simp [hk, h]
    · simp [hk]

namespace Layout

inductive Edit
  | push (segment : Segment)
  | insert (position : Nat) (segment : Segment)
  | openHandler (handler : Handler) (span : Span)
  | growHandler (handler : Handler)
  | bindRule (position : Nat)
  /-- Writes another segment over the one at the position, if there is one. -/
  | replace (position : Nat) (segment : Segment)
  deriving DecidableEq, Repr

/-- An insertion in place. The position is checked before anything is written; then the headers, the
rules and the segments are written one after the other. -/
def insertInPlace (position : Nat) (segment : Segment) : ExceptT Fault (StateM Layout) Unit := do
  let layout ← get
  if layout.size < position then
    throw (.insertionPastEnd position layout.size)
  modify fun layout => { layout with
    spans := layout.spans.map <| Option.map fun span =>
      { span with header := shiftFrom position span.header } }
  modify fun layout => { layout with rules := layout.rules.map (shiftFrom position) }
  modify fun layout => { layout with segments := layout.segments.insertIdx position segment }

namespace Edit

def perform : Edit → ExceptT Fault (StateM Layout) Unit
  | push segment => modify (·.push segment)
  | insert position segment => insertInPlace position segment
  | openHandler handler span => modify (·.openHandler handler span)
  | growHandler handler => modify (·.growHandler handler)
  | bindRule position => modify (·.bindRule position)
  | replace position segment => modify fun layout => (layout.replace? position segment).getD layout

/-- How an edit ends, and the layout it leaves, whether it failed or not. -/
def run (edit : Edit) (layout : Layout) : Except Fault Unit × Layout :=
  edit.perform.run.run layout

def recorded? : Edit → Option Nat
  | openHandler _ span => some span.header
  | bindRule position => some position
  | push _ | insert _ _ | growHandler _ | replace _ _ => none

/-- What an edit does to the segments with their numbers. It brings one in under a number of its
own, or writes over one, which keeps its number. -/
def mark (number : Nat) (marked : List (Nat × Segment)) : Edit → List (Nat × Segment)
  | push segment => marked ++ [(number, segment)]
  | insert position segment => marked.insertIdx position (number, segment)
  | replace position segment => marked.modify position fun one => (one.1, segment)
  | openHandler _ _ | growHandler _ | bindRule _ => marked

end Edit

def after (history : List Edit) : Layout :=
  history.foldl (fun layout edit => (edit.run layout).2) empty

/-- The segments after a history, each with the number of the edit that brought it in. -/
def marks (history : List Edit) : List (Nat × Segment) :=
  history.zipIdx.foldl (fun marked edit => edit.1.mark edit.2 marked) []

def origins (history : List Edit) : List Nat := (marks history).map Prod.fst

/-- A header or a rule is recorded only where there is a segment at the time. -/
def RecordsExisting (history : List Edit) : Prop :=
  ∀ moment (h : moment < history.length), ∀ position ∈ history[moment].recorded?,
    position < (after (history.take moment)).size

instance (history : List Edit) : Decidable (RecordsExisting history) :=
  inferInstanceAs (Decidable (∀ moment (h : moment < history.length),
    ∀ position ∈ history[moment].recorded?, position < (after (history.take moment)).size))

/-- The segment that stood at `position` after the first edits stands at `current` after all. -/
def StandsAt (earlier history : List Edit) (position current : Nat) : Prop :=
  current < (after history).size ∧
    ∃ origin, (origins earlier)[position]? = some origin ∧
      (origins history)[current]? = some origin

/-- Every kept position is that of the segment it was recorded for. -/
structure KeepsTrack (history : List Edit) : Prop where
  segments_eq : (after history).segments = (marks history).map Prod.snd
  nodup : (origins history).Nodup
  /-- Segments never change their order, and none is lost. -/
  sublist : ∀ earlier, earlier <+: history → (origins earlier).Sublist (origins history)
  /-- The number stands for the segment as long as nothing is written over. -/
  get?_eq : ∀ earlier later position current, history = earlier ++ later →
    (∀ written segment, .replace written segment ∉ later) →
    StandsAt earlier history position current →
    (after history).get? current = (after earlier).get? position
  rule_follows : ∀ earlier position later, history = earlier ++ .bindRule position :: later →
    ∃ current, (after history).rules[(after earlier).rules.length]? = some current ∧
      StandsAt earlier history position current
  rule_recorded : ∀ rule < (after history).rules.length, ∃ earlier position later,
    history = earlier ++ .bindRule position :: later ∧ (after earlier).rules.length = rule
  /-- The last opening of a handler counts. Only growing changes the number of its segments. -/
  header_follows : ∀ earlier handler span later,
    history = earlier ++ .openHandler handler span :: later →
    (∀ other, .openHandler handler other ∉ later) →
    ∃ current, (after history).span? handler =
        some ⟨current, span.used + later.count (.growHandler handler)⟩ ∧
      StandsAt earlier history span.header current
  header_recorded : ∀ handler span, (after history).span? handler = some span →
    ∃ earlier opened later, history = earlier ++ .openHandler handler opened :: later ∧
      ∀ other, .openHandler handler other ∉ later
  insert_within : ∀ position segment, position ≤ (after history).size →
    ((Edit.insert position segment).run (after history)).1 = .ok ()
  insert_past_end : ∀ position segment, (after history).size < position →
    (Edit.insert position segment).run (after history) =
      (.error (.insertionPastEnd position (after history).size), after history)

section Steps

private theorem run_get (layout : Layout) :
    (get : ExceptT Fault (StateM Layout) Layout).run.run layout = pure (.ok layout, layout) := rfl

private theorem insertInPlace_past_end {layout : Layout} {position : Nat} (segment : Segment)
    (h : layout.size < position) : (insertInPlace position segment).run.run layout =
      (.error (.insertionPastEnd position layout.size), layout) := by
  simp only [insertInPlace, ExceptT.run_bind, StateT.run_bind, run_get, pure_bind, if_pos h]
  rfl

private theorem insertInPlace_within {layout : Layout} {position : Nat} (segment : Segment)
    (h : position ≤ layout.size) : (insertInPlace position segment).run.run layout = (.ok (), {
      segments := layout.segments.insertIdx position segment
      spans := layout.spans.map <| Option.map fun span =>
        { span with header := shiftFrom position span.header }
      rules := layout.rules.map (shiftFrom position) }) := by
  simp only [insertInPlace, ExceptT.run_bind, StateT.run_bind, run_get, pure_bind,
    if_neg (Nat.not_lt.mpr h)]
  rfl

/-- To insert in place is to insert, and to leave the layout alone if that fails. -/
theorem insertInPlace_run (position : Nat) (segment : Segment) (layout : Layout) :
    (insertInPlace position segment).run.run layout =
      match layout.insert position segment with
      | .ok next => (.ok (), next)
      | .error fault => (.error fault, layout) := by
  by_cases hle : position ≤ layout.size
  · rw [insertInPlace_within segment hle, insert_eq_ok segment hle]
  · have hlt : layout.size < position := by omega
    rw [insertInPlace_past_end segment hlt, insert_eq_error_iff.mpr ⟨hlt, rfl⟩]

@[simp] theorem segments_growHandler (layout : Layout) (handler : Handler) :
    (layout.growHandler handler).segments = layout.segments := by
  unfold growHandler
  split
  · rfl
  · rfl

@[simp] theorem rules_growHandler (layout : Layout) (handler : Handler) :
    (layout.growHandler handler).rules = layout.rules := by
  unfold growHandler
  split
  · rfl
  · rfl

end Steps

namespace Edit

/-- Where an edit moves a position. Only an insertion that succeeds moves any. -/
def moved (size : Nat) : Edit → Nat → Nat
  | insert position _ => if position ≤ size then shiftFrom position else id
  | push _ | openHandler _ _ | growHandler _ | bindRule _ | replace _ _ => id

/-- What an edit does to the numbers of the segments. -/
def place (number : Nat) (numbers : List Nat) : Edit → List Nat
  | push _ => numbers ++ [number]
  | insert position _ => numbers.insertIdx position number
  | openHandler _ _ | growHandler _ | bindRule _ | replace _ _ => numbers

def bound? : Edit → Option Nat
  | bindRule position => some position
  | push _ | insert _ _ | openHandler _ _ | growHandler _ | replace _ _ => none

def opened? (handler : Handler) : Edit → Option Span
  | openHandler opened span => if handler = opened then some span else none
  | push _ | insert _ _ | growHandler _ | bindRule _ | replace _ _ => none

private theorem bound?_eq_some {edit : Edit} {position : Nat} (h : edit.bound? = some position) :
    edit = .bindRule position := by
  cases edit with
  | bindRule bound => rw [Option.some.inj h]
  | push | insert | openHandler | growHandler | replace => cases h

private theorem opened?_eq_some {edit : Edit} {handler : Handler} {span : Span}
    (h : edit.opened? handler = some span) : edit = .openHandler handler span := by
  cases edit with
  | openHandler opened other =>
    rw [opened?] at h
    split at h
    · next heq => rw [heq, Option.some.inj h]
    · cases h
  | push | insert | growHandler | bindRule | replace => cases h

section Numbers

variable (edit : Edit) (number : Nat) (numbers : List Nat) (marked : List (Nat × Segment))

private theorem fst_mark : (edit.mark number marked).map Prod.fst =
    edit.place number (marked.map Prod.fst) := by
  cases edit with
  | push segment => rw [mark, List.map_append]; rfl
  | insert position segment => exact List.map_insertIdx _ _ _ _
  | replace position segment =>
    have hkept := map_modify Prod.fst (fun one => (one.1, segment)) id marked position fun _ => rfl
    rw [List.modify_id] at hkept
    exact hkept
  | openHandler | growHandler | bindRule => rfl

private theorem place_eq_or_perm : edit.place number numbers = numbers ∨
    (edit.place number numbers).Perm (number :: numbers) := by
  cases edit with
  | push segment => exact .inr List.perm_append_comm
  | insert position segment =>
    by_cases hle : position ≤ numbers.length
    · exact .inr (List.perm_insertIdx number numbers hle)
    · exact .inl (List.insertIdx_of_length_lt (Nat.lt_of_not_le hle))
  | openHandler | growHandler | bindRule | replace => exact .inl rfl

private theorem sublist_place : numbers.Sublist (edit.place number numbers) := by
  cases edit with
  | push segment => exact List.sublist_append_left _ _
  | insert position segment => exact List.sublist_insertIdx _ _ _
  | openHandler | growHandler | bindRule | replace => exact List.Sublist.refl _

private theorem sublist_mark (h : ∀ position segment, edit ≠ .replace position segment) :
    marked.Sublist (edit.mark number marked) := by
  cases edit with
  | push segment => exact List.sublist_append_left _ _
  | insert position segment => exact List.sublist_insertIdx _ _ _
  | replace position segment => exact absurd rfl (h position segment)
  | openHandler | growHandler | bindRule => exact List.Sublist.refl _

private theorem getElem?_place {position : Nat} (h : position < numbers.length) :
    (edit.place number numbers)[edit.moved numbers.length position]? = numbers[position]? := by
  cases edit with
  | push segment => exact List.getElem?_append_left h
  | insert start segment =>
    rw [place, moved]
    split
    · exact getElem?_insertIdx_shiftFrom number position
    · next hle => rw [List.insertIdx_of_length_lt (Nat.lt_of_not_le hle), id]
  | openHandler | growHandler | bindRule | replace => rfl

end Numbers

section Run

variable (edit : Edit) (layout : Layout)

private theorem run_insert (position : Nat) (segment : Segment) :
    (insert position segment).run layout =
      match layout.insert position segment with
      | .ok next => (.ok (), next)
      | .error fault => (.error fault, layout) :=
  insertInPlace_run position segment layout

private theorem run_insert_of_lt {position : Nat} (segment : Segment) (h : layout.size < position) :
    (insert position segment).run layout =
      (.error (.insertionPastEnd position layout.size), layout) := by
  rw [run_insert, insert_eq_error_iff.mpr ⟨h, rfl⟩]

private theorem run_replace (position : Nat) (segment : Segment) :
    ((replace position segment).run layout).2 =
      { layout with segments := layout.segments.set position segment } := by
  change (layout.replace? position segment).getD layout = _
  unfold replace?
  split
  · rfl
  · next hlt => rw [List.set_eq_of_length_le (Nat.le_of_not_lt hlt)]; rfl

private theorem segments_run (number : Nat) {marked : List (Nat × Segment)}
    (h : layout.segments = marked.map Prod.snd) :
    (edit.run layout).2.segments = (edit.mark number marked).map Prod.snd := by
  cases edit with
  | push segment =>
    rw [mark, List.map_append, ← h]
    rfl
  | insert position segment =>
    rw [mark, List.map_insertIdx, ← h]
    by_cases hle : position ≤ layout.size
    · rw [run_insert, insert_eq_ok segment hle]
    · have hlt : layout.size < position := by omega
      rw [run_insert_of_lt layout segment hlt, List.insertIdx_of_length_lt hlt]
  | replace position segment =>
    rw [run_replace, mark, map_modify Prod.snd _ (fun _ => segment) _ _ (fun _ => rfl), ← h,
      List.set_eq_modify]
  | growHandler handler => exact (segments_growHandler layout handler).trans h
  | openHandler | bindRule => exact h

private theorem rules_run :
    (edit.run layout).2.rules =
      layout.rules.map (edit.moved layout.size) ++ edit.bound?.toList := by
  have hkept : layout.rules = layout.rules.map id ++ [] := by rw [List.map_id, List.append_nil]
  cases edit with
  | insert position segment =>
    rw [moved]
    by_cases hle : position ≤ layout.size
    · rw [run_insert, insert_eq_ok segment hle, if_pos hle]
      exact (List.append_nil _).symm
    · rw [run_insert_of_lt layout segment (by omega), if_neg hle]
      exact hkept
  | growHandler handler => exact (rules_growHandler layout handler).trans hkept
  | bindRule position =>
    rw [moved, List.map_id]
    rfl
  | replace position segment =>
    rw [run_replace]
    exact hkept
  | push | openHandler => exact hkept

/-- A handler has the span it is opened with. Otherwise its header is moved, and the number of its
segments changes if it grows. -/
theorem span?_run (handler : Handler) : (edit.run layout).2.span? handler =
    (edit.opened? handler).or ((layout.span? handler).map fun span =>
      ⟨edit.moved layout.size span.header, span.used + [edit].count (.growHandler handler)⟩) := by
  have hkept : layout.span? handler =
      (none : Option Span).or ((layout.span? handler).map fun span =>
        ⟨id span.header, span.used + 0⟩) := by
    rw [Option.none_or]
    cases layout.span? handler with
    | none => rfl
    | some span => rfl
  cases edit with
  | insert position segment =>
    rw [moved]
    by_cases hle : position ≤ layout.size
    · rw [run_insert, insert_eq_ok segment hle, if_pos hle]
      exact HandlerTable.get_map _ _ _
    · rw [run_insert_of_lt layout segment (by omega), if_neg hle]
      exact hkept
  | growHandler grown =>
    change (layout.growHandler grown).span? handler = _
    rw [span?_growHandler]
    by_cases heq : handler = grown
    · rw [if_pos heq, heq, List.count_singleton_self]
      rfl
    · have hcount : [Edit.growHandler grown].count (.growHandler handler) = 0 :=
        List.count_eq_zero.mpr (by simp [heq])
      rw [if_neg heq, hcount]
      exact hkept
  | openHandler opened span =>
    change (layout.openHandler opened span).span? handler = _
    rw [span?_openHandler, opened?]
    by_cases heq : handler = opened
    · rw [if_pos heq, if_pos heq, Option.some_or]
    · rw [if_neg heq, if_neg heq]
      exact hkept
  | replace position segment =>
    rw [run_replace]
    exact hkept
  | push | bindRule => exact hkept

end Run

end Edit

section Histories

variable {earlier history later : List Edit}

private theorem after_concat (history : List Edit) (edit : Edit) :
    after (history ++ [edit]) = (edit.run (after history)).2 := by
  rw [after, List.foldl_append]
  rfl

private theorem marks_concat (history : List Edit) (edit : Edit) :
    marks (history ++ [edit]) = edit.mark history.length (marks history) := by
  rw [marks, List.zipIdx_append, List.foldl_append, Nat.zero_add]
  rfl

private theorem origins_concat (history : List Edit) (edit : Edit) :
    origins (history ++ [edit]) = edit.place history.length (origins history) := by
  rw [origins, marks_concat, Edit.fst_mark]
  rfl

/-- The numbers travel with the segments. -/
theorem segments_after (history : List Edit) :
    (after history).segments = (marks history).map Prod.snd := by
  induction history using List.reverseRecOn with
  | nil => rfl
  | append_singleton history edit ih =>
    rw [after_concat, marks_concat]
    exact edit.segments_run _ _ ih

private theorem length_origins (history : List Edit) :
    (origins history).length = (after history).size := by
  rw [origins, List.length_map, size, segments_after, List.length_map]

private theorem lt_length_of_mem_origins {number : Nat} (h : number ∈ origins history) :
    number < history.length := by
  induction history using List.reverseRecOn with
  | nil => cases h
  | append_singleton history edit ih =>
    rw [origins_concat] at h
    rw [List.length_append, List.length_singleton]
    rcases edit.place_eq_or_perm history.length (origins history) with heq | hperm
    · rw [heq] at h
      exact Nat.lt_succ_of_lt (ih h)
    · rcases List.mem_cons.mp (hperm.mem_iff.mp h) with rfl | hmem
      · exact Nat.lt_succ_self _
      · exact Nat.lt_succ_of_lt (ih hmem)

private theorem nodup_origins (history : List Edit) : (origins history).Nodup := by
  induction history using List.reverseRecOn with
  | nil => exact List.nodup_nil
  | append_singleton history edit ih =>
    rw [origins_concat]
    rcases edit.place_eq_or_perm history.length (origins history) with heq | hperm
    · rw [heq]
      exact ih
    · rw [hperm.nodup_iff, List.nodup_cons]
      exact ⟨fun hmem => Nat.lt_irrefl _ (lt_length_of_mem_origins hmem), ih⟩

private theorem sublist_origins (h : earlier <+: history) :
    (origins earlier).Sublist (origins history) := by
  induction history using List.reverseRecOn with
  | nil => rw [List.prefix_nil.mp h]
  | append_singleton history edit ih =>
    rcases List.prefix_concat_iff.mp h with rfl | hbefore
    · exact List.Sublist.refl _
    · rw [origins_concat]
      exact (ih hbefore).trans (edit.sublist_place _ _)

private theorem sublist_marks (earlier : List Edit)
    (h : ∀ position segment, .replace position segment ∉ later) :
    (marks earlier).Sublist (marks (earlier ++ later)) := by
  induction later using List.reverseRecOn with
  | nil => rw [List.append_nil]
  | append_singleton later edit ih =>
    have hedit : ∀ position segment, edit ≠ .replace position segment := by
      rintro position segment rfl
      exact h position segment (List.mem_append_right _ List.mem_cons_self)
    rw [← List.append_assoc, marks_concat]
    exact (ih fun position segment hmem =>
      h position segment (List.mem_append_left _ hmem)).trans (edit.sublist_mark _ _ hedit)

private theorem get?_after_of_marks {position number : Nat} {segment : Segment}
    (h : (marks history)[position]? = some (number, segment)) :
    (after history).get? position = some segment := by
  rw [get?, segments_after, List.getElem?_map, h]
  rfl

private theorem StandsAt.get?_eq {position current : Nat}
    (h : StandsAt earlier (earlier ++ later) position current)
    (hkept : ∀ written segment, .replace written segment ∉ later) :
    (after (earlier ++ later)).get? current = (after earlier).get? position := by
  obtain ⟨_, origin, hbefore, hnow⟩ := h
  rw [origins, List.getElem?_map, Option.map_eq_some_iff] at hbefore hnow
  obtain ⟨one, hone, rfl⟩ := hbefore
  obtain ⟨other, hother, hnumber⟩ := hnow
  have hmem := (sublist_marks earlier hkept).subset (List.mem_of_getElem? hone)
  have heq : other = one :=
    List.inj_on_of_nodup_map (nodup_origins _) (List.mem_of_getElem? hother) hmem hnumber
  rw [heq] at hother
  rw [get?_after_of_marks hone, get?_after_of_marks hother]

private theorem standsAt_self {position : Nat} (h : position < (after history).size) :
    StandsAt history history position position :=
  have hget := List.getElem?_eq_getElem (h.trans_eq (length_origins history).symm)
  ⟨h, _, hget, hget⟩

private theorem StandsAt.concat {position current : Nat}
    (h : StandsAt earlier history position current)
    (edit : Edit) : StandsAt earlier (history ++ [edit]) position
      (edit.moved (after history).size current) := by
  obtain ⟨hlt, origin, hbefore, hget⟩ := h
  rw [← length_origins] at hlt ⊢
  have hmoved := edit.getElem?_place history.length (origins history) hlt
  rw [hget, ← origins_concat] at hmoved
  refine ⟨?_, origin, hbefore, hmoved⟩
  rw [← length_origins]
  exact (List.getElem?_eq_some_iff.mp hmoved).1

private theorem RecordsExisting.lt_size {edit : Edit} {position : Nat}
    (h : RecordsExisting (earlier ++ edit :: later)) (hrecorded : edit.recorded? = some position) :
    position < (after earlier).size := by
  have hlt : earlier.length < (earlier ++ edit :: later).length := by simp
  have hall := h earlier.length hlt position
  rw [List.getElem_append_right (Nat.le_refl _), List.take_left] at hall
  simp only [Nat.sub_self, List.getElem_cons_zero] at hall
  exact hall hrecorded

private theorem RecordsExisting.of_append (h : RecordsExisting (earlier ++ later)) :
    RecordsExisting earlier := by
  intro moment hmoment
  have hlt : moment < (earlier ++ later).length := by
    rw [List.length_append]
    omega
  have hall := h moment hlt
  rwa [List.getElem_append_left hmoment, List.take_append_of_le_length hmoment.le] at hall

private theorem rules_concat (history : List Edit) (edit : Edit) :
    (after (history ++ [edit])).rules =
      (after history).rules.map (edit.moved (after history).size) ++ edit.bound?.toList := by
  rw [after_concat, Edit.rules_run]

private theorem span?_concat (history : List Edit) (edit : Edit) (handler : Handler) :
    (after (history ++ [edit])).span? handler =
      (edit.opened? handler).or (((after history).span? handler).map fun span =>
        ⟨edit.moved (after history).size span.header,
          span.used + [edit].count (.growHandler handler)⟩) := by
  rw [after_concat, Edit.span?_run]

private theorem append_cons_concat (edit last : Edit) :
    earlier ++ edit :: (later ++ [last]) = earlier ++ edit :: later ++ [last] := by
  rw [List.append_assoc, List.cons_append]

/-- From the moment it is bound, a rule keeps its number and its segment. -/
theorem exists_rule_standsAt {position : Nat} (later : List Edit)
    (h : position < (after earlier).size) :
    ∃ current,
      (after (earlier ++ .bindRule position :: later)).rules[(after earlier).rules.length]? =
        some current ∧
      StandsAt earlier (earlier ++ .bindRule position :: later) position current := by
  induction later using List.reverseRecOn with
  | nil =>
    refine ⟨position, ?_, (standsAt_self h).concat (.bindRule position)⟩
    rw [rules_concat, List.getElem?_append_right (by rw [List.length_map]), List.length_map,
      Nat.sub_self]
    rfl
  | append_singleton later edit ih =>
    obtain ⟨current, hget, hstands⟩ := ih
    rw [append_cons_concat]
    refine ⟨_, ?_, hstands.concat edit⟩
    have hlt := (List.getElem?_eq_some_iff.mp hget).1
    rw [rules_concat, List.getElem?_append_left (by rwa [List.length_map]), List.getElem?_map, hget]
    rfl

private theorem exists_bindRule {rule : Nat} (h : rule < (after history).rules.length) :
    ∃ earlier position later, history = earlier ++ .bindRule position :: later ∧
      (after earlier).rules.length = rule := by
  induction history using List.reverseRecOn with
  | nil => cases h
  | append_singleton history edit ih =>
    by_cases hbefore : rule < (after history).rules.length
    · obtain ⟨earlier, position, later, rfl, hlength⟩ := ih hbefore
      exact ⟨earlier, position, later ++ [edit], (append_cons_concat _ _).symm, hlength⟩
    · rw [rules_concat, List.length_append, List.length_map] at h
      cases hbound : edit.bound? with
      | none =>
        rw [hbound] at h
        exact absurd h hbefore
      | some position =>
        rw [hbound, Option.toList_some, List.length_singleton] at h
        exact ⟨history, position, [], by rw [Edit.bound?_eq_some hbound], by omega⟩

/-- From the moment it is opened, and until it is opened again, a handler keeps its header. -/
theorem exists_header_standsAt {handler : Handler} {span : Span} {later : List Edit}
    (hspan : span.header < (after earlier).size)
    (hlast : ∀ other, .openHandler handler other ∉ later) :
    ∃ current,
      (after (earlier ++ .openHandler handler span :: later)).span? handler =
        some ⟨current, span.used + later.count (.growHandler handler)⟩ ∧
      StandsAt earlier (earlier ++ .openHandler handler span :: later) span.header current := by
  induction later using List.reverseRecOn with
  | nil =>
    refine ⟨span.header, ?_, (standsAt_self hspan).concat (.openHandler handler span)⟩
    rw [span?_concat, Edit.opened?, if_pos rfl, Option.some_or]
    rfl
  | append_singleton later edit ih =>
    obtain ⟨current, hget, hstands⟩ := ih fun other hother =>
      hlast other (List.mem_append_left _ hother)
    rw [append_cons_concat]
    refine ⟨_, ?_, hstands.concat edit⟩
    have hopened : edit.opened? handler = none := by
      rw [Option.eq_none_iff_forall_ne_some]
      intro other hother
      exact hlast other (List.mem_append_right _ (by rw [Edit.opened?_eq_some hother]; simp))
    rw [span?_concat, hopened, hget, List.count_append, ← Nat.add_assoc]
    rfl

private theorem exists_openHandler {handler : Handler} {span : Span}
    (h : (after history).span? handler = some span) :
    ∃ earlier opened later, history = earlier ++ .openHandler handler opened :: later ∧
      ∀ other, .openHandler handler other ∉ later := by
  induction history using List.reverseRecOn generalizing span with
  | nil =>
    cases (HandlerTable.get_replicate none handler).symm.trans h
  | append_singleton history edit ih =>
    rw [span?_concat] at h
    cases hopened : edit.opened? handler with
    | some opened =>
      exact ⟨history, opened, [], by rw [Edit.opened?_eq_some hopened], fun _ => List.not_mem_nil⟩
    | none =>
      rw [hopened, Option.none_or] at h
      obtain ⟨before, hbefore, _⟩ := Option.map_eq_some_iff.mp h
      obtain ⟨earlier, opened, later, rfl, hlast⟩ := ih hbefore
      refine ⟨earlier, opened, later ++ [edit], (append_cons_concat _ _).symm, ?_⟩
      intro other hmem
      rcases List.mem_append.mp hmem with hlater | hedit
      · exact hlast other hlater
      · rw [← List.mem_singleton.mp hedit, Edit.opened?, if_pos rfl] at hopened
        cases hopened

private theorem keepsTrack (h : RecordsExisting history) : KeepsTrack history where
  segments_eq := segments_after history
  nodup := nodup_origins history
  sublist := fun _ hearlier => sublist_origins hearlier
  get?_eq := by
    rintro earlier later position current rfl hkept hstands
    exact hstands.get?_eq hkept
  rule_follows := by
    rintro earlier position later rfl
    exact exists_rule_standsAt later (h.lt_size rfl)
  rule_recorded := fun _ hrule => exists_bindRule hrule
  header_follows := by
    rintro earlier handler span later rfl hlast
    exact exists_header_standsAt (h.lt_size rfl) hlast
  header_recorded := fun _ _ hspan => exists_openHandler hspan
  insert_within := by
    intro position segment hle
    rw [Edit.run_insert, insert_eq_ok segment hle]
  insert_past_end := fun _ segment hlt => Edit.run_insert_of_lt _ segment hlt

/-- At every moment of a history that records only positions of segments, the kept positions are
those of the same segments, wherever insertions have moved them. -/
theorem keepsTrack_of_recordsExisting (h : RecordsExisting history) :
    ∀ now, now <+: history → KeepsTrack now := by
  rintro now ⟨later, rfl⟩
  exact keepsTrack h.of_append

/-- Two rules share a segment, insertions go before, at and behind positions that are kept, one of
them fails, and a handler is opened again. -/
def crowdedHistory : List Edit := [
  .push (.header .tap),
  .openHandler .tap ⟨0, 1⟩,
  .push ⟨.branch false, "\ta\n"⟩,
  .bindRule 1,
  .bindRule 1,
  .growHandler .clap,
  .insert 1 ⟨.branch true, "\tif b then\n"⟩,
  .bindRule 1,
  .growHandler .tap,
  .insert 9 .stateSync,
  .push (.header .clap),
  .openHandler .clap ⟨3, 0⟩,
  .insert 3 .stateSync,
  .replace 2 ⟨.branch true, "\tif a then\n"⟩,
  .replace 7 .stateSync,
  .insert 0 .emptyBranch,
  .openHandler .tap ⟨1, 2⟩,
  .bindRule 5,
  .insert 5 .emptyBranch,
  .growHandler .tap]

theorem keepsTrack_of_crowdedHistory :
    RecordsExisting crowdedHistory ∧ ∀ now, now <+: crowdedHistory → KeepsTrack now :=
  have hrecords : RecordsExisting crowdedHistory := by decide +kernel
  ⟨hrecords, keepsTrack_of_recordsExisting hrecords⟩

/-- Where everything has gone in the end. -/
example : (after crowdedHistory).rules = [3, 3, 2, 6] ∧
    (after crowdedHistory).span? .tap = some ⟨1, 3⟩ ∧
    (after crowdedHistory).span? .clap = some ⟨6, 0⟩ ∧
    origins crowdedHistory = [15, 0, 6, 2, 12, 18, 10] := by decide +kernel

end Histories

end Layout

end VisualRules
