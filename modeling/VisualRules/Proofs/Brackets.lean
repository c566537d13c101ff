import VisualRules.Proofs.Listing

/-!
# Handlers are well bracketed

A script has one handler for each physical event that its rules wait for, and one that plays the
note queue if some rule plays a sound. Within a handler every condition is closed before the next
one is opened, and the lines are indented accordingly.
-/

namespace VisualRules

def opensHandler (line : String) : Bool := "onevent ".toList <+: line.toList

/-- The number of tabs that a line begins with. -/
def indentation (line : String) : Nat := (line.toList.takeWhile (· = '\t')).length

def OpensCondition (line : String) : Prop :=
  "\tif ".toList <+: line.toList ∧ " then".toList <:+ line.toList

def ClosesCondition (line : String) : Prop := line = "\tend"

/-- Conditions are closed one after the other. Their lines are indented by two tabs, all others that
are not blank by one. -/
inductive Bracketed : List String → Prop
  | nil : Bracketed []
  | blank {rest : List String} (h : Bracketed rest) : Bracketed ("" :: rest)
  | plain {line : String} {rest : List String} (indented : indentation line = 1)
      (not_opens : ¬OpensCondition line) (not_closes : ¬ClosesCondition line) (h : Bracketed rest) :
      Bracketed (line :: rest)
  | condition {first last : String} {inner rest : List String} (opens : OpensCondition first)
      (indented : ∀ line ∈ inner, indentation line = 2) (closes : ClosesCondition last)
      (h : Bracketed rest) : Bracketed (first :: inner ++ last :: rest)

/-- What stands below each line that opens a handler, up to the next such line. -/
def handlerBodies (lines : List String) : List (List String) := (lines.splitOnP opensHandler).tail

namespace Bracketed

variable {lines others : List String}

private theorem append (h : Bracketed lines) (hothers : Bracketed others) :
    Bracketed (lines ++ others) := by
  induction h with
  | nil => exact hothers
  | blank _ ih => exact ih.blank
  | plain hindented hopens hcloses _ ih => exact ih.plain hindented hopens hcloses
  | condition hopens hindented hcloses _ ih =>
    rw [List.append_assoc, List.cons_append]
    exact ih.condition hopens hindented hcloses

private theorem flatMap {α : Type} {f : α → List String} {xs : List α}
    (h : ∀ x ∈ xs, Bracketed (f x)) :
    Bracketed (xs.flatMap f) := by
  induction xs with
  | nil => exact .nil
  | cons x xs ih =>
    rw [List.forall_mem_cons] at h
    rw [List.flatMap_cons]
    exact h.1.append (ih h.2)

end Bracketed

section Lines

variable {line : String}

theorem head?_of_indentation (h : 0 < indentation line) : line.toList.head? = some '\t' := by
  unfold indentation at h
  cases hline : line.toList with
  | nil => simp [hline] at h
  | cons c rest =>
    rw [hline] at h
    by_cases hc : c = '\t'
    · rw [hc, List.head?_cons]
    · simp [hc] at h

theorem head?_of_opensHandler (h : opensHandler line = true) : line.toList.head? = some 'o' := by
  obtain ⟨rest, hrest⟩ := of_decide_eq_true h
  rw [← hrest]
  rfl

private theorem indentation_of_opensCondition (h : OpensCondition line) : 0 < indentation line := by
  obtain ⟨rest, hrest⟩ := h.1
  unfold indentation
  rw [← hrest]
  simp

theorem Bracketed.blank_or_indented {lines : List String} (h : Bracketed lines) :
    ∀ line ∈ lines, line = "" ∨ 0 < indentation line := by
  induction h with
  | nil => simp
  | blank _ ih => exact List.forall_mem_cons.mpr ⟨.inl rfl, ih⟩
  | plain hindented _ _ _ ih => exact List.forall_mem_cons.mpr ⟨.inr (by omega), ih⟩
  | condition hopens hindented hcloses _ ih =>
    have hinner (line : String) (hline : line ∈ _) : line = "" ∨ 0 < indentation line :=
      .inr (by rw [hindented line hline]; decide)
    have hlast : 0 < indentation "\tend" := by decide
    rw [List.cons_append, List.forall_mem_cons, List.forall_mem_append, List.forall_mem_cons,
      hcloses]
    exact ⟨.inr (indentation_of_opensCondition hopens), hinner, .inr hlast, ih⟩

private theorem Bracketed.not_opensHandler {lines : List String} (h : Bracketed lines) :
    ∀ line ∈ lines, opensHandler line = false := by
  intro line hline
  rcases h.blank_or_indented line hline with rfl | hindented
  · decide
  · rw [Bool.eq_false_iff]
    intro hopens
    have hhead := head?_of_opensHandler hopens
    rw [head?_of_indentation hindented] at hhead
    revert hhead
    decide

end Lines

namespace IsStatement

variable {code : String} {depth : Nat}

theorem head?_ne (h : IsStatement code) (c : Char)
    (hc : ['m', 'c', 't', 'n'].contains c = false) : code.toList.head? ≠ some c := by
  intro hhead
  have hmem := h.head_mem
  rw [hhead, Option.any_some, hc] at hmem
  cases hmem

private theorem indentation_content (h : IsStatement code) :
    indentation (Line.content ⟨depth, code⟩) = depth := by
  have htabs : ∀ c ∈ List.replicate depth '\t', decide (c = '\t') = true := by
    intro c hc
    simpa using List.eq_of_mem_replicate hc
  have hcode : code.toList.takeWhile (· = '\t') = [] := by
    cases hlist : code.toList with
    | nil => rfl
    | cons c rest =>
      apply List.takeWhile_cons_of_neg
      rw [decide_eq_true_iff]
      rintro rfl
      exact h.head?_ne '\t' (by decide) (by rw [hlist, List.head?_cons])
  rw [indentation, Line.content, String.toList_append, String.toList_ofList,
    List.takeWhile_append_of_pos htabs, hcode, List.append_nil, List.length_replicate]

private theorem bracketed (h : IsStatement code) : Bracketed [Line.content ⟨1, code⟩] := by
  have hcontent : (Line.content ⟨1, code⟩).toList = '\t' :: code.toList := by simp [Line.content]
  apply Bracketed.plain h.indentation_content
  · rintro ⟨⟨after, hafter⟩, _⟩
    rw [hcontent] at hafter
    have hif : 'i' :: 'f' :: ' ' :: after = code.toList := List.tail_eq_of_cons_eq hafter
    exact h.head?_ne 'i' (by decide) (by rw [← hif, List.head?_cons])
  · intro hcloses
    rw [hcloses] at hcontent
    have hend : ['e', 'n', 'd'] = code.toList := List.tail_eq_of_cons_eq hcontent
    exact h.head?_ne 'e' (by decide) (by rw [← hend, List.head?_cons])
  · exact .nil

end IsStatement

private theorem bracketed_of_statements {lines : List Line}
    (h : ∀ line ∈ lines, line.depth = 1 ∧ IsStatement line.code) :
    Bracketed (lines.map Line.content) := by
  rw [List.map_eq_flatMap]
  apply Bracketed.flatMap
  rintro ⟨depth, code⟩ hline
  obtain ⟨rfl, hcode⟩ := h _ hline
  exact hcode.bracketed

private theorem opensCondition_test (test : String) :
    OpensCondition (Line.content ⟨1, "if " ++ test ++ " then"⟩) := by
  have hcontent : (Line.content ⟨1, "if " ++ test ++ " then"⟩).toList =
      "\tif ".toList ++ test.toList ++ " then".toList := by
    simp [Line.content]
  rw [OpensCondition, hcontent]
  exact ⟨⟨_, (List.append_assoc _ _ _).symm⟩, List.suffix_append _ _⟩

namespace Reaction

variable {reaction : Reaction} {branch : Branch}

theorem statement_of_actionLines {depth : Nat} {body : List Line}
    (h : Branch.actionLines reaction.actions depth = .ok body) :
    ∀ line ∈ body, line.depth = depth ∧ IsStatement line.code := by
  intro line hline
  obtain ⟨hdepth, _, _, _, hcodes, hcode⟩ := Branch.mem_actionLines h hline
  exact ⟨hdepth, Action.isStatement_of_statements hcodes _ hcode⟩

/-- The script of a rule opens a condition and closes it, or has none. -/
theorem bracketed_of_branch (h : reaction.branch = .ok branch) :
    Bracketed (branch.lines.map Line.content) := by
  have hpreparation : Bracketed (reaction.preparation.map Line.content) :=
    bracketed_of_statements fun line hline =>
      (isStatement_of_mem_preparation hline).imp_right And.left
  cases hcondition : reaction.condition? with
  | none =>
    obtain ⟨body, hbody, heq⟩ := lines_of_no_condition h hcondition
    rw [heq, List.map_append]
    exact hpreparation.append (bracketed_of_statements (statement_of_actionLines hbody))
  | some clauses =>
    obtain ⟨body, hbody, heq⟩ := lines_of_condition h hcondition
    have hinner : ∀ line ∈ body.map Line.content, indentation line = 2 := by
      intro line hline
      obtain ⟨⟨depth, code⟩, hmem, rfl⟩ := List.mem_map.mp hline
      obtain ⟨rfl, hcode⟩ := statement_of_actionLines hbody _ hmem
      exact hcode.indentation_content
    have hcloses : ClosesCondition (Line.content ⟨1, "end"⟩) := by
      unfold ClosesCondition
      decide
    have htest := opensCondition_test (Clause.testOf clauses)
    rw [heq, List.append_assoc, List.map_append]
    apply hpreparation.append
    simp only [List.cons_append, List.map_cons, List.map_append, List.map_nil]
    exact Bracketed.nil.condition htest hinner hcloses

end Reaction

theorem bracketed_of_entry (entry : Entry) : Bracketed (entry.lines.map Line.content) := by
  cases entry with
  | rule passage => exact Reaction.bracketed_of_branch passage.written
  | stateSync =>
    have hstatements : ∀ line ∈ stateSync.tail, line.depth = 1 ∧ IsStatement line.code := by decide
    exact (bracketed_of_statements hstatements).blank

theorem bracketed_of_body (passages : List Passage) (handler : Handler) :
    Bracketed ((bodyOf passages handler).map Line.content) := by
  have hopening : ∀ line ∈ handler.opening, line.depth = 1 ∧ IsStatement line.code := by
    cases handler <;> decide
  rw [bodyOf, List.map_append, List.map_flatMap]
  exact (bracketed_of_statements hopening).append (Bracketed.flatMap fun entry _ =>
    bracketed_of_entry entry)

private theorem bracketed_of_queue : Bracketed ((Preamble.noteQueue.drop 3).map Line.content) := by
  have hcloses : ClosesCondition (Line.content ⟨1, "end"⟩) := by
    unfold ClosesCondition
    decide
  have hinner : ∀ line ∈ ((Preamble.noteQueue.drop 4).take 2).map Line.content,
      indentation line = 2 := by decide
  exact Bracketed.nil.condition (opensCondition_test "note_index != 6") hinner hcloses

section Cuts

variable {passages : List Passage} {handlers : List Handler}

theorem opensHandler_opener (handler : Handler) : opensHandler handler.opener.content = true := by
  cases handler <;> decide

/-- The lines of handlers, cut at the lines that open them: before the first cut stands what was in
front, after each of them a body. The blank line before a handler ends the body above it. -/
theorem bracketed_of_mem_cut {front : List String} (hfront : Bracketed front) :
    ∀ body ∈ (front ++ ((linesOfHandlers handlers passages).map Line.content ++ [""])).splitOnP
        opensHandler, Bracketed body := by
  have hblank {front : List String} (h : Bracketed front) : Bracketed (front ++ [""]) :=
    h.append Bracketed.nil.blank
  induction handlers generalizing front with
  | nil =>
    show ∀ body ∈ (front ++ [""]).splitOnP opensHandler, Bracketed body
    rw [List.splitOnP_eq_singleton (hblank hfront).not_opensHandler, List.forall_mem_singleton]
    exact hblank hfront
  | cons handler handlers ih =>
    have hlines : front ++ ((linesOfHandlers (handler :: handlers) passages).map Line.content ++
          [""]) =
        (front ++ [""]) ++ handler.opener.content :: ((bodyOf passages handler).map Line.content ++
          ((linesOfHandlers handlers passages).map Line.content ++ [""])) := by
      simp [linesOfHandlers, Line.blank, Line.content]
    rw [hlines, List.splitOnP_append_cons_of_forall_mem (hblank hfront).not_opensHandler _
      (opensHandler_opener handler), List.forall_mem_cons]
    exact ⟨hblank hfront, ih (bracketed_of_body passages handler)⟩

private theorem handlerBodies_of_front {front rest : List String} {opener : String}
    (hfront : ∀ line ∈ front, opensHandler line = false) (hopener : opensHandler opener = true) :
    handlerBodies (front ++ opener :: rest) = rest.splitOnP opensHandler := by
  rw [handlerBodies, List.splitOnP_append_cons_of_forall_mem hfront _ hopener, List.tail_cons]

private theorem filter_linesOfHandlers (handlers : List Handler) (passages : List Passage) :
    ((linesOfHandlers handlers passages).map Line.content).filter opensHandler =
      handlers.map fun handler => handler.opener.content := by
  induction handlers with
  | nil => rfl
  | cons handler handlers ih =>
    have hbody : ((bodyOf passages handler).map Line.content).filter opensHandler = [] := by
      rw [List.filter_eq_nil_iff]
      intro line hline
      rw [(bracketed_of_body passages handler).not_opensHandler line hline]
      exact Bool.false_ne_true
    have hlines : (linesOfHandlers (handler :: handlers) passages).map Line.content =
        ["", handler.opener.content] ++ ((bodyOf passages handler).map Line.content ++
          (linesOfHandlers handlers passages).map Line.content) := by
      simp [linesOfHandlers, Line.blank, Line.content]
    have hopener : ["", handler.opener.content].filter opensHandler = [handler.opener.content] := by
      rw [List.filter_cons_of_neg (by decide),
        List.filter_cons_of_pos (opensHandler_opener handler), List.filter_nil]
    rw [hlines, List.filter_append, List.filter_append, hopener, hbody, ih]
    rfl

private theorem not_opensHandler_of_mem_setup (advancedMode : Bool) (features : FeatureSet) :
    ∀ line ∈ (Preamble.setup advancedMode features).map Line.content,
      opensHandler line = false := by
  have hall : ∀ line ∈ Preamble.setup true ⟨true, true, true, true⟩,
      opensHandler line.content = false := by
    decide +kernel
  intro line hline
  obtain ⟨line, hmem, rfl⟩ := List.mem_map.mp hline
  exact hall line ((Preamble.setup_sublist _ _).subset hmem)

private theorem map_noteQueue :
    Preamble.noteQueue.map Line.content =
      ["", "# when a note is finished, play the next note"] ++ "onevent sound.finished" ::
        (Preamble.noteQueue.drop 3).map Line.content := rfl

private theorem exists_handlersOf_eq_cons (h : passages ≠ []) :
    ∃ handler handlers, handlersOf (passages.map Passage.reaction) = handler :: handlers := by
  obtain ⟨passage, hpassage⟩ := List.exists_mem_of_ne_nil _ h
  have hmem : passage.handler ∈ handlersOf (passages.map Passage.reaction) :=
    mem_handlersOf.mpr ⟨passage.reaction, List.mem_map_of_mem hpassage, rfl⟩
  exact List.exists_cons_of_ne_nil (List.ne_nil_of_mem hmem)

namespace Assembly

variable {assembly : Assembly}

theorem bracketed_of_mem_handlerBodies (h : assembly.layout.Realizes passages)
    (advancedMode : Bool) :
    ∀ body ∈ handlerBodies (assembly.script advancedMode).lines, Bracketed body := by
  by_cases hne : passages = []
  · subst hne
    rw [lines_script_of_nil h]
    show ∀ body ∈ ([] : List (List String)), Bracketed body
    simp
  have hlines := lines_script h hne advancedMode
  have hsetup := not_opensHandler_of_mem_setup advancedMode assembly.features
  have hfront {front : List String} (h : ∀ line ∈ front, opensHandler line = false) :
      ∀ line ∈ (Preamble.setup advancedMode assembly.features).map Line.content ++ front,
        opensHandler line = false :=
    List.forall_mem_append.mpr ⟨hsetup, h⟩
  cases hsound : assembly.features.sound with
  | true =>
    have hfirst : (assembly.script advancedMode).lines =
        ((Preamble.setup advancedMode assembly.features).map Line.content ++
            ["", "# when a note is finished, play the next note"]) ++
          "onevent sound.finished" :: ((Preamble.noteQueue.drop 3).map Line.content ++
            ((handlerLines passages).map Line.content ++ [""])) := by
      rw [hlines, preamble_eq, hsound, if_pos rfl, List.map_append, List.map_append, map_noteQueue]
      simp only [List.append_assoc, List.cons_append]
    rw [hfirst, handlerBodies_of_front (hfront (by decide)) (by decide)]
    exact bracketed_of_mem_cut bracketed_of_queue
  | false =>
    obtain ⟨handler, handlers, hhandlers⟩ := exists_handlersOf_eq_cons hne
    have hfirst : (assembly.script advancedMode).lines =
        ((Preamble.setup advancedMode assembly.features).map Line.content ++ [""]) ++
          handler.opener.content :: ((bodyOf passages handler).map Line.content ++
            ((linesOfHandlers handlers passages).map Line.content ++ [""])) := by
      rw [hlines, preamble_eq, hsound, if_neg Bool.false_ne_true, List.append_nil, handlerLines,
        hhandlers]
      simp [linesOfHandlers, Line.blank, Line.content]
    rw [hfirst, handlerBodies_of_front (hfront (by decide)) (opensHandler_opener handler)]
    exact bracketed_of_mem_cut (bracketed_of_body passages handler)

theorem filter_opensHandler (h : assembly.layout.Realizes passages)
    (hsound : assembly.features.sound = true → passages ≠ []) (advancedMode : Bool) :
    (assembly.script advancedMode).lines.filter opensHandler =
      (if assembly.features.sound then ["onevent sound.finished"] else []) ++
        (handlersOf (passages.map Passage.reaction)).map fun handler => handler.opener.content := by
  have hsetup : ((Preamble.setup advancedMode assembly.features).map Line.content).filter
      opensHandler = [] := by
    rw [List.filter_eq_nil_iff]
    intro line hline
    rw [not_opensHandler_of_mem_setup _ _ line hline]
    exact Bool.false_ne_true
  have hqueue : (Preamble.noteQueue.map Line.content).filter opensHandler =
      ["onevent sound.finished"] := by
    decide +kernel
  have hlast : [""].filter opensHandler = [] := by decide
  by_cases hne : passages = []
  · subst hne
    rw [lines_script_of_nil h, hlast, if_neg fun hused => hsound hused rfl]
    rfl
  rw [lines_script h hne, preamble_eq, handlerLines]
  simp only [List.map_append, List.filter_append, hsetup, filter_linesOfHandlers, hlast]
  cases assembly.features.sound with
  | true => simp [hqueue]
  | false => simp

end Assembly

end Cuts

theorem content_opener (handler : Handler) :
    handler.opener.content = "onevent " ++ handler.trigger := by
  cases handler <;> decide

theorem opener_inj {handler other : Handler}
    (h : handler.opener.content = other.opener.content) : handler = other := by
  revert h
  cases handler <;> cases other <;> decide

theorem opener_ne_soundFinished (handler : Handler) :
    handler.opener.content ≠ "onevent sound.finished" := by
  cases handler <;> decide

end VisualRules
