import VisualRules.Proofs.Brackets
import VisualRules.Proofs.Runs

namespace VisualRules

def segmentMarker (index : Nat) : String := s!"-- segment {index}\n"

def isMarker (line : String) : Bool := "-- segment ".toList <+: line.toList

/-- The text without the lines that mark segments. -/
def withoutMarkers (text : String) : String :=
  String.join ((cutAfterBreaks text).filter (!isMarker ·))

/-- What the map says of a rule. -/
def mapEntry (rule segment line : Nat) : String :=
  s!"-- rule {rule} -> segment {segment}, line {line}\n"

/-- The code begins with this line of the text, counted from one. Exactly the lines above it stand
in front of the code. -/
structure BeginsAtLine (text : String) (line : Nat) (front code : String) : Prop where
  pos : 0 < line
  le_length : line ≤ (cutAfterBreaks text).length
  join_take : String.join ((cutAfterBreaks text).take (line - 1)) = front
  exists_back : ∃ back, text = front ++ code ++ back

/-- What a compile command prints for the program on standard input. -/
def CommandLine.printed (text : String) (view : View) : String :=
  (runCommand (.compile "-" view) (some text)).output

/-- One line for each rule, in their order. In front of them stands what is printed without the
map. -/
structure Script.Maps (script : Script) (rules : Nat) (entries : List String) : Prop where
  cut_join : cutAfterBreaks (String.join entries) = entries
  length_eq : entries.length = rules
  begins : ∀ rule entry, entries[rule]? = some entry → ∃ segment code line,
    script.segmentOfRule? rule = some segment ∧ script.segments[segment]? = some code ∧
      entry = mapEntry rule segment line ∧ (code ≠ "" →
        BeginsAtLine (script.text ++ String.join entries) line (script.before segment) code)

/-- `printed` tells what is printed for each view. All views hold the text of the script. -/
structure Script.ViewsAgree (script : Script) (rules : Nat) (advanced : Bool)
    (printed : View → String) : Prop where
  plain : printed ⟨advanced, none, false, false⟩ = script.text
  unmarked : withoutMarkers (printed ⟨advanced, none, false, true⟩) = script.text
  markers : (cutAfterBreaks (printed ⟨advanced, none, false, true⟩)).filter isMarker =
    (List.range script.segments.length).map segmentMarker
  not_marker : ∀ line ∈ cutAfterBreaks script.text, isMarker line = false
  mapped : ∃ entries, script.Maps rules entries ∧ ∀ segments,
    printed ⟨advanced, none, true, segments⟩ =
        printed ⟨advanced, none, false, segments⟩ ++ String.join entries ∧
      cutAfterBreaks (printed ⟨advanced, none, true, segments⟩) =
        cutAfterBreaks (printed ⟨advanced, none, false, segments⟩) ++ entries
  highlighted : ∀ highlight map segments,
    printed ⟨advanced, highlight, map, segments⟩ = printed ⟨advanced, none, map, segments⟩

/-- No line of the text marks a segment. -/
def IsUnmarked (text : String) : Prop := ∀ line ∈ cutAfterBreaks text, isMarker line = false

section Lines

private theorem cutAfterBreaks_join {texts : List String} (h : ∀ text ∈ texts, IsLines text) :
    cutAfterBreaks (String.join texts) = texts.flatMap cutAfterBreaks := by
  induction texts with
  | nil => rfl
  | cons text texts ih =>
    rw [List.forall_mem_cons] at h
    rw [String.join_cons, h.1.cutAfterBreaks_append (.join h.2), ih h.2, List.flatMap_cons]

private theorem isMarker_of_head? {line : String} (h : line.toList.head? ≠ some '-') :
    isMarker line = false := by
  rw [isMarker, decide_eq_false_iff_not]
  rintro ⟨rest, hrest⟩
  rw [← hrest] at h
  exact h rfl

private theorem isMarker_text {line : Line} (h : line.content = "" ∨ 0 < indentation line.content) :
    isMarker line.text = false := by
  apply isMarker_of_head?
  rw [Line.text, String.toList_append, List.head?_append]
  rcases h with hblank | hindented
  · rw [hblank]
    decide
  · rw [head?_of_indentation hindented]
    decide

private theorem isUnmarked_textOf {lines : List Line}
    (hcode : ∀ line ∈ lines, IsPrintable line.code)
    (h : ∀ line ∈ lines, isMarker line.text = false) : IsUnmarked (Line.textOf lines) := by
  rw [IsUnmarked, cutAfterBreaks_textOf hcode]
  exact List.forall_mem_map.mpr h

private theorem IsUnmarked.append {text other : String} (hlines : IsLines text)
    (hlines' : IsLines other)
    (h : IsUnmarked text) (h' : IsUnmarked other) : IsUnmarked (text ++ other) := by
  rw [IsUnmarked, hlines.cutAfterBreaks_append hlines']
  exact List.forall_mem_append.mpr ⟨h, h'⟩

private theorem isUnmarked_lead (script : Script) (advancedMode : Bool) (position : Nat) :
    IsUnmarked (script.lead advancedMode position) := by
  have hall : ∀ line ∈ preamble true ⟨true, true, true, true⟩, isMarker line.text = false := by
    decide +kernel
  unfold Script.lead
  split
  · refine isUnmarked_textOf (fun _ => isPrintable_of_mem_preamble) ?_
    exact fun line hline => hall line ((preamble_sublist _ _).subset hline)
  · simp [IsUnmarked, cutAfterBreaks]

private theorem isUnmarked_header (handler : Handler) :
    IsUnmarked (Segment.header handler).text := by
  refine isUnmarked_textOf (fun _ hline => (isCode_of_mem_header hline).isPrintable) ?_
  cases handler <;> decide

private theorem isUnmarked_entry (entry : Entry) : IsUnmarked entry.segment.text := by
  rw [entry.text_segment]
  refine isUnmarked_textOf (fun _ hline => (Entry.isCode_of_mem_lines hline).isPrintable) ?_
  intro line hline
  have hbracketed := (bracketed_of_entry entry).blank_or_indented
  exact isMarker_text (hbracketed line.content (List.mem_map_of_mem hline))

end Lines

namespace Assembly

variable {assembly : Assembly} {passages : List Passage}

private theorem isUnmarked_of_mem_segments (h : assembly.layout.Realizes passages)
    (advancedMode : Bool) :
    ∀ text ∈ (assembly.script advancedMode).segments, IsUnmarked text := by
  intro text htext
  obtain ⟨position, hposition⟩ := List.getElem?_of_mem htext
  rw [getElem?_script, Option.map_eq_some_iff] at hposition
  obtain ⟨segment, hsegment, rfl⟩ := hposition
  have hmem := List.mem_of_getElem? hsegment
  refine (isUnmarked_lead _ _ _).append (isLines_lead _ _ _) (h.isLines_of_mem_segments hmem) ?_
  rw [h.segments_eq, List.mem_map] at hmem
  obtain ⟨⟨handler, entry⟩, _, rfl⟩ := hmem
  cases entry with
  | none => exact isUnmarked_header handler
  | some entry => exact isUnmarked_entry entry

end Assembly

section Listings

variable {script : Script}

private theorem cutAfterBreaks_line {code : String} (h : IsCode code) :
    IsLines (code ++ "\n") ∧ cutAfterBreaks (code ++ "\n") = [code ++ "\n"] := by
  have hprintable : ∀ line ∈ [Line.mk 0 code], IsPrintable line.code :=
    List.forall_mem_singleton.mpr h.isPrintable
  have htext : (Line.mk 0 code).text = code ++ "\n" := rfl
  have hlines : code ++ "\n" = Line.textOf [⟨0, code⟩] := by
    rw [Line.textOf, List.map_singleton, htext, String.join_cons, String.join_nil,
      String.append_empty]
  constructor
  · exact ⟨[⟨0, code⟩], hprintable, hlines⟩
  · rw [hlines, cutAfterBreaks_textOf hprintable, ← hlines]
    rfl

private theorem isCode_append_repr {before : String} (h : IsCode before) (number : Nat) :
    IsCode (before ++ number.repr) :=
  h.append (isCode_of_isNumeral (isNumeral_repr number))

private theorem cutAfterBreaks_segmentMarker (index : Nat) :
    IsLines (segmentMarker index) ∧ cutAfterBreaks (segmentMarker index) = [segmentMarker index] :=
  cutAfterBreaks_line (isCode_append_repr (by decide) index)

private theorem isMarker_segmentMarker (index : Nat) : isMarker (segmentMarker index) = true := by
  have hprefix : "-- segment ".toList <+: (segmentMarker index).toList := by
    refine ⟨(index.repr ++ "\n").toList, ?_⟩
    rw [← String.toList_append, ← String.append_assoc]
    rfl
  exact decide_eq_true hprefix

private theorem cutAfterBreaks_mapEntry (rule segment line : Nat) :
    IsLines (mapEntry rule segment line) ∧
      cutAfterBreaks (mapEntry rule segment line) = [mapEntry rule segment line] := by
  have hrule := isCode_append_repr (by decide : IsCode "-- rule ") rule
  have hsegment := isCode_append_repr (hrule.append (by decide : IsCode " -> segment ")) segment
  have hline := isCode_append_repr (hsegment.append (by decide : IsCode ", line ")) line
  exact cutAfterBreaks_line hline

/-- The lines of the listing: above the lines of each segment the line that marks it. -/
theorem cutAfterBreaks_listing (h : ∀ text ∈ script.segments, IsLines text) :
    cutAfterBreaks script.listing = script.segments.zipIdx.flatMap fun (text, index) =>
      segmentMarker index :: cutAfterBreaks text := by
  have hmarked : ∀ marked ∈ script.segments.zipIdx.map fun (text, index) =>
      segmentMarker index ++ text, IsLines marked := by
    rw [List.forall_mem_map]
    intro pair hpair
    exact (cutAfterBreaks_segmentMarker pair.2).1.append
      (h pair.1 (List.fst_mem_of_mem_zipIdx hpair))
  have hlisting : script.listing = String.join (script.segments.zipIdx.map fun (text, index) =>
      segmentMarker index ++ text) := rfl
  rw [hlisting, cutAfterBreaks_join hmarked, List.flatMap_map]
  apply List.flatMap_congr
  intro pair hpair
  obtain ⟨hmarker, hcut⟩ := cutAfterBreaks_segmentMarker pair.2
  rw [hmarker.cutAfterBreaks_append (h pair.1 (List.fst_mem_of_mem_zipIdx hpair)), hcut]
  rfl

private theorem filter_isMarker_listing (hlines : ∀ text ∈ script.segments, IsLines text)
    (h : ∀ text ∈ script.segments, IsUnmarked text) :
    (cutAfterBreaks script.listing).filter isMarker =
      (List.range script.segments.length).map segmentMarker := by
  have hsegment : ∀ pair ∈ script.segments.zipIdx,
      (segmentMarker pair.2 :: cutAfterBreaks pair.1).filter isMarker = [segmentMarker pair.2] := by
    intro pair hpair
    have hnone : (cutAfterBreaks pair.1).filter isMarker = [] := by
      simpa [IsUnmarked, List.filter_eq_nil_iff] using
        h pair.1 (List.fst_mem_of_mem_zipIdx hpair)
    rw [List.filter_cons_of_pos (isMarker_segmentMarker pair.2), hnone]
  rw [cutAfterBreaks_listing hlines, List.filter_flatMap, List.flatMap_congr hsegment,
    ← List.map_eq_flatMap, List.range_eq_range', ← List.zipIdx_map_snd, List.map_map]
  rfl

private theorem withoutMarkers_listing (hlines : ∀ text ∈ script.segments, IsLines text)
    (h : ∀ text ∈ script.segments, IsUnmarked text) :
    withoutMarkers script.listing = script.text := by
  have hsegment : ∀ pair ∈ script.segments.zipIdx,
      (segmentMarker pair.2 :: cutAfterBreaks pair.1).filter (!isMarker ·) =
        cutAfterBreaks pair.1 := by
    intro pair hpair
    have hall : (cutAfterBreaks pair.1).filter (!isMarker ·) = cutAfterBreaks pair.1 := by
      simpa [IsUnmarked, List.filter_eq_self] using h pair.1 (List.fst_mem_of_mem_zipIdx hpair)
    rw [List.filter_cons_of_neg (by simp [isMarker_segmentMarker]), hall]
  have hsegments : script.segments.zipIdx.flatMap (fun pair => cutAfterBreaks pair.1) =
      script.segments.flatMap cutAfterBreaks := by
    rw [← List.flatMap_map, List.zipIdx_map_fst]
  rw [withoutMarkers, cutAfterBreaks_listing hlines, List.filter_flatMap,
    List.flatMap_congr hsegment, hsegments, ← cutAfterBreaks_join hlines, join_cutAfterBreaks]
  rfl

private theorem beginsAtLine_of_segment (hlines : ∀ text ∈ script.segments, IsLines text)
    {segment : Nat} {code rest : String} (hcode : script.segments[segment]? = some code)
    (hne : code ≠ "") (hrest : IsLines rest) :
    BeginsAtLine (script.text ++ rest) (lineCount (script.before segment) + 1)
      (script.before segment) code := by
  have hfront : IsLines (script.before segment) := script.isLines_before hlines segment
  have hmiddle : IsLines code := hlines code (List.mem_of_getElem? hcode)
  have hback : IsLines (String.join (script.segments.drop (segment + 1)) ++ rest) :=
    .append (.join fun text htext => hlines text (List.mem_of_mem_drop htext)) hrest
  have htext : script.text ++ rest = script.before segment ++
      (code ++ (String.join (script.segments.drop (segment + 1)) ++ rest)) := by
    rw [Script.text_eq_of_segment hcode, String.append_assoc, String.append_assoc]
  have hcut := (hfront.cutAfterBreaks_append (hmiddle.append hback)).trans
    (congrArg _ (hmiddle.cutAfterBreaks_append hback))
  have hcount : 0 < lineCount code := Nat.pos_of_ne_zero (mt hmiddle.eq_empty_iff.mpr hne)
  constructor
  case pos => exact Nat.succ_pos _
  case le_length =>
    rw [htext, hcut, List.length_append, List.length_append, hfront.length_cutAfterBreaks,
      hmiddle.length_cutAfterBreaks]
    omega
  case join_take =>
    rw [htext, hcut, Nat.add_sub_cancel, List.take_left' hfront.length_cutAfterBreaks,
      join_cutAfterBreaks]
  case exists_back => exact ⟨_, htext.trans (String.append_assoc ..).symm⟩

def Script.mapEntries (script : Script) : List String :=
  script.rulePositions.zipIdx.map fun (segment, rule) =>
    mapEntry rule segment ((script.lineOfRule? rule).getD 0 + 1)

private theorem isLines_mapEntries (script : Script) : ∀ entry ∈ script.mapEntries, IsLines entry :=
  List.forall_mem_map.mpr fun _ _ => (cutAfterBreaks_mapEntry _ _ _).1

private theorem maps_mapEntries {rules : Nat} (hlines : ∀ text ∈ script.segments, IsLines text)
    (hlength : script.rulePositions.length = rules)
    (hpositions : ∀ position ∈ script.rulePositions, position < script.segments.length) :
    script.Maps rules script.mapEntries := by
  constructor
  case cut_join =>
    rw [cutAfterBreaks_join (isLines_mapEntries script)]
    have hentry : ∀ entry ∈ script.mapEntries, cutAfterBreaks entry = [entry] :=
      List.forall_mem_map.mpr fun _ _ => (cutAfterBreaks_mapEntry _ _ _).2
    rw [List.flatMap_congr hentry, ← List.map_eq_flatMap, List.map_id']
  case length_eq => rw [Script.mapEntries, List.length_map, List.length_zipIdx, hlength]
  case begins =>
    intro rule entry hentry
    rw [Script.mapEntries, List.getElem?_map, List.getElem?_zipIdx, Option.map_map,
      Option.map_eq_some_iff] at hentry
    obtain ⟨segment, hrule, rfl⟩ := hentry
    have hsegment : script.segmentOfRule? rule = some segment := hrule
    have hlt := hpositions segment (List.mem_of_getElem? hrule)
    have hcode := List.getElem?_eq_getElem hlt
    have hline : (script.lineOfRule? rule).getD 0 = lineCount (script.before segment) := by
      rw [Script.lineOfRule?_eq hsegment, Option.getD_some]
    refine ⟨segment, script.segments[segment], lineCount (script.before segment) + 1, hsegment,
      hcode, ?_, fun hne => ?_⟩
    · rw [Function.comp_apply, Nat.zero_add, ← hline]
    · exact beginsAtLine_of_segment hlines hcode hne (.join (isLines_mapEntries script))

private theorem isLines_listing (hlines : ∀ text ∈ script.segments, IsLines text) :
    IsLines script.listing := by
  refine .join (List.forall_mem_map.mpr fun pair hpair => ?_)
  exact (cutAfterBreaks_segmentMarker pair.2).1.append
    (hlines pair.1 (List.fst_mem_of_mem_zipIdx hpair))

end Listings

private theorem isUnmarked_join {texts : List String} (hlines : ∀ text ∈ texts, IsLines text)
    (h : ∀ text ∈ texts, IsUnmarked text) : IsUnmarked (String.join texts) := by
  rw [IsUnmarked, cutAfterBreaks_join hlines]
  exact List.forall_mem_flatMap.mpr h

private theorem Program.segments_of_compile {program : Program} {script : Script}
    (h : program.compile = .ok script) :
    (∀ text ∈ script.segments, IsLines text) ∧ ∀ text ∈ script.segments, IsUnmarked text := by
  obtain ⟨_, _, _, _, _, hlayout, rfl⟩ := exists_of_compile h
  exact ⟨Assembly.isLines_of_mem_segments hlayout _, Assembly.isUnmarked_of_mem_segments hlayout _⟩

namespace CommandLine

variable {text : String} {advanced : Bool} {program : Program} {script : Script}

private theorem printed_of_holds (h : Holds (some text) advanced program script)
    (highlight : Option Nat) (map segments : Bool) :
    printed text ⟨advanced, highlight, map, segments⟩ =
      (if segments then script.listing else script.text) ++
        if map then String.join script.mapEntries else "" := by
  let view : View := ⟨advanced, highlight, map, segments⟩
  have hcommand : runCommand (.compile "-" view) (some text) = _ := compile_of_holds h "-"
  rw [printed, hcommand]
  rfl

/-- Each view of a program that compiles shows its script, and the map is right about it. -/
theorem viewsAgree_of_holds (h : Holds (some text) advanced program script) :
    (∀ arguments view, Command.parse? arguments = some (.compile "-" view) →
      (run arguments (some text)).output = printed text view) ∧
    script.ViewsAgree program.rules.length advanced (printed text) := by
  have hprinted := printed_of_holds h
  obtain ⟨_, _, _, hcompile⟩ := h
  obtain ⟨hlength, hpositions⟩ := Program.rulePositions_of_compile hcompile
  rw [Program.rules_inMode] at hlength
  obtain ⟨hlines, hunmarked⟩ := Program.segments_of_compile hcompile
  refine ⟨fun arguments view harguments => by rw [run_eq harguments, printed], ?_⟩
  constructor
  case plain =>
    rw [hprinted]
    exact String.append_empty
  case unmarked =>
    rw [hprinted]
    simpa using withoutMarkers_listing hlines hunmarked
  case markers =>
    rw [hprinted]
    simpa using filter_isMarker_listing hlines hunmarked
  case not_marker => exact isUnmarked_join hlines hunmarked
  case mapped =>
    have hmaps := maps_mapEntries hlines hlength hpositions
    have hentries := IsLines.join (isLines_mapEntries script)
    refine ⟨script.mapEntries, hmaps, fun segments => ?_⟩
    have hview : IsLines (if segments then script.listing else script.text) := by
      split
      · exact isLines_listing hlines
      · exact .join hlines
    simp [hprinted, hview.cutAfterBreaks_append hentries, hmaps.cut_join]
  case highlighted =>
    intro highlight map segments
    rw [hprinted, hprinted]

/-- A document of the program whose second rule stands behind its third. -/
def idleTapText : String :=
  "\x7b\"rules\": [[[\"event\", \"tap\"]], " ++
    "[[\"event\", \"button\", [1, 0, 0, 0, 0]], null, " ++
      "[[\"action\", \"colortop\", [32, 0, 0]]]], " ++
    "[[\"event\", \"tap\"], null, [[\"action\", \"colortop\", [0, 32, 0]]]]]\x7d"

theorem viewsAgree_of_idleTap : Holds (some idleTapText) false .idleTap Program.idleTapScript ∧
    Program.idleTapScript.ViewsAgree 3 false (printed idleTapText) := by
  have hholds : Holds (some idleTapText) false .idleTap Program.idleTapScript :=
    ⟨idleTapText, rfl, by decide +kernel, by decide +kernel⟩
  exact ⟨hholds, (viewsAgree_of_holds hholds).2⟩

end CommandLine

end VisualRules
