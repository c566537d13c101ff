import VisualRules.Proofs.Refusal
import VisualRules.Proofs.Scope

namespace VisualRules

/-- The script declares what it uses, above and once. It has one handler for each physical event that
its rules wait for, and one for the note queue if some rule plays a sound. All of them are well
bracketed. -/
structure Script.StandsAlone (script : Script) (rules : List Rule) : Prop where
  isDeclaredFirst : ∀ symbol : Symbol, symbol.IsDeclaredFirst script.lines
  isDeclaredOnce : ∀ symbol : Symbol, script.lines.countP symbol.isDeclaredOn ≤ 1
  nodup_openers : (script.lines.filter opensHandler).Nodup
  mem_openers_iff : ∀ line, line ∈ script.lines.filter opensHandler ↔
    (line = "onevent sound.finished" ∧ ∃ rule ∈ rules, rule.PlaysSound) ∨
      ∃ handler : Handler, (∃ rule ∈ rules, rule.handler? = some handler) ∧
        line = "onevent " ++ handler.trigger
  bracketed : ∀ body ∈ handlerBodies script.lines, Bracketed body

namespace Program

variable {program : Program} {passages : List Passage} {assembly : Assembly}

private theorem sound_iff_playsSound
    (hread : program.reactions = .ok (passages.map Passage.reaction))
    (hpassages : Transcribes passages (passages.map Passage.reaction))
    (hassembly : Assembly.ofReactions (passages.map Passage.reaction) = .ok assembly) :
    assembly.features.sound = true ↔ ∃ rule ∈ program.rules, rule.PlaysSound :=
  contains_iff_exists_asksFor hread hpassages hassembly .sound

private theorem provides (hread : program.reactions = .ok (passages.map Passage.reaction))
    (hpassages : Transcribes passages (passages.map Passage.reaction))
    (hassembly : Assembly.ofReactions (passages.map Passage.reaction) = .ok assembly) :
    Provides program.advancedMode assembly.features (passages.map Passage.reaction) where
  state := by
    intro reaction hmem
    obtain ⟨rule, _, hrule⟩ := exists_of_mem_forall₂ (reactions_eq_ok.mp hread) hmem
    exact (Rule.toReaction_eq_ok.mp hrule).2
  feature := by
    intro reaction hmem feature hneeds
    exact (Assembly.contains_features_iff hpassages hassembly feature).mpr ⟨reaction, hmem, hneeds⟩

end Program

namespace Assembly

variable {assembly : Assembly} {passages : List Passage} {advancedMode : Bool}

private theorem nodup_openers (h : assembly.layout.Realizes passages)
    (hsound : assembly.features.sound = true → passages ≠ []) :
    ((assembly.script advancedMode).lines.filter opensHandler).Nodup := by
  have hhandlers : ((handlersOf (passages.map Passage.reaction)).map fun handler =>
      handler.opener.content).Nodup :=
    (nodup_handlersOf _).map fun _ _ => opener_inj
  rw [filter_opensHandler h hsound, List.nodup_append']
  refine ⟨?_, hhandlers, ?_⟩
  · split
    · exact List.nodup_singleton _
    · exact List.nodup_nil
  · intro line hqueue hhandler
    obtain ⟨_, hqueue⟩ := List.mem_ite_nil_right.mp hqueue
    obtain ⟨handler, _, heq⟩ := List.mem_map.mp hhandler
    rw [List.mem_singleton.mp hqueue] at heq
    exact opener_ne_soundFinished handler heq

private theorem mem_openers (h : assembly.layout.Realizes passages)
    (hsound : assembly.features.sound = true → passages ≠ []) {line : String} :
    line ∈ (assembly.script advancedMode).lines.filter opensHandler ↔
      (line = "onevent sound.finished" ∧ assembly.features.sound = true) ∨
        ∃ handler ∈ handlersOf (passages.map Passage.reaction),
          line = "onevent " ++ handler.trigger := by
  rw [filter_opensHandler h hsound, List.mem_append, List.mem_ite_nil_right, List.mem_singleton,
    List.mem_map, and_comm]
  simp only [content_opener, eq_comm]

end Assembly

namespace Program

variable {program : Program} {script : Script}

theorem standsAlone_of_compile (h : program.compile = .ok script) :
    script.StandsAlone program.rules := by
  obtain ⟨passages, assembly, hread, hpassages, hassembly, hlayout, rfl⟩ := exists_of_compile h
  have hplays := sound_iff_playsSound hread hpassages hassembly
  have hrules := reactions_eq_ok.mp hread
  have hsound : assembly.features.sound = true → passages ≠ [] := by
    rintro hused rfl
    obtain ⟨rule, hrule, _⟩ := hplays.mp hused
    rw [List.map_nil, List.forall₂_nil_right_iff] at hrules
    rw [hrules] at hrule
    cases hrule
  have hprovides := provides hread hpassages hassembly
  constructor
  · exact Assembly.isDeclaredFirst_lines hlayout hprovides
  · exact Assembly.countP_lines_le hlayout
  · exact Assembly.nodup_openers hlayout hsound
  · intro line
    rw [Assembly.mem_openers hlayout hsound, hplays]
    simp only [mem_handlersOf_iff_exists_rule hrules]
  · exact Assembly.bracketed_of_mem_handlerBodies hlayout program.advancedMode

/-- A light whenever the robot is tapped, and a song that counts when it is tilted. -/
def tiltedSong : Program where
  rules := [
    (Rule.ofEvent (.ofKind .tap [])).withAction (.ofKind .topColor [0, 32, 0]),
    ((Rule.ofEvent (.ofKind .accelerometer [2, 1])).withActions
      [.ofKind .sound [0, 1, 2, 3, 4, 0], .ofKind .setState [0, 1, 0, 0]]).withAdvanced true]
  advancedMode := true

def tiltedSongScript : Script where
  segments := [
    Line.textOf (preamble true (.insert (.insert .empty .sound) .tiltAngle)) ++
      (Segment.header .tap).text,
    "\tcall leds.top(0,32,0)\n",
    (Segment.header .tilt).text,
    "\tcall math.atan2(angle, acc[1], acc[2])\n\tif angle > 2048 and angle < 6144 then\n" ++
      "\t\tcall math.copy(notes, [262, 311, 370, 440, 524, 262])\n" ++
      "\t\tcall math.copy(durations, [-1, -1, -1, -1, -1, -1])\n" ++
      "\t\tcall sound.freq(notes[0], durations[0])\n\t\tnote_index = 1\n" ++
      "\t\tnew_state[1] = 1\n\tend\n",
    Segment.stateSync.text]
  rulePositions := [1, 3]
  features := .insert (.insert .empty .sound) .tiltAngle

theorem standsAlone_of_tiltedSong :
    tiltedSong.compile = .ok tiltedSongScript ∧ tiltedSongScript.StandsAlone tiltedSong.rules :=
  have hcompile : tiltedSong.compile = .ok tiltedSongScript := by decide +kernel
  ⟨hcompile, standsAlone_of_compile hcompile⟩

end Program

end VisualRules
