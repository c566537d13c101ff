import VisualRules.Card.Basic
import VisualRules.Feature
import VisualRules.Script.Line

namespace VisualRules

/-- Samples of the sine wave that notes are played with. -/
def waveSamples : Nat := 142

/-- The microphone level that counts as a clap. -/
def clapThreshold : Nat := 250

namespace Preamble

def stateVariables : List Line :=
  [⟨0, "# variables for state"⟩,
    ⟨0, "var state[4] = [0,0,0,0]"⟩,
    ⟨0, "var new_state[4] = [0,0,0,0]"⟩,
    .blank]

def angleVariable : List Line :=
  [⟨0, "# variable for angle"⟩,
    ⟨0, "var angle"⟩]

/-- Buffers for notes, and a sine wave that the robot computes. -/
def soundSetup : List Line :=
  [⟨0, "# variables for notes"⟩,
    ⟨0, s!"var notes[{soundNotes}]"⟩,
    ⟨0, s!"var durations[{soundNotes}]"⟩,
    ⟨0, s!"var note_index = {soundNotes}"⟩,
    ⟨0, s!"var wave[{waveSamples}]"⟩,
    ⟨0, "var i"⟩,
    ⟨0, "var wave_phase"⟩,
    ⟨0, "var wave_intensity"⟩,
    .blank,
    ⟨0, "# compute a sinus wave for sound"⟩,
    ⟨0, s!"for i in 0:{waveSamples - 1} do"⟩,
    ⟨1, s!"wave_phase = (i-{waveSamples / 2 - 1})*468"⟩,
    ⟨1, "call math.cos(wave_intensity, wave_phase)"⟩,
    ⟨1, "wave[i] = wave_intensity/256"⟩,
    ⟨0, "end"⟩,
    ⟨0, "call sound.wave(wave)"⟩]

def timerStop : List Line :=
  [⟨0, "# stop timer 0"⟩,
    ⟨0, "timer.period[0] = 0"⟩]

def microphoneSetup : List Line :=
  [⟨0, "# setup threshold for detecting claps"⟩,
    ⟨0, s!"mic.threshold = {clapThreshold}"⟩]

def outputReset : List Line :=
  [⟨0, "# reset outputs"⟩,
    ⟨0, "call sound.system(-1)"⟩,
    ⟨0, "call leds.top(0,0,0)"⟩,
    ⟨0, "call leds.bottom.left(0,0,0)"⟩,
    ⟨0, "call leds.bottom.right(0,0,0)"⟩,
    ⟨0, "call leds.circle(0,0,0,0,0,0,0,0)"⟩]

def stateDisplay : List Line :=
  [.blank,
    ⟨0, "# subroutine to display the current state"⟩,
    ⟨0, "sub display_state"⟩,
    ⟨1, "call leds.circle(0,state[1]*32,0,state[3]*32,0,state[2]*32,0,state[0]*32)"⟩]

/-- Plays the notes of the queue one after the other. -/
def noteQueue : List Line :=
  [.blank,
    ⟨0, "# when a note is finished, play the next note"⟩,
    ⟨0, "onevent sound.finished"⟩,
    ⟨1, s!"if note_index != {soundNotes} then"⟩,
    ⟨2, "call sound.freq(notes[note_index], durations[note_index])"⟩,
    ⟨2, "note_index += 1"⟩,
    ⟨1, "end"⟩]

end Preamble

open Preamble in
def preamble (advancedMode : Bool) (features : FeatureSet) : List Line :=
  (if advancedMode then stateVariables else []) ++
  (if features.tiltAngle then angleVariable else []) ++
  (if features.sound then soundSetup else []) ++
  (if features.timer then timerStop else []) ++
  (if features.microphone then microphoneSetup else []) ++
  outputReset ++
  (if advancedMode then stateDisplay else []) ++
  (if features.sound then noteQueue else [])

end VisualRules
