import VisualRules.Card.Drawing
import VisualRules.Main
import VisualRules.Proofs.Outcome
import VisualRules.Proofs.Positions
import VisualRules.Proofs.Resolution
import VisualRules.Proofs.Scan
import VisualRules.Proofs.Outline
import VisualRules.Proofs.Placement
import VisualRules.Proofs.Realization
import VisualRules.Proofs.RuleTable
import VisualRules.Proofs.Tiling
import VisualRules.Proofs.HandlerOrder
import VisualRules.Proofs.StateCommit
import VisualRules.Proofs.OverrideOrder
import VisualRules.Proofs.Draft
import VisualRules.Proofs.Renumbering
import VisualRules.Proofs.Isolation
import VisualRules.Proofs.SupportCode
import VisualRules.Proofs.Exchange
import VisualRules.Proofs.Growth
import VisualRules.Proofs.Fitting
import VisualRules.Proofs.Refusal
import VisualRules.Proofs.Listing
import VisualRules.Proofs.Modes
import VisualRules.Proofs.Brackets
import VisualRules.Proofs.Words
import VisualRules.Proofs.Scope
import VisualRules.Proofs.Closure
import VisualRules.Proofs.LineRanges
import VisualRules.Proofs.Provision
import VisualRules.Proofs.NoFault
import VisualRules.Proofs.JsonText
import VisualRules.Proofs.JsonValue
import VisualRules.Proofs.Documents
import VisualRules.Proofs.Redrawing
import VisualRules.Proofs.Runs
import VisualRules.Proofs.Views
import VisualRules.Proofs.JsonGrammar
import VisualRules.Proofs.Presentation
import VisualRules.Proofs.JsonNumber
import VisualRules.Proofs.RecordReading
import VisualRules.Proofs.RecordForms
import VisualRules.Proofs.SoundCards
import VisualRules.Proofs.Neighbours
import VisualRules.Proofs.Conditions
import VisualRules.Proofs.TiltBands
import VisualRules.Proofs.TestReading
import VisualRules.Proofs.Meaning
import VisualRules.Proofs.StateUse
import VisualRules.Proofs.TiltTests
import VisualRules.Proofs.ActionCode
import VisualRules.Proofs.History
