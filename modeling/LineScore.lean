import LineScore.Attempt
import LineScore.Command.Arguments
import LineScore.Command.Help
import LineScore.Command.Options
import LineScore.Command.Run
import LineScore.Document
import LineScore.Document.Schema
import LineScore.Duration
import LineScore.Error
import LineScore.Event
import LineScore.Event.Request
import LineScore.FileTree
import LineScore.FileView
import LineScore.Instrument
import LineScore.Instrument.Program
import LineScore.Json
import LineScore.Json.Reader
import LineScore.Key
import LineScore.Main
import LineScore.Meter
import LineScore.Midi.File
import LineScore.Midi.Message
import LineScore.Midi.Reader
import LineScore.Midi.Render
import LineScore.Mismatch
import LineScore.Notation.Line
import LineScore.Notation.Token
import LineScore.Notice
import LineScore.Number.Binary64
import LineScore.Number.Fraction
import LineScore.Number.Significant
import LineScore.Path
import LineScore.Pitch
import LineScore.Proofs.Aftermath
import LineScore.Proofs.Alike
import LineScore.Proofs.Allocation
import LineScore.Proofs.Alternation
import LineScore.Proofs.Bookkeeping
import LineScore.Proofs.ByteLimits
import LineScore.Proofs.Calls
import LineScore.Proofs.Canonical
import LineScore.Proofs.ChangePoints
import LineScore.Proofs.Changes
import LineScore.Proofs.Conductor
import LineScore.Proofs.DataBytes
import LineScore.Proofs.Deviations
import LineScore.Proofs.Dots
import LineScore.Proofs.Drafts
import LineScore.Proofs.Edits
import LineScore.Proofs.Entries
import LineScore.Proofs.Evenness
import LineScore.Proofs.ExplicitForm
import LineScore.Proofs.Fields
import LineScore.Proofs.FirstFit
import LineScore.Proofs.Flaws
import LineScore.Proofs.Forms
import LineScore.Proofs.Grammar
import LineScore.Proofs.GridTicks
import LineScore.Proofs.Halves
import LineScore.Proofs.Joining
import LineScore.Proofs.Lengths
import LineScore.Proofs.Locality
import LineScore.Proofs.Onsets
import LineScore.Proofs.Positive
import LineScore.Proofs.ReadBack
import LineScore.Proofs.Rendering
import LineScore.Proofs.Reordering
import LineScore.Proofs.Reports
import LineScore.Proofs.Rounding
import LineScore.Proofs.Seating
import LineScore.Proofs.Section
import LineScore.Proofs.Shape
import LineScore.Proofs.Signatures
import LineScore.Proofs.Silence
import LineScore.Proofs.TempoField
import LineScore.Proofs.Ticks
import LineScore.Proofs.VoiceCount
import LineScore.Proofs.Words
import LineScore.Proofs.Writes
import LineScore.Song
import LineScore.Song.Section
import LineScore.Song.Step
import LineScore.SongFile
import LineScore.Text.Alphanumeric
import LineScore.Text.Blank
import LineScore.Text.ControlCode
import LineScore.Text.Digits
import LineScore.Text.Latin1
import LineScore.Text.Likeness
import LineScore.Text.Loose
import LineScore.Text.Newline
import LineScore.Text.Printable
import LineScore.Text.Quoted
import LineScore.Text.Utf8
import LineScore.Timeline
import LineScore.Voice
