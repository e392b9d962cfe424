import ReleaseTrain.Calendar
import ReleaseTrain.Cargo.Command
import ReleaseTrain.Cargo.Workspace
import ReleaseTrain.CommandLine
import ReleaseTrain.Dialogue
import ReleaseTrain.Failure
import ReleaseTrain.Files.Path
import ReleaseTrain.Files.Tree
import ReleaseTrain.Json.Document
import ReleaseTrain.Json.Error
import ReleaseTrain.Json.Writing
import ReleaseTrain.Main
import ReleaseTrain.Number.Binary64
import ReleaseTrain.Number.Decimal
import ReleaseTrain.Number.Layout
import ReleaseTrain.Number.Numeral
import ReleaseTrain.Plan
import ReleaseTrain.Publication.Outside
import ReleaseTrain.Publication.Polling
import ReleaseTrain.Publication.Report
import ReleaseTrain.Publication.Run
import ReleaseTrain.Publication.Step
import ReleaseTrain.Registry
import ReleaseTrain.Release
import ReleaseTrain.Settings.Basic
import ReleaseTrain.Settings.Discovery
import ReleaseTrain.Supervisor
import ReleaseTrain.Text.Blank
import ReleaseTrain.Text.Digit
import ReleaseTrain.Text.Printable
import ReleaseTrain.Text.Quoted
import ReleaseTrain.Text.Surrogate
import ReleaseTrain.Text.Words
import ReleaseTrain.Toml.Document
import ReleaseTrain.Toml.Literal
import ReleaseTrain.Toml.Tree
import ReleaseTrain.Value
import ReleaseTrain.World
import ReleaseTrain.Proofs.Cargo.Masking
import ReleaseTrain.Proofs.Cargo.Metadata
import ReleaseTrain.Proofs.Cargo.Orderly
import ReleaseTrain.Proofs.Cargo.Publishing
import ReleaseTrain.Proofs.CommandLine
import ReleaseTrain.Proofs.Dialogue.Likeness
import ReleaseTrain.Proofs.Dialogue.Spelling
import ReleaseTrain.Proofs.Dialogue.Unfolding
import ReleaseTrain.Proofs.Dialogue.Via
import ReleaseTrain.Proofs.Entries
import ReleaseTrain.Proofs.Plan
import ReleaseTrain.Proofs.Publication.Books
import ReleaseTrain.Proofs.Publication.Breakage
import ReleaseTrain.Proofs.Publication.Calls
import ReleaseTrain.Proofs.Publication.CarriedOut
import ReleaseTrain.Proofs.Publication.Discipline
import ReleaseTrain.Proofs.Publication.ExitCode
import ReleaseTrain.Proofs.Publication.Foresight
import ReleaseTrain.Proofs.Publication.Grounds
import ReleaseTrain.Proofs.Publication.Harmless
import ReleaseTrain.Proofs.Publication.Log
import ReleaseTrain.Proofs.Publication.Lookups
import ReleaseTrain.Proofs.Publication.Order
import ReleaseTrain.Proofs.Publication.Outside
import ReleaseTrain.Proofs.Publication.Places
import ReleaseTrain.Proofs.Publication.Polling
import ReleaseTrain.Proofs.Publication.Rehearsal
import ReleaseTrain.Proofs.Publication.Resumption
import ReleaseTrain.Proofs.Publication.Secrecy
import ReleaseTrain.Proofs.Publication.Splitting
import ReleaseTrain.Proofs.Publication.Stretches
import ReleaseTrain.Proofs.Publication.Summary
import ReleaseTrain.Proofs.Publication.Truth
import ReleaseTrain.Proofs.Publication.Turn
import ReleaseTrain.Proofs.Publication.Turns
import ReleaseTrain.Proofs.Registry.Inquiry
import ReleaseTrain.Proofs.Registry.Reading
import ReleaseTrain.Proofs.Release.Commands
import ReleaseTrain.Proofs.Release.Performance
import ReleaseTrain.Proofs.Release.Preparation
import ReleaseTrain.Proofs.Release.Rehearsal
import ReleaseTrain.Proofs.Release.Setup
import ReleaseTrain.Proofs.Release.Visibility
import ReleaseTrain.Proofs.Text.Words
import ReleaseTrain.Proofs.Cargo.Spellings
import ReleaseTrain.Proofs.Release.LastWords
import ReleaseTrain.Proofs.Toml.Sound
import ReleaseTrain.Proofs.Toml.Distinct
import ReleaseTrain.Proofs.Settings.Overlay
import ReleaseTrain.Proofs.Toml.Finished
import ReleaseTrain.Proofs.Settings.Sections
import ReleaseTrain.Proofs.Files.Frames
import ReleaseTrain.Proofs.Settings.Places
import ReleaseTrain.Proofs.Settings.FirstFound
import ReleaseTrain.Proofs.Cargo.ReadBack
import ReleaseTrain.Proofs.Settings.Fallbacks
