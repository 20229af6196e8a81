import TypedConfig.CommandLine
import TypedConfig.ConstantTable
import TypedConfig.Cursor
import TypedConfig.Diagnostic
import TypedConfig.Document
import TypedConfig.Document.Draft
import TypedConfig.Document.Inline
import TypedConfig.Document.Spelling
import TypedConfig.Entry.Markup
import TypedConfig.Json
import TypedConfig.Lexeme
import TypedConfig.Main
import TypedConfig.Markup.Event
import TypedConfig.Markup.Forest
import TypedConfig.Markup.Layout
import TypedConfig.Markup.Reader
import TypedConfig.Proofs.Compiling.DepthLimit
import TypedConfig.Proofs.Compiling.Errors
import TypedConfig.Proofs.Compiling.FirstReference
import TypedConfig.Proofs.Compiling.Outputs
import TypedConfig.Proofs.Compiling.Pointing
import TypedConfig.Proofs.Compiling.Tokens
import TypedConfig.Proofs.Except
import TypedConfig.Proofs.Lexing.Boundaries
import TypedConfig.Proofs.Lexing.Composition
import TypedConfig.Proofs.Lexing.Lexemes
import TypedConfig.Proofs.Lexing.Numerals
import TypedConfig.Proofs.Lexing.Partition
import TypedConfig.Proofs.Lexing.Places
import TypedConfig.Proofs.Lexing.Standing
import TypedConfig.Proofs.Lexing.Transcripts
import TypedConfig.Proofs.Reading.Calls
import TypedConfig.Proofs.Reading.Completeness
import TypedConfig.Proofs.Reading.Descent
import TypedConfig.Proofs.Reading.Failures
import TypedConfig.Proofs.Reading.Marks
import TypedConfig.Proofs.Reading.Parse
import TypedConfig.Proofs.Reading.Relocation
import TypedConfig.Proofs.Reading.Restart
import TypedConfig.Proofs.Reading.Runs
import TypedConfig.Proofs.Reading.Shifting
import TypedConfig.Proofs.Reading.Spelled
import TypedConfig.Proofs.Reading.Steps
import TypedConfig.Proofs.Reading.Viability
import TypedConfig.Proofs.Reindenting.Constructs
import TypedConfig.Proofs.Reindenting.Cuts
import TypedConfig.Proofs.Reindenting.Drawing
import TypedConfig.Proofs.Reindenting.Forests
import TypedConfig.Proofs.Reindenting.Legible
import TypedConfig.Proofs.Reindenting.Nesting
import TypedConfig.Proofs.Reindenting.Offences
import TypedConfig.Proofs.Reindenting.ReadBack
import TypedConfig.Proofs.Reindenting.Stability
import TypedConfig.Proofs.Reindenting.Steps
import TypedConfig.Proofs.Reindenting.TwoPhases
import TypedConfig.Proofs.Reporting.Command
import TypedConfig.Proofs.Reporting.Messages
import TypedConfig.Proofs.Resolving.FirstOffence
import TypedConfig.Proofs.Resolving.Histories
import TypedConfig.Proofs.Resolving.Inlining
import TypedConfig.Proofs.Resolving.Occurrences
import TypedConfig.Proofs.Resolving.Renaming
import TypedConfig.Proofs.Resolving.Selection
import TypedConfig.Proofs.Resolving.Substitution
import TypedConfig.Proofs.Resolving.Tables
import TypedConfig.Proofs.Writing.Body
import TypedConfig.Proofs.Writing.Events
import TypedConfig.Proofs.Writing.JsonTexts
import TypedConfig.Proofs.Writing.JsonValues
import TypedConfig.Proofs.Writing.Layout
import TypedConfig.Proofs.Writing.Offenders
import TypedConfig.Proofs.Writing.Tags
import TypedConfig.Proofs.Writing.Uniqueness
import TypedConfig.Relocate
import TypedConfig.Session
import TypedConfig.Session.Descent
import TypedConfig.Stage
import TypedConfig.Text
import TypedConfig.Transcript
