import PlainJson.Text.Blank
import PlainJson.Text.Upper
import PlainJson.Text.Quoted
import PlainJson.Text.Snippet
import PlainJson.View
import PlainJson.Parser.Run
import PlainJson.Parser.Basic
import PlainJson.Value
import PlainJson.Document
import PlainJson.Recipe
import PlainJson.Settings.Sources
import PlainJson.Time.Stopwatch
import PlainJson.Log.Layout
import PlainJson.Log.Tally
import PlainJson.Session.Command
import PlainJson.Proofs.Parser.Expression
import PlainJson.Proofs.Parser.Range
import PlainJson.Proofs.Parser.Shift
import PlainJson.Proofs.Parser.Separated
import PlainJson.Proofs.Parser.Choice
import PlainJson.Proofs.Parser.Refactoring
import PlainJson.Proofs.Grammar.Rules
import PlainJson.Proofs.Grammar.Reading
import PlainJson.Proofs.Grammar.Places
import PlainJson.Proofs.Grammar.Completion
import PlainJson.Proofs.Grammar.Expression
import PlainJson.Proofs.Grammar.Progress
import PlainJson.Proofs.Grammar.Suffix
import PlainJson.Proofs.Document.Acceptance
import PlainJson.Proofs.Document.Verdict
import PlainJson.Proofs.Document.Overlong
import PlainJson.Proofs.Grammar.Failure
import PlainJson.Proofs.Interchange.Meaning
import PlainJson.Proofs.Interchange.Quotes
import PlainJson.Proofs.Interchange.Embedding
import PlainJson.Proofs.Interchange.Agreement
import PlainJson.Proofs.Document.Continuation
import PlainJson.Proofs.Grammar.Alternatives
import PlainJson.Proofs.Document.Image
import PlainJson.Proofs.Grammar.Spacing
import PlainJson.Proofs.Document.Spacing
import PlainJson.Proofs.Session.Installing
import PlainJson.Proofs.Session.Steps
import PlainJson.Proofs.Session.Configuring
import PlainJson.Proofs.Log.Attempts
import PlainJson.Proofs.Session.Summary
import PlainJson.Proofs.Session.Journal
import PlainJson.Proofs.Session.Reading
import PlainJson.Proofs.Session.Assigning
import PlainJson.Proofs.Session.Failing
import PlainJson.Proofs.Session.Loggers
import PlainJson.Proofs.Session.Accounting
import PlainJson.Proofs.FileTree
import PlainJson.Proofs.Session.Walking
import PlainJson.Proofs.Settings.Resolution
import PlainJson.Proofs.Session.Diagnostics
import PlainJson.Proofs.Parser.Skipping
import PlainJson.Proofs.Grammar.Lexemes
import PlainJson.Proofs.Grammar.Absorption
import PlainJson.Proofs.Time.Signals
