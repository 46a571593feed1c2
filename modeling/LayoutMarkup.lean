import LayoutMarkup.Attribute.Basic
import LayoutMarkup.Attribute.Reading
import LayoutMarkup.Axis
import LayoutMarkup.Command.Arguments
import LayoutMarkup.Command.Basic
import LayoutMarkup.Command.Session
import LayoutMarkup.Component.Basic
import LayoutMarkup.Component.Card
import LayoutMarkup.Component.Resolution
import LayoutMarkup.Component.Rule
import LayoutMarkup.Component.Safelist
import LayoutMarkup.Document
import LayoutMarkup.Event
import LayoutMarkup.Files.Path
import LayoutMarkup.Files.System
import LayoutMarkup.Files.Tree
import LayoutMarkup.Json
import LayoutMarkup.Lint.Props
import LayoutMarkup.Lint.Utility
import LayoutMarkup.Lint.Warning
import LayoutMarkup.Main
import LayoutMarkup.Markup
import LayoutMarkup.Proofs.Attribute.Brace
import LayoutMarkup.Proofs.Attribute.Bytes
import LayoutMarkup.Proofs.Attribute.Grammar
import LayoutMarkup.Proofs.Attribute.Scan
import LayoutMarkup.Proofs.Attribute.Value
import LayoutMarkup.Proofs.Attribute.Written
import LayoutMarkup.Proofs.Command.Build
import LayoutMarkup.Proofs.Command.Check
import LayoutMarkup.Proofs.Command.OnState
import LayoutMarkup.Proofs.Command.Targets
import LayoutMarkup.Proofs.Component.Alike
import LayoutMarkup.Proofs.Component.Card
import LayoutMarkup.Proofs.Component.Classes
import LayoutMarkup.Proofs.Component.Container
import LayoutMarkup.Proofs.Component.Emitted
import LayoutMarkup.Proofs.Component.Exclusive
import LayoutMarkup.Proofs.Component.Idle
import LayoutMarkup.Proofs.Component.Recorded
import LayoutMarkup.Proofs.Component.Sources
import LayoutMarkup.Proofs.Component.Stages
import LayoutMarkup.Proofs.Document.Agreement
import LayoutMarkup.Proofs.Document.Compiled
import LayoutMarkup.Proofs.Document.Counted
import LayoutMarkup.Proofs.Document.Cut
import LayoutMarkup.Proofs.Document.Elements
import LayoutMarkup.Proofs.Document.Nesting
import LayoutMarkup.Proofs.Document.Scan
import LayoutMarkup.Proofs.Document.Segments
import LayoutMarkup.Proofs.Files.LinkFree
import LayoutMarkup.Proofs.Files.Path
import LayoutMarkup.Proofs.Files.Walk
import LayoutMarkup.Proofs.Files.Writing
import LayoutMarkup.Proofs.Lint.Advice
import LayoutMarkup.Proofs.Lint.Recovery
import LayoutMarkup.Proofs.Lint.Rules
import LayoutMarkup.Proofs.Lint.Suggestion
import LayoutMarkup.Proofs.Props.Entries
import LayoutMarkup.Proofs.Props.Erase
import LayoutMarkup.Proofs.Props.InsertAt
import LayoutMarkup.Proofs.Props.Order
import LayoutMarkup.Proofs.Props.Precedence
import LayoutMarkup.Proofs.Props.Written
import LayoutMarkup.Proofs.Report.Findings
import LayoutMarkup.Proofs.Report.Results
import LayoutMarkup.Proofs.Report.Warnings
import LayoutMarkup.Proofs.Report.Written
import LayoutMarkup.Proofs.Tag.Grammar
import LayoutMarkup.Proofs.Tag.Written
import LayoutMarkup.Proofs.Text.Counted
import LayoutMarkup.Proofs.Text.Cursor
import LayoutMarkup.Proofs.Text.Placed
import LayoutMarkup.Proofs.Text.Run
import LayoutMarkup.Proofs.Text.Shift
import LayoutMarkup.Proofs.Text.Slice
import LayoutMarkup.Proofs.Text.Words
import LayoutMarkup.Props
import LayoutMarkup.Report
import LayoutMarkup.Report.Written
import LayoutMarkup.Tag
import LayoutMarkup.Text.Blank
import LayoutMarkup.Text.Decimal
import LayoutMarkup.Text.Position
import LayoutMarkup.Proofs.Lint.Recorded
import LayoutMarkup.Proofs.Lint.Tokens
import LayoutMarkup.Proofs.Command.Collision
import LayoutMarkup.Proofs.Document.Bytes
import LayoutMarkup.Proofs.Attribute.Bytes
