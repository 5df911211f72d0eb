import CommandConsole.Text.Blank
import CommandConsole.Text.Scanner
import CommandConsole.Text.Distance
import CommandConsole.Text.Identifier
import CommandConsole.Number.Binary32
import CommandConsole.Number.Decimal
import CommandConsole.Number.Shortest
import CommandConsole.Value.Kind
import CommandConsole.Value.Basic
import CommandConsole.Value.Display
import CommandConsole.Value.Read
import CommandConsole.Literal.NamedColor
import CommandConsole.Variable.Name
import CommandConsole.Literal.Basic
import CommandConsole.Literal.Token
import CommandConsole.Literal.Meaning
import CommandConsole.Command.Line
import CommandConsole.Variable.Store
import CommandConsole.Command.Declaration
import CommandConsole.Command.Resolution
import CommandConsole.Command.Invocation
import CommandConsole.Command.Arguments
import CommandConsole.Command.Suggestion
import CommandConsole.Command.Registry
import CommandConsole.History
import CommandConsole.Log
import CommandConsole.Record.Spacing
import CommandConsole.Record.Word
import CommandConsole.Record.Quoted
import CommandConsole.Record.Attribute
import CommandConsole.Record.Number
import CommandConsole.Record.Skip
import CommandConsole.Settings.Basic
import CommandConsole.Settings.Text
import CommandConsole.Files
import CommandConsole.Settings.Storage
import CommandConsole.Objects
import CommandConsole.Handler.Action
import CommandConsole.Handler.Builtin
import CommandConsole.Handler.Scripted
import CommandConsole.Console.Basic
import CommandConsole.Console.Run
import CommandConsole.Application
import CommandConsole.Terminal
import CommandConsole.Proofs.Traversal
import CommandConsole.Proofs.Resolution.Maximum
import CommandConsole.Proofs.Resolution.Binding
import CommandConsole.Proofs.Text.Language
import CommandConsole.Proofs.Literal.Grammar
import CommandConsole.Proofs.Literal.Unambiguous
import CommandConsole.Proofs.Line.Composition
import CommandConsole.Proofs.Line.Misses
import CommandConsole.Proofs.Resolution.Substitution
import CommandConsole.Proofs.Resolution.Exact
import CommandConsole.Proofs.Command.Registration
import CommandConsole.Proofs.Console.Preparation
import CommandConsole.Proofs.Console.Turn
import CommandConsole.Proofs.Handler.LogUse
import CommandConsole.Proofs.Console.Steps
import CommandConsole.Proofs.Console.Frame
import CommandConsole.Proofs.Console.Containment
import CommandConsole.Proofs.Console.ExactCall
import CommandConsole.Proofs.Console.Activity
import CommandConsole.Proofs.Console.Nesting
import CommandConsole.Proofs.Console.Session
import CommandConsole.Proofs.Handler.Builtin
import CommandConsole.Proofs.Line.Edges
import CommandConsole.Proofs.Console.VariableCommands
import CommandConsole.Proofs.Variable.Store
import CommandConsole.Proofs.Variable.Requests
import CommandConsole.Proofs.Console.Placeholders
import CommandConsole.Proofs.Number.Rounding
import CommandConsole.Proofs.Number.Written
import CommandConsole.Proofs.Literal.Components
import CommandConsole.Proofs.Line.TokenSequence
import CommandConsole.Proofs.Literal.Conversion
import CommandConsole.Proofs.Literal.Quoted
import CommandConsole.Proofs.Literal.Tuple
import CommandConsole.Proofs.Literal.Reference
import CommandConsole.Proofs.Literal.ObjectName
import CommandConsole.Proofs.Number.ReadBack
import CommandConsole.Proofs.Value.ReadBack
import CommandConsole.Proofs.Application.Frames
import CommandConsole.Proofs.Variable.Name
import CommandConsole.Proofs.Command.Acceptance
import CommandConsole.Proofs.Console.Freezing
import CommandConsole.Proofs.Files.Writing
import CommandConsole.Proofs.Record.Parts
import CommandConsole.Proofs.Settings.ReadBack
import CommandConsole.Proofs.History.Operation
import CommandConsole.Proofs.History.Retention
import CommandConsole.Proofs.History.Walk
import CommandConsole.Proofs.Application.Capacity
import CommandConsole.Proofs.Text.Distance
import CommandConsole.Proofs.Command.Ranking
import CommandConsole.Proofs.Command.Completion
import CommandConsole.Proofs.Console.Warnings
import CommandConsole.Proofs.Console.Suggestions
