import OneDef.Span
import OneDef.Token
import OneDef.Text.Size
import OneDef.Text.Unprintable
import OneDef.Text.Quoted
import OneDef.Numeral
import OneDef.Tree
import OneDef.Error
import OneDef.Token.Scan
import OneDef.Tree.Parser
import OneDef.Tree.Printer
import OneDef.Tree.JavaScript
import OneDef.Cursor
import OneDef.Program
import OneDef.LineMap
import OneDef.Diagnostic
import OneDef.Event
import OneDef.Log
import OneDef.Json
import OneDef.View
import OneDef.Channel
import OneDef.Delivery
import OneDef.FileSystem
import OneDef.Command.Options
import OneDef.Command.Help
import OneDef.Command.Session
import OneDef.Main
import OneDef.Proofs.Grammar
import OneDef.Proofs.Outcome
import OneDef.Proofs.Parsing
import OneDef.Proofs.Expressions
import OneDef.Proofs.Pieces
import OneDef.Proofs.Scanning
import OneDef.Proofs.WellFormed
import OneDef.Proofs.RoundTrip
import OneDef.Proofs.Generated
import OneDef.Proofs.Programs
import OneDef.Proofs.Slices
import OneDef.Proofs.Rounds
import OneDef.Proofs.Subtrees
import OneDef.Proofs.Concatenation
import OneDef.Proofs.Extension
import OneDef.Proofs.ErrorPlaces
import OneDef.Proofs.Exchange
import OneDef.Proofs.Relocation
import OneDef.Proofs.Layout
import OneDef.Proofs.Nesting
import OneDef.Proofs.Sessions
import OneDef.Proofs.Stages
import OneDef.Proofs.Storage
import OneDef.Proofs.Cursors
import OneDef.Proofs.Positions
import OneDef.Proofs.Lookups
import OneDef.Proofs.Traversal
import OneDef.Proofs.Views
import OneDef.Proofs.CommandLines
import OneDef.Proofs.Diagnostics
import OneDef.Proofs.Logs
import OneDef.Proofs.Numerals
