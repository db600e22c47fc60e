import Lox.Text.Printable
import Lox.Text.Quoted
import Lox.Text.Utf8
import Lox.Text.CodePoint
import Lox.Number.Basic
import Lox.Number.Reading
import Lox.Number.Shortest
import Lox.Token.Kind
import Lox.Token.Basic
import Lox.Fault.Cause
import Lox.Fault.Basic
import Lox.Reporter
import Lox.Source.Segment
import Lox.Source.Scan
import Lox.Expr.Operator
import Lox.Expr.Basic
import Lox.Expr.Style
import Lox.Expr.Sketch
import Lox.Parser.Cursor
import Lox.Parser.Rules
import Lox.Parser.Program
import Lox.Files
import Lox.Settings.Basic
import Lox.Settings.Toml
import Lox.Settings.Yaml
import Lox.Settings.Load
import Lox.Command.Log
import Lox.Command.App
import Lox.Command.Flags
import Lox.Command.Readers
import Lox.Main
import Lox.Proofs.MaximalMunch
import Lox.Proofs.Grammar
import Lox.Proofs.Stance
import Lox.Proofs.Moves
import Lox.Proofs.Descent
import Lox.Proofs.Parse
import Lox.Proofs.Regions
import Lox.Proofs.Blanks
import Lox.Proofs.Spacing
import Lox.Proofs.Infix
import Lox.Proofs.Reports
import Lox.Proofs.Script
import Lox.Proofs.Session
import Lox.Proofs.Isolation
import Lox.Proofs.Lines
import Lox.Proofs.FaultySegments
import Lox.Proofs.Statements
import Lox.Proofs.Relabelling
import Lox.Proofs.Respacing
import Lox.Proofs.Numerals
import Lox.Proofs.Causes
import Lox.Proofs.Drafts
import Lox.Proofs.Indexed
import Lox.Proofs.InPlace
import Lox.Proofs.Rounds
import Lox.Proofs.Operations
import Lox.Proofs.WholeTrees
import Lox.Proofs.Progress
import Lox.Proofs.ReporterFlag
import Lox.Proofs.NamedNodes
import Lox.Proofs.Places
import Lox.Proofs.NestedLists
import Lox.Proofs.OperandsFirst
import Lox.Proofs.FaultTrees
import Lox.Proofs.Bundles
import Lox.Proofs.LiveReports
import Lox.Proofs.Configuring
import Lox.Proofs.TokenDumps
import Lox.Proofs.FirstFault
import Lox.Proofs.Boundaries
