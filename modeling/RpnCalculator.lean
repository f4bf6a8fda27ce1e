import RpnCalculator.Binary64
import RpnCalculator.CommandLine.Flag
import RpnCalculator.CommandLine.Input
import RpnCalculator.CommandLine.Program
import RpnCalculator.CommandLine.Request
import RpnCalculator.CommandLine.Session
import RpnCalculator.Expression.Conversion
import RpnCalculator.Expression.Piece
import RpnCalculator.Lexeme
import RpnCalculator.Machine.Basic
import RpnCalculator.Machine.Line
import RpnCalculator.Machine.Step
import RpnCalculator.Main
import RpnCalculator.Number
import RpnCalculator.Operator
import RpnCalculator.Operator.Arithmetic
import RpnCalculator.RandomSequence
import RpnCalculator.Report
import RpnCalculator.Stack
import RpnCalculator.Text.Basic
import RpnCalculator.Text.Blank
import RpnCalculator.Text.Digit
import RpnCalculator.Text.Numeral
import RpnCalculator.Text.Printable
import RpnCalculator.Text.Quoted
import RpnCalculator.Word
import RpnCalculator.Proofs.Expression.Item
import RpnCalculator.Proofs.Expression.ReleaseRule
import RpnCalculator.Proofs.Expression.Chain
import RpnCalculator.Proofs.Expression.Postorder
import RpnCalculator.Proofs.Expression.Conservation
import RpnCalculator.Proofs.Expression.Agreement
import RpnCalculator.Proofs.Machine.Step
import RpnCalculator.Proofs.Machine.Evaluation
import RpnCalculator.Proofs.Machine.Flattening
import RpnCalculator.Proofs.Machine.Reachable
import RpnCalculator.Proofs.Machine.Reporting
import RpnCalculator.Proofs.Machine.Containment
import RpnCalculator.Proofs.RandomSequence.History
import RpnCalculator.Proofs.RandomSequence.Glibc
import RpnCalculator.Proofs.Binary64
import RpnCalculator.Proofs.Machine.Arithmetic
import RpnCalculator.Proofs.Machine.Representation
import RpnCalculator.Proofs.RandomSequence.Stream
import RpnCalculator.Proofs.Machine.Lines
import RpnCalculator.Proofs.CommandLine.Request
import RpnCalculator.Proofs.CommandLine.Session
import RpnCalculator.Proofs.Machine.Comment
import RpnCalculator.Proofs.CommandLine.Source
import RpnCalculator.Proofs.Machine.Turns
import RpnCalculator.Proofs.Machine.Draw
import RpnCalculator.Proofs.Machine.Verbosity
import RpnCalculator.Proofs.Machine.Locality
import RpnCalculator.Proofs.CommandLine.Listing
import RpnCalculator.Proofs.Expression.Reuse
import RpnCalculator.Proofs.Grammar
import RpnCalculator.Proofs.Machine.Literal
import RpnCalculator.Proofs.RandomSequence.Feedback
import RpnCalculator.Proofs.RandomSequence.Seeds
import RpnCalculator.Proofs.Quoted
import RpnCalculator.Proofs.CommandLine.Dump
import RpnCalculator.Proofs.Expression.Waiting
