import Sexpr.Datum
import Sexpr.Describe
import Sexpr.Main
import Sexpr.Node.Access
import Sexpr.Node.Transform
import Sexpr.Proofs.Number.Literal
import Sexpr.Proofs.Node.Flatten
import Sexpr.Proofs.Node.Tokens
import Sexpr.Proofs.Number.Text
import Sexpr.Proofs.Source.Position
import Sexpr.Proofs.Token.Grammar
import Sexpr.Proofs.Token.Layout
import Sexpr.Proofs.Token.Locations
import Sexpr.Proofs.Node.Comments
import Sexpr.Proofs.Node.Text
import Sexpr.Proofs.RoundTrip
import Sexpr.Proofs.Number.Numeral
import Sexpr.Proofs.Token.Failures
import Sexpr.Proofs.Node.Stripping
import Sexpr.Proofs.ReadBack
import Sexpr.Proofs.Token.Segments
import Sexpr.Proofs.Node.Spans
import Sexpr.Proofs.Joining
import Sexpr.Proofs.LineEnds
import Sexpr.Proofs.KeptComments
import Sexpr.Proofs.Cursor.Sessions
import Sexpr.Proofs.Token.Driving
import Sexpr.Proofs.Source.Path
import Sexpr.Proofs.Files.Tree
import Sexpr.Proofs.Files.Sources
import Sexpr.Proofs.InTurn
import Sexpr.Proofs.Node.InFile
import Sexpr.Proofs.Files.Loading
import Sexpr.Proofs.CommandLine.Check
import Sexpr.Proofs.CommandLine.Printing
import Sexpr.Proofs.Node.Unbalanced
import Sexpr.Proofs.Number.Shortest
import Sexpr.Proofs.Node.Traversal
import Sexpr.Proofs.Node.Equality
import Sexpr.Proofs.Datum.Leaves
import Sexpr.Proofs.Datum.Conversion
import Sexpr.Proofs.Node.Outermost
import Sexpr.Proofs.TopLists
import Sexpr.Proofs.Token.Classes
import Sexpr.Proofs.Cursor.Literals
import Sexpr.Proofs.Cursor.Optional
