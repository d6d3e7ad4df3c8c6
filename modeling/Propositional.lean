import Propositional.Assignment
import Propositional.CommandLine.Log
import Propositional.CommandLine.Options
import Propositional.CommandLine.Run
import Propositional.Connective
import Propositional.Error
import Propositional.Expression
import Propositional.Formula
import Propositional.Formula.Grammar
import Propositional.Graph
import Propositional.Graph.Layout
import Propositional.Gzip
import Propositional.Gzip.Checksum
import Propositional.Gzip.Code
import Propositional.Gzip.Deflate
import Propositional.Gzip.Reader
import Propositional.Main
import Propositional.Network
import Propositional.Proofs.Grammar.Acceptance
import Propositional.Proofs.Grammar.Derivation
import Propositional.Proofs.Grammar.Reading
import Propositional.Proofs.Graph.Unfolding
import Propositional.Proofs.Symbol.Extent
import Propositional.Source
import Propositional.Symbol
import Propositional.Symbol.Lexer
import Propositional.Symbol.Spelling
import Propositional.Table
import Propositional.Table.Rows
import Propositional.Tabulation
import Propositional.Text.Blank
import Propositional.Text.Printable
import Propositional.Text.Quoted
import Propositional.Text.Ranges
import Propositional.Text.WordChar
import Propositional.Proofs.Symbol.Lexing
import Propositional.Proofs.Expression.RoundTrip
import Propositional.Proofs.Network.Evaluation
import Propositional.Proofs.Expression.Runs
import Propositional.Proofs.Table.Bits
import Propositional.Proofs.Table.Rows
import Propositional.Proofs.Table.Completeness
import Propositional.Proofs.Grammar.Viability
import Propositional.Proofs.Formula.Parts
import Propositional.Proofs.Graph.Occupancy
import Propositional.Proofs.Expression.Structure
import Propositional.Proofs.Expression.Assigning
import Propositional.Proofs.Table.Columns
import Propositional.Proofs.Assignment.Writing
import Propositional.Proofs.Table.Tsv
import Propositional.Proofs.CommandLine.Run
import Propositional.Proofs.CommandLine.Agreement
import Propositional.Proofs.Symbol.Separation
import Propositional.Proofs.Network.Demand
import Propositional.Proofs.Table.Iteration
import Propositional.Proofs.Table.Effects
import Propositional.Proofs.Expression.Usage
import Propositional.Proofs.Network.Access
import Propositional.Proofs.Table.Validation
import Propositional.Proofs.CommandLine.Blocks
import Propositional.Proofs.CommandLine.Routes
import Propositional.Proofs.Expression.Missing
import Propositional.Proofs.Network.Writing
import Propositional.Proofs.Grammar.Relabelling
import Propositional.Proofs.Graph.Relabelling
import Propositional.Proofs.Expression.Relabelling
import Propositional.Proofs.Expression.Parentheses
import Propositional.Proofs.Symbol.Names
import Propositional.Proofs.Symbol.Progress
import Propositional.Proofs.Symbol.Location
import Propositional.Proofs.Table.Repetition
import Propositional.Proofs.Expression.Variables
import Propositional.Proofs.CommandLine.Evaluation
import Propositional.Proofs.Assignment.Reading
import Propositional.Proofs.Expression.Depth
import Propositional.Proofs.Network.Building
import Propositional.Proofs.Table.Alignment
import Propositional.Proofs.CommandLine.Abort
import Propositional.Proofs.Table.Counter
