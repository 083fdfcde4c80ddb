import LittleComputer.Assembly
import LittleComputer.Command
import LittleComputer.Command.Arguments
import LittleComputer.Diagnostic
import LittleComputer.Encoding
import LittleComputer.Failure
import LittleComputer.FileTree
import LittleComputer.Layout
import LittleComputer.Log
import LittleComputer.Main
import LittleComputer.Mnemonic
import LittleComputer.Numeral
import LittleComputer.Statement
import LittleComputer.Statement.Reader
import LittleComputer.SymbolTable
import LittleComputer.SymbolTable.Similar
import LittleComputer.Text
import LittleComputer.Text.Cased
import LittleComputer.Text.Likeness
import LittleComputer.Text.Lower
import LittleComputer.Text.Plain
import LittleComputer.Text.Printable
import LittleComputer.Text.Quoted
import LittleComputer.Token
import LittleComputer.Token.Class
import LittleComputer.Token.Kind
import LittleComputer.Token.Lexer
import LittleComputer.Token.Value
import LittleComputer.Trouble
import LittleComputer.Utf8
import LittleComputer.Proofs.Lexical
import LittleComputer.Proofs.Literal
import LittleComputer.Proofs.Placement
import LittleComputer.Proofs.Layout
import LittleComputer.Proofs.Operands
import LittleComputer.Proofs.Encoding
import LittleComputer.Proofs.Assembly
import LittleComputer.Proofs.Reading
import LittleComputer.Proofs.Change
import LittleComputer.Proofs.ChangedWalks
import LittleComputer.Proofs.ChangedReading
import LittleComputer.Proofs.Invariance
import LittleComputer.Proofs.Scanning
import LittleComputer.Proofs.RoundTrip
import LittleComputer.Proofs.Walks
import LittleComputer.Proofs.Concatenation
import LittleComputer.Proofs.Regions
import LittleComputer.Proofs.Faults
import LittleComputer.Proofs.Image
import LittleComputer.Proofs.Memory
import LittleComputer.Proofs.Grammar
import LittleComputer.Proofs.Joining
import LittleComputer.Proofs.Partition
import LittleComputer.Proofs.Reports
import LittleComputer.Proofs.Kinds
import LittleComputer.Proofs.Spacing
import LittleComputer.Proofs.Listing
import LittleComputer.Proofs.Turns
import LittleComputer.Proofs.Unclosed
import LittleComputer.Proofs.FileTree
import LittleComputer.Proofs.Command
import LittleComputer.Proofs.Continuation
import LittleComputer.Proofs.Strings
import LittleComputer.Proofs.Twins
import LittleComputer.Proofs.Wording
import LittleComputer.Proofs.Shorthand
import LittleComputer.Proofs.LetterCase
import LittleComputer.Proofs.Resuming
import LittleComputer.Proofs.Streams
import LittleComputer.Proofs.Rendering
import LittleComputer.Proofs.Symbols
import LittleComputer.Proofs.TwosComplement
import LittleComputer.Proofs.BinaryText
import LittleComputer.Proofs.Definitions
import LittleComputer.Proofs.Positional
import LittleComputer.Proofs.EditDistance
import LittleComputer.Proofs.Suggestions
