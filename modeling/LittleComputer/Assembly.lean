import LittleComputer.Encoding
import LittleComputer.Statement.Reader
import LittleComputer.Token.Lexer

/-! # Assembly

From a source to its words: tokens, statements, symbol table and blocks. Every step runs on the
result of the step before, and the first failure ends the work.

`Assembly.listing` shows addresses, words and statements side by side: three header lines, a line
for every word or for a block without words, an empty line and the symbol table. -/

namespace LittleComputer
set_option autoImplicit false

/-- What assembling a source yields. -/
structure Assembly where
  statements : List Statement
  symbols : SymbolTable
  blocks : List Block
  deriving DecidableEq, Repr

/-- The tokens and statements of a source. -/
def Source.read (source : Source) : Except Failure (List Token × Reading) :=
  match source.tokens with
  | .error diagnostic => .error diagnostic.failure
  | .ok tokens =>
    match Statement.read tokens with
    | .error diagnostic => .error diagnostic.failure
    | .ok reading => .ok (tokens, reading)

/-- Both walks over the statements of a program. -/
def Assembly.ofStatements (statements : List Statement) : Except Failure Assembly := do
  let symbols ← SymbolTable.ofStatements statements
  let blocks ← Block.ofStatements symbols statements
  .ok ⟨statements, symbols, blocks⟩

/-- Assembles a source. -/
def Source.assemble (source : Source) : Except Failure Assembly := do
  let (_, reading) ← source.read
  Assembly.ofStatements reading.statements

namespace Assembly

/-- All words in the order of the statements. -/
def words (assembly : Assembly) : List Word :=
  Block.allWords assembly.blocks

/-! ## Renderings -/

/-- The words as lines of binary digits. -/
def wordsText (assembly : Assembly) : Text :=
  Word.lines assembly.words

/-- The statements, one a line. -/
def statementsText (assembly : Assembly) : Text :=
  Statement.lines assembly.statements

/-- The symbol table. -/
def symbolsText (assembly : Assembly) : Text :=
  assembly.symbols.text

/-- The line of a word in a listing. The address wraps around at the end of the memory. -/
def wordLine (address : Int) (word : Word) (text : Text) : Text :=
  Text.trimEnd
    ("x".toList ++ Numeral.address (Word.ofInteger address).toNat ++ "  x".toList
      ++ Numeral.padded 16 4 word.toNat ++ "  ".toList ++ word.bits ++ "  ".toList ++ text)

/-- The lines of further words of a block, which show no statement. -/
def furtherLines (address : Int) : List Word → List Text
  | [] => []
  | word :: rest => wordLine address word [] :: furtherLines (address + 1) rest

/-- The lines of a block. -/
def blockLines (block : Block) : List Text :=
  match block.words with
  | [] =>
    ["x".toList ++ Numeral.address block.address ++ List.replicate 27 ' ' ++ block.statement.text]
  | word :: rest =>
    wordLine block.address word block.statement.text :: furtherLines (block.address + 1) rest

/-- The lines above the words of a listing. -/
def listingHeader : List Text :=
  ["; Visual LC-3 listing".toList, "Addr   Word   Binary            Instruction".toList,
    List.replicate 60 '-']

/-- The listing of a program. -/
def listing (assembly : Assembly) : Text :=
  Text.unlines
    (listingHeader ++ assembly.blocks.flatMap blockLines ++ [[], assembly.symbolsText])

end Assembly

end LittleComputer
