import LittleComputer.Assembly

/-! # Logs

The notes that the steps of the assembler make about their work, in the order of the work. Notes of
the whole are at the level `info` for a talkative run and at `debug` otherwise; notes of the steps
are always at `debug`. A step that fails makes no note. -/

namespace LittleComputer
set_option autoImplicit false

inductive LogLevel where
  | debug
  | info
  deriving DecidableEq, Repr

/-- The level as a word in front of a note. -/
def LogLevel.name : LogLevel → Text
  | debug => "DEBUG".toList
  | info => "INFO".toList

inductive LogOrigin where
  | lexer
  | reader
  | layout
  | assembler
  | command
  deriving DecidableEq, Repr

/-- A note about the work done. -/
structure LogEntry where
  level : LogLevel
  origin : LogOrigin
  message : Text
  deriving DecidableEq, Repr

namespace LogEntry

def line (entry : LogEntry) : Text :=
  entry.level.name ++ ": ".toList ++ entry.message ++ "\n".toList

/-- A note of the assembler as a whole. -/
def report (verbose : Bool) (message : Text) : LogEntry :=
  ⟨if verbose then .info else .debug, .assembler, message⟩

/-- A note with a number in it. -/
def counted (before : String) (count : Nat) (behind : String) : Text :=
  before.toList ++ Numeral.decimal count ++ behind.toList

/-- The notes on both walks over the statements. -/
def ofWalks (verbose : Bool) (statements : List Statement) : List LogEntry :=
  match SymbolTable.ofStatements statements with
  | .error _ => []
  | .ok symbols =>
    ⟨.debug, .layout, counted "Resolved " symbols.size " symbols"⟩
      :: report verbose (counted "Defined " symbols.size " symbols")
      :: match Block.ofStatements symbols statements with
        | .error _ => []
        | .ok blocks =>
          [report verbose (counted "Generated " (Block.allWords blocks).length " words")]

def ofReading (reading : Reading) : List LogEntry :=
  let ignored :=
    if reading.trailing.isEmpty then []
    else
      [⟨.debug, .reader,
        "Ignoring trailing labels: ".toList ++ Text.join ", ".toList reading.trailing⟩]
  ignored ++ [⟨.debug, .reader, counted "Parsed " reading.statements.length " instructions"⟩]

def ofAssembling (verbose : Bool) (source : Source) : List LogEntry :=
  match source.tokens with
  | .error _ => []
  | .ok tokens =>
    ⟨.debug, .lexer,
      "Tokenized ".toList ++ source.file ++ counted ": " tokens.length " tokens"⟩
      :: match Statement.read tokens with
        | .error _ => []
        | .ok reading =>
          ofReading reading
            ++ report verbose
              (counted "Parsed " reading.statements.length " instructions from "
                ++ counted "" tokens.length " tokens")
            :: ofWalks verbose reading.statements

end LogEntry

end LittleComputer
