import LittleComputer.Statement

/-! # Diagnostics

What the assembler reports about a wrong program. A `Problem` is the cause; its category, message
and hint follow from it. A `Diagnostic` adds the place, a hint given by whoever reports it and the
source line.

* `Category.wider`: the categories that contain a category, nearest first.
* `Diagnostic.hint`: a given hint that is not empty wins over the hint of the problem.
* `Diagnostic.text`: message, source line with a caret, and hint.
-/

namespace LittleComputer
set_option autoImplicit false

/-- The sorts of problems, from the widest to the narrowest. -/
inductive Category where
  | general
  | assembly
  | lexical
  | grammar
  | linkage
  | addressRange
  | duplicateLabel
  | encoding
  | undefinedLabel
  | fieldRange
  deriving DecidableEq, Repr

/-- The categories that contain a category, nearest first. -/
def Category.wider : Category → List Category
  | general => []
  | assembly => [general]
  | lexical | grammar | linkage | encoding => [assembly, general]
  | addressRange | duplicateLabel => [linkage, assembly, general]
  | undefinedLabel | fieldRange => [encoding, assembly, general]

/-- The two walks over the statements of a program. -/
inductive Pass where
  | layout
  | encoding
  deriving DecidableEq, Repr

/-- The causes of a diagnostic. The last one is a message in free words. -/
inductive Problem where
  | unterminatedString
  | operatorExpected (found : Token)
  | unknownOperator (spelled : Text)
  | operandMissing (mnemonic : Mnemonic) (place : Nat) (wanted : OperandKind)
  | operandMismatch (mnemonic : Mnemonic) (place : Nat) (wanted : OperandKind) (found : Token)
  | outsideRegion (pass : Pass) (statement : Statement)
  | addressRange (address : Int)
  | duplicateLabel (name : Text) (first : Option Location)
  | noEncoding (mnemonic : Mnemonic)
  | wideCharacter (c : Char)
  | undefinedLabel (name : Text) (similar : List Text)
  | fieldRange (value : Int) (bits : Nat)
  | stated (category : Category) (message : Text)
  deriving DecidableEq, Repr

def fieldMinimum (bits : Nat) : Int :=
  -(Nat.pow 2 (bits - 1) : Nat)

def fieldMaximum (bits : Nat) : Int :=
  (Nat.pow 2 (bits - 1) : Nat) - 1

/-- The sentence about a statement outside every region. -/
def Statement.outsideText (statement : Statement) : Text :=
  Text.named statement.text ++ " is not inside an .ORIG/.END region".toList

namespace Problem

def category : Problem → Category
  | unterminatedString => .lexical
  | operatorExpected _ => .grammar
  | unknownOperator _ => .grammar
  | operandMissing _ _ _ => .grammar
  | operandMismatch _ _ _ _ => .grammar
  | outsideRegion .layout _ => .linkage
  | outsideRegion .encoding _ => .encoding
  | addressRange _ => .addressRange
  | duplicateLabel _ _ => .duplicateLabel
  | noEncoding _ => .encoding
  | wideCharacter _ => .encoding
  | undefinedLabel _ _ => .undefinedLabel
  | fieldRange _ _ => .fieldRange
  | stated category _ => category

/-- A token as the wrong one in a sentence: its kind and its content. -/
def foundText (token : Token) : Text :=
  token.kind.name ++ " ".toList ++ Text.named token.content

def message : Problem → Text
  | unterminatedString => "unterminated string literal".toList
  | operatorExpected found => "expected an operator, got ".toList ++ foundText found
  | unknownOperator spelled => "unknown operator ".toList ++ Text.named spelled
  | operandMissing mnemonic _ _ =>
    Text.named mnemonic.spelling ++ " expects ".toList
      ++ Numeral.decimal mnemonic.signature.length
      ++ " operand(s), but the input ended".toList
  | operandMismatch mnemonic place wanted found =>
    "operand ".toList ++ Numeral.decimal place ++ " of ".toList ++ Text.named mnemonic.spelling
      ++ " must be a ".toList ++ wanted.name ++ ", got ".toList ++ foundText found
  | outsideRegion _ statement => statement.outsideText
  | addressRange address =>
    "cannot place an instruction at address ".toList ++ Numeral.integer address
  | duplicateLabel name _ => "duplicate label ".toList ++ Text.named name
  | noEncoding mnemonic => "no encoding for operator ".toList ++ Text.named mnemonic.spelling
  | wideCharacter c =>
    "character U+".toList ++ Numeral.digits 16 c.toNat ++ " does not fit in a 16-bit word".toList
  | undefinedLabel name _ => "undefined label ".toList ++ Text.named name
  | fieldRange value bits =>
    "cannot encode ".toList ++ Numeral.integer value ++ " in ".toList ++ Numeral.decimal bits
      ++ " bits".toList
  | stated _ message => message

/-- The hint that goes with a problem. Of similar labels the first three are named. -/
def hint : Problem → Option Text
  | operandMissing _ place wanted =>
    some ("operand ".toList ++ Numeral.decimal place ++ " should be a ".toList ++ wanted.name)
  | outsideRegion _ _ => some "place code between .ORIG and .END".toList
  | addressRange _ => some "addresses must lie between x0000 and xFFFF".toList
  | duplicateLabel name (some first) =>
    some (Text.named name ++ " was first defined at ".toList ++ first.text)
  | undefinedLabel _ (name :: names) =>
    some ("did you mean ".toList
      ++ Text.join ", ".toList (((name :: names).take 3).map Text.named) ++ "?".toList)
  | fieldRange _ bits =>
    some ("a ".toList ++ Numeral.decimal bits ++ "-bit field holds ".toList
      ++ Numeral.integer (fieldMinimum bits) ++ " to ".toList
      ++ Numeral.integer (fieldMaximum bits))
  | _ => none

/-- The integers that message and hint write in decimal, as far as they have no bound. -/
def integers : Problem → List Int
  | addressRange address => [address]
  | fieldRange value bits => [value, bits, fieldMinimum bits, fieldMaximum bits]
  | _ => []

end Problem

/-- A problem with its place and what helps to mend it. -/
structure Diagnostic where
  problem : Problem
  location : Option Location
  advice : Option Text
  sourceLine : Option Text
  deriving DecidableEq, Repr

namespace Diagnostic

/-- A diagnostic at a place, without advice or source line. -/
def plain (problem : Problem) (location : Option Location) : Diagnostic :=
  { problem, location, advice := none, sourceLine := none }

def category (diagnostic : Diagnostic) : Category :=
  diagnostic.problem.category

def message (diagnostic : Diagnostic) : Text :=
  diagnostic.problem.message

/-- The hint: given advice unless it is empty, then the hint of the problem. -/
def hint (diagnostic : Diagnostic) : Option Text :=
  match diagnostic.advice with
  | some (c :: rest) => some (c :: rest)
  | advice => diagnostic.problem.hint <|> advice

/-- The source line, indented, and below it a caret under the column when that is positive. -/
def excerpt (diagnostic : Diagnostic) : List Text :=
  match diagnostic.sourceLine, diagnostic.location with
  | some line, some location =>
    let shown := "    ".toList ++ line
    if 0 < location.column then
      [shown, List.replicate (4 + (location.column.toNat - 1)) ' ' ++ "^".toList]
    else [shown]
  | _, _ => []

/-- The whole report: message with place, excerpt and hint, each on lines of its own. -/
def text (diagnostic : Diagnostic) : Text :=
  let headline := "error: ".toList ++ diagnostic.message
  let placed :=
    match diagnostic.location with
    | some location => location.text ++ ": ".toList ++ headline
    | none => headline
  let advised :=
    match diagnostic.hint with
    | some (c :: rest) => ["hint: ".toList ++ c :: rest]
    | _ => []
  Text.unlines (placed :: (diagnostic.excerpt ++ advised))

end Diagnostic

end LittleComputer
